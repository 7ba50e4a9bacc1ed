import AppraisalReview.FactorModels

set_option autoImplicit false

/-!
# Confirmation of one side of a pair

The digest a reviewer signs, and the fact that its text determines every field
it covers. Raw measurements are never promoted.
-/
namespace AppraisalReview
open CanonicalJson

structure Covered where
  context : ComparisonContext
  factorId : String
  side : Side
  observation : FactorObservation
  sources : List SourceCitation
  confidenceKind : ConfidenceKind
  provenance : Provenance
  producer : Option String
  modelConfidence : Option Binary64
  selection : ReliabilitySelection
  unresolved : List String
deriving DecidableEq

def EvidencedPair.covered (pair : EvidencedPair) (side : Side) : Covered where
  context := pair.context
  factorId := pair.pair.factorId
  side := side
  observation := pair.pair.observation side
  sources := pair.sources side
  confidenceKind := (pair.reliability side).confidenceKind
  provenance := (pair.reliability side).provenance
  producer := (pair.reliability side).producer
  modelConfidence := (pair.reliability side).modelConfidence
  selection := (pair.reliability side).selection
  unresolved := (pair.reliability side).unresolved

def optionJson {α : Type} (json : α → Json) : Option α → Json
  | none => .null
  | some x => json x

def stringsJson (texts : List String) : Json := .array (texts.map .string)

def Box.json (box : Box) : Json :=
  .array [.number box.x0.repr, .number box.y0.repr, .number box.x1.repr, .number box.y1.repr]

def SourceCitation.json (citation : SourceCitation) : Json := .object [
  ("bbox", citation.bbox.json),
  ("content_hash", .string citation.contentHash),
  ("document_id", .string citation.documentId),
  ("excerpt", .string citation.excerpt),
  ("page", .number (intText citation.page)),
  ("region_id", .string citation.regionId),
  ("version", .string citation.version)]

def ComparisonContext.json (context : ComparisonContext) : Json := .object [
  ("comparable_id", .string context.comparableId),
  ("scope", .string context.scope.text),
  ("target_id", .string context.targetId)]

def RawValue.json : RawValue → Json
  | .text value => .string value
  | .number value => .number value.repr
  | .boolean value => .bool value

def NormalizedValue.json (value : NormalizedValue) : Json := .object [
  ("type", .string value.type.name),
  ("unit", optionJson .string value.unit),
  ("value", value.value.json)]

def CoordinateSystem.text : CoordinateSystem → String
  | .ocrTopLeft => "ocr_top_left"
  | .pdfBottomLeft => "pdf_bottom_left"

def EvidenceRef.json (evidence : EvidenceRef) : Json := .object [
  ("block_ids", stringsJson evidence.blockIds),
  ("bounding_box", optionJson Box.json evidence.boundingBox),
  ("confidence", .number evidence.confidence.repr),
  ("coordinate_system", optionJson (fun c => .string c.text) evidence.coordinateSystem),
  ("document_id", .string evidence.documentId),
  ("page", .number (intText evidence.page)),
  ("source_file", optionJson .string evidence.sourceFile)]

def FactorObservation.json (observation : FactorObservation) : Json := .object [
  ("confidence", .number observation.confidence.repr),
  ("evidence", .array (observation.evidence.map EvidenceRef.json)),
  ("raw_text", optionJson .string observation.rawText),
  ("value", optionJson NormalizedValue.json observation.value)]

def Covered.json (data : Covered) : Json := .object [
  ("context", data.context.json),
  ("factor_id", .string data.factorId),
  ("observation", data.observation.json),
  ("reliability", .object [
    ("confidence_kind", .string data.confidenceKind.text),
    ("model_confidence", optionJson (fun x => .number x.repr) data.modelConfidence),
    ("producer", optionJson .string data.producer),
    ("provenance", .string data.provenance.text),
    ("selection", .string data.selection.text),
    ("unresolved", stringsJson data.unresolved)]),
  ("side", .string data.side.text),
  ("sources", .array (data.sources.map SourceCitation.json))]

def confirmationDigest (rt : Runtime) (pair : EvidencedPair) (side : Side) : String :=
  (rt.sha256 (dumps (pair.covered side).json)).text

def EvidencedPair.setReliability (pair : EvidencedPair) (side : Side) (reliability : Reliability) :
    EvidencedPair :=
  match side with
  | .target => { pair with targetReliability := reliability }
  | .comparable => { pair with comparableReliability := reliability }

/-- Called by the trusted reviewer operation. The final material still needs
the exact-material authority. -/
def confirmSide (rt : Runtime) (pair : EvidencedPair) (side : Side) (reviewer : String) :
    Except Escape EvidencedPair :=
  let observation := pair.pair.observation side
  let reliability := pair.reliability side
  if observation.value = none ∨ observation.evidence = [] ∨ pair.sources side = [] ∨
      reliability.unresolved ≠ [] ∨ reliability.selection = .ambiguous ∨
      reliability.confidenceKind = .unknown ∨ reliability.provenance = .unknown then
    .error (.valueError "Resolve missing facts, provenance and ambiguity before confirmation")
  else if reviewer = "" then .error .validation
  else .ok (pair.setReliability side { reliability with
    confirmation := some ⟨reviewer, confirmationDigest rt pair side⟩
    method := .reviewerConfirmed })

theorem optionJson_injective {α : Type} {json : α → Json} (hjson : Function.Injective json)
    (hnull : ∀ x, json x ≠ .null) : Function.Injective (optionJson json) := by
  intro a b h
  cases a with
  | none =>
    cases b with
    | none => rfl
    | some y => exact absurd h.symm (hnull y)
  | some x =>
    cases b with
    | none => exact absurd h (hnull x)
    | some y => exact congrArg some (hjson h)

theorem optionString_injective : Function.Injective (optionJson Json.string) :=
  optionJson_injective (fun _ _ h => Json.string.inj h) fun _ => Json.noConfusion

theorem stringsJson_injective : Function.Injective stringsJson := by
  intro a b h
  exact List.map_injective_iff.mpr (fun _ _ h => Json.string.inj h) (Json.array.inj h)

theorem number_injective {x y : Binary64} (h : Json.number x.repr = Json.number y.repr) : x = y :=
  Binary64.ext_repr (Json.number.inj h)

theorem Box.json_injective : Function.Injective Box.json := by
  rintro ⟨a, b, c, d⟩ ⟨a', b', c', d'⟩ h
  simp only [Box.json, Json.array.injEq, List.cons.injEq, and_true] at h
  obtain ⟨ha, hb, hc, hd⟩ := h
  rw [number_injective ha, number_injective hb, number_injective hc, number_injective hd]

theorem SourceCitation.json_injective : Function.Injective SourceCitation.json := by
  rintro ⟨document, hash, version, page, region, box, excerpt⟩
    ⟨document', hash', version', page', region', box', excerpt'⟩ h
  simp only [SourceCitation.json, Json.object.injEq, List.cons.injEq, Prod.mk.injEq, true_and,
    Json.string.injEq, Json.number.injEq, and_true] at h
  obtain ⟨hbox, rfl, rfl, rfl, hpage, rfl, rfl⟩ := h
  rw [Box.json_injective hbox, intText_injective hpage]

theorem ComparisonContext.json_injective : Function.Injective ComparisonContext.json := by
  rintro ⟨scope, target, comparable⟩ ⟨scope', target', comparable'⟩ h
  simp only [ComparisonContext.json, Json.object.injEq, List.cons.injEq, Prod.mk.injEq, true_and,
    Json.string.injEq, and_true] at h
  obtain ⟨rfl, hscope, rfl⟩ := h
  rw [Scope.text_injective hscope]

theorem RawValue.json_injective : Function.Injective RawValue.json := by
  intro a b h
  cases a <;> cases b <;> simp only [RawValue.json, reduceCtorEq] at h
  · rw [Json.string.inj h]
  · rw [number_injective h]
  · rw [Json.bool.inj h]

theorem ValueType.name_injective : Function.Injective ValueType.name := by
  intro a b h
  cases a <;> cases b <;> first | rfl | exact absurd h (by decide)

theorem CoordinateSystem.text_injective : Function.Injective CoordinateSystem.text := by
  intro a b h
  cases a <;> cases b <;> first | rfl | exact absurd h (by decide)

theorem ConfidenceKind.text_injective : Function.Injective ConfidenceKind.text := by
  intro a b h
  cases a <;> cases b <;> first | rfl | exact absurd h (by decide)

theorem Provenance.text_injective : Function.Injective Provenance.text := by
  intro a b h
  cases a <;> cases b <;> first | rfl | exact absurd h (by decide)

theorem ReliabilitySelection.text_injective : Function.Injective ReliabilitySelection.text := by
  intro a b h
  cases a <;> cases b <;> first | rfl | exact absurd h (by decide)

theorem Side.text_injective : Function.Injective Side.text := by
  intro a b h
  cases a <;> cases b <;> first | rfl | exact absurd h (by decide)

theorem NormalizedValue.json_injective : Function.Injective NormalizedValue.json := by
  rintro ⟨type, value, unit⟩ ⟨type', value', unit'⟩ h
  simp only [NormalizedValue.json, Json.object.injEq, List.cons.injEq, Prod.mk.injEq, true_and,
    Json.string.injEq, and_true] at h
  obtain ⟨htype, hunit, hvalue⟩ := h
  rw [ValueType.name_injective htype, optionString_injective hunit, RawValue.json_injective hvalue]

theorem EvidenceRef.json_injective : Function.Injective EvidenceRef.json := by
  rintro ⟨document, file, page, blocks, confidence, box, coordinates, _, _⟩
    ⟨document', file', page', blocks', confidence', box', coordinates', _, _⟩ h
  simp only [EvidenceRef.json, Json.object.injEq, List.cons.injEq, Prod.mk.injEq, true_and,
    Json.string.injEq, Json.number.injEq, and_true] at h
  obtain ⟨hblocks, hbox, hconfidence, hcoordinates, rfl, hpage, hfile⟩ := h
  have hsystem : coordinates = coordinates' :=
    optionJson_injective (fun _ _ h => CoordinateSystem.text_injective (Json.string.inj h))
      (fun _ => Json.noConfusion) hcoordinates
  have hboxes : box = box' :=
    optionJson_injective Box.json_injective (fun _ => Json.noConfusion) hbox
  obtain rfl := stringsJson_injective hblocks
  obtain rfl := Binary64.ext_repr hconfidence
  obtain rfl := intText_injective hpage
  obtain rfl := optionString_injective hfile
  subst hsystem hboxes
  rfl

theorem FactorObservation.json_injective : Function.Injective FactorObservation.json := by
  rintro ⟨raw, value, evidence, confidence⟩ ⟨raw', value', evidence', confidence'⟩ h
  simp only [FactorObservation.json, Json.object.injEq, List.cons.injEq, Prod.mk.injEq, true_and,
    Json.number.injEq, Json.array.injEq, and_true] at h
  obtain ⟨hconfidence, hevidence, hraw, hvalue⟩ := h
  have hvalues : value = value' :=
    optionJson_injective NormalizedValue.json_injective (fun _ => Json.noConfusion) hvalue
  rw [Binary64.ext_repr hconfidence, optionString_injective hraw, hvalues,
    List.map_injective_iff.mpr EvidenceRef.json_injective hevidence]

theorem Covered.json_injective : Function.Injective Covered.json := by
  rintro ⟨context, factor, side, observation, sources, kind, provenance, producer, model, selection,
    unresolved⟩ ⟨context', factor', side', observation', sources', kind', provenance', producer',
    model', selection', unresolved'⟩ h
  simp only [Covered.json, Json.object.injEq, List.cons.injEq, Prod.mk.injEq, true_and,
    Json.string.injEq, Json.array.injEq, and_true] at h
  obtain ⟨hcontext, rfl, hobservation, ⟨hkind, hmodel, hproducer, hprovenance, hselection,
    hunresolved⟩, hside, hsources⟩ := h
  have hmodels : model = model' :=
    optionJson_injective (fun _ _ h => number_injective h) (fun _ => Json.noConfusion) hmodel
  rw [ComparisonContext.json_injective hcontext, FactorObservation.json_injective hobservation,
    ConfidenceKind.text_injective hkind, hmodels, optionString_injective hproducer,
    Provenance.text_injective hprovenance, ReliabilitySelection.text_injective hselection,
    stringsJson_injective hunresolved, Side.text_injective hside,
    List.map_injective_iff.mpr SourceCitation.json_injective hsources]

end AppraisalReview
