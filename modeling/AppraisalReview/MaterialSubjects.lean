import AppraisalReview.CaseReview
import AppraisalReview.HumanTasks
import AppraisalReview.TaskRepository

set_option autoImplicit false

/-!
# Explicit subject bindings

Pure changes of the material after trusted admission. A subject names one side
of one factor; the binding is configuration, never part of a response.
-/
namespace AppraisalReview

/-- What a change of the material may raise: `PermissionError` is no fault of the service. -/
inductive SubjectFault where
  | permission (message : String)
  | fault (fault : Fault)
deriving DecidableEq

def SubjectFault.value {α : Type} (message : String) : Except SubjectFault α :=
  .error (.fault (.valueError message))

structure MaterialSubject where
  subjectId : String
  context : ComparisonContext
  factorId : String
  side : Side
deriving DecidableEq

structure MaterialSubjectMap where
  bindings : List MaterialSubject
  unique : (bindings.map MaterialSubject.subjectId).Nodup

namespace MaterialSubjectMap

def build (subjects : List MaterialSubject) : Except Fault MaterialSubjectMap :=
  if subjects.any fun subject =>
      subject.subjectId = "" ∨ subject.factorId = "" ∨ !subject.context.valid then
    .error (.valueError "Invalid material subject binding")
  else if h : (subjects.map MaterialSubject.subjectId).Nodup then .ok ⟨subjects, h⟩
  else .error (.valueError "Duplicate material subject binding")

end MaterialSubjectMap

def MaterialSubject.names (subject : MaterialSubject) (pair : EvidencedPair) : Bool :=
  pair.context = subject.context && pair.pair.factorId = subject.factorId

namespace MaterialSubjectMap

/-- `_resolve` -/
def resolve (subjects : MaterialSubjectMap) (material : ReviewMaterial) (subjectId : String) :
    Except SubjectFault (EvidencedPair × MaterialSubject) :=
  match subjects.bindings.find? fun binding => binding.subjectId = subjectId with
  | none => SubjectFault.value "Unknown material subject"
  | some subject =>
    match material.facts.pairs.filter subject.names with
    | [pair] => .ok (pair, subject)
    | _ => SubjectFault.value "Material subject must resolve to exactly one factor side"

/-- `_project` -/
def project (pair : EvidencedPair) (side : Side) : Except SubjectFault PublicValue :=
  let observation := pair.pair.observation side
  if h : observation.confidence.unit = true then .ok {
    state := if observation.value.isSome then .present else .missing
    value := observation.value.map .normalized
    rawText := observation.rawText.getD ""
    unit := observation.value.bind NormalizedValue.unit
    confidence := some observation.confidence
    evidence := pair.sources side
    stateValue := by cases observation.value <;> simp
    confidenceUnit := h }
  else SubjectFault.value "Input should be less than or equal to 1"

/-- The scores that were measured at a cited place; a new place has no measured score. -/
def measuredScores (observation : FactorObservation) (forms : SourceDocument)
    (ref : SourceCitation) : List { score : Binary64 // score.unit = true } :=
  let existing := observation.evidence.filter fun item =>
    item.documentId = ref.documentId && item.sourceFile = some forms.uri && item.page = ref.page &&
      item.boundingBox.any (Box.same ref.bbox) && item.coordinateSystem = some .pdfBottomLeft
  if existing.isEmpty then [⟨zero64, by decide⟩]
  else existing.map fun item => ⟨item.confidence, item.confidenceUnit⟩

/-- `_evidence` -/
def citedEvidence (observation : FactorObservation) (forms : SourceDocument)
    (ref : SourceCitation) : Except SubjectFault (List EvidenceRef) :=
  if h : 1 ≤ ref.page then
    .ok ((measuredScores observation forms ref).map fun score => {
      documentId := ref.documentId
      sourceFile := some forms.uri
      page := ref.page
      blockIds := [ref.regionId]
      confidence := score.1
      boundingBox := some ref.bbox
      coordinateSystem := some .pdfBottomLeft
      firstPage := h
      confidenceUnit := score.2 })
  else SubjectFault.value "Input should be greater than or equal to 1"

/-- The cited excerpt holds the text, or the citation is of an image or a cell without text. -/
def supportsText (forms : SourceDocument) (rawText : String) (ref : SourceCitation) : Bool :=
  (ref.excerpt ≠ "" && textContains ref.excerpt rawText) ||
    (ref.excerpt = "" && (forms.pages[(ref.page - 1).toNat]?).any fun page =>
      page.regions.any fun region =>
        region.id = ref.regionId && (region.kind = .image || region.kind = .cell))

/-- The present normalized value that a correction proposes for an observation. -/
def proposedValue (correction : ValueRevision) (original : PublicValue)
    (observation : FactorObservation) : Except SubjectFault (PublicValue × NormalizedValue) :=
  match correction.proposed with
  | none => SubjectFault.value "Correction requires a present normalized value"
  | some proposed =>
    match proposed.state, proposed.value with
    | .present, some (.normalized value) =>
      if proposed.unit ≠ value.unit then SubjectFault.value "Correction units are inconsistent"
      else if observation.value.any fun stored =>
          value.type ≠ stored.type ∨ proposed.unit ≠ original.unit then
        SubjectFault.value "Correction cannot reinterpret the original type or unit"
      else if !sameOption Binary64.same proposed.confidence original.confidence then
        SubjectFault.value "Correction cannot change measured observation confidence"
      else .ok (proposed, value)
    | _, _ => SubjectFault.value "Correction requires a present normalized value"

def checkEvidence (purposes : SourcePurposes) (original proposed : PublicValue) :
    Except SubjectFault Unit :=
  if !purposes.allows proposed.evidence .case then
    SubjectFault.value "Correction evidence must resolve to the selected case forms"
  else if strip proposed.rawText.toList = [] ∨
      !proposed.evidence.any (supportsText purposes.forms proposed.rawText) then
    SubjectFault.value "Correction transcription requires supporting source text or image"
  else if original.evidence ≠ [] ∧ !sameCells original.evidence proposed.evidence then
    SubjectFault.value "Correction cannot change the observation source anchors"
  else .ok ()

/-- A source selection without supplied documents raises nothing but `ValueError`. -/
def selectedPurposes (rt : Runtime) (registry : SourceRegistry) :
    Except SubjectFault SourcePurposes :=
  (SourcePurposes.selected rt registry none none).mapError fun
    | .valueError message => .fault (.valueError message)
    | _ => .fault (.valueError "Invalid document")

def replaceSubject (material : ReviewMaterial) (subject : MaterialSubject)
    (pair : EvidencedPair) : ReviewMaterial :=
  { material with facts := { material.facts with
      pairs := material.facts.pairs.map fun old => if subject.names old then pair else old } }

section
variable (rt : Runtime) (ctx : DecimalContext) {content : ContentDigest}
  (digest : TaskRepository.TaskDigest)

def correctedPair (snapshot : RevisionSnapshot content) (pair : EvidencedPair) (side : Side)
    (correction : ValueRevision) (original : PublicValue) (allowMissingEvidence : Bool) :
    Except SubjectFault (PublicValue × EvidencedPair) := do
  let observation := pair.pair.observation side
  if digest.value correction.original ≠ digest.value original then
    SubjectFault.value "Correction original differs from the current observation"
  else do
    let (proposed, value) ← proposedValue correction original observation
    if !allowMissingEvidence ∧ (observation.value = none ∨ original.evidence = [] ∨
        observation.evidence = []) then
      SubjectFault.value "Missing values or evidence require an explicit supply task"
    else do
      let purposes ← selectedPurposes rt snapshot.material.policy.registry
      checkEvidence purposes original proposed
      let evidence ← proposed.evidence.mapM (citedEvidence observation purposes.forms)
      let updated : FactorObservation := {
        rawText := some proposed.rawText
        value := some value
        evidence := evidence.flatten
        confidence := observation.confidence }
      return (proposed, HumanTaskStore.setSources (HumanTaskStore.setObservation pair side updated)
        side proposed.evidence)

theorem both_recorded {α β : Type} (corrected : α) (actor : β) :
    (some corrected).isSome = (some actor).isSome := rfl

/-- Apply an admitted correction without confirming it; the actor has to be human. -/
def correct (subjects : MaterialSubjectMap) (snapshot : RevisionSnapshot content)
    (correction : ValueRevision) (actor : ActorReference) (revisionId : String)
    (allowMissingEvidence : Bool) : Except SubjectFault (RevisionSnapshot content) :=
  if h : actor.kind = .human then
    if correction.corrected ≠ none ∨ correction.correctedBy ≠ none then
      SubjectFault.value "Correction results must be authored by the application"
    else do
      let (pair, subject) ← subjects.resolve snapshot.material correction.subjectId
      let original ← project pair subject.side
      let (proposed, edited) ← correctedPair rt digest snapshot pair subject.side correction original
        allowMissingEvidence
      let corrected ← project edited subject.side
      let recorded : ValueRevision := {
        subjectId := correction.subjectId
        original := original
        proposed := some proposed
        corrected := some corrected
        correctedBy := some actor
        named := correction.named
        correctionActor := both_recorded corrected actor
        humanActor := by simp [h] }
      (snapshot.revise rt ctx content (replaceSubject snapshot.material subject edited) revisionId
        (snapshot.revision.changes ++ [recorded])).mapError .fault
  else .error (.permission "Material changes require a trusted human actor")

end
end MaterialSubjectMap
end AppraisalReview
