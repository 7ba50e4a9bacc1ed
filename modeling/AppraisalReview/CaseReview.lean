import AppraisalReview.Confidence
import AppraisalReview.FactorEngine
import AppraisalReview.FillCandidates
import AppraisalReview.SourcePurpose
import AppraisalReview.TopologicalSort
import Mathlib.Data.List.Sort

set_option autoImplicit false

/-!
# Whole-case review

The review of a case and its independent completion gate, phase by phase. Each
phase returns the findings it adds, and what may escape from it.
-/
namespace AppraisalReview
open TopologicalSort

structure CaseReviewer where
  authorization : Option (ReviewMaterial → Bool)
  minimumConfidence : Binary64
  inRange : minimumConfidence.unit = true

/-- The case a review is about, with the registry the parser reports now. -/
structure ReviewInput where
  policy : ReviewPolicy
  facts : CaseFacts
  registry : SourceRegistry
  forms : Option SourceDocument := none
  criteria : Option SourceDocument := none
  claimed : Option (List FactorReviewResult) := none

namespace CaseReviewer

def authorized (reviewer : CaseReviewer) (input : ReviewInput) : Bool :=
  reviewer.authorization.any fun permits => permits ⟨input.policy, input.facts⟩

end CaseReviewer

def approvalFinding (authorized : Bool) : ReviewFinding :=
  if authorized then
    { id := "trust", kind := "approval", status := .verified,
      trace := "Exact case, policy and facts authorized" }
  else
    { id := "trust", kind := "approval", status := .needsReview,
      trace := "Exact material requires trusted approval" }

def sourcesMatch (rt : Runtime) (reviewed current : SourceRegistry) : Except Escape Bool :=
  if current.documents.length ≠ reviewed.documents.length then .ok false
  else reviewed.documents.allM fun document =>
    current.documents.anyM fun now => now.sameIdentityAndContent rt document

def sourcesFinding (matched : Bool) : ReviewFinding :=
  if matched then
    { id := "sources", kind := "source_identity", status := .verified,
      trace := "Current source versions and hashes match" }
  else
    { id := "sources", kind := "source_identity", status := .failed,
      trace := "Current parser registry differs from policy" }

def violationFinding (violation : SourcePurposes.Violation) : ReviewFinding :=
  { id := violation.1, kind := "source_purpose", status := .needsReview, evidence := violation.2,
    trace := "Source does not support this use in the selected case documents" }

def observedId (slotId : String) : String := "observed/" ++ slotId

def factorKey (context : ComparisonContext) (factor : String) : String :=
  context.key ++ "/factor/" ++ factor

def arithmeticId (checkId : String) : String := "arithmetic/" ++ checkId

def pairKey (pair : EvidencedPair) : String × String := (pair.context.key, pair.pair.factorId)

def contextKeys (policy : ReviewPolicy) : List String :=
  policy.inventory.contexts.map fun entry => entry.context.key

def duplicateIdentity (policy : ReviewPolicy) (facts : CaseFacts) : Bool :=
  !(decide (contextKeys policy).Nodup && decide (facts.pairs.map pairKey).Nodup &&
    decide (policy.inventory.slots.map ReviewSlot.id).Nodup &&
    decide (policy.inventory.checks.map ArithmeticCheck.id).Nodup &&
    decide (facts.observed.map ObservedValue.slotId).Nodup &&
    decide (policy.inventory.emptyColumns.map EmptyColumn.id).Nodup)

/-- A registered context, and a factor exactly where the value needs one. -/
def ReviewSlot.bindsIn (inventory : ReviewInventory) (slot : ReviewSlot) : Bool :=
  match inventory.contexts.find? fun entry => entry.context.key = slot.context.key with
  | none => false
  | some entry =>
    if slot.value.factorBound then slot.factorId.any fun factor => factor ∈ entry.factorIds
    else slot.factorId.isNone

def validSlots (inventory : ReviewInventory) : List ReviewSlot :=
  inventory.slots.filter fun slot => slot.bindsIn inventory

def slotBindingFinding (slot : ReviewSlot) : ReviewFinding :=
  { id := observedId slot.id, kind := "slot_binding", status := .failed,
    context := some slot.context, factorId := slot.factorId, evidence := slot.evidence,
    trace := "Slot requires a registered context and a value-compatible factor binding" }

def inventoryFinding (kind : String) (status : EvaluationStatus) (trace : String) : ReviewFinding :=
  { id := "inventory", kind := kind, status := status, trace := trace }

def DocumentRole.inventoried : DocumentRole → Bool
  | .criteria | .forms => true
  | _ => false

def pagesCovered (inventory : ReviewInventory) (source : SourceDocument) : Bool :=
  inventory.inspectedPages.get? source.documentId = some (source.pages.map SourcePage.number)

def SourceDocument.tables (source : SourceDocument) : List String :=
  (source.pages.flatMap fun page => page.regions.filterMap SourceRegion.tableId).filter (· ≠ "")

def tablesCovered (inventory : ReviewInventory) (source : SourceDocument) : Bool :=
  let declared := (inventory.inspectedTables.get? source.documentId).getD []
  sameSet declared source.tables && decide declared.Nodup

def whenever (condition : Bool) (finding : ReviewFinding) : List ReviewFinding :=
  if condition then [finding] else []

def inventoryFindings (policy : ReviewPolicy) (facts : CaseFacts) (registry : SourceRegistry) :
    List ReviewFinding :=
  let inventory := policy.inventory
  whenever (!(facts.observed.all fun v => v.slotId ∈ inventory.slots.map ReviewSlot.id))
    (inventoryFinding "unknown_observed" .failed "Observation is outside inventory") ++
  whenever (!(facts.pairs.all fun p => p.context.key ∈ contextKeys policy))
    (inventoryFinding "unknown_context" .failed "Facts include an uninventoried context") ++
  (inventory.slots.flatMap fun slot =>
    whenever (!slot.bindsIn inventory) (slotBindingFinding slot)) ++
  (registry.documents.flatMap fun source =>
    whenever (source.role.inventoried && !pagesCovered inventory source)
      (inventoryFinding "page_coverage" .needsReview "Entire source must be inventoried")) ++
  (registry.documents.flatMap fun source =>
    whenever (source.role.inventoried && !tablesCovered inventory source)
      (inventoryFinding "table_coverage" .needsReview
        "Every parser-discovered table needs explicit inventory accounting")) ++
  (inventory.emptyColumns.flatMap fun empty =>
    whenever (!registry.citationsValid empty.evidence)
      (inventoryFinding "empty_column_evidence" .needsReview "Blank column needs evidence")) ++
  ((inventory.unresolved ++ facts.unresolved ++ inventory.unsupported).map fun unresolved =>
    inventoryFinding "unresolved" .needsReview unresolved) ++
  [inventoryFinding "inventory" .verified "Explicit inventory examined independently of results"]

def SourceCitation.sameCell (a b : SourceCitation) : Bool :=
  a.documentId = b.documentId && a.contentHash = b.contentHash && a.version = b.version &&
    a.page = b.page && a.regionId = b.regionId && a.bbox.same b.bbox

def sameCells (a b : List SourceCitation) : Bool :=
  (a.all fun ref => b.any fun other => ref.sameCell other) &&
    b.all fun ref => a.any fun other => ref.sameCell other

def observationOf (facts : CaseFacts) (slotId : String) : Option ObservedValue :=
  facts.observed.find? fun observed => observed.slotId = slotId

def bindsSource (facts : CaseFacts) (registry : SourceRegistry) (slot : ReviewSlot) : Bool :=
  match observationOf facts slot.id with
  | none => false
  | some observation => registry.citationsValid slot.evidence &&
      registry.citationsValid observation.evidence && sameCells slot.evidence observation.evidence

def sourceBindingFinding (slot : ReviewSlot) : ReviewFinding :=
  { id := observedId slot.id, kind := "observed_source_binding", status := .needsReview,
    context := some slot.context, factorId := slot.factorId, evidence := slot.evidence,
    trace := "Every value-source cell must match the slot's complete anchor set" }

def bindingFindings (policy : ReviewPolicy) (facts : CaseFacts) (registry : SourceRegistry) :
    List ReviewFinding :=
  (validSlots policy.inventory).flatMap fun slot =>
    whenever (!bindsSource facts registry slot) (sourceBindingFinding slot)

def RuleApplicability.covers (applicability : RuleApplicability) (identity : CaseIdentity) : Bool :=
  applicability.jurisdiction = identity.district &&
    applicability.landUseCategory = identity.landUseCategory &&
    (applicability.effectiveFrom.all fun first => first ≤ identity.effectiveDate) &&
    (applicability.effectiveTo.all fun last => identity.effectiveDate ≤ last)

def ScopedRules.applies (policy : ReviewPolicy) (context : ComparisonContext)
    (entry : ScopedRules) : Bool :=
  entry.context = context && entry.zone = policy.identity.zone &&
    entry.rules.applicability.covers policy.identity

def ruleSourceValid (registry : SourceRegistry) (entry : InventoryContext) (rules : ScopedRules) :
    Bool :=
  let source := rules.rules.sourceDocument
  (registry.documents.any fun document => document.documentId = source.documentId &&
    document.contentHash = source.contentHash && document.version = rules.sourceVersion) &&
  source.pages ≠ [] && registry.citationsValid rules.evidence &&
  registry.citationsValid entry.evidence && rules.rules.status ≠ .rejected &&
  rules.evidence.all fun ref => ref.documentId = source.documentId && ref.page ∈ source.pages

def EvidenceRef.locates (evidence : EvidenceRef) (ref : SourceCitation) : Bool :=
  evidence.documentId = ref.documentId && evidence.page = ref.page &&
    evidence.boundingBox.any fun box => box.same ref.bbox

/-- An evidence entry stands for a citation of the file the registry names. -/
def evidenceMatches (rt : Runtime) (registry : SourceRegistry) (evidence : EvidenceRef)
    (ref : SourceCitation) : Except Escape Bool :=
  match evidence.sourceFile with
  | none => .ok false
  | some file =>
    if !(evidence.locates ref && evidence.coordinateSystem = some .pdfBottomLeft) then .ok false
    else do
      let own ← documentIdentity rt file
      match registry.documents.find? fun document => document.documentId = ref.documentId with
      | none => throw .stopIteration
      | some document =>
        let cited ← documentIdentity rt document.uri
        return own = cited

def excerptAgrees (raw : String) (ref : SourceCitation) : Bool :=
  ref.excerpt = "" || textContains raw ref.excerpt || textContains ref.excerpt raw

/-- The reading is located, unambiguous and anchored, whatever the method. -/
def sideLocated (rt : Runtime) (registry : SourceRegistry) (pair : EvidencedPair) (side : Side) :
    Except Escape Bool :=
  let refs := pair.sources side
  let reliability := pair.reliability side
  let observation := pair.pair.observation side
  match observation.rawText with
  | none => .ok false
  | some raw =>
    if !(registry.citationsValid refs && reliability.method ≠ .modelProposed &&
        reliability.unresolved = [] && reliability.selection ≠ .ambiguous &&
        observation.evidence ≠ []) then .ok false
    else do
      let matched ← observation.evidence.allM fun evidence =>
        refs.anyM fun ref => evidenceMatches rt registry evidence ref
      return matched && refs.all (excerptAgrees raw)

/-- Every used citation needs an evidence entry, not just the reverse mapping. -/
def sideCited (pair : EvidencedPair) (side : Side) : Bool :=
  (pair.sources side).all fun ref =>
    (pair.pair.observation side).evidence.any fun evidence => evidence.locates ref

def sideConfirmed (rt : Runtime) (authorized : Bool) (pair : EvidencedPair) (side : Side) : Bool :=
  let reliability := pair.reliability side
  authorized && (reliability.confirmation.any fun confirmation =>
    confirmation.inputDigest = confirmationDigest rt pair side) &&
  reliability.confidenceKind ≠ .unknown && reliability.provenance ≠ .unknown

def sideMethod (rt : Runtime) (authorized : Bool) (pair : EvidencedPair) (side : Side) : Bool :=
  let reliability := pair.reliability side
  match reliability.method with
  | .reviewerConfirmed => sideConfirmed rt authorized pair side
  | .nativeNumeric => reliability.confidenceKind = .measured &&
      reliability.provenance = .nativeExtraction && reliability.producer.isSome
  | .modelProposed => false

def sides : List Side := [.target, .comparable]

def pairReliable (rt : Runtime) (registry : SourceRegistry) (authorized : Bool)
    (pair : EvidencedPair) : Except Escape Bool := do
  let located ← sides.allM (sideLocated rt registry pair)
  return located && sides.all fun side => sideCited pair side && sideMethod rt authorized pair side

def confirmedSidesOf (rt : Runtime) (authorized : Bool) (factor : String) (pair : EvidencedPair) :
    ConfirmedSides :=
  (sides.filter fun side => (pair.reliability side).method = .reviewerConfirmed &&
    sideConfirmed rt authorized pair side).map fun side => (factor, side)

def effectiveObservation (pair : EvidencedPair) (side : Side) : FactorObservation :=
  let observation := pair.pair.observation side
  let least := Binary64.least observation.confidence
    (observation.evidence.map EvidenceRef.confidence)
  if (pair.reliability side).method = .nativeNumeric then { observation with confidence := least }
  else observation

def effectivePair (pair : EvidencedPair) : FactorPair where
  factorId := pair.pair.factorId
  target := effectiveObservation pair .target
  comparable := effectiveObservation pair .comparable

structure FactorReading where
  findings : List ReviewFinding
  reliable : Option FactorPair
  confirmed : ConfirmedSides

def missingFactorFinding (context : ComparisonContext) (factor : String) : ReviewFinding :=
  { id := factorKey context factor, kind := "missing_factor", status := .needsReview,
    context := some context, factorId := some factor, trace := "Required factor unavailable" }

def reliabilityFinding (context : ComparisonContext) (factor : String) : ReviewFinding :=
  { id := factorKey context factor, kind := "evidence_reliability", status := .needsReview,
    context := some context, factorId := some factor,
    trace := "Located text or model confidence alone does not prove interpretation" }

def pairsOf (facts : CaseFacts) (context : ComparisonContext) : List EvidencedPair :=
  facts.pairs.filter fun pair => pair.context = context

def pairOf (facts : CaseFacts) (context : ComparisonContext) (factor : String) :
    Option EvidencedPair :=
  (pairsOf facts context).find? fun pair => pair.pair.factorId = factor

def readFactor (rt : Runtime) (facts : CaseFacts) (registry : SourceRegistry) (authorized : Bool)
    (context : ComparisonContext) (rules : FactorRuleSet) (factor : String) :
    Except Escape FactorReading :=
  match pairOf facts context factor with
  | none => .ok ⟨[missingFactorFinding context factor], none, []⟩
  | some pair =>
    if factor ∉ rules.rules.map FactorRule.factorId then
      .ok ⟨[missingFactorFinding context factor], none, []⟩
    else do
      let confirmed := confirmedSidesOf rt authorized factor pair
      if ← pairReliable rt registry authorized pair then
        return ⟨[], some (effectivePair pair), confirmed⟩
      else return ⟨[reliabilityFinding context factor], none, confirmed⟩

structure ContextReview where
  findings : List ReviewFinding
  comparison : Option FactorReviewResult := none
  expected : List (String × Candidate) := []

def contextFinding (context : ComparisonContext) (kind : String) (status : EvaluationStatus)
    (trace : String) : ReviewFinding :=
  { id := context.key, kind := kind, status := status, context := some context, trace := trace }

structure ContextReadings where
  findings : List ReviewFinding
  reliable : List FactorPair
  confirmed : ConfirmedSides

def readFactors (rt : Runtime) (facts : CaseFacts) (registry : SourceRegistry) (authorized : Bool)
    (context : ComparisonContext) (rules : FactorRuleSet) :
    List String → Except Escape ContextReadings
  | [] => .ok ⟨[], [], []⟩
  | factor :: rest => do
    let reading ← readFactor rt facts registry authorized context rules factor
    let later ← readFactors rt facts registry authorized context rules rest
    return ⟨reading.findings ++ later.findings, reading.reliable.toList ++ later.reliable,
      reading.confirmed ++ later.confirmed⟩

def ContextReadings.reliableFactors (readings : ContextReadings) : List String :=
  readings.reliable.map FactorPair.factorId

def gradeCandidate (grade : Option Grade) : Option Candidate := grade.map fun g => .text g.text

def resultValue (item : FactorEvaluationResult) : SlotValue → Option Candidate
  | .targetGrade => gradeCandidate item.targetGrade
  | .comparableGrade => gradeCandidate item.comparableGrade
  | .adjustmentPercent => item.adjustmentPercent.map fun x => .number x.decimal
  | _ => none

/-- The value the engine grounds for a slot; its text reads back as the same number. -/
def engineValue (entry : InventoryContext) (readings : ContextReadings) (result : FactorReviewResult)
    (validation : VerificationReport) (slot : ReviewSlot) : Option Candidate :=
  match slot.factorId with
  | some factor =>
    match result.results.filter fun item => item.factorId = factor with
    | [item] =>
      if item.status = .verified ∧ factor ∈ readings.reliableFactors then
        resultValue item slot.value
      else none
    | _ => none
  | none =>
    if slot.value = .total ∧ (entry.factorIds.all (· ∈ readings.reliableFactors)) ∧
        validation.status = .verified then
      result.summary.totalAdjustmentPercent.map fun x => .number x.decimal
    else none

def calculationFinding (context : ComparisonContext) (version : String)
    (validation : VerificationReport) : ReviewFinding :=
  { id := context.key, kind := "calculation", status := validation.status,
    context := some context, ruleVersion := some version,
    trace :=
      if String.intercalate "; " validation.criticalErrors = "" then
        "Recalculated from source facts and rule matrix"
      else String.intercalate "; " validation.criticalErrors }

def factorFinding (facts : CaseFacts) (context : ComparisonContext) (version : String)
    (item : FactorEvaluationResult) : ReviewFinding :=
  { id := factorKey context item.factorId, kind := "factor", status := item.status,
    context := some context, factorId := some item.factorId, ruleId := item.ruleId,
    ruleVersion := some version,
    expected := some ((item.adjustmentPercent.map fun x => x.repr.text).getD "None"),
    evidence := ((pairsOf facts context).filter fun pair => pair.pair.factorId = item.factorId).flatMap
      fun pair => pair.targetSources ++ pair.comparableSources,
    trace := item.calculationTrace }

/-- Approval is established by the injected authority, not by the stored status. -/
def FactorRuleSet.approve (rules : FactorRuleSet) : FactorRuleSet := { rules with status := .approved }

def sourceHashes (registry : SourceRegistry) : Dict String String :=
  registry.documents.foldl (fun hashes document =>
    hashes.set document.documentId document.contentHash) Dict.empty

/-- The findings about the inventory's factor list, before any factor is read. -/
def coverageFindings (facts : CaseFacts) (entry : InventoryContext) (rules : FactorRuleSet) :
    List ReviewFinding :=
  whenever (!((rules.rules.filter FactorRule.critical).all fun rule =>
      rule.factorId ∈ entry.factorIds))
    (contextFinding entry.context "rule_coverage" .needsReview "Inventory omitted required rules") ++
  whenever (!((pairsOf facts entry.context).all fun pair => pair.pair.factorId ∈ entry.factorIds))
    (contextFinding entry.context "unknown_factor" .failed "Factors outside approved inventory")

variable (rt : Runtime) (ctx : DecimalContext) (reviewer : CaseReviewer)

def engineFor (rules : FactorRuleSet) (confirmed : ConfirmedSides) : FactorRuleEngine :=
  ⟨rules.approve, reviewer.minimumConfidence, confirmed⟩

def contextRequest (input : ReviewInput) (rules : FactorRuleSet) (readings : ContextReadings) :
    FactorEvaluationRequest :=
  ⟨input.policy.identity.caseId, rules.ruleSetId, readings.reliable⟩

def contextResult (input : ReviewInput) (entry : InventoryContext) (evaluated : FactorReviewResult) :
    FactorReviewResult :=
  { evaluated with
    context := some entry.context
    caseVersion := some input.policy.identity.version
    sourceHashes := sourceHashes input.registry }

def contextValidation (input : ReviewInput) (entry : InventoryContext) (rules : FactorRuleSet)
    (readings : ContextReadings) (evaluated : FactorReviewResult) : VerificationReport :=
  verifyResult rt ctx (engineFor reviewer rules readings.confirmed)
    (contextResult input entry evaluated) (some (contextRequest input rules readings))

def contextOutcome (input : ReviewInput) (entry : InventoryContext) (rules : FactorRuleSet)
    (readings : ContextReadings) (evaluated : FactorReviewResult) : ContextReview :=
  let result := contextResult input entry evaluated
  let validation := contextValidation rt ctx reviewer input entry rules readings evaluated
  { findings := coverageFindings input.facts entry rules ++ readings.findings ++
      [calculationFinding entry.context rules.version validation] ++
      result.results.map (factorFinding input.facts entry.context rules.version)
    comparison := some result
    expected := ((validSlots input.policy.inventory).filter fun slot =>
      slot.context = entry.context).filterMap fun slot =>
        (engineValue entry readings result validation slot).map fun value => (slot.id, value) }

def evaluateContext (input : ReviewInput) (entry : InventoryContext) (rules : FactorRuleSet) :
    Except Escape ContextReview := do
  let readings ← readFactors rt input.facts input.registry (reviewer.authorized input) entry.context
    rules entry.factorIds
  if (contextRequest input rules readings).valid then
    let evaluated ← (engineFor reviewer rules readings.confirmed).evaluate rt ctx
      (contextRequest input rules readings)
    return contextOutcome rt ctx reviewer input entry rules readings evaluated
  else throw .validation

def reviewContext (input : ReviewInput) (entry : InventoryContext) :
    Except Escape ContextReview :=
  let stop (kind : String) (status : EvaluationStatus) (trace : String) : Except Escape ContextReview :=
    .ok { findings := [contextFinding entry.context kind status trace] }
  match input.policy.ruleSets.filter (ScopedRules.applies input.policy entry.context) with
  | [] => stop "not_applicable" .needsReview "Exactly one applicable rule set required"
  | [rules] =>
    if !ruleSourceValid input.registry entry rules then
      stop (if rules.rules.status = .rejected then "rule_rejected" else "rule_source") .needsReview
        "Rule source/version/evidence is not valid"
    else if ¬entry.factorIds.Nodup then
      stop "duplicate_factor" .failed "Duplicate inventory factors"
    else evaluateContext rt ctx reviewer input entry rules.rules
  | _ => stop "selection_conflict" .needsReview "Exactly one applicable rule set required"

def claimedFindings (claimed : Option (List FactorReviewResult))
    (comparisons : List FactorReviewResult) : List ReviewFinding :=
  match claimed with
  | none => []
  | some supplied =>
    let equal := supplied.all FactorReviewResult.valid &&
      sameList FactorReviewResult.same supplied comparisons
    [{ id := "claimed_results", kind := "independent_result",
       status := if equal then .verified else .failed,
       trace := "Complete comparison claims checked against independent recomputation" }]

structure ArithmeticPlan where
  inventory : ReviewInventory
  facts : CaseFacts
  registry : SourceRegistry
  version : String
  expected : List (String × Candidate)
  sourceTrust : Bool
  cyclic : Bool

def checksOn (inventory : ReviewInventory) (target : String) : List ArithmeticCheck :=
  inventory.checks.filter fun check => check.target = target

def graphKeys (inventory : ReviewInventory) : List String :=
  Dict.fromKeys ((validSlots inventory).map ReviewSlot.id ++
    inventory.checks.map ArithmeticCheck.target)

def checkGraph (inventory : ReviewInventory) : Graph String :=
  (graphKeys inventory).map fun name =>
    (name, (checksOn inventory name).flatMap ArithmeticCheck.inputs)

/-- `str` of a list of texts. -/
def listText (texts : List String) : String :=
  "[" ++ String.intercalate ", " (texts.map rt.repr) ++ "]"

namespace ArithmeticPlan
variable (plan : ArithmeticPlan)

def slotIds : List String := (validSlots plan.inventory).map ReviewSlot.id

def boundSlot (name : String) : Option ReviewSlot :=
  (validSlots plan.inventory).find? fun slot =>
    slot.id = name && bindsSource plan.facts plan.registry slot

def wellDefined (check : ArithmeticCheck) : Bool :=
  check.target ∈ plan.slotIds && check.inputs.all (· ∈ plan.slotIds) &&
    plan.registry.citationsValid check.evidence

def stoppedFinding (check : ArithmeticCheck) (reason : String) : ReviewFinding :=
  { id := arithmeticId check.id, kind := reason, status := .needsReview, ruleId := some check.id,
    evidence := check.evidence,
    trace := "Unvalidated or cyclic derivation inputs: " ++ listText rt check.inputs }

def examine (trusted : String → Option Decimal) (check : ArithmeticCheck) :
    Except Escape (ReviewFinding ⊕ ArithmeticComparison) :=
  if !plan.wellDefined check then .ok (.inl (stoppedFinding rt check "arithmetic_definition"))
  else if plan.cyclic || !(check.inputs.all fun name => (trusted name).isSome) ||
      (plan.boundSlot check.target).isNone then
    .ok (.inl (stoppedFinding rt check "arithmetic_dependency"))
  else do
    let expected ← calculate ctx check.kind (check.inputs.filterMap trusted) (some check.quantum)
    return .inr ⟨check, expected⟩

def examineAll (trusted : String → Option Decimal) :
    List ArithmeticCheck → Except Escape (List ReviewFinding × List ArithmeticComparison)
  | [] => .ok ([], [])
  | check :: rest => do
    let outcome ← plan.examine rt ctx trusted check
    let (findings, comparisons) ← examineAll trusted rest
    match outcome with
    | .inl finding => return (finding :: findings, comparisons)
    | .inr comparison => return (findings, comparison :: comparisons)

def comparisonFinding (candidate : Option Candidate) (comparison : ArithmeticComparison) :
    Except Escape ReviewFinding := do
  let check := comparison.check
  let accepted ← comparison.accepts ctx candidate
  return {
    id := arithmeticId check.id, kind := "arithmetic",
    status := if accepted then .verified else if candidate = none then .needsReview else .failed,
    trace := check.kind.text ++ "(" ++ listText rt check.inputs ++ "); one grounded candidate; " ++
      "ROUND_HALF_UP quantum=" ++ check.quantum.text ++ "; tolerance=" ++ check.tolerance.text,
    observed := candidate.map Candidate.shown, expected := some comparison.expected.text,
    evidence := check.evidence, ruleId := some check.id, ruleVersion := some plan.version }

def slotFinding (slot : ReviewSlot) (validated : ValidatedSlot) : ReviewFinding :=
  { id := observedId slot.id, kind := validated.kind, status := validated.status,
    trace := validated.trace, observed := validated.candidate.map Candidate.shown,
    expected := validated.expected.map Candidate.shown, context := some slot.context,
    factorId := slot.factorId, evidence := slot.evidence }

def ready (target : String) (stopped : List ReviewFinding) : Bool :=
  !(plan.cyclic && checksOn plan.inventory target ≠ []) && stopped.isEmpty

def independent (target : String) : Option Candidate :=
  (plan.expected.find? fun entry => entry.1 = target).map Prod.snd

/-- One slot, from the numbers trusted so far: its findings and the number it may pass on. -/
def step (trusted : String → Option Decimal) (target : String) :
    Except Escape (List ReviewFinding × Option Decimal) := do
  let (stopped, comparisons) ← plan.examineAll rt ctx trusted (checksOn plan.inventory target)
  match plan.boundSlot target, observationOf plan.facts target with
  | some slot, some original =>
    let validated ← validateSlot rt ctx slot original (plan.independent target) comparisons
      (plan.ready target stopped) plan.sourceTrust
    let compared ← comparisons.mapM (plan.comparisonFinding rt ctx validated.candidate)
    return (stopped ++ compared ++ [slotFinding slot validated], validated.trustedNumber)
  | _, _ => return (stopped, none)

end ArithmeticPlan

def sortedSet (ids : List String) : List String := ids.dedup.insertionSort (· ≤ ·)

/-- `json.dumps(text, ensure_ascii=False)` -/
def quoteUnicode (text : String) : String :=
  String.ofList ('"' :: (text.toList.flatMap fun c =>
    if c.toNat < 127 then CanonicalJson.escape c else [c]) ++ ['"'])

def originOf (slots : List ReviewSlot) (id : String) : Option String :=
  (slots.find? fun slot => observedId slot.id = id).map ReviewSlot.id

def originatingFields (slots : List ReviewSlot) (sourceOrigins : List String)
    (finding : ReviewFinding) : List String :=
  let shared :=
    if (originOf slots finding.id).isSome || "arithmetic/".toList.isPrefixOf finding.id.toList then
      sourceOrigins
    else []
  if finding.status = .verified then []
  else if shared = [] ∧ finding.kind = "observed_source_binding" then
    (originOf slots finding.id).toList
  else shared

def decorate (slots : List ReviewSlot) (sourceOrigins : List String) (finding : ReviewFinding) :
    ReviewFinding :=
  let origins := originatingFields slots sourceOrigins finding
  if origins = [] then finding
  else { finding with
    originatingFieldIds := origins
    trace := finding.trace ++ " Review source evidence for field IDs: " ++
      String.intercalate ", " (origins.map quoteUnicode) }

def verifiedIds (findings : List ReviewFinding) : List String :=
  (findings.filter fun finding => finding.status = .verified).map ReviewFinding.id

def blockedIds (findings : List ReviewFinding) : List String :=
  (findings.filter fun finding => finding.status ≠ .verified).map ReviewFinding.id

def reviewStatus (findings : List ReviewFinding) (required : List String) : EvaluationStatus :=
  if findings.any fun finding => finding.status = .failed then .failed
  else if blockedIds findings ≠ [] ∨ ¬(required.all (· ∈ verifiedIds findings)) then .needsReview
  else .verified

def finish (policy : ReviewPolicy) (slots : List ReviewSlot) (sourceOrigins required : List String)
    (comparisons : List FactorReviewResult) (findings : List ReviewFinding) : CaseReviewResult :=
  let covered := (verifiedIds findings).filter (· ∉ blockedIds findings)
  { identity := policy.identity
    comparisons := comparisons
    findings := findings.map (decorate slots sourceOrigins)
    coverage := {
      required := required
      verified := sortedSet covered
      missing := sortedSet (required.filter (· ∉ covered))
      unsupported := policy.inventory.unsupported }
    status := reviewStatus findings required }

def initialIds : List String := ["trust", "sources", "inventory"]

def requiredIds (input : ReviewInput) : List String :=
  input.policy.inventory.slots.map (fun slot => observedId slot.id) ++
  (input.policy.inventory.contexts.flatMap fun entry =>
    entry.context.key :: entry.factorIds.map (factorKey entry.context)) ++
  (if input.claimed.isSome then ["claimed_results"] else []) ++
  input.policy.inventory.checks.map fun check => arithmeticId check.id

/-- The slots in the order of evaluation, and whether the checks are cyclic. -/
def evaluationOrder (sorter : Sorter String) (inventory : ReviewInventory) : List String × Bool :=
  match sorter.order (checkGraph inventory) with
  | some order => (order, false)
  | none => (graphKeys inventory, true)

def trustBroken (findings : List ReviewFinding) : Bool :=
  findings.any fun finding =>
    (finding.id = "sources" || finding.id = "trust") && finding.status ≠ .verified

def reviewContexts (input : ReviewInput) :
    List InventoryContext → Except Escape (List ContextReview)
  | [] => .ok []
  | entry :: rest => do
    let first ← reviewContext rt ctx reviewer input entry
    let later ← reviewContexts input rest
    return first :: later

def reviewInventory (sorter : Sorter String) (input : ReviewInput)
    (violations : List SourcePurposes.Violation) (sourceOrigins : List String)
    (opening : List ReviewFinding) : Except Escape CaseReviewResult := do
  let inventory := input.policy.inventory
  let contexts ← reviewContexts rt ctx reviewer input inventory.contexts
  let comparisons := contexts.filterMap ContextReview.comparison
  let before := opening ++ inventoryFindings input.policy input.facts input.registry ++
    bindingFindings input.policy input.facts input.registry ++
    contexts.flatMap ContextReview.findings ++ claimedFindings input.claimed comparisons
  let (order, cyclic) := evaluationOrder sorter inventory
  let plan : ArithmeticPlan := {
    inventory := inventory
    facts := input.facts
    registry := input.registry
    version := input.policy.identity.version
    expected := contexts.flatMap ContextReview.expected
    sourceTrust := reviewer.authorized input && violations.isEmpty && !trustBroken before
    cyclic := cyclic }
  let (arithmetic, _) ← settle (plan.step rt ctx) order Dict.empty
  return finish input.policy inventory.slots sourceOrigins
    (initialIds ++ violations.map Prod.fst ++ requiredIds input)
    comparisons (before ++ arithmetic)

/-- `CaseReviewer.review` -/
def review (sorter : Sorter String) (input : ReviewInput) : Except Escape CaseReviewResult :=
  let stop (kind trace : String) : Except Escape CaseReviewResult :=
    .ok (finish input.policy [] [] initialIds []
      [{ id := "trust", kind := kind, status := .failed, trace := trace }])
  if !(input.policy.valid rt ctx && input.facts.valid && input.registry.valid) then
    stop "invalid_input" "Invalid or nonfinite typed material"
  else if input.facts.identity ≠ input.policy.identity then
    stop "case_identity" "Case identity/version does not match policy"
  else do
    let slots := input.policy.inventory.slots
    let matched ← sourcesMatch rt input.policy.registry input.registry
    let violations ← sourceViolations rt input.policy input.facts input.registry input.forms
      input.criteria
    let sourceOrigins := sortedSet (violations.filterMap fun violation => originOf slots violation.1)
    let opening := [approvalFinding (reviewer.authorized input), sourcesFinding matched] ++
      violations.map violationFinding
    if duplicateIdentity input.policy input.facts then
      return finish input.policy slots sourceOrigins (initialIds ++ violations.map Prod.fst) []
        (opening ++ [inventoryFinding "duplicate_identity" .failed "Duplicate composite identities"])
    else reviewInventory rt ctx reviewer sorter input violations sourceOrigins opening

def sampleHash : String := "0123456789abcdef0123456789abcdef0123456789abcdef0123456789abcdef"

theorem sampleHash_text : digestText sampleHash = true := by decide

/-- A runtime that behaves as the real one on the texts of the sample case. -/
def sampleRuntime : Runtime where
  sha256 _ := ⟨sampleHash, sampleHash_text⟩
  casefold := id
  repr text := "'" ++ text ++ "'"
  decimalDigit _ := none
  urlsplit uri :=
    if uri.toList.take 7 = "file://".toList then
      some ⟨"file", "", String.ofList (uri.toList.drop 7), "", ""⟩
    else none
  unquote := id

def sampleBox : Box := ⟨zero64, zero64, one64, one64⟩

def samplePage (text : String) : SourcePage where
  number := 1
  width := one64
  height := one64
  cropBox := sampleBox
  hasText := true
  regions := [{ id := "r", kind := .text, bbox := sampleBox, text := text }]

def sampleForms : SourceDocument :=
  ⟨"forms", "file:///forms.pdf", sampleHash, "1", .forms, none, [samplePage "yes 5.0"]⟩

def sampleCriteria : SourceDocument :=
  ⟨"criteria", "file:///criteria.pdf", sampleHash, "1", .criteria, none, [samplePage "rule"]⟩

def sampleCitation (document excerpt : String) : SourceCitation :=
  ⟨document, sampleHash, "1", 1, "r", sampleBox, excerpt⟩

def sampleContext : ComparisonContext := ⟨.regional, "t", "c"⟩

def sampleIdentity : CaseIdentity := ⟨"case", "1", "district", "zone", "land", 738886⟩

def sampleFive : Binary64 := ⟨⟨"5.0", by decide, by decide⟩, ⟨false, 50, -1⟩, by decide⟩

def sampleRule : FactorRule where
  id := "rule"
  factorId := "factor"
  kind := .category
  categories := [⟨.normal, ["yes"]⟩]
  correctionMatrix := ⟨[("normal", ⟨[("normal", sampleFive)], by decide⟩)], by decide⟩

def sampleRules : ScopedRules where
  context := sampleContext
  rules := ⟨"rules", "1", .candidate, ⟨"district", "land", none, none⟩,
    ⟨"criteria", sampleHash, [1]⟩, [sampleRule]⟩
  sourceVersion := "1"
  zone := "zone"
  evidence := [sampleCitation "criteria" "rule"]

def sampleRegistry : SourceRegistry := ⟨[sampleForms, sampleCriteria]⟩

def sampleSlot (id : String) (factor : Option String) (value : SlotValue) : ReviewSlot where
  id := id
  context := sampleContext
  factorId := factor
  value := value
  evidence := [sampleCitation "forms" "5.0"]

def sampleCheck : ArithmeticCheck where
  id := "check"
  kind := .sum
  inputs := ["adjustment"]
  target := "total"
  evidence := [sampleCitation "forms" "5.0"]

def sampleInventory : ReviewInventory where
  contexts := [⟨sampleContext, ["factor"], [sampleCitation "forms" "yes"]⟩]
  slots := [sampleSlot "adjustment" (some "factor") .adjustmentPercent,
    sampleSlot "total" none .total]
  checks := [sampleCheck]
  inspectedPages := ⟨[("forms", [1]), ("criteria", [1])], by decide⟩

def samplePolicy : ReviewPolicy := ⟨sampleIdentity, sampleRegistry, sampleInventory, [sampleRules]⟩

theorem one64_unit : one64.unit = true := by decide

def sampleEvidence : EvidenceRef where
  documentId := "forms"
  sourceFile := some "file:///forms.pdf"
  page := 1
  confidence := one64
  boundingBox := some sampleBox
  coordinateSystem := some .pdfBottomLeft
  firstPage := by decide
  confidenceUnit := one64_unit

def sampleObservation : FactorObservation where
  rawText := some "yes"
  value := some ⟨.category, .text "yes", none⟩
  evidence := [sampleEvidence]
  confidence := one64

def sampleReliability : Reliability where
  confidenceKind := .measured
  provenance := .nativeExtraction
  producer := some "parser"
  method := .nativeNumeric
  selection := .checked

def samplePair : EvidencedPair where
  context := sampleContext
  pair := ⟨"factor", sampleObservation, sampleObservation⟩
  targetSources := [sampleCitation "forms" "yes"]
  comparableSources := [sampleCitation "forms" "yes"]
  targetReliability := sampleReliability
  comparableReliability := sampleReliability

def sampleObserved (slotId : String) : ObservedValue where
  slotId := slotId
  state := .present
  value := some (.number ⟨false, 50, -1⟩)
  unit := some .percentPoints
  rawText := "5.0"
  evidence := [sampleCitation "forms" "5.0"]

def sampleFacts : CaseFacts :=
  ⟨sampleIdentity, [samplePair], [sampleObserved "adjustment", sampleObserved "total"], []⟩

def sampleInput : ReviewInput where
  policy := samplePolicy
  facts := sampleFacts
  registry := sampleRegistry

def sampleReviewer : CaseReviewer := ⟨some fun _ => true, one64, by decide⟩

end AppraisalReview
