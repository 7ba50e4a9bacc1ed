import AppraisalReview.ReviewContracts

set_option autoImplicit false

/-!
# Factor rules and deterministic evaluation contracts
-/
namespace AppraisalReview

inductive Grade where
  | excellent | slightlySuperior | normal | slightlyInferior | inferior
deriving DecidableEq

def Grade.text : Grade → String
  | .excellent => "excellent"
  | .slightlySuperior => "slightly_superior"
  | .normal => "normal"
  | .slightlyInferior => "slightly_inferior"
  | .inferior => "inferior"

inductive ValueType where
  | number | text | category | boolean
deriving DecidableEq

def ValueType.name : ValueType → String
  | .number => "number"
  | .text => "text"
  | .category => "category"
  | .boolean => "boolean"

inductive RawValue where
  | text (value : String)
  | number (value : Binary64)
  | boolean (value : Bool)
deriving DecidableEq

structure NormalizedValue where
  type : ValueType
  value : RawValue
  unit : Option String := none
deriving DecidableEq

inductive CoordinateSystem where
  | ocrTopLeft | pdfBottomLeft
deriving DecidableEq

/-- Location and confidence of a value. It is checked once, when it is built. -/
structure EvidenceRef where
  documentId : String
  sourceFile : Option String := none
  page : ℤ
  blockIds : List String := []
  confidence : Binary64
  boundingBox : Option Box := none
  coordinateSystem : Option CoordinateSystem := none
  firstPage : 1 ≤ page
  confidenceUnit : confidence.unit = true
deriving DecidableEq

structure RuleApplicability where
  jurisdiction : String
  landUseCategory : String
  effectiveFrom : Option Date := none
  effectiveTo : Option Date := none

structure RuleSource where
  documentId : String
  contentHash : String
  pages : List ℤ := []

structure IntervalBand where
  grade : Grade
  minimum : Option Binary64 := none
  minimumInclusive : Bool := true
  maximum : Option Binary64 := none
  maximumInclusive : Bool := false

structure CategoryBand where
  grade : Grade
  values : List String

abbrev CorrectionMatrix := Dict String (Dict String Binary64)

inductive RuleKind where
  | numericInterval | distanceInterval | category | presenceDistance
deriving DecidableEq

structure FactorRule where
  id : String
  factorId : String
  kind : RuleKind
  unit : Option String := none
  intervals : List IntervalBand := []
  categories : List CategoryBand := []
  correctionMatrix : CorrectionMatrix
  critical : Bool := true

inductive RuleSetStatus where
  | candidate | approved | rejected
deriving DecidableEq

structure FactorRuleSet where
  ruleSetId : String
  version : String
  status : RuleSetStatus
  applicability : RuleApplicability
  sourceDocument : RuleSource
  rules : List FactorRule

structure FactorObservation where
  rawText : Option String := none
  value : Option NormalizedValue := none
  evidence : List EvidenceRef := []
  confidence : Binary64 := zero64
deriving DecidableEq

structure FactorPair where
  factorId : String
  target : FactorObservation
  comparable : FactorObservation

structure FactorEvaluationRequest where
  caseId : String
  ruleSetId : String
  factors : List FactorPair

structure FactorEvaluationResult where
  factorId : String
  targetGrade : Option Grade := none
  comparableGrade : Option Grade := none
  adjustmentPercent : Option Binary64 := none
  ruleId : Option String := none
  calculationTrace : String
  status : EvaluationStatus
  warnings : List String := []

structure EvaluationSummary where
  totalAdjustmentPercent : Option Binary64
  status : EvaluationStatus

structure FactorReviewResult where
  caseId : String
  ruleSetId : String
  ruleVersion : String
  context : Option ComparisonContext := none
  caseVersion : Option String := none
  sourceHashes : Dict String String := Dict.empty
  results : List FactorEvaluationResult
  summary : EvaluationSummary

structure ScopedRules where
  context : ComparisonContext
  rules : FactorRuleSet
  sourceVersion : String
  zone : String
  evidence : List SourceCitation

structure ReviewPolicy where
  identity : CaseIdentity
  registry : SourceRegistry
  inventory : ReviewInventory
  ruleSets : List ScopedRules

structure EvidencedPair where
  context : ComparisonContext
  pair : FactorPair
  targetSources : List SourceCitation
  comparableSources : List SourceCitation
  targetReliability : Reliability
  comparableReliability : Reliability

structure CaseFacts where
  identity : CaseIdentity
  pairs : List EvidencedPair
  observed : List ObservedValue
  unresolved : List String := []

structure ReviewMaterial where
  policy : ReviewPolicy
  facts : CaseFacts

structure CaseReviewResult where
  identity : CaseIdentity
  comparisons : List FactorReviewResult
  findings : List ReviewFinding
  coverage : Coverage
  status : EvaluationStatus

structure VerificationReport where
  status : EvaluationStatus
  criticalErrors : List String

inductive Side where
  | target | comparable
deriving DecidableEq

def Side.text : Side → String
  | .target => "target"
  | .comparable => "comparable"

def FactorPair.observation (pair : FactorPair) : Side → FactorObservation
  | .target => pair.target
  | .comparable => pair.comparable

def EvidencedPair.sources (pair : EvidencedPair) : Side → List SourceCitation
  | .target => pair.targetSources
  | .comparable => pair.comparableSources

def EvidencedPair.reliability (pair : EvidencedPair) : Side → Reliability
  | .target => pair.targetReliability
  | .comparable => pair.comparableReliability

def sameOption {α : Type} (same : α → α → Bool) : Option α → Option α → Bool
  | none, none => true
  | some x, some y => same x y
  | _, _ => false

def FactorEvaluationResult.same (a b : FactorEvaluationResult) : Bool :=
  a.factorId = b.factorId && a.targetGrade = b.targetGrade &&
    a.comparableGrade = b.comparableGrade &&
    sameOption Binary64.same a.adjustmentPercent b.adjustmentPercent &&
    a.ruleId = b.ruleId && a.calculationTrace = b.calculationTrace && a.status = b.status &&
    a.warnings = b.warnings

def EvaluationSummary.same (a b : EvaluationSummary) : Bool :=
  sameOption Binary64.same a.totalAdjustmentPercent b.totalAdjustmentPercent && a.status = b.status

def sameDict (a b : Dict String String) : Bool :=
  a.items.length = b.items.length && a.items.all fun (k, v) => b.get? k = some v

def FactorReviewResult.same (a b : FactorReviewResult) : Bool :=
  a.caseId = b.caseId && a.ruleSetId = b.ruleSetId && a.ruleVersion = b.ruleVersion &&
    a.context = b.context && a.caseVersion = b.caseVersion &&
    sameDict a.sourceHashes b.sourceHashes &&
    sameList FactorEvaluationResult.same a.results b.results && a.summary.same b.summary

def NormalizedValue.valid (value : NormalizedValue) : Bool :=
  match value.type, value.value with
  | .number, .number _ => true
  | .boolean, .boolean _ => true
  | .text, .text _ => true
  | .category, .text _ => true
  | _, _ => false

def RuleApplicability.valid (applicability : RuleApplicability) : Bool :=
  match applicability.effectiveFrom, applicability.effectiveTo with
  | some first, some last => first ≤ last
  | _, _ => true

def IntervalBand.valid (band : IntervalBand) : Bool :=
  match band.minimum, band.maximum with
  | some low, some high => low.lt high
  | _, _ => true

def normalizeAlias (rt : Runtime) (value : String) : String :=
  rt.casefold (String.ofList (strip value.toList))

def FactorRule.aliases (rt : Runtime) (rule : FactorRule) : List String :=
  rule.categories.flatMap fun band => band.values.map (normalizeAlias rt)

/-- Consecutive bands meet, and the shared boundary belongs to exactly one of them. -/
def contiguous : List IntervalBand → Bool
  | previous :: current :: rest =>
    sameOption Binary64.same previous.maximum current.minimum &&
      previous.maximumInclusive != current.minimumInclusive && contiguous (current :: rest)
  | _ => true

def validIntervals (bands : List IntervalBand) : Bool :=
  (bands.head?.bind IntervalBand.minimum).isNone &&
    (bands.getLast?.bind IntervalBand.maximum).isNone && contiguous bands

def sameSet (a b : List String) : Bool := a.all (· ∈ b) && b.all (· ∈ a)

def validMatrix (matrix : CorrectionMatrix) (grades : List String) : Bool :=
  sameSet matrix.keys grades && matrix.values.all fun row => sameSet row.keys grades

def FactorRule.valid (rt : Runtime) (rule : FactorRule) : Bool :=
  let bandGrades := rule.intervals.map (·.grade.text)
  let categoryGrades := rule.categories.map (·.grade.text)
  rule.intervals.all IntervalBand.valid && rule.categories.all (fun band => band.values ≠ []) &&
    match rule.kind with
    | .category =>
      rule.categories ≠ [] && rule.intervals.isEmpty && decide (rule.aliases rt).Nodup &&
        validMatrix rule.correctionMatrix categoryGrades
    | .presenceDistance =>
      !rule.intervals.isEmpty && validIntervals rule.intervals && rule.categories ≠ [] &&
        decide (rule.aliases rt).Nodup &&
        validMatrix rule.correctionMatrix (bandGrades ++ categoryGrades)
    | _ =>
      !rule.intervals.isEmpty && rule.categories.isEmpty && validIntervals rule.intervals &&
        validMatrix rule.correctionMatrix bandGrades

def FactorRuleSet.valid (rt : Runtime) (ruleSet : FactorRuleSet) : Bool :=
  ruleSet.applicability.valid && ruleSet.rules ≠ [] && ruleSet.rules.all (FactorRule.valid rt) &&
    decide (ruleSet.rules.map FactorRule.id).Nodup &&
    decide (ruleSet.rules.map FactorRule.factorId).Nodup

def FactorObservation.valid (observation : FactorObservation) : Bool :=
  observation.value.all NormalizedValue.valid && observation.confidence.unit

def FactorPair.valid (pair : FactorPair) : Bool := pair.target.valid && pair.comparable.valid

def FactorEvaluationRequest.valid (request : FactorEvaluationRequest) : Bool :=
  request.factors.all FactorPair.valid

def FactorReviewResult.valid (result : FactorReviewResult) : Bool :=
  result.context.all ComparisonContext.valid

def ScopedRules.valid (rt : Runtime) (entry : ScopedRules) : Bool :=
  entry.context.valid && entry.rules.valid rt && cited entry.evidence

def ReviewPolicy.valid (rt : Runtime) (ctx : DecimalContext) (policy : ReviewPolicy) : Bool :=
  policy.registry.valid && policy.inventory.valid ctx && policy.ruleSets ≠ [] &&
    policy.ruleSets.all (ScopedRules.valid rt)

def EvidencedPair.valid (pair : EvidencedPair) : Bool :=
  pair.context.valid && pair.pair.valid && pair.targetSources.all SourceCitation.valid &&
    pair.comparableSources.all SourceCitation.valid && pair.targetReliability.valid &&
    pair.comparableReliability.valid

def CaseFacts.valid (facts : CaseFacts) : Bool :=
  facts.pairs.all EvidencedPair.valid && facts.observed.all ObservedValue.valid

end AppraisalReview
