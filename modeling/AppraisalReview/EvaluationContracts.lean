import AppraisalReview.ExtractionBudget
import AppraisalReview.FactorModels
import AppraisalReview.JobContracts

set_option autoImplicit false

/-!
# Offline evaluation of extraction outcomes

A manifest schedules pages, a replay records what happened to them, and the
goldens say what each page shows. A recorded outcome counts once per repeat and
page; what breaks a declared limit is scored as failed, with its telemetry intact.
-/
namespace AppraisalReview.Evaluation
open Extraction

structure SanitizedSourceReference where
  document : DocumentReference
  privacyManifestDigest : Digest
  pageCount : ℕ
deriving DecidableEq

inductive Language where
  | zhHant | en
deriving DecidableEq

inductive PageTask where
  | proposeRules | proposeCase | inspectReference
deriving DecidableEq

structure ExtractionContext where
  language : Language
  task : PageTask
deriving DecidableEq

structure PageRequest where
  run : RunReference
  source : SanitizedSourceReference
  page : ℕ
  context : ExtractionContext
deriving DecidableEq

structure ProviderConfiguration where
  provider : OpaqueID
  modelId : String
  region : OpaqueID
  api : OpaqueID
  routingRegions : List OpaqueID
  temperature : Binary64
  maxOutputTokens : ℕ
deriving DecidableEq

structure ProviderTelemetry where
  configuration : ProviderConfiguration
  promptVersion : OpaqueID
  promptDigest : Digest
  attempts : List AttemptTelemetry
deriving DecidableEq

structure HandoffLocation where
  page : ℕ
  regionId : Option OpaqueID := none
  fieldId : Option OpaqueID := none
deriving DecidableEq

inductive HandoffReason where
  | missing | lowConfidence | conflicting | unsupported | pageFailed
deriving DecidableEq

structure HandoffRequest where
  request : PageRequest
  reason : HandoffReason
  locations : List HandoffLocation
deriving DecidableEq

structure ProposedRule where
  scope : Scope
  rule : FactorRule
  evidence : List SourceCitation
  unresolved : List String := []

structure PageProposal where
  rules : List ProposedRule := []
  contexts : List InventoryContext := []
  pairs : List EvidencedPair := []
  observed : List ObservedValue := []
  slots : List ReviewSlot := []
  checks : List ArithmeticCheck := []
  emptyColumns : List EmptyColumn := []
  unresolved : List String := []
  unsupported : List String := []

inductive PageStatus where
  | candidate | failed
deriving DecidableEq

/-- Success means a candidate was produced, not that facts are verified. -/
structure PageOutcome where
  request : PageRequest
  status : PageStatus
  proposal : Option PageProposal
  failure : Option FailureCode
  telemetry : ProviderTelemetry
  handoffs : List HandoffRequest

structure EvaluationInput where
  source : SanitizedSourceReference
  pages : List ℕ

inductive UnitPolicy where
  | exact | versionedConversion
deriving DecidableEq

inductive Localization where
  | notMeasured | regionIou
deriving DecidableEq

structure ScoringPolicy where
  policyVersion : OpaqueID
  policyDigest : Digest
  numericAbsoluteTolerance : Decimal
  numericRelativeTolerance : Decimal
  unitPolicy : UnitPolicy
  unitPolicyDigest : Option Digest
  localization : Localization
  minimumIou : Option Binary64
  acceptanceThresholdsDigest : Option Digest

structure CostPolicy where
  currency : String
  ratesDate : Date
  ratesSource : String
  ratesDigest : Digest
  inputPerMillion : Decimal
  outputPerMillion : Decimal
  estimatedCostCeiling : Decimal

inductive DatasetKind where
  | synthetic | sanitized
deriving DecidableEq

inductive ExecutionKind where
  | replay | mocked | live
deriving DecidableEq

inductive EvaluationSplit where
  | development | heldOut
deriving DecidableEq

structure EvaluationBudget where
  maxPages : ℕ
  maxCalls : ℕ
  maxAttemptsPerPage : ℕ
  maxOutputTokens : ℕ
  maxElapsedSeconds : Binary64

structure EvaluationManifest where
  datasetDigest : Digest
  datasetKind : DatasetKind
  executionKind : ExecutionKind
  split : EvaluationSplit
  splitDigest : Digest
  goldenDigest : Digest
  goldenSchemaVersion : OpaqueID
  inputs : List EvaluationInput
  promptVersion : OpaqueID
  promptDigest : Digest
  configuration : ProviderConfiguration
  budget : EvaluationBudget
  scoring : ScoringPolicy
  repeats : ℕ
  costPolicy : Option CostPolicy

structure GoldenBinding where
  caseId : OpaqueID
  goldenCaseKey : String
deriving DecidableEq

structure RepeatedOutcome where
  repetition : ℕ
  outcome : PageOutcome

/-- A callback failed without an outcome; attempts and tokens are unknown. -/
structure EvaluationExecutionError where
  repetition : ℕ
  inputIndex : ℕ
  page : ℕ
  failure : FailureCode

structure TokenPriceEvidence where
  configurationDigest : Digest
  currency : String
  ratesDate : Date
  ratesSource : String
  inputPerMillion : Decimal
  outputPerMillion : Decimal

structure EvaluationReplay where
  manifestDigest : Digest
  bindings : List GoldenBinding
  outcomes : List RepeatedOutcome
  executionErrors : List EvaluationExecutionError := []
  pricingEvidence : Option TokenPriceEvidence := none

structure DocumentProvenance where
  documentId : String
  role : DocumentPurpose
  version : String
  contentHash : Digest
  pageCount : ℕ

structure FixtureProvenance where
  materialDigest : Digest
  documents : List DocumentProvenance

/-- What the synthetic form actually shows, with the citation that proves it. -/
structure ObservedExpectation where
  state : ObservedState
  value : Option String := none
  unit : Option ObservedUnit := none
  citation : Option SourceCitation := none

structure ExpectedSlot where
  slotId : String
  slotValue : SlotValue
  context : ComparisonContext
  factorId : Option String := none
  observed : ObservedExpectation

structure GoldenCase where
  caseKey : String
  fixture : FixtureProvenance
  identity : CaseIdentity
  expectedSlots : List ExpectedSlot := []

structure GoldenSuite where
  schemaVersion : String
  cases : List GoldenCase

def knownOutputTokens (outcome : PageOutcome) : Int :=
  (outcome.telemetry.attempts.filterMap AttemptTelemetry.outputTokens).sum

def budgetExceeded (manifest : EvaluationManifest) (outcome : PageOutcome)
    (usedCalls usedOutputTokens : Int) : Bool :=
  let attempts := outcome.telemetry.attempts
  manifest.budget.maxAttemptsPerPage < attempts.length ||
    (attempts.any fun attempt => attempt.outputTokens.any fun tokens =>
      (manifest.configuration.maxOutputTokens : Int) < tokens) ||
    manifest.budget.maxCalls < usedCalls + attempts.length ||
    manifest.budget.maxOutputTokens < usedOutputTokens + knownOutputTokens outcome

def failedProjection (outcome : PageOutcome) : PageOutcome :=
  { outcome with
    status := .failed
    proposal := none
    failure := some .budgetExhausted
    handoffs :=
      if outcome.handoffs.any fun handoff => handoff.reason = .pageFailed then outcome.handoffs
      else outcome.handoffs ++ [⟨outcome.request, .pageFailed, [⟨outcome.request.page, none, none⟩]⟩] }

/-- Reject an over-budget result without discarding any recorded billed attempt. -/
def checkRecordedBudget (manifest : EvaluationManifest) (outcome : PageOutcome)
    (usedCalls usedOutputTokens : Int) : PageOutcome × Bool :=
  if budgetExceeded manifest outcome usedCalls usedOutputTokens then
    (failedProjection outcome, true)
  else (outcome, false)

end AppraisalReview.Evaluation
