import AppraisalReview.DecimalText
import AppraisalReview.EvaluationContracts
import AppraisalReview.Reordering
import Mathlib.Logic.Function.Basic

set_option autoImplicit false

/-!
# The schedule of an evaluation

The bindings, digests and denominators are checked before anything is scored.
Every recorded outcome belongs to one scheduled page of one repeat, and the
declared limits are applied in schedule order, whatever the order of the replay.
-/
namespace AppraisalReview.Evaluation
open Extraction

/-- What leaves the evaluation: a reason code, or an exception of the language. -/
inductive Halt where
  | rejected (code : String)
  | keyError
  | arithmetic (signal : Signal)
deriving DecidableEq

/-- `_require` -/
def require (condition : Bool) (code : String) : Except Halt Unit :=
  if condition then .ok () else .error (.rejected code)

abbrev PageKey := String × String × ℤ
abbrev FieldKey := String × String

/-- The canonical digests that the code takes of its inputs. -/
structure Digests where
  manifest : EvaluationManifest → Digest
  dataset : List EvaluationInput → Digest
  golden : GoldenSuite → Digest
  split : EvaluationSplit → List GoldenBinding → Digest
  scoringPolicy : ScoringPolicy → Digest
  unitConversion : Digest
  rates : TokenPriceEvidence → Digest
  configuration : ProviderConfiguration → Digest

structure Schedule where
  pages : Dict PageKey EvaluationInput
  cases : Dict String GoldenCase
  expected : Dict FieldKey ExpectedSlot
  outcomes : ℕ → Dict PageKey PageOutcome
  executionErrors : ℕ → Dict PageKey EvaluationExecutionError

/-- `_number`: a finite decimal, or nothing. -/
def number (rt : Runtime) : Option ObservedContent → Option Decimal
  | none => none
  | some (.number value) => some value
  | some (.text value) =>
    match Decimal.ofText rt.decimalDigit value with
    | .finite d => some d
    | _ => none

def validBox (box : Box) : Bool :=
  zero64.le box.x0 && box.x0.lt box.x1 && (zero64.le box.y0 && box.y0.lt box.y1)

def caseOf (document : DocumentReference) : String := document.caseId.text

def keyOf (document : DocumentReference) (page : ℤ) : PageKey :=
  (caseOf document, document.documentId.text, page)

def pageKey (outcome : PageOutcome) : PageKey :=
  keyOf outcome.request.source.document outcome.request.page

def casesByKey (goldens : GoldenSuite) : Dict String GoldenCase :=
  goldens.cases.foldl (fun found case => found.set case.caseKey case) Dict.empty

def bindCase (byKey : Dict String GoldenCase) (cases : Dict String GoldenCase)
    (binding : GoldenBinding) : Except Halt (Dict String GoldenCase) := do
  require (cases.get? binding.caseId.text).isNone "duplicate_case_binding"
  match byKey.get? binding.goldenCaseKey with
  | none => throw (.rejected "unknown_golden_case")
  | some case =>
    require (case.identity.caseId = binding.caseId.text) "golden_case_mismatch"
    return cases.set binding.caseId.text case

def DocumentProvenance.describes (provenance : DocumentProvenance)
    (source : SanitizedSourceReference) : Bool :=
  provenance.version = source.document.version.text &&
    provenance.contentHash = source.document.contentHash &&
    provenance.role = source.document.purpose && provenance.pageCount = source.pageCount

/-- A case is scheduled with all pages of its documents, never a successful subset. -/
def coversAll (pages : List ℕ) (count : ℕ) : Bool :=
  (pages.all fun page => 1 ≤ page && page ≤ count) &&
    (List.range count).all fun page => page + 1 ∈ pages

def schedulePages (cases : Dict String GoldenCase) (pages : Dict PageKey EvaluationInput)
    (item : EvaluationInput) : Except Halt (Dict PageKey EvaluationInput) := do
  let document := item.source.document
  match cases.get? (caseOf document) with
  | none => throw .keyError
  | some case =>
    match case.fixture.documents.find? fun d => d.documentId = document.documentId.text with
    | none => throw (.rejected "golden_document_mismatch")
    | some provenance =>
      require (provenance.describes item.source) "golden_source_mismatch"
      require (coversAll item.pages provenance.pageCount) "page_denominator_mismatch"
      return item.pages.foldl (fun found page => found.set (keyOf document page) item) pages

def ObservedUnit.numeric : ObservedUnit → Bool
  | .ratio | .percentPoints => true
  | .grade => false

/-- The expected field of one golden slot, once its citation is a scheduled page. -/
def expectSlot (rt : Runtime) (pages : Dict PageKey EvaluationInput) (caseId : String)
    (expected : Dict FieldKey ExpectedSlot) (slot : ExpectedSlot) :
    Except Halt (Dict FieldKey ExpectedSlot) := do
  match slot.observed.citation with
  | none => pure ()
  | some ref =>
    match pages.get? (caseId, ref.documentId, ref.page) with
    | none => throw (.rejected "golden_evidence_page_mismatch")
    | some item =>
      let document := item.source.document
      require (ref.version = document.version.text && ref.contentHash = document.contentHash.text &&
        validBox ref.bbox) "golden_evidence_source_mismatch"
  require (!(slot.observed.unit.any ObservedUnit.numeric) ||
    (number rt (slot.observed.value.map .text)).isSome) "invalid_golden_number"
  return expected.set (caseId, slot.slotId) slot

def formsScheduled (pages : Dict PageKey EvaluationInput) (caseId : String)
    (provenance : DocumentProvenance) : Bool :=
  provenance.role ≠ .forms || (List.range provenance.pageCount).all fun page =>
    (pages.get? (caseId, provenance.documentId, (page + 1 : ℕ))).isSome

def expectCase (rt : Runtime) (pages : Dict PageKey EvaluationInput)
    (expected : Dict FieldKey ExpectedSlot) (entry : String × GoldenCase) :
    Except Halt (Dict FieldKey ExpectedSlot) := do
  require (entry.2.fixture.documents.all (formsScheduled pages entry.1)) "field_denominator_mismatch"
  entry.2.expectedSlots.foldlM (expectSlot rt pages entry.1) expected

/-- The outcomes so far, and which run belongs to which repeat and case. -/
structure Recorded where
  outcomes : ℕ → Dict PageKey PageOutcome := fun _ => Dict.empty
  runBindings : ℕ × String → Option UUID := fun _ => none
  runOwners : UUID → Option (ℕ × String) := fun _ => none

def RepeatedOutcome.owner (record : RepeatedOutcome) : ℕ × String :=
  (record.repetition, (pageKey record.outcome).1)

def RepeatedOutcome.run (record : RepeatedOutcome) : UUID := record.outcome.request.run.runId

def revisionMatches (case : GoldenCase) (outcome : PageOutcome) : Bool :=
  outcome.request.run.revision.revisionId.text = case.identity.version &&
    outcome.request.run.revision.materialDigest = case.fixture.materialDigest

def configurationMatches (manifest : EvaluationManifest) (telemetry : ProviderTelemetry) : Bool :=
  telemetry.configuration = manifest.configuration &&
    telemetry.promptDigest = manifest.promptDigest &&
    telemetry.promptVersion = manifest.promptVersion

def scheduledRepeat (manifest : EvaluationManifest) (repetition : ℕ) : Bool :=
  1 ≤ repetition && repetition ≤ manifest.repeats

/-- One record of the replay, bound to its page, case, configuration and run. -/
def recordOutcome (manifest : EvaluationManifest) (pages : Dict PageKey EvaluationInput)
    (cases : Dict String GoldenCase) (found : Recorded) (record : RepeatedOutcome) :
    Except Halt Recorded := do
  let outcome := record.outcome
  let key := pageKey outcome
  require (scheduledRepeat manifest record.repetition) "repeat_outside_schedule"
  match pages.get? key with
  | none => throw (.rejected "outcome_outside_schedule")
  | some item =>
    require ((found.outcomes record.repetition).get? key).isNone "duplicate_page_outcome"
    require (outcome.request.source = item.source) "outcome_source_mismatch"
    match cases.get? key.1 with
    | none => throw .keyError
    | some case =>
      require (revisionMatches case outcome) "outcome_revision_mismatch"
      require (configurationMatches manifest outcome.telemetry) "outcome_configuration_mismatch"
      require ((found.runBindings record.owner).all (· = record.run)) "inconsistent_case_run"
      require ((found.runOwners record.run).all (· = record.owner)) "reused_repeat_run"
      return {
        outcomes := Function.update found.outcomes record.repetition
          ((found.outcomes record.repetition).set key outcome)
        runBindings := Function.update found.runBindings record.owner (some record.run)
        runOwners := Function.update found.runOwners record.run (some record.owner) }

def recordError (manifest : EvaluationManifest) (pages : Dict PageKey EvaluationInput)
    (outcomes : ℕ → Dict PageKey PageOutcome)
    (found : ℕ → Dict PageKey EvaluationExecutionError) (error : EvaluationExecutionError) :
    Except Halt (ℕ → Dict PageKey EvaluationExecutionError) := do
  require (scheduledRepeat manifest error.repetition) "repeat_outside_schedule"
  match manifest.inputs[error.inputIndex]? with
  | none => throw (.rejected "error_outside_schedule")
  | some item =>
    let key := keyOf item.source.document error.page
    require (pages.get? key).isSome "error_outside_schedule"
    require (((outcomes error.repetition).get? key).isNone &&
      ((found error.repetition).get? key).isNone) "duplicate_page_outcome"
    return Function.update found error.repetition ((found error.repetition).set key error)

/-- The scoring projection, and the calls and tokens that were recorded so far. -/
structure Projection where
  outcomes : ℕ → Dict PageKey PageOutcome
  usedCalls : Int := 0
  usedOutputTokens : Int := 0

def projectPage (manifest : EvaluationManifest) (repetition : ℕ) (state : Projection)
    (key : PageKey) : Projection :=
  match (state.outcomes repetition).get? key with
  | none => state
  | some recorded =>
    { outcomes := Function.update state.outcomes repetition ((state.outcomes repetition).set key
        (checkRecordedBudget manifest recorded state.usedCalls state.usedOutputTokens).1)
      usedCalls := state.usedCalls + recorded.telemetry.attempts.length
      usedOutputTokens := state.usedOutputTokens + knownOutputTokens recorded }

def repetitions (manifest : EvaluationManifest) : List ℕ := List.range' 1 manifest.repeats

/-- The repeats and pages of the schedule, in the order in which the limits are applied. -/
def slotsInOrder (manifest : EvaluationManifest) (pages : Dict PageKey EvaluationInput) :
    List (ℕ × PageKey) :=
  (repetitions manifest).flatMap fun repetition => pages.keys.map fun key => (repetition, key)

def project (manifest : EvaluationManifest) (pages : Dict PageKey EvaluationInput)
    (outcomes : ℕ → Dict PageKey PageOutcome) : ℕ → Dict PageKey PageOutcome :=
  ((slotsInOrder manifest pages).foldl
    (fun state slot => projectPage manifest slot.1 state slot.2) { outcomes := outcomes }).outcomes

variable (rt : Runtime) (digests : Digests)

def TokenPriceEvidence.agrees (evidence : TokenPriceEvidence) (policy : CostPolicy) : Bool :=
  evidence.currency = policy.currency && evidence.ratesDate = policy.ratesDate &&
    evidence.ratesSource = policy.ratesSource &&
    evidence.inputPerMillion.same policy.inputPerMillion &&
    evidence.outputPerMillion.same policy.outputPerMillion

/-- `_validate_prices` -/
def validatePrices (manifest : EvaluationManifest) (replay : EvaluationReplay) :
    Except Halt Unit :=
  match replay.pricingEvidence with
  | none => .ok ()
  | some evidence =>
    match manifest.costPolicy with
    | none => .error (.rejected "unexpected_rate_evidence")
    | some policy => require (digests.rates evidence = policy.ratesDigest &&
        evidence.configurationDigest = digests.configuration manifest.configuration &&
        evidence.agrees policy) "rate_evidence_mismatch"

def checkDigests (manifest : EvaluationManifest) (replay : EvaluationReplay)
    (goldens : GoldenSuite) : Except Halt Unit := do
  require (replay.manifestDigest = digests.manifest manifest) "manifest_mismatch"
  require (manifest.datasetDigest = digests.dataset manifest.inputs) "dataset_mismatch"
  require (manifest.goldenSchemaVersion.text = goldens.schemaVersion) "golden_version_mismatch"
  require (manifest.goldenDigest = digests.golden goldens) "golden_digest_mismatch"
  require (manifest.splitDigest = digests.split manifest.split replay.bindings) "split_mismatch"
  require (manifest.datasetKind = .synthetic) "unsupported_golden_origin"
  require (manifest.scoring.policyDigest = digests.scoringPolicy manifest.scoring)
    "scoring_policy_mismatch"
  require (manifest.scoring.unitPolicy ≠ .versionedConversion ||
    manifest.scoring.unitPolicyDigest = some digests.unitConversion) "unsupported_unit_policy"

structure Frame where
  cases : Dict String GoldenCase
  pages : Dict PageKey EvaluationInput
  expected : Dict FieldKey ExpectedSlot

def frame (manifest : EvaluationManifest) (bindings : List GoldenBinding)
    (goldens : GoldenSuite) : Except Halt Frame := do
  let cases ← bindings.foldlM (bindCase (casesByKey goldens)) Dict.empty
  require (sameSet cases.keys (manifest.inputs.map fun item => caseOf item.source.document))
    "case_denominator_mismatch"
  let pages ← manifest.inputs.foldlM (schedulePages cases) Dict.empty
  let expected ← cases.items.foldlM (expectCase rt pages) Dict.empty
  return ⟨cases, pages, expected⟩

/-- `_schedule` -/
def schedule (manifest : EvaluationManifest) (replay : EvaluationReplay) (goldens : GoldenSuite) :
    Except Halt Schedule := do
  checkDigests digests manifest replay goldens
  let frame ← frame rt manifest replay.bindings goldens
  let recorded ← replay.outcomes.foldlM (recordOutcome manifest frame.pages frame.cases) {}
  let errors ← replay.executionErrors.foldlM
    (recordError manifest frame.pages recorded.outcomes) fun _ => Dict.empty
  validatePrices digests manifest replay
  return {
    pages := frame.pages
    cases := frame.cases
    expected := frame.expected
    outcomes := project manifest frame.pages recorded.outcomes
    executionErrors := errors }

end AppraisalReview.Evaluation
