import AppraisalReview.EvaluationSchedule
import Mathlib.Data.Finset.Card

set_option autoImplicit false

/-!
# Scoring recorded outcomes against goldens

Nine counters run through nested loops over repeats, pages, cases and predicted
fields. Each increment is a tick with an amount, and a counter is the total of
its ticks.
-/
namespace AppraisalReview.Evaluation
open Extraction

inductive Count where
  | scheduledPages | scheduledCases | observedPages | missingPages
  | observedCases | missingCases | completeCaseOutcomes | allCandidateCases
  | reviewRequiredPages | runnerErrorPages | failedPages | refusedPages
  | candidatePages | handoffPages | unresolvedItems | unsupportedItems
  | unobservedSlotDeclarations | predictions | identityMatches
  | stateCorrect | typeCorrect | valueCorrect | sourceCorrect | localizationCorrect
  | correctFields | missingPredictions | expectedFields | expectedCitedFields
  | fullyCorrectCases | reviewRequiredCases
deriving DecidableEq

inductive FieldError where
  | unknownField | duplicatePrediction | stateMismatch | typeMismatch | valueMismatch
  | sourceMismatch | localizationMismatch | missingPrediction
deriving DecidableEq

inductive ProposalPart where
  | rules | pairs | contexts | checks | emptyColumns
deriving DecidableEq

/-- What can be counted; no prediction of a state is `none`. -/
inductive Tick where
  | count (name : Count)
  | fieldError (name : FieldError)
  | expectedState (state : ObservedState)
  | predictedState (state : ObservedState)
  | confusion (expected : ObservedState) (predicted : Option ObservedState)
  | pageFailure (code : FailureCode)
  | attemptFailure (code : FailureCode)
  | handoffReason (reason : HandoffReason)
  | unscored (part : ProposalPart)
deriving DecidableEq

abbrev Tally := List (Tick × ℤ)

def total (tally : Tally) (tick : Tick) : ℤ :=
  (tally.map fun entry => if entry.1 = tick then entry.2 else 0).sum

/-- `counts[name] += condition` -/
def flag (tick : Tick) (condition : Bool) : Tick × ℤ := (tick, condition.toNat)

/-- The arithmetic of the code; `overlapRatio` is computed in floating point. -/
structure Scorer where
  rt : Runtime
  ctx : DecimalContext
  overlapRatio : Box → Box → ℚ

def signal {α : Type} : Except Signal α → Except Halt α
  | .ok x => .ok x
  | .error signal => .error (.arithmetic signal)

def sameUnit (expected actual : Option ObservedUnit) (policy : ScoringPolicy) : Bool :=
  expected = actual || (policy.unitPolicy = .versionedConversion &&
    ((expected = some .percentPoints && actual = some .ratio) ||
      (expected = some .ratio && actual = some .percentPoints)))

def hundredth : Decimal := ⟨false, 1, -2⟩

/-- Two numbers within the declared tolerances, the actual one in the expected unit. -/
def withinTolerance (ctx : DecimalContext) (policy : ScoringPolicy)
    (expectedUnit actualUnit : Option ObservedUnit) (left right : Decimal) : Except Halt Bool := do
  let converted ←
    if expectedUnit = actualUnit then pure right
    else signal (Decimal.mul ctx right
      (if actualUnit = some .ratio then Decimal.ofNat 100 else hundredth))
  let difference ← signal (Decimal.sub ctx left converted)
  let size ← signal (Decimal.finalize ctx left.absolute)
  let relative ← signal (Decimal.mul ctx policy.numericRelativeTolerance size)
  return difference.absolute.le policy.numericAbsoluteTolerance || difference.absolute.le relative

/-- `_value_match` -/
def valueMatch (scorer : Scorer) (policy : ScoringPolicy) (slot : ExpectedSlot)
    (actual : ObservedValue) : Except Halt Bool :=
  let observed := slot.observed
  if observed.state ≠ actual.state ∨ ¬sameUnit observed.unit actual.unit policy then .ok false
  else if observed.state ≠ .present then .ok (actual.value.isNone && actual.unit.isNone)
  else if observed.unit = some .grade then
    .ok (actual.value.isSome && actual.value = observed.value.map .text)
  else match number scorer.rt (observed.value.map .text), number scorer.rt actual.value with
    | some left, some right =>
      withinTolerance scorer.ctx policy observed.unit actual.unit left right
    | _, _ => .ok false

def ObservedContent.isText : ObservedContent → Bool
  | .text _ => true
  | .number _ => false

/-- `_type_match` -/
def typeMatch (rt : Runtime) (policy : ScoringPolicy) (slot : ExpectedSlot)
    (actual : ObservedValue) : List ReviewSlot → Bool
  | [declared] =>
    declared.value = slot.slotValue && declared.context = slot.context &&
      declared.factorId = slot.factorId && sameUnit slot.observed.unit actual.unit policy &&
      if actual.state ≠ .present then actual.value.isNone && actual.unit.isNone
      else if actual.unit = some .grade then actual.value.any ObservedContent.isText
      else (number rt actual.value).isSome
  | _ => false

/-- `_source_match` -/
def sourceMatch (expected actual : SourceCitation) : Bool :=
  expected.documentId = actual.documentId && expected.contentHash = actual.contentHash &&
    expected.version = actual.version && expected.page = actual.page &&
    expected.regionId = actual.regionId && validBox actual.bbox

/-- `_iou` -/
def iou (scorer : Scorer) (left right : Box) : ℚ :=
  if !validBox left || !validBox right then 0 else scorer.overlapRatio left right

structure Judgement where
  stateOk : Bool
  typeOk : Bool
  valueOk : Bool
  sourceOk : Bool
  localized : Bool

def judge (scorer : Scorer) (policy : ScoringPolicy) (slot : ExpectedSlot) (actual : ObservedValue)
    (declarations : List ReviewSlot) : Except Halt Judgement := do
  let valueOk ← valueMatch scorer policy slot actual
  let minimum := (policy.minimumIou.map fun x => x.decimal.value).getD 0
  let sourceOk := match slot.observed.citation with
    | none => actual.state ≠ .present && actual.state ≠ .blank
    | some ref => actual.evidence ≠ [] && actual.evidence.all (sourceMatch ref)
  let localized := match slot.observed.citation with
    | none => false
    | some ref => sourceOk && actual.evidence.all fun evidence =>
        0 < iou scorer ref.bbox evidence.bbox && minimum ≤ iou scorer ref.bbox evidence.bbox
  return {
    stateOk := slot.observed.state = actual.state
    typeOk := typeMatch scorer.rt policy slot actual declarations
    valueOk := valueOk
    sourceOk := sourceOk
    localized := localized }

def localizationTicks (policy : ScoringPolicy) (judgement : Judgement) : Tally :=
  if policy.localization = .regionIou then
    [flag (.count .localizationCorrect) judgement.localized,
      flag (.fieldError .localizationMismatch) !judgement.localized]
  else []

def sourceTicks (policy : ScoringPolicy) (slot : ExpectedSlot) (judgement : Judgement) : Tally :=
  if slot.observed.citation.isSome then
    [flag (.count .sourceCorrect) judgement.sourceOk,
      flag (.fieldError .sourceMismatch) !judgement.sourceOk] ++ localizationTicks policy judgement
  else []

def judgementTicks (policy : ScoringPolicy) (slot : ExpectedSlot) (actual : ObservedValue)
    (judgement : Judgement) : Tally :=
  [(.count .identityMatches, 1), (.confusion slot.observed.state (some actual.state), 1),
    flag (.count .stateCorrect) judgement.stateOk, flag (.count .typeCorrect) judgement.typeOk,
    flag (.count .valueCorrect) judgement.valueOk,
    flag (.fieldError .stateMismatch) !judgement.stateOk,
    flag (.fieldError .typeMismatch) !judgement.typeOk,
    flag (.fieldError .valueMismatch) !judgement.valueOk] ++ sourceTicks policy slot judgement

def fieldCorrect (policy : ScoringPolicy) (slot : ExpectedSlot) (judgement : Judgement) : Bool :=
  judgement.typeOk && judgement.valueOk && judgement.sourceOk &&
    (slot.observed.citation.isNone || policy.localization = .notMeasured || judgement.localized)

structure Marks where
  seen : Finset FieldKey := ∅
  correct : Finset FieldKey := ∅
  reviewCases : Finset String := ∅

variable (scorer : Scorer) (policy : ScoringPolicy) (schedule : Schedule)

def predict (caseId : String) (proposal : PageProposal) (marks : Marks) (actual : ObservedValue) :
    Except Halt (Tally × Marks) := do
  let made : Tally := [(.count .predictions, 1), (.predictedState actual.state, 1)]
  let fieldKey := (caseId, actual.slotId)
  match schedule.expected.get? fieldKey with
  | none => return (made ++ [(.fieldError .unknownField, 1)], marks)
  | some slot =>
    if fieldKey ∈ marks.seen then
      return (made ++ [(.fieldError .duplicatePrediction, 1)], marks)
    else do
      let judgement ← judge scorer policy slot actual
        (proposal.slots.filter fun declaration => declaration.id = actual.slotId)
      return (made ++ judgementTicks policy slot actual judgement, { marks with
        seen := insert fieldKey marks.seen
        correct :=
          if fieldCorrect policy slot judgement then insert fieldKey marks.correct
          else marks.correct })

def accumulate {α : Type} (step : Marks → α → Except Halt (Tally × Marks)) :
    List α → Marks → Except Halt (Tally × Marks)
  | [], marks => .ok ([], marks)
  | x :: rest, marks => do
    let (ticks, marks) ← step marks x
    let (later, marks) ← accumulate step rest marks
    return (ticks ++ later, marks)

def PageOutcome.needsReview (outcome : PageOutcome) : Bool :=
  outcome.status = .failed || outcome.handoffs ≠ [] ||
    outcome.proposal.any fun proposal => proposal.unresolved ≠ [] || proposal.unsupported ≠ []

def outcomeTicks (outcome : PageOutcome) : Tally :=
  [flag (.count .candidatePages) (outcome.status = .candidate),
    flag (.count .failedPages) (outcome.status = .failed),
    flag (.count .refusedPages) (outcome.failure = some .refused),
    flag (.count .handoffPages) (outcome.handoffs ≠ [])] ++
  (outcome.failure.toList.map fun code => (.pageFailure code, 1)) ++
  (outcome.telemetry.attempts.flatMap fun attempt =>
    attempt.failure.toList.map fun code => (.attemptFailure code, 1)) ++
  (outcome.handoffs.map fun handoff => (.handoffReason handoff.reason, 1)) ++
  [flag (.count .reviewRequiredPages) outcome.needsReview]

def proposalTicks (proposal : PageProposal) : Tally :=
  [(.unscored .rules, proposal.rules.length), (.unscored .pairs, proposal.pairs.length),
    (.unscored .contexts, proposal.contexts.length), (.unscored .checks, proposal.checks.length),
    (.unscored .emptyColumns, proposal.emptyColumns.length),
    (.count .unresolvedItems, proposal.unresolved.length),
    (.count .unsupportedItems, proposal.unsupported.length),
    (.count .unobservedSlotDeclarations, (proposal.slots.filter fun slot =>
      slot.id ∉ proposal.observed.map ObservedValue.slotId).length)]

def absentTicks (error : Option EvaluationExecutionError) : Tally :=
  (.count .reviewRequiredPages, 1) :: match error with
    | none => []
    | some error => [(.count .runnerErrorPages, 1), (.count .failedPages, 1),
        flag (.count .refusedPages) (error.failure = .refused), (.pageFailure error.failure, 1)]

def scorePage (repetition : ℕ) (marks : Marks) (key : PageKey) : Except Halt (Tally × Marks) :=
  match (schedule.outcomes repetition).get? key with
  | none => .ok (absentTicks ((schedule.executionErrors repetition).get? key), marks)
  | some outcome =>
    let marks := if outcome.needsReview then
      { marks with reviewCases := insert key.1 marks.reviewCases } else marks
    match outcome.proposal with
    | none => .ok (outcomeTicks outcome, marks)
    | some proposal => do
      let (ticks, marks) ←
        accumulate (predict scorer policy schedule key.1 proposal) proposal.observed marks
      return (outcomeTicks outcome ++ proposalTicks proposal ++ ticks, marks)

def pagesOf (caseId : String) : List PageKey := schedule.pages.keys.filter fun key => key.1 = caseId

def presentOf (repetition : ℕ) (caseId : String) : List PageOutcome :=
  (pagesOf schedule caseId).filterMap (schedule.outcomes repetition).get?

def completeCase (repetition : ℕ) (caseId : String) : Bool :=
  (presentOf schedule repetition caseId).length = (pagesOf schedule caseId).length

def caseTicks (repetition : ℕ) (caseId : String) : Tally :=
  let present := presentOf schedule repetition caseId
  [flag (.count .observedCases) (present ≠ []), flag (.count .missingCases) (present = []),
    flag (.count .completeCaseOutcomes) (completeCase schedule repetition caseId),
    flag (.count .allCandidateCases) (completeCase schedule repetition caseId &&
      present.all fun outcome => outcome.status = .candidate)]

def sizeTicks (repetition : ℕ) : Tally :=
  let outputs := schedule.outcomes repetition
  [(.count .scheduledPages, schedule.pages.items.length),
    (.count .scheduledCases, schedule.cases.items.length),
    (.count .observedPages, outputs.items.length),
    (.count .missingPages, (schedule.pages.items.length : ℤ) - outputs.items.length)]

def openingTicks (repetition : ℕ) : Tally :=
  sizeTicks schedule repetition ++ schedule.cases.keys.flatMap (caseTicks schedule repetition)

def expectedOf (caseId : String) : List FieldKey :=
  schedule.expected.keys.filter fun key => key.1 = caseId

def answered (correct : Finset FieldKey) (caseId : String) : Bool :=
  (expectedOf schedule caseId).all (· ∈ correct)

def fullyCorrect (repetition : ℕ) (correct : Finset FieldKey) (caseId : String) : Bool :=
  expectedOf schedule caseId ≠ [] && answered schedule correct caseId &&
    (pagesOf schedule caseId).all fun key =>
      ((schedule.outcomes repetition).get? key).any fun outcome => outcome.status = .candidate

def expectedTicks (seen : Finset FieldKey) (entry : FieldKey × ExpectedSlot) : Tally :=
  let observed := entry.2.observed
  [(.count .expectedFields, 1), flag (.count .expectedCitedFields) observed.citation.isSome,
    (.expectedState observed.state, 1), flag (.confusion observed.state none) (entry.1 ∉ seen)]

/-- The cases that need review: incomplete ones, those of a page that does, unanswered ones. -/
def reviewCases (repetition : ℕ) (marks : Marks) : Finset String :=
  marks.reviewCases ∪ (schedule.cases.keys.filter fun caseId =>
    !completeCase schedule repetition caseId || !answered schedule marks.correct caseId).toFinset

def fieldTicks (marks : Marks) : Tally :=
  let missing : ℤ := (schedule.expected.items.length : ℤ) - marks.seen.card
  [(.count .correctFields, marks.correct.card), (.count .missingPredictions, missing),
    (.fieldError .missingPrediction, missing)]

def closingTicks (repetition : ℕ) (marks : Marks) : Tally :=
  fieldTicks schedule marks ++ schedule.expected.items.flatMap (expectedTicks marks.seen) ++
  (schedule.cases.keys.map fun caseId =>
    flag (.count .fullyCorrectCases) (fullyCorrect schedule repetition marks.correct caseId)) ++
  [(Tick.count .reviewRequiredCases, ((reviewCases schedule repetition marks).card : ℤ))]

def scoreRepeat (repetition : ℕ) : Except Halt (Tally × Marks) := do
  let (ticks, marks) ←
    accumulate (scorePage scorer policy schedule repetition) schedule.pages.keys {}
  return (openingTicks schedule repetition ++ ticks ++ closingTicks schedule repetition marks, marks)

structure Metric where
  numerator : ℤ
  denominator : ℤ
  value : Option ℚ

/-- `_metric`; the quotient is exact, where the code divides to the nearest float. -/
def metric (numerator denominator : ℤ) (measured : Bool) : Metric where
  numerator := numerator
  denominator := denominator
  value := if denominator ≠ 0 ∧ measured then some (numerator / denominator) else none

structure ScoreSummary where
  counters : Tick → ℤ
  falsePositives : ℤ
  falseNegatives : ℤ
  metrics : List (String × Metric)

def metricsOf (count : Count → ℤ) : List (String × Metric) :=
  let per (numerator denominator : Count) : Metric :=
    metric (count numerator) (count denominator) true
  [("precision", per .correctFields .predictions),
    ("recall", per .correctFields .expectedFields),
    ("identity_precision", per .identityMatches .predictions),
    ("identity_recall", per .identityMatches .expectedFields),
    ("type_accuracy", per .typeCorrect .expectedFields),
    ("value_accuracy", per .valueCorrect .expectedFields),
    ("state_accuracy", per .stateCorrect .expectedFields),
    ("source_accuracy", per .sourceCorrect .expectedCitedFields),
    ("localization_accuracy", metric (count .localizationCorrect) (count .expectedCitedFields)
      (policy.localization = .regionIou)),
    ("page_completeness", per .observedPages .scheduledPages),
    ("candidate_page_rate", per .candidatePages .scheduledPages),
    ("case_completeness", per .completeCaseOutcomes .scheduledCases),
    ("case_accuracy", per .fullyCorrectCases .scheduledCases),
    ("error_rate", per .failedPages .scheduledPages),
    ("refusal_rate", per .refusedPages .scheduledPages),
    ("human_intervention_rate", per .handoffPages .scheduledPages),
    ("review_required_page_rate", per .reviewRequiredPages .scheduledPages),
    ("review_required_case_rate", per .reviewRequiredCases .scheduledCases)]

def summarize (tally : Tally) : ScoreSummary where
  counters := total tally
  falsePositives := total tally (.count .predictions) - total tally (.count .correctFields)
  falseNegatives := total tally (.count .expectedFields) - total tally (.count .correctFields)
  metrics := metricsOf policy fun name => total tally (.count name)

/-- `_score` -/
def score (repetitions : List ℕ) : Except Halt ScoreSummary := do
  let scored ← repetitions.mapM (scoreRepeat scorer policy schedule)
  return summarize policy (scored.flatMap Prod.fst)

structure EvaluationReport where
  summary : ScoreSummary
  repeats : List ScoreSummary

/-- The scores of `score_evaluation`. -/
def scoreEvaluation (digests : Digests) (manifest : EvaluationManifest) (replay : EvaluationReplay)
    (goldens : GoldenSuite) : Except Halt EvaluationReport := do
  let schedule ← Evaluation.schedule scorer.rt digests manifest replay goldens
  let repeats ← (repetitions manifest).mapM fun repetition =>
    score scorer manifest.scoring schedule [repetition]
  let summary ← score scorer manifest.scoring schedule (repetitions manifest)
  return ⟨summary, repeats⟩

end AppraisalReview.Evaluation
