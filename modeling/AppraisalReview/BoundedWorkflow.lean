import AppraisalReview.ControlledWorkflow
import AppraisalReview.Dict

set_option autoImplicit false

/-!
# The bounded workflow runner

Controlled decisions until a terminal state or a fail-closed handoff. One pass
of the loop makes at most one decision; it ends the run or leaves the state of
the next pass. The ports of the runner answer by the number of the decision
before which, or after which, they are asked.
-/
namespace AppraisalReview.BoundedWorkflow
open RunLedger (Budget WorkflowRunReservation WorkflowTermination)
open ControlledWorkflow

/-- Classify only stable event fields, never provider or exception text. -/
def classifyEventFailure (event : DecisionEvent) : Option FailureCategory :=
  if event.disposition = .executed then
    if event.stateAfter = .evidenceNeedsReview then some .missingEvidence
    else if event.stateAfter = .unsupportedContexts then some .unsupportedRuleContext
    else if event.stateAfter = .reviewFailed then some .deterministicReviewBlocker
    else none
  else if event.reasonCode.text = "tool-time-exhausted" ∨
      event.reasonCode.text = "tool-result-unknown" then some .unresolvedExecution
  else if event.reasonCode.text = "invalid-tool-receipt" ∨
      event.reasonCode.text = "proposal-unauthorized" then some .unauthorizedSource
  else if event.disposition = .rejected then some .permanentMalformedProposal
  else match event.toolResult.bind ToolOutcome.problem with
  | some ⟨.unauthorized⟩ => some .unauthorizedSource
  | some ⟨.execution⟩ => some .retryableProviderTool
  | _ => some .deterministicReviewBlocker

def classifySelectionFailure (error : ActionSelectionError) : FailureCategory :=
  match error.code with
  | .timeout | .inFlight => .unresolvedExecution
  | .throttled | .providerError => .retryableProviderTool
  | .missingArgumentSource => .missingEvidence
  | .noAllowedAction => .deterministicReviewBlocker
  | _ => .permanentMalformedProposal

/-- Exact action inputs, source versions and a stable failure code, before they are hashed. The
document ids of a revision are distinct, so that they order its sources. -/
structure FailureIdentity where
  action : ActionKind
  arguments : ActionArguments
  revision : RevisionReference
  documents : List DocumentReference
  category : FailureCategory
  failureCode : OpaqueID

variable {sources : List DocumentReference → Digest}

def failureIdentity (event : DecisionEvent) (snapshot : WorkflowSnapshot sources)
    (category : FailureCategory) : FailureIdentity where
  action := event.proposal.action
  arguments := event.proposal.arguments
  revision := snapshot.revision.reference
  documents := sortedDocuments snapshot.revision.documents
  category := category
  failureCode := event.reasonCode

structure Runner (sources : List DocumentReference → Digest) where
  coordinator : Coordinator sources
  retryBackoffMs : ℕ := 100
  /-- The hash of the canonical text of a failure. -/
  fingerprint : FailureIdentity → Digest

def Runner.noProgressFingerprint (r : Runner sources) (event : DecisionEvent)
    (snapshot : WorkflowSnapshot sources) (category : FailureCategory) : Digest :=
  r.fingerprint (failureIdentity event snapshot category)

/-- `_terminal` -/
def terminal (snapshot : WorkflowSnapshot sources) : Option WorkflowTermination :=
  match snapshot.state with
  | .verified => some .verified
  | .waitingForHuman => some .waitingForHuman
  | _ => none

def buildResult (result : BoundedWorkflowResult) : Except Raise BoundedWorkflowResult :=
  match terminalShape result with
  | .ok () => .ok result
  | .error _ => .error .validation

def completed (run : RunReference) (termination : WorkflowTermination)
    (events : List DecisionEvent) (budget : Budget) : Except Raise BoundedWorkflowResult :=
  buildResult ⟨run, termination, budget, { events := events }⟩

/-- Where a citation points to; the first citation of each location is preserved. -/
def distinctCitations (citations : List SourceCitation) : List SourceCitation :=
  Dict.fromKeys citations

def handoff (events : List DecisionEvent) (snapshot : WorkflowSnapshot sources)
    (category : FailureCategory) (reasonCode : OpaqueID) (fingerprint : Option Digest) :
    HumanReviewHandoff where
  reasonCode := reasonCode
  category := category
  question := "Review the preserved workflow blockers and decide the next authorized action."
  revision := snapshot.revision.reference
  blockers := snapshot.unresolvedBlockers
  affectedSubjectIds := Dict.fromKeys
    (snapshot.unresolvedBlockers.flatMap WorkflowBlocker.affectedSubjectIds ++
      events.flatMap fun event => event.affectedSubjectIds)
  evidence := distinctCitations
    (snapshot.unresolvedBlockers.flatMap WorkflowBlocker.evidence ++
      events.flatMap fun event => event.evidence)
  lastToolOutcome := events.reverse.findSome? fun event => event.toolResult
  noProgressFingerprint := fingerprint
  asked := by decide
  uniqueSubjects := Dict.fromKeys_nodup _
  uniqueBlockers := snapshot.uniqueBlockers

/-- `_handoff_result` -/
def handoffResult (run : RunReference) (events : List DecisionEvent) (budget : Budget)
    (snapshot : WorkflowSnapshot sources) (termination : WorkflowTermination)
    (category : FailureCategory) (reasonCode : String) (fingerprint : Option Digest) :
    Except Raise BoundedWorkflowResult := do
  let reasonCode ← opaqueId reasonCode
  buildResult ⟨run, termination, budget, {
    events := events, handoff := some (handoff events snapshot category reasonCode fingerprint) }⟩

/-- `_backoff` -/
def backoff (retryBackoffMs : ℕ) (budget : Budget) (failureCount : ℕ) : Budget :=
  { budget with timeRemainingMs := budget.timeRemainingMs.map fun time =>
      time - min ((retryBackoffMs * 2 ^ (failureCount - 1) : ℕ) : Int) time }

/-- `_consume_selection_failure` -/
def consumeSelectionFailure (budget : Budget) (error : ActionSelectionError) :
    Except Raise Budget :=
  let after : Budget := {
    stepsRemaining := budget.stepsRemaining
    modelCallsRemaining :=
      budget.modelCallsRemaining - min (max error.attempts 0) budget.modelCallsRemaining
    retriesRemaining :=
      budget.retriesRemaining - min (max (error.attempts - 1) 0) budget.retriesRemaining
    timeRemainingMs := budget.timeRemainingMs.map fun time =>
      time - min (max error.latencyMs 0) time }
  if after.valid then .ok after else .error .validation

/-- `_current`; the budget that replaces the snapshot's is read from the loop. -/
def currentSnapshot (run : RunReference) (budget : Budget)
    (answer : Except Raise (WorkflowSnapshot sources)) :
    Except Raise (WorkflowSnapshot sources) := do
  let snapshot ← answer
  if snapshot.run ≠ run then .error .other
  else if exceeds budget snapshot.budget then .error .other
  else .ok snapshot

/-- The answers of a run: those of each decision, and the reads of the runner itself. -/
structure World (sources : List DocumentReference → Digest) where
  first : Except Raise (WorkflowSnapshot sources)
  prior : Except Raise (List DecisionEvent)
  decision : ℕ → Answers sources
  refreshed : ℕ → Except Raise (WorkflowSnapshot sources)

section
variable {τ : Type} [DecidableEq τ]

structure Loop (sources : List DocumentReference → Digest) (τ : Type) where
  ledger : Ledger τ
  budget : Budget
  snapshot : WorkflowSnapshot sources
  events : List DecisionEvent
  seenFailures : List Digest := []
  selectionRetryCount : ℕ := 0
  retryCharge : ℕ := 0
  decisions : ℕ := 0

/-- The end of a run: what it returned, with the final snapshot, or raised. -/
structure Ended (sources : List DocumentReference → Digest) where
  outcome : Except Raise (BoundedWorkflowResult × WorkflowSnapshot sources)
  decisions : ℕ

inductive Pass (sources : List DocumentReference → Digest) (τ : Type) where
  | ended (ended : Ended sources)
  | again (loop : Loop sources τ)

namespace Loop

def raised (l : Loop sources τ) (raise : Raise) : Pass sources τ :=
  .ended ⟨.error raise, l.decisions⟩

def returned (l : Loop sources τ) (result : Except Raise BoundedWorkflowResult) : Pass sources τ :=
  .ended ⟨result.map fun result => (result, l.snapshot), l.decisions⟩

def handedOff (l : Loop sources τ) (run : RunReference) (termination : WorkflowTermination)
    (category : FailureCategory) (reasonCode : String) (fingerprint : Option Digest := none) :
    Pass sources τ :=
  l.returned (handoffResult run l.events l.budget l.snapshot termination category reasonCode
    fingerprint)

def retriesSelection (category : FailureCategory) (budget : Budget) : Bool :=
  category = .retryableProviderTool && 0 < budget.retriesRemaining &&
    0 < budget.modelCallsRemaining && budget.timeRemainingMs ≠ some 0

def selectionBudget (budget : Budget) (error : ActionSelectionError) : Except Raise Budget :=
  match error.event with
  | some event => .ok event.budgetAfter
  | none => consumeSelectionFailure budget error

def selectionFailed (r : Runner sources) (run : RunReference) (l : Loop sources τ)
    (error : ActionSelectionError) (refreshed : Except Raise (WorkflowSnapshot sources)) :
    Pass sources τ :=
  match selectionBudget l.budget error with
  | .error raise => l.raised raise
  | .ok budget => match currentSnapshot run budget refreshed with
    | .error raise => l.raised raise
    | .ok snapshot =>
      let l := { l with budget := budget, snapshot := snapshot }
      let category := classifySelectionFailure error
      if retriesSelection category budget then
        .again { l with
          selectionRetryCount := l.selectionRetryCount + 1
          budget := backoff r.retryBackoffMs
            { budget with retriesRemaining := budget.retriesRemaining - 1 }
            (l.selectionRetryCount + 1) }
      else l.handedOff run
        (if category = .retryableProviderTool then .budgetExhausted else .permanentFailure)
        category ("selector-" ++ error.code.text)

def eventFailed (r : Runner sources) (run : RunReference) (l : Loop sources τ)
    (event : DecisionEvent) (category : FailureCategory) : Pass sources τ :=
  let fingerprint := r.noProgressFingerprint event l.snapshot category
  if fingerprint ∈ l.seenFailures then
    l.handedOff run .noProgress category "workflow-no-progress" (some fingerprint)
  else
    let l := { l with seenFailures := fingerprint :: l.seenFailures }
    if category ≠ .retryableProviderTool then
      l.handedOff run .permanentFailure category "workflow-permanent-failure" (some fingerprint)
    else if l.budget.retriesRemaining = 0 ∨ l.budget.stepsRemaining = 0 then
      l.handedOff run .budgetExhausted category "workflow-retries-exhausted" (some fingerprint)
    else
      let l := { l with
        retryCharge := 1, budget := backoff r.retryBackoffMs l.budget l.seenFailures.length }
      if l.budget.timeRemainingMs = some 0 then
        l.handedOff run .budgetExhausted category "workflow-time-exhausted" (some fingerprint)
      else .again l

def decided (r : Runner sources) (run : RunReference) (l : Loop sources τ) (event : DecisionEvent)
    (refreshed : Except Raise (WorkflowSnapshot sources)) : Pass sources τ :=
  let l := { l with events := l.events ++ [event], budget := event.budgetAfter }
  match currentSnapshot run l.budget refreshed with
  | .error raise => l.raised raise
  | .ok snapshot =>
    let l := { l with snapshot := snapshot }
    match terminal snapshot with
    | some termination =>
      if event.disposition = .executed then
        l.returned (completed run termination l.events l.budget)
      else l.handedOff run .permanentFailure
        ((classifyEventFailure event).getD .deterministicReviewBlocker) "failed-terminal-transition"
    | none =>
      if event.disposition = .executed then .again { l with retryCharge := 0 }
      else match classifyEventFailure event with
      | none => .again { l with retryCharge := 0 }
      | some category => l.eventFailed r run event category

def pass (r : Runner sources) (owner : WorkflowRunReservation τ) (evidence : List SourceCitation)
    (world : World sources) (l : Loop sources τ) : Pass sources τ :=
  match ask l.ledger owner (.checkpoint owner l.budget) with
  | (_, .error rejection) => l.raised (.unavailable rejection)
  | (ledger, .ok _) => match terminal l.snapshot with
    | some termination => l.returned (completed owner.run termination l.events l.budget)
    | none =>
      if l.budget.stepsRemaining = 0 ∨ l.budget.timeRemainingMs = some 0 then
        l.handedOff owner.run .budgetExhausted .deterministicReviewBlocker
          "workflow-budget-exhausted"
      else if l.retryCharge ≠ 0 ∧ l.budget.retriesRemaining = 0 then
        l.handedOff owner.run .budgetExhausted .retryableProviderTool "workflow-retries-exhausted"
      else
        match decideReserved r.coordinator owner evidence l.budget l.retryCharge
            (world.decision l.decisions) ledger with
        | (.error (.selection error), ledger) =>
          { l with ledger := ledger, decisions := l.decisions + 1 }.selectionFailed r owner.run error
            (world.refreshed l.decisions)
        | (.error raise, _) => { l with decisions := l.decisions + 1 }.raised raise
        | (.ok event, ledger) =>
          { l with ledger := ledger, decisions := l.decisions + 1 }.decided r owner.run event
            (world.refreshed l.decisions)

def passes (r : Runner sources) (owner : WorkflowRunReservation τ) (evidence : List SourceCitation)
    (world : World sources) : ℕ → Loop sources τ → Option (Ended sources)
  | 0, _ => none
  | fuel + 1, l => match l.pass r owner evidence world with
    | .ended ended => some ended
    | .again l => passes r owner evidence world fuel l

end Loop

def priorFailures (r : Runner sources) (snapshot : WorkflowSnapshot sources)
    (previous : List DecisionEvent) : List Digest :=
  Dict.fromKeys (previous.filterMap fun prior =>
    if prior.disposition = .executed then none
    else (classifyEventFailure prior).map fun category =>
      r.noProgressFingerprint prior snapshot category)

/-- `_run` up to its loop: an earlier failure is retried, or is the end. -/
def start (r : Runner sources) (owner : WorkflowRunReservation τ) (world : World sources)
    (ledger : Ledger τ) : Pass sources τ :=
  match ask ledger owner (.remaining owner) with
  | (_, .error rejection) => .ended ⟨.error (.unavailable rejection), 0⟩
  | (ledger, .ok (.budget budget)) =>
    match currentSnapshot owner.run budget world.first, world.prior with
    | .error raise, _ => .ended ⟨.error raise, 0⟩
    | _, .error raise => .ended ⟨.error raise, 0⟩
    | .ok snapshot, .ok events =>
      let l : Loop sources τ := {
        ledger := ledger, budget := budget, snapshot := snapshot, events := events }
      match events.getLast? with
      | none => .again l
      | some last =>
        if last.disposition = .executed then
          .again { l with seenFailures := priorFailures r snapshot events }
        else if (terminal snapshot).isSome then
          l.handedOff owner.run .permanentFailure
            ((classifyEventFailure last).getD .deterministicReviewBlocker)
            "failed-terminal-transition"
        else if classifyEventFailure last ≠ some .retryableProviderTool then
          l.handedOff owner.run .permanentFailure
            ((classifyEventFailure last).getD .deterministicReviewBlocker)
            "workflow-permanent-failure"
        else
          let seenFailures := priorFailures r snapshot events
          .again { l with
            seenFailures := seenFailures, retryCharge := 1
            budget := backoff r.retryBackoffMs budget seenFailures.length }
  | (_, .ok _) => .ended ⟨.error .other, 0⟩

/-- `_run` -/
def run (r : Runner sources) (owner : WorkflowRunReservation τ) (evidence : List SourceCitation)
    (world : World sources) (ledger : Ledger τ) (fuel : ℕ) : Option (Ended sources) :=
  match start r owner world ledger with
  | .ended ended => some ended
  | .again l => l.passes r owner evidence world fuel

end
end AppraisalReview.BoundedWorkflow
