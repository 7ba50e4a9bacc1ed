import AppraisalReview.RunLedger
import AppraisalReview.TaskContracts

set_option autoImplicit false

/-!
# Controlled-workflow contracts

Proposals, decisions and selection failures of one run, its terminal result and
the pause that waits for a human. A model with a validator is a record of raw
fields; the checked structure adds that the validator accepts the record.
-/
namespace AppraisalReview
open RunLedger (Budget WorkflowTermination)

inductive ActionKind where
  | extract | reference | human | review
deriving DecidableEq

inductive WorkflowState where
  | criteriaPending | formsPending | extractionRetryable | referenceAvailable
  | rulesAwaitingApproval | evidenceNeedsReview | materialReady | reviewFailed
  | verified | unsupportedContexts | waitingForHuman
deriving DecidableEq

inductive ActionPrerequisite where
  | criteriaDocument | formsDocument | authorizedSource | criteriaParsed | formsParsed
  | extractionRetryAvailable | referenceAvailable | rulesAvailable | rulesApproved
  | criticalEvidenceAvailable | materialComplete
deriving DecidableEq

structure WorkflowBlocker where
  blockerId : OpaqueID
  reasonCode : OpaqueID
  affectedSubjectIds : List OpaqueID
  evidence : List SourceCitation := []
  affected : affectedSubjectIds ≠ []
  uniqueSubjects : affectedSubjectIds.Nodup
deriving DecidableEq

inductive ActionArguments where
  | extractPage (document : DocumentReference) (page : ℕ) (region : Option SourceCitation)
  | inspectReference (document : DocumentReference) (page : ℕ) (sectionId : Option OpaqueID)
  | requestHumanReview (reasonCode : OpaqueID) (question : String)
      (affectedSubjectIds : List OpaqueID) (evidence : List SourceCitation)
  | deterministicReview (revision : RevisionReference) (rules : List RuleReference)
deriving DecidableEq

def ActionArguments.kind : ActionArguments → ActionKind
  | .extractPage .. => .extract
  | .inspectReference .. => .reference
  | .requestHumanReview .. => .human
  | .deterministicReview .. => .review

def ActionArguments.valid : ActionArguments → Bool
  | .extractPage document page region =>
    1 ≤ page && document.purpose ≠ .template && region.all fun region =>
      region.documentId = document.documentId.text && region.version = document.version.text &&
        region.contentHash = document.contentHash.text && region.page = (page : ℤ)
  | .inspectReference document page _ =>
    1 ≤ page && (document.purpose = .reference || document.purpose = .brief)
  | .requestHumanReview _ question subjects _ =>
    question ≠ "" && subjects ≠ [] && decide subjects.Nodup
  | .deterministicReview _ rules => rules ≠ []

structure ActionProposalRecord where
  proposalId : UUID
  run : RunReference
  actionId : OpaqueID
  action : ActionKind
  policyVersion : OpaqueID
  snapshotDigest : Digest
  proposer : ActorReference
  modelId : Option String := none
  promptVersion : Option OpaqueID := none
  inputTokens : Option ℕ := none
  outputTokens : Option ℕ := none
  latencyMs : Option ℕ := none
  attemptCount : Option ℕ := none
  arguments : ActionArguments
  proposerRationale : Option String := none
deriving DecidableEq

def ActionProposalRecord.fields (record : ActionProposalRecord) : Bool :=
  record.modelId ≠ some "" && record.attemptCount ≠ some 0 && record.proposerRationale ≠ some "" &&
    record.arguments.valid

/-- `typed_proposal` -/
def ActionProposalRecord.typedProposal (record : ActionProposalRecord) : Except Fault Unit :=
  if ¬ record.fields then .error (.valueError "Input should be valid")
  else if record.action ≠ record.arguments.kind then
    .error (.valueError "Proposal action and arguments must match")
  else if record.proposer.kind = .human then
    .error (.valueError "Only trusted system or model adapters propose actions")
  else if record.proposer.kind = .model ∧
      (record.modelId = none ∨ record.promptVersion = none ∨ record.latencyMs = none ∨
        record.attemptCount = none ∨ record.inputTokens.isNone ≠ record.outputTokens.isNone) then
    .error (.valueError "Model proposals require adapter identity and complete telemetry")
  else if record.proposer.kind ≠ .model ∧
      (record.modelId.isSome ∨ record.promptVersion.isSome ∨ record.latencyMs.isSome ∨
        record.attemptCount.isSome ∨ record.inputTokens.isSome ∨ record.outputTokens.isSome) then
    .error (.valueError "Only model proposals carry adapter identity and telemetry")
  else match record.arguments with
  | .deterministicReview revision _ =>
    if revision ≠ record.run.revision then
      .error (.valueError "Deterministic review must bind the proposal revision")
    else .ok ()
  | _ => .ok ()

structure ActionProposal extends ActionProposalRecord where
  typed : toActionProposalRecord.typedProposal = .ok ()
deriving DecidableEq

inductive ToolStatus where
  | succeeded | failed
deriving DecidableEq

structure ToolOutcome where
  outcome : ToolStatus
  resultDigest : Option Digest := none
  problem : Option ServiceProblem := none
  evidence : if outcome = .succeeded then resultDigest.isSome = true ∧ problem = none
    else problem.isSome = true
deriving DecidableEq

structure BudgetConsumption where
  steps : ℕ
  modelCalls : ℕ
  retries : ℕ
  elapsedMs : Option ℕ := none
deriving DecidableEq

def BudgetConsumption.matchesBudgets (consumed : BudgetConsumption) (before after : Budget) : Bool :=
  before.stepsRemaining - after.stepsRemaining = consumed.steps &&
    before.modelCallsRemaining - after.modelCallsRemaining = consumed.modelCalls &&
    before.retriesRemaining - after.retriesRemaining = consumed.retries

/-- Time is accounted for in both budgets and the consumption, or nowhere. -/
def BudgetConsumption.timed (consumed : BudgetConsumption) (before after : Budget) : Bool :=
  before.timeRemainingMs.isNone == after.timeRemainingMs.isNone &&
    before.timeRemainingMs.isNone == consumed.elapsedMs.isNone

def BudgetConsumption.matchesTime (consumed : BudgetConsumption) (before after : Budget) : Bool :=
  match before.timeRemainingMs, after.timeRemainingMs with
  | some before, some after => consumed.elapsedMs.any fun elapsed => before - after = elapsed
  | _, _ => true

inductive Disposition where
  | rejected | executed | failed
deriving DecidableEq

structure DecisionRecord where
  eventId : UUID
  parentEventIds : List UUID := []
  proposal : ActionProposal
  executor : Option ActorReference := none
  policyVersion : OpaqueID
  stateBefore : WorkflowState
  stateAfter : WorkflowState
  disposition : Disposition
  executedAction : Option ActionKind := none
  checkedPrerequisites : List ActionPrerequisite := []
  reasonCode : OpaqueID
  reviewerSummary : String
  affectedSubjectIds : List OpaqueID := []
  evidence : List SourceCitation := []
  toolResult : Option ToolOutcome := none
  remainingBlockers : List String := []
  linkedTaskId : Option UUID := none
  linkedResponseKey : Option OpaqueID := none
  budgetBefore : Budget
  budgetAfter : Budget
  budgetConsumed : BudgetConsumption
deriving DecidableEq

def DecisionRecord.fields (record : DecisionRecord) : Bool :=
  record.reviewerSummary ≠ "" && record.budgetBefore.valid && record.budgetAfter.valid

def DecisionRecord.dispositionEvidence (record : DecisionRecord) : Except Fault Unit :=
  if record.disposition = .rejected then
    if record.executedAction.isSome ∨ record.executor.isSome ∨ record.toolResult.isSome then
      .error (.valueError "A rejected action cannot claim tool execution")
    else if record.stateAfter ≠ record.stateBefore then
      .error (.valueError "A rejected action cannot change workflow state")
    else if record.budgetConsumed.steps ≠ 0 then
      .error (.valueError "A rejected action cannot consume a tool step")
    else .ok ()
  else if record.executedAction ≠ some record.proposal.action ∨ record.executor = none ∨
      record.toolResult = none then
    .error (.valueError "Record the actual proposed action and tool result")
  else .ok ()

/-- `actual_execution` -/
def DecisionRecord.actualExecution (record : DecisionRecord) : Except Fault Unit :=
  if ¬ record.fields then .error (.valueError "Input should be valid")
  else if record.eventId ∈ record.parentEventIds ∨ ¬ record.parentEventIds.Nodup then
    .error (.valueError "Decision event parents must be unique and cannot include self")
  else if record.policyVersion ≠ record.proposal.policyVersion then
    .error (.valueError "Decision event and proposal policy versions must match")
  else if record.executor.any (·.kind ≠ .system) then
    .error (.valueError "Only a trusted system adapter can execute an action")
  else match record.dispositionEvidence with
  | .error fault => .error fault
  | .ok () =>
    if record.toolResult.any fun result => result.outcome ≠
        if record.disposition = .executed then .succeeded else .failed then
      .error (.valueError "Decision disposition must match tool outcome")
    else if record.linkedResponseKey.isSome ∧ record.linkedTaskId = none then
      .error (.valueError "A linked response requires its human task")
    else if record.linkedTaskId.isSome ∧ record.proposal.action ≠ .human then
      .error (.valueError "Only a human-review action can link a task")
    else if record.disposition = .executed ∧ record.proposal.action = .human ∧
        (record.linkedTaskId = none ∨ record.stateAfter ≠ .waitingForHuman) then
      .error (.valueError "An executed human-review request must create a waiting task")
    else if ¬ record.checkedPrerequisites.Nodup then
      .error (.valueError "Checked prerequisites must be unique")
    else if ¬ record.affectedSubjectIds.Nodup then
      .error (.valueError "Affected subjects must be unique")
    else if ¬ record.remainingBlockers.Nodup then
      .error (.valueError "Remaining blockers must be unique")
    else if ¬ record.budgetConsumed.matchesBudgets record.budgetBefore record.budgetAfter then
      .error (.valueError "Decision budget consumption must match remaining budget")
    else if ¬ record.budgetConsumed.timed record.budgetBefore record.budgetAfter then
      .error (.valueError "Decision time budget must be consistently available")
    else if ¬ record.budgetConsumed.matchesTime record.budgetBefore record.budgetAfter then
      .error (.valueError "Decision elapsed time must match remaining time budget")
    else .ok ()

structure DecisionEvent extends DecisionRecord where
  actual : toDecisionRecord.actualExecution = .ok ()
deriving DecidableEq

/-- Observed selection failure without fabricating a valid action proposal. -/
structure SelectionFailureRecord where
  eventId : UUID
  parentEventIds : List UUID := []
  run : RunReference
  snapshotDigest : Digest
  policyVersion : OpaqueID
  actor : ActorReference
  errorCode : OpaqueID
  modelId : Option String := none
  promptVersion : Option OpaqueID := none
  attemptCount : Option ℕ := none
  inputTokens : Option ℕ := none
  outputTokens : Option ℕ := none
  latencyMs : ℕ
  budgetBefore : Budget
  budgetAfter : Budget
  budgetConsumed : BudgetConsumption
  remainingBlockers : List OpaqueID := []
deriving DecidableEq

/-- `failed_selection` -/
def SelectionFailureRecord.failedSelection (record : SelectionFailureRecord) : Except Fault Unit :=
  if ¬ (record.budgetBefore.valid && record.budgetAfter.valid) then
    .error (.valueError "Input should be valid")
  else if record.actor.kind = .human then
    .error (.valueError "Selection failure requires a selector actor")
  else if record.eventId ∈ record.parentEventIds ∨ ¬ record.parentEventIds.Nodup then
    .error (.valueError "Selection parents must be unique and cannot include self")
  else if record.inputTokens.isNone ≠ record.outputTokens.isNone then
    .error (.valueError "Token usage must be paired")
  else if record.actor.kind = .system ∧ (record.modelId.isSome ∨ record.promptVersion.isSome ∨
      record.inputTokens.isSome ∨ record.outputTokens.isSome) then
    .error (.valueError "System selection cannot claim model metadata")
  else if record.budgetConsumed.steps ≠ 0 then
    .error (.valueError "Failed selection cannot consume a tool step")
  else if ¬ record.budgetConsumed.matchesBudgets record.budgetBefore record.budgetAfter then
    .error (.valueError "Selection accounting must match its budgets")
  else if ¬ record.budgetConsumed.timed record.budgetBefore record.budgetAfter then
    .error (.valueError "Selection time accounting must be consistently available")
  else if ¬ record.budgetConsumed.matchesTime record.budgetBefore record.budgetAfter then
    .error (.valueError "Selection elapsed time must match its budgets")
  else .ok ()

structure SelectionFailureEvent extends SelectionFailureRecord where
  failed : toSelectionFailureRecord.failedSelection = .ok ()
deriving DecidableEq

inductive FailureCategory where
  | retryableProviderTool | permanentMalformedProposal | unauthorizedSource | missingEvidence
  | unsupportedRuleContext | deterministicReviewBlocker | unresolvedExecution
deriving DecidableEq

/-- Concrete non-persisted request; the task adapter declares its durability. -/
@[ext]
structure HumanReviewHandoff where
  reasonCode : OpaqueID
  category : FailureCategory
  question : String
  revision : RevisionReference
  blockers : List WorkflowBlocker := []
  affectedSubjectIds : List OpaqueID := []
  evidence : List SourceCitation := []
  lastToolOutcome : Option ToolOutcome := none
  noProgressFingerprint : Option Digest := none
  asked : question ≠ ""
  uniqueSubjects : affectedSubjectIds.Nodup
  uniqueBlockers : (blockers.map WorkflowBlocker.blockerId).Nodup

instance : DecidableEq HumanReviewHandoff := fun _ _ =>
  decidable_of_iff _ HumanReviewHandoff.ext_iff.symm

/-- What a terminal result carries besides its run, termination and budget. -/
structure WorkflowHistory where
  events : List DecisionEvent := []
  selectionFailures : List SelectionFailureEvent := []
  handoff : Option HumanReviewHandoff := none
deriving DecidableEq

abbrev BoundedWorkflowResult := RunLedger.BoundedWorkflowResult WorkflowHistory

/-- `terminal_shape` -/
def terminalShape (result : BoundedWorkflowResult) : Except Fault Unit :=
  if result.termination.successful = result.body.handoff.isSome then
    .error (.valueError "Only non-completed bounded workflows require a handoff")
  else if result.body.events.any (·.proposal.run ≠ result.run) then
    .error (.valueError "Bounded workflow events must belong to the same run")
  else if result.body.selectionFailures.any (·.run ≠ result.run) then
    .error (.valueError "Selection failures must belong to the bounded run")
  else if result.termination = .verified ∧
      result.body.events.getLast?.any (·.disposition ≠ .executed) then
    .error (.valueError "Failed execution cannot finish verified")
  else .ok ()

structure WorkflowPause where
  pauseId : UUID
  result : BoundedWorkflowResult
  taskIds : List UUID
deriving DecidableEq

def WorkflowHistory.causes (history : WorkflowHistory) : List (UUID × List UUID) :=
  history.events.map (fun event => (event.eventId, event.parentEventIds)) ++
    history.selectionFailures.map fun event => (event.eventId, event.parentEventIds)

/-- Events whose parents are all gone leave, round by round, until none is left
or none can leave. A round that goes on removes an event. -/
def acyclic : ℕ → List (UUID × List UUID) → Bool
  | 0, pending => pending.isEmpty
  | rounds + 1, pending =>
    let ready := (pending.filter fun event => event.2.isEmpty).map Prod.fst
    if pending.isEmpty then true
    else if ready.isEmpty then false
    else acyclic rounds ((pending.filter fun event => event.1 ∉ ready).map fun event =>
      (event.1, event.2.filter (· ∉ ready)))

/-- `waiting_only` -/
def WorkflowPause.waitingOnly (pause : WorkflowPause) : Except Fault WorkflowPause :=
  let causes := pause.result.body.causes
  let ids := causes.map Prod.fst
  if pause.taskIds = [] then .error (.valueError "Tuple should have at least 1 item")
  else if pause.result.termination ≠ .waitingForHuman ∨
      ¬ (pause.result.body.events.getLast?.any fun event => event.disposition = .executed &&
        event.executedAction = some .human && event.stateAfter = .waitingForHuman &&
        event.linkedTaskId.any (· ∈ pause.taskIds) &&
        pause.result.finalBudget = event.budgetAfter) ∨
      ¬ pause.taskIds.Nodup then
    .error (.valueError "Pause requires an actual successful human-task handoff")
  else if ¬ ids.Nodup ∨ causes.any (fun event => event.2.any (· ∉ ids)) then
    .error (.valueError "Pause must retain the complete local causal trace")
  else if ¬ acyclic causes.length causes then
    .error (.valueError "Pause causal trace must not contain cycles")
  else .ok pause

structure WorkflowContinuation where
  pauseId : UUID
  responseEventId : UUID
  taskId : UUID
  previousRun : RunReference
  nextRun : RunReference
deriving DecidableEq

/-- `fresh_run` -/
def WorkflowContinuation.freshRun (link : WorkflowContinuation) :
    Except Fault WorkflowContinuation :=
  if link.previousRun.runId = link.nextRun.runId ∨
      link.previousRun.revision.caseId ≠ link.nextRun.revision.caseId ∨
      link.nextRun.attemptId.isSome ∨ link.nextRun.runtimeSessionId.isSome then
    .error (.valueError "Continuation requires a fresh same-case run without an attempt")
  else .ok link

end AppraisalReview
