import AppraisalReview.ActionPolicy
import AppraisalReview.LedgerLaws

set_option autoImplicit false

/-!
# One decision of the controlled workflow

A decision selects a proposal, admits it again at a fresh snapshot, executes it
at most once and charges the budget. What the ports answer, and whether the
clock has passed the time allowance where it is read, are the answers of the
decision: each place that calls a port is reached at most once.
-/
namespace AppraisalReview.ControlledWorkflow
open RunLedger (Budget Memory Rejection WorkflowRunReservation)
open ActionPolicy (ControlledActionPolicy derive)

inductive SelectorErrorCode where
  | noAllowedAction | ambiguousAction | missingArgumentSource | invalidProposal | malformedOutput
  | truncatedOutput | refused | timeout | inFlight | throttled | providerError
  | unsupportedResponse
deriving DecidableEq

def SelectorErrorCode.text : SelectorErrorCode → String
  | .noAllowedAction => "no_allowed_action"
  | .ambiguousAction => "ambiguous_action"
  | .missingArgumentSource => "missing_argument_source"
  | .invalidProposal => "invalid_proposal"
  | .malformedOutput => "malformed_output"
  | .truncatedOutput => "truncated_output"
  | .refused => "refused"
  | .timeout => "timeout"
  | .inFlight => "in_flight"
  | .throttled => "throttled"
  | .providerError => "provider_error"
  | .unsupportedResponse => "unsupported_response"

/-- Sanitized selector failure with optional adapter-measured metadata; the numbers are unchecked. -/
structure ActionSelectionError where
  code : SelectorErrorCode
  modelId : Option String := none
  promptVersion : Option String := none
  attempts : Int := 0
  latencyMs : Int := 0
  inputTokens : Option Int := none
  outputTokens : Option Int := none
  attemptsKnown : Bool := true
  event : Option SelectionFailureEvent := none

/-- An exception on its way out; a cancellation is no `Exception`. -/
inductive Raise where
  | selection (error : ActionSelectionError)
  | service (code : ServiceErrorCode)
  | unavailable (rejection : Rejection)
  | timeout | unknownResult | validation | other | cancelled

def serviceText : ServiceErrorCode → String
  | .validation => "invalid_request"
  | .unauthorized => "unauthorized"
  | .notFound => "not_found"
  | .conflict => "version_conflict"
  | .capability => "capability_unavailable"
  | .execution => "execution_failed"

def opaqueId (text : String) : Except Raise OpaqueID :=
  (OpaqueID.parse text).mapError fun _ => .validation

def natural (n : Int) : Except Raise ℕ :=
  if n < 0 then .error .validation else .ok n.toNat

def opaqueIds : Option String → Except Raise (Option OpaqueID)
  | none => .ok none
  | some text => do
    let id ← opaqueId text
    .ok (some id)

def naturals : Option Int → Except Raise (Option ℕ)
  | none => .ok none
  | some n => do
    let n ← natural n
    .ok (some n)

/-- Sanitized actual executor result; workflow state comes from a fresh snapshot. -/
structure ControlledToolReceipt where
  outcome : ToolOutcome
  reasonCode : OpaqueID
  reviewerSummary : String
  affectedSubjectIds : List OpaqueID := []
  evidence : List SourceCitation := []
  linkedTaskId : Option UUID := none
  linkedResponseKey : Option OpaqueID := none
  summarized : reviewerSummary ≠ ""
  uniqueSubjects : affectedSubjectIds.Nodup
  responseTask : linkedResponseKey.isSome = true → linkedTaskId.isSome = true

variable {sources : List DocumentReference → Digest}

structure Answers (sources : List DocumentReference → Digest) where
  initial : Except Raise (WorkflowSnapshot sources)
  history : Except Raise (List DecisionEvent)
  failures : Except Raise (List SelectionFailureEvent)
  lateSelection : Bool := false
  select : SelectorInput sources → Except Raise ActionProposal
  execution : Except Raise (WorkflowSnapshot sources)
  lateAdmission : Bool := false
  lateExecution : Bool := false
  execute : ActionProposal → Except Raise ControlledToolReceipt
  lateReceipt : Bool := false
  result : Except Raise (WorkflowSnapshot sources)
  elapsedMs : Int := 0
  eventId : UUID
  secondEventId : UUID
  append : Except Raise Unit := .ok ()

/-- A coordinator: the policy, the actors and the registry that it was given. -/
structure Coordinator (sources : List DocumentReference → Digest) where
  digest : WorkflowSnapshot sources → Digest
  policy : ControlledActionPolicy
  selectorActor : ActorReference
  executorActor : ActorReference
  sourceRegistry : Option SourceRegistry := none
  trusted : executorActor.kind = .system

/-- The budget of the run is larger somewhere than that of the snapshot. -/
def exceeds (budget source : Budget) : Bool :=
  source.stepsRemaining < budget.stepsRemaining ||
    source.modelCallsRemaining < budget.modelCallsRemaining ||
    source.retriesRemaining < budget.retriesRemaining ||
    match budget.timeRemainingMs, source.timeRemainingMs with
    | none, none => false
    | some budget, some source => source < budget
    | _, _ => true

/-- `model_validate` with the budget of the run. -/
def withBudget (snapshot : WorkflowSnapshot sources) (budget : Budget) :
    Except Raise (WorkflowSnapshot sources) :=
  if h : budget.valid = true then .ok { snapshot with budget := budget, budgeted := h }
  else .error .validation

/-- `_current` -/
def current (run : RunReference) (budget : Option Budget)
    (answer : Except Raise (WorkflowSnapshot sources)) :
    Except Raise (WorkflowSnapshot sources) := do
  let snapshot ← answer
  if snapshot.run ≠ run then .error (.service .conflict)
  else match budget with
  | none => .ok snapshot
  | some budget =>
    if exceeds budget snapshot.budget then .error (.service .capability)
    else withBudget snapshot budget

def actorProposes (kind : ActorKind) (kinds : List ProposerKind) : Bool :=
  match kind with
  | .human => false
  | .system => .system ∈ kinds
  | .model => .model ∈ kinds

def providerCalls (proposal : ActionProposal) : Option ℕ :=
  if proposal.proposer.kind = .model then proposal.attemptCount else none

def providerRetries (proposal : ActionProposal) : Int :=
  match providerCalls proposal with
  | some attempts => attempts - 1
  | none => 0

def argumentsAdmitted (arguments : ActionArguments) (snapshot : WorkflowSnapshot sources)
    (admitted : AllowedAction) : Bool :=
  match arguments with
  | .extractPage document _ _ | .inspectReference document _ _ =>
    document ∈ snapshot.revision.documents && document.purpose ∈ admitted.permittedDocumentPurposes
  | .deterministicReview revision rules =>
    revision = snapshot.revision.reference && rules = snapshot.revision.rules
  | .requestHumanReview reasonCode _ affectedSubjectIds evidence =>
    match snapshot.unresolvedBlockers.filter fun blocker =>
      blocker.reasonCode = reasonCode && blocker.affectedSubjectIds = affectedSubjectIds with
    | [blocker] => evidence.all fun citation =>
      citation.ofDocuments snapshot.revision.documents && citation ∈ blocker.evidence
    | _ => false

def matching (proposal : ActionProposal) (allowed : AllowedActionSet) : List AllowedAction :=
  allowed.actions.filter fun action =>
    action.actionId = proposal.actionId && action.action = proposal.action

/-- `admit_action`; every action permits a system executor. -/
def admitAction (c : Coordinator sources) (proposal : ActionProposal)
    (snapshot : WorkflowSnapshot sources) (allowed : AllowedActionSet) :
    Except ServiceErrorCode Unit :=
  if proposal.proposer ≠ c.selectorActor then .error .unauthorized
  else if proposal.run ≠ snapshot.run ∨ proposal.snapshotDigest ≠ c.digest snapshot ∨
      proposal.policyVersion ≠ allowed.policyVersion ∨
      proposal.snapshotDigest ≠ allowed.snapshotDigest ∨
      snapshot.revision.reference ≠ allowed.revision ∨
      snapshot.revision.documents ≠ allowed.documents ∨
      snapshot.revision.rules ≠ allowed.rules then .error .conflict
  else match matching proposal allowed with
  | [admitted] =>
    if snapshot.state ∉ admitted.permittedStates ∨
        ¬ admitted.prerequisites.all (· ∈ snapshot.satisfiedPrerequisites) ∨
        ¬ actorProposes c.selectorActor.kind admitted.proposerKinds ∨
        admitted.revision ≠ snapshot.revision.reference ∨
        admitted.rules ≠ snapshot.revision.rules then .error .unauthorized
    else if snapshot.budget.stepsRemaining < admitted.cost.steps ∨
        snapshot.budget.modelCallsRemaining <
          ((providerCalls proposal).map Int.ofNat).getD admitted.cost.modelCalls ∨
        snapshot.budget.retriesRemaining < admitted.cost.retries + providerRetries proposal then
      .error .capability
    else if ¬ argumentsAdmitted proposal.arguments snapshot admitted then .error .unauthorized
    else .ok ()
  | _ => .error .unauthorized

/-- The registered document is the one of the arguments, and some evidence cites the page. -/
def pageIsCurrent (registry : SourceRegistry) (reference : DocumentReference) (page : ℕ)
    (evidence : List SourceCitation) : Bool :=
  match registry.documents.find? fun item => item.documentId = reference.documentId.text with
  | none => false
  | some document =>
    document.version = reference.version.text && document.contentHash = reference.contentHash.text &&
      document.role.purpose = reference.purpose && page ≤ document.pages.length &&
      evidence.any fun ref => ref.documentId = document.documentId && ref.page = (page : ℤ) &&
        registry.resolves ref

/-- `_source_is_current` -/
def sourceIsCurrent (c : Coordinator sources) (arguments : ActionArguments)
    (evidence : List SourceCitation) : Bool :=
  match c.sourceRegistry, arguments with
  | some registry, .extractPage document page region =>
    pageIsCurrent registry document page evidence &&
      region.all fun region => region ∈ evidence && registry.resolves region
  | some registry, .inspectReference document page sectionId =>
    pageIsCurrent registry document page evidence && sectionId.all fun sectionId =>
      evidence.any fun ref => ref.documentId = document.documentId.text && ref.page = (page : ℤ) &&
        ref.regionId = sectionId.text && registry.resolves ref
  | _, _ => false

def admission (c : Coordinator sources) (proposal : ActionProposal)
    (snapshot : WorkflowSnapshot sources) (allowed : AllowedActionSet)
    (evidence : List SourceCitation) (late : Bool) : Except ServiceErrorCode Unit :=
  if late then .error .capability
  else do
    admitAction c proposal snapshot allowed
    if proposal.arguments.kind.isSource ∧ ¬ sourceIsCurrent c proposal.arguments evidence then
      .error .unauthorized
    else .ok ()

/-- `_consume` -/
def consume (budget : Budget) (steps modelCalls retries : Int) (elapsedMs minimumElapsedMs : Int) :
    Except Raise (Budget × BudgetConsumption) :=
  let elapsed := max minimumElapsedMs (max 0 elapsedMs)
  let charged := budget.timeRemainingMs.map fun time => min elapsed time
  let after : Budget := {
    stepsRemaining := budget.stepsRemaining - steps
    modelCallsRemaining := budget.modelCallsRemaining - modelCalls
    retriesRemaining := budget.retriesRemaining - retries
    timeRemainingMs := budget.timeRemainingMs.map fun time => time - charged.getD 0 }
  if ¬ after.valid then .error .validation
  else do
    let steps ← natural steps
    let modelCalls ← natural modelCalls
    let retries ← natural retries
    let elapsedMs ← naturals charged
    .ok (after, {
      steps := steps, modelCalls := modelCalls, retries := retries, elapsedMs := elapsedMs })

def buildEvent (record : DecisionRecord) : Except Raise DecisionEvent :=
  if h : record.actualExecution = .ok () then .ok ⟨record, h⟩ else .error .validation

def buildFailure (record : SelectionFailureRecord) : Except Raise SelectionFailureEvent :=
  if h : record.failedSelection = .ok () then .ok ⟨record, h⟩ else .error .validation

/-- `_frontier` -/
def frontier (events : List (UUID × List UUID)) : List UUID :=
  (events.map Prod.fst).filter fun id => events.all fun event => id ∉ event.2

structure Opening (sources : List DocumentReference → Digest) where
  initial : WorkflowSnapshot sources
  parents : List UUID
  allowed : AllowedActionSet
  input : SelectorInput sources

def opening (c : Coordinator sources) (run : RunReference) (evidence : List SourceCitation)
    (budget : Budget) (answers : Answers sources) : Except Raise (Opening sources) := do
  let initial ← current run (some budget) answers.initial
  let history ← answers.history
  let failures ← answers.failures
  let allowed ← (derive c.digest c.policy initial).mapError fun _ => .validation
  let input ← (SelectorInput.exactAuthority c.digest {
    snapshot := initial, allowedActions := allowed, evidence := evidence
    budget := initial.budget }).mapError fun _ => .validation
  .ok {
    initial := initial, allowed := allowed, input := input
    parents := frontier (history.map (fun event => (event.eventId, event.parentEventIds)) ++
      failures.map fun event => (event.eventId, event.parentEventIds)) }

/-- `_rejection` -/
def rejection (proposal : ActionProposal) (o : Opening sources) (answers : Answers sources)
    (code : ServiceErrorCode) : Except Raise DecisionEvent := do
  let modelCalls := ((providerCalls proposal).getD 0 : Int)
  let (after, consumed) ← consume o.initial.budget 0
    (min modelCalls o.initial.budget.modelCallsRemaining)
    (min (max (modelCalls - 1) 0) o.initial.budget.retriesRemaining) answers.elapsedMs 0
  let reasonCode ← opaqueId ("proposal-" ++ serviceText code)
  let event ← buildEvent {
    eventId := answers.eventId, parentEventIds := o.parents, proposal := proposal
    policyVersion := proposal.policyVersion
    stateBefore := o.initial.state, stateAfter := o.initial.state, disposition := .rejected
    reasonCode := reasonCode
    reviewerSummary := "The proposal failed execution-time admission."
    remainingBlockers := o.initial.unresolvedBlockers.map fun blocker => blocker.blockerId.text
    budgetBefore := o.initial.budget, budgetAfter := after, budgetConsumed := consumed }
  answers.append
  .ok event

/-- The call of the selector, when the owner is active and time is left. -/
def selectProposal (active : Except Rejection Unit) (o : Opening sources)
    (answers : Answers sources) : Except Raise ActionProposal :=
  match active with
  | .error _ => .error (.selection { code := .inFlight })
  | .ok () =>
    if o.initial.budget.timeRemainingMs.isSome && answers.lateSelection then
      .error (.selection { code := .timeout })
    else answers.select o.input

/-- `_record_selection_failure`; the error then carries its event. -/
def recordSelectionFailure (c : Coordinator sources) (error : ActionSelectionError)
    (o : Opening sources) (answers : Answers sources) : Except Raise ActionSelectionError := do
  let budget := o.initial.budget
  let calls := if error.attemptsKnown then error.attempts else budget.modelCallsRemaining
  let (after, consumed) ← consume budget 0 (min (max calls 0) budget.modelCallsRemaining)
    (min (max (error.attempts - 1) 0) budget.retriesRemaining) answers.elapsedMs error.latencyMs
  let errorCode ← opaqueId error.code.text
  let promptVersion ← opaqueIds error.promptVersion
  let attemptCount ← naturals (if error.attemptsKnown then some error.attempts else none)
  let inputTokens ← naturals error.inputTokens
  let outputTokens ← naturals error.outputTokens
  let latencyMs ← natural (max error.latencyMs (consumed.elapsedMs.getD 0))
  let event ← buildFailure {
    eventId := answers.eventId, parentEventIds := o.parents, run := o.initial.run
    snapshotDigest := c.digest o.initial, policyVersion := o.allowed.policyVersion
    actor := c.selectorActor, errorCode := errorCode
    modelId := error.modelId, promptVersion := promptVersion, attemptCount := attemptCount
    inputTokens := inputTokens, outputTokens := outputTokens, latencyMs := latencyMs
    budgetBefore := budget, budgetAfter := after, budgetConsumed := consumed
    remainingBlockers := o.initial.unresolvedBlockers.map WorkflowBlocker.blockerId }
  answers.append
  .ok { error with event := some event }

def failedOutcome (code : ServiceErrorCode) : ToolOutcome where
  outcome := .failed
  problem := some ⟨code⟩
  evidence := rfl

def failedReceipt (code : ServiceErrorCode) (reasonCode : OpaqueID) (reviewerSummary : String)
    (summarized : reviewerSummary ≠ "") : ControlledToolReceipt where
  outcome := failedOutcome code
  reasonCode := reasonCode
  reviewerSummary := reviewerSummary
  summarized := summarized
  uniqueSubjects := List.nodup_nil
  responseTask := fun h => by cases h

/-- `_invalid_receipt` -/
def invalidReceipt : ControlledToolReceipt :=
  failedReceipt .execution ⟨"invalid-tool-receipt", by decide⟩
    "The admitted tool returned an invalid result receipt." (by decide)

def timeExhausted : ControlledToolReceipt :=
  failedReceipt .capability ⟨"tool-time-exhausted", by decide⟩
    "The tool exceeded its deadline; automatic retry is prohibited." (by decide)

def resultUnknown : ControlledToolReceipt :=
  failedReceipt .execution ⟨"tool-result-unknown", by decide⟩
    "The external result is unknown; automatic retry is prohibited." (by decide)

theorem executionFailed_reason : opaqueText "tool-execution-failed" = true := by decide

def executionFailed : ControlledToolReceipt :=
  failedReceipt .execution ⟨"tool-execution-failed", executionFailed_reason⟩
    "The admitted tool failed without an accepted result." (by decide)

def toolRejected (code : ServiceErrorCode) : ControlledToolReceipt :=
  failedReceipt code ⟨"tool-" ++ serviceText code, by cases code <;> decide⟩
    "The tool rejected the operation at its trusted boundary." (by decide)

/-- The receipt of the tool, or the one that stands for its exception, and whether the run is
quarantined for it. -/
def toolReceipt (o : Opening sources) (proposal : ActionProposal) (answers : Answers sources) :
    Bool × Except Raise ControlledToolReceipt :=
  let limited := o.initial.budget.timeRemainingMs.isSome
  if limited && answers.lateExecution then (true, .ok timeExhausted)
  else match answers.execute proposal with
  | .ok receipt =>
    if limited && answers.lateReceipt then (true, .ok timeExhausted) else (false, .ok receipt)
  | .error .timeout => (true, .ok timeExhausted)
  | .error .unknownResult => (true, .ok resultUnknown)
  | .error .validation => (true, .ok executionFailed)
  | .error (.service code) => (false, .ok (toolRejected code))
  | .error .cancelled => (false, .error .cancelled)
  | .error _ => (false, .ok executionFailed)

/-- `_receipt_evidence_is_current` -/
def receiptEvidenceIsCurrent (c : Coordinator sources) (receipt : ControlledToolReceipt)
    (snapshot : WorkflowSnapshot sources) : Bool :=
  receipt.evidence.all fun citation => citation.ofDocuments snapshot.revision.documents &&
    c.sourceRegistry.all fun registry => registry.resolves citation

structure Charge where
  after : Budget
  consumed : BudgetConsumption

/-- `decision` -/
def decision (c : Coordinator sources) (proposal : ActionProposal) (admitted : AllowedAction)
    (o : Opening sources) (result : WorkflowSnapshot sources) (charge : Charge) (eventId : UUID)
    (receipt : ControlledToolReceipt) : Except Raise DecisionEvent :=
  buildEvent {
    eventId := eventId, parentEventIds := o.parents, proposal := proposal
    executor := some c.executorActor, policyVersion := proposal.policyVersion
    stateBefore := o.initial.state, stateAfter := result.state
    disposition := if receipt.outcome.outcome = .succeeded then .executed else .failed
    executedAction := some proposal.action, checkedPrerequisites := admitted.prerequisites
    reasonCode := receipt.reasonCode, reviewerSummary := receipt.reviewerSummary
    affectedSubjectIds := receipt.affectedSubjectIds, evidence := receipt.evidence
    toolResult := some receipt.outcome
    remainingBlockers := result.unresolvedBlockers.map fun blocker => blocker.blockerId.text
    linkedTaskId := receipt.linkedTaskId, linkedResponseKey := receipt.linkedResponseKey
    budgetBefore := o.initial.budget, budgetAfter := charge.after
    budgetConsumed := charge.consumed }

def actualRetries (proposal : ActionProposal) (admitted : AllowedAction) (retryCharge : ℕ) : Int :=
  admitted.cost.retries + providerRetries proposal + retryCharge

section
variable {τ : Type} [DecidableEq τ]

abbrev Ledger (τ : Type) := Memory τ WorkflowHistory

/-- `model_validate` of a stored result. -/
def acceptsResult (result : BoundedWorkflowResult) : Bool := (terminalShape result).isOk

def ask (ledger : Ledger τ) (owner : WorkflowRunReservation τ)
    (call : RunLedger.Call τ WorkflowHistory) :
    Ledger τ × Except Rejection (RunLedger.Reply τ WorkflowHistory) :=
  ledger.step acceptsResult owner.token call

/-- `ledger.quarantine`, and what comes after it. -/
def quarantined {α : Type} (ledger : Ledger τ) (owner : WorkflowRunReservation τ)
    (next : Ledger τ → Except Raise α × Ledger τ) : Except Raise α × Ledger τ :=
  match ask ledger owner (.quarantine owner) with
  | (ledger, .error rejection) => (.error (.unavailable rejection), ledger)
  | (ledger, .ok _) => next ledger

/-- `ledger.assert_active` -/
def active (ledger : Ledger τ) (owner : WorkflowRunReservation τ) : Except Rejection Unit :=
  (ask ledger owner (.assertActive owner)).2.map fun _ => ()

/-- A decision of the run, where a receipt that makes no valid event is replaced by one that does. -/
def decided (c : Coordinator sources) (owner : WorkflowRunReservation τ) (proposal : ActionProposal)
    (admitted : AllowedAction) (o : Opening sources) (result : WorkflowSnapshot sources)
    (charge : Charge) (answers : Answers sources) (receipt : ControlledToolReceipt)
    (ledger : Ledger τ) : Except Raise DecisionEvent × Ledger τ :=
  match decision c proposal admitted o result charge answers.eventId receipt with
  | .ok event => (answers.append.map fun _ => event, ledger)
  | .error _ => quarantined ledger owner fun ledger =>
    match decision c proposal admitted o result charge answers.secondEventId invalidReceipt with
    | .ok event => (answers.append.map fun _ => event, ledger)
    | .error raised => (.error raised, ledger)

def receipted (c : Coordinator sources) (owner : WorkflowRunReservation τ) (run : RunReference)
    (proposal : ActionProposal) (admitted : AllowedAction) (o : Opening sources) (retryCharge : ℕ)
    (answers : Answers sources) (receipt : ControlledToolReceipt) (ledger : Ledger τ) :
    Except Raise DecisionEvent × Ledger τ :=
  match current run none answers.result with
  | .error raised => (.error raised, ledger)
  | .ok result =>
    let charged := consume o.initial.budget admitted.cost.steps ((providerCalls proposal).getD 0 : ℕ)
      (actualRetries proposal admitted retryCharge) answers.elapsedMs 0
    if receiptEvidenceIsCurrent c receipt result then
      match charged with
      | .error raised => (.error raised, ledger)
      | .ok (after, consumed) =>
        decided c owner proposal admitted o result ⟨after, consumed⟩ answers receipt ledger
    else quarantined ledger owner fun ledger =>
      match charged with
      | .error raised => (.error raised, ledger)
      | .ok (after, consumed) =>
        decided c owner proposal admitted o result ⟨after, consumed⟩ answers invalidReceipt ledger

def executed (c : Coordinator sources) (owner : WorkflowRunReservation τ) (run : RunReference)
    (proposal : ActionProposal) (admitted : AllowedAction) (o : Opening sources) (retryCharge : ℕ)
    (answers : Answers sources) (ledger : Ledger τ) : Except Raise DecisionEvent × Ledger τ :=
  match toolReceipt o proposal answers with
  | (_, .error raised) => (.error raised, ledger)
  | (false, .ok receipt) =>
    receipted c owner run proposal admitted o retryCharge answers receipt ledger
  | (true, .ok receipt) => quarantined ledger owner fun ledger =>
    receipted c owner run proposal admitted o retryCharge answers receipt ledger

/-- What follows a proposal: a fresh snapshot, the admission and the execution. -/
def proposed (c : Coordinator sources) (owner : WorkflowRunReservation τ) (run : RunReference)
    (evidence : List SourceCitation) (proposal : ActionProposal) (o : Opening sources)
    (retryCharge : ℕ) (answers : Answers sources) (ledger : Ledger τ) :
    Except Raise DecisionEvent × Ledger τ :=
  match current run (some o.initial.budget) answers.execution with
  | .error raised => (.error raised, ledger)
  | .ok snapshot => match derive c.digest c.policy snapshot with
    | .error _ => (.error .validation, ledger)
    | .ok allowed =>
      match admission c proposal snapshot allowed evidence
          (o.initial.budget.timeRemainingMs.isSome && answers.lateAdmission) with
      | .error code => (rejection proposal o answers code, ledger)
      | .ok () => match (matching proposal allowed).head? with
        | none => (.error .other, ledger)
        | some admitted =>
          if o.initial.budget.retriesRemaining < actualRetries proposal admitted retryCharge then
            (rejection proposal o answers .capability, ledger)
          else match active ledger owner with
          | .error rejection => (.error (.unavailable rejection), ledger)
          | .ok () => executed c owner run proposal admitted o retryCharge answers ledger

/-- A selection failure is recorded; where the call may still be running the run is quarantined. -/
def failedSelection (c : Coordinator sources) (owner : WorkflowRunReservation τ)
    (error : ActionSelectionError) (o : Opening sources) (answers : Answers sources)
    (ledger : Ledger τ) : Except Raise DecisionEvent × Ledger τ :=
  let record : Except Raise DecisionEvent :=
    match recordSelectionFailure c error o answers with
    | .error raised => .error raised
    | .ok error => .error (.selection error)
  if error.code = .timeout ∨ error.code = .inFlight then
    quarantined ledger owner fun ledger => (record, ledger)
  else (record, ledger)

/-- `_decide_once` -/
def decideOnce (c : Coordinator sources) (owner : WorkflowRunReservation τ)
    (evidence : List SourceCitation) (budget : Budget) (retryCharge : ℕ) (answers : Answers sources)
    (ledger : Ledger τ) : Except Raise DecisionEvent × Ledger τ :=
  match opening c owner.run evidence budget answers with
  | .error raised => (.error raised, ledger)
  | .ok o => match selectProposal (active ledger owner) o answers with
    | .error .timeout => failedSelection c owner {
        code := .timeout, attemptsKnown := c.selectorActor.kind = .system } o answers ledger
    | .error (.selection error) => failedSelection c owner error o answers ledger
    | .error raised => (.error raised, ledger)
    | .ok proposal =>
      proposed c owner owner.run evidence proposal o retryCharge answers ledger

/-- The charge of a selection failure that has no event is unknown: the run is quarantined. -/
def selectionCharged (owner : WorkflowRunReservation τ) (error : ActionSelectionError)
    (ledger : Ledger τ) : Except Raise DecisionEvent × Ledger τ :=
  match error.event with
  | none => quarantined ledger owner fun ledger => (.error (.selection error), ledger)
  | some event => match ask ledger owner (.checkpoint owner event.budgetAfter) with
    | (ledger, .error rejection) => (.error (.unavailable rejection), ledger)
    | (ledger, .ok _) => (.error (.selection error), ledger)

/-- `decide_reserved`, from the runner: the caller owns the whole invocation. -/
def decideReserved (c : Coordinator sources) (owner : WorkflowRunReservation τ)
    (evidence : List SourceCitation) (budget : Budget) (retryCharge : ℕ) (answers : Answers sources)
    (ledger : Ledger τ) : Except Raise DecisionEvent × Ledger τ :=
  match ask ledger owner (.checkpoint owner budget) with
  | (ledger, .error rejection) => (.error (.unavailable rejection), ledger)
  | (ledger, .ok _) => match ask ledger owner (.remaining owner) with
    | (ledger, .ok (.budget budget)) =>
      match decideOnce c owner evidence budget retryCharge answers ledger with
      | (.error (.selection error), ledger) => selectionCharged owner error ledger
      | (.error raised, ledger) => (.error raised, ledger)
      | (.ok event, ledger) => match ask ledger owner (.checkpoint owner event.budgetAfter) with
        | (ledger, .error rejection) => (.error (.unavailable rejection), ledger)
        | (ledger, .ok _) => (.ok event, ledger)
    | (ledger, .error rejection) => (.error (.unavailable rejection), ledger)
    | (ledger, .ok _) => (.error .other, ledger)

end
end AppraisalReview.ControlledWorkflow
