import AppraisalReview.Identifiers

set_option autoImplicit false

/-!
# Service and job control-plane contracts

The values the job plane stores and returns. A human revision starts a new run,
so one job spans several runs.
-/
namespace AppraisalReview

inductive ServiceErrorCode where
  | validation | unauthorized | notFound | conflict | capability | execution
deriving DecidableEq, Repr

/-- The message is a fixed literal of the contract, so the code is the whole problem. -/
structure ServiceProblem where
  code : ServiceErrorCode
deriving DecidableEq, Repr

inductive Fault where
  | conditionFailed (message : String)
  | service (code : ServiceErrorCode)
  | valueError (message : String)
  | keyError
deriving DecidableEq, Repr

inductive JobStatus where
  | queued | dispatched | running | waitingForHuman | retryableFailed
  | failed | succeeded | cancelled
deriving DecidableEq, Repr

def JobStatus.terminal : JobStatus → Bool
  | .failed | .succeeded | .cancelled => true
  | _ => false

/-- Where a recorded cancel may be seen: under a running attempt, or after the end. -/
def JobStatus.cancelPending (status : JobStatus) : Bool :=
  status = .running || status.terminal

inductive Permission where
  | review | confirm | correct | approveRules | approveMaterial | publish
deriving DecidableEq, Repr

inductive DocumentPurpose where
  | criteria | forms | reference | brief | template
deriving DecidableEq, Repr

structure DocumentReference where
  caseId : OpaqueID
  documentId : OpaqueID
  version : OpaqueID
  contentHash : Digest
  purpose : DocumentPurpose
deriving DecidableEq

structure RevisionReference where
  caseId : OpaqueID
  revisionId : OpaqueID
  materialDigest : Digest
deriving DecidableEq

structure RunReference where
  runId : UUID
  revision : RevisionReference
  attemptId : Option UUID := none
  runtimeSessionId : Option String := none
deriving DecidableEq

inductive ActorKind where
  | human | system | model
deriving DecidableEq, Repr

structure ActorReference where
  actorId : String
  kind : ActorKind
deriving DecidableEq, Repr

/-- Trusted adapter output; a request body never supplies it. -/
structure Principal where
  actor : ActorReference
  caseIds : List String
  permissions : List Permission

def Principal.require (principal : Principal) (caseId : OpaqueID) (permission : Permission) :
    Except Fault Unit :=
  if caseId.text ∉ principal.caseIds ∨ permission ∉ principal.permissions then
    .error (.service .unauthorized)
  else .ok ()

/-- A reserved job request: at least two documents, distinct, all of the revision's case. -/
structure ReviewSubmission where
  revision : RevisionReference
  documents : List DocumentReference
  idempotencyKey : OpaqueID
  minDocuments : 2 ≤ documents.length
  distinctDocuments : (documents.map DocumentReference.documentId).Nodup
  sameCase : ∀ document ∈ documents, document.caseId = revision.caseId

inductive ExecutionStatus where
  | queued | running | succeeded | failed
deriving DecidableEq, Repr

inductive WorkflowStatus where
  | received | needsReview | verified | completed | failed
deriving DecidableEq, Repr

inductive ArtifactStatus where
  | notRequested | unavailable | unsupportedContexts | simulated | written
deriving DecidableEq, Repr

structure JobRecord where
  jobId : UUID
  caseId : OpaqueID
  principalId : String
  status : JobStatus
  currentRun : RunReference
  attemptCount : Int := 0
  leaseTakeoverCount : Int := 0
  resultVersion : ℕ := 0
  cancelRequested : Bool := false
  openTaskIds : List UUID := []
  problem : Option ServiceProblem := none
deriving DecidableEq

/-- Proof of execution authority for exactly one attempt of exactly one run. -/
structure ClaimedAttempt where
  jobId : UUID
  runId : UUID
  attemptId : UUID
  owner : UUID
  fencingToken : ℕ
  expectedResultVersion : ℕ
  leaseExpiresAt : Int
deriving DecidableEq, Repr

structure HeartbeatState where
  leaseExpiresAt : Int
  cancelRequested : Bool
deriving DecidableEq, Repr

/-- One outbox entry: work that is owned but not yet handed to the queue. -/
structure DispatchRecord where
  jobId : UUID
  runId : UUID
  outboxSeq : ℕ
  dispatchToken : UUID
  availableAt : Int
  dispatchAttempts : ℕ := 0
deriving DecidableEq, Repr

structure ExpiredLease where
  jobId : UUID
  runId : UUID
  fencingToken : ℕ
  leaseExpiresAt : Int
deriving DecidableEq, Repr

structure ResultReference where
  runId : UUID
  resultVersion : ℕ
  fencingToken : ℕ
  executionStatus : ExecutionStatus
  businessStatus : Option WorkflowStatus
  artifactStatus : ArtifactStatus
  resultDigest : Digest
  artifactIds : List UUID := []
  findingCount : ℕ := 0
deriving DecidableEq

structure JobReference where
  caseId : OpaqueID
  jobId : UUID
deriving DecidableEq

structure JobStatusView where
  job : JobReference
  jobStatus : JobStatus
  currentRun : Option RunReference := none
  attemptCount : Int := 0
  resultVersion : ℕ := 0
  cancelRequested : Bool := false
  openTaskIds : List UUID := []
  problem : Option ServiceProblem := none
deriving DecidableEq

def JobStatusView.honestStatus (view : JobStatusView) : Except Fault JobStatusView :=
  if view.attemptCount < 0 then .error (.valueError "Input should be greater than or equal to 0")
  else if (view.jobStatus = .failed ∨ view.jobStatus = .cancelled : Bool) ≠ view.problem.isSome then
    .error (.valueError "Terminal failure and cancellation carry a sanitized problem")
  else if view.jobStatus = .succeeded ∧ view.resultVersion < 1 then
    .error (.valueError "A succeeded job must reference a committed result version")
  else if view.jobStatus = .waitingForHuman ∧ view.openTaskIds = [] then
    .error (.valueError "Waiting for human requires at least one open task")
  else if view.cancelRequested ∧ view.jobStatus.cancelPending = false then
    .error (.valueError "A pending cancel cannot survive into work that was not cancelled")
  else if ¬ view.openTaskIds.Nodup then .error (.valueError "Duplicate open task reference")
  else if view.currentRun.any (fun run => run.revision.caseId ≠ view.job.caseId) then
    .error (.valueError "The current run must belong to the job's case")
  else .ok view

/-- `status_view`: project the stored record and validate it. -/
def statusView (record : JobRecord) : Except Fault JobStatusView :=
  JobStatusView.honestStatus {
    job := { caseId := record.caseId, jobId := record.jobId }
    jobStatus := record.status
    currentRun := some record.currentRun
    attemptCount := record.attemptCount
    resultVersion := record.resultVersion
    cancelRequested := record.cancelRequested
    openTaskIds := record.openTaskIds
    problem := record.problem }

end AppraisalReview
