import AppraisalReview.OutboxDispatch
import AppraisalReview.ResultPublication

set_option autoImplicit false

/-!
# Bounded execution of one claimed attempt

`process` gives up the store's lock between its own calls, so it is a machine
that makes one store call a step; other parties may call the store between any
two. The clocks, the drawn ids and the execution's behaviour are arguments of a
step.
-/
namespace AppraisalReview

/-- `PERMANENT_CODES` -/
def ServiceErrorCode.permanent : ServiceErrorCode → Bool
  | .validation | .unauthorized | .notFound => true
  | _ => false

/-- `ServiceResult.model_validate` of a body. -/
def ResultBody.validated (body : ResultBody) : Except Fault ServiceResult :=
  if positive : 1 ≤ body.resultVersion then
    if maxArtifacts : body.artifacts.length ≤ 1 then
      match honest : body.honestCompletion with
      | .ok () => .ok {
          toResultBody := body, positive := positive, maxArtifacts := maxArtifacts, honest := honest }
      | .error fault => .error fault
    else .error (.valueError "Tuple should have at most 1 item after validation")
  else .error (.valueError "Input should be greater than or equal to 1")

/-- A result or already persisted human tasks, never both and never neither. -/
inductive ExecutedReview where
  | result (body : ResultBody)
  | tasks (persistedTaskIds : List UUID) (persisted : persistedTaskIds ≠ [])

/-- What `task.result()` shows of an execution that ended. -/
inductive Ending where
  | executed (review : ExecutedReview)
  | raised (fault : Fault)
  /-- A cancellation of the worker itself, or another exception outside `Exception`. -/
  | interrupted

def Ending.conditionFailed : Ending → Bool
  | .raised (.conditionFailed _) => true
  | _ => false

/-- What `process` returns. -/
inductive Verdict where
  | superseded | cancelled | published | waitingForHuman | failed | retryScheduled
deriving DecidableEq, Repr

/-- `_failure_outcome` -/
def failureOutcome (record : JobRecord) : Verdict :=
  match record.status with
  | .cancelled => .cancelled
  | .failed => .failed
  | _ => .retryScheduled

/-- The claimed attempt, the record read after it, and the lease as last extended. -/
structure Watch where
  attempt : ClaimedAttempt
  record : JobRecord
  leaseExpiresAt : Int

/-- The next store call of `process`, or how it ended. -/
inductive Phase where
  | starting
  | reading (attempt : ClaimedAttempt)
  | acknowledging (attempt : ClaimedAttempt)
  | waiting (watch : Watch)
  | beating (watch : Watch) (done : Bool)
  | settling (watch : Watch)
  | staging (attempt : ClaimedAttempt) (result : ServiceResult)
  | committing (attempt : ClaimedAttempt) (result : ServiceResult) (digest : Digest)
  | parking (attempt : ClaimedAttempt) (taskIds : List UUID)
  | failing (attempt : ClaimedAttempt) (code : ServiceErrorCode)
  | rescheduling (attempt : ClaimedAttempt) (record : JobRecord)
  | returned (attempt : Option ClaimedAttempt) (verdict : Verdict)
  | raised (fault : Option Fault)

/-- The handlers of `process`; `TimeoutError` is one of the other exceptions. -/
def Phase.handled (attempt : ClaimedAttempt) : Fault → Phase
  | .conditionFailed _ => .returned (some attempt) .superseded
  | .service code => .failing attempt code
  | _ => .failing attempt .execution

/-- The handler of the last call, outside the handlers of `process`. -/
def Phase.rejected (attempt : ClaimedAttempt) : Fault → Phase
  | .conditionFailed _ => .returned (some attempt) .superseded
  | fault => .raised (some fault)

def Phase.settled (watch : Watch) : Ending → Phase
  | .interrupted => .raised none
  | .raised fault => .handled watch.attempt fault
  | .executed (.tasks taskIds _) => .parking watch.attempt taskIds
  | .executed (.result body) =>
    if body.run ≠ watch.record.currentRun then .handled watch.attempt (.service .validation)
    else match { body with durable := true }.validated with
    | .error fault => .handled watch.attempt fault
    | .ok result => .staging watch.attempt result

/-- What one step of the worker sees: the clock, whether the loop's deadline has passed,
whether the task is done and how it ended, and what it draws. -/
structure Glimpse where
  now : Int := 0
  expired : Bool := false
  done : Bool := false
  ending : Ending := .interrupted
  owner : UUID := ⟨0⟩
  attemptId : UUID := ⟨0⟩
  jitter : Int → Int := fun _ => 0
  availableFrom : Int := 0
  token : UUID := ⟨0⟩

namespace MemoryJobStore

/-- The stores with one worker. `taken` is the ending the worker took from its task, and
`closing` what its last `finish` returned. -/
structure Worker where
  plane : Plane := {}
  phase : Phase := .starting
  taken : Option Ending := none
  closing : Option JobRecord := none

inductive Event where
  | worker (glimpse : Glimpse)
  | other (call : Call)

def requireDispatch (watch : Watch) (glimpse : Glimpse) (s : Store) : Except Fault Unit :=
  match readJob s watch.record.jobId with
  | .error fault => .error fault
  | .ok none => .error (.conditionFailed "Current uncancelled attempt and lease required")
  | .ok (some current) =>
    if glimpse.expired ∨ watch.leaseExpiresAt ≤ glimpse.now ∨ current.status ≠ .running ∨
        current.cancelRequested ∨ current.currentRun ≠ watch.record.currentRun ∨
        current.principalId ≠ watch.record.principalId ∨ current.caseId ≠ watch.record.caseId ∨
        current.resultVersion ≠ watch.attempt.expectedResultVersion ∨
        current.currentRun.attemptId ≠ some watch.attempt.attemptId then
      .error (.conditionFailed "Current uncancelled attempt and lease required")
    else .ok ()

def Worker.answered {α : Type} (w : Worker) (outcome : Outcome α)
    (next : Except Fault α → Phase) : Worker :=
  { w with plane := { w.plane with jobs := outcome.2 }, phase := next outcome.1 }

def Worker.finished (w : Worker) (outcome : Outcome JobRecord)
    (next : Except Fault JobRecord → Phase) : Worker :=
  { w.answered outcome next with closing := outcome.1.toOption }

section
variable (contentDigest : ServiceResult → Digest) (sha256 : String → Digest)
variable (policy timing : JobPolicy) (jobId runId : UUID)

def readPhase (attempt : ClaimedAttempt) (s : Store) : Phase :=
  match readJob s jobId with
  | .error fault => .handled attempt fault
  | .ok none => .handled attempt (.conditionFailed "")
  | .ok (some record) =>
    if record.currentRun.runId ≠ runId then .handled attempt (.conditionFailed "")
    else if record.cancelRequested then .acknowledging attempt
    else .waiting {
      attempt := attempt, record := record, leaseExpiresAt := attempt.leaseExpiresAt }

def beatPhase (watch : Watch) (done : Bool) (glimpse : Glimpse) :
    Except Fault HeartbeatState → Phase
  | .error fault => .handled watch.attempt fault
  | .ok state =>
    if state.cancelRequested then .acknowledging watch.attempt
    else if glimpse.expired then .failing watch.attempt .execution
    -- The wait showed the task done, or the loop's own condition does now.
    else if done ∨ glimpse.done then
      .settling { watch with leaseExpiresAt := state.leaseExpiresAt }
    else .waiting { watch with leaseExpiresAt := state.leaseExpiresAt }

/-- `ReviewJobService.fail` up to the finished attempt. -/
def failPhase (attempt : ClaimedAttempt) : Except Fault JobRecord → Phase
  | .error fault => .rejected attempt fault
  | .ok record =>
    if record.status ≠ .retryableFailed then .returned (some attempt) (failureOutcome record)
    else .rescheduling attempt record

/-- `_reschedule` -/
def reschedule (record : JobRecord) (glimpse : Glimpse) (s : Store) : Outcome JobRecord :=
  match timing.backoffSeconds record.attemptCount with
  | .error fault => (.error fault, s)
  | .ok delay => scheduleRetry policy record.jobId
      (glimpse.availableFrom + delay + glimpse.jitter delay) glimpse.now glimpse.token s

/-- One step of `process`. -/
def Worker.advance (w : Worker) (glimpse : Glimpse) : Worker :=
  match w.phase with
  | .starting =>
    w.answered (claim policy jobId runId glimpse.owner timing.leaseSeconds glimpse.now
      glimpse.attemptId w.plane.jobs) fun
      | .ok attempt => .reading attempt
      | .error (.conditionFailed _) => .returned none .superseded
      | .error fault => .raised (some fault)
  | .reading attempt => { w with phase := readPhase jobId runId attempt w.plane.jobs }
  | .acknowledging attempt =>
    w.finished (finish policy attempt .cancelAcknowledged glimpse.now none [] none w.plane.jobs) fun
      | .ok _ => .returned (some attempt) .cancelled
      | .error fault => .handled attempt fault
  | .waiting watch =>
    { w with phase :=
        if glimpse.expired then .failing watch.attempt .execution
        else .beating watch glimpse.done }
  | .beating watch done =>
    w.answered (heartbeat policy watch.attempt timing.leaseSeconds glimpse.now w.plane.jobs)
      (beatPhase watch done glimpse)
  | .settling watch =>
    { w with phase := .settled watch glimpse.ending, taken := some glimpse.ending }
  | .staging attempt result =>
    let staged := stage contentDigest attempt result w.plane
    { w with
      plane := staged.2
      phase := match staged.1 with
        | .ok digest => .committing attempt result digest
        | .error fault => .handled attempt fault }
  | .committing attempt result digest =>
    w.finished (finish policy attempt .publishResult glimpse.now none []
      (some (resultReference result attempt digest)) w.plane.jobs) fun
      | .ok _ => .returned (some attempt) .published
      | .error fault => .handled attempt fault
  | .parking attempt taskIds =>
    w.finished (finish policy attempt .needsHuman glimpse.now none taskIds none w.plane.jobs) fun
      | .ok _ => .returned (some attempt) .waitingForHuman
      | .error fault => .handled attempt fault
  | .failing attempt code =>
    w.finished (finish policy attempt
      (if code.permanent then .permanentError else .retryableError) glimpse.now
      (some { code := code }) [] none w.plane.jobs) (failPhase attempt)
  | .rescheduling attempt record =>
    w.answered (reschedule policy timing record glimpse w.plane.jobs) fun
      | .ok record => .returned (some attempt) (failureOutcome record)
      | .error fault => .rejected attempt fault
  | .returned _ _ | .raised _ => w

def Worker.step (w : Worker) : Event → Worker
  | .worker glimpse => w.advance contentDigest policy timing jobId runId glimpse
  | .other call => { w with plane := w.plane.step contentDigest sha256 policy call }

def Worker.run (w : Worker) (events : List Event) : Worker :=
  events.foldl (Worker.step contentDigest sha256 policy timing jobId runId) w

end
end MemoryJobStore
end AppraisalReview
