import AppraisalReview.Dict
import AppraisalReview.JobState
import AppraisalReview.ServiceGuards

set_option autoImplicit false

/-!
# The in-memory reference job store

Every operation returns what the caller sees and the store it leaves behind,
also when it raises. The lock makes each call atomic. Random ids drawn by an
operation (`uuid4`) are arguments.
-/
namespace AppraisalReview.MemoryJobStore

structure Job where
  jobId : UUID
  caseId : OpaqueID
  principalId : String
  status : JobStatus
  currentRunId : UUID
  attemptCount : Int := 0
  leaseTakeoverCount : Int := 0
  cancelRequested : Bool := false
  openTaskIds : List UUID := []
  problem : Option ServiceProblem := none
  outboxSeq : ℕ := 0
  createdAt : Int := 0
  updatedAt : Int := 0
deriving DecidableEq

structure Run where
  runId : UUID
  revision : RevisionReference
  documents : List DocumentReference
  payloadDigest : Digest
  fencingToken : ℕ := 0
  resultVersion : ℕ := 0
  leaseOwner : Option UUID := none
  leaseExpiresAt : Option Int := none
  attemptId : Option UUID := none
  runStatus : JobStatus := .queued
deriving DecidableEq

inductive DispatchState where
  | pending | sent | abandoned
deriving DecidableEq, Repr

structure Outbox where
  jobId : UUID
  runId : UUID
  outboxSeq : ℕ
  dispatchToken : UUID
  availableAt : Int
  dispatchAttempts : ℕ := 0
  dispatchState : DispatchState := .pending
deriving DecidableEq

/-- `"running"`, or the value of the event that closed the attempt. -/
inductive AttemptOutcome where
  | running
  | closed (event : JobEvent)
deriving DecidableEq

structure Attempt where
  jobId : UUID
  runId : UUID
  attemptId : UUID
  fencingToken : ℕ
  owner : UUID
  claimedAt : Int
  outcome : AttemptOutcome := .running
deriving DecidableEq

structure Store where
  jobs : Dict UUID Job := .empty
  runs : Dict (UUID × UUID) Run := .empty
  outbox : Dict (UUID × ℕ) Outbox := .empty
  attempts : List Attempt := []
  idempotency : Dict String IdempotencyRecord := .empty
  results : Dict (UUID × ℕ) ResultReference := .empty

abbrev Outcome (α : Type) := Except Fault α × Store

def cancelledProblem : ServiceProblem := { code := .conflict }

def Store.record (s : Store) (job : Job) : Except Fault JobRecord :=
  match s.runs.get? (job.jobId, job.currentRunId) with
  | none => .error .keyError
  | some run => .ok {
      jobId := job.jobId
      caseId := job.caseId
      principalId := job.principalId
      status := job.status
      currentRun := {
        runId := run.runId
        revision := run.revision
        attemptId := if job.status = .running then run.attemptId else none }
      attemptCount := job.attemptCount
      leaseTakeoverCount := job.leaseTakeoverCount
      resultVersion := run.resultVersion
      cancelRequested := job.cancelRequested
      openTaskIds := job.openTaskIds
      problem := job.problem }

def Job.facts (job : Job) : JobFacts where
  status := job.status
  attemptCount := job.attemptCount
  leaseTakeoverCount := job.leaseTakeoverCount
  cancelRequested := job.cancelRequested
  hasOpenTasks := job.openTaskIds ≠ []

def readJob (s : Store) (jobId : UUID) : Except Fault (Option JobRecord) :=
  match s.jobs.get? jobId with
  | none => .ok none
  | some job => (s.record job).map some

def readResultReference (s : Store) (runId : UUID) (resultVersion : ℕ) : Option ResultReference :=
  s.results.get? (runId, resultVersion)

/-- Store the job back with its next outbox round for `runId`. -/
def Store.enqueue (s : Store) (job : Job) (runId token : UUID) (availableAt : Int) : Store :=
  { s with
    jobs := s.jobs.set job.jobId { job with outboxSeq := job.outboxSeq + 1 }
    outbox := s.outbox.set (job.jobId, job.outboxSeq + 1) {
      jobId := job.jobId
      runId := runId
      outboxSeq := job.outboxSeq + 1
      dispatchToken := token
      availableAt := availableAt } }

def idempotencyPartition (sha256 : String → Digest) (principalId key : String) : String :=
  "IDEM#" ++ principalId ++ "#" ++ (sha256 key).text

def Store.runOwner (s : Store) (runId : UUID) : Option UUID :=
  (s.runs.keys.find? fun key => key.2 = runId).map Prod.fst

def createJob (sha256 : String → Digest) (principal : Principal) (submission : ReviewSubmission)
    (jobId runId : UUID) (now : Int) (token : UUID) (s : Store) : Outcome (JobRecord × Bool) :=
  let digest := submissionDigest sha256 submission
  let partition :=
    idempotencyPartition sha256 principal.actor.actorId submission.idempotencyKey.text
  match s.idempotency.get? partition with
  | some stored =>
    match checkIdempotency sha256 stored principal submission with
    | .error fault => (.error fault, s)
    | .ok existingRun =>
      match s.runOwner existingRun with
      | none => (.error (.conditionFailed "Idempotency record references an unknown run"), s)
      | some owner =>
        match s.jobs.get? owner with
        | none => (.error .keyError, s)
        | some job => ((s.record job).map (·, false), s)
  | none =>
    match principal.require submission.revision.caseId .review with
    | .error fault => (.error fault, s)
    | .ok () =>
      if (s.jobs.get? jobId).isSome ∨ (s.runs.get? (jobId, runId)).isSome then
        (.error (.conditionFailed "Job identity already exists"), s)
      else
        let job : Job := {
          jobId := jobId
          caseId := submission.revision.caseId
          principalId := principal.actor.actorId
          status := initialTransition.status
          currentRunId := runId
          createdAt := now
          updatedAt := now }
        let run : Run := {
          runId := runId
          revision := submission.revision
          documents := submission.documents
          payloadDigest := digest }
        let created := { s with
          runs := s.runs.set (jobId, runId) run
          jobs := s.jobs.set jobId job
          idempotency := s.idempotency.set partition {
            principalId := principal.actor.actorId
            key := submission.idempotencyKey.text
            payloadDigest := digest
            runId := runId } }
        let s' := created.enqueue job runId token now
        ((s'.record job).map (·, true), s')

section
variable (policy : JobPolicy)

def claimAdmission (s : Store) (jobId runId : UUID) (leaseSeconds now : Int) :
    Except Fault (Job × Run × Transition) :=
  if leaseSeconds < 1 then .error (.valueError "A lease must last at least one second")
  else match s.jobs.get? jobId, s.runs.get? (jobId, runId) with
  | some job, some run =>
    if job.currentRunId ≠ runId then .error (.conditionFailed "Unknown or superseded run")
    else if run.leaseExpiresAt.any (now < ·) then
      .error (.conditionFailed "A valid lease is held elsewhere")
    else match nextState job.facts .claim policy with
    -- Losing a race is not the caller's error.
    | .error (.service _) => .error (.conditionFailed "Run is not claimable")
    | .error fault => .error fault
    | .ok transition => .ok (job, run, transition)
  | _, _ => .error (.conditionFailed "Unknown or superseded run")

def claim (jobId runId owner : UUID) (leaseSeconds now : Int) (attemptId : UUID) (s : Store) :
    Outcome ClaimedAttempt :=
  match claimAdmission policy s jobId runId leaseSeconds now with
  | .error fault => (.error fault, s)
  | .ok (job, run, transition) =>
    let run' := { run with
      fencingToken := run.fencingToken + 1
      leaseOwner := some owner
      leaseExpiresAt := some (now + leaseSeconds)
      attemptId := some attemptId
      runStatus := transition.status }
    (.ok {
      jobId := jobId
      runId := runId
      attemptId := attemptId
      owner := owner
      fencingToken := run'.fencingToken
      expectedResultVersion := run'.resultVersion
      leaseExpiresAt := now + leaseSeconds },
     { s with
      jobs := s.jobs.set jobId { job with status := transition.status, updatedAt := now }
      runs := s.runs.set (jobId, runId) run'
      attempts := s.attempts ++ [{
        jobId := jobId
        runId := runId
        attemptId := attemptId
        fencingToken := run'.fencingToken
        owner := owner
        claimedAt := now }] })

/-- `_authority`: the job and run this attempt may still write. -/
def authority (s : Store) (attempt : ClaimedAttempt) : Except Fault (Job × Run) :=
  match s.jobs.get? attempt.jobId, s.runs.get? (attempt.jobId, attempt.runId) with
  | some job, some run =>
    if run.leaseOwner ≠ some attempt.owner ∨ run.fencingToken ≠ attempt.fencingToken ∨
        run.attemptId ≠ some attempt.attemptId ∨ job.status ≠ .running then
      .error (.conditionFailed "This attempt no longer holds the lease")
    else .ok (job, run)
  | _, _ => .error (.conditionFailed "Unknown run")

def heartbeatAdmission (s : Store) (attempt : ClaimedAttempt) (leaseSeconds : Int) :
    Except Fault (Job × Run) :=
  if leaseSeconds < 1 then .error (.valueError "A lease must last at least one second")
  else match authority s attempt with
  | .error fault => .error fault
  | .ok (job, run) =>
    match nextState job.facts .heartbeat policy with
    | .error fault => .error fault
    | .ok _ => .ok (job, run)

def heartbeat (attempt : ClaimedAttempt) (leaseSeconds now : Int) (s : Store) :
    Outcome HeartbeatState :=
  match heartbeatAdmission policy s attempt leaseSeconds with
  | .error fault => (.error fault, s)
  | .ok (job, run) =>
    (.ok { leaseExpiresAt := now + leaseSeconds, cancelRequested := job.cancelRequested },
     { s with
      runs := s.runs.set (attempt.jobId, attempt.runId)
        { run with leaseExpiresAt := some (now + leaseSeconds) }
      jobs := s.jobs.set attempt.jobId { job with updatedAt := now } })

/-- `_release`: the run leaves the expired-lease index. -/
def Run.release (run : Run) (release : Bool) : Run :=
  if release then { run with leaseOwner := none, leaseExpiresAt := none, attemptId := none }
  else run

/-- `_close_attempt` -/
def closeAttempt (attempts : List Attempt) (attemptId : UUID) (event : JobEvent) : List Attempt :=
  attempts.map fun record =>
    if record.attemptId = attemptId then { record with outcome := .closed event } else record

/-- `_commit_result` -/
def commitResult (s : Store) (run : Run) (attempt : ClaimedAttempt)
    (result : Option ResultReference) : Except Fault (Run × Store) :=
  match result with
  | none => .error (.valueError "Publication requires a result reference")
  | some result =>
    if result.runId ≠ attempt.runId ∨ result.fencingToken ≠ attempt.fencingToken ∨
        run.resultVersion ≠ attempt.expectedResultVersion ∨
        result.resultVersion ≠ attempt.expectedResultVersion + 1 then
      .error (.conditionFailed "Stale attempt cannot publish over a newer result")
    else if (s.results.get? (result.runId, result.resultVersion)).isSome then
      .error (.conditionFailed "Result versions are append-only")
    else
      let run := { run with resultVersion := result.resultVersion }
      .ok (run, { s with
        results := s.results.set (result.runId, result.resultVersion) result
        runs := s.runs.set (attempt.jobId, attempt.runId) run })

def finishAdmission (s : Store) (attempt : ClaimedAttempt) (event : JobEvent)
    (openTaskIds : List UUID) (result : Option ResultReference) :
    Except Fault (Job × Run × Transition × Store) :=
  if event.finishes = false then
    .error (.valueError "finish applies only lease-bound terminal or waiting events")
  else match authority s attempt with
  | .error fault => .error fault
  | .ok (job, run) =>
    match nextState { job.facts with hasOpenTasks := openTaskIds ≠ [] } event policy with
    | .error fault => .error fault
    | .ok transition =>
      if event = .publishResult then
        match commitResult s run attempt result with
        | .error fault => .error fault
        | .ok (run, s) => .ok (job, run, transition, s)
      else if result.isSome then
        .error (.valueError "Only publication commits a result reference")
      else .ok (job, run, transition, s)

def finish (attempt : ClaimedAttempt) (event : JobEvent) (now : Int)
    (problem : Option ServiceProblem) (openTaskIds : List UUID)
    (result : Option ResultReference) (s : Store) : Outcome JobRecord :=
  match finishAdmission policy s attempt event openTaskIds result with
  | .error fault => (.error fault, s)
  | .ok (job, run, transition, s) =>
    if transition.status = .failed ∧ problem = none then
      (.error (.valueError "A terminal failure requires a sanitized problem"), s)
    else
      let problem :=
        if transition.status = .cancelled then some cancelledProblem
        else if transition.status = .failed then problem else none
      let job := { job with
        attemptCount := job.attemptCount + transition.attemptDelta
        status := transition.status
        problem := problem
        -- A cancel that preempted this outcome drops the tasks with it.
        openTaskIds := if transition.status = .cancelled then [] else Dict.fromKeys openTaskIds
        updatedAt := now }
      let run := { run with runStatus := transition.status }.release transition.releaseLease
      let s := { s with
        jobs := s.jobs.set attempt.jobId job
        runs := s.runs.set (attempt.jobId, attempt.runId) run
        attempts := closeAttempt s.attempts attempt.attemptId event }
      (s.record job, s)

def expireAdmission (s : Store) (lease : ExpiredLease) (now : Int) :
    Except Fault (Job × Run × Transition) :=
  match s.jobs.get? lease.jobId, s.runs.get? (lease.jobId, lease.runId) with
  | some job, some run =>
    if run.fencingToken ≠ lease.fencingToken ∨ ¬ run.leaseExpiresAt.any (· ≤ now) ∨
        job.status ≠ .running then
      .error (.conditionFailed "The lease is still valid or already reclaimed")
    else match nextState job.facts .leaseExpired policy with
    | .error fault => .error fault
    | .ok transition => .ok (job, run, transition)
  | _, _ => .error (.conditionFailed "Unknown run")

def expireLease (lease : ExpiredLease) (now : Int) (token : UUID) (s : Store) :
    Outcome JobRecord :=
  match expireAdmission policy s lease now with
  | .error fault => (.error fault, s)
  | .ok (job, run, transition) =>
    let job := { job with
      leaseTakeoverCount := job.leaseTakeoverCount + transition.takeoverDelta
      status := transition.status
      updatedAt := now
      problem :=
        if transition.status = .failed then some { code := .execution }
        -- The reclaim completed a cancellation the dead worker never acknowledged.
        else if transition.status = .cancelled then some cancelledProblem
        else job.problem
      openTaskIds := if transition.status = .cancelled then [] else job.openTaskIds }
    let run := { run with runStatus := transition.status }.release transition.releaseLease
    let s := { s with
      jobs := s.jobs.set lease.jobId job
      runs := s.runs.set (lease.jobId, lease.runId) run }
    let s := if transition.enqueueOutbox then s.enqueue job lease.runId token now else s
    (s.record job, s)

def cancelAdmission (s : Store) (jobId : UUID) : Except Fault (Job × Run × Transition) :=
  match s.jobs.get? jobId with
  | none => .error (.conditionFailed "Unknown job")
  | some job =>
    match nextState job.facts .cancel policy with
    | .error fault => .error fault
    | .ok transition =>
      match s.runs.get? (jobId, job.currentRunId) with
      | none => .error .keyError
      | some run => .ok (job, run, transition)

def cancel (jobId : UUID) (now : Int) (s : Store) : Outcome JobRecord :=
  match cancelAdmission policy s jobId with
  | .error fault => (.error fault, s)
  | .ok (job, run, transition) =>
    let changed :=
      if transition.requestCancel then ({ job with cancelRequested := true, updatedAt := now }, run)
      else ({ job with
          status := transition.status
          problem := some cancelledProblem
          openTaskIds := []
          updatedAt := now },
        { run with runStatus := transition.status }.release transition.releaseLease)
    let s := { s with
      jobs := s.jobs.set jobId changed.1
      runs := s.runs.set (jobId, job.currentRunId) changed.2 }
    (s.record changed.1, s)

def retryAdmission (s : Store) (jobId : UUID) : Except Fault (Job × Transition) :=
  match s.jobs.get? jobId with
  | none => .error (.conditionFailed "Unknown job")
  | some job =>
    match nextState job.facts .scheduleRetry policy with
    | .error (.service _) => .error (.conditionFailed "The job is no longer awaiting a retry")
    | .error fault => .error fault
    | .ok transition => .ok (job, transition)

def scheduleRetry (jobId : UUID) (availableAt now : Int) (token : UUID) (s : Store) :
    Outcome JobRecord :=
  match retryAdmission policy s jobId with
  | .error fault => (.error fault, s)
  | .ok (job, transition) =>
    let job := { job with status := transition.status, problem := none, updatedAt := now }
    let s := { s with jobs := s.jobs.set jobId job }
    match s.runs.get? (jobId, job.currentRunId) with
    | none => (.error .keyError, s)
    | some run =>
      let s := { s with
        runs := s.runs.set (jobId, job.currentRunId) { run with runStatus := transition.status } }
      let s := s.enqueue job job.currentRunId token availableAt
      (s.record job, s)

def rejectAdmission (s : Store) (jobId runId taskId : UUID) : Except Fault (Job × Transition) :=
  match s.jobs.get? jobId with
  | none => .error (.conditionFailed "The task no longer belongs to the current open run")
  | some job =>
    if job.currentRunId ≠ runId ∨ taskId ∉ job.openTaskIds then
      .error (.conditionFailed "The task no longer belongs to the current open run")
    else
      let remaining := job.openTaskIds.filter (· ≠ taskId)
      match nextState { job.facts with hasOpenTasks := remaining ≠ [] } .humanRejected policy with
      | .error fault => .error fault
      | .ok transition => .ok (job, transition)

def rejectHumanTask (jobId runId taskId : UUID) (now : Int) (s : Store) : Outcome JobRecord :=
  match rejectAdmission policy s jobId runId taskId with
  | .error fault => (.error fault, s)
  | .ok (job, transition) =>
    let job := { job with
      openTaskIds := job.openTaskIds.filter (· ≠ taskId)
      status := transition.status
      problem := if transition.status = .failed then some { code := .conflict } else none
      updatedAt := now }
    let s := { s with jobs := s.jobs.set jobId job }
    match s.runs.get? (jobId, runId) with
    | none => (.error .keyError, s)
    | some run =>
      let s := { s with
        runs := s.runs.set (jobId, runId) { run with runStatus := transition.status } }
      (s.record job, s)

def resumeAdmission (s : Store) (jobId : UUID) (run : RunReference) :
    Except Fault (Job × Run × Transition) :=
  match s.jobs.get? jobId with
  | none => .error (.conditionFailed "Unknown job")
  | some job =>
    match s.runs.get? (jobId, job.currentRunId) with
    | none => .error .keyError
    | some current =>
      if run.runId = current.runId ∨ (s.runs.get? (jobId, run.runId)).isSome ∨
          run.revision = current.revision ∨ run.revision.caseId ≠ job.caseId ∨
          run.attemptId ≠ none then
        .error (.conditionFailed "Resuming requires a new run for a new revision")
      else match nextState job.facts .humanResponseCommitted policy with
      | .error fault => .error fault
      | .ok transition => .ok (job, current, transition)

def resumeAfterHuman (jobId : UUID) (run : RunReference) (now : Int) (token : UUID)
    (s : Store) : Outcome JobRecord :=
  match resumeAdmission policy s jobId run with
  | .error fault => (.error fault, s)
  | .ok (job, current, transition) =>
    let job := { job with
      currentRunId := run.runId
      status := transition.status
      openTaskIds := []
      updatedAt := now }
    let s := { s with
      runs := s.runs.set (jobId, run.runId) {
        runId := run.runId
        revision := run.revision
        documents := current.documents
        payloadDigest := current.payloadDigest }
      jobs := s.jobs.set jobId job }
    let s := s.enqueue job run.runId token now
    (s.record job, s)

def markDispatched (record : DispatchRecord) (now : Int) (s : Store) : Outcome JobRecord :=
  match s.outbox.get? (record.jobId, record.outboxSeq), s.jobs.get? record.jobId with
  | some entry, some job =>
    if entry.dispatchToken ≠ record.dispatchToken ∨ entry.dispatchState ≠ .pending then
      (.error (.conditionFailed "This dispatch round is no longer pending"), s)
    else
      let s := { s with
        outbox := s.outbox.set (record.jobId, record.outboxSeq)
          { entry with dispatchState := .sent } }
      -- A worker can claim between the send and this mark; only a queued job moves on.
      if job.status = .queued then
        match nextState job.facts .dispatchSucceeded policy with
        | .error fault => (.error fault, s)
        | .ok transition =>
          match s.runs.get? (job.jobId, entry.runId) with
          | none => (.error .keyError,
              { s with jobs := s.jobs.set record.jobId { job with status := transition.status } })
          | some run =>
            let job := { job with status := transition.status, updatedAt := now }
            let s := { s with
              jobs := s.jobs.set record.jobId job
              runs := s.runs.set (job.jobId, entry.runId)
                { run with runStatus := transition.status } }
            (s.record job, s)
      else
        let job := { job with updatedAt := now }
        let s := { s with jobs := s.jobs.set record.jobId job }
        (s.record job, s)
  | _, _ => (.error (.conditionFailed "Unknown outbox entry"), s)

def rescheduleDispatch (record : DispatchRecord) (availableAt : Int) (s : Store) : Outcome Bool :=
  match s.outbox.get? (record.jobId, record.outboxSeq) with
  | none => (.error (.conditionFailed "Unknown outbox entry"), s)
  | some entry =>
    if entry.dispatchToken ≠ record.dispatchToken ∨ entry.dispatchState ≠ .pending then
      (.error (.conditionFailed "This dispatch round is no longer pending"), s)
    else match s.jobs.get? record.jobId with
    | none => (.error .keyError, s)
    | some job =>
      if job.status.terminal then
        -- No worker may claim this job again, so the round is not retried.
        (.ok false, { s with
          outbox := s.outbox.set (record.jobId, record.outboxSeq)
            { entry with dispatchState := .abandoned } })
      else match nextState job.facts .dispatchFailed policy with
      | .error fault => (.error fault, s)
      | .ok _ => (.ok true, { s with
          outbox := s.outbox.set (record.jobId, record.outboxSeq)
            { entry with
              availableAt := availableAt
              dispatchAttempts := entry.dispatchAttempts + 1 } })

end

def scanLimit {α : Type} (limit : Int) (found : List α) : Except Fault (List α) :=
  if limit < 1 then .error (.valueError "A scan needs a positive limit")
  else .ok (found.take limit.toNat)

def Outbox.dispatchRecord (entry : Outbox) : DispatchRecord where
  jobId := entry.jobId
  runId := entry.runId
  outboxSeq := entry.outboxSeq
  dispatchToken := entry.dispatchToken
  availableAt := entry.availableAt
  dispatchAttempts := entry.dispatchAttempts

def pendingDispatches (s : Store) (now limit : Int) : Except Fault (List DispatchRecord) :=
  let due := s.outbox.values.filter fun entry =>
    entry.dispatchState = .pending ∧ entry.availableAt ≤ now
  let ordered := due.insertionSort fun a b =>
    a.availableAt < b.availableAt ∨ (a.availableAt = b.availableAt ∧ a.outboxSeq ≤ b.outboxSeq)
  scanLimit limit (ordered.map Outbox.dispatchRecord)

/-- A record whose current run is missing raises, so the scan is monadic. -/
def strandedRetryables (s : Store) (strandedBefore limit : Int) :
    Except Fault (List JobRecord) :=
  let stranded := s.jobs.values.filter fun job =>
    job.status = .retryableFailed ∧ job.updatedAt ≤ strandedBefore
  let ordered := stranded.insertionSort fun a b => a.updatedAt ≤ b.updatedAt
  match scanLimit limit ordered with
  | .error fault => .error fault
  | .ok found => found.mapM s.record

/-- `job_id` of the run's key, when that run's lease has passed and its job runs. -/
def expiredEntry (s : Store) (now : Int) (item : (UUID × UUID) × Run) :
    Except Fault (Option ExpiredLease) :=
  match item.2.leaseExpiresAt with
  | none => .ok none
  | some deadline =>
    if now < deadline then .ok none
    else match s.jobs.get? item.1.1 with
    | none => .error .keyError
    | some job =>
      if job.status = .running then .ok (some {
        jobId := item.1.1
        runId := item.2.runId
        fencingToken := item.2.fencingToken
        leaseExpiresAt := deadline })
      else .ok none

def expiredLeases (s : Store) (now limit : Int) : Except Fault (List ExpiredLease) :=
  if limit < 1 then .error (.valueError "A scan needs a positive limit")
  else match s.runs.items.mapM (expiredEntry s now) with
  | .error fault => .error fault
  | .ok found =>
    let expired := found.filterMap id
    let ordered := expired.insertionSort fun a b => a.leaseExpiresAt ≤ b.leaseExpiresAt
    .ok (ordered.take limit.toNat)

end AppraisalReview.MemoryJobStore
