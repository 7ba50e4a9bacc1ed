import AppraisalReview.MemoryJobStore

set_option autoImplicit false

/-!
# What one call of the in-memory store can do

`step` runs one call. `Effect` lists every way a call can change a store whose
tables are linked, and `step_effect` says there are no others.
-/
namespace AppraisalReview.MemoryJobStore

/-- One call with its arguments; the ids it draws come last. -/
inductive Op where
  | createJob (principal : Principal) (submission : ReviewSubmission) (jobId runId : UUID)
      (now : Int) (token : UUID)
  | claim (jobId runId owner : UUID) (leaseSeconds now : Int) (attemptId : UUID)
  | heartbeat (attempt : ClaimedAttempt) (leaseSeconds now : Int)
  | finish (attempt : ClaimedAttempt) (event : JobEvent) (now : Int)
      (problem : Option ServiceProblem) (openTaskIds : List UUID)
      (result : Option ResultReference)
  | expireLease (lease : ExpiredLease) (now : Int) (token : UUID)
  | cancel (jobId : UUID) (now : Int)
  | scheduleRetry (jobId : UUID) (availableAt now : Int) (token : UUID)
  | rejectHumanTask (jobId runId taskId : UUID) (now : Int)
  | resumeAfterHuman (jobId : UUID) (run : RunReference) (now : Int) (token : UUID)
  | markDispatched (record : DispatchRecord) (now : Int)
  | rescheduleDispatch (record : DispatchRecord) (availableAt : Int)

inductive Reply where
  | created (record : JobRecord) (fresh : Bool)
  | claimed (attempt : ClaimedAttempt)
  | extended (state : HeartbeatState)
  | record (record : JobRecord)
  | rescheduled (kept : Bool)
deriving DecidableEq

def answer {α : Type} (wrap : α → Reply) (outcome : Outcome α) : Outcome Reply :=
  (outcome.1.map wrap, outcome.2)

section
variable (sha256 : String → Digest) (policy : JobPolicy)

def step (s : Store) : Op → Outcome Reply
  | .createJob principal submission jobId runId now token =>
    answer (fun r => .created r.1 r.2)
      (createJob sha256 principal submission jobId runId now token s)
  | .claim jobId runId owner leaseSeconds now attemptId =>
    answer .claimed (claim policy jobId runId owner leaseSeconds now attemptId s)
  | .heartbeat attempt leaseSeconds now =>
    answer .extended (heartbeat policy attempt leaseSeconds now s)
  | .finish attempt event now problem openTaskIds result =>
    answer .record (finish policy attempt event now problem openTaskIds result s)
  | .expireLease lease now token => answer .record (expireLease policy lease now token s)
  | .cancel jobId now => answer .record (cancel policy jobId now s)
  | .scheduleRetry jobId availableAt now token =>
    answer .record (scheduleRetry policy jobId availableAt now token s)
  | .rejectHumanTask jobId runId taskId now =>
    answer .record (rejectHumanTask policy jobId runId taskId now s)
  | .resumeAfterHuman jobId run now token =>
    answer .record (resumeAfterHuman policy jobId run now token s)
  | .markDispatched record now => answer .record (markDispatched policy record now s)
  | .rescheduleDispatch record availableAt =>
    answer .rescheduled (rescheduleDispatch policy record availableAt s)

def run (s : Store) (ops : List Op) : Store :=
  ops.foldl (fun s op => (step sha256 policy s op).2) s

theorem run_cons (s : Store) (op : Op) (ops : List Op) :
    run sha256 policy s (op :: ops) = run sha256 policy (step sha256 policy s op).2 ops := rfl

theorem run_append (s : Store) (xs ys : List Op) :
    run sha256 policy s (xs ++ ys) = run sha256 policy (run sha256 policy s xs) ys :=
  List.foldl_append ..

theorem run_invariant (P : Store → Prop)
    (hstep : ∀ s op, P s → P (step sha256 policy s op).2) (s : Store) (hs : P s)
    (ops : List Op) : P (run sha256 policy s ops) := by
  induction ops generalizing s with
  | nil => exact hs
  | cons op ops ih => exact ih _ (hstep s op hs)

end

def sampleDigest : Digest :=
  ⟨"0000000000000000000000000000000000000000000000000000000000000000", by decide⟩

def otherDigest : Digest :=
  ⟨"1111111111111111111111111111111111111111111111111111111111111111", by decide⟩

def sampleRevision (n : ℕ) : RevisionReference where
  caseId := ⟨"case-1", sampleCase_text⟩
  revisionId := if n = 0 then ⟨"revision-0", by decide⟩ else ⟨"revision-1", by decide⟩
  materialDigest := sampleDigest

def sampleDocument (documentId : OpaqueID) (purpose : DocumentPurpose) : DocumentReference where
  caseId := ⟨"case-1", sampleCase_text⟩
  documentId := documentId
  version := ⟨"v1", by decide⟩
  contentHash := sampleDigest
  purpose := purpose

theorem criteria_text : opaqueText "criteria" = true := by decide

theorem forms_text : opaqueText "forms" = true := by decide

theorem sampleKey_text : opaqueText "key-1" = true := by decide

def sampleSubmission : ReviewSubmission where
  revision := sampleRevision 0
  documents := [sampleDocument ⟨"criteria", criteria_text⟩ .criteria,
    sampleDocument ⟨"forms", forms_text⟩ .forms]
  idempotencyKey := ⟨"key-1", sampleKey_text⟩
  minDocuments := by decide
  distinctDocuments := by decide
  sameCase := by decide

def samplePrincipal : Principal where
  actor := { actorId := "reviewer", kind := .human }
  caseIds := ["case-1"]
  permissions := [.review]

/-- The job `1` of run `2` is created at time zero. -/
def sampleCreate : Op := .createJob samplePrincipal sampleSubmission ⟨1⟩ ⟨2⟩ 0 ⟨10⟩

/-- Worker `3` claims the run for a minute and gets the attempt `20`. -/
def sampleClaim : Op := .claim ⟨1⟩ ⟨2⟩ ⟨3⟩ 60 0 ⟨20⟩

def sampleAttempt : ClaimedAttempt where
  jobId := ⟨1⟩
  runId := ⟨2⟩
  attemptId := ⟨20⟩
  owner := ⟨3⟩
  fencingToken := 1
  expectedResultVersion := 0
  leaseExpiresAt := 60

def Run.held (run : Run) : Prop :=
  run.leaseOwner.isSome = true ∧ run.leaseExpiresAt.isSome = true ∧ run.attemptId.isSome = true

def Run.unleased (run : Run) : Prop :=
  run.leaseOwner = none ∧ run.leaseExpiresAt = none ∧ run.attemptId = none

structure Leased (job : Job) (run : Run) : Prop where
  running : job.status = .running → run.held
  stopped : job.status ≠ .running → run.unleased

structure LinkedAt (s : Store) (j : UUID) : Prop where
  jobId : ∀ job, s.jobs.get? j = some job → job.jobId = j
  runId : ∀ r run, s.runs.get? (j, r) = some run → run.runId = r
  owner : ∀ r run, s.runs.get? (j, r) = some run → ∃ job, s.jobs.get? j = some job
  current : ∀ job, s.jobs.get? j = some job → ∃ run, s.runs.get? (j, job.currentRunId) = some run
  counters : ∀ job, s.jobs.get? j = some job → 0 ≤ job.attemptCount ∧ 0 ≤ job.leaseTakeoverCount
  round : ∀ n entry, s.outbox.get? (j, n) = some entry →
    entry.jobId = j ∧ entry.outboxSeq = n ∧ (∃ run, s.runs.get? (j, entry.runId) = some run) ∧
      ∃ job, s.jobs.get? j = some job ∧ n ≤ job.outboxSeq
  leased : ∀ job run, s.jobs.get? j = some job → s.runs.get? (j, job.currentRunId) = some run →
    Leased job run
  /-- A superseded run holds no lease. -/
  idle : ∀ job r run, s.jobs.get? j = some job → s.runs.get? (j, r) = some run →
    r ≠ job.currentRunId → run.unleased

def Linked (s : Store) : Prop := ∀ j, LinkedAt s j

structure Touched (s s' : Store) (j : UUID) (job : Job) (run : Run) (job' : Job) (run' : Run) :
    Prop where
  before : s.jobs.get? j = some job
  current : s.runs.get? (j, job.currentRunId) = some run
  jobs : ∀ k, s'.jobs.get? k = if k = j then some job' else s.jobs.get? k
  runs : ∀ k, s'.runs.get? k = if k = (j, job.currentRunId) then some run' else s.runs.get? k
  idempotency : s'.idempotency = s.idempotency

def Outbox.fresh (j runId : UUID) (seq : ℕ) (token : UUID) (availableAt : Int) : Outbox where
  jobId := j
  runId := runId
  outboxSeq := seq
  dispatchToken := token
  availableAt := availableAt

def Attempt.opened (attempt : ClaimedAttempt) (now : Int) : Attempt where
  jobId := attempt.jobId
  runId := attempt.runId
  attemptId := attempt.attemptId
  fencingToken := attempt.fencingToken
  owner := attempt.owner
  claimedAt := now

def Run.leased (run : Run) (owner attemptId : UUID) (deadline : Int) : Run :=
  { run with
    fencingToken := run.fencingToken + 1
    leaseOwner := some owner
    leaseExpiresAt := some deadline
    attemptId := some attemptId
    runStatus := .running }

/-- The run after its attempt ended, or after the job left the running status. -/
def Run.settled (run : Run) (status : JobStatus) : Run :=
  { run with runStatus := status, leaseOwner := none, leaseExpiresAt := none, attemptId := none }

/-- The attempt holds the lease of a running job. -/
structure Holds (attempt : ClaimedAttempt) (job : Job) (run : Run) : Prop where
  owner : run.leaseOwner = some attempt.owner
  token : run.fencingToken = attempt.fencingToken
  attemptId : run.attemptId = some attempt.attemptId
  running : job.status = .running

structure Publishes (s : Store) (attempt : ClaimedAttempt) (run : Run) (ref : ResultReference) :
    Prop where
  runId : ref.runId = attempt.runId
  token : ref.fencingToken = attempt.fencingToken
  expected : run.resultVersion = attempt.expectedResultVersion
  next : ref.resultVersion = attempt.expectedResultVersion + 1
  unused : s.results.get? (ref.runId, ref.resultVersion) = none

/-- The job as `finish` leaves it. -/
def Job.finished (job : Job) (transition : Transition) (now : Int)
    (problem : Option ServiceProblem) (openTaskIds : List UUID) : Job :=
  { job with
    attemptCount := job.attemptCount + transition.attemptDelta
    status := transition.status
    problem :=
      if transition.status = .cancelled then some cancelledProblem
      else if transition.status = .failed then problem else none
    openTaskIds := if transition.status = .cancelled then [] else Dict.fromKeys openTaskIds
    updatedAt := now }

/-- The job as `expire_lease` leaves it. -/
def Job.reclaimed (job : Job) (transition : Transition) (now : Int) : Job :=
  { job with
    leaseTakeoverCount := job.leaseTakeoverCount + transition.takeoverDelta
    status := transition.status
    updatedAt := now
    problem :=
      if transition.status = .failed then some { code := .execution }
      else if transition.status = .cancelled then some cancelledProblem
      else job.problem
    openTaskIds := if transition.status = .cancelled then [] else job.openTaskIds }

inductive Effect (sha256 : String → Digest) (policy : JobPolicy) (s : Store) :
    Op → Except Fault Reply → Store → Prop where
  | refused (op : Op) (fault : Fault) : Effect sha256 policy s op (.error fault) s
  | replayed (principal : Principal) (submission : ReviewSubmission) (jobId runId : UUID)
      (now : Int) (token : UUID) (record : JobRecord) :
      Effect sha256 policy s (.createJob principal submission jobId runId now token)
        (.ok (.created record false)) s
  | created (principal : Principal) (submission : ReviewSubmission) (j r : UUID) (now : Int)
      (token : UUID) (s' : Store) (record : JobRecord) (job : Job) (run : Run)
      (unused : s.jobs.get? j = none)
      (hjob : job = {
        jobId := j, caseId := submission.revision.caseId
        principalId := principal.actor.actorId, status := .queued, currentRunId := r
        outboxSeq := 1, createdAt := now, updatedAt := now })
      (hrun : run = {
        runId := r, revision := submission.revision, documents := submission.documents
        payloadDigest := submissionDigest sha256 submission })
      (jobs : s'.jobs = (s.jobs.set j { job with outboxSeq := 0 }).set j job)
      (runs : s'.runs = s.runs.set (j, r) run)
      (outbox : s'.outbox = s.outbox.set (j, 1) (.fresh j r 1 token now))
      (attempts : s'.attempts = s.attempts) (results : s'.results = s.results)
      (reply : s'.record job = .ok record) :
      Effect sha256 policy s (.createJob principal submission j r now token)
        (.ok (.created record true)) s'
  | claimed (j r owner attemptId : UUID) (leaseSeconds now : Int) (s' : Store) (job : Job)
      (run : Run) (attempt : ClaimedAttempt)
      (hattempt : attempt = {
        jobId := j, runId := r, attemptId := attemptId, owner := owner
        fencingToken := run.fencingToken + 1, expectedResultVersion := run.resultVersion
        leaseExpiresAt := now + leaseSeconds })
      (touched : Touched s s' j job run { job with status := .running, updatedAt := now }
        (run.leased owner attemptId (now + leaseSeconds)))
      (hcurrent : job.currentRunId = r) (claimable : job.status.claimable = true)
      (outbox : s'.outbox = s.outbox)
      (attempts : s'.attempts = s.attempts ++ [.opened attempt now])
      (results : s'.results = s.results) :
      Effect sha256 policy s (.claim j r owner leaseSeconds now attemptId)
        (.ok (.claimed attempt)) s'
  | extended (attempt : ClaimedAttempt) (leaseSeconds now : Int) (s' : Store) (job : Job)
      (run : Run)
      (touched : Touched s s' attempt.jobId job run { job with updatedAt := now }
        { run with leaseExpiresAt := some (now + leaseSeconds) })
      (hcurrent : job.currentRunId = attempt.runId) (holds : Holds attempt job run)
      (outbox : s'.outbox = s.outbox) (attempts : s'.attempts = s.attempts)
      (results : s'.results = s.results) :
      Effect sha256 policy s (.heartbeat attempt leaseSeconds now)
        (.ok (.extended { leaseExpiresAt := now + leaseSeconds,
                          cancelRequested := job.cancelRequested })) s'
  | finished (attempt : ClaimedAttempt) (event : JobEvent) (now : Int)
      (problem : Option ServiceProblem) (openTaskIds : List UUID)
      (result : Option ResultReference) (s' : Store) (record : JobRecord) (job : Job) (run : Run)
      (transition : Transition) (version : ℕ)
      (touched : Touched s s' attempt.jobId job run
        (job.finished transition now problem openTaskIds)
        { run.settled transition.status with resultVersion := version })
      (hcurrent : job.currentRunId = attempt.runId) (holds : Holds attempt job run)
      (finishes : event.finishes = true)
      (decided : nextState { job.facts with hasOpenTasks := openTaskIds ≠ [] } event policy =
        .ok transition)
      (explained : transition.status = .failed → problem ≠ none)
      (published :
        (event = .publishResult ∧ ∃ ref, result = some ref ∧ Publishes s attempt run ref ∧
          version = ref.resultVersion ∧
          s'.results = s.results.set (ref.runId, ref.resultVersion) ref) ∨
        (event ≠ .publishResult ∧ version = run.resultVersion ∧ s'.results = s.results))
      (outbox : s'.outbox = s.outbox)
      (attempts : s'.attempts = closeAttempt s.attempts attempt.attemptId event)
      (reply : s'.record (job.finished transition now problem openTaskIds) = .ok record) :
      Effect sha256 policy s (.finish attempt event now problem openTaskIds result)
        (.ok (.record record)) s'
  | reclaimed (lease : ExpiredLease) (now : Int) (token : UUID) (s' : Store)
      (record : JobRecord) (job job' : Job) (run : Run) (transition : Transition)
      (deadline : Int)
      (touched : Touched s s' lease.jobId job run job' (run.settled transition.status))
      (hcurrent : job.currentRunId = lease.runId) (running : job.status = .running)
      (htoken : run.fencingToken = lease.fencingToken)
      (hdeadline : run.leaseExpiresAt = some deadline) (expired : deadline ≤ now)
      (decided : nextState job.facts .leaseExpired policy = .ok transition)
      (round :
        (transition.status = .queued ∧
          job' = { job.reclaimed transition now with outboxSeq := job.outboxSeq + 1 } ∧
          s'.outbox = s.outbox.set (lease.jobId, job.outboxSeq + 1)
            (.fresh lease.jobId lease.runId (job.outboxSeq + 1) token now)) ∨
        (transition.status ≠ .queued ∧ job' = job.reclaimed transition now ∧
          s'.outbox = s.outbox))
      (attempts : s'.attempts = s.attempts) (results : s'.results = s.results)
      (reply : s'.record job' = .ok record) :
      Effect sha256 policy s (.expireLease lease now token) (.ok (.record record)) s'
  | flagged (j : UUID) (now : Int) (s' : Store) (record : JobRecord) (job : Job) (run : Run)
      (touched : Touched s s' j job run { job with cancelRequested := true, updatedAt := now } run)
      (running : job.status = .running)
      (outbox : s'.outbox = s.outbox) (attempts : s'.attempts = s.attempts)
      (results : s'.results = s.results)
      (reply : s'.record { job with cancelRequested := true, updatedAt := now } = .ok record) :
      Effect sha256 policy s (.cancel j now) (.ok (.record record)) s'
  | cancelled (j : UUID) (now : Int) (s' : Store) (record : JobRecord) (job job' : Job) (run : Run)
      (hjob : job' = { job with
        status := .cancelled, problem := some cancelledProblem, openTaskIds := []
        updatedAt := now })
      (touched : Touched s s' j job run job' (run.settled .cancelled))
      (cancellable : job.status.cancellable = true)
      (outbox : s'.outbox = s.outbox) (attempts : s'.attempts = s.attempts)
      (results : s'.results = s.results) (reply : s'.record job' = .ok record) :
      Effect sha256 policy s (.cancel j now) (.ok (.record record)) s'
  | retried (j : UUID) (availableAt now : Int) (token : UUID) (s' : Store) (record : JobRecord)
      (job job' : Job) (run : Run)
      (hjob : job' = { job with
        status := .queued, problem := none, updatedAt := now, outboxSeq := job.outboxSeq + 1 })
      (touched : Touched s s' j job run job' { run with runStatus := .queued })
      (failed : job.status = .retryableFailed)
      (outbox : s'.outbox = s.outbox.set (j, job.outboxSeq + 1)
        (.fresh j job.currentRunId (job.outboxSeq + 1) token availableAt))
      (attempts : s'.attempts = s.attempts) (results : s'.results = s.results)
      (reply : s'.record job' = .ok record) :
      Effect sha256 policy s (.scheduleRetry j availableAt now token) (.ok (.record record)) s'
  | rejected (j r task : UUID) (now : Int) (s' : Store) (record : JobRecord) (job job' : Job)
      (run : Run) (status : JobStatus)
      (hjob : job' = { job with
        openTaskIds := job.openTaskIds.filter (· ≠ task), status := status
        problem := if status = .failed then some { code := .conflict } else none
        updatedAt := now })
      (touched : Touched s s' j job run job' { run with runStatus := status })
      (hcurrent : job.currentRunId = r) (waiting : job.status = .waitingForHuman)
      (member : task ∈ job.openTaskIds)
      (hstatus : (status = .waitingForHuman ∧ job.openTaskIds.filter (· ≠ task) ≠ []) ∨
        (status = .failed ∧ job.openTaskIds.filter (· ≠ task) = []))
      (outbox : s'.outbox = s.outbox) (attempts : s'.attempts = s.attempts)
      (results : s'.results = s.results) (reply : s'.record job' = .ok record) :
      Effect sha256 policy s (.rejectHumanTask j r task now) (.ok (.record record)) s'
  | resumed (j : UUID) (reference : RunReference) (now : Int) (token : UUID) (s' : Store)
      (record : JobRecord) (job job' : Job) (current : Run)
      (before : s.jobs.get? j = some job)
      (hcurrent : s.runs.get? (j, job.currentRunId) = some current)
      (waiting : job.status = .waitingForHuman)
      (unused : s.runs.get? (j, reference.runId) = none)
      (revised : reference.revision ≠ current.revision)
      (sameCase : reference.revision.caseId = job.caseId) (bare : reference.attemptId = none)
      (hjob : job' = { job with
        currentRunId := reference.runId, status := .queued, openTaskIds := []
        updatedAt := now, outboxSeq := job.outboxSeq + 1 })
      (jobs : ∀ k, s'.jobs.get? k = if k = j then some job' else s.jobs.get? k)
      (runs : s'.runs = s.runs.set (j, reference.runId) {
        runId := reference.runId, revision := reference.revision
        documents := current.documents, payloadDigest := current.payloadDigest })
      (outbox : s'.outbox = s.outbox.set (j, job.outboxSeq + 1)
        (.fresh j reference.runId (job.outboxSeq + 1) token now))
      (idempotency : s'.idempotency = s.idempotency)
      (attempts : s'.attempts = s.attempts) (results : s'.results = s.results)
      (reply : s'.record job' = .ok record) :
      Effect sha256 policy s (.resumeAfterHuman j reference now token) (.ok (.record record)) s'
  | dispatched (mark : DispatchRecord) (now : Int) (s' : Store) (record : JobRecord)
      (job job' : Job) (run : Run) (entry : Outbox)
      (before : s.jobs.get? mark.jobId = some job)
      (hentry : s.outbox.get? (mark.jobId, mark.outboxSeq) = some entry)
      (token : entry.dispatchToken = mark.dispatchToken)
      (pending : entry.dispatchState = .pending) (queued : job.status = .queued)
      (hrun : s.runs.get? (mark.jobId, entry.runId) = some run)
      (hjob : job' = { job with status := .dispatched, updatedAt := now })
      (jobs : s'.jobs = s.jobs.set mark.jobId job')
      (runs : s'.runs =
        s.runs.set (mark.jobId, entry.runId) { run with runStatus := .dispatched })
      (outbox : s'.outbox =
        s.outbox.set (mark.jobId, mark.outboxSeq) { entry with dispatchState := .sent })
      (idempotency : s'.idempotency = s.idempotency)
      (attempts : s'.attempts = s.attempts) (results : s'.results = s.results)
      (reply : s'.record job' = .ok record) :
      Effect sha256 policy s (.markDispatched mark now) (.ok (.record record)) s'
  | confirmed (mark : DispatchRecord) (now : Int) (s' : Store) (record : JobRecord) (job : Job)
      (entry : Outbox)
      (before : s.jobs.get? mark.jobId = some job)
      (hentry : s.outbox.get? (mark.jobId, mark.outboxSeq) = some entry)
      (token : entry.dispatchToken = mark.dispatchToken)
      (pending : entry.dispatchState = .pending) (notQueued : job.status ≠ .queued)
      (hs : s' = { s with
        outbox := s.outbox.set (mark.jobId, mark.outboxSeq) { entry with dispatchState := .sent }
        jobs := s.jobs.set mark.jobId { job with updatedAt := now } })
      (reply : s'.record { job with updatedAt := now } = .ok record) :
      Effect sha256 policy s (.markDispatched mark now) (.ok (.record record)) s'
  | abandoned (mark : DispatchRecord) (availableAt : Int) (job : Job) (entry : Outbox)
      (before : s.jobs.get? mark.jobId = some job)
      (hentry : s.outbox.get? (mark.jobId, mark.outboxSeq) = some entry)
      (token : entry.dispatchToken = mark.dispatchToken)
      (pending : entry.dispatchState = .pending) (terminal : job.status.terminal = true) :
      Effect sha256 policy s (.rescheduleDispatch mark availableAt) (.ok (.rescheduled false))
        { s with
          outbox := s.outbox.set (mark.jobId, mark.outboxSeq)
            { entry with dispatchState := .abandoned } }
  | deferred (mark : DispatchRecord) (availableAt : Int) (job : Job) (entry : Outbox)
      (before : s.jobs.get? mark.jobId = some job)
      (hentry : s.outbox.get? (mark.jobId, mark.outboxSeq) = some entry)
      (token : entry.dispatchToken = mark.dispatchToken)
      (pending : entry.dispatchState = .pending) (live : job.status.terminal = false) :
      Effect sha256 policy s (.rescheduleDispatch mark availableAt) (.ok (.rescheduled true))
        { s with
          outbox := s.outbox.set (mark.jobId, mark.outboxSeq)
            { entry with
              availableAt := availableAt
              dispatchAttempts := entry.dispatchAttempts + 1 } }

end AppraisalReview.MemoryJobStore
