import AppraisalReview.JobEffects
import AppraisalReview.Revisions

set_option autoImplicit false

/-!
# The in-memory reference human-task store

Answering a task marks it, appends a revision, supersedes the sibling tasks and
schedules the follow-up run on the job plane. The lock makes each call atomic;
when the job plane refuses, the tables are put back. Random ids are arguments.
-/
namespace AppraisalReview

def RevisionReference.identity (reference : RevisionReference) : OpaqueID × OpaqueID :=
  (reference.caseId, reference.revisionId)

def AcceptedResponse.receiptKey (accepted : AcceptedResponse) : String × String :=
  (accepted.actor.actorId, accepted.command.idempotencyKey.text)

namespace HumanTaskStore
variable {content : ContentDigest}

structure Task where
  task : HumanTask
  jobId : UUID
  caseId : OpaqueID
  principalId : String
  seq : ℕ
deriving DecidableEq

structure JobMeta where
  caseId : OpaqueID
  principalId : String
  head : RevisionReference
deriving DecidableEq

structure StoredReceipt where
  principalId : String
  key : String
  payloadDigest : Digest
  receipt : ResponseReceipt
deriving DecidableEq

structure TaskRecord where
  task : HumanTask
  jobId : UUID
  caseId : OpaqueID
  principalId : String
  currentRevision : RevisionReference

structure Store (content : ContentDigest) where
  jobs : MemoryJobStore.Store := {}
  tasks : Dict UUID Task := .empty
  jobMeta : Dict UUID JobMeta := .empty
  chain : Dict UUID (List MaterialRevision) := .empty
  snapshots : Dict (OpaqueID × OpaqueID) (RevisionSnapshot content) := .empty
  receipts : Dict (String × String) StoredReceipt := .empty
  seq : ℕ := 0

abbrev Outcome (content : ContentDigest) (α : Type) := Except Fault α × Store content

def seedAdmission (s : Store content) (jobId : UUID) (principalId : String)
    (snapshot : RevisionSnapshot content) (tasks : List HumanTask) : Except Fault Unit :=
  let revision := snapshot.revision
  if (s.jobMeta.get? jobId).any fun known => known.head ≠ revision.reference ∨
      known.principalId ≠ principalId ∨ known.caseId ≠ revision.reference.caseId then
    .error (.conditionFailed "Task registration requires the unchanged current head")
  else if (s.snapshots.get? revision.reference.identity).any
      fun old => old.revision ≠ revision then
    .error (.conditionFailed "A revision identity cannot be replaced")
  else if ¬ (tasks.map HumanTask.taskId).Nodup then
    .error (.conditionFailed "Duplicate task registration")
  else if tasks.any fun task => task.run.revision ≠ revision.reference ∨
      (s.tasks.get? task.taskId).any fun previous =>
        previous.task ≠ task ∨ previous.jobId ≠ jobId ∨ previous.principalId ≠ principalId then
    .error (.conditionFailed "Task registration conflicts with stored identity")
  else .ok ()

def Store.register (jobId : UUID) (caseId : OpaqueID) (principalId : String) (s : Store content)
    (task : HumanTask) : Store content :=
  if (s.tasks.get? task.taskId).isSome then s
  else { s with
    seq := s.seq + 1
    tasks := s.tasks.set task.taskId {
      task := task
      jobId := jobId
      caseId := caseId
      principalId := principalId
      seq := s.seq + 1 } }

/-- Install the state a finished attempt would have persisted alongside its tasks. -/
def seed (jobId : UUID) (principalId : String) (snapshot : RevisionSnapshot content)
    (tasks : List HumanTask) (s : Store content) : Outcome content Unit :=
  match seedAdmission s jobId principalId snapshot tasks with
  | .error fault => (.error fault, s)
  | .ok () =>
    let reference := snapshot.revision.reference
    let seeded := { s with
      jobMeta := s.jobMeta.set jobId {
        caseId := reference.caseId, principalId := principalId, head := reference }
      chain := if (s.jobMeta.get? jobId).isSome then s.chain
        else s.chain.set jobId [snapshot.revision]
      snapshots := s.snapshots.set reference.identity snapshot }
    (.ok (), tasks.foldl (Store.register jobId reference.caseId principalId) seeded)

def readTask (s : Store content) (taskId : UUID) : Except Fault (Option TaskRecord) :=
  match s.tasks.get? taskId with
  | none => .ok none
  | some entry =>
    match s.jobMeta.get? entry.jobId with
    | none => .error .keyError
    | some known => .ok (some {
        task := entry.task
        jobId := entry.jobId
        caseId := entry.caseId
        principalId := entry.principalId
        currentRevision := known.head })

def listRevisions (s : Store content) (jobId : UUID) : List MaterialRevision :=
  (s.chain.get? jobId).getD []

def readSnapshot (s : Store content) (revision : RevisionReference) :
    Option (RevisionSnapshot content) :=
  (s.snapshots.get? revision.identity).filter
    fun snapshot => snapshot.revision.reference = revision

def readReceipt (s : Store content) (principalId key : String) : Option StoredReceipt :=
  s.receipts.get? (principalId, key)

/-- Everything the caller decided on is checked again: an earlier receipt of the
key, or the open task that the response may answer. -/
def responseAdmission (s : Store content) (accepted : AcceptedResponse)
    (nextRevision : Option (RevisionSnapshot content)) (payloadDigest : Digest) :
    Except Fault (ResponseReceipt ⊕ (Task × JobMeta)) :=
  let command := accepted.command
  match s.tasks.get? command.taskId with
  | none => .error (.conditionFailed "No such task")
  | some entry =>
    match s.jobMeta.get? entry.jobId with
    | none => .error .keyError
    | some known =>
      match s.receipts.get? accepted.receiptKey with
      | some stored =>
        if stored.payloadDigest ≠ payloadDigest then .error (.service .conflict)
        else .ok (.inl stored.receipt)
      | none =>
        if entry.task.state ≠ .open ∨ entry.task.version ≠ command.expectedVersion ∨
            entry.task.run.revision ≠ known.head ∨
            accepted.actor.actorId ≠ entry.principalId then
          .error (.conditionFailed "The task moved before this response committed")
        else if nextRevision.any fun next => next.revision.parent ≠ some known.head then
          .error (.conditionFailed "The revision chain moved before this response committed")
        else .ok (.inr (entry, known))

def Task.restate (entry : Task) (state : TaskState) : Task :=
  { entry with task := entry.task.restate state }

def Store.store (s : Store content) (entry : Task) : Store content :=
  { s with tasks := s.tasks.set entry.task.taskId entry }

def Task.asksAbout (entry : Task) (jobId : UUID) (revision : RevisionReference) : Bool :=
  entry.jobId = jobId && entry.task.state = .open && entry.task.run.revision = revision

/-- The open questions about the old head, in the order they were registered. -/
def Store.stale (s : Store content) (jobId : UUID) (oldHead : RevisionReference) : List Task :=
  (s.tasks.values.filter fun other => other.asksAbout jobId oldHead).insertionSort
    fun a b => a.seq ≤ b.seq

def supersede (tasks : Dict UUID Task) (stale : List Task) : Dict UUID Task :=
  stale.foldl (fun tasks other => tasks.set other.task.taskId (other.restate .superseded)) tasks

def Store.append (s : Store content) (entry : Task) (known : JobMeta)
    (next : RevisionSnapshot content) (stale : List Task) : Store content :=
  let reference := next.revision.reference
  { s with
    tasks := supersede s.tasks stale
    chain := s.chain.set entry.jobId (listRevisions s entry.jobId ++ [next.revision])
    snapshots := s.snapshots.set reference.identity next
    jobMeta := s.jobMeta.set entry.jobId { known with head := reference } }

def Task.receipt (entry : Task) (accepted : AcceptedResponse) (jobStatus : JobStatus)
    (resumed : Option RunReference) (superseded : List UUID) : ResponseReceipt where
  taskId := entry.task.taskId
  consumedVersion := accepted.command.expectedVersion
  action := accepted.command.action
  job := { caseId := entry.caseId, jobId := entry.jobId }
  jobStatus := jobStatus
  revision := resumed.map RunReference.revision
  resumedRun := resumed
  supersededTaskIds := superseded

def Store.recordReceipt (s : Store content) (accepted : AcceptedResponse)
    (payloadDigest : Digest) (receipt : ResponseReceipt) : Outcome content ResponseReceipt :=
  match receipt.committedEffect with
  | .error fault => (.error fault, s)
  | .ok receipt => (.ok receipt, { s with
      receipts := s.receipts.set accepted.receiptKey {
        principalId := accepted.actor.actorId
        key := accepted.command.idempotencyKey.text
        payloadDigest := payloadDigest
        receipt := receipt } })

section
variable (policy : JobPolicy)

/-- `_apply`, up to the state an exception would leave behind. -/
def apply (entry : Task) (known : JobMeta) (accepted : AcceptedResponse)
    (nextRevision : Option (RevisionSnapshot content)) (payloadDigest : Digest) (now : Int)
    (runId token : UUID) (s : Store content) : Outcome content ResponseReceipt :=
  let s := s.store (entry.restate .answered)
  match nextRevision with
  | none =>
    let rejected := MemoryJobStore.rejectHumanTask policy entry.jobId entry.task.run.runId
      entry.task.taskId now s.jobs
    let s := { s with jobs := rejected.2 }
    match rejected.1 with
    | .error fault => (.error fault, s)
    | .ok record => s.recordReceipt accepted payloadDigest
        (entry.receipt accepted record.status none [])
  | some next =>
    let stale := s.stale entry.jobId known.head
    let s := s.append entry known next stale
    let resumedRun : RunReference := { runId := runId, revision := next.revision.reference }
    let resumed := MemoryJobStore.resumeAfterHuman policy entry.jobId resumedRun now token s.jobs
    let s := { s with jobs := resumed.2 }
    match resumed.1 with
    | .error fault => (.error fault, s)
    | .ok record => s.recordReceipt accepted payloadDigest
        (entry.receipt accepted record.status (some resumedRun)
          (stale.map fun other => other.task.taskId))

/-- After an exception nothing the answer implied may remain visible; the job
plane keeps a state of its own. -/
def Store.restore (s : Store content) : Outcome content ResponseReceipt →
    Outcome content ResponseReceipt
  | (.ok receipt, s') => (.ok receipt, s')
  | (.error fault, s') => (.error fault, { s' with
      tasks := s.tasks
      jobMeta := s.jobMeta
      chain := s.chain
      snapshots := s.snapshots })

def commitResponse (accepted : AcceptedResponse)
    (nextRevision : Option (RevisionSnapshot content)) (payloadDigest : Digest) (now : Int)
    (runId token : UUID) (s : Store content) : Outcome content ResponseReceipt :=
  match responseAdmission s accepted nextRevision payloadDigest with
  | .error fault => (.error fault, s)
  | .ok (.inl receipt) => (.ok receipt, s)
  | .ok (.inr (entry, known)) =>
    s.restore (apply policy entry known accepted nextRevision payloadDigest now runId token s)

end

inductive Call (content : ContentDigest) where
  | seed (jobId : UUID) (principalId : String) (snapshot : RevisionSnapshot content)
      (tasks : List HumanTask)
  | job (op : MemoryJobStore.Op)
  | commit (accepted : AcceptedResponse) (nextRevision : Option (RevisionSnapshot content))
      (payloadDigest : Digest) (now : Int) (runId token : UUID)

section
variable (sha256 : String → Digest) (policy : JobPolicy)

def step (s : Store content) : Call content → Store content
  | .seed jobId principalId snapshot tasks => (seed jobId principalId snapshot tasks s).2
  | .job op => { s with jobs := (MemoryJobStore.step sha256 policy s.jobs op).2 }
  | .commit accepted nextRevision payloadDigest now runId token =>
    (commitResponse policy accepted nextRevision payloadDigest now runId token s).2

def run (s : Store content) (calls : List (Call content)) : Store content :=
  calls.foldl (step sha256 policy) s

end
end HumanTaskStore
end AppraisalReview
