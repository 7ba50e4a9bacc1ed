import AppraisalReview.HumanTaskStore
import AppraisalReview.JobFencing

set_option autoImplicit false

/-!
# What one call of the human-task store can do

The tables are filed under their own keys, and a committed response is one of
two table updates. A failing response leaves every table as it was.
-/
namespace AppraisalReview

namespace MemoryJobStore
variable {sha256 : String → Digest} {policy : JobPolicy} {s s' : Store}

theorem Effect.of_error {op : Op} {fault : Fault}
    (h : Effect sha256 policy s op (.error fault) s') : s' = s := by
  cases h
  rfl

theorem effect_of_step (linked : Linked s) (op : Op) {reply : Except Fault Reply}
    (h : step (fun _ => sampleDigest) policy s op = (reply, s')) :
    Effect (fun _ => sampleDigest) policy s op reply s' := by
  have effect := step_effect (fun _ => sampleDigest) policy linked op
  rwa [h] at effect

/-- No call changes who owns a job, and only a resume moves its current run. -/
structure SameJob (job job' : Job) : Prop where
  caseId : job'.caseId = job.caseId
  principalId : job'.principalId = job.principalId

def Op.resumes (j : UUID) : Op → Prop
  | .resumeAfterHuman jobId .. => jobId = j
  | _ => False

theorem Touched.sameJob {j k : UUID} {job job' old : Job} {run run' : Run}
    (touched : Touched s s' k job run job' run') (same : SameJob job job')
    (current : job'.currentRunId = job.currentRunId) (hold : s.jobs.get? j = some old) :
    ∃ new, s'.jobs.get? j = some new ∧ SameJob old new ∧ new.currentRunId = old.currentRunId := by
  rw [touched.jobs]
  split_ifs with hj
  · subst hj
    obtain rfl := Option.some.inj (touched.before.symm.trans hold)
    exact ⟨job', rfl, same, current⟩
  · exact ⟨old, hold, ⟨rfl, rfl⟩, rfl⟩

theorem Effect.sameJob {op : Op} {reply : Except Fault Reply}
    (h : Effect sha256 policy s op reply s') {j : UUID} {old : Job}
    (hold : s.jobs.get? j = some old) :
    ∃ new, s'.jobs.get? j = some new ∧ SameJob old new ∧
      (new.currentRunId = old.currentRunId ∨ op.resumes j) := by
  have kept (h : ∃ new, s'.jobs.get? j = some new ∧ SameJob old new ∧
      new.currentRunId = old.currentRunId) : ∃ new, s'.jobs.get? j = some new ∧
      SameJob old new ∧ (new.currentRunId = old.currentRunId ∨ op.resumes j) := by
    obtain ⟨new, hnew, same, hcurrent⟩ := h
    exact ⟨new, hnew, same, .inl hcurrent⟩
  cases h with
  | refused | replayed | abandoned | deferred => exact kept ⟨old, hold, ⟨rfl, rfl⟩, rfl⟩
  | created principal submission k r now token _ record job run unused hjob hrun jobs =>
    refine kept ⟨old, ?_, ⟨rfl, rfl⟩, rfl⟩
    have hne : j ≠ k := by
      rintro rfl
      exact absurd (hold.symm.trans unused) (Option.some_ne_none _)
    rw [jobs, Dict.get?_set_of_ne _ _ hne, Dict.get?_set_of_ne _ _ hne, hold]
  | claimed k r owner attemptId leaseSeconds now _ job run attempt hattempt touched =>
    exact kept (touched.sameJob ⟨rfl, rfl⟩ rfl hold)
  | extended attempt leaseSeconds now _ job run touched =>
    exact kept (touched.sameJob ⟨rfl, rfl⟩ rfl hold)
  | finished attempt event now problem openTaskIds result _ record job run transition version
      touched => exact kept (touched.sameJob ⟨rfl, rfl⟩ rfl hold)
  | reclaimed lease now token _ record job job' run transition deadline touched hcurrent running
      htoken hdeadline expired decided round =>
    obtain ⟨-, rfl, -⟩ | ⟨-, rfl, -⟩ := round <;> exact kept (touched.sameJob ⟨rfl, rfl⟩ rfl hold)
  | flagged k now _ record job run touched => exact kept (touched.sameJob ⟨rfl, rfl⟩ rfl hold)
  | cancelled k now _ record job job' run hjob touched =>
    subst hjob
    exact kept (touched.sameJob ⟨rfl, rfl⟩ rfl hold)
  | retried k availableAt now token _ record job job' run hjob touched =>
    subst hjob
    exact kept (touched.sameJob ⟨rfl, rfl⟩ rfl hold)
  | rejected k r task now _ record job job' run status hjob touched =>
    subst hjob
    exact kept (touched.sameJob ⟨rfl, rfl⟩ rfl hold)
  | resumed k reference now token _ record job job' current before hcurrent waiting unused revised
      sameCase bare hjob jobs =>
    rw [jobs]
    split_ifs with hj
    · subst hj
      obtain rfl := Option.some.inj (before.symm.trans hold)
      exact ⟨job', rfl, by subst hjob; exact ⟨rfl, rfl⟩, .inr rfl⟩
    · exact ⟨old, hold, ⟨rfl, rfl⟩, .inl rfl⟩
  | dispatched mark now _ record job job' run entry before hentry token pending queued hrun hjob
      jobs =>
    rw [jobs, Dict.get?_set]
    split_ifs with hj
    · subst hj
      obtain rfl := Option.some.inj (before.symm.trans hold)
      exact ⟨job', rfl, by subst hjob; exact ⟨rfl, rfl⟩, .inl (by rw [hjob])⟩
    · exact ⟨old, hold, ⟨rfl, rfl⟩, .inl rfl⟩
  | confirmed mark now _ record job entry before hentry token pending notQueued hs =>
    subst hs
    rw [Dict.get?_set]
    split_ifs with hj
    · subst hj
      obtain rfl := Option.some.inj (before.symm.trans hold)
      exact ⟨_, rfl, ⟨rfl, rfl⟩, .inl rfl⟩
    · exact ⟨old, hold, ⟨rfl, rfl⟩, .inl rfl⟩

def workingRevision (s : Store) (j : UUID) : Option RevisionReference :=
  (s.jobs.get? j).bind fun job => (s.runs.get? (j, job.currentRunId)).map Run.revision

theorem Effect.workingRevision {op : Op} {reply : Except Fault Reply} (linked : Linked s)
    (h : Effect sha256 policy s op reply s') {j : UUID} {revision : RevisionReference}
    (working : workingRevision s j = some revision) (still : ¬ op.resumes j) :
    MemoryJobStore.workingRevision s' j = some revision := by
  simp only [MemoryJobStore.workingRevision, Option.bind_eq_some_iff, Option.map_eq_some_iff]
    at working ⊢
  obtain ⟨job, hjob, run, hrun, rfl⟩ := working
  obtain ⟨job', hjob', -, hcurrent⟩ := h.sameJob hjob
  obtain ⟨run', hrun', kept⟩ := h.runStep linked _ _ hrun
  refine ⟨job', hjob', run', ?_, kept.revision⟩
  rw [hcurrent.resolve_right still]
  exact hrun'

end MemoryJobStore

namespace HumanTaskStore
open MemoryJobStore (Linked rejectHumanTask resumeAfterHuman)
variable {content : ContentDigest} {sha256 : String → Digest} {policy : JobPolicy}
variable {s : Store content}

def Filed (tasks : Dict UUID Task) : Prop :=
  ∀ id entry, tasks.get? id = some entry → entry.task.taskId = id

@[simp] theorem restate_taskId (entry : Task) (state : TaskState) :
    (entry.restate state).task.taskId = entry.task.taskId := rfl

theorem get?_supersede {stale : List Task} (tasks : Dict UUID Task)
    (distinct : (stale.map fun other => other.task.taskId).Nodup) (id : UUID) :
    (supersede tasks stale).get? id =
      ((stale.find? fun other => other.task.taskId = id).map (·.restate .superseded)).or
        (tasks.get? id) := by
  induction stale generalizing tasks with
  | nil => rfl
  | cons other rest ih =>
    obtain ⟨hnot, hrest⟩ := List.nodup_cons.mp distinct
    change (supersede (tasks.set other.task.taskId (other.restate .superseded)) rest).get? id = _
    rw [ih _ hrest, Dict.get?_set, List.find?_cons]
    by_cases hid : other.task.taskId = id
    · have absent : (rest.find? fun other => other.task.taskId = id) = none := by
        simp only [List.find?_eq_none, decide_eq_true_eq]
        exact fun e he heq => hnot (List.mem_map.mpr ⟨e, he, heq.trans hid.symm⟩)
      simp [hid, absent]
    · simp [hid, Ne.symm hid]

theorem mem_stale {jobId : UUID} {head : RevisionReference} {entry : Task} :
    entry ∈ s.stale jobId head ↔
      (∃ id, s.tasks.get? id = some entry) ∧ entry.asksAbout jobId head = true := by
  rw [Store.stale, List.mem_insertionSort, List.mem_filter, Dict.mem_values]

theorem stale_distinct (filed : Filed s.tasks) (jobId : UUID) (head : RevisionReference) :
    ((s.stale jobId head).map fun other => other.task.taskId).Nodup := by
  have sorted : (s.stale jobId head).Perm
      (s.tasks.values.filter fun other => other.asksAbout jobId head) := List.perm_insertionSort ..
  refine ((sorted.map _).nodup_iff).mpr (List.Nodup.sublist (List.filter_sublist.map _) ?_)
  have keys : s.tasks.values.map (fun other => other.task.taskId) = s.tasks.keys := by
    rw [Dict.values, Dict.keys, List.map_map]
    refine List.map_congr_left fun item hitem => ?_
    exact filed _ _ ((Dict.mem_items s.tasks item.1 item.2).mp hitem)
  rw [keys]
  exact s.tasks.keysNodup

theorem get?_supersede_stale (filed : Filed s.tasks) (jobId : UUID) (head : RevisionReference)
    (id : UUID) :
    (supersede s.tasks (s.stale jobId head)).get? id = (s.tasks.get? id).map fun entry =>
      if entry.asksAbout jobId head then entry.restate .superseded else entry := by
  rw [get?_supersede _ (stale_distinct filed jobId head)]
  cases hfind : (s.stale jobId head).find? fun other => other.task.taskId = id with
  | some other =>
    have hid : other.task.taskId = id := by simpa using List.find?_some hfind
    obtain ⟨⟨key, hkey⟩, hasks⟩ := mem_stale.mp (List.mem_of_find?_eq_some hfind)
    obtain rfl : key = id := (filed _ _ hkey).symm.trans hid
    simp [hkey, hasks]
  | none =>
    cases hget : s.tasks.get? id with
    | none => rfl
    | some entry =>
      have hfresh : entry.asksAbout jobId head = false := by
        by_contra hasks
        simp only [List.find?_eq_none, decide_eq_true_eq] at hfind
        exact hfind entry (mem_stale.mpr ⟨⟨id, hget⟩, by simpa using hasks⟩) (filed _ _ hget)
      simp [hfresh]

theorem register_frame (jobId : UUID) (caseId : OpaqueID) (principalId : String)
    (tasks : List HumanTask) (s : Store content) :
    let s' := tasks.foldl (Store.register jobId caseId principalId) s
    s'.jobs = s.jobs ∧ s'.jobMeta = s.jobMeta ∧ s'.chain = s.chain ∧ s'.snapshots = s.snapshots ∧
      s'.receipts = s.receipts := by
  induction tasks generalizing s with
  | nil => exact ⟨rfl, rfl, rfl, rfl, rfl⟩
  | cons task rest ih =>
    have first : (Store.register jobId caseId principalId s task).jobs = s.jobs ∧
        (Store.register jobId caseId principalId s task).jobMeta = s.jobMeta ∧
        (Store.register jobId caseId principalId s task).chain = s.chain ∧
        (Store.register jobId caseId principalId s task).snapshots = s.snapshots ∧
        (Store.register jobId caseId principalId s task).receipts = s.receipts := by
      unfold Store.register
      split_ifs <;> exact ⟨rfl, rfl, rfl, rfl, rfl⟩
    obtain ⟨hjobs, hmeta, hchain, hsnapshots, hreceipts⟩ := ih (s.register jobId caseId principalId task)
    obtain ⟨hjobs', hmeta', hchain', hsnapshots', hreceipts'⟩ := first
    exact ⟨hjobs.trans hjobs', hmeta.trans hmeta', hchain.trans hchain',
      hsnapshots.trans hsnapshots', hreceipts.trans hreceipts'⟩

theorem register_task (jobId : UUID) (caseId : OpaqueID) (principalId : String)
    (task : HumanTask) (s : Store content) (id : UUID) :
    (∀ entry, s.tasks.get? id = some entry →
      (s.register jobId caseId principalId task).tasks.get? id = some entry) ∧
    ∀ entry, (s.register jobId caseId principalId task).tasks.get? id = some entry →
      s.tasks.get? id = some entry ∨ (entry.task = task ∧ entry.task.taskId = id ∧
        entry.jobId = jobId ∧ entry.caseId = caseId ∧ entry.principalId = principalId) := by
  unfold Store.register
  split_ifs with known
  · exact ⟨fun _ h => h, fun _ => Or.inl⟩
  · simp only [Dict.get?_set]
    split_ifs with hid
    · subst hid
      refine ⟨fun entry h => absurd (Option.isSome_of_eq_some h) known, fun entry h => Or.inr ?_⟩
      cases h
      exact ⟨rfl, rfl, rfl, rfl, rfl⟩
    · exact ⟨fun _ h => h, fun _ => Or.inl⟩

theorem register_tasks (jobId : UUID) (caseId : OpaqueID) (principalId : String)
    (tasks : List HumanTask) (s : Store content) (id : UUID) :
    (∀ entry, s.tasks.get? id = some entry →
      (tasks.foldl (Store.register jobId caseId principalId) s).tasks.get? id = some entry) ∧
    ∀ entry, (tasks.foldl (Store.register jobId caseId principalId) s).tasks.get? id = some entry →
      s.tasks.get? id = some entry ∨ (entry.task ∈ tasks ∧ entry.task.taskId = id ∧
        entry.jobId = jobId ∧ entry.caseId = caseId ∧ entry.principalId = principalId) := by
  induction tasks generalizing s with
  | nil => exact ⟨fun _ h => h, fun _ => Or.inl⟩
  | cons task rest ih =>
    obtain ⟨keeps, origin⟩ := ih (s.register jobId caseId principalId task)
    obtain ⟨keeps₁, origin₁⟩ := register_task jobId caseId principalId task s id
    refine ⟨fun entry h => keeps entry (keeps₁ entry h), fun entry h => ?_⟩
    obtain hold | ⟨hmem, hfiled⟩ := origin entry h
    · obtain hold | ⟨rfl, hfiled⟩ := origin₁ entry hold
      · exact Or.inl hold
      · exact Or.inr ⟨List.mem_cons_self, hfiled⟩
    · exact Or.inr ⟨List.mem_cons_of_mem _ hmem, hfiled⟩

structure TaskFiled (s : Store content) (entry : Task) : Prop where
  job : ∃ known, s.jobMeta.get? entry.jobId = some known ∧ entry.caseId = known.caseId ∧
    entry.principalId = known.principalId ∧
      (entry.task.state = .open → entry.task.run.revision = known.head)

structure Headed (s : Store content) (jobId : UUID) (known : JobMeta) : Prop where
  chain : ∃ older last, s.chain.get? jobId = some (older ++ [last]) ∧
    last.reference = known.head ∧ (older ++ [last]).IsChain MaterialRevision.Follows ∧
      ∀ revision ∈ older ++ [last], revision.reference.caseId = known.caseId

structure ReceiptFiled (s : Store content) (stored : StoredReceipt) : Prop where
  task : ∃ entry, s.tasks.get? stored.receipt.taskId = some entry ∧
    entry.task.state = .answered ∧ entry.task.version = stored.receipt.consumedVersion + 1

structure Chained (s : Store content) : Prop where
  linked : Linked s.jobs
  filed : Filed s.tasks
  tasks : ∀ id entry, s.tasks.get? id = some entry → TaskFiled s entry
  heads : ∀ j known, s.jobMeta.get? j = some known → Headed s j known
  noChain : ∀ {j}, s.jobMeta.get? j = none → s.chain.get? j = none
  receipts : ∀ key stored, s.receipts.get? key = some stored → ReceiptFiled s stored
  distinct : ∀ key key' stored stored', s.receipts.get? key = some stored →
    s.receipts.get? key' = some stored' → stored.receipt.taskId = stored'.receipt.taskId →
      key = key'

theorem Chained.head_caseId (chained : Chained s) {j : UUID} {known : JobMeta}
    (h : s.jobMeta.get? j = some known) : known.head.caseId = known.caseId := by
  obtain ⟨older, last, -, hlast, -, hcase⟩ := (chained.heads j known h).chain
  rw [← hlast]
  exact hcase last (by simp)

/-- The response answers an open task of the head revision, under an unused key. -/
structure Answers (s : Store content) (accepted : AcceptedResponse) (entry : Task)
    (known : JobMeta) : Prop where
  task : s.tasks.get? accepted.command.taskId = some entry
  job : s.jobMeta.get? entry.jobId = some known
  unused : s.receipts.get? accepted.receiptKey = none
  isOpen : entry.task.state = .open
  version : entry.task.version = accepted.command.expectedVersion
  current : entry.task.run.revision = known.head
  actor : accepted.actor.actorId = entry.principalId

theorem responseAdmission_ok {accepted : AcceptedResponse}
    {next : Option (RevisionSnapshot content)} {payloadDigest : Digest} {entry : Task}
    {known : JobMeta}
    (h : responseAdmission s accepted next payloadDigest = .ok (.inr (entry, known))) :
    Answers s accepted entry known ∧
      ∀ snapshot ∈ next, snapshot.revision.parent = some known.head := by
  unfold responseAdmission at h
  simp only at h
  split at h
  · cases h
  · rename_i entry₁ hentry
    split at h
    · cases h
    · rename_i known₁ hknown
      split at h
      · split_ifs at h
        cases h
      · rename_i hunused
        split_ifs at h with hmoved hchain
        cases h
        push Not at hmoved
        obtain ⟨hopen, hversion, hrevision, hactor⟩ := hmoved
        refine ⟨⟨hentry, hknown, hunused, hopen, hversion, hrevision, hactor⟩, ?_⟩
        rintro snapshot rfl
        simpa using hchain

theorem responseAdmission_replay {accepted : AcceptedResponse}
    {next : Option (RevisionSnapshot content)} {payloadDigest : Digest} {receipt : ResponseReceipt}
    (h : responseAdmission s accepted next payloadDigest = .ok (.inl receipt)) :
    ∃ stored, s.receipts.get? accepted.receiptKey = some stored ∧
      stored.payloadDigest = payloadDigest ∧ stored.receipt = receipt := by
  unfold responseAdmission at h
  simp only at h
  split at h
  · cases h
  · split at h
    · cases h
    · split at h
      · rename_i stored hstored
        split_ifs at h with hdigest
        cases h
        exact ⟨stored, hstored, by simpa using hdigest, rfl⟩
      · split_ifs at h
        cases h

/-- The store after a committed answer, but for the job plane and the receipts. -/
def Store.answered (s : Store content) (entry : Task) : Store content :=
  s.store (entry.restate .answered)

def followUp (next : RevisionSnapshot content) (runId : UUID) : RunReference where
  runId := runId
  revision := next.revision.reference

def filedReceipt (accepted : AcceptedResponse) (payloadDigest : Digest)
    (receipt : ResponseReceipt) : StoredReceipt where
  principalId := accepted.actor.actorId
  key := accepted.command.idempotencyKey.text
  payloadDigest := payloadDigest
  receipt := receipt

/-- Every way a response can answer and change a store whose tables agree. -/
inductive CommitEffect (policy : JobPolicy) (s : Store content) (accepted : AcceptedResponse)
    (next : Option (RevisionSnapshot content)) (payloadDigest : Digest) (now : Int)
    (runId token : UUID) : Except Fault ResponseReceipt → Store content → Prop where
  | refused (fault : Fault) : CommitEffect policy s accepted next payloadDigest now runId token
      (.error fault) s
  | replayed (stored : StoredReceipt)
      (known : s.receipts.get? accepted.receiptKey = some stored)
      (same : stored.payloadDigest = payloadDigest) :
      CommitEffect policy s accepted next payloadDigest now runId token (.ok stored.receipt) s
  | rejected (entry : Task) (known : JobMeta) (record : JobRecord) (jobs : MemoryJobStore.Store)
      (receipt : ResponseReceipt) (answers : Answers s accepted entry known) (bare : next = none)
      (accepts : rejectHumanTask policy entry.jobId entry.task.run.runId entry.task.taskId now
        s.jobs = (.ok record, jobs))
      (hreceipt : receipt = entry.receipt accepted record.status none []) :
      CommitEffect policy s accepted next payloadDigest now runId token (.ok receipt)
        { s.answered entry with
          jobs := jobs
          receipts := s.receipts.set accepted.receiptKey
            (filedReceipt accepted payloadDigest receipt) }
  | resumed (entry : Task) (known : JobMeta) (record : JobRecord) (jobs : MemoryJobStore.Store)
      (receipt : ResponseReceipt) (snapshot : RevisionSnapshot content) (stale : List Task)
      (answers : Answers s accepted entry known) (revises : next = some snapshot)
      (child : snapshot.revision.parent = some known.head)
      (accepting : accepted.command.action ≠ .reject)
      (accepts : resumeAfterHuman policy entry.jobId (followUp snapshot runId) now token s.jobs =
        (.ok record, jobs))
      (hstale : stale = (s.answered entry).stale entry.jobId known.head)
      (hreceipt : receipt = entry.receipt accepted record.status (some (followUp snapshot runId))
        (stale.map fun other => other.task.taskId)) :
      CommitEffect policy s accepted next payloadDigest now runId token (.ok receipt)
        { (s.answered entry).append entry known snapshot stale with
          jobs := jobs
          receipts := s.receipts.set accepted.receiptKey
            (filedReceipt accepted payloadDigest receipt) }
  /-- A rejection that brings a revision: the job plane resumed, the tables were put back. -/
  | torn (entry : Task) (known : JobMeta) (record : JobRecord) (jobs : MemoryJobStore.Store)
      (snapshot : RevisionSnapshot content) (fault : Fault)
      (answers : Answers s accepted entry known) (revises : next = some snapshot)
      (child : snapshot.revision.parent = some known.head)
      (rejecting : accepted.command.action = .reject)
      (accepts : resumeAfterHuman policy entry.jobId (followUp snapshot runId) now token s.jobs =
        (.ok record, jobs)) :
      CommitEffect policy s accepted next payloadDigest now runId token (.error fault)
        { s with jobs := jobs }

theorem receipt_bare (entry : Task) (accepted : AcceptedResponse) (status : JobStatus) :
    (entry.receipt accepted status none []).committedEffect =
      .ok (entry.receipt accepted status none []) := by
  simp [ResponseReceipt.committedEffect, Task.receipt]

/-- The receipt of a resumed job passes its validator, unless a rejection brought a revision. -/
theorem receipt_resumed (status : JobStatus) (runId : UUID) {entry : Task}
    {accepted : AcceptedResponse} {snapshot : RevisionSnapshot content} {superseded : List UUID}
    (sameCase : snapshot.revision.reference.caseId = entry.caseId)
    (accepting : accepted.command.action ≠ .reject) (distinct : superseded.Nodup)
    (own : entry.task.taskId ∉ superseded) :
    (entry.receipt accepted status (some (followUp snapshot runId)) superseded).committedEffect =
      .ok (entry.receipt accepted status (some (followUp snapshot runId)) superseded) := by
  simp [ResponseReceipt.committedEffect, Task.receipt, followUp, sameCase, accepting, distinct, own]

theorem answered_filed (filed : Filed s.tasks) (entry : Task) : Filed (s.answered entry).tasks := by
  intro id other h
  simp only [Store.answered, Store.store, restate_taskId, Dict.get?_set] at h
  split_ifs at h with hid
  · cases h
    exact hid.symm
  · exact filed id other h

theorem answered_not_stale (filed : Filed s.tasks) (entry : Task) (j : UUID)
    (head : RevisionReference) : entry.task.taskId ∉
      ((s.answered entry).stale j head).map fun other => other.task.taskId := by
  intro h
  obtain ⟨other, hother, hid⟩ := List.mem_map.mp h
  obtain ⟨⟨id, hget⟩, hasks⟩ := mem_stale.mp hother
  obtain rfl : other.task.taskId = id := answered_filed filed entry _ _ hget
  rw [hid, Store.answered, Store.store, restate_taskId, Dict.get?_set_self] at hget
  cases hget
  simp [Task.asksAbout, Task.restate, HumanTask.restate] at hasks

theorem Answers.sameCase {accepted : AcceptedResponse} {entry : Task} {known : JobMeta}
    (answers : Answers s accepted entry known) (chained : Chained s)
    {snapshot : RevisionSnapshot content} (child : snapshot.revision.parent = some known.head) :
    snapshot.revision.reference.caseId = entry.caseId := by
  obtain ⟨hcase, -, -⟩ := snapshot.revision.childVersion _ child
  obtain ⟨known', hknown', hentry, -, -⟩ := (chained.tasks _ _ answers.task).job
  obtain rfl := Option.some.inj (answers.job.symm.trans hknown')
  rw [hentry, ← hcase, chained.head_caseId answers.job]

variable (policy) in
theorem apply_rejected (chained : Chained s) {accepted : AcceptedResponse} {entry : Task}
    {known : JobMeta} (answers : Answers s accepted entry known) (payloadDigest : Digest)
    (now : Int) (runId token : UUID) :
    CommitEffect policy s accepted none payloadDigest now runId token
      (s.restore (apply policy entry known accepted none payloadDigest now runId token s)).1
      (s.restore (apply policy entry known accepted none payloadDigest now runId token s)).2 := by
  have same : (s.store (entry.restate .answered)).jobs = s.jobs := rfl
  simp only [apply, same]
  cases hreject : rejectHumanTask policy entry.jobId entry.task.run.runId entry.task.taskId now
      s.jobs with
  | mk reply jobs =>
    cases reply with
    | error fault =>
      have called := congrArg (MemoryJobStore.answer .record) hreject
      obtain rfl : jobs = s.jobs :=
        (MemoryJobStore.effect_of_step chained.linked (.rejectHumanTask ..) called).of_error
      exact .refused fault
    | ok record =>
      simp only [Store.recordReceipt, receipt_bare]
      exact .rejected entry known record jobs _ answers rfl hreject rfl

variable (policy) in
theorem apply_resumed (chained : Chained s) {accepted : AcceptedResponse} {entry : Task}
    {known : JobMeta} (answers : Answers s accepted entry known)
    {snapshot : RevisionSnapshot content} (child : snapshot.revision.parent = some known.head)
    (payloadDigest : Digest) (now : Int) (runId token : UUID) :
    CommitEffect policy s accepted (some snapshot) payloadDigest now runId token
      (s.restore (apply policy entry known accepted (some snapshot) payloadDigest now runId token
        s)).1
      (s.restore (apply policy entry known accepted (some snapshot) payloadDigest now runId token
        s)).2 := by
  have same : ((s.store (entry.restate .answered)).append entry known snapshot
      ((s.store (entry.restate .answered)).stale entry.jobId known.head)).jobs = s.jobs := rfl
  have hfollow : ({ runId := runId, revision := snapshot.revision.reference } : RunReference) =
    followUp snapshot runId := rfl
  simp only [apply, same, hfollow]
  cases hresume : resumeAfterHuman policy entry.jobId (followUp snapshot runId) now token
      s.jobs with
  | mk reply jobs =>
    cases reply with
    | error fault =>
      have called := congrArg (MemoryJobStore.answer .record) hresume
      obtain rfl : jobs = s.jobs :=
        (MemoryJobStore.effect_of_step chained.linked (.resumeAfterHuman ..) called).of_error
      exact .refused fault
    | ok record =>
      by_cases rejecting : accepted.command.action = .reject
      · -- The validator of the receipt refuses after the job plane has resumed.
        simp only [Store.recordReceipt]
        cases hreceipt : ResponseReceipt.committedEffect _ with
        | error fault =>
          exact .torn entry known record jobs snapshot fault answers rfl child rejecting hresume
        | ok receipt =>
          obtain ⟨-, hbare⟩ := ResponseReceipt.committedEffect_ok hreceipt
          exact absurd (hbare rejecting) (Option.some_ne_none _)
      · have valid := receipt_resumed record.status runId
          (answers.sameCase chained child) rejecting
          (stale_distinct (answered_filed chained.filed entry) entry.jobId known.head)
          (answered_not_stale chained.filed entry entry.jobId known.head)
        simp only [Store.answered] at valid
        simp only [Store.recordReceipt, valid]
        exact .resumed entry known record jobs _ snapshot _ answers rfl child rejecting hresume
          rfl rfl

variable (policy) in
theorem commit_effect (chained : Chained s) (accepted : AcceptedResponse)
    (next : Option (RevisionSnapshot content)) (payloadDigest : Digest) (now : Int)
    (runId token : UUID) :
    CommitEffect policy s accepted next payloadDigest now runId token
      (commitResponse policy accepted next payloadDigest now runId token s).1
      (commitResponse policy accepted next payloadDigest now runId token s).2 := by
  unfold commitResponse
  split
  · exact .refused _
  · rename_i receipt hadmit
    obtain ⟨stored, hstored, hdigest, rfl⟩ := responseAdmission_replay hadmit
    exact .replayed stored hstored hdigest
  · rename_i entry known hadmit
    obtain ⟨answers, child⟩ := responseAdmission_ok hadmit
    cases next with
    | none => exact apply_rejected policy chained answers payloadDigest now runId token
    | some snapshot =>
      exact apply_resumed policy chained answers (child snapshot rfl) payloadDigest now runId token

end HumanTaskStore
end AppraisalReview
