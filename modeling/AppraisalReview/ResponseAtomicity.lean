import AppraisalReview.HumanTasks
import AppraisalReview.RevisionIntegrity

set_option autoImplicit false

/-!
# A response commits its whole effect or nothing

A response reads the stores at different moments and then asks for one write.
Whatever it read, the write is one of the two updates of the tables, and the
receipt it leaves behind answers every later repetition.
-/
namespace AppraisalReview.HumanTaskStore
open MemoryJobStore (Linked SameJob)
variable {content : ContentDigest} {sha256 : String → Digest} {policy : JobPolicy}
variable {rt : Runtime} {ctx : DecimalContext} {s s' : Store content}

/-- The task and the job are visible to this principal. -/
structure Authorized (reads : Reads content) (principal : Principal) (taskId : UUID)
    (record : TaskRecord) : Prop where
  task : ∃ entry, reads.task.tasks.get? taskId = some entry ∧ record.jobId = entry.jobId ∧
    record.caseId = entry.caseId ∧ record.principalId = entry.principalId
  seen : visible principal record = true
  job : ∃ job, authorizedJob reads.job principal record.jobId = .ok job

theorem authorized_ok {reads : Reads content} {principal : Principal} {taskId : UUID}
    {record : TaskRecord} (h : authorized reads principal taskId = .ok record) :
    Authorized reads principal taskId record := by
  unfold authorized readTask at h
  cases htask : reads.task.tasks.get? taskId with
  | none => simp [htask] at h
  | some entry =>
    simp only [htask] at h
    cases hknown : reads.task.jobMeta.get? entry.jobId with
    | none => simp [hknown] at h
    | some known =>
      simp only [hknown] at h
      split_ifs at h with hseen
      split at h
      · cases h
      · rename_i job hjob
        cases h
        exact ⟨⟨entry, htask, rfl, rfl, rfl⟩, hseen, job, hjob⟩

theorem nextRevision_ok {record : TaskRecord} {accepted : AcceptedResponse} {revisionId : String}
    {next : Option (RevisionSnapshot content)}
    (h : nextRevision rt ctx s record accepted revisionId = .ok next) :
    next = none ↔ accepted.command.action = .reject := by
  have mapped {outcome : Except Fault (RevisionSnapshot content)}
      (hmap : outcome.map some = .ok next) : next ≠ none := by
    cases outcome with
    | error fault => cases hmap
    | ok snapshot =>
      cases hmap
      exact Option.some_ne_none _
  rw [nextRevision] at h
  by_cases hreject : accepted.command.action = .reject
  · rw [if_pos hreject] at h
    cases h
    exact iff_of_true rfl hreject
  · rw [if_neg hreject] at h
    refine iff_of_false ?_ hreject
    split at h
    · cases h
    · split at h
      · cases h
      · split at h
        · cases h
        · split at h
          · cases h
          · split at h <;> exact mapped h

/-- What `respond` asks the store to commit comes from the command. -/
structure Prepared (reads : Reads content) (principal : Principal) (taskId : UUID)
    (command : HumanResponse) (accepted : AcceptedResponse)
    (next : Option (RevisionSnapshot content)) : Prop where
  named : command.taskId = taskId
  authorized : ∃ record, Authorized reads principal taskId record
  bare : next = none ↔ command.action = .reject
  accepts : accepted = { command := command, actor := principal.actor }

theorem prepare_ok {reads : Reads content} {principal : Principal} {taskId : UUID}
    {command : HumanResponse} {revisionId : String} {accepted : AcceptedResponse}
    {next : Option (RevisionSnapshot content)}
    (h : prepare rt ctx reads principal taskId command revisionId = .ok (.inr (accepted, next))) :
    Prepared reads principal taskId command accepted next := by
  unfold prepare at h
  split_ifs at h with hnamed
  split at h
  · cases h
  · rename_i record hauthorized
    split at h
    · split_ifs at h
      cases h
    · split at h
      · cases h
      · rename_i accepted' hadmit
        cases hnext : nextRevision rt ctx reads.snapshot record accepted' revisionId with
        | error fault => simp [hnext, Except.map] at h
        | ok next' =>
          simp only [hnext, Except.map] at h
          cases h
          have bare := nextRevision_ok hnext
          obtain ⟨rfl, -⟩ := admitResponse_ok hadmit
          exact ⟨not_not.mp hnamed, ⟨record, authorized_ok hauthorized⟩, bare, rfl⟩

theorem prepare_replay {reads : Reads content} {principal : Principal} {taskId : UUID}
    {command : HumanResponse} {revisionId : String} {receipt : ResponseReceipt}
    (h : prepare rt ctx reads principal taskId command revisionId = .ok (.inl receipt)) :
    command.taskId = taskId ∧ (∃ record, Authorized reads principal taskId record) ∧
      ∃ stored, reads.receipt.receipts.get? (principal.actor.actorId, command.idempotencyKey.text) =
        some stored ∧ stored.payloadDigest = responseDigest content command ∧
          stored.receipt = receipt := by
  unfold prepare at h
  split_ifs at h with hnamed
  split at h
  · cases h
  · rename_i record hauthorized
    split at h
    · rename_i stored hstored
      split_ifs at h with hdigest
      cases h
      exact ⟨not_not.mp hnamed, ⟨record, authorized_ok hauthorized⟩, stored, hstored,
        not_not.mp hdigest, rfl⟩
    · split at h
      · cases h
      · rename_i accepted' hadmit
        cases hnext : nextRevision rt ctx reads.snapshot record accepted' revisionId with
        | error fault => simp [hnext, Except.map] at h
        | ok next' => simp [hnext, Except.map] at h

/-- The response that `respond` admits on behalf of its caller. -/
def answerOf (principal : Principal) (command : HumanResponse) : AcceptedResponse where
  command := command
  actor := principal.actor

section
variable (rt : Runtime) (ctx : DecimalContext) (policy : JobPolicy) (reads : Reads content)
variable (principal : Principal) (taskId : UUID) (command : HumanResponse) (revisionId : String)
variable (now : Int) (runId token : UUID)

/-- A response fails without a trace, finds an earlier receipt, or is one commit. -/
theorem respond_effect (chained : Chained s) :
    let outcome := respond rt ctx policy reads principal taskId command revisionId now runId token s
    (∃ fault, outcome = (.error fault, s)) ∨
      ∃ receipt, outcome.1 = .ok receipt ∧ command.taskId = taskId ∧
        (∃ record, Authorized reads principal taskId record) ∧
        ((outcome.2 = s ∧ ∃ stored,
            reads.receipt.receipts.get? (answerOf principal command).receiptKey = some stored ∧
              stored.payloadDigest = responseDigest content command ∧ stored.receipt = receipt) ∨
          ∃ next, (next = none ↔ command.action = .reject) ∧
            CommitEffect policy s (answerOf principal command) next
              (responseDigest content command) now runId token (.ok receipt) outcome.2) := by
  intro outcome
  simp only [outcome, respond]
  split
  · exact .inl ⟨_, rfl⟩
  · rename_i receipt hprepare
    obtain ⟨hnamed, hauthorized, hstored⟩ := prepare_replay hprepare
    exact .inr ⟨receipt, rfl, hnamed, hauthorized, .inl ⟨rfl, hstored⟩⟩
  · rename_i accepted next hprepare
    obtain ⟨hnamed, hauthorized, bare, rfl⟩ := prepare_ok hprepare
    have effect := commit_effect policy chained (answerOf principal command) next
      (responseDigest content command) now runId token
    cases hcommit : commitResponse policy (answerOf principal command) next
        (responseDigest content command) now runId token s with
    | mk reply s' =>
      rw [hcommit] at effect
      simp only [answerOf] at hcommit
      simp only [hcommit]
      cases reply with
      | ok receipt => exact .inr ⟨receipt, rfl, hnamed, hauthorized, .inr ⟨next, bare, effect⟩⟩
      | error fault =>
        obtain rfl : s' = s := by
          cases effect with
          | refused => rfl
          | torn entry known record jobs snapshot fault answers revises child rejecting =>
            -- A rejection brings no revision here.
            rw [bare.mpr rejecting] at revises
            cases revises
        left
        cases fault <;> exact ⟨_, rfl⟩

end

/-- Every read saw one of these states. -/
structure Reads.Within (reads : Reads content) (states : List (Store content)) : Prop where
  task : reads.task ∈ states
  job : reads.job ∈ states
  receipt : reads.receipt ∈ states
  snapshot : reads.snapshot ∈ states

/-- The states of one store under seeds, job operations and responses, newest
first. The reads of a response may lie anywhere before its write. -/
inductive History (sha256 : String → Digest) (rt : Runtime) (ctx : DecimalContext)
    (policy : JobPolicy) : List (Store content) → Prop where
  | start : History sha256 rt ctx policy [{}]
  | seed {s : Store content} {past : List (Store content)} (jobId : UUID) (principalId : String)
      (snapshot : RevisionSnapshot content) (tasks : List HumanTask)
      (before : History sha256 rt ctx policy (s :: past)) :
      History sha256 rt ctx policy ((seed jobId principalId snapshot tasks s).2 :: s :: past)
  | job {s : Store content} {past : List (Store content)} (op : MemoryJobStore.Op)
      (before : History sha256 rt ctx policy (s :: past)) :
      History sha256 rt ctx policy
        ({ s with jobs := (MemoryJobStore.step sha256 policy s.jobs op).2 } :: s :: past)
  | respond {s : Store content} {past : List (Store content)} (reads : Reads content)
      (principal : Principal) (taskId : UUID) (command : HumanResponse) (revisionId : String)
      (now : Int) (runId token : UUID) (before : History sha256 rt ctx policy (s :: past))
      (within : reads.Within (s :: past)) :
      History sha256 rt ctx policy
        ((respond rt ctx policy reads principal taskId command revisionId now runId token s).2 ::
          s :: past)

theorem respond_step (sha256 : String → Digest) (rt : Runtime) (ctx : DecimalContext)
    (policy : JobPolicy) (reads : Reads content) (principal : Principal) (taskId : UUID)
    (command : HumanResponse) (revisionId : String) (now : Int) (runId token : UUID)
    (s : Store content) :
    let s' := (respond rt ctx policy reads principal taskId command revisionId now runId token s).2
    s' = s ∨ ∃ call, s' = step sha256 policy s call := by
  intro s'
  simp only [s', respond]
  split
  · exact .inl rfl
  · exact .inl rfl
  · rename_i accepted next hprepare
    refine .inr ⟨.commit accepted next (responseDigest content command) now runId token, ?_⟩
    rw [step]
    split
    · rename_i hcommit
      rw [hcommit]
    · rfl

theorem History.step {P : Store content → Store content → Prop} (refl : ∀ s, P s s)
    (kept : ∀ s call, Chained s → P s (HumanTaskStore.step sha256 policy s call))
    {past : List (Store content)} (h : History sha256 rt ctx policy (s' :: s :: past))
    (chained : Chained s) : P s s' := by
  cases h with
  | seed jobId principalId snapshot tasks before => exact kept s (.seed ..) chained
  | job op before => exact kept s (.job op) chained
  | respond reads principal taskId command revisionId now runId token before within =>
    obtain same | ⟨call, hcall⟩ := respond_step sha256 rt ctx policy reads principal
      taskId command revisionId now runId token s
    · rw [same]
      exact refl s
    · rw [hcall]
      exact kept s call chained

theorem History.tail {past : List (Store content)}
    (h : History sha256 rt ctx policy (s' :: s :: past)) :
    History sha256 rt ctx policy (s :: past) := by
  cases h <;> assumption

theorem History.chained {past : List (Store content)}
    (h : History sha256 rt ctx policy (s :: past)) : ∀ x ∈ s :: past, Chained x := by
  induction past generalizing s with
  | nil =>
    cases h
    intro x hx
    obtain rfl := List.mem_singleton.mp hx
    exact chained_empty
  | cons old past ih =>
    have earlier := ih h.tail
    have last := earlier old List.mem_cons_self
    intro x hx
    obtain rfl | hx := List.mem_cons.mp hx
    · exact h.step (P := fun before after => Chained before → Chained after) (fun _ => id)
        (fun _ call chained _ => step_chained sha256 policy chained call) last last
    · exact earlier x hx

structure SameTask (entry entry' : Task) : Prop where
  jobId : entry'.jobId = entry.jobId
  caseId : entry'.caseId = entry.caseId
  principalId : entry'.principalId = entry.principalId

/-- Tasks and jobs stay with their owners, and receipts stay as they are. -/
structure Grows (s s' : Store content) : Prop where
  tasks : ∀ id entry, s.tasks.get? id = some entry →
    ∃ entry', s'.tasks.get? id = some entry' ∧ SameTask entry entry'
  receipts : ∀ key stored, s.receipts.get? key = some stored → s'.receipts.get? key = some stored
  jobs : ∀ j job, s.jobs.jobs.get? j = some job →
    ∃ job', s'.jobs.jobs.get? j = some job' ∧ SameJob job job'

theorem Grows.refl (s : Store content) : Grows s s where
  tasks _ entry h := ⟨entry, h, rfl, rfl, rfl⟩
  receipts _ _ h := h
  jobs _ job h := ⟨job, h, rfl, rfl⟩

theorem Grows.trans {s₁ s₂ s₃ : Store content} (h : Grows s₁ s₂) (h' : Grows s₂ s₃) :
    Grows s₁ s₃ where
  tasks id entry hentry := by
    obtain ⟨entry₂, hentry₂, same⟩ := h.tasks id entry hentry
    obtain ⟨entry₃, hentry₃, same'⟩ := h'.tasks id entry₂ hentry₂
    exact ⟨entry₃, hentry₃, same'.jobId.trans same.jobId, same'.caseId.trans same.caseId,
      same'.principalId.trans same.principalId⟩
  receipts key stored hstored := h'.receipts key stored (h.receipts key stored hstored)
  jobs j job hjob := by
    obtain ⟨job₂, hjob₂, same⟩ := h.jobs j job hjob
    obtain ⟨job₃, hjob₃, same'⟩ := h'.jobs j job₂ hjob₂
    exact ⟨job₃, hjob₃, same'.caseId.trans same.caseId,
      same'.principalId.trans same.principalId⟩

theorem job_grows (sha256 : String → Digest) (policy : JobPolicy) {jobs : MemoryJobStore.Store}
    (linked : Linked jobs) (op : MemoryJobStore.Op) {j : UUID} {job : MemoryJobStore.Job}
    (hjob : jobs.jobs.get? j = some job) :
    ∃ job', (MemoryJobStore.step sha256 policy jobs op).2.jobs.get? j = some job' ∧
      SameJob job job' := by
  obtain ⟨job', hjob', same, -⟩ := (MemoryJobStore.step_effect sha256 policy linked op).sameJob hjob
  exact ⟨job', hjob', same⟩

theorem jobs_grow {jobs jobs' : MemoryJobStore.Store} (linked : Linked jobs)
    (op : MemoryJobStore.Op) {reply : Except Fault MemoryJobStore.Reply}
    (h : MemoryJobStore.step (fun _ => MemoryJobStore.sampleDigest) policy jobs op =
      (reply, jobs')) (k : UUID) (job : MemoryJobStore.Job) (hjob : jobs.jobs.get? k = some job) :
    ∃ job', jobs'.jobs.get? k = some job' ∧ SameJob job job' := by
  have grows := job_grows (fun _ => MemoryJobStore.sampleDigest) policy linked op hjob
  rwa [h] at grows

theorem answered_grows {accepted : AcceptedResponse} {entry : Task} {known : JobMeta}
    (chained : Chained s) (answers : Answers s accepted entry known) (id : UUID) (old : Task)
    (hold : s.tasks.get? id = some old) :
    ∃ new, (s.answered entry).tasks.get? id = some new ∧ SameTask old new := by
  rw [get?_answered]
  split_ifs with hid
  · subst hid
    rw [chained.filed _ _ answers.task, answers.task] at hold
    cases hold
    exact ⟨_, rfl, rfl, rfl, rfl⟩
  · exact ⟨old, hold, rfl, rfl, rfl⟩

theorem receipt_grows {accepted : AcceptedResponse} {entry : Task} {known : JobMeta}
    (answers : Answers s accepted entry known) (filed : StoredReceipt) (key : String × String)
    (stored : StoredReceipt) (h : s.receipts.get? key = some stored) :
    (s.receipts.set accepted.receiptKey filed).get? key = some stored := by
  rw [Dict.get?_set_of_ne, h]
  rintro rfl
  exact absurd (answers.unused.symm.trans h) (Option.some_ne_none stored).symm

theorem CommitEffect.grows (chained : Chained s) {accepted : AcceptedResponse}
    {next : Option (RevisionSnapshot content)} {payloadDigest : Digest} {now : Int}
    {runId token : UUID} {reply : Except Fault ResponseReceipt}
    (h : CommitEffect policy s accepted next payloadDigest now runId token reply s') :
    Grows s s' := by
  cases h with
  | refused | replayed => exact .refl s
  | rejected entry known record jobs receipt answers bare accepts hreceipt =>
    have called := congrArg (MemoryJobStore.answer .record) accepts
    exact ⟨answered_grows chained answers, receipt_grows answers _,
      jobs_grow chained.linked (.rejectHumanTask ..) called⟩
  | resumed entry known record jobs receipt snapshot stale answers revises child accepting accepts
      hstale hreceipt =>
    subst hstale
    have called := congrArg (MemoryJobStore.answer .record) accepts
    refine ⟨fun id old hold => ?_, receipt_grows answers _,
      jobs_grow chained.linked (.resumeAfterHuman ..) called⟩
    obtain ⟨new, hnew, same⟩ := answered_grows chained answers id old hold
    change ∃ entry', (supersede (s.answered entry).tasks _).get? id = some entry' ∧ _
    rw [get?_supersede_stale (answered_filed chained.filed entry), hnew]
    refine ⟨_, rfl, ?_⟩
    dsimp only
    split_ifs <;> exact ⟨same.jobId, same.caseId, same.principalId⟩
  | torn entry known record jobs snapshot fault answers revises child rejecting accepts =>
    have called := congrArg (MemoryJobStore.answer .record) accepts
    exact ⟨(Grows.refl s).tasks, (Grows.refl s).receipts,
      jobs_grow chained.linked (.resumeAfterHuman ..) called⟩

theorem step_grows (sha256 : String → Digest) (policy : JobPolicy) (s : Store content)
    (call : Call content) (chained : Chained s) : Grows s (step sha256 policy s call) := by
  cases call with
  | seed jobId principalId snapshot tasks =>
    obtain hsame | seeded := seed_effect jobId principalId snapshot tasks s
    · rw [step, hsame]
      exact .refl s
    · refine ⟨fun id entry h => ⟨entry, seeded.kept id entry h, rfl, rfl, rfl⟩, ?_, ?_⟩
      · rw [step, seeded.receipts]
        exact fun _ _ h => h
      · rw [step, seeded.jobs]
        exact fun _ job h => ⟨job, h, rfl, rfl⟩
  | job op =>
    exact ⟨(Grows.refl s).tasks, (Grows.refl s).receipts,
      fun _ _ => job_grows sha256 policy chained.linked op⟩
  | commit accepted next payloadDigest now runId token =>
    exact (commit_effect policy chained accepted next payloadDigest now runId token).grows chained

theorem History.grows {past : List (Store content)}
    (h : History sha256 rt ctx policy (s :: past)) : ∀ x ∈ s :: past, Grows x s := by
  induction past generalizing s with
  | nil =>
    intro x hx
    obtain rfl := List.mem_singleton.mp hx
    exact .refl x
  | cons old past ih =>
    intro x hx
    obtain rfl | hx := List.mem_cons.mp hx
    · exact .refl x
    · exact (ih h.tail x hx).trans (h.step Grows.refl
        (fun s call chained => step_grows sha256 policy s call chained)
        (h.tail.chained old List.mem_cons_self))

theorem History.since {later past : List (Store content)}
    (h : History sha256 rt ctx policy (later ++ s :: past)) :
    ∀ x ∈ later ++ [s], Grows s x ∧ Chained x := by
  induction later with
  | nil =>
    intro x hx
    obtain rfl := List.mem_singleton.mp hx
    exact ⟨.refl x, h.chained x List.mem_cons_self⟩
  | cons newest later ih =>
    intro x hx
    obtain rfl | hx := List.mem_cons.mp hx
    · exact ⟨h.grows s (by simp), h.chained x List.mem_cons_self⟩
    · refine ih ?_ x hx
      cases later with
      | nil => exact h.tail
      | cons next later => exact h.tail

/-- The task is answered: its version is one higher, and its receipt is filed. -/
structure Answered (s s' : Store content) (principal : Principal) (command : HumanResponse)
    (receipt : ResponseReceipt) (entry : Task) : Prop where
  before : s.tasks.get? command.taskId = some entry
  wasOpen : entry.task.state = .open
  version : entry.task.version = command.expectedVersion
  after : ∃ entry', s'.tasks.get? command.taskId = some entry' ∧ entry'.task.state = .answered ∧
    entry'.task.version = entry.task.version + 1 ∧ entry'.jobId = entry.jobId
  unused : s.receipts.get? (principal.actor.actorId, command.idempotencyKey.text) = none
  receipts : s'.receipts = s.receipts.set (principal.actor.actorId, command.idempotencyKey.text)
    (filedReceipt (answerOf principal command) (responseDigest content command) receipt)
  consumed : receipt.taskId = command.taskId ∧ receipt.consumedVersion = entry.task.version ∧
    receipt.action = command.action

structure Refuses (s s' : Store content) (entry : Task) (receipt : ResponseReceipt) : Prop where
  tasks : ∀ id, id ≠ entry.task.taskId → s'.tasks.get? id = s.tasks.get? id
  jobMeta : s'.jobMeta = s.jobMeta
  chain : s'.chain = s.chain
  snapshots : s'.snapshots = s.snapshots
  job : ∃ job job', s.jobs.jobs.get? entry.jobId = some job ∧
    s'.jobs.jobs.get? entry.jobId = some job' ∧ entry.task.taskId ∈ job.openTaskIds ∧
      job'.openTaskIds = job.openTaskIds.filter (· ≠ entry.task.taskId) ∧
        job'.currentRunId = job.currentRunId
  others : ∀ j, j ≠ entry.jobId → s'.jobs.jobs.get? j = s.jobs.jobs.get? j
  outbox : s'.jobs.outbox = s.jobs.outbox
  bare : receipt.revision = none ∧ receipt.resumedRun = none ∧ receipt.supersededTaskIds = []

/-- One child of the old head becomes the head, no open question about the old
head is left, and the job is queued once for a new run of the new head. -/
structure Revises (s s' : Store content) (entry : Task) (receipt : ResponseReceipt)
    (runId : UUID) (known : JobMeta) (next : RevisionSnapshot content) : Prop where
  head : s.jobMeta.get? entry.jobId = some known
  child : next.revision.parent = some known.head
  jobMeta : s'.jobMeta =
    s.jobMeta.set entry.jobId { known with head := next.revision.reference }
  listed : ∀ j, listRevisions s' j =
    if j = entry.jobId then listRevisions s entry.jobId ++ [next.revision] else listRevisions s j
  snapshots : s'.snapshots = s.snapshots.set next.revision.reference.identity next
  tasks : ∀ id, id ≠ entry.task.taskId → s'.tasks.get? id = (s.tasks.get? id).map fun other =>
    if other.asksAbout entry.jobId known.head then other.restate .superseded else other
  superseded : ∀ id, id ∈ receipt.supersededTaskIds ↔ id ≠ entry.task.taskId ∧
    ∃ other, s.tasks.get? id = some other ∧ other.asksAbout entry.jobId known.head = true
  job : ∃ job job', s.jobs.jobs.get? entry.jobId = some job ∧ job.status = .waitingForHuman ∧
    s'.jobs.jobs.get? entry.jobId = some job' ∧ job'.status = .queued ∧
      job'.currentRunId = runId ∧ job'.openTaskIds = []
  others : ∀ j, j ≠ entry.jobId → s'.jobs.jobs.get? j = s.jobs.jobs.get? j
  newRun : s.jobs.runs.get? (entry.jobId, runId) = none
  runs : ∃ run, s'.jobs.runs = s.jobs.runs.set (entry.jobId, runId) run ∧
    run.revision = next.revision.reference
  outbox : ∃ seq round, s.jobs.outbox.get? (entry.jobId, seq) = none ∧
    s'.jobs.outbox = s.jobs.outbox.set (entry.jobId, seq) round ∧ round.runId = runId ∧
      round.dispatchState = .pending
  resumed : receipt.revision = some next.revision.reference ∧
    receipt.resumedRun = some { runId := runId, revision := next.revision.reference }

theorem mem_superseded (filed : Filed s.tasks) {entry : Task} {j : UUID}
    {head : RevisionReference} {id : UUID} :
    id ∈ ((s.answered entry).stale j head).map (fun other => other.task.taskId) ↔
      id ≠ entry.task.taskId ∧ ∃ other, s.tasks.get? id = some other ∧
        other.asksAbout j head = true := by
  constructor
  · intro h
    obtain ⟨other, hother, hid⟩ := List.mem_map.mp h
    obtain ⟨⟨key, hkey⟩, hasks⟩ := mem_stale.mp hother
    obtain rfl : key = id := (answered_filed filed entry _ _ hkey).symm.trans hid
    have hne : key ≠ entry.task.taskId := by
      rintro rfl
      exact answered_not_stale filed entry j head h
    rw [get?_answered, if_neg hne] at hkey
    exact ⟨hne, other, hkey, hasks⟩
  · rintro ⟨hne, other, hother, hasks⟩
    refine List.mem_map.mpr ⟨other, mem_stale.mpr ⟨⟨id, ?_⟩, hasks⟩, filed _ _ hother⟩
    rw [get?_answered, if_neg hne, hother]

theorem refuses_of_rejected (chained : Chained s) {accepted : AcceptedResponse} {entry : Task}
    {record : JobRecord} {jobs : MemoryJobStore.Store} {now : Int}
    {receipts : Dict (String × String) StoredReceipt}
    (accepts : MemoryJobStore.rejectHumanTask policy entry.jobId entry.task.run.runId
      entry.task.taskId now s.jobs = (.ok record, jobs)) :
    Refuses s { s.answered entry with jobs := jobs, receipts := receipts } entry
      (entry.receipt accepted record.status none []) := by
  have called := congrArg (MemoryJobStore.answer .record) accepts
  have effect : MemoryJobStore.Effect _ policy s.jobs _ (.ok (.record record)) jobs :=
    MemoryJobStore.effect_of_step chained.linked (.rejectHumanTask ..) called
  cases effect with
  | rejected _ _ _ _ _ _ job job' run status hjob touched hcurrent waiting member hstatus outbox =>
    refine ⟨fun id hid => ?_, rfl, rfl, rfl, ⟨job, job', touched.before, touched.stored, member,
      ?_, ?_⟩, fun k hk => ?_, outbox, rfl, rfl, rfl⟩
    · change (s.answered entry).tasks.get? id = _
      rw [get?_answered, if_neg hid]
    · rw [hjob]
    · rw [hjob]
    · change jobs.jobs.get? k = _
      rw [touched.jobs, if_neg hk]

theorem revises_of_resumed (chained : Chained s) {accepted : AcceptedResponse} {entry : Task}
    {known : JobMeta} (answers : Answers s accepted entry known) {record : JobRecord}
    {jobs : MemoryJobStore.Store} {now : Int} {runId token : UUID}
    {next : RevisionSnapshot content} {receipts : Dict (String × String) StoredReceipt}
    (child : next.revision.parent = some known.head)
    (accepts : MemoryJobStore.resumeAfterHuman policy entry.jobId (followUp next runId) now token
      s.jobs = (.ok record, jobs)) :
    Revises s
      { (s.answered entry).append entry known next
          ((s.answered entry).stale entry.jobId known.head) with
        jobs := jobs, receipts := receipts }
      entry (entry.receipt accepted record.status (some (followUp next runId))
        (((s.answered entry).stale entry.jobId known.head).map fun other => other.task.taskId))
      runId known next := by
  have called := congrArg (MemoryJobStore.answer .record) accepts
  have effect : MemoryJobStore.Effect _ policy s.jobs _ (.ok (.record record)) jobs :=
    MemoryJobStore.effect_of_step chained.linked (.resumeAfterHuman ..) called
  cases effect with
  | resumed _ _ _ _ _ _ job job' current before hcurrent waiting unused revised sameCase bare hjob
      hjobs hruns outbox =>
    have filed := answered_filed chained.filed entry
    refine {
      head := answers.job
      child := child
      jobMeta := rfl
      listed := listRevisions_set rfl
      snapshots := rfl
      tasks := fun id hid => ?_
      superseded := fun id => mem_superseded chained.filed
      job := ⟨job, job', before, waiting, ?_, ?_, ?_, ?_⟩
      others := fun k hk => ?_
      newRun := unused
      runs := ⟨_, hruns, rfl⟩
      outbox := ⟨job.outboxSeq + 1, _, ?_, outbox, rfl, rfl⟩
      resumed := ⟨rfl, rfl⟩ }
    · change (supersede (s.answered entry).tasks _).get? id = _
      rw [get?_supersede_stale filed, get?_answered, if_neg hid]
    · change jobs.jobs.get? _ = _
      rw [hjobs, if_pos rfl]
    · rw [hjob]
    · rw [hjob]
      rfl
    · rw [hjob]
    · change jobs.jobs.get? k = _
      rw [hjobs, if_neg hk]
    · cases hround : s.jobs.outbox.get? (entry.jobId, job.outboxSeq + 1) with
      | none => rfl
      | some round =>
        obtain ⟨-, -, -, stored, hstored, hle⟩ := (chained.linked entry.jobId).round _ _ hround
        obtain rfl := Option.some.inj (before.symm.trans hstored)
        omega

theorem answered_of {accepted : AcceptedResponse} {principal : Principal}
    {command : HumanResponse} {entry : Task} {known : JobMeta} {receipt : ResponseReceipt}
    (chained : Chained s) (haccepted : accepted = answerOf principal command)
    (answers : Answers s accepted entry known)
    (after : ∃ entry', s'.tasks.get? entry.task.taskId = some entry' ∧
      entry' = entry.restate .answered)
    (receipts : s'.receipts = s.receipts.set accepted.receiptKey
      (filedReceipt accepted (responseDigest content command) receipt))
    (consumed : receipt.taskId = entry.task.taskId ∧
      receipt.consumedVersion = accepted.command.expectedVersion ∧
        receipt.action = accepted.command.action) :
    Answered s s' principal command receipt entry := by
  subst haccepted
  have hid : entry.task.taskId = command.taskId := chained.filed _ _ answers.task
  obtain ⟨entry', hentry', rfl⟩ := after
  obtain ⟨htask, hversion, haction⟩ := consumed
  rw [hid] at hentry' htask
  exact {
    before := answers.task
    wasOpen := answers.isOpen
    version := answers.version
    after := ⟨_, hentry', rfl, rfl, rfl⟩
    unused := answers.unused
    receipts := receipts
    consumed := ⟨htask, hversion.trans answers.version.symm, haction⟩ }

theorem CommitEffect.stored {accepted : AcceptedResponse}
    {next : Option (RevisionSnapshot content)} {payloadDigest : Digest} {now : Int}
    {runId token : UUID} {receipt : ResponseReceipt}
    (h : CommitEffect policy s accepted next payloadDigest now runId token (.ok receipt) s') :
    ∃ stored, s'.receipts.get? accepted.receiptKey = some stored ∧
      stored.payloadDigest = payloadDigest ∧ stored.receipt = receipt := by
  cases h with
  | replayed stored known same => exact ⟨stored, known, same, rfl⟩
  | rejected | resumed => exact ⟨filedReceipt accepted payloadDigest receipt,
      Dict.get?_set_self .., rfl, rfl⟩

theorem CommitEffect.found {accepted : AcceptedResponse}
    {next : Option (RevisionSnapshot content)} {payloadDigest : Digest} {now : Int}
    {runId token : UUID} {receipt : ResponseReceipt} {old : StoredReceipt}
    (h : CommitEffect policy s accepted next payloadDigest now runId token (.ok receipt) s')
    (hold : s.receipts.get? accepted.receiptKey = some old) :
    s' = s ∧ old.receipt = receipt := by
  cases h with
  | replayed stored known same =>
    obtain rfl := Option.some.inj (hold.symm.trans known)
    exact ⟨rfl, rfl⟩
  | rejected entry known record jobs receipt answers
  | resumed entry known record jobs receipt snapshot stale answers =>
    exact absurd (answers.unused.symm.trans hold) (Option.some_ne_none old).symm

theorem CommitEffect.committed (chained : Chained s) {principal : Principal}
    {command : HumanResponse} {next : Option (RevisionSnapshot content)} {now : Int}
    {runId token : UUID} {receipt : ResponseReceipt} (bare : next = none ↔ command.action = .reject)
    (unused : s.receipts.get? (answerOf principal command).receiptKey = none)
    (h : CommitEffect policy s (answerOf principal command) next (responseDigest content command)
      now runId token (.ok receipt) s') :
    ∃ entry, Answered s s' principal command receipt entry ∧
      (command.action = .reject → Refuses s s' entry receipt) ∧
      (command.action ≠ .reject → ∃ known next, Revises s s' entry receipt runId known next) := by
  cases h with
  | replayed stored known => exact absurd (known.symm.trans unused) (Option.some_ne_none stored)
  | rejected entry known record jobs receipt answers hnext accepts hreceipt =>
    subst hreceipt
    refine ⟨entry, answered_of chained rfl answers ⟨_, Dict.get?_set_self .., rfl⟩ rfl
      ⟨rfl, rfl, rfl⟩, fun _ => refuses_of_rejected chained accepts, fun accepting => ?_⟩
    exact absurd (bare.mp hnext) accepting
  | resumed entry known record jobs receipt snapshot stale answers revises child accepting accepts
      hstale hreceipt =>
    subst hstale hreceipt
    refine ⟨entry, answered_of chained rfl answers ⟨entry.restate .answered, ?_, rfl⟩ rfl
      ⟨rfl, rfl, rfl⟩, fun rejecting => absurd rejecting accepting,
      fun _ => ⟨known, snapshot, revises_of_resumed chained answers child accepts⟩⟩
    change (supersede (s.answered entry).tasks _).get? entry.task.taskId = _
    rw [get?_supersede_stale (answered_filed chained.filed entry), get?_answered, if_pos rfl,
      Option.map_some, restate_answered]
    rfl

theorem record_owner {jobs : MemoryJobStore.Store} {job : MemoryJobStore.Job}
    {record : JobRecord} (h : jobs.record job = .ok record) :
    record.principalId = job.principalId ∧ record.caseId = job.caseId := by
  unfold MemoryJobStore.Store.record at h
  split at h
  · cases h
  · cases h
    exact ⟨rfl, rfl⟩

theorem authorizedRecord_again {jobs jobs' : MemoryJobStore.Store} (linked : Linked jobs')
    (kept : ∀ j job, jobs.jobs.get? j = some job → ∃ job', jobs'.jobs.get? j = some job' ∧
      SameJob job job') {principal : Principal} {j : UUID} {record : JobRecord}
    (h : MemoryJobStore.authorizedRecord jobs principal j = .ok record) :
    ∃ record', MemoryJobStore.authorizedRecord jobs' principal j = .ok record' := by
  simp only [MemoryJobStore.authorizedRecord, MemoryJobStore.readJob] at h ⊢
  cases hjob : jobs.jobs.get? j with
  | none => simp [hjob] at h
  | some job =>
    obtain ⟨job', hjob', same⟩ := kept j job hjob
    obtain ⟨record', hrecord'⟩ := linked.record_ok hjob'
    simp only [hjob', hrecord', Except.map]
    cases hrecord : jobs.record job with
    | error fault => simp [hjob, hrecord, Except.map] at h
    | ok old =>
      simp only [hjob, hrecord, Except.map] at h
      obtain ⟨hprincipal, hcase⟩ := record_owner hrecord
      obtain ⟨hprincipal', hcase'⟩ := record_owner hrecord'
      rw [hprincipal', hcase', same.principalId, same.caseId, ← hprincipal, ← hcase]
      split_ifs at h with hseen
      rw [if_neg hseen]
      cases hrequire : principal.require old.caseId .review with
      | error fault => simp [hrequire] at h
      | ok granted => exact ⟨record', rfl⟩

theorem Authorized.again {reads reads' : Reads content} {principal : Principal} {taskId : UUID}
    {record : TaskRecord} (h : Authorized reads principal taskId record)
    (task : Grows reads.task reads'.task) (job : Grows reads.job reads'.job)
    (taskChained : Chained reads'.task) (jobChained : Chained reads'.job) :
    ∃ record', authorized reads' principal taskId = .ok record' := by
  obtain ⟨⟨entry, hentry, hjobId, hcase, hprincipal⟩, seen, old, hold⟩ := h
  obtain ⟨entry', hentry', same⟩ := task.tasks taskId entry hentry
  obtain ⟨known, hknown, -⟩ := (taskChained.tasks taskId entry' hentry').job
  obtain ⟨record', hrecord'⟩ := authorizedRecord_again jobChained.linked job.jobs hold
  have seen' : visible principal {
      task := entry'.task, jobId := entry'.jobId, caseId := entry'.caseId
      principalId := entry'.principalId, currentRevision := known.head } = true := by
    simpa only [visible, same.caseId, same.principalId, ← hcase, ← hprincipal] using seen
  rw [hjobId, ← same.jobId] at hrecord'
  unfold authorized readTask authorizedJob
  simp only [hentry', hknown, seen', not_true_eq_false, if_false, hrecord', Except.ok.injEq,
    exists_eq']

theorem prepare_again {reads reads' : Reads content} {principal : Principal}
    {taskId : UUID} {command : HumanResponse} {record : TaskRecord} {stored : StoredReceipt}
    (hnamed : command.taskId = taskId) (h : Authorized reads principal taskId record)
    (task : Grows reads.task reads'.task) (job : Grows reads.job reads'.job)
    (taskChained : Chained reads'.task) (jobChained : Chained reads'.job)
    (hstored : reads'.receipt.receipts.get? (answerOf principal command).receiptKey = some stored)
    (hdigest : stored.payloadDigest = responseDigest content command) (revisionId : String) :
    prepare rt ctx reads' principal taskId command revisionId = .ok (.inl stored.receipt) := by
  obtain ⟨record', hrecord'⟩ := h.again task job taskChained jobChained
  have hread : readReceipt reads'.receipt principal.actor.actorId command.idempotencyKey.text =
    some stored := hstored
  simp only [prepare, hnamed, ne_eq, not_true_eq_false, if_false, hrecord', hread, hdigest]

theorem respond_again {past : List (Store content)} {reads : Reads content}
    {principal : Principal} {taskId : UUID} {command : HumanResponse} {record : TaskRecord}
    {stored : StoredReceipt} (hnamed : command.taskId = taskId)
    (h : Authorized reads principal taskId record) (within : reads.Within (s :: past))
    (grown : ∀ x ∈ s :: past, Grows x s')
    (hstored : s'.receipts.get? (answerOf principal command).receiptKey = some stored)
    (hdigest : stored.payloadDigest = responseDigest content command) {later : List (Store content)}
    (history : History sha256 rt ctx policy (later ++ s' :: s :: past)) {reads' : Reads content}
    (within' : reads'.Within (later ++ [s'])) (now : Store content) (revisionId : String)
    (time : Int) (run token : UUID) :
    respond rt ctx policy reads' principal taskId command revisionId time run token now =
      (.ok stored.receipt, now) := by
  obtain ⟨task, taskChained⟩ := history.since _ within'.task
  obtain ⟨job, jobChained⟩ := history.since _ within'.job
  obtain ⟨receipt, -⟩ := history.since _ within'.receipt
  have found : prepare rt ctx reads' principal taskId command revisionId =
      .ok (.inl stored.receipt) :=
    prepare_again hnamed h ((grown _ within.task).trans task) ((grown _ within.job).trans job)
      taskChained jobChained (receipt.receipts _ _ hstored) hdigest revisionId
  simp only [respond, found]

/-- A response changes nothing, or it commits one answer that every repetition finds. -/
structure WholeOrNothing (sha256 : String → Digest) (rt : Runtime) (ctx : DecimalContext)
    (policy : JobPolicy) (principal : Principal) (taskId : UUID) (command : HumanResponse)
    (runId : UUID) (s : Store content) (past : List (Store content))
    (outcome : Outcome content ResponseReceipt) : Prop where
  raised : ∀ fault, outcome.1 = .error fault → outcome.2 = s
  earlier : ∀ receipt stored, outcome.1 = .ok receipt →
    s.receipts.get? (principal.actor.actorId, command.idempotencyKey.text) = some stored →
      outcome.2 = s ∧ stored.receipt = receipt
  committed : ∀ receipt, outcome.1 = .ok receipt →
    s.receipts.get? (principal.actor.actorId, command.idempotencyKey.text) = none →
      ∃ entry, Answered s outcome.2 principal command receipt entry ∧
        (command.action = .reject → Refuses s outcome.2 entry receipt) ∧
        (command.action ≠ .reject →
          ∃ known next, Revises s outcome.2 entry receipt runId known next)
  repeated : ∀ receipt, outcome.1 = .ok receipt →
    ∀ later, History sha256 rt ctx policy (later ++ outcome.2 :: s :: past) →
      ∀ reads : Reads content, reads.Within (later ++ [outcome.2]) →
        ∀ now revisionId time run token,
          respond rt ctx policy reads principal taskId command revisionId time run token now =
            (.ok receipt, now)

theorem respond_raised {past : List (Store content)}
    (history : History sha256 rt ctx policy (s :: past)) (reads : Reads content)
    (principal : Principal) (taskId : UUID) (command : HumanResponse) (revisionId : String)
    (now : Int) (runId token : UUID) {fault : Fault}
    (h : (respond rt ctx policy reads principal taskId command revisionId now runId token s).1 =
      .error fault) :
    (respond rt ctx policy reads principal taskId command revisionId now runId token s).2 = s := by
  have effect := respond_effect rt ctx policy reads principal taskId command revisionId now runId
    token (history.chained s List.mem_cons_self)
  generalize respond rt ctx policy reads principal taskId command revisionId now runId token s =
    outcome at effect h
  obtain ⟨_, rfl⟩ | ⟨receipt, hreceipt, -⟩ := effect
  · rfl
  · cases hreceipt.symm.trans h

/-- Whatever a response read of the past, it commits its whole effect or nothing. -/
theorem respond_whole_or_nothing {past : List (Store content)}
    (history : History sha256 rt ctx policy (s :: past)) (reads : Reads content)
    (within : reads.Within (s :: past)) (principal : Principal) (taskId : UUID)
    (command : HumanResponse) (revisionId : String) (now : Int) (runId token : UUID) :
    WholeOrNothing sha256 rt ctx policy principal taskId command runId s past
      (respond rt ctx policy reads principal taskId command revisionId now runId token s) := by
  have chained := history.chained s List.mem_cons_self
  have grown := history.grows
  have effect := respond_effect rt ctx policy reads principal taskId command revisionId now runId
    token chained
  generalize respond rt ctx policy reads principal taskId command revisionId now runId token s =
    outcome at effect
  obtain ⟨fault, rfl⟩ | ⟨receipt, hreceipt, hnamed, ⟨record, authorized⟩, effect⟩ := effect
  · exact ⟨fun _ _ => rfl, by simp, by simp, by simp⟩
  obtain ⟨hsame, stored, hstored, hdigest, rfl⟩ | ⟨next, bare, effect⟩ := effect
  · -- An earlier receipt was found before admission.
    have kept := (grown _ within.receipt).receipts _ _ hstored
    refine ⟨fun _ _ => hsame, fun receipt' stored' hreceipt' hstored' => ⟨hsame, ?_⟩,
      fun receipt' hreceipt' hunused => ?_, fun receipt' hreceipt' later => ?_⟩
    · obtain rfl := Option.some.inj (kept.symm.trans hstored')
      exact Except.ok.inj (hreceipt.symm.trans hreceipt')
    · exact absurd (kept.symm.trans hunused) (Option.some_ne_none stored)
    · obtain rfl := Except.ok.inj (hreceipt.symm.trans hreceipt')
      rw [hsame]
      exact fun history' reads' within' => respond_again hnamed authorized within grown kept hdigest
        history' within'
  · have grows := effect.grows chained
    obtain ⟨stored, hstored, hdigest, hsame⟩ := effect.stored
    refine ⟨fun fault hfault => ?_, fun receipt' old hreceipt' hold => ?_,
      fun receipt' hreceipt' unused => ?_, fun receipt' hreceipt' later history' reads' within' =>
        ?_⟩
    · exact absurd (hreceipt.symm.trans hfault) (by simp)
    · obtain rfl := Except.ok.inj (hreceipt.symm.trans hreceipt')
      exact effect.found hold
    · obtain rfl := Except.ok.inj (hreceipt.symm.trans hreceipt')
      exact effect.committed chained bare unused
    · obtain rfl := Except.ok.inj (hreceipt.symm.trans hreceipt')
      rw [← hsame]
      exact respond_again hnamed authorized within (fun x hx => (grown x hx).trans grows) hstored
        hdigest history' within'

def sampleAnswerer : Principal :=
  { MemoryJobStore.samplePrincipal with permissions := [.review, .confirm] }

def certainMaterial : ReviewMaterial where
  policy := { samplePolicy with identity := { sampleIdentity with caseId := "case-1" } }
  facts := { sampleFacts with
    identity := { sampleIdentity with caseId := "case-1" }, pairs := [samplePair] }

def versionDigest : ContentDigest where
  material material := if material.policy.identity.version = "1" then MemoryJobStore.sampleDigest
    else MemoryJobStore.otherDigest
  rules _ := MemoryJobStore.sampleDigest
  response _ := MemoryJobStore.sampleDigest

def certainSnapshot : RevisionSnapshot versionDigest where
  material := certainMaterial
  revision := sampleBase (MemoryJobStore.sampleRevision 0) sampleRevision_case
  pinned := by decide

def sampleSide (inputDigest : Digest) : FactSideReference where
  context := sampleContext
  factorId := "factor"
  side := .target
  inputDigest := inputDigest
  named := by decide

def factTask (inputDigest : Digest) : HumanTask where
  taskId := ⟨40⟩
  run := { runId := ⟨2⟩, revision := MemoryJobStore.sampleRevision 0 }
  version := 1
  kind := .fact
  requiredPermission := .confirm
  side := some (sampleSide inputDigest)
  question := "Confirm the factor"
  findingIds := ["finding-1"]
  allowedResponses := [.confirm, .reject]
  positive := numbered_from_one
  permitted := rfl
  purposeful := confirming_purposeful
  publication := confirming_unpublished
  exactSide := fun _ => rfl
  asked := by decide
  distinct := confirming_distinct

def confirmCommand (inputDigest : Digest) : HumanResponse where
  taskId := ⟨40⟩
  expectedVersion := 1
  revision := MemoryJobStore.sampleRevision 0
  sideDigest := some inputDigest
  idempotencyKey := ⟨"answer-1", sampleKey_text⟩
  action := .confirm
  positive := numbered_from_one
  payload := by decide
  unasserted := unasserted_none

def sideDigest : Digest := ⟨sampleHash, by decide⟩

def bothAsked : Store versionDigest :=
  run (fun _ => MemoryJobStore.sampleDigest) .standard {} [.job MemoryJobStore.sampleCreate,
    .job MemoryJobStore.sampleClaim,
    .job (.finish MemoryJobStore.sampleAttempt .needsHuman 30 none [⟨40⟩, ⟨41⟩] none),
    .seed ⟨1⟩ "reviewer" certainSnapshot
      [factTask sideDigest, { factTask sideDigest with taskId := ⟨41⟩ }]]

def answerBoth (command : HumanResponse) : Outcome versionDigest ResponseReceipt :=
  respond sampleRuntime .default .standard ⟨bothAsked, bothAsked, bothAsked, bothAsked⟩
    sampleAnswerer ⟨40⟩ command "revision-2" 40 ⟨5⟩ ⟨11⟩ bothAsked

def refuseCommand : HumanResponse where
  taskId := ⟨40⟩
  expectedVersion := 1
  revision := MemoryJobStore.sampleRevision 0
  sideDigest := some sideDigest
  idempotencyKey := ⟨"answer-1", sampleKey_text⟩
  action := .reject
  positive := numbered_from_one
  payload := by decide
  unasserted := unasserted_none

def superseded (outcome : Outcome versionDigest ResponseReceipt) : Option (List UUID) :=
  outcome.1.toOption.map ResponseReceipt.supersededTaskIds

theorem answerBoth_supersedes : superseded (answerBoth (confirmCommand sideDigest)) =
    some [⟨41⟩] := by
  decide +kernel

theorem answerBoth_refuses : superseded (answerBoth refuseCommand) = some [] := by
  decide +kernel

/-- An answer that supersedes the other question, and a refusal that leaves it open. -/
theorem respond_whole_or_nothing_sample : ∃ past,
    WholeOrNothing (fun _ => MemoryJobStore.sampleDigest) sampleRuntime .default {} sampleAnswerer
      ⟨40⟩ (confirmCommand sideDigest) ⟨5⟩ bothAsked past
        (answerBoth (confirmCommand sideDigest)) ∧
      WholeOrNothing (fun _ => MemoryJobStore.sampleDigest) sampleRuntime .default {}
        sampleAnswerer ⟨40⟩ refuseCommand ⟨5⟩ bothAsked past (answerBoth refuseCommand) ∧
      superseded (answerBoth (confirmCommand sideDigest)) = some [⟨41⟩] ∧
      superseded (answerBoth refuseCommand) = some [] := by
  have history : History (fun _ => MemoryJobStore.sampleDigest) sampleRuntime .default {}
      (bothAsked :: _) := .seed ⟨1⟩ "reviewer" certainSnapshot
    [factTask sideDigest, { factTask sideDigest with taskId := ⟨41⟩ }]
    (.job (.finish MemoryJobStore.sampleAttempt .needsHuman 30 none [⟨40⟩, ⟨41⟩] none)
      (.job MemoryJobStore.sampleClaim (.job MemoryJobStore.sampleCreate .start)))
  have answered := respond_whole_or_nothing history
    ⟨bothAsked, bothAsked, bothAsked, bothAsked⟩ (by constructor <;> simp) sampleAnswerer ⟨40⟩
    (confirmCommand sideDigest) "revision-2" 40 ⟨5⟩ ⟨11⟩
  have refused := respond_whole_or_nothing history
    ⟨bothAsked, bothAsked, bothAsked, bothAsked⟩ (by constructor <;> simp) sampleAnswerer ⟨40⟩
    refuseCommand "revision-2" 40 ⟨5⟩ ⟨11⟩
  exact ⟨_, answered, refused, answerBoth_supersedes, answerBoth_refuses⟩

end AppraisalReview.HumanTaskStore
