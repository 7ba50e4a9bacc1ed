import AppraisalReview.TaskTables

set_option autoImplicit false

/-!
# The revisions of a job form one chain

Each job's revisions are parent-linked and end in its head, and its open
questions are about the head. Seeding, answering and failing in any order keep
this; a stored revision stays only while its identity is not used again.
-/
namespace AppraisalReview.HumanTaskStore
open MemoryJobStore (Linked workingRevision)
variable {content : ContentDigest} {sha256 : String → Digest} {policy : JobPolicy}
variable {s : Store content}

structure Seeds (s : Store content) (jobId : UUID) (principalId : String)
    (snapshot : RevisionSnapshot content) (tasks : List HumanTask) : Prop where
  head : ∀ known, s.jobMeta.get? jobId = some known → known =
    { caseId := snapshot.revision.reference.caseId, principalId := principalId
      head := snapshot.revision.reference }
  identity : ∀ old, s.snapshots.get? snapshot.revision.reference.identity = some old →
    old.revision = snapshot.revision
  about : ∀ task ∈ tasks, task.run.revision = snapshot.revision.reference

theorem seedAdmission_ok {jobId : UUID} {principalId : String}
    {snapshot : RevisionSnapshot content} {tasks : List HumanTask}
    (h : seedAdmission s jobId principalId snapshot tasks = .ok ()) :
    Seeds s jobId principalId snapshot tasks := by
  simp only [seedAdmission] at h
  split_ifs at h with hhead hidentity hdistinct htasks
  constructor
  · intro known hknown
    simp only [hknown, Option.any_some, decide_eq_true_eq] at hhead
    push Not at hhead
    obtain ⟨hrevision, hprincipal, hcase⟩ := hhead
    cases known
    simp only [JobMeta.mk.injEq]
    exact ⟨hcase, hprincipal, hrevision⟩
  · intro old hold
    simpa [hold] using hidentity
  · intro task htask
    simp only [List.any_eq_true, decide_eq_true_eq, not_exists, not_and, not_or] at htasks
    exact not_not.mp (htasks task htask).1

/-- The tables `seed` leaves behind. -/
structure Seeded (s s' : Store content) (jobId : UUID) (principalId : String)
    (snapshot : RevisionSnapshot content) (tasks : List HumanTask) : Prop where
  seeds : Seeds s jobId principalId snapshot tasks
  jobs : s'.jobs = s.jobs
  jobMeta : s'.jobMeta = s.jobMeta.set jobId
    { caseId := snapshot.revision.reference.caseId, principalId := principalId
      head := snapshot.revision.reference }
  chain : s'.chain = if (s.jobMeta.get? jobId).isSome then s.chain
    else s.chain.set jobId [snapshot.revision]
  snapshots : s'.snapshots = s.snapshots.set snapshot.revision.reference.identity snapshot
  receipts : s'.receipts = s.receipts
  kept : ∀ id entry, s.tasks.get? id = some entry → s'.tasks.get? id = some entry
  tasks : ∀ id entry, s'.tasks.get? id = some entry → s.tasks.get? id = some entry ∨
    (entry.task ∈ tasks ∧ entry.task.taskId = id ∧ entry.jobId = jobId ∧
      entry.caseId = snapshot.revision.reference.caseId ∧ entry.principalId = principalId)

theorem seed_effect (jobId : UUID) (principalId : String) (snapshot : RevisionSnapshot content)
    (tasks : List HumanTask) (s : Store content) :
    (seed jobId principalId snapshot tasks s).2 = s ∨
      Seeded s (seed jobId principalId snapshot tasks s).2 jobId principalId snapshot tasks := by
  unfold seed
  split
  · exact Or.inl rfl
  · rename_i hadmit
    right
    simp only
    generalize hseeded : ({ s with
      jobMeta := s.jobMeta.set jobId {
        caseId := snapshot.revision.reference.caseId, principalId := principalId
        head := snapshot.revision.reference }
      chain := if (s.jobMeta.get? jobId).isSome then s.chain
        else s.chain.set jobId [snapshot.revision]
      snapshots := s.snapshots.set snapshot.revision.reference.identity snapshot } :
        Store content) = seeded
    obtain ⟨hjobs, hmeta, hchain, hsnapshots, hreceipts⟩ := register_frame jobId
      snapshot.revision.reference.caseId principalId tasks seeded
    have htasks : seeded.tasks = s.tasks := by rw [← hseeded]
    constructor
    · exact seedAdmission_ok hadmit
    · rw [hjobs, ← hseeded]
    · rw [hmeta, ← hseeded]
    · rw [hchain, ← hseeded]
    · rw [hsnapshots, ← hseeded]
    · rw [hreceipts, ← hseeded]
    · intro id
      rw [← htasks]
      exact (register_tasks jobId _ principalId tasks seeded id).1
    · intro id
      rw [← htasks]
      exact (register_tasks jobId _ principalId tasks seeded id).2

theorem Seeded.known {s' : Store content} {jobId : UUID} {principalId : String}
    {snapshot : RevisionSnapshot content} {tasks : List HumanTask}
    (seeded : Seeded s s' jobId principalId snapshot tasks) {k : UUID} {known : JobMeta}
    (h : s.jobMeta.get? k = some known) : s'.jobMeta.get? k = some known := by
  rw [seeded.jobMeta, Dict.get?_set]
  split_ifs with hk
  · subst hk
    rw [seeded.seeds.head known h]
  · exact h

theorem Headed.of_same {s' : Store content} {k : UUID} {known : JobMeta}
    (headed : Headed s k known) (chain : s'.chain.get? k = s.chain.get? k) : Headed s' k known :=
  ⟨by rw [chain]; exact headed.chain⟩

theorem Seeded.chained {s' : Store content} {jobId : UUID} {principalId : String}
    {snapshot : RevisionSnapshot content} {tasks : List HumanTask} (chained : Chained s)
    (seeded : Seeded s s' jobId principalId snapshot tasks) : Chained s' where
  linked := by rw [seeded.jobs]; exact chained.linked
  filed := by
    intro id entry h
    obtain hold | ⟨-, hid, -⟩ := seeded.tasks id entry h
    · exact chained.filed id entry hold
    · exact hid
  tasks := by
    intro id entry h
    obtain hold | ⟨hmem, -, rfl, hcase, hprincipal⟩ := seeded.tasks id entry h
    · obtain ⟨known, hknown, rest⟩ := (chained.tasks id entry hold).job
      exact ⟨known, seeded.known hknown, rest⟩
    · have hknown : s'.jobMeta.get? entry.jobId = some {
          caseId := snapshot.revision.reference.caseId, principalId := principalId
          head := snapshot.revision.reference } := by
        rw [seeded.jobMeta, Dict.get?_set_self]
      exact ⟨_, hknown, hcase, hprincipal, fun _ => seeded.seeds.about _ hmem⟩
  heads := by
    intro k known hk
    rw [seeded.jobMeta, Dict.get?_set] at hk
    split_ifs at hk with hkj
    · subst hkj
      obtain rfl := Option.some.inj hk
      cases hold : s.jobMeta.get? k with
      | some old =>
        obtain rfl := seeded.seeds.head old hold
        exact (chained.heads k _ hold).of_same (by rw [seeded.chain, hold]; rfl)
      | none =>
        refine ⟨[], snapshot.revision, ?_, rfl, List.isChain_singleton _, by simp⟩
        rw [seeded.chain, hold]
        exact Dict.get?_set_self ..
    · refine (chained.heads k known hk).of_same ?_
      rw [seeded.chain]
      split_ifs
      · rfl
      · exact Dict.get?_set_of_ne _ _ hkj
  noChain := by
    intro k h
    rw [seeded.jobMeta, Dict.get?_set] at h
    split_ifs at h with hkj
    rw [seeded.chain]
    split_ifs
    · exact chained.noChain h
    · rw [Dict.get?_set_of_ne _ _ hkj]
      exact chained.noChain h
  receipts := by
    intro key stored h
    rw [seeded.receipts] at h
    obtain ⟨entry, hentry, rest⟩ := (chained.receipts key stored h).task
    exact ⟨entry, seeded.kept _ _ hentry, rest⟩
  distinct := by
    rw [seeded.receipts]
    exact chained.distinct

theorem get?_answered (entry : Task) (id : UUID) : (s.answered entry).tasks.get? id =
    if id = entry.task.taskId then some (entry.restate .answered) else s.tasks.get? id :=
  Dict.get?_set ..

theorem restate_answered (entry : Task) (j : UUID) (head : RevisionReference) :
    (entry.restate .answered).asksAbout j head = false := by
  simp [Task.asksAbout, Task.restate, HumanTask.restate]

theorem TaskFiled.of_same {s' : Store content} {entry : Task} (filed : TaskFiled s entry)
    (jobMeta : s'.jobMeta.get? entry.jobId = s.jobMeta.get? entry.jobId) : TaskFiled s' entry :=
  ⟨by rw [jobMeta]; exact filed.job⟩

theorem TaskFiled.closed {s' : Store content} {entry : Task} {state : TaskState}
    (filed : TaskFiled s entry) (hstate : state ≠ .open)
    (jobMeta : ∀ known, s.jobMeta.get? entry.jobId = some known → ∃ known',
      s'.jobMeta.get? entry.jobId = some known' ∧ known'.caseId = known.caseId ∧
        known'.principalId = known.principalId) : TaskFiled s' (entry.restate state) := by
  obtain ⟨known, hknown, hcase, hprincipal, -⟩ := filed.job
  obtain ⟨known', hknown', hcase', hprincipal'⟩ := jobMeta known hknown
  exact ⟨known', hknown', hcase.trans hcase'.symm, hprincipal.trans hprincipal'.symm,
    fun h => absurd h hstate⟩

theorem Chained.new_receipt (chained : Chained s) {accepted : AcceptedResponse} {entry : Task}
    {known : JobMeta} (answers : Answers s accepted entry known) {receipt : ResponseReceipt}
    (htask : receipt.taskId = entry.task.taskId) {key : String × String}
    {other : StoredReceipt} (hother : s.receipts.get? key = some other) :
    other.receipt.taskId ≠ receipt.taskId := by
  intro hsame
  obtain ⟨answered, hanswered, hstate, -⟩ := (chained.receipts key other hother).task
  have hid := chained.filed _ _ answers.task
  rw [hsame, htask, hid, answers.task] at hanswered
  cases hanswered
  rw [answers.isOpen] at hstate
  cases hstate

theorem Chained.answer_receipts (chained : Chained s) {s' : Store content}
    {accepted : AcceptedResponse} {entry : Task} {known : JobMeta}
    (answers : Answers s accepted entry known) {payloadDigest : Digest}
    {receipt : ResponseReceipt} (htask : receipt.taskId = entry.task.taskId)
    (hversion : receipt.consumedVersion = entry.task.version)
    (receipts : s'.receipts = s.receipts.set accepted.receiptKey
      (filedReceipt accepted payloadDigest receipt))
    (tasks : ∀ id e, (s.answered entry).tasks.get? id = some e → e.task.state = .answered →
      s'.tasks.get? id = some e) :
    (∀ key stored, s'.receipts.get? key = some stored → ReceiptFiled s' stored) ∧
    ∀ key key' stored stored', s'.receipts.get? key = some stored →
      s'.receipts.get? key' = some stored' → stored.receipt.taskId = stored'.receipt.taskId →
        key = key' := by
  have fresh : ∀ key other, s.receipts.get? key = some other →
      other.receipt.taskId ≠ receipt.taskId := fun key other hother =>
    chained.new_receipt answers htask hother
  rw [receipts]
  constructor
  · intro key stored h
    rw [Dict.get?_set] at h
    split_ifs at h with hkey
    · cases h
      have hanswered : (s.answered entry).tasks.get? receipt.taskId =
          some (entry.restate .answered) := by rw [get?_answered, if_pos htask]
      exact ⟨_, tasks _ _ hanswered rfl, rfl, congrArg (· + 1) hversion.symm⟩
    · obtain ⟨other, hother, hstate, hconsumed⟩ := (chained.receipts key stored h).task
      refine ⟨other, tasks _ _ ?_ hstate, hstate, hconsumed⟩
      rw [get?_answered, if_neg (by rw [← htask]; exact fresh key stored h)]
      exact hother
  · intro key key' stored stored' h h' hsame
    rw [Dict.get?_set] at h h'
    split_ifs at h h' with hkey hkey'
    · exact hkey.trans hkey'.symm
    · cases h
      exact absurd hsame.symm (fresh key' stored' h')
    · cases h'
      exact absurd hsame (fresh key stored h)
    · exact chained.distinct key key' stored stored' h h' hsame

theorem answered_task {entry : Task} {id : UUID} {e : Task}
    (h : (s.answered entry).tasks.get? id = some e) :
    (e = entry.restate .answered ∧ id = entry.task.taskId) ∨ s.tasks.get? id = some e := by
  rw [get?_answered] at h
  split_ifs at h with hid
  · cases h
    exact Or.inl ⟨rfl, hid⟩
  · exact Or.inr h

theorem Chained.rejected (chained : Chained s) {accepted : AcceptedResponse} {entry : Task}
    {known : JobMeta} (answers : Answers s accepted entry known) {s' : Store content}
    (linked : Linked s'.jobs) (tasks : s'.tasks = (s.answered entry).tasks)
    (jobMeta : s'.jobMeta = s.jobMeta) (chain : s'.chain = s.chain) {payloadDigest : Digest}
    {receipt : ResponseReceipt} (htask : receipt.taskId = entry.task.taskId)
    (hversion : receipt.consumedVersion = accepted.command.expectedVersion)
    (receipts : s'.receipts = s.receipts.set accepted.receiptKey
      (filedReceipt accepted payloadDigest receipt)) : Chained s' := by
  obtain ⟨hreceipts, hdistinct⟩ := chained.answer_receipts answers htask
    (hversion.trans answers.version.symm) receipts (fun _ _ h _ => by rw [tasks]; exact h)
  refine ⟨linked, by rw [tasks]; exact answered_filed chained.filed entry, ?_, ?_, ?_, hreceipts,
    hdistinct⟩
  · intro id e h
    rw [tasks] at h
    obtain ⟨rfl, -⟩ | hold := answered_task h
    · refine (chained.tasks _ _ answers.task).closed (by simp) fun known h => ⟨known, ?_, rfl, rfl⟩
      rw [jobMeta]
      exact h
    · exact (chained.tasks id e hold).of_same (by rw [jobMeta])
  · intro k known h
    rw [jobMeta] at h
    exact (chained.heads k known h).of_same (by rw [chain])
  · intro k h
    rw [jobMeta] at h
    rw [chain]
    exact chained.noChain h

theorem Headed.append {s' : Store content} {j : UUID} {known : JobMeta} (headed : Headed s j known)
    {revision : MaterialRevision} (child : revision.parent = some known.head)
    (chain : s'.chain.get? j = some (listRevisions s j ++ [revision])) :
    Headed s' j { known with head := revision.reference } := by
  obtain ⟨older, last, hchain, hlast, hlinked, hcase⟩ := headed.chain
  have hlist : listRevisions s j = older ++ [last] := by rw [listRevisions, hchain]; rfl
  rw [hlist] at chain
  refine ⟨older ++ [last], revision, chain, rfl, ?_, ?_⟩
  · refine List.isChain_append.mpr ⟨hlinked, List.isChain_singleton _, ?_⟩
    intro x hx y hy
    obtain rfl : last = x := by simpa using hx
    obtain rfl : revision = y := by simpa using hy
    exact child.trans (congrArg some hlast.symm)
  · intro r hr
    obtain hr | hr := List.mem_append.mp hr
    · exact hcase r hr
    · obtain rfl := List.mem_singleton.mp hr
      obtain ⟨hparent, -, -⟩ := r.childVersion _ child
      rw [← hparent, ← hlast]
      exact hcase last (by simp)

theorem Chained.resumed (chained : Chained s) {accepted : AcceptedResponse} {entry : Task}
    {known : JobMeta} (answers : Answers s accepted entry known) {s' : Store content}
    {snapshot : RevisionSnapshot content} (child : snapshot.revision.parent = some known.head)
    (linked : Linked s'.jobs)
    (tasks : s'.tasks = supersede (s.answered entry).tasks
      ((s.answered entry).stale entry.jobId known.head))
    (jobMeta : s'.jobMeta =
      s.jobMeta.set entry.jobId { known with head := snapshot.revision.reference })
    (chain : s'.chain =
      s.chain.set entry.jobId (listRevisions s entry.jobId ++ [snapshot.revision]))
    {payloadDigest : Digest} {receipt : ResponseReceipt}
    (htask : receipt.taskId = entry.task.taskId)
    (hversion : receipt.consumedVersion = accepted.command.expectedVersion)
    (receipts : s'.receipts = s.receipts.set accepted.receiptKey
      (filedReceipt accepted payloadDigest receipt)) : Chained s' := by
  have filed := answered_filed chained.filed entry
  have hget := get?_supersede_stale filed entry.jobId known.head
  obtain ⟨hreceipts, hdistinct⟩ := chained.answer_receipts answers htask
    (hversion.trans answers.version.symm) receipts (by
      intro id e h hstate
      rw [tasks, hget, h]
      simp [Task.asksAbout, hstate])
  have hmeta : ∀ k old, s.jobMeta.get? k = some old → ∃ known', s'.jobMeta.get? k = some known' ∧
      known'.caseId = old.caseId ∧ known'.principalId = old.principalId := by
    intro k old hold
    rw [jobMeta, Dict.get?_set]
    split_ifs with hk
    · subst hk
      obtain rfl := Option.some.inj (answers.job.symm.trans hold)
      exact ⟨_, rfl, rfl, rfl⟩
    · exact ⟨old, hold, rfl, rfl⟩
  refine ⟨linked, ?_, ?_, ?_, ?_, hreceipts, hdistinct⟩
  · intro id e h
    rw [tasks, hget] at h
    obtain ⟨e₀, he₀, rfl⟩ := Option.map_eq_some_iff.mp h
    have hid := filed id e₀ he₀
    split_ifs <;> exact hid
  · intro id e h
    rw [tasks, hget] at h
    obtain ⟨e₀, he₀, rfl⟩ := Option.map_eq_some_iff.mp h
    obtain ⟨rfl, -⟩ | hold := answered_task he₀
    · rw [restate_answered, if_neg (by simp)]
      exact (chained.tasks _ _ answers.task).closed (by simp) (hmeta _)
    · split_ifs with hasks
      · exact (chained.tasks id e₀ hold).closed (by simp) (hmeta _)
      · by_cases hjob : e₀.jobId = entry.jobId
        · -- An open task of the job was about the old head, so it was superseded.
          obtain ⟨known₀, hknown₀, hcase, hprincipal, hopen⟩ := (chained.tasks id e₀ hold).job
          rw [hjob, answers.job] at hknown₀
          cases hknown₀
          refine ⟨{ known with head := snapshot.revision.reference },
            by rw [jobMeta, hjob, Dict.get?_set_self], hcase, hprincipal, fun h => ?_⟩
          exact absurd (by simp [Task.asksAbout, hjob, h, hopen h]) hasks
        · refine (chained.tasks id e₀ hold).of_same ?_
          rw [jobMeta, Dict.get?_set_of_ne _ _ hjob]
  · intro k known' h
    rw [jobMeta, Dict.get?_set] at h
    split_ifs at h with hk
    · subst hk
      cases h
      exact (chained.heads _ _ answers.job).append child (by rw [chain, Dict.get?_set_self])
    · refine (chained.heads k known' h).of_same ?_
      rw [chain, Dict.get?_set_of_ne _ _ hk]
  · intro k h
    rw [jobMeta, Dict.get?_set] at h
    split_ifs at h with hk
    rw [chain, Dict.get?_set_of_ne _ _ hk]
    exact chained.noChain h

theorem linked_of_step {jobs jobs' : MemoryJobStore.Store} (linked : Linked jobs)
    (op : MemoryJobStore.Op) {reply : Except Fault MemoryJobStore.Reply}
    (h : MemoryJobStore.step (fun _ => MemoryJobStore.sampleDigest) policy jobs op =
      (reply, jobs')) : Linked jobs' := by
  have after := MemoryJobStore.step_linked (fun _ => MemoryJobStore.sampleDigest) policy linked op
  rwa [h] at after

theorem Chained.of_jobs (chained : Chained s) {jobs : MemoryJobStore.Store}
    (linked : Linked jobs) : Chained { s with jobs := jobs } where
  linked := linked
  filed := chained.filed
  tasks id entry h := (chained.tasks id entry h).of_same rfl
  heads k known h := (chained.heads k known h).of_same rfl
  noChain := chained.noChain
  receipts key stored h := ⟨(chained.receipts key stored h).task⟩
  distinct := chained.distinct

theorem CommitEffect.chained (chained : Chained s) {accepted : AcceptedResponse}
    {next : Option (RevisionSnapshot content)} {payloadDigest : Digest} {now : Int}
    {runId token : UUID} {reply : Except Fault ResponseReceipt} {s' : Store content}
    (h : CommitEffect policy s accepted next payloadDigest now runId token reply s') :
    Chained s' := by
  cases h with
  | refused | replayed => exact chained
  | rejected entry known record jobs receipt answers bare accepts hreceipt =>
    subst hreceipt
    have called := congrArg (MemoryJobStore.answer .record) accepts
    have linked := linked_of_step chained.linked (.rejectHumanTask ..) called
    exact chained.rejected answers linked rfl rfl rfl rfl rfl rfl
  | resumed entry known record jobs receipt snapshot stale answers revises child accepting accepts
      hstale hreceipt =>
    subst hstale hreceipt
    have called := congrArg (MemoryJobStore.answer .record) accepts
    have linked := linked_of_step chained.linked (.resumeAfterHuman ..) called
    exact chained.resumed answers child linked rfl rfl rfl rfl rfl rfl
  | torn entry known record jobs snapshot fault answers revises child rejecting accepts =>
    have called := congrArg (MemoryJobStore.answer .record) accepts
    exact chained.of_jobs (linked_of_step chained.linked (.resumeAfterHuman ..) called)

variable (sha256 policy) in
theorem step_chained (chained : Chained s) (call : Call content) :
    Chained (step sha256 policy s call) := by
  cases call with
  | seed jobId principalId snapshot tasks =>
    obtain hsame | seeded := seed_effect jobId principalId snapshot tasks s
    · rw [step, hsame]
      exact chained
    · exact seeded.chained chained
  | job op => exact chained.of_jobs (MemoryJobStore.step_linked sha256 policy chained.linked op)
  | commit accepted next payloadDigest now runId token =>
    exact (commit_effect policy chained accepted next payloadDigest now runId token).chained chained

theorem chained_empty : Chained ({} : Store content) where
  linked := MemoryJobStore.linked_empty
  filed _ entry (h : none = some entry) := nomatch h
  tasks _ entry (h : none = some entry) := nomatch h
  heads _ known (h : none = some known) := nomatch h
  noChain _ := rfl
  receipts _ stored (h : none = some stored) := nomatch h
  distinct _ _ stored _ (h : none = some stored) := nomatch h

variable (sha256 policy) in
theorem run_keeps_chained (chained : Chained s) (calls : List (Call content)) :
    Chained (run sha256 policy s calls) := by
  induction calls generalizing s with
  | nil => exact chained
  | cons call calls ih => exact ih (step_chained sha256 policy chained call)

end AppraisalReview.HumanTaskStore
