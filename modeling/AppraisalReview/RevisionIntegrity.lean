import AppraisalReview.CaseReview
import AppraisalReview.RevisionChain

set_option autoImplicit false

/-!
# When a run keeps every stored revision and its head

A response is checked against the head it answers, not against the revisions
already stored. One that takes over the identity of another revision replaces
its snapshot, and a rejection that brings a revision moves the job plane alone.
-/
namespace AppraisalReview.HumanTaskStore
open MemoryJobStore (Linked workingRevision resumeAdmission)
variable {content : ContentDigest} {sha256 : String → Digest} {policy : JobPolicy}
variable {s : Store content}

section
variable (policy : JobPolicy) (s : Store content)

def Resumes (accepted : AcceptedResponse) (next : RevisionSnapshot content)
    (payloadDigest : Digest) (runId j : UUID) : Prop :=
  ∃ entry known admitted,
    responseAdmission s accepted (some next) payloadDigest = .ok (.inr (entry, known)) ∧
      entry.jobId = j ∧ resumeAdmission policy s.jobs j (followUp next runId) = .ok admitted

/-- An answer whose revision takes over the identity of a different stored one. -/
def Overwrites : Call content → Prop
  | .commit accepted (some next) payloadDigest _ runId _ =>
    accepted.command.action ≠ .reject ∧ (∃ j, Resumes policy s accepted next payloadDigest runId j) ∧
      ∃ old, s.snapshots.get? next.revision.reference.identity = some old ∧
        old.revision ≠ next.revision
  | _ => False

/-- A first seed that is not for the revision the job works on, or a rejection
that brings a revision. -/
def Departs (j : UUID) : Call content → Prop
  | .seed jobId principalId snapshot tasks => jobId = j ∧ s.jobMeta.get? j = none ∧
      seedAdmission s jobId principalId snapshot tasks = .ok () ∧
        workingRevision s.jobs j ≠ some snapshot.revision.reference
  | .commit accepted (some next) payloadDigest _ runId _ =>
    accepted.command.action = .reject ∧ Resumes policy s accepted next payloadDigest runId j
  | _ => False

end

def Call.resumesDirectly (j : UUID) : Call content → Prop
  | .job op => op.resumes j
  | _ => False

theorem Answers.admitted {accepted : AcceptedResponse} {entry : Task} {known : JobMeta}
    (answers : Answers s accepted entry known) {snapshot : RevisionSnapshot content}
    (child : snapshot.revision.parent = some known.head) (payloadDigest : Digest) :
    responseAdmission s accepted (some snapshot) payloadDigest = .ok (.inr (entry, known)) := by
  simp [responseAdmission, answers.task, answers.job, answers.unused, answers.isOpen,
    answers.version, answers.current, answers.actor, child]

theorem resumeAdmission_of_ok {jobs jobs' : MemoryJobStore.Store} {j : UUID}
    {reference : RunReference} {now : Int} {token : UUID} {record : JobRecord}
    (h : MemoryJobStore.resumeAfterHuman policy j reference now token jobs =
      (.ok record, jobs')) : ∃ admitted, resumeAdmission policy jobs j reference = .ok admitted := by
  unfold MemoryJobStore.resumeAfterHuman at h
  split at h
  · cases h
  · rename_i admitted
    exact ⟨_, admitted⟩

structure Pinned (s : Store content) : Prop where
  stored : ∀ j, ∀ revision ∈ listRevisions s j, ∃ snapshot,
    s.snapshots.get? revision.reference.identity = some snapshot ∧ snapshot.revision = revision

/-- No revision leaves its chain, and its snapshot is of the same revision. -/
structure Keeps (s s' : Store content) : Prop where
  chain : ∀ j, listRevisions s j <+: listRevisions s' j
  snapshots : ∀ key snapshot, s.snapshots.get? key = some snapshot →
    ∃ snapshot', s'.snapshots.get? key = some snapshot' ∧ snapshot'.revision = snapshot.revision

theorem Keeps.refl (s : Store content) : Keeps s s :=
  ⟨fun _ => List.prefix_refl _, fun _ snapshot h => ⟨snapshot, h, rfl⟩⟩

theorem Keeps.trans {s₁ s₂ s₃ : Store content} (h : Keeps s₁ s₂) (h' : Keeps s₂ s₃) :
    Keeps s₁ s₃ where
  chain j := (h.chain j).trans (h'.chain j)
  snapshots key snapshot hkey := by
    obtain ⟨snapshot₂, hkey₂, h₂⟩ := h.snapshots key snapshot hkey
    obtain ⟨snapshot₃, hkey₃, h₃⟩ := h'.snapshots key snapshot₂ hkey₂
    exact ⟨snapshot₃, hkey₃, h₃.trans h₂⟩

theorem keeps_set {s' : Store content} {snapshot : RevisionSnapshot content}
    (same : ∀ old, s.snapshots.get? snapshot.revision.reference.identity = some old →
      old.revision = snapshot.revision)
    (snapshots : s'.snapshots =
      s.snapshots.set snapshot.revision.reference.identity snapshot)
    (chain : ∀ j, listRevisions s j <+: listRevisions s' j) : Keeps s s' := by
  refine ⟨chain, fun key old hold => ?_⟩
  rw [snapshots, Dict.get?_set]
  split_ifs with hkey
  · subst hkey
    exact ⟨snapshot, rfl, (same old hold).symm⟩
  · exact ⟨old, hold, rfl⟩

theorem Pinned.keep {s' : Store content} (pinned : Pinned s) (keeps : Keeps s s')
    (added : ∀ j, ∀ revision ∈ listRevisions s' j, revision ∈ listRevisions s j ∨
      ∃ snapshot, s'.snapshots.get? revision.reference.identity = some snapshot ∧
        snapshot.revision = revision) : Pinned s' := by
  refine ⟨fun j revision hrevision => ?_⟩
  obtain hold | hnew := added j revision hrevision
  · obtain ⟨snapshot, hsnapshot, hsame⟩ := pinned.stored j revision hold
    obtain ⟨snapshot', hsnapshot', hsame'⟩ := keeps.snapshots _ _ hsnapshot
    exact ⟨snapshot', hsnapshot', hsame'.trans hsame⟩
  · exact hnew

theorem listRevisions_set {s' : Store content} {j : UUID} {revisions : List MaterialRevision}
    (chain : s'.chain = s.chain.set j revisions) (k : UUID) :
    listRevisions s' k = if k = j then revisions else listRevisions s k := by
  rw [listRevisions, chain, Dict.get?_set]
  split_ifs <;> rfl

theorem Seeded.keeps {s' : Store content} {jobId : UUID} {principalId : String}
    {snapshot : RevisionSnapshot content} {tasks : List HumanTask} (chained : Chained s)
    (pinned : Pinned s) (seeded : Seeded s s' jobId principalId snapshot tasks) :
    Keeps s s' ∧ Pinned s' := by
  have hsnapshot : s'.snapshots.get? snapshot.revision.reference.identity = some snapshot := by
    rw [seeded.snapshots, Dict.get?_set_self]
  cases hknown : s.jobMeta.get? jobId with
  | some known =>
    have same : s'.chain = s.chain := by rw [seeded.chain, hknown]; rfl
    have keeps : Keeps s s' := keeps_set seeded.seeds.identity seeded.snapshots fun j => by
      rw [listRevisions, listRevisions, same]
    refine ⟨keeps, pinned.keep keeps fun j revision h => Or.inl ?_⟩
    rwa [listRevisions, same] at h
  | none =>
    have new : s'.chain = s.chain.set jobId [snapshot.revision] := by
      rw [seeded.chain, hknown]; rfl
    have unlisted : listRevisions s jobId = [] := by
      rw [listRevisions, chained.noChain hknown]
      rfl
    have keeps : Keeps s s' := keeps_set seeded.seeds.identity seeded.snapshots fun j => by
      rw [listRevisions_set new]
      split_ifs with hj
      · rw [hj, unlisted]
        exact List.nil_prefix
      · exact List.prefix_refl _
    refine ⟨keeps, pinned.keep keeps fun j revision h => ?_⟩
    rw [listRevisions_set new] at h
    split_ifs at h with hj
    · obtain rfl := List.mem_singleton.mp h
      exact Or.inr ⟨snapshot, hsnapshot, rfl⟩
    · exact Or.inl h

theorem keeps_append {s' : Store content} {j : UUID} {snapshot : RevisionSnapshot content}
    (pinned : Pinned s)
    (same : ∀ old, s.snapshots.get? snapshot.revision.reference.identity = some old →
      old.revision = snapshot.revision)
    (snapshots : s'.snapshots =
      s.snapshots.set snapshot.revision.reference.identity snapshot)
    (chain : s'.chain = s.chain.set j (listRevisions s j ++ [snapshot.revision])) :
    Keeps s s' ∧ Pinned s' := by
  have keeps : Keeps s s' := keeps_set same snapshots fun k => by
    rw [listRevisions_set chain]
    split_ifs with hk
    · rw [hk]
      exact List.prefix_append ..
    · exact List.prefix_refl _
  refine ⟨keeps, pinned.keep keeps fun k revision h => ?_⟩
  rw [listRevisions_set chain] at h
  split_ifs at h with hk
  · obtain hold | hnew := List.mem_append.mp h
    · exact Or.inl (hk ▸ hold)
    · obtain rfl := List.mem_singleton.mp hnew
      exact Or.inr ⟨snapshot, by rw [snapshots, Dict.get?_set_self], rfl⟩
  · exact Or.inl h

theorem CommitEffect.keeps {accepted : AcceptedResponse}
    {next : Option (RevisionSnapshot content)} {payloadDigest : Digest} {now : Int}
    {runId token : UUID} {reply : Except Fault ResponseReceipt} {s' : Store content}
    (pinned : Pinned s)
    (h : CommitEffect policy s accepted next payloadDigest now runId token reply s')
    (clean : ¬ Overwrites policy s (.commit accepted next payloadDigest now runId token)) :
    Keeps s s' ∧ Pinned s' := by
  have still {s' : Store content} (chain : s'.chain = s.chain)
      (snapshots : s'.snapshots = s.snapshots) : Keeps s s' ∧ Pinned s' := by
    have keeps : Keeps s s' :=
      ⟨fun j => by rw [listRevisions, listRevisions, chain],
        fun key snapshot h => ⟨snapshot, by rw [snapshots]; exact h, rfl⟩⟩
    refine ⟨keeps, pinned.keep keeps fun j revision h => Or.inl ?_⟩
    rwa [listRevisions, chain] at h
  cases h with
  | refused | replayed | rejected | torn => exact still rfl rfl
  | resumed entry known record jobs receipt snapshot stale answers revises child accepting accepts
      hstale hreceipt =>
    subst revises
    refine keeps_append pinned (fun old hold => ?_) rfl rfl
    by_contra hne
    obtain ⟨admitted, hadmitted⟩ := resumeAdmission_of_ok accepts
    exact clean ⟨accepting, ⟨entry.jobId, entry, known, admitted,
      answers.admitted child payloadDigest, rfl, hadmitted⟩, old, hold, hne⟩

variable (sha256) in
theorem step_keeps (chained : Chained s) (pinned : Pinned s) (call : Call content)
    (clean : ¬ Overwrites policy s call) :
    Keeps s (step sha256 policy s call) ∧ Pinned (step sha256 policy s call) := by
  cases call with
  | seed jobId principalId snapshot tasks =>
    obtain hsame | seeded := seed_effect jobId principalId snapshot tasks s
    · rw [step, hsame]
      exact ⟨.refl s, pinned⟩
    · exact seeded.keeps chained pinned
  | job op => exact ⟨⟨fun _ => List.prefix_refl _, fun _ snapshot h => ⟨snapshot, h, rfl⟩⟩,
      ⟨pinned.stored⟩⟩
  | commit accepted next payloadDigest now runId token =>
    exact (commit_effect policy chained accepted next payloadDigest now runId token).keeps pinned
      clean

def InStep (s : Store content) (j : UUID) : Prop :=
  ∀ known, s.jobMeta.get? j = some known → workingRevision s.jobs j = some known.head

theorem working_after_reject {jobs jobs' : MemoryJobStore.Store} (linked : Linked jobs)
    {j k r task : UUID} {now : Int} {record : JobRecord} {revision : RevisionReference}
    (h : MemoryJobStore.rejectHumanTask policy k r task now jobs = (.ok record, jobs'))
    (working : workingRevision jobs j = some revision) :
    workingRevision jobs' j = some revision := by
  have effect := MemoryJobStore.step_effect (fun _ => MemoryJobStore.sampleDigest) policy linked
    (.rejectHumanTask k r task now)
  simp only [MemoryJobStore.step, MemoryJobStore.answer, h] at effect
  exact effect.workingRevision linked working id

theorem working_after_resume {jobs jobs' : MemoryJobStore.Store} (linked : Linked jobs)
    {k : UUID} {reference : RunReference} {now : Int} {token : UUID} {record : JobRecord}
    (h : MemoryJobStore.resumeAfterHuman policy k reference now token jobs =
      (.ok record, jobs')) :
    workingRevision jobs' k = some reference.revision ∧
      ∀ j revision, j ≠ k → workingRevision jobs j = some revision →
        workingRevision jobs' j = some revision := by
  have effect := MemoryJobStore.step_effect (fun _ => MemoryJobStore.sampleDigest) policy linked
    (.resumeAfterHuman k reference now token)
  simp only [MemoryJobStore.step, MemoryJobStore.answer, h] at effect
  refine ⟨?_, fun j revision hj working =>
    effect.workingRevision linked working fun hresumes => hj hresumes.symm⟩
  cases effect with
  | resumed _ _ _ _ _ _ job job' current before hcurrent waiting unused revised sameCase bare hjob
      jobs runs =>
    have hafter := jobs k
    rw [if_pos rfl] at hafter
    rw [workingRevision, hafter, Option.bind_some, hjob, runs, Dict.get?_set_self]
    rfl

variable (sha256) in
theorem step_inStep (chained : Chained s) {j : UUID} (inStep : InStep s j)
    (call : Call content) (stays : ¬ Departs policy s j call)
    (indirect : ¬ call.resumesDirectly j) :
    InStep (step sha256 policy s call) j := by
  intro known hknown
  cases call with
  | seed jobId principalId snapshot tasks =>
    cases hadmit : seedAdmission s jobId principalId snapshot tasks with
    | error fault =>
      simp only [step, seed, hadmit] at hknown ⊢
      exact inStep known hknown
    | ok _ =>
      obtain hsame | seeded := seed_effect jobId principalId snapshot tasks s
      · rw [step, hsame] at hknown ⊢
        exact inStep known hknown
      · change workingRevision (seed jobId principalId snapshot tasks s).2.jobs j = _
        change (seed jobId principalId snapshot tasks s).2.jobMeta.get? j = _ at hknown
        rw [seeded.jobs]
        cases hold : s.jobMeta.get? j with
        | some old =>
          obtain rfl := Option.some.inj ((seeded.known hold).symm.trans hknown)
          exact inStep old hold
        | none =>
          rw [seeded.jobMeta, Dict.get?_set] at hknown
          split_ifs at hknown with hj
          · cases hknown
            by_contra hmoved
            exact stays ⟨hj.symm, hold, hadmit, hmoved⟩
          · exact absurd (hold.symm.trans hknown) (by simp)
  | job op =>
    exact (MemoryJobStore.step_effect sha256 policy chained.linked op).workingRevision
      chained.linked (inStep known hknown) indirect
  | commit accepted next payloadDigest now runId token =>
    change (commitResponse policy accepted next payloadDigest now runId token s).2.jobMeta.get? j =
      _ at hknown
    change workingRevision
      (commitResponse policy accepted next payloadDigest now runId token s).2.jobs j = _
    have effect := commit_effect policy chained accepted next payloadDigest now runId token
    generalize (commitResponse policy accepted next payloadDigest now runId token s).1 = reply at effect
    generalize (commitResponse policy accepted next payloadDigest now runId token s).2 = s' at *
    cases effect with
    | refused | replayed => exact inStep known hknown
    | rejected entry known' record jobs receipt answers bare accepts hreceipt =>
      exact working_after_reject chained.linked accepts (inStep known hknown)
    | resumed entry known' record jobs receipt snapshot stale answers revises child accepting
        accepts hstale hreceipt =>
      obtain ⟨own, others⟩ := working_after_resume chained.linked accepts
      change (s.jobMeta.set entry.jobId _).get? j = _ at hknown
      rw [Dict.get?_set] at hknown
      split_ifs at hknown with hj
      · cases hknown
        rw [hj]
        exact own
      · exact others j _ hj (inStep known hknown)
    | torn entry known' record jobs snapshot fault answers revises child rejecting accepts =>
      subst revises
      obtain ⟨own, others⟩ := working_after_resume chained.linked accepts
      by_cases hj : j = entry.jobId
      · obtain ⟨admitted, hadmitted⟩ := resumeAdmission_of_ok accepts
        exact absurd ⟨rejecting, entry, known', admitted, answers.admitted child payloadDigest,
          hj.symm, hj ▸ hadmitted⟩ stays
      · exact others j _ hj (inStep known hknown)

theorem linkedChain_ok {j : UUID} {caseId : OpaqueID} {revisions : List MaterialRevision}
    (linked : revisions.IsChain MaterialRevision.Follows)
    (sameCase : ∀ revision ∈ revisions, revision.reference.caseId = caseId) :
    linkedChain { caseId := caseId, jobId := j } revisions = .ok () := by
  have hpairs : ∀ pair ∈ revisions.zip revisions.tail, pair.1.Follows pair.2 := by
    induction linked with
    | nil => simp
    | singleton => simp
    | cons_cons hfirst hrest ih =>
      intro pair hpair
      obtain rfl | hpair := List.mem_cons.mp hpair
      · exact hfirst
      · exact ih (fun r hr => sameCase r (List.mem_cons_of_mem _ hr)) pair hpair
  rw [linkedChain, if_neg, if_neg]
  · simpa using hpairs
  · simpa using sameCase

structure ChainIntegrity (s : Store content) : Prop where
  listed : ∀ j known, s.jobMeta.get? j = some known → listRevisions s j ≠ [] ∧
    linkedChain { caseId := known.caseId, jobId := j } (listRevisions s j) = .ok () ∧
      (listRevisions s j).getLast?.map MaterialRevision.reference = some known.head
  pinned : ∀ j, ∀ revision ∈ listRevisions s j, ∃ snapshot,
    readSnapshot s revision.reference = some snapshot ∧ snapshot.revision = revision ∧
      content.material snapshot.material = revision.reference.materialDigest
  asked : ∀ id entry known, s.tasks.get? id = some entry → entry.task.state = .open →
    s.jobMeta.get? entry.jobId = some known → entry.task.run.revision = known.head
  consumed : ∀ key key' stored stored', s.receipts.get? key = some stored →
    s.receipts.get? key' = some stored' → stored.receipt.taskId = stored'.receipt.taskId →
      key = key'

theorem Chained.integrity (chained : Chained s) (pinned : Pinned s) : ChainIntegrity s where
  listed j known h := by
    obtain ⟨older, last, hchain, hlast, hlinked, hcase⟩ := (chained.heads j known h).chain
    have hlist : listRevisions s j = older ++ [last] := by rw [listRevisions, hchain]; rfl
    rw [hlist]
    exact ⟨by simp, linkedChain_ok hlinked hcase, by simp [hlast]⟩
  pinned j revision h := by
    obtain ⟨snapshot, hsnapshot, rfl⟩ := pinned.stored j revision h
    refine ⟨snapshot, ?_, rfl, snapshot.pinned.symm⟩
    rw [readSnapshot, hsnapshot]
    simp
  asked id entry known h hopen hknown := by
    obtain ⟨known', hknown', -, -, hasked⟩ := (chained.tasks id entry h).job
    obtain rfl := Option.some.inj (hknown.symm.trans hknown')
    exact hasked hopen
  consumed := chained.distinct

section
variable (sha256 policy)

theorem run_snoc (s : Store content) (calls : List (Call content)) (call : Call content) :
    run sha256 policy s (calls ++ [call]) =
      step sha256 policy (run sha256 policy s calls) call :=
  List.foldl_concat ..

/-- Every call of the run meets a condition on the store before it. -/
def Along (P : Store content → Call content → Prop) (calls : List (Call content)) : Prop :=
  ∀ earlier call later, calls = earlier ++ call :: later → P (run sha256 policy {} earlier) call

end

theorem Along.prefix {P : Store content → Call content → Prop} {xs ys : List (Call content)}
    (h : Along sha256 policy P (xs ++ ys)) : Along sha256 policy P xs := by
  intro earlier call later hxs
  exact h earlier call (later ++ ys) (by simp [hxs])

theorem Along.last {P : Store content → Call content → Prop} {xs : List (Call content)}
    {call : Call content} (h : Along sha256 policy P (xs ++ [call])) :
    P (run sha256 policy {} xs) call :=
  h xs call [] rfl

theorem Along.nil {P : Store content → Call content → Prop} : Along sha256 policy P [] := by
  intro earlier call later h
  simp at h

theorem Along.snoc {P : Store content → Call content → Prop} {xs : List (Call content)}
    {call : Call content} (h : Along sha256 policy P xs)
    (hcall : P (run sha256 policy {} xs) call) : Along sha256 policy P (xs ++ [call]) := by
  intro earlier other later heq
  obtain rfl | ⟨rest, last, rfl⟩ := List.eq_nil_or_concat later
  · obtain ⟨rfl, hother⟩ := List.append_inj' heq rfl
    obtain rfl := List.singleton_inj.mp hother
    exact hcall
  · have hsplit : xs ++ [call] = (earlier ++ other :: rest) ++ [last] := by simpa using heq
    exact h earlier other rest (List.append_inj' hsplit rfl).1

theorem run_pinned {calls : List (Call content)}
    (clean : Along sha256 policy (fun s call => ¬ Overwrites policy s call) calls) :
    Pinned (run sha256 policy {} calls) := by
  induction calls using List.reverseRecOn with
  | nil => exact ⟨fun _ _ h => absurd h List.not_mem_nil⟩
  | append_singleton calls call ih =>
    rw [run_snoc]
    exact (step_keeps sha256 (run_keeps_chained sha256 policy chained_empty calls)
      (ih clean.prefix) call clean.last).2

theorem run_keeps {earlier later : List (Call content)}
    (clean : Along sha256 policy (fun s call => ¬ Overwrites policy s call) (earlier ++ later)) :
    Keeps (run sha256 policy {} earlier) (run sha256 policy {} (earlier ++ later)) := by
  induction later using List.reverseRecOn with
  | nil =>
    rw [List.append_nil]
    exact .refl _
  | append_singleton later call ih =>
    rw [← List.append_assoc] at clean ⊢
    rw [run_snoc]
    exact (ih clean.prefix).trans (step_keeps sha256
      (run_keeps_chained sha256 policy chained_empty _) (run_pinned clean.prefix) call
      clean.last).1

theorem run_inStep {calls : List (Call content)} {j : UUID}
    (stays : Along sha256 policy (fun s call => ¬ Departs policy s j call) calls)
    (indirect : ∀ call ∈ calls, ¬ call.resumesDirectly j) :
    InStep (run sha256 policy {} calls) j := by
  induction calls using List.reverseRecOn with
  | nil => exact fun known (h : none = some known) => nomatch h
  | append_singleton calls call ih =>
    rw [run_snoc]
    exact step_inStep sha256 (run_keeps_chained sha256 policy chained_empty calls)
      (ih stays.prefix fun call h => indirect call (List.mem_append_left _ h)) call stays.last
      (indirect call (by simp))

theorem commit_jobs (s : Store content) (accepted : AcceptedResponse)
    (next : Option (RevisionSnapshot content)) (payloadDigest : Digest) (now : Int)
    (runId token : UUID) (chained : Chained s) :
    ∃ ops, (commitResponse policy accepted next payloadDigest now runId token s).2.jobs =
      MemoryJobStore.run sha256 policy s.jobs ops := by
  have effect := commit_effect policy chained accepted next payloadDigest now runId token
  generalize (commitResponse policy accepted next payloadDigest now runId token s).1 = reply at effect
  generalize (commitResponse policy accepted next payloadDigest now runId token s).2 = s' at *
  cases effect with
  | refused | replayed => exact ⟨[], rfl⟩
  | rejected entry known record jobs receipt answers bare accepts =>
    refine ⟨[.rejectHumanTask entry.jobId entry.task.run.runId entry.task.taskId now], ?_⟩
    simp [MemoryJobStore.run, MemoryJobStore.step, MemoryJobStore.answer, accepts]
  | resumed entry known record jobs receipt snapshot stale answers revises child accepting accepts
  | torn entry known record jobs snapshot fault answers revises child rejecting accepts =>
    refine ⟨[.resumeAfterHuman entry.jobId (followUp snapshot runId) now token], ?_⟩
    simp [MemoryJobStore.run, MemoryJobStore.step, MemoryJobStore.answer, accepts]

variable (sha256 policy) in
theorem run_jobs (calls : List (Call content)) :
    ∃ ops, (run sha256 policy {} calls).jobs = MemoryJobStore.run sha256 policy {} ops := by
  induction calls using List.reverseRecOn with
  | nil => exact ⟨[], rfl⟩
  | append_singleton calls call ih =>
    obtain ⟨ops, hops⟩ := ih
    have chained := run_keeps_chained sha256 policy chained_empty calls
    have hstep : ∃ more, (step sha256 policy (run sha256 policy {} calls) call).jobs =
        MemoryJobStore.run sha256 policy (run sha256 policy {} calls).jobs more := by
      cases call with
      | seed jobId principalId snapshot tasks =>
        refine ⟨[], ?_⟩
        obtain hsame | seeded := seed_effect jobId principalId snapshot tasks
          (run sha256 policy {} calls)
        · rw [step, hsame]
          rfl
        · exact seeded.jobs
      | job op => exact ⟨[op], rfl⟩
      | commit accepted next payloadDigest now runId token =>
        exact commit_jobs _ accepted next payloadDigest now runId token chained
    obtain ⟨more, hmore⟩ := hstep
    refine ⟨ops ++ more, ?_⟩
    rw [run_snoc, hmore, hops, MemoryJobStore.run_append]

theorem InStep.sameCase {calls : List (Call content)} {j : UUID} {known : JobMeta}
    {job : MemoryJobStore.Job} (inStep : InStep (run sha256 policy {} calls) j)
    (hknown : (run sha256 policy {} calls).jobMeta.get? j = some known)
    (hjob : (run sha256 policy {} calls).jobs.jobs.get? j = some job) :
    job.caseId = known.caseId := by
  have working := inStep known hknown
  simp only [workingRevision, hjob, Option.bind_some, Option.map_eq_some_iff] at working
  obtain ⟨current, hcurrent, hhead⟩ := working
  obtain ⟨ops, hops⟩ := run_jobs sha256 policy calls
  rw [hops] at hjob hcurrent
  have lawful := (MemoryJobStore.run_lawful ops j).law job current hjob hcurrent
  rw [← lawful.sameCase, hhead]
  exact (run_keeps_chained sha256 policy chained_empty calls).head_caseId hknown

/-- What holds after a run and between its states. -/
structure RevisionsSound (sha256 : String → Digest) (policy : JobPolicy)
    (calls : List (Call content)) : Prop where
  integrity : ChainIntegrity (run sha256 policy {} calls)
  kept : ∀ earlier later, calls = earlier ++ later →
    Keeps (run sha256 policy {} earlier) (run sha256 policy {} calls)
  current : ∀ j known, (∀ call ∈ calls, ¬ call.resumesDirectly j) →
    (run sha256 policy {} calls).jobMeta.get? j = some known →
      workingRevision (run sha256 policy {} calls).jobs j = some known.head ∧
        ∀ job, (run sha256 policy {} calls).jobs.jobs.get? j = some job →
          job.caseId = known.caseId

/-- Seeds, answers, failures and job operations in any order keep every chain,
while no answer takes over another revision's identity, no rejection brings a
revision, and a job is first seeded with the revision it works on. -/
theorem run_revisions_sound (sha256 : String → Digest) (policy : JobPolicy)
    (calls : List (Call content))
    (clean : Along sha256 policy (fun s call => ¬ Overwrites policy s call) calls)
    (aligned : ∀ j, Along sha256 policy (fun s call => ¬ Departs policy s j call) calls) :
    RevisionsSound sha256 policy calls := by
  refine ⟨(run_keeps_chained sha256 policy chained_empty calls).integrity (run_pinned clean), ?_,
    ?_⟩
  · rintro earlier later rfl
    exact run_keeps clean
  · intro j known indirect hknown
    have inStep := run_inStep (aligned j) indirect
    exact ⟨inStep known hknown, fun job hjob => inStep.sameCase hknown hjob⟩

def sampleMaterial (unresolved : List String) : ReviewMaterial where
  policy := samplePolicy
  facts := { sampleFacts with unresolved := unresolved }

def sampleContent : ContentDigest where
  material material := if material.facts.unresolved = [] then MemoryJobStore.sampleDigest
    else MemoryJobStore.otherDigest
  rules _ := MemoryJobStore.sampleDigest
  response _ := MemoryJobStore.sampleDigest

def sampleRuleReference : RuleReference where
  ruleSetId := "rules"
  version := "1"
  context := sampleContext
  contentHash := MemoryJobStore.sampleDigest
  named := by decide
  versioned := by decide

theorem sampleKey_text : opaqueText "answer-1" = true := by decide

theorem unasserted_none : ∀ c ∈ (none : Option ValueRevision),
    c.corrected = none ∧ c.correctedBy = none ∧ c.proposed ≠ none := by simp

theorem sampleRevision_case :
    (MemoryJobStore.sampleRevision 0).caseId = ⟨"case-1", sampleCase_text⟩ := rfl

def sampleBase (reference : RevisionReference)
    (sameCase : reference.caseId = ⟨"case-1", sampleCase_text⟩) : MaterialRevision where
  reference := reference
  documents := MemoryJobStore.sampleSubmission.documents
  rules := [sampleRuleReference]
  minDocuments := by decide
  actualRules := by decide
  sameCase := by
    rw [sameCase]
    decide
  distinctDocuments := by decide
  childVersion := by simp

def sampleSnapshot : RevisionSnapshot sampleContent where
  material := sampleMaterial []
  revision := sampleBase (MemoryJobStore.sampleRevision 0) sampleRevision_case
  pinned := rfl

def sampleOther : RevisionSnapshot sampleContent where
  material := sampleMaterial []
  revision := sampleBase (MemoryJobStore.sampleRevision 1) rfl
  pinned := rfl

/-- The revision the answer brings, under the identity of `sampleOther`. -/
def sampleAnswer : RevisionSnapshot sampleContent where
  material := sampleMaterial ["open"]
  revision := { sampleBase
      { MemoryJobStore.sampleRevision 1 with materialDigest := MemoryJobStore.otherDigest } rfl with
    parent := some (MemoryJobStore.sampleRevision 0)
    childVersion := by
      intro p hp
      obtain rfl := Option.mem_some.mp hp
      decide }
  pinned := rfl

theorem confirming_purposeful : ∀ action ∈ [ResponseAction.confirm, .reject],
    action = TaskKind.fact.action ∨ action = .reject := by decide

theorem confirming_unpublished :
    TaskKind.fact = .publication ↔ (none : Option Digest).isSome = true := by decide

theorem confirming_distinct : ["finding-1"].Nodup ∧ [ResponseAction.confirm, .reject].Nodup ∧
    ([] : List OpaqueID).Nodup := by decide

def sampleTask : HumanTask where
  taskId := ⟨40⟩
  run := { runId := ⟨2⟩, revision := MemoryJobStore.sampleRevision 0 }
  version := 1
  kind := .fact
  requiredPermission := .confirm
  side := some {
    context := sampleContext, factorId := "width", side := .target
    inputDigest := MemoryJobStore.sampleDigest, named := by decide }
  question := "Confirm the width"
  findingIds := ["finding-1"]
  allowedResponses := [.confirm, .reject]
  positive := numbered_from_one
  permitted := rfl
  purposeful := confirming_purposeful
  publication := confirming_unpublished
  exactSide := by decide
  asked := by decide
  distinct := confirming_distinct

def sampleResponse (action : ResponseAction) (bare : action = .confirm ∨ action = .reject) :
    AcceptedResponse where
  command := {
    taskId := ⟨40⟩
    expectedVersion := 1
    revision := MemoryJobStore.sampleRevision 0
    sideDigest := some MemoryJobStore.sampleDigest
    idempotencyKey := ⟨"answer-1", sampleKey_text⟩
    action := action
    positive := numbered_from_one
    payload := by obtain rfl | rfl := bare <;> decide
    unasserted := unasserted_none }
  actor := MemoryJobStore.samplePrincipal.actor

def sampleWaiting : List (Call sampleContent) :=
  [.job MemoryJobStore.sampleCreate, .job MemoryJobStore.sampleClaim,
    .job (.finish MemoryJobStore.sampleAttempt .needsHuman 30 none [⟨40⟩] none),
    .seed ⟨1⟩ "reviewer" sampleSnapshot [sampleTask]]

def sampleCommit : Call sampleContent :=
  .commit (sampleResponse .confirm (.inl rfl)) (some sampleAnswer) MemoryJobStore.sampleDigest 40 ⟨5⟩
    ⟨11⟩

def sampleAnswered : List (Call sampleContent) := sampleWaiting ++ [sampleCommit]

theorem run_revisions_sound_sample :
    RevisionsSound (fun _ => MemoryJobStore.sampleDigest) {} sampleAnswered := by
  refine run_revisions_sound _ _ sampleAnswered ?_ fun j => ?_
  · refine ((((Along.nil.snoc id).snoc id).snoc id).snoc id).snoc ?_
    rintro ⟨-, -, old, hold, -⟩
    have fresh : ((run (fun _ => MemoryJobStore.sampleDigest) {} {} sampleWaiting).snapshots.get?
        sampleAnswer.revision.reference.identity).isNone := by decide +kernel
    rw [Option.isNone_iff_eq_none] at fresh
    exact nomatch fresh.symm.trans hold
  · refine ((((Along.nil.snoc id).snoc id).snoc id).snoc ?_).snoc ?_
    · rintro ⟨rfl, -, -, departs⟩
      exact departs (by decide +kernel)
    · rintro ⟨rejects, -⟩
      cases rejects

/-- A second job of the case is seeded with the identity that the answer brings. -/
def sampleReplaced : List (Call sampleContent) :=
  sampleWaiting ++ [.seed ⟨5⟩ "reviewer" sampleOther [], sampleCommit]

theorem sampleReplaced_lost :
    (listRevisions (run (fun _ => MemoryJobStore.sampleDigest) {} {} sampleReplaced) ⟨5⟩).map
        MaterialRevision.reference = [MemoryJobStore.sampleRevision 1] ∧
      (readSnapshot (run (fun _ => MemoryJobStore.sampleDigest) {} {} sampleReplaced)
        (MemoryJobStore.sampleRevision 1)).isNone := by
  decide +kernel

theorem run_revisions_replaced : ¬ RevisionsSound (fun _ => MemoryJobStore.sampleDigest) {}
    sampleReplaced := by
  intro h
  obtain ⟨hlisted, hlost⟩ := sampleReplaced_lost
  obtain ⟨revision, hrevision, hreference⟩ : ∃ revision ∈
      listRevisions (run (fun _ => MemoryJobStore.sampleDigest) {} {} sampleReplaced) ⟨5⟩,
      revision.reference = MemoryJobStore.sampleRevision 1 := by
    rw [← List.mem_map, hlisted]
    exact List.mem_singleton_self _
  obtain ⟨snapshot, hsnapshot, -⟩ := h.integrity.pinned _ revision hrevision
  rw [hreference] at hsnapshot
  simp [hsnapshot] at hlost

end AppraisalReview.HumanTaskStore
