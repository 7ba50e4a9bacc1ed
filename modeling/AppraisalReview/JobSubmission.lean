import AppraisalReview.JobBounds

set_option autoImplicit false

/-!
# Submission is idempotent

An idempotency record is written once, with the first run of the one job it
stands for. Run ids keep their place in the table, so the owner found for the
record's run stays that job under every later call.
-/
namespace AppraisalReview.MemoryJobStore

variable {sha256 : String → Digest} {policy : JobPolicy} {s s' : Store}

theorem Finishing.runs {attempt : ClaimedAttempt} {event : JobEvent}
    {result : Option ResultReference} {job : Job} {run run' : Run}
    (h : Finishing s attempt event result job run run' s') : s.runs.keys <+: s'.runs.keys := by
  obtain ⟨-, ref, -, -, -, rfl⟩ | ⟨-, -, -, rfl⟩ := h.published
  · exact Dict.keys_set_prefix ..
  · exact List.prefix_refl _

variable (sha256 policy) in
theorem step_run_order (s : Store) (op : Op) :
    s.runs.keys <+: (step sha256 policy s op).2.runs.keys := by
  cases op with
  | createJob principal submission j r now token =>
    simp only [step, answer, createJob]
    split
    · split
      · exact List.prefix_refl _
      split
      · exact List.prefix_refl _
      split <;> exact List.prefix_refl _
    · split
      · exact List.prefix_refl _
      split
      · exact List.prefix_refl _
      · exact Dict.keys_set_prefix ..
  | claim j r owner leaseSeconds now attemptId =>
    simp only [step, answer, claim]
    split
    · exact List.prefix_refl _
    · exact Dict.keys_set_prefix ..
  | heartbeat attempt leaseSeconds now =>
    simp only [step, answer, heartbeat]
    split
    · exact List.prefix_refl _
    · exact Dict.keys_set_prefix ..
  | finish attempt event now problem openTaskIds result =>
    simp only [step, answer, finish]
    split
    · exact List.prefix_refl _
    case h_2 hadmit =>
      obtain ⟨-, -, run, finishing⟩ := finishAdmission_ok hadmit
      split
      · exact finishing.runs
      · exact finishing.runs.trans (Dict.keys_set_prefix ..)
  | expireLease lease now token =>
    simp only [step, answer, expireLease]
    split
    · exact List.prefix_refl _
    · split <;> exact Dict.keys_set_prefix ..
  | cancel j now =>
    simp only [step, answer, cancel]
    split
    · exact List.prefix_refl _
    · exact Dict.keys_set_prefix ..
  | scheduleRetry j availableAt now token =>
    simp only [step, answer, scheduleRetry]
    split
    · exact List.prefix_refl _
    · split
      · exact List.prefix_refl _
      · exact Dict.keys_set_prefix ..
  | rejectHumanTask j r task now =>
    simp only [step, answer, rejectHumanTask]
    split
    · exact List.prefix_refl _
    · split
      · exact List.prefix_refl _
      · exact Dict.keys_set_prefix ..
  | resumeAfterHuman j reference now token =>
    simp only [step, answer, resumeAfterHuman]
    split
    · exact List.prefix_refl _
    · exact Dict.keys_set_prefix ..
  | markDispatched mark now =>
    simp only [step, answer, markDispatched]
    split
    case h_2 => exact List.prefix_refl _
    split
    · exact List.prefix_refl _
    split
    · split
      · exact List.prefix_refl _
      split
      · exact List.prefix_refl _
      · exact Dict.keys_set_prefix ..
    · exact List.prefix_refl _
  | rescheduleDispatch mark availableAt =>
    simp only [step, answer, rescheduleDispatch]
    split
    · exact List.prefix_refl _
    split
    · exact List.prefix_refl _
    split
    · exact List.prefix_refl _
    split
    · exact List.prefix_refl _
    split <;> exact List.prefix_refl _

theorem runOwner_of_prefix {r j : UUID} (order : s.runs.keys <+: s'.runs.keys)
    (h : s.runOwner r = some j) : s'.runOwner r = some j := by
  simp only [Store.runOwner, Option.map_eq_some_iff] at h ⊢
  obtain ⟨key, hkey, rfl⟩ := h
  exact ⟨key, order.find?_eq_some hkey, rfl⟩

theorem runOwner_new {r j : UUID} {run : Run} (new : ∀ k, s.runs.get? (k, r) = none)
    (runs : s'.runs = s.runs.set (j, r) run) : s'.runOwner r = some j := by
  have absent : s.runs.keys.find? (fun key => key.2 = r) = none := by
    refine List.find?_eq_none.mpr fun ⟨k, r'⟩ hmem => ?_
    rw [Dict.mem_keys] at hmem
    simp only [decide_eq_true_eq]
    rintro rfl
    rw [new k] at hmem
    cases hmem
  rw [Store.runOwner, runs, Dict.keys_set_new _ _ (new j), List.find?_append, absent]
  simp

def KeepsRounds (s s' : Store) : Prop :=
  ∀ key entry, s.outbox.get? key = some entry →
    ∃ entry', s'.outbox.get? key = some entry' ∧ entry'.runId = entry.runId

theorem KeepsRounds.of_eq (h : s'.outbox = s.outbox) : KeepsRounds s s' :=
  fun _ entry hentry => ⟨entry, h ▸ hentry, rfl⟩

theorem KeepsRounds.of_set {key : UUID × ℕ} {new : Outbox} (h : s'.outbox = s.outbox.set key new)
    (keeps : ∀ old, s.outbox.get? key = some old → new.runId = old.runId) : KeepsRounds s s' := by
  intro key' entry hentry
  rw [h, Dict.get?_set]
  split_ifs with hkey
  · subst hkey
    exact ⟨new, rfl, keeps entry hentry⟩
  · exact ⟨entry, hentry, rfl⟩

theorem KeepsRounds.next {j : UUID} {job : Job} {new : Outbox} (linked : Linked s)
    (before : s.jobs.get? j = some job)
    (h : s'.outbox = s.outbox.set (j, job.outboxSeq + 1) new) : KeepsRounds s s' := by
  refine .of_set h fun old hold => ?_
  obtain ⟨-, -, -, known, hknown, hle⟩ := (linked j).round _ _ hold
  obtain rfl := Option.some.inj (before.symm.trans hknown)
  omega

theorem Effect.keepsRounds {op : Op} {reply : Except Fault Reply} (linked : Linked s)
    (h : Effect sha256 policy s op reply s') : KeepsRounds s s' := by
  cases h with
  | refused | replayed => exact .of_eq rfl
  | created principal submission j r now token _ record job run unused hjob hrun jobs runs
      outbox =>
    refine .of_set outbox fun old hold => ?_
    obtain ⟨-, -, -, known, hknown, -⟩ := (linked j).round _ _ hold
    exact absurd (hknown.symm.trans unused) (Option.some_ne_none _)
  | reclaimed lease now token _ record job job' run transition deadline touched hcurrent running
      htoken hdeadline expired decided round =>
    obtain ⟨-, -, houtbox⟩ | ⟨-, -, houtbox⟩ := round
    · exact .next linked touched.before houtbox
    · exact .of_eq houtbox
  | retried j availableAt now token _ record job job' run hjob touched failed outbox =>
    exact .next linked touched.before outbox
  | resumed j reference now token _ record job job' current before hcurrent waiting unused
      revised sameCase bare hjob jobs runs outbox => exact .next linked before outbox
  | dispatched mark now _ record job job' run entry before hentry token pending queued hrun hjob
      jobs runs outbox =>
    refine .of_set outbox fun old hold => ?_
    rw [Option.some.inj (hentry.symm.trans hold)]
  | confirmed mark now _ record job entry before hentry token pending notQueued hs =>
    subst hs
    refine .of_set rfl fun old hold => ?_
    rw [Option.some.inj (hentry.symm.trans hold)]
  | abandoned mark availableAt job entry before hentry =>
    refine .of_set rfl fun old hold => ?_
    rw [Option.some.inj (hentry.symm.trans hold)]
  | deferred mark availableAt job entry before hentry =>
    refine .of_set rfl fun old hold => ?_
    rw [Option.some.inj (hentry.symm.trans hold)]
  | claimed | extended | finished | flagged | cancelled | rejected => exact .of_eq ‹_›

structure Accepted where
  actorId : String
  submission : ReviewSubmission
  jobId : UUID
  runId : UUID

def Accepted.key (a : Accepted) : String × OpaqueID :=
  (a.actorId, a.submission.idempotencyKey)

def acceptedBy : Op × Except Fault Reply → Option Accepted
  | (.createJob principal submission jobId runId _ _, .ok (.created _ true)) => some {
      actorId := principal.actor.actorId
      submission := submission
      jobId := jobId
      runId := runId }
  | _ => none

def accepted (calls : List (Op × Except Fault Reply)) : List Accepted :=
  calls.filterMap acceptedBy

/-- A call that accepts no submission writes no idempotency record and adds no job. -/
theorem Effect.unaccepted {op : Op} {reply : Except Fault Reply}
    (h : Effect sha256 policy s op reply s') (quiet : acceptedBy (op, reply) = none) :
    s'.idempotency = s.idempotency ∧
      ∀ j, (s'.jobs.get? j).isSome = (s.jobs.get? j).isSome := by
  have touched : ∀ {j : UUID} {job job' : Job} {run run' : Run},
      Touched s s' j job run job' run' → s'.idempotency = s.idempotency ∧
        ∀ j, (s'.jobs.get? j).isSome = (s.jobs.get? j).isSome := by
    intro j job job' run run' touched
    refine ⟨touched.idempotency, fun k => ?_⟩
    rw [touched.jobs]
    split_ifs with hk
    · rw [hk, touched.before]
      rfl
    · rfl
  cases h with
  | refused | replayed | abandoned | deferred => exact ⟨rfl, fun _ => rfl⟩
  | created => cases quiet
  | claimed | extended | finished | reclaimed | flagged | cancelled | retried | rejected =>
    exact touched ‹_›
  | resumed j reference now token _ record job job' current before hcurrent waiting unused
      revised sameCase bare hjob jobs runs outbox idempotency =>
    refine ⟨idempotency, fun k => ?_⟩
    rw [jobs]
    split_ifs with hk
    · rw [hk, before]
      rfl
    · rfl
  | dispatched mark now _ record job job' run entry before hentry token pending queued hrun hjob
      jobs runs outbox idempotency =>
    refine ⟨idempotency, fun k => ?_⟩
    rw [jobs]
    exact isSome_set _ before _
  | confirmed mark now _ record job entry before hentry token pending notQueued hs =>
    subst hs
    exact ⟨rfl, fun k => isSome_set _ before _⟩

section
variable (sha256)

def Accepted.partition (a : Accepted) : String :=
  idempotencyPartition sha256 a.actorId a.submission.idempotencyKey.text

def Accepted.record (a : Accepted) : IdempotencyRecord where
  principalId := a.actorId
  key := a.submission.idempotencyKey.text
  payloadDigest := submissionDigest sha256 a.submission
  runId := a.runId

structure Booked (s : Store) (a : Accepted) : Prop where
  record : s.idempotency.get? (a.partition sha256) = some (a.record sha256)
  owner : s.runOwner a.runId = some a.jobId
  job : (s.jobs.get? a.jobId).isSome = true
  run : ∃ run, s.runs.get? (a.jobId, a.runId) = some run ∧ run.revision = a.submission.revision
  round : ∃ entry, s.outbox.get? (a.jobId, 1) = some entry ∧ entry.runId = a.runId

structure Submissions (s : Store) (calls : List (Op × Except Fault Reply)) : Prop where
  booked : ∀ a ∈ accepted calls, Booked sha256 s a
  jobs : ∀ j, (s.jobs.get? j).isSome = true → ∃ a ∈ accepted calls, a.jobId = j
  separate : (accepted calls).Pairwise fun a b => a.jobId ≠ b.jobId
  once : (accepted calls).Pairwise fun a b => a.key ≠ b.key

end

/-- The run id a submission draws is new. -/
def DrawsFreshRun (s : Store) : Op → Prop
  | .createJob _ _ _ runId _ _ => ∀ k, s.runs.get? (k, runId) = none
  | _ => True

theorem Booked.kept {a : Accepted} (booked : Booked sha256 s a) (linked : Linked s) (op : Op)
    (record : (step sha256 policy s op).2.idempotency.get? (a.partition sha256) =
      some (a.record sha256))
    (job : ((step sha256 policy s op).2.jobs.get? a.jobId).isSome = true) :
    Booked sha256 (step sha256 policy s op).2 a where
  record := record
  owner := runOwner_of_prefix (step_run_order sha256 policy s op) booked.owner
  job := job
  run := by
    obtain ⟨run, hrun, hrevision⟩ := booked.run
    obtain ⟨run', hrun', hstep⟩ := step_runStep sha256 policy linked op _ _ hrun
    exact ⟨run', hrun', hstep.revision.trans hrevision⟩
  round := by
    obtain ⟨entry, hentry, hrunId⟩ := booked.round
    obtain ⟨entry', hentry', hkeeps⟩ :=
      (step_effect sha256 policy linked op).keepsRounds linked _ _ hentry
    exact ⟨entry', hentry', hkeeps.trans hrunId⟩

theorem createJob_accepted {principal : Principal} {submission : ReviewSubmission} {j r : UUID}
    {now : Int} {token : UUID} {record : JobRecord}
    (h : (step sha256 policy s (.createJob principal submission j r now token)).1 =
      .ok (.created record true)) :
    s.idempotency.get?
        (idempotencyPartition sha256 principal.actor.actorId submission.idempotencyKey.text) =
      none ∧
    (step sha256 policy s (.createJob principal submission j r now token)).2.idempotency =
      s.idempotency.set
        (idempotencyPartition sha256 principal.actor.actorId submission.idempotencyKey.text) {
          principalId := principal.actor.actorId
          key := submission.idempotencyKey.text
          payloadDigest := submissionDigest sha256 submission
          runId := r } := by
  cases hstored : s.idempotency.get?
      (idempotencyPartition sha256 principal.actor.actorId submission.idempotencyKey.text) with
  | some stored =>
    simp only [step, answer, createJob, hstored] at h
    split at h
    · cases h
    split at h
    · cases h
    split at h
    · cases h
    · rename_i job _
      cases hrecord : s.record job <;> simp [hrecord, Except.map] at h
  | none =>
    simp only [step, answer, createJob, hstored] at h ⊢
    cases hrequire : principal.require submission.revision.caseId .review with
    | error fault => simp [hrequire, Except.map] at h
    | ok granted =>
      simp only [hrequire] at h ⊢
      split at h
      · cases h
      · rename_i hunused
        exact ⟨trivial, by rw [if_neg hunused]; rfl⟩

theorem Submissions.quiet {calls : List (Op × Except Fault Reply)} {op : Op}
    (kept : Submissions sha256 s calls) (linked : Linked s)
    (quiet : acceptedBy (op, (step sha256 policy s op).1) = none) :
    Submissions sha256 (step sha256 policy s op).2
      (calls ++ [(op, (step sha256 policy s op).1)]) := by
  obtain ⟨hrecords, hjobs⟩ := (step_effect sha256 policy linked op).unaccepted quiet
  have hsame : accepted (calls ++ [(op, (step sha256 policy s op).1)]) = accepted calls := by
    simp [accepted, quiet]
  refine ⟨?_, ?_, ?_, ?_⟩ <;> simp only [hsame]
  · intro a ha
    have booked := kept.booked a ha
    exact booked.kept linked op (by rw [hrecords]; exact booked.record)
      (by rw [hjobs]; exact booked.job)
  · intro j hj
    exact kept.jobs j (hjobs j ▸ hj)
  · exact kept.separate
  · exact kept.once

theorem Effect.accepted_rows {principal : Principal} {submission : ReviewSubmission}
    {j r : UUID} {now : Int} {token : UUID} {record : JobRecord}
    (h : Effect sha256 policy s (.createJob principal submission j r now token)
      (.ok (.created record true)) s') :
    s.jobs.get? j = none ∧
      (∃ job, ∀ k, s'.jobs.get? k = if k = j then some job else s.jobs.get? k) ∧
      (∃ run, s'.runs = s.runs.set (j, r) run ∧ run.revision = submission.revision) ∧
      s'.outbox.get? (j, 1) = some (.fresh j r 1 token now) := by
  cases h with
  | created principal submission j r now token _ record job run unused hjob hrun jobs runs
      outbox =>
    refine ⟨unused, ⟨job, fun k => ?_⟩, ⟨run, runs, by rw [hrun]⟩, by rw [outbox]; simp⟩
    rw [jobs, Dict.get?_set_set]

theorem Submissions.accept {calls : List (Op × Except Fault Reply)} {principal : Principal}
    {submission : ReviewSubmission} {j r : UUID} {now : Int} {token : UUID} {record : JobRecord}
    (kept : Submissions sha256 s calls) (linked : Linked s)
    (fresh : ∀ k, s.runs.get? (k, r) = none)
    (h : (step sha256 policy s (.createJob principal submission j r now token)).1 =
      .ok (.created record true)) :
    Submissions sha256 (step sha256 policy s (.createJob principal submission j r now token)).2
      (calls ++ [(.createJob principal submission j r now token, .ok (.created record true))]) := by
  obtain ⟨hnone, hrecords⟩ := createJob_accepted h
  have effect := step_effect sha256 policy linked (.createJob principal submission j r now token)
  rw [h] at effect
  obtain ⟨hunused, ⟨job, hjobs⟩, ⟨run, hruns, hrevision⟩, hround⟩ := effect.accepted_rows
  obtain ⟨new, hnew⟩ : ∃ new : Accepted, new = {
      actorId := principal.actor.actorId
      submission := submission
      jobId := j
      runId := r } := ⟨_, rfl⟩
  have hall : accepted (calls ++ [(Op.createJob principal submission j r now token,
      Except.ok (Reply.created record true))]) = accepted calls ++ [new] := by
    simp [accepted, acceptedBy, hnew]
  have otherKey : ∀ a ∈ accepted calls, a.partition sha256 ≠ new.partition sha256 := by
    intro a ha hkey
    rw [hnew] at hkey
    exact Option.some_ne_none _ ((kept.booked a ha).record.symm.trans (hkey ▸ hnone))
  have otherJob : ∀ a ∈ accepted calls, a.jobId ≠ j := by
    rintro a ha rfl
    have hjob := (kept.booked a ha).job
    rw [hunused] at hjob
    cases hjob
  refine ⟨?_, ?_, ?_, ?_⟩ <;> simp only [hall]
  · intro a ha
    obtain ha | rfl := List.mem_append.mp ha |>.imp_right List.mem_singleton.mp
    · have booked := kept.booked a ha
      refine booked.kept linked _ ?_ ?_
      · rw [hrecords, Dict.get?_set_of_ne, booked.record]
        have hne := otherKey a ha
        rw [hnew] at hne
        exact hne
      · rw [hjobs, if_neg (otherJob a ha)]
        exact booked.job
    · subst hnew
      refine ⟨by rw [hrecords]; exact Dict.get?_set_self .., runOwner_new fresh hruns, ?_,
        ⟨run, by rw [hruns]; exact Dict.get?_set_self .., hrevision⟩, _, hround, rfl⟩
      change ((step sha256 policy s (.createJob principal submission j r now token)).2.jobs.get?
        j).isSome = true
      rw [hjobs, if_pos rfl]
      rfl
  · intro k hk
    rw [hjobs] at hk
    split_ifs at hk with hkj
    · exact ⟨new, List.mem_append_right _ (List.mem_singleton_self _), by rw [hnew, hkj]⟩
    · obtain ⟨a, ha, hak⟩ := kept.jobs k hk
      exact ⟨a, List.mem_append_left _ ha, hak⟩
  · refine List.pairwise_append.mpr ⟨kept.separate, List.pairwise_singleton .., ?_⟩
    intro a ha b hb
    rw [List.mem_singleton.mp hb, hnew]
    exact otherJob a ha
  · refine List.pairwise_append.mpr ⟨kept.once, List.pairwise_singleton .., ?_⟩
    intro a ha b hb hkey
    rw [List.mem_singleton.mp hb] at hkey
    obtain ⟨hactor, hid⟩ := Prod.mk.inj hkey
    exact otherKey a ha (by rw [Accepted.partition, Accepted.partition, hactor, hid])

theorem acceptedBy_some {op : Op} {reply : Except Fault Reply} {a : Accepted}
    (h : acceptedBy (op, reply) = some a) : ∃ principal submission j r now token record,
      op = .createJob principal submission j r now token ∧ reply = .ok (.created record true) := by
  unfold acceptedBy at h
  split at h
  · rename_i heq
    obtain ⟨rfl, rfl⟩ := Prod.mk.inj heq
    exact ⟨_, _, _, _, _, _, _, rfl, rfl⟩
  · cases h

theorem run_submissions (ops : List Op) (fresh : Along sha256 policy DrawsFreshRun ops) :
    Submissions sha256 (run sha256 policy {} ops) (history sha256 policy {} ops) := by
  induction ops using List.reverseRecOn with
  | nil =>
    exact ⟨fun _ h => absurd h List.not_mem_nil, fun _ h => absurd h nofun, .nil, .nil⟩
  | append_singleton ops op ih =>
    have kept := ih fresh.prefix
    rw [run_snoc, history_snoc]
    cases haccepted : acceptedBy (op, (step sha256 policy (run sha256 policy {} ops) op).1) with
    | none => exact kept.quiet (run_linked ops) haccepted
    | some a =>
      obtain ⟨principal, submission, j, r, now, token, record, rfl, hreply⟩ :=
        acceptedBy_some haccepted
      have next := kept.accept (run_linked ops) fresh.last hreply
      rwa [← hreply] at next

/-- No two of the texts have one hash. -/
def CollisionFree (sha256 : String → Digest) (texts : List String) : Prop :=
  ∀ a ∈ texts, ∀ b ∈ texts, sha256 a = sha256 b → a = b

def ReviewSubmission.payload (submission : ReviewSubmission) : String :=
  CanonicalJson.dumps (canonicalSubmission submission.revision submission.documents)

def payloadOf : Op → Option String
  | .createJob _ submission _ _ _ _ => some (ReviewSubmission.payload submission)
  | _ => none

def payloads (ops : List Op) : List String := ops.filterMap payloadOf

/-- The same submission but for the order of its documents. -/
def SameSubmission (a b : ReviewSubmission) : Prop :=
  a.revision = b.revision ∧ a.documents.Perm b.documents

structure Replayed (s : Store) (a : Accepted) (principal : Principal)
    (submission : ReviewSubmission) (answer : Outcome Reply) : Prop where
  unchanged : answer.2 = s
  unauthorized : ∀ fault, principal.require submission.revision.caseId .review = .error fault →
    answer.1 = .error (.service .unauthorized)
  same : principal.require submission.revision.caseId .review = .ok () →
    SameSubmission a.submission submission → ∃ job record, s.jobs.get? a.jobId = some job ∧
      s.record job = .ok record ∧ answer.1 = .ok (.created record false)
  other : principal.require submission.revision.caseId .review = .ok () →
    ¬ SameSubmission a.submission submission → answer.1 = .error (.service .conflict)

theorem submissionDigest_eq_iff {a b : ReviewSubmission}
    (free : sha256 (ReviewSubmission.payload a) = sha256 (ReviewSubmission.payload b) →
      ReviewSubmission.payload a = ReviewSubmission.payload b) :
    submissionDigest sha256 a = submissionDigest sha256 b ↔ SameSubmission a b := by
  constructor
  · intro h
    exact (canonicalSubmission_eq_iff a.distinctDocuments).mp
      (CanonicalJson.dumps_injective (free h))
  · intro h
    rw [submissionDigest, submissionDigest,
      (canonicalSubmission_eq_iff a.distinctDocuments).mpr h]

theorem Booked.replayed {a : Accepted} (booked : Booked sha256 s a) (linked : Linked s)
    {principal : Principal} {submission : ReviewSubmission} (j r : UUID) (now : Int)
    (token : UUID) (hkey : (principal.actor.actorId, submission.idempotencyKey) = a.key)
    (free : sha256 (ReviewSubmission.payload a.submission) =
        sha256 (ReviewSubmission.payload submission) →
      ReviewSubmission.payload a.submission = ReviewSubmission.payload submission) :
    Replayed s a principal submission
      (step sha256 policy s (.createJob principal submission j r now token)) := by
  obtain ⟨hactor, hid⟩ := Prod.mk.inj hkey
  obtain ⟨job, hjob⟩ := Option.isSome_iff_exists.mp booked.job
  obtain ⟨record, hrecord⟩ := linked.record_ok hjob
  have hstored := booked.record
  rw [Accepted.partition, ← hactor, ← hid] at hstored
  have hnames : ¬ ((a.record sha256).principalId ≠ principal.actor.actorId ∨
      (a.record sha256).key ≠ submission.idempotencyKey.text) := by
    simp [Accepted.record, hactor, hid]
  have hdigest : (a.record sha256).payloadDigest ≠ submissionDigest sha256 submission ↔
      ¬ SameSubmission a.submission submission :=
    not_congr (submissionDigest_eq_iff free)
  cases hrequire : principal.require submission.revision.caseId .review with
  | error fault =>
    have hfault : fault = .service .unauthorized := by
      unfold Principal.require at hrequire
      split_ifs at hrequire
      exact (Except.error.inj hrequire).symm
    subst hfault
    refine ⟨?_, fun _ _ => ?_, by simp [hrequire], by simp [hrequire]⟩
    · simp only [step, MemoryJobStore.answer, createJob, hstored, checkIdempotency, hrequire]
    · simp only [step, MemoryJobStore.answer, createJob, hstored, checkIdempotency, hrequire]
      rfl
  | ok granted =>
    by_cases hsame : SameSubmission a.submission submission
    · have hanswer : step sha256 policy s (.createJob principal submission j r now token) =
          (.ok (.created record false), s) := by
        have hequal := not_not.mpr hsame
        rw [← hdigest] at hequal
        simp only [step, MemoryJobStore.answer, createJob, hstored, checkIdempotency, hrequire,
          if_neg hnames, if_neg hequal]
        rw [show (a.record sha256).runId = a.runId from rfl, booked.owner]
        simp only [hjob, hrecord]
        rfl
      rw [hanswer]
      exact ⟨rfl, by simp [hrequire], fun _ _ => ⟨job, record, hjob, hrecord, rfl⟩,
        fun _ h => absurd hsame h⟩
    · have hanswer : step sha256 policy s (.createJob principal submission j r now token) =
          (.error (.service .conflict), s) := by
        simp only [step, MemoryJobStore.answer, createJob, hstored, checkIdempotency, hrequire,
          if_neg hnames, if_pos (hdigest.mpr hsame)]
        rfl
      rw [hanswer]
      exact ⟨rfl, by simp [hrequire], fun _ h => absurd h hsame, fun _ _ => rfl⟩

/-- Idempotent submission along the calls `ops`. -/
structure Idempotent (sha256 : String → Digest) (policy : JobPolicy) (ops : List Op) : Prop where
  /-- One principal and key are accepted once, and every job was accepted once. -/
  once : (accepted (history sha256 policy {} ops)).Pairwise fun a b => a.key ≠ b.key
  separate : (accepted (history sha256 policy {} ops)).Pairwise fun a b => a.jobId ≠ b.jobId
  jobs : ∀ j job, (run sha256 policy {} ops).jobs.get? j = some job →
    ∃ a ∈ accepted (history sha256 policy {} ops), a.jobId = j
  booked : ∀ a ∈ accepted (history sha256 policy {} ops),
    Booked sha256 (run sha256 policy {} ops) a
  /-- Besides the initial run, a job has one run for each human resume. -/
  runs : ∀ a ∈ accepted (history sha256 policy {} ops),
    runsOf (run sha256 policy {} ops) a.jobId =
      1 + resumesOn a.jobId (history sha256 policy {} ops)
  replayed : ∀ earlier later principal submission j r now token,
    ops = earlier ++ .createJob principal submission j r now token :: later →
    ∀ a ∈ accepted (history sha256 policy {} earlier),
      (principal.actor.actorId, submission.idempotencyKey) = a.key →
      Replayed (run sha256 policy {} earlier) a principal submission
        (step sha256 policy (run sha256 policy {} earlier)
          (.createJob principal submission j r now token))

theorem payloadOf_accepted {op : Op} {reply : Except Fault Reply} {a : Accepted}
    (h : acceptedBy (op, reply) = some a) :
    payloadOf op = some (ReviewSubmission.payload a.submission) := by
  unfold acceptedBy at h
  split at h
  · rename_i heq
    obtain ⟨rfl, rfl⟩ := Prod.mk.inj heq
    obtain rfl := Option.some.inj h
    rfl
  · cases h

theorem payload_mem_of_accepted {ops : List Op} {a : Accepted}
    (h : a ∈ accepted (history sha256 policy s ops)) :
    ReviewSubmission.payload a.submission ∈ payloads ops := by
  induction ops generalizing s with
  | nil => exact absurd h List.not_mem_nil
  | cons op ops ih =>
    rw [payloads, List.mem_filterMap]
    simp only [history, accepted, List.filterMap_cons] at h
    split at h
    · obtain ⟨call, hcall, hpayload⟩ := List.mem_filterMap.mp (ih h)
      exact ⟨call, List.mem_cons_of_mem _ hcall, hpayload⟩
    · rename_i first hfirst
      obtain rfl | h := List.mem_cons.mp h
      · exact ⟨op, List.mem_cons_self .., payloadOf_accepted hfirst⟩
      · obtain ⟨call, hcall, hpayload⟩ := List.mem_filterMap.mp (ih h)
        exact ⟨call, List.mem_cons_of_mem _ hcall, hpayload⟩

theorem run_submission_idempotent (ops : List Op)
    (fresh : Along sha256 policy DrawsFreshRun ops)
    (free : CollisionFree sha256 (payloads ops)) : Idempotent sha256 policy ops := by
  have kept := run_submissions ops fresh
  refine ⟨kept.once, kept.separate, fun j job hjob => kept.jobs j (by rw [hjob]; rfl),
    kept.booked, fun a ha => ?_, ?_⟩
  · obtain ⟨-, hruns⟩ := run_charged sha256 policy linked_empty ops a.jobId
    obtain ⟨job, hjob⟩ := Option.isSome_iff_exists.mp (kept.booked a ha).job
    rw [jobsOf_eq hjob] at hruns
    change _ + 0 = 0 + 1 + _ at hruns
    omega
  · rintro earlier later principal submission j r now token rfl a ha hkey
    have linked : Linked (run sha256 policy {} earlier) := run_linked earlier
    refine ((run_submissions earlier fresh.prefix).booked a ha).replayed linked j r now token hkey
      (free _ ?_ _ ?_)
    · simp only [payloads, List.filterMap_append, List.mem_append]
      exact .inl (payload_mem_of_accepted ha)
    · simp only [payloads, List.filterMap_append, List.mem_append]
      exact .inr (List.mem_filterMap.mpr ⟨_, List.mem_cons_self .., rfl⟩)

def sampleReordered : ReviewSubmission where
  revision := sampleRevision 0
  documents := [sampleDocument ⟨"forms", forms_text⟩ .forms,
    sampleDocument ⟨"criteria", criteria_text⟩ .criteria]
  idempotencyKey := ⟨"key-1", sampleKey_text⟩
  minDocuments := by decide
  distinctDocuments := by decide
  sameCase := by decide

def sampleSubmissions : List Op :=
  [sampleCreate, .createJob samplePrincipal sampleReordered ⟨5⟩ ⟨6⟩ 1 ⟨11⟩]

/-- A hash that tells the payload of the small job from every other text. -/
def sampleHash (text : String) : Digest :=
  if text = ReviewSubmission.payload sampleSubmission then sampleDigest else otherDigest

theorem sampleReordered_payload :
    ReviewSubmission.payload sampleReordered = ReviewSubmission.payload sampleSubmission :=
  congrArg CanonicalJson.dumps ((canonicalSubmission_eq_iff sampleReordered.distinctDocuments).mpr
    ⟨rfl, .swap ..⟩)

theorem unused_of_keys {r : UUID} (h : ∀ key ∈ s.runs.keys, key.2 ≠ r) (k : UUID) :
    s.runs.get? (k, r) = none := by
  by_contra hsome
  refine h (k, r) ((Dict.mem_keys _ _).mpr ?_) rfl
  exact Option.isSome_iff_ne_none.mpr hsome

theorem sampleCreate_fresh : Along sampleHash {} DrawsFreshRun [sampleCreate] :=
  Along.nil.snoc (unused_of_keys (by decide))

theorem sampleSubmissions_fresh : Along sampleHash {} DrawsFreshRun sampleSubmissions :=
  sampleCreate_fresh.snoc (unused_of_keys (by decide +kernel))

theorem sampleSubmissions_free : CollisionFree sampleHash (payloads sampleSubmissions) := by
  simp [CollisionFree, sampleSubmissions, payloads, payloadOf, sampleCreate,
    sampleReordered_payload]

theorem run_submission_idempotent_sample : Idempotent sampleHash {} sampleSubmissions :=
  run_submission_idempotent sampleSubmissions sampleSubmissions_fresh sampleSubmissions_free

/-- The caller of the small job after the review permission was taken away. -/
def sampleStranger : Principal := { samplePrincipal with permissions := [] }

/-- An equal replay by a caller without the permission gets no job. -/
theorem replay_needs_permission :
    ¬ ∀ earlier principal submission j r now token,
      Along sampleHash {} DrawsFreshRun
        (earlier ++ [.createJob principal submission j r now token]) →
      CollisionFree sampleHash
        (payloads (earlier ++ [.createJob principal submission j r now token])) →
      opaqueText principal.actor.actorId = true →
      ∀ a ∈ accepted (history sampleHash {} {} earlier),
        (principal.actor.actorId, submission.idempotencyKey) = a.key →
        SameSubmission a.submission submission →
        ∃ record, (step sampleHash {} (run sampleHash {} {} earlier)
          (.createJob principal submission j r now token)).1 = .ok (.created record false) := by
  intro h
  have booked := (run_submissions [sampleCreate] sampleCreate_fresh).booked _
    (List.mem_singleton_self _)
  have replayed : Replayed (run sampleHash {} {} [sampleCreate]) _ sampleStranger sampleReordered
      (step sampleHash {} (run sampleHash {} {} [sampleCreate])
        (.createJob sampleStranger sampleReordered ⟨5⟩ ⟨6⟩ 1 ⟨11⟩)) :=
    booked.replayed (run_linked [sampleCreate]) ⟨5⟩ ⟨6⟩ 1 ⟨11⟩ rfl fun _ =>
      sampleReordered_payload.symm
  obtain ⟨record, hrecord⟩ := h [sampleCreate] sampleStranger sampleReordered ⟨5⟩ ⟨6⟩ 1 ⟨11⟩
    (sampleCreate_fresh.snoc (unused_of_keys (by decide +kernel)))
    (by simp [CollisionFree, payloads, payloadOf, sampleCreate, sampleReordered_payload])
    (by decide) _ (List.mem_singleton_self _) rfl ⟨rfl, .swap ..⟩
  rw [replayed.unauthorized _ rfl] at hrecord
  cases hrecord

end AppraisalReview.MemoryJobStore
