import AppraisalReview.JobStepEffects

set_option autoImplicit false

/-!
# The tables of every reachable store are linked

A call rewrites rows of the one job it names, so each invariant is checked at
that job and carried over at all others.
-/
namespace AppraisalReview.MemoryJobStore

variable {sha256 : String → Digest} {policy : JobPolicy} {s s' : Store}

def Op.target : Op → UUID
  | .createJob _ _ jobId _ _ _ => jobId
  | .claim jobId _ _ _ _ _ => jobId
  | .heartbeat attempt _ _ => attempt.jobId
  | .finish attempt _ _ _ _ _ => attempt.jobId
  | .expireLease lease _ _ => lease.jobId
  | .cancel jobId _ => jobId
  | .scheduleRetry jobId _ _ _ => jobId
  | .rejectHumanTask jobId _ _ _ => jobId
  | .resumeAfterHuman jobId _ _ _ => jobId
  | .markDispatched record _ => record.jobId
  | .rescheduleDispatch record _ => record.jobId

/-- The job, run and outbox rows of one job are the same in both stores. -/
structure SameRows (s s' : Store) (j : UUID) : Prop where
  job : s'.jobs.get? j = s.jobs.get? j
  run : ∀ r, s'.runs.get? (j, r) = s.runs.get? (j, r)
  round : ∀ n, s'.outbox.get? (j, n) = s.outbox.get? (j, n)

theorem Touched.stored {j : UUID} {job job' : Job} {run run' : Run}
    (touched : Touched s s' j job run job' run') : s'.jobs.get? j = some job' := by
  rw [touched.jobs, if_pos rfl]

theorem Touched.sameRows {j k : UUID} {job job' : Job} {run run' : Run}
    (touched : Touched s s' j job run job' run') (hne : k ≠ j)
    (round : ∀ n, s'.outbox.get? (k, n) = s.outbox.get? (k, n)) : SameRows s s' k where
  job := by rw [touched.jobs, if_neg hne]
  run r := by rw [touched.runs, if_neg (by simp [hne])]
  round := round

theorem Touched.runKeys {j : UUID} {job job' : Job} {run run' : Run}
    (touched : Touched s s' j job run job' run') (r : UUID) :
    (s'.runs.get? (j, r)).isSome = (s.runs.get? (j, r)).isSome := by
  rw [touched.runs]
  split_ifs with hr
  · rw [hr, touched.current]
    rfl
  · rfl

theorem isSome_set {κ ν : Type} [DecidableEq κ] (table : Dict κ ν) {key : κ} {old new : ν}
    (h : table.get? key = some old) (key' : κ) :
    ((table.set key new).get? key').isSome = (table.get? key').isSome := by
  rw [Dict.get?_set]
  split_ifs with hkey
  · rw [hkey, h]
    rfl
  · rfl

theorem outbox_set_ne {ν : Type} (table : Dict (UUID × ℕ) ν) {j k : UUID} (hne : k ≠ j)
    (n m : ℕ) (entry : ν) : (table.set (j, n) entry).get? (k, m) = table.get? (k, m) :=
  Dict.get?_set_of_ne _ _ (by simp [hne])

theorem Effect.sameRows {op : Op} {reply : Except Fault Reply}
    (h : Effect sha256 policy s op reply s') {k : UUID} (hne : k ≠ op.target) :
    SameRows s s' k := by
  cases h with
  | refused | replayed => exact ⟨rfl, fun _ => rfl, fun _ => rfl⟩
  | created principal submission j r now token _ record job run unused hjob hrun jobs runs
      outbox =>
    change k ≠ j at hne
    refine ⟨?_, fun r' => ?_, fun n => ?_⟩
    · rw [jobs, Dict.get?_set_set, if_neg hne]
    · rw [runs, Dict.get?_set_of_ne _ _ (by simpa using fun h => absurd h hne)]
    · rw [outbox, outbox_set_ne _ hne]
  | claimed j r owner attemptId leaseSeconds now _ job run attempt hattempt touched hcurrent
      claimable outbox => exact touched.sameRows hne fun n => by rw [outbox]
  | extended attempt leaseSeconds now _ job run touched hcurrent holds outbox =>
    exact touched.sameRows hne fun n => by rw [outbox]
  | finished attempt event now problem openTaskIds result _ record job run transition version
      touched hcurrent holds finishes decided explained published outbox =>
    exact touched.sameRows hne fun n => by rw [outbox]
  | reclaimed lease now token _ record job job' run transition deadline touched hcurrent running
      htoken hdeadline expired decided round =>
    change k ≠ lease.jobId at hne
    refine touched.sameRows hne fun n => ?_
    obtain ⟨-, -, houtbox⟩ | ⟨-, -, houtbox⟩ := round
    · rw [houtbox, outbox_set_ne _ hne]
    · rw [houtbox]
  | flagged j now _ record job run touched running outbox =>
    exact touched.sameRows hne fun n => by rw [outbox]
  | cancelled j now _ record job job' run hjob touched cancellable outbox =>
    exact touched.sameRows hne fun n => by rw [outbox]
  | retried j availableAt now token _ record job job' run hjob touched failed outbox =>
    change k ≠ j at hne
    exact touched.sameRows hne fun n => by rw [outbox, outbox_set_ne _ hne]
  | rejected j r task now _ record job job' run status hjob touched hcurrent waiting member
      hstatus outbox => exact touched.sameRows hne fun n => by rw [outbox]
  | resumed j reference now token _ record job job' current before hcurrent waiting unused
      revised sameCase bare hjob jobs runs outbox =>
    change k ≠ j at hne
    refine ⟨?_, fun r => ?_, fun n => ?_⟩
    · rw [jobs, if_neg hne]
    · rw [runs, Dict.get?_set_of_ne _ _ (by simpa using fun h => absurd h hne)]
    · rw [outbox, outbox_set_ne _ hne]
  | dispatched mark now _ record job job' run entry before hentry token pending queued hrun hjob
      jobs runs outbox =>
    change k ≠ mark.jobId at hne
    refine ⟨?_, fun r => ?_, fun n => ?_⟩
    · rw [jobs, Dict.get?_set_of_ne _ _ hne]
    · rw [runs, Dict.get?_set_of_ne _ _ (by simpa using fun h => absurd h hne)]
    · rw [outbox, outbox_set_ne _ hne]
  | confirmed mark now _ record job entry before hentry token pending notQueued hs =>
    subst hs
    exact ⟨Dict.get?_set_of_ne _ _ hne, fun _ => rfl, fun n => outbox_set_ne _ hne ..⟩
  | abandoned mark availableAt job entry =>
    exact ⟨rfl, fun _ => rfl, fun n => outbox_set_ne _ hne ..⟩
  | deferred mark availableAt job entry =>
    exact ⟨rfl, fun _ => rfl, fun n => outbox_set_ne _ hne ..⟩

theorem Effect.claim_target {op : Op} {attempt : ClaimedAttempt}
    (h : Effect sha256 policy s op (.ok (.claimed attempt)) s') : attempt.jobId = op.target := by
  cases h with
  | claimed j r owner attemptId leaseSeconds now _ job run attempt hattempt => rw [hattempt]; rfl

theorem LinkedAt.of_sameRows {j : UUID} (linked : LinkedAt s j) (same : SameRows s s' j) :
    LinkedAt s' j where
  jobId := by simpa only [same.job] using linked.jobId
  runId := by simpa only [same.run] using linked.runId
  owner := by simpa only [same.job, same.run] using linked.owner
  current := by simpa only [same.job, same.run] using linked.current
  counters := by simpa only [same.job] using linked.counters
  round := by simpa only [same.job, same.run, same.round] using linked.round
  leased := by simpa only [same.job, same.run] using linked.leased
  idle := by simpa only [same.job, same.run] using linked.idle

structure Kept (j : UUID) (job job' : Job) (run run' : Run) : Prop where
  jobId : job'.jobId = job.jobId
  currentRunId : job'.currentRunId = job.currentRunId
  runId : run'.runId = run.runId
  attempts : job.attemptCount ≤ job'.attemptCount
  takeovers : job.leaseTakeoverCount ≤ job'.leaseTakeoverCount
  rounds : job.outboxSeq ≤ job'.outboxSeq
  leased : Leased job' run'

theorem Touched.linkedAt {j : UUID} {job job' : Job} {run run' : Run} (linked : LinkedAt s j)
    (touched : Touched s s' j job run job' run') (kept : Kept j job job' run run')
    (round : ∀ n entry, s'.outbox.get? (j, n) = some entry →
      s.outbox.get? (j, n) = some entry ∨
        (entry.jobId = j ∧ entry.outboxSeq = n ∧ entry.runId = job.currentRunId ∧
          n ≤ job'.outboxSeq)) : LinkedAt s' j := by
  have hjobs := touched.stored
  have hcurrent : s'.runs.get? (j, job.currentRunId) = some run' := by simp [touched.runs]
  have hruns : ∀ r, (∃ run, s.runs.get? (j, r) = some run) →
      ∃ run, s'.runs.get? (j, r) = some run := by
    rintro r ⟨old, hold⟩
    rw [touched.runs]
    split_ifs
    · exact ⟨run', rfl⟩
    · exact ⟨old, hold⟩
  refine ⟨?_, ?_, fun _ _ _ => ⟨job', hjobs⟩, ?_, ?_, ?_, ?_, ?_⟩
  · rintro _ hjob
    obtain rfl := Option.some.inj (hjobs.symm.trans hjob)
    rw [kept.jobId]
    exact linked.jobId _ touched.before
  · intro r stored hstored
    rw [touched.runs] at hstored
    split_ifs at hstored with hr
    · obtain rfl := Option.some.inj hstored
      rw [kept.runId, (Prod.mk.inj hr).2]
      exact linked.runId _ _ touched.current
    · exact linked.runId _ _ hstored
  · rintro _ hjob
    obtain rfl := Option.some.inj (hjobs.symm.trans hjob)
    rw [kept.currentRunId]
    exact ⟨run', hcurrent⟩
  · rintro _ hjob
    obtain rfl := Option.some.inj (hjobs.symm.trans hjob)
    obtain ⟨hattempts, htakeovers⟩ := linked.counters _ touched.before
    exact ⟨hattempts.trans kept.attempts, htakeovers.trans kept.takeovers⟩
  · intro n entry hentry
    obtain hold | ⟨hjobId, hseq, hrunId, hle⟩ := round n entry hentry
    · obtain ⟨hjobId, hseq, hrun, stored, hstored, hle⟩ := linked.round _ _ hold
      obtain rfl := Option.some.inj (touched.before.symm.trans hstored)
      exact ⟨hjobId, hseq, hruns _ hrun, job', hjobs, hle.trans kept.rounds⟩
    · exact ⟨hjobId, hseq, hruns _ ⟨run, hrunId ▸ touched.current⟩, job', hjobs, hle⟩
  · rintro _ stored hjob hstored
    obtain rfl := Option.some.inj (hjobs.symm.trans hjob)
    rw [kept.currentRunId] at hstored
    obtain rfl := Option.some.inj (hcurrent.symm.trans hstored)
    exact kept.leased
  · rintro _ r stored hjob hstored hne
    obtain rfl := Option.some.inj (hjobs.symm.trans hjob)
    rw [kept.currentRunId] at hne
    rw [touched.runs, if_neg (by simpa using hne)] at hstored
    exact linked.idle _ _ _ touched.before hstored hne

/-- Rows of the outbox that are unchanged, or one fresh round of the current run. -/
theorem fresh_round {j r token : UUID} {seq : ℕ} {availableAt : Int}
    (outbox : s'.outbox = s.outbox.set (j, seq) (.fresh j r seq token availableAt)) (n : ℕ)
    (entry : Outbox) (h : s'.outbox.get? (j, n) = some entry) :
    s.outbox.get? (j, n) = some entry ∨
      (entry.jobId = j ∧ entry.outboxSeq = n ∧ entry.runId = r ∧ n ≤ seq) := by
  rw [outbox, Dict.get?_set] at h
  split_ifs at h with hn
  · obtain rfl := Option.some.inj h
    obtain rfl := (Prod.mk.inj hn).2
    exact .inr ⟨rfl, rfl, rfl, Nat.le_refl _⟩
  · exact .inl h

theorem same_round (outbox : s'.outbox = s.outbox) {P : ℕ → Outbox → Prop} {j : UUID} (n : ℕ)
    (entry : Outbox) (h : s'.outbox.get? (j, n) = some entry) :
    s.outbox.get? (j, n) = some entry ∨ P n entry :=
  .inl (outbox ▸ h)

def Job.identity (job : Job) : UUID × UUID × Int × Int × ℕ × Bool :=
  (job.jobId, job.currentRunId, job.attemptCount, job.leaseTakeoverCount, job.outboxSeq,
    job.status = .running)

def Run.identity (run : Run) : UUID × Option UUID × Option Int × Option UUID :=
  (run.runId, run.leaseOwner, run.leaseExpiresAt, run.attemptId)

def Outbox.identity (entry : Outbox) : UUID × UUID × ℕ :=
  (entry.jobId, entry.runId, entry.outboxSeq)

theorem exists_of_map_eq {α β : Type} {f : α → β} {x y : Option α} (h : y.map f = x.map f)
    {b : α} (hb : y = some b) : ∃ a, x = some a ∧ f a = f b := by
  rw [hb, Option.map_some] at h
  obtain ⟨a, ha, hf⟩ := Option.map_eq_some_iff.mp h.symm
  exact ⟨a, ha, hf⟩

theorem LinkedAt.of_identity {j : UUID} (linked : LinkedAt s j)
    (jobs : (s'.jobs.get? j).map Job.identity = (s.jobs.get? j).map Job.identity)
    (runs : ∀ r, (s'.runs.get? (j, r)).map Run.identity = (s.runs.get? (j, r)).map Run.identity)
    (outbox : ∀ n, (s'.outbox.get? (j, n)).map Outbox.identity =
      (s.outbox.get? (j, n)).map Outbox.identity) : LinkedAt s' j where
  jobId job h := by
    obtain ⟨old, hold, hid⟩ := exists_of_map_eq jobs h
    simp only [Job.identity, Prod.mk.injEq] at hid
    rw [← hid.1]
    exact linked.jobId _ hold
  runId r run h := by
    obtain ⟨old, hold, hid⟩ := exists_of_map_eq (runs r) h
    simp only [Run.identity, Prod.mk.injEq] at hid
    rw [← hid.1]
    exact linked.runId _ _ hold
  owner r run h := by
    obtain ⟨old, hold, -⟩ := exists_of_map_eq (runs r) h
    obtain ⟨job, hjob⟩ := linked.owner _ _ hold
    obtain ⟨job', hjob', -⟩ := exists_of_map_eq jobs.symm hjob
    exact ⟨job', hjob'⟩
  current job h := by
    obtain ⟨old, hold, hid⟩ := exists_of_map_eq jobs h
    simp only [Job.identity, Prod.mk.injEq] at hid
    obtain ⟨run, hrun⟩ := linked.current _ hold
    obtain ⟨run', hrun', -⟩ := exists_of_map_eq (runs _).symm hrun
    exact ⟨run', hid.2.1 ▸ hrun'⟩
  counters job h := by
    obtain ⟨old, hold, hid⟩ := exists_of_map_eq jobs h
    simp only [Job.identity, Prod.mk.injEq] at hid
    rw [← hid.2.2.1, ← hid.2.2.2.1]
    exact linked.counters _ hold
  round n entry h := by
    obtain ⟨old, hold, hid⟩ := exists_of_map_eq (outbox n) h
    simp only [Outbox.identity, Prod.mk.injEq] at hid
    obtain ⟨hjobId, hseq, ⟨run, hrun⟩, job, hjob, hle⟩ := linked.round _ _ hold
    obtain ⟨run', hrun', -⟩ := exists_of_map_eq (runs _).symm hrun
    obtain ⟨job', hjob', hid'⟩ := exists_of_map_eq jobs.symm hjob
    simp only [Job.identity, Prod.mk.injEq] at hid'
    exact ⟨hid.1 ▸ hjobId, hid.2.2 ▸ hseq, ⟨run', hid.2.1 ▸ hrun'⟩, job', hjob', by omega⟩
  leased job run h hrun := by
    obtain ⟨old, hold, hid⟩ := exists_of_map_eq jobs h
    obtain ⟨run', hrun', hid'⟩ := exists_of_map_eq (runs _) hrun
    simp only [Job.identity, Run.identity, Prod.mk.injEq, decide_eq_decide] at hid hid'
    obtain ⟨hheld, hunleased⟩ := linked.leased _ _ hold (hid.2.1 ▸ hrun')
    simp only [Run.held, Run.unleased, hid'] at hheld hunleased
    exact ⟨fun h => hheld (hid.2.2.2.2.2.mpr h), fun h => hunleased (mt hid.2.2.2.2.2.mp h)⟩
  idle job r run h hrun hne := by
    obtain ⟨old, hold, hid⟩ := exists_of_map_eq jobs h
    obtain ⟨run', hrun', hid'⟩ := exists_of_map_eq (runs r) hrun
    simp only [Job.identity, Run.identity, Prod.mk.injEq] at hid hid'
    rw [Run.unleased, ← hid'.2.1, ← hid'.2.2.1, ← hid'.2.2.2]
    exact linked.idle _ _ _ hold hrun' (hid.2.1 ▸ hne)

theorem LinkedAt.started {j r token : UUID} {now : Int} {job : Job} {run : Run}
    (hjobId : job.jobId = j) (hcurrent : job.currentRunId = r)
    (counters : 0 ≤ job.attemptCount ∧ 0 ≤ job.leaseTakeoverCount) (hrunId : run.runId = r)
    (leased : Leased job run)
    (others : ∀ r' stored, s.runs.get? (j, r') = some stored →
      r' ≠ r ∧ stored.runId = r' ∧ stored.unleased)
    (rounds : ∀ n entry, s.outbox.get? (j, n) = some entry →
      entry.jobId = j ∧ entry.outboxSeq = n ∧ (∃ run, s.runs.get? (j, entry.runId) = some run) ∧
        n ≤ job.outboxSeq)
    (jobs : s'.jobs.get? j = some job) (runs : s'.runs = s.runs.set (j, r) run)
    (outbox : s'.outbox = s.outbox.set (j, job.outboxSeq) (.fresh j r job.outboxSeq token now)) :
    LinkedAt s' j := by
  have onlyJob : ∀ stored, s'.jobs.get? j = some stored → stored = job := fun stored h =>
    Option.some.inj (h.symm.trans jobs)
  have hrun : s'.runs.get? (j, r) = some run := by simp [runs]
  have rows : ∀ r' stored, s'.runs.get? (j, r') = some stored →
      (r' = r ∧ stored = run) ∨ s.runs.get? (j, r') = some stored := by
    intro r' stored h
    rw [runs, Dict.get?_set] at h
    split_ifs at h with hr
    · exact .inl ⟨(Prod.mk.inj hr).2, (Option.some.inj h).symm⟩
    · exact .inr h
  refine ⟨?_, ?_, fun _ _ _ => ⟨job, jobs⟩, ?_, ?_, ?_, ?_, ?_⟩
  · intro stored h
    rw [onlyJob stored h, hjobId]
  · intro r' stored h
    obtain ⟨rfl, rfl⟩ | hold := rows r' stored h
    · exact hrunId
    · exact (others r' stored hold).2.1
  · intro stored h
    rw [onlyJob stored h, hcurrent]
    exact ⟨run, hrun⟩
  · intro stored h
    rw [onlyJob stored h]
    exact counters
  · intro n entry h
    obtain hold | ⟨hentryJob, hn, hentryRun, hle⟩ := fresh_round outbox n entry h
    · obtain ⟨hentryJob, hn, ⟨old, hold⟩, hle⟩ := rounds n entry hold
      refine ⟨hentryJob, hn, ⟨old, ?_⟩, job, jobs, hle⟩
      rw [runs, Dict.get?_set_of_ne _ _ (by simpa using (others _ _ hold).1)]
      exact hold
    · exact ⟨hentryJob, hn, ⟨run, hentryRun ▸ hrun⟩, job, jobs, hle⟩
  · intro stored other h hother
    rw [onlyJob stored h] at hother ⊢
    rw [hcurrent] at hother
    obtain rfl := Option.some.inj (hrun.symm.trans hother)
    exact leased
  · intro stored r' other h hother hne
    rw [onlyJob stored h, hcurrent] at hne
    obtain ⟨rfl, -⟩ | hold := rows r' other hother
    · exact absurd rfl hne
    · exact (others r' other hold).2.2

theorem Leased.idle {job job' : Job} {run run' : Run} (h : Leased job run)
    (hstopped : job.status ≠ .running) (hstopped' : job'.status ≠ .running)
    (hlease : run'.identity = run.identity) : Leased job' run' := by
  simp only [Run.identity, Prod.mk.injEq] at hlease
  refine ⟨fun hrunning => absurd hrunning hstopped', fun _ => ?_⟩
  rw [Run.unleased, hlease.2.1, hlease.2.2.1, hlease.2.2.2]
  exact h.stopped hstopped

theorem Leased.of_unleased {job : Job} {run : Run} (hstopped : job.status ≠ .running)
    (h : run.unleased) : Leased job run :=
  ⟨fun hrunning => absurd hrunning hstopped, fun _ => h⟩

theorem Leased.settled {job' : Job} (run : Run) (status : JobStatus) (version : ℕ)
    (hstopped : job'.status ≠ .running) :
    Leased job' { run.settled status with resultVersion := version } :=
  .of_unleased hstopped ⟨rfl, rfl, rfl⟩

theorem Effect.linkedAt {op : Op} {reply : Except Fault Reply} (linked : Linked s)
    (h : Effect sha256 policy s op reply s') : LinkedAt s' op.target := by
  cases h with
  | refused | replayed => exact linked _
  | created principal submission j r now token _ record job run unused hjob hrun jobs runs
      outbox =>
    have stored : s'.jobs.get? j = some job := by
      rw [jobs]
      exact Dict.get?_set_self ..
    have outbox' : s'.outbox =
        s.outbox.set (j, job.outboxSeq) (.fresh j r job.outboxSeq token now) := by
      rw [outbox, hjob]
    subst hjob hrun
    refine LinkedAt.started rfl rfl ⟨Int.le_refl _, Int.le_refl _⟩ rfl
      (.of_unleased (by simp) ⟨rfl, rfl, rfl⟩) (fun r' old hold => ?_) (fun n entry hold => ?_)
      stored runs outbox'
    · obtain ⟨other, hother⟩ := (linked j).owner _ _ hold
      simp [unused] at hother
    · obtain ⟨-, -, -, other, hother, -⟩ := (linked j).round _ _ hold
      simp [unused] at hother
  | claimed j r owner attemptId leaseSeconds now _ job run attempt hattempt touched hcurrent
      claimable outbox =>
    exact touched.linkedAt (linked _) ⟨rfl, rfl, rfl, Int.le_refl _, Int.le_refl _, Nat.le_refl _,
      fun _ => ⟨rfl, rfl, rfl⟩, fun h => absurd rfl h⟩ (same_round outbox)
  | extended attempt leaseSeconds now _ job run touched hcurrent holds outbox =>
    obtain ⟨howner, -, hattemptId⟩ :=
      ((linked _).leased _ _ touched.before touched.current).running holds.running
    exact touched.linkedAt (linked _) ⟨rfl, rfl, rfl, Int.le_refl _, Int.le_refl _, Nat.le_refl _,
      fun _ => ⟨howner, rfl, hattemptId⟩, fun h => absurd holds.running h⟩ (same_round outbox)
  | finished attempt event now problem openTaskIds result _ record job run transition version
      touched hcurrent holds finishes decided explained published outbox =>
    have outcome := nextState_finish finishes decided
    have hnonneg := outcome.nonnegative
    exact touched.linkedAt (linked _)
      ⟨rfl, rfl, rfl, by simp only [Job.finished]; omega, Int.le_refl _, Nat.le_refl _,
        .settled run _ version outcome.stopped⟩ (same_round outbox)
  | reclaimed lease now token _ record job job' run transition deadline touched hcurrent running
      htoken hdeadline expired decided round =>
    obtain ⟨hdelta, hstopped, -⟩ := nextState_leaseExpired_stops decided
    obtain ⟨-, rfl, houtbox⟩ | ⟨-, rfl, houtbox⟩ := round
    · exact touched.linkedAt (linked _)
        ⟨rfl, rfl, rfl, Int.le_refl _, by simp only [Job.reclaimed]; omega, Nat.le_succ _,
          .settled run _ run.resultVersion hstopped⟩
        (by rw [← hcurrent] at houtbox; exact fresh_round houtbox)
    · exact touched.linkedAt (linked _)
        ⟨rfl, rfl, rfl, Int.le_refl _, by simp only [Job.reclaimed]; omega, Nat.le_refl _,
          .settled run _ run.resultVersion hstopped⟩ (same_round houtbox)
  | flagged j now _ record job run touched running outbox =>
    have leased := (linked _).leased _ _ touched.before touched.current
    exact touched.linkedAt (linked _) ⟨rfl, rfl, rfl, Int.le_refl _, Int.le_refl _, Nat.le_refl _,
      leased.running, leased.stopped⟩ (same_round outbox)
  | cancelled j now _ record job job' run hjob touched cancellable outbox =>
    subst hjob
    exact touched.linkedAt (linked _) ⟨rfl, rfl, rfl, Int.le_refl _, Int.le_refl _, Nat.le_refl _,
      .settled run _ run.resultVersion (by rintro ⟨⟩)⟩ (same_round outbox)
  | retried j availableAt now token _ record job job' run hjob touched failed outbox =>
    subst hjob
    have leased := (linked _).leased _ _ touched.before touched.current
    exact touched.linkedAt (linked _) ⟨rfl, rfl, rfl, Int.le_refl _, Int.le_refl _, Nat.le_succ _,
      leased.idle (by simp [failed]) (by rintro ⟨⟩) rfl⟩ (fresh_round outbox)
  | rejected j r task now _ record job job' run status hjob touched hcurrent waiting member
      hstatus outbox =>
    subst hjob
    have leased := (linked _).leased _ _ touched.before touched.current
    have hstopped : status ≠ .running := by
      obtain ⟨rfl, -⟩ | ⟨rfl, -⟩ := hstatus <;> rintro ⟨⟩
    exact touched.linkedAt (linked _) ⟨rfl, rfl, rfl, Int.le_refl _, Int.le_refl _, Nat.le_refl _,
      leased.idle (by simp [waiting]) hstopped rfl⟩ (same_round outbox)
  | resumed j reference now token _ record job job' current before hcurrent waiting unused
      revised sameCase bare hjob jobs runs outbox =>
    have leased := (linked j).leased _ _ before hcurrent
    have hjobId := (linked j).jobId _ before
    have hcounters := (linked j).counters _ before
    have stored : s'.jobs.get? j = some job' := by simp [jobs]
    have outbox' : s'.outbox = s.outbox.set (j, job'.outboxSeq)
        (.fresh j reference.runId job'.outboxSeq token now) := by
      rw [outbox, hjob]
    refine LinkedAt.started ?_ (by rw [hjob]) ?_ (by rfl)
      (.of_unleased (by simp [hjob]) ⟨by rfl, by rfl, by rfl⟩) (fun r old hold => ?_)
      (fun n entry hold => ?_) stored runs outbox'
    · rw [hjob]
      exact hjobId
    · rw [hjob]
      exact hcounters
    · refine ⟨?_, (linked j).runId _ _ hold, ?_⟩
      · rintro rfl
        exact Option.some_ne_none _ (hold.symm.trans unused)
      by_cases hr : r = job.currentRunId
      · subst hr
        obtain rfl := Option.some.inj (hcurrent.symm.trans hold)
        exact leased.stopped (by simp [waiting])
      · exact (linked j).idle _ _ _ before hold hr
    · obtain ⟨hjobId, hn, hrun, old, hold', hle⟩ := (linked j).round _ _ hold
      obtain rfl := Option.some.inj (before.symm.trans hold')
      refine ⟨hjobId, hn, hrun, ?_⟩
      rw [hjob]
      exact hle.trans (Nat.le_succ _)
  | dispatched mark now _ record job job' run entry before hentry token pending queued hrun hjob
      jobs runs outbox =>
    subst hjob
    refine (linked mark.jobId).of_identity ?_ (fun r => ?_) fun n => ?_
    · rw [jobs]
      exact Dict.map_get?_set _ _ before (by simp [Job.identity, queued]) _
    · rw [runs]
      exact Dict.map_get?_set _ _ hrun (by rfl) _
    · rw [outbox]
      exact Dict.map_get?_set _ _ hentry (by rfl) _
  | confirmed mark now _ record job entry before hentry token pending notQueued hs =>
    subst hs
    exact (linked mark.jobId).of_identity (Dict.map_get?_set _ _ before (by rfl) _) (fun _ => rfl)
      fun n => Dict.map_get?_set _ _ hentry (by rfl) _
  | abandoned mark availableAt job entry before hentry =>
    exact (linked mark.jobId).of_identity rfl (fun _ => rfl)
      fun n => Dict.map_get?_set _ _ hentry (by rfl) _
  | deferred mark availableAt job entry before hentry =>
    exact (linked mark.jobId).of_identity rfl (fun _ => rfl)
      fun n => Dict.map_get?_set _ _ hentry (by rfl) _

theorem noJob_empty (j : UUID) (job : Job) : ({} : Store).jobs.get? j ≠ some job :=
  (Option.some_ne_none job).symm

theorem noRun_empty (key : UUID × UUID) (run : Run) : ({} : Store).runs.get? key ≠ some run :=
  (Option.some_ne_none run).symm

theorem linked_empty : Linked {} := fun _ =>
  ⟨fun _ h => absurd h (noJob_empty _ _), fun _ _ h => absurd h (noRun_empty _ _),
    fun _ _ h => absurd h (noRun_empty _ _), fun _ h => absurd h (noJob_empty _ _),
    fun _ h => absurd h (noJob_empty _ _), fun _ _ h => absurd h (Option.some_ne_none _).symm,
    fun _ _ h => absurd h (noJob_empty _ _), fun _ _ _ h => absurd h (noJob_empty _ _)⟩

def Extends (s s' : Store) : Prop :=
  ∀ key ref, s.results.get? key = some ref → s'.results.get? key = some ref

/-- A call stores no reference, or the one reference a live attempt may publish. -/
theorem Effect.results {op : Op} {reply : Except Fault Reply}
    (h : Effect sha256 policy s op reply s') :
    s'.results = s.results ∨ ∃ attempt ref job run, s.jobs.get? attempt.jobId = some job ∧
      job.status = .running ∧ s.runs.get? (attempt.jobId, attempt.runId) = some run ∧
      Publishes s attempt run ref ∧
      s'.results = s.results.set (ref.runId, ref.resultVersion) ref := by
  cases h with
  | refused | replayed | abandoned | deferred => exact .inl rfl
  | confirmed mark now _ record job entry before hentry token pending notQueued hs =>
    subst hs
    exact .inl rfl
  | finished attempt event now problem openTaskIds result _ record job run transition version
      touched hcurrent holds finishes decided explained published =>
    obtain ⟨-, ref, -, publishes, -, hresults⟩ | ⟨-, -, hresults⟩ := published
    · exact .inr ⟨attempt, ref, job, run, touched.before, holds.running,
        hcurrent ▸ touched.current, publishes, hresults⟩
    · exact .inl hresults
  | created | claimed | extended | reclaimed | flagged | cancelled | retried | rejected | resumed
  | dispatched => exact .inl ‹_›

theorem Effect.extends {op : Op} {reply : Except Fault Reply}
    (h : Effect sha256 policy s op reply s') : Extends s s' := by
  intro key old hold
  obtain hresults | ⟨attempt, ref, job, run, -, -, -, publishes, hresults⟩ := h.results
  · rw [hresults]
    exact hold
  · rw [hresults, Dict.get?_set]
    split_ifs with hkey
    · subst hkey
      exact absurd (hold.symm.trans publishes.unused) (Option.some_ne_none _)
    · exact hold

variable (sha256 policy) in
theorem step_linked (linked : Linked s) (op : Op) : Linked (step sha256 policy s op).2 := by
  intro j
  have effect := step_effect sha256 policy linked op
  by_cases hj : j = op.target
  · subst hj
    exact effect.linkedAt linked
  · exact (linked j).of_sameRows (effect.sameRows hj)

variable (sha256 policy) in
theorem run_keeps_linked (linked : Linked s) (ops : List Op) : Linked (run sha256 policy s ops) :=
  run_invariant sha256 policy Linked (fun _ op linked => step_linked _ _ linked op) s linked ops

theorem run_linked (ops : List Op) : Linked (run sha256 policy {} ops) :=
  run_keeps_linked sha256 policy linked_empty ops

/-- An invariant of one job holds along every run, if each call keeps it at the job it names. -/
theorem run_invariant_at (P : Store → UUID → Prop)
    (same : ∀ s s' j, SameRows s s' j → Extends s s' → P s j → P s' j)
    (target : ∀ s s' op reply, Linked s → Effect sha256 policy s op reply s' →
      P s op.target → P s' op.target) (empty : ∀ j, P {} j) (ops : List Op) (j : UUID) :
    P (run sha256 policy {} ops) j := by
  have kept := run_invariant sha256 policy (fun s => Linked s ∧ ∀ j, P s j)
    (fun s op ⟨linked, hs⟩ => ⟨step_linked _ _ linked op, fun j => by
      have effect := step_effect sha256 policy linked op
      by_cases hj : j = op.target
      · subst hj
        exact target _ _ _ _ linked effect (hs _)
      · exact same _ _ _ (effect.sameRows hj) effect.extends (hs j)⟩)
    {} ⟨linked_empty, empty⟩ ops
  exact kept.2 j

end AppraisalReview.MemoryJobStore
