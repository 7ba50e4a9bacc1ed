import AppraisalReview.JobFencing

set_option autoImplicit false

/-!
# A recorded cancel is never forwarded into new work
-/
namespace AppraisalReview.MemoryJobStore

variable {sha256 : String → Digest} {policy : JobPolicy} {s s' : Store}

structure SameKeys (s s' : Store) (j : UUID) : Prop where
  runs : ∀ r, (s'.runs.get? (j, r)).isSome = (s.runs.get? (j, r)).isSome
  outbox : ∀ n, (s'.outbox.get? (j, n)).isSome = (s.outbox.get? (j, n)).isSome

/-- Under notice: the attempt of `run₀` with the cancel recorded, or an ended job. -/
def UnderNotice (run₀ : Run) (job : Job) (run : Run) : Prop :=
  job.status.terminal = true ∨
    (job.status = .running ∧ job.cancelRequested = true ∧ run.runId = run₀.runId ∧
      run.fencingToken = run₀.fencingToken ∧ run.leaseOwner = run₀.leaseOwner ∧
      run.attemptId = run₀.attemptId)

def Stopping (s : Store) (j : UUID) (run₀ : Run) : Prop :=
  ∃ job run, s.jobs.get? j = some job ∧ s.runs.get? (j, job.currentRunId) = some run ∧
    UnderNotice run₀ job run

theorem UnderNotice.not_pending {run₀ run : Run} {job : Job} (h : UnderNotice run₀ job run)
    (pending : job.status.cancelPending = false) : False := by
  simp only [JobStatus.cancelPending, Bool.or_eq_false_iff, decide_eq_false_iff_not] at pending
  obtain hterminal | ⟨hrunning, -⟩ := h
  · exact absurd (hterminal.symm.trans pending.2) (by rintro ⟨⟩)
  · exact pending.1 hrunning

theorem UnderNotice.requested {run₀ run : Run} {job : Job} (h : UnderNotice run₀ job run)
    (hrunning : job.status = .running) : job.cancelRequested = true := by
  obtain hterminal | ⟨-, hrequested, -⟩ := h
  · rw [hrunning] at hterminal
    cases hterminal
  · exact hrequested

theorem SameRows.sameKeys {j : UUID} (same : SameRows s s' j) : SameKeys s s' j where
  runs r := by rw [same.run]
  outbox n := by rw [same.round]

theorem Touched.sameKeys {j : UUID} {job job' : Job} {run run' : Run}
    (touched : Touched s s' j job run job' run') (outbox : s'.outbox = s.outbox) :
    SameKeys s s' j where
  runs := touched.runKeys
  outbox n := by rw [outbox]

/-- What one call leaves of a job under notice: no claim, no new run, no new round. -/
structure Held (s s' : Store) (j : UUID) (run₀ : Run) (reply : Except Fault Reply) : Prop where
  stopping : Stopping s' j run₀
  keys : SameKeys s s' j
  noClaim : ∀ attempt, reply = .ok (.claimed attempt) → attempt.jobId ≠ j

theorem Touched.held {j : UUID} {job job' : Job} {run run' run₀ : Run}
    {reply : Except Fault Reply} (touched : Touched s s' j job run job' run')
    (outbox : s'.outbox = s.outbox) (hcurrent : job'.currentRunId = job.currentRunId)
    (notice : UnderNotice run₀ job' run')
    (noClaim : ∀ attempt, reply = .ok (.claimed attempt) → attempt.jobId ≠ j) :
    Held s s' j run₀ reply := by
  refine ⟨⟨job', run', touched.stored, ?_, notice⟩, touched.sameKeys outbox, noClaim⟩
  rw [touched.runs, hcurrent, if_pos rfl]

theorem Effect.held {op : Op} {reply : Except Fault Reply}
    (h : Effect sha256 policy s op reply s') {run₀ : Run}
    (hstop : Stopping s op.target run₀) : Held s s' op.target run₀ reply := by
  obtain ⟨job, run, hjob, hrun, notice⟩ := hstop
  have seen : ∀ {other : Job}, s.jobs.get? op.target = some other → other = job := fun h =>
    Option.some.inj (h.symm.trans hjob)
  have forwarded : ∀ {other : Job}, s.jobs.get? op.target = some other →
      other.status.cancelPending = false → False := by
    intro other hother hpending
    obtain rfl := seen hother
    exact notice.not_pending hpending
  cases h with
  | refused | replayed =>
    exact ⟨⟨job, run, hjob, hrun, notice⟩, ⟨fun _ => rfl, fun _ => rfl⟩, nofun⟩
  | created principal submission j r now token _ record other run unused =>
    exact absurd (hjob.symm.trans unused) (Option.some_ne_none _)
  | claimed j r owner attemptId leaseSeconds now _ other run attempt hattempt touched hcurrent
      claimable =>
    exact (forwarded touched.before (JobStatus.unpending_of_claimable claimable)).elim
  | extended attempt leaseSeconds now _ other current touched hcurrent holds outbox =>
    obtain rfl := seen touched.before
    obtain rfl := Option.some.inj (touched.current.symm.trans hrun)
    exact touched.held outbox rfl notice nofun
  | finished attempt event now problem openTaskIds result _ record other run transition version
      touched hcurrent holds finishes decided explained published outbox =>
    obtain rfl := seen touched.before
    have hterminal := (nextState_finish finishes decided).honoured (notice.requested holds.running)
    exact touched.held outbox rfl (.inl hterminal) nofun
  | reclaimed lease now token _ record other job' run transition deadline touched hcurrent
      running htoken hdeadline expired decided round =>
    obtain rfl := seen touched.before
    obtain ⟨-, ⟨-, rfl⟩ | ⟨hflag, -⟩ | ⟨hflag, -⟩⟩ := nextState_leaseExpired decided
    · obtain ⟨hqueued, -⟩ | ⟨-, rfl, houtbox⟩ := round
      · cases hqueued
      · exact touched.held houtbox rfl (.inl rfl) nofun
    · exact absurd ((notice.requested running).symm.trans hflag) nofun
    · exact absurd ((notice.requested running).symm.trans hflag) nofun
  | flagged j now _ record other current touched running outbox =>
    obtain rfl := seen touched.before
    obtain rfl := Option.some.inj (touched.current.symm.trans hrun)
    refine touched.held outbox rfl (notice.imp_right fun h => ?_) nofun
    exact ⟨h.1, rfl, h.2.2⟩
  | cancelled j now _ record other job' run hother touched cancellable =>
    exact (forwarded touched.before (JobStatus.unpending_of_cancellable cancellable)).elim
  | retried j availableAt now token _ record other job' run hother touched failed =>
    exact (forwarded touched.before (by rw [failed]; rfl)).elim
  | rejected j r task now _ record other job' run status hother touched hcurrent waiting =>
    exact (forwarded touched.before (by rw [waiting]; rfl)).elim
  | resumed j reference now token _ record other job' current before hcurrent waiting =>
    exact (forwarded before (by rw [waiting]; rfl)).elim
  | dispatched mark now _ record other job' run entry before hentry token pending queued =>
    exact (forwarded before (by rw [queued]; rfl)).elim
  | confirmed mark now _ record other entry before hentry token pending notQueued hs =>
    subst hs
    obtain rfl := seen before
    exact ⟨⟨{ other with updatedAt := now }, run, Dict.get?_set_self .., hrun, notice⟩,
      ⟨fun _ => rfl, fun n => isSome_set _ hentry _⟩, nofun⟩
  | abandoned mark availableAt other entry before hentry =>
    exact ⟨⟨job, run, hjob, hrun, notice⟩, ⟨fun _ => rfl, fun n => isSome_set _ hentry _⟩, nofun⟩
  | deferred mark availableAt other entry before hentry =>
    exact ⟨⟨job, run, hjob, hrun, notice⟩, ⟨fun _ => rfl, fun n => isSome_set _ hentry _⟩, nofun⟩

variable (sha256 policy) in
theorem step_held (linked : Linked s) (op : Op) {j : UUID} {run₀ : Run}
    (hstop : Stopping s j run₀) :
    Held s (step sha256 policy s op).2 j run₀ (step sha256 policy s op).1 := by
  have effect := step_effect sha256 policy linked op
  by_cases hj : j = op.target
  · subst hj
    exact effect.held hstop
  · have same := effect.sameRows hj
    obtain ⟨job, run, hjob, hrun, notice⟩ := hstop
    refine ⟨⟨job, run, same.job.trans hjob, (same.run _).trans hrun, notice⟩, same.sameKeys,
      fun attempt hclaim => ?_⟩
    rw [hclaim] at effect
    exact fun h => hj (h ▸ effect.claim_target)

theorem Effect.stopping_of_cancel {j : UUID} {now : Int} {reply : Reply}
    (h : Effect sha256 policy s (.cancel j now) (.ok reply) s') :
    ∃ job run, s'.jobs.get? j = some job ∧ s'.runs.get? (j, job.currentRunId) = some run ∧
      UnderNotice run job run := by
  cases h with
  | flagged j now _ record job run touched running =>
    exact ⟨_, run, touched.stored, by rw [touched.runs, if_pos rfl],
      .inr ⟨running, rfl, rfl, rfl, rfl, rfl⟩⟩
  | cancelled j now _ record job job' run hjob touched =>
    subst hjob
    exact ⟨_, _, touched.stored, by rw [touched.runs, if_pos rfl], .inl rfl⟩

/-- What the calls after a successful cancel of `j` can still do to it. -/
structure CancelHonoured (sha256 : String → Digest) (policy : JobPolicy) (s : Store) (j : UUID)
    (later : List Op) : Prop where
  noClaim : ∀ attempt ∈ issued (history sha256 policy s later), attempt.jobId ≠ j
  keys : SameKeys s (run sha256 policy s later) j
  /-- The job still runs the attempt that was live at the cancel, or it has ended. -/
  status : ∃ job₀ run₀ job current, s.jobs.get? j = some job₀ ∧
    s.runs.get? (j, job₀.currentRunId) = some run₀ ∧
    (run sha256 policy s later).jobs.get? j = some job ∧
    (run sha256 policy s later).runs.get? (j, job.currentRunId) = some current ∧
    UnderNotice run₀ job current

variable (sha256 policy) in
theorem run_stopping (linked : Linked s) (later : List Op) {j : UUID} {run₀ : Run}
    (hstop : Stopping s j run₀) :
    Stopping (run sha256 policy s later) j run₀ ∧ SameKeys s (run sha256 policy s later) j ∧
      ∀ attempt ∈ issued (history sha256 policy s later), attempt.jobId ≠ j := by
  induction later generalizing s with
  | nil => exact ⟨hstop, ⟨fun _ => rfl, fun _ => rfl⟩, fun _ h => absurd h List.not_mem_nil⟩
  | cons op later ih =>
    have held := step_held sha256 policy linked op hstop
    obtain ⟨hstop', hkeys, hclaims⟩ := ih (step_linked _ _ linked op) held.stopping
    refine ⟨hstop', ⟨fun r => (hkeys.runs r).trans (held.keys.runs r),
      fun n => (hkeys.outbox n).trans (held.keys.outbox n)⟩, fun attempt hattempt => ?_⟩
    simp only [history, issued, List.filterMap_cons] at hattempt
    split at hattempt
    · exact hclaims attempt hattempt
    · rename_i claimed hclaimed
      obtain rfl | hattempt := List.mem_cons.mp hattempt
      · exact held.noClaim attempt (issuedBy_eq hclaimed)
      · exact hclaims attempt hattempt

/-- An ended job: its row, its runs and their references stay as they are. -/
structure Final (s s' : Store) (j : UUID) (job : Job) : Prop where
  frozen : Frozen s s' j job
  references : Extends s s'
  own : ∀ r version, (s.runs.get? (j, r)).isSome = true →
    (∀ k ≠ j, s'.runs.get? (k, r) = none) → s'.results.get? (r, version) = s.results.get? (r, version)

theorem Effect.final {op : Op} {reply : Except Fault Reply} (linked : Linked s)
    (h : Effect sha256 policy s op reply s') {j : UUID} {job : Job}
    (hjob : s.jobs.get? j = some job) (terminal : job.status.terminal = true) :
    Final s s' j job := by
  refine ⟨h.frozen hjob terminal, h.extends, fun r version hr hother => ?_⟩
  obtain hresults | ⟨attempt, ref, job', run, hjob', hrunning, hrun, publishes, hresults⟩ :=
    h.results
  · rw [hresults]
  · rw [hresults]
    refine Dict.get?_set_of_ne _ _ fun hkey => ?_
    obtain ⟨rfl, -⟩ := Prod.mk.inj hkey
    by_cases hj : attempt.jobId = j
    · subst hj
      obtain rfl := Option.some.inj (hjob.symm.trans hjob')
      rw [hrunning] at terminal
      cases terminal
    · obtain ⟨run', hrun', -⟩ := h.runStep linked _ _ hrun
      rw [← publishes.runId, hother _ hj] at hrun'
      cases hrun'

variable (sha256 policy) in
theorem run_final (linked : Linked s) (later : List Op) {j : UUID} {job : Job}
    (hjob : s.jobs.get? j = some job) (terminal : job.status.terminal = true) :
    Final s (run sha256 policy s later) j job := by
  induction later generalizing s job with
  | nil => exact ⟨⟨⟨job.updatedAt, hjob⟩, fun _ => rfl⟩, fun _ _ => id, fun _ _ _ _ => rfl⟩
  | cons op later ih =>
    have linked' := step_linked sha256 policy linked op
    have first := (step_effect sha256 policy linked op).final linked hjob
      terminal
    obtain ⟨t, hjob'⟩ := first.frozen.job
    have rest := ih linked' hjob' terminal
    refine ⟨⟨rest.frozen.job, fun r => (rest.frozen.runs r).trans (first.frozen.runs r)⟩,
      fun key ref href => rest.references _ _ (first.references _ _ href),
      fun r version hr hother => ?_⟩
    have hnone : ∀ k ≠ j, (step sha256 policy s op).2.runs.get? (k, r) = none := by
      intro k hk
      by_contra hsome
      obtain ⟨kept, hkept⟩ := Option.ne_none_iff_exists'.mp hsome
      obtain ⟨last, hlast⟩ := run_keeps_run linked' later _ _ hkept
      exact absurd (hlast.symm.trans (hother k hk)) (Option.some_ne_none _)
    exact (rest.own r version (by rwa [first.frozen.runs]) hother).trans
      (first.own r version hr hnone)

/-- After a successful cancel nothing new is started, and an ended job stays as it ended. -/
theorem run_cancel_honoured (earlier later : List Op) (j : UUID) :
    (∀ now reply, (step sha256 policy (run sha256 policy {} earlier) (.cancel j now)).1 =
        .ok reply →
      CancelHonoured sha256 policy
        (step sha256 policy (run sha256 policy {} earlier) (.cancel j now)).2 j later) ∧
    ∀ job, (run sha256 policy {} earlier).jobs.get? j = some job → job.status.terminal = true →
      Final (run sha256 policy {} earlier) (run sha256 policy {} (earlier ++ later)) j job := by
  have linked : Linked (run sha256 policy {} earlier) := run_linked earlier
  constructor
  · intro now reply hcancel
    have effect := step_effect sha256 policy linked (.cancel j now)
    rw [hcancel] at effect
    obtain ⟨job₀, run₀, hjob₀, hrun₀, notice₀⟩ := effect.stopping_of_cancel
    obtain ⟨⟨job, current, hjob, hcurrent, notice⟩, hkeys, hclaims⟩ :=
      run_stopping sha256 policy (step_linked _ _ linked (.cancel j now)) later
        ⟨job₀, run₀, hjob₀, hrun₀, notice₀⟩
    exact ⟨hclaims, hkeys, job₀, run₀, job, current, hjob₀, hrun₀, hjob, hcurrent, notice⟩
  · intro job hjob terminal
    rw [run_append]
    exact run_final sha256 policy linked later hjob terminal

/-- The worker's heartbeat after the cancel keeps the job under notice. -/
theorem run_cancel_honoured_heartbeat :
    ∃ s reply, step (fun _ => sampleDigest) {} (run (fun _ => sampleDigest) {} {}
        [sampleCreate, sampleClaim]) (.cancel ⟨1⟩ 5) = (.ok reply, s) ∧
      CancelHonoured (fun _ => sampleDigest) {} s ⟨1⟩ [.heartbeat sampleAttempt 60 10] :=
  ⟨_, _, rfl, (run_cancel_honoured [sampleCreate, sampleClaim] [.heartbeat sampleAttempt 60 10]
    ⟨1⟩).1 5 _ rfl⟩

end AppraisalReview.MemoryJobStore
