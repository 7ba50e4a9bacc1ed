import AppraisalReview.JobFencing

set_option autoImplicit false

/-!
# When the job, run and attempt tables agree

Two calls can part the tables: a reclaim leaves the dead attempt's record open,
and a late mark of a superseded round moves a queued job and the old run on.
-/
namespace AppraisalReview.MemoryJobStore

variable {sha256 : String → Digest} {policy : JobPolicy} {s s' : Store}

/-- The record describes the attempt that holds the lease of a running job. -/
def Live (s : Store) (record : Attempt) : Prop :=
  ∃ job run, s.jobs.get? record.jobId = some job ∧ job.status = .running ∧
    job.currentRunId = record.runId ∧ s.runs.get? (record.jobId, record.runId) = some run ∧
    run.attemptId = some record.attemptId ∧ run.fencingToken = record.fencingToken

structure TablesAgree (s : Store) : Prop where
  status : ∀ j job run, s.jobs.get? j = some job → s.runs.get? (j, job.currentRunId) = some run →
    run.runStatus = job.status
  outcome : ∀ record ∈ s.attempts, record.outcome = .running ↔ Live s record

/-- What one call may do to superseded runs and with their outbox rounds. -/
structure KeepsSuperseded (s : Store) (op : Op) (reply : Except Fault Reply) (s' : Store) :
    Prop where
  runs : ∀ j job r run, s.jobs.get? j = some job → s.runs.get? (j, r) = some run →
    r ≠ job.currentRunId → s'.runs.get? (j, r) = some run
  marks : ∀ mark now job entry answered, op = .markDispatched mark now → reply = .ok answered →
    s.jobs.get? mark.jobId = some job →
    s.outbox.get? (mark.jobId, mark.outboxSeq) = some entry →
    entry.runId ≠ job.currentRunId →
      s'.outbox = s.outbox.set (mark.jobId, mark.outboxSeq) { entry with dispatchState := .sent } ∧
      s'.runs = s.runs ∧ s'.jobs = s.jobs.set mark.jobId { job with updatedAt := now }

def Reclaimable (s : Store) (lease : ExpiredLease) (now : Int) : Prop :=
  ∃ job run deadline, s.jobs.get? lease.jobId = some job ∧
    s.runs.get? (lease.jobId, lease.runId) = some run ∧ job.status = .running ∧
    run.fencingToken = lease.fencingToken ∧ run.leaseExpiresAt = some deadline ∧ deadline ≤ now

/-- The round is pending for a superseded run while its job waits in the queue. -/
def MarksSuperseded (s : Store) (mark : DispatchRecord) : Prop :=
  ∃ job entry, s.jobs.get? mark.jobId = some job ∧
    s.outbox.get? (mark.jobId, mark.outboxSeq) = some entry ∧
    entry.dispatchToken = mark.dispatchToken ∧ entry.dispatchState = .pending ∧
    job.status = .queued ∧ entry.runId ≠ job.currentRunId

/-- The call reclaims no lease and marks no superseded round of a queued job. -/
def Calm (s : Store) : Op → Prop
  | .expireLease lease now _ => ¬ Reclaimable s lease now
  | .markDispatched mark _ => ¬ MarksSuperseded s mark
  | _ => True

/-- The attempt id a claim draws is new. -/
def DrawsFresh (s : Store) : Op → Prop
  | .claim _ _ _ _ _ attemptId => ∀ record ∈ s.attempts, record.attemptId ≠ attemptId
  | _ => True

theorem Touched.keepsRun {j : UUID} {job job' : Job} {run run' : Run}
    (touched : Touched s s' j job run job' run') {k r : UUID} {other : Job} {old : Run}
    (hother : s.jobs.get? k = some other) (hold : s.runs.get? (k, r) = some old)
    (hne : r ≠ other.currentRunId) : s'.runs.get? (k, r) = some old := by
  rw [touched.runs, if_neg, hold]
  intro hkey
  obtain ⟨rfl, rfl⟩ := Prod.mk.inj hkey
  obtain rfl := Option.some.inj (touched.before.symm.trans hother)
  exact hne rfl

theorem Effect.keepsRuns {op : Op} {reply : Except Fault Reply}
    (h : Effect sha256 policy s op reply s') (calm : Calm s op) {j r : UUID} {job : Job} {run : Run}
    (hjob : s.jobs.get? j = some job) (hrun : s.runs.get? (j, r) = some run)
    (hne : r ≠ job.currentRunId) : s'.runs.get? (j, r) = some run := by
  cases h with
  | refused | replayed | abandoned | deferred => exact hrun
  | created principal submission k r' now token _ record other run' unused hjob' hrun' jobs runs =>
    rw [runs, Dict.get?_set_of_ne, hrun]
    intro hkey
    obtain ⟨rfl, -⟩ := Prod.mk.inj hkey
    exact absurd (hjob.symm.trans unused) (Option.some_ne_none _)
  | claimed k r' owner attemptId leaseSeconds now _ other run' attempt hattempt touched =>
    exact touched.keepsRun hjob hrun hne
  | extended attempt leaseSeconds now _ other run' touched => exact touched.keepsRun hjob hrun hne
  | finished attempt event now problem openTaskIds result _ record other run' transition version
      touched => exact touched.keepsRun hjob hrun hne
  | reclaimed lease now token _ record other job' run' transition deadline touched =>
    exact touched.keepsRun hjob hrun hne
  | flagged k now _ record other run' touched => exact touched.keepsRun hjob hrun hne
  | cancelled k now _ record other job' run' hother touched =>
    exact touched.keepsRun hjob hrun hne
  | retried k availableAt now token _ record other job' run' hother touched =>
    exact touched.keepsRun hjob hrun hne
  | rejected k r' task now _ record other job' run' status hother touched =>
    exact touched.keepsRun hjob hrun hne
  | resumed k reference now token _ record other job' current before hcurrent waiting unused
      revised sameCase bare hother jobs runs =>
    rw [runs, Dict.get?_set_of_ne, hrun]
    intro hkey
    rw [hkey] at hrun
    exact absurd (hrun.symm.trans unused) (Option.some_ne_none _)
  | dispatched mark now _ record other job' run' entry before hentry token pending queued hrun'
      hother jobs runs =>
    rw [runs, Dict.get?_set_of_ne, hrun]
    intro hkey
    obtain ⟨rfl, rfl⟩ := Prod.mk.inj hkey
    obtain rfl := Option.some.inj (before.symm.trans hjob)
    exact calm ⟨other, entry, before, hentry, token, pending, queued, hne⟩
  | confirmed mark now _ record other entry before hentry token pending notQueued hs =>
    subst hs
    exact hrun

theorem Effect.keepsSuperseded {op : Op} {reply : Except Fault Reply}
    (h : Effect sha256 policy s op reply s') (calm : Calm s op) :
    KeepsSuperseded s op reply s' := by
  refine ⟨fun j job r run hjob hrun hne => h.keepsRuns calm hjob hrun hne, ?_⟩
  rintro mark now job entry answered rfl rfl hjob hentry hne
  cases h with
  | dispatched mark now _ record other job' run entry' before hentry' token pending queued =>
    obtain rfl := Option.some.inj (before.symm.trans hjob)
    obtain rfl := Option.some.inj (hentry'.symm.trans hentry)
    exact (calm ⟨other, entry', before, hentry', token, pending, queued, hne⟩).elim
  | confirmed mark now _ record other entry' before hentry' token pending notQueued hs =>
    obtain rfl := Option.some.inj (before.symm.trans hjob)
    obtain rfl := Option.some.inj (hentry'.symm.trans hentry)
    subst hs
    exact ⟨rfl, rfl, rfl⟩

/-- Run, attempt id and token of the attempt that holds the job's lease. -/
def liveAttempt (s : Store) (j : UUID) : Option (UUID × Option UUID × ℕ) :=
  match s.jobs.get? j with
  | none => none
  | some job =>
    if job.status = .running then
      (s.runs.get? (j, job.currentRunId)).map fun run =>
        (job.currentRunId, run.attemptId, run.fencingToken)
    else none

theorem liveAttempt_eq {j : UUID} {job : Job} {run : Run} (hjob : s.jobs.get? j = some job)
    (hrun : s.runs.get? (j, job.currentRunId) = some run) :
    liveAttempt s j = if job.status = .running then
      some (job.currentRunId, run.attemptId, run.fencingToken) else none := by
  simp only [liveAttempt, hjob, hrun, Option.map_some]

theorem liveAttempt_stopped {j : UUID} {job : Job} (hjob : s.jobs.get? j = some job)
    (hstopped : job.status ≠ .running) : liveAttempt s j = none := by
  simp only [liveAttempt, hjob, if_neg hstopped]

theorem liveAttempt_of_sameRows {j : UUID} (same : SameRows s s' j) :
    liveAttempt s' j = liveAttempt s j := by
  simp only [liveAttempt, same.job, same.run]

def Attempt.holder (record : Attempt) : UUID × Option UUID × ℕ :=
  (record.runId, some record.attemptId, record.fencingToken)

theorem live_iff (record : Attempt) :
    Live s record ↔ liveAttempt s record.jobId = some record.holder := by
  constructor
  · rintro ⟨job, run, hjob, hrunning, hcurrent, hrun, hattempt, htoken⟩
    rw [liveAttempt_eq hjob (hcurrent ▸ hrun), if_pos hrunning, hcurrent, hattempt, htoken]
    rfl
  · intro hlive
    unfold liveAttempt at hlive
    split at hlive
    · cases hlive
    rename_i job hjob
    split at hlive
    · rename_i hrunning
      obtain ⟨run, hrun, hholder⟩ := Option.map_eq_some_iff.mp hlive
      simp only [Attempt.holder, Prod.mk.injEq] at hholder
      exact ⟨job, run, hjob, hrunning, hholder.1, hholder.1 ▸ hrun, hholder.2.1, hholder.2.2⟩
    · cases hlive

/-- Attempt ids name one record each, and every live attempt has its record. -/
structure AttemptsTracked (s : Store) : Prop where
  unique : (s.attempts.map Attempt.attemptId).Nodup
  recorded : ∀ j holder, liveAttempt s j = some holder →
    ∃ record ∈ s.attempts, record.jobId = j ∧ record.holder = holder

/-- What the attempt table keeps: statuses, outcomes and tracking together. -/
structure Tallied (s : Store) : Prop where
  agree : TablesAgree s
  tracked : AttemptsTracked s

theorem TablesAgree.status_step {op : Op} (agree : TablesAgree s)
    (frame : ∀ k ≠ op.target, SameRows s s' k)
    (target : ∀ job run, s'.jobs.get? op.target = some job →
      s'.runs.get? (op.target, job.currentRunId) = some run → run.runStatus = job.status)
    (j : UUID) (job : Job) (run : Run) (hjob : s'.jobs.get? j = some job)
    (hrun : s'.runs.get? (j, job.currentRunId) = some run) : run.runStatus = job.status := by
  by_cases hj : j = op.target
  · subst hj
    exact target job run hjob hrun
  · have same := frame j hj
    rw [same.job] at hjob
    rw [same.run] at hrun
    exact agree.status j job run hjob hrun

theorem Tallied.still {op : Op} (tallied : Tallied s) (frame : ∀ k ≠ op.target, SameRows s s' k)
    (target : ∀ job run, s'.jobs.get? op.target = some job →
      s'.runs.get? (op.target, job.currentRunId) = some run → run.runStatus = job.status)
    (attempts : s'.attempts = s.attempts)
    (live : liveAttempt s' op.target = liveAttempt s op.target) : Tallied s' := by
  have same : ∀ j, liveAttempt s' j = liveAttempt s j := by
    intro j
    by_cases hj : j = op.target
    · rw [hj, live]
    · exact liveAttempt_of_sameRows (frame j hj)
  refine ⟨⟨tallied.agree.status_step frame target, fun record hrecord => ?_⟩, ?_, ?_⟩
  · rw [attempts] at hrecord
    rw [live_iff, same, ← live_iff]
    exact tallied.agree.outcome record hrecord
  · rw [attempts]
    exact tallied.tracked.unique
  · intro j holder hlive
    rw [attempts]
    exact tallied.tracked.recorded j holder (same j ▸ hlive)

theorem Tallied.open {op : Op} {record : Attempt} (tallied : Tallied s)
    (frame : ∀ k ≠ op.target, SameRows s s' k)
    (target : ∀ job run, s'.jobs.get? op.target = some job →
      s'.runs.get? (op.target, job.currentRunId) = some run → run.runStatus = job.status)
    (attempts : s'.attempts = s.attempts ++ [record])
    (fresh : ∀ other ∈ s.attempts, other.attemptId ≠ record.attemptId)
    (hjob : record.jobId = op.target) (hrunning : record.outcome = .running)
    (before : liveAttempt s op.target = none)
    (after : liveAttempt s' op.target = some record.holder) : Tallied s' := by
  have others : ∀ j ≠ op.target, liveAttempt s' j = liveAttempt s j := fun j hj =>
    liveAttempt_of_sameRows (frame j hj)
  refine ⟨⟨tallied.agree.status_step frame target, fun other hother => ?_⟩, ?_, ?_⟩
  · rw [attempts] at hother
    obtain hother | rfl := (List.mem_append.mp hother).imp_right List.mem_singleton.mp
    · rw [tallied.agree.outcome other hother, live_iff, live_iff]
      by_cases hj : other.jobId = op.target
      · rw [hj, before, after]
        refine ⟨nofun, fun hholder => ?_⟩
        simp only [Attempt.holder, Option.some.injEq, Prod.mk.injEq] at hholder
        exact absurd hholder.2.1.symm (fresh other hother)
      · rw [others _ hj]
    · rw [live_iff, hjob, after]
      simp [hrunning]
  · rw [attempts, List.map_append, List.nodup_append]
    refine ⟨tallied.tracked.unique, List.nodup_singleton _, ?_⟩
    intro a ha b hb heq
    obtain ⟨other, hother, rfl⟩ := List.mem_map.mp ha
    obtain rfl := List.mem_singleton.mp hb
    exact fresh other hother heq
  · intro j holder hlive
    rw [attempts]
    by_cases hj : j = op.target
    · subst hj
      rw [after] at hlive
      exact ⟨record, List.mem_append_right _ (List.mem_singleton_self _), hjob,
        Option.some.inj hlive⟩
    · rw [others j hj] at hlive
      obtain ⟨other, hother, hknown⟩ := tallied.tracked.recorded j holder hlive
      exact ⟨other, List.mem_append_left _ hother, hknown⟩

theorem mem_closeAttempt {attempts : List Attempt} {attemptId : UUID} {event : JobEvent}
    {record : Attempt} (h : record ∈ closeAttempt attempts attemptId event) :
    ∃ old ∈ attempts, (old.attemptId = attemptId ∧ record = { old with outcome := .closed event }) ∨
      (old.attemptId ≠ attemptId ∧ record = old) := by
  obtain ⟨old, hold, rfl⟩ := List.mem_map.mp h
  refine ⟨old, hold, ?_⟩
  split_ifs with hid
  · exact .inl ⟨hid, rfl⟩
  · exact .inr ⟨hid, rfl⟩

theorem Tallied.close {op : Op} {attemptId : UUID} {event : JobEvent} {r : UUID} {token : ℕ}
    (tallied : Tallied s) (frame : ∀ k ≠ op.target, SameRows s s' k)
    (target : ∀ job run, s'.jobs.get? op.target = some job →
      s'.runs.get? (op.target, job.currentRunId) = some run → run.runStatus = job.status)
    (attempts : s'.attempts = closeAttempt s.attempts attemptId event)
    (before : liveAttempt s op.target = some (r, some attemptId, token))
    (after : liveAttempt s' op.target = none) : Tallied s' := by
  have others : ∀ j ≠ op.target, liveAttempt s' j = liveAttempt s j := fun j hj =>
    liveAttempt_of_sameRows (frame j hj)
  obtain ⟨closed, hclosed, hclosedJob, hholder⟩ := tallied.tracked.recorded _ _ before
  have hclosedId : closed.attemptId = attemptId := by
    simp only [Attempt.holder, Prod.mk.injEq] at hholder
    exact Option.some.inj hholder.2.1
  have named : ∀ record ∈ s.attempts, record.attemptId = attemptId → record = closed :=
    fun record hrecord hid => List.inj_on_of_nodup_map tallied.tracked.unique hrecord hclosed
      (hid.trans hclosedId.symm)
  refine ⟨⟨tallied.agree.status_step frame target, fun record hrecord => ?_⟩, ?_, ?_⟩
  · rw [attempts] at hrecord
    obtain ⟨old, hold, ⟨hid, rfl⟩ | ⟨hid, rfl⟩⟩ := mem_closeAttempt hrecord
    · obtain rfl := named old hold hid
      rw [live_iff]
      change AttemptOutcome.closed event = .running ↔ liveAttempt s' old.jobId = _
      rw [hclosedJob, after]
      exact ⟨nofun, nofun⟩
    · rw [tallied.agree.outcome record hold, live_iff, live_iff]
      by_cases hj : record.jobId = op.target
      · rw [hj, before, after]
        refine ⟨fun hlive => ?_, nofun⟩
        simp only [Attempt.holder, Option.some.injEq, Prod.mk.injEq] at hlive
        exact absurd hlive.2.1.symm hid
      · rw [others _ hj]
  · have hids : (closeAttempt s.attempts attemptId event).map Attempt.attemptId =
        s.attempts.map Attempt.attemptId := by
      rw [closeAttempt, List.map_map]
      refine List.map_congr_left fun record _ => ?_
      change Attempt.attemptId (if _ then _ else _) = _
      split_ifs <;> rfl
    rw [attempts, hids]
    exact tallied.tracked.unique
  · intro j holder hlive
    have hj : j ≠ op.target := by
      rintro rfl
      rw [after] at hlive
      cases hlive
    rw [others j hj] at hlive
    obtain ⟨record, hrecord, hknown⟩ := tallied.tracked.recorded j holder hlive
    rw [attempts, closeAttempt]
    refine ⟨_, List.mem_map.mpr ⟨record, hrecord, rfl⟩, ?_⟩
    split_ifs
    · exact hknown
    · exact hknown

theorem Touched.statusAt {j : UUID} {job job' : Job} {run run' : Run}
    (touched : Touched s s' j job run job' run') (hcurrent : job'.currentRunId = job.currentRunId)
    (h : run'.runStatus = job'.status) (stored : Job) (current : Run)
    (hstored : s'.jobs.get? j = some stored)
    (hrun : s'.runs.get? (j, stored.currentRunId) = some current) :
    current.runStatus = stored.status := by
  obtain rfl := Option.some.inj (touched.stored.symm.trans hstored)
  rw [touched.runs, hcurrent, if_pos rfl] at hrun
  exact Option.some.inj hrun ▸ h

theorem Touched.liveAttempt_after {j : UUID} {job job' : Job} {run run' : Run}
    (touched : Touched s s' j job run job' run')
    (hcurrent : job'.currentRunId = job.currentRunId) :
    liveAttempt s' j = if job'.status = .running then
      some (job'.currentRunId, run'.attemptId, run'.fencingToken) else none :=
  liveAttempt_eq touched.stored (by rw [touched.runs, hcurrent, if_pos rfl])

theorem Touched.live_still {j : UUID} {job job' : Job} {run run' : Run}
    (touched : Touched s s' j job run job' run') (hstopped : job.status ≠ .running)
    (hstopped' : job'.status ≠ .running) : liveAttempt s' j = liveAttempt s j := by
  rw [liveAttempt_stopped touched.before hstopped, liveAttempt_stopped touched.stored hstopped']

theorem Effect.tallied {op : Op} {reply : Except Fault Reply}
    (h : Effect sha256 policy s op reply s') (calm : Calm s op) (fresh : DrawsFresh s op)
    (tallied : Tallied s) : Tallied s' := by
  have frame : ∀ k ≠ op.target, SameRows s s' k := fun k hk => h.sameRows hk
  cases h with
  | refused | replayed => exact tallied
  | created principal submission j r now token _ record job run unused hjob hrun jobs runs outbox
      attempts =>
    have stored : s'.jobs.get? j = some job := by
      rw [jobs]
      exact Dict.get?_set_self ..
    refine tallied.still frame ?_ attempts ?_
    · intro job' run' hjob' hrun'
      obtain rfl := Option.some.inj (stored.symm.trans hjob')
      have hkey : s'.runs.get? (j, job.currentRunId) = some run := by
        rw [runs, hjob]
        exact Dict.get?_set_self ..
      obtain rfl := Option.some.inj (hkey.symm.trans hrun')
      rw [hjob, hrun]
    · change liveAttempt s' j = liveAttempt s j
      rw [liveAttempt_stopped stored (by simp [hjob])]
      simp only [liveAttempt, unused]
  | claimed j r owner attemptId leaseSeconds now _ job run attempt hattempt touched hcurrent
      claimable outbox attempts =>
    subst hattempt hcurrent
    refine tallied.open frame (touched.statusAt rfl rfl) attempts fresh rfl rfl
      (liveAttempt_stopped touched.before (JobStatus.live_of_claimable claimable).2) ?_
    exact touched.liveAttempt_after rfl
  | extended attempt leaseSeconds now _ job run touched hcurrent holds outbox attempts =>
    have known := tallied.agree.status _ _ _ touched.before touched.current
    exact tallied.still frame (touched.statusAt rfl known) attempts
      ((touched.liveAttempt_after rfl).trans
        (liveAttempt_eq touched.before touched.current).symm)
  | finished attempt event now problem openTaskIds result _ record job run transition version
      touched hcurrent holds finishes decided explained published outbox attempts =>
    have hstopped := (nextState_finish finishes decided).stopped
    have before := liveAttempt_eq touched.before touched.current
    rw [if_pos holds.running, holds.attemptId] at before
    exact tallied.close frame (touched.statusAt rfl rfl) attempts before
      (liveAttempt_stopped touched.stored hstopped)
  | reclaimed lease now token _ record job job' run transition deadline touched hcurrent running
      htoken hdeadline expired =>
    exact absurd ⟨job, run, deadline, touched.before, hcurrent ▸ touched.current, running, htoken,
      hdeadline, expired⟩ calm
  | flagged j now _ record job run touched running outbox attempts =>
    have known := tallied.agree.status _ _ _ touched.before touched.current
    exact tallied.still frame (touched.statusAt rfl known) attempts
      ((touched.liveAttempt_after rfl).trans
        (liveAttempt_eq touched.before touched.current).symm)
  | cancelled j now _ record job job' run hjob touched cancellable outbox attempts =>
    subst hjob
    exact tallied.still frame (touched.statusAt rfl rfl) attempts
      (touched.live_still (JobStatus.live_of_cancellable cancellable).2 (by rintro ⟨⟩))
  | retried j availableAt now token _ record job job' run hjob touched failed outbox attempts =>
    subst hjob
    exact tallied.still frame (touched.statusAt rfl rfl) attempts
      (touched.live_still (by simp [failed]) (by rintro ⟨⟩))
  | rejected j r task now _ record job job' run status hjob touched hcurrent waiting member
      hstatus outbox attempts =>
    subst hjob
    refine tallied.still frame (touched.statusAt rfl rfl) attempts
      (touched.live_still (by simp [waiting]) ?_)
    obtain ⟨rfl, -⟩ | ⟨rfl, -⟩ := hstatus <;> rintro ⟨⟩
  | resumed j reference now token _ record job job' current before hcurrent waiting unused
      revised sameCase bare hjob jobs runs outbox _ attempts =>
    have stored : s'.jobs.get? j = some job' := by simp [jobs]
    refine tallied.still frame ?_ attempts ?_
    · intro other run hother hrun
      obtain rfl := Option.some.inj (stored.symm.trans hother)
      change s'.runs.get? (j, job'.currentRunId) = some run at hrun
      rw [runs, hjob, Dict.get?_set_self] at hrun
      rw [← Option.some.inj hrun, hjob]
    · change liveAttempt s' j = liveAttempt s j
      rw [liveAttempt_stopped stored (by simp [hjob]),
        liveAttempt_stopped before (by simp [waiting])]
  | dispatched mark now _ record job job' run entry before hentry token pending queued hrun hjob
      jobs runs outbox _ attempts =>
    have hcurrent : entry.runId = job.currentRunId := by
      by_contra hne
      exact calm ⟨job, entry, before, hentry, token, pending, queued, hne⟩
    have stored : s'.jobs.get? mark.jobId = some job' := by
      rw [jobs]
      exact Dict.get?_set_self ..
    refine tallied.still frame ?_ attempts ?_
    · intro other run' hother hrun'
      obtain rfl := Option.some.inj (stored.symm.trans hother)
      change s'.runs.get? (mark.jobId, job'.currentRunId) = some run' at hrun'
      rw [runs, hcurrent, hjob, Dict.get?_set_self] at hrun'
      rw [← Option.some.inj hrun', hjob]
    · change liveAttempt s' mark.jobId = liveAttempt s mark.jobId
      rw [liveAttempt_stopped stored (by simp [hjob]),
        liveAttempt_stopped before (by simp [queued])]
  | confirmed mark now _ record job entry before hentry token pending notQueued hs =>
    subst hs
    have stored : (s.jobs.set mark.jobId { job with updatedAt := now }).get? mark.jobId =
        some { job with updatedAt := now } := Dict.get?_set_self ..
    refine tallied.still frame ?_ rfl ?_
    · intro other run hother hrun
      obtain rfl := Option.some.inj (stored.symm.trans hother)
      have known := tallied.agree.status _ job run before hrun
      exact known
    · simp only [liveAttempt, Op.target, stored, before]
  | abandoned mark availableAt job entry before hentry =>
    exact tallied.still frame (fun job run => tallied.agree.status _ job run) rfl rfl
  | deferred mark availableAt job entry before hentry =>
    exact tallied.still frame (fun job run => tallied.agree.status _ job run) rfl rfl

theorem tallied_empty : Tallied {} :=
  ⟨⟨fun _ _ _ h => absurd h (noJob_empty _ _), fun _ h => absurd h List.not_mem_nil⟩,
    List.nodup_nil, fun _ _ h => absurd h (Option.some_ne_none _).symm⟩

theorem run_tallied (ops : List Op) (fresh : Along sha256 policy DrawsFresh ops)
    (calm : Along sha256 policy Calm ops) : Tallied (run sha256 policy {} ops) := by
  induction ops using List.reverseRecOn with
  | nil => exact tallied_empty
  | append_singleton ops op ih =>
    rw [run_snoc]
    exact (step_effect _ _ (run_linked ops) op).tallied calm.last fresh.last
      (ih fresh.prefix calm.prefix)

/-- The tables agree before, between and after the calls, and superseded runs stay put. -/
structure Agreement (sha256 : String → Digest) (policy : JobPolicy) (ops : List Op) : Prop where
  tables : ∀ earlier later, ops = earlier ++ later → TablesAgree (run sha256 policy {} earlier)
  superseded : Along sha256 policy (fun s op =>
    KeepsSuperseded s op (step sha256 policy s op).1 (step sha256 policy s op).2) ops

theorem Agreement.prefix {xs ys : List Op} (h : Agreement sha256 policy (xs ++ ys)) :
    Agreement sha256 policy xs where
  tables := by
    rintro earlier later rfl
    exact h.tables earlier (later ++ ys) (List.append_assoc ..)
  superseded := h.superseded.prefix

variable (policy) in
theorem expireAdmission_of_reclaimable (linked : Linked s) {lease : ExpiredLease} {now : Int}
    (h : Reclaimable s lease now) : ∃ job run transition,
      s.jobs.get? lease.jobId = some job ∧ transition.status ≠ .running ∧
        expireAdmission policy s lease now = .ok (job, run, transition) := by
  obtain ⟨job, run, deadline, hjob, hrun, hrunning, htoken, hdeadline, hexpired⟩ := h
  obtain ⟨hattempts, htakeovers⟩ := (linked _).counters _ hjob
  have htotal : ∃ transition, nextState job.facts .leaseExpired policy = .ok transition :=
    nextState_leaseExpired_total hattempts htakeovers hrunning
  obtain ⟨transition, hnext⟩ := htotal
  refine ⟨job, run, transition, hjob, (nextState_leaseExpired_stops hnext).2.1, ?_⟩
  have hheld : ¬ (run.fencingToken ≠ lease.fencingToken ∨
      ¬ run.leaseExpiresAt.any (· ≤ now) ∨ job.status ≠ .running) := by
    simp [htoken, hdeadline, hexpired, hrunning]
  simp only [expireAdmission, hjob, hrun]
  rw [if_neg hheld, hnext]

theorem reclaim_disagrees (linked : Linked s) (tallied : Tallied s) {lease : ExpiredLease}
    {now : Int} {token : UUID} (h : Reclaimable s lease now) :
    ¬ TablesAgree (step sha256 policy s (.expireLease lease now token)).2 := by
  intro agree
  obtain ⟨job, run, transition, hjob, hstopped, hadmit⟩ :=
    expireAdmission_of_reclaimable policy linked h
  obtain ⟨job', run', deadline, hjob', hrun, hrunning, htoken, hdeadline, hexpired⟩ := h
  obtain rfl := Option.some.inj (hjob.symm.trans hjob')
  have hcurrent := linked.current_of_lease hjob hrun (.inl (by simp [hdeadline]))
  have hlive := liveAttempt_eq hjob (hcurrent ▸ hrun)
  rw [if_pos hrunning] at hlive
  obtain ⟨record, hrecord, hrecordJob, hholder⟩ := tallied.tracked.recorded _ _ hlive
  have hopen : record.outcome = .running :=
    (tallied.agree.outcome record hrecord).mpr
      ((live_iff record).mpr (by rw [hrecordJob, hlive, hholder]))
  have hattempts : (step sha256 policy s (.expireLease lease now token)).2.attempts =
      s.attempts := by
    simp only [step, answer, expireLease, hadmit]
    split_ifs <;> rfl
  obtain ⟨after, hafter, hstatus⟩ : ∃ after,
      (step sha256 policy s (.expireLease lease now token)).2.jobs.get? lease.jobId = some after ∧
        after.status = transition.status := by
    have hjobId := (linked _).jobId _ hjob
    simp only [step, answer, expireLease, hadmit, Store.enqueue, hjobId]
    split_ifs <;> exact ⟨_, Dict.get?_set_self .., rfl⟩
  obtain ⟨stored, -, hstored, hstill, -⟩ := (agree.outcome record (hattempts ▸ hrecord)).mp hopen
  rw [hrecordJob, hafter] at hstored
  rw [← Option.some.inj hstored, hstatus] at hstill
  exact hstopped hstill

theorem late_mark_disagrees (linked : Linked s) {mark : DispatchRecord} {now : Int}
    (h : MarksSuperseded s mark) :
    ¬ KeepsSuperseded s (.markDispatched mark now)
      (step sha256 policy s (.markDispatched mark now)).1
      (step sha256 policy s (.markDispatched mark now)).2 := by
  intro keeps
  obtain ⟨job, entry, hjob, hentry, htoken, hpending, hqueued, hne⟩ := h
  have hsent : (step sha256 policy s (.markDispatched mark now)).2.outbox.get?
      (mark.jobId, mark.outboxSeq) = some { entry with dispatchState := .sent } := by
    simp only [step, answer, markDispatched, hentry, hjob]
    rw [if_neg (by simp [htoken, hpending]), if_pos hqueued]
    split
    · exact Dict.get?_set_self ..
    · split <;> exact Dict.get?_set_self ..
  have effect := step_effect sha256 policy linked (.markDispatched mark now)
  generalize step sha256 policy s (.markDispatched mark now) = after at effect keeps hsent
  obtain ⟨reply, s'⟩ := after
  cases effect with
  | refused op fault =>
    rw [hentry] at hsent
    have hstate := congrArg Outbox.dispatchState (Option.some.inj hsent)
    exact absurd (hpending.symm.trans hstate) (by rintro ⟨⟩)
  | dispatched mark now _ record other job' run entry' before hentry' token pending queued hrun
      hjob' jobs =>
    obtain ⟨-, -, hjobs⟩ := keeps.marks mark now job entry _ rfl rfl hjob hentry hne
    have hmoved : s'.jobs.get? mark.jobId = some job' := by
      rw [jobs]
      exact Dict.get?_set_self ..
    have hstayed : s'.jobs.get? mark.jobId = some { job with updatedAt := now } := by
      rw [hjobs]
      exact Dict.get?_set_self ..
    have hstatus := congrArg Job.status (Option.some.inj (hmoved.symm.trans hstayed))
    rw [hjob'] at hstatus
    exact absurd (hstatus.trans hqueued) (by rintro ⟨⟩)
  | confirmed mark now _ record other entry' before hentry' token pending notQueued hs =>
    obtain rfl := Option.some.inj (hjob.symm.trans before)
    exact notQueued hqueued

theorem calm_of_agreement (linked : Linked s) (tallied : Tallied s) {op : Op}
    (tables : TablesAgree (step sha256 policy s op).2)
    (keeps : KeepsSuperseded s op (step sha256 policy s op).1 (step sha256 policy s op).2) :
    Calm s op := by
  cases op with
  | expireLease lease now token => exact fun h => reclaim_disagrees linked tallied h tables
  | markDispatched mark now => exact fun h => late_mark_disagrees linked h keeps
  | _ => trivial

/-- With fresh attempt ids the tables agree along exactly the calm runs. -/
theorem run_agreement_iff (ops : List Op) (fresh : Along sha256 policy DrawsFresh ops) :
    Agreement sha256 policy ops ↔ Along sha256 policy Calm ops := by
  constructor
  · intro agreement
    induction ops using List.reverseRecOn with
    | nil => exact .nil
    | append_singleton ops op ih =>
      have calm := ih fresh.prefix agreement.prefix
      have tables := agreement.tables (ops ++ [op]) [] (by simp)
      rw [run_snoc] at tables
      exact calm.snoc (calm_of_agreement (run_linked ops) (run_tallied ops fresh.prefix calm)
        tables agreement.superseded.last)
  · intro calm
    constructor
    · rintro earlier later rfl
      exact (run_tallied earlier fresh.prefix calm.prefix).agree
    · intro earlier op later h
      exact (step_effect _ _ (run_linked earlier) op).keepsSuperseded (calm earlier op later h)

/-- A created and claimed job is a calm run. -/
theorem run_agreement_claimed :
    Agreement (fun _ => sampleDigest) {} [sampleCreate, sampleClaim] :=
  (run_agreement_iff ([] ++ [sampleCreate] ++ [sampleClaim])
    ((Along.nil.snoc trivial).snoc fun _ h => absurd h List.not_mem_nil)).mpr
    ((Along.nil.snoc trivial).snoc trivial)

def reclaimCalls : List Op :=
  [sampleCreate, sampleClaim,
    .expireLease { jobId := ⟨1⟩, runId := ⟨2⟩, fencingToken := 1, leaseExpiresAt := 60 } 60 ⟨11⟩]

/-- The job resumes under a new run before its first round is marked as sent. -/
def lateMarkCalls : List Op :=
  [sampleCreate, sampleClaim, .finish sampleAttempt .needsHuman 5 none [⟨30⟩] none,
    .resumeAfterHuman ⟨1⟩ { runId := ⟨4⟩, revision := sampleRevision 1 } 6 ⟨12⟩,
    .markDispatched { jobId := ⟨1⟩, runId := ⟨2⟩, outboxSeq := 1, dispatchToken := ⟨10⟩,
                      availableAt := 0 } 7]

theorem agreement_fails :
    ¬ Agreement (fun _ => sampleDigest) {} reclaimCalls ∧
      ¬ Agreement (fun _ => sampleDigest) {} lateMarkCalls := by
  constructor
  · intro agreement
    have tables := agreement.tables reclaimCalls [] rfl
    obtain ⟨job, -, hjob, hrunning, -⟩ := (tables.outcome _ (List.mem_singleton_self _)).mp rfl
    obtain rfl := Option.some.inj hjob
    cases hrunning
  · intro agreement
    have tables := agreement.tables lateMarkCalls [] rfl
    exact absurd (tables.status ⟨1⟩ _ _ rfl rfl) nofun

end AppraisalReview.MemoryJobStore
