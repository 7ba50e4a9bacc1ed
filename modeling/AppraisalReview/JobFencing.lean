import AppraisalReview.JobLaws
import Mathlib.Data.List.Induction

set_option autoImplicit false

/-!
# Fencing tokens and append-only publication

A claim is the only call that raises a token, and every other call leaves a
released lease released, so an attempt that lost its lease never gets it back.
-/
namespace AppraisalReview.MemoryJobStore

variable {sha256 : String → Digest} {policy : JobPolicy} {s s' : Store}

structure RunStep (run run' : Run) : Prop where
  runId : run'.runId = run.runId
  revision : run'.revision = run.revision
  token : run'.fencingToken = run.fencingToken + 1 ∨
    (run'.fencingToken = run.fencingToken ∧ (run.leaseOwner = none → run'.leaseOwner = none))

theorem RunStep.refl (run : Run) : RunStep run run :=
  ⟨rfl, rfl, .inr ⟨rfl, id⟩⟩

theorem RunStep.le {run run' : Run} (h : RunStep run run') :
    run.fencingToken ≤ run'.fencingToken := by
  obtain htoken | ⟨htoken, -⟩ := h.token <;> omega

theorem Touched.runStep {j : UUID} {job job' : Job} {run run' : Run}
    (touched : Touched s s' j job run job' run') (h : RunStep run run') (key : UUID × UUID)
    (old : Run) (hold : s.runs.get? key = some old) :
    ∃ new, s'.runs.get? key = some new ∧ RunStep old new := by
  rw [touched.runs]
  split_ifs with hkey
  · subst hkey
    obtain rfl := Option.some.inj (touched.current.symm.trans hold)
    exact ⟨run', rfl, h⟩
  · exact ⟨old, hold, .refl old⟩

theorem runStep_set {key : UUID × UUID} {run : Run} (runs : s'.runs = s.runs.set key run)
    (h : ∀ old, s.runs.get? key = some old → RunStep old run) (key' : UUID × UUID) (old : Run)
    (hold : s.runs.get? key' = some old) :
    ∃ new, s'.runs.get? key' = some new ∧ RunStep old new := by
  rw [runs, Dict.get?_set]
  split_ifs with hkey
  · subst hkey
    exact ⟨run, rfl, h old hold⟩
  · exact ⟨old, hold, .refl old⟩

/-- No call removes a run, lowers a token, or re-leases a run without a new token. -/
theorem Effect.runStep {op : Op} {reply : Except Fault Reply} (linked : Linked s)
    (h : Effect sha256 policy s op reply s') (key : UUID × UUID) (old : Run)
    (hold : s.runs.get? key = some old) :
    ∃ new, s'.runs.get? key = some new ∧ RunStep old new := by
  cases h with
  | refused | replayed | abandoned | deferred => exact ⟨old, hold, .refl old⟩
  | created principal submission j r now token _ record job run unused hjob hrun jobs runs =>
    refine runStep_set runs (fun other hother => ?_) key old hold
    obtain ⟨known, hknown⟩ := (linked j).owner _ _ hother
    exact absurd (hknown.symm.trans unused) (Option.some_ne_none _)
  | claimed j r owner attemptId leaseSeconds now _ job run attempt hattempt touched =>
    exact touched.runStep ⟨rfl, rfl, .inl rfl⟩ key old hold
  | extended attempt leaseSeconds now _ job run touched =>
    exact touched.runStep ⟨rfl, rfl, .inr ⟨rfl, id⟩⟩ key old hold
  | finished attempt event now problem openTaskIds result _ record job run transition version
      touched => exact touched.runStep ⟨rfl, rfl, .inr ⟨rfl, fun _ => rfl⟩⟩ key old hold
  | reclaimed lease now token _ record job job' run transition deadline touched =>
    exact touched.runStep ⟨rfl, rfl, .inr ⟨rfl, fun _ => rfl⟩⟩ key old hold
  | flagged j now _ record job run touched => exact touched.runStep (.refl run) key old hold
  | cancelled j now _ record job job' run hjob touched =>
    exact touched.runStep ⟨rfl, rfl, .inr ⟨rfl, fun _ => rfl⟩⟩ key old hold
  | retried j availableAt now token _ record job job' run hjob touched =>
    exact touched.runStep ⟨rfl, rfl, .inr ⟨rfl, id⟩⟩ key old hold
  | rejected j r task now _ record job job' run status hjob touched =>
    exact touched.runStep ⟨rfl, rfl, .inr ⟨rfl, id⟩⟩ key old hold
  | resumed j reference now token _ record job job' current before hcurrent waiting unused
      revised sameCase bare hjob jobs runs =>
    refine runStep_set runs (fun other hother => ?_) key old hold
    exact absurd (hother.symm.trans unused) (Option.some_ne_none _)
  | dispatched mark now _ record job job' run entry before hentry token pending queued hrun hjob
      jobs runs =>
    refine runStep_set runs (fun other hother => ?_) key old hold
    obtain rfl := Option.some.inj (hrun.symm.trans hother)
    exact ⟨rfl, rfl, .inr ⟨rfl, id⟩⟩
  | confirmed mark now _ record job entry before hentry token pending notQueued hs =>
    subst hs
    exact ⟨old, hold, .refl old⟩

variable (sha256 policy) in
theorem step_runStep (linked : Linked s) (op : Op) (key : UUID × UUID) (old : Run)
    (hold : s.runs.get? key = some old) :
    ∃ new, (step sha256 policy s op).2.runs.get? key = some new ∧ RunStep old new :=
  (step_effect _ _ linked op).runStep linked key old hold

theorem run_keeps_run (linked : Linked s) (ops : List Op) (key : UUID × UUID) (old : Run)
    (hold : s.runs.get? key = some old) : ∃ new, (run sha256 policy s ops).runs.get? key = some new := by
  have kept := run_invariant sha256 policy
    (fun s => Linked s ∧ ∃ new, s.runs.get? key = some new)
    (fun s op ⟨linked, new, hnew⟩ => ⟨step_linked _ _ linked op, by
      obtain ⟨next, hnext, -⟩ := step_runStep sha256 policy linked op _ _ hnew
      exact ⟨next, hnext⟩⟩) s ⟨linked, old, hold⟩ ops
  exact kept.2

/-- The attempt's run went on to a later token, or released the lease of this one. -/
def Lost (s : Store) (attempt : ClaimedAttempt) : Prop :=
  ∃ run, s.runs.get? (attempt.jobId, attempt.runId) = some run ∧
    (attempt.fencingToken < run.fencingToken ∨
      attempt.fencingToken = run.fencingToken ∧ run.leaseOwner = none)

theorem RunStep.lost {run run' : Run} (h : RunStep run run') {token : ℕ}
    (lost : token < run.fencingToken ∨ token = run.fencingToken ∧ run.leaseOwner = none) :
    token < run'.fencingToken ∨ token = run'.fencingToken ∧ run'.leaseOwner = none := by
  obtain hlt | ⟨heq, hnone⟩ := lost
  · exact .inl (hlt.trans_le h.le)
  · obtain htoken | ⟨htoken, hkeeps⟩ := h.token
    · exact .inl (by omega)
    · exact .inr ⟨heq.trans htoken.symm, hkeeps hnone⟩

variable (sha256 policy) in
theorem step_lost (linked : Linked s) (op : Op) {attempt : ClaimedAttempt} (lost : Lost s attempt) :
    Lost (step sha256 policy s op).2 attempt := by
  obtain ⟨run, hrun, hlost⟩ := lost
  obtain ⟨run', hrun', hstep⟩ := step_runStep sha256 policy linked op _ _ hrun
  exact ⟨run', hrun', hstep.lost hlost⟩

variable (sha256 policy) in
theorem run_lost (linked : Linked s) (ops : List Op) {attempt : ClaimedAttempt}
    (lost : Lost s attempt) : Lost (run sha256 policy s ops) attempt :=
  (run_invariant sha256 policy (fun s => Linked s ∧ Lost s attempt)
    (fun _ op h => ⟨step_linked _ _ h.1 op, step_lost _ _ h.1 op h.2⟩) s ⟨linked, lost⟩ ops).2

theorem Lost.no_authority {attempt : ClaimedAttempt} (lost : Lost s attempt) (job : Job)
    (run : Run) : authority s attempt ≠ .ok (job, run) := by
  intro hauthority
  obtain ⟨-, hrun, holds⟩ := authority_ok hauthority
  obtain ⟨run', hrun', hlost⟩ := lost
  obtain rfl := Option.some.inj (hrun.symm.trans hrun')
  obtain hlt | ⟨-, hnone⟩ := hlost
  · exact absurd holds.token (by omega)
  · exact absurd (holds.owner.symm.trans hnone) (Option.some_ne_none _)

theorem refused_of_no_authority {attempt : ClaimedAttempt}
    (h : ∀ job run, authority s attempt ≠ .ok (job, run)) :
    (∀ leaseSeconds now, ∃ fault,
      step sha256 policy s (.heartbeat attempt leaseSeconds now) = (.error fault, s)) ∧
    ∀ event now problem openTaskIds result, ∃ fault,
      step sha256 policy s (.finish attempt event now problem openTaskIds result) =
        (.error fault, s) := by
  constructor
  · intro leaseSeconds now
    cases hadmit : heartbeatAdmission policy s attempt leaseSeconds with
    | error fault => exact ⟨fault, by simp only [step, heartbeat, hadmit]; rfl⟩
    | ok admitted => exact absurd (heartbeatAdmission_ok hadmit).2 (h _ _)
  · intro event now problem openTaskIds result
    cases hadmit : finishAdmission policy s attempt event openTaskIds result with
    | error fault => exact ⟨fault, by simp only [step, finish, hadmit]; rfl⟩
    | ok admitted =>
      obtain ⟨-, -, run, finishing⟩ := finishAdmission_ok hadmit
      exact absurd finishing.authority (h _ _)

def history (sha256 : String → Digest) (policy : JobPolicy) (s : Store) :
    List Op → List (Op × Except Fault Reply)
  | [] => []
  | op :: ops =>
    (op, (step sha256 policy s op).1) :: history sha256 policy (step sha256 policy s op).2 ops

theorem history_append (s : Store) (xs ys : List Op) :
    history sha256 policy s (xs ++ ys) =
      history sha256 policy s xs ++ history sha256 policy (run sha256 policy s xs) ys := by
  induction xs generalizing s with
  | nil => rfl
  | cons op xs ih => simp only [List.cons_append, history, ih, run_cons]

def issuedBy : Op × Except Fault Reply → Option ClaimedAttempt
  | (_, .ok (.claimed attempt)) => some attempt
  | _ => none

theorem issuedBy_eq {call : Op × Except Fault Reply} {attempt : ClaimedAttempt}
    (h : issuedBy call = some attempt) : call.2 = .ok (.claimed attempt) := by
  unfold issuedBy at h
  split at h
  · rw [Option.some.inj h]
  · cases h

def issued (calls : List (Op × Except Fault Reply)) : List ClaimedAttempt :=
  calls.filterMap issuedBy

def committedBy : Op × Except Fault Reply → Option (ClaimedAttempt × ResultReference)
  | (.finish attempt .publishResult _ _ _ (some ref), .ok _) => some (attempt, ref)
  | _ => none

def committed (calls : List (Op × Except Fault Reply)) :
    List (ClaimedAttempt × ResultReference) :=
  calls.filterMap committedBy

/-- The call finished the attempt, or reclaimed the lease the attempt held. -/
def ends (attempt : ClaimedAttempt) : Op × Except Fault Reply → Prop
  | (.finish finished _ _ _ _ _, .ok _) => finished = attempt
  | (.expireLease lease _ _, .ok _) => lease.jobId = attempt.jobId ∧
      lease.runId = attempt.runId ∧ lease.fencingToken = attempt.fencingToken
  | _ => False

theorem Effect.lost_of_ends {op : Op} {reply : Except Fault Reply} {attempt : ClaimedAttempt}
    (h : Effect sha256 policy s op reply s') (hends : ends attempt (op, reply)) :
    Lost s' attempt := by
  cases h with
  | finished finished event now problem openTaskIds result _ record job run transition version
      touched hcurrent holds =>
    obtain rfl : finished = attempt := hends
    refine ⟨{ run.settled transition.status with resultVersion := version }, ?_,
      .inr ⟨holds.token.symm, rfl⟩⟩
    rw [touched.runs, ← hcurrent, if_pos rfl]
  | reclaimed lease now token _ record job job' run transition deadline touched hcurrent running
      htoken =>
    obtain ⟨hjob, hrun, htoken'⟩ := hends
    refine ⟨run.settled transition.status, ?_, .inr ⟨htoken'.symm.trans htoken.symm, rfl⟩⟩
    rw [touched.runs, ← hjob, ← hrun, ← hcurrent, if_pos rfl]
  | refused op fault => cases op <;> exact hends.elim
  | _ => exact hends.elim

/-- The job's row keeps everything but its clock, and none of its runs changes. -/
structure Frozen (s s' : Store) (j : UUID) (job : Job) : Prop where
  job : ∃ t, s'.jobs.get? j = some { job with updatedAt := t }
  runs : ∀ r, s'.runs.get? (j, r) = s.runs.get? (j, r)

theorem Frozen.of_sameRows {j : UUID} {job : Job} (hjob : s.jobs.get? j = some job)
    (same : SameRows s s' j) : Frozen s s' j job where
  job := ⟨job.updatedAt, same.job.trans hjob⟩
  runs := same.run

theorem Effect.frozen {op : Op} {reply : Except Fault Reply}
    (h : Effect sha256 policy s op reply s') {j : UUID} {job : Job}
    (hjob : s.jobs.get? j = some job) (terminal : job.status.terminal = true) :
    Frozen s s' j job := by
  by_cases hj : j = op.target
  case neg => exact .of_sameRows hjob (h.sameRows hj)
  subst hj
  have busy : ∀ {other : Job}, s.jobs.get? op.target = some other →
      other.status.terminal = false → Frozen s s' op.target job := by
    intro other hother hlive
    obtain rfl := Option.some.inj (hjob.symm.trans hother)
    exact absurd (terminal.symm.trans hlive) nofun
  have live : ∀ {status : JobStatus} {other : Job}, s.jobs.get? op.target = some other →
      other.status = status → status.terminal = false → Frozen s s' op.target job :=
    fun hother hstatus hlive => busy hother (hstatus ▸ hlive)
  cases h with
  | refused | replayed | abandoned | deferred => exact ⟨⟨job.updatedAt, hjob⟩, fun _ => rfl⟩
  | created principal submission j r now token _ record other run unused =>
    exact absurd (hjob.symm.trans unused) (Option.some_ne_none _)
  | claimed j r owner attemptId leaseSeconds now _ other run attempt hattempt touched hcurrent
      claimable => exact busy touched.before (JobStatus.live_of_claimable claimable).1
  | extended attempt leaseSeconds now _ other run touched hcurrent holds =>
    exact live touched.before holds.running rfl
  | finished attempt event now problem openTaskIds result _ record other run transition version
      touched hcurrent holds => exact live touched.before holds.running rfl
  | reclaimed lease now token _ record other job' run transition deadline touched hcurrent
      running => exact live touched.before running rfl
  | flagged j now _ record other run touched running => exact live touched.before running rfl
  | cancelled j now _ record other job' run hother touched cancellable =>
    exact busy touched.before (JobStatus.live_of_cancellable cancellable).1
  | retried j availableAt now token _ record other job' run hother touched failed =>
    exact live touched.before failed rfl
  | rejected j r task now _ record other job' run status hother touched hcurrent waiting =>
    exact live touched.before waiting rfl
  | resumed j reference now token _ record other job' current before hcurrent waiting =>
    exact live before waiting rfl
  | dispatched mark now _ record other job' run entry before hentry token pending queued =>
    exact live before queued rfl
  | confirmed mark now _ record other entry before hentry token pending notQueued hs =>
    subst hs
    obtain rfl := Option.some.inj (hjob.symm.trans before)
    exact ⟨⟨now, Dict.get?_set_self ..⟩, fun _ => rfl⟩

def Sealed (s : Store) (attempt : ClaimedAttempt) (ref : ResultReference) : Prop :=
  ∃ run, s.runs.get? (attempt.jobId, attempt.runId) = some run ∧ run.resultVersion ≠ 0 ∧
    run.fencingToken = ref.fencingToken

structure Backed (s : Store) (calls : List (Op × Except Fault Reply)) : Prop where
  bounded : ∀ attempt ∈ issued calls, ∃ run,
    s.runs.get? (attempt.jobId, attempt.runId) = some run ∧
      attempt.fencingToken ≤ run.fencingToken
  published : ∀ p ∈ committed calls, Sealed s p.1 p.2
  kept : ∀ p ∈ committed calls, s.results.get? (p.2.runId, p.2.resultVersion) = some p.2

structure Recorded (s : Store) (calls : List (Op × Except Fault Reply)) : Prop
    extends Backed s calls where
  increasing : (issued calls).Pairwise fun a b =>
    a.jobId = b.jobId → a.runId = b.runId → a.fencingToken < b.fencingToken
  once : (committed calls).Pairwise fun p q => (p.1.jobId, p.1.runId) ≠ (q.1.jobId, q.1.runId)
  known : ∀ key ref, s.results.get? key = some ref →
    key = (ref.runId, 1) ∧ ∃ attempt, (attempt, ref) ∈ committed calls ∧ ref.runId = attempt.runId

theorem Effect.sealed {op : Op} {reply : Except Fault Reply} (linked : Linked s)
    (lawful : ∀ j, LawfulAt s j) (h : Effect sha256 policy s op reply s')
    {attempt : ClaimedAttempt} {ref : ResultReference} (hsealed : Sealed s attempt ref) :
    Sealed s' attempt ref := by
  obtain ⟨run, hrun, hversion, htoken⟩ := hsealed
  obtain ⟨job, hjob⟩ := (linked _).owner _ _ hrun
  have hsucceeded : job.status = .succeeded := by
    by_cases hcurrent : attempt.runId = job.currentRunId
    · exact ((lawful _).law job run hjob (hcurrent ▸ hrun)).published.mpr hversion
    · exact absurd ((lawful _).unpublished job _ run hjob hrun hcurrent) hversion
  have hterminal : job.status.terminal = true := by rw [hsucceeded]; rfl
  exact ⟨run, ((h.frozen hjob hterminal).runs _).trans hrun, hversion, htoken⟩

theorem Effect.backed {op : Op} {reply : Except Fault Reply} (linked : Linked s)
    (lawful : ∀ j, LawfulAt s j) (h : Effect sha256 policy s op reply s')
    {calls : List (Op × Except Fault Reply)} (backed : Backed s calls) : Backed s' calls where
  bounded attempt hattempt := by
    obtain ⟨run, hrun, hle⟩ := backed.bounded attempt hattempt
    obtain ⟨run', hrun', hstep⟩ := h.runStep linked _ _ hrun
    exact ⟨run', hrun', hle.trans hstep.le⟩
  published p hp := h.sealed linked lawful (backed.published p hp)
  kept p hp := h.extends _ _ (backed.kept p hp)

theorem committedBy_error (op : Op) (fault : Fault) : committedBy (op, .error fault) = none := by
  cases op with
  | finish attempt event now problem openTaskIds result => cases event <;> cases result <;> rfl
  | _ => rfl

theorem committedBy_finish {attempt : ClaimedAttempt} {event : JobEvent} {now : Int}
    {problem : Option ServiceProblem} {openTaskIds : List UUID} {result : Option ResultReference}
    {reply : Except Fault Reply} (h : event ≠ .publishResult) :
    committedBy (.finish attempt event now problem openTaskIds result, reply) = none := by
  cases event with
  | publishResult => exact absurd rfl h
  | _ => rfl

theorem Recorded.quiet {calls : List (Op × Except Fault Reply)} {call : Op × Except Fault Reply}
    (recorded : Recorded s calls) (backed : Backed s' calls) (hissued : issuedBy call = none)
    (hcommitted : committedBy call = none) (results : s'.results = s.results) :
    Recorded s' (calls ++ [call]) := by
  have hissued : issued (calls ++ [call]) = issued calls := by simp [issued, hissued]
  have hcommitted : committed (calls ++ [call]) = committed calls := by
    simp [committed, hcommitted]
  refine ⟨⟨?_, ?_, ?_⟩, ?_, ?_, ?_⟩ <;> simp only [hissued, hcommitted, results]
  · exact backed.bounded
  · exact backed.published
  · exact results ▸ backed.kept
  · exact recorded.increasing
  · exact recorded.once
  · exact recorded.known

theorem Recorded.claim {calls : List (Op × Except Fault Reply)} {call : Op × Except Fault Reply}
    {attempt : ClaimedAttempt} {run : Run} (recorded : Recorded s calls) (backed : Backed s' calls)
    (hissued : issuedBy call = some attempt) (hcommitted : committedBy call = none)
    (results : s'.results = s.results)
    (hrun : s'.runs.get? (attempt.jobId, attempt.runId) = some run)
    (hle : attempt.fencingToken ≤ run.fencingToken)
    (later : ∀ earlier ∈ issued calls, earlier.jobId = attempt.jobId →
      earlier.runId = attempt.runId → earlier.fencingToken < attempt.fencingToken) :
    Recorded s' (calls ++ [call]) := by
  have hissued : issued (calls ++ [call]) = issued calls ++ [attempt] := by
    simp [issued, hissued]
  have hcommitted : committed (calls ++ [call]) = committed calls := by
    simp [committed, hcommitted]
  refine ⟨⟨?_, ?_, ?_⟩, ?_, ?_, ?_⟩ <;> simp only [hissued, hcommitted]
  · intro other hother
    obtain hother | rfl := List.mem_append.mp hother |>.imp_right List.mem_singleton.mp
    · exact backed.bounded other hother
    · exact ⟨run, hrun, hle⟩
  · exact backed.published
  · exact backed.kept
  · refine List.pairwise_append.mpr ⟨recorded.increasing, List.pairwise_singleton .., ?_⟩
    intro earlier hearlier other hother
    obtain rfl := List.mem_singleton.mp hother
    exact later earlier hearlier
  · exact recorded.once
  · rw [results]
    exact recorded.known

theorem Recorded.commit {calls : List (Op × Except Fault Reply)}
    {call : Op × Except Fault Reply} {attempt : ClaimedAttempt} {ref : ResultReference}
    (recorded : Recorded s calls) (backed : Backed s' calls) (hissued : issuedBy call = none)
    (hcommitted : committedBy call = some (attempt, ref))
    (results : s'.results = s.results.set (ref.runId, ref.resultVersion) ref)
    (hone : ref.resultVersion = 1) (hrunId : ref.runId = attempt.runId)
    (hsealed : Sealed s' attempt ref)
    (first : ∀ earlier ∈ committed calls,
      (earlier.1.jobId, earlier.1.runId) ≠ (attempt.jobId, attempt.runId)) :
    Recorded s' (calls ++ [call]) := by
  have hissued : issued (calls ++ [call]) = issued calls := by simp [issued, hissued]
  have hcommitted : committed (calls ++ [call]) = committed calls ++ [(attempt, ref)] := by
    simp [committed, hcommitted]
  refine ⟨⟨?_, ?_, ?_⟩, ?_, ?_, ?_⟩ <;> simp only [hissued, hcommitted]
  · exact backed.bounded
  · intro p hp
    obtain hp | rfl := List.mem_append.mp hp |>.imp_right List.mem_singleton.mp
    · exact backed.published p hp
    · exact hsealed
  · intro p hp
    obtain hp | rfl := List.mem_append.mp hp |>.imp_right List.mem_singleton.mp
    · exact backed.kept p hp
    · rw [results, Dict.get?_set_self]
  · exact recorded.increasing
  · refine List.pairwise_append.mpr ⟨recorded.once, List.pairwise_singleton .., ?_⟩
    intro earlier hearlier p hp
    obtain rfl := List.mem_singleton.mp hp
    exact first earlier hearlier
  · intro key other hother
    rw [results, Dict.get?_set] at hother
    split_ifs at hother with hkey
    · obtain rfl := Option.some.inj hother
      exact ⟨by rw [hkey, hone], attempt, List.mem_append_right _ (List.mem_singleton_self _),
        hrunId⟩
    · obtain ⟨hknown, other', hmem, hrun⟩ := recorded.known key other hother
      exact ⟨hknown, other', List.mem_append_left _ hmem, hrun⟩

theorem Effect.recorded {op : Op} {reply : Except Fault Reply} (linked : Linked s)
    (lawful : ∀ j, LawfulAt s j) (h : Effect sha256 policy s op reply s')
    {calls : List (Op × Except Fault Reply)} (recorded : Recorded s calls) :
    Recorded s' (calls ++ [(op, reply)]) := by
  have backed := h.backed linked lawful recorded.toBacked
  cases h with
  | claimed j r owner attemptId leaseSeconds now _ job run attempt hattempt touched hcurrent
      claimable outbox attempts results =>
    subst hattempt hcurrent
    have hstored : s'.runs.get? (j, job.currentRunId) =
        some (run.leased owner attemptId (now + leaseSeconds)) := by
      rw [touched.runs, if_pos rfl]
    refine recorded.claim backed rfl rfl results hstored (Nat.le_refl _)
      fun earlier hearlier hj hr => ?_
    obtain ⟨known, hknown, hle⟩ := recorded.bounded earlier hearlier
    change earlier.jobId = j at hj
    change earlier.runId = job.currentRunId at hr
    rw [hj, hr] at hknown
    obtain rfl := Option.some.inj (touched.current.symm.trans hknown)
    exact Nat.lt_succ_of_le hle
  | finished attempt event now problem openTaskIds result _ record job run transition version
      touched hcurrent holds finishes decided explained published =>
    obtain ⟨rfl, ref, rfl, publishes, rfl, hresults⟩ | ⟨hother, -, hresults⟩ := published
    · have hzero := ((lawful _).law job run touched.before touched.current).version_zero
        (by simp [holds.running])
      have hone : ref.resultVersion = 1 := by
        rw [publishes.next, ← publishes.expected, hzero]
      refine recorded.commit backed rfl rfl hresults hone publishes.runId ?_ ?_
      · refine ⟨{ run.settled transition.status with resultVersion := ref.resultVersion }, ?_, ?_,
          holds.token.trans publishes.token.symm⟩
        · rw [touched.runs, ← hcurrent, if_pos rfl]
        · simp [hone]
      · intro earlier hearlier hsame
        obtain ⟨known, hknown, hversion, -⟩ := recorded.published earlier hearlier
        rw [hsame, ← hcurrent, touched.current] at hknown
        obtain rfl := Option.some.inj hknown
        exact hversion hzero
    · exact recorded.quiet backed rfl (committedBy_finish hother) hresults
  | confirmed mark now _ record job entry before hentry token pending notQueued hs =>
    subst hs
    exact recorded.quiet backed rfl rfl rfl
  | refused op fault => exact recorded.quiet backed rfl (committedBy_error op fault) rfl
  | replayed | abandoned | deferred => exact recorded.quiet backed rfl rfl rfl
  | created | extended | reclaimed | flagged | cancelled | retried | rejected | resumed
  | dispatched => exact recorded.quiet backed rfl rfl ‹_›

theorem run_snoc (s : Store) (ops : List Op) (op : Op) :
    run sha256 policy s (ops ++ [op]) = (step sha256 policy (run sha256 policy s ops) op).2 := by
  rw [run_append]
  rfl

theorem history_snoc (s : Store) (ops : List Op) (op : Op) :
    history sha256 policy s (ops ++ [op]) = history sha256 policy s ops ++
      [(op, (step sha256 policy (run sha256 policy s ops) op).1)] := by
  rw [history_append]
  rfl

/-- Every call of the run meets the condition at the store it is made on. -/
def Along (sha256 : String → Digest) (policy : JobPolicy) (P : Store → Op → Prop)
    (ops : List Op) : Prop :=
  ∀ earlier op later, ops = earlier ++ op :: later → P (run sha256 policy {} earlier) op

theorem Along.prefix {P : Store → Op → Prop} {xs ys : List Op}
    (h : Along sha256 policy P (xs ++ ys)) : Along sha256 policy P xs := by
  rintro earlier op later rfl
  exact h earlier op (later ++ ys) (by simp)

theorem Along.last {P : Store → Op → Prop} {xs : List Op} {op : Op}
    (h : Along sha256 policy P (xs ++ [op])) : P (run sha256 policy {} xs) op :=
  h xs op [] rfl

theorem Along.nil {P : Store → Op → Prop} : Along sha256 policy P [] := by
  intro earlier op later h
  simp at h

theorem Along.snoc {P : Store → Op → Prop} {xs : List Op} {op : Op}
    (h : Along sha256 policy P xs) (hop : P (run sha256 policy {} xs) op) :
    Along sha256 policy P (xs ++ [op]) := by
  intro earlier call later heq
  obtain rfl | ⟨rest, last, rfl⟩ := List.eq_nil_or_concat later
  · obtain ⟨rfl, hcall⟩ := List.append_inj' heq rfl
    obtain rfl := List.singleton_inj.mp hcall
    exact hop
  · have hsplit : xs ++ [op] = (earlier ++ call :: rest) ++ [last] := by simpa using heq
    exact h earlier call rest (List.append_inj' hsplit rfl).1

theorem run_recorded (ops : List Op) :
    Recorded (run sha256 policy {} ops) (history sha256 policy {} ops) := by
  induction ops using List.reverseRecOn with
  | nil =>
    exact ⟨⟨fun _ h => absurd h List.not_mem_nil, fun _ h => absurd h List.not_mem_nil,
      fun _ h => absurd h List.not_mem_nil⟩, .nil, .nil,
      fun _ ref h => absurd h (Option.some_ne_none ref).symm⟩
  | append_singleton ops op ih =>
    rw [run_snoc, history_snoc]
    exact (step_effect _ _ (run_linked ops) op).recorded (run_linked ops) (run_lawful ops) ih

theorem run_extends (s : Store) (linked : Linked s) (ops : List Op) :
    Extends s (run sha256 policy s ops) :=
  (run_invariant sha256 policy (fun s' => Linked s' ∧ Extends s s')
    (fun _ op h => ⟨step_linked _ _ h.1 op, fun key ref href =>
      (step_effect _ _ h.1 op).extends key ref (h.2 key ref href)⟩) s ⟨linked, fun _ _ => id⟩ ops).2

/-- Two attempts of one job cannot both hold its lease unless they share run and token. -/
theorem authority_unique (linked : Linked s) {a b : ClaimedAttempt} (hjob : a.jobId = b.jobId)
    (ha : (authority s a).isOk = true) (hb : (authority s b).isOk = true) :
    a.runId = b.runId ∧ a.fencingToken = b.fencingToken := by
  cases hauthority : authority s a with
  | error fault => simp [hauthority, Except.isOk, Except.toBool] at ha
  | ok held =>
    cases hauthority' : authority s b with
    | error fault => simp [hauthority', Except.isOk, Except.toBool] at hb
    | ok held' =>
      obtain ⟨hja, hcurrent, hrun, holds⟩ := linked.authority hauthority
      obtain ⟨hjb, hcurrent', hrun', holds'⟩ := linked.authority hauthority'
      rw [← hjob] at hjb hrun'
      rw [Option.some.inj (hja.symm.trans hjb)] at hcurrent
      have hruns := hcurrent.symm.trans hcurrent'
      rw [← hruns] at hrun'
      obtain heq := Option.some.inj (hrun.symm.trans hrun')
      exact ⟨hruns, by rw [← holds.token, ← holds'.token, heq]⟩

/-- A list of which no two members share a property has at most one that has it. -/
theorem filter_le_one {α : Type} {p : α → Bool} {items : List α}
    (h : items.Pairwise fun a b => ¬ (p a = true ∧ p b = true)) :
    (items.filter p).length ≤ 1 := by
  have kept : (items.filter p).Pairwise fun _ _ => False := by
    refine (List.Pairwise.filter p h).imp_of_mem fun ha hb hne => ?_
    exact hne ⟨(List.mem_filter.mp ha).2, (List.mem_filter.mp hb).2⟩
  match items.filter p, kept with
  | [], _ => exact Nat.zero_le _
  | [_], _ => exact Nat.le_refl _
  | a :: b :: rest, kept => exact absurd (List.rel_of_pairwise_cons kept (List.mem_cons_self ..)) id

/-- Fencing and append-only publication of everything the calls `ops` do. -/
structure Fenced (sha256 : String → Digest) (policy : JobPolicy) (ops : List Op) : Prop where
  increasing : (issued (history sha256 policy {} ops)).Pairwise fun a b =>
    a.jobId = b.jobId → a.runId = b.runId → a.fencingToken < b.fencingToken
  single : ∀ j, ((issued (history sha256 policy {} ops)).filter fun attempt =>
    attempt.jobId = j ∧ (authority (run sha256 policy {} ops) attempt).isOk).length ≤ 1
  ended : ∀ earlier op later attempt, ops = earlier ++ op :: later →
    ends attempt (op, (step sha256 policy (run sha256 policy {} earlier) op).1) →
      (∀ leaseSeconds now, ∃ fault,
        step sha256 policy (run sha256 policy {} ops) (.heartbeat attempt leaseSeconds now) =
          (.error fault, run sha256 policy {} ops)) ∧
      ∀ event now problem openTaskIds result, ∃ fault,
        step sha256 policy (run sha256 policy {} ops)
            (.finish attempt event now problem openTaskIds result) =
          (.error fault, run sha256 policy {} ops)
  appendOnly : ∀ earlier later, ops = earlier ++ later →
    Extends (run sha256 policy {} earlier) (run sha256 policy {} ops)
  once : (committed (history sha256 policy {} ops)).Pairwise fun p q =>
    (p.1.jobId, p.1.runId) ≠ (q.1.jobId, q.1.runId)
  stored : ∀ runId version ref,
    (run sha256 policy {} ops).results.get? (runId, version) = some ref ↔
      runId = ref.runId ∧ version = 1 ∧
        ∃ attempt, (attempt, ref) ∈ committed (history sha256 policy {} ops) ∧
          attempt.runId = runId
  largest : ∀ p ∈ committed (history sha256 policy {} ops),
    ∀ attempt ∈ issued (history sha256 policy {} ops), attempt.jobId = p.1.jobId →
      attempt.runId = p.1.runId → attempt.fencingToken ≤ p.2.fencingToken

theorem run_fenced (ops : List Op) : Fenced sha256 policy ops := by
  have recorded : Recorded (run sha256 policy {} ops) (history sha256 policy {} ops) :=
    run_recorded ops
  refine ⟨recorded.increasing, ?_, ?_, ?_, recorded.once, ?_, ?_⟩
  · intro j
    refine filter_le_one (recorded.increasing.imp fun hlt hboth => ?_)
    simp only [decide_eq_true_eq] at hboth
    obtain ⟨⟨hja, ha⟩, hjb, hb⟩ := hboth
    obtain ⟨hrun, htoken⟩ := authority_unique (run_linked ops) (hja.trans hjb.symm) ha hb
    exact absurd (hlt (hja.trans hjb.symm) hrun) (by omega)
  · rintro earlier op later attempt rfl hends
    have linked : Linked (run sha256 policy {} earlier) := run_linked earlier
    have lost := (step_effect _ _ linked op).lost_of_ends hends
    have lost' := run_lost sha256 policy (step_linked _ _ linked op) later lost
    rw [← run_cons, ← run_append] at lost'
    exact refused_of_no_authority fun job run => lost'.no_authority job run
  · rintro earlier later rfl
    rw [run_append]
    exact run_extends _ (run_linked earlier) later
  · intro runId version ref
    constructor
    · intro href
      obtain ⟨hkey, attempt, hmem, hrun⟩ := recorded.known _ _ href
      obtain ⟨rfl, rfl⟩ := Prod.mk.inj hkey
      exact ⟨rfl, rfl, attempt, hmem, hrun.symm⟩
    · rintro ⟨rfl, rfl, attempt, hmem, -⟩
      have href := recorded.kept _ hmem
      have hversion := (Prod.mk.inj (recorded.known _ _ href).1).2
      rwa [hversion] at href
  · intro p hp attempt hattempt hjob hrun
    obtain ⟨run, hstored, hle⟩ := recorded.bounded attempt hattempt
    obtain ⟨run', hstored', -, htoken⟩ := recorded.published p hp
    rw [hjob, hrun, hstored'] at hstored
    obtain rfl := Option.some.inj hstored
    exact hle.trans_eq htoken

end AppraisalReview.MemoryJobStore
