import AppraisalReview.OrphanBodies

set_option autoImplicit false

/-!
# What a claimed attempt still holds

A claimed attempt keeps its authority until it is lost for good: there is no
third state, and a refused worker write tells which one it is.
-/
namespace AppraisalReview.MemoryJobStore

variable {sha256 : String → Digest} {policy : JobPolicy} {s s' : Store}
variable {attempt : ClaimedAttempt}

def LeaseKept (run run' : Run) : Prop :=
  run'.leaseOwner = none ∨
    (run'.leaseOwner = run.leaseOwner ∧ run'.attemptId = run.attemptId)

/-- A claim raises the token, and every other call keeps or releases the lease. -/
def LeaseStep (run run' : Run) : Prop :=
  run'.fencingToken = run.fencingToken + 1 ∨
    (run'.fencingToken = run.fencingToken ∧ LeaseKept run run')

theorem LeaseStep.refl (run : Run) : LeaseStep run run :=
  .inr ⟨rfl, .inr ⟨rfl, rfl⟩⟩

theorem LeaseStep.settled (run : Run) (status : JobStatus) (version : ℕ) :
    LeaseStep run { run.settled status with resultVersion := version } :=
  .inr ⟨rfl, .inl rfl⟩

theorem leaseStep_set {key : UUID × UUID} {run : Run} (runs : s'.runs = s.runs.set key run)
    (h : ∀ old, s.runs.get? key = some old → LeaseStep old run) (key' : UUID × UUID) (old : Run)
    (hold : s.runs.get? key' = some old) :
    ∃ new, s'.runs.get? key' = some new ∧ LeaseStep old new := by
  rw [runs, Dict.get?_set]
  split_ifs with hkey
  · subst hkey
    exact ⟨run, rfl, h old hold⟩
  · exact ⟨old, hold, .refl old⟩

theorem Touched.leaseStep {j : UUID} {job job' : Job} {run run' : Run}
    (touched : Touched s s' j job run job' run') (h : LeaseStep run run') (key : UUID × UUID)
    (old : Run) (hold : s.runs.get? key = some old) :
    ∃ new, s'.runs.get? key = some new ∧ LeaseStep old new := by
  rw [touched.runs]
  split_ifs with hkey
  · subst hkey
    obtain rfl := Option.some.inj (touched.current.symm.trans hold)
    exact ⟨run', rfl, h⟩
  · exact ⟨old, hold, .refl old⟩

theorem Effect.leaseStep {op : Op} {reply : Except Fault Reply} (linked : Linked s)
    (h : Effect sha256 policy s op reply s') (key : UUID × UUID) (old : Run)
    (hold : s.runs.get? key = some old) :
    ∃ new, s'.runs.get? key = some new ∧ LeaseStep old new := by
  cases h with
  | refused | replayed | abandoned | deferred => exact ⟨old, hold, .refl old⟩
  | created principal submission j r now token _ record job run unused hjob hrun jobs runs =>
    refine leaseStep_set runs (fun other hother => ?_) key old hold
    obtain ⟨known, hknown⟩ := (linked j).owner _ _ hother
    exact absurd (hknown.symm.trans unused) (Option.some_ne_none _)
  | claimed j r owner attemptId leaseSeconds now _ job run attempt hattempt touched =>
    exact touched.leaseStep (.inl rfl) key old hold
  | extended attempt leaseSeconds now _ job run touched =>
    exact touched.leaseStep (.inr ⟨rfl, .inr ⟨rfl, rfl⟩⟩) key old hold
  | finished attempt event now problem openTaskIds result _ record job run transition version
      touched => exact touched.leaseStep (.settled ..) key old hold
  | reclaimed lease now token _ record job job' run transition deadline touched =>
    exact touched.leaseStep (.settled run transition.status run.resultVersion) key old hold
  | flagged j now _ record job run touched => exact touched.leaseStep (.refl run) key old hold
  | cancelled j now _ record job job' run hjob touched =>
    exact touched.leaseStep (.settled run .cancelled run.resultVersion) key old hold
  | retried j availableAt now token _ record job job' run hjob touched =>
    exact touched.leaseStep (.inr ⟨rfl, .inr ⟨rfl, rfl⟩⟩) key old hold
  | rejected j r task now _ record job job' run status hjob touched =>
    exact touched.leaseStep (.inr ⟨rfl, .inr ⟨rfl, rfl⟩⟩) key old hold
  | resumed j reference now token _ record job job' current before hcurrent waiting unused
      revised sameCase bare hjob jobs runs =>
    refine leaseStep_set runs (fun other hother => ?_) key old hold
    exact absurd (hother.symm.trans unused) (Option.some_ne_none _)
  | dispatched mark now _ record job job' run entry before hentry token pending queued hrun hjob
      jobs runs =>
    refine leaseStep_set runs (fun other hother => ?_) key old hold
    obtain rfl := Option.some.inj (hrun.symm.trans hother)
    exact .inr ⟨rfl, .inr ⟨rfl, rfl⟩⟩
  | confirmed mark now _ record job entry before hentry token pending notQueued hs =>
    subst hs
    exact ⟨old, hold, .refl old⟩

/-- The attempt came from a claim: its run went on to a later token, released the lease of this
one, or still leases it to the attempt. -/
structure Owned (s : Store) (attempt : ClaimedAttempt) : Prop where
  expected : attempt.expectedResultVersion = 0
  row : ∃ run, s.runs.get? (attempt.jobId, attempt.runId) = some run ∧
    (attempt.fencingToken < run.fencingToken ∨
      (attempt.fencingToken = run.fencingToken ∧ (run.leaseOwner = none ∨
        (run.leaseOwner = some attempt.owner ∧ run.attemptId = some attempt.attemptId))))

def Holding (s : Store) (attempt : ClaimedAttempt) : Prop :=
  (authority s attempt).isOk = true

instance (s : Store) (attempt : ClaimedAttempt) : Decidable (Holding s attempt) :=
  inferInstanceAs (Decidable (_ = true))

theorem Holding.admitted (holding : Holding s attempt) :
    ∃ job run, authority s attempt = .ok (job, run) := by
  unfold Holding at holding
  cases hauthority : authority s attempt with
  | error fault => simp [hauthority, Except.isOk, Except.toBool] at holding
  | ok held => exact ⟨held.1, held.2, rfl⟩

theorem Lost.not_holding (lost : Lost s attempt) : ¬ Holding s attempt := by
  intro holding
  obtain ⟨job, run, hauthority⟩ := holding.admitted
  exact lost.no_authority job run hauthority

variable (sha256 policy) in
theorem Owned.step (owned : Owned s attempt) (linked : Linked s) (op : Op) :
    Owned (step sha256 policy s op).2 attempt := by
  obtain ⟨run, hrun, hstate⟩ := owned.row
  obtain ⟨run', hrun', hstep⟩ := (step_effect sha256 policy linked op).leaseStep linked _ _ hrun
  refine ⟨owned.expected, run', hrun', ?_⟩
  obtain hraised | ⟨htoken, hkept⟩ := hstep
  · left
    obtain hlt | ⟨heq, -⟩ := hstate <;> omega
  obtain hlt | ⟨heq, hlease⟩ := hstate
  · exact .inl (by omega)
  refine .inr ⟨heq.trans htoken.symm, ?_⟩
  obtain hnone | ⟨howner, hattempt⟩ := hkept
  · exact .inl hnone
  rw [howner, hattempt]
  exact hlease

variable (sha256 policy) in
theorem Owned.run (owned : Owned s attempt) (linked : Linked s) (ops : List Op) :
    Owned (run sha256 policy s ops) attempt :=
  (run_invariant sha256 policy (fun s => Linked s ∧ Owned s attempt)
    (fun _ op h => ⟨step_linked _ _ h.1 op, h.2.step sha256 policy h.1 op⟩) s ⟨linked, owned⟩ ops).2

theorem Owned.lost (owned : Owned s attempt) (linked : Linked s) (h : ¬ Holding s attempt) :
    Lost s attempt := by
  obtain ⟨run, hrun, hstate⟩ := owned.row
  obtain hlt | ⟨heq, hnone | ⟨howner, hattempt⟩⟩ := hstate
  · exact ⟨run, hrun, .inl hlt⟩
  · exact ⟨run, hrun, .inr ⟨heq, hnone⟩⟩
  obtain ⟨job, hjob⟩ := (linked _).owner _ _ hrun
  have hcurrent : job.currentRunId = attempt.runId :=
    linked.current_of_lease hjob hrun (.inr (by simp [howner]))
  have running : job.status = .running := by
    by_contra hstopped
    have unleased := ((linked _).leased job run hjob (hcurrent ▸ hrun)).stopped hstopped
    exact absurd (howner.symm.trans unleased.1) (Option.some_ne_none _)
  refine absurd ?_ h
  simp [Holding, authority, hjob, hrun, howner, heq, hattempt, running, Except.isOk, Except.toBool]

theorem Owned.lost_of_superseded (owned : Owned s attempt) (linked : Linked s) {job : Job}
    (hjob : s.jobs.get? attempt.jobId = some job) (h : job.currentRunId ≠ attempt.runId) :
    Lost s attempt := by
  refine owned.lost linked fun holding => h ?_
  obtain ⟨held, run, hauthority⟩ := holding.admitted
  obtain ⟨hheld, hcurrent, -⟩ := linked.authority hauthority
  obtain rfl := Option.some.inj (hjob.symm.trans hheld)
  exact hcurrent

theorem Effect.owned_of_claim {j r owner attemptId : UUID} {leaseSeconds now : Int}
    (lawful : ∀ j, LawfulAt s j)
    (h : Effect sha256 policy s (.claim j r owner leaseSeconds now attemptId)
      (.ok (.claimed attempt)) s') :
    Owned s' attempt ∧ attempt.jobId = j ∧ attempt.runId = r := by
  cases h with
  | claimed j r owner attemptId leaseSeconds now _ job run attempt hattempt touched hcurrent
      claimable =>
    have law := (lawful j).law job run touched.before touched.current
    subst hattempt
    refine ⟨⟨law.version_zero (JobStatus.not_succeeded_of_live
      (JobStatus.live_of_claimable claimable).1),
      run.leased owner attemptId (now + leaseSeconds), ?_, .inr ⟨rfl, .inr ⟨rfl, rfl⟩⟩⟩, rfl, rfl⟩
    rw [touched.runs, if_pos (by rw [hcurrent])]

theorem eventTransition_fault (facts : JobFacts) (event : JobEvent) (message : String) :
    eventTransition facts policy event ≠ .error (.conditionFailed message) := by
  unfold eventTransition conflict
  split <;> (try split_ifs) <;> nofun

theorem nextState_fault {facts : JobFacts} {event : JobEvent} {fault : Fault}
    (h : nextState facts event policy = .error fault) (message : String) :
    fault ≠ .conditionFailed message := by
  rintro rfl
  unfold nextState conflict at h
  split_ifs at h
  · cases h
  · cases h
  · cases h
  · cases h
  · exact eventTransition_fault facts event message h

theorem heartbeat_refused {leaseSeconds now : Int} {message : String}
    (h : (heartbeat policy attempt leaseSeconds now s).1 = .error (.conditionFailed message)) :
    ¬ Holding s attempt := by
  intro holding
  obtain ⟨job, run, hauthority⟩ := holding.admitted
  cases hadmit : heartbeatAdmission policy s attempt leaseSeconds with
  | ok admitted =>
    simp only [heartbeat, hadmit] at h
    cases h
  | error fault =>
    simp only [heartbeat, hadmit] at h
    obtain rfl := Except.error.inj h
    simp only [heartbeatAdmission, hauthority] at hadmit
    split at hadmit
    · cases hadmit
    split at hadmit
    case h_1 hnext => exact nextState_fault hnext message (Except.error.inj hadmit)
    case h_2 => cases hadmit

/-- A refused finish means the authority is gone, or a publication had nowhere to go. -/
theorem finish_refused {event : JobEvent} {now : Int} {problem : Option ServiceProblem}
    {openTaskIds : List UUID} {result : Option ResultReference} {message : String}
    (h : (finish policy attempt event now problem openTaskIds result s).1 =
      .error (.conditionFailed message)) (holding : Holding s attempt) :
    ∃ job run, authority s attempt = .ok (job, run) ∧ event = .publishResult ∧
      ∃ fault, commitResult s run attempt result = .error fault := by
  obtain ⟨job, run, hauthority⟩ := holding.admitted
  refine ⟨job, run, hauthority, ?_⟩
  cases hadmit : finishAdmission policy s attempt event openTaskIds result with
  | ok admitted =>
    simp only [finish, hadmit] at h
    split at h
    · cases h
    · unfold Store.record at h
      split at h <;> cases h
  | error fault =>
    simp only [finish, hadmit] at h
    obtain rfl := Except.error.inj h
    simp only [finishAdmission, hauthority] at hadmit
    split at hadmit
    · cases hadmit
    split at hadmit
    case h_1 hnext => exact absurd (Except.error.inj hadmit) (nextState_fault hnext message)
    split at hadmit
    case isFalse => split at hadmit <;> cases hadmit
    case isTrue hpublish =>
      split at hadmit
      case h_1 hcommit => exact ⟨hpublish, _, hcommit⟩
      case h_2 => cases hadmit

/-- A live attempt's next version is refused only when a reference is already stored there. -/
theorem commit_refused (linked : Linked s) (lawful : ∀ j, LawfulAt s j) (owned : Owned s attempt)
    {job : Job} {run : Run} (hauthority : authority s attempt = .ok (job, run))
    {reference : ResultReference} (hrun : reference.runId = attempt.runId)
    (htoken : reference.fencingToken = attempt.fencingToken)
    (hnext : reference.resultVersion = attempt.expectedResultVersion + 1) {fault : Fault}
    (h : commitResult s run attempt (some reference) = .error fault) :
    s.results.get? (attempt.runId, reference.resultVersion) ≠ none := by
  obtain ⟨hjob, hcurrent, hstored, holds⟩ := linked.authority hauthority
  have hzero : run.resultVersion = attempt.expectedResultVersion := by
    rw [owned.expected]
    exact ((lawful _).law job run hjob (hcurrent ▸ hstored)).version_zero (by simp [holds.running])
  intro hfree
  simp [commitResult, hrun, htoken, hzero, hnext] at h
  rw [hnext] at hfree
  simp [hfree] at h

theorem scheduleRetry_awaited (linked : Linked s) {j : UUID} {job : Job}
    (hjob : s.jobs.get? j = some job) (hfailed : job.status = .retryableFailed)
    {availableAt now : Int} {token : UUID} {fault : Fault}
    (h : (scheduleRetry policy j availableAt now token s).1 = .error fault) (message : String) :
    fault ≠ .conditionFailed message := by
  obtain ⟨hattempts, htakeovers⟩ := (linked j).counters job hjob
  have hcounters : ¬ (job.attemptCount < 0 ∨ job.leaseTakeoverCount < 0) := by omega
  have hadmit : retryAdmission policy s j =
      .ok (job, { status := .queued, enqueueOutbox := true }) := by
    simp [retryAdmission, hjob, nextState, Job.facts, hcounters, hfailed, JobStatus.terminal,
      JobEvent.leaseBound, eventTransition]
  simp only [scheduleRetry, hadmit] at h
  rintro rfl
  split at h
  · cases h
  · unfold Store.record at h
    split at h <;> cases h

end AppraisalReview.MemoryJobStore
