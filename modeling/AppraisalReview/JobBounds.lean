import AppraisalReview.JobFencing

set_option autoImplicit false

/-!
# Every claim is paid for by a counter, a run or the end of the job

A claim takes a job out of the claimable statuses. The only ways back raise one
of the two bounded counters or start a new run.
-/
namespace AppraisalReview.MemoryJobStore

variable {sha256 : String → Digest} {policy : JobPolicy} {s s' : Store}

/-- The counters stay within the policy and reach a bound only when the job fails. -/
structure Budgeted (policy : JobPolicy) (job : Job) : Prop where
  attempts : job.attemptCount ≤ policy.maxAttempts
  takeovers : job.leaseTakeoverCount ≤ policy.maxLeaseTakeovers
  exhausted : job.status ≠ .failed →
    job.attemptCount < policy.maxAttempts ∧ job.leaseTakeoverCount < policy.maxLeaseTakeovers
  total : job.attemptCount + job.leaseTakeoverCount <
    policy.maxAttempts + policy.maxLeaseTakeovers

def BudgetedAt (policy : JobPolicy) (s : Store) (j : UUID) : Prop :=
  ∀ job, s.jobs.get? j = some job → Budgeted policy job

theorem Budgeted.of_live {job : Job} (hattempts : job.attemptCount < policy.maxAttempts)
    (htakeovers : job.leaseTakeoverCount < policy.maxLeaseTakeovers) : Budgeted policy job :=
  ⟨Int.le_of_lt hattempts, Int.le_of_lt htakeovers, fun _ => ⟨hattempts, htakeovers⟩, by omega⟩

theorem Budgeted.keep {job job' : Job} (h : Budgeted policy job) (live : job.status ≠ .failed)
    (hattempts : job'.attemptCount = job.attemptCount)
    (htakeovers : job'.leaseTakeoverCount = job.leaseTakeoverCount) : Budgeted policy job' := by
  obtain ⟨hlt, hlt'⟩ := h.exhausted live
  exact .of_live (hattempts ▸ hlt) (htakeovers ▸ hlt')

theorem Budgeted.finished {job : Job} (h : Budgeted policy job) {event : JobEvent}
    {transition : Transition} {now : Int} {problem : Option ServiceProblem}
    {openTaskIds : List UUID} (running : job.status = .running)
    (finishes : event.finishes = true)
    (decided : nextState { job.facts with hasOpenTasks := openTaskIds ≠ [] } event policy =
      .ok transition) :
    Budgeted policy (job.finished transition now problem openTaskIds) := by
  obtain ⟨hattempts, htakeovers⟩ := h.exhausted (by simp [running])
  obtain ⟨hzero, -⟩ | ⟨hone, ⟨hexhausted, hfailed⟩ | ⟨hlt, -⟩⟩ :=
    nextState_finish_charge finishes decided
  · refine .of_live ?_ htakeovers
    simpa [Job.finished, hzero] using hattempts
  · refine ⟨?_, Int.le_of_lt htakeovers, fun hlive => absurd hfailed hlive, ?_⟩ <;>
      simp only [Job.finished, hone] <;> omega
  · refine .of_live ?_ htakeovers
    change job.attemptCount + transition.attemptDelta < policy.maxAttempts
    rw [hone]
    exact hlt

theorem Budgeted.reclaimed {job : Job} (h : Budgeted policy job) {transition : Transition}
    {now : Int} {seq : ℕ} (decided : nextState job.facts .leaseExpired policy = .ok transition) :
    Budgeted policy { job.reclaimed transition now with outboxSeq := seq } := by
  obtain ⟨hrunning, houtcome⟩ := nextState_leaseExpired decided
  change job.status = .running at hrunning
  obtain ⟨hattempts, htakeovers⟩ := h.exhausted (by simp [hrunning])
  obtain ⟨-, rfl⟩ | ⟨-, hexhausted, rfl⟩ | ⟨-, hlt, rfl⟩ := houtcome
  · refine .of_live hattempts ?_
    simpa [Job.reclaimed, cancelPreempted] using htakeovers
  · refine ⟨Int.le_of_lt hattempts, ?_, fun hlive => absurd rfl hlive, ?_⟩ <;>
      simp only [Job.reclaimed] <;> omega
  · exact .of_live hattempts hlt

theorem Effect.budgetedAt {op : Op} {reply : Except Fault Reply}
    (h : Effect sha256 policy s op reply s') (budgeted : BudgetedAt policy s op.target) :
    BudgetedAt policy s' op.target := by
  have stored : ∀ {job job' : Job}, s.jobs.get? op.target = some job →
      s'.jobs.get? op.target = some job' → (Budgeted policy job → Budgeted policy job') →
      BudgetedAt policy s' op.target := by
    intro job job' before after keeps other hother
    obtain rfl := Option.some.inj (after.symm.trans hother)
    exact keeps (budgeted job before)
  cases h with
  | refused | replayed | abandoned | deferred => exact budgeted
  | created principal submission j r now token _ record job run unused hjob hrun jobs =>
    intro other hother
    change s'.jobs.get? j = some other at hother
    rw [jobs, Dict.get?_set_self] at hother
    obtain rfl := Option.some.inj hother
    obtain ⟨hattempts, htakeovers⟩ := policy.positiveLimits
    subst hjob
    exact .of_live hattempts htakeovers
  | claimed j r owner attemptId leaseSeconds now _ job run attempt hattempt touched hcurrent
      claimable =>
    refine stored touched.before touched.stored fun h => h.keep ?_ rfl rfl
    intro hfailed
    simp [hfailed, JobStatus.claimable] at claimable
  | extended attempt leaseSeconds now _ job run touched hcurrent holds =>
    exact stored touched.before touched.stored fun h => h.keep (by simp [holds.running]) rfl rfl
  | finished attempt event now problem openTaskIds result _ record job run transition version
      touched hcurrent holds finishes decided =>
    exact stored touched.before touched.stored fun h => h.finished holds.running finishes decided
  | reclaimed lease now token _ record job job' run transition deadline touched hcurrent running
      htoken hdeadline expired decided round =>
    refine stored touched.before touched.stored fun h => ?_
    obtain ⟨-, rfl, -⟩ | ⟨-, rfl, -⟩ := round
    · exact h.reclaimed decided
    · exact h.reclaimed decided
  | flagged j now _ record job run touched running =>
    exact stored touched.before touched.stored fun h => h.keep (by simp [running]) rfl rfl
  | cancelled j now _ record job job' run hjob touched cancellable =>
    subst hjob
    refine stored touched.before touched.stored fun h => h.keep ?_ rfl rfl
    intro hfailed
    simp [hfailed, JobStatus.cancellable] at cancellable
  | retried j availableAt now token _ record job job' run hjob touched failed =>
    subst hjob
    exact stored touched.before touched.stored fun h => h.keep (by simp [failed]) rfl rfl
  | rejected j r task now _ record job job' run status hjob touched hcurrent waiting =>
    subst hjob
    exact stored touched.before touched.stored fun h => h.keep (by simp [waiting]) rfl rfl
  | resumed j reference now token _ record job job' current before hcurrent waiting unused
      revised sameCase bare hjob jobs =>
    subst hjob
    exact stored before ((jobs j).trans (if_pos rfl)) fun h => h.keep (by simp [waiting]) rfl rfl
  | dispatched mark now _ record job job' run entry before hentry token pending queued hrun hjob
      jobs =>
    subst hjob
    have after := Dict.get?_set_self s.jobs mark.jobId { job with status := .dispatched, updatedAt := now }
    rw [← jobs] at after
    exact stored before after fun h => h.keep (by simp [queued]) rfl rfl
  | confirmed mark now _ record job entry before hentry token pending notQueued hs =>
    subst hs
    exact stored before (Dict.get?_set_self ..) fun h =>
      ⟨h.attempts, h.takeovers, h.exhausted, h.total⟩

theorem run_budgeted (ops : List Op) (j : UUID) :
    BudgetedAt policy (run sha256 policy {} ops) j :=
  run_invariant_at (BudgetedAt policy)
    (fun _ _ _ same _ budgeted job hjob => budgeted job (same.job ▸ hjob))
    (fun _ _ _ _ _ effect budgeted => effect.budgetedAt budgeted)
    (fun _ _ h => absurd h (noJob_empty _ _)) ops j

def claimsOn (j : UUID) (calls : List (Op × Except Fault Reply)) : ℕ :=
  ((issued calls).filter fun attempt => attempt.jobId = j).length

def resumes (j : UUID) : Op × Except Fault Reply → Bool
  | (.resumeAfterHuman jobId _ _ _, .ok _) => jobId = j
  | _ => false

def resumesOn (j : UUID) (calls : List (Op × Except Fault Reply)) : ℕ :=
  (calls.filter (resumes j)).length

def runsOf (s : Store) (j : UUID) : ℕ :=
  (s.runs.keys.filter fun key => key.1 = j).length

def jobsOf (s : Store) (j : UUID) : ℕ :=
  if (s.jobs.get? j).isSome then 1 else 0

/-- What the counters have paid; a claimable job has one claim still to come. -/
def Job.spent (job : Job) : Int :=
  job.attemptCount + job.leaseTakeoverCount - if job.status.claimable then 1 else 0

def spent (s : Store) (j : UUID) : Int :=
  ((s.jobs.get? j).map Job.spent).getD 0

theorem claimsOn_append (j : UUID) (xs ys : List (Op × Except Fault Reply)) :
    claimsOn j (xs ++ ys) = claimsOn j xs + claimsOn j ys := by
  simp [claimsOn, issued]

theorem resumesOn_append (j : UUID) (xs ys : List (Op × Except Fault Reply)) :
    resumesOn j (xs ++ ys) = resumesOn j xs + resumesOn j ys := by
  simp [resumesOn]

theorem claimsOn_quiet {j : UUID} {call : Op × Except Fault Reply}
    (h : ∀ attempt, call.2 = .ok (.claimed attempt) → attempt.jobId ≠ j) :
    claimsOn j [call] = 0 := by
  cases hissued : issuedBy call with
  | none => simp [claimsOn, issued, hissued]
  | some attempt => simp [claimsOn, issued, hissued, h attempt (issuedBy_eq hissued)]

theorem runsOf_congr {j : UUID}
    (h : ∀ r, (s'.runs.get? (j, r)).isSome = (s.runs.get? (j, r)).isSome) :
    runsOf s' j = runsOf s j := by
  refine List.Perm.length_eq ((List.perm_ext_iff_of_nodup (s'.runs.keysNodup.filter _)
    (s.runs.keysNodup.filter _)).mpr ?_)
  rintro ⟨k, r⟩
  change (k, r) ∈ s'.runs.keys.filter _ ↔ (k, r) ∈ s.runs.keys.filter _
  simp only [List.mem_filter, Dict.mem_keys, decide_eq_true_eq]
  constructor <;> rintro ⟨hkey, rfl⟩
  · exact ⟨h r ▸ hkey, rfl⟩
  · exact ⟨h r ▸ hkey, rfl⟩

theorem runsOf_set {j r : UUID} {run : Run} (unused : s.runs.get? (j, r) = none)
    (runs : s'.runs = s.runs.set (j, r) run) : runsOf s' j = runsOf s j + 1 := by
  have fresh : (j, r) ∉ s.runs.keys.filter fun key => key.1 = j := by
    rw [List.mem_filter, Dict.mem_keys, unused]
    rintro ⟨h, -⟩
    cases h
  change _ = ((j, r) :: s.runs.keys.filter fun key => key.1 = j).length
  refine List.Perm.length_eq ((List.perm_ext_iff_of_nodup (s'.runs.keysNodup.filter _)
    (List.nodup_cons.mpr ⟨fresh, s.runs.keysNodup.filter _⟩)).mpr ?_)
  rintro ⟨k, r'⟩
  change (k, r') ∈ s'.runs.keys.filter _ ↔ _
  simp only [List.mem_filter, List.mem_cons, Dict.mem_keys, decide_eq_true_eq, runs,
    Dict.get?_set, Prod.mk.injEq]
  by_cases hkey : k = j ∧ r' = r
  · simp [hkey]
  · simp [hkey]

structure Charged (s s' : Store) (j : UUID) (call : Op × Except Fault Reply) : Prop where
  claims : claimsOn j [call] + spent s j + runsOf s j ≤ spent s' j + runsOf s' j
  runs : runsOf s' j + jobsOf s j = runsOf s j + jobsOf s' j + resumesOn j [call]

theorem spent_eq {j : UUID} {job : Job} (h : s.jobs.get? j = some job) :
    spent s j = job.spent := by
  rw [spent, h]
  rfl

theorem jobsOf_eq {j : UUID} {job : Job} (h : s.jobs.get? j = some job) : jobsOf s j = 1 := by
  rw [jobsOf, h]
  rfl

/-- A call that starts no run and resumes nothing is paid by the job's own counters. -/
theorem Charged.of_job {j : UUID} {job job' : Job} {call : Op × Except Fault Reply}
    (before : s.jobs.get? j = some job) (after : s'.jobs.get? j = some job')
    (runs : ∀ r, (s'.runs.get? (j, r)).isSome = (s.runs.get? (j, r)).isSome)
    (paid : claimsOn j [call] + job.spent ≤ job'.spent) (quiet : resumesOn j [call] = 0) :
    Charged s s' j call where
  claims := by
    rw [spent_eq before, spent_eq after, runsOf_congr runs]
    omega
  runs := by rw [jobsOf_eq before, jobsOf_eq after, runsOf_congr runs, quiet]

theorem Job.spent_of_claimable {job : Job} (h : job.status.claimable = true) :
    job.spent = job.attemptCount + job.leaseTakeoverCount - 1 := by
  rw [Job.spent, if_pos h]

theorem Job.spent_of_unclaimable (job : Job) (h : job.status.claimable = false) :
    job.spent = job.attemptCount + job.leaseTakeoverCount := by
  rw [Job.spent, if_neg (by simp [h]), Int.sub_zero]

theorem Job.spent_le (job : Job) : job.spent ≤ job.attemptCount + job.leaseTakeoverCount := by
  unfold Job.spent
  split_ifs <;> omega

theorem Job.spent_ge (job : Job) :
    job.attemptCount + job.leaseTakeoverCount - 1 ≤ job.spent := by
  unfold Job.spent
  split_ifs <;> omega

theorem Job.spent_finished {job : Job} {event : JobEvent} {transition : Transition} {now : Int}
    {problem : Option ServiceProblem} {openTaskIds : List UUID} (running : job.status = .running)
    (finishes : event.finishes = true)
    (decided : nextState { job.facts with hasOpenTasks := openTaskIds ≠ [] } event policy =
      .ok transition) :
    job.spent ≤ (job.finished transition now problem openTaskIds).spent := by
  have before := job.spent_of_unclaimable (by rw [running]; rfl)
  obtain ⟨hzero, hstatus⟩ | ⟨hone, -⟩ := nextState_finish_charge finishes decided
  · have settled := (nextState_finish finishes decided).settled
    have hclaimable : transition.status.claimable = false := by
      cases hcase : transition.status <;> simp_all [JobStatus.claimable]
    have after := Job.spent_of_unclaimable
      (job.finished transition now problem openTaskIds) hclaimable
    simp only [Job.finished, hzero] at after ⊢
    omega
  · have after := (job.finished transition now problem openTaskIds).spent_ge
    simp only [Job.finished, hone] at after ⊢
    omega

theorem Job.spent_reclaimed {job : Job} {transition : Transition} {now : Int} {seq : ℕ}
    (decided : nextState job.facts .leaseExpired policy = .ok transition) :
    job.spent ≤ Job.spent { job.reclaimed transition now with outboxSeq := seq } := by
  obtain ⟨hrunning, houtcome⟩ := nextState_leaseExpired decided
  change job.status = .running at hrunning
  have before := job.spent_of_unclaimable (by rw [hrunning]; rfl)
  obtain ⟨-, rfl⟩ | ⟨-, -, rfl⟩ | ⟨-, -, rfl⟩ := houtcome
  · rw [before, Job.spent_of_unclaimable _ rfl]
    simp [Job.reclaimed, cancelPreempted]
  · rw [before, Job.spent_of_unclaimable _ rfl]
    simp only [Job.reclaimed]
    omega
  · rw [before, Job.spent_of_claimable rfl]
    simp only [Job.reclaimed]
    omega

/-- A call that answers with no claim and resumes nothing, while the counters cover the move. -/
theorem Charged.of_quiet {j : UUID} {job job' : Job} {call : Op × Except Fault Reply}
    (before : s.jobs.get? j = some job) (after : s'.jobs.get? j = some job')
    (runs : ∀ r, (s'.runs.get? (j, r)).isSome = (s.runs.get? (j, r)).isSome)
    (paid : job.spent ≤ job'.spent) (noClaim : issuedBy call = none)
    (noResume : resumes j call = false) : Charged s s' j call := by
  have hclaims : claimsOn j [call] = 0 := by simp [claimsOn, issued, noClaim]
  exact .of_job before after runs (by rw [hclaims]; omega) (by simp [resumesOn, noResume])

theorem Effect.charged {op : Op} {reply : Except Fault Reply} (linked : Linked s)
    (h : Effect sha256 policy s op reply s') : Charged s s' op.target (op, reply) := by
  have idle : claimsOn op.target [(op, reply)] = 0 → resumesOn op.target [(op, reply)] = 0 →
      s'.jobs = s.jobs → s'.runs = s.runs → Charged s s' op.target (op, reply) := by
    intro hclaims hresumes hjobs hruns
    constructor
    · simp only [hclaims, spent, runsOf, hjobs, hruns]
      omega
    · simp only [hresumes, runsOf, jobsOf, hjobs, hruns]
      omega
  cases h with
  | refused op fault => exact idle rfl (by cases op <;> rfl) rfl rfl
  | replayed | abandoned | deferred => exact idle rfl rfl rfl rfl
  | created principal submission j r now token _ record job run unused hjob hrun jobs runs =>
    have after : s'.jobs.get? j = some job := by rw [jobs, Dict.get?_set_self]
    have noRun : s.runs.get? (j, r) = none := by
      by_contra hsome
      obtain ⟨old, hold⟩ := Option.ne_none_iff_exists'.mp hsome
      obtain ⟨other, hother⟩ := (linked j).owner _ _ hold
      exact absurd (hother.symm.trans unused) (Option.some_ne_none _)
    have hruns := runsOf_set noRun runs
    have hspent : job.spent = -1 := by rw [hjob]; rfl
    have hnone : spent s j = 0 := by rw [spent, unused]; rfl
    have hjobs : jobsOf s j = 0 := by rw [jobsOf, unused]; rfl
    constructor
    · change ((0 : ℕ) : Int) + spent s j + runsOf s j ≤ spent s' j + runsOf s' j
      rw [spent_eq after, hruns, hspent, hnone]
      omega
    · change runsOf s' j + jobsOf s j = runsOf s j + jobsOf s' j + 0
      rw [jobsOf_eq after, hruns, hjobs]
  | claimed j r owner attemptId leaseSeconds now _ job run attempt hattempt touched hcurrent
      claimable =>
    have hclaims : claimsOn j [(Op.claim j r owner leaseSeconds now attemptId,
        .ok (.claimed attempt))] = 1 := by
      simp [claimsOn, issued, issuedBy, hattempt]
    refine .of_job touched.before touched.stored touched.runKeys ?_ rfl
    change ((claimsOn j [(Op.claim j r owner leaseSeconds now attemptId,
        .ok (.claimed attempt))] : ℕ) : Int) + _ ≤ _
    have paid : Job.spent { job with status := .running, updatedAt := now } =
        job.attemptCount + job.leaseTakeoverCount := Job.spent_of_unclaimable _ rfl
    rw [hclaims, Job.spent_of_claimable claimable, paid]
    omega
  | extended attempt leaseSeconds now _ job run touched =>
    exact .of_quiet touched.before touched.stored touched.runKeys (Int.le_refl _) rfl rfl
  | finished attempt event now problem openTaskIds result _ record job run transition version
      touched hcurrent holds finishes decided =>
    exact .of_quiet touched.before touched.stored touched.runKeys
      (Job.spent_finished holds.running finishes decided) rfl rfl
  | reclaimed lease now token _ record job job' run transition deadline touched hcurrent running
      htoken hdeadline expired decided round =>
    refine .of_quiet touched.before touched.stored touched.runKeys ?_ rfl rfl
    obtain ⟨-, rfl, -⟩ | ⟨-, rfl, -⟩ := round
    · exact Job.spent_reclaimed decided
    · exact Job.spent_reclaimed decided
  | flagged j now _ record job run touched =>
    exact .of_quiet touched.before touched.stored touched.runKeys (Int.le_refl _) rfl rfl
  | cancelled j now _ record job job' run hjob touched cancellable =>
    subst hjob
    refine .of_quiet touched.before touched.stored touched.runKeys (job.spent_le.trans ?_) rfl rfl
    rw [Job.spent_of_unclaimable _ rfl]
  | retried j availableAt now token _ record job job' run hjob touched failed =>
    subst hjob
    refine .of_quiet touched.before touched.stored touched.runKeys ?_ rfl rfl
    rw [Job.spent_of_claimable (by rw [failed]; rfl), Job.spent_of_claimable rfl]
  | rejected j r task now _ record job job' run status hjob touched hcurrent waiting member
      hstatus =>
    subst hjob
    refine .of_quiet touched.before touched.stored touched.runKeys ?_ rfl rfl
    have hunclaimable : status.claimable = false := by
      obtain ⟨rfl, -⟩ | ⟨rfl, -⟩ := hstatus <;> rfl
    rw [job.spent_of_unclaimable (by rw [waiting]; rfl), Job.spent_of_unclaimable _ hunclaimable]
  | resumed j reference now token _ record job job' current before hcurrent waiting unused
      revised sameCase bare hjob jobs runs =>
    have after : s'.jobs.get? j = some job' := (jobs j).trans (if_pos rfl)
    have hruns := runsOf_set unused runs
    have hspent : job'.spent = job.spent - 1 := by
      rw [hjob, job.spent_of_unclaimable (by rw [waiting]; rfl),
        Job.spent_of_claimable rfl]
    constructor
    · change ((0 : ℕ) : Int) + spent s j + runsOf s j ≤ spent s' j + runsOf s' j
      rw [spent_eq after, spent_eq before, hruns, hspent]
      omega
    · have hresumes : resumesOn j [(Op.resumeAfterHuman j reference now token,
          .ok (.record record))] = 1 := by simp [resumesOn, resumes]
      change runsOf s' j + jobsOf s j = runsOf s j + jobsOf s' j + resumesOn j _
      rw [jobsOf_eq after, jobsOf_eq before, hruns, hresumes]
  | dispatched mark now _ record job job' run entry before hentry token pending queued hrun hjob
      jobs runs =>
    subst hjob
    have after : s'.jobs.get? mark.jobId = some { job with status := .dispatched, updatedAt := now } := by
      rw [jobs, Dict.get?_set_self]
    refine .of_quiet before after (fun r => by rw [runs]; exact isSome_set _ hrun _) ?_ rfl rfl
    rw [Job.spent_of_claimable (by rw [queued]; rfl), Job.spent_of_claimable rfl]
  | confirmed mark now _ record job entry before hentry token pending notQueued hs =>
    subst hs
    exact .of_quiet before (Dict.get?_set_self ..) (fun _ => rfl) (Int.le_refl _) rfl rfl

theorem SameRows.charged {j : UUID} {call : Op × Except Fault Reply} (same : SameRows s s' j)
    (noClaim : claimsOn j [call] = 0) (noResume : resumesOn j [call] = 0) :
    Charged s s' j call := by
  have hruns : runsOf s' j = runsOf s j := runsOf_congr fun r => by rw [same.run]
  constructor
  · simp only [noClaim, spent, same.job, hruns]
    omega
  · simp only [noResume, jobsOf, same.job, hruns]
    omega

theorem resumesOn_other {j : UUID} {op : Op} {reply : Except Fault Reply} (hj : j ≠ op.target) :
    resumesOn j [(op, reply)] = 0 := by
  have hresumes : resumes j (op, reply) = false := by
    cases op with
    | resumeAfterHuman jobId run now token =>
      cases reply with
      | error fault => rfl
      | ok reply =>
        change j ≠ jobId at hj
        simp [resumes, hj.symm]
    | _ => rfl
  simp [resumesOn, hresumes]

variable (sha256 policy) in
theorem step_charged (linked : Linked s) (op : Op) (j : UUID) :
    Charged s (step sha256 policy s op).2 j (op, (step sha256 policy s op).1) := by
  have effect := step_effect sha256 policy linked op
  by_cases hj : j = op.target
  · subst hj
    exact effect.charged linked
  · refine (effect.sameRows hj).charged (claimsOn_quiet fun attempt hclaim h => ?_)
      (resumesOn_other hj)
    change (step sha256 policy s op).1 = _ at hclaim
    rw [hclaim] at effect
    exact hj (h ▸ effect.claim_target)

variable (sha256 policy) in
/-- The books of a run of calls: claims are paid, and runs are the first one and the resumes. -/
theorem run_charged (linked : Linked s) (ops : List Op) (j : UUID) :
    (claimsOn j (history sha256 policy s ops) + spent s j + runsOf s j ≤
      spent (run sha256 policy s ops) j + runsOf (run sha256 policy s ops) j) ∧
    runsOf (run sha256 policy s ops) j + jobsOf s j =
      runsOf s j + jobsOf (run sha256 policy s ops) j +
        resumesOn j (history sha256 policy s ops) := by
  induction ops generalizing s with
  | nil =>
    constructor
    · change ((0 : ℕ) : Int) + spent s j + runsOf s j ≤ spent s j + runsOf s j
      omega
    · rfl
  | cons op ops ih =>
    have first := step_charged sha256 policy linked op j
    obtain ⟨hclaims, hruns⟩ := ih (step_linked sha256 policy linked op)
    have hsplit : history sha256 policy s (op :: ops) = [(op, (step sha256 policy s op).1)] ++
        history sha256 policy (step sha256 policy s op).2 ops := rfl
    rw [hsplit, claimsOn_append, resumesOn_append, run_cons]
    have hfirst := first.claims
    have hfirst' := first.runs
    constructor <;> omega

/-- What the policy bounds of one job along the calls `ops`. -/
structure ExecutionBounded (sha256 : String → Digest) (policy : JobPolicy) (ops : List Op)
    (j : UUID) : Prop where
  attempts : ∀ job, (run sha256 policy {} ops).jobs.get? j = some job →
    job.attemptCount ≤ policy.maxAttempts ∧ job.leaseTakeoverCount ≤ policy.maxLeaseTakeovers
  exhausted : ∀ job, (run sha256 policy {} ops).jobs.get? j = some job →
    job.attemptCount = policy.maxAttempts ∨ job.leaseTakeoverCount = policy.maxLeaseTakeovers →
    job.status = .failed
  claims : ∀ job, (run sha256 policy {} ops).jobs.get? j = some job →
    claimsOn j (history sha256 policy {} ops) ≤
      job.attemptCount + job.leaseTakeoverCount + runsOf (run sha256 policy {} ops) j
  /-- Claims among later calls are bounded by the policy, up to one for each human resume. -/
  stretch : ∀ earlier later, ops = earlier ++ later →
    claimsOn j (history sha256 policy (run sha256 policy {} earlier) later) ≤
      policy.maxAttempts + policy.maxLeaseTakeovers +
        resumesOn j (history sha256 policy (run sha256 policy {} earlier) later)

theorem spent_ge (linked : Linked s) (j : UUID) : -(jobsOf s j : Int) ≤ spent s j := by
  cases hjob : s.jobs.get? j with
  | none => simp [spent, jobsOf, hjob]
  | some job =>
    obtain ⟨hattempts, htakeovers⟩ := (linked j).counters job hjob
    have hge := job.spent_ge
    rw [spent_eq hjob, jobsOf_eq hjob]
    omega

theorem spent_le {j : UUID} (budgeted : BudgetedAt policy s j) :
    spent s j + jobsOf s j ≤ policy.maxAttempts + policy.maxLeaseTakeovers := by
  cases hjob : s.jobs.get? j with
  | none =>
    obtain ⟨hattempts, htakeovers⟩ := policy.positiveLimits
    simp only [spent, jobsOf, hjob, Option.map_none, Option.getD_none, Option.isSome_none,
      Bool.false_eq_true, if_false]
    omega
  | some job =>
    have htotal := (budgeted job hjob).total
    have hle := job.spent_le
    rw [spent_eq hjob, jobsOf_eq hjob]
    omega

theorem run_execution_bounded (ops : List Op) (j : UUID) :
    ExecutionBounded sha256 policy ops j := by
  have budgeted : BudgetedAt policy (run sha256 policy {} ops) j := run_budgeted ops j
  refine ⟨fun job hjob => ⟨(budgeted job hjob).attempts, (budgeted job hjob).takeovers⟩,
    fun job hjob hceiling => ?_, fun job hjob => ?_, ?_⟩
  · by_contra hlive
    obtain ⟨hattempts, htakeovers⟩ := (budgeted job hjob).exhausted hlive
    omega
  · obtain ⟨hclaims, -⟩ := run_charged sha256 policy linked_empty ops j
    have hle := job.spent_le
    rw [spent_eq hjob] at hclaims
    change ((claimsOn j (history sha256 policy {} ops) : ℕ) : Int) + 0 + (0 : ℕ) ≤ _ at hclaims
    omega
  · rintro earlier later rfl
    have linked : Linked (run sha256 policy {} earlier) := run_linked earlier
    obtain ⟨hclaims, hruns⟩ := run_charged sha256 policy linked later j
    have hfloor := spent_ge linked j
    have hceiling := spent_le budgeted
    rw [run_append] at hceiling
    omega

end AppraisalReview.MemoryJobStore
