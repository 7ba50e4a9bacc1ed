import AppraisalReview.JobEffects

set_option autoImplicit false

/-!
# Every call has one of the listed effects
-/
namespace AppraisalReview.MemoryJobStore

variable {sha256 : String → Digest} {policy : JobPolicy} {s : Store}

theorem answer_error {α : Type} (wrap : α → Reply) (op : Op) (fault : Fault) :
    Effect sha256 policy s op (answer wrap (.error fault, s)).1 (answer wrap (.error fault, s)).2 :=
  .refused op fault

theorem record_of_current {job : Job} {run : Run}
    (h : s.runs.get? (job.jobId, job.currentRunId) = some run) :
    ∃ record, s.record job = .ok record := by
  simp only [Store.record, h]
  exact ⟨_, rfl⟩

theorem Linked.record_ok (linked : Linked s) {j : UUID} {job : Job}
    (h : s.jobs.get? j = some job) : ∃ record, s.record job = .ok record := by
  obtain ⟨run, hrun⟩ := (linked j).current job h
  rw [← (linked j).jobId job h] at hrun
  exact record_of_current hrun

theorem answer_record {op : Op} {s' : Store} {job : Job} {run : Run}
    (hrun : s'.runs.get? (job.jobId, job.currentRunId) = some run)
    (h : ∀ record, s'.record job = .ok record →
      Effect sha256 policy s op (.ok (.record record)) s') :
    Effect sha256 policy s op (answer .record (s'.record job, s')).1
      (answer .record (s'.record job, s')).2 := by
  obtain ⟨record, hrecord⟩ := record_of_current hrun
  simp only [answer, hrecord]
  exact h record hrecord

theorem answer_created {op : Op} {s' : Store} {job : Job} {run : Run}
    (hrun : s'.runs.get? (job.jobId, job.currentRunId) = some run)
    (h : ∀ record, s'.record job = .ok record →
      Effect sha256 policy s op (.ok (.created record true)) s') :
    Effect sha256 policy s op
      (answer (fun r => .created r.1 r.2) ((s'.record job).map (·, true), s')).1
      (answer (fun r => .created r.1 r.2) ((s'.record job).map (·, true), s')).2 := by
  obtain ⟨record, hrecord⟩ := record_of_current hrun
  simp only [answer, hrecord]
  exact h record hrecord

theorem claimAdmission_ok {j r : UUID} {leaseSeconds now : Int} {job : Job} {run : Run}
    {transition : Transition}
    (h : claimAdmission policy s j r leaseSeconds now = .ok (job, run, transition)) :
    s.jobs.get? j = some job ∧ s.runs.get? (j, r) = some run ∧ job.currentRunId = r ∧
      job.status.claimable = true ∧ transition = { status := .running } ∧ 1 ≤ leaseSeconds ∧
      (∀ deadline, run.leaseExpiresAt = some deadline → deadline ≤ now) := by
  unfold claimAdmission at h
  split_ifs at h with hlease
  split at h
  case h_2 => cases h
  case h_1 job' run' hjob hrun =>
    split_ifs at h with hcurrent hexpired
    split at h
    · cases h
    · cases h
    case h_3 transition' hnext =>
      obtain ⟨rfl, rfl, rfl⟩ : job' = job ∧ run' = run ∧ transition' = transition := by
        simpa using h
      obtain ⟨hclaimable, rfl⟩ := nextState_claim hnext
      refine ⟨hjob, hrun, by simpa using hcurrent, hclaimable, rfl, by omega, ?_⟩
      intro deadline hdeadline
      simp only [hdeadline, Option.any_some, decide_eq_true_eq] at hexpired
      omega

theorem claim_effect (j r owner : UUID) (leaseSeconds now : Int) (attemptId : UUID) :
    Effect sha256 policy s (.claim j r owner leaseSeconds now attemptId)
      (step sha256 policy s (.claim j r owner leaseSeconds now attemptId)).1
      (step sha256 policy s (.claim j r owner leaseSeconds now attemptId)).2 := by
  simp only [step, claim]
  split
  · exact answer_error ..
  case h_2 job run transition hadmit =>
    obtain ⟨hjob, hrun, hcurrent, hclaimable, rfl, -⟩ := claimAdmission_ok hadmit
    refine .claimed j r owner attemptId leaseSeconds now _ job run _ rfl
      ⟨hjob, by rw [hcurrent]; exact hrun, fun k => Dict.get?_set .., ?_, rfl⟩ hcurrent
      hclaimable rfl rfl rfl
    intro k
    rw [hcurrent]
    exact Dict.get?_set ..

theorem authority_ok {attempt : ClaimedAttempt} {job : Job} {run : Run}
    (h : authority s attempt = .ok (job, run)) :
    s.jobs.get? attempt.jobId = some job ∧
      s.runs.get? (attempt.jobId, attempt.runId) = some run ∧ Holds attempt job run := by
  unfold authority at h
  split at h
  case h_2 => cases h
  case h_1 job' run' hjob hrun =>
    split_ifs at h with hheld
    obtain ⟨rfl, rfl⟩ : job' = job ∧ run' = run := by simpa using h
    push Not at hheld
    exact ⟨hjob, hrun, hheld.1, hheld.2.1, hheld.2.2.1, hheld.2.2.2⟩

theorem Linked.current_of_lease (linked : Linked s) {j r : UUID} {job : Job} {run : Run}
    (hjob : s.jobs.get? j = some job) (hrun : s.runs.get? (j, r) = some run)
    (held : run.leaseExpiresAt ≠ none ∨ run.leaseOwner ≠ none) : job.currentRunId = r := by
  by_contra hne
  obtain ⟨howner, hdeadline, -⟩ := (linked j).idle job r run hjob hrun (Ne.symm hne)
  rcases held with held | held
  · exact held hdeadline
  · exact held howner

theorem Linked.authority (linked : Linked s) {attempt : ClaimedAttempt} {job : Job} {run : Run}
    (h : authority s attempt = .ok (job, run)) :
    s.jobs.get? attempt.jobId = some job ∧ job.currentRunId = attempt.runId ∧
      s.runs.get? (attempt.jobId, attempt.runId) = some run ∧ Holds attempt job run := by
  obtain ⟨hjob, hrun, holds⟩ := authority_ok h
  have held : run.leaseOwner ≠ none := by simp [holds.owner]
  exact ⟨hjob, linked.current_of_lease hjob hrun (.inr held), hrun, holds⟩

theorem heartbeatAdmission_ok {attempt : ClaimedAttempt} {leaseSeconds : Int} {job : Job}
    {run : Run} (h : heartbeatAdmission policy s attempt leaseSeconds = .ok (job, run)) :
    1 ≤ leaseSeconds ∧ MemoryJobStore.authority s attempt = .ok (job, run) := by
  unfold heartbeatAdmission at h
  split_ifs at h with hlease
  split at h
  · cases h
  case h_2 job' run' hauthority =>
    split at h
    · cases h
    · obtain ⟨rfl, rfl⟩ : job' = job ∧ run' = run := by simpa using h
      exact ⟨by omega, hauthority⟩

theorem heartbeat_effect (linked : Linked s) (attempt : ClaimedAttempt) (leaseSeconds now : Int) :
    Effect sha256 policy s (.heartbeat attempt leaseSeconds now)
      (step sha256 policy s (.heartbeat attempt leaseSeconds now)).1
      (step sha256 policy s (.heartbeat attempt leaseSeconds now)).2 := by
  simp only [step, heartbeat]
  split
  · exact answer_error ..
  case h_2 job run hadmit =>
    obtain ⟨-, hauthority⟩ := heartbeatAdmission_ok hadmit
    obtain ⟨hjob, hcurrent, hrun, holds⟩ := linked.authority hauthority
    refine .extended attempt leaseSeconds now _ job run
      ⟨hjob, by rw [hcurrent]; exact hrun, fun k => Dict.get?_set .., ?_, rfl⟩ hcurrent
      holds rfl rfl rfl
    intro k
    rw [hcurrent]
    exact Dict.get?_set ..

theorem commitResult_ok {run run' : Run} {attempt : ClaimedAttempt}
    {result : Option ResultReference} {s' : Store}
    (h : commitResult s run attempt result = .ok (run', s')) :
    ∃ ref, result = some ref ∧ Publishes s attempt run ref ∧
      run' = { run with resultVersion := ref.resultVersion } ∧
      s' = { s with
        results := s.results.set (ref.runId, ref.resultVersion) ref
        runs := s.runs.set (attempt.jobId, attempt.runId) run' } := by
  unfold commitResult at h
  split at h
  · cases h
  case h_2 ref =>
    split_ifs at h with hstale hused
    push Not at hstale
    obtain ⟨rfl, rfl⟩ := Prod.mk.inj (Except.ok.inj h)
    exact ⟨ref, rfl, ⟨hstale.1, hstale.2.1, hstale.2.2.1, hstale.2.2.2, by simpa using hused⟩,
      rfl, rfl⟩

/-- What `finish` may write once its checks passed: a publication or nothing. -/
structure Finishing (s : Store) (attempt : ClaimedAttempt) (event : JobEvent)
    (result : Option ResultReference) (job : Job) (run run' : Run) (s' : Store) : Prop where
  authority : MemoryJobStore.authority s attempt = .ok (job, run)
  published :
    (event = .publishResult ∧ ∃ ref, result = some ref ∧ Publishes s attempt run ref ∧
      run' = { run with resultVersion := ref.resultVersion } ∧
      s' = { s with
        results := s.results.set (ref.runId, ref.resultVersion) ref
        runs := s.runs.set (attempt.jobId, attempt.runId) run' }) ∨
    (event ≠ .publishResult ∧ result = none ∧ run' = run ∧ s' = s)

theorem finishAdmission_ok {attempt : ClaimedAttempt} {event : JobEvent}
    {openTaskIds : List UUID} {result : Option ResultReference} {job : Job} {run' : Run}
    {transition : Transition} {s' : Store}
    (h : finishAdmission policy s attempt event openTaskIds result =
      .ok (job, run', transition, s')) :
    event.finishes = true ∧
      nextState { job.facts with hasOpenTasks := openTaskIds ≠ [] } event policy =
        .ok transition ∧
      ∃ run, Finishing s attempt event result job run run' s' := by
  unfold finishAdmission at h
  split at h
  · cases h
  rename_i hfinishes
  split at h
  · cases h
  rename_i hauthority
  split at h
  · cases h
  rename_i hnext
  split at h
  · rename_i hpublish
    split at h
    · cases h
    rename_i hcommit
    simp only [Except.ok.injEq, Prod.mk.injEq] at h
    obtain ⟨rfl, rfl, rfl, rfl⟩ := h
    exact ⟨by simpa using hfinishes, hnext, _, hauthority,
      .inl ⟨hpublish, commitResult_ok hcommit⟩⟩
  · rename_i hpublish
    split at h
    · cases h
    rename_i hresult
    simp only [Except.ok.injEq, Prod.mk.injEq] at h
    obtain ⟨rfl, rfl, rfl, rfl⟩ := h
    exact ⟨by simpa using hfinishes, hnext, _, hauthority,
      .inr ⟨hpublish, by simpa using hresult, rfl, rfl⟩⟩

theorem finish_effect (linked : Linked s) (attempt : ClaimedAttempt) (event : JobEvent)
    (now : Int) (problem : Option ServiceProblem) (openTaskIds : List UUID)
    (result : Option ResultReference) :
    Effect sha256 policy s (.finish attempt event now problem openTaskIds result)
      (step sha256 policy s (.finish attempt event now problem openTaskIds result)).1
      (step sha256 policy s (.finish attempt event now problem openTaskIds result)).2 := by
  simp only [step, finish]
  split
  · exact answer_error ..
  case h_2 job run' transition s' hadmit =>
    obtain ⟨hfinishes, hnext, run, hauthority, hpublished⟩ := finishAdmission_ok hadmit
    obtain ⟨hjob, hcurrent, hrun, holds⟩ := linked.authority hauthority
    have hreleases := (nextState_finish hfinishes hnext).releases
    split
    · obtain ⟨hpublish, -⟩ | ⟨-, -, -, rfl⟩ := hpublished
      · subst hpublish
        simp [(nextState_finish hfinishes hnext).published rfl] at *
      · exact answer_error ..
    rename_i hexplained
    have hjobId := (linked _).jobId _ hjob
    have explained : transition.status = .failed → problem ≠ none :=
      fun hfailed hnone => hexplained ⟨hfailed, hnone⟩
    have before : s.runs.get? (attempt.jobId, job.currentRunId) = some run := by
      rw [hcurrent]
      exact hrun
    simp only [Run.release, hreleases, if_true]
    refine answer_record (by rw [hjobId, hcurrent]; exact Dict.get?_set_self ..)
      fun record hrecord => ?_
    obtain ⟨hpublish, ref, hresult, publishes, rfl, rfl⟩ | ⟨hother, -, rfl, rfl⟩ := hpublished
    · refine .finished attempt event now problem openTaskIds result _ record job run transition
        ref.resultVersion ⟨hjob, before, fun k => Dict.get?_set .., fun k => ?_, rfl⟩ hcurrent
        holds hfinishes hnext explained
        (.inl ⟨hpublish, ref, hresult, publishes, rfl, rfl⟩) rfl rfl hrecord
      rw [hcurrent]
      exact Dict.get?_set_set ..
    · refine .finished attempt event now problem openTaskIds result _ record job run' transition
        run'.resultVersion ⟨hjob, before, fun k => Dict.get?_set .., fun k => ?_, rfl⟩ hcurrent
        holds hfinishes hnext explained (.inr ⟨hother, rfl, rfl⟩) rfl rfl hrecord
      rw [hcurrent]
      exact Dict.get?_set ..

theorem expireAdmission_ok {lease : ExpiredLease} {now : Int} {job : Job} {run : Run}
    {transition : Transition}
    (h : expireAdmission policy s lease now = .ok (job, run, transition)) :
    s.jobs.get? lease.jobId = some job ∧
      s.runs.get? (lease.jobId, lease.runId) = some run ∧
      run.fencingToken = lease.fencingToken ∧ job.status = .running ∧
      (∃ deadline, run.leaseExpiresAt = some deadline ∧ deadline ≤ now) ∧
      nextState job.facts .leaseExpired policy = .ok transition := by
  unfold expireAdmission at h
  split at h
  case h_2 => cases h
  case h_1 hjob hrun =>
    split at h
    · cases h
    rename_i hexpired
    split at h
    · cases h
    rename_i hnext
    simp only [Except.ok.injEq, Prod.mk.injEq] at h
    obtain ⟨rfl, rfl, rfl⟩ := h
    push Not at hexpired
    obtain ⟨htoken, hdeadline, hrunning⟩ := hexpired
    refine ⟨hjob, hrun, htoken, hrunning, ?_, hnext⟩
    simpa [Option.any_eq_true] using hdeadline

theorem expireLease_effect (linked : Linked s) (lease : ExpiredLease) (now : Int)
    (token : UUID) :
    Effect sha256 policy s (.expireLease lease now token)
      (step sha256 policy s (.expireLease lease now token)).1
      (step sha256 policy s (.expireLease lease now token)).2 := by
  simp only [step, expireLease]
  split
  · exact answer_error ..
  case h_2 job run transition hadmit =>
    obtain ⟨hjob, hrun, htoken, hrunning, ⟨deadline, hdeadline, hexpired⟩, hnext⟩ :=
      expireAdmission_ok hadmit
    obtain ⟨j, r, held, leaseEnd⟩ := lease
    obtain rfl : job.currentRunId = r :=
      linked.current_of_lease hjob hrun (.inl (by simp [hdeadline]))
    obtain rfl : job.jobId = j := (linked _).jobId _ hjob
    obtain ⟨hreleases, hround⟩ := nextState_leaseExpired_releases hnext
    simp only [Run.release, hreleases, if_true]
    by_cases henqueue : transition.enqueueOutbox = true
    · simp only [henqueue, if_true, Store.enqueue]
      refine answer_record (Dict.get?_set_self ..) fun record hrecord => ?_
      exact .reclaimed _ now token _ record job _ run transition deadline
        ⟨hjob, hrun, fun k => Dict.get?_set_set .., fun k => Dict.get?_set .., rfl⟩ rfl hrunning
        htoken hdeadline hexpired hnext (.inl ⟨hround.mp henqueue, rfl, rfl⟩) rfl rfl hrecord
    · simp only [henqueue]
      refine answer_record (Dict.get?_set_self ..) fun record hrecord => ?_
      exact .reclaimed _ now token _ record job _ run transition deadline
        ⟨hjob, hrun, fun k => Dict.get?_set .., fun k => Dict.get?_set .., rfl⟩ rfl hrunning
        htoken hdeadline hexpired hnext (.inr ⟨mt hround.mpr henqueue, rfl, rfl⟩) rfl rfl hrecord

theorem cancelAdmission_ok {j : UUID} {job : Job} {run : Run} {transition : Transition}
    (h : cancelAdmission policy s j = .ok (job, run, transition)) :
    s.jobs.get? j = some job ∧ s.runs.get? (j, job.currentRunId) = some run ∧
      nextState job.facts .cancel policy = .ok transition := by
  unfold cancelAdmission at h
  split at h
  · cases h
  rename_i hjob
  split at h
  · cases h
  rename_i hnext
  split at h
  · cases h
  rename_i hrun
  simp only [Except.ok.injEq, Prod.mk.injEq] at h
  obtain ⟨rfl, rfl, rfl⟩ := h
  exact ⟨hjob, hrun, hnext⟩

theorem cancel_effect (linked : Linked s) (j : UUID) (now : Int) :
    Effect sha256 policy s (.cancel j now) (step sha256 policy s (.cancel j now)).1
      (step sha256 policy s (.cancel j now)).2 := by
  simp only [step, cancel]
  split
  · exact answer_error ..
  case h_2 job run transition hadmit =>
    obtain ⟨hjob, hrun, hnext⟩ := cancelAdmission_ok hadmit
    obtain rfl : job.jobId = j := (linked _).jobId _ hjob
    obtain ⟨hrunning, rfl⟩ | ⟨hcancellable, rfl⟩ := nextState_cancel hnext
    · refine answer_record (Dict.get?_set_self ..) fun record hrecord => ?_
      exact .flagged _ now _ record job run
        ⟨hjob, hrun, fun k => Dict.get?_set .., fun k => Dict.get?_set .., rfl⟩ hrunning rfl rfl
        rfl hrecord
    · refine answer_record (Dict.get?_set_self ..) fun record hrecord => ?_
      exact .cancelled _ now _ record job _ run rfl
        ⟨hjob, hrun, fun k => Dict.get?_set .., fun k => Dict.get?_set .., rfl⟩ hcancellable
        rfl rfl rfl hrecord

theorem retryAdmission_ok {j : UUID} {job : Job} {transition : Transition}
    (h : retryAdmission policy s j = .ok (job, transition)) :
    s.jobs.get? j = some job ∧ job.status = .retryableFailed ∧
      transition = { status := .queued, enqueueOutbox := true } := by
  unfold retryAdmission at h
  split at h
  · cases h
  rename_i hjob
  split at h
  · cases h
  · cases h
  rename_i hnext
  simp only [Except.ok.injEq, Prod.mk.injEq] at h
  obtain ⟨rfl, rfl⟩ := h
  exact ⟨hjob, nextState_scheduleRetry hnext⟩

theorem scheduleRetry_effect (linked : Linked s) (j : UUID) (availableAt now : Int)
    (token : UUID) :
    Effect sha256 policy s (.scheduleRetry j availableAt now token)
      (step sha256 policy s (.scheduleRetry j availableAt now token)).1
      (step sha256 policy s (.scheduleRetry j availableAt now token)).2 := by
  simp only [step, scheduleRetry]
  split
  · exact answer_error ..
  case h_2 job transition hadmit =>
    obtain ⟨hjob, hfailed, rfl⟩ := retryAdmission_ok hadmit
    obtain rfl : job.jobId = j := (linked _).jobId _ hjob
    obtain ⟨run, hrun⟩ := (linked _).current _ hjob
    simp only [hrun, Store.enqueue]
    refine answer_record (Dict.get?_set_self ..) fun record hrecord => ?_
    exact .retried _ availableAt now token _ record job _ run rfl
      ⟨hjob, hrun, fun k => Dict.get?_set_set .., fun k => Dict.get?_set .., rfl⟩ hfailed rfl rfl
      rfl hrecord

theorem rejectAdmission_ok {j r task : UUID} {job : Job} {transition : Transition}
    (h : rejectAdmission policy s j r task = .ok (job, transition)) :
    s.jobs.get? j = some job ∧ job.currentRunId = r ∧ task ∈ job.openTaskIds ∧
      nextState { job.facts with hasOpenTasks := job.openTaskIds.filter (· ≠ task) ≠ [] }
        .humanRejected policy = .ok transition := by
  simp only [rejectAdmission] at h
  split at h
  · cases h
  rename_i hjob
  split at h
  · cases h
  rename_i hmember
  push Not at hmember
  split at h
  · cases h
  rename_i hnext
  simp only [Except.ok.injEq, Prod.mk.injEq] at h
  obtain ⟨rfl, rfl⟩ := h
  exact ⟨hjob, hmember.1, hmember.2, hnext⟩

theorem rejectHumanTask_effect (linked : Linked s) (j r task : UUID) (now : Int) :
    Effect sha256 policy s (.rejectHumanTask j r task now)
      (step sha256 policy s (.rejectHumanTask j r task now)).1
      (step sha256 policy s (.rejectHumanTask j r task now)).2 := by
  simp only [step, rejectHumanTask]
  split
  · exact answer_error ..
  case h_2 job transition hadmit =>
    obtain ⟨hjob, rfl, hmember, hnext⟩ := rejectAdmission_ok hadmit
    obtain rfl : job.jobId = j := (linked _).jobId _ hjob
    obtain ⟨run, hrun⟩ := (linked _).current _ hjob
    obtain ⟨hwaiting, houtcome⟩ := nextState_humanRejected hnext
    simp only [hrun]
    refine answer_record (Dict.get?_set_self ..) fun record hrecord => ?_
    refine .rejected _ _ task now _ record job _ run transition.status rfl
      ⟨hjob, hrun, fun k => Dict.get?_set .., fun k => Dict.get?_set .., rfl⟩ rfl hwaiting
      hmember ?_ rfl rfl rfl hrecord
    obtain ⟨htasks, rfl⟩ | ⟨htasks, rfl⟩ := houtcome
    · exact .inl ⟨rfl, by simpa using htasks⟩
    · exact .inr ⟨rfl, by simpa using htasks⟩

theorem resumeAdmission_ok {j : UUID} {reference : RunReference} {job : Job} {current : Run}
    {transition : Transition}
    (h : resumeAdmission policy s j reference = .ok (job, current, transition)) :
    s.jobs.get? j = some job ∧ s.runs.get? (j, job.currentRunId) = some current ∧
      job.status = .waitingForHuman ∧ s.runs.get? (j, reference.runId) = none ∧
      reference.revision ≠ current.revision ∧ reference.revision.caseId = job.caseId ∧
      reference.attemptId = none ∧ transition = { status := .queued, enqueueOutbox := true } := by
  unfold resumeAdmission at h
  split at h
  · cases h
  rename_i hjob
  split at h
  · cases h
  rename_i hrun
  split at h
  · cases h
  rename_i hnew
  split at h
  · cases h
  rename_i hnext
  simp only [Except.ok.injEq, Prod.mk.injEq] at h
  obtain ⟨rfl, rfl, rfl⟩ := h
  push Not at hnew
  obtain ⟨-, hunused, hrevised, hcase, hbare⟩ := hnew
  obtain ⟨hwaiting, rfl⟩ := nextState_humanResponse hnext
  exact ⟨hjob, hrun, hwaiting, by simpa using hunused, hrevised, hcase, hbare, rfl⟩

theorem resumeAfterHuman_effect (linked : Linked s) (j : UUID) (reference : RunReference)
    (now : Int) (token : UUID) :
    Effect sha256 policy s (.resumeAfterHuman j reference now token)
      (step sha256 policy s (.resumeAfterHuman j reference now token)).1
      (step sha256 policy s (.resumeAfterHuman j reference now token)).2 := by
  simp only [step, resumeAfterHuman]
  split
  · exact answer_error ..
  case h_2 job current transition hadmit =>
    obtain ⟨hjob, hrun, hwaiting, hunused, hrevised, hcase, hbare, rfl⟩ :=
      resumeAdmission_ok hadmit
    obtain rfl : job.jobId = j := (linked _).jobId _ hjob
    simp only [Store.enqueue]
    refine answer_record (Dict.get?_set_self ..) fun record hrecord => ?_
    exact .resumed _ reference now token _ record job _ current hjob hrun hwaiting hunused
      hrevised hcase hbare rfl (fun k => Dict.get?_set_set ..) rfl rfl rfl rfl rfl hrecord

theorem markDispatched_effect (linked : Linked s) (mark : DispatchRecord) (now : Int) :
    Effect sha256 policy s (.markDispatched mark now)
      (step sha256 policy s (.markDispatched mark now)).1
      (step sha256 policy s (.markDispatched mark now)).2 := by
  obtain ⟨j, r, seq, token, availableAt, attempts⟩ := mark
  simp only [step, markDispatched]
  split
  case h_2 => exact answer_error ..
  case h_1 entry job hentry hjob =>
    obtain rfl : job.jobId = j := (linked _).jobId _ hjob
    split
    · exact answer_error ..
    rename_i hpending
    push Not at hpending
    obtain ⟨htoken, hpending⟩ := hpending
    split
    · rename_i hqueued
      obtain ⟨run, hrun⟩ := ((linked _).round _ _ hentry).2.2.1
      obtain ⟨hattempts, htakeovers⟩ := (linked _).counters _ hjob
      have hnext : nextState job.facts .dispatchSucceeded policy = .ok { status := .dispatched } :=
        nextState_dispatchSucceeded hattempts htakeovers hqueued
      simp only [hnext, hrun]
      obtain ⟨current, hcurrent⟩ := (linked _).current _ hjob
      obtain ⟨run', hrun'⟩ : ∃ run', (s.runs.set (job.jobId, entry.runId)
          { run with runStatus := .dispatched }).get? (job.jobId, job.currentRunId) =
            some run' := by
        rw [Dict.get?_set]
        split_ifs
        · exact ⟨_, rfl⟩
        · exact ⟨current, hcurrent⟩
      exact answer_record hrun' fun record hrecord =>
        .dispatched _ now _ record job _ run entry hjob hentry htoken hpending hqueued hrun rfl
          rfl rfl rfl rfl rfl rfl hrecord
    · rename_i hnotQueued
      obtain ⟨run, hrun⟩ := (linked _).current _ hjob
      exact answer_record hrun fun record hrecord =>
        .confirmed _ now _ record job entry hjob hentry htoken hpending hnotQueued rfl hrecord

theorem rescheduleDispatch_effect (mark : DispatchRecord) (availableAt : Int) :
    Effect sha256 policy s (.rescheduleDispatch mark availableAt)
      (step sha256 policy s (.rescheduleDispatch mark availableAt)).1
      (step sha256 policy s (.rescheduleDispatch mark availableAt)).2 := by
  simp only [step, rescheduleDispatch]
  split
  · exact answer_error ..
  rename_i entry hentry
  split
  · exact answer_error ..
  rename_i hpending
  push Not at hpending
  split
  · exact answer_error ..
  rename_i job hjob
  split
  · exact .abandoned mark availableAt job entry hjob hentry hpending.1 hpending.2 ‹_›
  rename_i hlive
  split
  · exact answer_error ..
  · exact .deferred mark availableAt job entry hjob hentry hpending.1 hpending.2
      (by simpa using hlive)

theorem createJob_effect (linked : Linked s) (principal : Principal)
    (submission : ReviewSubmission) (j r : UUID) (now : Int) (token : UUID) :
    Effect sha256 policy s (.createJob principal submission j r now token)
      (step sha256 policy s (.createJob principal submission j r now token)).1
      (step sha256 policy s (.createJob principal submission j r now token)).2 := by
  simp only [step, createJob]
  split
  · split
    · exact answer_error ..
    split
    · exact answer_error ..
    split
    · exact answer_error ..
    rename_i job hjob
    obtain ⟨record, hrecord⟩ := linked.record_ok hjob
    simp only [answer, hrecord]
    exact .replayed principal submission j r now token record
  · split
    · exact answer_error ..
    split
    · exact answer_error ..
    rename_i hunused
    push Not at hunused
    simp only [Store.enqueue]
    refine answer_created (Dict.get?_set_self ..) fun record hrecord => ?_
    exact .created principal submission j r now token _ record _ _ (by simpa using hunused.1) rfl
      rfl rfl rfl rfl rfl rfl hrecord

variable (sha256 policy) in
theorem step_effect (linked : Linked s) (op : Op) :
    Effect sha256 policy s op (step sha256 policy s op).1 (step sha256 policy s op).2 := by
  cases op with
  | createJob principal submission j r now token =>
    exact createJob_effect linked principal submission j r now token
  | claim j r owner leaseSeconds now attemptId =>
    exact claim_effect j r owner leaseSeconds now attemptId
  | heartbeat attempt leaseSeconds now => exact heartbeat_effect linked attempt leaseSeconds now
  | finish attempt event now problem openTaskIds result =>
    exact finish_effect linked attempt event now problem openTaskIds result
  | expireLease lease now token => exact expireLease_effect linked lease now token
  | cancel j now => exact cancel_effect linked j now
  | scheduleRetry j availableAt now token =>
    exact scheduleRetry_effect linked j availableAt now token
  | rejectHumanTask j r task now => exact rejectHumanTask_effect linked j r task now
  | resumeAfterHuman j reference now token =>
    exact resumeAfterHuman_effect linked j reference now token
  | markDispatched mark now => exact markDispatched_effect linked mark now
  | rescheduleDispatch mark availableAt => exact rescheduleDispatch_effect mark availableAt

end AppraisalReview.MemoryJobStore
