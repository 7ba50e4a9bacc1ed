import AppraisalReview.JobTables

set_option autoImplicit false

/-!
# The status law and the recovery law of every reachable job
-/
namespace AppraisalReview.MemoryJobStore

variable {sha256 : String → Digest} {policy : JobPolicy} {s s' : Store}

structure LawfulJob (job : Job) (run : Run) : Prop where
  problem : job.problem.isSome = true ↔ job.status = .failed ∨ job.status = .cancelled
  published : job.status = .succeeded ↔ run.resultVersion ≠ 0
  waiting : job.status = .waitingForHuman → job.openTaskIds ≠ []
  cancel : job.cancelRequested = true → job.status.cancelPending = true
  tasks : job.openTaskIds.Nodup
  sameCase : run.revision.caseId = job.caseId

def Run.content (run : Run) : UUID × RevisionReference × ℕ :=
  (run.runId, run.revision, run.resultVersion)

theorem LawfulJob.of_content {job : Job} {run run' : Run} (h : LawfulJob job run)
    (content : run'.content = run.content) : LawfulJob job run' := by
  simp only [Run.content, Prod.mk.injEq] at content
  obtain ⟨-, hrevision, hversion⟩ := content
  exact ⟨h.problem, hversion ▸ h.published, h.waiting, h.cancel, h.tasks, hrevision ▸ h.sameCase⟩

structure LawfulAt (s : Store) (j : UUID) : Prop where
  law : ∀ job run, s.jobs.get? j = some job → s.runs.get? (j, job.currentRunId) = some run →
    LawfulJob job run
  unpublished : ∀ job r run, s.jobs.get? j = some job → s.runs.get? (j, r) = some run →
    r ≠ job.currentRunId → run.resultVersion = 0
  stored : ∀ r run, s.runs.get? (j, r) = some run → run.resultVersion ≠ 0 →
    run.resultVersion = 1 ∧ ∃ ref, s.results.get? (r, run.resultVersion) = some ref

theorem LawfulAt.of_sameRows {j : UUID} (lawful : LawfulAt s j) (same : SameRows s s' j)
    (results : Extends s s') : LawfulAt s' j where
  law := by simpa only [same.job, same.run] using lawful.law
  unpublished := by simpa only [same.job, same.run] using lawful.unpublished
  stored r run hrun hversion := by
    rw [same.run] at hrun
    obtain ⟨hone, ref, href⟩ := lawful.stored r run hrun hversion
    exact ⟨hone, ref, results _ _ href⟩

/-- A call that keeps the content of every run only has to keep the job's own law. -/
theorem LawfulAt.of_content {j : UUID} {job job' : Job} (lawful : LawfulAt s j)
    (before : s.jobs.get? j = some job) (after : s'.jobs.get? j = some job')
    (hcurrent : job'.currentRunId = job.currentRunId)
    (law : ∀ run, LawfulJob job run → LawfulJob job' run)
    (runs : ∀ r, (s'.runs.get? (j, r)).map Run.content = (s.runs.get? (j, r)).map Run.content)
    (results : Extends s s') : LawfulAt s' j where
  law stored run hjob hrun := by
    obtain rfl := Option.some.inj (after.symm.trans hjob)
    obtain ⟨old, hold, hcontent⟩ := exists_of_map_eq (runs _) hrun
    rw [hcurrent] at hold
    exact law _ ((lawful.law _ _ before hold).of_content hcontent.symm)
  unpublished stored r run hjob hrun hne := by
    obtain rfl := Option.some.inj (after.symm.trans hjob)
    obtain ⟨old, hold, hcontent⟩ := exists_of_map_eq (runs _) hrun
    simp only [Run.content, Prod.mk.injEq] at hcontent
    rw [← hcontent.2.2]
    exact lawful.unpublished _ _ _ before hold (hcurrent ▸ hne)
  stored r run hrun hversion := by
    obtain ⟨old, hold, hcontent⟩ := exists_of_map_eq (runs _) hrun
    simp only [Run.content, Prod.mk.injEq] at hcontent
    rw [← hcontent.2.2] at hversion ⊢
    obtain ⟨hone, ref, href⟩ := lawful.stored r old hold hversion
    exact ⟨hone, ref, results _ _ href⟩

theorem Touched.lawfulAt {j : UUID} {job job' : Job} {run run' : Run}
    (touched : Touched s s' j job run job' run') (lawful : LawfulAt s j)
    (hcurrent : job'.currentRunId = job.currentRunId) (hcontent : run'.content = run.content)
    (results : Extends s s') (law : ∀ run, LawfulJob job run → LawfulJob job' run) :
    LawfulAt s' j := by
  refine lawful.of_content touched.before touched.stored hcurrent law (fun r => ?_) results
  rw [touched.runs]
  split_ifs with hr
  · rw [hr, touched.current, Option.map_some, Option.map_some, hcontent]
  · rfl

theorem LawfulJob.problem_none {job : Job} {run : Run} (h : LawfulJob job run)
    (live : job.status.terminal = false) : job.problem = none := by
  rw [← Option.not_isSome_iff_eq_none, h.problem]
  rintro (hstatus | hstatus) <;> simp [hstatus, JobStatus.terminal] at live

theorem LawfulJob.version_zero {job : Job} {run : Run} (h : LawfulJob job run)
    (hstatus : job.status ≠ .succeeded) : run.resultVersion = 0 := by
  by_contra hversion
  exact hstatus (h.published.mpr hversion)

theorem LawfulJob.of_live {job : Job} {run : Run} (live : job.status.terminal = false)
    (problem : job.problem = none) (version : run.resultVersion = 0)
    (waiting : job.status = .waitingForHuman → job.openTaskIds ≠ [])
    (cancel : job.cancelRequested = true → job.status = .running)
    (tasks : job.openTaskIds.Nodup) (sameCase : run.revision.caseId = job.caseId) :
    LawfulJob job run where
  problem := by
    rw [problem]
    constructor
    · rintro ⟨⟩
    · rintro (hstatus | hstatus) <;> simp [hstatus, JobStatus.terminal] at live
  published := by
    rw [version]
    constructor
    · intro hstatus
      simp [hstatus, JobStatus.terminal] at live
    · simp
  waiting := waiting
  cancel h := by simp [cancel h, JobStatus.cancelPending]
  tasks := tasks
  sameCase := sameCase

theorem LawfulJob.of_stopped {job : Job} {run : Run}
    (stopped : job.status = .failed ∨ job.status = .cancelled) (problem : job.problem ≠ none)
    (version : run.resultVersion = 0) (tasks : job.openTaskIds.Nodup)
    (sameCase : run.revision.caseId = job.caseId) : LawfulJob job run where
  problem := ⟨fun _ => stopped, fun _ => Option.isSome_iff_ne_none.mpr problem⟩
  published := by
    rw [version]
    constructor
    · intro hstatus
      simp [hstatus] at stopped
    · nofun
  waiting h := by simp [h] at stopped
  cancel _ := by obtain h | h := stopped <;> simp [h, JobStatus.cancelPending, JobStatus.terminal]
  tasks := tasks
  sameCase := sameCase

theorem LawfulJob.no_cancel {job : Job} {run : Run} (h : LawfulJob job run)
    (hpending : job.status.cancelPending = false) : job.cancelRequested ≠ true := fun hcancel => by
  simp [h.cancel hcancel] at hpending

theorem LawfulJob.move {job job' : Job} {run : Run} (h : LawfulJob job run)
    (live : job.status.terminal = false) (live' : job'.status.terminal = false)
    (problem : job'.problem = none ∨ job'.problem = job.problem)
    (flag : job'.cancelRequested = job.cancelRequested)
    (tasks : job'.openTaskIds = job.openTaskIds) (caseId : job'.caseId = job.caseId)
    (waiting : job'.status = .waitingForHuman → job.status = .waitingForHuman)
    (cancel : job.status.cancelPending = false ∨ job'.status = .running) : LawfulJob job' run := by
  refine .of_live live' ?_ (h.version_zero (JobStatus.not_succeeded_of_live live)) ?_ ?_ ?_ ?_
  · obtain hproblem | hproblem := problem
    · exact hproblem
    · rw [hproblem, h.problem_none live]
  · rw [tasks]
    exact fun hwaiting => h.waiting (waiting hwaiting)
  · rw [flag]
    exact fun hcancel => cancel.elim (fun hpending => absurd hcancel (h.no_cancel hpending)) id
  · rw [tasks]
    exact h.tasks
  · rw [caseId]
    exact h.sameCase

theorem LawfulJob.finished {job : Job} {run : Run} (h : LawfulJob job run)
    {event : JobEvent} {transition : Transition} {now : Int} {problem : Option ServiceProblem}
    {openTaskIds : List UUID} {version : ℕ}
    (outcome : FinishOutcome { job.facts with hasOpenTasks := openTaskIds ≠ [] } event transition)
    (explained : transition.status = .failed → problem ≠ none)
    (published : event = .publishResult ∧ version ≠ 0 ∨
      event ≠ .publishResult ∧ version = run.resultVersion) :
    LawfulJob (job.finished transition now problem openTaskIds)
      { run.settled transition.status with resultVersion := version } := by
  have hrunning : job.status = .running := outcome.running
  have unpublished : transition.status ≠ .succeeded → version = 0 := by
    intro hstatus
    obtain ⟨hpublish, -⟩ | ⟨-, hversion⟩ := published
    · exact absurd (outcome.published hpublish) hstatus
    · rw [hversion]
      exact h.version_zero (by simp [hrunning])
  have uncancelled : transition.status.terminal = false → job.cancelRequested ≠ true := by
    intro live hcancel
    rw [outcome.honoured hcancel] at live
    cases live
  obtain ⟨hstatus, htasks⟩ | ⟨hstatus, hpublish⟩ | hstatus | hstatus | hstatus := outcome.status
  · have hopen : openTaskIds ≠ [] := by simpa using htasks
    refine .of_live (by simp [Job.finished, hstatus, JobStatus.terminal])
      (by simp [Job.finished, hstatus]) (unpublished (by simp [hstatus])) (fun _ => ?_)
      (fun hcancel => absurd hcancel (uncancelled (by simp [hstatus, JobStatus.terminal]))) ?_
      h.sameCase
    · simpa [Job.finished, hstatus, Dict.fromKeys_eq_nil] using hopen
    · simpa [Job.finished, hstatus] using Dict.fromKeys_nodup openTaskIds
  · have hversion : version ≠ 0 := by
      obtain ⟨-, hversion⟩ | ⟨hother, -⟩ := published
      · exact hversion
      · exact absurd hpublish hother
    refine ⟨by simp [Job.finished, hstatus], by simp [Job.finished, hstatus, hversion],
      by simp [Job.finished, hstatus], fun _ => ?_, ?_, h.sameCase⟩
    · simp [Job.finished, hstatus, JobStatus.cancelPending, JobStatus.terminal]
    · simpa [Job.finished, hstatus] using Dict.fromKeys_nodup openTaskIds
  · refine .of_live (by simp [Job.finished, hstatus, JobStatus.terminal])
      (by simp [Job.finished, hstatus]) (unpublished (by simp [hstatus]))
      (by simp [Job.finished, hstatus])
      (fun hcancel => absurd hcancel (uncancelled (by simp [hstatus, JobStatus.terminal]))) ?_
      h.sameCase
    simpa [Job.finished, hstatus] using Dict.fromKeys_nodup openTaskIds
  · refine .of_stopped (.inl hstatus) (by simpa [Job.finished, hstatus] using explained hstatus)
      (unpublished (by simp [hstatus])) ?_ h.sameCase
    simpa [Job.finished, hstatus] using Dict.fromKeys_nodup openTaskIds
  · exact .of_stopped (.inr hstatus) (by simp [Job.finished, hstatus])
      (unpublished (by simp [hstatus])) (by simp [Job.finished, hstatus]) h.sameCase

theorem LawfulJob.reclaimed {job : Job} {run : Run} (h : LawfulJob job run)
    {transition : Transition} {now : Int} {seq : ℕ}
    (decided : nextState job.facts .leaseExpired policy = .ok transition) :
    LawfulJob { job.reclaimed transition now with outboxSeq := seq } run := by
  obtain ⟨hrunning, houtcome⟩ := nextState_leaseExpired decided
  change job.status = .running at hrunning
  have version := h.version_zero (by simp [hrunning])
  obtain ⟨-, rfl⟩ | ⟨-, -, rfl⟩ | ⟨hflag, -, rfl⟩ := houtcome
  · exact .of_stopped (.inr rfl) (by simp [Job.reclaimed, cancelPreempted]) version
      (by simp [Job.reclaimed, cancelPreempted]) h.sameCase
  · exact .of_stopped (.inl rfl) (by simp [Job.reclaimed]) version
      (by simpa [Job.reclaimed] using h.tasks) h.sameCase
  · have hproblem := h.problem_none (by simp [hrunning, JobStatus.terminal])
    refine .of_live rfl (by simpa [Job.reclaimed] using hproblem) version
      (by simp [Job.reclaimed]) (fun hcancel => ?_) (by simpa [Job.reclaimed] using h.tasks)
      h.sameCase
    exact absurd (hflag.symm.trans hcancel) (by rintro ⟨⟩)

/-- A finished attempt publishes version one under the run, or publishes nothing. -/
theorem Touched.finishedLawful {attempt : ClaimedAttempt} {job : Job} {run : Run}
    {event : JobEvent} {transition : Transition} {now : Int} {problem : Option ServiceProblem}
    {openTaskIds : List UUID} {result : Option ResultReference} {version : ℕ}
    (touched : Touched s s' attempt.jobId job run
      (job.finished transition now problem openTaskIds)
      { run.settled transition.status with resultVersion := version })
    (lawful : LawfulAt s attempt.jobId) (holds : Holds attempt job run)
    (outcome : FinishOutcome { job.facts with hasOpenTasks := openTaskIds ≠ [] } event transition)
    (explained : transition.status = .failed → problem ≠ none)
    (published :
      (event = .publishResult ∧ ∃ ref, result = some ref ∧ Publishes s attempt run ref ∧
        version = ref.resultVersion ∧
        s'.results = s.results.set (ref.runId, ref.resultVersion) ref) ∨
      (event ≠ .publishResult ∧ version = run.resultVersion ∧ s'.results = s.results))
    (hcurrent : job.currentRunId = attempt.runId) (results : Extends s s') :
    LawfulAt s' attempt.jobId := by
  have law := lawful.law _ _ touched.before touched.current
  have hzero := law.version_zero (by simp [holds.running])
  have hjob := touched.stored
  have committed : version ≠ 0 →
      version = 1 ∧ ∃ ref, s'.results.get? (job.currentRunId, version) = some ref := by
    intro hversion
    obtain ⟨-, ref, -, publishes, rfl, hresults⟩ | ⟨-, rfl, -⟩ := published
    · have hone : ref.resultVersion = 1 := by
        rw [publishes.next, ← publishes.expected, hzero]
      exact ⟨hone, ref, by rw [hresults, hcurrent, ← publishes.runId, Dict.get?_set_self]⟩
    · exact absurd hzero hversion
  refine ⟨fun stored run' hstored hrun => ?_, fun stored r run' hstored hrun hne => ?_,
    fun r run' hrun hversion => ?_⟩
  · obtain rfl := Option.some.inj (hjob.symm.trans hstored)
    change s'.runs.get? (attempt.jobId, job.currentRunId) = some run' at hrun
    rw [touched.runs, if_pos rfl] at hrun
    obtain rfl := Option.some.inj hrun
    refine law.finished outcome explained ?_
    obtain ⟨hpublish, ref, -, publishes, rfl, -⟩ | ⟨hother, hversion, -⟩ := published
    · exact .inl ⟨hpublish, by simp [publishes.next]⟩
    · exact .inr ⟨hother, hversion⟩
  · obtain rfl := Option.some.inj (hjob.symm.trans hstored)
    change r ≠ job.currentRunId at hne
    rw [touched.runs, if_neg (by simpa using hne)] at hrun
    exact lawful.unpublished _ _ _ touched.before hrun hne
  · rw [touched.runs] at hrun
    split_ifs at hrun with hr
    · obtain rfl := Option.some.inj hrun
      rw [(Prod.mk.inj hr).2]
      exact committed hversion
    · obtain ⟨hone, ref, href⟩ := lawful.stored r run' hrun hversion
      exact ⟨hone, ref, results _ _ href⟩

theorem LawfulAt.started {j r : UUID} {job : Job} {run : Run} (law : LawfulJob job run)
    (hversion : run.resultVersion = 0) (hcurrent : job.currentRunId = r)
    (jobs : s'.jobs.get? j = some job) (runs : s'.runs = s.runs.set (j, r) run)
    (others : ∀ r' stored, s.runs.get? (j, r') = some stored → stored.resultVersion = 0) :
    LawfulAt s' j := by
  have rows : ∀ r' stored, s'.runs.get? (j, r') = some stored →
      (r' = r ∧ stored = run) ∨ stored.resultVersion = 0 := by
    intro r' stored h
    rw [runs, Dict.get?_set] at h
    split_ifs at h with hr
    · exact .inl ⟨(Prod.mk.inj hr).2, (Option.some.inj h).symm⟩
    · exact .inr (others r' stored h)
  refine ⟨fun stored run' hstored hrun => ?_, fun stored r' run' _ hrun _ => ?_,
    fun r' run' hrun hne => ?_⟩
  · obtain rfl := Option.some.inj (jobs.symm.trans hstored)
    rw [hcurrent, runs, Dict.get?_set_self] at hrun
    exact Option.some.inj hrun ▸ law
  · obtain ⟨-, rfl⟩ | hzero := rows r' run' hrun
    · exact hversion
    · exact hzero
  · obtain ⟨-, rfl⟩ | hzero := rows r' run' hrun
    · exact absurd hversion hne
    · exact absurd hzero hne

theorem Effect.lawfulAt {op : Op} {reply : Except Fault Reply} (linked : Linked s)
    (h : Effect sha256 policy s op reply s') (lawful : LawfulAt s op.target) :
    LawfulAt s' op.target := by
  have results := h.extends
  cases h with
  | refused | replayed => exact lawful
  | created principal submission j r now token _ record job run unused hjob hrun jobs runs
      outbox =>
    have stored : s'.jobs.get? j = some job := by
      rw [jobs]
      exact Dict.get?_set_self ..
    have law : LawfulJob job run := by
      subst hjob hrun
      exact .of_live rfl rfl rfl (by rintro ⟨⟩) (by rintro ⟨⟩) List.nodup_nil rfl
    refine LawfulAt.started law (by rw [hrun]) (by rw [hjob]) stored runs fun r' old hold => ?_
    obtain ⟨other, hother⟩ := (linked j).owner _ _ hold
    exact absurd (hother.symm.trans unused) (by rintro ⟨⟩)
  | claimed j r owner attemptId leaseSeconds now _ job run attempt hattempt touched hcurrent
      claimable outbox =>
    have live := (JobStatus.live_of_claimable claimable).1
    exact touched.lawfulAt lawful rfl rfl results fun _ law =>
      law.move live rfl (.inr rfl) rfl rfl rfl (by rintro ⟨⟩) (.inr rfl)
  | extended attempt leaseSeconds now _ job run touched hcurrent holds outbox =>
    have live : job.status.terminal = false := by simp [holds.running, JobStatus.terminal]
    exact touched.lawfulAt lawful rfl rfl results fun _ law =>
      law.move live live (.inr rfl) rfl rfl rfl id (.inr holds.running)
  | finished attempt event now problem openTaskIds result _ record job run transition version
      touched hcurrent holds finishes decided explained published outbox =>
    exact touched.finishedLawful lawful holds (nextState_finish finishes decided) explained
      published hcurrent results
  | reclaimed lease now token _ record job job' run transition deadline touched hcurrent running
      htoken hdeadline expired decided round =>
    obtain ⟨-, rfl, -⟩ | ⟨-, rfl, -⟩ := round
    · exact touched.lawfulAt lawful rfl rfl results fun _ law => law.reclaimed decided
    · exact touched.lawfulAt lawful rfl rfl results fun _ law => law.reclaimed decided
  | flagged j now _ record job run touched running outbox =>
    have live : job.status.terminal = false := by simp [running, JobStatus.terminal]
    exact touched.lawfulAt lawful rfl rfl results fun _ law =>
      .of_live live (law.problem_none live) (law.version_zero (by simp [running])) law.waiting
        (fun _ => running) law.tasks law.sameCase
  | cancelled j now _ record job job' run hjob touched cancellable outbox =>
    subst hjob
    have live := (JobStatus.live_of_cancellable cancellable).1
    exact touched.lawfulAt lawful rfl rfl results fun _ law =>
      .of_stopped (.inr rfl) (by rintro ⟨⟩) (law.version_zero (JobStatus.not_succeeded_of_live live))
        List.nodup_nil law.sameCase
  | retried j availableAt now token _ record job job' run hjob touched failed outbox =>
    subst hjob
    have live : job.status.terminal = false := by simp [failed, JobStatus.terminal]
    exact touched.lawfulAt lawful rfl rfl results fun _ law =>
      law.move live rfl (.inl rfl) rfl rfl rfl (by rintro ⟨⟩)
        (.inl (by simp [failed, JobStatus.cancelPending, JobStatus.terminal]))
  | rejected j r task now _ record job job' run status hjob touched hcurrent waiting member
      hstatus outbox =>
    subst hjob
    refine touched.lawfulAt lawful rfl rfl results fun _ law => ?_
    have version := law.version_zero (by simp [waiting])
    obtain ⟨rfl, hremaining⟩ | ⟨rfl, -⟩ := hstatus
    · refine .of_live rfl rfl version (fun _ => hremaining) (fun hcancel => ?_)
        (law.tasks.filter _) law.sameCase
      exact absurd hcancel
        (law.no_cancel (by simp [waiting, JobStatus.cancelPending, JobStatus.terminal]))
    · exact .of_stopped (.inl rfl) (by simp) version (law.tasks.filter _) law.sameCase
  | resumed j reference now token _ record job job' current before hcurrent waiting unused
      revised sameCase bare hjob jobs runs outbox =>
    have stored : s'.jobs.get? j = some job' := by simp [jobs]
    have law := lawful.law _ _ before hcurrent
    have pending : job.status.cancelPending = false := by
      simp [waiting, JobStatus.cancelPending, JobStatus.terminal]
    refine LawfulAt.started (.of_live ?_ ?_ (by rfl) ?_ ?_ ?_ ?_) (by rfl) (by rw [hjob]) stored
      runs fun r old hold => ?_
    · rw [hjob]
      rfl
    · rw [hjob]
      exact law.problem_none (by simp [waiting, JobStatus.terminal])
    · rw [hjob]
      rintro ⟨⟩
    · rw [hjob]
      exact fun hcancel => absurd hcancel (law.no_cancel pending)
    · rw [hjob]
      exact List.nodup_nil
    · rw [hjob]
      exact sameCase
    · by_cases hr : r = job.currentRunId
      · subst hr
        obtain rfl := Option.some.inj (hcurrent.symm.trans hold)
        exact law.version_zero (by simp [waiting])
      · exact lawful.unpublished _ _ _ before hold hr
  | dispatched mark now _ record job job' run entry before hentry token pending queued hrun hjob
      jobs runs outbox =>
    have stored : s'.jobs.get? mark.jobId = some job' := by
      rw [jobs]
      exact Dict.get?_set_self ..
    subst hjob
    have live : job.status.terminal = false := by simp [queued, JobStatus.terminal]
    refine lawful.of_content before stored rfl
      (fun _ law => law.move live rfl (.inr rfl) rfl rfl rfl (by rintro ⟨⟩)
        (.inl (by simp [queued, JobStatus.cancelPending, JobStatus.terminal])))
      (fun r => ?_) results
    rw [runs]
    exact Dict.map_get?_set _ _ hrun (by rfl) _
  | confirmed mark now _ record job entry before hentry token pending notQueued hs =>
    subst hs
    exact lawful.of_content before (Dict.get?_set_self ..) rfl
      (fun _ law => ⟨law.problem, law.published, law.waiting, law.cancel, law.tasks, law.sameCase⟩)
      (fun _ => rfl) results
  | abandoned mark availableAt job entry before hentry =>
    exact lawful.of_content before before rfl (fun _ => id) (fun _ => rfl) results
  | deferred mark availableAt job entry before hentry =>
    exact lawful.of_content before before rfl (fun _ => id) (fun _ => rfl) results

theorem run_lawful (ops : List Op) (j : UUID) : LawfulAt (run sha256 policy {} ops) j :=
  run_invariant_at LawfulAt (fun _ _ _ same results lawful => lawful.of_sameRows same results)
    (fun _ _ _ _ linked effect lawful => effect.lawfulAt linked lawful)
    (fun _ => ⟨fun _ _ h => absurd h (noJob_empty _ _), fun _ _ _ h => absurd h (noJob_empty _ _),
      fun _ _ h => absurd h (noRun_empty _ _)⟩) ops j

/-- What the status view promises about a job record, with the reference it points at. -/
structure Honest (s : Store) (record : JobRecord) : Prop where
  problem : record.problem.isSome = true ↔ record.status = .failed ∨ record.status = .cancelled
  published : record.status = .succeeded → 1 ≤ record.resultVersion ∧
    ∃ ref, readResultReference s record.currentRun.runId record.resultVersion = some ref
  waiting : record.status = .waitingForHuman → record.openTaskIds ≠ []
  cancel : record.cancelRequested = true →
    record.status = .running ∨ record.status.terminal = true
  tasks : record.openTaskIds.Nodup
  sameCase : record.currentRun.revision.caseId = record.caseId
  view : ∃ view, statusView record = .ok view

theorem statusView_ok {record : JobRecord} (hcount : 0 ≤ record.attemptCount)
    (problem : record.problem.isSome = true ↔ record.status = .failed ∨ record.status = .cancelled)
    (published : record.status = .succeeded → 1 ≤ record.resultVersion)
    (waiting : record.status = .waitingForHuman → record.openTaskIds ≠ [])
    (cancel : record.cancelRequested = true → record.status.cancelPending = true)
    (tasks : record.openTaskIds.Nodup)
    (sameCase : record.currentRun.revision.caseId = record.caseId) :
    ∃ view, statusView record = .ok view := by
  have hproblem : decide (record.status = .failed ∨ record.status = .cancelled) =
      record.problem.isSome := by
    rw [Bool.eq_iff_iff, problem, decide_eq_true_eq]
  have hcancel : ¬ (record.cancelRequested = true ∧ record.status.cancelPending = false) := by
    rintro ⟨hflag, hpending⟩
    exact absurd ((cancel hflag).symm.trans hpending) nofun
  unfold statusView JobStatusView.honestStatus
  rw [if_neg (by simpa using hcount), if_neg (by simp only [hproblem]; simp),
    if_neg (fun h => absurd (published h.1) (Nat.not_le.mpr h.2)), if_neg (fun h => waiting h.1 h.2),
    if_neg hcancel, if_neg (by simpa using tasks), if_neg (by simp [sameCase])]
  exact ⟨_, rfl⟩

theorem run_honest (ops : List Op) (j : UUID) (job : Job)
    (hjob : (run sha256 policy {} ops).jobs.get? j = some job) :
    ∃ record, readJob (run sha256 policy {} ops) j = .ok (some record) ∧
      Honest (run sha256 policy {} ops) record := by
  have linked : Linked (run sha256 policy {} ops) := run_linked ops
  have lawful : LawfulAt (run sha256 policy {} ops) j := run_lawful ops j
  obtain ⟨current, hcurrent⟩ := (linked j).current job hjob
  have law := lawful.law job current hjob hcurrent
  have hrunId := (linked j).runId _ _ hcurrent
  have hrecord := hcurrent
  rw [← (linked j).jobId job hjob] at hrecord
  refine ⟨_, by simp only [readJob, hjob, Store.record, hrecord]; rfl, ?_⟩
  have published : job.status = .succeeded → 1 ≤ current.resultVersion := fun h =>
    Nat.one_le_iff_ne_zero.mpr (law.published.mp h)
  refine ⟨law.problem, fun hstatus => ⟨published hstatus, ?_⟩, law.waiting, fun hflag => ?_,
    law.tasks, law.sameCase,
    statusView_ok ((linked j).counters job hjob).1 law.problem published law.waiting law.cancel
      law.tasks law.sameCase⟩
  · obtain ⟨-, ref, href⟩ := lawful.stored _ _ hcurrent (law.published.mp hstatus)
    rw [← hrunId] at href
    exact ⟨ref, href⟩
  · simpa [JobStatus.cancelPending] using law.cancel hflag

theorem run_honest_claimed :
    ∃ record, readJob (run (fun _ => sampleDigest) {} {} [sampleCreate, sampleClaim]) ⟨1⟩ =
        .ok (some record) ∧
      Honest (run (fun _ => sampleDigest) {} {} [sampleCreate, sampleClaim]) record :=
  run_honest [sampleCreate, sampleClaim] ⟨1⟩ _ rfl

end AppraisalReview.MemoryJobStore
