import AppraisalReview.AttemptAuthority
import AppraisalReview.RuntimeWorker

set_option autoImplicit false

/-!
# No abandoned attempts

When `process` returns after a claim, the attempt has lost its authority and the
verdict says how. Four steps can break this, and `Clean` names the states in
which they do not.
-/
namespace AppraisalReview.MemoryJobStore

variable {contentDigest : ServiceResult → Digest} {sha256 : String → Digest}
variable {policy timing : JobPolicy} {jobId runId : UUID} {s s' : Store}
variable {w : Worker} {attempt : ClaimedAttempt}

def Worker.Offers (w : Worker) (result : ServiceResult) : Prop :=
  ∃ body : ResultBody, w.taken = some (.executed (.result body)) ∧
    { body with durable := true }.validated = .ok result

def Ended (s : Store) (j : UUID) (status : JobStatus) : Prop :=
  ∃ job, s.jobs.get? j = some job ∧ job.status = status

def Worker.Committed (w : Worker) (attempt : ClaimedAttempt) : Prop :=
  ∃ result digest, w.Offers result ∧
    PublishedRows w.plane.jobs attempt (resultReference result attempt digest) ∧
    Ended w.plane.jobs attempt.jobId .succeeded

/-- The worker's own finish parked the job with the tasks of its execution. -/
def Worker.Parked (w : Worker) (attempt : ClaimedAttempt) : Prop :=
  ∃ taskIds persisted record, w.taken = some (.executed (.tasks taskIds persisted)) ∧
    w.closing = some record ∧ record.jobId = attempt.jobId ∧ record.status = .waitingForHuman ∧
    record.openTaskIds = Dict.fromKeys taskIds

structure Settled (w : Worker) (attempt : ClaimedAttempt) (verdict : Verdict) : Prop where
  released : ¬ Holding w.plane.jobs attempt
  published : verdict = .published → w.Committed attempt
  parked : verdict = .waitingForHuman → w.Parked attempt
  cancelled : verdict = .cancelled → Ended w.plane.jobs attempt.jobId .cancelled
  /-- The worker did not close the attempt itself. -/
  superseded : verdict = .superseded → w.closing = none

/-- The execution does not end in `ConditionFailed` under a live attempt, the run's next version
is free when a live attempt commits it, no cancel is recorded when one parks its job, and the
job still waits for the retry the worker schedules. -/
def Clean (w : Worker) (glimpse : Glimpse) : Prop :=
  match w.phase with
  | .settling watch =>
    glimpse.ending.conditionFailed = true → ¬ Holding w.plane.jobs watch.attempt
  | .committing attempt result _ => Holding w.plane.jobs attempt →
    (w.plane.jobs.results.get? (attempt.runId, result.resultVersion)).isNone = true
  | .parking attempt _ => Holding w.plane.jobs attempt →
    (w.plane.jobs.jobs.get? attempt.jobId).any Job.cancelRequested = false
  | .rescheduling _ record =>
    (w.plane.jobs.jobs.get? record.jobId).any (fun job => job.status = .retryableFailed) = true
  | _ => True

def CleanEvent (w : Worker) : Event → Prop
  | .worker glimpse => Clean w glimpse
  | .other _ => True

variable (contentDigest sha256 policy timing jobId runId) in
/-- Every step of the worker is clean in the state it is taken from. -/
def CleanRun (w : Worker) : List Event → Prop
  | [] => True
  | event :: events => CleanEvent w event ∧
    CleanRun (w.step contentDigest sha256 policy timing jobId runId event) events

structure Pending (jobId runId : UUID) (w : Worker) (attempt : ClaimedAttempt) : Prop where
  owned : Owned w.plane.jobs attempt
  jobId : attempt.jobId = jobId
  runId : attempt.runId = runId
  unclosed : w.closing = none

variable (jobId runId) in
def SoundAt (w : Worker) : Phase → Prop
  | .starting => w.closing = none
  | .reading attempt | .acknowledging attempt | .failing attempt _ =>
    Pending jobId runId w attempt
  | .waiting watch | .beating watch _ | .settling watch => Pending jobId runId w watch.attempt
  | .staging attempt result => Pending jobId runId w attempt ∧ w.Offers result
  | .committing attempt result _ => Pending jobId runId w attempt ∧ w.Offers result ∧
    result.resultVersion = attempt.expectedResultVersion + 1
  | .parking attempt taskIds => Pending jobId runId w attempt ∧
    ∃ persisted, w.taken = some (.executed (.tasks taskIds persisted))
  | .rescheduling attempt _ => Lost w.plane.jobs attempt
  | .returned (some attempt) verdict => Lost w.plane.jobs attempt ∧ Settled w attempt verdict
  | .returned none _ | .raised _ => True

theorem Settled.of_superseded (lost : Lost w.plane.jobs attempt) (unclosed : w.closing = none) :
    Settled w attempt .superseded where
  released := lost.not_holding
  published := nofun
  parked := nofun
  cancelled := nofun
  superseded _ := unclosed

theorem Pending.handled (pending : Pending jobId runId w attempt) (fault : Fault)
    (lost : ∀ message, fault = .conditionFailed message → Lost w.plane.jobs attempt) :
    SoundAt jobId runId w (.handled attempt fault) := by
  cases fault with
  | conditionFailed message =>
    exact ⟨lost message rfl, .of_superseded (lost message rfl) pending.unclosed⟩
  | service | valueError | keyError => exact pending

theorem SoundAt.rejected (fault : Fault) (unclosed : w.closing = none)
    (lost : ∀ message, fault = .conditionFailed message → Lost w.plane.jobs attempt) :
    SoundAt jobId runId w (.rejected attempt fault) := by
  cases fault with
  | conditionFailed message =>
    exact ⟨lost message rfl, .of_superseded (lost message rfl) unclosed⟩
  | service | valueError | keyError => trivial

variable (sha256 policy) in
theorem Ended.run {j : UUID} {status : JobStatus} (ended : Ended s j status) (linked : Linked s)
    (terminal : status.terminal = true) (ops : List Op) : Ended (run sha256 policy s ops) j status := by
  obtain ⟨job, hjob, hstatus⟩ := ended
  obtain ⟨t, hjob'⟩ :=
    (run_final sha256 policy linked ops hjob (by rw [hstatus, terminal])).frozen.job
  exact ⟨_, hjob', hstatus⟩

section
variable (sha256 policy) (linked : Linked w.plane.jobs) (ops : List Op) {w' : Worker}
variable (jobs : w'.plane.jobs = run sha256 policy w.plane.jobs ops)
include linked jobs

theorem Settled.run {verdict : Verdict} (settled : Settled w attempt verdict)
    (lost : Lost w.plane.jobs attempt) (taken : w'.taken = w.taken)
    (closing : w'.closing = w.closing) : Settled w' attempt verdict where
  released := by
    rw [jobs]
    exact (run_lost sha256 policy linked ops lost).not_holding
  published h := by
    obtain ⟨result, digest, offers, rows, ended⟩ := settled.published h
    refine ⟨result, digest, ?_, ?_, ?_⟩
    · rw [Worker.Offers, taken]
      exact offers
    · rw [jobs]
      exact rows.stays sha256 policy linked ops
    · rw [jobs]
      exact ended.run sha256 policy linked rfl ops
  parked h := by
    rw [Worker.Parked, taken, closing]
    exact settled.parked h
  cancelled h := by
    rw [jobs]
    exact (settled.cancelled h).run sha256 policy linked rfl ops
  superseded h := closing.trans (settled.superseded h)

theorem Pending.run (pending : Pending jobId runId w attempt) (unclosed : w'.closing = none) :
    Pending jobId runId w' attempt where
  owned := by
    rw [jobs]
    exact pending.owned.run sha256 policy linked ops
  jobId := pending.jobId
  runId := pending.runId
  unclosed := unclosed

theorem SoundAt.run {phase : Phase} (sound : SoundAt jobId runId w phase)
    (taken : w'.taken = w.taken) (closing : w'.closing = w.closing) :
    SoundAt jobId runId w' phase := by
  have pends : ∀ {attempt : ClaimedAttempt}, Pending jobId runId w attempt →
      Pending jobId runId w' attempt := fun pending =>
    pending.run sha256 policy linked ops jobs (closing.trans pending.unclosed)
  have offers : ∀ {result : ServiceResult}, w.Offers result → w'.Offers result := by
    intro result h
    rw [Worker.Offers, taken]
    exact h
  have loses : ∀ {attempt : ClaimedAttempt}, Lost w.plane.jobs attempt →
      Lost w'.plane.jobs attempt := by
    intro attempt lost
    rw [jobs]
    exact run_lost sha256 policy linked ops lost
  cases phase with
  | starting => exact closing.trans sound
  | reading | acknowledging | failing | waiting | beating | settling => exact pends sound
  | staging => exact ⟨pends sound.1, offers sound.2⟩
  | committing => exact ⟨pends sound.1, offers sound.2.1, sound.2.2⟩
  | parking =>
    obtain ⟨pending, persisted, hpersisted⟩ := sound
    exact ⟨pends pending, persisted, taken.trans hpersisted⟩
  | rescheduling => exact loses sound
  | returned attempt verdict =>
    cases attempt with
    | none => trivial
    | some attempt =>
      exact ⟨loses sound.1, sound.2.run sha256 policy linked ops jobs sound.1 taken closing⟩
  | raised => trivial

end

theorem Pending.same (pending : Pending jobId runId w attempt) {w' : Worker}
    (jobs : w'.plane.jobs = w.plane.jobs) (unclosed : w'.closing = w.closing) :
    Pending jobId runId w' attempt :=
  ⟨jobs ▸ pending.owned, pending.jobId, pending.runId, unclosed.trans pending.unclosed⟩

theorem record_reads {job : Job} {record : JobRecord} (h : s.record job = .ok record) :
    record.jobId = job.jobId ∧ record.status = job.status ∧
      record.openTaskIds = job.openTaskIds ∧
      ∃ run, s.runs.get? (job.jobId, job.currentRunId) = some run ∧
        record.currentRun.runId = run.runId := by
  unfold Store.record at h
  split at h
  · cases h
  case h_2 run hrun =>
    obtain rfl := Except.ok.inj h
    exact ⟨rfl, rfl, rfl, run, hrun, rfl⟩

structure Closed (policy : JobPolicy) (s s' : Store) (attempt : ClaimedAttempt) (event : JobEvent)
    (taskIds : List UUID) (record : JobRecord) (job : Job) (transition : Transition) : Prop where
  before : s.jobs.get? attempt.jobId = some job
  holding : Holding s attempt
  lost : Lost s' attempt
  ended : Ended s' attempt.jobId transition.status
  jobId : record.jobId = attempt.jobId
  status : record.status = transition.status
  tasks : record.openTaskIds =
    if transition.status = .cancelled then [] else Dict.fromKeys taskIds
  decided : nextState { job.facts with hasOpenTasks := taskIds ≠ [] } event policy = .ok transition

theorem finish_holding {event : JobEvent} {now : Int} {problem : Option ServiceProblem}
    {taskIds : List UUID} {result : Option ResultReference} {record : JobRecord}
    (h : (finish policy attempt event now problem taskIds result s).1 = .ok record) :
    Holding s attempt := by
  cases hadmit : finishAdmission policy s attempt event taskIds result with
  | error fault =>
    simp only [finish, hadmit] at h
    cases h
  | ok admitted =>
    obtain ⟨-, -, run, finishing⟩ := finishAdmission_ok hadmit
    simp [Holding, finishing.authority, Except.isOk, Except.toBool]

variable (sha256) in
theorem finish_effect_ok (linked : Linked s) {event : JobEvent} {now : Int}
    {problem : Option ServiceProblem} {taskIds : List UUID} {result : Option ResultReference}
    {record : JobRecord}
    (h : (finish policy attempt event now problem taskIds result s).1 = .ok record) :
    Effect sha256 policy s (.finish attempt event now problem taskIds result)
      (.ok (.record record)) (finish policy attempt event now problem taskIds result s).2 := by
  have effect := step_effect sha256 policy linked
    (.finish attempt event now problem taskIds result)
  have hreply : (step sha256 policy s (.finish attempt event now problem taskIds result)).1 =
      .ok (.record record) := by
    simp only [step, answer, h]
    rfl
  rw [hreply] at effect
  exact effect

theorem Effect.closed {event : JobEvent} {now : Int} {problem : Option ServiceProblem}
    {taskIds : List UUID} {result : Option ResultReference} {record : JobRecord}
    (linked : Linked s) (holding : Holding s attempt)
    (h : Effect sha256 policy s (.finish attempt event now problem taskIds result)
      (.ok (.record record)) s') :
    ∃ job transition, Closed policy s s' attempt event taskIds record job transition := by
  have lost : Lost s' attempt := h.lost_of_ends rfl
  cases h with
  | finished _ _ _ _ _ _ _ _ job run transition version touched hcurrent holds finishes decided
      explained published outbox attempts reply =>
    obtain ⟨hjobId, hstatus, htasks, -⟩ := record_reads reply
    refine ⟨job, transition, touched.before, holding, lost,
      ⟨_, by rw [touched.jobs, if_pos rfl], rfl⟩, ?_, hstatus, htasks, decided⟩
    exact hjobId.trans ((linked _).jobId job touched.before)

theorem finish_unheld {event : JobEvent} (hevent : event ≠ .publishResult) {now : Int}
    {problem : Option ServiceProblem} {taskIds : List UUID} {result : Option ResultReference}
    {fault : Fault}
    (h : (finish policy attempt event now problem taskIds result s).1 = .error fault)
    (message : String) (hfault : fault = .conditionFailed message) : ¬ Holding s attempt := by
  intro holding
  obtain ⟨-, -, -, hpublish, -⟩ := finish_refused (hfault ▸ h) holding
  exact hevent hpublish

structure Ready (jobId runId : UUID) (w : Worker) (attempt : ClaimedAttempt) : Prop
    extends Pending jobId runId w attempt where
  linked : Linked w.plane.jobs
  lawful : ∀ j, LawfulAt w.plane.jobs j

section
variable (ready : Ready jobId runId w attempt)
include ready

theorem Ready.lost_of_free (h : ¬ Holding w.plane.jobs attempt) : Lost w.plane.jobs attempt :=
  ready.owned.lost ready.linked h

/-- The handlers after a store call that failed without touching the closing record. -/
theorem Ready.refused (op : Op) {w' : Worker} {fault : Fault}
    (jobs : w'.plane.jobs = (step (fun _ => sampleDigest) policy w.plane.jobs op).2)
    (unclosed : w'.closing = none)
    (lost : ∀ message, fault = .conditionFailed message → ¬ Holding w.plane.jobs attempt) :
    SoundAt jobId runId w' (.handled attempt fault) ∧
      SoundAt jobId runId w' (.rejected attempt fault) := by
  have lost' : ∀ message, fault = .conditionFailed message → Lost w'.plane.jobs attempt := by
    intro message hfault
    rw [jobs]
    exact step_lost _ _ ready.linked op (ready.lost_of_free (lost message hfault))
  exact ⟨(ready.run _ _ ready.linked [op] jobs unclosed).handled fault lost',
    .rejected fault unclosed lost'⟩

theorem Ready.read {w' : Worker} (jobs : w'.plane.jobs = w.plane.jobs)
    (unclosed : w'.closing = w.closing) :
    SoundAt jobId runId w' (readPhase jobId runId attempt w.plane.jobs) := by
  have pending : Pending jobId runId w' attempt := ready.toPending.same jobs unclosed
  have linked := ready.linked
  obtain ⟨run, hrun, -⟩ := ready.owned.row
  obtain ⟨job, hjob⟩ := (linked _).owner _ _ hrun
  have hread : readJob w.plane.jobs jobId = (w.plane.jobs.record job).map some := by
    rw [← ready.jobId]
    simp only [readJob, hjob]
  unfold readPhase
  rw [hread]
  cases hrecord : w.plane.jobs.record job with
  | error fault =>
    refine pending.handled fault fun message hfault => ?_
    subst hfault
    unfold Store.record at hrecord
    split at hrecord <;> cases hrecord
  | ok record =>
    simp only [Except.map]
    split_ifs with hother hcancel
    · -- The job went on to another run, which no claim of this one can hold.
      refine pending.handled _ fun _ _ => ?_
      rw [jobs]
      refine ready.owned.lost_of_superseded linked hjob fun hcurrent => hother ?_
      obtain ⟨-, -, -, current, hstored, hcurrentRun⟩ := record_reads hrecord
      rw [hcurrentRun, ← ready.runId, ← hcurrent]
      rw [(linked _).jobId _ hjob] at hstored
      exact (linked _).runId _ _ hstored
    · exact pending
    · exact pending

theorem Ready.beat {watch : Watch} (hwatch : watch.attempt = attempt) (done : Bool)
    (glimpse : Glimpse) {leaseSeconds now : Int} {w' : Worker}
    (jobs : w'.plane.jobs = (heartbeat policy attempt leaseSeconds now w.plane.jobs).2)
    (unclosed : w'.closing = w.closing) :
    SoundAt jobId runId w' (beatPhase watch done glimpse
      (heartbeat policy attempt leaseSeconds now w.plane.jobs).1) := by
  subst hwatch
  have closing := unclosed.trans ready.unclosed
  have pending : Pending jobId runId w' watch.attempt := ready.run (fun _ => sampleDigest) policy
    ready.linked [.heartbeat watch.attempt leaseSeconds now] jobs closing
  cases hreply : (heartbeat policy watch.attempt leaseSeconds now w.plane.jobs).1 with
  | error fault =>
    refine (ready.refused (.heartbeat watch.attempt leaseSeconds now) jobs closing ?_).1
    rintro message rfl
    exact heartbeat_refused hreply
  | ok state =>
    simp only [beatPhase]
    split
    · exact pending
    split
    · exact pending
    split <;> exact pending

theorem Ready.closed {event : JobEvent} {now : Int} {problem : Option ServiceProblem}
    {taskIds : List UUID} {result : Option ResultReference} {record : JobRecord}
    (h : (finish policy attempt event now problem taskIds result w.plane.jobs).1 = .ok record) :
    ∃ job transition, Closed policy w.plane.jobs
      (finish policy attempt event now problem taskIds result w.plane.jobs).2 attempt event taskIds
      record job transition :=
  (finish_effect_ok (fun _ => sampleDigest) ready.linked h).closed ready.linked (finish_holding h)

variable (policy) in
/-- A finish of the attempt: its fault goes to the given handler, its record to a sound phase. -/
theorem Ready.finished (event : JobEvent) (now : Int) (problem : Option ServiceProblem)
    (taskIds : List UUID) (result : Option ResultReference) {next : Except Fault JobRecord → Phase}
    (free : ∀ fault message, (finish policy attempt event now problem taskIds result
      w.plane.jobs).1 = .error fault → fault = .conditionFailed message →
        ¬ Holding w.plane.jobs attempt)
    (faults : ∀ fault, next (.error fault) = .handled attempt fault ∨
      next (.error fault) = .rejected attempt fault)
    (records : ∀ w' record job transition,
      w' = w.finished (finish policy attempt event now problem taskIds result w.plane.jobs) next →
      Closed policy w.plane.jobs w'.plane.jobs attempt event taskIds record job transition →
      (finish policy attempt event now problem taskIds result w.plane.jobs).1 = .ok record →
      w'.closing = some record → SoundAt jobId runId w' (next (.ok record))) :
    SoundAt jobId runId
      (w.finished (finish policy attempt event now problem taskIds result w.plane.jobs) next)
      (next (finish policy attempt event now problem taskIds result w.plane.jobs).1) := by
  cases hreply : (finish policy attempt event now problem taskIds result w.plane.jobs).1 with
  | ok record =>
    obtain ⟨job, transition, closed⟩ := ready.closed hreply
    refine records _ record job transition rfl closed hreply ?_
    simp only [Worker.finished, hreply]
    rfl
  | error fault =>
    have unclosed : (w.finished (finish policy attempt event now problem taskIds result
        w.plane.jobs) next).closing = none := by
      simp only [Worker.finished, hreply]
      rfl
    obtain ⟨handled, rejected⟩ := ready.refused (.finish attempt event now problem taskIds result)
      rfl unclosed (fun message => free fault message hreply)
    obtain hnext | hnext := faults fault
    · rw [hnext]
      exact handled
    · rw [hnext]
      exact rejected

end

theorem Settled.of_failure {record : JobRecord} (lost : Lost w.plane.jobs attempt)
    (cancelled : record.status = .cancelled → Ended w.plane.jobs attempt.jobId .cancelled) :
    Settled w attempt (failureOutcome record) := by
  unfold failureOutcome
  split
  case h_1 hstatus =>
    exact ⟨lost.not_holding, nofun, nofun, fun _ => cancelled hstatus, nofun⟩
  case h_2 => exact ⟨lost.not_holding, nofun, nofun, nofun, nofun⟩
  case h_3 => exact ⟨lost.not_holding, nofun, nofun, nofun, nofun⟩

theorem Closed.acknowledged {record : JobRecord} {job : Job} {transition : Transition}
    (closed : Closed policy s s' attempt .cancelAcknowledged [] record job transition) :
    Ended s' attempt.jobId .cancelled := by
  have hdecided := (nextState_ok closed.decided).2.2
  simp only [eventTransition, conflict] at hdecided
  split at hdecided
  · obtain rfl := Except.ok.inj hdecided
    exact closed.ended
  · cases hdecided

theorem Closed.parked {taskIds : List UUID} {record : JobRecord} {job : Job}
    {transition : Transition}
    (closed : Closed policy s s' attempt .needsHuman taskIds record job transition)
    (h : job.cancelRequested = false) :
    record.status = .waitingForHuman ∧ record.openTaskIds = Dict.fromKeys taskIds := by
  have hdecided := (nextState_ok closed.decided).2.2
  have hstatus := closed.status
  have htasks := closed.tasks
  simp only [eventTransition, conflict, Job.facts, h, Bool.false_eq_true, if_false] at hdecided
  split at hdecided
  · obtain rfl := Except.ok.inj hdecided
    exact ⟨hstatus, htasks⟩
  · cases hdecided

theorem validated_fault {body : ResultBody} {fault : Fault} (h : body.validated = .error fault)
    (message : String) : fault ≠ .conditionFailed message := by
  rintro rfl
  unfold ResultBody.validated at h
  split at h
  · split at h
    · split at h
      · cases h
      case h_2 hcompletion =>
        obtain rfl := Except.error.inj h
        unfold ResultBody.honestCompletion at hcompletion
        simp only at hcompletion
        repeat' split at hcompletion
        all_goals cases hcompletion
    · cases h
  · cases h

theorem stage_fault {contentDigest : ServiceResult → Digest} {result : ServiceResult}
    {fault : Fault} {p : Plane} (h : (stage contentDigest attempt result p).1 = .error fault) :
    fault = .service .conflict := by
  unfold stage putBody at h
  split at h
  · exact (Except.error.inj h).symm
  simp only at h
  split at h
  · exact (Except.error.inj h).symm
  split at h
  · exact (Except.error.inj h).symm
  · cases h

theorem stage_version {contentDigest : ServiceResult → Digest} {result : ServiceResult}
    {digest : Digest} {p : Plane} (h : (stage contentDigest attempt result p).1 = .ok digest) :
    result.resultVersion = attempt.expectedResultVersion + 1 := by
  unfold stage at h
  split at h
  · cases h
  case isFalse hbound => exact not_not.mp fun hother => hbound (.inr hother)

variable (contentDigest policy timing jobId runId) in
def Advances (w : Worker) (glimpse : Glimpse) : Prop :=
  SoundAt jobId runId (w.advance contentDigest policy timing jobId runId glimpse)
    (w.advance contentDigest policy timing jobId runId glimpse).phase

section
variable {glimpse : Glimpse}

theorem advances_starting (linked : Linked w.plane.jobs) (lawful : ∀ j, LawfulAt w.plane.jobs j)
    (hphase : w.phase = .starting) (unclosed : w.closing = none) :
    Advances contentDigest policy timing jobId runId w glimpse := by
  simp only [Advances, Worker.advance, hphase, Worker.answered]
  have effect := step_effect (fun _ => sampleDigest) policy linked
    (.claim jobId runId glimpse.owner timing.leaseSeconds glimpse.now glimpse.attemptId)
  cases hreply : (claim policy jobId runId glimpse.owner timing.leaseSeconds glimpse.now
    glimpse.attemptId w.plane.jobs).1 with
  | error fault => cases fault <;> trivial
  | ok attempt =>
    rw [show (step (fun _ => sampleDigest) policy w.plane.jobs (.claim jobId runId glimpse.owner
        timing.leaseSeconds glimpse.now glimpse.attemptId)).1 = .ok (.claimed attempt) by
      simp only [step, answer, hreply]
      rfl] at effect
    obtain ⟨owned, hjob, hrun⟩ := effect.owned_of_claim lawful
    exact ⟨owned, hjob, hrun, unclosed⟩

theorem advances_acknowledging (ready : Ready jobId runId w attempt)
    (hphase : w.phase = .acknowledging attempt) :
    Advances contentDigest policy timing jobId runId w glimpse := by
  simp only [Advances, Worker.advance, hphase]
  refine ready.finished policy .cancelAcknowledged glimpse.now none [] none
    (fun fault message hreply => finish_unheld (by decide) hreply message) (fun _ => .inl rfl) ?_
  intro w' record job transition hw closed hreply hclosing
  exact ⟨closed.lost, closed.lost.not_holding, (by rintro ⟨⟩), (by rintro ⟨⟩),
    fun _ => closed.acknowledged, (by rintro ⟨⟩)⟩

theorem advances_settling {watch : Watch} (ready : Ready jobId runId w watch.attempt)
    (clean : glimpse.ending.conditionFailed = true → ¬ Holding w.plane.jobs watch.attempt)
    (hphase : w.phase = .settling watch) :
    Advances contentDigest policy timing jobId runId w glimpse := by
  simp only [Advances, Worker.advance, hphase]
  obtain ⟨w', hw'⟩ : ∃ w', w' = ({ w with
    phase := .settled watch glimpse.ending, taken := some glimpse.ending } : Worker) := ⟨_, rfl⟩
  have pending : Pending jobId runId w' watch.attempt :=
    ready.toPending.same (by rw [hw']) (by rw [hw'])
  have taken : w'.taken = some glimpse.ending := by rw [hw']
  have jobs : w'.plane.jobs = w.plane.jobs := by rw [hw']
  rw [← hw']
  cases hending : glimpse.ending with
  | interrupted => trivial
  | raised fault =>
    refine pending.handled fault fun message hfault => ?_
    rw [jobs]
    exact ready.lost_of_free (clean (by rw [hending, hfault]; rfl))
  | executed review =>
    rw [hending] at taken
    cases review with
    | tasks taskIds persisted => exact ⟨pending, persisted, taken⟩
    | result body =>
      simp only [Phase.settled]
      split
      · exact pending.handled _ fun message h => by cases h
      split
      case h_1 fault hvalid =>
        exact pending.handled fault fun message hfault =>
          absurd hfault (validated_fault hvalid message)
      case h_2 result hvalid => exact ⟨pending, body, taken, hvalid⟩

theorem advances_staging {result : ServiceResult} (pending : Pending jobId runId w attempt)
    (offers : w.Offers result) (hphase : w.phase = .staging attempt result) :
    Advances contentDigest policy timing jobId runId w glimpse := by
  simp only [Advances, Worker.advance, hphase]
  have jobs : (stage contentDigest attempt result w.plane).2.jobs = w.plane.jobs :=
    stage_jobs attempt result w.plane
  cases hstaged : (stage contentDigest attempt result w.plane).1 with
  | ok digest => exact ⟨pending.same jobs rfl, offers, stage_version hstaged⟩
  | error fault =>
    obtain rfl := stage_fault hstaged
    exact pending.same jobs rfl

/-- The commit is refused to a holder only where the version of the run is taken. -/
theorem advances_committing {result : ServiceResult} {digest : Digest}
    (ready : Ready jobId runId w attempt) (offers : w.Offers result)
    (hversion : result.resultVersion = attempt.expectedResultVersion + 1)
    (clean : Holding w.plane.jobs attempt →
      (w.plane.jobs.results.get? (attempt.runId, result.resultVersion)).isNone = true)
    (hphase : w.phase = .committing attempt result digest) :
    Advances contentDigest policy timing jobId runId w glimpse := by
  simp only [Advances, Worker.advance, hphase]
  refine ready.finished policy .publishResult glimpse.now none []
    (some (resultReference result attempt digest)) ?_ (fun _ => .inl rfl) ?_
  · rintro fault message hreply rfl holding
    obtain ⟨job, run, hauthority, -, fault, hcommit⟩ := finish_refused hreply holding
    refine commit_refused ready.linked ready.lawful ready.owned hauthority rfl rfl hversion hcommit ?_
    exact Option.isNone_iff_eq_none.mp (clean holding)
  · intro w' record job transition hw closed hreply hclosing
    refine ⟨closed.lost, closed.lost.not_holding, fun _ => ?_, (by rintro ⟨⟩), (by rintro ⟨⟩),
      (by rintro ⟨⟩)⟩
    have effect := finish_effect_ok (fun _ => sampleDigest) ready.linked hreply
    have hsucceeded := (nextState_finish rfl closed.decided).published rfl
    subst hw
    exact ⟨result, digest, offers, effect.publishedRows.1, hsucceeded ▸ closed.ended⟩

theorem advances_parking {taskIds : List UUID} {persisted : taskIds ≠ []}
    (ready : Ready jobId runId w attempt)
    (taken : w.taken = some (.executed (.tasks taskIds persisted)))
    (clean : Holding w.plane.jobs attempt →
      (w.plane.jobs.jobs.get? attempt.jobId).any Job.cancelRequested = false)
    (hphase : w.phase = .parking attempt taskIds) :
    Advances contentDigest policy timing jobId runId w glimpse := by
  simp only [Advances, Worker.advance, hphase]
  refine ready.finished policy .needsHuman glimpse.now none taskIds none
    (fun fault message hreply => finish_unheld (by decide) hreply message) (fun _ => .inl rfl) ?_
  intro w' record job transition hw closed hreply hclosing
  have uncancelled : job.cancelRequested = false := by
    have h := clean closed.holding
    rw [closed.before] at h
    exact h
  obtain ⟨hstatus, htasks⟩ := closed.parked uncancelled
  subst hw
  exact ⟨closed.lost, closed.lost.not_holding, (by rintro ⟨⟩), fun _ =>
    ⟨taskIds, persisted, record, taken, hclosing, closed.jobId, hstatus, htasks⟩, (by rintro ⟨⟩),
    (by rintro ⟨⟩)⟩

theorem advances_failing {code : ServiceErrorCode} (ready : Ready jobId runId w attempt)
    (hphase : w.phase = .failing attempt code) :
    Advances contentDigest policy timing jobId runId w glimpse := by
  simp only [Advances, Worker.advance, hphase]
  refine ready.finished policy _ glimpse.now (some { code := code }) [] none
    (fun fault message hreply => finish_unheld ?_ hreply message) (fun _ => .inr rfl) ?_
  · split <;> decide
  intro w' record job transition hw closed hreply hclosing
  simp only [failPhase]
  split
  · refine ⟨closed.lost, .of_failure closed.lost fun hcancelled => ?_⟩
    rw [← hcancelled, closed.status]
    exact closed.ended
  · exact closed.lost

/-- A retry is scheduled for a job that waits for one, so no other writer moved first. -/
theorem advances_rescheduling {record : JobRecord} (linked : Linked w.plane.jobs)
    (held : Lost w.plane.jobs attempt)
    (clean : (w.plane.jobs.jobs.get? record.jobId).any
      (fun job => job.status = .retryableFailed) = true)
    (hphase : w.phase = .rescheduling attempt record) :
    Advances contentDigest policy timing jobId runId w glimpse := by
  simp only [Advances, Worker.advance, hphase]
  obtain ⟨job, hjob, hfailed⟩ : ∃ job, w.plane.jobs.jobs.get? record.jobId = some job ∧
      job.status = .retryableFailed := by
    cases hjob : w.plane.jobs.jobs.get? record.jobId with
    | none => simp [hjob] at clean
    | some job => exact ⟨job, rfl, by simpa [hjob] using clean⟩
  unfold reschedule
  cases hdelay : timing.backoffSeconds record.attemptCount with
  | error fault =>
    unfold JobPolicy.backoffSeconds at hdelay
    split at hdelay
    · obtain rfl := Except.error.inj hdelay
      trivial
    · cases hdelay
  | ok delay =>
    simp only [Worker.answered]
    obtain ⟨availableAt, hat⟩ : ∃ availableAt,
      availableAt = glimpse.availableFrom + delay + glimpse.jitter delay := ⟨_, rfl⟩
    rw [← hat]
    have lost := step_lost (fun _ => sampleDigest) policy linked
      (.scheduleRetry record.jobId availableAt glimpse.now glimpse.token) held
    have effect := step_effect (fun _ => sampleDigest) policy linked
      (.scheduleRetry record.jobId availableAt glimpse.now glimpse.token)
    cases hreply : (scheduleRetry policy record.jobId availableAt glimpse.now glimpse.token
        w.plane.jobs).1 with
    | error fault =>
      have hfault := scheduleRetry_awaited linked hjob hfailed hreply
      cases fault with
      | conditionFailed message => exact absurd rfl (hfault message)
      | service | valueError | keyError => trivial
    | ok scheduled =>
      refine ⟨lost, .of_failure lost fun hcancelled => ?_⟩
      rw [show (step (fun _ => sampleDigest) policy w.plane.jobs (.scheduleRetry record.jobId
          availableAt glimpse.now glimpse.token)).1 = .ok (.record scheduled) by
        simp only [step, answer, hreply]
        rfl] at effect
      cases effect with
      | retried _ _ _ _ _ _ job job' run hjob' touched failed outbox attempts results reply =>
        have hstatus := (record_reads reply).2.1
        rw [hcancelled, hjob'] at hstatus
        cases hstatus

end

variable (contentDigest policy timing jobId runId) in
theorem SoundAt.advance (linked : Linked w.plane.jobs) (lawful : ∀ j, LawfulAt w.plane.jobs j)
    (sound : SoundAt jobId runId w w.phase) {glimpse : Glimpse} (clean : Clean w glimpse) :
    Advances contentDigest policy timing jobId runId w glimpse := by
  have ready : ∀ {attempt : ClaimedAttempt}, Pending jobId runId w attempt →
      Ready jobId runId w attempt := fun pending => ⟨pending, linked, lawful⟩
  unfold Clean at clean
  cases hphase : w.phase with
  | starting =>
    rw [hphase] at sound
    exact advances_starting linked lawful hphase sound
  | reading attempt =>
    rw [hphase] at sound
    simp only [Advances, Worker.advance, hphase]
    exact (ready sound).read rfl rfl
  | acknowledging attempt =>
    rw [hphase] at sound
    exact advances_acknowledging (ready sound) hphase
  | waiting watch =>
    rw [hphase] at sound
    simp only [Advances, Worker.advance, hphase]
    split
    · exact (sound : Pending jobId runId w watch.attempt).same rfl rfl
    · exact (sound : Pending jobId runId w watch.attempt).same rfl rfl
  | beating watch done =>
    rw [hphase] at sound
    simp only [Advances, Worker.advance, hphase]
    exact (ready sound).beat rfl done glimpse rfl rfl
  | settling watch =>
    rw [hphase] at sound clean
    exact advances_settling (ready sound) clean hphase
  | staging attempt result =>
    rw [hphase] at sound
    exact advances_staging sound.1 sound.2 hphase
  | committing attempt result digest =>
    rw [hphase] at sound clean
    obtain ⟨pending, offers, hversion⟩ := sound
    exact advances_committing (ready pending) offers hversion clean hphase
  | parking attempt taskIds =>
    rw [hphase] at sound clean
    obtain ⟨pending, persisted, taken⟩ := sound
    exact advances_parking (ready pending) taken clean hphase
  | failing attempt code =>
    rw [hphase] at sound
    exact advances_failing (ready sound) hphase
  | rescheduling attempt record =>
    rw [hphase] at sound clean
    exact advances_rescheduling linked sound clean hphase
  | returned attempt verdict =>
    simp only [Advances, Worker.advance, hphase]
    rw [hphase] at sound
    exact sound
  | raised fault =>
    simp only [Advances, Worker.advance, hphase]
    trivial

variable (contentDigest sha256 policy timing jobId runId) in
theorem Worker.step_jobs (w : Worker) (event : Event) :
    ∃ ops, (w.step contentDigest sha256 policy timing jobId runId event).plane.jobs =
      MemoryJobStore.run sha256 policy w.plane.jobs ops := by
  cases event with
  | other call =>
    exact ⟨jobOps [call], Plane.run_jobs contentDigest sha256 policy w.plane [call]⟩
  | worker glimpse =>
    simp only [Worker.step]
    unfold Worker.advance
    split
    · exact ⟨[.claim jobId runId glimpse.owner timing.leaseSeconds glimpse.now
        glimpse.attemptId], rfl⟩
    · exact ⟨[], rfl⟩
    case h_3 attempt _ =>
      exact ⟨[.finish attempt .cancelAcknowledged glimpse.now none [] none], rfl⟩
    · exact ⟨[], rfl⟩
    case h_5 watch _ _ =>
      exact ⟨[.heartbeat watch.attempt timing.leaseSeconds glimpse.now], rfl⟩
    · exact ⟨[], rfl⟩
    case h_7 attempt result _ => exact ⟨[], stage_jobs attempt result w.plane⟩
    case h_8 attempt result digest _ =>
      exact ⟨[.finish attempt .publishResult glimpse.now none []
        (some (resultReference result attempt digest))], rfl⟩
    case h_9 attempt taskIds _ =>
      exact ⟨[.finish attempt .needsHuman glimpse.now none taskIds none], rfl⟩
    case h_10 attempt code _ =>
      exact ⟨[.finish attempt (if code.permanent then .permanentError else .retryableError)
        glimpse.now (some { code := code }) [] none], rfl⟩
    case h_11 attempt record _ =>
      simp only [Worker.answered, reschedule]
      split
      · exact ⟨[], rfl⟩
      case h_2 delay _ =>
        exact ⟨[.scheduleRetry record.jobId
          (glimpse.availableFrom + delay + glimpse.jitter delay) glimpse.now glimpse.token], rfl⟩
    · exact ⟨[], rfl⟩
    · exact ⟨[], rfl⟩

/-- The store has a history, and the invariant holds. -/
structure Sound (sha256 : String → Digest) (policy : JobPolicy) (jobId runId : UUID)
    (w : Worker) : Prop where
  reached : ∃ ops, w.plane.jobs = run sha256 policy {} ops
  sound : SoundAt jobId runId w w.phase

theorem Sound.step (sound : Sound sha256 policy jobId runId w) {event : Event}
    (clean : CleanEvent w event) :
    Sound sha256 policy jobId runId (w.step contentDigest sha256 policy timing jobId runId event) := by
  obtain ⟨ops, hops⟩ := sound.reached
  have linked : Linked w.plane.jobs := hops ▸ run_linked ops
  have lawful : ∀ j, LawfulAt w.plane.jobs j := fun j => hops ▸ run_lawful ops j
  refine ⟨?_, ?_⟩
  · obtain ⟨later, hlater⟩ := w.step_jobs contentDigest sha256 policy timing jobId runId event
    exact ⟨ops ++ later, by rw [hlater, hops, run_append]⟩
  cases event with
  | worker glimpse =>
    exact sound.sound.advance contentDigest policy timing jobId runId linked lawful clean
  | other call =>
    exact sound.sound.run sha256 policy linked (jobOps [call])
      (Plane.run_jobs contentDigest sha256 policy w.plane [call]) rfl rfl

theorem Sound.run (sound : Sound sha256 policy jobId runId w) (events : List Event)
    (clean : CleanRun contentDigest sha256 policy timing jobId runId w events) :
    Sound sha256 policy jobId runId
      (w.run contentDigest sha256 policy timing jobId runId events) := by
  induction events generalizing w with
  | nil => exact sound
  | cons event events ih => exact ih (sound.step clean.1) clean.2

theorem run_settles (events : List Event)
    (clean : CleanRun contentDigest sha256 policy timing jobId runId {} events)
    (attempt : ClaimedAttempt) (verdict : Verdict)
    (h : (Worker.run contentDigest sha256 policy timing jobId runId {} events).phase =
      .returned (some attempt) verdict) :
    Settled (Worker.run contentDigest sha256 policy timing jobId runId {} events) attempt
      verdict := by
  have sound := Sound.run (w := ({} : Worker)) ⟨⟨[], rfl⟩, rfl⟩ events clean
  have settled := sound.sound
  rw [h] at settled
  exact settled.2

def sampleStart : List Event :=
  [.other (.job sampleCreate), .worker { owner := ⟨3⟩, attemptId := ⟨20⟩ }, .worker {}]

def sampleWork (events : List Event) : Worker :=
  Worker.run sampleBodyDigest (fun _ => sampleDigest) .standard .standard ⟨1⟩ ⟨2⟩ {}
    (sampleStart ++ events)

/-- The execution returns a verified result, which is staged and committed. -/
def sampleReviewed : List Event :=
  [.worker { done := true }, .worker { now := 30 },
    .worker { ending := .executed (.result (sampleResult ⟨20⟩).toResultBody) },
    .worker {}, .worker { now := 31 }]

def lateFault : Fault := .conditionFailed "Current uncancelled attempt and lease required"

/-- The lease's second has passed when the execution rechecks it; the heartbeat still extends
the lease, and the recheck's exception ends the task. -/
def sampleLate : List Event :=
  [.worker { done := true }, .worker { now := 125 }, .worker { ending := .raised lateFault }]

def sampleWorked : ClaimedAttempt := { sampleAttempt with leaseExpiresAt := 120 }

theorem sampleReviewed_clean : CleanRun sampleBodyDigest (fun _ => sampleDigest) {} {} ⟨1⟩ ⟨2⟩ {}
    (sampleStart ++ sampleReviewed) :=
  ⟨trivial, trivial, trivial, trivial, trivial, nofun, trivial, fun _ => rfl, trivial⟩

theorem run_settles_reviewed :
    Settled (sampleWork sampleReviewed) sampleWorked .published :=
  run_settles (sampleStart ++ sampleReviewed) sampleReviewed_clean sampleWorked .published rfl

/-- The attempt is reported as superseded while it holds the lease it has just extended. -/
theorem late_recheck_abandons :
    (∃ watch, (sampleWork (sampleLate.take 1)).phase = .beating watch true ∧
      requireDispatch watch { now := 125 } (sampleWork (sampleLate.take 1)).plane.jobs =
        .error lateFault) ∧
    ¬ ∀ events attempt verdict, (sampleWork events).phase = .returned (some attempt) verdict →
      Settled (sampleWork events) attempt verdict := by
  refine ⟨⟨_, rfl, rfl⟩, fun h => ?_⟩
  exact (h sampleLate sampleWorked .superseded rfl).released (by decide +kernel)

end AppraisalReview.MemoryJobStore
