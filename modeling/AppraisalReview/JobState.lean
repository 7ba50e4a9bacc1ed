import AppraisalReview.JobContracts

set_option autoImplicit false

/-!
# The single authority for durable job status changes

`nextState` decides one status change or refuses it. It reads no clock: lease
expiry is decided by the store and reported as an event.
-/
namespace AppraisalReview

inductive JobEvent where
  | submit | dispatchSucceeded | dispatchFailed | claim | heartbeat | leaseExpired
  | needsHuman | publishResult | retryableError | permanentError | scheduleRetry
  | humanResponseCommitted | humanRejected | cancel | cancelAcknowledged
deriving DecidableEq, Repr

/-- Events a worker may raise only while it still holds the lease it claimed. -/
def JobEvent.leaseBound : JobEvent → Bool
  | .heartbeat | .needsHuman | .publishResult | .retryableError | .permanentError
  | .cancelAcknowledged => true
  | _ => false

/-- `FINISH_EVENTS` of both stores. -/
def JobEvent.finishes : JobEvent → Bool
  | .publishResult | .needsHuman | .retryableError | .permanentError | .cancelAcknowledged => true
  | _ => false

def JobStatus.claimable : JobStatus → Bool
  | .queued | .dispatched | .retryableFailed => true
  | _ => false

def JobStatus.cancellable : JobStatus → Bool
  | .queued | .dispatched | .waitingForHuman | .retryableFailed => true
  | _ => false

theorem JobStatus.live_of_claimable {status : JobStatus} (h : status.claimable = true) :
    status.terminal = false ∧ status ≠ .running := by
  cases status <;> simp_all [JobStatus.claimable, JobStatus.terminal]

theorem JobStatus.live_of_cancellable {status : JobStatus} (h : status.cancellable = true) :
    status.terminal = false ∧ status ≠ .running := by
  cases status <;> simp_all [JobStatus.cancellable, JobStatus.terminal]

theorem JobStatus.unpending_of_claimable {status : JobStatus} (h : status.claimable = true) :
    status.cancelPending = false := by
  cases status <;> simp_all [JobStatus.claimable, JobStatus.cancelPending, JobStatus.terminal]

theorem JobStatus.unpending_of_cancellable {status : JobStatus} (h : status.cancellable = true) :
    status.cancelPending = false := by
  cases status <;> simp_all [JobStatus.cancellable, JobStatus.cancelPending, JobStatus.terminal]

theorem JobStatus.not_succeeded_of_live {status : JobStatus} (h : status.terminal = false) :
    status ≠ .succeeded := by
  rintro rfl
  cases h

/-- Bounded execution policy; the fields after the bounds are `__post_init__`. -/
structure JobPolicy where
  leaseSeconds : Int := 120
  heartbeatSeconds : Int := 30
  visibilityTimeoutSeconds : Int := 180
  maxAttempts : Int := 5
  maxLeaseTakeovers : Int := 3
  backoffBaseSeconds : Int := 30
  backoffCapSeconds : Int := 900
  positiveDurations : 1 ≤ leaseSeconds ∧ 1 ≤ heartbeatSeconds ∧ 1 ≤ backoffBaseSeconds := by decide
  positiveLimits : 1 ≤ maxAttempts ∧ 1 ≤ maxLeaseTakeovers := by decide
  heartbeatFits : heartbeatSeconds * 3 ≤ leaseSeconds := by decide
  visibilityOutlasts : leaseSeconds < visibilityTimeoutSeconds := by decide
  capAboveBase : backoffBaseSeconds ≤ backoffCapSeconds := by decide

def JobPolicy.standard : JobPolicy := {}

structure JobFacts where
  status : JobStatus
  attemptCount : Int := 0
  leaseTakeoverCount : Int := 0
  cancelRequested : Bool := false
  hasOpenTasks : Bool := false

structure Transition where
  status : JobStatus
  attemptDelta : Int := 0
  takeoverDelta : Int := 0
  releaseLease : Bool := false
  enqueueOutbox : Bool := false
  requestCancel : Bool := false
  requiresLease : Bool := false
deriving DecidableEq

def conflict : Except Fault Transition := .error (.service .conflict)

/-- A recorded cancel outranks any path that would hand the job's work forward. -/
def cancelPreempted (requiresLease : Bool) : Transition :=
  { status := .cancelled, releaseLease := true, requiresLease := requiresLease }

def initialTransition : Transition := { status := .queued, enqueueOutbox := true }

/-- The decision for a live job whose lease-bound events come from a running attempt. -/
def eventTransition (facts : JobFacts) (policy : JobPolicy) : JobEvent → Except Fault Transition
  | .submit => conflict
  | .dispatchSucceeded =>
    if facts.status ≠ .queued then conflict else .ok { status := .dispatched }
  | .dispatchFailed => .ok { status := facts.status }
  | .claim => if facts.status.claimable then .ok { status := .running } else conflict
  | .heartbeat => .ok { status := .running, requiresLease := true }
  | .leaseExpired =>
    if facts.status ≠ .running then conflict
    else if facts.cancelRequested then .ok (cancelPreempted false)
    else if policy.maxLeaseTakeovers ≤ facts.leaseTakeoverCount + 1 then
      .ok { status := .failed, takeoverDelta := 1, releaseLease := true }
    -- Back to queued with a fresh round: the old message may have died with the worker.
    else .ok { status := .queued, takeoverDelta := 1, releaseLease := true, enqueueOutbox := true }
  | .needsHuman =>
    if facts.cancelRequested then .ok (cancelPreempted true)
    else if facts.hasOpenTasks then
      .ok { status := .waitingForHuman, releaseLease := true, requiresLease := true }
    else conflict
  | .publishResult => .ok { status := .succeeded, releaseLease := true, requiresLease := true }
  | .retryableError =>
    if facts.cancelRequested then .ok (cancelPreempted true)
    else if policy.maxAttempts ≤ facts.attemptCount + 1 then
      .ok { status := .failed, attemptDelta := 1, releaseLease := true, requiresLease := true }
    else .ok { status := .retryableFailed, attemptDelta := 1, releaseLease := true,
               requiresLease := true }
  | .permanentError => .ok { status := .failed, releaseLease := true, requiresLease := true }
  | .scheduleRetry =>
    if facts.status ≠ .retryableFailed then conflict
    else .ok { status := .queued, enqueueOutbox := true }
  | .humanRejected =>
    if facts.status ≠ .waitingForHuman then conflict
    else if facts.hasOpenTasks then .ok { status := .waitingForHuman }
    else .ok { status := .failed }
  | .humanResponseCommitted =>
    if facts.status ≠ .waitingForHuman then conflict
    else .ok { status := .queued, enqueueOutbox := true }
  | .cancel =>
    if facts.status = .running then .ok { status := .running, requestCancel := true }
    else if facts.status.cancellable then .ok { status := .cancelled, releaseLease := true }
    else conflict
  | .cancelAcknowledged =>
    if facts.cancelRequested then
      .ok { status := .cancelled, releaseLease := true, requiresLease := true }
    else conflict

/-- Decide one status change, or raise. Terminal statuses absorb nothing. -/
def nextState (facts : JobFacts) (event : JobEvent) (policy : JobPolicy) :
    Except Fault Transition :=
  if facts.attemptCount < 0 ∨ facts.leaseTakeoverCount < 0 then
    .error (.valueError "Job counters cannot be negative")
  else if facts.status.terminal then conflict
  else if event = .submit then conflict
  else if event.leaseBound ∧ facts.status ≠ .running then conflict
  else eventTransition facts policy event

variable {facts : JobFacts} {policy : JobPolicy} {transition : Transition}

/-- What the guards of `nextState` leave to decide. -/
theorem nextState_ok {event : JobEvent} (h : nextState facts event policy = .ok transition) :
    facts.status.terminal = false ∧ (event.leaseBound = true → facts.status = .running) ∧
      eventTransition facts policy event = .ok transition := by
  unfold nextState conflict at h
  split_ifs at h with hcount hterminal hsubmit hlease
  exact ⟨by simpa using hterminal, by simpa using hlease, h⟩

theorem nextState_claim (h : nextState facts .claim policy = .ok transition) :
    facts.status.claimable = true ∧ transition = { status := .running } := by
  have hdecided := (nextState_ok h).2.2
  simp only [eventTransition, conflict] at hdecided
  split_ifs at hdecided with hclaim
  exact ⟨hclaim, (Except.ok.inj hdecided).symm⟩

theorem nextState_leaseExpired (h : nextState facts .leaseExpired policy = .ok transition) :
    facts.status = .running ∧
      ((facts.cancelRequested = true ∧ transition = cancelPreempted false) ∨
      (facts.cancelRequested = false ∧
        policy.maxLeaseTakeovers ≤ facts.leaseTakeoverCount + 1 ∧
        transition = { status := .failed, takeoverDelta := 1, releaseLease := true }) ∨
      (facts.cancelRequested = false ∧
        facts.leaseTakeoverCount + 1 < policy.maxLeaseTakeovers ∧
        transition = { status := .queued, takeoverDelta := 1, releaseLease := true,
                       enqueueOutbox := true })) := by
  have hdecided := (nextState_ok h).2.2
  simp only [eventTransition, conflict] at hdecided
  split_ifs at hdecided with hrun hcancel hexhausted
  · exact ⟨by simpa using hrun, .inl ⟨hcancel, (Except.ok.inj hdecided).symm⟩⟩
  · exact ⟨by simpa using hrun, .inr (.inl ⟨by simpa using hcancel, hexhausted,
      (Except.ok.inj hdecided).symm⟩)⟩
  · exact ⟨by simpa using hrun, .inr (.inr ⟨by simpa using hcancel, by omega,
      (Except.ok.inj hdecided).symm⟩)⟩

theorem nextState_dispatchSucceeded (hattempts : 0 ≤ facts.attemptCount)
    (htakeovers : 0 ≤ facts.leaseTakeoverCount) (hqueued : facts.status = .queued) :
    nextState facts .dispatchSucceeded policy = .ok { status := .dispatched } := by
  have hcounters : ¬ (facts.attemptCount < 0 ∨ facts.leaseTakeoverCount < 0) := by omega
  simp [nextState, hcounters, hqueued, JobStatus.terminal, JobEvent.leaseBound, eventTransition]

theorem nextState_dispatchFailed (hattempts : 0 ≤ facts.attemptCount)
    (htakeovers : 0 ≤ facts.leaseTakeoverCount) (live : facts.status.terminal = false) :
    nextState facts .dispatchFailed policy = .ok { status := facts.status } := by
  have hcounters : ¬ (facts.attemptCount < 0 ∨ facts.leaseTakeoverCount < 0) := by omega
  simp [nextState, hcounters, live, JobEvent.leaseBound, eventTransition]

theorem nextState_publishResult (hattempts : 0 ≤ facts.attemptCount)
    (htakeovers : 0 ≤ facts.leaseTakeoverCount) (hrunning : facts.status = .running) :
    nextState facts .publishResult policy =
      .ok { status := .succeeded, releaseLease := true, requiresLease := true } := by
  have hcounters : ¬ (facts.attemptCount < 0 ∨ facts.leaseTakeoverCount < 0) := by omega
  simp [nextState, hcounters, hrunning, JobStatus.terminal, eventTransition]

theorem nextState_leaseExpired_total (hattempts : 0 ≤ facts.attemptCount)
    (htakeovers : 0 ≤ facts.leaseTakeoverCount) (hrunning : facts.status = .running) :
    ∃ transition, nextState facts .leaseExpired policy = .ok transition := by
  have hcounters : ¬ (facts.attemptCount < 0 ∨ facts.leaseTakeoverCount < 0) := by omega
  simp only [nextState, hcounters, hrunning, JobStatus.terminal, JobEvent.leaseBound,
    eventTransition, if_false, reduceCtorEq, false_and, Bool.false_eq_true, ne_eq,
    not_true_eq_false]
  split_ifs <;> exact ⟨_, rfl⟩

theorem nextState_leaseExpired_releases
    (h : nextState facts .leaseExpired policy = .ok transition) :
    transition.releaseLease = true ∧
      (transition.enqueueOutbox = true ↔ transition.status = .queued) := by
  obtain ⟨-, ⟨-, rfl⟩ | ⟨-, -, rfl⟩ | ⟨-, -, rfl⟩⟩ := nextState_leaseExpired h <;>
    simp [cancelPreempted]

theorem nextState_leaseExpired_stops
    (h : nextState facts .leaseExpired policy = .ok transition) :
    0 ≤ transition.takeoverDelta ∧ transition.status ≠ .running ∧
      transition.status ≠ .dispatched := by
  obtain ⟨-, ⟨-, rfl⟩ | ⟨-, -, rfl⟩ | ⟨-, -, rfl⟩⟩ := nextState_leaseExpired h <;>
    simp [cancelPreempted]

theorem nextState_cancel (h : nextState facts .cancel policy = .ok transition) :
    (facts.status = .running ∧ transition = { status := .running, requestCancel := true }) ∨
    (facts.status.cancellable = true ∧
      transition = { status := .cancelled, releaseLease := true }) := by
  have hdecided := (nextState_ok h).2.2
  simp only [eventTransition, conflict] at hdecided
  split_ifs at hdecided with hrun hcancellable
  · exact .inl ⟨hrun, (Except.ok.inj hdecided).symm⟩
  · exact .inr ⟨hcancellable, (Except.ok.inj hdecided).symm⟩

theorem nextState_scheduleRetry (h : nextState facts .scheduleRetry policy = .ok transition) :
    facts.status = .retryableFailed ∧
      transition = { status := .queued, enqueueOutbox := true } := by
  have hdecided := (nextState_ok h).2.2
  simp only [eventTransition, conflict] at hdecided
  split_ifs at hdecided with hstatus
  exact ⟨by simpa using hstatus, (Except.ok.inj hdecided).symm⟩

theorem nextState_humanRejected (h : nextState facts .humanRejected policy = .ok transition) :
    facts.status = .waitingForHuman ∧
      ((facts.hasOpenTasks = true ∧ transition = { status := .waitingForHuman }) ∨
      (facts.hasOpenTasks = false ∧ transition = { status := .failed })) := by
  have hdecided := (nextState_ok h).2.2
  simp only [eventTransition, conflict] at hdecided
  split_ifs at hdecided with hstatus htasks
  · exact ⟨by simpa using hstatus, .inl ⟨htasks, (Except.ok.inj hdecided).symm⟩⟩
  · exact ⟨by simpa using hstatus, .inr ⟨by simpa using htasks, (Except.ok.inj hdecided).symm⟩⟩

theorem nextState_humanResponse
    (h : nextState facts .humanResponseCommitted policy = .ok transition) :
    facts.status = .waitingForHuman ∧
      transition = { status := .queued, enqueueOutbox := true } := by
  have hdecided := (nextState_ok h).2.2
  simp only [eventTransition, conflict] at hdecided
  split_ifs at hdecided with hstatus
  exact ⟨by simpa using hstatus, (Except.ok.inj hdecided).symm⟩

/-- Where a finished attempt may leave its job, and what it means for the cancel flag. -/
structure FinishOutcome (facts : JobFacts) (event : JobEvent) (transition : Transition) :
    Prop where
  running : facts.status = .running
  releases : transition.releaseLease = true
  nonnegative : 0 ≤ transition.attemptDelta
  status : (transition.status = .waitingForHuman ∧ facts.hasOpenTasks = true) ∨
    (transition.status = .succeeded ∧ event = .publishResult) ∨
    transition.status = .retryableFailed ∨ transition.status = .failed ∨
    transition.status = .cancelled
  published : event = .publishResult → transition.status = .succeeded
  honoured : facts.cancelRequested = true → transition.status.terminal = true

theorem FinishOutcome.stopped {event : JobEvent} (h : FinishOutcome facts event transition) :
    transition.status ≠ .running := by
  obtain ⟨hstatus, -⟩ | ⟨hstatus, -⟩ | hstatus | hstatus | hstatus := h.status <;>
    simp [hstatus]

theorem FinishOutcome.settled {event : JobEvent} (h : FinishOutcome facts event transition) :
    transition.status ≠ .queued ∧ transition.status ≠ .dispatched := by
  obtain ⟨hstatus, -⟩ | ⟨hstatus, -⟩ | hstatus | hstatus | hstatus := h.status <;>
    simp [hstatus]

theorem nextState_finish {event : JobEvent} (hevent : event.finishes = true)
    (h : nextState facts event policy = .ok transition) :
    FinishOutcome facts event transition := by
  obtain ⟨-, hrun, hdecided⟩ := nextState_ok h
  cases event with
  | needsHuman =>
    simp only [eventTransition, conflict] at hdecided
    split_ifs at hdecided with hcancel htasks
    · obtain rfl := Except.ok.inj hdecided
      exact ⟨hrun rfl, rfl, Int.le_refl _, by simp [cancelPreempted], nofun, fun _ => rfl⟩
    · obtain rfl := Except.ok.inj hdecided
      exact ⟨hrun rfl, rfl, Int.le_refl _, .inl ⟨rfl, htasks⟩, nofun, by simp [hcancel]⟩
  | publishResult =>
    obtain rfl := Except.ok.inj hdecided
    exact ⟨hrun rfl, rfl, Int.le_refl _, .inr (.inl ⟨rfl, rfl⟩), fun _ => rfl, fun _ => rfl⟩
  | retryableError =>
    simp only [eventTransition] at hdecided
    split_ifs at hdecided with hcancel hexhausted
    · obtain rfl := Except.ok.inj hdecided
      exact ⟨hrun rfl, rfl, Int.le_refl _, by simp [cancelPreempted], nofun, fun _ => rfl⟩
    · obtain rfl := Except.ok.inj hdecided
      exact ⟨hrun rfl, rfl, by decide, by simp, nofun, fun _ => rfl⟩
    · obtain rfl := Except.ok.inj hdecided
      exact ⟨hrun rfl, rfl, by decide, by simp, nofun, by simp [hcancel]⟩
  | permanentError =>
    obtain rfl := Except.ok.inj hdecided
    exact ⟨hrun rfl, rfl, Int.le_refl _, by simp, nofun, fun _ => rfl⟩
  | cancelAcknowledged =>
    simp only [eventTransition, conflict] at hdecided
    split_ifs at hdecided with hcancel
    obtain rfl := Except.ok.inj hdecided
    exact ⟨hrun rfl, rfl, Int.le_refl _, by simp, nofun, fun _ => rfl⟩
  | submit | dispatchSucceeded | dispatchFailed | claim | heartbeat | leaseExpired
  | scheduleRetry | humanResponseCommitted | humanRejected | cancel => cases hevent

theorem nextState_finish_charge {event : JobEvent} (hevent : event.finishes = true)
    (h : nextState facts event policy = .ok transition) :
    (transition.attemptDelta = 0 ∧ transition.status ≠ .retryableFailed) ∨
      (transition.attemptDelta = 1 ∧
        ((policy.maxAttempts ≤ facts.attemptCount + 1 ∧ transition.status = .failed) ∨
          (facts.attemptCount + 1 < policy.maxAttempts ∧
            transition.status = .retryableFailed))) := by
  obtain ⟨-, -, hdecided⟩ := nextState_ok h
  cases event with
  | needsHuman =>
    simp only [eventTransition, conflict] at hdecided
    split_ifs at hdecided <;> obtain rfl := Except.ok.inj hdecided
    · exact .inl ⟨rfl, nofun⟩
    · exact .inl ⟨rfl, nofun⟩
  | retryableError =>
    simp only [eventTransition] at hdecided
    split_ifs at hdecided with hcancel hexhausted <;> obtain rfl := Except.ok.inj hdecided
    · exact .inl ⟨rfl, nofun⟩
    · exact .inr ⟨rfl, .inl ⟨hexhausted, rfl⟩⟩
    · exact .inr ⟨rfl, .inr ⟨by omega, rfl⟩⟩
  | cancelAcknowledged =>
    simp only [eventTransition, conflict] at hdecided
    split_ifs at hdecided
    obtain rfl := Except.ok.inj hdecided
    exact .inl ⟨rfl, nofun⟩
  | publishResult | permanentError =>
    obtain rfl := Except.ok.inj hdecided
    exact .inl ⟨rfl, nofun⟩
  | submit | dispatchSucceeded | dispatchFailed | claim | heartbeat | leaseExpired
  | scheduleRetry | humanResponseCommitted | humanRejected | cancel => cases hevent

end AppraisalReview
