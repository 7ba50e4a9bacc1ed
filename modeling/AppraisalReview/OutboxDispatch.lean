import AppraisalReview.JobRecovery
import Mathlib.Algebra.Group.Int.Defs

set_option autoImplicit false

/-!
# Dispatch and reconcile passes

A pass gives up the store's lock between its own calls. The calls the other
passes, workers and callers make in between are part of its script.
-/
namespace AppraisalReview

def JobPolicy.backoffSeconds (policy : JobPolicy) (attempt : Int) : Except Fault Int :=
  if attempt < 1 then .error (.valueError "Backoff requires a one-based attempt number")
  else
    let shift := (min (attempt - 1) 32).toNat
    .ok (min (policy.backoffBaseSeconds * 2 ^ shift) policy.backoffCapSeconds)

structure DispatchMessage where
  jobId : UUID
  runId : UUID
  outboxSeq : ℕ
  dispatchToken : UUID
  enqueuedAt : Int
deriving DecidableEq

structure DispatchOutcome where
  sent : ℕ := 0
  deferred : ℕ := 0
  superseded : ℕ := 0
  abandoned : ℕ := 0
deriving DecidableEq

def DispatchOutcome.total (outcome : DispatchOutcome) : ℕ :=
  outcome.sent + outcome.deferred + outcome.superseded + outcome.abandoned

structure ReconcileOutcome where
  dispatch : DispatchOutcome
  leasesReclaimed : ℕ := 0
  retriesScheduled : ℕ := 0
deriving DecidableEq

namespace MemoryJobStore

section
variable (sha256 : String → Digest) (policy : JobPolicy)

def deferDispatch (record : DispatchRecord) (now : Int) (jitter : Int → Int) (s : Store) :
    Outcome Bool :=
  match policy.backoffSeconds (record.dispatchAttempts + 1) with
  | .error fault => (.error fault, s)
  | .ok delay => rescheduleDispatch policy record (now + delay + jitter delay) s

/-- What happens around one record of a pass: the sender's answer, the clock, and the calls
of other parties before the pass stores the outcome. -/
structure Handling where
  others : List Op := []
  accepted : Bool
  enqueuedAt : Int := 0
  now : Int := 0
  jitter : Int → Int := fun _ => 0

def dispatchMessage (record : DispatchRecord) (enqueuedAt : Int) : DispatchMessage where
  jobId := record.jobId
  runId := record.runId
  outboxSeq := record.outboxSeq
  dispatchToken := record.dispatchToken
  enqueuedAt := enqueuedAt

def handleRecord (handling : Handling) (record : DispatchRecord) (outcome : DispatchOutcome)
    (s : Store) : Outcome DispatchOutcome :=
  let s := run sha256 policy s handling.others
  if handling.accepted then
    match markDispatched policy record handling.now s with
    | (.ok _, s) => (.ok { outcome with sent := outcome.sent + 1 }, s)
    -- A duplicate pass or a claim won; the message is out either way.
    | (.error (.conditionFailed _), s) =>
      (.ok { outcome with superseded := outcome.superseded + 1 }, s)
    | (.error fault, s) => (.error fault, s)
  else
    -- Nothing catches a lost race on this branch.
    match deferDispatch policy record handling.now handling.jitter s with
    | (.ok true, s) => (.ok { outcome with deferred := outcome.deferred + 1 }, s)
    | (.ok false, s) => (.ok { outcome with abandoned := outcome.abandoned + 1 }, s)
    | (.error fault, s) => (.error fault, s)

structure Pass where
  result : Except Fault DispatchOutcome
  attempted : List DispatchMessage
  store : Store

def dispatchEach (handling : ℕ → Handling) :
    List DispatchRecord → DispatchOutcome → Store → Pass
  | [], outcome, s => ⟨.ok outcome, [], s⟩
  | record :: rest, outcome, s =>
    let message := dispatchMessage record (handling 0).enqueuedAt
    match handleRecord sha256 policy (handling 0) record outcome s with
    | (.error fault, s) => ⟨.error fault, [message], s⟩
    | (.ok outcome, s) =>
      let later := dispatchEach (fun n => handling (n + 1)) rest outcome s
      { later with attempted := message :: later.attempted }

/-- `OutboxDispatcher.run_once` -/
def dispatchOnce (handling : ℕ → Handling) (limit now : Int) (s : Store) : Pass :=
  match pendingDispatches s now limit with
  | .error fault => ⟨.error fault, [], s⟩
  | .ok records => dispatchEach sha256 policy handling records {} s

structure Reclaiming where
  others : List Op := []
  now : Int := 0
  token : UUID := ⟨0⟩

def reclaimEach (script : ℕ → Reclaiming) : List ExpiredLease → ℕ → Store → Outcome ℕ
  | [], reclaimed, s => (.ok reclaimed, s)
  | lease :: rest, reclaimed, s =>
    match expireLease policy lease (script 0).now (script 0).token
        (run sha256 policy s (script 0).others) with
    | (.ok _, s) => reclaimEach (fun n => script (n + 1)) rest (reclaimed + 1) s
    -- The candidate may be stale; losing here is expected.
    | (.error (.conditionFailed _), s) => reclaimEach (fun n => script (n + 1)) rest reclaimed s
    | (.error fault, s) => (.error fault, s)

/-- The other parties act before the job is read and again before its retry is scheduled. -/
structure Recovering where
  before : List Op := []
  between : List Op := []
  availableFrom : Int := 0
  jitter : Int → Int := fun _ => 0
  now : Int := 0
  token : UUID := ⟨0⟩

def recoverRetryable (script : Recovering) (jobId : UUID) (s : Store) : Outcome Bool :=
  let s := run sha256 policy s script.before
  match readJob s jobId with
  | .error fault => (.error fault, s)
  | .ok none => (.ok false, s)
  | .ok (some record) =>
    if record.status ≠ .retryableFailed then (.ok false, s)
    else match policy.backoffSeconds record.attemptCount with
    | .error fault => (.error fault, s)
    | .ok delay =>
      match scheduleRetry policy record.jobId
          (script.availableFrom + delay + script.jitter delay) script.now script.token
          (run sha256 policy s script.between) with
      | (.ok _, s) => (.ok true, s)
      | (.error (.conditionFailed _), s) => (.ok false, s)
      | (.error fault, s) => (.error fault, s)

def recoverEach (script : ℕ → Recovering) : List JobRecord → ℕ → Store → Outcome ℕ
  | [], scheduled, s => (.ok scheduled, s)
  | record :: rest, scheduled, s =>
    match recoverRetryable sha256 policy (script 0) record.jobId s with
    | (.ok true, s) => recoverEach (fun n => script (n + 1)) rest (scheduled + 1) s
    | (.ok false, s) => recoverEach (fun n => script (n + 1)) rest scheduled s
    | (.error fault, s) => (.error fault, s)

structure Reconciling where
  reclaimAt : Int := 0
  reclaiming : ℕ → Reclaiming
  beforeRetries : List Op := []
  retriesAt : Int := 0
  recovering : ℕ → Recovering
  beforeDispatch : List Op := []
  dispatchAt : Int := 0
  handling : ℕ → Handling

/-- The reclaims and the retries, up to the store the dispatch pass starts on. -/
def reconcileRecovery (script : Reconciling) (limit : Int) (s : Store) : Outcome (ℕ × ℕ) :=
  match expiredLeases s script.reclaimAt limit with
  | .error fault => (.error fault, s)
  | .ok leases =>
    match reclaimEach sha256 policy script.reclaiming leases 0 s with
    | (.error fault, s) => (.error fault, s)
    | (.ok reclaimed, s) =>
      let s := run sha256 policy s script.beforeRetries
      match strandedRetryables s (script.retriesAt - policy.leaseSeconds) limit with
      | .error fault => (.error fault, s)
      | .ok records =>
        match recoverEach sha256 policy script.recovering records 0 s with
        | (.error fault, s) => (.error fault, s)
        | (.ok retries, s) => (.ok (reclaimed, retries), run sha256 policy s script.beforeDispatch)

/-- `JobReconciler.run_once` -/
def reconcileOnce (script : Reconciling) (limit : Int) (s : Store) : Outcome ReconcileOutcome :=
  match reconcileRecovery sha256 policy script limit s with
  | (.error fault, s) => (.error fault, s)
  | (.ok (reclaimed, retries), s) =>
    let pass := dispatchOnce sha256 policy script.handling limit script.dispatchAt s
    (pass.result.map fun dispatch => {
      dispatch := dispatch
      leasesReclaimed := reclaimed
      retriesScheduled := retries }, pass.store)

end

end MemoryJobStore
end AppraisalReview
