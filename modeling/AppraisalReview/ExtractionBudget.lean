import AppraisalReview.ModelDispatch
import Mathlib.Data.Rat.Defs
import Mathlib.Algebra.Order.Ring.Rat

set_option autoImplicit false

/-!
# Bounded extraction calls

One ledger admits the provider calls of concurrent `execute` runs. Every caller is
a coroutine, every provider call a worker on a thread of its own that may outlive
its caller. An action is one access to what they share; clocks, the provider, the
observer, the jitter and the cancellations answer it.
-/
namespace AppraisalReview.Extraction
open ModelDispatch (Guard Probe)

inductive FailureCode where
  | unauthorizedSource | privacyUnavailable | sourceChanged | unsupportedInput
  | unsupportedCapability | budgetExhausted | accessDenied | configurationError | throttled
  | serviceUnavailable | timeout | refused | truncatedOutput | malformedOutput
  | invalidSourceReference | providerError
deriving DecidableEq

def FailureCode.text : FailureCode → String
  | .unauthorizedSource => "unauthorized_source"
  | .privacyUnavailable => "privacy_unavailable"
  | .sourceChanged => "source_changed"
  | .unsupportedInput => "unsupported_input"
  | .unsupportedCapability => "unsupported_capability"
  | .budgetExhausted => "budget_exhausted"
  | .accessDenied => "access_denied"
  | .configurationError => "configuration_error"
  | .throttled => "throttled"
  | .serviceUnavailable => "service_unavailable"
  | .timeout => "timeout"
  | .refused => "refused"
  | .truncatedOutput => "truncated_output"
  | .malformedOutput => "malformed_output"
  | .invalidSourceReference => "invalid_source_reference"
  | .providerError => "provider_error"

def FailureCode.all : List FailureCode :=
  [.unauthorizedSource, .privacyUnavailable, .sourceChanged, .unsupportedInput,
    .unsupportedCapability, .budgetExhausted, .accessDenied, .configurationError, .throttled,
    .serviceUnavailable, .timeout, .refused, .truncatedOutput, .malformedOutput,
    .invalidSourceReference, .providerError]

def aliases : List (String × FailureCode) :=
  [("image_limit", .unsupportedInput), ("page_context_limit", .unsupportedInput),
    ("unsupported_response", .malformedOutput),
    ("conflicting_legacy_evidence", .invalidSourceReference), ("retry_exhausted", .budgetExhausted)]

def safeCode (code : String) : FailureCode :=
  match aliases.find? fun entry => entry.1 = code with
  | some entry => entry.2
  | none => (FailureCode.all.find? fun known => known.text = code).getD .providerError

/-- The usage counts are `none` unless they are ints. -/
structure Response (ρ : Type) where
  inputTokens : Option Int := none
  outputTokens : Option Int := none
  body : ρ

/-- `usage(response, key)`: an int that is not negative. -/
def usage (value : Option Int) : Option Int := value.filter (0 ≤ ·)

structure ProviderError (ρ : Type) where
  code : Option String := none
  typeName : String
  isTimeout : Bool := false
  response : Option (Response ρ) := none

def providerFailure {ρ : Type} (error : ProviderError ρ) : FailureCode :=
  let coded (codes : List String) := error.code.any (codes.contains ·)
  if coded ["ThrottlingException", "TooManyRequestsException"] then .throttled
  else if coded ["ServiceUnavailableException", "InternalServerException",
      "ModelNotReadyException"] then .serviceUnavailable
  else if coded ["AccessDeniedException", "UnrecognizedClientException", "ExpiredTokenException",
      "InvalidSignatureException", "UnauthorizedException"] then .accessDenied
  else if coded ["ValidationException", "ResourceNotFoundException"] ||
      ["NoCredentialsError", "PartialCredentialsError", "ProfileNotFound"].contains error.typeName then
    .configurationError
  -- Conservatively unknown completion; a transport loss is never retried.
  else if error.isTimeout || coded ["ModelTimeoutException"] ||
      ["ReadTimeoutError", "ConnectTimeoutError", "EndpointConnectionError",
        "ConnectionClosedError"].contains error.typeName then .timeout
  else .providerError

/-- How `call()` ends. -/
inductive CallResult (ρ : Type) where
  /-- `none` is a value that is not a dictionary. -/
  | response (response : Option (Response ρ))
  | denied
  | boundary (code : FailureCode)
  | error (error : ProviderError ρ)

structure Reply (ρ : Type) where
  response : Option (Response ρ)
  failure : Option FailureCode
  returned : Bool := false

def CallResult.reply {ρ : Type} : CallResult ρ → Reply ρ
  | .response (some reply) => ⟨some reply, none, true⟩
  | .response none => ⟨none, some .malformedOutput, true⟩
  | .denied => ⟨none, some .budgetExhausted, false⟩
  | .boundary code => ⟨none, some code, false⟩
  | .error failure => ⟨failure.response, some (providerFailure failure), false⟩

structure ExecutionBudget where
  maxPages : ℕ
  maxCalls : ℕ
  maxAttemptsPerPage : ℕ
  maxConcurrency : ℕ
  maxOutputTokens : ℕ
  maxElapsedSeconds : ℚ

structure Ledger where
  limits : ExecutionBudget
  started : Option ℚ := none
  run : Option String := none
  pages : ℕ := 0
  calls : ℕ := 0
  inFlight : Int := 0
  reservedOutputTokens : Int := 0
  stopped : Bool := false

namespace Ledger

def remaining (ledger : Ledger) (now : ℚ) : ℚ :=
  match ledger.started with
  | none => ledger.limits.maxElapsedSeconds
  | some started => max 0 (ledger.limits.maxElapsedSeconds - (now - started))

def beginPage (ledger : Ledger) (binding : String) (now : ℚ) : Ledger × Except FailureCode Unit :=
  if ledger.run.any (· ≠ binding) then (ledger, .error .configurationError)
  else
    let ledger := if ledger.started.isNone then
      { ledger with started := some now, run := some binding } else ledger
    if ledger.stopped || ledger.limits.maxPages ≤ ledger.pages || ledger.remaining now ≤ 0 then
      (ledger, .error .budgetExhausted)
    else ({ ledger with pages := ledger.pages + 1 }, .ok ())

def reserveCall (ledger : Ledger) (tokens : Int) (now : ℚ) : Except FailureCode Ledger :=
  if ledger.started.isNone || ledger.stopped || ledger.remaining now ≤ 0 ||
      ledger.limits.maxCalls ≤ ledger.calls || ledger.limits.maxConcurrency ≤ ledger.inFlight ||
      ledger.limits.maxOutputTokens < ledger.reservedOutputTokens + tokens then
    .error .budgetExhausted
  else .ok { ledger with
    calls := ledger.calls + 1
    inFlight := ledger.inFlight + 1
    reservedOutputTokens := ledger.reservedOutputTokens + tokens }

def finishedCall (ledger : Ledger) : Ledger := { ledger with inFlight := ledger.inFlight - 1 }

def settleTokens (ledger : Ledger) (reserved : Int) : Option Int → Ledger
  | none => ledger
  | some observed =>
    let settled := ledger.reservedOutputTokens + (observed - reserved)
    { ledger with
      reservedOutputTokens := settled
      stopped := ledger.stopped || reserved < observed || ledger.limits.maxOutputTokens < settled }

def stop (ledger : Ledger) : Ledger := { ledger with stopped := true }

end Ledger

inductive Choice (ρ : Type) where
  | proceed
  /-- Another dispatch check, in a wait or before a retry of the transport. -/
  | recheck
  | finish (result : CallResult ρ)

inductive CallPhase (ρ : Type) where
  /-- Reserved, and no worker yet. -/
  | reserved
  | queued
  | probing (probe : Probe)
  | cleared
  | sending
  | closing (reply : Reply ρ)
  | finished (reply : Reply ρ)

structure Call (ρ : Type) where
  guard : Guard ℚ
  phase : CallPhase ρ := .reserved

inductive Completion where
  | returned | failed | unknown
deriving DecidableEq

/-- `AttemptTelemetry`; its validator is `evident`. -/
structure AttemptTelemetry where
  attempt : ℕ
  completion : Completion
  failure : Option FailureCode
  inputTokens : Option Int
  outputTokens : Option Int
deriving DecidableEq

/-- `completion_evidence` -/
def AttemptTelemetry.evident (note : AttemptTelemetry) : Bool :=
  (note.completion = .returned || note.failure.isSome) &&
    (note.completion ≠ .unknown || note.failure = some .timeout)

structure Request where
  attempts : ℕ
  tokens : Int
  timeout : ℚ
  backoffBase : ℚ
  backoffCap : ℚ
  observed : Bool := false

inductive Raised where
  /-- Cancelled while its provider call was out. -/
  | abandoned
  /-- Cancelled in the pause between two attempts. -/
  | cancelled
  | invalidTelemetry
deriving DecidableEq

inductive Phase (ρ π : Type) where
  | reserving (attempt : ℕ)
  | submitting (attempt call : ℕ)
  | awaiting (attempt call : ℕ)
  /-- The wait was cut off: the guard is about to be cancelled. -/
  | cutting (attempt call : ℕ) (cancelled : Bool)
  /-- Cancelled: the ledger is about to be stopped. -/
  | interrupted (attempt : ℕ)
  | settling (attempt : ℕ) (reply : Reply ρ)
  /-- Timed out: the ledger is about to be stopped. -/
  | halting (attempt : ℕ) (reply : Reply ρ)
  | judging (attempt : ℕ) (reply : Reply ρ)
  | observing (note : AttemptTelemetry) (code : Option String) (proposal : Option π)
  /-- The observer failed: the ledger is about to be stopped. -/
  | faulted (note : AttemptTelemetry)
  | deciding (note : AttemptTelemetry) (code : Option String) (proposal : Option π)
  | sleeping (note : AttemptTelemetry) (code : Option String)
  | returned (proposal : Option π) (code : Option String)
  | raised (error : Raised)

structure Run (ρ π : Type) where
  request : Request
  records : List AttemptTelemetry := []
  phase : Phase ρ π := .reserving 1

inductive Wake where
  | ready | timeout | cancelled
deriving DecidableEq

structure Answer (ρ : Type) where
  now : ℚ := 0
  monotonic : ℚ := 0
  /-- What the inherited dispatch authority says. -/
  granted : Bool := true
  choice : Choice ρ := .proceed
  wake : Wake := .ready
  /-- The observer raises. -/
  fails : Bool := false
  /-- `none` is a jitter that is not finite. -/
  delay : Option ℚ := some 0

structure State (ρ π : Type) where
  ledger : Ledger
  runs : List (Run ρ π) := []
  calls : List (Call ρ) := []

section
variable {ρ π : Type} (validate : Response ρ → Except (Option String) π)

def judge (reply : Reply ρ) : Option String × Completion × Option π :=
  if reply.failure = some .timeout then (some "timeout", .unknown, none)
  else if reply.failure.isSome && !reply.returned then
    (reply.failure.map FailureCode.text, .failed, none)
  else match reply.response with
  | none => (some "malformed_output", .returned, none)
  | some response => match validate response with
    | .ok proposal => (reply.failure.map FailureCode.text, .returned, some proposal)
    | .error (some code) => (some code, .returned, none)
    | .error none => (some "malformed_output", .returned, none)

/-- Overuse of the reservation, and then the end of the run's time, take the proposal back. -/
def bounded (tokens : Int) (outputTokens : Option Int) (beyond : Bool)
    (judged : Option String × Completion × Option π) : Option String × Completion × Option π :=
  let judged := if outputTokens.any (tokens < ·) then
    (some "budget_exhausted", judged.2.1, none) else judged
  if beyond && judged.1.isNone then (some "budget_exhausted", judged.2.1, none) else judged

def noteOf (attempt : ℕ) (reply : Reply ρ) (judged : Option String × Completion × Option π) :
    AttemptTelemetry where
  attempt := attempt
  completion := judged.2.1
  failure := match judged.1 with
    | none => none
    | some code => if code = "" then none else some (safeCode code)
  inputTokens := usage (reply.response.bind Response.inputTokens)
  outputTokens := usage (reply.response.bind Response.outputTokens)

def retryable (code : Option String) : Bool :=
  code = some "throttled" || code = some "service_unavailable"

def following (limits : ExecutionBudget) (request : Request) (attempt : ℕ) (code : Option String) :
    Phase ρ π :=
  if attempt ≤ min request.attempts limits.maxAttemptsPerPage then .reserving attempt
  else .returned none code

def Run.moved (run : Run ρ π) (phase : Phase ρ π) : Run ρ π := { run with phase := phase }

def Run.noted (run : Run ρ π) (note : AttemptTelemetry) (phase : Phase ρ π) : Run ρ π :=
  { run with records := run.records ++ [note], phase := phase }

def setPhase (calls : List (Call ρ)) (k : ℕ) (phase : CallPhase ρ) : List (Call ρ) :=
  calls.modify k fun call => { call with phase := phase }

/-- The next action of a run: the run, the ledger and the calls after it. -/
def Run.act (run : Run ρ π) (answer : Answer ρ) (ledger : Ledger) (calls : List (Call ρ)) :
    Run ρ π × Ledger × List (Call ρ) :=
  let tokens := run.request.tokens
  match run.phase with
  | .reserving attempt =>
    if min run.request.attempts ledger.limits.maxAttemptsPerPage < attempt then
      (run.moved (.returned none none), ledger, calls)
    else match ledger.reserveCall tokens answer.now with
    | .error code => (run.moved (.returned none (some code.text)), ledger, calls)
    | .ok ledger => (run.moved (.submitting attempt calls.length), ledger,
        calls ++ [{ guard := { deadline := none } }])
  | .submitting attempt call =>
    let waitLimit := min run.request.timeout (ledger.remaining answer.now)
    (run.moved (.awaiting attempt call), ledger, calls.modify call fun call =>
      { call with guard := { deadline := some (answer.monotonic + waitLimit) }, phase := .queued })
  | .awaiting attempt call => match answer.wake with
    | .timeout => (run.moved (.cutting attempt call false), ledger, calls)
    | .cancelled => (run.moved (.cutting attempt call true), ledger, calls)
    | .ready => match (calls[call]?).map Call.phase with
      | some (.finished reply) => (run.moved (.settling attempt reply), ledger, calls)
      | _ => (run, ledger, calls)
  | .cutting attempt call cancelled =>
    (run.moved (if cancelled then .interrupted attempt
        else .settling attempt ⟨none, some .timeout, false⟩), ledger,
      calls.modify call fun call => { call with guard := { call.guard with cancelled := true } })
  | .interrupted _ => (run.moved (.raised .abandoned), ledger.stop, calls)
  | .settling attempt reply =>
    (run.moved (if reply.failure = some .timeout then .halting attempt reply
        else .judging attempt reply),
      ledger.settleTokens tokens (usage (reply.response.bind Response.outputTokens)), calls)
  | .halting attempt reply => (run.moved (.judging attempt reply), ledger.stop, calls)
  | .judging attempt reply =>
    let judged := bounded tokens (usage (reply.response.bind Response.outputTokens))
      (ledger.remaining answer.now ≤ 0) (judge validate reply)
    let note := noteOf attempt reply judged
    if note.evident then (run.moved (.observing note judged.1 judged.2.2), ledger, calls)
    else (run.moved (.raised .invalidTelemetry), ledger, calls)
  | .observing note code proposal =>
    if run.request.observed && answer.fails then (run.moved (.faulted note), ledger, calls)
    else (run.moved (.deciding note code proposal), ledger, calls)
  | .faulted note => (run.moved (.deciding note (some "provider_error") none), ledger.stop, calls)
  | .deciding note code proposal =>
    if retryable code && note.attempt < run.request.attempts then
      let ceiling := min run.request.backoffCap (run.request.backoffBase * 2 ^ (note.attempt - 1))
      if answer.delay.all fun delay => delay < 0 || ceiling < delay then
        (run.noted note (.returned none (some "configuration_error")), ledger, calls)
      else if answer.delay.any (ledger.remaining answer.now ≤ ·) then
        (run.noted note (.returned none (some "budget_exhausted")), ledger, calls)
      else (run.moved (.sleeping note code), ledger, calls)
    else (run.noted note (.returned (if code.isNone then proposal else none) code), ledger, calls)
  | .sleeping note code => match answer.wake with
    | .ready => (run.noted note (following ledger.limits run.request (note.attempt + 1) code),
        ledger, calls)
    | .timeout => (run.noted note (.returned none (some "budget_exhausted")), ledger, calls)
    | .cancelled => (run.moved (.raised .cancelled), ledger, calls)
  | .returned _ _ => (run, ledger, calls)
  | .raised _ => (run, ledger, calls)

/-- The dispatch authority of a call: inherited, and the ledger still admits it. -/
def permitted (ledger : Ledger) (answer : Answer ρ) : Bool :=
  answer.granted && !ledger.stopped && 0 < ledger.remaining answer.now

def Call.work (call : Call ρ) (answer : Answer ρ) (ledger : Ledger) : CallPhase ρ × Ledger :=
  match call.phase with
  | .reserved => (.reserved, ledger)
  | .queued =>
    if ledger.stopped || ledger.remaining answer.now ≤ 0 then
      (.closing ⟨none, some .budgetExhausted, false⟩, ledger)
    else (.probing .deadline, ledger)
  | .probing probe => match answer.choice with
    | .finish result => (.closing result.reply, ledger)
    | _ =>
      let guard := { call.guard with authority := permitted ledger answer }
      if probe.passes guard answer.monotonic then
        match probe.next with
        | some probe => (.probing probe, ledger)
        | none => (.cleared, ledger)
      else (.closing (CallResult.reply .denied), ledger)
  | .cleared => match answer.choice with
    | .proceed => (.sending, ledger)
    | .recheck => (.probing .deadline, ledger)
    | .finish result => (.closing result.reply, ledger)
  | .sending => match answer.choice with
    | .proceed => (.sending, ledger)
    | .recheck => (.probing .deadline, ledger)
    | .finish result => (.closing result.reply, ledger)
  | .closing reply => (.finished reply, ledger.finishedCall)
  | .finished reply => (.finished reply, ledger)

inductive Event (ρ : Type) where
  | page (binding : String) (now : ℚ)
  | enter (request : Request)
  | act (i : ℕ) (answer : Answer ρ)
  | work (k : ℕ) (answer : Answer ρ)

def step (s : State ρ π) : Event ρ → State ρ π
  | .page binding now => { s with ledger := (s.ledger.beginPage binding now).1 }
  | .enter request => { s with runs := s.runs ++ [{ request := request }] }
  | .act i answer => match s.runs[i]? with
    | none => s
    | some run =>
      let next := run.act validate answer s.ledger s.calls
      { ledger := next.2.1, runs := s.runs.set i next.1, calls := next.2.2 }
  | .work k answer => match s.calls[k]? with
    | none => s
    | some call =>
      let next := call.work answer s.ledger
      { s with ledger := next.2, calls := setPhase s.calls k next.1 }

def run (s : State ρ π) (events : List (Event ρ)) : State ρ π :=
  events.foldl (step validate) s

end
end AppraisalReview.Extraction
