import Mathlib.Order.Lattice
import Mathlib.Logic.Function.Basic
import Mathlib.Tactic.Common

set_option autoImplicit false

/-!
# Serialized model sends

Every send takes the one owner slot of a scope, waits a full interval while it
rechecks its guard, charges the guard and calls. A send is a program of atomic
actions: each read of the clock, of the cancellation, of the authority and of the
store is one. Time is any linear order; `plus` adds a duration to a reading.
-/
namespace AppraisalReview.ModelDispatch

inductive Denial where
  | authorityExpired | attemptBudgetExhausted | storeUnavailable | ownerFenced | releaseUnknown
deriving DecidableEq

def Denial.text : Denial → String
  | .authorityExpired => "dispatch_authority_expired"
  | .attemptBudgetExhausted => "dispatch_attempt_budget_exhausted"
  | .storeUnavailable => "dispatch_store_unavailable"
  | .ownerFenced => "dispatch_owner_fenced"
  | .releaseUnknown => "dispatch_release_unknown"

/-- How `send` ends: with the call's result, with the call's own error, or denied. -/
inductive Outcome where
  | returned
  | failed
  | denied (denial : Denial)
deriving DecidableEq

abbrev Row := Option (Option ℕ)

def tryAcquire (row : Row) (owner : ℕ) : Bool × Row :=
  let inserted := row.getD none
  if inserted = none then (true, some (some owner)) else (false, some inserted)

def release (row : Row) (owner : ℕ) : Except Denial Row :=
  if row = some (some owner) then .ok (some none) else .error .ownerFenced

structure Guard (Time : Type) where
  /-- `none` is a deadline that is not finite. -/
  deadline : Option Time
  /-- What the authority callback answers now. -/
  authority : Bool := true
  cancelled : Bool := false
  maxSends : ℕ := 1
  sends : ℕ := 0

/-- The reads of `check`, in order. -/
inductive Probe where
  | deadline | cancelled | authority | deadlineAgain | cancelledAgain
deriving DecidableEq

def Probe.next : Probe → Option Probe
  | .deadline => some .cancelled
  | .cancelled => some .authority
  | .authority => some .deadlineAgain
  | .deadlineAgain => some .cancelledAgain
  | .cancelledAgain => none

section
variable {Time : Type} [LinearOrder Time]

def Guard.expired (g : Guard Time) (now : Time) : Bool :=
  match g.deadline with
  | none => true
  | some deadline => deadline ≤ now

def Probe.passes (g : Guard Time) (now : Time) : Probe → Bool
  | .deadline => !g.expired now
  | .cancelled => !g.cancelled
  | .authority => g.authority
  | .deadlineAgain => !g.expired now
  | .cancelledAgain => !g.cancelled

end

/-- The two uses of `_wait`: between tries for the slot, and once it is owned. -/
inductive Pause where
  | retry | interval
deriving DecidableEq

/-- Where `check` is called; the two checks of `_wait` know until when it waits. -/
inductive Place (Time : Type) where
  | enter
  | wait (pause : Pause) (until_ : Time)
  | settle (pause : Pause) (until_ : Time)
  | charge

inductive Phase (Time : Type) where
  | checking (place : Place Time) (probe : Probe)
  | acquiring
  | pausing (pause : Pause)
  | measuring (pause : Pause) (until_ : Time)
  | counting
  | adding
  | storing (sends : ℕ)
  | starting
  | calling
  | releasing (outcome : Outcome)
  | finished (outcome : Outcome)
  /-- The process died. -/
  | dead

def Pause.owns : Pause → Bool
  | .retry => false
  | .interval => true

def Place.owns {Time : Type} : Place Time → Bool
  | .enter => false
  | .wait pause _ => pause.owns
  | .settle pause _ => pause.owns
  | .charge => true

def Phase.owns {Time : Type} : Phase Time → Bool
  | .checking place _ => place.owns
  | .acquiring => false
  | .pausing pause => pause.owns
  | .measuring pause _ => pause.owns
  | .counting => true
  | .adding => true
  | .storing _ => true
  | .starting => true
  | .calling => true
  | .releasing _ => true
  | .finished _ => false
  | .dead => false

def Place.passed {Time : Type} : Place Time → Phase Time
  | .enter => .acquiring
  | .wait pause until_ => .measuring pause until_
  | .settle .retry _ => .checking .enter .deadline
  | .settle .interval _ => .checking .charge .deadline
  | .charge => .counting

/-- A denial inside the `try` goes through its `finally`. -/
def Place.refused {Time : Type} (place : Place Time) : Phase Time :=
  if place.owns then .releasing (.denied .authorityExpired)
  else .finished (.denied .authorityExpired)

structure Span (Time : Type) where
  sender : ℕ
  started : Time
  ended : Option Time := none
deriving DecidableEq

structure State (Time : Type) where
  clock : Time
  row : Row := none
  guards : ℕ → Guard Time
  senders : ℕ → Phase Time
  /-- The calls so far, the latest first. -/
  calls : List (Span Time) := []

def finish {Time : Type} (i : ℕ) (now : Time) (span : Span Time) : Span Time :=
  if span.sender = i ∧ span.ended = none then { span with ended := some now } else span

section
variable {Time Duration : Type} [LinearOrder Time] (plus : Time → Duration → Time)
  (retry interval : Duration) (guardOf : ℕ → ℕ)

def Pause.duration : Pause → Duration
  | .retry => retry
  | .interval => interval

def State.moved (s : State Time) (i : ℕ) (phase : Phase Time) : State Time :=
  { s with senders := Function.update s.senders i phase }

/-- The next action of a send; `fails` is whether the store, the call or the release does. -/
def act (s : State Time) (i : ℕ) (fails : Bool) : State Time :=
  let g := s.guards (guardOf i)
  match s.senders i with
  | .checking place probe =>
    if probe.passes g s.clock then
      s.moved i (match probe.next with
        | some probe => .checking place probe
        | none => place.passed)
    else s.moved i place.refused
  | .acquiring =>
    if fails then s.moved i (.finished (.denied .storeUnavailable))
    else
      let (acquired, row) := tryAcquire s.row i
      { s.moved i (.pausing (if acquired then .interval else .retry)) with row := row }
  | .pausing pause =>
    s.moved i (.checking (.wait pause (plus s.clock (pause.duration retry interval))) .deadline)
  | .measuring pause until_ =>
    -- `min(until, guard.deadline) - time.monotonic() <= 0`
    if until_ ≤ s.clock || g.expired s.clock then s.moved i (.checking (.settle pause until_) .deadline)
    else s.moved i (.checking (.wait pause until_) .deadline)
  | .counting =>
    if g.maxSends ≤ g.sends then s.moved i (.releasing (.denied .attemptBudgetExhausted))
    else s.moved i .adding
  | .adding => s.moved i (.storing g.sends)
  | .storing sends =>
    { s.moved i .starting with
      guards := Function.update s.guards (guardOf i) { g with sends := sends + 1 } }
  | .starting => { s.moved i .calling with calls := { sender := i, started := s.clock } :: s.calls }
  | .calling =>
    { s.moved i (.releasing (if fails then .failed else .returned)) with
      calls := s.calls.map (finish i s.clock) }
  | .releasing outcome =>
    if fails then s.moved i (.finished (.denied .releaseUnknown))
    else match release s.row i with
    | .error _ => s.moved i (.finished (.denied .releaseUnknown))
    | .ok row => { s.moved i (.finished outcome) with row := row }
  | .finished _ => s
  | .dead => s

inductive Event (Time : Type) where
  | act (i : ℕ) (fails : Bool)
  /-- The shared monotonic clock advances. -/
  | tick (now : Time)
  | cancel (g : ℕ)
  | authorize (g : ℕ) (granted : Bool)
  /-- The process of a send dies. -/
  | die (i : ℕ)

def State.guarded (s : State Time) (g : ℕ) (change : Guard Time → Guard Time) : State Time :=
  { s with guards := Function.update s.guards g (change (s.guards g)) }

def step (s : State Time) : Event Time → State Time
  | .act i fails => act plus retry interval guardOf s i fails
  | .tick now => { s with clock := max s.clock now }
  | .cancel g => s.guarded g fun g => { g with cancelled := true }
  | .authorize g granted => s.guarded g fun g => { g with authority := granted }
  | .die i => s.moved i .dead

def run (s : State Time) (events : List (Event Time)) : State Time :=
  events.foldl (step plus retry interval guardOf) s

end

/-- Every send is about to begin, with guards that were not charged yet. -/
structure Fresh {Time : Type} (s : State Time) : Prop where
  row : s.row = none
  senders (i : ℕ) : s.senders i = .checking .enter .deadline
  sends (g : ℕ) : (s.guards g).sends = 0
  calls : s.calls = []

end AppraisalReview.ModelDispatch
