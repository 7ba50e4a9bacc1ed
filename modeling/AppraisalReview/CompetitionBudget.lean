import AppraisalReview.Decimal
import AppraisalReview.Identifiers

set_option autoImplicit false

/-!
# Atomic team budget reservations

Independent processes reserve from one pinned item: read it, check the caps,
and update it under the condition that the whole observed row is unchanged.
Tokens are counted in units, money in units of 10⁻⁸ USD. Whatever the network
or the clock answers is an argument of an action.
-/
namespace AppraisalReview.CompetitionBudget

inductive Denial where
  | boundsUnknown | routingChanged | conservativeBasisMissing | requestUnbounded
  | pricingUnknown | outputUnbounded | windowExpired | ledgerUnapproved | exhausted
  | reservationUnknown | contended
deriving DecidableEq

def Denial.text : Denial → String
  | .boundsUnknown => "competition_budget_bounds_unknown"
  | .routingChanged => "competition_budget_routing_changed"
  | .conservativeBasisMissing => "competition_budget_conservative_basis_missing"
  | .requestUnbounded => "competition_budget_request_unbounded"
  | .pricingUnknown => "competition_budget_pricing_unknown"
  | .outputUnbounded => "competition_budget_output_unbounded"
  | .windowExpired => "competition_budget_window_expired"
  | .ledgerUnapproved => "competition_budget_ledger_unapproved"
  | .exhausted => "competition_budget_exhausted"
  | .reservationUnknown => "competition_budget_reservation_unknown"
  | .contended => "competition_budget_contended"

/-- What `reserve` may raise: a denial, a decimal signal or the client factory's own error. -/
inductive Raised where
  | denied (denial : Denial)
  | signal (signal : Signal)
  | client
deriving DecidableEq

structure ModelDestination where
  arn : String
deriving DecidableEq

structure ModelUse where
  modelId : String
  destinations : List ModelDestination := []
  destinationSnapshot : Option Digest := none
  contextWindowTokens : Option ℕ := none
deriving DecidableEq

structure OperationReservation where
  operation : String
  modelId : String
  maxRequestBytes : ℕ
  inputTokens : ℕ
  outputTokens : ℕ
  /-- `max_digits=16, decimal_places=8`, in units of 10⁻⁸ USD. -/
  cost : ℕ
  destinationSnapshot : Digest
  inputPricePerMillion : Option Decimal := none
  outputPricePerMillion : Option Decimal := none
  maximumRequestFee : Option Decimal := none
deriving DecidableEq

structure Stable where
  pk : String
  profileDigest : Digest
  windowStart : Int
  windowEnd : Int
  maxCalls : ℕ
  maxInputTokens : ℕ
  maxOutputTokens : ℕ
  maxCost : ℕ
deriving DecidableEq

structure Profile where
  models : List ModelUse
  expected : Stable
  operationReservations : List OperationReservation

structure DataPart where
  partId : String
  content : List UInt8

structure Request where
  operation : String
  parameters : List (String × String)
  parts : List DataPart

section
variable (ctx : DecimalContext)

/-- The sum of the token prices, of which a million make one unit, and the fee. -/
def OperationReservation.minimum (r : OperationReservation) (inputPrice outputPrice fee : Decimal) :
    Except Signal Decimal := do
  let input ← Decimal.mul ctx (.ofNat r.inputTokens) inputPrice
  let output ← Decimal.mul ctx (.ofNat r.outputTokens) outputPrice
  let tokens ← Decimal.add ctx input output
  let perUnit ← Decimal.finalize ctx { tokens with exponent := tokens.exponent - 6 }
  Decimal.add ctx perUnit fee

def OperationReservation.coversWorstCase (r : OperationReservation) (models : List ModelUse) :
    Except Signal Bool :=
  match r.inputPricePerMillion, r.outputPricePerMillion, r.maximumRequestFee with
  | some inputPrice, some outputPrice, some fee =>
    if r.operation ∈ ["Converse", "InvokeModel", "CountTokens"] ∧ (models = [] ∨
        models.any fun m => m.contextWindowTokens.all (r.inputTokens < ·)) then .ok false
    else if r.operation ∈ ["Converse", "InvokeModel"] ∧
        (inputPrice.le (.ofNat 0) ∨ outputPrice.le (.ofNat 0)) then .ok false
    else (r.minimum ctx inputPrice outputPrice fee).map fun minimum =>
      minimum.le ⟨false, r.cost, -8⟩
  | _, _, _ => .ok false

def afterSlash (arn : String) : String :=
  String.ofList ((arn.toList.dropWhile (· ≠ '/')).drop 1)

def parameter (parameters : List (String × String)) (name : String) : Option String :=
  (parameters.find? fun entry => entry.1 = name).map Prod.snd

/-- `parameters.get("modelId", parameters.get(…))` -/
def Request.modelId (request : Request) : Option String :=
  (parameter request.parameters "modelId").or
    ((parameter request.parameters "modelIdentifier").or
      (parameter request.parameters "inferenceProfileIdentifier"))

def ModelUse.serves (m : ModelUse) (operation : String) (modelId : Option String) : Bool :=
  some m.modelId = modelId || (operation = "GetFoundationModel" &&
    m.destinations.any fun d => some d.arn = modelId || some (afterSlash d.arn) = modelId)

/-- The output limit of the one body; `maxTokens` decodes it, and is `none` unless an int. -/
def outputLimit (maxTokens : List UInt8 → Option Int) (parts : List DataPart) : Option Int :=
  match parts.filter fun part => part.partId.endsWith ".body" with
  | [part] => maxTokens part.content
  | _ => none

/-- `_bound`: the one reservation that is a worst case of this request. -/
def bound (maxTokens : List UInt8 → Option Int) (profile : Profile) (request : Request) :
    Except Raised OperationReservation :=
  let modelId := request.modelId
  match profile.operationReservations.filter
      fun r => r.operation = request.operation && some r.modelId = modelId with
  | [bound] =>
    let models := profile.models.filter fun m => m.serves request.operation modelId
    if models = [] ∨ models.any fun m => m.destinationSnapshot ≠ some bound.destinationSnapshot then
      .error (.denied .routingChanged)
    else match bound.coversWorstCase ctx models with
    | .error signal => .error (.signal signal)
    | .ok false => .error (.denied .conservativeBasisMissing)
    | .ok true =>
      if bound.maxRequestBytes < (request.parts.map fun part => part.content.length).sum then
        .error (.denied .requestUnbounded)
      else if request.operation ∈ ["Converse", "InvokeModel"] ∧
          (bound.inputTokens < 1 ∨ bound.outputTokens < 1 ∨ bound.cost = 0) then
        .error (.denied .pricingUnknown)
      else if request.operation = "Converse" ∧ ¬ (outputLimit maxTokens request.parts).any
          (fun output : Int => 0 < output && output ≤ (bound.outputTokens : Int)) then
        .error (.denied .outputUnbounded)
      -- Provider-specific bodies have no verified output-limit decoder yet.
      else if request.operation = "InvokeModel" then .error (.denied .outputUnbounded)
      else .ok bound
  | _ => .error (.denied .boundsUnknown)

end

structure Item where
  stable : Stable
  calls : ℕ := 0
  inputTokens : ℕ := 0
  outputTokens : ℕ := 0
  cost : ℕ := 0
  version : ℕ := 0
deriving DecidableEq

/-- `budget_seed_item` -/
def seed (profile : Profile) : Item := { stable := profile.expected }

def plus (a b : ℕ) : ℕ :=
  let places := Decimal.digits (a + b) - 28
  Decimal.roundHalfEven (a + b) places * 10 ^ places

def charge (item : Item) (bound : OperationReservation) : Item where
  stable := item.stable
  calls := plus item.calls 1
  inputTokens := plus item.inputTokens bound.inputTokens
  outputTokens := plus item.outputTokens bound.outputTokens
  cost := plus item.cost bound.cost
  version := plus item.version 1

def Item.exceeds (item : Item) (caps : Stable) : Bool :=
  caps.maxCalls < item.calls || caps.maxInputTokens < item.inputTokens ||
    caps.maxOutputTokens < item.outputTokens || caps.maxCost < item.cost

inductive Phase where
  | started
  | bounded (bound : OperationReservation)
  /-- `tries` iterations are left. -/
  | reading (bound : OperationReservation) (tries : ℕ)
  | priced (bound : OperationReservation) (tries : ℕ) (seen : Item)
  | updating (bound : OperationReservation) (tries : ℕ) (seen : Item)
  | confirming (bound : OperationReservation)
  | returned (bound : OperationReservation)
  /-- Raised `window_expired` after its update: the reservation stays consumed. -/
  | expired (bound : OperationReservation)
  | raised (error : Raised)
deriving DecidableEq

inductive Delivery where
  /-- Applied if its condition holds, and reported so. -/
  | answered
  /-- Applied if its condition holds, and reported as a failed condition. -/
  | repeated
  /-- No answer; the request may still arrive later, or never. -/
  | lost
deriving DecidableEq

structure Answer where
  now : Int
  /-- The client factory raises, or a read fails. -/
  fails : Bool := false
  /-- A failed read reports a failed condition. -/
  conditional : Bool := false
  delivery : Delivery := .answered

structure Process where
  request : Request
  phase : Phase

/-- The item, the calls, and the updates that may still arrive. -/
structure State where
  item : Item
  processes : List Process := []
  inFlight : List (Item × OperationReservation) := []

def again (bound : OperationReservation) (tries : ℕ) : Phase :=
  if tries ≤ 1 then .raised (.denied .contended) else .reading bound (tries - 1)

def update (item seen : Item) (bound : OperationReservation) : Item :=
  if item = seen then charge seen bound else item

section
variable (ctx : DecimalContext) (maxTokens : List UInt8 → Option Int) (profile : Profile)

def inWindow (now : Int) : Bool :=
  profile.expected.windowStart ≤ now && now < profile.expected.windowEnd

/-- One action of a call: its next phase and what it does to the item and the network. -/
def Phase.act (request : Request) (answer : Answer) (s : State) : Phase → Phase × State
  | .started => match bound ctx maxTokens profile request with
    | .error error => (.raised error, s)
    | .ok bound => (.bounded bound, s)
  | .bounded bound =>
    if inWindow profile answer.now = false then (.raised (.denied .windowExpired), s)
    else if answer.fails then (.raised .client, s)
    else (.reading bound 8, s)
  | .reading bound tries =>
    if answer.fails then
      (if answer.conditional then again bound tries
        else .raised (.denied .reservationUnknown), s)
    else if s.item.stable ≠ profile.expected then (.raised (.denied .ledgerUnapproved), s)
    else if (charge s.item bound).exceeds profile.expected then (.raised (.denied .exhausted), s)
    else (.priced bound tries s.item, s)
  | .priced bound tries seen =>
    if inWindow profile answer.now = false then (.raised (.denied .windowExpired), s)
    else (.updating bound tries seen, s)
  | .updating bound tries seen => match answer.delivery with
    | .answered => (if s.item = seen then .confirming bound else again bound tries,
        { s with item := update s.item seen bound })
    | .repeated => (again bound tries, { s with item := update s.item seen bound })
    | .lost => (.raised (.denied .reservationUnknown),
        { s with inFlight := s.inFlight ++ [(seen, bound)] })
  | .confirming bound =>
    if inWindow profile answer.now = false then (.expired bound, s) else (.returned bound, s)
  | .returned bound => (.returned bound, s)
  | .expired bound => (.expired bound, s)
  | .raised error => (.raised error, s)

inductive Event where
  | enter (request : Request)
  | act (i : ℕ) (answer : Answer)
  /-- An unanswered update arrives. -/
  | deliver (k : ℕ)

def step (s : State) : Event → State
  | .enter request => { s with processes := s.processes ++ [⟨request, .started⟩] }
  | .act i answer => match s.processes[i]? with
    | none => s
    | some p =>
      let next := p.phase.act ctx maxTokens profile p.request answer s
      { next.2 with processes := s.processes.set i { p with phase := next.1 } }
  | .deliver k => match s.inFlight[k]? with
    | none => s
    | some (seen, bound) => { s with
        item := update s.item seen bound
        inFlight := s.inFlight.eraseIdx k }

def run (s : State) (events : List Event) : State :=
  events.foldl (step ctx maxTokens profile) s

end
end AppraisalReview.CompetitionBudget
