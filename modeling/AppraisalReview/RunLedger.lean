import AppraisalReview.JobContracts
import Mathlib.Logic.Function.Basic
import Mathlib.Tactic.Common

set_option autoImplicit false

/-!
# Workflow run ledgers

A ledger reserves a run for one owner, keeps its remaining budget and caches its
terminal result. One implementation keeps records in memory, the other rows of a
SQLite table. The columns of a row hold the values whose JSON they store. `τ` is
the type of the owner tokens and `β` what a result carries besides its run, its
termination and its budget; `accepts` is the validator of a result.
-/
namespace AppraisalReview.RunLedger

/-- What an operation raises: a validation error or one of the ledgers' denials. -/
inductive Rejection where
  | invalid
  | budgetIncrease | timeIncrease
  | identityConflict | reserved | unknownOwner | stale | quarantined | cannotComplete
  | storedConflict
deriving DecidableEq

def Rejection.text : Rejection → String
  | .invalid => "validation error"
  | .budgetIncrease => "Run budget cannot increase"
  | .timeIncrease => "Run time allowance cannot increase"
  | .identityConflict => "Run identity conflict"
  | .reserved => "Run already reserved or quarantined"
  | .unknownOwner => "Unknown run owner"
  | .stale => "Stale run owner"
  | .quarantined => "Run is quarantined"
  | .cannotComplete => "Result cannot complete this reserved run"
  | .storedConflict => "Stored result conflicts with run authority"

structure Budget where
  stepsRemaining : Int
  modelCallsRemaining : Int
  retriesRemaining : Int
  timeRemainingMs : Option Int := none
deriving DecidableEq

def Budget.valid (budget : Budget) : Bool :=
  0 ≤ budget.stepsRemaining && 0 ≤ budget.modelCallsRemaining && 0 ≤ budget.retriesRemaining &&
    budget.timeRemainingMs.all (0 ≤ ·)

/-- `model_validate_json(value.model_dump_json())` -/
def Budget.revalidate (budget : Budget) : Except Rejection Budget :=
  if budget.valid then .ok budget else .error .invalid

def validRun (run : RunReference) : Bool :=
  run.runtimeSessionId ≠ some "" && (run.runtimeSessionId.isNone || run.attemptId.isSome)

def decreased (before after : Budget) : Except Rejection Unit :=
  if before.stepsRemaining < after.stepsRemaining then .error .budgetIncrease
  else if before.modelCallsRemaining < after.modelCallsRemaining then .error .budgetIncrease
  else if before.retriesRemaining < after.retriesRemaining then .error .budgetIncrease
  else match before.timeRemainingMs, after.timeRemainingMs with
    | none, none => .ok ()
    | some before, some after => if before < after then .error .timeIncrease else .ok ()
    | _, _ => .error .timeIncrease

inductive WorkflowTermination where
  | verified | waitingForHuman | budgetExhausted | noProgress | permanentFailure
deriving DecidableEq

def WorkflowTermination.successful : WorkflowTermination → Bool
  | .verified => true
  | .waitingForHuman => true
  | _ => false

section
variable (τ β : Type)

structure BoundedWorkflowResult where
  run : RunReference
  termination : WorkflowTermination
  finalBudget : Budget
  body : β
deriving DecidableEq

structure WorkflowRunReservation where
  run : RunReference
  token : τ
deriving DecidableEq

inductive Call where
  | acquire (run : RunReference) (initialBudget : Budget)
  | assertActive (owner : WorkflowRunReservation τ)
  | remaining (owner : WorkflowRunReservation τ)
  | checkpoint (owner : WorkflowRunReservation τ) (budget : Budget)
  | quarantine (owner : WorkflowRunReservation τ)
  | release (owner : WorkflowRunReservation τ)
  | complete (owner : WorkflowRunReservation τ) (result : BoundedWorkflowResult β)
  | abandon (owner : WorkflowRunReservation τ)

inductive Reply where
  | reservation (owner : WorkflowRunReservation τ)
  | replay (result : BoundedWorkflowResult β)
  | budget (budget : Budget)
  | done
deriving DecidableEq

structure RunRecord where
  run : RunReference
  budget : Budget
  owner : Option τ := none
  quarantined : Bool := false
  result : Option (BoundedWorkflowResult β) := none

abbrev Memory := UUID → Option (RunRecord τ β)

/-- A row of `workflow_run_ledger_v1`; nothing reads the reservation token. -/
structure Row where
  runJson : RunReference
  budgetJson : Budget
  ownerToken : Option τ := none
  reservationToken : Option τ := none
  quarantined : ℕ := 0
  resultJson : Option (BoundedWorkflowResult β) := none

abbrev Table := UUID → Option (Row τ β)

end

section
variable {τ β : Type} [DecidableEq τ] (accepts : BoundedWorkflowResult β → Bool)

def BoundedWorkflowResult.revalidate (result : BoundedWorkflowResult β) :
    Except Rejection (BoundedWorkflowResult β) :=
  if accepts result && result.finalBudget.valid && validRun result.run then .ok result
  else .error .invalid

abbrev Memory.Outcome (τ β : Type) := Memory τ β × Except Rejection (Reply τ β)

def Memory.put (s : Memory τ β) (record : RunRecord τ β) : Memory τ β :=
  Function.update s record.run.runId (some record)

def Memory.acquire (s : Memory τ β) (token : τ) (run : RunReference) (initialBudget : Budget) :
    Memory.Outcome τ β :=
  if validRun run = false then (s, .error .invalid)
  else match initialBudget.revalidate with
  | .error error => (s, .error error)
  | .ok initialBudget =>
    let record := (s run.runId).getD { run := run, budget := initialBudget }
    let s : Memory τ β := Function.update s run.runId (some record)
    if record.run ≠ run then (s, .error .identityConflict)
    else match record.result with
    | some result => (s, .ok (.replay result))
    | none =>
      if record.owner.isSome || record.quarantined then (s, .error .reserved)
      else (s.put { record with owner := some token }, .ok (.reservation ⟨run, token⟩))

def Memory.owned (s : Memory τ β) (owner : WorkflowRunReservation τ) :
    Except Rejection (RunRecord τ β) :=
  match s owner.run.runId with
  | none => .error .stale
  | some record =>
    if record.run ≠ owner.run ∨ record.owner ≠ some owner.token ∨ record.result.isSome then
      .error .stale
    else .ok record

def Memory.onOwned (s : Memory τ β) (owner : WorkflowRunReservation τ)
    (body : RunRecord τ β → Except Rejection (RunRecord τ β × Reply τ β)) : Memory.Outcome τ β :=
  match s.owned owner with
  | .error error => (s, .error error)
  | .ok record => match body record with
    | .error error => (s, .error error)
    | .ok (record, reply) => (s.put record, .ok reply)

def Memory.step (s : Memory τ β) (token : τ) : Call τ β → Memory.Outcome τ β
  | .acquire run initialBudget => s.acquire token run initialBudget
  | .assertActive owner => s.onOwned owner fun record =>
    if record.quarantined then .error .quarantined else .ok (record, .done)
  | .remaining owner => s.onOwned owner fun record => do
    let budget ← record.budget.revalidate
    .ok (record, .budget budget)
  | .checkpoint owner budget => match budget.revalidate with
    | .error error => (s, .error error)
    | .ok budget => s.onOwned owner fun record => do
      decreased record.budget budget
      .ok ({ record with budget := budget }, .done)
  | .quarantine owner => s.onOwned owner fun record =>
    .ok ({ record with quarantined := true }, .done)
  | .release owner => s.onOwned owner fun record => .ok ({ record with owner := none }, .done)
  | .complete owner result => match result.revalidate accepts with
    | .error error => (s, .error error)
    | .ok result => s.onOwned owner fun record => do
      if result.run ≠ record.run ∨ record.quarantined ∧ result.termination.successful then
        .error .cannotComplete
      decreased record.budget result.finalBudget
      .ok ({ record with budget := result.finalBudget, result := some result, owner := none },
        .done)
  | .abandon owner => s.onOwned owner fun record =>
    .ok ({ record with quarantined := true, owner := none }, .done)

def transaction (t : Table τ β) (body : Except Rejection (Table τ β × Reply τ β)) :
    Table τ β × Except Rejection (Reply τ β) :=
  match body with
  | .error error => (t, .error error)
  | .ok (t, reply) => (t, .ok reply)

def sameRun (row : Row τ β) (run : RunReference) : Except Rejection Unit :=
  if row.runJson ≠ run then .error .identityConflict else .ok ()

/-- `INSERT … ON CONFLICT(run_id) DO NOTHING` -/
def Table.insert (t : Table τ β) (run : RunReference) (budget : Budget) : Table τ β :=
  Function.update t run.runId
    (some ((t run.runId).getD { runJson := run, budgetJson := budget }))

/-- `UPDATE … WHERE run_id = ?` -/
def Table.modify (t : Table τ β) (run : RunReference) (change : Row τ β → Row τ β) : Table τ β :=
  Function.update t run.runId ((t run.runId).map change)

def Table.acquire (t : Table τ β) (token : τ) (run : RunReference) (initialBudget : Budget) :
    Except Rejection (Table τ β × Reply τ β) := do
  if validRun run = false then .error .invalid
  let initialBudget ← initialBudget.revalidate
  let t := t.insert run initialBudget
  match t run.runId with
  | none => .error .unknownOwner
  | some row =>
    sameRun row run
    match row.resultJson with
    | some result =>
      if result.run ≠ run ∨ row.quarantined ≠ 0 ∧ result.termination.successful then
        .error .storedConflict
      else .ok (t, .replay result)
    | none =>
      if row.ownerToken.isSome || row.quarantined ≠ 0 then .error .reserved
      else .ok (t.modify run fun row =>
        { row with ownerToken := some token, reservationToken := some token },
          .reservation ⟨run, token⟩)

def Table.owned (t : Table τ β) (owner : WorkflowRunReservation τ) : Except Rejection (Row τ β) :=
  match t owner.run.runId with
  | none => .error .unknownOwner
  | some row => do
    sameRun row owner.run
    if row.ownerToken ≠ some owner.token ∨ row.resultJson.isSome then .error .stale else .ok row

def Row.decreased (row : Row τ β) (budget : Budget) : Except Rejection Budget := do
  let budget ← budget.revalidate
  RunLedger.decreased row.budgetJson budget
  .ok budget

def Table.step (t : Table τ β) (token : τ) : Call τ β → Table τ β × Except Rejection (Reply τ β)
  | .acquire run initialBudget => transaction t (t.acquire token run initialBudget)
  | .assertActive owner => transaction t do
    let row ← t.owned owner
    if row.quarantined ≠ 0 then .error .quarantined else .ok (t, .done)
  | .remaining owner => transaction t do
    let row ← t.owned owner
    let budget ← row.budgetJson.revalidate
    .ok (t, .budget budget)
  | .checkpoint owner budget => transaction t do
    let row ← t.owned owner
    let serialized ← row.decreased budget
    .ok (t.modify owner.run fun row => { row with budgetJson := serialized }, .done)
  | .quarantine owner => transaction t do
    let _ ← t.owned owner
    .ok (t.modify owner.run fun row => { row with quarantined := 1 }, .done)
  | .release owner => transaction t do
    let _ ← t.owned owner
    .ok (t.modify owner.run fun row => { row with ownerToken := none }, .done)
  | .complete owner result => match result.revalidate accepts with
    | .error error => (t, .error error)
    | .ok result => transaction t do
      let row ← t.owned owner
      if result.run ≠ owner.run ∨ row.quarantined ≠ 0 ∧ result.termination.successful then
        .error .cannotComplete
      let serialized ← row.decreased result.finalBudget
      .ok (t.modify owner.run fun row =>
        { row with budgetJson := serialized, resultJson := some result, ownerToken := none }, .done)
  | .abandon owner => transaction t do
    let _ ← t.owned owner
    .ok (t.modify owner.run fun row => { row with quarantined := 1, ownerToken := none }, .done)

end

section
variable {β σ : Type}

/-- The token of the acquire at a place of a run is drawn at that place, so a caller
names the reservation it got by that place. -/
def WorkflowRunReservation.issue (tokens : ℕ → σ) (owner : WorkflowRunReservation ℕ) :
    WorkflowRunReservation σ :=
  ⟨owner.run, tokens owner.token⟩

def Call.issue (tokens : ℕ → σ) : Call ℕ β → Call σ β
  | .acquire run initialBudget => .acquire run initialBudget
  | .assertActive owner => .assertActive (owner.issue tokens)
  | .remaining owner => .remaining (owner.issue tokens)
  | .checkpoint owner budget => .checkpoint (owner.issue tokens) budget
  | .quarantine owner => .quarantine (owner.issue tokens)
  | .release owner => .release (owner.issue tokens)
  | .complete owner result => .complete (owner.issue tokens) result
  | .abandon owner => .abandon (owner.issue tokens)

def Reply.issue (tokens : ℕ → σ) : Reply ℕ β → Reply σ β
  | .reservation owner => .reservation (owner.issue tokens)
  | .replay result => .replay result
  | .budget remaining => .budget remaining
  | .done => .done

variable [DecidableEq σ] (accepts : BoundedWorkflowResult β → Bool)

/-- The ledger after the calls, of which the first is the `n`-th of the run. -/
def Memory.play (tokens : ℕ → σ) (n : ℕ) (s : Memory σ β) : List (Call ℕ β) → Memory σ β
  | [] => s
  | call :: calls =>
    Memory.play tokens (n + 1) (s.step accepts (tokens n) (call.issue tokens)).1 calls

def Memory.replies (tokens : ℕ → σ) (n : ℕ) (s : Memory σ β) :
    List (Call ℕ β) → List (Except Rejection (Reply σ β))
  | [] => []
  | call :: calls =>
    let next := s.step accepts (tokens n) (call.issue tokens)
    next.2 :: Memory.replies tokens (n + 1) next.1 calls

def Table.play (tokens : ℕ → σ) (n : ℕ) (t : Table σ β) : List (Call ℕ β) → Table σ β
  | [] => t
  | call :: calls =>
    Table.play tokens (n + 1) (t.step accepts (tokens n) (call.issue tokens)).1 calls

def Table.replies (tokens : ℕ → σ) (n : ℕ) (t : Table σ β) :
    List (Call ℕ β) → List (Except Rejection (Reply σ β))
  | [] => []
  | call :: calls =>
    let next := t.step accepts (tokens n) (call.issue tokens)
    next.2 :: Table.replies tokens (n + 1) next.1 calls

end
end AppraisalReview.RunLedger
