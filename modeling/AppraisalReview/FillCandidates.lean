import AppraisalReview.FactorModels

set_option autoImplicit false

/-!
# One immutable candidate, validated against every constraint before reuse
-/
namespace AppraisalReview

def signalled {α : Type} : Except Signal α → Except Escape α
  | .ok x => .ok x
  | .error signal => .error (.arithmetic signal)

def calculate (ctx : DecimalContext) (kind : CheckKind) (inputs : List Decimal)
    (quantum : Option Decimal) : Except Escape Decimal :=
  match inputs with
  | [] => .error (.valueError "Finite numeric inputs are required")
  | first :: _ => do
    let result ← match kind with
      | .sum => signalled (Decimal.sum ctx inputs)
      | .equals => pure first
    match quantum with
    | some quantum => signalled (Decimal.quantize ctx result quantum)
    | none => return result

inductive Candidate where
  | number (value : Decimal)
  | text (value : String)
deriving DecidableEq

def Candidate.same : Candidate → Candidate → Bool
  | .number a, .number b => a.same b
  | .text a, .text b => a = b
  | _, _ => false

def Candidate.shown : Candidate → String
  | .number value => value.text
  | .text value => value

def ObservedContent.shown : ObservedContent → String
  | .text value => value
  | .number value => value.text

/-- `Decimal(str(value))`; a stored decimal survives the round trip unchanged. -/
def ObservedContent.decimal (rt : Runtime) : ObservedContent → Except Escape Decimal
  | .number value => .ok value
  | .text value =>
    match Decimal.ofText rt.decimalDigit value with
    | .finite d => .ok d
    | .nonfinite => .error (.valueError "Nonfinite observed value")
    | .malformed => .error (.arithmetic .invalidOperation)

def percent (rt : Runtime) (ctx : DecimalContext) (value : ObservedValue) : Except Escape Decimal :=
  if value.state ≠ .present ∨ ¬(value.unit = some .percentPoints ∨ value.unit = some .ratio) then
    .error (.valueError "A present numeric value with an explicit percent unit is required")
  else do
    let result ← match value.value with
      | some content => content.decimal rt
      | none => throw (.arithmetic .invalidOperation)
    if value.unit = some .ratio then signalled (Decimal.mul ctx result (Decimal.ofNat 100))
    else return result

structure ArithmeticComparison where
  check : ArithmeticCheck
  expected : Decimal

def ArithmeticComparison.matches (ctx : DecimalContext) (comparison : ArithmeticComparison)
    (actual : Decimal) : Except Escape Bool := do
  let difference ← signalled (Decimal.sub ctx comparison.expected actual)
  return difference.absolute.le comparison.check.tolerance

/-- `isinstance(candidate, Decimal) and comparison.matches(candidate)` -/
def ArithmeticComparison.accepts (ctx : DecimalContext) (comparison : ArithmeticComparison) :
    Option Candidate → Except Escape Bool
  | some (.number value) => comparison.matches ctx value
  | _ => .ok false

def agreedExpectation : List ArithmeticComparison → Option Decimal
  | [] => none
  | first :: rest =>
    if rest.all fun c => c.expected.same first.expected then some first.expected else none

structure ValidatedSlot where
  candidate : Option Candidate
  expected : Option Candidate
  status : EvaluationStatus
  kind : String
  trace : String

def ValidatedSlot.trustedNumber (slot : ValidatedSlot) : Option Decimal :=
  match slot.status, slot.candidate with
  | .verified, some (.number value) => some value
  | _, _ => none

def blankContradicted (original : ObservedValue) : Bool :=
  strip original.rawText.toList ≠ [] ||
    original.evidence.any fun ref => strip ref.excerpt.toList ≠ []

/-- The expectation: the independent value, or else what all constraints agree on. -/
def expectation (independent : Option Candidate) (constraints : List ArithmeticComparison) :
    Option Candidate :=
  independent.or ((agreedExpectation constraints).map .number)

/-- What the observation proposes, before any comparison; an error is a finding kind and trace. -/
def proposal (rt : Runtime) (ctx : DecimalContext) (slot : ReviewSlot) (original : ObservedValue)
    (expected : Option Candidate) : Except Escape (Except (String × String) (Option Candidate)) :=
  match original.state with
  | .blank =>
    if blankContradicted original then
      .ok (.error ("blank_contradiction", "Claimed blank references nonblank text"))
    else if !slot.derivableBlank then
      .ok (.error ("observed_unresolved", "Blank is not approved for derivation"))
    else .ok (.ok expected)
  | .present =>
    if slot.value.grade ∧ original.unit = some .grade then
      .ok (.ok (some (.text (original.value.elim "None" ObservedContent.shown))))
    else
      match percent rt ctx original with
      | .ok number => .ok (.ok (some (.number number)))
      | .error (.arithmetic .overflow) => .error (.arithmetic .overflow)
      | .error _ => .ok (.error ("observed_unresolved", "Observed value/unit is unresolved"))
  | state => .ok (.error ("observed_unresolved", "Observed state: " ++ state.text))

/-- A present total is held against the engine's total at each check's own quantum. -/
def matchesRounded (ctx : DecimalContext) (independent candidate : Option Candidate)
    (constraint : ArithmeticComparison) : Except Escape Bool :=
  match independent, candidate with
  | some (.number total), some (.number value) => do
    let expected ← calculate ctx .equals [total] (some constraint.check.quantum)
    ArithmeticComparison.matches ctx ⟨constraint.check, expected⟩ value
  | _, _ => .ok false

/-- Whether the candidate satisfies the constraints and the independent value. -/
def satisfied (ctx : DecimalContext) (slot : ReviewSlot) (original : ObservedValue)
    (independent expected candidate : Option Candidate) (constraints : List ArithmeticComparison) :
    Except Escape Bool := do
  let equal ← constraints.allM fun c => c.accepts ctx candidate
  match independent with
  | none => return equal
  | some _ =>
    if slot.factorId = none ∧ constraints ≠ [] ∧ original.state = .present then
      if equal then constraints.allM (matchesRounded ctx independent candidate) else return false
    else return equal && (match candidate, expected with
      | some a, some b => a.same b
      | _, _ => false)

def comparisonTrace (constraints : List ArithmeticComparison) : String :=
  if constraints = [] then "Observed or proposed value checked against independent calculation"
  else "One candidate checked against every constraint: " ++
    String.intercalate ", " (constraints.map fun c => c.check.id)

def validateSlot (rt : Runtime) (ctx : DecimalContext) (slot : ReviewSlot) (original : ObservedValue)
    (independent : Option Candidate) (constraints : List ArithmeticComparison)
    (ready authorized : Bool) : Except Escape ValidatedSlot := do
  let expected := expectation independent constraints
  match ← proposal rt ctx slot original expected with
  | .error (kind, trace) => return ⟨none, expected, .needsReview, kind, trace⟩
  | .ok candidate =>
    if !ready then
      return ⟨candidate, expected, .needsReview, "arithmetic_dependency",
        "Not every derivation dependency is validated"⟩
    else if !authorized then
      return ⟨candidate, expected, .needsReview, "observed_unresolved",
        "Current source and exact-material authority required"⟩
    else if candidate = none ∨ expected = none ∧ constraints = [] then
      return ⟨candidate, expected, .needsReview, "observed_missing",
        "No unique independently grounded fill candidate"⟩
    else
      let equal ← satisfied ctx slot original independent expected candidate constraints
      return ⟨candidate, expected, if equal then .verified else .failed,
        if original.state = .blank then "derivable_blank" else "observed_comparison",
        comparisonTrace constraints⟩

end AppraisalReview
