import AppraisalReview.Dict
import AppraisalReview.DocumentModels

set_option autoImplicit false

/-!
# Review contracts

Inventory, observations and trusted policy are separate inputs of a review.
-/
namespace AppraisalReview
open CanonicalJson

inductive Scope where
  | regional | individual
deriving DecidableEq

def Scope.text : Scope → String
  | .regional => "regional"
  | .individual => "individual"

structure ComparisonContext where
  scope : Scope
  targetId : String
  comparableId : String
deriving DecidableEq

def ComparisonContext.key (context : ComparisonContext) : String :=
  dumps (.array [.string context.scope.text, .string context.targetId,
    .string context.comparableId])

def ComparisonContext.valid (context : ComparisonContext) : Bool :=
  context.targetId ≠ "" && context.comparableId ≠ ""

theorem Scope.text_injective : Function.Injective Scope.text := by
  intro a b h
  cases a <;> cases b <;> first | rfl | exact absurd h (by decide)

theorem ComparisonContext.key_injective : Function.Injective ComparisonContext.key := by
  rintro ⟨scope, target, comparable⟩ ⟨scope', target', comparable'⟩ h
  have hjson := dumps_injective h
  simp only [Json.array.injEq, List.cons.injEq, Json.string.injEq, and_true] at hjson
  obtain ⟨hscope, rfl, rfl⟩ := hjson
  rw [Scope.text_injective hscope]

/-- A day, counted as `date.toordinal` does. -/
abbrev Date := ℕ

structure CaseIdentity where
  caseId : String
  version : String
  district : String
  zone : String
  landUseCategory : String
  effectiveDate : Date
deriving DecidableEq

inductive SlotValue where
  | targetGrade | comparableGrade | adjustmentPercent | subtotal | total
deriving DecidableEq

def SlotValue.factorBound : SlotValue → Bool
  | .targetGrade | .comparableGrade | .adjustmentPercent => true
  | _ => false

def SlotValue.grade : SlotValue → Bool
  | .targetGrade | .comparableGrade => true
  | _ => false

/-- A required field from the reviewed inventory, never inferred from successful output. -/
structure ReviewSlot where
  id : String
  context : ComparisonContext
  factorId : Option String := none
  value : SlotValue
  derivableBlank : Bool := false
  evidence : List SourceCitation

structure InventoryContext where
  context : ComparisonContext
  factorIds : List String
  evidence : List SourceCitation

structure EmptyColumn where
  id : String
  evidence : List SourceCitation

inductive CheckKind where
  | sum | equals
deriving DecidableEq

def CheckKind.text : CheckKind → String
  | .sum => "sum"
  | .equals => "equals"

structure ArithmeticCheck where
  id : String
  kind : CheckKind
  inputs : List String
  target : String
  quantum : Decimal := ⟨false, 1, -2⟩
  tolerance : Decimal := ⟨false, 0, 0⟩
  evidence : List SourceCitation

structure ReviewInventory where
  contexts : List InventoryContext
  slots : List ReviewSlot
  checks : List ArithmeticCheck := []
  emptyColumns : List EmptyColumn := []
  inspectedPages : Dict String (List ℤ)
  inspectedTables : Dict String (List String) := Dict.empty
  unresolved : List String := []
  unsupported : List String := []

inductive ObservedState where
  | present | blank | missing | notPresent | notApplicable
deriving DecidableEq

def ObservedState.text : ObservedState → String
  | .present => "present"
  | .blank => "blank"
  | .missing => "missing"
  | .notPresent => "not_present"
  | .notApplicable => "not_applicable"

inductive ObservedUnit where
  | percentPoints | ratio | grade
deriving DecidableEq

inductive ObservedContent where
  | text (value : String)
  | number (value : Decimal)
deriving DecidableEq

structure ObservedValue where
  slotId : String
  state : ObservedState
  value : Option ObservedContent := none
  unit : Option ObservedUnit := none
  rawText : String
  evidence : List SourceCitation := []

structure FactConfirmation where
  reviewer : String
  inputDigest : String
deriving DecidableEq

inductive ConfidenceKind where
  | unknown | localizationOnly | measured
deriving DecidableEq

def ConfidenceKind.text : ConfidenceKind → String
  | .unknown => "unknown"
  | .localizationOnly => "localization_only"
  | .measured => "measured"

inductive Provenance where
  | unknown | parserRegistry | nativeExtraction
deriving DecidableEq

def Provenance.text : Provenance → String
  | .unknown => "unknown"
  | .parserRegistry => "parser_registry"
  | .nativeExtraction => "native_extraction"

inductive ReliabilityMethod where
  | nativeNumeric | reviewerConfirmed | modelProposed
deriving DecidableEq

inductive ReliabilitySelection where
  | checked | unchecked | ambiguous | notApplicable
deriving DecidableEq

def ReliabilitySelection.text : ReliabilitySelection → String
  | .checked => "checked"
  | .unchecked => "unchecked"
  | .ambiguous => "ambiguous"
  | .notApplicable => "not_applicable"

structure Reliability where
  confidenceKind : ConfidenceKind := .unknown
  provenance : Provenance := .unknown
  producer : Option String := none
  confirmation : Option FactConfirmation := none
  modelConfidence : Option Binary64 := none
  method : ReliabilityMethod
  selection : ReliabilitySelection
  unresolved : List String := []
deriving DecidableEq

inductive EvaluationStatus where
  | verified | needsReview | failed
deriving DecidableEq

def EvaluationStatus.text : EvaluationStatus → String
  | .verified => "verified"
  | .needsReview => "needs_review"
  | .failed => "failed"

structure ReviewFinding where
  id : String
  kind : String
  status : EvaluationStatus
  context : Option ComparisonContext := none
  factorId : Option String := none
  ruleId : Option String := none
  ruleVersion : Option String := none
  observed : Option String := none
  expected : Option String := none
  evidence : List SourceCitation := []
  trace : String
  originatingFieldIds : List String := []

structure Coverage where
  required : List String
  verified : List String
  missing : List String
  unsupported : List String

def cited (evidence : List SourceCitation) : Bool :=
  evidence ≠ [] && evidence.all SourceCitation.valid

def ReviewSlot.valid (slot : ReviewSlot) : Bool := slot.context.valid && cited slot.evidence

def InventoryContext.valid (entry : InventoryContext) : Bool :=
  entry.context.valid && entry.factorIds ≠ [] && cited entry.evidence

def EmptyColumn.valid (column : EmptyColumn) : Bool := cited column.evidence

def significant (n : ℕ) : ℕ :=
  Decimal.natOf ((Nat.toDigits 10 n).reverse.dropWhile (· = '0')).reverse

/-- `quantum.normalize().as_tuple().digits == (1,)`, where the context rounds first. -/
def powerOfTen (ctx : DecimalContext) (quantum : Decimal) : Bool :=
  match Decimal.finalize ctx quantum with
  | .ok rounded => significant rounded.coefficient = 1
  | .error _ => false

def ArithmeticCheck.valid (ctx : DecimalContext) (check : ArithmeticCheck) : Bool :=
  check.inputs ≠ [] && (Decimal.ofNat 0).lt check.quantum &&
    (Decimal.ofNat 0).le check.tolerance && cited check.evidence &&
    check.target ∉ check.inputs && (check.kind ≠ .equals || check.inputs.length = 1) &&
    powerOfTen ctx check.quantum

def ReviewInventory.valid (ctx : DecimalContext) (inventory : ReviewInventory) : Bool :=
  inventory.contexts ≠ [] && inventory.slots ≠ [] &&
    inventory.contexts.all InventoryContext.valid && inventory.slots.all ReviewSlot.valid &&
    inventory.checks.all (ArithmeticCheck.valid ctx) && inventory.emptyColumns.all EmptyColumn.valid

def ObservedValue.valid (observed : ObservedValue) : Bool :=
  (decide (observed.state = .present) == observed.value.isSome) &&
    observed.evidence.all SourceCitation.valid

def FactConfirmation.valid (confirmation : FactConfirmation) : Bool :=
  confirmation.reviewer ≠ "" && digestText confirmation.inputDigest

def Reliability.valid (reliability : Reliability) : Bool :=
  reliability.producer ≠ some "" && reliability.confirmation.all FactConfirmation.valid &&
    reliability.modelConfidence.all Binary64.unit

end AppraisalReview
