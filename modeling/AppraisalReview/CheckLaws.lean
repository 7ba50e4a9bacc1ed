import AppraisalReview.CaseReview
import AppraisalReview.Raising

set_option autoImplicit false

/-!
# Validation of one slot

What a verified slot rests on, and the fact that validating a slot looks at
the numbers of its checks' inputs only.
-/
namespace AppraisalReview
open TopologicalSort Raising

variable {rt : Runtime} {ctx : DecimalContext}

/-- A candidate that satisfies its constraints and the independent value. -/
structure Satisfied (ctx : DecimalContext) (slot : ReviewSlot) (original : ObservedValue)
    (independent : Option Candidate) (candidate : Candidate)
    (constraints : List ArithmeticComparison) : Prop where
  accepts : ∀ c ∈ constraints, c.accepts ctx (some candidate) = .ok true
  rounded : independent.isSome = true → slot.factorId = none → original.state = .present →
    ∀ c ∈ constraints, matchesRounded ctx independent (some candidate) c = .ok true
  equal : ∀ value, independent = some value →
    ¬(slot.factorId = none ∧ constraints ≠ [] ∧ original.state = .present) →
    candidate.same value = true

theorem satisfied_true {slot : ReviewSlot} {original : ObservedValue}
    {independent : Option Candidate} {candidate : Candidate}
    {constraints : List ArithmeticComparison}
    (h : satisfied ctx slot original independent (expectation independent constraints)
      (some candidate) constraints = .ok true) :
    Satisfied ctx slot original independent candidate constraints := by
  obtain ⟨equal, hequal, h⟩ := bind_ok.mp h
  cases independent with
  | none =>
    cases pure_ok.mp h
    exact ⟨allM_true.mp hequal, fun hnone => absurd hnone Bool.false_ne_true,
      fun value hvalue => by cases hvalue⟩
  | some value =>
    simp only at h
    split at h
    · rename_i hcase
      cases equal with
      | true =>
        exact ⟨allM_true.mp hequal, fun _ _ _ => allM_true.mp h,
          fun _ _ hnot => absurd hcase hnot⟩
      | false => exact absurd (pure_ok.mp h) Bool.false_ne_true
    · rename_i hcase
      have hboth := pure_ok.mp h
      rw [Bool.and_eq_true] at hboth
      obtain ⟨rfl, hsame⟩ := hboth
      refine ⟨allM_true.mp hequal, ?_, ?_⟩
      · intro _ hfactor hpresent c hc
        exact absurd ⟨hfactor, List.ne_nil_of_mem hc, hpresent⟩ hcase
      · intro value' hvalue _
        cases hvalue
        exact hsame

structure SlotValidation (rt : Runtime) (ctx : DecimalContext) (slot : ReviewSlot)
    (original : ObservedValue) (independent : Option Candidate)
    (constraints : List ArithmeticComparison) (candidate : Candidate) : Prop where
  proposed : proposal rt ctx slot original (expectation independent constraints) =
    .ok (.ok (some candidate))
  grounded : independent ≠ none ∨ constraints ≠ []
  satisfied : Satisfied ctx slot original independent candidate constraints

theorem validateSlot_verified {slot : ReviewSlot} {original : ObservedValue}
    {independent : Option Candidate} {constraints : List ArithmeticComparison}
    {ready authorized : Bool} {validated : ValidatedSlot}
    (h : validateSlot rt ctx slot original independent constraints ready authorized = .ok validated)
    (hverified : validated.status = .verified) :
    ready = true ∧ authorized = true ∧ ∃ candidate, validated.candidate = some candidate ∧
      SlotValidation rt ctx slot original independent constraints candidate := by
  obtain ⟨outcome, hproposal, h⟩ := bind_ok.mp h
  cases outcome with
  | error reason =>
    cases pure_ok.mp h
    cases hverified
  | ok candidate =>
    simp only at h
    split at h
    · cases pure_ok.mp h
      cases hverified
    · rename_i hready
      split at h
      · cases pure_ok.mp h
        cases hverified
      · rename_i hauthorized
        split at h
        · cases pure_ok.mp h
          cases hverified
        · rename_i hgrounded
          obtain ⟨equal, hequal, h⟩ := bind_ok.mp h
          cases pure_ok.mp h
          cases equal with
          | false => cases hverified
          | true =>
            rw [not_or] at hgrounded
            obtain ⟨value, rfl⟩ := Option.ne_none_iff_exists'.mp hgrounded.1
            refine ⟨by simpa using hready, by simpa using hauthorized, value, rfl, hproposal, ?_,
              satisfied_true hequal⟩
            by_contra hnone
            rw [not_or, not_not, not_not] at hnone
            obtain ⟨rfl, rfl⟩ := hnone
            exact hgrounded.2 ⟨rfl, rfl⟩

theorem trustedNumber_eq (validated : ValidatedSlot) (hverified : validated.status = .verified)
    (number : Decimal) :
    validated.trustedNumber = some number ↔ validated.candidate = some (.number number) := by
  obtain ⟨candidate, expected, status, kind, trace⟩ := validated
  cases hverified
  cases candidate with
  | none => simp [ValidatedSlot.trustedNumber]
  | some value => cases value <;> simp [ValidatedSlot.trustedNumber]

namespace ArithmeticPlan
variable {plan : ArithmeticPlan}

structure Calculated (rt : Runtime) (ctx : DecimalContext) (plan : ArithmeticPlan)
    (trusted : String → Option Decimal) (comparison : ArithmeticComparison) : Prop where
  defined : plan.wellDefined comparison.check = true
  acyclic : plan.cyclic = false
  inputs : ∀ name ∈ comparison.check.inputs, (trusted name).isSome = true
  bound : (plan.boundSlot comparison.check.target).isSome = true
  calculated : calculate ctx comparison.check.kind (comparison.check.inputs.filterMap trusted)
    (some comparison.check.quantum) = .ok comparison.expected

theorem examine_ok {trusted : String → Option Decimal} {check : ArithmeticCheck}
    {outcome : ReviewFinding ⊕ ArithmeticComparison}
    (h : plan.examine rt ctx trusted check = .ok outcome) :
    (∃ finding, outcome = .inl finding ∧ finding.status = .needsReview) ∨
    ∃ comparison, outcome = .inr comparison ∧ comparison.check = check ∧
      plan.Calculated rt ctx trusted comparison := by
  rw [examine] at h
  split at h
  · left
    cases h
    exact ⟨_, rfl, rfl⟩
  · rename_i hdefined
    split at h
    · left
      cases h
      exact ⟨_, rfl, rfl⟩
    · rename_i hready
      right
      obtain ⟨expected, hexpected, hpure⟩ := bind_ok.mp h
      cases pure_ok.mp hpure
      simp only [Bool.or_eq_true, Bool.not_eq_true', not_or, Bool.not_eq_true,
        Bool.not_eq_false, List.all_eq_true] at hready hdefined
      exact ⟨_, rfl, rfl, hdefined, hready.1.1, hready.1.2, by simpa using hready.2, hexpected⟩

theorem examineAll_ok {trusted : String → Option Decimal} {checks : List ArithmeticCheck}
    {stopped : List ReviewFinding} {comparisons : List ArithmeticComparison}
    (h : plan.examineAll rt ctx trusted checks = .ok (stopped, comparisons)) :
    (∀ finding ∈ stopped, finding.status = .needsReview) ∧
    (∀ comparison ∈ comparisons, comparison.check ∈ checks ∧
      plan.Calculated rt ctx trusted comparison) ∧
    (stopped = [] → comparisons.map ArithmeticComparison.check = checks) := by
  induction checks generalizing stopped comparisons with
  | nil =>
    cases h
    exact ⟨fun _ h => absurd h List.not_mem_nil, fun _ h => absurd h List.not_mem_nil,
      fun _ => rfl⟩
  | cons check rest ih =>
    rw [examineAll] at h
    obtain ⟨outcome, hexamine, h⟩ := bind_ok.mp h
    obtain ⟨⟨findings, later⟩, hrest, h⟩ := bind_ok.mp h
    obtain ⟨hstopped, hcompared, hall⟩ := ih hrest
    rcases examine_ok hexamine with ⟨finding, rfl, hopen⟩ | ⟨comparison, rfl, hcheck, hcalculated⟩
    · cases pure_ok.mp h
      refine ⟨List.forall_mem_cons.mpr ⟨hopen, hstopped⟩, ?_, fun hnil => by cases hnil⟩
      intro c hc
      exact ⟨List.mem_cons_of_mem _ (hcompared c hc).1, (hcompared c hc).2⟩
    · cases pure_ok.mp h
      refine ⟨hstopped, ?_, fun hnil => by rw [List.map_cons, hcheck, hall hnil]⟩
      intro c hc
      rcases List.mem_cons.mp hc with rfl | hc
      · exact ⟨hcheck ▸ List.mem_cons_self, hcalculated⟩
      · exact ⟨List.mem_cons_of_mem _ (hcompared c hc).1, (hcompared c hc).2⟩

theorem step_compared {trusted : String → Option Decimal} {target : String}
    {findings : List ReviewFinding} {number : Option Decimal}
    (h : plan.step rt ctx trusted target = .ok (findings, number))
    (hverified : ∀ finding ∈ findings, finding.status = .verified) :
    ∀ check ∈ checksOn plan.inventory target, ∃ comparison,
      comparison.check = check ∧ plan.Calculated rt ctx trusted comparison := by
  rw [step] at h
  obtain ⟨⟨stopped, comparisons⟩, hexamine, h⟩ := bind_ok.mp h
  obtain ⟨hstopped, hcompared, hall⟩ := examineAll_ok hexamine
  have hin : ∀ finding ∈ stopped, finding ∈ findings := by
    intro finding hfinding
    simp only at h
    split at h
    · obtain ⟨validated, -, h⟩ := bind_ok.mp h
      obtain ⟨compared, -, h⟩ := bind_ok.mp h
      cases pure_ok.mp h
      exact List.mem_append_left _ (List.mem_append_left _ hfinding)
    · cases pure_ok.mp h
      exact hfinding
  have hnil : stopped = [] := by
    rw [List.eq_nil_iff_forall_not_mem]
    intro finding hfinding
    have hopen := hstopped finding hfinding
    rw [hverified finding (hin finding hfinding)] at hopen
    cases hopen
  intro check hcheck
  rw [← hall hnil] at hcheck
  obtain ⟨comparison, hmem, heq⟩ := List.mem_map.mp hcheck
  exact ⟨comparison, heq, (hcompared comparison hmem).2⟩

structure StepVerified (rt : Runtime) (ctx : DecimalContext) (plan : ArithmeticPlan)
    (trusted : String → Option Decimal) (slot : ReviewSlot) (original : ObservedValue)
    (comparisons : List ArithmeticComparison) (candidate : Candidate) (number : Option Decimal) :
    Prop where
  checks : comparisons.map ArithmeticComparison.check = checksOn plan.inventory slot.id
  calculated : ∀ comparison ∈ comparisons, plan.Calculated rt ctx trusted comparison
  trust : plan.sourceTrust = true
  validation : SlotValidation rt ctx slot original (plan.independent slot.id) comparisons candidate
  passes : ∀ d, number = some d ↔ candidate = .number d

theorem step_verified {trusted : String → Option Decimal} {target : String}
    {findings : List ReviewFinding} {number : Option Decimal} {slot : ReviewSlot}
    {original : ObservedValue} (hslot : plan.boundSlot target = some slot)
    (hid : slot.id = target) (hobserved : observationOf plan.facts target = some original)
    (h : plan.step rt ctx trusted target = .ok (findings, number))
    (hverified : ∀ finding ∈ findings, finding.status = .verified) :
    ∃ comparisons candidate,
      plan.StepVerified rt ctx trusted slot original comparisons candidate number := by
  subst hid
  rw [step] at h
  obtain ⟨⟨stopped, comparisons⟩, hexamine, h⟩ := bind_ok.mp h
  simp only [hslot, hobserved] at h
  obtain ⟨validated, hvalidated, h⟩ := bind_ok.mp h
  obtain ⟨compared, -, h⟩ := bind_ok.mp h
  cases pure_ok.mp h
  obtain ⟨hstopped, hcompared, hall⟩ := examineAll_ok hexamine
  have hnil : stopped = [] := by
    cases stopped with
    | nil => rfl
    | cons first rest =>
      have hopen := hstopped first List.mem_cons_self
      rw [hverified first (by simp)] at hopen
      cases hopen
  have hstatus : validated.status = .verified :=
    hverified (slotFinding slot validated) (List.mem_append_right _ List.mem_cons_self)
  obtain ⟨-, htrust, candidate, hcandidate, hvalidation⟩ :=
    validateSlot_verified hvalidated hstatus
  refine ⟨comparisons, candidate, hall hnil, fun c hc => (hcompared c hc).2, htrust, hvalidation, ?_⟩
  intro d
  rw [trustedNumber_eq validated hstatus, hcandidate, Option.some.injEq]

theorem examine_congr {trusted trusted' : String → Option Decimal} {check : ArithmeticCheck}
    (h : plan.cyclic = true ∨ ∀ name ∈ check.inputs, trusted name = trusted' name) :
    plan.examine rt ctx trusted check = plan.examine rt ctx trusted' check := by
  rcases h with hcyclic | hsame
  · simp only [examine, hcyclic, Bool.true_or, if_true]
  · have hsome : (check.inputs.all fun name => (trusted name).isSome) =
        check.inputs.all fun name => (trusted' name).isSome := by
      rw [Bool.eq_iff_iff, List.all_eq_true, List.all_eq_true]
      exact ⟨fun h name hin => hsame name hin ▸ h name hin,
        fun h name hin => (hsame name hin).symm ▸ h name hin⟩
    have hvalues : check.inputs.filterMap trusted = check.inputs.filterMap trusted' :=
      List.filterMap_congr hsame
    simp only [examine, hsome, hvalues]

theorem examineAll_congr {trusted trusted' : String → Option Decimal}
    {checks : List ArithmeticCheck}
    (h : ∀ check ∈ checks, plan.cyclic = true ∨ ∀ name ∈ check.inputs, trusted name = trusted' name) :
    plan.examineAll rt ctx trusted checks = plan.examineAll rt ctx trusted' checks := by
  induction checks with
  | nil => rfl
  | cons check rest ih =>
    rw [examineAll, examineAll, examine_congr (h check List.mem_cons_self),
      ih fun c hc => h c (List.mem_cons_of_mem _ hc)]

theorem mem_checksOn {inventory : ReviewInventory} {target : String} {check : ArithmeticCheck} :
    check ∈ checksOn inventory target ↔ check ∈ inventory.checks ∧ check.target = target := by
  simp [checksOn]

theorem mem_graphKeys {inventory : ReviewInventory} {name : String} :
    name ∈ graphKeys inventory ↔ (∃ slot ∈ validSlots inventory, slot.id = name) ∨
      ∃ check ∈ inventory.checks, check.target = name := by
  simp [graphKeys, Dict.mem_fromKeys]

theorem edge_checkGraph {inventory : ReviewInventory} {a b : String} :
    Edge (checkGraph inventory) a b ↔
      ∃ check ∈ inventory.checks, check.target = b ∧ a ∈ check.inputs := by
  constructor
  · rintro ⟨before, hentry, ha⟩
    obtain ⟨name, -, heq⟩ := List.mem_map.mp hentry
    cases heq
    obtain ⟨check, hcheck, hin⟩ := List.mem_flatMap.mp ha
    obtain ⟨hmem, htarget⟩ := mem_checksOn.mp hcheck
    exact ⟨check, hmem, htarget, hin⟩
  · rintro ⟨check, hmem, rfl, hin⟩
    refine ⟨_, List.mem_map.mpr ⟨check.target, mem_graphKeys.mpr (Or.inr ⟨check, hmem, rfl⟩), rfl⟩, ?_⟩
    exact List.mem_flatMap.mpr ⟨check, mem_checksOn.mpr ⟨hmem, rfl⟩, hin⟩

/-- The graph whose edges the evaluation respects: none when the checks are cyclic. -/
def respected (plan : ArithmeticPlan) : Graph String :=
  if plan.cyclic then [] else checkGraph plan.inventory

theorem step_local : Local plan.respected (plan.step rt ctx) := by
  intro env env' target h
  have hexamine : plan.examineAll rt ctx env (checksOn plan.inventory target) =
      plan.examineAll rt ctx env' (checksOn plan.inventory target) := by
    apply examineAll_congr
    intro check hcheck
    obtain ⟨hmem, htarget⟩ := mem_checksOn.mp hcheck
    cases hcyclic : plan.cyclic with
    | true => exact Or.inl rfl
    | false =>
      right
      intro name hname
      apply h
      rw [respected, hcyclic, if_neg Bool.false_ne_true]
      exact edge_checkGraph.mpr ⟨check, hmem, htarget, hname⟩
  rw [step, step, hexamine]

end ArithmeticPlan

theorem evaluationOrder_ordered (sorter : Sorter String) (inventory : ReviewInventory)
    (plan : ArithmeticPlan) (hinventory : plan.inventory = inventory)
    (hcyclic : plan.cyclic = (evaluationOrder sorter inventory).2) :
    Ordered plan.respected [] (evaluationOrder sorter inventory).1 ∧
      ∀ name ∈ graphKeys inventory, name ∈ (evaluationOrder sorter inventory).1 := by
  cases horder : sorter.order (checkGraph inventory) with
  | none =>
    have heq : evaluationOrder sorter inventory = (graphKeys inventory, true) := by
      rw [evaluationOrder, horder]
    rw [heq] at hcyclic ⊢
    refine ⟨?_, fun name h => h⟩
    rw [ArithmeticPlan.respected, hcyclic, if_pos rfl]
    exact ordered_nil (Dict.fromKeys_nodup _) fun _ _ => List.not_mem_nil
  | some order =>
    have heq : evaluationOrder sorter inventory = (order, false) := by
      rw [evaluationOrder, horder]
    rw [heq] at hcyclic ⊢
    have hsorts := sorter.sorts horder
    constructor
    · rw [ArithmeticPlan.respected, hcyclic, if_neg Bool.false_ne_true, hinventory]
      exact hsorts.ordered
    · intro name hname
      rw [hsorts.covers]
      exact List.mem_flatMap.mpr ⟨_, List.mem_map.mpr ⟨name, hname, rfl⟩, List.mem_cons_self⟩

end AppraisalReview
