import AppraisalReview.CheckLaws
import AppraisalReview.ExactArithmetic

set_option autoImplicit false

/-!
# Checks in another order

Two plans that say the same about slots and checks evaluate a slot alike, up
to the values of its numbers and to the marks of its findings.
-/
namespace AppraisalReview
open TopologicalSort Raising Reordering

variable (rt : Runtime)

def ReviewFinding.mark (finding : ReviewFinding) : String × EvaluationStatus :=
  (finding.id, finding.status)

namespace ArithmeticPlan

structure Alike (plan plan' : ArithmeticPlan) : Prop where
  slotIds : SameElements plan.slotIds plan'.slotIds
  boundSlot : plan.boundSlot = plan'.boundSlot
  observation : observationOf plan.facts = observationOf plan'.facts
  citations : plan.registry.citationsValid = plan'.registry.citationsValid
  checks : SameElements (plan.inventory.checks.map ArithmeticCheck.content)
    (plan'.inventory.checks.map ArithmeticCheck.content)
  nonempty : ∀ check ∈ plan.inventory.checks, check.inputs ≠ []
  single : ∀ check ∈ plan.inventory.checks, check.kind = .equals → check.inputs.length = 1
  independent : plan.independent = plan'.independent
  sourceTrust : plan.sourceTrust = plan'.sourceTrust
  cyclic : plan.cyclic = plan'.cyclic

variable {plan plan' : ArithmeticPlan} {env env' : String → Option Decimal}

theorem Alike.checksOn (h : plan.Alike plan') (target : String) :
    SameElements ((checksOn plan.inventory target).map ArithmeticCheck.content)
      ((AppraisalReview.checksOn plan'.inventory target).map ArithmeticCheck.content) := by
  have hon : ∀ inventory : ReviewInventory,
      (AppraisalReview.checksOn inventory target).map ArithmeticCheck.content =
        (inventory.checks.map ArithmeticCheck.content).filter fun c => c.target = target := by
    intro inventory
    rw [List.filter_map]
    rfl
  rw [hon, hon]
  exact h.checks.filter _

theorem Alike.wellDefined (h : plan.Alike plan') {check check' : ArithmeticCheck}
    (hcontent : check.content = check'.content) :
    plan.wellDefined check = plan'.wellDefined check' := by
  have htarget : check.target = check'.target := congrArg CheckContent.target hcontent
  have hevidence : check.evidence = check'.evidence := congrArg CheckContent.evidence hcontent
  have hinputs := SameElements.of_perm (ArithmeticCheck.content_inputs hcontent)
  have hmember : ∀ name, decide (name ∈ plan.slotIds) = decide (name ∈ plan'.slotIds) :=
    fun name => decide_eq_decide.mpr (h.slotIds name)
  simp only [ArithmeticPlan.wellDefined, htarget, hevidence, h.citations, hmember,
    hinputs.all fun name => decide (name ∈ plan'.slotIds)]

theorem filterMap_value (inputs : List String) :
    (inputs.filterMap env).map Decimal.value =
      inputs.filterMap fun name => (env name).map Decimal.value := by
  rw [List.map_filterMap]

theorem filterMap_length {inputs : List String} (h : ∀ name ∈ inputs, (env name).isSome = true) :
    (inputs.filterMap env).length = inputs.length := by
  induction inputs with
  | nil => rfl
  | cons name rest ih =>
    obtain ⟨d, hd⟩ := Option.isSome_iff_exists.mp (h name List.mem_cons_self)
    rw [List.filterMap_cons_some hd, List.length_cons, List.length_cons,
      ih fun n hn => h n (List.mem_cons_of_mem _ hn)]

def outcomeKey : ReviewFinding ⊕ ArithmeticComparison →
    (String × EvaluationStatus) ⊕ (CheckContent × ℚ) :=
  Sum.map ReviewFinding.mark ArithmeticComparison.key

theorem Alike.examine (h : plan.Alike plan') {check check' : ArithmeticCheck}
    (hcheck : check ∈ plan.inventory.checks) (hcontent : check.content = check'.content)
    (henv : plan.cyclic = true ∨
      ∀ name ∈ check.inputs, (env name).map Decimal.value = (env' name).map Decimal.value) :
    ∃ outcome outcome', plan.examine rt .exact env check = .ok outcome ∧
      plan'.examine rt .exact env' check' = .ok outcome' ∧
      outcomeKey outcome = outcomeKey outcome' := by
  have hid : check.id = check'.id := congrArg CheckContent.id hcontent
  have hkind : check.kind = check'.kind := congrArg CheckContent.kind hcontent
  have htarget : check.target = check'.target := congrArg CheckContent.target hcontent
  have hquantum : check.quantum = check'.quantum := congrArg CheckContent.quantum hcontent
  have hperm := ArithmeticCheck.content_inputs hcontent
  have hmark : ∀ reason, (stoppedFinding rt check reason).mark =
      (stoppedFinding rt check' reason).mark := by
    intro reason
    rw [ReviewFinding.mark, ReviewFinding.mark, stoppedFinding, stoppedFinding, hid]
  -- both plans wait for the same inputs
  have hwaits : (plan.cyclic || !(check.inputs.all fun name => (env name).isSome)) =
      (plan.cyclic || !(check'.inputs.all fun name => (env' name).isSome)) := by
    rcases henv with hcyclic | hvalues
    · rw [hcyclic, Bool.true_or, Bool.true_or]
    · have hsome : ∀ name ∈ check.inputs, (env name).isSome = (env' name).isSome := by
        intro name hname
        rw [← Option.isSome_map (f := Decimal.value), hvalues name hname, Option.isSome_map]
      rw [← (SameElements.of_perm hperm).all fun name => (env' name).isSome]
      congr 2
      rw [Bool.eq_iff_iff, List.all_eq_true, List.all_eq_true]
      exact forall₂_congr fun name hname => by rw [hsome name hname]
  unfold ArithmeticPlan.examine
  rw [← h.wellDefined hcontent, hwaits, ← h.cyclic, ← h.boundSlot, ← htarget]
  split_ifs with hdefined hstop
  · exact ⟨_, _, rfl, rfl, congrArg Sum.inl (hmark _)⟩
  · exact ⟨_, _, rfl, rfl, congrArg Sum.inl (hmark _)⟩
  · rw [← hwaits] at hstop
    simp only [Bool.or_eq_true, Bool.not_eq_true', not_or, Bool.not_eq_true, Bool.not_eq_false,
      List.all_eq_true] at hstop
    obtain ⟨⟨hacyclic, hsome⟩, -⟩ := hstop
    have hvalues := henv.resolve_left (by rw [hacyclic]; exact Bool.false_ne_true)
    have hlength := filterMap_length hsome
    have hne : check.inputs.filterMap env ≠ [] := by
      rw [← List.length_pos_iff, hlength, List.length_pos_iff]
      exact h.nonempty check hcheck
    have hinputs : ((check.inputs.filterMap env).map Decimal.value).Perm
        ((check'.inputs.filterMap env').map Decimal.value) := by
      rw [filterMap_value, filterMap_value, List.filterMap_congr hvalues]
      exact hperm.filterMap _
    obtain ⟨d, d', hd, hd', hvalue⟩ := calculate_exact hne hinputs
      (fun hequals => by rw [hlength, h.single check hcheck hequals]) check.quantum
    rw [← hkind, ← hquantum, hd, hd']
    exact ⟨_, _, rfl, rfl, congrArg Sum.inr (congrArg₂ Prod.mk hcontent hvalue)⟩

theorem examineAll_total {trusted : String → Option Decimal} {checks : List ArithmeticCheck}
    (h : ∀ check ∈ checks, ∃ outcome, plan.examine rt .exact trusted check = .ok outcome) :
    ∃ stopped comparisons, plan.examineAll rt .exact trusted checks = .ok (stopped, comparisons) ∧
      (∀ f, f ∈ stopped ↔ ∃ check ∈ checks, plan.examine rt .exact trusted check = .ok (.inl f)) ∧
      ∀ c, c ∈ comparisons ↔
        ∃ check ∈ checks, plan.examine rt .exact trusted check = .ok (.inr c) := by
  induction checks with
  | nil => exact ⟨[], [], rfl, by simp, by simp⟩
  | cons check rest ih =>
    obtain ⟨outcome, houtcome⟩ := h check List.mem_cons_self
    obtain ⟨stopped, comparisons, hrest, hstopped, hcompared⟩ :=
      ih fun c hc => h c (List.mem_cons_of_mem _ hc)
    rw [examineAll, houtcome, hrest]
    cases outcome with
    | inl finding =>
      refine ⟨finding :: stopped, comparisons, rfl, ?_, ?_⟩
      · intro f
        simp only [List.mem_cons, hstopped, or_and_right, exists_or, exists_eq_left, houtcome,
          Except.ok.injEq, Sum.inl.injEq, eq_comm (a := f)]
      · intro c
        simp only [hcompared, List.mem_cons, or_and_right, exists_or, exists_eq_left, houtcome,
          Except.ok.injEq, reduceCtorEq, false_or]
    | inr comparison =>
      refine ⟨stopped, comparison :: comparisons, rfl, ?_, ?_⟩
      · intro f
        simp only [hstopped, List.mem_cons, or_and_right, exists_or, exists_eq_left, houtcome,
          Except.ok.injEq, reduceCtorEq, false_or]
      · intro c
        simp only [List.mem_cons, hcompared, or_and_right, exists_or, exists_eq_left, houtcome,
          Except.ok.injEq, Sum.inr.injEq, eq_comm (a := c)]

theorem Alike.examineAll (h : plan.Alike plan') (target : String)
    (henv : plan.cyclic = true ∨ ∀ check ∈ AppraisalReview.checksOn plan.inventory target,
      ∀ name ∈ check.inputs, (env name).map Decimal.value = (env' name).map Decimal.value) :
    ∃ stopped comparisons stopped' comparisons',
      plan.examineAll rt .exact env (AppraisalReview.checksOn plan.inventory target) =
        .ok (stopped, comparisons) ∧
      plan'.examineAll rt .exact env' (AppraisalReview.checksOn plan'.inventory target) =
        .ok (stopped', comparisons') ∧
      SameElements (stopped.map ReviewFinding.mark) (stopped'.map ReviewFinding.mark) ∧
      SameElements (comparisons.map ArithmeticComparison.key)
        (comparisons'.map ArithmeticComparison.key) := by
  have hpair : ∀ check ∈ AppraisalReview.checksOn plan.inventory target, ∀ check',
      check.content = check'.content → ∃ outcome outcome',
        plan.examine rt .exact env check = .ok outcome ∧
        plan'.examine rt .exact env' check' = .ok outcome' ∧
        outcomeKey outcome = outcomeKey outcome' := by
    intro check hcheck check' hcontent
    exact h.examine rt (mem_checksOn.mp hcheck).1 hcontent (henv.imp id fun hall => hall check hcheck)
  have hforth : ∀ check ∈ AppraisalReview.checksOn plan.inventory target,
      ∃ check' ∈ AppraisalReview.checksOn plan'.inventory target,
        check.content = check'.content := by
    intro check hcheck
    obtain ⟨check', hin, heq⟩ := List.mem_map.mp
      ((h.checksOn target check.content).mp (List.mem_map_of_mem hcheck))
    exact ⟨check', hin, heq.symm⟩
  have hback : ∀ check' ∈ AppraisalReview.checksOn plan'.inventory target,
      ∃ check ∈ AppraisalReview.checksOn plan.inventory target,
        check.content = check'.content := by
    intro check' hcheck'
    exact List.mem_map.mp ((h.checksOn target check'.content).mpr (List.mem_map_of_mem hcheck'))
  obtain ⟨stopped, comparisons, hrun, hstopped, hcompared⟩ :=
    examineAll_total rt fun check hcheck => by
      obtain ⟨outcome, -, houtcome, -⟩ := hpair check hcheck check rfl
      exact ⟨outcome, houtcome⟩
  obtain ⟨stopped', comparisons', hrun', hstopped', hcompared'⟩ :=
    examineAll_total rt fun check' hcheck' => by
      obtain ⟨check, hcheck, hcontent⟩ := hback check' hcheck'
      obtain ⟨-, outcome', -, houtcome', -⟩ := hpair check hcheck check' hcontent
      exact ⟨outcome', houtcome'⟩
  refine ⟨stopped, comparisons, stopped', comparisons', hrun, hrun', ?_, ?_⟩
  · intro mark
    simp only [List.mem_map, hstopped, hstopped']
    constructor
    · rintro ⟨f, ⟨check, hcheck, hf⟩, rfl⟩
      obtain ⟨check', hcheck', hcontent⟩ := hforth check hcheck
      obtain ⟨outcome, outcome', ho, ho', hkey⟩ := hpair check hcheck check' hcontent
      rw [hf] at ho
      cases ho
      cases outcome' with
      | inl f' => exact ⟨f', ⟨check', hcheck', ho'⟩, (Sum.inl.inj hkey).symm⟩
      | inr c' => cases hkey
    · rintro ⟨f', ⟨check', hcheck', hf'⟩, rfl⟩
      obtain ⟨check, hcheck, hcontent⟩ := hback check' hcheck'
      obtain ⟨outcome, outcome', ho, ho', hkey⟩ := hpair check hcheck check' hcontent
      rw [hf'] at ho'
      cases ho'
      cases outcome with
      | inl f => exact ⟨f, ⟨check, hcheck, ho⟩, Sum.inl.inj hkey⟩
      | inr c => cases hkey
  · intro key
    simp only [List.mem_map, hcompared, hcompared']
    constructor
    · rintro ⟨c, ⟨check, hcheck, hc⟩, rfl⟩
      obtain ⟨check', hcheck', hcontent⟩ := hforth check hcheck
      obtain ⟨outcome, outcome', ho, ho', hkey⟩ := hpair check hcheck check' hcontent
      rw [hc] at ho
      cases ho
      cases outcome' with
      | inl f' => cases hkey
      | inr c' => exact ⟨c', ⟨check', hcheck', ho'⟩, (Sum.inr.inj hkey).symm⟩
    · rintro ⟨c', ⟨check', hcheck', hc'⟩, rfl⟩
      obtain ⟨check, hcheck, hcontent⟩ := hback check' hcheck'
      obtain ⟨outcome, outcome', ho, ho', hkey⟩ := hpair check hcheck check' hcontent
      rw [hc'] at ho'
      cases ho'
      cases outcome with
      | inl f => cases hkey
      | inr c => exact ⟨c, ⟨check, hcheck, ho⟩, Sum.inr.inj hkey⟩

def comparisonMark (candidate : Option (ℚ ⊕ String)) (c : CheckContent × ℚ) :
    String × EvaluationStatus :=
  (arithmeticId c.1.id,
    if acceptable c.1.tolerance.value c.2 candidate then .verified
    else if candidate = none then .needsReview
    else .failed)

theorem comparisonFinding_exact (plan : ArithmeticPlan) (candidate : Option Candidate)
    (c : ArithmeticComparison) :
    ∃ finding, plan.comparisonFinding rt .exact candidate c = .ok finding ∧
      finding.mark = comparisonMark (candidate.map Candidate.key) c.key := by
  have hnone : candidate = none ↔ candidate.map Candidate.key = none :=
    Option.map_eq_none_iff.symm
  rw [ArithmeticPlan.comparisonFinding, accepts_exact]
  refine ⟨_, rfl, ?_⟩
  simp only [ReviewFinding.mark, comparisonMark, hnone]
  rfl

/-- One step of two alike plans, from environments whose numbers have the same values. -/
theorem Alike.step (h : plan.Alike plan') (target : String)
    (henv : plan.cyclic = true ∨ ∀ check ∈ AppraisalReview.checksOn plan.inventory target,
      ∀ name ∈ check.inputs, (env name).map Decimal.value = (env' name).map Decimal.value) :
    ∃ findings number findings' number',
      plan.step rt .exact env target = .ok (findings, number) ∧
      plan'.step rt .exact env' target = .ok (findings', number') ∧
      SameElements (findings.map ReviewFinding.mark) (findings'.map ReviewFinding.mark) ∧
      number.map Decimal.value = number'.map Decimal.value := by
  obtain ⟨stopped, comparisons, stopped', comparisons', hrun, hrun', hstopped, hcompared⟩ :=
    h.examineAll rt target henv
  have hready : plan.ready target stopped = plan'.ready target stopped' := by
    have hchecks : AppraisalReview.checksOn plan.inventory target = [] ↔
        AppraisalReview.checksOn plan'.inventory target = [] := by
      rw [← List.map_eq_nil_iff (f := ArithmeticCheck.content), (h.checksOn target).eq_nil,
        List.map_eq_nil_iff]
    have hempty : stopped.isEmpty = stopped'.isEmpty := by
      rw [Bool.eq_iff_iff, List.isEmpty_iff, List.isEmpty_iff,
        ← List.map_eq_nil_iff (f := ReviewFinding.mark), hstopped.eq_nil, List.map_eq_nil_iff]
    simp only [ArithmeticPlan.ready, h.cyclic, ne_eq, hchecks, hempty]
  unfold ArithmeticPlan.step
  rw [hrun, hrun', ← h.boundSlot, ← h.observation, ← h.independent, ← h.sourceTrust]
  simp only [bind, Except.bind, ← hready]
  cases plan.boundSlot target with
  | none => exact ⟨_, _, _, _, rfl, rfl, hstopped, rfl⟩
  | some slot =>
    cases observationOf plan.facts target with
    | none => exact ⟨_, _, _, _, rfl, rfl, hstopped, rfl⟩
    | some original =>
      obtain ⟨validated, validated', hv, hv', hstatus, hcandidate⟩ :=
        validateSlot_exact rt slot original (plan.independent target)
          (plan.ready target stopped) plan.sourceTrust hcompared
      obtain ⟨compared, hc, hmarks⟩ := mapM_total (l := comparisons) fun c _ =>
        comparisonFinding_exact rt plan validated.candidate c
      obtain ⟨compared', hc', hmarks'⟩ := mapM_total (l := comparisons') fun c _ =>
        comparisonFinding_exact rt plan' validated'.candidate c
      rw [← hcandidate] at hmarks'
      simp only [hv, hv', hc, hc']
      refine ⟨_, _, _, _, rfl, rfl, ?_, trustedNumber_same hstatus hcandidate⟩
      have hall := hcompared.map (comparisonMark (validated.candidate.map Candidate.key))
      rw [List.map_map, List.map_map] at hall
      have hslot : [(slotFinding slot validated).mark] = [(slotFinding slot validated').mark] := by
        rw [ReviewFinding.mark, ReviewFinding.mark, slotFinding, slotFinding, hstatus]
      rw [List.map_append, List.map_append, List.map_append, List.map_append, hmarks, hmarks']
      refine (hstopped.append hall).append ?_
      rw [List.map_singleton, List.map_singleton, hslot]
      exact fun _ => Iff.rfl

theorem edge_checkGraph_content (inventory : ReviewInventory) (a b : String) :
    Edge (checkGraph inventory) a b ↔
      ∃ c ∈ inventory.checks.map ArithmeticCheck.content, c.target = b ∧ a ∈ c.inputs := by
  rw [edge_checkGraph]
  constructor
  · rintro ⟨check, hmem, htarget, hin⟩
    exact ⟨check.content, List.mem_map_of_mem hmem, htarget, Multiset.mem_coe.mpr hin⟩
  · rintro ⟨c, hc, htarget, hin⟩
    obtain ⟨check, hmem, rfl⟩ := List.mem_map.mp hc
    exact ⟨check, hmem, htarget, Multiset.mem_coe.mp hin⟩

theorem Alike.edge (h : plan.Alike plan') (a b : String) :
    Edge plan.respected a b ↔ Edge plan'.respected a b := by
  rw [respected, respected, ← h.cyclic]
  cases plan.cyclic with
  | true => rfl
  | false =>
    simp only [Bool.false_eq_true, if_false, edge_checkGraph_content]
    exact exists_congr fun c => and_congr_left' (h.checks c)

theorem Alike.settle (h : plan.Alike plan') {order order' : List String}
    (hordered : Ordered plan.respected [] order) (hordered' : Ordered plan'.respected [] order')
    (hsame : SameElements order order') {out : List ReviewFinding} {final : Dict String Decimal}
    (hrun : settle (plan.step rt .exact) order Dict.empty = .ok (out, final)) :
    ∃ out' final', TopologicalSort.settle (plan'.step rt .exact) order' Dict.empty =
        .ok (out', final') ∧
      SameElements (out.map ReviewFinding.mark) (out'.map ReviewFinding.mark) := by
  have hempty : ∀ n, n ∉ ([] : List String) → (Dict.empty : Dict String Decimal).get? n = none :=
    fun n _ => Dict.get?_empty n
  obtain ⟨hkeep, hvalues, horigin⟩ := settle_settled step_local hordered hempty hrun
  have hpair : ∀ target ∈ order, ∀ env' : String → Option Decimal,
      (∀ a, Edge plan'.respected a target →
        (final.get? a).map Decimal.value = (env' a).map Decimal.value) →
      ∃ o o' v', plan.step rt .exact final.get? target = .ok (o, final.get? target) ∧
        plan'.step rt .exact env' target = .ok (o', v') ∧
        SameElements (o.map ReviewFinding.mark) (o'.map ReviewFinding.mark) ∧
        (final.get? target).map Decimal.value = v'.map Decimal.value := by
    intro target htarget env' henv'
    have henv : plan.cyclic = true ∨ ∀ check ∈ AppraisalReview.checksOn plan.inventory target,
        ∀ name ∈ check.inputs,
          (final.get? name).map Decimal.value = (env' name).map Decimal.value := by
      cases hcyclic : plan.cyclic with
      | true => exact Or.inl rfl
      | false =>
        right
        intro check hcheck name hname
        apply henv'
        rw [← h.edge, respected, hcyclic, if_neg Bool.false_ne_true]
        obtain ⟨hmem, hon⟩ := mem_checksOn.mp hcheck
        exact edge_checkGraph.mpr ⟨check, hmem, hon, hname⟩
    obtain ⟨o, v, o', v', hstep, hstep', hmarks, hvalue⟩ := h.step rt target henv
    obtain ⟨o₁, hstep₁, -⟩ := hvalues target htarget
    rw [hstep] at hstep₁
    cases hstep₁
    exact ⟨o, o', v', hstep, hstep', hmarks, hvalue⟩
  obtain ⟨out', final', hrun', hrelated⟩ := settle_transfer
    (fun x y : Option Decimal => x.map Decimal.value = y.map Decimal.value) final.get?
    (plan'.step rt .exact) hordered' (fun n hn env' henv' => by
      obtain ⟨-, o', v', -, hstep', -, hvalue⟩ := hpair n ((hsame n).mpr hn) env' henv'
      exact ⟨o', v', hstep', hvalue⟩) hempty (fun n hn => absurd hn List.not_mem_nil)
  obtain ⟨hkeep', hvalues', horigin'⟩ := settle_settled step_local hordered' hempty hrun'
  have heverywhere : ∀ n, (final.get? n).map Decimal.value = (final'.get? n).map Decimal.value := by
    intro n
    by_cases hn : n ∈ order'
    · exact hrelated n (Or.inr hn)
    · rw [hkeep' n hn, hkeep n fun hin => hn ((hsame n).mp hin)]
  refine ⟨out', final', hrun', ?_⟩
  intro mark
  simp only [List.mem_map]
  constructor
  · rintro ⟨f, hf, rfl⟩
    obtain ⟨n, hn, o, ho, hfo⟩ := horigin f hf
    obtain ⟨o₁, o', v', ho₁, ho', hmarks, -⟩ := hpair n hn final'.get? fun a _ => heverywhere a
    rw [ho] at ho₁
    cases ho₁
    obtain ⟨f', hf', hmark⟩ := List.mem_map.mp ((hmarks f.mark).mp (List.mem_map_of_mem hfo))
    obtain ⟨o₂, ho₂, hin⟩ := hvalues' n ((hsame n).mp hn)
    rw [ho'] at ho₂
    cases ho₂
    exact ⟨f', hin f' hf', hmark⟩
  · rintro ⟨f', hf', rfl⟩
    obtain ⟨n, hn, o₂, ho₂, hfo⟩ := horigin' f' hf'
    have hn' := (hsame n).mpr hn
    obtain ⟨o₁, o', v', ho₁, ho', hmarks, -⟩ := hpair n hn' final'.get? fun a _ => heverywhere a
    rw [ho₂] at ho'
    cases ho'
    obtain ⟨f, hf, hmark⟩ := List.mem_map.mp ((hmarks f'.mark).mpr (List.mem_map_of_mem hfo))
    obtain ⟨o, ho, hin⟩ := hvalues n hn'
    rw [ho₁] at ho
    cases ho
    exact ⟨f, hin f hf, hmark⟩

end ArithmeticPlan
end AppraisalReview
