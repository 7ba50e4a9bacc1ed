import AppraisalReview.CheckLaws
import AppraisalReview.ReviewPhases

set_option autoImplicit false

/-!
# Soundness of a verified review

A review with status VERIFIED rests on an authorized, current and fully
inventoried case in which every context was evaluated and every slot carries a
grounded value.
-/
namespace AppraisalReview
open TopologicalSort Raising

variable (rt : Runtime) (ctx : DecimalContext) (reviewer : CaseReviewer) (sorter : Sorter String)

/-- One rule set applies, and the engine verified every inventory factor with it. -/
structure ContextVerified (input : ReviewInput) (entry : InventoryContext) (rules : ScopedRules)
    (comparison : FactorReviewResult) : Prop where
  selected : Selected input entry rules
  context : comparison.context = some entry.context
  evaluated : ∃ confirmed request evaluated,
    (engineFor reviewer rules.rules confirmed).evaluate rt ctx request = .ok evaluated ∧
      comparison.results = evaluated.results ∧ comparison.summary = evaluated.summary
  factors : ∀ factor ∈ entry.factorIds, ∃ item ∈ comparison.results,
    item.factorId = factor ∧ item.status = .verified

/-- The value of one slot: observed or an approved blank, anchored in the
slot's cells, equal to what the engine found and within the tolerance of every
check. `numbers` holds the verified number of each slot. -/
structure SlotVerified (input : ReviewInput) (comparisons : List FactorReviewResult)
    (numbers : String → Option Decimal) (slot : ReviewSlot) (observed : ObservedValue)
    (candidate : Candidate) : Prop where
  found : observationOf input.facts slot.id = some observed
  cited : input.registry.citationsValid slot.evidence = true ∧
    input.registry.citationsValid observed.evidence = true
  anchored : sameCells slot.evidence observed.evidence = true
  state : observed.state = .present ∨
    observed.state = .blank ∧ slot.derivableBlank = true ∧ blankContradicted observed = false
  reading : observed.state = .present →
    proposal rt ctx slot observed none = .ok (.ok (some candidate))
  number : ∀ d, numbers slot.id = some d ↔ candidate = .number d
  factor : ∀ factor, slot.factorId = some factor → ∃ comparison ∈ comparisons,
    comparison.context = some slot.context ∧ ∃ item ∈ comparison.results,
      item.factorId = factor ∧ item.status = .verified ∧
        ∃ value, resultValue item slot.value = some value ∧ candidate.same value = true
  total : slot.value = .total → checksOn input.policy.inventory slot.id = [] →
    ∃ comparison ∈ comparisons, comparison.context = some slot.context ∧
      ∃ total, comparison.summary.totalAdjustmentPercent = some total ∧
        candidate.same (.number total.decimal) = true
  checks : ∀ check ∈ checksOn input.policy.inventory slot.id, ∃ values expected number,
    check.inputs.map numbers = values.map some ∧
      calculate ctx check.kind values (some check.quantum) = .ok expected ∧
      candidate = .number number ∧
      ArithmeticComparison.matches ctx ⟨check, expected⟩ number = .ok true
  roundedTotal : slot.value = .total → observed.state = .present →
    ∀ check ∈ checksOn input.policy.inventory slot.id, ∃ comparison ∈ comparisons,
      comparison.context = some slot.context ∧ ∃ total expected number,
        comparison.summary.totalAdjustmentPercent = some total ∧
          calculate ctx .equals [total.decimal] (some check.quantum) = .ok expected ∧
          candidate = .number number ∧
          ArithmeticComparison.matches ctx ⟨check, expected⟩ number = .ok true

/-- What a verified review establishes about its case. -/
structure VerifiedCase (input : ReviewInput) (r : CaseReviewResult) : Prop where
  permitted : ∃ permits, reviewer.authorization = some permits ∧
    permits ⟨input.policy, input.facts⟩ = true
  registry : input.registry.documents.length = input.policy.registry.documents.length ∧
    ∀ reviewed ∈ input.policy.registry.documents, ∃ current ∈ input.registry.documents,
      current.sameIdentityAndContent rt reviewed = .ok true
  purposes : ∃ purposes, SourcePurposes.selected rt input.registry input.forms input.criteria =
    .ok purposes ∧ purposes.violations input.policy input.facts = []
  observations : ∀ observed ∈ input.facts.observed,
    ∃ slot ∈ input.policy.inventory.slots, slot.id = observed.slotId
  pairs : ∀ pair ∈ input.facts.pairs, ∃ entry ∈ input.policy.inventory.contexts,
    entry.context = pair.context ∧ pair.pair.factorId ∈ entry.factorIds
  resolved : input.policy.inventory.unresolved = [] ∧ input.facts.unresolved = [] ∧
    input.policy.inventory.unsupported = []
  contexts : ∀ entry ∈ input.policy.inventory.contexts, ∃ rules, ∃ comparison ∈ r.comparisons,
    ContextVerified rt ctx reviewer input entry rules comparison
  slots : ∃ numbers : String → Option Decimal, ∀ slot ∈ input.policy.inventory.slots,
    ∃ observed candidate, SlotVerified rt ctx input r.comparisons numbers slot observed candidate
  checks : ∀ check ∈ input.policy.inventory.checks,
    ∃ slot ∈ input.policy.inventory.slots, slot.id = check.target
  inspected : ∀ source ∈ input.registry.documents, source.role.inventoried = true →
    pagesCovered input.policy.inventory source = true ∧
      tablesCovered input.policy.inventory source = true
  claimed : ∀ supplied, input.claimed = some supplied →
    sameList FactorReviewResult.same supplied r.comparisons = true
  findings : ∀ finding ∈ r.findings, finding.status = .verified
  coverage : r.coverage.missing = [] ∧ ∀ id ∈ r.coverage.required, id ∈ r.coverage.verified

section phases
variable {rt ctx reviewer sorter} {input : ReviewInput} {t : ReviewTrace}

theorem sources_verified
    (h : sourceViolations rt input.policy input.facts input.registry input.forms input.criteria =
      .ok []) :
    ∃ purposes, SourcePurposes.selected rt input.registry input.forms input.criteria =
      .ok purposes ∧ purposes.violations input.policy input.facts = [] := by
  rw [sourceViolations] at h
  split at h
  · rename_i purposes hselected
    exact ⟨purposes, hselected, Except.ok.inj h⟩
  · split at h <;> cases h

theorem sourcesMatch_true {reviewed current : SourceRegistry}
    (h : sourcesMatch rt reviewed current = .ok true) :
    current.documents.length = reviewed.documents.length ∧
      ∀ document ∈ reviewed.documents, ∃ now ∈ current.documents,
        now.sameIdentityAndContent rt document = .ok true := by
  rw [sourcesMatch] at h
  split at h
  · cases h
  · rename_i hlength
    exact ⟨not_not.mp hlength, fun document hin => anyM_true (allM_true.mp h document hin)⟩

def AllVerified (reviewer : CaseReviewer) (input : ReviewInput) (t : ReviewTrace) : Prop :=
  ∀ finding ∈ t.before reviewer input ++ t.arithmetic, finding.status = .verified

theorem AllVerified.opening (h : AllVerified reviewer input t) :
    ∀ finding ∈ t.opening reviewer input, finding.status = .verified := by
  intro finding hin
  apply h
  simp only [ReviewTrace.before, List.mem_append]
  tauto

theorem AllVerified.inventory (h : AllVerified reviewer input t) :
    ∀ finding ∈ inventoryFindings input.policy input.facts input.registry,
      finding.status = .verified := by
  intro finding hin
  apply h
  simp only [ReviewTrace.before, List.mem_append]
  tauto

theorem AllVerified.binding (h : AllVerified reviewer input t) :
    ∀ finding ∈ bindingFindings input.policy input.facts input.registry,
      finding.status = .verified := by
  intro finding hin
  apply h
  simp only [ReviewTrace.before, List.mem_append]
  tauto

theorem AllVerified.context (h : AllVerified reviewer input t) {context : ContextReview}
    (hcontext : context ∈ t.contexts) :
    ∀ finding ∈ context.findings, finding.status = .verified := by
  intro finding hin
  apply h
  have hmem : finding ∈ t.contexts.flatMap ContextReview.findings :=
    List.mem_flatMap.mpr ⟨context, hcontext, hin⟩
  simp only [ReviewTrace.before, List.mem_append]
  tauto

theorem AllVerified.arithmetic (h : AllVerified reviewer input t) :
    ∀ finding ∈ t.arithmetic, finding.status = .verified :=
  fun finding hin => h finding (List.mem_append_right _ hin)

theorem AllVerified.authorized (h : AllVerified reviewer input t) :
    reviewer.authorized input = true := by
  cases hauthorized : reviewer.authorized input with
  | true => rfl
  | false =>
    have hopen := h.opening (approvalFinding (reviewer.authorized input))
      (List.mem_append_left _ List.mem_cons_self)
    rw [hauthorized] at hopen
    cases hopen

theorem AllVerified.matched (h : AllVerified reviewer input t) : t.matched = true := by
  cases hmatched : t.matched with
  | true => rfl
  | false =>
    have hopen := h.opening (sourcesFinding t.matched)
      (List.mem_append_left _ (List.mem_cons_of_mem _ List.mem_cons_self))
    rw [hmatched] at hopen
    cases hopen

theorem AllVerified.violations (h : AllVerified reviewer input t) : t.violations = [] := by
  rw [List.eq_nil_iff_forall_not_mem]
  intro violation hin
  have hopen := h.opening (violationFinding violation)
    (List.mem_append_right _ (List.mem_map_of_mem hin))
  cases hopen

theorem authorized_permits (h : reviewer.authorized input = true) :
    ∃ permits, reviewer.authorization = some permits ∧
      permits ⟨input.policy, input.facts⟩ = true := by
  rw [CaseReviewer.authorized] at h
  cases hauthorization : reviewer.authorization with
  | none => rw [hauthorization] at h; cases h
  | some permits =>
    rw [hauthorization] at h
    exact ⟨permits, rfl, h⟩

structure CleanInventory (input : ReviewInput) : Prop where
  observed : ∀ observed ∈ input.facts.observed,
    observed.slotId ∈ input.policy.inventory.slots.map ReviewSlot.id
  pairs : ∀ pair ∈ input.facts.pairs, pair.context.key ∈ contextKeys input.policy
  slots : ∀ slot ∈ input.policy.inventory.slots, slot.bindsIn input.policy.inventory = true
  pages : ∀ source ∈ input.registry.documents, source.role.inventoried = true →
    pagesCovered input.policy.inventory source = true
  tables : ∀ source ∈ input.registry.documents, source.role.inventoried = true →
    tablesCovered input.policy.inventory source = true
  resolved : input.policy.inventory.unresolved = [] ∧ input.facts.unresolved = [] ∧
    input.policy.inventory.unsupported = []

theorem AllVerified.clean (h : AllVerified reviewer input t) : CleanInventory input := by
  have hall := h.inventory
  simp only [inventoryFindings, List.forall_mem_append] at hall
  obtain ⟨hall, -⟩ := hall
  obtain ⟨⟨⟨⟨⟨⟨hobserved, hpairs⟩, hslots⟩, hpages⟩, htables⟩, -⟩, hunresolved⟩ := hall
  refine ⟨?_, ?_, ?_, ?_, ?_, ?_⟩
  · have hoff := whenever_off hobserved EvaluationStatus.noConfusion
    rw [Bool.not_eq_false', List.all_eq_true] at hoff
    exact fun observed hin => by simpa using hoff observed hin
  · have hoff := whenever_off hpairs EvaluationStatus.noConfusion
    rw [Bool.not_eq_false', List.all_eq_true] at hoff
    exact fun pair hin => by simpa using hoff pair hin
  · intro slot hin
    have hslot : ∀ f ∈ whenever (!slot.bindsIn input.policy.inventory) (slotBindingFinding slot),
        f.status = .verified := fun f hf => hslots f (List.mem_flatMap.mpr ⟨slot, hin, hf⟩)
    have hoff := whenever_off hslot EvaluationStatus.noConfusion
    rwa [Bool.not_eq_false'] at hoff
  · intro source hin hrole
    have hoff := whenever_off
      (fun f hf => hpages f (List.mem_flatMap.mpr ⟨source, hin, hf⟩)) EvaluationStatus.noConfusion
    simpa [hrole] using hoff
  · intro source hin hrole
    have hoff := whenever_off
      (fun f hf => htables f (List.mem_flatMap.mpr ⟨source, hin, hf⟩)) EvaluationStatus.noConfusion
    simpa [hrole] using hoff
  · have hnil : input.policy.inventory.unresolved ++ input.facts.unresolved ++
        input.policy.inventory.unsupported = [] := by
      rw [List.eq_nil_iff_forall_not_mem]
      intro text hin
      have hopen := hunresolved _ (List.mem_map_of_mem hin)
      cases hopen
    rw [List.append_eq_nil_iff, List.append_eq_nil_iff] at hnil
    exact ⟨hnil.1.1, hnil.1.2, hnil.2⟩

theorem CleanInventory.validSlots (h : CleanInventory input) :
    validSlots input.policy.inventory = input.policy.inventory.slots := by
  rw [AppraisalReview.validSlots, List.filter_eq_self]
  exact h.slots

theorem AllVerified.bound (h : AllVerified reviewer input t) {slot : ReviewSlot}
    (hslot : slot ∈ input.policy.inventory.slots) :
    ∃ observed, observationOf input.facts slot.id = some observed ∧
      input.registry.citationsValid slot.evidence = true ∧
      input.registry.citationsValid observed.evidence = true ∧
      sameCells slot.evidence observed.evidence = true := by
  have hin : slot ∈ AppraisalReview.validSlots input.policy.inventory := by
    rw [h.clean.validSlots]
    exact hslot
  have hbinding : ∀ f ∈ whenever (!bindsSource input.facts input.registry slot)
      (sourceBindingFinding slot), f.status = .verified :=
    fun f hf => h.binding f (List.mem_flatMap.mpr ⟨slot, hin, hf⟩)
  have hoff := whenever_off hbinding EvaluationStatus.noConfusion
  rw [Bool.not_eq_false', bindsSource] at hoff
  split at hoff
  · cases hoff
  · rename_i observed hobserved
    simp only [Bool.and_eq_true] at hoff
    exact ⟨observed, hobserved, hoff.1.1, hoff.1.2, hoff.2⟩

theorem slot_of_id (hdistinct : duplicateIdentity input.policy input.facts = false)
    {slot slot' : ReviewSlot} (h : slot ∈ input.policy.inventory.slots)
    (h' : slot' ∈ input.policy.inventory.slots) (hsame : slot.id = slot'.id) : slot = slot' := by
  rw [duplicateIdentity, Bool.not_eq_false'] at hdistinct
  simp only [Bool.and_eq_true, decide_eq_true_eq] at hdistinct
  exact List.inj_on_of_nodup_map hdistinct.1.1.1.2 h h' hsame

structure ContextComplete (rt : Runtime) (ctx : DecimalContext) (reviewer : CaseReviewer)
    (input : ReviewInput) (entry : InventoryContext) (rules : ScopedRules)
    (readings : ContextReadings) (evaluated : FactorReviewResult) (context : ContextReview) :
    Prop where
  selected : Selected input entry rules
  evaluation : ContextEvaluation rt ctx reviewer input entry rules.rules readings evaluated context
  validated : (contextValidation rt ctx reviewer input entry rules.rules readings evaluated).status =
    .verified
  reliable : ∀ factor ∈ entry.factorIds, factor ∈ readings.reliableFactors
  known : ∀ pair ∈ pairsOf input.facts entry.context, pair.pair.factorId ∈ entry.factorIds
  items : ∀ item ∈ evaluated.results, item.status = .verified

theorem context_complete {entry : InventoryContext} {context : ContextReview}
    (h : reviewContext rt ctx reviewer input entry = .ok context)
    (hall : ∀ finding ∈ context.findings, finding.status = .verified) :
    ∃ rules readings evaluated,
      ContextComplete rt ctx reviewer input entry rules readings evaluated context := by
  rcases reviewContext_ok rt ctx reviewer h with ⟨finding, rfl, hopen⟩ |
    ⟨rules, readings, evaluated, hselected, hevaluation⟩
  · exact absurd (hall finding List.mem_cons_self) hopen
  · refine ⟨rules, readings, evaluated, hselected, hevaluation, ?_, ?_, ?_, ?_⟩
    all_goals
      rw [hevaluation.outcome] at hall
      simp only [contextOutcome, List.forall_mem_append] at hall
      obtain ⟨⟨⟨hcoverage, hreadings⟩, hcalculation⟩, hitems⟩ := hall
    · exact hcalculation _ List.mem_cons_self
    · intro factor hfactor
      obtain ⟨hfactors, -, -, -⟩ := readFactors_ok rt hevaluation.read
      obtain ⟨reading, hreading⟩ := hfactors factor hfactor
      rcases readFactor_ok rt hreading.read with ⟨finding, rfl, hopen⟩ |
        ⟨pair, hpair, -, -, ⟨-, -, hreliable⟩ | ⟨-, -, hfinding⟩⟩
      · exact absurd (hreadings _ (hreading.findings _ List.mem_cons_self)) hopen
      · have hin := hreading.reliable _ hreliable
        exact List.mem_map.mpr ⟨_, hin, (pairOf_some hpair).2.2⟩
      · have hin := hreading.findings (reliabilityFinding entry.context factor)
          (by rw [hfinding]; exact List.mem_cons_self)
        cases hreadings _ hin
    · simp only [coverageFindings, List.forall_mem_append] at hcoverage
      have hoff := whenever_off hcoverage.2 EvaluationStatus.noConfusion
      rw [Bool.not_eq_false', List.all_eq_true] at hoff
      exact fun pair hin => by simpa using hoff pair hin
    · intro item hitem
      exact hitems (factorFinding input.facts entry.context rules.rules.version item)
        (List.mem_map.mpr ⟨item, hitem, rfl⟩)

namespace ContextComplete
variable {entry : InventoryContext} {rules : ScopedRules} {readings : ContextReadings}
  {evaluated : FactorReviewResult} {context : ContextReview}

theorem comparison
    (h : ContextComplete rt ctx reviewer input entry rules readings evaluated context) :
    context.comparison = some (contextResult input entry evaluated) := by
  rw [h.evaluation.outcome]
  rfl

theorem item (h : ContextComplete rt ctx reviewer input entry rules readings evaluated context)
    {factor : String} (hfactor : factor ∈ entry.factorIds) :
    ∃ item ∈ evaluated.results, item.factorId = factor ∧ item.status = .verified := by
  obtain ⟨pair, hpair, hid⟩ := List.mem_map.mp (h.reliable factor hfactor)
  have hresults := (FactorRuleEngine.evaluate_ok h.evaluation.evaluate).results
  have hin : (engineFor reviewer rules.rules readings.confirmed).evaluatePair rt pair ∈
      evaluated.results := by
    rw [hresults]
    exact List.mem_map_of_mem hpair
  exact ⟨_, hin, (FactorRuleEngine.evaluatePair_factorId pair).trans hid, h.items _ hin⟩

theorem verified
    (h : ContextComplete rt ctx reviewer input entry rules readings evaluated context) :
    ContextVerified rt ctx reviewer input entry rules (contextResult input entry evaluated) :=
  ⟨h.selected, rfl, ⟨_, _, evaluated, h.evaluation.evaluate, rfl, rfl⟩, fun _ hfactor => h.item hfactor⟩

theorem total
    (h : ContextComplete rt ctx reviewer input entry rules readings evaluated context) :
    ∃ total, evaluated.summary.totalAdjustmentPercent = some total := by
  have hevaluation := FactorRuleEngine.evaluate_ok h.evaluation.evaluate
  apply Option.isSome_iff_exists.mp
  apply hevaluation.summed
  rw [hevaluation.status]
  exact FactorRuleEngine.summaryStatus_verified.mpr h.items

end ContextComplete

theorem context_of_entry (hrecords : t.Records rt ctx reviewer sorter input)
    {entry : InventoryContext} (hentry : entry ∈ input.policy.inventory.contexts) :
    ∃ context ∈ t.contexts, reviewContext rt ctx reviewer input entry = .ok context :=
  forall₂_left hrecords.contexts hentry

theorem entry_of_mem (hrecords : t.Records rt ctx reviewer sorter input)
    {context : ContextReview} (hcontext : context ∈ t.contexts) :
    ∃ entry ∈ input.policy.inventory.contexts,
      reviewContext rt ctx reviewer input entry = .ok context :=
  forall₂_right hrecords.contexts hcontext

theorem independent_engine (hrecords : t.Records rt ctx reviewer sorter input)
    (hall : AllVerified reviewer input t) {slot : ReviewSlot}
    (hslot : slot ∈ input.policy.inventory.slots) {value : Candidate}
    (h : (t.plan reviewer sorter input).independent slot.id = some value) :
    ∃ entry rules readings evaluated context, context ∈ t.contexts ∧
      ContextComplete rt ctx reviewer input entry rules readings evaluated context ∧
      entry.context = slot.context ∧
      engineValue entry readings (contextResult input entry evaluated)
        (contextValidation rt ctx reviewer input entry rules.rules readings evaluated) slot =
          some value := by
  obtain ⟨⟨id, value'⟩, hfind, rfl⟩ := Option.map_eq_some_iff.mp h
  have hid : id = slot.id := by simpa using List.find?_some hfind
  obtain ⟨context, hcontext, hin⟩ := List.mem_flatMap.mp (List.mem_of_find?_eq_some hfind)
  obtain ⟨entry, -, hreview⟩ := entry_of_mem hrecords hcontext
  obtain ⟨rules, readings, evaluated, hcomplete⟩ := context_complete hreview (hall.context hcontext)
  rw [hcomplete.evaluation.outcome] at hin
  obtain ⟨slot', hslot', hvalue⟩ := List.mem_filterMap.mp hin
  obtain ⟨value'', hengine, hpair⟩ := Option.map_eq_some_iff.mp hvalue
  cases hpair
  rw [List.mem_filter, decide_eq_true_eq, hall.clean.validSlots] at hslot'
  cases slot_of_id hrecords.distinct hslot'.1 hslot hid
  exact ⟨entry, rules, readings, evaluated, context, hcontext, hcomplete, hslot'.2.symm, hengine⟩

theorem independent_some (hrecords : t.Records rt ctx reviewer sorter input)
    (hall : AllVerified reviewer input t) {slot : ReviewSlot}
    (hslot : slot ∈ input.policy.inventory.slots)
    (hvalue : slot.factorId ≠ none ∨ slot.value = .total) :
    ∃ value, (t.plan reviewer sorter input).independent slot.id = some value := by
  obtain ⟨entry, hentry, hcontext, hbinding⟩ := ReviewSlot.binds (hall.clean.slots slot hslot)
  obtain ⟨context, hin, hreview⟩ := context_of_entry hrecords hentry
  obtain ⟨rules, readings, evaluated, hcomplete⟩ := context_complete hreview (hall.context hin)
  have hengine : ∃ value, engineValue entry readings (contextResult input entry evaluated)
      (contextValidation rt ctx reviewer input entry rules.rules readings evaluated) slot =
        some value := by
    rcases hbinding with ⟨hbound, factor, hfactor, hid⟩ | ⟨-, hid⟩
    · obtain ⟨item, hitem, hitemid, hstatus⟩ := hcomplete.item hfactor
      have hresults := (FactorRuleEngine.evaluate_ok hcomplete.evaluation.evaluate).results
      have hnodup : (evaluated.results.map FactorEvaluationResult.factorId).Nodup := by
        have heq : evaluated.results.map FactorEvaluationResult.factorId =
            readings.reliableFactors := by
          rw [hresults, List.map_map]
          exact List.map_congr_left fun pair _ => FactorRuleEngine.evaluatePair_factorId pair
        rw [heq]
        exact (readFactors_sublist rt hcomplete.evaluation.read).nodup hcomplete.selected.distinct
      have hsingle := filter_singleton FactorEvaluationResult.factorId hnodup hitem
      rw [hitemid] at hsingle
      have hresult : ∃ value, resultValue item slot.value = some value := by
        rw [hresults, List.mem_map] at hitem
        obtain ⟨pair, -, rfl⟩ := hitem
        obtain ⟨_, _, _, _, hgraded⟩ := FactorRuleEngine.evaluatePair_verified hstatus
        obtain ⟨htarget, hcomparable, hadjustment⟩ := hgraded.reported
        cases hv : slot.value <;> rw [hv] at hbound <;>
          first
          | exact absurd hbound Bool.false_ne_true
          | simp [resultValue, gradeCandidate, htarget, hcomparable, hadjustment]
      obtain ⟨value, hvalue⟩ := hresult
      refine ⟨value, ?_⟩
      simp only [engineValue, hid, contextResult, hsingle]
      rw [if_pos ⟨hstatus, hcomplete.reliable factor hfactor⟩]
      exact hvalue
    · have htotal := hvalue.resolve_left (fun hne => hne hid)
      obtain ⟨total, hsum⟩ := hcomplete.total
      refine ⟨.number total.decimal, ?_⟩
      simp only [engineValue, hid]
      rw [if_pos ⟨htotal, List.all_eq_true.mpr fun factor hfactor =>
        decide_eq_true (hcomplete.reliable factor hfactor), hcomplete.validated⟩]
      simp [contextResult, hsum]
  obtain ⟨value, hengine⟩ := hengine
  have hmem : (slot.id, value) ∈ t.contexts.flatMap ContextReview.expected := by
    refine List.mem_flatMap.mpr ⟨context, hin, ?_⟩
    rw [hcomplete.evaluation.outcome]
    refine List.mem_filterMap.mpr ⟨slot, ?_, by simp [hengine]⟩
    rw [List.mem_filter, hall.clean.validSlots]
    exact ⟨hslot, decide_eq_true hcontext.symm⟩
  cases hfind : (t.contexts.flatMap ContextReview.expected).find? fun e => e.1 = slot.id with
  | none => exact absurd (List.find?_eq_none.mp hfind _ hmem) (by simp)
  | some found => exact ⟨found.2, by simp [ArithmeticPlan.independent, ReviewTrace.plan, hfind]⟩

theorem settled (hrecords : t.Records rt ctx reviewer sorter input) {name : String}
    (hname : name ∈ graphKeys input.policy.inventory) :
    ∃ findings, (t.plan reviewer sorter input).step rt ctx t.numbers.get? name =
        .ok (findings, t.numbers.get? name) ∧ ∀ finding ∈ findings, finding ∈ t.arithmetic := by
  obtain ⟨hordered, hcovers⟩ := evaluationOrder_ordered sorter input.policy.inventory
    (t.plan reviewer sorter input) rfl rfl
  obtain ⟨-, hsettled, -⟩ := settle_settled ArithmeticPlan.step_local hordered
    (fun _ _ => Dict.get?_empty _) hrecords.arithmetic
  exact hsettled name (hcovers name hname)

theorem boundSlot_eq (hrecords : t.Records rt ctx reviewer sorter input)
    (hall : AllVerified reviewer input t) {slot : ReviewSlot}
    (hslot : slot ∈ input.policy.inventory.slots) :
    (t.plan reviewer sorter input).boundSlot slot.id = some slot := by
  obtain ⟨observed, hobserved, hslotcited, hcited, hanchored⟩ := hall.bound hslot
  have hbinds : bindsSource input.facts input.registry slot = true := by
    simp [bindsSource, hobserved, hslotcited, hcited, hanchored]
  cases hfind : (t.plan reviewer sorter input).boundSlot slot.id with
  | none =>
    have hin : slot ∈ validSlots input.policy.inventory := by
      rw [hall.clean.validSlots]
      exact hslot
    have hnot := List.find?_eq_none.mp hfind slot hin
    exact absurd hbinds (by simpa [ReviewTrace.plan] using hnot)
  | some found =>
    have hid := List.find?_some hfind
    have hin : found ∈ validSlots input.policy.inventory := List.mem_of_find?_eq_some hfind
    rw [hall.clean.validSlots] at hin
    rw [Bool.and_eq_true, decide_eq_true_eq] at hid
    rw [slot_of_id hrecords.distinct hin hslot hid.1]

theorem proposal_some {slot : ReviewSlot} {observed : ObservedValue} {expected : Option Candidate}
    {candidate : Candidate}
    (h : proposal rt ctx slot observed expected = .ok (.ok (some candidate))) :
    (observed.state = .present ∧ proposal rt ctx slot observed none = .ok (.ok (some candidate))) ∨
      observed.state = .blank ∧ slot.derivableBlank = true ∧ blankContradicted observed = false := by
  cases hstate : observed.state with
  | blank =>
    right
    simp only [proposal, hstate] at h
    split at h
    · cases h
    · rename_i hcontradicted
      split at h
      · cases h
      · rename_i hderivable
        exact ⟨rfl, by simpa using hderivable, by simpa using hcontradicted⟩
  | present =>
    left
    simp only [proposal, hstate] at h ⊢
    exact ⟨trivial, h⟩
  | _ => simp [proposal, hstate] at h

theorem accepts_some {comparison : ArithmeticComparison} {candidate : Candidate}
    (h : comparison.accepts ctx (some candidate) = .ok true) :
    ∃ number, candidate = .number number ∧ comparison.matches ctx number = .ok true := by
  cases candidate with
  | number value => exact ⟨value, rfl, h⟩
  | text value => cases h

theorem matchesRounded_some {total : Decimal} {candidate : Candidate}
    {constraint : ArithmeticComparison}
    (h : matchesRounded ctx (some (.number total)) (some candidate) constraint = .ok true) :
    ∃ expected number, calculate ctx .equals [total] (some constraint.check.quantum) = .ok expected ∧
      candidate = .number number ∧
      ArithmeticComparison.matches ctx ⟨constraint.check, expected⟩ number = .ok true := by
  cases candidate with
  | number value =>
    obtain ⟨expected, hexpected, hmatches⟩ := bind_ok.mp h
    exact ⟨expected, value, hexpected, rfl, hmatches⟩
  | text value => cases h

theorem filterMap_map {numbers : String → Option Decimal} {names : List String}
    (h : ∀ name ∈ names, (numbers name).isSome = true) :
    names.map numbers = (names.filterMap numbers).map some := by
  induction names with
  | nil => rfl
  | cons name rest ih =>
    obtain ⟨d, hd⟩ := Option.isSome_iff_exists.mp (h name List.mem_cons_self)
    rw [List.map_cons, List.filterMap_cons_some hd, List.map_cons, hd,
      ih fun n hn => h n (List.mem_cons_of_mem _ hn)]

theorem comparison_mem {entry : InventoryContext} {rules : ScopedRules} {readings : ContextReadings}
    {evaluated : FactorReviewResult} {context : ContextReview} (hcontext : context ∈ t.contexts)
    (hcomplete : ContextComplete rt ctx reviewer input entry rules readings evaluated context) :
    contextResult input entry evaluated ∈ t.comparisons :=
  List.mem_filterMap.mpr ⟨context, hcontext, hcomplete.comparison⟩

theorem slot_verified (hrecords : t.Records rt ctx reviewer sorter input)
    (hall : AllVerified reviewer input t) {slot : ReviewSlot}
    (hslot : slot ∈ input.policy.inventory.slots) :
    ∃ observed candidate,
      SlotVerified rt ctx input t.comparisons t.numbers.get? slot observed candidate := by
  obtain ⟨observed, hobserved, hslotcited, hcited, hanchored⟩ := hall.bound hslot
  have hkey : slot.id ∈ graphKeys input.policy.inventory :=
    ArithmeticPlan.mem_graphKeys.mpr (Or.inl ⟨slot, by rw [hall.clean.validSlots]; exact hslot, rfl⟩)
  obtain ⟨findings, hstep, hin⟩ := settled hrecords hkey
  obtain ⟨comparisons, candidate, hverified⟩ := ArithmeticPlan.step_verified
    (boundSlot_eq hrecords hall hslot) rfl hobserved hstep
    fun finding hfinding => hall.arithmetic finding (hin finding hfinding)
  have hsatisfied := hverified.validation.satisfied
  -- the engine's comparison behind an independent value
  have hengine : ∀ value, (t.plan reviewer sorter input).independent slot.id = some value →
      ∃ entry readings evaluated validation, contextResult input entry evaluated ∈ t.comparisons ∧
        entry.context = slot.context ∧
        engineValue entry readings (contextResult input entry evaluated) validation slot =
          some value := by
    intro value hvalue
    obtain ⟨entry, rules, readings, evaluated, context, hcontext, hcomplete, hsame, hengine⟩ :=
      independent_engine hrecords hall hslot hvalue
    exact ⟨entry, readings, evaluated, _, comparison_mem hcontext hcomplete, hsame, hengine⟩
  have hnofactor : slot.value = .total → slot.factorId = none := by
    intro htotal
    obtain ⟨_, _, _, ⟨hbound, _⟩ | ⟨_, hnone⟩⟩ := ReviewSlot.binds (hall.clean.slots slot hslot)
    · rw [htotal] at hbound
      cases hbound
    · exact hnone
  have hcompared : ∀ check ∈ checksOn input.policy.inventory slot.id,
      ∃ comparison ∈ comparisons, comparison.check = check := by
    intro check hcheck
    have hchecks : comparisons.map ArithmeticComparison.check =
        checksOn input.policy.inventory slot.id := hverified.checks
    rw [← hchecks] at hcheck
    exact List.mem_map.mp hcheck
  refine ⟨observed, candidate, hobserved, ⟨hslotcited, hcited⟩, hanchored, ?_, ?_,
    hverified.passes, ?_, ?_, ?_, ?_⟩
  · exact (proposal_some hverified.validation.proposed).imp And.left id
  · intro hpresent
    rcases proposal_some hverified.validation.proposed with ⟨-, hproposal⟩ | ⟨hblank, -⟩
    · exact hproposal
    · rw [hpresent] at hblank
      cases hblank
  · intro factor hfactor
    obtain ⟨value, hvalue⟩ := independent_some hrecords hall hslot
      (Or.inl (by rw [hfactor]; exact Option.some_ne_none _))
    obtain ⟨entry, readings, evaluated, validation, hmem, hcontext, hengine⟩ := hengine value hvalue
    obtain ⟨item, hitem, hid, hstatus, hresult⟩ := engineValue_factor hfactor hengine
    refine ⟨_, hmem, by rw [← hcontext]; rfl, item, hitem, hid, hstatus, value, hresult, ?_⟩
    apply hsatisfied.equal value hvalue
    rintro ⟨hnone, -⟩
    rw [hfactor] at hnone
    cases hnone
  · intro htotal hnochecks
    obtain ⟨value, hvalue⟩ := independent_some hrecords hall hslot (Or.inr htotal)
    obtain ⟨entry, readings, evaluated, validation, hmem, hcontext, hengine⟩ := hengine value hvalue
    obtain ⟨-, total, hsum, rfl⟩ := engineValue_total (hnofactor htotal) hengine
    refine ⟨_, hmem, by rw [← hcontext]; rfl, total, hsum, ?_⟩
    apply hsatisfied.equal _ hvalue
    rintro ⟨-, hne, -⟩
    have hchecks : comparisons.map ArithmeticComparison.check =
        checksOn input.policy.inventory slot.id := hverified.checks
    rw [hnochecks, List.map_eq_nil_iff] at hchecks
    exact hne hchecks
  · intro check hcheck
    obtain ⟨comparison, hmem, rfl⟩ := hcompared check hcheck
    have hcalculated := hverified.calculated comparison hmem
    obtain ⟨number, hnumber, hmatches⟩ := accepts_some (hsatisfied.accepts comparison hmem)
    exact ⟨_, comparison.expected, number, filterMap_map hcalculated.inputs,
      hcalculated.calculated, hnumber, hmatches⟩
  · intro htotal hpresent check hcheck
    obtain ⟨comparison, hmem, rfl⟩ := hcompared check hcheck
    obtain ⟨value, hvalue⟩ := independent_some hrecords hall hslot (Or.inr htotal)
    obtain ⟨entry, readings, evaluated, validation, hin, hcontext, hengine⟩ := hengine value hvalue
    obtain ⟨-, total, hsum, rfl⟩ := engineValue_total (hnofactor htotal) hengine
    have hrounded := hsatisfied.rounded (by rw [hvalue]; rfl) (hnofactor htotal) hpresent
      comparison hmem
    rw [hvalue] at hrounded
    obtain ⟨expected, number, hexpected, hnumber, hmatches⟩ := matchesRounded_some hrounded
    exact ⟨_, hin, by rw [← hcontext]; rfl, total, expected, number, hsum, hexpected, hnumber,
      hmatches⟩

theorem check_slot (hrecords : t.Records rt ctx reviewer sorter input)
    (hall : AllVerified reviewer input t) {check : ArithmeticCheck}
    (hcheck : check ∈ input.policy.inventory.checks) :
    ∃ slot ∈ input.policy.inventory.slots, slot.id = check.target := by
  obtain ⟨findings, hstep, hin⟩ := settled hrecords
    (ArithmeticPlan.mem_graphKeys.mpr (Or.inr ⟨check, hcheck, rfl⟩))
  obtain ⟨comparison, rfl, hcalculated⟩ := ArithmeticPlan.step_compared hstep
    (fun finding hfinding => hall.arithmetic finding (hin finding hfinding)) check
    (ArithmeticPlan.mem_checksOn.mpr ⟨hcheck, rfl⟩)
  obtain ⟨slot, hslot⟩ := Option.isSome_iff_exists.mp hcalculated.bound
  have hid := List.find?_some hslot
  rw [Bool.and_eq_true, decide_eq_true_eq] at hid
  have hmem : slot ∈ validSlots input.policy.inventory := List.mem_of_find?_eq_some hslot
  rw [hall.clean.validSlots] at hmem
  exact ⟨slot, hmem, hid.1⟩

theorem AllVerified.claimed (h : AllVerified reviewer input t) {supplied : List FactorReviewResult}
    (hclaimed : input.claimed = some supplied) :
    sameList FactorReviewResult.same supplied t.comparisons = true := by
  have hin : ∀ finding ∈ claimedFindings input.claimed t.comparisons,
      finding.status = .verified := by
    intro finding hfinding
    apply h
    simp only [ReviewTrace.before, List.mem_append]
    tauto
  rw [hclaimed] at hin
  have hstatus := hin _ List.mem_cons_self
  simp only at hstatus
  split at hstatus
  · rename_i hequal
    exact (Bool.and_eq_true _ _ ▸ hequal).2
  · cases hstatus

end phases

variable {rt ctx reviewer sorter}

/-- A verified review is sound. -/
theorem review_verified_sound {input : ReviewInput} {r : CaseReviewResult}
    (h : review rt ctx reviewer sorter input = .ok r) (hverified : r.status = .verified) :
    VerifiedCase rt ctx reviewer input r := by
  rcases review_ok rt ctx reviewer sorter h with hstopped | ⟨t, hrecords, rfl⟩
  · rw [hstopped.failed] at hverified
    cases hverified
  · obtain ⟨hall, hrequired⟩ := finish_verified.mp hverified
    have hclean : CleanInventory input := AllVerified.clean (t := t) hall
    have hviolations : t.violations = [] := AllVerified.violations (t := t) hall
    have hmatched : t.matched = true := AllVerified.matched (t := t) hall
    obtain ⟨hmissing, hcovered⟩ := finish_coverage input.policy input.policy.inventory.slots
      (t.origins input) t.comparisons hall hrequired
    refine ⟨authorized_permits (AllVerified.authorized (t := t) hall),
      sourcesMatch_true (by rw [hrecords.matched, hmatched]),
      sources_verified (by rw [hrecords.violations, hviolations]), ?_, ?_, hclean.resolved, ?_,
      ⟨t.numbers.get?, fun slot hslot => slot_verified hrecords hall hslot⟩,
      fun check hcheck => check_slot hrecords hall hcheck,
      fun source hin hrole => ⟨hclean.pages source hin hrole, hclean.tables source hin hrole⟩,
      fun supplied hclaimed => AllVerified.claimed (t := t) hall hclaimed, ?_, hmissing, hcovered⟩
    · intro observed hin
      exact List.mem_map.mp (hclean.observed observed hin)
    · intro pair hin
      obtain ⟨entry, hentry, hkey⟩ := List.mem_map.mp (hclean.pairs pair hin)
      have hcontext := ComparisonContext.key_injective hkey
      obtain ⟨context, hmem, hreview⟩ := context_of_entry hrecords hentry
      obtain ⟨_, _, _, hcomplete⟩ := context_complete hreview
        (AllVerified.context (t := t) hall hmem)
      refine ⟨entry, hentry, hcontext, hcomplete.known pair ?_⟩
      exact List.mem_filter.mpr ⟨hin, decide_eq_true hcontext.symm⟩
    · intro entry hentry
      obtain ⟨context, hmem, hreview⟩ := context_of_entry hrecords hentry
      obtain ⟨rules, readings, evaluated, hcomplete⟩ := context_complete hreview
        (AllVerified.context (t := t) hall hmem)
      exact ⟨rules, _, comparison_mem hmem hcomplete, hcomplete.verified⟩
    · intro finding hin
      obtain ⟨original, horiginal, rfl⟩ := List.mem_map.mp hin
      rw [decorate_status]
      exact hall original horiginal

theorem review_verified_sound_sample : ∃ r,
    review sampleRuntime .default sampleReviewer Sorter.kahn sampleInput = .ok r ∧
      VerifiedCase sampleRuntime .default sampleReviewer sampleInput r := by
  have hstatus : (review sampleRuntime .default sampleReviewer Sorter.kahn sampleInput).map (·.status) =
      .ok .verified := by decide +kernel
  obtain ⟨r, hreview, hverified⟩ := map_ok.mp hstatus
  exact ⟨r, hreview, review_verified_sound hreview hverified⟩

end AppraisalReview
