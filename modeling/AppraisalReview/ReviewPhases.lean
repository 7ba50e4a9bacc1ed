import AppraisalReview.CaseReview
import AppraisalReview.EngineLaws

set_option autoImplicit false

/-!
# The phases of a review that ran to its end

What one review computed on the way, and the inversion of each phase: which
values a successful phase rests on and which findings it leaves behind.
-/
namespace AppraisalReview
open TopologicalSort Raising

variable (rt : Runtime) (ctx : DecimalContext) (reviewer : CaseReviewer) (sorter : Sorter String)

structure ReviewTrace where
  matched : Bool
  violations : List SourcePurposes.Violation
  contexts : List ContextReview
  arithmetic : List ReviewFinding
  numbers : Dict String Decimal

namespace ReviewTrace
variable (input : ReviewInput) (t : ReviewTrace)

def origins : List String :=
  sortedSet (t.violations.filterMap fun violation =>
    originOf input.policy.inventory.slots violation.1)

def opening : List ReviewFinding :=
  [approvalFinding (reviewer.authorized input), sourcesFinding t.matched] ++
    t.violations.map violationFinding

def comparisons : List FactorReviewResult := t.contexts.filterMap ContextReview.comparison

def before : List ReviewFinding :=
  t.opening reviewer input ++ inventoryFindings input.policy input.facts input.registry ++
    bindingFindings input.policy input.facts input.registry ++
    t.contexts.flatMap ContextReview.findings ++ claimedFindings input.claimed t.comparisons

def required : List String := initialIds ++ t.violations.map Prod.fst ++ requiredIds input

def plan : ArithmeticPlan where
  inventory := input.policy.inventory
  facts := input.facts
  registry := input.registry
  version := input.policy.identity.version
  expected := t.contexts.flatMap ContextReview.expected
  sourceTrust := reviewer.authorized input && t.violations.isEmpty &&
    !trustBroken (t.before reviewer input)
  cyclic := (evaluationOrder sorter input.policy.inventory).2

def result : CaseReviewResult :=
  finish input.policy input.policy.inventory.slots (t.origins input) (t.required input)
    t.comparisons (t.before reviewer input ++ t.arithmetic)

structure Records : Prop where
  valid : (input.policy.valid rt ctx && input.facts.valid && input.registry.valid) = true
  identity : input.facts.identity = input.policy.identity
  matched : sourcesMatch rt input.policy.registry input.registry = .ok t.matched
  violations : sourceViolations rt input.policy input.facts input.registry input.forms
    input.criteria = .ok t.violations
  distinct : duplicateIdentity input.policy input.facts = false
  contexts : List.Forall₂ (fun entry context => reviewContext rt ctx reviewer input entry = .ok context)
    input.policy.inventory.contexts t.contexts
  arithmetic : settle ((t.plan reviewer sorter input).step rt ctx)
    (evaluationOrder sorter input.policy.inventory).1 Dict.empty = .ok (t.arithmetic, t.numbers)

end ReviewTrace

theorem reviewContexts_ok (input : ReviewInput) (entries : List InventoryContext)
    (contexts : List ContextReview) :
    reviewContexts rt ctx reviewer input entries = .ok contexts ↔
      List.Forall₂ (fun entry context => reviewContext rt ctx reviewer input entry = .ok context)
        entries contexts := by
  induction entries generalizing contexts with
  | nil =>
    rw [List.forall₂_nil_left_iff]
    exact pure_ok.trans eq_comm
  | cons entry rest ih =>
    rw [reviewContexts, bind_ok]
    constructor
    · rintro ⟨first, hfirst, hrest⟩
      obtain ⟨later, hlater, hcons⟩ := bind_ok.mp hrest
      rw [← pure_ok.mp hcons]
      exact List.Forall₂.cons hfirst ((ih later).mp hlater)
    · intro h
      cases h with
      | cons hfirst hlater =>
        exact ⟨_, hfirst, bind_ok.mpr ⟨_, (ih _).mpr hlater, rfl⟩⟩

structure Stopped (r : CaseReviewResult) : Prop where
  failed : r.status = .failed
  noComparisons : r.comparisons = []

theorem finish_failed {policy : ReviewPolicy} {slots : List ReviewSlot}
    {origins required : List String} {comparisons : List FactorReviewResult}
    {findings : List ReviewFinding} {finding : ReviewFinding} (hin : finding ∈ findings)
    (hfailed : finding.status = .failed) :
    (finish policy slots origins required comparisons findings).status = .failed := by
  have hany : findings.any (fun finding => decide (finding.status = .failed)) = true :=
    List.any_eq_true.mpr ⟨finding, hin, decide_eq_true hfailed⟩
  simp only [finish, reviewStatus, hany, if_true]

def refusal (policy : ReviewPolicy) (kind trace : String) : CaseReviewResult :=
  finish policy [] [] initialIds []
    [{ id := "trust", kind := kind, status := .failed, trace := trace }]

def invalidRefusal (policy : ReviewPolicy) : CaseReviewResult :=
  refusal policy "invalid_input" "Invalid or nonfinite typed material"

def identityRefusal (policy : ReviewPolicy) : CaseReviewResult :=
  refusal policy "case_identity" "Case identity/version does not match policy"

def ReviewTrace.duplicate (input : ReviewInput) (t : ReviewTrace) : CaseReviewResult :=
  finish input.policy input.policy.inventory.slots (t.origins input)
    (initialIds ++ t.violations.map Prod.fst) []
    (t.opening reviewer input ++
      [inventoryFinding "duplicate_identity" .failed "Duplicate composite identities"])

inductive ReviewEnd (input : ReviewInput) (r : CaseReviewResult) : Prop
  | invalid
      (invalid : (input.policy.valid rt ctx && input.facts.valid && input.registry.valid) = false)
      (result : r = invalidRefusal input.policy)
  | identity
      (valid : (input.policy.valid rt ctx && input.facts.valid && input.registry.valid) = true)
      (mismatch : input.facts.identity ≠ input.policy.identity)
      (result : r = identityRefusal input.policy)
  | duplicate (t : ReviewTrace)
      (valid : (input.policy.valid rt ctx && input.facts.valid && input.registry.valid) = true)
      (identity : input.facts.identity = input.policy.identity)
      (matched : sourcesMatch rt input.policy.registry input.registry = .ok t.matched)
      (violations : sourceViolations rt input.policy input.facts input.registry input.forms
        input.criteria = .ok t.violations)
      (duplicate : duplicateIdentity input.policy input.facts = true)
      (result : r = t.duplicate reviewer input)
  | complete (t : ReviewTrace) (records : t.Records rt ctx reviewer sorter input)
      (result : r = t.result reviewer input)

theorem review_ok_iff {input : ReviewInput} {r : CaseReviewResult} :
    review rt ctx reviewer sorter input = .ok r ↔ ReviewEnd rt ctx reviewer sorter input r := by
  constructor
  · intro h
    rw [review] at h
    split at h
    · rename_i hinvalid
      cases h
      exact .invalid ((Bool.not_eq_true' _).mp hinvalid) rfl
    · rename_i hvalid
      rw [Bool.not_eq_true, Bool.not_eq_false'] at hvalid
      split at h
      · rename_i hmismatch
        cases h
        exact .identity hvalid hmismatch rfl
      · rename_i hidentity
        obtain ⟨matched, hmatched, h⟩ := bind_ok.mp h
        obtain ⟨violations, hviolations, h⟩ := bind_ok.mp h
        split at h
        · rename_i hduplicate
          cases h
          exact .duplicate ⟨matched, violations, [], [], Dict.empty⟩ hvalid (not_not.mp hidentity)
            hmatched hviolations hduplicate rfl
        · rename_i hdistinct
          obtain ⟨contexts, hcontexts, h⟩ := bind_ok.mp h
          obtain ⟨⟨arithmetic, numbers⟩, harithmetic, h⟩ := bind_ok.mp h
          exact .complete ⟨matched, violations, contexts, arithmetic, numbers⟩
            ⟨hvalid, not_not.mp hidentity, hmatched, hviolations, by simpa using hdistinct,
              (reviewContexts_ok rt ctx reviewer input _ _).mp hcontexts, harithmetic⟩
            (pure_ok.mp h).symm
  · intro h
    rw [review]
    cases h with
    | invalid hinvalid hr =>
      rw [if_pos ((Bool.not_eq_true' _).mpr hinvalid), hr]
      rfl
    | identity hvalid hmismatch hr =>
      rw [if_neg (by simp [hvalid]), if_pos hmismatch, hr]
      rfl
    | duplicate t hvalid hidentity hmatched hviolations hduplicate hr =>
      rw [if_neg (by simp [hvalid]), if_neg (not_not.mpr hidentity)]
      refine bind_ok.mpr ⟨_, hmatched, bind_ok.mpr ⟨_, hviolations, ?_⟩⟩
      rw [if_pos hduplicate, hr]
      rfl
    | complete t ht hr =>
      have hcontexts := (reviewContexts_ok rt ctx reviewer input _ _).mpr ht.contexts
      rw [if_neg (by simp [ht.valid]), if_neg (not_not.mpr ht.identity)]
      refine bind_ok.mpr ⟨_, ht.matched, bind_ok.mpr ⟨_, ht.violations, ?_⟩⟩
      rw [if_neg (by simp [ht.distinct]), hr]
      exact bind_ok.mpr ⟨_, hcontexts, bind_ok.mpr ⟨_, ht.arithmetic, rfl⟩⟩

theorem review_ok {input : ReviewInput} {r : CaseReviewResult}
    (h : review rt ctx reviewer sorter input = .ok r) :
    Stopped r ∨ ∃ t : ReviewTrace, t.Records rt ctx reviewer sorter input ∧
      r = t.result reviewer input := by
  cases (review_ok_iff rt ctx reviewer sorter).mp h with
  | invalid _ hr => exact Or.inl (hr ▸ ⟨finish_failed List.mem_cons_self rfl, rfl⟩)
  | identity _ _ hr => exact Or.inl (hr ▸ ⟨finish_failed List.mem_cons_self rfl, rfl⟩)
  | duplicate t _ _ _ _ _ hr =>
    exact Or.inl (hr ▸ ⟨finish_failed (List.mem_append_right _ List.mem_cons_self) rfl, rfl⟩)
  | complete t ht hr => exact Or.inr ⟨t, ht, hr⟩

theorem finish_verified {policy : ReviewPolicy} {slots : List ReviewSlot}
    {origins required : List String} {comparisons : List FactorReviewResult}
    {findings : List ReviewFinding} :
    (finish policy slots origins required comparisons findings).status = .verified ↔
      (∀ finding ∈ findings, finding.status = .verified) ∧
        ∀ id ∈ required, id ∈ verifiedIds findings := by
  have hblocked : blockedIds findings = [] ↔ ∀ finding ∈ findings, finding.status = .verified := by
    simp [blockedIds, List.filter_eq_nil_iff]
  simp only [finish, reviewStatus]
  constructor
  · intro h
    split_ifs at h with hfailed hopen
    push Not at hopen
    exact ⟨hblocked.mp hopen.1, by simpa using hopen.2⟩
  · rintro ⟨hverified, hrequired⟩
    have hnone : findings.any (fun finding => decide (finding.status = .failed)) = false := by
      rw [List.any_eq_false]
      intro finding hin
      simp [hverified finding hin]
    rw [hnone, if_neg Bool.false_ne_true, if_neg]
    push Not
    exact ⟨hblocked.mpr hverified, by simpa using hrequired⟩

theorem mem_sortedSet {ids : List String} {id : String} : id ∈ sortedSet ids ↔ id ∈ ids := by
  rw [sortedSet, (List.perm_insertionSort _ _).mem_iff, List.mem_dedup]

theorem finish_coverage (policy : ReviewPolicy) (slots : List ReviewSlot) (origins : List String)
    (comparisons : List FactorReviewResult) {required : List String}
    {findings : List ReviewFinding} (hverified : ∀ finding ∈ findings, finding.status = .verified)
    (hrequired : ∀ id ∈ required, id ∈ verifiedIds findings) :
    (finish policy slots origins required comparisons findings).coverage.missing = [] ∧
      ∀ id ∈ required,
        id ∈ (finish policy slots origins required comparisons findings).coverage.verified := by
  have hblocked : blockedIds findings = [] := by
    rw [blockedIds, List.map_eq_nil_iff, List.filter_eq_nil_iff]
    intro finding hin
    simp [hverified finding hin]
  have hcovered : (verifiedIds findings).filter (· ∉ blockedIds findings) = verifiedIds findings := by
    rw [hblocked, List.filter_eq_self]
    exact fun _ _ => by simp
  simp only [finish, hcovered]
  constructor
  · have hnone : required.filter (· ∉ verifiedIds findings) = [] := by
      rw [List.filter_eq_nil_iff]
      intro id hid
      simpa using hrequired id hid
    rw [hnone]
    rfl
  · exact fun id hid => mem_sortedSet.mpr (hrequired id hid)

theorem decorate_status (slots : List ReviewSlot) (origins : List String) (finding : ReviewFinding) :
    (decorate slots origins finding).status = finding.status := by
  simp only [decorate]
  split <;> rfl

theorem mem_whenever {condition : Bool} {finding f : ReviewFinding} :
    f ∈ whenever condition finding ↔ condition = true ∧ f = finding := by
  unfold whenever
  split_ifs with h <;> simp [h]

theorem whenever_off {condition : Bool} {finding : ReviewFinding}
    (h : ∀ f ∈ whenever condition finding, f.status = .verified)
    (hopen : finding.status ≠ .verified) : condition = false := by
  cases condition with
  | false => rfl
  | true => exact absurd (h finding (mem_whenever.mpr ⟨rfl, rfl⟩)) hopen

structure ContextEvaluation (input : ReviewInput) (entry : InventoryContext) (rules : FactorRuleSet)
    (readings : ContextReadings) (evaluated : FactorReviewResult) (context : ContextReview) :
    Prop where
  read : readFactors rt input.facts input.registry (reviewer.authorized input) entry.context rules
    entry.factorIds = .ok readings
  requestValid : (contextRequest input rules readings).valid = true
  evaluate : (engineFor reviewer rules readings.confirmed).evaluate rt ctx
    (contextRequest input rules readings) = .ok evaluated
  outcome : context = contextOutcome rt ctx reviewer input entry rules readings evaluated

theorem evaluateContext_ok {input : ReviewInput} {entry : InventoryContext} {rules : FactorRuleSet}
    {context : ContextReview} :
    evaluateContext rt ctx reviewer input entry rules = .ok context ↔
      ∃ readings evaluated,
        ContextEvaluation rt ctx reviewer input entry rules readings evaluated context := by
  rw [evaluateContext, bind_ok]
  constructor
  · rintro ⟨readings, hread, h⟩
    split at h
    · rename_i hvalid
      obtain ⟨evaluated, hevaluate, hpure⟩ := bind_ok.mp h
      exact ⟨readings, evaluated, hread, hvalid, hevaluate, (pure_ok.mp hpure).symm⟩
    · cases h
  · rintro ⟨readings, evaluated, hread, hvalid, hevaluate, rfl⟩
    refine ⟨readings, hread, ?_⟩
    rw [if_pos hvalid]
    exact bind_ok.mpr ⟨evaluated, hevaluate, rfl⟩

structure Selected (input : ReviewInput) (entry : InventoryContext) (rules : ScopedRules) :
    Prop where
  only : input.policy.ruleSets.filter (ScopedRules.applies input.policy entry.context) = [rules]
  source : ruleSourceValid input.registry entry rules = true
  distinct : entry.factorIds.Nodup

theorem reviewContext_ok {input : ReviewInput} {entry : InventoryContext} {context : ContextReview}
    (h : reviewContext rt ctx reviewer input entry = .ok context) :
    (∃ finding, context = { findings := [finding] } ∧ finding.status ≠ .verified) ∨
    ∃ rules readings evaluated, Selected input entry rules ∧
      ContextEvaluation rt ctx reviewer input entry rules.rules readings evaluated context := by
  rw [reviewContext] at h
  split at h
  · left
    cases h
    exact ⟨_, rfl, EvaluationStatus.noConfusion⟩
  · rename_i rules honly
    split at h
    · left
      cases h
      exact ⟨_, rfl, EvaluationStatus.noConfusion⟩
    · rename_i hsource
      split at h
      · left
        cases h
        exact ⟨_, rfl, EvaluationStatus.noConfusion⟩
      · rename_i hdistinct
        right
        obtain ⟨readings, evaluated, hevaluation⟩ := (evaluateContext_ok rt ctx reviewer).mp h
        exact ⟨rules, readings, evaluated, ⟨honly, by simpa using hsource, not_not.mp hdistinct⟩,
          hevaluation⟩
  · left
    cases h
    exact ⟨_, rfl, EvaluationStatus.noConfusion⟩

structure FactorRead (facts : CaseFacts) (registry : SourceRegistry) (authorized : Bool)
    (context : ComparisonContext) (rules : FactorRuleSet) (readings : ContextReadings)
    (factor : String) (reading : FactorReading) : Prop where
  read : readFactor rt facts registry authorized context rules factor = .ok reading
  findings : ∀ finding ∈ reading.findings, finding ∈ readings.findings
  reliable : ∀ pair, reading.reliable = some pair → pair ∈ readings.reliable
  confirmed : ∀ entry ∈ reading.confirmed, entry ∈ readings.confirmed

theorem readFactors_ok {facts : CaseFacts} {registry : SourceRegistry} {authorized : Bool}
    {context : ComparisonContext} {rules : FactorRuleSet} {factors : List String}
    {readings : ContextReadings}
    (h : readFactors rt facts registry authorized context rules factors = .ok readings) :
    (∀ factor ∈ factors, ∃ reading,
      FactorRead rt facts registry authorized context rules readings factor reading) ∧
    (∀ finding ∈ readings.findings, ∃ factor ∈ factors, ∃ reading,
      FactorRead rt facts registry authorized context rules readings factor reading ∧
        finding ∈ reading.findings) ∧
    (∀ pair ∈ readings.reliable, ∃ factor ∈ factors, ∃ reading,
      FactorRead rt facts registry authorized context rules readings factor reading ∧
        reading.reliable = some pair) ∧
    ∀ entry ∈ readings.confirmed, ∃ factor ∈ factors, ∃ reading,
      FactorRead rt facts registry authorized context rules readings factor reading ∧
        entry ∈ reading.confirmed := by
  induction factors generalizing readings with
  | nil =>
    cases h
    refine ⟨fun _ h => absurd h List.not_mem_nil, fun _ h => absurd h List.not_mem_nil,
      fun _ h => absurd h List.not_mem_nil, fun _ h => absurd h List.not_mem_nil⟩
  | cons first rest ih =>
    rw [readFactors] at h
    obtain ⟨reading, hread, h⟩ := bind_ok.mp h
    obtain ⟨later, hlater, h⟩ := bind_ok.mp h
    cases pure_ok.mp h
    obtain ⟨hall, hfindings, hpairs, hconfirmed⟩ := ih hlater
    have hfirst : FactorRead rt facts registry authorized context rules
        ⟨reading.findings ++ later.findings, reading.reliable.toList ++ later.reliable,
          reading.confirmed ++ later.confirmed⟩ first reading :=
      ⟨hread, fun _ h => List.mem_append_left _ h,
        fun pair h => List.mem_append_left _ (by simp [h]), fun _ h => List.mem_append_left _ h⟩
    have hwiden : ∀ factor r, FactorRead rt facts registry authorized context rules later factor r →
        FactorRead rt facts registry authorized context rules
          ⟨reading.findings ++ later.findings, reading.reliable.toList ++ later.reliable,
            reading.confirmed ++ later.confirmed⟩ factor r :=
      fun factor r hr => ⟨hr.read, fun f hf => List.mem_append_right _ (hr.findings f hf),
        fun pair hp => List.mem_append_right _ (hr.reliable pair hp),
        fun e he => List.mem_append_right _ (hr.confirmed e he)⟩
    refine ⟨?_, ?_, ?_, ?_⟩
    · intro factor hfactor
      rcases List.mem_cons.mp hfactor with rfl | hfactor
      · exact ⟨reading, hfirst⟩
      · obtain ⟨r, hr⟩ := hall factor hfactor
        exact ⟨r, hwiden factor r hr⟩
    · intro finding hfinding
      rcases List.mem_append.mp hfinding with hf | hf
      · exact ⟨first, List.mem_cons_self, reading, hfirst, hf⟩
      · obtain ⟨factor, hfactor, r, hr, hin⟩ := hfindings finding hf
        exact ⟨factor, List.mem_cons_of_mem _ hfactor, r, hwiden factor r hr, hin⟩
    · intro pair hpair
      rcases List.mem_append.mp hpair with hp | hp
      · exact ⟨first, List.mem_cons_self, reading, hfirst, by simpa using hp⟩
      · obtain ⟨factor, hfactor, r, hr, hin⟩ := hpairs pair hp
        exact ⟨factor, List.mem_cons_of_mem _ hfactor, r, hwiden factor r hr, hin⟩
    · intro entry hentry
      rcases List.mem_append.mp hentry with he | he
      · exact ⟨first, List.mem_cons_self, reading, hfirst, he⟩
      · obtain ⟨factor, hfactor, r, hr, hin⟩ := hconfirmed entry he
        exact ⟨factor, List.mem_cons_of_mem _ hfactor, r, hwiden factor r hr, hin⟩

theorem readFactor_ok {facts : CaseFacts} {registry : SourceRegistry} {authorized : Bool}
    {context : ComparisonContext} {rules : FactorRuleSet} {factor : String} {reading : FactorReading}
    (h : readFactor rt facts registry authorized context rules factor = .ok reading) :
    (∃ finding, reading = ⟨[finding], none, []⟩ ∧ finding.status ≠ .verified) ∨
    ∃ pair, pairOf facts context factor = some pair ∧
      factor ∈ rules.rules.map FactorRule.factorId ∧
      reading.confirmed = confirmedSidesOf rt authorized factor pair ∧
      ((pairReliable rt registry authorized pair = .ok true ∧ reading.findings = [] ∧
          reading.reliable = some (effectivePair pair)) ∨
        (pairReliable rt registry authorized pair = .ok false ∧ reading.reliable = none ∧
          reading.findings = [reliabilityFinding context factor])) := by
  rw [readFactor] at h
  split at h
  · left
    cases h
    exact ⟨_, rfl, EvaluationStatus.noConfusion⟩
  · rename_i pair hpair
    split at h
    · left
      cases h
      exact ⟨_, rfl, EvaluationStatus.noConfusion⟩
    · rename_i hrule
      right
      obtain ⟨reliable, hreliable, h⟩ := bind_ok.mp h
      refine ⟨pair, hpair, not_not.mp hrule, ?_⟩
      cases reliable with
      | true =>
        cases pure_ok.mp h
        exact ⟨rfl, Or.inl ⟨hreliable, rfl, rfl⟩⟩
      | false =>
        cases pure_ok.mp h
        exact ⟨rfl, Or.inr ⟨hreliable, rfl, rfl⟩⟩

theorem pairOf_some {facts : CaseFacts} {context : ComparisonContext} {factor : String}
    {pair : EvidencedPair} (h : pairOf facts context factor = some pair) :
    pair ∈ facts.pairs ∧ pair.context = context ∧ pair.pair.factorId = factor := by
  have hin := List.mem_of_find?_eq_some h
  have hfactor := List.find?_some h
  rw [pairsOf, List.mem_filter] at hin
  exact ⟨hin.1, by simpa using hin.2, by simpa using hfactor⟩

theorem readFactors_sublist {facts : CaseFacts} {registry : SourceRegistry} {authorized : Bool}
    {context : ComparisonContext} {rules : FactorRuleSet} {factors : List String}
    {readings : ContextReadings}
    (h : readFactors rt facts registry authorized context rules factors = .ok readings) :
    readings.reliableFactors.Sublist factors := by
  induction factors generalizing readings with
  | nil =>
    cases h
    exact List.Sublist.refl _
  | cons first rest ih =>
    rw [readFactors] at h
    obtain ⟨reading, hread, h⟩ := bind_ok.mp h
    obtain ⟨later, hlater, h⟩ := bind_ok.mp h
    cases pure_ok.mp h
    have hrest : (later.reliable.map FactorPair.factorId).Sublist rest := ih hlater
    rcases readFactor_ok rt hread with ⟨finding, rfl, -⟩ |
      ⟨pair, hpair, -, -, ⟨-, -, hreliable⟩ | ⟨-, hreliable, -⟩⟩
    · exact hrest.cons _
    · have hid : (effectivePair pair).factorId = first := (pairOf_some hpair).2.2
      rw [ContextReadings.reliableFactors, hreliable]
      simp only [Option.toList, List.singleton_append, List.map_cons, hid]
      exact hrest.cons_cons _
    · rw [ContextReadings.reliableFactors, hreliable]
      exact hrest.cons _

theorem filter_singleton {α β : Type} [DecidableEq β] (key : α → β) {l : List α} {x : α}
    (hnodup : (l.map key).Nodup) (hx : x ∈ l) : l.filter (fun y => key y = key x) = [x] := by
  induction l with
  | nil => exact absurd hx List.not_mem_nil
  | cons first rest ih =>
    obtain ⟨hnot, hrest⟩ := List.nodup_cons.mp hnodup
    rcases List.mem_cons.mp hx with rfl | hx
    · rw [List.filter_cons_of_pos (by simp), List.filter_eq_nil_iff.mpr]
      intro y hy hkey
      exact hnot (List.mem_map.mpr ⟨y, hy, by simpa using hkey⟩)
    · have hne : key first ≠ key x := fun heq => hnot (heq ▸ List.mem_map_of_mem hx)
      rw [List.filter_cons_of_neg (by simpa using hne), ih hrest hx]

/-- The value of a factor slot is that of the one verified result of the factor. -/
theorem engineValue_factor {entry : InventoryContext} {readings : ContextReadings}
    {result : FactorReviewResult} {validation : VerificationReport} {slot : ReviewSlot}
    {factor : String} {value : Candidate} (hfactor : slot.factorId = some factor)
    (h : engineValue entry readings result validation slot = some value) :
    ∃ item ∈ result.results, item.factorId = factor ∧ item.status = .verified ∧
      resultValue item slot.value = some value := by
  simp only [engineValue, hfactor] at h
  split at h
  · rename_i item hitem
    have hin : item ∈ result.results.filter fun item => item.factorId = factor := by
      rw [hitem]
      exact List.mem_cons_self
    rw [List.mem_filter, decide_eq_true_eq] at hin
    split at h
    · rename_i hstatus
      exact ⟨item, hin.1, hin.2, hstatus.1, h⟩
    · cases h
  · cases h

theorem engineValue_total {entry : InventoryContext} {readings : ContextReadings}
    {result : FactorReviewResult} {validation : VerificationReport} {slot : ReviewSlot}
    {value : Candidate} (hfactor : slot.factorId = none)
    (h : engineValue entry readings result validation slot = some value) :
    slot.value = .total ∧ ∃ total, result.summary.totalAdjustmentPercent = some total ∧
      value = .number total.decimal := by
  simp only [engineValue, hfactor] at h
  split at h
  · rename_i htotal
    obtain ⟨total, hsome, hvalue⟩ := Option.map_eq_some_iff.mp h
    exact ⟨htotal.1, total, hsome, hvalue.symm⟩
  · cases h

/-- A valid slot belongs to a registered context, and to a factor of it exactly
when its value does. -/
theorem ReviewSlot.binds {inventory : ReviewInventory} {slot : ReviewSlot}
    (h : slot.bindsIn inventory = true) :
    ∃ entry ∈ inventory.contexts, entry.context = slot.context ∧
      ((slot.value.factorBound = true ∧ ∃ factor ∈ entry.factorIds, slot.factorId = some factor) ∨
        (slot.value.factorBound = false ∧ slot.factorId = none)) := by
  rw [ReviewSlot.bindsIn] at h
  split at h
  · cases h
  · rename_i entry hentry
    have hkey := List.find?_some hentry
    refine ⟨entry, List.mem_of_find?_eq_some hentry,
      ComparisonContext.key_injective (by simpa using hkey), ?_⟩
    cases hbound : slot.value.factorBound with
    | true =>
      rw [hbound, if_pos rfl] at h
      left
      cases hfactor : slot.factorId with
      | none => rw [hfactor] at h; cases h
      | some factor =>
        rw [hfactor] at h
        exact ⟨rfl, factor, by simpa using h, rfl⟩
    | false =>
      rw [hbound, if_neg Bool.false_ne_true] at h
      exact Or.inr ⟨rfl, by simpa using h⟩

end AppraisalReview
