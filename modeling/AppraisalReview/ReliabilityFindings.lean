import AppraisalReview.EvidenceGate

set_option autoImplicit false

/-!
# Where findings about the evidence come from

Only the reading of an inventory factor reports `evidence_reliability`: the
other phases of a review have kinds of their own.
-/
namespace AppraisalReview
open TopologicalSort Raising

def ReviewFinding.Other (finding : ReviewFinding) : Prop := finding.kind ≠ "evidence_reliability"

variable {rt : Runtime} {ctx : DecimalContext} {reviewer : CaseReviewer} {sorter : Sorter String}
variable {input : ReviewInput}

theorem whenever_other {condition : Bool} {finding f : ReviewFinding} (h : finding.Other)
    (hin : f ∈ whenever condition finding) : f.Other := by
  obtain ⟨-, rfl⟩ := mem_whenever.mp hin
  exact h

theorem flatMap_whenever_other {α : Type} {l : List α} {condition : α → Bool}
    {finding : α → ReviewFinding} (h : ∀ x, (finding x).Other) {f : ReviewFinding}
    (hin : f ∈ l.flatMap fun x => whenever (condition x) (finding x)) : f.Other := by
  obtain ⟨x, -, hx⟩ := List.mem_flatMap.mp hin
  exact whenever_other (h x) hx

theorem opening_other (t : ReviewTrace) {f : ReviewFinding} (hin : f ∈ t.opening reviewer input) :
    f.Other := by
  rw [ReviewTrace.opening, List.mem_append] at hin
  rcases hin with hin | hin
  · simp only [List.mem_cons, List.not_mem_nil, or_false] at hin
    rcases hin with rfl | rfl
    · unfold approvalFinding
      split <;> exact (by decide : ("approval" : String) ≠ "evidence_reliability")
    · unfold sourcesFinding
      split <;> exact (by decide : ("source_identity" : String) ≠ "evidence_reliability")
  · obtain ⟨violation, -, rfl⟩ := List.mem_map.mp hin
    exact (by decide : ("source_purpose" : String) ≠ "evidence_reliability")

theorem inventoryFindings_other {policy : ReviewPolicy} {facts : CaseFacts}
    {registry : SourceRegistry} {f : ReviewFinding}
    (hin : f ∈ inventoryFindings policy facts registry) : f.Other := by
  simp only [inventoryFindings, List.mem_append, or_assoc] at hin
  rcases hin with h | h | h | h | h | h | h | h
  · exact whenever_other (by simp [ReviewFinding.Other, inventoryFinding]) h
  · exact whenever_other (by simp [ReviewFinding.Other, inventoryFinding]) h
  · exact flatMap_whenever_other (fun _ => by simp [ReviewFinding.Other, slotBindingFinding]) h
  · exact flatMap_whenever_other (fun _ => by simp [ReviewFinding.Other, inventoryFinding]) h
  · exact flatMap_whenever_other (fun _ => by simp [ReviewFinding.Other, inventoryFinding]) h
  · exact flatMap_whenever_other (fun _ => by simp [ReviewFinding.Other, inventoryFinding]) h
  · obtain ⟨unresolved, -, rfl⟩ := List.mem_map.mp h
    simp [ReviewFinding.Other, inventoryFinding]
  · cases List.mem_singleton.mp h
    simp [ReviewFinding.Other, inventoryFinding]

theorem bindingFindings_other {policy : ReviewPolicy} {facts : CaseFacts}
    {registry : SourceRegistry} {f : ReviewFinding}
    (hin : f ∈ bindingFindings policy facts registry) : f.Other :=
  flatMap_whenever_other (fun _ => by simp [ReviewFinding.Other, sourceBindingFinding]) hin

theorem claimedFindings_other {claimed : Option (List FactorReviewResult)}
    {comparisons : List FactorReviewResult} {f : ReviewFinding}
    (hin : f ∈ claimedFindings claimed comparisons) : f.Other := by
  cases claimed with
  | none => exact absurd hin List.not_mem_nil
  | some supplied =>
    cases List.mem_singleton.mp hin
    simp [ReviewFinding.Other]

section arithmetic
variable {plan : ArithmeticPlan}

theorem examineAll_other {trusted : String → Option Decimal} {checks : List ArithmeticCheck}
    {stopped : List ReviewFinding} {comparisons : List ArithmeticComparison}
    (h : plan.examineAll rt ctx trusted checks = .ok (stopped, comparisons)) :
    ∀ f ∈ stopped, f.Other := by
  induction checks generalizing stopped comparisons with
  | nil =>
    cases h
    exact fun _ h => absurd h List.not_mem_nil
  | cons check rest ih =>
    rw [ArithmeticPlan.examineAll] at h
    obtain ⟨outcome, hexamine, h⟩ := bind_ok.mp h
    obtain ⟨⟨findings, later⟩, hrest, h⟩ := bind_ok.mp h
    have hlater := ih hrest
    rw [ArithmeticPlan.examine] at hexamine
    split at hexamine
    · cases hexamine
      cases pure_ok.mp h
      exact List.forall_mem_cons.mpr
        ⟨by simp [ReviewFinding.Other, ArithmeticPlan.stoppedFinding], hlater⟩
    · split at hexamine
      · cases hexamine
        cases pure_ok.mp h
        exact List.forall_mem_cons.mpr
          ⟨by simp [ReviewFinding.Other, ArithmeticPlan.stoppedFinding], hlater⟩
      · obtain ⟨expected, -, hpure⟩ := bind_ok.mp hexamine
        cases pure_ok.mp hpure
        cases pure_ok.mp h
        exact hlater

theorem proposal_other {slot : ReviewSlot} {original : ObservedValue} {expected : Option Candidate}
    {kind trace : String} (h : proposal rt ctx slot original expected = .ok (.error (kind, trace))) :
    kind ≠ "evidence_reliability" := by
  unfold proposal at h
  split at h
  · split at h
    · cases h
      decide
    · split at h
      · cases h
        decide
      · cases h
  · split at h
    · cases h
    · split at h
      · cases h
      · cases h
      · cases h
        decide
  · cases h
    decide

theorem validateSlot_other {slot : ReviewSlot} {original : ObservedValue}
    {independent : Option Candidate} {constraints : List ArithmeticComparison}
    {ready authorized : Bool} {validated : ValidatedSlot}
    (h : validateSlot rt ctx slot original independent constraints ready authorized =
      .ok validated) : validated.kind ≠ "evidence_reliability" := by
  rw [validateSlot] at h
  obtain ⟨proposed, hproposed, h⟩ := bind_ok.mp h
  split at h
  · cases pure_ok.mp h
    exact proposal_other hproposed
  · split at h
    · cases pure_ok.mp h
      simp
    · split at h
      · cases pure_ok.mp h
        simp
      · split at h
        · cases pure_ok.mp h
          simp
        · obtain ⟨equal, -, h⟩ := bind_ok.mp h
          cases pure_ok.mp h
          by_cases hblank : original.state = .blank <;> simp [hblank]

theorem step_other {trusted : String → Option Decimal} {target : String}
    {findings : List ReviewFinding} {number : Option Decimal}
    (h : plan.step rt ctx trusted target = .ok (findings, number)) : ∀ f ∈ findings, f.Other := by
  rw [ArithmeticPlan.step] at h
  obtain ⟨⟨stopped, comparisons⟩, hexamine, h⟩ := bind_ok.mp h
  have hstopped := examineAll_other hexamine
  simp only at h
  split at h
  · obtain ⟨validated, hvalidated, h⟩ := bind_ok.mp h
    obtain ⟨compared, hcompared, h⟩ := bind_ok.mp h
    cases pure_ok.mp h
    intro f hf
    rw [List.mem_append, List.mem_append, List.mem_singleton] at hf
    rcases hf with (hf | hf) | rfl
    · exact hstopped f hf
    · obtain ⟨comparison, -, hfinding⟩ := forall₂_right (mapM_ok.mp hcompared) hf
      obtain ⟨accepted, -, hpure⟩ := bind_ok.mp hfinding
      cases pure_ok.mp hpure
      simp [ReviewFinding.Other]
    · exact validateSlot_other hvalidated
  · cases pure_ok.mp h
    exact hstopped

theorem settle_forall {V : Type} {step : (String → Option V) → String →
    Except Escape (List ReviewFinding × Option V)} {P : ReviewFinding → Prop}
    (hstep : ∀ env n out value, step env n = .ok (out, value) → ∀ f ∈ out, P f)
    {order : List String} {known final : Dict String V} {out : List ReviewFinding}
    (h : settle step order known = .ok (out, final)) : ∀ f ∈ out, P f := by
  induction order generalizing known out with
  | nil =>
    cases h
    exact fun _ h => absurd h List.not_mem_nil
  | cons first rest ih =>
    rw [settle] at h
    split at h
    · cases h
    · rename_i now value hnow
      split at h
      · cases h
      · rename_i later final' hlater
        cases h
        intro f hf
        exact (List.mem_append.mp hf).elim (hstep _ _ _ _ hnow f) (ih hlater f)

end arithmetic

structure Unreliable (rt : Runtime) (reviewer : CaseReviewer) (input : ReviewInput)
    (finding : ReviewFinding) (entry : InventoryContext) (factor : String) (pair : EvidencedPair) :
    Prop where
  entered : entry ∈ input.policy.inventory.contexts
  listed : factor ∈ entry.factorIds
  context : finding.context = some entry.context
  factorId : finding.factorId = some factor
  found : pairOf input.facts entry.context factor = some pair
  unreliable : pairReliable rt input.registry (reviewer.authorized input) pair = .ok false

theorem readFactor_other {facts : CaseFacts} {registry : SourceRegistry} {authorized : Bool}
    {context : ComparisonContext} {rules : FactorRuleSet} {factor : String} {reading : FactorReading}
    (h : readFactor rt facts registry authorized context rules factor = .ok reading)
    {f : ReviewFinding} (hin : f ∈ reading.findings) :
    f.Other ∨ (f = reliabilityFinding context factor ∧ ∃ pair,
      pairOf facts context factor = some pair ∧
        pairReliable rt registry authorized pair = .ok false) := by
  rw [readFactor] at h
  split at h
  · cases h
    cases List.mem_singleton.mp hin
    exact Or.inl (by simp [ReviewFinding.Other, missingFactorFinding])
  · rename_i pair hpair
    split at h
    · cases h
      cases List.mem_singleton.mp hin
      exact Or.inl (by simp [ReviewFinding.Other, missingFactorFinding])
    · obtain ⟨reliable, hreliable, h⟩ := bind_ok.mp h
      cases reliable with
      | true =>
        cases pure_ok.mp h
        exact absurd hin List.not_mem_nil
      | false =>
        cases pure_ok.mp h
        cases List.mem_singleton.mp hin
        exact Or.inr ⟨rfl, pair, hpair, hreliable⟩

theorem reviewContext_other {entry : InventoryContext} {context : ContextReview}
    (hentry : entry ∈ input.policy.inventory.contexts)
    (h : reviewContext rt ctx reviewer input entry = .ok context) {f : ReviewFinding}
    (hin : f ∈ context.findings) :
    f.Other ∨ ∃ factor pair, Unreliable rt reviewer input f entry factor pair := by
  rw [reviewContext] at h
  split at h
  · cases h
    cases List.mem_singleton.mp hin
    exact Or.inl (by simp [ReviewFinding.Other, contextFinding])
  · rename_i rules _
    split at h
    · cases h
      cases List.mem_singleton.mp hin
      left
      simp only [ReviewFinding.Other, contextFinding]
      split <;> decide
    · split at h
      · cases h
        cases List.mem_singleton.mp hin
        exact Or.inl (by simp [ReviewFinding.Other, contextFinding])
      · obtain ⟨readings, evaluated, hevaluation⟩ := (evaluateContext_ok rt ctx reviewer).mp h
        rw [hevaluation.outcome] at hin
        simp only [contextOutcome, coverageFindings, List.mem_append, or_assoc] at hin
        rcases hin with hin | hin | hin | hin | hin
        · exact Or.inl (whenever_other (by simp [ReviewFinding.Other, contextFinding]) hin)
        · exact Or.inl (whenever_other (by simp [ReviewFinding.Other, contextFinding]) hin)
        · obtain ⟨-, hfindings, -⟩ := readFactors_ok rt hevaluation.read
          obtain ⟨factor, hfactor, reading, hreading, hf⟩ := hfindings f hin
          rcases readFactor_other hreading.read hf with hother | ⟨rfl, pair, hfound, hunreliable⟩
          · exact Or.inl hother
          · exact Or.inr ⟨factor, pair, hentry, hfactor, rfl, rfl, hfound, hunreliable⟩
        · cases List.mem_singleton.mp hin
          exact Or.inl (by simp [ReviewFinding.Other, calculationFinding])
        · obtain ⟨item, -, rfl⟩ := List.mem_map.mp hin
          exact Or.inl (by simp [ReviewFinding.Other, factorFinding])
  · cases h
    cases List.mem_singleton.mp hin
    exact Or.inl (by simp [ReviewFinding.Other, contextFinding])

theorem decorate_keeps (slots : List ReviewSlot) (origins : List String) (finding : ReviewFinding) :
    (decorate slots origins finding).kind = finding.kind ∧
      (decorate slots origins finding).context = finding.context ∧
      (decorate slots origins finding).factorId = finding.factorId := by
  simp only [decorate]
  split <;> exact ⟨rfl, rfl, rfl⟩

theorem finish_findings {policy : ReviewPolicy} {slots : List ReviewSlot}
    {origins required : List String} {comparisons : List FactorReviewResult}
    {findings : List ReviewFinding} {f : ReviewFinding}
    (hin : f ∈ (finish policy slots origins required comparisons findings).findings) :
    ∃ finding ∈ findings, f.kind = finding.kind ∧ f.context = finding.context ∧
      f.factorId = finding.factorId := by
  obtain ⟨finding, hfinding, rfl⟩ := List.mem_map.mp hin
  exact ⟨finding, hfinding, decorate_keeps slots origins finding⟩

/-- A finding about evidence belongs to a factor of the inventory with an unreliable pair. -/
theorem review_unreliable {r : CaseReviewResult} (h : review rt ctx reviewer sorter input = .ok r)
    {f : ReviewFinding} (hin : f ∈ r.findings) (hkind : f.kind = "evidence_reliability") :
    ∃ entry factor pair, Unreliable rt reviewer input f entry factor pair := by
  have hstop : ∀ {policy : ReviewPolicy} {slots : List ReviewSlot} {origins required : List String}
      {findings : List ReviewFinding}, (∀ finding ∈ findings, finding.Other) →
      f ∉ (finish policy slots origins required [] findings).findings := by
    intro policy slots origins required findings hother hmem
    obtain ⟨finding, hfinding, hsame, -⟩ := finish_findings hmem
    exact hother finding hfinding (hsame ▸ hkind)
  cases (review_ok_iff rt ctx reviewer sorter).mp h with
  | invalid _ hr =>
    subst hr
    exact absurd hin (hstop fun finding hfinding => by
      cases List.mem_singleton.mp hfinding
      simp [ReviewFinding.Other])
  | identity _ _ hr =>
    subst hr
    exact absurd hin (hstop fun finding hfinding => by
      cases List.mem_singleton.mp hfinding
      simp [ReviewFinding.Other])
  | duplicate t _ _ _ _ _ hr =>
    subst hr
    refine absurd hin (hstop fun finding hfinding => ?_)
    rcases List.mem_append.mp hfinding with hfinding | hfinding
    · exact opening_other t hfinding
    · cases List.mem_singleton.mp hfinding
      simp [ReviewFinding.Other, inventoryFinding]
  | complete t hrecords hr =>
    subst hr
    obtain ⟨finding, hfinding, hsame, hcontext, hfactor⟩ := finish_findings hin
    have hnot : ¬ finding.Other := fun hother => hother (hsame ▸ hkind)
    simp only [ReviewTrace.before, List.mem_append, or_assoc] at hfinding
    rcases hfinding with hmem | hmem | hmem | hmem | hmem | hmem
    · exact absurd (opening_other t hmem) hnot
    · exact absurd (inventoryFindings_other hmem) hnot
    · exact absurd (bindingFindings_other hmem) hnot
    · obtain ⟨context, hin, hmem⟩ := List.mem_flatMap.mp hmem
      obtain ⟨entry, hentry, hreview⟩ := forall₂_right hrecords.contexts hin
      rcases reviewContext_other hentry hreview hmem with hother | ⟨factor, pair, hunreliable⟩
      · exact absurd hother hnot
      · exact ⟨entry, factor, pair, hunreliable.entered, hunreliable.listed,
          hcontext.trans hunreliable.context, hfactor.trans hunreliable.factorId,
          hunreliable.found, hunreliable.unreliable⟩
    · exact absurd (claimedFindings_other hmem) hnot
    · exact absurd (settle_forall (fun _ _ _ _ => step_other) hrecords.arithmetic finding hmem) hnot

end AppraisalReview
