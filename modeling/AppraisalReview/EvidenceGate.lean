import AppraisalReview.ReviewPhases

set_option autoImplicit false

/-!
# The evidence gate

A verified factor result rests on citations that resolve, on evidence that
matches them both ways, and on a native measurement of sufficient confidence or
a reviewer's confirmation of exactly this side.
-/
namespace AppraisalReview
open TopologicalSort Raising

variable (rt : Runtime) (ctx : DecimalContext) (reviewer : CaseReviewer) (sorter : Sorter String)

structure NativelyMeasured (pair : EvidencedPair) (side : Side) : Prop where
  method : (pair.reliability side).method = .nativeNumeric
  measured : (pair.reliability side).confidenceKind = .measured
  extracted : (pair.reliability side).provenance = .nativeExtraction
  produced : (pair.reliability side).producer ≠ none
  confident : reviewer.minimumConfidence.le
    (Binary64.least (pair.pair.observation side).confidence
      ((pair.pair.observation side).evidence.map EvidenceRef.confidence)) = true

/-- A confirmation of exactly what the side says now, in authorized material. -/
structure ReviewerConfirmed (input : ReviewInput) (pair : EvidencedPair) (side : Side) : Prop where
  method : (pair.reliability side).method = .reviewerConfirmed
  authorized : ∃ permits, reviewer.authorization = some permits ∧
    permits ⟨input.policy, input.facts⟩ = true
  signed : ∃ confirmation, (pair.reliability side).confirmation = some confirmation ∧
    confirmation.inputDigest = confirmationDigest rt pair side

structure SideGrounded (input : ReviewInput) (pair : EvidencedPair) (side : Side) : Prop where
  cited : pair.sources side ≠ [] ∧ ∀ ref ∈ pair.sources side, input.registry.resolves ref = true
  evidenced : ∀ ref ∈ pair.sources side, ∃ evidence ∈ (pair.pair.observation side).evidence,
    evidence.locates ref = true
  located : ∀ evidence ∈ (pair.pair.observation side).evidence, ∃ ref ∈ pair.sources side,
    evidence.locates ref = true
  unambiguous : (pair.reliability side).selection ≠ .ambiguous
  resolved : (pair.reliability side).unresolved = []
  method : NativelyMeasured reviewer pair side ∨ ReviewerConfirmed rt reviewer input pair side

/-- The side was confirmed, and what the confirmation covers was changed since:
the two signed texts differ and do not collide. -/
def ChangedSince (pair : EvidencedPair) (side : Side) : Prop :=
  ∃ original confirmed name, confirmSide rt original side name = .ok confirmed ∧
    (pair.reliability side).method = (confirmed.reliability side).method ∧
    (pair.reliability side).confirmation = (confirmed.reliability side).confirmation ∧
    pair.covered side ≠ original.covered side ∧
    (rt.sha256 (CanonicalJson.dumps (pair.covered side).json) =
        rt.sha256 (CanonicalJson.dumps (original.covered side).json) →
      CanonicalJson.dumps (pair.covered side).json =
        CanonicalJson.dumps (original.covered side).json)

section lemmas
variable {rt ctx reviewer sorter} {input : ReviewInput}

theorem citationsValid_iff {registry : SourceRegistry} {refs : List SourceCitation} :
    registry.citationsValid refs = true ↔ refs ≠ [] ∧ ∀ ref ∈ refs, registry.resolves ref = true := by
  simp [SourceRegistry.citationsValid]

theorem evidenceMatches_locates {registry : SourceRegistry} {evidence : EvidenceRef}
    {ref : SourceCitation} (h : evidenceMatches rt registry evidence ref = .ok true) :
    evidence.locates ref = true := by
  rw [evidenceMatches] at h
  split at h
  · cases h
  · split at h
    · cases h
    · rename_i hmatch
      rw [Bool.not_eq_true, Bool.not_eq_false', Bool.and_eq_true] at hmatch
      exact hmatch.1

structure SideLocated (registry : SourceRegistry) (pair : EvidencedPair) (side : Side) : Prop where
  cited : registry.citationsValid (pair.sources side) = true
  method : (pair.reliability side).method ≠ .modelProposed
  resolved : (pair.reliability side).unresolved = []
  unambiguous : (pair.reliability side).selection ≠ .ambiguous
  located : ∀ evidence ∈ (pair.pair.observation side).evidence, ∃ ref ∈ pair.sources side,
    evidence.locates ref = true

theorem sideLocated_true {registry : SourceRegistry} {pair : EvidencedPair} {side : Side}
    (h : sideLocated rt registry pair side = .ok true) : SideLocated registry pair side := by
  simp only [sideLocated] at h
  split at h
  · cases h
  · split at h
    · cases h
    · rename_i hbasic
      simp only [Bool.not_eq_true, Bool.not_eq_false', Bool.and_eq_true, decide_eq_true_eq] at hbasic
      obtain ⟨⟨⟨⟨hcited, hmethod⟩, hresolved⟩, hselection⟩, -⟩ := hbasic
      obtain ⟨matched, hmatched, h⟩ := bind_ok.mp h
      have hboth := pure_ok.mp h
      rw [Bool.and_eq_true] at hboth
      obtain ⟨rfl, -⟩ := hboth
      refine ⟨hcited, by simpa using hmethod, by simpa using hresolved, by simpa using hselection, ?_⟩
      intro evidence hin
      obtain ⟨ref, href, hmatch⟩ := anyM_true (allM_true.mp hmatched evidence hin)
      exact ⟨ref, href, evidenceMatches_locates hmatch⟩

theorem mem_sides (side : Side) : side ∈ sides := by
  cases side <;> simp [sides]

theorem pairReliable_true {registry : SourceRegistry} {authorized : Bool} {pair : EvidencedPair}
    (h : pairReliable rt registry authorized pair = .ok true) (side : Side) :
    SideLocated registry pair side ∧ sideCited pair side = true ∧
      sideMethod rt authorized pair side = true := by
  obtain ⟨located, hlocated, h⟩ := bind_ok.mp h
  have hboth := pure_ok.mp h
  rw [Bool.and_eq_true, List.all_eq_true] at hboth
  obtain ⟨rfl, hsides⟩ := hboth
  have hside := hsides side (mem_sides side)
  rw [Bool.and_eq_true] at hside
  exact ⟨sideLocated_true (allM_true.mp hlocated side (mem_sides side)), hside.1, hside.2⟩

/-- An exemption from the threshold comes from the confirmation of the same
factor and side. -/
theorem confirmed_own {authorized : Bool} {context : ComparisonContext} {rules : FactorRuleSet}
    {factors : List String} {readings : ContextReadings}
    (hread : readFactors rt input.facts input.registry authorized context rules factors =
      .ok readings) {factor : String} {side : Side} {pair : EvidencedPair}
    (hpair : pairOf input.facts context factor = some pair)
    (h : (factor, side) ∈ readings.confirmed) :
    (pair.reliability side).method = .reviewerConfirmed := by
  obtain ⟨-, -, -, hconfirmed⟩ := readFactors_ok rt hread
  obtain ⟨factor', -, reading, hreading, hin⟩ := hconfirmed _ h
  rcases readFactor_ok rt hreading.read with ⟨_, rfl, -⟩ | ⟨pair', hpair', -, hsides, -⟩
  · exact absurd hin List.not_mem_nil
  · rw [hsides, confirmedSidesOf] at hin
    obtain ⟨side', hside', heq⟩ := List.mem_map.mp hin
    cases heq
    rw [hpair] at hpair'
    cases hpair'
    have hfilter := (List.mem_filter.mp hside').2
    rw [Bool.and_eq_true, decide_eq_true_eq] at hfilter
    exact hfilter.1

structure ResultOrigin (rt : Runtime) (ctx : DecimalContext) (reviewer : CaseReviewer)
    (input : ReviewInput) (comparison : FactorReviewResult) (item : FactorEvaluationResult)
    (entry : InventoryContext) (rules : ScopedRules) (readings : ContextReadings)
    (pair : EvidencedPair) : Prop where
  context : comparison.context = some entry.context
  read : readFactors rt input.facts input.registry (reviewer.authorized input) entry.context
    rules.rules entry.factorIds = .ok readings
  found : pairOf input.facts entry.context item.factorId = some pair
  reliable : pairReliable rt input.registry (reviewer.authorized input) pair = .ok true
  evaluated : item = (engineFor reviewer rules.rules readings.confirmed).evaluatePair rt
    (effectivePair pair)
  summed : comparison.summary.totalAdjustmentPercent ≠ none → item.status = .verified

theorem result_origin {r : CaseReviewResult} (h : review rt ctx reviewer sorter input = .ok r)
    {comparison : FactorReviewResult} (hcomparison : comparison ∈ r.comparisons)
    {item : FactorEvaluationResult} (hitem : item ∈ comparison.results) :
    ∃ entry rules readings pair,
      ResultOrigin rt ctx reviewer input comparison item entry rules readings pair := by
  rcases review_ok rt ctx reviewer sorter h with hstopped | ⟨t, hrecords, rfl⟩
  · rw [hstopped.noComparisons] at hcomparison
    exact absurd hcomparison List.not_mem_nil
  · obtain ⟨context, hcontext, hsome⟩ := List.mem_filterMap.mp hcomparison
    obtain ⟨entry, -, hreview⟩ := forall₂_right hrecords.contexts hcontext
    rcases reviewContext_ok rt ctx reviewer hreview with ⟨finding, rfl, -⟩ |
      ⟨rules, readings, evaluated, -, hevaluation⟩
    · cases hsome
    · rw [hevaluation.outcome] at hsome
      cases hsome
      have hengine := FactorRuleEngine.evaluate_ok hevaluation.evaluate
      have hresult : item ∈ evaluated.results := hitem
      have hverified : evaluated.summary.totalAdjustmentPercent ≠ none → item.status = .verified := by
        intro hsum
        obtain ⟨total, htotal⟩ := Option.ne_none_iff_exists'.mp hsum
        have hstatus := (hengine.total total htotal).1
        rw [hengine.status] at hstatus
        exact FactorRuleEngine.summaryStatus_verified.mp hstatus item hresult
      rw [hengine.results] at hresult
      obtain ⟨candidate, hcandidate, rfl⟩ := List.mem_map.mp hresult
      obtain ⟨-, -, hpairs, -⟩ := readFactors_ok rt hevaluation.read
      obtain ⟨factor, -, reading, hreading, hreliable⟩ := hpairs candidate hcandidate
      rcases readFactor_ok rt hreading.read with ⟨_, rfl, -⟩ |
        ⟨pair, hpair, -, -, ⟨htrue, -, hsome⟩ | ⟨-, hnone, -⟩⟩
      · cases hreliable
      · rw [hsome] at hreliable
        cases hreliable
        have hfactor : (effectivePair pair).factorId = factor := (pairOf_some hpair).2.2
        refine ⟨entry, rules, readings, pair, rfl, hevaluation.read, ?_, htrue, rfl, hverified⟩
        rw [FactorRuleEngine.evaluatePair_factorId, hfactor]
        exact hpair
      · rw [hnone] at hreliable
        cases hreliable

theorem ResultOrigin.grounded {comparison : FactorReviewResult} {item : FactorEvaluationResult}
    {entry : InventoryContext} {rules : ScopedRules} {readings : ContextReadings}
    {pair : EvidencedPair}
    (h : ResultOrigin rt ctx reviewer input comparison item entry rules readings pair)
    (hverified : item.status = .verified) (side : Side) :
    SideGrounded rt reviewer input pair side := by
  obtain ⟨hlocated, hcited, hmethod⟩ := pairReliable_true h.reliable side
  rw [h.evaluated] at hverified
  obtain ⟨rule, target, comparable, _, hgraded⟩ :=
    FactorRuleEngine.evaluatePair_verified hverified
  have hrule : rule.factorId = item.factorId := by
    rw [FactorRuleEngine.find?_rule_factorId hgraded.found, h.evaluated,
      FactorRuleEngine.evaluatePair_factorId]
  have hclassified : (engineFor reviewer rules.rules readings.confirmed).Classified rule
      (effectiveObservation pair side) side := by
    cases side with
    | target => exact FactorRuleEngine.classify_ok hgraded.targetGrade
    | comparable => exact FactorRuleEngine.classify_ok hgraded.comparableGrade
  obtain ⟨hne, hresolves⟩ := citationsValid_iff.mp hlocated.cited
  refine ⟨⟨hne, hresolves⟩, ?_, hlocated.located, hlocated.unambiguous, hlocated.resolved, ?_⟩
  · intro ref href
    have hany := List.all_eq_true.mp hcited ref href
    simpa using hany
  · rw [sideMethod] at hmethod
    cases hm : (pair.reliability side).method with
    | modelProposed => exact absurd hm hlocated.method
    | nativeNumeric =>
      left
      rw [hm] at hmethod
      simp only [Bool.and_eq_true, decide_eq_true_eq] at hmethod
      obtain ⟨⟨hmeasured, hextracted⟩, hproducer⟩ := hmethod
      refine ⟨hm, hmeasured, hextracted, ?_, ?_⟩
      · rw [← Option.isSome_iff_ne_none]
        exact hproducer
      · rcases hclassified.confident with hexempt | hconfident
        · rw [hrule] at hexempt
          have hown := confirmed_own h.read h.found hexempt
          rw [hm] at hown
          cases hown
        · rw [effectiveObservation, if_pos hm] at hconfident
          have hnot : ¬ (Binary64.least _ _).lt reviewer.minimumConfidence = true :=
            Bool.not_eq_true _ ▸ hconfident
          rw [Binary64.lt, Decimal.lt_iff, not_lt] at hnot
          exact (Decimal.le_iff _ _).mpr hnot
    | reviewerConfirmed =>
      right
      rw [hm] at hmethod
      simp only [sideConfirmed, Bool.and_eq_true] at hmethod
      obtain ⟨⟨⟨hauthorized, hdigest⟩, -⟩, -⟩ := hmethod
      refine ⟨hm, ?_, ?_⟩
      · rw [CaseReviewer.authorized] at hauthorized
        cases hauthorization : reviewer.authorization with
        | none => rw [hauthorization] at hauthorized; cases hauthorized
        | some permits =>
          rw [hauthorization] at hauthorized
          exact ⟨permits, rfl, hauthorized⟩
      · cases hconfirmation : (pair.reliability side).confirmation with
        | none => rw [hconfirmation] at hdigest; cases hdigest
        | some confirmation =>
          rw [hconfirmation] at hdigest
          exact ⟨confirmation, rfl, by simpa using hdigest⟩

theorem setReliability_reliability (pair : EvidencedPair) (side : Side) (reliability : Reliability) :
    (pair.setReliability side reliability).reliability side = reliability := by
  cases side <;> rfl

theorem confirmSide_ok {original confirmed : EvidencedPair} {side : Side} {name : String}
    (h : confirmSide rt original side name = .ok confirmed) :
    (confirmed.reliability side).method = .reviewerConfirmed ∧
      (confirmed.reliability side).confirmation =
        some ⟨name, confirmationDigest rt original side⟩ := by
  simp only [confirmSide] at h
  split at h
  · cases h
  · split at h
    · cases h
    · cases h
      rw [setReliability_reliability]
      exact ⟨rfl, rfl⟩

theorem ChangedSince.unsigned {pair : EvidencedPair} {side : Side}
    (h : ChangedSince rt pair side) : ¬SideGrounded rt reviewer input pair side := by
  obtain ⟨original, confirmed, name, hconfirm, hmethod, hconfirmation, hchanged, hcollision⟩ := h
  obtain ⟨hreviewer, hsigned⟩ := confirmSide_ok hconfirm
  intro hgrounded
  rcases hgrounded.method with hnative | hconfirmed
  · cases hnative.method.symm.trans (hmethod.trans hreviewer)
  · obtain ⟨confirmation, hsome, hdigest⟩ := hconfirmed.signed
    rw [hconfirmation, hsigned] at hsome
    cases hsome
    have hsame : rt.sha256 (CanonicalJson.dumps (pair.covered side).json) =
        rt.sha256 (CanonicalJson.dumps (original.covered side).json) := by
      have htext := hdigest.symm
      simp only [confirmationDigest] at htext
      cases hx : rt.sha256 (CanonicalJson.dumps (pair.covered side).json)
      cases hy : rt.sha256 (CanonicalJson.dumps (original.covered side).json)
      rw [hx, hy] at htext
      simpa using htext
    exact hchanged (Covered.json_injective (CanonicalJson.dumps_injective (hcollision hsame)))

theorem pairOf_own (hdistinct : duplicateIdentity input.policy input.facts = false)
    {pair found : EvidencedPair} (hpair : pair ∈ input.facts.pairs)
    (hfound : pairOf input.facts pair.context pair.pair.factorId = some found) : found = pair := by
  rw [duplicateIdentity, Bool.not_eq_false'] at hdistinct
  simp only [Bool.and_eq_true, decide_eq_true_eq] at hdistinct
  obtain ⟨hmem, hcontext, hfactor⟩ := pairOf_some hfound
  exact List.inj_on_of_nodup_map hdistinct.1.1.1.1.2 hmem hpair (by
    rw [pairKey, pairKey, hcontext, hfactor])

theorem distinct_of_comparison {r : CaseReviewResult}
    (h : review rt ctx reviewer sorter input = .ok r) {comparison : FactorReviewResult}
    (hcomparison : comparison ∈ r.comparisons) :
    duplicateIdentity input.policy input.facts = false := by
  rcases review_ok rt ctx reviewer sorter h with hstopped | ⟨t, hrecords, -⟩
  · rw [hstopped.noComparisons] at hcomparison
    exact absurd hcomparison List.not_mem_nil
  · exact hrecords.distinct

end lemmas

variable {rt ctx reviewer sorter}

/-- Every verified or summed factor result is grounded on both sides, and a
result whose pair was changed after its confirmation, or proposed by a model, is
not verified. -/
theorem evidence_gate {input : ReviewInput} {r : CaseReviewResult}
    (h : review rt ctx reviewer sorter input = .ok r) :
    (∀ comparison ∈ r.comparisons, ∀ item ∈ comparison.results,
      item.status = .verified ∨ comparison.summary.totalAdjustmentPercent ≠ none →
        ∃ pair ∈ input.facts.pairs, comparison.context = some pair.context ∧
          pair.pair.factorId = item.factorId ∧
            ∀ side, SideGrounded rt reviewer input pair side) ∧
    ∀ pair ∈ input.facts.pairs, ∀ side,
      ChangedSince rt pair side ∨ (pair.reliability side).method = .modelProposed →
        ∀ comparison ∈ r.comparisons, comparison.context = some pair.context →
          ∀ item ∈ comparison.results, item.factorId = pair.pair.factorId →
            item.status ≠ .verified := by
  have hgate : ∀ comparison ∈ r.comparisons, ∀ item ∈ comparison.results,
      item.status = .verified ∨ comparison.summary.totalAdjustmentPercent ≠ none →
        ∃ pair ∈ input.facts.pairs, comparison.context = some pair.context ∧
          pair.pair.factorId = item.factorId ∧
            ∀ side, SideGrounded rt reviewer input pair side := by
    intro comparison hcomparison item hitem hverified
    obtain ⟨entry, rules, readings, pair, horigin⟩ := result_origin h hcomparison hitem
    obtain ⟨hmem, hcontext, hfactor⟩ := pairOf_some horigin.found
    exact ⟨pair, hmem, by rw [horigin.context, hcontext], hfactor,
      horigin.grounded (hverified.elim id horigin.summed)⟩
  refine ⟨hgate, ?_⟩
  intro pair hpair side hspoiled comparison hcomparison hcontext item hitem hfactor hverified
  obtain ⟨entry, rules, readings, found, horigin⟩ := result_origin h hcomparison hitem
  have hentry : entry.context = pair.context := by
    have heq := horigin.context.symm.trans hcontext
    exact Option.some.inj heq
  have hfound := horigin.found
  rw [hentry, hfactor] at hfound
  cases pairOf_own (distinct_of_comparison h hcomparison) hpair hfound
  have hgrounded := horigin.grounded hverified side
  rcases hspoiled with hchanged | hproposed
  · exact hchanged.unsigned hgrounded
  · rcases hgrounded.method with hnative | hconfirmed
    · cases hproposed.symm.trans hnative.method
    · cases hproposed.symm.trans hconfirmed.method

theorem evidence_gate_sample : ∃ r,
    review sampleRuntime .default sampleReviewer Sorter.kahn sampleInput = .ok r ∧
      ∃ comparison ∈ r.comparisons, ∃ item ∈ comparison.results, ∃ pair ∈ sampleInput.facts.pairs,
        pair.pair.factorId = item.factorId ∧
          ∀ side, SideGrounded sampleRuntime sampleReviewer sampleInput pair side := by
  have hshape : (review sampleRuntime .default sampleReviewer Sorter.kahn sampleInput).map
      (fun r => r.comparisons.map fun c => c.results.map FactorEvaluationResult.status) =
        .ok [[.verified]] := by decide +kernel
  obtain ⟨r, hreview, hstatuses⟩ := map_ok.mp hshape
  obtain ⟨comparison, hcomparison, hresults⟩ :=
    List.mem_map.mp (hstatuses ▸ List.mem_cons_self : [EvaluationStatus.verified] ∈ _)
  obtain ⟨item, hitem, hverified⟩ :=
    List.mem_map.mp (hresults ▸ List.mem_cons_self : EvaluationStatus.verified ∈ _)
  obtain ⟨pair, hpair, -, hfactor, hgrounded⟩ :=
    (evidence_gate hreview).1 comparison hcomparison item hitem (Or.inl hverified)
  exact ⟨r, hreview, comparison, hcomparison, item, hitem, pair, hpair, hfactor, hgrounded⟩

end AppraisalReview
