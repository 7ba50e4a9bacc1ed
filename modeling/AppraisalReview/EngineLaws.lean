import AppraisalReview.FactorEngine
import AppraisalReview.Raising

set_option autoImplicit false

/-!
# What a verified engine result rests on
-/
namespace AppraisalReview
open Raising

namespace FactorRuleEngine
variable {rt : Runtime} {ctx : DecimalContext} {engine : FactorRuleEngine}

theorem evaluatePair_factorId (pair : FactorPair) :
    (engine.evaluatePair rt pair).factorId = pair.factorId := by
  unfold evaluatePair
  split
  · rfl
  · split
    · rfl
    · split <;> rfl

/-- A classified side has a value, evidence, and enough confidence unless it was confirmed. -/
structure Classified (engine : FactorRuleEngine) (rule : FactorRule)
    (observation : FactorObservation) (side : Side) : Prop where
  value : observation.value ≠ none
  evidence : observation.evidence ≠ []
  confident : (rule.factorId, side) ∈ engine.confirmedSides ∨
    observation.confidence.lt engine.minimumConfidence = false

theorem classify_ok {rule : FactorRule} {observation : FactorObservation} {side : Side}
    {grade : Grade} (h : engine.classify rt rule observation side = .ok grade) :
    engine.Classified rule observation side := by
  unfold classify at h
  split at h
  · cases h
  · rename_i value hvalue
    split at h
    · cases h
    · rename_i hevidence
      split at h
      · cases h
      · rename_i hconfident
        refine ⟨by rw [hvalue]; exact Option.some_ne_none _, hevidence, ?_⟩
        by_cases hin : (rule.factorId, side) ∈ engine.confirmedSides
        · exact Or.inl hin
        · right
          cases hlt : observation.confidence.lt engine.minimumConfidence with
          | false => rfl
          | true => exact absurd ⟨hin, hlt⟩ hconfident

/-- The engine found a rule, classified both sides and read the matrix cell. -/
structure Graded (rt : Runtime) (engine : FactorRuleEngine) (pair : FactorPair)
    (rule : FactorRule) (target comparable : Grade) (adjustment : Binary64) : Prop where
  found : engine.ruleSet.rules.find? (fun rule => rule.factorId = pair.factorId) = some rule
  targetGrade : engine.classify rt rule pair.target .target = .ok target
  comparableGrade : engine.classify rt rule pair.comparable .comparable = .ok comparable
  cell : ((rule.correctionMatrix.get? target.text).bind fun row => row.get? comparable.text) =
    some adjustment
  reported : (engine.evaluatePair rt pair).targetGrade = some target ∧
    (engine.evaluatePair rt pair).comparableGrade = some comparable ∧
    (engine.evaluatePair rt pair).adjustmentPercent = some adjustment

theorem evaluatePair_verified {pair : FactorPair}
    (h : (engine.evaluatePair rt pair).status = .verified) :
    ∃ rule target comparable adjustment,
      engine.Graded rt pair rule target comparable adjustment := by
  rw [evaluatePair] at h
  split at h
  · cases h
  · rename_i rule hrule
    split at h
    · cases h
    · rename_i target comparable hgrades
      split at h
      · cases h
      · rename_i adjustment hcell
        obtain ⟨target', htarget, hrest⟩ := bind_ok.mp hgrades
        obtain ⟨comparable', hcomparable, hpair⟩ := bind_ok.mp hrest
        cases pure_ok.mp hpair
        refine ⟨rule, target, comparable, adjustment, hrule, htarget, hcomparable, hcell, ?_⟩
        simp [evaluatePair, hrule, hgrades, hcell]

theorem find?_rule_factorId {pair : FactorPair} {rule : FactorRule}
    (h : engine.ruleSet.rules.find? (fun rule => rule.factorId = pair.factorId) = some rule) :
    rule.factorId = pair.factorId := by
  simpa using List.find?_some h

/-- The results of an evaluation, one for each requested pair, and their summary. -/
structure Evaluation (rt : Runtime) (ctx : DecimalContext) (engine : FactorRuleEngine)
    (request : FactorEvaluationRequest) (evaluated : FactorReviewResult) : Prop where
  results : evaluated.results = request.factors.map (engine.evaluatePair rt)
  status : evaluated.summary.status = summaryStatus evaluated.results
  total : ∀ t, evaluated.summary.totalAdjustmentPercent = some t →
    evaluated.summary.status = .verified ∧ total ctx evaluated.results = .ok t
  summed : evaluated.summary.status = .verified →
    evaluated.summary.totalAdjustmentPercent.isSome = true

theorem evaluate_ok {request : FactorEvaluationRequest} {evaluated : FactorReviewResult}
    (h : engine.evaluate rt ctx request = .ok evaluated) :
    engine.Evaluation rt ctx request evaluated := by
  rw [evaluate] at h
  split at h
  · cases h
  · split at h
    · cases h
    · obtain ⟨summary, hsummary, hresult⟩ := bind_ok.mp h
      cases pure_ok.mp hresult
      rw [summarize] at hsummary
      split at hsummary
      · rename_i hstatus
        obtain ⟨t, ht, hpure⟩ := bind_ok.mp hsummary
        cases pure_ok.mp hpure
        refine ⟨rfl, hstatus.symm, ?_, fun _ => rfl⟩
        intro t' ht'
        cases ht'
        exact ⟨rfl, ht⟩
      · rename_i hstatus
        cases hsummary
        refine ⟨rfl, rfl, ?_, fun hverified => absurd hverified hstatus⟩
        intro t ht
        cases ht

theorem summaryStatus_verified {results : List FactorEvaluationResult} :
    summaryStatus results = .verified ↔ ∀ item ∈ results, item.status = .verified := by
  unfold summaryStatus
  constructor
  · intro h item hitem
    split at h
    · cases h
    · rename_i hfailed
      split at h
      · cases h
      · rename_i hreview
        rw [Bool.not_eq_true, List.any_eq_false] at hfailed hreview
        have h1 := hfailed item hitem
        have h2 := hreview item hitem
        cases hs : item.status <;> simp_all
  · intro h
    rw [if_neg, if_neg]
    · rw [Bool.not_eq_true, List.any_eq_false]
      intro item hitem
      simp [h item hitem]
    · rw [Bool.not_eq_true, List.any_eq_false]
      intro item hitem
      simp [h item hitem]

end FactorRuleEngine

end AppraisalReview
