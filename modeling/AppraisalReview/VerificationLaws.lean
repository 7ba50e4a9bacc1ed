import AppraisalReview.CaseReview
import AppraisalReview.EngineLaws

set_option autoImplicit false

/-!
# The completion verifier recomputes

`ReviewVerifier.verify` with what may leave it. Its verdict is `verified` for the
claims that a recomputation of the facts yields, and for no others.
-/
namespace AppraisalReview
open Raising

/-- `validate_minimum_confidence` -/
def validateMinimumConfidence (value : Binary64) : Except Escape Binary64 :=
  if value.unit then .ok value
  else .error (.valueError "minimum_confidence must be finite and between 0 and 1")

/-- `except (ValidationError, ValueError, ArithmeticError)` -/
def Escape.invalidInput : Escape → Bool
  | .stopIteration => false
  | _ => true

variable (rt : Runtime) (ctx : DecimalContext)

/-- What leaves the recalculation: an exception that its handler does not name. -/
def uncaught (engine : FactorRuleEngine) (result : FactorReviewResult) :
    Option FactorEvaluationRequest → Except Escape Unit
  | none => .ok ()
  | some facts =>
    if engine.ruleSet.valid rt && facts.valid && result.valid then
      match engine.evaluate rt ctx facts with
      | .error e => if e.invalidInput then .ok () else .error e
      | .ok _ => .ok ()
    else .ok ()

/-- `ReviewVerifier.verify` -/
def verify (result : FactorReviewResult) (ruleSet : FactorRuleSet)
    (facts : Option FactorEvaluationRequest) (minimumConfidence : Binary64)
    (confirmedSides : ConfirmedSides) : Except Escape VerificationReport := do
  let minimum ← validateMinimumConfidence minimumConfidence
  uncaught rt ctx ⟨ruleSet, minimum, confirmedSides⟩ result facts
  return verifyResult rt ctx ⟨ruleSet, minimum, confirmedSides⟩ result facts

def FactorEvaluationResult.content (item : FactorEvaluationResult) :=
  (item.factorId, item.targetGrade, item.comparableGrade,
    item.adjustmentPercent.map fun x => x.decimal.value, item.ruleId, item.calculationTrace,
    item.status, item.warnings)

def EvaluationSummary.content (summary : EvaluationSummary) :=
  (summary.totalAdjustmentPercent.map fun x => x.decimal.value, summary.status)

def FactorReviewResult.claim (result : FactorReviewResult) :=
  (result.caseId, result.results.map FactorEvaluationResult.content, result.summary.content)

theorem sameOption_iff {a b : Option Binary64} : sameOption Binary64.same a b = true ↔
    (a.map fun x => x.decimal.value) = b.map fun x => x.decimal.value := by
  cases a <;> cases b <;> simp [sameOption, Binary64.same]

theorem FactorEvaluationResult.same_iff {a b : FactorEvaluationResult} :
    a.same b = true ↔ a.content = b.content := by
  simp only [same, content, Bool.and_eq_true, decide_eq_true_eq, sameOption_iff, Prod.mk.injEq]
  tauto

theorem EvaluationSummary.same_iff {a b : EvaluationSummary} :
    a.same b = true ↔ a.content = b.content := by
  simp only [same, content, Bool.and_eq_true, decide_eq_true_eq, sameOption_iff, Prod.mk.injEq]

theorem sameList_iff {l l' : List FactorEvaluationResult} :
    sameList FactorEvaluationResult.same l l' = true ↔
      l.map FactorEvaluationResult.content = l'.map FactorEvaluationResult.content := by
  induction l generalizing l' with
  | nil => cases l' <;> simp [sameList]
  | cons x rest ih =>
    cases l' with
    | nil => simp [sameList]
    | cons y rest' => simp [sameList, FactorEvaluationResult.same_iff, ih]

section
variable {rt ctx}

theorem FactorRuleEngine.evaluate_error {engine : FactorRuleEngine}
    {facts : FactorEvaluationRequest} {e : Escape} (h : engine.evaluate rt ctx facts = .error e) :
    e.invalidInput = true := by
  unfold evaluate at h
  split at h
  · cases h
    rfl
  · split at h
    · cases h
      rfl
    · rcases bind_error.mp h with hsummary | ⟨summary, -, hpure⟩
      · unfold summarize at hsummary
        split at hsummary
        · rcases bind_error.mp hsummary with htotal | ⟨t, -, hpure⟩
          · unfold FactorRuleEngine.total at htotal
            split at htotal
            · cases htotal
              rfl
            · split at htotal
              · cases htotal
                rfl
              · cases htotal
          · cases hpure
        · cases hsummary
      · cases hpure

theorem uncaught_ok (engine : FactorRuleEngine) (result : FactorReviewResult)
    (facts : Option FactorEvaluationRequest) : uncaught rt ctx engine result facts = .ok () := by
  cases facts with
  | none => rfl
  | some facts =>
    simp only [uncaught]
    split
    · split
      · rename_i e he
        rw [if_pos (FactorRuleEngine.evaluate_error he)]
      · rfl
    · rfl

theorem verify_eq {result : FactorReviewResult} {ruleSet : FactorRuleSet}
    {facts : Option FactorEvaluationRequest} {minimumConfidence : Binary64}
    {confirmedSides : ConfirmedSides} (h : minimumConfidence.unit = true) :
    verify rt ctx result ruleSet facts minimumConfidence confirmedSides =
      .ok (verifyResult rt ctx ⟨ruleSet, minimumConfidence, confirmedSides⟩ result facts) := by
  have hminimum : validateMinimumConfidence minimumConfidence = .ok minimumConfidence := if_pos h
  unfold verify
  rw [hminimum]
  exact bind_ok.mpr ⟨minimumConfidence, rfl, bind_ok.mpr ⟨(), uncaught_ok _ _ _, rfl⟩⟩

structure WellNamed (result : FactorReviewResult) (ruleSet : FactorRuleSet) : Prop where
  identity : result.ruleSetId = ruleSet.ruleSetId ∧ result.ruleVersion = ruleSet.version
  distinct : (result.results.map FactorEvaluationResult.factorId).Nodup
  covered : ∀ rule ∈ ruleSet.rules, rule.critical = true →
    rule.factorId ∈ result.results.map FactorEvaluationResult.factorId

def Recomputed (rt : Runtime) (ctx : DecimalContext) (engine : FactorRuleEngine)
    (facts : FactorEvaluationRequest) (result : FactorReviewResult) : Prop :=
  ∃ expected, engine.evaluate rt ctx facts = .ok expected ∧ result.claim = expected.claim ∧
    expected.summary.status = .verified

theorem claim_iff {a b : FactorReviewResult} : a.claim = b.claim ↔
    (decide (a.caseId = b.caseId) && sameList FactorEvaluationResult.same a.results b.results &&
      a.summary.same b.summary) = true := by
  simp only [FactorReviewResult.claim, Prod.mk.injEq, Bool.and_eq_true, decide_eq_true_eq,
    sameList_iff, EvaluationSummary.same_iff, and_assoc]

theorem recalculate_clear {engine : FactorRuleEngine} {result : FactorReviewResult}
    {facts : FactorEvaluationRequest}
    (hvalid : (engine.ruleSet.valid rt && facts.valid && result.valid) = true) :
    recalculate rt ctx engine result facts = ([], false) ↔
      Recomputed rt ctx engine facts result := by
  unfold recalculate Recomputed
  rw [if_pos hvalid]
  cases hevaluate : engine.evaluate rt ctx facts with
  | error e => simp
  | ok expected =>
    simp only [Except.ok.injEq, exists_eq_left', claim_iff]
    cases hsame : (decide (result.caseId = expected.caseId) &&
      sameList FactorEvaluationResult.same result.results expected.results &&
      result.summary.same expected.summary) with
    | false => simp
    | true => cases hstatus : expected.summary.status <;> simp

theorem recalculate_differs {engine : FactorRuleEngine} {result : FactorReviewResult}
    {facts : FactorEvaluationRequest} {expected : FactorReviewResult}
    (hevaluate : engine.evaluate rt ctx facts = .ok expected)
    (hdiffers : result.claim ≠ expected.claim) :
    (recalculate rt ctx engine result facts).2 = true := by
  have hsame := mt claim_iff.mpr hdiffers
  rw [Bool.not_eq_true] at hsame
  unfold recalculate
  split
  · rw [hevaluate]
    simp only [hsame, Bool.not_false, Bool.true_or]
  · rfl

theorem recalculate_fails_loudly {engine : FactorRuleEngine} {result : FactorReviewResult}
    {facts : FactorEvaluationRequest} (h : (recalculate rt ctx engine result facts).1 = []) :
    recalculate rt ctx engine result facts = ([], false) := by
  unfold recalculate at h ⊢
  split at h
  · rename_i hvalid
    rw [if_pos hvalid]
    split at h
    · cases h
    · rename_i expected hevaluate
      simp only [List.append_eq_nil_iff] at h
      obtain ⟨hdiffers, hopen⟩ := h
      cases hd : (decide (result.caseId = expected.caseId) &&
        sameList FactorEvaluationResult.same result.results expected.results &&
        result.summary.same expected.summary) with
      | false => simp [hd] at hdiffers
      | true =>
        cases hs : expected.summary.status <;> simp [hs] at hopen
        simp
  · cases h

theorem verdict_verified (failed : Bool) (errors : List String) :
    (if failed = true then EvaluationStatus.failed
      else if errors ≠ [] then .needsReview else .verified) = .verified ↔
      failed = false ∧ errors = [] := by
  cases failed <;> by_cases h : errors = [] <;> simp [h]

theorem verifyResult_verified {engine : FactorRuleEngine} {result : FactorReviewResult}
    {facts : FactorEvaluationRequest}
    (hvalid : (engine.ruleSet.valid rt && facts.valid && result.valid) = true) :
    (verifyResult rt ctx engine result (some facts)).status = .verified ↔
      WellNamed result engine.ruleSet ∧ Recomputed rt ctx engine facts result := by
  rw [← recalculate_clear hvalid]
  have hmissing : ((engine.ruleSet.rules.filter fun rule => rule.critical &&
      rule.factorId ∉ result.results.map FactorEvaluationResult.factorId).map
        fun rule => "Missing critical factor result: " ++ rule.factorId) = [] ↔
      ∀ rule ∈ engine.ruleSet.rules, rule.critical = true →
        rule.factorId ∈ result.results.map FactorEvaluationResult.factorId := by
    rw [List.map_eq_nil_iff, List.filter_eq_nil_iff]
    refine forall₂_congr fun rule _ => ?_
    simp [not_and]
  unfold verifyResult
  refine (verdict_verified _ _).trans ?_
  simp only [List.append_eq_nil_iff, hmissing, Bool.or_eq_false_iff,
    decide_eq_false_iff_not, not_not, ne_eq, Prod.mk.injEq]
  constructor
  · rintro ⟨⟨⟨hdistinct, hidentity⟩, -⟩, ⟨⟨hcovered, -⟩, -⟩, hclear⟩
    exact ⟨⟨hidentity, hdistinct, hcovered⟩, recalculate_fails_loudly hclear⟩
  · rintro ⟨⟨hidentity, hdistinct, hcovered⟩, hclear⟩
    rw [hclear]
    exact ⟨⟨⟨hdistinct, hidentity⟩, rfl⟩,
      ⟨⟨hcovered, by simp [hdistinct]⟩, by simp [hidentity.1, hidentity.2]⟩, rfl⟩

theorem verifyResult_failed {engine : FactorRuleEngine} {result : FactorReviewResult}
    {facts : FactorEvaluationRequest} (h : (recalculate rt ctx engine result facts).2 = true) :
    (verifyResult rt ctx engine result (some facts)).status = .failed := by
  unfold verifyResult
  simp only [h, Bool.or_true, if_true]

end

/-- The arguments of a verification, as their schemas admit them. -/
structure Submission (rt : Runtime) where
  ruleSet : FactorRuleSet
  facts : FactorEvaluationRequest
  minimumConfidence : Binary64
  confirmedSides : ConfirmedSides
  rulesValid : ruleSet.valid rt = true
  factsValid : facts.valid = true
  inRange : minimumConfidence.unit = true

namespace Submission

def engine (s : Submission rt) : FactorRuleEngine := ⟨s.ruleSet, s.minimumConfidence, s.confirmedSides⟩

def verify (s : Submission rt) (facts : Option FactorEvaluationRequest)
    (result : FactorReviewResult) : Except Escape VerificationReport :=
  AppraisalReview.verify rt ctx result s.ruleSet facts s.minimumConfidence s.confirmedSides

end Submission

/-- The verifier reports, and reports `verified` exactly for the claims that a verified
recomputation yields; a changed claim fails. -/
structure Recomputes (s : Submission rt) : Prop where
  reports : ∀ facts result, ∃ report, s.verify rt ctx facts result = .ok report
  verified : ∀ result report, result.valid = true → s.verify rt ctx (some s.facts) result = .ok report →
    (report.status = .verified ↔
      WellNamed result s.ruleSet ∧ Recomputed rt ctx s.engine s.facts result)
  factless : ∀ result report, s.verify rt ctx none result = .ok report → report.status ≠ .verified
  changed : ∀ result result' report report', result.valid = true →
    s.verify rt ctx (some s.facts) result = .ok report → report.status = .verified →
    result'.claim ≠ result.claim → s.verify rt ctx (some s.facts) result' = .ok report' →
    report'.status = .failed

theorem verification_recomputes (s : Submission rt) : Recomputes rt ctx s := by
  have heq : ∀ facts result, s.verify rt ctx facts result =
      .ok (verifyResult rt ctx s.engine result facts) := fun facts result => verify_eq s.inRange
  have hiff : ∀ result : FactorReviewResult, result.valid = true →
      ((verifyResult rt ctx s.engine result (some s.facts)).status = .verified ↔
        WellNamed result s.ruleSet ∧ Recomputed rt ctx s.engine s.facts result) := by
    intro result hvalid
    refine @verifyResult_verified rt ctx s.engine result s.facts ?_
    rw [Submission.engine, s.rulesValid, s.factsValid, hvalid]
    rfl
  refine ⟨fun facts result => ⟨_, heq facts result⟩, ?_, ?_, ?_⟩
  · intro result report hvalid hreport
    rw [heq] at hreport
    cases hreport
    exact hiff result hvalid
  · intro result report hreport hverified
    rw [heq] at hreport
    cases hreport
    have hnone := ((verdict_verified _ _).mp hverified).2
    simp at hnone
  · intro result result' report report' hvalid hreport hverified hchanged hreport'
    rw [heq] at hreport hreport'
    cases hreport
    cases hreport'
    obtain ⟨-, expected, hevaluate, hclaim, -⟩ := (hiff result hvalid).mp hverified
    exact verifyResult_failed (recalculate_differs hevaluate (hclaim ▸ hchanged))

def sampleSubmission : Submission sampleRuntime where
  ruleSet := sampleRules.rules.approve
  facts := ⟨"case", "rules", [samplePair.pair]⟩
  minimumConfidence := one64
  confirmedSides := []
  rulesValid := by decide +kernel
  factsValid := by decide +kernel
  inRange := one64_unit

def sampleClaim : FactorReviewResult where
  caseId := "case"
  ruleSetId := "rules"
  ruleVersion := "1"
  results := [sampleSubmission.engine.evaluatePair sampleRuntime samplePair.pair]
  summary := ⟨some sampleFive, .verified⟩

/-- The recomputed claim is verified, so the other claims with another content fail. -/
theorem verification_recomputes_sample : ∃ report,
    sampleSubmission.verify sampleRuntime .default (some sampleSubmission.facts) sampleClaim =
      .ok report ∧ report.status = .verified ∧
    ∀ result report', result.claim ≠ sampleClaim.claim →
      sampleSubmission.verify sampleRuntime .default (some sampleSubmission.facts) result =
        .ok report' → report'.status = .failed := by
  have hverified : (sampleSubmission.verify sampleRuntime .default (some sampleSubmission.facts)
      sampleClaim).map VerificationReport.status = .ok .verified := by decide +kernel
  obtain ⟨report, hreport⟩ := (verification_recomputes sampleRuntime .default
    sampleSubmission).reports (some sampleSubmission.facts) sampleClaim
  rw [hreport] at hverified
  have hstatus : report.status = .verified := Except.ok.inj hverified
  refine ⟨report, hreport, hstatus, fun result report' hchanged hreport' => ?_⟩
  exact (verification_recomputes sampleRuntime .default sampleSubmission).changed sampleClaim
    result report report' (by decide +kernel) hreport hstatus hchanged hreport'

end AppraisalReview
