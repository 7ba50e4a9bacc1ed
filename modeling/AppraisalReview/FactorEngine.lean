import AppraisalReview.FactorModels

set_option autoImplicit false

/-!
# Classification, correction matrix and independent recalculation
-/
namespace AppraisalReview

abbrev ConfirmedSides := List (String × Side)

/-- The powers of ten of `_LENGTH_IN_METRES`. -/
def lengthInMetres : String → Option ℤ
  | "mm" => some (-3)
  | "cm" => some (-2)
  | "m" => some 0
  | "km" => some 3
  | _ => none

def IntervalBand.contains (band : IntervalBand) (value : Decimal) : Bool :=
  (match band.minimum with
    | none => true
    | some low => low.decimal.lt value || (band.minimumInclusive && value.same low.decimal)) &&
  (match band.maximum with
    | none => true
    | some high => value.lt high.decimal || (band.maximumInclusive && value.same high.decimal))

/-- Lengths differ by powers of ten, and the digits of a float fit the context:
the conversion is exact. An error is the reason why a value needs review. -/
def normalizeNumber (rt : Runtime) (value : NormalizedValue) (expectedUnit : Option String) :
    Except String Decimal :=
  match value.value with
  | .number x =>
    match expectedUnit, value.unit with
    | none, none => .ok x.decimal
    | none, some _ => .error "rule does not declare a unit for the supplied value"
    | some expected, none => .error ("value is missing required unit " ++ rt.repr expected)
    | some expected, some actual =>
      if actual = expected then .ok x.decimal
      else match lengthInMetres actual, lengthInMetres expected with
        | some a, some e => .ok { x.decimal with exponent := x.decimal.exponent + a - e }
        | _, _ => .error ("unsupported unit conversion from " ++ rt.repr actual ++ " to " ++
            rt.repr expected)
  | _ => .error "numeric value is invalid"

def classifyNumber (rt : Runtime) (rule : FactorRule) (value : NormalizedValue) (side : Side) :
    Except String Grade :=
  if value.type ≠ .number then .error (side.text ++ " value is not numeric")
  else do
    let number ← normalizeNumber rt value rule.unit
    if (rule.kind = .distanceInterval ∨ rule.kind = .presenceDistance) ∧
        number.lt (Decimal.ofNat 0) then
      throw "physical distance cannot be negative"
    match rule.intervals.find? fun band => band.contains number with
    | some band => return band.grade
    | none => throw (side.text ++ " value did not match any interval")

def classifyCategory (rt : Runtime) (rule : FactorRule) (value : NormalizedValue) (side : Side) :
    Except String Grade :=
  match value.value with
  | .text text =>
    if value.type ≠ .category ∧ value.type ≠ .text then
      .error (side.text ++ " value is not categorical text")
    else
      match rule.categories.find? fun band =>
          (band.values.map (normalizeAlias rt)).contains (normalizeAlias rt text) with
      | some band => .ok band.grade
      | none => .error (side.text ++ " category is unknown: " ++ rt.repr text)
  | _ => .error (side.text ++ " value is not categorical text")

structure FactorRuleEngine where
  ruleSet : FactorRuleSet
  minimumConfidence : Binary64
  confirmedSides : ConfirmedSides

namespace FactorRuleEngine

def classify (rt : Runtime) (engine : FactorRuleEngine) (rule : FactorRule)
    (observation : FactorObservation) (side : Side) : Except String Grade :=
  match observation.value with
  | none => .error (side.text ++ " value is missing")
  | some value =>
    if observation.evidence = [] then .error (side.text ++ " evidence is missing")
    else if (rule.factorId, side) ∉ engine.confirmedSides ∧
        observation.confidence.lt engine.minimumConfidence then
      .error (side.text ++ " confidence " ++ observation.confidence.repr.text ++ " is below " ++
        engine.minimumConfidence.repr.text)
    else if rule.kind = .numericInterval ∨ rule.kind = .distanceInterval ∨
        (rule.kind = .presenceDistance ∧ value.type = .number) then
      classifyNumber rt rule value side
    else classifyCategory rt rule value side

def classifyPair (rt : Runtime) (engine : FactorRuleEngine) (rule : FactorRule)
    (pair : FactorPair) : Except String (Grade × Grade) := do
  let target ← engine.classify rt rule pair.target .target
  let comparable ← engine.classify rt rule pair.comparable .comparable
  return (target, comparable)

def evaluatePair (rt : Runtime) (engine : FactorRuleEngine) (pair : FactorPair) :
    FactorEvaluationResult :=
  match engine.ruleSet.rules.find? fun rule => rule.factorId = pair.factorId with
  | none =>
    { factorId := pair.factorId
      calculationTrace := "No rule exists for the requested factor ID."
      status := .failed
      warnings := ["Unknown factor ID: " ++ pair.factorId] }
  | some rule =>
    match engine.classifyPair rt rule pair with
    | .error reason =>
      { factorId := pair.factorId
        ruleId := some rule.id
        calculationTrace := "Evaluation stopped before matrix lookup."
        status := .needsReview
        warnings := [reason] }
    | .ok (target, comparable) =>
      match (rule.correctionMatrix.get? target.text).bind fun row => row.get? comparable.text with
      | none =>
        { factorId := pair.factorId
          targetGrade := some target
          comparableGrade := some comparable
          ruleId := some rule.id
          calculationTrace := "Classification succeeded but the matrix cell was missing."
          status := .failed
          warnings := ["Correction matrix lookup failed."] }
      | some adjustment =>
        { factorId := pair.factorId
          targetGrade := some target
          comparableGrade := some comparable
          adjustmentPercent := some adjustment
          ruleId := some rule.id
          calculationTrace := "Classified target and comparable observations, then queried " ++
            "the target-grade row and comparable-grade column."
          status := .verified }

def summaryStatus (results : List FactorEvaluationResult) : EvaluationStatus :=
  if results.any (·.status = .failed) then .failed
  else if results.any (·.status = .needsReview) then .needsReview
  else .verified

/-- A total is a finite float or nothing at all: an infinite one fails the summary's schema. -/
def total (ctx : DecimalContext) (results : List FactorEvaluationResult) :
    Except Escape Binary64 :=
  match Decimal.sum ctx ((results.filterMap (·.adjustmentPercent)).map Binary64.decimal) with
  | .error signal => .error (.arithmetic signal)
  | .ok sum =>
    match Binary64.ofDecimal sum with
    | none => .error .validation
    | some total => .ok total

def summarize (ctx : DecimalContext) (results : List FactorEvaluationResult) :
    Except Escape EvaluationSummary :=
  if summaryStatus results = .verified then do
    let total ← total ctx results
    return ⟨some total, .verified⟩
  else .ok ⟨none, summaryStatus results⟩

def evaluate (rt : Runtime) (ctx : DecimalContext) (engine : FactorRuleEngine)
    (request : FactorEvaluationRequest) : Except Escape FactorReviewResult :=
  if engine.ruleSet.status ≠ .approved then
    .error (.valueError "only approved factor rule sets can be evaluated")
  else if request.ruleSetId ≠ engine.ruleSet.ruleSetId then
    .error (.valueError "evaluation request rule_set_id does not match the loaded rule set")
  else do
    let summary ← summarize ctx (request.factors.map (engine.evaluatePair rt))
    return {
      caseId := request.caseId
      ruleSetId := engine.ruleSet.ruleSetId
      ruleVersion := engine.ruleSet.version
      results := request.factors.map (engine.evaluatePair rt)
      summary := summary }

end FactorRuleEngine

/-- The part of a verification that recalculates; the flag says whether it failed. -/
def recalculate (rt : Runtime) (ctx : DecimalContext) (engine : FactorRuleEngine)
    (result : FactorReviewResult) (facts : FactorEvaluationRequest) : List String × Bool :=
  let invalid := (["Invalid rules, facts or result"], true)
  if engine.ruleSet.valid rt && facts.valid && result.valid then
    match engine.evaluate rt ctx facts with
    | .error _ => invalid
    | .ok expected =>
      let differs := !(decide (result.caseId = expected.caseId) &&
        sameList FactorEvaluationResult.same result.results expected.results &&
        result.summary.same expected.summary)
      let open_ := decide (expected.summary.status ≠ .verified)
      ((if differs then ["Result differs from independent fact/rule recalculation"] else []) ++
        (if open_ then ["Independent calculation is unresolved or failed"] else []),
        differs || decide (expected.summary.status = .failed))
  else invalid

def verifyResult (rt : Runtime) (ctx : DecimalContext) (engine : FactorRuleEngine)
    (result : FactorReviewResult) (facts : Option FactorEvaluationRequest) : VerificationReport :=
  let ids := result.results.map FactorEvaluationResult.factorId
  let missing := (engine.ruleSet.rules.filter fun rule => rule.critical && rule.factorId ∉ ids).map
    fun rule => "Missing critical factor result: " ++ rule.factorId
  let duplicate := decide ¬ids.Nodup
  let mismatch := decide ((result.ruleSetId, result.ruleVersion) ≠
    (engine.ruleSet.ruleSetId, engine.ruleSet.version))
  let (recalculated, failed) := match facts with
    | none => (["Trusted case facts and applicability verification are required"], false)
    | some facts => recalculate rt ctx engine result facts
  let errors := missing ++ (if duplicate then ["Duplicate factor results"] else []) ++
    (if mismatch then ["Rule identity or version mismatch"] else []) ++ recalculated
  { status :=
      if duplicate || mismatch || failed then .failed
      else if errors ≠ [] then .needsReview
      else .verified
    criticalErrors := errors }

end AppraisalReview
