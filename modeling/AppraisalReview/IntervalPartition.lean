import AppraisalReview.CaseReview
import AppraisalReview.EngineLaws
import AppraisalReview.IntervalChain

set_option autoImplicit false

/-!
# Interval rules as partitions

The bands of an accepted rule form a chain from minus to plus infinity. They
partition the numbers exactly when every inner bound is there: two neighbours
without one are accepted as contiguous.
-/
namespace AppraisalReview
open IntervalChain Raising

def IntervalBand.interval (band : IntervalBand) : IntervalChain.Interval ℚ where
  lower := band.minimum.map fun x => x.decimal.value
  lowerClosed := band.minimumInclusive
  upper := band.maximum.map fun x => x.decimal.value
  upperClosed := band.maximumInclusive

def innerBounded (bands : List IntervalBand) : Bool :=
  bands.dropLast.all fun band => band.maximum.isSome

def FactorRule.usesIntervals (rule : FactorRule) : Bool := rule.kind ≠ .category

theorem contains_interval (band : IntervalBand) (number : Decimal) :
    band.contains number = band.interval.contains number.value := by
  rw [Bool.eq_iff_iff]
  unfold IntervalBand.contains IntervalBand.interval IntervalChain.Interval.contains
    IntervalChain.Interval.above IntervalChain.Interval.below
  cases band.minimum <;> cases band.maximum <;> simp

theorem IntervalBand.valid_proper {band : IntervalBand} (h : band.valid = true) :
    band.interval.Proper := by
  intro low high hlow hhigh
  obtain ⟨x, hx, rfl⟩ := Option.map_eq_some_iff.mp hlow
  obtain ⟨y, hy, rfl⟩ := Option.map_eq_some_iff.mp hhigh
  simpa [IntervalBand.valid, hx, hy, Binary64.lt] using h

theorem sameOption_value {a b : Option Binary64} (h : sameOption Binary64.same a b = true) :
    (a.map fun x => x.decimal.value) = b.map fun x => x.decimal.value := by
  cases a with
  | none =>
    cases b with
    | none => rfl
    | some y => cases h
  | some x =>
    cases b with
    | none => cases h
    | some y => simpa [sameOption, Binary64.same] using h

theorem contiguous_chain {bands : List IntervalBand} (h : contiguous bands = true) :
    List.IsChain IntervalChain.Interval.Meets (bands.map IntervalBand.interval) := by
  induction bands with
  | nil => exact .nil
  | cons first rest ih =>
    cases rest with
    | nil => exact .singleton _
    | cons second rest =>
      simp only [contiguous, Bool.and_eq_true, bne_iff_ne] at h
      obtain ⟨⟨hshared, howned⟩, hrest⟩ := h
      exact .cons_cons ⟨sameOption_value hshared, howned⟩ (ih hrest)

theorem openJoints_eq_zero {bands : List IntervalBand} :
    openJoints (bands.map IntervalBand.interval) = 0 ↔ innerBounded bands = true := by
  induction bands with
  | nil => simp [openJoints, innerBounded]
  | cons first rest ih =>
    cases rest with
    | nil => simp [openJoints, innerBounded]
    | cons second rest =>
      have hstep : innerBounded (first :: second :: rest) =
          (first.maximum.isSome && innerBounded (second :: rest)) := by
        simp [innerBounded]
      rw [hstep, Bool.and_eq_true, ← ih]
      simp only [List.map_cons, openJoints, IntervalBand.interval]
      cases first.maximum <;> simp

/-- The bands of an accepted rule, as a list that its validator checked. -/
structure Accepted (bands : List IntervalBand) : Prop where
  nonempty : bands ≠ []
  valid : ∀ band ∈ bands, band.valid = true
  covers : validIntervals bands = true

variable {rt : Runtime}

theorem FactorRule.accepted {rule : FactorRule} (h : rule.valid rt = true)
    (hkind : rule.usesIntervals = true) : Accepted rule.intervals := by
  rw [usesIntervals, decide_eq_true_eq] at hkind
  simp only [valid, Bool.and_eq_true] at h
  obtain ⟨⟨hbands, -⟩, hrule⟩ := h
  have hall := List.all_eq_true.mp hbands
  cases hk : rule.kind with
  | category => exact absurd hk hkind
  | numericInterval =>
    simp only [hk, Bool.and_eq_true, Bool.not_eq_true', List.isEmpty_eq_false_iff] at hrule
    exact ⟨hrule.1.1.1, hall, hrule.1.2⟩
  | distanceInterval =>
    simp only [hk, Bool.and_eq_true, Bool.not_eq_true', List.isEmpty_eq_false_iff] at hrule
    exact ⟨hrule.1.1.1, hall, hrule.1.2⟩
  | presenceDistance =>
    simp only [hk, Bool.and_eq_true, Bool.not_eq_true', List.isEmpty_eq_false_iff] at hrule
    exact ⟨hrule.1.1.1.1, hall, hrule.1.1.1.2⟩

/-- A number lies in one accepted band, and in one more for every missing inner bound. -/
theorem Accepted.count {bands : List IntervalBand} (h : Accepted bands) (number : Decimal) :
    (bands.filter fun band => band.contains number).length =
      openJoints (bands.map IntervalBand.interval) + 1 := by
  have hcovers := h.covers
  simp only [validIntervals, Bool.and_eq_true, Option.isNone_iff_eq_none] at hcovers
  obtain ⟨⟨hfirst, hlast⟩, hchain⟩ := hcovers
  have htotal := covering_total number.value (l := bands.map IntervalBand.interval)
    (by simpa using h.nonempty) (contiguous_chain hchain)
    (by
      intro i hi
      obtain ⟨band, hband, rfl⟩ := List.mem_map.mp hi
      exact IntervalBand.valid_proper (h.valid band hband))
    (by
      rw [List.head?_map]
      cases hhead : bands.head? with
      | none => rfl
      | some band =>
        rw [hhead] at hfirst
        simpa [IntervalBand.interval] using hfirst)
    (by
      rw [List.getLast?_map]
      cases hend : bands.getLast? with
      | none => rfl
      | some band =>
        rw [hend] at hlast
        simpa [IntervalBand.interval] using hlast)
  rw [← htotal, covering, List.filter_map, List.length_map]
  congr 1
  refine List.filter_congr fun band _ => ?_
  exact contains_interval band number

theorem Accepted.exact_iff {bands : List IntervalBand} (h : Accepted bands) :
    (∀ number : Decimal, (bands.filter fun band => band.contains number).length = 1) ↔
      innerBounded bands = true := by
  rw [← openJoints_eq_zero]
  constructor
  · intro hexact
    have hcount := h.count (Decimal.ofNat 0)
    rw [hexact] at hcount
    omega
  · intro hzero number
    rw [h.count, hzero]

/-- Some band of an accepted rule contains the number, whatever its inner bounds. -/
theorem Accepted.find {bands : List IntervalBand} (h : Accepted bands) (number : Decimal) :
    ∃ band, (bands.find? fun band => band.contains number) = some band := by
  cases hfind : bands.find? fun band => band.contains number with
  | some band => exact ⟨band, rfl⟩
  | none =>
    have hcount := h.count number
    have hnone : bands.filter (fun band => band.contains number) = [] :=
      List.filter_eq_nil_iff.mpr (List.find?_eq_none.mp hfind)
    rw [hnone, List.length_nil] at hcount
    omega

theorem find?_perm {α : Type} {p : α → Bool} {l l' : List α} (hperm : l'.Perm l)
    (hone : (l.filter p).length = 1) : l'.find? p = l.find? p := by
  obtain ⟨x, hx⟩ := List.length_eq_one_iff.mp hone
  have hsame : (l'.filter p).Perm [x] := hx ▸ hperm.filter p
  rw [← List.head?_filter, ← List.head?_filter, hx, List.perm_singleton.mp hsame]

theorem classify_perm {rule : FactorRule} {bands : List IntervalBand}
    (hperm : bands.Perm rule.intervals)
    (hone : ∀ number : Decimal,
      (rule.intervals.filter fun band => band.contains number).length = 1)
    (engine : FactorRuleEngine) (observation : FactorObservation) (side : Side) :
    engine.classify rt { rule with intervals := bands } observation side =
      engine.classify rt rule observation side := by
  have hfind : ∀ number : Decimal, (bands.find? fun band => band.contains number) =
      rule.intervals.find? fun band => band.contains number :=
    fun number => find?_perm hperm (hone number)
  simp only [FactorRuleEngine.classify, classifyNumber, classifyCategory, hfind]

theorem ne_of_take {a b : String} (n : ℕ) (h : a.toList.take n ≠ b.toList.take n) : a ≠ b :=
  fun heq => h (heq ▸ rfl)

theorem normalizeNumber_error {value : NormalizedValue} {unit : Option String} {reason : String}
    (h : normalizeNumber rt value unit = .error reason) (side : Side) :
    reason.toList.take 1 ≠ side.text.toList.take 1 := by
  unfold normalizeNumber at h
  split at h
  · split at h
    · cases h
    · cases h
      cases side <;> decide
    · cases h
      cases side <;> simp [Side.text]
    · split at h
      · cases h
      · split at h
        · cases h
        · cases h
          cases side <;> simp [Side.text]
  · cases h
    cases side <;> decide

def unmatched (side : Side) : String := side.text ++ " value did not match any interval"

theorem unmatched_take (side : Side) : (unmatched side).toList.take 1 = side.text.toList.take 1 := by
  cases side <;> rfl

theorem classifyNumber_answers {rule : FactorRule} (h : Accepted rule.intervals)
    (value : NormalizedValue) (side : Side) :
    classifyNumber rt rule value side ≠ .error (unmatched side) := by
  intro heq
  unfold classifyNumber at heq
  split at heq
  · exact absurd (Except.error.inj heq) (by cases side <;> decide)
  · cases hnumber : normalizeNumber rt value rule.unit with
    | error reason =>
      rw [hnumber, error_bind] at heq
      apply normalizeNumber_error hnumber side
      rw [Except.error.inj heq, unmatched_take]
    | ok number =>
      obtain ⟨band, hband⟩ := h.find number
      rw [hnumber] at heq
      simp only [Except.bind, bind, hband] at heq
      split at heq
      · exact absurd (Except.error.inj heq) (by cases side <;> decide)
      · cases heq

theorem classifyCategory_answers (rule : FactorRule) (value : NormalizedValue) (side : Side) :
    classifyCategory rt rule value side ≠ .error (unmatched side) := by
  intro heq
  unfold classifyCategory at heq
  split at heq
  · split at heq
    · exact absurd (Except.error.inj heq) (by cases side <;> decide)
    · split at heq
      · cases heq
      · refine absurd (Except.error.inj heq) (ne_of_take 18 ?_)
        cases side <;> simp [Side.text, unmatched]
  · exact absurd (Except.error.inj heq) (by cases side <;> decide)

theorem classify_answers {rule : FactorRule} (h : Accepted rule.intervals)
    (engine : FactorRuleEngine) (observation : FactorObservation) (side : Side) :
    engine.classify rt rule observation side ≠ .error (unmatched side) := by
  intro heq
  unfold FactorRuleEngine.classify at heq
  split at heq
  · exact absurd (Except.error.inj heq) (by cases side <;> decide)
  · split at heq
    · exact absurd (Except.error.inj heq) (by cases side <;> decide)
    · split at heq
      · refine absurd (Except.error.inj heq) (ne_of_take 18 ?_)
        cases side <;> simp [Side.text, unmatched]
      · split at heq
        · exact classifyNumber_answers h _ side heq
        · exact classifyCategory_answers rule _ side heq

/-- A grade comes from a band of the intervals or of the categories of its rule. -/
theorem classify_grade {engine : FactorRuleEngine} {rule : FactorRule}
    {observation : FactorObservation} {side : Side} {grade : Grade}
    (h : engine.classify rt rule observation side = .ok grade) :
    (rule.kind ≠ .category ∧ grade.text ∈ rule.intervals.map (·.grade.text)) ∨
      ((rule.kind = .category ∨ rule.kind = .presenceDistance) ∧
        grade.text ∈ rule.categories.map (·.grade.text)) := by
  unfold FactorRuleEngine.classify at h
  split at h
  · cases h
  · split at h
    · cases h
    · split at h
      · cases h
      · split at h
        · rename_i hkind
          left
          refine ⟨fun hcategory => by rw [hcategory] at hkind; simp at hkind, ?_⟩
          unfold classifyNumber at h
          split at h
          · cases h
          · obtain ⟨number, -, h⟩ := bind_ok.mp h
            dsimp only at h
            split at h
            · cases h
            · split at h
              · rename_i band hband
                cases pure_ok.mp h
                exact List.mem_map.mpr ⟨band, List.mem_of_find?_eq_some hband, rfl⟩
              · cases h
        · rename_i hkind
          right
          refine ⟨?_, ?_⟩
          · cases hk : rule.kind <;> simp [hk] at hkind ⊢
          · unfold classifyCategory at h
            split at h
            · split at h
              · cases h
              · split at h
                · rename_i band hband
                  cases h
                  exact List.mem_map.mpr ⟨band, List.mem_of_find?_eq_some hband, rfl⟩
                · cases h
            · cases h

theorem validMatrix_cell {matrix : CorrectionMatrix} {grades : List String}
    (h : validMatrix matrix grades = true) {target comparable : String} (ht : target ∈ grades)
    (hc : comparable ∈ grades) :
    ∃ adjustment, ((matrix.get? target).bind fun row => row.get? comparable) = some adjustment := by
  have hkeys : ∀ {ν : Type} (d : Dict String ν), sameSet d.keys grades = true →
      ∀ grade ∈ grades, ∃ v, d.get? grade = some v := by
    intro ν d hsame grade hin
    rw [sameSet, Bool.and_eq_true] at hsame
    have hmem : grade ∈ d.keys := by simpa using List.all_eq_true.mp hsame.2 grade hin
    exact Option.isSome_iff_exists.mp ((d.mem_keys grade).mp hmem)
  rw [validMatrix, Bool.and_eq_true] at h
  obtain ⟨row, hrow⟩ := hkeys matrix h.1 target ht
  have hvalues : row ∈ matrix.values := (matrix.mem_values row).mpr ⟨target, hrow⟩
  obtain ⟨adjustment, hadjustment⟩ :=
    hkeys row (List.all_eq_true.mp h.2 row hvalues) comparable hc
  exact ⟨adjustment, by rw [hrow]; exact hadjustment⟩

/-- The matrix of an accepted rule has a cell for any two grades of its classification. -/
theorem FactorRule.cell {rule : FactorRule} (h : rule.valid rt = true) {engine : FactorRuleEngine}
    {target comparable : FactorObservation} {a b : Side} {targetGrade comparableGrade : Grade}
    (ht : engine.classify rt rule target a = .ok targetGrade)
    (hc : engine.classify rt rule comparable b = .ok comparableGrade) :
    ∃ adjustment, ((rule.correctionMatrix.get? targetGrade.text).bind fun row =>
      row.get? comparableGrade.text) = some adjustment := by
  have htarget := classify_grade ht
  have hcomparable := classify_grade hc
  simp only [valid, Bool.and_eq_true] at h
  obtain ⟨-, hrule⟩ := h
  cases hk : rule.kind with
  | category =>
    simp only [hk, Bool.and_eq_true] at hrule
    exact validMatrix_cell hrule.2 (by simpa [hk] using htarget) (by simpa [hk] using hcomparable)
  | numericInterval =>
    simp only [hk, Bool.and_eq_true] at hrule
    exact validMatrix_cell hrule.2 (by simpa [hk] using htarget) (by simpa [hk] using hcomparable)
  | distanceInterval =>
    simp only [hk, Bool.and_eq_true] at hrule
    exact validMatrix_cell hrule.2 (by simpa [hk] using htarget) (by simpa [hk] using hcomparable)
  | presenceDistance =>
    simp only [hk, Bool.and_eq_true] at hrule
    refine validMatrix_cell hrule.2 ?_ ?_
    · exact List.mem_append.mpr (htarget.imp And.right And.right)
    · exact List.mem_append.mpr (hcomparable.imp And.right And.right)

/-- What the validators are to establish of a rule. -/
structure Partitions (rt : Runtime) (rule : FactorRule) : Prop where
  exact : rule.usesIntervals = true → ∀ number : Decimal,
    (rule.intervals.filter fun band => band.contains number).length = 1
  orderFree : rule.usesIntervals = true → ∀ bands : List IntervalBand,
    bands.Perm rule.intervals → ∀ (engine : FactorRuleEngine) observation side,
      engine.classify rt { rule with intervals := bands } observation side =
        engine.classify rt rule observation side
  answers : rule.usesIntervals = true → ∀ (engine : FactorRuleEngine) observation side,
    engine.classify rt rule observation side ≠ .error (unmatched side)
  cell : ∀ (engine : FactorRuleEngine) target comparable targetGrade comparableGrade,
    engine.classify rt rule target .target = .ok targetGrade →
    engine.classify rt rule comparable .comparable = .ok comparableGrade →
    ∃ adjustment, ((rule.correctionMatrix.get? targetGrade.text).bind fun row =>
      row.get? comparableGrade.text) = some adjustment

/-- An accepted rule partitions the numbers exactly when its inner bounds are there. -/
theorem interval_partition (rt : Runtime) (rule : FactorRule) (h : rule.valid rt = true) :
    Partitions rt rule ↔ (rule.usesIntervals = true → innerBounded rule.intervals = true) := by
  constructor
  · intro hpartitions hkind
    exact (rule.accepted h hkind).exact_iff.mp (hpartitions.exact hkind)
  · intro hbounded
    have hexact : rule.usesIntervals = true → ∀ number : Decimal,
        (rule.intervals.filter fun band => band.contains number).length = 1 :=
      fun hkind => (rule.accepted h hkind).exact_iff.mpr (hbounded hkind)
    refine ⟨hexact, ?_, ?_, fun engine target comparable _ _ ht hc => rule.cell h ht hc⟩
    · intro hkind bands hperm engine observation side
      exact classify_perm hperm (hexact hkind) engine observation side
    · intro hkind engine observation side
      exact classify_answers (rule.accepted h hkind) engine observation side

def fiveRow : Dict String Binary64 := ⟨[("normal", sampleFive), ("inferior", sampleFive)], by decide⟩

def fiveMatrix : CorrectionMatrix := ⟨[("normal", fiveRow), ("inferior", fiveRow)], by decide⟩

def splitRule : FactorRule where
  id := "rule"
  factorId := "factor"
  kind := .numericInterval
  intervals := [{ grade := .normal, maximum := some sampleFive },
    { grade := .inferior, minimum := some sampleFive }]
  correctionMatrix := fiveMatrix

theorem interval_partition_split : Partitions sampleRuntime splitRule :=
  (interval_partition sampleRuntime splitRule (by decide +kernel)).mpr fun _ => rfl

def unboundedRule : FactorRule :=
  { splitRule with intervals := [{ grade := .normal }, { grade := .inferior }] }

def unboundedEngine : FactorRuleEngine := ⟨sampleRules.rules.approve, one64, []⟩

def sampleNumber : FactorObservation :=
  { sampleObservation with value := some ⟨.number, .number sampleFive, none⟩ }

/-- An accepted rule whose two bands both contain every number: the grade depends on their order. -/
theorem unbounded_bands_overlap : unboundedRule.valid sampleRuntime = true ∧
    unboundedRule.usesIntervals = true ∧
    (∀ number : Decimal,
      (unboundedRule.intervals.filter fun band => band.contains number).length = 2) ∧
    unboundedEngine.classify sampleRuntime unboundedRule sampleNumber .target = .ok .normal ∧
    unboundedEngine.classify sampleRuntime
      { unboundedRule with intervals := unboundedRule.intervals.reverse } sampleNumber .target =
        .ok .inferior :=
  ⟨by decide +kernel, rfl, fun _ => rfl, by decide +kernel, by decide +kernel⟩

end AppraisalReview
