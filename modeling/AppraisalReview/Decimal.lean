import Mathlib.Data.Rat.Floor
import Mathlib.Tactic

set_option autoImplicit false

/-!
# Decimal arithmetic

Finite decimal numbers as Python's `decimal` keeps them: a sign, a coefficient
and an exponent. A context bounds the digits and the exponents of a result;
without bounds every operation is exact. Only the operations and the two
rounding modes that occur in the program are here.
-/
namespace AppraisalReview

structure Decimal where
  negative : Bool
  coefficient : ℕ
  exponent : ℤ
deriving DecidableEq

inductive Signal where
  | invalidOperation
  | overflow
deriving DecidableEq

structure DecimalLimits where
  precision : ℕ
  maxExponent : ℤ
  minExponent : ℤ

/-- No limits: unbounded precision and exponents. -/
abbrev DecimalContext := Option DecimalLimits

def DecimalLimits.tiny (limits : DecimalLimits) : ℤ := limits.minExponent - (limits.precision - 1)

namespace DecimalContext

def default : DecimalContext := some ⟨28, 999999, -999999⟩

def exact : DecimalContext := none

end DecimalContext

namespace Decimal

def ofNat (n : ℕ) : Decimal := ⟨false, n, 0⟩

def signed (d : Decimal) : ℤ := if d.negative then -(d.coefficient : ℤ) else d.coefficient

def value (d : Decimal) : ℚ := d.signed * (10 : ℚ) ^ d.exponent

/-- The signed coefficient at an exponent that is not above the number's own. -/
def scaled (d : Decimal) (exponent : ℤ) : ℤ := d.signed * 10 ^ (d.exponent - exponent).toNat

def common (a b : Decimal) : ℤ := min a.exponent b.exponent

/-- `==`: 1.0 and 1.00 are the same number. -/
def same (a b : Decimal) : Bool := a.scaled (a.common b) = b.scaled (a.common b)

def le (a b : Decimal) : Bool := a.scaled (a.common b) ≤ b.scaled (a.common b)

def lt (a b : Decimal) : Bool := a.scaled (a.common b) < b.scaled (a.common b)

theorem scaled_cast (d : Decimal) (e : ℤ) (h : e ≤ d.exponent) :
    ((d.scaled e : ℤ) : ℚ) = d.value * (10 : ℚ) ^ (-e) := by
  have hnat : ((d.exponent - e).toNat : ℤ) = d.exponent - e := Int.toNat_of_nonneg (by omega)
  have hpow : (10 : ℚ) ^ (d.exponent - e).toNat = (10 : ℚ) ^ (d.exponent - e) := by
    rw [← zpow_natCast, hnat]
  rw [scaled, value, Int.cast_mul, Int.cast_pow, Int.cast_ofNat, hpow, mul_assoc,
    ← zpow_add₀ (by norm_num), sub_eq_add_neg]

theorem scaled_common (a b : Decimal) :
    ((a.scaled (a.common b) : ℤ) : ℚ) = a.value * (10 : ℚ) ^ (-a.common b) ∧
    ((b.scaled (a.common b) : ℤ) : ℚ) = b.value * (10 : ℚ) ^ (-a.common b) :=
  ⟨scaled_cast a _ (min_le_left _ _), scaled_cast b _ (min_le_right _ _)⟩

theorem power_pos (e : ℤ) : (0 : ℚ) < (10 : ℚ) ^ e := zpow_pos (by norm_num) e

@[simp] theorem same_iff (a b : Decimal) : a.same b = true ↔ a.value = b.value := by
  obtain ⟨ha, hb⟩ := scaled_common a b
  have hp := power_pos (-a.common b)
  rw [same, decide_eq_true_iff, ← Int.cast_inj (α := ℚ), ha, hb]
  exact mul_left_inj' hp.ne'

@[simp] theorem le_iff (a b : Decimal) : a.le b = true ↔ a.value ≤ b.value := by
  obtain ⟨ha, hb⟩ := scaled_common a b
  have hp := power_pos (-a.common b)
  rw [le, decide_eq_true_iff, ← Int.cast_le (R := ℚ), ha, hb]
  exact mul_le_mul_iff_of_pos_right hp

@[simp] theorem lt_iff (a b : Decimal) : a.lt b = true ↔ a.value < b.value := by
  obtain ⟨ha, hb⟩ := scaled_common a b
  have hp := power_pos (-a.common b)
  rw [lt, decide_eq_true_iff, ← Int.cast_lt (R := ℚ), ha, hb]
  exact mul_lt_mul_iff_of_pos_right hp

def digits (n : ℕ) : ℕ := (Nat.toDigits 10 n).length

def adjusted (d : Decimal) : ℤ := d.exponent + digits d.coefficient - 1

def roundHalfUp (n places : ℕ) : ℕ :=
  n / 10 ^ places + if 10 ^ places ≤ 2 * (n % 10 ^ places) then 1 else 0

def roundHalfEven (n places : ℕ) : ℕ :=
  n / 10 ^ places +
    if 10 ^ places < 2 * (n % 10 ^ places) ∨
      10 ^ places = 2 * (n % 10 ^ places) ∧ n / 10 ^ places % 2 = 1 then 1 else 0

def excess (limits : DecimalLimits) (d : Decimal) : ℤ :=
  max ((digits d.coefficient : ℤ) - limits.precision) (limits.tiny - d.exponent)

def shorten (limits : DecimalLimits) (d : Decimal) : Decimal :=
  let places := excess limits d
  if places ≤ 0 then d
  else
    let rounded := roundHalfEven d.coefficient places.toNat
    if rounded < 10 ^ limits.precision then ⟨d.negative, rounded, d.exponent + places⟩
    else ⟨d.negative, rounded / 10, d.exponent + places + 1⟩

def fit (limits : DecimalLimits) (d : Decimal) : Except Signal Decimal :=
  if d.coefficient = 0 then
    .ok { d with exponent := max limits.tiny (min limits.maxExponent d.exponent) }
  else if limits.maxExponent < (shorten limits d).adjusted then .error .overflow
  else .ok (shorten limits d)

def finalize : DecimalContext → Decimal → Except Signal Decimal
  | none, d => .ok d
  | some limits, d => fit limits d

def exactAdd (a b : Decimal) : Decimal :=
  let total := a.scaled (a.common b) + b.scaled (a.common b)
  ⟨if total = 0 then a.negative && b.negative else total < 0, total.natAbs, a.common b⟩

def negate (d : Decimal) : Decimal := { d with negative := !d.negative }

def absolute (d : Decimal) : Decimal := { d with negative := false }

def add (ctx : DecimalContext) (a b : Decimal) : Except Signal Decimal :=
  finalize ctx (exactAdd a b)

def sub (ctx : DecimalContext) (a b : Decimal) : Except Signal Decimal :=
  finalize ctx (exactAdd a b.negate)

def exactMul (a b : Decimal) : Decimal :=
  ⟨a.negative != b.negative, a.coefficient * b.coefficient, a.exponent + b.exponent⟩

def mul (ctx : DecimalContext) (a b : Decimal) : Except Signal Decimal :=
  finalize ctx (exactMul a b)

/-- `sum(values, start=Decimal("0"))` -/
def sum (ctx : DecimalContext) (values : List Decimal) : Except Signal Decimal :=
  values.foldlM (add ctx) (ofNat 0)

def rescaled (d : Decimal) (exponent : ℤ) : ℕ :=
  if exponent ≤ d.exponent then d.coefficient * 10 ^ (d.exponent - exponent).toNat
  else roundHalfUp d.coefficient (exponent - d.exponent).toNat

def rescale (d : Decimal) (exponent : ℤ) : Decimal :=
  ⟨d.negative, rescaled d exponent, exponent⟩

/-- What `quantize` demands of its result. -/
def Representable (limits : DecimalLimits) (d : Decimal) : Prop :=
  limits.tiny ≤ d.exponent ∧ d.exponent ≤ limits.maxExponent ∧
    digits d.coefficient ≤ limits.precision ∧ d.adjusted ≤ limits.maxExponent

instance (limits : DecimalLimits) (d : Decimal) : Decidable (Representable limits d) :=
  inferInstanceAs (Decidable (_ ∧ _ ∧ _ ∧ _))

/-- `quantize(quantum, rounding=ROUND_HALF_UP)` -/
def quantize : DecimalContext → Decimal → Decimal → Except Signal Decimal
  | none, d, quantum => .ok (rescale d quantum.exponent)
  | some limits, d, quantum =>
    if Representable limits (rescale d quantum.exponent) then .ok (rescale d quantum.exponent)
    else .error .invalidOperation

theorem value_ofNat (n : ℕ) : (ofNat n).value = n := by simp [value, ofNat, signed]

theorem signed_total (n e : ℤ) (negative : Bool) :
    signed ⟨if n = 0 then negative else decide (n < 0), n.natAbs, e⟩ = n := by
  rcases lt_trichotomy n 0 with h | h | h
  · simp only [signed, h.ne, h, if_false, decide_true, if_true]
    omega
  · subst h
    cases negative <;> rfl
  · have hnot : ¬n < 0 := by omega
    simp only [signed, h.ne', hnot, if_false, decide_false, Bool.false_eq_true]
    omega

theorem value_exactAdd (a b : Decimal) : (exactAdd a b).value = a.value + b.value := by
  obtain ⟨ha, hb⟩ := scaled_common a b
  have hp : (10 : ℚ) ^ (-a.common b) * (10 : ℚ) ^ a.common b = 1 := by
    rw [← zpow_add₀ (by norm_num), neg_add_cancel, zpow_zero]
  rw [value, exactAdd, signed_total, Int.cast_add, ha, hb, ← add_mul, mul_assoc, hp, mul_one]

theorem value_negate (d : Decimal) : d.negate.value = -d.value := by
  cases h : d.negative <;> simp [value, negate, signed, h]

theorem value_absolute (d : Decimal) : d.absolute.value = |d.value| := by
  have hp := power_pos d.exponent
  rw [value, value, abs_mul, abs_of_pos hp]
  congr 1
  cases h : d.negative <;> simp [absolute, signed, h]

/-- Without limits the sum of a list is a number whose value is the sum of the values. -/
theorem sum_exact (values : List Decimal) :
    ∃ total, sum .exact values = .ok total ∧ total.value = (values.map value).sum := by
  have fold : ∀ (start : Decimal), ∃ total, values.foldlM (add .exact) start = .ok total ∧
      total.value = start.value + (values.map value).sum := by
    induction values with
    | nil => exact fun start => ⟨start, rfl, by simp⟩
    | cons d rest ih =>
      intro start
      obtain ⟨total, hrun, htotal⟩ := ih (exactAdd start d)
      refine ⟨total, hrun, ?_⟩
      rw [htotal, value_exactAdd, List.map_cons, List.sum_cons, add_assoc]
  obtain ⟨total, hrun, htotal⟩ := fold (ofNat 0)
  exact ⟨total, hrun, by simpa [value_ofNat] using htotal⟩

theorem roundHalfUp_eq_floor (n places : ℕ) :
    roundHalfUp n places = ⌊(n : ℚ) / 10 ^ places + 1 / 2⌋₊ := by
  have hp : 0 < 10 ^ places := by positivity
  have hpq : (0 : ℚ) < 10 ^ places := by positivity
  have hlt := Nat.mod_lt n hp
  have hsplit : (n : ℚ) = 10 ^ places * (n / 10 ^ places : ℕ) + (n % 10 ^ places : ℕ) := by
    exact_mod_cast (Nat.div_add_mod n (10 ^ places)).symm
  have hq : (n : ℚ) / 10 ^ places + 1 / 2 =
      (n / 10 ^ places : ℕ) + ((n % 10 ^ places : ℕ) / 10 ^ places + 1 / 2) := by
    rw [← add_assoc]
    congr 1
    rw [div_eq_iff hpq.ne', add_mul, div_mul_cancel₀ _ hpq.ne', mul_comm]
    exact hsplit
  rw [hq, add_comm, Nat.floor_add_natCast (by positivity), add_comm, roundHalfUp]
  congr 1
  symm
  split_ifs with h
  · rw [Nat.floor_eq_iff (by positivity)]
    have hhalf : ((10 ^ places : ℕ) : ℚ) ≤ 2 * (n % 10 ^ places : ℕ) := by exact_mod_cast h
    have hone : ((n % 10 ^ places : ℕ) : ℚ) < (10 ^ places : ℕ) := by exact_mod_cast hlt
    push_cast at hhalf hone
    constructor
    · rw [Nat.cast_one, ← sub_le_iff_le_add, le_div_iff₀ hpq]
      linarith
    · have : ((n % 10 ^ places : ℕ) : ℚ) / 10 ^ places < 1 := by
        rw [div_lt_one hpq]
        exact_mod_cast hlt
      push_cast at this ⊢
      linarith
  · rw [Nat.floor_eq_zero]
    have hhalf : (2 * (n % 10 ^ places : ℕ) : ℚ) < (10 ^ places : ℕ) := by
      exact_mod_cast not_le.mp h
    have : ((n % 10 ^ places : ℕ) : ℚ) / 10 ^ places < 1 / 2 := by
      rw [div_lt_iff₀ hpq]
      push_cast at hhalf ⊢
      linarith
    linarith

theorem rescaled_eq_floor (d : Decimal) (e : ℤ) :
    rescaled d e = ⌊|d.value| * (10 : ℚ) ^ (-e) + 1 / 2⌋₊ := by
  have hvalue : |d.value| = d.coefficient * (10 : ℚ) ^ d.exponent := by
    rw [← value_absolute]
    simp [value, absolute, signed]
  rw [rescaled, hvalue, mul_assoc, ← zpow_add₀ (by norm_num), ← sub_eq_add_neg]
  split_ifs with h
  · have hnat : ((d.exponent - e).toNat : ℤ) = d.exponent - e := Int.toNat_of_nonneg (by omega)
    have hwhole : (d.coefficient : ℚ) * 10 ^ (d.exponent - e) =
        (d.coefficient * 10 ^ (d.exponent - e).toNat : ℕ) := by
      rw [← hnat, zpow_natCast]
      push_cast
      rfl
    rw [hwhole, add_comm, Nat.floor_add_natCast (by norm_num)]
    norm_num
  · have hnat : ((e - d.exponent).toNat : ℤ) = e - d.exponent := Int.toNat_of_nonneg (by omega)
    rw [roundHalfUp_eq_floor, div_eq_mul_inv, ← zpow_natCast, ← zpow_neg, hnat, neg_sub]

theorem negative_of_value {d : Decimal} (h : d.value ≠ 0) :
    d.negative = decide (d.value < 0) := by
  have hp := power_pos d.exponent
  have hc : (0 : ℚ) < d.coefficient := by
    rw [Nat.cast_pos, Nat.pos_iff_ne_zero]
    intro hzero
    exact h (by cases hn : d.negative <;> simp [value, signed, hn, hzero])
  cases hn : d.negative with
  | true =>
    symm
    rw [decide_eq_true_iff]
    have hneg : d.value = -(d.coefficient * 10 ^ d.exponent) := by simp [value, signed, hn]
    rw [hneg, neg_lt_zero]
    exact mul_pos hc hp
  | false =>
    symm
    rw [decide_eq_false_iff_not, not_lt]
    have hpos : d.value = d.coefficient * 10 ^ d.exponent := by simp [value, signed, hn]
    rw [hpos]
    exact (mul_pos hc hp).le

theorem rescale_value_congr {a b : Decimal} (h : a.value = b.value) (e : ℤ) :
    (rescale a e).value = (rescale b e).value := by
  have hc : rescaled a e = rescaled b e := by rw [rescaled_eq_floor, rescaled_eq_floor, h]
  by_cases hzero : a.value = 0
  · have hnone : rescaled a e = 0 := by
      rw [rescaled_eq_floor, hzero]
      norm_num
    have ha : (rescale a e).coefficient = 0 := hnone
    have hb : (rescale b e).coefficient = 0 := hc.symm.trans hnone
    cases hna : (rescale a e).negative <;> cases hnb : (rescale b e).negative <;>
      simp [value, signed, ha, hb]
  · have hsign : a.negative = b.negative := by
      rw [negative_of_value hzero, negative_of_value (h ▸ hzero), h]
    rw [rescale, rescale, hc, hsign]

end Decimal
end AppraisalReview
