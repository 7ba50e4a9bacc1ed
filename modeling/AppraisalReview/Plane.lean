import Mathlib.Analysis.Convex.Hull
import Mathlib.Analysis.Real.Sqrt
import Mathlib.Tactic.Linarith
import Mathlib.Tactic.LinearCombination

set_option autoImplicit false

/-!
# Boxes around points of the plane

A box that holds some points holds what they span, and what is enclosed by it.
A vector that a matrix maps grows by at most the largest scale of the matrix.
-/
namespace AppraisalReview.Plane

noncomputable section

abbrev Point := ℝ × ℝ

structure BoundingBox where
  x1 : ℝ
  y1 : ℝ
  x2 : ℝ
  y2 : ℝ

def BoundingBox.Holds (box : BoundingBox) (p : Point) : Prop :=
  (box.x1 ≤ p.1 ∧ p.1 ≤ box.x2) ∧ (box.y1 ≤ p.2 ∧ p.2 ≤ box.y2)

def BoundingBox.Inside (box : BoundingBox) (p : Point) : Prop :=
  (box.x1 < p.1 ∧ p.1 < box.x2) ∧ (box.y1 < p.2 ∧ p.2 < box.y2)

def BoundingBox.grow (box : BoundingBox) (radius : ℝ) : BoundingBox :=
  ⟨box.x1 - radius, box.y1 - radius, box.x2 + radius, box.y2 + radius⟩

theorem BoundingBox.Holds.grow {box : BoundingBox} {p v : Point} {radius : ℝ} (h : box.Holds p)
    (hx : |v.1| ≤ radius) (hy : |v.2| ≤ radius) : (box.grow radius).Holds (p + v) := by
  obtain ⟨⟨hx1, hx2⟩, hy1, hy2⟩ := h
  obtain ⟨hvx1, hvx2⟩ := abs_le.mp hx
  obtain ⟨hvy1, hvy2⟩ := abs_le.mp hy
  refine ⟨⟨?_, ?_⟩, ?_, ?_⟩ <;> simp only [BoundingBox.grow, Prod.fst_add, Prod.snd_add] <;> linarith

theorem BoundingBox.convex (box : BoundingBox) : Convex ℝ {p | box.Holds p} := by
  rintro p ⟨⟨hpx1, hpx2⟩, hpy1, hpy2⟩ q ⟨⟨hqx1, hqx2⟩, hqy1, hqy2⟩ a b ha hb hab
  have mix : ∀ lower x y : ℝ, lower ≤ x → lower ≤ y → lower ≤ a * x + b * y := by
    intro lower x y hx hy
    calc lower = a * lower + b * lower := by rw [← add_mul, hab, one_mul]
      _ ≤ a * x + b * y := add_le_add (mul_le_mul_of_nonneg_left hx ha)
          (mul_le_mul_of_nonneg_left hy hb)
  have mix' : ∀ upper x y : ℝ, x ≤ upper → y ≤ upper → a * x + b * y ≤ upper := by
    intro upper x y hx hy
    have := mix (-upper) (-x) (-y) (neg_le_neg hx) (neg_le_neg hy)
    linarith
  exact ⟨⟨mix _ _ _ hpx1 hqx1, mix' _ _ _ hpx2 hqx2⟩, mix _ _ _ hpy1 hqy1, mix' _ _ _ hpy2 hqy2⟩

/-- Every ray from the point meets the curve. No fill rule paints any other point, since a ray
that meets nothing crosses the curve zero times. -/
def Enclosed (curve : Set Point) (p : Point) : Prop :=
  ∀ direction : Point, direction ≠ 0 → ∃ t : ℝ, 0 ≤ t ∧ p + t • direction ∈ curve

theorem BoundingBox.enclosed {box : BoundingBox} {curve : Set Point}
    (h : ∀ p ∈ curve, box.Holds p) {q : Point} (hq : Enclosed curve q) : box.Holds q := by
  obtain ⟨t, ht, hright⟩ := hq (1, 0) (by simp)
  obtain ⟨s, hs, hleft⟩ := hq (-1, 0) (by simp)
  obtain ⟨u, hu, hup⟩ := hq (0, 1) (by simp)
  obtain ⟨v, hv, hdown⟩ := hq (0, -1) (by simp)
  have right := (h _ hright).1.2
  have left := (h _ hleft).1.1
  have up := (h _ hup).2.2
  have down := (h _ hdown).2.1
  simp only [Prod.fst_add, Prod.snd_add, Prod.smul_fst, Prod.smul_snd, smul_eq_mul] at *
  refine ⟨⟨?_, ?_⟩, ?_, ?_⟩ <;> linarith

/-- The point `(x, y)` goes to `(x * a + y * c + e, x * b + y * d + f)`. -/
structure Matrix where
  a : ℝ
  b : ℝ
  c : ℝ
  d : ℝ
  e : ℝ
  f : ℝ

def Matrix.linear (m : Matrix) (v : Point) : Point :=
  (v.1 * m.a + v.2 * m.c, v.1 * m.b + v.2 * m.d)

def lengthSq (v : Point) : ℝ := v.1 ^ 2 + v.2 ^ 2

theorem disc_convex (radius : ℝ) : Convex ℝ {v : Point | lengthSq v ≤ radius ^ 2} := by
  intro v hv w hw a b ha hb hab
  have square : ∀ x y : ℝ, (a * x + b * y) ^ 2 ≤ a * x ^ 2 + b * y ^ 2 := by
    intro x y
    obtain rfl : b = 1 - a := by linarith
    nlinarith [mul_nonneg (mul_nonneg ha hb) (sq_nonneg (x - y))]
  have hx := square v.1 w.1
  have hy := square v.2 w.2
  have hv' : a * lengthSq v ≤ a * radius ^ 2 := mul_le_mul_of_nonneg_left hv ha
  have hw' : b * lengthSq w ≤ b * radius ^ 2 := mul_le_mul_of_nonneg_left hw hb
  have total : a * radius ^ 2 + b * radius ^ 2 = radius ^ 2 := by rw [← add_mul, hab, one_mul]
  simp only [lengthSq] at hv' hw'
  change (a * v.1 + b * w.1) ^ 2 + (a * v.2 + b * w.2) ^ 2 ≤ radius ^ 2
  linarith

/-- A vector grows by at most the largest scale, whose square is the larger root of the
characteristic polynomial of the matrix times its transpose. -/
theorem linear_lengthSq (m : Matrix) {scale : ℝ}
    (large : m.a ^ 2 + m.b ^ 2 + m.c ^ 2 + m.d ^ 2 ≤ 2 * scale ^ 2)
    (root : (scale ^ 2) ^ 2 - (m.a ^ 2 + m.b ^ 2 + m.c ^ 2 + m.d ^ 2) * scale ^ 2 +
      (m.a * m.d - m.b * m.c) ^ 2 = 0) (v : Point) :
    lengthSq (m.linear v) ≤ scale ^ 2 * lengthSq v := by
  obtain ⟨a, b, c, d, e, f⟩ := m
  obtain ⟨x, y⟩ := v
  simp only [Matrix.linear, lengthSq] at *
  generalize scale ^ 2 = l at *
  -- the quadratic form `(l - p) x² - 2 q x y + (l - r) y²` has `(l - p) (l - r) = q²`
  have product : (l - (a ^ 2 + b ^ 2)) * (l - (c ^ 2 + d ^ 2)) = (a * c + b * d) ^ 2 := by
    linear_combination root
  have first : 0 ≤ l - (a ^ 2 + b ^ 2) := by
    by_contra hneg
    push Not at hneg
    have second : 0 < l - (c ^ 2 + d ^ 2) := by nlinarith [sq_nonneg (a * c + b * d)]
    nlinarith [sq_nonneg (a * c + b * d), mul_pos_of_neg_of_neg hneg (neg_neg_of_pos second)]
  have second : 0 ≤ l - (c ^ 2 + d ^ 2) := by
    by_contra hneg
    push Not at hneg
    have first' : 0 < l - (a ^ 2 + b ^ 2) := by linarith
    nlinarith [sq_nonneg (a * c + b * d), mul_neg_of_pos_of_neg first' hneg]
  obtain hzero | hpositive := first.eq_or_lt
  · have mixed : a * c + b * d = 0 := by
      rw [← hzero, zero_mul] at product
      exact pow_eq_zero_iff two_ne_zero |>.mp product.symm
    have form : 0 ≤ (l - (c ^ 2 + d ^ 2)) * y ^ 2 := mul_nonneg second (sq_nonneg y)
    linear_combination form + (2 * x * y) * mixed + x ^ 2 * hzero
  · have form : 0 ≤ (l - (a ^ 2 + b ^ 2)) * (l * (x ^ 2 + y ^ 2) -
        ((x * a + y * c) ^ 2 + (x * b + y * d) ^ 2)) := by
      have square := sq_nonneg ((l - (a ^ 2 + b ^ 2)) * x - (a * c + b * d) * y)
      linear_combination square - y ^ 2 * product
    exact sub_nonneg.mp (nonneg_of_mul_nonneg_right form hpositive)

theorem abs_le_of_lengthSq {v : Point} {radius : ℝ} (hradius : 0 ≤ radius)
    (h : lengthSq v ≤ radius ^ 2) : |v.1| ≤ radius ∧ |v.2| ≤ radius := by
  unfold lengthSq at h
  exact ⟨abs_le_of_sq_le_sq (by nlinarith [sq_nonneg v.2]) hradius,
    abs_le_of_sq_le_sq (by nlinarith [sq_nonneg v.1]) hradius⟩

/-- The point a part `t` of the way from one point to another. -/
def mix (t : ℝ) (p q : Point) : Point := (1 - t) • p + t • q

theorem BoundingBox.Holds.mix {box : BoundingBox} {p q : Point} (hp : box.Holds p)
    (hq : box.Holds q) {t : ℝ} (h0 : 0 ≤ t) (h1 : t ≤ 1) : box.Holds (Plane.mix t p q) :=
  box.convex hp hq (by linarith) h0 (by ring)

inductive Segment where
  | line (a b : Point)
  | curve (a b c d : Point)

namespace Segment

def start : Segment → Point
  | .line a _ => a
  | .curve a _ _ _ => a

def finish : Segment → Point
  | .line _ b => b
  | .curve _ _ _ d => d

def controls : Segment → List Point
  | .line a b => [a, b]
  | .curve a b c d => [a, b, c, d]

def reverse : Segment → Segment
  | .line a b => .line b a
  | .curve a b c d => .curve d c b a

/-- The point of a parameter; a curve is the cubic of its four controls. -/
def point (t : ℝ) : Segment → Point
  | .line a b => mix t a b
  | .curve a b c d => mix t (mix t (mix t a b) (mix t b c)) (mix t (mix t b c) (mix t c d))

def leaving : Segment → Option Point
  | .line a b => if b = a then none else some (b - a)
  | .curve a b c d =>
    if b ≠ a then some (b - a) else if c ≠ a then some (c - a)
    else if d ≠ a then some (d - a) else none

def arriving (segment : Segment) : Option Point := segment.reverse.leaving.map (- ·)

def trace (segment : Segment) : Set Point := {p | ∃ t : ℝ, 0 ≤ t ∧ t ≤ 1 ∧ p = segment.point t}

theorem hold {box : BoundingBox} {segment : Segment} (h : ∀ p ∈ segment.controls, box.Holds p)
    {p : Point} (hp : p ∈ segment.trace) : box.Holds p := by
  obtain ⟨t, h0, h1, rfl⟩ := hp
  cases segment with
  | line a b =>
    simp only [controls, List.forall_mem_cons] at h
    exact h.1.mix h.2.1 h0 h1
  | curve a b c d =>
    simp only [controls, List.forall_mem_cons] at h
    obtain ⟨ha, hb, hc, hd, -⟩ := h
    have hbc := hb.mix hc h0 h1
    exact ((ha.mix hb h0 h1).mix hbc h0 h1).mix (hbc.mix (hc.mix hd h0 h1) h0 h1) h0 h1

theorem finish_mem (segment : Segment) : segment.finish ∈ segment.controls := by
  cases segment <;> simp [finish, controls]

end Segment

end

end AppraisalReview.Plane
