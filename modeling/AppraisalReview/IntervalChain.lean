import Mathlib.Data.List.Chain
import Mathlib.Order.Lattice
import Mathlib.Tactic.Common

set_option autoImplicit false

/-!
# Chains of intervals

Intervals with optional ends over a linear order. In a chain whose neighbours
share an end that belongs to exactly one of them, a value lies in one interval
more than the chain has joints without an end.
-/
namespace IntervalChain

structure Interval (α : Type) where
  lower : Option α
  lowerClosed : Bool
  upper : Option α
  upperClosed : Bool

section
variable {α : Type} [LinearOrder α]

namespace Interval

def above (i : Interval α) (x : α) : Bool :=
  match i.lower with
  | none => true
  | some low => decide (low < x) || (i.lowerClosed && decide (x = low))

def below (i : Interval α) (x : α) : Bool :=
  match i.upper with
  | none => true
  | some high => decide (x < high) || (i.upperClosed && decide (x = high))

def contains (i : Interval α) (x : α) : Bool := i.above x && i.below x

def Proper (i : Interval α) : Prop := ∀ low high, i.lower = some low → i.upper = some high → low < high

structure Meets (i j : Interval α) : Prop where
  shared : i.upper = j.lower
  owned : i.upperClosed ≠ j.lowerClosed

theorem Proper.below_of_not_above {i : Interval α} (h : i.Proper) {x : α}
    (hx : i.above x = false) : i.below x = true := by
  unfold above at hx
  unfold below
  split at hx
  · cases hx
  · rename_i low hlow
    simp only [Bool.or_eq_false_iff, decide_eq_false_iff_not, not_lt] at hx
    split
    · rfl
    · rename_i high hhigh
      have hlt : x < high := lt_of_le_of_lt hx.1 (h low high hlow hhigh)
      simp [hlt]

theorem Meets.above_iff {i j : Interval α} (h : i.Meets j) {high : α} (hhigh : i.upper = some high)
    (x : α) : j.above x = !i.below x := by
  have hlow : j.lower = some high := h.shared ▸ hhigh
  have howned := h.owned
  simp only [above, below, hhigh, hlow]
  rcases lt_trichotomy x high with hlt | rfl | hgt
  · simp [hlt, hlt.ne, not_lt.mpr hlt.le]
  · cases hi : i.upperClosed <;> cases hj : j.lowerClosed <;> simp [hi, hj] at howned ⊢
  · simp [hgt, hgt.ne', not_lt.mpr hgt.le]

theorem Meets.open {i j : Interval α} (h : i.Meets j) (hnone : i.upper = none) (x : α) :
    i.below x = true ∧ j.above x = true := by
  have hlow : j.lower = none := h.shared ▸ hnone
  simp [above, below, hnone, hlow]

end Interval

def openJoints : List (Interval α) → ℕ
  | i :: j :: rest => (if i.upper.isNone then 1 else 0) + openJoints (j :: rest)
  | _ => 0

def covering (x : α) (l : List (Interval α)) : ℕ := (l.filter fun i => i.contains x).length

theorem covering_cons (x : α) (i : Interval α) (l : List (Interval α)) :
    covering x (i :: l) = (i.contains x).toNat + covering x l := by
  unfold covering
  cases h : i.contains x with
  | true => simp [h, Nat.add_comm]
  | false => simp [h]

/-- From an interval on, a value is covered by as many intervals as there are open joints, and
by one more when it is above the first lower end. -/
theorem covering_chain (x : α) {l : List (Interval α)} {first : Interval α}
    (hchain : List.IsChain Interval.Meets (first :: l)) (hproper : ∀ i ∈ first :: l, i.Proper)
    (hlast : ((first :: l).getLast?.bind Interval.upper) = none) :
    covering x (first :: l) = openJoints (first :: l) + (first.above x).toNat := by
  induction l generalizing first with
  | nil =>
    have hupper : first.upper = none := by simpa using hlast
    rw [covering_cons]
    simp [Interval.contains, Interval.below, hupper, covering, openJoints]
  | cons second rest ih =>
    obtain ⟨hmeets, hrest⟩ := List.isChain_cons_cons.mp hchain
    have hlater := ih hrest (fun i hi => hproper i (List.mem_cons_of_mem _ hi))
      (by rwa [List.getLast?_cons_cons] at hlast)
    rw [covering_cons, hlater, openJoints, Interval.contains]
    cases hupper : first.upper with
    | none =>
      obtain ⟨hbelow, habove⟩ := hmeets.open hupper x
      simp only [hbelow, habove, Bool.and_true, Bool.toNat_true, Option.isNone_none, if_true]
      omega
    | some high =>
      rw [hmeets.above_iff hupper]
      cases hfirst : first.above x with
      | true => cases first.below x <;> simp [Nat.add_comm]
      | false =>
        rw [(hproper first List.mem_cons_self).below_of_not_above hfirst]
        simp

/-- In a chain without outer ends, a value lies in one interval more than there are open joints. -/
theorem covering_total (x : α) {l : List (Interval α)} (hne : l ≠ [])
    (hchain : List.IsChain Interval.Meets l) (hproper : ∀ i ∈ l, i.Proper)
    (hfirst : (l.head?.bind Interval.lower) = none) (hlast : (l.getLast?.bind Interval.upper) = none) :
    covering x l = openJoints l + 1 := by
  cases l with
  | nil => exact absurd rfl hne
  | cons first rest =>
    have habove : first.above x = true := by
      have hlower : first.lower = none := by simpa using hfirst
      simp [Interval.above, hlower]
    rw [covering_chain x hchain hproper hlast, habove]
    rfl

end
end IntervalChain
