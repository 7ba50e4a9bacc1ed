import AppraisalReview.Raising
import Mathlib.Data.List.Perm.Basic

set_option autoImplicit false

/-!
# Lists with the same elements

What a computation over a list finds when only the elements matter, not their
order or multiplicity.
-/
namespace AppraisalReview.Reordering
variable {α β ε : Type}

def SameElements (l m : List α) : Prop := ∀ x, x ∈ l ↔ x ∈ m

namespace SameElements
variable {l m l' m' : List α}

theorem symm (h : SameElements l m) : SameElements m l := fun x => (h x).symm

theorem of_perm (h : l.Perm m) : SameElements l m := fun _ => h.mem_iff

theorem append (h : SameElements l m) (h' : SameElements l' m') :
    SameElements (l ++ l') (m ++ m') := by
  intro x
  rw [List.mem_append, List.mem_append, h x, h' x]

theorem all (h : SameElements l m) (p : α → Bool) : l.all p = m.all p := by
  rw [Bool.eq_iff_iff, List.all_eq_true, List.all_eq_true]
  exact ⟨fun hall x hx => hall x ((h x).mpr hx), fun hall x hx => hall x ((h x).mp hx)⟩

theorem any (h : SameElements l m) (p : α → Bool) : l.any p = m.any p := by
  rw [Bool.eq_iff_iff, List.any_eq_true, List.any_eq_true]
  exact exists_congr fun x => and_congr_left' (h x)

theorem filter (h : SameElements l m) (p : α → Bool) : SameElements (l.filter p) (m.filter p) := by
  intro x
  rw [List.mem_filter, List.mem_filter, h x]

theorem map (h : SameElements l m) (f : α → β) : SameElements (l.map f) (m.map f) := by
  intro y
  rw [List.mem_map, List.mem_map]
  exact exists_congr fun x => and_congr_left' (h x)

theorem flatMap (h : SameElements l m) (f : α → List β) :
    SameElements (l.flatMap f) (m.flatMap f) := by
  intro y
  rw [List.mem_flatMap, List.mem_flatMap]
  exact exists_congr fun x => and_congr_left' (h x)

theorem eq_nil (h : SameElements l m) : l = [] ↔ m = [] := by
  rw [List.eq_nil_iff_forall_not_mem, List.eq_nil_iff_forall_not_mem]
  exact forall_congr' fun x => not_congr (h x)

theorem find? (h : SameElements l m) {p : α → Bool}
    (hunique : ∀ x ∈ l, ∀ y ∈ l, p x = true → p y = true → x = y) : l.find? p = m.find? p := by
  cases hl : l.find? p with
  | none =>
    symm
    rw [List.find?_eq_none] at hl ⊢
    exact fun x hx => hl x ((h x).mpr hx)
  | some x =>
    have hx := List.mem_of_find?_eq_some hl
    have hpx : p x = true := List.find?_some hl
    cases hm : m.find? p with
    | none => exact absurd hpx (List.find?_eq_none.mp hm x ((h x).mp hx))
    | some y =>
      have hy := (h y).mpr (List.mem_of_find?_eq_some hm)
      rw [hunique x hx y hy hpx (List.find?_some hm)]

end SameElements

theorem find?_value [DecidableEq α] {l : List (α × β)}
    (hunique : ∀ k v v', (k, v) ∈ l → (k, v') ∈ l → v = v') (k : α) (v : β) :
    (l.find? fun entry => entry.1 = k).map Prod.snd = some v ↔ (k, v) ∈ l := by
  rw [Option.map_eq_some_iff]
  constructor
  · rintro ⟨⟨k', v'⟩, hfind, rfl⟩
    have hkey : k' = k := by simpa using List.find?_some hfind
    exact hkey ▸ List.mem_of_find?_eq_some hfind
  · intro hin
    cases hfind : l.find? fun entry => entry.1 = k with
    | none => exact absurd (List.find?_eq_none.mp hfind (k, v) hin) (by simp)
    | some entry =>
      have hkey : entry.1 = k := by simpa using List.find?_some hfind
      have hentry : (k, entry.2) ∈ l := hkey ▸ List.mem_of_find?_eq_some hfind
      exact ⟨entry, rfl, hunique k _ _ hentry hin⟩

theorem allM_eq_all {p : α → Except ε Bool} {q : α → Bool} {l : List α}
    (h : ∀ x ∈ l, p x = .ok (q x)) : l.allM p = .ok (l.all q) := by
  induction l with
  | nil => rfl
  | cons x rest ih =>
    rw [List.allM_cons, h x List.mem_cons_self, List.all_cons]
    cases q x with
    | false => rfl
    | true => exact ih fun y hy => h y (List.mem_cons_of_mem _ hy)

theorem anyM_eq_any {p : α → Except ε Bool} {q : α → Bool} {l : List α}
    (h : ∀ x ∈ l, p x = .ok (q x)) : l.anyM p = .ok (l.any q) := by
  induction l with
  | nil => rfl
  | cons x rest ih =>
    rw [List.anyM_cons, h x List.mem_cons_self, List.any_cons]
    cases q x with
    | true => rfl
    | false => exact ih fun y hy => h y (List.mem_cons_of_mem _ hy)

end AppraisalReview.Reordering
