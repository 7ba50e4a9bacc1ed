import Mathlib.Data.List.Nodup
import Mathlib.Tactic.Common

set_option autoImplicit false

/-!
# Insertion-ordered dictionaries

A finite map that remembers the order in which keys were first stored, as
Python's `dict` does. Storing under a known key keeps its place in the order.
-/
namespace AppraisalReview

/-- The key list is duplicate free, so a lookup never hides a later entry. -/
structure Dict (κ ν : Type) where
  items : List (κ × ν)
  keysNodup : (items.map Prod.fst).Nodup

namespace Dict
variable {κ ν : Type}

def empty : Dict κ ν := ⟨[], List.nodup_nil⟩

def keys (d : Dict κ ν) : List κ := d.items.map Prod.fst

def values (d : Dict κ ν) : List ν := d.items.map Prod.snd

variable [DecidableEq κ]

def find (k : κ) : List (κ × ν) → Option ν
  | [] => none
  | (k', v) :: rest => if k' = k then some v else find k rest

def store (k : κ) (v : ν) : List (κ × ν) → List (κ × ν)
  | [] => [(k, v)]
  | (k', v') :: rest => if k' = k then (k, v) :: rest else (k', v') :: store k v rest

def get? (d : Dict κ ν) (k : κ) : Option ν := find k d.items

theorem mem_store_keys (k : κ) (v : ν) (items : List (κ × ν)) (key : κ) :
    key ∈ (store k v items).map Prod.fst ↔ key = k ∨ key ∈ items.map Prod.fst := by
  induction items with
  | nil => simp [store]
  | cons head rest ih =>
    obtain ⟨k', v'⟩ := head
    by_cases h : k' = k
    · subst h
      simp [store]
    · simp only [store, h, if_false, List.map_cons, List.mem_cons, ih]
      tauto

theorem store_keys_nodup (k : κ) (v : ν) (items : List (κ × ν))
    (h : (items.map Prod.fst).Nodup) : ((store k v items).map Prod.fst).Nodup := by
  induction items with
  | nil => simp [store]
  | cons head rest ih =>
    obtain ⟨k', v'⟩ := head
    obtain ⟨hnot, hrest⟩ := List.nodup_cons.mp h
    by_cases hk : k' = k
    · subst hk
      simpa [store] using And.intro hnot hrest
    · simp only [store, hk, if_false, List.map_cons, List.nodup_cons]
      refine ⟨?_, ih hrest⟩
      rw [mem_store_keys]
      rintro (rfl | hin)
      · exact hk rfl
      · exact hnot hin

def set (d : Dict κ ν) (k : κ) (v : ν) : Dict κ ν :=
  ⟨store k v d.items, store_keys_nodup k v d.items d.keysNodup⟩

theorem find_store (k : κ) (v : ν) (items : List (κ × ν)) (key : κ) :
    find key (store k v items) = if key = k then some v else find key items := by
  induction items with
  | nil => simp [store, find, eq_comm]
  | cons head rest ih =>
    obtain ⟨k', v'⟩ := head
    by_cases hk : k' = k
    · subst hk
      by_cases h : key = k'
      · subst h
        simp [store, find]
      · simp [store, find, h, Ne.symm h]
    · simp only [store, hk, if_false, find, ih]
      by_cases h : key = k
      · subst h
        simp [hk]
      · simp [h]

theorem find_eq_some_iff (items : List (κ × ν)) (h : (items.map Prod.fst).Nodup)
    (k : κ) (v : ν) : find k items = some v ↔ (k, v) ∈ items := by
  induction items with
  | nil => simp [find]
  | cons head rest ih =>
    obtain ⟨k', v'⟩ := head
    obtain ⟨hnot, hrest⟩ := List.nodup_cons.mp h
    by_cases hk : k' = k
    · subst hk
      have absent : (k', v) ∉ rest := fun hin => hnot (List.mem_map.mpr ⟨(k', v), hin, rfl⟩)
      simp [find, absent, eq_comm]
    · simp [find, hk, ih hrest, Ne.symm hk]

@[simp] theorem get?_empty (k : κ) : (empty : Dict κ ν).get? k = none := rfl

theorem get?_set (d : Dict κ ν) (k : κ) (v : ν) (key : κ) :
    (d.set k v).get? key = if key = k then some v else d.get? key :=
  find_store k v d.items key

@[simp] theorem get?_set_self (d : Dict κ ν) (k : κ) (v : ν) :
    (d.set k v).get? k = some v := by
  simp [get?_set]

theorem get?_set_of_ne (d : Dict κ ν) {k key : κ} (v : ν) (h : key ≠ k) :
    (d.set k v).get? key = d.get? key := by
  simp [get?_set, h]

theorem get?_set_set (d : Dict κ ν) (k : κ) (v v' : ν) (key : κ) :
    ((d.set k v).set k v').get? key = if key = k then some v' else d.get? key := by
  rw [get?_set]
  split_ifs with h
  · rfl
  · exact get?_set_of_ne d v h

theorem map_get?_set {β : Type} (f : ν → β) (d : Dict κ ν) {k : κ} {old v : ν}
    (h : d.get? k = some old) (keeps : f v = f old) (key : κ) :
    ((d.set k v).get? key).map f = (d.get? key).map f := by
  rw [get?_set]
  split_ifs with hkey
  · rw [hkey, h, Option.map_some, Option.map_some, keeps]
  · rfl

theorem mem_items (d : Dict κ ν) (k : κ) (v : ν) : (k, v) ∈ d.items ↔ d.get? k = some v :=
  (find_eq_some_iff d.items d.keysNodup k v).symm

theorem keys_set_prefix (d : Dict κ ν) (k : κ) (v : ν) : d.keys <+: (d.set k v).keys := by
  change d.items.map Prod.fst <+: (store k v d.items).map Prod.fst
  generalize d.items = items
  induction items with
  | nil => exact List.nil_prefix
  | cons head rest ih =>
    obtain ⟨k', v'⟩ := head
    by_cases h : k' = k
    · subst h
      simp [store]
    · simpa only [store, h, if_false, List.map_cons, List.prefix_cons_inj] using ih

theorem keys_set_new (d : Dict κ ν) {k : κ} (v : ν) (h : d.get? k = none) :
    (d.set k v).keys = d.keys ++ [k] := by
  change find k d.items = none at h
  change (store k v d.items).map Prod.fst = d.items.map Prod.fst ++ [k]
  revert h
  generalize d.items = items
  intro h
  induction items with
  | nil => rfl
  | cons head rest ih =>
    obtain ⟨k', v'⟩ := head
    by_cases hk : k' = k
    · simp [find, hk] at h
    · simp only [find, hk, if_false] at h
      simp only [store, hk, if_false, List.map_cons, ih h, List.cons_append]

theorem mem_keys (d : Dict κ ν) (k : κ) : k ∈ d.keys ↔ (d.get? k).isSome = true := by
  simp only [keys, List.mem_map, Prod.exists, exists_and_right, exists_eq_right, mem_items,
    Option.isSome_iff_exists]

theorem mem_values (d : Dict κ ν) (v : ν) : v ∈ d.values ↔ ∃ k, d.get? k = some v := by
  simp only [values, List.mem_map, Prod.exists, exists_eq_right, mem_items]

theorem find_eq_none {items : List (κ × ν)} {k : κ} (h : k ∉ items.map Prod.fst) :
    find k items = none := by
  induction items with
  | nil => rfl
  | cons head rest ih =>
    obtain ⟨k', v⟩ := head
    rw [List.map_cons, List.mem_cons, not_or] at h
    simp [find, Ne.symm h.1, ih h.2]

theorem get?_foldl_set {β : Type} (f : β → ν) (entries : List (κ × β))
    (distinct : (entries.map Prod.fst).Nodup) (d : Dict κ ν) (key : κ) :
    (entries.foldl (fun d entry => d.set entry.1 (f entry.2)) d).get? key =
      ((find key entries).map f).or (d.get? key) := by
  induction entries generalizing d with
  | nil => rfl
  | cons head rest ih =>
    obtain ⟨k, v⟩ := head
    obtain ⟨hnot, hrest⟩ := List.nodup_cons.mp distinct
    rw [List.foldl_cons, ih hrest, get?_set]
    by_cases h : k = key
    · subst h
      have absent := find_eq_none hnot
      simp [find, absent]
    · simp [find, h, Ne.symm h]

theorem find_filter (p : κ × ν → Bool) (items : List (κ × ν)) (h : (items.map Prod.fst).Nodup)
    (key : κ) : find key (items.filter p) = (find key items).filter fun v => p (key, v) := by
  induction items with
  | nil => rfl
  | cons head rest ih =>
    obtain ⟨k, v⟩ := head
    obtain ⟨hnot, hrest⟩ := List.nodup_cons.mp h
    rw [List.filter_cons]
    by_cases hk : k = key
    · subst hk
      have absent := find_eq_none hnot
      cases hp : p (k, v) <;> simp [find, hp, ih hrest, absent, Option.filter]
    · cases hp : p (k, v) <;> simp [find, hk, ih hrest]

def Extends (d e : Dict κ ν) : Prop := ∀ k v, d.get? k = some v → e.get? k = some v

theorem Extends.refl (d : Dict κ ν) : d.Extends d := fun _ _ h => h

theorem Extends.trans {d e f : Dict κ ν} (h : d.Extends e) (h' : e.Extends f) : d.Extends f :=
  fun k v hv => h' k v (h k v hv)

theorem extends_set (d : Dict κ ν) {k : κ} (v : ν) (unused : d.get? k = none) :
    d.Extends (d.set k v) := by
  intro key w hw
  rw [get?_set]
  split_ifs with hkey
  · rw [hkey, unused] at hw
    cases hw
  · exact hw

/-- The keys of `dict.fromkeys(keys)`: duplicates go, first occurrences keep their order. -/
def fromKeys : List κ → List κ
  | [] => []
  | k :: rest => k :: (fromKeys rest).filter (· ≠ k)

theorem mem_fromKeys (k : κ) (keys : List κ) : k ∈ fromKeys keys ↔ k ∈ keys := by
  induction keys with
  | nil => rfl
  | cons first rest ih =>
    by_cases h : k = first <;> simp [fromKeys, ih, h]

theorem fromKeys_nodup (keys : List κ) : (fromKeys keys).Nodup := by
  induction keys with
  | nil => exact List.nodup_nil
  | cons first rest ih => exact List.nodup_cons.mpr ⟨by simp, ih.filter _⟩

theorem fromKeys_eq_nil (keys : List κ) : fromKeys keys = [] ↔ keys = [] := by
  cases keys <;> simp [fromKeys]

end Dict
end AppraisalReview
