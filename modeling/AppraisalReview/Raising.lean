import Mathlib.Data.List.Forall2
import Mathlib.Tactic.Common

set_option autoImplicit false

/-!
# Computations that may raise

Inversion of sequenced, quantified and mapped computations in `Except`.
-/
namespace AppraisalReview.Raising
variable {ε α β : Type}

theorem bind_ok {x : Except ε α} {f : α → Except ε β} {b : β} :
    x >>= f = .ok b ↔ ∃ a, x = .ok a ∧ f a = .ok b := by
  cases x with
  | error e =>
    constructor
    · intro h
      cases h
    · rintro ⟨a, h, -⟩
      cases h
  | ok a =>
    constructor
    · exact fun h => ⟨a, rfl, h⟩
    · rintro ⟨a', h, hf⟩
      cases h
      exact hf

theorem bind_error {x : Except ε α} {f : α → Except ε β} {e : ε} :
    x >>= f = .error e ↔ x = .error e ∨ ∃ a, x = .ok a ∧ f a = .error e := by
  cases x with
  | error e' =>
    constructor
    · intro h
      cases h
      exact Or.inl rfl
    · rintro (h | ⟨a, h, -⟩)
      · cases h
        rfl
      · cases h
  | ok a =>
    constructor
    · exact fun h => Or.inr ⟨a, rfl, h⟩
    · rintro (h | ⟨a', h, hf⟩)
      · cases h
      · cases h
        exact hf

@[simp] theorem error_bind {e : ε} {f : α → Except ε β} : (.error e : Except ε α) >>= f = .error e :=
  rfl

theorem ok_bind {a : α} {f : α → Except ε β} : (.ok a : Except ε α) >>= f = f a := rfl

theorem guard_ok {c : Prop} [Decidable c] {e : ε} {x : Except ε α} {b : α} :
    (if c then .error e else x) = .ok b ↔ ¬ c ∧ x = .ok b := by
  split_ifs with h
  · exact ⟨nofun, fun hx => absurd h hx.1⟩
  · exact ⟨fun hx => ⟨h, hx⟩, fun hx => hx.2⟩

theorem pure_ok {a b : α} : (pure a : Except ε α) = .ok b ↔ a = b := by
  constructor
  · intro h
    cases h
    rfl
  · rintro rfl
    rfl

theorem map_ok {f : α → β} {x : Except ε α} {b : β} :
    x.map f = .ok b ↔ ∃ a, x = .ok a ∧ f a = b := by
  cases x with
  | error e => simp [Except.map]
  | ok a => simp [Except.map]

theorem mapError_ok {ε' : Type} {f : ε → ε'} {x : Except ε α} {a : α} :
    x.mapError f = .ok a ↔ x = .ok a := by
  cases x with
  | error e => simp [Except.mapError]
  | ok b => simp [Except.mapError]

theorem filterAuxM_subset {p : α → Except ε Bool} {l acc kept : List α}
    (h : l.filterAuxM p acc = .ok kept) : ∀ x ∈ kept, x ∈ l ∨ x ∈ acc := by
  induction l generalizing acc with
  | nil =>
    rw [← pure_ok.mp h]
    exact fun x hx => Or.inr hx
  | cons y rest ih =>
    rw [List.filterAuxM, bind_ok] at h
    obtain ⟨keep, -, h⟩ := h
    intro x hx
    rcases ih h x hx with hrest | hacc
    · exact Or.inl (List.mem_cons_of_mem _ hrest)
    · cases keep with
      | false => exact Or.inr hacc
      | true =>
        rcases List.mem_cons.mp hacc with rfl | hacc
        · exact Or.inl List.mem_cons_self
        · exact Or.inr hacc

theorem filterM_subset {p : α → Except ε Bool} {l kept : List α}
    (h : l.filterM p = .ok kept) : ∀ x ∈ kept, x ∈ l := by
  rw [List.filterM, bind_ok] at h
  obtain ⟨reversed, hreversed, h⟩ := h
  rw [← pure_ok.mp h]
  intro x hx
  exact (filterAuxM_subset hreversed x (List.mem_reverse.mp hx)).resolve_right List.not_mem_nil

theorem allM_true {p : α → Except ε Bool} {l : List α} :
    l.allM p = .ok true ↔ ∀ x ∈ l, p x = .ok true := by
  induction l with
  | nil => exact ⟨fun _ x hx => absurd hx List.not_mem_nil, fun _ => rfl⟩
  | cons x rest ih =>
    rw [List.allM_cons, bind_ok, List.forall_mem_cons, ← ih]
    constructor
    · rintro ⟨b, hb, hrest⟩
      cases b with
      | true => exact ⟨hb, hrest⟩
      | false => exact absurd (pure_ok.mp hrest) Bool.false_ne_true
    · rintro ⟨hx, hrest⟩
      exact ⟨true, hx, hrest⟩

theorem anyM_true {p : α → Except ε Bool} {l : List α} (h : l.anyM p = .ok true) :
    ∃ x ∈ l, p x = .ok true := by
  induction l with
  | nil => exact absurd (pure_ok.mp h) Bool.false_ne_true
  | cons x rest ih =>
    rw [List.anyM_cons, bind_ok] at h
    obtain ⟨b, hb, hrest⟩ := h
    cases b with
    | true => exact ⟨x, List.mem_cons_self, hb⟩
    | false =>
      obtain ⟨y, hy, hpy⟩ := ih hrest
      exact ⟨y, List.mem_cons_of_mem _ hy, hpy⟩

theorem anyM_false {p : α → Except ε Bool} {l : List α} (h : l.anyM p = .ok false) :
    ∀ x ∈ l, p x = .ok false := by
  induction l with
  | nil => exact fun x hx => absurd hx List.not_mem_nil
  | cons x rest ih =>
    rw [List.anyM_cons, bind_ok] at h
    obtain ⟨b, hb, hrest⟩ := h
    cases b with
    | true => exact absurd (pure_ok.mp hrest) (by simp)
    | false => exact List.forall_mem_cons.mpr ⟨hb, ih hrest⟩

theorem allM_false {p : α → Except ε Bool} {l : List α} (h : l.allM p = .ok false) :
    ∃ x ∈ l, p x = .ok false := by
  induction l with
  | nil => exact absurd (pure_ok.mp h) (by simp)
  | cons x rest ih =>
    rw [List.allM_cons, bind_ok] at h
    obtain ⟨b, hb, hrest⟩ := h
    cases b with
    | false => exact ⟨x, List.mem_cons_self, hb⟩
    | true =>
      obtain ⟨y, hy, hpy⟩ := ih hrest
      exact ⟨y, List.mem_cons_of_mem _ hy, hpy⟩

theorem allM_congr {p q : α → Except ε Bool} {l : List α} (h : ∀ x ∈ l, p x = q x) :
    l.allM p = l.allM q := by
  induction l with
  | nil => rfl
  | cons x rest ih =>
    rw [List.allM_cons, List.allM_cons, h x List.mem_cons_self,
      ih fun y hy => h y (List.mem_cons_of_mem _ hy)]

theorem mapM_ok {f : α → Except ε β} {l : List α} {ys : List β} :
    l.mapM f = .ok ys ↔ List.Forall₂ (fun x y => f x = .ok y) l ys := by
  induction l generalizing ys with
  | nil =>
    rw [List.mapM_nil, pure_ok, List.forall₂_nil_left_iff, eq_comm]
  | cons x rest ih =>
    rw [List.mapM_cons, bind_ok]
    constructor
    · rintro ⟨y, hy, hrest⟩
      obtain ⟨zs, hzs, hcons⟩ := bind_ok.mp hrest
      rw [← pure_ok.mp hcons]
      exact List.Forall₂.cons hy (ih.mp hzs)
    · intro h
      cases h with
      | cons hy hrest => exact ⟨_, hy, bind_ok.mpr ⟨_, ih.mpr hrest, rfl⟩⟩

theorem mapM_total {γ : Type} {f : α → Except ε β} {g : β → γ} {k : α → γ} {l : List α}
    (h : ∀ x ∈ l, ∃ y, f x = .ok y ∧ g y = k x) : ∃ ys, l.mapM f = .ok ys ∧ ys.map g = l.map k := by
  induction l with
  | nil => exact ⟨[], rfl, rfl⟩
  | cons x rest ih =>
    obtain ⟨y, hy, hgy⟩ := h x List.mem_cons_self
    obtain ⟨ys, hys, hmap⟩ := ih fun z hz => h z (List.mem_cons_of_mem _ hz)
    refine ⟨y :: ys, ?_, by rw [List.map_cons, List.map_cons, hgy, hmap]⟩
    rw [List.mapM_cons, hy, hys]
    rfl

theorem forall₂_left {γ : Type} {R : α → γ → Prop} {l : List α} {m : List γ}
    (h : List.Forall₂ R l m) {x : α} (hx : x ∈ l) : ∃ y ∈ m, R x y := by
  induction h with
  | nil => exact absurd hx List.not_mem_nil
  | cons hxy _ ih =>
    rcases List.mem_cons.mp hx with rfl | hx
    · exact ⟨_, List.mem_cons_self, hxy⟩
    · obtain ⟨y, hy, hr⟩ := ih hx
      exact ⟨y, List.mem_cons_of_mem _ hy, hr⟩

theorem forall₂_right {γ : Type} {R : α → γ → Prop} {l : List α} {m : List γ}
    (h : List.Forall₂ R l m) {y : γ} (hy : y ∈ m) : ∃ x ∈ l, R x y := by
  obtain ⟨x, hx, hr⟩ := forall₂_left h.flip hy
  exact ⟨x, hx, hr⟩

theorem pairwise_filterMap {γ : Type} {R : α → Option γ → Prop} {P : α → α → Prop}
    {Q : γ → γ → Prop} {l : List α} {m : List (Option γ)} (h : List.Forall₂ R l m)
    (pairs : l.Pairwise P) (results : ∀ a b x y, R a (some x) → R b (some y) → P a b → Q x y) :
    (m.filterMap id).Pairwise Q := by
  induction h with
  | nil => exact .nil
  | @cons a o l m hr hrest ih =>
    obtain ⟨hhead, htail⟩ := List.pairwise_cons.mp pairs
    cases o with
    | none => exact ih htail
    | some x =>
      refine List.pairwise_cons.mpr ⟨fun y hy => ?_, ih htail⟩
      obtain ⟨_, hmem, rfl⟩ := List.mem_filterMap.mp hy
      obtain ⟨b, hb, hrb⟩ := forall₂_right hrest hmem
      exact results a b x y hr hrb (hhead b hb)

end AppraisalReview.Raising
