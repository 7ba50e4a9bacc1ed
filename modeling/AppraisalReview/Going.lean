import Mathlib.Logic.Relation

set_option autoImplicit false

/-!
# Computations that go by steps

A computation with a state may raise at any place and keeps what it wrote until
then. It goes by a relation when it moves its state by steps of the relation
alone, whether it returns or raises.
-/
namespace AppraisalReview.Going
open Relation (ReflTransGen)
variable {σ ε α β : Type}

abbrev Acting (ε σ α : Type) := ExceptT ε (StateM σ) α

/-- The computation goes by steps of `R` from `s`, and where it returns `Q` holds. -/
structure Goes (R : σ → σ → Prop) (m : Acting ε σ α) (s : σ) (Q : α → σ → Prop) : Prop where
  steps : ReflTransGen R s (m s).2
  post : ∀ a, (m s).1 = .ok a → Q a (m s).2

variable {R : σ → σ → Prop} {s : σ} {Q : α → σ → Prop}

theorem Goes.returns {a : α} (h : Q a s) : Goes R (pure a : Acting ε σ α) s Q where
  steps := .refl
  post a' ha' := by
    cases ha'
    exact h

theorem Goes.raises (e : ε) : Goes R (throw e : Acting ε σ α) s Q where
  steps := .refl
  post a ha := by cases ha

theorem Goes.bind {m : Acting ε σ β} {f : β → Acting ε σ α} {P : β → σ → Prop} (h : Goes R m s P)
    (hf : ∀ b s', P b s' → Goes R (f b) s' Q) : Goes R (m >>= f) s Q := by
  have run : (m >>= f) s = match m s with
      | (.ok b, s') => f b s'
      | (.error e, s') => (.error e, s') := by
    simp only [Bind.bind, ExceptT.bind, ExceptT.mk, StateT.bind]
    rcases m s with ⟨_ | _, _⟩ <;> rfl
  obtain ⟨steps, post⟩ := h
  rcases hm : m s with ⟨_ | b, s'⟩ <;> rw [hm] at run steps post
  · refine ⟨run ▸ steps, fun a ha => ?_⟩
    rw [run] at ha
    cases ha
  · obtain ⟨steps', post'⟩ := hf b s' (post b rfl)
    refine ⟨?_, ?_⟩ <;> rw [run]
    · exact steps.trans steps'
    · exact post'

theorem Goes.reads {Q : σ → σ → Prop} (h : Q s s) : Goes R (get : Acting ε σ σ) s Q where
  steps := .refl
  post a ha := by
    cases ha
    exact h

theorem Goes.writes {f : σ → σ} {Q : Unit → σ → Prop} (step : R s (f s)) (h : Q () (f s)) :
    Goes R (modify f : Acting ε σ Unit) s Q where
  steps := .single step
  post a ha := by
    cases ha
    exact h

theorem Goes.lift {x : Except ε α} (h : ∀ a, x = .ok a → Q a s) :
    Goes R (liftM x : Acting ε σ α) s Q := by
  cases x with
  | error e => exact ⟨.refl, fun a ha => by cases ha⟩
  | ok a => exact ⟨.refl, fun a' ha' => by cases ha'; exact h a rfl⟩

theorem Goes.ite {c : Prop} [Decidable c] {m m' : Acting ε σ α} (h : c → Goes R m s Q)
    (h' : ¬ c → Goes R m' s Q) : Goes R (if c then m else m') s Q := by
  split
  · next hc => exact h hc
  · next hc => exact h' hc

theorem Goes.guard {c : Prop} [Decidable c] {e : ε} {f : PUnit → Acting ε σ α} {m : Acting ε σ α}
    (h : ¬ c → Goes R m s Q) : Goes R (if c then throw e >>= f else m) s Q := by
  refine .ite (fun _ => ?_) h
  have raises : Goes R (throw e : Acting ε σ PUnit) s fun _ _ => False := .raises e
  exact raises.bind fun _ _ hfalse => hfalse.elim

theorem Goes.mono {m : Acting ε σ α} {P : α → σ → Prop} (h : Goes R m s P)
    (himp : ∀ a s', P a s' → Q a s') : Goes R m s Q :=
  ⟨h.steps, fun a ha => himp a _ (h.post a ha)⟩

theorem Goes.keeps {m : Acting ε σ α} (h : Goes R m s Q) {I : σ → Prop}
    (step : ∀ s s', R s s' → I s → I s') (hI : I s) : I (m s).2 := by
  obtain ⟨steps, -⟩ := h
  generalize (m s).2 = s' at steps
  induction steps with
  | refl => exact hI
  | tail _ hstep ih => exact step _ _ hstep ih

end AppraisalReview.Going
