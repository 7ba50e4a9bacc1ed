import AppraisalReview.Interleaving
import Mathlib.Data.List.Induction

set_option autoImplicit false

/-!
# What interleaved programs leave behind

`Meets` is the postcondition of a program whose store others may move by
`evolves` between its operations; it may speak of the stores that the program's
own operations left. `ended` and `ended_later` date the end of a program, and
all its operations, within the run.
-/
namespace Interleaving

variable {ω : Type} {r : ω → Type} {ε α β σ η χ : Type}

namespace Program

section
variable (serve : η → (op : ω) → σ → r op × σ) (evolves : σ → σ → Prop)

/-- Every operation lets the store evolve, and a normal end meets `post` there. `seen` has the
weather of every operation so far and the store that it left. -/
def Meets (post : α → List (η × σ) → σ → Prop) : Program ω r ε α → List (η × σ) → σ → Prop
  | .done outcome, seen, s => ∀ a, outcome = .ok a → post a seen s
  | .call op next, seen, s => ∀ s', evolves s s' → ∀ weather,
      evolves s' (serve weather op s').2 ∧ (next (serve weather op s').1).Meets post
        (seen ++ [(weather, (serve weather op s').2)]) (serve weather op s').2

end

variable {serve : η → (op : ω) → σ → r op × σ} {evolves : σ → σ → Prop}
  {post : α → List (η × σ) → σ → Prop} {post' : β → List (η × σ) → σ → Prop}
  {p : Program ω r ε α} {seen : List (η × σ)} {s : σ}

theorem Meets.returns {a : α} (h : post a seen s) :
    (pure a : Program ω r ε α).Meets serve evolves post seen s := by
  intro b hb
  cases hb
  exact h

theorem Meets.raises (e : ε) : (raise e : Program ω r ε α).Meets serve evolves post seen s := by
  intro b hb
  cases hb

theorem Meets.ofExcept {x : Except ε α} (h : ∀ a, x = .ok a → post a seen s) :
    (ofExcept x : Program ω r ε α).Meets serve evolves post seen s := h

theorem Meets.ask {op : ω} {post : r op → List (η × σ) → σ → Prop}
    (h : ∀ s', evolves s s' → ∀ weather, evolves s' (serve weather op s').2 ∧
      post (serve weather op s').1 (seen ++ [(weather, (serve weather op s').2)])
        (serve weather op s').2) :
    (ask op : Program ω r ε (r op)).Meets serve evolves post seen s := by
  intro s' hs weather
  refine ⟨(h s' hs weather).1, fun reply hreply => ?_⟩
  cases hreply
  exact (h s' hs weather).2

theorem Meets.bind {f : α → Program ω r ε β}
    (h : p.Meets serve evolves (fun a seen' s' => (f a).Meets serve evolves post' seen' s')
      seen s) : (p >>= f).Meets serve evolves post' seen s := by
  change (p.bind f).Meets serve evolves post' seen s
  induction p generalizing seen s with
  | done outcome =>
    cases outcome with
    | ok a => exact h a rfl
    | error e =>
      intro b hb
      cases hb
  | call op next ih =>
    intro s' hs weather
    exact ⟨(h s' hs weather).1, ih _ (h s' hs weather).2⟩

theorem Meets.mono {post₁ : α → List (η × σ) → σ → Prop}
    (h : p.Meets serve evolves post seen s)
    (hpost : ∀ a seen' s', post a seen' s' → post₁ a seen' s') :
    p.Meets serve evolves post₁ seen s := by
  induction p generalizing seen s with
  | done outcome => exact fun a ha => hpost a seen s (h a ha)
  | call op next ih =>
    intro s' hs weather
    exact ⟨(h s' hs weather).1, ih _ (h s' hs weather).2⟩

theorem Meets.frame {K : List (η × σ) → σ → Prop} (h : p.Meets serve evolves post seen s)
    (stays : ∀ seen more s s', evolves s s' → K seen s → K (seen ++ more) s') (hs : K seen s) :
    p.Meets serve evolves (fun a seen' s' => post a seen' s' ∧ K seen' s') seen s := by
  induction p generalizing seen s with
  | done outcome => exact fun a ha => ⟨h a ha, hs⟩
  | call op next ih =>
    intro s' hs' weather
    obtain ⟨hacts, hnext⟩ := h s' hs' weather
    have hkept : K seen s' := List.append_nil seen ▸ stays seen [] s s' hs' hs
    exact ⟨hacts, ih _ hnext (stays _ _ _ _ hacts hkept)⟩

end Program

namespace Pool

section
variable (serve : η → (op : ω) → σ → r op × σ) (program : χ → Program ω r ε α) (store : σ)

/-- What the process `i` saw are moments of the run. -/
def Moments (events : List (Event η χ)) (i : ℕ) (seen : List (η × σ)) : Prop :=
  ∀ look ∈ seen, ∃ before after, events = before ++ .act i look.1 :: after ∧
    (run serve program { store := store } (before ++ [.act i look.1])).store = look.2

variable (evolves : σ → σ → Prop) (post : χ → α → List (η × σ) → σ → Prop)

/-- Every program meets its postcondition from a store that led to the present one. -/
def Met (events : List (Event η χ)) : Prop :=
  ∀ (i : ℕ) p, (run serve program { store := store } events).processes[i]? = some p →
    ∃ seen at', Moments serve program store events i seen ∧
      evolves at' (run serve program { store := store } events).store ∧
      p.rest.Meets serve evolves (post p.request) seen at'

/-- What one event does: a program that it touched goes on from the new store. -/
structure Moved (events : List (Event η χ)) (event : Event η χ) : Prop where
  evolved : evolves (run serve program { store := store } events).store
    (run serve program { store := store } (events ++ [event])).store
  touched : ∀ (i : ℕ) p,
    (run serve program { store := store } (events ++ [event])).processes[i]? = some p →
    (run serve program { store := store } events).processes[i]? = some p ∨
      ∃ seen, Moments serve program store (events ++ [event]) i seen ∧
        p.rest.Meets serve evolves (post p.request) seen
          (run serve program { store := store } (events ++ [event])).store

end

section
variable {serve : η → (op : ω) → σ → r op × σ} {program : χ → Program ω r ε α} {store : σ}
  {evolves : σ → σ → Prop} {post : χ → α → List (η × σ) → σ → Prop}
  {events : List (Event η χ)} {event : Event η χ}

theorem Moments.later {i : ℕ} {seen : List (η × σ)}
    (h : Moments serve program store events i seen) (more : List (Event η χ)) :
    Moments serve program store (events ++ more) i seen := by
  intro look hlook
  obtain ⟨before, after, rfl, hstore⟩ := h look hlook
  exact ⟨before, after ++ more, by simp, hstore⟩

variable (refl : ∀ s, evolves s s)
  (trans : ∀ {s₁ s₂ s₃}, evolves s₁ s₂ → evolves s₂ s₃ → evolves s₁ s₃)
  (programs : ∀ request s, (program request).Meets serve evolves (post request) [] s)
include refl programs

theorem step_moved (met : Met serve program store evolves post events) (event : Event η χ) :
    Moved serve program store evolves post events event := by
  have hrun : run serve program { store := store } (events ++ [event]) =
      step serve program (run serve program { store := store } events) event :=
    run_append ..
  cases event with
  | start request =>
    have hstore : (run serve program { store := store } (events ++ [.start request])).store =
        (run serve program { store := store } events).store := by
      rw [hrun]
      rfl
    refine ⟨hstore ▸ refl _, fun i p hp => ?_⟩
    rw [hrun] at hp
    obtain hlt | hge :=
      Nat.lt_or_ge i (run serve program { store := store } events).processes.length
    · simp only [step, List.getElem?_append_left hlt] at hp
      exact .inl hp
    · simp only [step, List.getElem?_append_right hge] at hp
      obtain rfl := List.mem_singleton.mp (List.mem_of_getElem? hp)
      refine .inr ⟨[], fun look hlook => ?_, programs request _⟩
      cases hlook
  | act i weather =>
    have still : step serve program (run serve program { store := store } events)
          (.act i weather) = run serve program { store := store } events →
        Moved serve program store evolves post events (.act i weather) := by
      intro hsame
      rw [hsame] at hrun
      exact ⟨hrun ▸ refl _, fun j p hp => .inl (hrun ▸ hp)⟩
    cases hp : (run serve program { store := store } events).processes[i]? with
    | none =>
      apply still
      simp only [step, hp]
    | some p =>
      cases hrest : p.rest with
      | done outcome =>
        apply still
        simp only [step, hp, act, hrest]
      | call op next =>
        obtain ⟨seen, at', hmoments, hat, hmeets⟩ := met i p hp
        rw [hrest] at hmeets
        obtain ⟨hacts, hnext⟩ := hmeets _ hat weather
        simp only [step, hp, act, hrest] at hrun
        have hstore : (run serve program { store := store } (events ++ [.act i weather])).store =
            (serve weather op (run serve program { store := store } events).store).2 :=
          congrArg Pool.store hrun
        refine ⟨hstore ▸ hacts, fun j q hq => ?_⟩
        rw [hrun, List.getElem?_set] at hq
        split_ifs at hq with hij
        · subst hij
          cases hq
          rw [← hstore] at hnext
          refine .inr ⟨_, fun look hlook => ?_, hnext⟩
          obtain hlook | hlook := List.mem_append.mp hlook
          · exact hmoments.later _ look hlook
          · obtain rfl := List.mem_singleton.mp hlook
            exact ⟨events, [], rfl, rfl⟩
        · exact .inl hq

include trans

theorem run_met (events : List (Event η χ)) : Met serve program store evolves post events := by
  induction events using List.reverseRecOn with
  | nil =>
    intro i p hp
    cases hp
  | append_singleton events event ih =>
    have moved := step_moved refl programs ih event
    intro i p hp
    obtain hsame | ⟨seen, hmoments, hmeets⟩ := moved.touched i p hp
    · obtain ⟨seen, at', hmoments, hat, hmeets⟩ := ih i p hsame
      exact ⟨seen, at', hmoments.later _, trans hat moved.evolved, hmeets⟩
    · exact ⟨seen, _, hmoments, refl _, hmeets⟩

theorem run_evolved (events later : List (Event η χ)) :
    evolves (run serve program { store := store } events).store
      (run serve program { store := store } (events ++ later)).store := by
  induction later using List.reverseRecOn with
  | nil =>
    rw [List.append_nil]
    exact refl _
  | append_singleton later event ih =>
    rw [← List.append_assoc]
    have met : Met serve program store evolves post (events ++ later) :=
      run_met refl trans programs _
    exact trans ih (step_moved refl programs met event).evolved

/-- A program that ended well had ended before, or did so at some later moment and met its
postcondition there. -/
theorem ended_later (events later : List (Event η χ)) {i : ℕ} {p : Process ω r ε α η χ} {a : α}
    (hp : (run serve program { store := store } (events ++ later)).processes[i]? = some p)
    (done : p.rest = .done (.ok a)) :
    (run serve program { store := store } events).processes[i]? = some p ∨
      ∃ before after seen, later = before ++ after ∧
        Moments serve program store (events ++ before) i seen ∧
        post p.request a seen (run serve program { store := store } (events ++ before)).store ∧
        (run serve program { store := store } (events ++ before)).processes[i]? = some p := by
  induction later using List.reverseRecOn with
  | nil =>
    rw [List.append_nil] at hp
    exact .inl hp
  | append_singleton later event ih =>
    rw [← List.append_assoc] at hp
    have met : Met serve program store evolves post (events ++ later) :=
      run_met refl trans programs _
    have moved := step_moved refl programs met event
    obtain hsame | ⟨seen, hmoments, hmeets⟩ := moved.touched i p hp
    · obtain hfirst | ⟨before, after, seen, rfl, hended⟩ := ih hsame
      · exact .inl hfirst
      · exact .inr ⟨before, after ++ [event], seen, List.append_assoc .., hended⟩
    · rw [done] at hmeets
      rw [List.append_assoc] at hmoments hmeets hp
      exact .inr ⟨later ++ [event], [], seen, (List.append_nil _).symm, hmoments, hmeets a rfl, hp⟩

/-- A program that ended well did so at some moment of the run, and met its postcondition there. -/
theorem ended (events : List (Event η χ)) {i : ℕ} {p : Process ω r ε α η χ} {a : α}
    (hp : (run serve program { store := store } events).processes[i]? = some p)
    (done : p.rest = .done (.ok a)) :
    ∃ before after seen, events = before ++ after ∧
      Moments serve program store before i seen ∧
      post p.request a seen (run serve program { store := store } before).store ∧
      (run serve program { store := store } before).processes[i]? = some p := by
  obtain hnone | ended := ended_later refl trans programs [] events hp done
  · cases hnone
  · exact ended

end
end Pool
end Interleaving
