import Mathlib.Data.List.Basic

set_option autoImplicit false

/-!
# Programs interleaved over one store

A program is a sequence of operations that a shared store answers. `Ensures`
is its precondition when other programs may move the store between its
operations; `Pool.step_sound` says that a pool of such programs, in any
interleaving and with any of them abandoned on the way, moves the store only
as its programs were proved to.
-/
namespace Interleaving

variable {ω : Type} {r : ω → Type} {ε α β σ η χ : Type}

inductive Program (ω : Type) (r : ω → Type) (ε α : Type) where
  | done (outcome : Except ε α)
  | call (op : ω) (next : r op → Program ω r ε α)

namespace Program

def bind : Program ω r ε α → (α → Program ω r ε β) → Program ω r ε β
  | .done (.ok a), f => f a
  | .done (.error e), _ => .done (.error e)
  | .call op next, f => .call op fun reply => (next reply).bind f

instance : Monad (Program ω r ε) where
  pure a := .done (.ok a)
  bind := bind

def ask (op : ω) : Program ω r ε (r op) := .call op pure

def raise (e : ε) : Program ω r ε α := .done (.error e)

def ofExcept (outcome : Except ε α) : Program ω r ε α := .done outcome

def attempt : Program ω r ε α → Program ω r ε (Except ε α)
  | .done outcome => .done (.ok outcome)
  | .call op next => .call op fun reply => (next reply).attempt

@[simp] theorem pure_bind (a : α) (f : α → Program ω r ε β) : (pure a >>= f) = f a := rfl

/-- Every operation is one of `ops`. -/
def Only (ops : ω → Prop) : Program ω r ε α → Prop
  | .done _ => True
  | .call op next => ops op ∧ ∀ reply, (next reply).Only ops

theorem Only.bind {ops : ω → Prop} {p : Program ω r ε α} {f : α → Program ω r ε β}
    (h : p.Only ops) (hf : ∀ a, (f a).Only ops) : (p >>= f).Only ops := by
  change (p.bind f).Only ops
  induction p with
  | done outcome =>
    cases outcome with
    | ok a => exact hf a
    | error e => trivial
  | call op next ih => exact ⟨h.1, fun reply => ih reply (h.2 reply)⟩

section
variable (serve : η → (op : ω) → σ → r op × σ) (evolves : σ → σ → Prop)

/-- From the store `s` of its last operation, after the operations `trace`: every
further operation moves the store by `acts`, and every end meets `ends`, however
the store has evolved in between. -/
def Ensures (acts : σ → σ → Prop) (ends : List (ω × η) → Except ε α → σ → Prop) :
    Program ω r ε α → List (ω × η) → σ → Prop
  | .done outcome, trace, s => ends trace outcome s
  | .call op next, trace, s => ∀ s', evolves s s' → ∀ weather,
      acts s' (serve weather op s').2 ∧ (next (serve weather op s').1).Ensures acts ends
        (trace ++ [(op, weather)]) (serve weather op s').2

variable {serve evolves} {acts : σ → σ → Prop}

theorem Ensures.bind {ends : List (ω × η) → Except ε β → σ → Prop} {p : Program ω r ε α}
    {f : α → Program ω r ε β} {trace : List (ω × η)} {s : σ}
    (h : p.Ensures serve evolves acts (fun trace' outcome s' =>
      match outcome with
      | .ok a => (f a).Ensures serve evolves acts ends trace' s'
      | .error e => ends trace' (.error e) s') trace s) :
    (p >>= f).Ensures serve evolves acts ends trace s := by
  change (p.bind f).Ensures serve evolves acts ends trace s
  induction p generalizing trace s with
  | done outcome => cases outcome <;> exact h
  | call op next ih =>
    intro s' hevolves weather
    obtain ⟨hacts, hnext⟩ := h s' hevolves weather
    exact ⟨hacts, ih _ hnext⟩

theorem Ensures.attempt {ends : List (ω × η) → Except ε (Except ε α) → σ → Prop}
    {p : Program ω r ε α} {trace : List (ω × η)} {s : σ}
    (h : p.Ensures serve evolves acts (fun trace' outcome => ends trace' (.ok outcome)) trace s) :
    p.attempt.Ensures serve evolves acts ends trace s := by
  induction p generalizing trace s with
  | done outcome => exact h
  | call op next ih =>
    intro s' hevolves weather
    obtain ⟨hacts, hnext⟩ := h s' hevolves weather
    exact ⟨hacts, ih _ hnext⟩

theorem Ensures.mono {ends ends' : List (ω × η) → Except ε α → σ → Prop} {p : Program ω r ε α}
    {trace : List (ω × η)} {s : σ} (h : p.Ensures serve evolves acts ends trace s)
    (hends : ∀ trace' outcome s', ends trace' outcome s' → ends' trace' outcome s') :
    p.Ensures serve evolves acts ends' trace s := by
  induction p generalizing trace s with
  | done outcome => exact hends _ _ _ h
  | call op next ih =>
    intro s' hevolves weather
    obtain ⟨hacts, hnext⟩ := h s' hevolves weather
    exact ⟨hacts, ih _ hnext⟩

/-- What operations of one kind leave behind: their trace, and a store that evolved. -/
theorem Ensures.of_only {ops : ω → Prop} (refl : ∀ s, evolves s s)
    (trans : ∀ {s₁ s₂ s₃}, evolves s₁ s₂ → evolves s₂ s₃ → evolves s₁ s₃)
    (hacts : ∀ weather op s, ops op → acts s (serve weather op s).2)
    (hevolves : ∀ weather op s, ops op → evolves s (serve weather op s).2)
    {p : Program ω r ε α} (h : p.Only ops) (trace : List (ω × η)) (s : σ) :
    p.Ensures serve evolves acts (fun trace' _ s' => evolves s s' ∧
      ∃ more, trace' = trace ++ more ∧ ∀ entry ∈ more, ops entry.1) trace s := by
  induction p generalizing trace s with
  | done outcome => exact ⟨refl s, [], (List.append_nil trace).symm, nofun⟩
  | call op next ih =>
    intro s' hs weather
    refine ⟨hacts weather op s' h.1, (ih _ (h.2 _) _ _).mono ?_⟩
    rintro trace' outcome s'' ⟨hlater, more, rfl, hmore⟩
    refine ⟨trans hs (trans (hevolves weather op s' h.1) hlater), (op, weather) :: more, ?_, ?_⟩
    · rw [List.append_assoc, List.singleton_append]
    · intro entry hentry
      obtain rfl | hentry := List.mem_cons.mp hentry
      · exact h.1
      · exact hmore entry hentry

end
end Program

/-- A program on its way, and the operations it has had answered. -/
structure Process (ω : Type) (r : ω → Type) (ε α η χ : Type) where
  request : χ
  rest : Program ω r ε α
  trace : List (ω × η) := []

structure Pool (ω : Type) (r : ω → Type) (ε α σ η χ : Type) where
  store : σ
  processes : List (Process ω r ε α η χ) := []

/-- A program that is abandoned has no further `act`. -/
inductive Event (η χ : Type) where
  | start (request : χ)
  | act (i : ℕ) (weather : η)

namespace Pool

section
variable (serve : η → (op : ω) → σ → r op × σ) (program : χ → Program ω r ε α)

def act (s : Pool ω r ε α σ η χ) (i : ℕ) (weather : η) (p : Process ω r ε α η χ) :
    Pool ω r ε α σ η χ :=
  match p.rest with
  | .done _ => s
  | .call op next =>
    { store := (serve weather op s.store).2
      processes := s.processes.set i { p with
        rest := next (serve weather op s.store).1
        trace := p.trace ++ [(op, weather)] } }

def step (s : Pool ω r ε α σ η χ) : Event η χ → Pool ω r ε α σ η χ
  | .start request => { s with
      processes := s.processes ++ [{ request := request, rest := program request }] }
  | .act i weather =>
    match s.processes[i]? with
    | none => s
    | some p => s.act serve i weather p

def run (s : Pool ω r ε α σ η χ) (events : List (Event η χ)) : Pool ω r ε α σ η χ :=
  events.foldl (step serve program) s

theorem step_started (s : Pool ω r ε α σ η χ) (event : Event η χ)
    {p : Process ω r ε α η χ} (hp : p ∈ (step serve program s event).processes) :
    event = .start p.request ∨ ∃ q ∈ s.processes, q.request = p.request := by
  cases event with
  | start request =>
    obtain hp | hp := List.mem_append.mp hp
    · exact .inr ⟨p, hp, rfl⟩
    · obtain rfl := List.mem_singleton.mp hp
      exact .inl rfl
  | act i weather =>
    simp only [step] at hp
    split at hp
    · exact .inr ⟨p, hp, rfl⟩
    · next q hq =>
      unfold act at hp
      split at hp
      · exact .inr ⟨p, hp, rfl⟩
      · obtain hp | rfl := List.mem_or_eq_of_mem_set hp
        · exact .inr ⟨p, hp, rfl⟩
        · exact .inr ⟨q, List.mem_of_getElem? hq, rfl⟩

theorem run_started (s : Pool ω r ε α σ η χ) (events : List (Event η χ))
    {p : Process ω r ε α η χ} (hp : p ∈ (run serve program s events).processes) :
    .start p.request ∈ events ∨ ∃ q ∈ s.processes, q.request = p.request := by
  induction events generalizing s with
  | nil => exact .inr ⟨p, hp, rfl⟩
  | cons event events ih =>
    obtain hstarted | ⟨q, hq, hrequest⟩ := ih _ hp
    · exact .inl (List.mem_cons_of_mem _ hstarted)
    · obtain rfl | ⟨q', hq', hrequest'⟩ := step_started serve program s event hq
      · rw [← hrequest]
        exact .inl List.mem_cons_self
      · exact .inr ⟨q', hq', hrequest'.trans hrequest⟩

theorem run_append (s : Pool ω r ε α σ η χ) (events more : List (Event η χ)) :
    run serve program s (events ++ more) =
      run serve program (run serve program s events) more :=
  List.foldl_append

end

section
variable (serve : η → (op : ω) → σ → r op × σ) (program : χ → Program ω r ε α)
variable (evolves : σ → σ → Prop) (acts : χ → σ → σ → Prop)
variable (ends : χ → List (ω × η) → Except ε α → σ → Prop)

/-- Every program meets its precondition at a store from which the present one evolved. -/
def Sound (s : Pool ω r ε α σ η χ) : Prop :=
  ∀ p ∈ s.processes, ∃ seen, evolves seen s.store ∧
    p.rest.Ensures serve evolves (acts p.request) (ends p.request) p.trace seen

variable {serve program evolves acts ends}

theorem Sound.ended {s : Pool ω r ε α σ η χ} (sound : Sound serve evolves acts ends s)
    {p : Process ω r ε α η χ} (hp : p ∈ s.processes) {outcome : Except ε α}
    (h : p.rest = .done outcome) :
    ∃ seen, evolves seen s.store ∧ ends p.request p.trace outcome seen := by
  obtain ⟨seen, hseen, hensures⟩ := sound p hp
  rw [h] at hensures
  exact ⟨seen, hseen, hensures⟩

variable (refl : ∀ s, evolves s s)
  (trans : ∀ {s₁ s₂ s₃}, evolves s₁ s₂ → evolves s₂ s₃ → evolves s₁ s₃)
  (moves : ∀ request s s', acts request s s' → evolves s s')
include refl trans moves

theorem act_sound {s : Pool ω r ε α σ η χ} (sound : Sound serve evolves acts ends s)
    {i : ℕ} {p : Process ω r ε α η χ} (hp : s.processes[i]? = some p) (weather : η) :
    Sound serve evolves acts ends (s.act serve i weather p) ∧
      (s.act serve i weather p = s ∨ acts p.request s.store (s.act serve i weather p).store) := by
  unfold act
  cases hrest : p.rest with
  | done outcome => exact ⟨sound, .inl rfl⟩
  | call op next =>
    obtain ⟨seen, hseen, hensures⟩ := sound p (List.mem_of_getElem? hp)
    rw [hrest] at hensures
    obtain ⟨hacts, hnext⟩ := hensures s.store hseen weather
    refine ⟨fun q hq => ?_, .inr hacts⟩
    obtain hq | rfl := List.mem_or_eq_of_mem_set hq
    · obtain ⟨earlier, hearlier, hq⟩ := sound q hq
      exact ⟨earlier, trans hearlier (moves _ _ _ hacts), hq⟩
    · exact ⟨_, refl _, hnext⟩

/-- One event keeps every precondition, and an operation moves the store as proved. -/
theorem step_sound
    (programs : ∀ request s,
      (program request).Ensures serve evolves (acts request) (ends request) [] s)
    {s : Pool ω r ε α σ η χ} (sound : Sound serve evolves acts ends s) (event : Event η χ) :
    Sound serve evolves acts ends (step serve program s event) ∧
      ((step serve program s event).store = s.store ∨
        ∃ i weather p, event = .act i weather ∧ s.processes[i]? = some p ∧
          acts p.request s.store (step serve program s event).store) := by
  cases event with
  | start request =>
    refine ⟨fun p hp => ?_, .inl rfl⟩
    obtain hp | hp := List.mem_append.mp hp
    · exact sound p hp
    · obtain rfl := List.mem_singleton.mp hp
      exact ⟨s.store, refl _, programs request s.store⟩
  | act i weather =>
    simp only [step]
    cases hp : s.processes[i]? with
    | none => exact ⟨sound, .inl rfl⟩
    | some p =>
      obtain ⟨hsound, hstill | hacts⟩ := act_sound refl trans moves sound hp weather
      · exact ⟨hsound, .inl (congrArg store hstill)⟩
      · exact ⟨hsound, .inr ⟨i, weather, p, rfl, hp, hacts⟩⟩

theorem run_sound
    (programs : ∀ request s,
      (program request).Ensures serve evolves (acts request) (ends request) [] s)
    {s : Pool ω r ε α σ η χ} (sound : Sound serve evolves acts ends s)
    (events : List (Event η χ)) :
    Sound serve evolves acts ends (run serve program s events) ∧
      evolves s.store (run serve program s events).store := by
  induction events generalizing s with
  | nil => exact ⟨sound, refl _⟩
  | cons event events ih =>
    obtain ⟨hsound, hmove⟩ := step_sound refl trans moves programs sound event
    obtain ⟨hrun, hlater⟩ := ih hsound
    refine ⟨hrun, trans ?_ hlater⟩
    obtain hstill | ⟨i, weather, p, -, -, hacts⟩ := hmove
    · rw [hstill]
      exact refl _
    · exact moves _ _ _ hacts

end
end Pool
end Interleaving
