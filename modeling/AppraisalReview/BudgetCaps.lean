import AppraisalReview.CompetitionBudget

set_option autoImplicit false

/-!
# The caps of the team budget

Only an update whose condition holds changes the item, and what it writes was
checked against the caps when the row was read. The counters cover the granted
reservations as long as no sum needs more digits than the decimal context keeps.
-/
namespace AppraisalReview.CompetitionBudget

inductive Counter where
  | calls | inputTokens | outputTokens | cost
deriving DecidableEq

instance : Fintype Counter where
  elems := {.calls, .inputTokens, .outputTokens, .cost}
  complete c := by cases c <;> simp

namespace Counter

def value : Counter → Item → ℕ
  | calls => Item.calls
  | inputTokens => Item.inputTokens
  | outputTokens => Item.outputTokens
  | cost => Item.cost

def charge : Counter → OperationReservation → ℕ
  | calls => fun _ => 1
  | inputTokens => OperationReservation.inputTokens
  | outputTokens => OperationReservation.outputTokens
  | cost => OperationReservation.cost

def cap : Counter → Stable → ℕ
  | calls => Stable.maxCalls
  | inputTokens => Stable.maxInputTokens
  | outputTokens => Stable.maxOutputTokens
  | cost => Stable.maxCost

theorem value_charge (c : Counter) (item : Item) (bound : OperationReservation) :
    c.value (CompetitionBudget.charge item bound) = plus (c.value item) (c.charge bound) := by
  cases c <;> rfl

theorem le_cap (c : Counter) {item : Item} {caps : Stable} (h : item.exceeds caps = false) :
    c.value item ≤ c.cap caps := by
  simp only [Item.exceeds, Bool.or_eq_false_iff, decide_eq_false_iff_not, not_lt] at h
  obtain ⟨⟨⟨calls, input⟩, output⟩, cost⟩ := h
  cases c <;> assumption

end Counter

def Short (n : ℕ) : Prop := 10 ^ (Decimal.digits n - 28) ∣ n

instance (n : ℕ) : Decidable (Short n) := inferInstanceAs (Decidable (_ ∣ _))

theorem plus_short {a b : ℕ} (h : Short (a + b)) : plus a b = a + b := by
  have hrest : (a + b) % 10 ^ (Decimal.digits (a + b) - 28) = 0 := Nat.mod_eq_zero_of_dvd h
  have hpos : 0 < 10 ^ (Decimal.digits (a + b) - 28) := Nat.pow_pos (by norm_num)
  simp only [plus, Decimal.roundHalfEven, hrest]
  rw [if_neg (by omega), Nat.add_zero, Nat.div_mul_cancel h]

/-- No sum that a charge forms loses a digit. -/
def Item.Holds (item : Item) (bound : OperationReservation) : Prop :=
  (∀ c : Counter, Short (c.value item + c.charge bound)) ∧ Short (item.version + 1)

instance (item : Item) (bound : OperationReservation) : Decidable (item.Holds bound) :=
  inferInstanceAs (Decidable (_ ∧ _))

theorem charge_value {item : Item} {bound : OperationReservation} (h : item.Holds bound)
    (c : Counter) :
    c.value (charge item bound) = c.value item + c.charge bound := by
  rw [Counter.value_charge, plus_short (h.1 c)]

theorem charge_version {item : Item} {bound : OperationReservation} (h : item.Holds bound) :
    (charge item bound).version = item.version + 1 :=
  plus_short h.2

def Phase.granted : Phase → Option OperationReservation
  | .confirming bound => some bound
  | .returned bound => some bound
  | .expired bound => some bound
  | _ => none

def Phase.planned : Phase → Option (Item × OperationReservation)
  | .priced bound _ seen => some (seen, bound)
  | .updating bound _ seen => some (seen, bound)
  | _ => none

def Phase.share (c : Counter) (phase : Phase) : ℕ := (phase.granted.map c.charge).getD 0

def State.granted (c : Counter) (s : State) : ℕ :=
  (s.processes.map fun p => p.phase.share c).sum

def State.reserved (c : Counter) (s : State) : ℕ :=
  (s.processes.map fun p => match p.phase with
    | .returned bound => c.charge bound
    | _ => 0).sum

theorem reserved_le_granted (c : Counter) (s : State) : s.reserved c ≤ s.granted c := by
  refine List.sum_le_sum fun p _ => ?_
  cases p.phase <;> simp [Phase.share, Phase.granted]

theorem sum_map_set {α : Type} (f : α → ℕ) {l : List α} {i : ℕ} {x : α} (y : α)
    (h : l[i]? = some x) :
    ((l.set i y).map f).sum + f x = (l.map f).sum + f y := by
  induction l generalizing i with
  | nil => simp at h
  | cons head tail ih =>
    cases i with
    | zero =>
      obtain rfl : head = x := by simpa using h
      simp only [List.set_cons_zero, List.map_cons, List.sum_cons]
      omega
    | succ i =>
      have htail := ih (i := i) (by simpa using h)
      simp only [List.set_cons_succ, List.map_cons, List.sum_cons]
      omega

section
variable (ctx : DecimalContext) (maxTokens : List UInt8 → Option Int) (profile : Profile)

/-- Only an answered or repeated update touches the item, and only a sent one the network. -/
theorem act_cases (request : Request) (answer : Answer) (s : State) (phase : Phase) :
    let next := phase.act ctx maxTokens profile request answer s
    (next.2 = s ∧ next.1.granted = phase.granted ∧
      (∀ plan, next.1.planned = some plan → phase.planned = some plan ∨
        plan.1 = s.item ∧ s.item.stable = profile.expected ∧
          (charge plan.1 plan.2).exceeds profile.expected = false)) ∨
    ∃ bound tries seen, phase = .updating bound tries seen ∧ next.1.planned = none ∧
      ((next.2 = { s with item := update s.item seen bound } ∧
          (next.1.granted = none ∨ next.1.granted = some bound ∧ s.item = seen)) ∨
        next.2 = { s with inFlight := s.inFlight ++ [(seen, bound)] } ∧ next.1.granted = none) := by
  have hagain : ∀ bound tries, (again bound tries).granted = none ∧
      (again bound tries).planned = none := by
    intro bound tries
    unfold again
    split <;> exact ⟨rfl, rfl⟩
  cases phase with
  | updating bound tries seen =>
    refine .inr ⟨bound, tries, seen, rfl, ?_⟩
    simp only [Phase.act]
    cases answer.delivery with
    | answered =>
      by_cases hseen : s.item = seen
      · rw [if_pos hseen]
        exact ⟨rfl, .inl ⟨rfl, .inr ⟨rfl, hseen⟩⟩⟩
      · rw [if_neg hseen]
        exact ⟨(hagain bound tries).2, .inl ⟨rfl, .inl (hagain bound tries).1⟩⟩
    | repeated => exact ⟨(hagain bound tries).2, .inl ⟨rfl, .inl (hagain bound tries).1⟩⟩
    | lost => exact ⟨rfl, .inr ⟨rfl, rfl⟩⟩
  | reading bound tries =>
    refine .inl ?_
    simp only [Phase.act]
    split_ifs with _ _ hstable hcaps
    · exact ⟨rfl, (hagain bound tries).1, fun plan h => by simp [(hagain bound tries).2] at h⟩
    · exact ⟨rfl, rfl, fun plan h => by simp [Phase.planned] at h⟩
    · exact ⟨rfl, rfl, fun plan h => by simp [Phase.planned] at h⟩
    · exact ⟨rfl, rfl, fun plan h => by simp [Phase.planned] at h⟩
    · refine ⟨rfl, rfl, fun plan h => .inr ?_⟩
      obtain rfl : (s.item, bound) = plan := by simpa [Phase.planned] using h
      exact ⟨rfl, not_not.mp hstable, by simpa using hcaps⟩
  | started =>
    refine .inl ?_
    simp only [Phase.act]
    split <;> exact ⟨rfl, rfl, fun plan h => by simp [Phase.planned] at h⟩
  | bounded bound =>
    refine .inl ?_
    simp only [Phase.act]
    split_ifs <;> exact ⟨rfl, rfl, fun plan h => by simp [Phase.planned] at h⟩
  | priced bound tries seen =>
    refine .inl ?_
    simp only [Phase.act]
    split_ifs
    · exact ⟨rfl, rfl, fun plan h => by simp [Phase.planned] at h⟩
    · exact ⟨rfl, rfl, fun plan h => .inl h⟩
  | confirming bound =>
    refine .inl ?_
    simp only [Phase.act]
    split_ifs <;> exact ⟨rfl, rfl, fun plan h => by simp [Phase.planned] at h⟩
  | returned bound => exact .inl ⟨rfl, rfl, fun plan h => .inl h⟩
  | expired bound => exact .inl ⟨rfl, rfl, fun plan h => .inl h⟩
  | raised error => exact .inl ⟨rfl, rfl, fun plan h => .inl h⟩

def written (s : State) : Event → Option (Item × OperationReservation)
  | .enter _ => none
  | .act i answer => match (s.processes[i]?).map Process.phase with
    | some (.updating bound _ seen) =>
      if answer.delivery = .lost then none else some (seen, bound)
    | _ => none
  | .deliver k => s.inFlight[k]?

/-- The update that an event brings, if its condition holds, rounds no counter. -/
def Exact (s : State) (event : Event) : Prop :=
  ∀ plan ∈ written s event, plan.1 = s.item → s.item.Holds plan.2

instance (s : State) (event : Event) : Decidable (Exact s event) :=
  inferInstanceAs (Decidable (∀ plan ∈ written s event, plan.1 = s.item → s.item.Holds plan.2))

def ExactRun (s : State) : List Event → Prop
  | [] => True
  | event :: events => Exact s event ∧ ExactRun (step ctx maxTokens profile s event) events

instance ExactRun.decidable (s : State) (events : List Event) :
    Decidable (ExactRun ctx maxTokens profile s events) :=
  match events with
  | [] => isTrue trivial
  | event :: events =>
    have := ExactRun.decidable (step ctx maxTokens profile s event) events
    inferInstanceAs (Decidable (Exact s event ∧ _))

theorem update_cases (item seen : Item) (bound : OperationReservation) :
    update item seen bound = item ∨ item = seen ∧ update item seen bound = charge item bound := by
  unfold update
  split
  · next h => exact .inr ⟨h, by rw [h]⟩
  · exact .inl rfl

theorem step_item (s : State) (event : Event) :
    (step ctx maxTokens profile s event).item = s.item ∨
    ∃ bound, written s event = some (s.item, bound) ∧
      (step ctx maxTokens profile s event).item = charge s.item bound := by
  cases event with
  | enter request => exact .inl rfl
  | deliver k =>
    rw [step]
    cases hk : s.inFlight[k]? with
    | none => exact .inl rfl
    | some plan =>
      obtain h | ⟨hseen, h⟩ := update_cases s.item plan.1 plan.2
      · exact .inl h
      · exact .inr ⟨plan.2, by rw [written, hk, hseen], h⟩
  | act i answer =>
    rw [step]
    cases hi : s.processes[i]? with
    | none => exact .inl rfl
    | some p =>
      dsimp only
      obtain ⟨hs, -, -⟩ | ⟨bound, tries, seen, hphase, -, ⟨hs, -⟩ | ⟨hs, -⟩⟩ :=
        act_cases ctx maxTokens profile p.request answer s p.phase
      · exact .inl (by rw [hs])
      · rw [hs]
        obtain h | ⟨hseen, h⟩ := update_cases s.item seen bound
        · exact .inl h
        · by_cases hlost : answer.delivery = .lost
          · rw [hphase, Phase.act, hlost] at hs
            exact .inl (congrArg State.item hs).symm
          · refine .inr ⟨bound, ?_, h⟩
            rw [written, hi, Option.map_some, hphase]
            exact (if_neg hlost).trans (by rw [hseen])
      · exact .inl (by rw [hs])

def Checked (plan : Item × OperationReservation) : Prop :=
  plan.1.stable = profile.expected ∧ (charge plan.1 plan.2).exceeds profile.expected = false

structure Capped (s : State) : Prop where
  stable : s.item.stable = profile.expected
  counters (c : Counter) : c.value s.item ≤ c.cap profile.expected
  planned : ∀ p ∈ s.processes, ∀ plan, p.phase.planned = some plan → Checked profile plan
  inFlight : ∀ plan ∈ s.inFlight, Checked profile plan
  granted (c : Counter) : s.granted c ≤ c.value s.item

theorem capped_seed : Capped profile { item := seed profile } where
  stable := rfl
  counters c := by cases c <;> exact Nat.zero_le _
  planned p hp := by simp at hp
  inFlight plan hplan := by simp at hplan
  granted c := Nat.zero_le _

variable {profile} in
theorem Capped.charged {s : State} {bound : OperationReservation} (hs : Capped profile s)
    (h : Checked profile (s.item, bound)) :
    (charge s.item bound).stable = profile.expected ∧
      ∀ c : Counter, c.value (charge s.item bound) ≤ c.cap profile.expected :=
  ⟨hs.stable, fun c => c.le_cap h.2⟩

variable {profile} in
theorem Capped.written {s : State} {event : Event} {plan : Item × OperationReservation}
    (hs : Capped profile s) (h : written s event = some plan) : Checked profile plan := by
  cases event with
  | enter request => simp [CompetitionBudget.written] at h
  | deliver k => exact hs.inFlight plan (List.mem_of_getElem? h)
  | act i answer =>
    rw [CompetitionBudget.written] at h
    cases hi : s.processes[i]? with
    | none => simp [hi] at h
    | some p =>
      rw [hi, Option.map_some] at h
      split at h
      · next bound tries seen hphase =>
        obtain hphase : p.phase = .updating bound tries seen := by simpa using hphase
        split at h
        · simp at h
        · exact hs.planned p (List.mem_of_getElem? hi) plan (by rw [hphase]; exact h)
      · simp at h

theorem step_grows {s : State} {event : Event} (hexact : Exact s event) (c : Counter) :
    c.value s.item ≤ c.value (step ctx maxTokens profile s event).item := by
  obtain h | ⟨bound, hwritten, h⟩ := step_item ctx maxTokens profile s event
  · rw [h]
  · rw [h, charge_value (hexact (s.item, bound) hwritten rfl)]
    exact Nat.le_add_right _ _

theorem step_version {s : State} {event : Event} (hexact : Exact s event) :
    (step ctx maxTokens profile s event).item = s.item ∨
    (step ctx maxTokens profile s event).item.version = s.item.version + 1 := by
  obtain h | ⟨bound, hwritten, h⟩ := step_item ctx maxTokens profile s event
  · exact .inl h
  · rw [h]
    exact .inr (charge_version (hexact (s.item, bound) hwritten rfl))

variable {profile} in
theorem step_planned {s : State} {event : Event} (hs : Capped profile s) :
    ∀ q ∈ (step ctx maxTokens profile s event).processes, ∀ plan,
      q.phase.planned = some plan → Checked profile plan := by
  intro q hq plan hplan
  cases event with
  | enter request =>
    rcases List.mem_append.mp hq with hold | hnew
    · exact hs.planned q hold plan hplan
    · obtain rfl := List.mem_singleton.mp hnew
      simp [Phase.planned] at hplan
  | deliver k =>
    rw [step] at hq
    split at hq <;> exact hs.planned q hq plan hplan
  | act i answer =>
    rw [step] at hq
    cases hi : s.processes[i]? with
    | none => exact hs.planned q (by simpa [hi] using hq) plan hplan
    | some p =>
      rw [hi] at hq
      rcases List.mem_or_eq_of_mem_set hq with hold | rfl
      · exact hs.planned q hold plan hplan
      obtain ⟨-, -, hplans⟩ | ⟨bound, tries, seen, hphase, hnone, -⟩ :=
        act_cases ctx maxTokens profile p.request answer s p.phase
      · obtain hold | ⟨hseen, hstable, hcaps⟩ := hplans plan hplan
        · exact hs.planned p (List.mem_of_getElem? hi) plan hold
        · exact ⟨hseen ▸ hstable, hcaps⟩
      · simp [hnone] at hplan

variable {profile} in
theorem step_inFlight {s : State} {event : Event} (hs : Capped profile s) :
    ∀ plan ∈ (step ctx maxTokens profile s event).inFlight, Checked profile plan := by
  intro plan hplan
  cases event with
  | enter request => exact hs.inFlight plan hplan
  | deliver k =>
    rw [step] at hplan
    split at hplan
    · exact hs.inFlight plan hplan
    · exact hs.inFlight plan (List.mem_of_mem_eraseIdx hplan)
  | act i answer =>
    rw [step] at hplan
    cases hi : s.processes[i]? with
    | none => exact hs.inFlight plan (by simpa [hi] using hplan)
    | some p =>
      rw [hi] at hplan
      dsimp only at hplan
      obtain ⟨hsame, -, -⟩ | ⟨bound, tries, seen, hphase, -, ⟨hsame, -⟩ | ⟨hsame, -⟩⟩ :=
        act_cases ctx maxTokens profile p.request answer s p.phase
      · exact hs.inFlight plan (by rw [hsame] at hplan; exact hplan)
      · exact hs.inFlight plan (by rw [hsame] at hplan; exact hplan)
      · rw [hsame] at hplan
        rcases List.mem_append.mp hplan with hold | hnew
        · exact hs.inFlight plan hold
        · rw [List.mem_singleton.mp hnew]
          exact hs.planned p (List.mem_of_getElem? hi) _ (by rw [hphase]; rfl)

/-- A call that gains a reservation has charged the item for it in the same event. -/
theorem act_share {s : State} {i : ℕ} {answer : Answer} {p : Process} (c : Counter)
    (hi : s.processes[i]? = some p) (hexact : Exact s (.act i answer)) :
    (p.phase.act ctx maxTokens profile p.request answer s).1.share c + c.value s.item ≤
      p.phase.share c + c.value (step ctx maxTokens profile s (.act i answer)).item := by
  have hgrow := step_grows ctx maxTokens profile hexact c
  obtain ⟨-, hgranted, -⟩ | ⟨bound, tries, seen, hphase, -, hcase⟩ :=
    act_cases ctx maxTokens profile p.request answer s p.phase
  · rw [Phase.share, hgranted]
    exact Nat.add_le_add_left hgrow _
  by_cases hnone : (p.phase.act ctx maxTokens profile p.request answer s).1.granted = none
  · rw [Phase.share, hnone]
    exact Nat.add_le_add (Nat.zero_le _) hgrow
  obtain ⟨hnext, hnone' | ⟨hsome, hseen⟩⟩ | ⟨-, hnone'⟩ := hcase
  · exact absurd hnone' hnone
  · have hcharged : (step ctx maxTokens profile s (.act i answer)).item = charge s.item bound := by
      rw [step, hi]
      dsimp only
      rw [hnext]
      exact (if_pos hseen).trans (by rw [hseen])
    have hwritten : written s (.act i answer) = some (s.item, bound) := by
      have hlost : answer.delivery ≠ .lost := by
        intro hlost
        rw [hphase, Phase.act, hlost] at hsome
        simp [Phase.granted] at hsome
      rw [written, hi, Option.map_some, hphase]
      exact (if_neg hlost).trans (by rw [hseen])
    rw [hcharged, charge_value (hexact (s.item, bound) hwritten rfl) c, Phase.share, hsome]
    simp only [Option.map_some, Option.getD_some]
    omega
  · exact absurd hnone' hnone

variable {profile} in
theorem step_granted {s : State} {event : Event} (hs : Capped profile s) (hexact : Exact s event)
    (c : Counter) :
    (step ctx maxTokens profile s event).granted c ≤
      c.value (step ctx maxTokens profile s event).item := by
  have hgrow := step_grows ctx maxTokens profile hexact c
  have hold := hs.granted c
  cases event with
  | enter request =>
    simpa [State.granted, step, Phase.share, Phase.granted] using hold
  | deliver k =>
    refine le_trans ?_ (hold.trans hgrow)
    rw [step]
    split <;> exact le_rfl
  | act i answer =>
    cases hi : s.processes[i]? with
    | none =>
      refine le_trans ?_ (hold.trans hgrow)
      rw [step, hi]
    | some p =>
      have hsum := sum_map_set (fun p : Process => p.phase.share c)
        { p with phase := (p.phase.act ctx maxTokens profile p.request answer s).1 } hi
      have hshare := act_share ctx maxTokens profile c hi hexact
      have hprocesses : (step ctx maxTokens profile s (.act i answer)).granted c =
          ((s.processes.set i { p with phase :=
            (p.phase.act ctx maxTokens profile p.request answer s).1 }).map
              fun p => p.phase.share c).sum := by
        rw [State.granted, step, hi]
      rw [State.granted] at hold
      dsimp only at hsum
      omega

variable {profile} in
theorem step_capped {s : State} {event : Event} (hs : Capped profile s) (hexact : Exact s event) :
    Capped profile (step ctx maxTokens profile s event) := by
  have hitem : (step ctx maxTokens profile s event).item.stable = profile.expected ∧
      ∀ c : Counter, c.value (step ctx maxTokens profile s event).item ≤ c.cap profile.expected := by
    obtain h | ⟨bound, hwritten, h⟩ := step_item ctx maxTokens profile s event
    · rw [h]
      exact ⟨hs.stable, hs.counters⟩
    · rw [h]
      exact hs.charged (hs.written hwritten)
  exact ⟨hitem.1, hitem.2, step_planned ctx maxTokens hs, step_inFlight ctx maxTokens hs,
    step_granted ctx maxTokens hs hexact⟩

def phaseOf (s : State) (i : ℕ) : Option Phase := (s.processes[i]?).map Process.phase

/-- No event of the run begins another iteration of a call. -/
def OneIteration (i : ℕ) (s : State) : List Event → Prop
  | [] => True
  | event :: events =>
    (∀ bound tries, phaseOf (step ctx maxTokens profile s event) i = some (.reading bound tries) →
      phaseOf s i = some (.reading bound tries) ∨ ∃ bound, phaseOf s i = some (.bounded bound)) ∧
    OneIteration i (step ctx maxTokens profile s event) events

/-- No action of a call in the run changes the item. -/
def Untouched (i : ℕ) (s : State) : List Event → Prop
  | [] => True
  | event :: events =>
    (∀ answer, event = .act i answer → (step ctx maxTokens profile s event).item = s.item) ∧
    Untouched i (step ctx maxTokens profile s event) events

/-- After its update a call has a reservation, or does not know, or has no iteration left. -/
def Phase.Sent : Phase → Prop
  | .confirming _ => True
  | .returned _ => True
  | .expired _ => True
  | .raised error => error = .denied .reservationUnknown ∨ error = .denied .contended
  | _ => False

theorem act_sent {request : Request} {answer : Answer} {s : State} {phase : Phase}
    (h : phase.Sent) : (phase.act ctx maxTokens profile request answer s).1.Sent := by
  cases phase with
  | confirming bound =>
    simp only [Phase.act]
    split_ifs <;> trivial
  | returned bound => trivial
  | expired bound => trivial
  | raised error => exact h
  | _ => exact absurd h (by simp [Phase.Sent])

theorem updating_sent (request : Request) (answer : Answer) (s : State)
    (bound : OperationReservation) (tries : ℕ) (seen : Item) :
    let next := (Phase.updating bound tries seen).act ctx maxTokens profile request answer s
    next.1.Sent ∨ ∃ left, next.1 = .reading bound left := by
  have hagain : (again bound tries).Sent ∨ ∃ left, again bound tries = .reading bound left := by
    by_cases htries : tries ≤ 1
    · exact .inl (by rw [again, if_pos htries]; exact .inr rfl)
    · exact .inr ⟨tries - 1, by rw [again, if_neg htries]⟩
  simp only [Phase.act]
  cases answer.delivery with
  | answered =>
    dsimp only
    split
    · exact .inl trivial
    · exact hagain
  | repeated => exact hagain
  | lost => exact .inl (.inl rfl)

theorem phaseOf_step {s : State} {i : ℕ} {phase : Phase} (event : Event)
    (h : phaseOf s i = some phase) :
    phaseOf (step ctx maxTokens profile s event) i = some phase ∧ (∀ answer, event ≠ .act i answer) ∨
    ∃ request answer, event = .act i answer ∧
      phaseOf (step ctx maxTokens profile s event) i =
        some (phase.act ctx maxTokens profile request answer s).1 ∧
      (step ctx maxTokens profile s event).item =
        (phase.act ctx maxTokens profile request answer s).2.item := by
  obtain ⟨p, hp, rfl⟩ : ∃ p, s.processes[i]? = some p ∧ p.phase = phase := by
    simpa [phaseOf] using h
  cases event with
  | enter request =>
    refine .inl ⟨?_, by simp⟩
    rw [phaseOf, step, List.getElem?_append_left (List.getElem?_eq_some_iff.mp hp).1, hp]
    rfl
  | deliver k =>
    refine .inl ⟨?_, by simp⟩
    rw [phaseOf, step]
    split <;> simp [hp]
  | act j answer =>
    by_cases hij : j = i
    · subst hij
      refine .inr ⟨p.request, answer, rfl, ?_, ?_⟩
      · rw [phaseOf, step, hp]
        simp [(List.getElem?_eq_some_iff.mp hp).1]
      · rw [step, hp]
    · refine .inl ⟨?_, by simpa using hij⟩
      rw [phaseOf, step]
      split
      · rw [hp]
        rfl
      · simp [hij, hp]

theorem run_sent {s : State} {i : ℕ} {phase : Phase} (events : List Event)
    (h : phaseOf s i = some phase) (hsent : phase.Sent) :
    ∃ last, phaseOf (run ctx maxTokens profile s events) i = some last ∧ last.Sent := by
  induction events generalizing s phase with
  | nil => exact ⟨phase, h, hsent⟩
  | cons event events ih =>
    obtain ⟨hsame, -⟩ | ⟨request, answer, -, hnext, -⟩ := phaseOf_step ctx maxTokens profile event h
    · exact ih hsame hsent
    · exact ih hnext (act_sent ctx maxTokens profile hsent)

/-- An iteration that ends in an error other than an unknown or a contended update
changes nothing. -/
theorem iteration_untouched {s : State} {i : ℕ} {phase : Phase} {error : Raised}
    (events : List Event) (h : phaseOf s i = some phase)
    (hone : OneIteration ctx maxTokens profile i s events)
    (hend : phaseOf (run ctx maxTokens profile s events) i = some (.raised error))
    (hunknown : error ≠ .denied .reservationUnknown) (hcontended : error ≠ .denied .contended) :
    Untouched ctx maxTokens profile i s events := by
  induction events generalizing s phase with
  | nil => trivial
  | cons event events ih =>
    have hrest : ∀ next, phaseOf (step ctx maxTokens profile s event) i = some next →
        Untouched ctx maxTokens profile i (step ctx maxTokens profile s event) events :=
      fun next hnext => ih hnext hone.2 hend
    obtain ⟨hsame, hother⟩ | ⟨request, answer, hact, hnext, hitem⟩ :=
      phaseOf_step ctx maxTokens profile event h
    · exact ⟨fun answer hact => absurd hact (hother answer), hrest _ hsame⟩
    refine ⟨fun _ _ => ?_, hrest _ hnext⟩
    obtain ⟨hsame, -, -⟩ | ⟨bound, tries, seen, rfl, -, -⟩ :=
      act_cases ctx maxTokens profile request answer s phase
    · rw [hitem, hsame]
    -- After its own update the call could only end unknown or contended.
    obtain hsent | ⟨tries', hreading⟩ := updating_sent ctx maxTokens profile
      request answer s bound tries seen
    · obtain ⟨last, hlast, hlastSent⟩ := run_sent ctx maxTokens profile events hnext hsent
      obtain rfl : last = .raised error := Option.some.inj (hlast.symm.trans hend)
      exact absurd hlastSent (by simp [Phase.Sent, hunknown, hcontended])
    · rw [hreading] at hnext
      simpa [h] using hone.1 _ _ hnext

variable {profile} in
theorem run_capped {s : State} {events : List Event} (hs : Capped profile s)
    (hexact : ExactRun ctx maxTokens profile s events) :
    Capped profile (run ctx maxTokens profile s events) := by
  induction events generalizing s with
  | nil => exact hs
  | cons event events ih => exact ih (step_capped ctx maxTokens hs hexact.1) hexact.2

/-- From the seed, as long as no update rounds a counter: the caps hold and the counters
cover the reservations that returned; an event charges the item at most once and moves its
version with it; and an iteration that ends in a denial before its update changes nothing. -/
theorem reserve_keeps_caps (events : List Event)
    (hexact : ExactRun ctx maxTokens profile { item := seed profile } events) :
    let s := run ctx maxTokens profile { item := seed profile } events
    (∀ c : Counter, c.value s.item ≤ c.cap profile.expected ∧ s.reserved c ≤ c.value s.item) ∧
    (∀ event, Exact s event →
      let next := step ctx maxTokens profile s event
      (∀ c : Counter, c.value s.item ≤ c.value next.item) ∧
      (next.item = s.item ∨ next.item.version = s.item.version + 1)) ∧
    ∀ i phase error segment, phaseOf s i = some phase →
      OneIteration ctx maxTokens profile i s segment →
      phaseOf (run ctx maxTokens profile s segment) i = some (.raised error) →
      error ≠ .denied .reservationUnknown → error ≠ .denied .contended →
      Untouched ctx maxTokens profile i s segment := by
  have hs := run_capped ctx maxTokens (capped_seed profile) hexact
  refine ⟨fun c => ⟨hs.counters c, ?_⟩, fun event hevent => ?_, ?_⟩
  · exact (reserved_le_granted c _).trans (hs.granted c)
  · exact ⟨step_grows ctx maxTokens profile hevent, step_version ctx maxTokens profile hevent⟩
  · intro i phase error segment hphase hone hend hunknown hcontended
    exact iteration_untouched ctx maxTokens profile segment hphase hone hend hunknown hcontended

end

def snapshotDigest : Digest := ⟨String.ofList (List.replicate 64 'a'), by decide +kernel⟩

def freeReservation (modelId : String) (inputTokens : ℕ) : OperationReservation where
  operation := "GetFoundationModel"
  modelId := modelId
  maxRequestBytes := 1000
  inputTokens := inputTokens
  outputTokens := 0
  cost := 0
  destinationSnapshot := snapshotDigest
  inputPricePerMillion := some (.ofNat 0)
  outputPricePerMillion := some (.ofNat 0)
  maximumRequestFee := some (.ofNat 0)

def wideProfile : Profile where
  models := [
    { modelId := "model-a", destinationSnapshot := some snapshotDigest },
    { modelId := "model-b", destinationSnapshot := some snapshotDigest }]
  expected := {
    pk := "competition-budget:team-wide:window-1"
    profileDigest := snapshotDigest
    windowStart := 0
    windowEnd := 3600
    maxCalls := 100
    maxInputTokens := 2 * 10 ^ 28
    maxOutputTokens := 1000
    maxCost := 100000000 }
  operationReservations := [freeReservation "model-a" (10 ^ 28), freeReservation "model-b" 1]

def requestFor (modelId : String) : Request where
  operation := "GetFoundationModel"
  parameters := [("modelIdentifier", modelId)]
  parts := [⟨"request.url", [1, 2, 3]⟩]

def reserveAlone (i : ℕ) (modelId : String) : List Event :=
  .enter (requestFor modelId) :: List.replicate 6 (.act i { now := 10 })

/-- A sum of 29 digits loses the second reservation. -/
theorem second_reservation_lost :
    let s := run .default (fun _ => none) wideProfile { item := seed wideProfile }
      (reserveAlone 0 "model-a" ++ reserveAlone 1 "model-b")
    s.processes.map Process.phase =
      [.returned (freeReservation "model-a" (10 ^ 28)), .returned (freeReservation "model-b" 1)] ∧
    Counter.inputTokens.value s.item < s.reserved .inputTokens := by
  decide +kernel

theorem reserve_keeps_caps_alone :
    let s := run .default (fun _ => none) wideProfile { item := seed wideProfile }
      (reserveAlone 0 "model-b")
    Counter.calls.value s.item ≤ Counter.calls.cap wideProfile.expected ∧
      s.reserved .calls ≤ Counter.calls.value s.item :=
  (reserve_keeps_caps .default (fun _ => none) wideProfile (reserveAlone 0 "model-b")
    (by decide +kernel)).1 .calls

end AppraisalReview.CompetitionBudget
