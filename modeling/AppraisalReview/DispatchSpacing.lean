import AppraisalReview.ModelDispatch
import Mathlib.Data.List.Induction

set_option autoImplicit false

/-!
# Spacing of model sends

The owner slot excludes every other send from the waits, the charge and the call.
So whatever holds of the calls when a send acquires the slot still holds when its
interval is over, and a slot that is never released admits no further call.
-/
namespace AppraisalReview.ModelDispatch

section
variable {Time Duration : Type} [LinearOrder Time] (plus : Time → Duration → Time)
  (retry interval : Duration) (guardOf : ℕ → ℕ)

/-- The calls whose guard is `g`. -/
def State.callsOf (s : State Time) (g : ℕ) : ℕ :=
  (s.calls.filter fun span => guardOf span.sender = g).length

def Rested (s : State Time) (time : Time) : Prop :=
  ∀ span ∈ s.calls, ∀ ended ∈ span.ended, plus ended interval ≤ time

def Knows (s : State Time) (i : ℕ) : Phase Time → Prop
  | .checking (.wait .interval until_) _ => Rested plus interval s until_
  | .measuring .interval until_ => Rested plus interval s until_
  | .checking (.settle .interval until_) probe => Rested plus interval s until_ ∧
      (until_ ≤ s.clock ∨ probe = .deadline ∧ (s.guards (guardOf i)).expired s.clock = true)
  | .checking .charge _ => Rested plus interval s s.clock
  | .counting => Rested plus interval s s.clock
  | .adding => Rested plus interval s s.clock ∧
      (s.guards (guardOf i)).sends < (s.guards (guardOf i)).maxSends
  | .storing sends => Rested plus interval s s.clock ∧
      sends = (s.guards (guardOf i)).sends ∧ sends < (s.guards (guardOf i)).maxSends
  | .starting => Rested plus interval s s.clock ∧
      s.callsOf guardOf (guardOf i) < (s.guards (guardOf i)).sends
  | _ => True

/-- `older` ended, and a full interval passed, before `newer` started. -/
def Spaced (newer older : Span Time) : Prop :=
  ∃ ended, older.ended = some ended ∧ ended ≤ newer.started ∧ plus ended interval ≤ newer.started

structure Serialized (s : State Time) : Prop where
  exclusive (i : ℕ) : (s.senders i).owns = true → s.row = some (some i)
  knows (i : ℕ) : Knows plus interval guardOf s i (s.senders i)
  spaced : s.calls.Pairwise (Spaced plus interval)
  past : ∀ span ∈ s.calls, ∀ ended ∈ span.ended, ended ≤ s.clock
  /-- A call that has not ended still holds the slot. -/
  running : ∀ span ∈ s.calls, span.ended = none →
    s.row = some (some span.sender) ∧
      (s.senders span.sender = .calling ∨ s.senders span.sender = .dead)
  charged (g : ℕ) : s.callsOf guardOf g ≤ (s.guards g).sends
  capped (g : ℕ) : (s.guards g).sends ≤ (s.guards g).maxSends

theorem serialized_fresh {s : State Time} (hs : Fresh s) : Serialized plus interval guardOf s where
  exclusive i h := by simp [hs.senders i, Phase.owns, Place.owns] at h
  knows i := by rw [hs.senders i]; trivial
  spaced := by rw [hs.calls]; exact .nil
  past span h := by simp [hs.calls] at h
  running span h := by simp [hs.calls] at h
  charged g := by simp [State.callsOf, hs.calls]
  capped g := by simp [hs.sends g]

variable {plus retry interval guardOf}

theorem knows_of_not_owns {s : State Time} {i : ℕ} {phase : Phase Time} (h : phase.owns = false) :
    Knows plus interval guardOf s i phase := by
  cases phase with
  | checking place probe =>
    cases place with
    | enter => trivial
    | charge => simp [Phase.owns, Place.owns] at h
    | wait pause until_ =>
      cases pause with
      | retry => trivial
      | interval => simp [Phase.owns, Place.owns, Pause.owns] at h
    | settle pause until_ =>
      cases pause with
      | retry => trivial
      | interval => simp [Phase.owns, Place.owns, Pause.owns] at h
  | measuring pause until_ =>
    cases pause with
    | retry => trivial
    | interval => simp [Phase.owns, Pause.owns] at h
  | acquiring => trivial
  | pausing pause => trivial
  | calling => trivial
  | releasing outcome => trivial
  | finished outcome => trivial
  | dead => trivial
  | counting => simp [Phase.owns] at h
  | adding => simp [Phase.owns] at h
  | storing sends => simp [Phase.owns] at h
  | starting => simp [Phase.owns] at h

variable {s t : State Time}

theorem Rested.mono {a b : Time} (h : Rested plus interval s a) (hab : a ≤ b) :
    Rested plus interval s b :=
  fun span hspan ended hended => (h span hspan ended hended).trans hab

theorem Guard.expired_mono {g h : Guard Time} {a b : Time} (hsame : h.deadline = g.deadline)
    (hab : a ≤ b) (hexpired : g.expired a = true) : h.expired b = true := by
  unfold Guard.expired at *
  rw [hsame]
  split
  · rfl
  · next deadline hdeadline =>
    rw [hdeadline] at hexpired
    simp only [decide_eq_true_eq] at *
    exact hexpired.trans hab

/-- What an owner knows lasts while only the clock moves and no guard is charged. -/
theorem Knows.mono {i : ℕ} {phase : Phase Time} (hcalls : t.calls = s.calls)
    (hclock : s.clock ≤ t.clock)
    (hguard : (t.guards (guardOf i)).deadline = (s.guards (guardOf i)).deadline ∧
      (t.guards (guardOf i)).sends = (s.guards (guardOf i)).sends ∧
      (t.guards (guardOf i)).maxSends = (s.guards (guardOf i)).maxSends)
    (h : Knows plus interval guardOf s i phase) : Knows plus interval guardOf t i phase := by
  obtain ⟨hdeadline, hsends, hmax⟩ := hguard
  have hrested : ∀ {a b : Time}, Rested plus interval s a → a ≤ b → Rested plus interval t b := by
    intro a b ha hab
    have hb := ha.mono hab
    rwa [Rested, ← hcalls] at hb
  unfold Knows at *
  split at h
  · exact hrested h le_rfl
  · exact hrested h le_rfl
  · refine ⟨hrested h.1 le_rfl, ?_⟩
    obtain huntil | ⟨hprobe, hexpired⟩ := h.2
    · exact .inl (huntil.trans hclock)
    · exact .inr ⟨hprobe, Guard.expired_mono hdeadline hclock hexpired⟩
  · exact hrested h hclock
  · exact hrested h hclock
  · exact ⟨hrested h.1 hclock, by rw [hsends, hmax]; exact h.2⟩
  · exact ⟨hrested h.1 hclock, by rw [hsends, hmax]; exact h.2⟩
  · refine ⟨hrested h.1 hclock, ?_⟩
    rw [hsends, State.callsOf, hcalls]
    exact h.2
  · trivial

theorem Serialized.not_owns (hs : Serialized plus interval guardOf s) {i j : ℕ}
    (hrow : s.row = some (some i)) (hij : j ≠ i) : (s.senders j).owns = false := by
  by_contra h
  have hj := hs.exclusive j (by simpa using h)
  rw [hrow] at hj
  exact hij (by simpa using hj.symm)

/-- With the slot free, or owned by a send that is not in its call, every call has ended. -/
theorem Serialized.all_ended (hs : Serialized plus interval guardOf s)
    (h : ∀ i, s.row = some (some i) → s.senders i ≠ .calling ∧ s.senders i ≠ .dead) :
    ∀ span ∈ s.calls, ∃ ended, span.ended = some ended := by
  intro span hspan
  cases hended : span.ended with
  | some ended => exact ⟨ended, rfl⟩
  | none =>
    obtain ⟨hrow, hcalling | hdead⟩ := hs.running span hspan hended
    · exact absurd hcalling (h _ hrow).1
    · exact absurd hdead (h _ hrow).2

theorem Serialized.moved (hs : Serialized plus interval guardOf s) {i : ℕ} {phase : Phase Time}
    (howns : phase.owns = true → s.row = some (some i))
    (hknows : Knows plus interval guardOf s i phase)
    (hrunning : s.senders i = .calling → phase = .dead)
    (hdead : s.senders i = .dead → phase = .dead) :
    Serialized plus interval guardOf (s.moved i phase) where
  exclusive j h := by
    by_cases hij : j = i
    · subst hij
      exact howns (by simpa [State.moved] using h)
    · exact hs.exclusive j (by simpa [State.moved, hij] using h)
  knows j := by
    by_cases hij : j = i
    · subst hij
      have hphase : (s.moved j phase).senders j = phase := Function.update_self _ _ _
      rw [hphase]
      exact hknows.mono rfl le_rfl ⟨rfl, rfl, rfl⟩
    · have hphase : (s.moved i phase).senders j = s.senders j := Function.update_of_ne hij _ _
      rw [hphase]
      exact (hs.knows j).mono rfl le_rfl ⟨rfl, rfl, rfl⟩
  spaced := hs.spaced
  past := hs.past
  running span hspan hended := by
    obtain ⟨hrow, hphase⟩ := hs.running span hspan hended
    refine ⟨hrow, ?_⟩
    by_cases hij : span.sender = i
    · have hlast : phase = .dead := by
        obtain hcalling | hdead' := hphase
        · exact hrunning (hij ▸ hcalling)
        · exact hdead (hij ▸ hdead')
      exact .inr (by simp [State.moved, hij, hlast])
    · simpa [State.moved, hij] using hphase
  charged := hs.charged
  capped := hs.capped

theorem checking_passed {i : ℕ} {place : Place Time} {probe : Probe}
    (h : Knows plus interval guardOf s i (.checking place probe))
    (hpasses : probe.passes (s.guards (guardOf i)) s.clock = true) :
    Knows plus interval guardOf s i (match probe.next with
      | some probe => .checking place probe
      | none => place.passed) := by
  cases place with
  | enter => cases probe <;> trivial
  | wait pause until_ =>
    cases pause with
    | retry => cases probe <;> trivial
    | interval => cases probe <;> exact h
  | charge => cases probe <;> exact h
  | settle pause until_ =>
    cases pause with
    | retry => cases probe <;> trivial
    | interval =>
      obtain ⟨hrested, huntil⟩ := h
      -- The deadline is still ahead, so it is the interval that is over.
      have hover : until_ ≤ s.clock := by
        obtain huntil | ⟨rfl, hexpired⟩ := huntil
        · exact huntil
        · simp [Probe.passes, hexpired] at hpasses
      cases probe with
      | cancelledAgain => exact hrested.mono hover
      | deadline => exact ⟨hrested, .inl hover⟩
      | cancelled => exact ⟨hrested, .inl hover⟩
      | authority => exact ⟨hrested, .inl hover⟩
      | deadlineAgain => exact ⟨hrested, .inl hover⟩

omit [LinearOrder Time] in
theorem passed_owns {place : Place Time} {probe : Probe}
    (h : (match probe.next with
      | some probe => (.checking place probe : Phase Time)
      | none => place.passed).owns = true) : place.owns = true := by
  cases probe with
  | cancelledAgain =>
    cases place with
    | enter => simp [Probe.next, Place.passed, Phase.owns] at h
    | wait pause until_ => exact h
    | charge => rfl
    | settle pause until_ =>
      cases pause with
      | retry => simp [Probe.next, Place.passed, Phase.owns, Place.owns] at h
      | interval => rfl
  | deadline => exact h
  | cancelled => exact h
  | authority => exact h
  | deadlineAgain => exact h

omit [LinearOrder Time] in
theorem refused_owns {place : Place Time} (h : place.refused.owns = true) : place.owns = true := by
  unfold Place.refused at h
  split at h
  · next howns => exact howns
  · simp [Phase.owns] at h

theorem refused_knows {i : ℕ} {place : Place Time} :
    Knows plus interval guardOf s i place.refused := by
  unfold Place.refused
  split <;> trivial

/-- The slot is free: its new owner knows nothing yet, and every call has ended. -/
theorem Serialized.acquired (hs : Serialized plus interval guardOf s) {i : ℕ}
    (hphase : s.senders i = .acquiring) (hfree : ∀ j, s.row ≠ some (some j)) :
    Serialized plus interval guardOf
      { s.moved i (.pausing .interval) with row := some (some i) } where
  exclusive j h := by
    by_cases hij : j = i
    · rw [hij]
    · exact absurd (hs.exclusive j (by simpa [State.moved, hij] using h)) (hfree j)
  knows j := by
    by_cases hij : j = i
    · subst hij
      simp [State.moved, Knows]
    · have hwaits : (s.senders j).owns = false := by
        by_contra h
        exact hfree j (hs.exclusive j (by simpa using h))
      have hknows : Knows plus interval guardOf
          { s.moved i (.pausing .interval) with row := some (some i) } j (s.senders j) :=
        knows_of_not_owns hwaits
      simpa [State.moved, hij] using hknows
  spaced := hs.spaced
  past := hs.past
  running span hspan hended := absurd (hs.running span hspan hended).1 (hfree _)
  charged := hs.charged
  capped := hs.capped

theorem Serialized.others (hs : Serialized plus interval guardOf s) {i : ℕ}
    (howns : (s.senders i).owns = true) {phase : Phase Time}
    (hsenders : t.senders = Function.update s.senders i phase)
    (hknows : Knows plus interval guardOf t i phase) (j : ℕ) :
    Knows plus interval guardOf t j (t.senders j) := by
  rw [hsenders]
  by_cases hij : j = i
  · subst hij
    rwa [Function.update_self]
  · rw [Function.update_of_ne hij]
    exact knows_of_not_owns (hs.not_owns (hs.exclusive i howns) hij)

theorem Serialized.exclusive_after (hs : Serialized plus interval guardOf s) {i : ℕ}
    {phase : Phase Time} (hsenders : t.senders = Function.update s.senders i phase)
    (hrow : s.row = some (some i)) (hsame : t.row = s.row) (j : ℕ)
    (h : (t.senders j).owns = true) : t.row = some (some j) := by
  rw [hsame]
  by_cases hij : j = i
  · rw [hij, hrow]
  · rw [hsenders, Function.update_of_ne hij] at h
    exact hs.exclusive j h

theorem Serialized.stored (hs : Serialized plus interval guardOf s) {i sends : ℕ}
    (hphase : s.senders i = .storing sends) :
    Serialized plus interval guardOf { s.moved i .starting with
      guards := Function.update s.guards (guardOf i)
        { s.guards (guardOf i) with sends := sends + 1 } } := by
  have hknown := hs.knows i
  rw [hphase] at hknown
  obtain ⟨hrested, hsends, hbelow⟩ := hknown
  have howns : (s.senders i).owns = true := by rw [hphase]; rfl
  have hcharged := hs.charged (guardOf i)
  refine ⟨hs.exclusive_after rfl (hs.exclusive i howns) rfl, hs.others howns rfl ⟨hrested, ?_⟩,
    hs.spaced, hs.past, fun span hspan hended => ?_, fun g => ?_, fun g => ?_⟩
  · simp only [Function.update_self]
    exact Nat.lt_succ_of_le (hsends ▸ hcharged)
  · obtain ⟨hrow, hcall⟩ := hs.running span hspan hended
    have hsender : span.sender = i := by
      rw [hs.exclusive i howns] at hrow
      simpa using hrow.symm
    rw [hsender, hphase] at hcall
    simp at hcall
  · by_cases hg : g = guardOf i
    · subst hg
      simp only [Function.update_self]
      exact (hsends ▸ hcharged).trans (Nat.le_succ _)
    · simp only [Function.update_of_ne hg]
      exact hs.charged g
  · by_cases hg : g = guardOf i
    · subst hg
      simp only [Function.update_self]
      exact hbelow
    · simpa [hg] using hs.capped g

theorem Serialized.started (hs : Serialized plus interval guardOf s) {i : ℕ}
    (hphase : s.senders i = .starting) :
    Serialized plus interval guardOf { s.moved i .calling with
      calls := { sender := i, started := s.clock } :: s.calls } := by
  have hknown := hs.knows i
  rw [hphase] at hknown
  obtain ⟨hrested, hbelow⟩ := hknown
  have howns : (s.senders i).owns = true := by rw [hphase]; rfl
  have hrow := hs.exclusive i howns
  have hall : ∀ span ∈ s.calls, ∃ ended, span.ended = some ended := by
    refine hs.all_ended fun j hj => ?_
    obtain rfl : j = i := by
      rw [hrow] at hj
      simpa using hj.symm
    rw [hphase]
    exact ⟨by simp, by simp⟩
  refine ⟨hs.exclusive_after rfl hrow rfl, hs.others howns rfl trivial,
    .cons (fun older holder => ?_) hs.spaced, fun span hspan => ?_, fun span hspan hended => ?_,
    fun g => ?_, hs.capped⟩
  · obtain ⟨ended, hended⟩ := hall older holder
    exact ⟨ended, hended, hs.past older holder ended hended, hrested older holder ended hended⟩
  · rcases List.mem_cons.mp hspan with rfl | hold
    · intro ended hended
      simp at hended
    · exact hs.past span hold
  · rcases List.mem_cons.mp hspan with rfl | hold
    · exact ⟨hrow, .inl (Function.update_self _ _ _)⟩
    · obtain ⟨ended, hsome⟩ := hall span hold
      simp [hsome] at hended
  · rw [State.callsOf, List.filter_cons]
    split
    · next hg =>
      obtain rfl : guardOf i = g := by simpa using hg
      exact hbelow
    · exact hs.charged g

omit [LinearOrder Time] in
theorem finish_started (i : ℕ) (now : Time) (span : Span Time) :
    (finish i now span).sender = span.sender ∧ (finish i now span).started = span.started := by
  unfold finish
  split <;> exact ⟨rfl, rfl⟩

omit [LinearOrder Time] in
theorem finish_ended {i : ℕ} {now : Time} {span : Span Time} {ended : Time}
    (h : (finish i now span).ended = some ended) : span.ended = some ended ∨ ended = now := by
  unfold finish at h
  split at h
  · exact .inr (by simpa using h.symm)
  · exact .inl h

theorem finish_spaced {i : ℕ} {now : Time} {newer older : Span Time}
    (h : Spaced plus interval newer older) :
    Spaced plus interval (finish i now newer) (finish i now older) := by
  obtain ⟨ended, hended, hstarted⟩ := h
  refine ⟨ended, ?_, by rw [(finish_started i now newer).2]; exact hstarted⟩
  rw [finish, if_neg (by simp [hended])]
  exact hended

theorem Serialized.ended (hs : Serialized plus interval guardOf s) {i : ℕ} (outcome : Outcome)
    (hphase : s.senders i = .calling) :
    Serialized plus interval guardOf { s.moved i (.releasing outcome) with
      calls := s.calls.map (finish i s.clock) } := by
  have howns : (s.senders i).owns = true := by rw [hphase]; rfl
  have hrow := hs.exclusive i howns
  refine ⟨hs.exclusive_after rfl hrow rfl, hs.others howns rfl trivial, ?_, ?_, ?_, fun g => ?_,
    hs.capped⟩
  · exact List.pairwise_map.mpr (hs.spaced.imp fun h => finish_spaced h)
  · intro span hspan ended hended
    obtain ⟨old, hold, rfl⟩ := List.mem_map.mp hspan
    obtain hsome | rfl := finish_ended hended
    · exact hs.past old hold ended hsome
    · exact le_rfl
  · intro span hspan hended
    obtain ⟨old, hold, rfl⟩ := List.mem_map.mp hspan
    -- Only the owner's call was open, and it has just ended.
    cases hopen : old.ended with
    | some ended =>
      rw [finish, if_neg (by simp [hopen])] at hended
      simp [hopen] at hended
    | none =>
      have hsender : old.sender = i := by
        have hold' := (hs.running old hold hopen).1
        rw [hrow] at hold'
        simpa using hold'.symm
      rw [finish, if_pos ⟨hsender, hopen⟩] at hended
      simp at hended
  · refine le_trans (le_of_eq ?_) (hs.charged g)
    rw [State.callsOf, State.callsOf, List.filter_map, List.length_map]
    congr 2
    funext span
    simp [(finish_started i s.clock span).1]

theorem Serialized.released (hs : Serialized plus interval guardOf s) {i : ℕ} {outcome : Outcome}
    (final : Outcome) (hphase : s.senders i = .releasing outcome) :
    Serialized plus interval guardOf { s.moved i (.finished final) with row := some none } := by
  have howns : (s.senders i).owns = true := by rw [hphase]; rfl
  have hrow := hs.exclusive i howns
  refine ⟨fun j h => ?_, hs.others howns rfl trivial, hs.spaced, hs.past, fun span hspan hended => ?_,
    hs.charged, hs.capped⟩
  · by_cases hij : j = i
    · subst hij
      simp [State.moved, Phase.owns] at h
    · have hnot := hs.not_owns hrow hij
      simp [State.moved, hij, hnot] at h
  · obtain ⟨hcalling, hcall⟩ := hs.running span hspan hended
    have hsender : span.sender = i := by
      rw [hrow] at hcalling
      simpa using hcalling.symm
    rw [hsender, hphase] at hcall
    simp at hcall

theorem act_serialized (hplus : ∀ d, Monotone fun time => plus time d)
    (hs : Serialized plus interval guardOf s) (i : ℕ) (fails : Bool) :
    Serialized plus interval guardOf (act plus retry interval guardOf s i fails) := by
  have hknows := hs.knows i
  have hexclusive := hs.exclusive i
  unfold act
  cases hphase : s.senders i with
  | checking place probe =>
    rw [hphase] at hknows hexclusive
    dsimp only
    split
    · next hpasses =>
      exact hs.moved (fun h => hexclusive (passed_owns h)) (checking_passed hknows hpasses)
        (by simp [hphase]) (by simp [hphase])
    · exact hs.moved (fun h => hexclusive (refused_owns h)) refused_knows
        (by simp [hphase]) (by simp [hphase])
  | acquiring =>
    dsimp only
    split
    · exact hs.moved (by simp [Phase.owns]) trivial (by simp [hphase]) (by simp [hphase])
    · unfold tryAcquire
      by_cases hfree : s.row.getD none = none
      · simp only [hfree, if_true]
        refine hs.acquired hphase fun j hj => ?_
        simp [hj] at hfree
      · simp only [hfree, if_false]
        have hrow : some (s.row.getD none) = s.row := by
          cases hrow : s.row with
          | none => simp [hrow] at hfree
          | some owner => rfl
        rw [hrow]
        exact hs.moved (by simp [Phase.owns, Pause.owns]) trivial (by simp [hphase]) (by simp [hphase])
  | pausing pause =>
    rw [hphase] at hexclusive
    refine hs.moved hexclusive ?_ (by simp [hphase]) (by simp [hphase])
    cases pause with
    | retry => trivial
    | interval => exact fun span hspan ended hended => hplus interval (hs.past span hspan ended hended)
  | measuring pause until_ =>
    rw [hphase] at hknows hexclusive
    dsimp only
    split
    · next hover =>
      refine hs.moved hexclusive ?_ (by simp [hphase]) (by simp [hphase])
      cases pause with
      | retry => trivial
      | interval =>
        refine ⟨hknows, ?_⟩
        simp only [Bool.or_eq_true, decide_eq_true_eq] at hover
        exact hover.imp_right fun hexpired => ⟨rfl, hexpired⟩
    · refine hs.moved hexclusive ?_ (by simp [hphase]) (by simp [hphase])
      cases pause with
      | retry => trivial
      | interval => exact hknows
  | counting =>
    rw [hphase] at hknows hexclusive
    dsimp only
    split
    · exact hs.moved hexclusive trivial (by simp [hphase]) (by simp [hphase])
    · next hbelow =>
      exact hs.moved hexclusive ⟨hknows, not_le.mp hbelow⟩ (by simp [hphase]) (by simp [hphase])
  | adding =>
    rw [hphase] at hknows hexclusive
    exact hs.moved hexclusive ⟨hknows.1, rfl, hknows.2⟩ (by simp [hphase]) (by simp [hphase])
  | storing sends => exact hs.stored hphase
  | starting => exact hs.started hphase
  | calling => exact hs.ended _ hphase
  | releasing outcome =>
    rw [hphase] at hexclusive
    have hrow := hexclusive rfl
    dsimp only
    split
    · exact hs.moved (by simp [Phase.owns]) trivial (by simp [hphase]) (by simp [hphase])
    · rw [release, if_pos hrow]
      exact hs.released _ hphase
  | finished outcome => exact hs
  | dead => exact hs

theorem Serialized.guarded (hs : Serialized plus interval guardOf s) (g : ℕ)
    (change : Guard Time → Guard Time)
    (h : ∀ guard, (change guard).deadline = guard.deadline ∧ (change guard).sends = guard.sends ∧
      (change guard).maxSends = guard.maxSends) :
    Serialized plus interval guardOf (s.guarded g change) := by
  have hsame : ∀ g', ((s.guarded g change).guards g').deadline = (s.guards g').deadline ∧
      ((s.guarded g change).guards g').sends = (s.guards g').sends ∧
      ((s.guarded g change).guards g').maxSends = (s.guards g').maxSends := by
    intro g'
    by_cases hg : g' = g
    · subst hg
      simpa [State.guarded] using h (s.guards g')
    · simp [State.guarded, hg]
  refine ⟨hs.exclusive, fun i => Knows.mono (s := s) rfl le_rfl (hsame _) (hs.knows i), hs.spaced,
    hs.past, hs.running, fun g' => ?_, fun g' => ?_⟩
  · rw [(hsame g').2.1]
    exact hs.charged g'
  · rw [(hsame g').2.1, (hsame g').2.2]
    exact hs.capped g'

theorem step_serialized (hplus : ∀ d, Monotone fun time => plus time d)
    (hs : Serialized plus interval guardOf s) (event : Event Time) :
    Serialized plus interval guardOf (step plus retry interval guardOf s event) := by
  cases event with
  | act i fails => exact act_serialized hplus hs i fails
  | tick now =>
    have hclock : s.clock ≤ max s.clock now := le_max_left _ _
    exact ⟨hs.exclusive, fun i => Knows.mono (s := s) rfl hclock ⟨rfl, rfl, rfl⟩ (hs.knows i),
      hs.spaced,
      fun span hspan ended hended => (hs.past span hspan ended hended).trans hclock, hs.running,
      hs.charged, hs.capped⟩
  | cancel g => exact hs.guarded g (fun g => { g with cancelled := true }) fun _ => ⟨rfl, rfl, rfl⟩
  | authorize g granted =>
    exact hs.guarded g (fun g => { g with authority := granted }) fun _ => ⟨rfl, rfl, rfl⟩
  | die i => exact hs.moved (by simp [Phase.owns]) trivial (fun _ => rfl) (fun _ => rfl)

theorem run_serialized (hplus : ∀ d, Monotone fun time => plus time d)
    (hs : Serialized plus interval guardOf s) (events : List (Event Time)) :
    Serialized plus interval guardOf (run plus retry interval guardOf s events) := by
  induction events generalizing s with
  | nil => exact hs
  | cons event events ih => exact ih (step_serialized hplus hs event)

def Stuck (s : State Time) (i : ℕ) : Prop :=
  s.row = some (some i) ∧ (s.senders i = .dead ∨ ∃ outcome, s.senders i = .finished outcome)

variable (plus retry interval guardOf) in
theorem act_others {i j : ℕ} (hij : j ≠ i) (fails : Bool) :
    (act plus retry interval guardOf s i fails).senders j = s.senders j := by
  have hother : ∀ {phase : Phase Time}, (s.moved i phase).senders j = s.senders j :=
    Function.update_of_ne hij _ _
  unfold act
  cases s.senders i with
  | checking place probe => dsimp only; split <;> exact hother
  | acquiring => dsimp only; split <;> exact hother
  | measuring pause until_ => dsimp only; split <;> exact hother
  | counting => dsimp only; split <;> exact hother
  | releasing outcome =>
    dsimp only
    split
    · exact hother
    · split <;> exact hother
  | pausing pause => exact hother
  | adding => exact hother
  | storing sends => exact hother
  | starting => exact hother
  | calling => exact hother
  | finished outcome => rfl
  | dead => rfl

variable (plus retry interval guardOf) in
theorem act_waiting {i j : ℕ} (hrow : s.row = some (some i)) (hwaits : (s.senders j).owns = false)
    (fails : Bool) :
    (act plus retry interval guardOf s j fails).row = s.row ∧
    (act plus retry interval guardOf s j fails).calls = s.calls := by
  unfold act
  cases hphase : s.senders j with
  | checking place probe =>
    dsimp only
    split <;> exact ⟨rfl, rfl⟩
  | acquiring =>
    dsimp only
    split
    · exact ⟨rfl, rfl⟩
    · simp only [tryAcquire, hrow, Option.getD_some]
      exact ⟨rfl, rfl⟩
  | pausing pause => exact ⟨rfl, rfl⟩
  | measuring pause until_ =>
    dsimp only
    split <;> exact ⟨rfl, rfl⟩
  | finished outcome => exact ⟨rfl, rfl⟩
  | dead => exact ⟨rfl, rfl⟩
  | counting => simp [hphase, Phase.owns] at hwaits
  | adding => simp [hphase, Phase.owns] at hwaits
  | storing sends => simp [hphase, Phase.owns] at hwaits
  | starting => simp [hphase, Phase.owns] at hwaits
  | calling => simp [hphase, Phase.owns] at hwaits
  | releasing outcome => simp [hphase, Phase.owns] at hwaits

theorem step_stuck (hs : Serialized plus interval guardOf s) {i : ℕ} (h : Stuck s i)
    (event : Event Time) :
    Stuck (step plus retry interval guardOf s event) i ∧
    (step plus retry interval guardOf s event).calls = s.calls := by
  obtain ⟨hrow, hgone⟩ := h
  cases event with
  | act j fails =>
    by_cases hij : j = i
    · subst hij
      have hsame : act plus retry interval guardOf s j fails = s := by
        unfold act
        obtain hdead | ⟨outcome, hfinished⟩ := hgone
        · rw [hdead]
        · rw [hfinished]
      rw [step, hsame]
      exact ⟨⟨hrow, hgone⟩, rfl⟩
    · obtain ⟨hrow', hcalls⟩ := act_waiting plus retry interval guardOf hrow
        (hs.not_owns hrow hij) fails
      refine ⟨⟨hrow'.trans hrow, ?_⟩, hcalls⟩
      rw [step, act_others plus retry interval guardOf (Ne.symm hij)]
      exact hgone
  | tick now => exact ⟨⟨hrow, hgone⟩, rfl⟩
  | cancel g => exact ⟨⟨hrow, hgone⟩, rfl⟩
  | authorize g granted => exact ⟨⟨hrow, hgone⟩, rfl⟩
  | die j =>
    refine ⟨⟨hrow, ?_⟩, rfl⟩
    by_cases hij : i = j
    · exact .inl (by rw [step, State.moved, hij]; exact Function.update_self _ _ _)
    · rw [step, State.moved]
      simp only [Function.update_of_ne hij]
      exact hgone

theorem run_stuck (hplus : ∀ d, Monotone fun time => plus time d)
    (hs : Serialized plus interval guardOf s) {i : ℕ} (h : Stuck s i) (events : List (Event Time)) :
    (run plus retry interval guardOf s events).calls = s.calls := by
  induction events generalizing s with
  | nil => rfl
  | cons event events ih =>
    obtain ⟨hstuck, hcalls⟩ : Stuck (step plus retry interval guardOf s event) i ∧ _ :=
      step_stuck hs h event
    exact (ih (step_serialized hplus hs event) hstuck).trans hcalls

def Probe.index : Probe → ℕ
  | .deadline => 0
  | .cancelled => 1
  | .authority => 2
  | .deadlineAgain => 3
  | .cancelledAgain => 4

def Phase.checked : Phase Time → Probe → Prop
  | .checking .charge probe, read => read.index < probe.index
  | .counting, _ => True
  | .adding, _ => True
  | .storing _, _ => True
  | .starting, _ => True
  | _, _ => False

omit [LinearOrder Time] in
theorem passed_checked {place : Place Time} {probe read : Probe}
    (h : (match probe.next with
      | some probe => (.checking place probe : Phase Time)
      | none => place.passed).checked read) :
    (Phase.checking place probe).checked read ∨ place = .charge ∧ probe = read := by
  cases place with
  | charge => cases probe <;> cases read <;> simp_all [Phase.checked, Probe.next, Probe.index]
  | enter => cases probe <;> simp [Phase.checked, Probe.next, Place.passed] at h
  | wait pause until_ => cases probe <;> simp [Phase.checked, Probe.next, Place.passed] at h
  | settle pause until_ =>
    cases pause <;> cases probe <;>
      simp [Phase.checked, Probe.next, Place.passed, Probe.index] at h

theorem act_checked {i j : ℕ} {fails : Bool} {read : Probe}
    (h : ((act plus retry interval guardOf s i fails).senders j).checked read) :
    (s.senders j).checked read ∨ s.senders j = .checking .charge read ∧
      read.passes (s.guards (guardOf j)) s.clock = true := by
  by_cases hij : j = i
  swap
  · rw [act_others plus retry interval guardOf hij] at h
    exact .inl h
  subst hij
  have hself : ∀ {phase : Phase Time}, (s.moved j phase).senders j = phase :=
    Function.update_self _ _ _
  unfold act at h
  cases hphase : s.senders j with
  | checking place probe =>
    simp only [hphase] at h
    split at h
    · next hpasses =>
      rw [hself] at h
      obtain hold | ⟨rfl, rfl⟩ := passed_checked h
      · exact .inl hold
      · exact .inr ⟨rfl, hpasses⟩
    · rw [hself, Place.refused] at h
      split at h <;> exact absurd h (by simp [Phase.checked])
  | counting => exact .inl trivial
  | adding => exact .inl trivial
  | storing sends => exact .inl trivial
  | starting => exact .inl trivial
  | acquiring =>
    simp only [hphase] at h
    split at h
    · rw [hself] at h
      exact absurd h (by simp [Phase.checked])
    · simp only [State.moved, Function.update_self] at h
      exact absurd h (by simp [Phase.checked])
  | pausing pause =>
    simp only [hphase, hself] at h
    exact absurd h (by simp [Phase.checked])
  | measuring pause until_ =>
    simp only [hphase] at h
    split at h <;> exact absurd (hself ▸ h) (by simp [Phase.checked])
  | calling =>
    simp only [hphase, State.moved, Function.update_self] at h
    exact absurd h (by simp [Phase.checked])
  | releasing outcome =>
    simp only [hphase] at h
    split at h
    · exact absurd (hself ▸ h) (by simp [Phase.checked])
    · split at h
      · exact absurd (hself ▸ h) (by simp [Phase.checked])
      · simp only [State.moved, Function.update_self] at h
        exact absurd h (by simp [Phase.checked])
  | finished outcome =>
    simp only [hphase] at h
    exact absurd h (by simp [Phase.checked])
  | dead =>
    simp only [hphase] at h
    exact absurd h (by simp [Phase.checked])

variable (plus retry interval guardOf) in
/-- In some earlier state of the run the read of the charge's check passed, not after `time`. -/
def Passed (s : State Time) (events : List (Event Time)) (i : ℕ) (read : Probe) (time : Time) : Prop :=
  ∃ before after, events = before ++ after ∧
    let t := run plus retry interval guardOf s before
    t.senders i = .checking .charge read ∧
      read.passes (t.guards (guardOf i)) t.clock = true ∧ t.clock ≤ time

theorem Passed.later {events : List (Event Time)} {i : ℕ} {read : Probe} {a b : Time}
    (h : Passed plus retry interval guardOf s events i read a) (hab : a ≤ b)
    (more : List (Event Time)) : Passed plus retry interval guardOf s (events ++ more) i read b := by
  obtain ⟨before, after, rfl, hphase, hpasses, hclock⟩ := h
  exact ⟨before, after ++ more, List.append_assoc _ _ _, hphase, hpasses, hclock.trans hab⟩

theorem run_snoc (events : List (Event Time)) (event : Event Time) :
    run plus retry interval guardOf s (events ++ [event]) =
      step plus retry interval guardOf (run plus retry interval guardOf s events) event := by
  rw [run, run, List.foldl_append]
  rfl

variable (plus retry interval guardOf) in
theorem step_clock (event : Event Time) : s.clock ≤ (step plus retry interval guardOf s event).clock := by
  cases event with
  | tick now => exact le_max_left _ _
  | cancel g => exact le_rfl
  | authorize g granted => exact le_rfl
  | die i => exact le_rfl
  | act i fails =>
    rw [step, act]
    cases s.senders i with
    | checking place probe => dsimp only; split <;> exact le_rfl
    | acquiring => dsimp only; split <;> exact le_rfl
    | measuring pause until_ => dsimp only; split <;> exact le_rfl
    | counting => dsimp only; split <;> exact le_rfl
    | releasing outcome =>
      dsimp only
      split
      · exact le_rfl
      · split <;> exact le_rfl
    | pausing pause => exact le_rfl
    | adding => exact le_rfl
    | storing sends => exact le_rfl
    | starting => exact le_rfl
    | calling => exact le_rfl
    | finished outcome => exact le_rfl
    | dead => exact le_rfl

theorem act_calls {i : ℕ} {fails : Bool} {span : Span Time}
    (h : span ∈ (act plus retry interval guardOf s i fails).calls) :
    (∃ old ∈ s.calls, span.sender = old.sender ∧ span.started = old.started) ∨
    s.senders i = .starting ∧ span.sender = i ∧ span.started = s.clock := by
  have hsame : span ∈ s.calls →
      ∃ old ∈ s.calls, span.sender = old.sender ∧ span.started = old.started :=
    fun h => ⟨span, h, rfl, rfl⟩
  unfold act at h
  cases hphase : s.senders i with
  | checking place probe =>
    simp only [hphase] at h
    split at h <;> exact .inl (hsame h)
  | acquiring =>
    simp only [hphase] at h
    split at h <;> exact .inl (hsame h)
  | measuring pause until_ =>
    simp only [hphase] at h
    split at h <;> exact .inl (hsame h)
  | counting =>
    simp only [hphase] at h
    split at h <;> exact .inl (hsame h)
  | releasing outcome =>
    simp only [hphase] at h
    split at h
    · exact .inl (hsame h)
    · split at h <;> exact .inl (hsame h)
  | starting =>
    simp only [hphase] at h
    rcases List.mem_cons.mp h with rfl | hold
    · exact .inr ⟨rfl, rfl, rfl⟩
    · exact .inl (hsame hold)
  | calling =>
    simp only [hphase] at h
    obtain ⟨old, hold, rfl⟩ := List.mem_map.mp h
    exact .inl ⟨old, hold, finish_started i s.clock old⟩
  | pausing pause => simp only [hphase] at h; exact .inl (hsame h)
  | adding => simp only [hphase] at h; exact .inl (hsame h)
  | storing sends => simp only [hphase] at h; exact .inl (hsame h)
  | finished outcome => simp only [hphase] at h; exact .inl (hsame h)
  | dead => simp only [hphase] at h; exact .inl (hsame h)

theorem run_checked (hs : Fresh s) (events : List (Event Time)) :
    let t := run plus retry interval guardOf s events
    (∀ i read, (t.senders i).checked read →
      Passed plus retry interval guardOf s events i read t.clock) ∧
    ∀ span ∈ t.calls, ∀ read,
      Passed plus retry interval guardOf s events span.sender read span.started := by
  induction events using List.reverseRecOn with
  | nil =>
    refine ⟨fun i read h => ?_, fun span hspan => ?_⟩
    · simp [run, hs.senders i, Phase.checked] at h
    · simp [run, hs.calls] at hspan
  | append_singleton events event ih =>
    obtain ⟨hsenders, hcalls⟩ := ih
    rw [run_snoc]
    generalize ht : run plus retry interval guardOf s events = t at hsenders hcalls
    have hnow : ∀ i read, t.senders i = .checking .charge read →
        read.passes (t.guards (guardOf i)) t.clock = true → ∀ time, t.clock ≤ time →
        Passed plus retry interval guardOf s (events ++ [event]) i read time :=
      fun i read hphase hpasses time htime =>
        ⟨events, [event], rfl, by rw [ht]; exact hphase, by rw [ht]; exact hpasses,
          by rw [ht]; exact htime⟩
    have hclock := step_clock plus retry interval guardOf (s := t) event
    cases event with
    | act i fails =>
      refine ⟨fun j read h => ?_, fun span hspan read => ?_⟩
      · obtain hold | ⟨hphase, hpasses⟩ := act_checked h
        · exact (hsenders j read hold).later hclock _
        · exact hnow j read hphase hpasses _ hclock
      · obtain ⟨old, hold, hsender, hstarted⟩ | ⟨hphase, hsender, hstarted⟩ := act_calls hspan
        · rw [hsender, hstarted]
          exact (hcalls old hold read).later le_rfl _
        · rw [hsender, hstarted]
          exact (hsenders i read (by rw [hphase]; trivial)).later le_rfl _
    | tick now =>
      exact ⟨fun j read h => (hsenders j read h).later hclock _,
        fun span hspan read => (hcalls span hspan read).later le_rfl _⟩
    | cancel g =>
      exact ⟨fun j read h => (hsenders j read h).later hclock _,
        fun span hspan read => (hcalls span hspan read).later le_rfl _⟩
    | authorize g granted =>
      exact ⟨fun j read h => (hsenders j read h).later hclock _,
        fun span hspan read => (hcalls span hspan read).later le_rfl _⟩
    | die i =>
      refine ⟨fun j read h => ?_, fun span hspan read => (hcalls span hspan read).later le_rfl _⟩
      by_cases hij : j = i
      · subst hij
        simp [step, State.moved, Phase.checked] at h
      · rw [step, State.moved] at h
        simp only [Function.update_of_ne hij] at h
        exact (hsenders j read h).later hclock _

variable (plus retry interval guardOf) in
/-- In every run: a call starts after every earlier one ended and an interval passed; a guard
starts no more calls than it may; each call follows the reads of its charge's check; and once
the owner of the slot dies, or its release fails, no call starts any more. -/
theorem sends_serialized (hplus : ∀ d, Monotone fun time => plus time d) (hs : Fresh s)
    (events : List (Event Time)) :
    let t := run plus retry interval guardOf s events
    t.calls.Pairwise (Spaced plus interval) ∧
    (∀ g, t.callsOf guardOf g ≤ (t.guards g).maxSends) ∧
    (∀ span ∈ t.calls, ∀ read,
      Passed plus retry interval guardOf s events span.sender read span.started) ∧
    (∀ i, (t.senders i).owns = true → ∀ more,
      (run plus retry interval guardOf s (events ++ .die i :: more)).calls = t.calls) ∧
    ∀ i outcome, t.senders i = .releasing outcome → ∀ more,
      (run plus retry interval guardOf s (events ++ .act i true :: more)).calls = t.calls := by
  intro t
  have ht : Serialized plus interval guardOf t :=
    run_serialized hplus (serialized_fresh plus interval guardOf hs) events
  have hsplit : ∀ event more, run plus retry interval guardOf s (events ++ event :: more) =
      run plus retry interval guardOf (step plus retry interval guardOf t event) more := by
    intro event more
    rw [run, List.foldl_append, List.foldl_cons]
    rfl
  refine ⟨ht.spaced, fun g => (ht.charged g).trans (ht.capped g), (run_checked hs events).2, ?_, ?_⟩
  · intro i howns more
    have hstuck : Stuck (step plus retry interval guardOf t (.die i)) i :=
      ⟨ht.exclusive i howns, .inl (Function.update_self _ _ _)⟩
    rw [hsplit, run_stuck hplus (step_serialized hplus ht (.die i)) hstuck more]
    rfl
  · intro i outcome hphase more
    have hact : act plus retry interval guardOf t i true =
        t.moved i (.finished (.denied .releaseUnknown)) := by
      unfold act
      rw [hphase]
      exact if_pos rfl
    have hstuck : Stuck (step plus retry interval guardOf t (.act i true)) i := by
      rw [step, hact]
      exact ⟨ht.exclusive i (by rw [hphase]; rfl), .inr ⟨_, Function.update_self _ _ _⟩⟩
    rw [hsplit, run_stuck hplus (step_serialized hplus ht (.act i true)) hstuck more, step, hact]
    rfl

end

/-- Time is counted in tenths of a second, and every send has a guard of its own. -/
def sampleState : State ℕ where
  clock := 0
  guards := fun _ => { deadline := some 20 }
  senders := fun _ => .checking .enter .deadline

def acts (i n : ℕ) : List (Event ℕ) := List.replicate n (.act i false)

def sendAlone (i : ℕ) : List (Event ℕ) := acts i 12 ++ .tick 11 :: acts i 14

/-- A call may start after its guard's deadline, and after a process that owned nothing died. -/
theorem call_starts_late :
    (run (· + ·) 1 11 id sampleState (sendAlone 0 ++ [.tick 25, .act 0 false])).calls =
      [⟨0, 25, none⟩] ∧
    (run (· + ·) 1 11 id sampleState (.die 1 :: sendAlone 0 ++ [.act 0 false])).calls =
      [⟨0, 11, none⟩] := by
  decide +kernel

def openState : State ℕ := { sampleState with guards := fun _ => { deadline := some 60 } }

/-- A whole send, and one of another process that waits for the interval after it. -/
def sendTwice : List (Event ℕ) :=
  sendAlone 0 ++ acts 0 6 ++ .tick 12 :: acts 1 30 ++ .tick 23 :: acts 1 20

/-- Two calls with their interval between them, and none once the owner of the slot died. -/
theorem sends_serialized_sample :
    let t := run (· + ·) 1 11 id openState sendTwice
    t.calls = [⟨1, 23, some 23⟩, ⟨0, 11, some 11⟩] ∧
    (t.calls.Pairwise (Spaced (· + ·) 11) ∧ ∀ g, t.callsOf id g ≤ (t.guards g).maxSends) ∧
    ∀ more, (run (· + ·) 1 11 id openState (sendAlone 0 ++ .die 0 :: more)).calls = [] := by
  have hplus : ∀ d : ℕ, Monotone fun time => time + d := fun d _ _ h => Nat.add_le_add_right h d
  have hfresh : Fresh openState := ⟨rfl, fun _ => rfl, fun _ => rfl, rfl⟩
  have hall := sends_serialized (· + ·) 1 11 id hplus hfresh sendTwice
  have hlost := (sends_serialized (· + ·) 1 11 id hplus hfresh (sendAlone 0)).2.2.2.1
  have howns : ((run (· + ·) 1 11 id openState (sendAlone 0)).senders 0).owns = true := by
    decide +kernel
  have hnone : (run (· + ·) 1 11 id openState (sendAlone 0)).calls = [] := by decide +kernel
  exact ⟨by decide +kernel, ⟨hall.1, hall.2.1⟩, fun more => (hlost 0 howns more).trans hnone⟩

end AppraisalReview.ModelDispatch
