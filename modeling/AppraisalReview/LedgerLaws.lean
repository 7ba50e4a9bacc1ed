import AppraisalReview.RunLedger
import Mathlib.Algebra.Order.Ring.Int

set_option autoImplicit false

/-!
# Laws of the run ledgers

A step of the ledger in memory leaves a record or moves it in one of three ways,
and from these follow the fencing, the monotone budget, the quarantine and the
immutable result. The table of the durable ledger follows the records in lockstep,
up to the tokens that each of them draws.
-/
namespace AppraisalReview.RunLedger

structure Budget.AtMost (after before : Budget) : Prop where
  steps : after.stepsRemaining ≤ before.stepsRemaining
  modelCalls : after.modelCallsRemaining ≤ before.modelCallsRemaining
  retries : after.retriesRemaining ≤ before.retriesRemaining
  unlimited : after.timeRemainingMs = none ↔ before.timeRemainingMs = none
  time : ∀ x ∈ after.timeRemainingMs, ∀ y ∈ before.timeRemainingMs, x ≤ y

theorem Budget.AtMost.refl (budget : Budget) : budget.AtMost budget where
  steps := le_rfl
  modelCalls := le_rfl
  retries := le_rfl
  unlimited := Iff.rfl
  time _ hx _ hy := (Option.mem_unique hx hy).le

theorem Budget.AtMost.trans {a b c : Budget} (hab : a.AtMost b) (hbc : b.AtMost c) : a.AtMost c where
  steps := hab.steps.trans hbc.steps
  modelCalls := hab.modelCalls.trans hbc.modelCalls
  retries := hab.retries.trans hbc.retries
  unlimited := hab.unlimited.trans hbc.unlimited
  time x hx z hz := by
    cases hb : b.timeRemainingMs with
    | none => simp [hab.unlimited.mpr hb] at hx
    | some y => exact (hab.time x hx y hb).trans (hbc.time y hb z hz)

theorem decreased_ok {before after : Budget} (h : decreased before after = .ok ()) :
    after.AtMost before := by
  obtain ⟨_, _, _, timeBefore⟩ := before
  obtain ⟨_, _, _, timeAfter⟩ := after
  unfold decreased at h
  split_ifs at h with hsteps hcalls hretries
  refine ⟨by simpa using hsteps, by simpa using hcalls, by simpa using hretries, ?_, ?_⟩
  all_goals cases timeBefore <;> cases timeAfter <;> simp_all

theorem revalidate_ok {budget result : Budget} (h : budget.revalidate = .ok result) :
    result = budget ∧ budget.valid = true := by
  unfold Budget.revalidate at h
  split at h
  · next hvalid => exact ⟨(Except.ok.inj h).symm, hvalid⟩
  · simp at h

theorem result_budget {β : Type} {accepts : BoundedWorkflowResult β → Bool}
    {result checked : BoundedWorkflowResult β} (h : result.revalidate accepts = .ok checked) :
    checked.finalBudget.valid = true := by
  unfold BoundedWorkflowResult.revalidate at h
  split at h
  · next hvalid =>
    obtain rfl := Except.ok.inj h
    simp only [Bool.and_eq_true] at hvalid
    exact hvalid.1.2
  · simp at h

section
variable {τ β : Type} (accepts : BoundedWorkflowResult β → Bool)

/-- The ways in which a step changes a record; `token` is the one an acquire would issue. -/
inductive Moves (token : τ) (key : UUID) : Option (RunRecord τ β) → RunRecord τ β → Prop
  | opened (run : RunReference) (budget : Budget) (hkey : run.runId = key)
      (hrun : validRun run = true) (hbudget : budget.valid = true) :
      Moves token key none { run := run, budget := budget, owner := some token }
  | reserved (record : RunRecord τ β) (hfree : record.owner = none)
      (hquarantined : record.quarantined = false) (hresult : record.result = none) :
      Moves token key (some record) { record with owner := some token }
  | owned (record next : RunRecord τ β) (howner : record.owner.isSome)
      (hresult : record.result = none) (hrun : next.run = record.run)
      (hbudget : next.budget.AtMost record.budget) (hvalid : record.budget.valid → next.budget.valid)
      (hquarantined : record.quarantined → next.quarantined)
      (hnext : next.owner = record.owner ∨ next.owner = none)
      (hcompleted : ∀ result ∈ next.result, result.run = record.run ∧ next.owner = none ∧
        ¬ (next.quarantined ∧ result.termination.successful)) :
      Moves token key (some record) next

def Legal (record next : RunRecord τ β) : Prop :=
  next.run = record.run ∧ next.budget.AtMost record.budget ∧
    (record.budget.valid → next.budget.valid) ∧ (record.quarantined → next.quarantined) ∧
    (next.owner = record.owner ∨ next.owner = none) ∧
    (record.result = none → ∀ result ∈ next.result, result.run = record.run ∧ next.owner = none ∧
      ¬ (next.quarantined ∧ result.termination.successful))

theorem legal_refl (record : RunRecord τ β) : Legal record record :=
  ⟨rfl, Budget.AtMost.refl _, id, id, .inl rfl, fun h result hresult => by simp [h] at hresult⟩

variable [DecidableEq τ]

theorem owned_ok {s : Memory τ β} {owner : WorkflowRunReservation τ} {record : RunRecord τ β}
    (h : s.owned owner = .ok record) :
    s owner.run.runId = some record ∧ record.run = owner.run ∧ record.owner = some owner.token ∧
      record.result = none := by
  unfold Memory.owned at h
  cases hs : s owner.run.runId with
  | none => simp [hs] at h
  | some stored =>
    rw [hs] at h
    dsimp only at h
    split_ifs at h with hstale
    obtain rfl := Except.ok.inj h
    simp only [not_or, not_not, Option.isSome_iff_ne_none] at hstale
    exact ⟨rfl, hstale⟩

theorem onOwned_moves {s : Memory τ β} {owner : WorkflowRunReservation τ} (token : τ)
    {body : RunRecord τ β → Except Rejection (RunRecord τ β × Reply τ β)}
    (hbody : ∀ record next reply, body record = .ok (next, reply) → Legal record next) (key : UUID) :
    (s.onOwned owner body).1 key = s key ∨
    ∃ next, (s.onOwned owner body).1 key = some next ∧ Moves token key (s key) next := by
  unfold Memory.onOwned
  cases howned : s.owned owner with
  | error error => exact .inl rfl
  | ok record =>
    dsimp only
    cases hresult : body record with
    | error error => exact .inl rfl
    | ok result =>
      obtain ⟨next, reply⟩ := result
      obtain ⟨hrun, hbudget, hvalid, hquarantined, hnext, hcompleted⟩ := hbody record next reply hresult
      obtain ⟨hs, hsame, howner, hnone⟩ := owned_ok howned
      dsimp only [Memory.put]
      by_cases hid : key = owner.run.runId
      · subst hid
        refine .inr ⟨next, by rw [hrun, hsame, Function.update_self], ?_⟩
        rw [hs]
        exact .owned record next (by rw [howner]; rfl) hnone hrun hbudget hvalid hquarantined hnext
          (hcompleted hnone)
      · exact .inl (by rw [hrun, hsame, Function.update_of_ne hid])

omit [DecidableEq τ] in
theorem acquire_moves (s : Memory τ β) (token : τ) (run : RunReference) (initialBudget : Budget)
    (hkeys : ∀ key record, s key = some record → record.run.runId = key) (key : UUID) :
    (s.acquire token run initialBudget).1 key = s key ∨
    ∃ next, (s.acquire token run initialBudget).1 key = some next ∧ Moves token key (s key) next := by
  unfold Memory.acquire
  by_cases hrun : validRun run = true
  · rw [if_neg (by simp [hrun])]
    cases hbudget : initialBudget.revalidate with
    | error error => exact .inl rfl
    | ok budget =>
      obtain ⟨rfl, hvalid⟩ := revalidate_ok hbudget
      dsimp only
      cases hs : s run.runId with
      | none =>
        simp only [Option.getD_none, ne_eq, not_true_eq_false, if_false, Option.isSome_none,
          Bool.or_self, Bool.false_eq_true, Memory.put]
        by_cases hid : key = run.runId
        · subst hid
          refine .inr ⟨_, Function.update_self _ _ _, ?_⟩
          rw [hs]
          exact .opened run budget rfl hrun hvalid
        · exact .inl (by rw [Function.update_of_ne hid, Function.update_of_ne hid])
      | some record =>
        have hsame : Function.update s run.runId (some record) = s := by
          rw [← hs, Function.update_eq_self]
        simp only [Option.getD_some, hsame]
        split_ifs with hidentity hfree
        · exact .inl rfl
        · split
          · exact .inl rfl
          · exact .inl rfl
        · cases hresult : record.result with
          | some result => exact .inl rfl
          | none =>
            simp only [Bool.or_eq_true, not_or, Bool.not_eq_true, Option.isSome_eq_false_iff,
              Option.isNone_iff_eq_none] at hfree
            obtain ⟨howner, hquarantined⟩ := hfree
            dsimp only [Memory.put]
            by_cases hid : key = record.run.runId
            · subst hid
              refine .inr ⟨_, Function.update_self _ _ _, ?_⟩
              rw [hkeys _ _ hs, hs]
              have hmoves : Moves token run.runId (some record) _ :=
                .reserved record howner hquarantined hresult
              rw [hresult] at hmoves
              exact hmoves
            · exact .inl (Function.update_of_ne hid _ _)
  · exact .inl (by rw [if_pos (by simpa using hrun)])

theorem step_moves (s : Memory τ β) (token : τ) (call : Call τ β)
    (hkeys : ∀ key record, s key = some record → record.run.runId = key) (key : UUID) :
    (s.step accepts token call).1 key = s key ∨
    ∃ next, (s.step accepts token call).1 key = some next ∧ Moves token key (s key) next := by
  cases call with
  | acquire run initialBudget => exact acquire_moves s token run initialBudget hkeys key
  | assertActive owner =>
    refine onOwned_moves token (fun record next reply h => ?_) key
    split_ifs at h
    obtain ⟨rfl, -⟩ : record = next ∧ _ := by simpa using h
    exact legal_refl record
  | remaining owner =>
    refine onOwned_moves token (fun record next reply h => ?_) key
    cases hbudget : record.budget.revalidate with
    | error error => simp [hbudget, bind, Except.bind] at h
    | ok budget =>
      obtain ⟨rfl, -⟩ : record = next ∧ _ := by simpa [hbudget, bind, Except.bind] using h
      exact legal_refl record
  | checkpoint owner budget =>
    rw [Memory.step]
    cases hbudget : budget.revalidate with
    | error error => exact .inl rfl
    | ok budget' =>
      obtain ⟨rfl, hvalid⟩ := revalidate_ok hbudget
      refine onOwned_moves token (fun record next reply h => ?_) key
      cases hless : decreased record.budget budget' with
      | error error => simp [hless, bind, Except.bind] at h
      | ok _ =>
        obtain ⟨rfl, -⟩ : { record with budget := budget' } = next ∧ _ := by
          simpa [hless, bind, Except.bind] using h
        exact ⟨rfl, decreased_ok hless, fun _ => hvalid, id, .inl rfl,
          fun hnone result hresult => by simp [hnone] at hresult⟩
  | quarantine owner =>
    refine onOwned_moves token (fun record next reply h => ?_) key
    obtain ⟨rfl, -⟩ : { record with quarantined := true } = next ∧ _ := by simpa using h
    exact ⟨rfl, Budget.AtMost.refl _, id, fun _ => rfl, .inl rfl,
      fun hnone result hresult => by simp [hnone] at hresult⟩
  | release owner =>
    refine onOwned_moves token (fun record next reply h => ?_) key
    obtain ⟨rfl, -⟩ : { record with owner := none } = next ∧ _ := by simpa using h
    exact ⟨rfl, Budget.AtMost.refl _, id, id, .inr rfl,
      fun hnone result hresult => by simp [hnone] at hresult⟩
  | complete owner result =>
    rw [Memory.step]
    cases hresult : result.revalidate accepts with
    | error error => exact .inl rfl
    | ok result' =>
      refine onOwned_moves token (fun record next reply h => ?_) key
      by_cases hrefused : result'.run ≠ record.run ∨
          record.quarantined ∧ result'.termination.successful
      · simp [hrefused, bind, Except.bind] at h
      cases hless : decreased record.budget result'.finalBudget with
      | error error => simp [hrefused, hless, bind, Except.bind] at h
      | ok _ =>
        obtain ⟨rfl, -⟩ : RunRecord.mk record.run result'.finalBudget none record.quarantined
            (some result') = next ∧ _ := by
          simpa [hrefused, hless, bind, Except.bind] using h
        rw [not_or, not_not] at hrefused
        refine ⟨rfl, decreased_ok hless, fun _ => result_budget hresult, id, .inr rfl, ?_⟩
        intro _ stored hstored
        obtain rfl := Option.some.inj hstored
        exact ⟨hrefused.1, rfl, hrefused.2⟩
  | abandon owner =>
    refine onOwned_moves token (fun record next reply h => ?_) key
    obtain ⟨rfl, -⟩ : { record with quarantined := true, owner := none } = next ∧ _ := by
      simpa using h
    exact ⟨rfl, Budget.AtMost.refl _, id, fun _ => rfl, .inr rfl,
      fun hnone result hresult => by simp [hnone] at hresult⟩

/-- `n` tokens were drawn so far. -/
structure Kept (tokens : ℕ → τ) (n : ℕ) (key : UUID) (record : RunRecord τ β) : Prop where
  key : record.run.runId = key
  run : validRun record.run = true
  budget : record.budget.valid = true
  issued : ∀ token ∈ record.owner, ∃ k < n, token = tokens k
  completed : ∀ result ∈ record.result, result.run = record.run ∧ record.owner = none ∧
    ¬ (record.quarantined ∧ result.termination.successful)

/-- What no later step takes back. -/
structure Descends (record later : RunRecord τ β) : Prop where
  run : later.run = record.run
  budget : later.budget.AtMost record.budget
  quarantined : record.quarantined = true → later.quarantined = true
  result : record.result.isSome → later = record

omit [DecidableEq τ] in
theorem Moves.kept {tokens : ℕ → τ} {n : ℕ} {key : UUID} {old : Option (RunRecord τ β)}
    {next : RunRecord τ β} (h : Moves (tokens n) key old next)
    (hold : ∀ record ∈ old, Kept tokens n key record) : Kept tokens (n + 1) key next := by
  have hnew : ∀ token ∈ some (tokens n), ∃ k < n + 1, token = tokens k := by
    intro token htoken
    exact ⟨n, Nat.lt_succ_self n, (Option.some.inj htoken).symm⟩
  cases h with
  | opened run budget hkey hrun hbudget =>
    exact ⟨hkey, hrun, hbudget, hnew, fun result hresult => by simp at hresult⟩
  | reserved record hfree hquarantined hresult =>
    obtain ⟨hkey, hrun, hbudget, -, -⟩ := hold record rfl
    exact ⟨hkey, hrun, hbudget, hnew, fun result h => by simp [hresult] at h⟩
  | owned record next howner hresult hrun hbudget hvalid hquarantined hnext hcompleted =>
    have hrecord := hold record rfl
    refine ⟨by rw [hrun]; exact hrecord.key, by rw [hrun]; exact hrecord.run,
      hvalid hrecord.budget, ?_, ?_⟩
    · intro token htoken
      obtain hsame | hnone := hnext
      · obtain ⟨k, hk, rfl⟩ := hrecord.issued token (hsame ▸ htoken)
        exact ⟨k, by omega, rfl⟩
      · simp [hnone] at htoken
    · intro result h
      rw [hrun]
      exact hcompleted result h

omit [DecidableEq τ] in
theorem Moves.descends {token : τ} {key : UUID} {record next : RunRecord τ β}
    (h : Moves token key (some record) next) : Descends record next := by
  cases h with
  | reserved record hfree hquarantined hresult =>
    exact ⟨rfl, Budget.AtMost.refl _, fun h => h, fun h => by simp [hresult] at h⟩
  | owned record next howner hresult hrun hbudget hvalid hquarantined hnext hcompleted =>
    exact ⟨hrun, hbudget, hquarantined, fun h => by simp [hresult] at h⟩

omit [DecidableEq τ] in
theorem Descends.refl (record : RunRecord τ β) : Descends record record :=
  ⟨rfl, Budget.AtMost.refl _, fun h => h, fun _ => rfl⟩

omit [DecidableEq τ] in
theorem Descends.trans {a b c : RunRecord τ β} (hab : Descends a b) (hbc : Descends b c) :
    Descends a c where
  run := hbc.run.trans hab.run
  budget := hbc.budget.trans hab.budget
  quarantined h := hbc.quarantined (hab.quarantined h)
  result h := by
    have hb := hab.result h
    rw [hbc.result (by rw [hb]; exact h), hb]

/-- The record that a reservation owns is live and its own. -/
def Holds (s : Memory τ β) (owner : WorkflowRunReservation τ) : Prop :=
  ∃ record, s.owned owner = .ok record

theorem holds_iff {s : Memory τ β} {owner : WorkflowRunReservation τ} :
    Holds s owner ↔ ∃ record, s owner.run.runId = some record ∧ record.run = owner.run ∧
      record.owner = some owner.token ∧ record.result = none := by
  refine ⟨fun ⟨record, h⟩ => ⟨record, owned_ok h⟩, fun ⟨record, hs, hrun, howner, hresult⟩ => ?_⟩
  refine ⟨record, ?_⟩
  unfold Memory.owned
  rw [hs]
  simp [hrun, howner, hresult]

theorem holds_unique {s : Memory τ β} {a b : WorkflowRunReservation τ} (ha : Holds s a)
    (hb : Holds s b) (hrun : a.run.runId = b.run.runId) : a = b := by
  obtain ⟨record, hs, hrunA, htokenA, -⟩ := holds_iff.mp ha
  obtain ⟨record', hs', hrunB, htokenB, -⟩ := holds_iff.mp hb
  rw [hrun, hs'] at hs
  obtain rfl := Option.some.inj hs
  obtain ⟨run, token⟩ := a
  obtain ⟨run', token'⟩ := b
  obtain rfl : run = run' := hrunA.symm.trans hrunB
  obtain rfl : token = token' := Option.some.inj (htokenA.symm.trans htokenB)
  rfl

def Call.owner : Call τ β → Option (WorkflowRunReservation τ)
  | .acquire _ _ => none
  | .assertActive owner => some owner
  | .remaining owner => some owner
  | .checkpoint owner _ => some owner
  | .quarantine owner => some owner
  | .release owner => some owner
  | .complete owner _ => some owner
  | .abandon owner => some owner

theorem onOwned_stale {s : Memory τ β} {owner : WorkflowRunReservation τ} (h : ¬ Holds s owner)
    (body : RunRecord τ β → Except Rejection (RunRecord τ β × Reply τ β)) :
    ∃ error, s.onOwned owner body = (s, .error error) := by
  unfold Memory.onOwned
  cases howned : s.owned owner with
  | error error => exact ⟨error, rfl⟩
  | ok record => exact absurd ⟨record, howned⟩ h

theorem step_stale {s : Memory τ β} {owner : WorkflowRunReservation τ} (h : ¬ Holds s owner)
    (token : τ) {call : Call τ β} (hcall : call.owner = some owner) :
    ∃ error, s.step accepts token call = (s, .error error) := by
  cases call with
  | acquire run initialBudget => simp [Call.owner] at hcall
  | checkpoint holder budget =>
    obtain rfl : holder = owner := Option.some.inj hcall
    rw [Memory.step]
    cases budget.revalidate with
    | error error => exact ⟨error, rfl⟩
    | ok budget => exact onOwned_stale h _
  | complete holder result =>
    obtain rfl : holder = owner := Option.some.inj hcall
    rw [Memory.step]
    cases result.revalidate accepts with
    | error error => exact ⟨error, rfl⟩
    | ok result => exact onOwned_stale h _
  | assertActive holder =>
    obtain rfl : holder = owner := Option.some.inj hcall
    rw [Memory.step]
    exact onOwned_stale h _
  | remaining holder =>
    obtain rfl : holder = owner := Option.some.inj hcall
    rw [Memory.step]
    exact onOwned_stale h _
  | quarantine holder =>
    obtain rfl : holder = owner := Option.some.inj hcall
    rw [Memory.step]
    exact onOwned_stale h _
  | release holder =>
    obtain rfl : holder = owner := Option.some.inj hcall
    rw [Memory.step]
    exact onOwned_stale h _
  | abandon holder =>
    obtain rfl : holder = owner := Option.some.inj hcall
    rw [Memory.step]
    exact onOwned_stale h _

theorem acquire_quarantined {s : Memory τ β} {record : RunRecord τ β} {run : RunReference}
    (hs : s run.runId = some record) (hquarantined : record.quarantined = true) (token : τ)
    (initialBudget : Budget) (owner : WorkflowRunReservation τ) :
    (s.step accepts token (.acquire run initialBudget)).2 ≠ .ok (.reservation owner) := by
  rw [Memory.step, Memory.acquire]
  split_ifs
  · simp
  · cases initialBudget.revalidate with
    | error error => simp
    | ok budget =>
      simp only [hs, Option.getD_some, hquarantined, Bool.or_true, if_true]
      split_ifs
      · simp
      · split <;> simp

theorem acquire_replays {s : Memory τ β} {record : RunRecord τ β}
    {result : BoundedWorkflowResult β} (hs : s record.run.runId = some record)
    (hrun : validRun record.run = true) (hresult : record.result = some result) (token : τ)
    {initialBudget : Budget} (hbudget : initialBudget.valid = true) :
    s.step accepts token (.acquire record.run initialBudget) = (s, .ok (.replay result)) := by
  have hsame : Function.update s record.run.runId (some record) = s := by
    rw [← hs, Function.update_eq_self]
  rw [Memory.step, Memory.acquire, if_neg (by simp [hrun]), Budget.revalidate, if_pos hbudget]
  simp only [hs, Option.getD_some, hsame, hresult, ne_eq, not_true_eq_false, if_false]

end

section
variable {σ β : Type} [DecidableEq σ] (accepts : BoundedWorkflowResult β → Bool) {tokens : ℕ → σ}

def Sound (tokens : ℕ → σ) (n : ℕ) (s : Memory σ β) : Prop :=
  ∀ key record, s key = some record → Kept tokens n key record

theorem step_sound {n : ℕ} {s : Memory σ β} (hs : Sound tokens n s) (call : Call σ β) :
    Sound tokens (n + 1) (s.step accepts (tokens n) call).1 := by
  intro key record hrecord
  obtain hsame | ⟨next, hnext, hmoves⟩ :=
    step_moves accepts s (tokens n) call (fun key record h => (hs key record h).key) key
  · obtain ⟨hkey, hrun, hbudget, hissued, hcompleted⟩ := hs key record (hsame ▸ hrecord)
    refine ⟨hkey, hrun, hbudget, fun token htoken => ?_, hcompleted⟩
    obtain ⟨k, hk, rfl⟩ := hissued token htoken
    exact ⟨k, by omega, rfl⟩
  · obtain rfl : next = record := Option.some.inj (hnext.symm.trans hrecord)
    exact hmoves.kept fun old hold => hs key old hold

theorem play_sound {n : ℕ} {s : Memory σ β} (hs : Sound tokens n s) (calls : List (Call ℕ β)) :
    Sound tokens (n + calls.length) (s.play accepts tokens n calls) := by
  induction calls generalizing n s with
  | nil => exact hs
  | cons call calls ih =>
    have h := ih (step_sound accepts hs (call.issue tokens))
    rwa [Nat.add_assoc, Nat.add_comm 1] at h

theorem play_descends {n : ℕ} {s : Memory σ β} (hs : Sound tokens n s) (calls : List (Call ℕ β))
    {key : UUID} {record : RunRecord σ β} (hrecord : s key = some record) :
    ∃ later, s.play accepts tokens n calls key = some later ∧ Descends record later := by
  induction calls generalizing n s record with
  | nil => exact ⟨record, hrecord, Descends.refl record⟩
  | cons call calls ih =>
    obtain ⟨next, hnext, hdescends⟩ : ∃ next,
        (s.step accepts (tokens n) (call.issue tokens)).1 key = some next ∧ Descends record next := by
      obtain hsame | ⟨next, hnext, hmoves⟩ := step_moves accepts s (tokens n) (call.issue tokens)
        (fun key record h => (hs key record h).key) key
      · exact ⟨record, hsame.trans hrecord, Descends.refl record⟩
      · exact ⟨next, hnext, Moves.descends (hrecord ▸ hmoves)⟩
    obtain ⟨later, hlater, hrest⟩ := ih (step_sound accepts hs (call.issue tokens)) hnext
    exact ⟨later, hlater, hdescends.trans hrest⟩

theorem step_fenced (htokens : Function.Injective tokens) {n k : ℕ} {s : Memory σ β}
    (hs : Sound tokens n s) (hk : k < n) {run : RunReference} (call : Call σ β)
    (h : Holds (s.step accepts (tokens n) call).1 ⟨run, tokens k⟩) : Holds s ⟨run, tokens k⟩ := by
  obtain ⟨record, hrecord, hrun, howner, hresult⟩ := holds_iff.mp h
  have hold : ¬ some (tokens n) = some (tokens k) := by
    intro heq
    exact hk.ne' (htokens (Option.some.inj heq))
  obtain hsame | ⟨next, hnext, hmoves⟩ := step_moves accepts s (tokens n) call
    (fun key record h => (hs key record h).key) run.runId
  · exact holds_iff.mpr ⟨record, hsame ▸ hrecord, hrun, howner, hresult⟩
  obtain rfl : next = record := Option.some.inj (hnext.symm.trans hrecord)
  generalize hbefore : s run.runId = before at hmoves
  cases hmoves with
  | opened run' budget hkey hvalid hbudget => exact absurd howner hold
  | reserved stored hfree hquarantined hnone => exact absurd howner hold
  | owned stored next howned hnone hsame hbudget hvalid hquarantined hnext' hcompleted =>
    obtain hkept | hreleased := hnext'
    · exact holds_iff.mpr ⟨stored, hbefore, hsame.symm.trans hrun, hkept.symm.trans howner, hnone⟩
    · simp [hreleased] at howner

theorem play_fenced (htokens : Function.Injective tokens) {n k : ℕ} {s : Memory σ β}
    (hs : Sound tokens n s) (hk : k < n) {run : RunReference} (calls : List (Call ℕ β))
    (h : ¬ Holds s ⟨run, tokens k⟩) : ¬ Holds (s.play accepts tokens n calls) ⟨run, tokens k⟩ := by
  induction calls generalizing n s with
  | nil => exact h
  | cons call calls ih =>
    exact ih (step_sound accepts hs (call.issue tokens)) (by omega)
      fun hlater => h (step_fenced accepts htokens hs hk _ hlater)

variable (tokens) in
theorem play_append {n : ℕ} {s : Memory σ β} (calls later : List (Call ℕ β)) :
    s.play accepts tokens n (calls ++ later) =
      (s.play accepts tokens n calls).play accepts tokens (n + calls.length) later := by
  induction calls generalizing n s with
  | nil => rfl
  | cons call calls ih =>
    have h := ih (n := n + 1) (s := (s.step accepts (tokens n) (call.issue tokens)).1)
    rwa [Nat.add_assoc, Nat.add_comm 1] at h

end

section
variable {σ β : Type} (ours theirs : ℕ → σ)

/-- A record and a row that hold the same, up to the tokens of one draw. -/
structure Mirrors (record : RunRecord σ β) (row : Row σ β) : Prop where
  run : row.runJson = record.run
  budget : row.budgetJson = record.budget
  quarantined : row.quarantined ≠ 0 ↔ record.quarantined = true
  result : row.resultJson = record.result
  owner : ∃ draw : Option ℕ, record.owner = draw.map ours ∧ row.ownerToken = draw.map theirs

def Agree (s : Memory σ β) (t : Table σ β) : Prop :=
  ∀ key, Option.Rel (Mirrors ours theirs) (s key) (t key)

/-- Both raise, or both return the same up to the tokens. -/
def SameReply : Except Rejection (Reply σ β) → Except Rejection (Reply σ β) → Prop
  | .error _, .error _ => True
  | .ok mine, .ok other => ∃ reply : Reply ℕ β, mine = reply.issue ours ∧ other = reply.issue theirs
  | _, _ => False

def Lockstep (mine : Memory.Outcome σ β) (other : Table σ β × Except Rejection (Reply σ β)) : Prop :=
  Agree ours theirs mine.1 other.1 ∧ SameReply ours theirs mine.2 other.2

variable {ours theirs}

theorem lockstep_error {s : Memory σ β} {t : Table σ β} (h : Agree ours theirs s t)
    (mine other : Rejection) : Lockstep ours theirs (s, .error mine) (t, .error other) :=
  ⟨h, trivial⟩

theorem agree_none {s : Memory σ β} {t : Table σ β} (h : Agree ours theirs s t) {key : UUID}
    (hs : s key = none) : t key = none := by
  have hkey := h key
  rw [hs] at hkey
  generalize t key = row at hkey
  cases hkey
  rfl

theorem agree_some {s : Memory σ β} {t : Table σ β} (h : Agree ours theirs s t) {key : UUID}
    {record : RunRecord σ β} (hs : s key = some record) :
    ∃ row, t key = some row ∧ Mirrors ours theirs record row := by
  have hkey := h key
  rw [hs] at hkey
  generalize t key = row at hkey ⊢
  cases hkey with
  | some hrow => exact ⟨_, rfl, hrow⟩

theorem agree_update {s : Memory σ β} {t : Table σ β} (h : Agree ours theirs s t) (key : UUID)
    {record : RunRecord σ β} {row : Row σ β} (hrow : Mirrors ours theirs record row) :
    Agree ours theirs (Function.update s key (some record)) (Function.update t key (some row)) := by
  intro key'
  by_cases hkey : key' = key
  · subst hkey
    rw [Function.update_self, Function.update_self]
    exact .some hrow
  · rw [Function.update_of_ne hkey, Function.update_of_ne hkey]
    exact h key'

theorem mirrors_owner (hours : Function.Injective ours) (htheirs : Function.Injective theirs)
    {record : RunRecord σ β} {row : Row σ β} (h : Mirrors ours theirs record row) (k : ℕ) :
    row.ownerToken = some (theirs k) ↔ record.owner = some (ours k) := by
  obtain ⟨draw, hmine, hother⟩ := h.owner
  rw [hmine, hother]
  cases draw with
  | none => simp
  | some draw => simp [hours.eq_iff, htheirs.eq_iff]

theorem mirrors_free {record : RunRecord σ β} {row : Row σ β} (h : Mirrors ours theirs record row) :
    row.ownerToken.isSome = record.owner.isSome := by
  obtain ⟨draw, hmine, hother⟩ := h.owner
  rw [hmine, hother]
  cases draw <;> rfl

variable [DecidableEq σ]

theorem owned_lockstep (hours : Function.Injective ours) (htheirs : Function.Injective theirs)
    {s : Memory σ β} {t : Table σ β} (h : Agree ours theirs s t) (owner : WorkflowRunReservation ℕ) :
    (∃ mine other, s.owned (owner.issue ours) = .error mine ∧
      t.owned (owner.issue theirs) = .error other) ∨
    ∃ record row, s.owned (owner.issue ours) = .ok record ∧ t.owned (owner.issue theirs) = .ok row ∧
      t owner.run.runId = some row ∧ record.run = owner.run ∧ Mirrors ours theirs record row := by
  unfold Memory.owned Table.owned
  simp only [WorkflowRunReservation.issue]
  cases hs : s owner.run.runId with
  | none => exact .inl ⟨.stale, .unknownOwner, rfl, by rw [agree_none h hs]⟩
  | some record =>
    obtain ⟨row, ht, hrow⟩ := agree_some h hs
    rw [ht]
    dsimp only
    by_cases hrun : record.run = owner.run
    · have hsame : sameRun row owner.run = .ok () := by rw [sameRun, hrow.run, if_neg (not_not.mpr hrun)]
      rw [hsame]
      by_cases hlive : record.owner = some (ours owner.token) ∧ record.result = none
      · refine .inr ⟨record, row, ?_, ?_, rfl, hrun, hrow⟩
        · simp [hrun, hlive.1, hlive.2]
        · have htoken := (mirrors_owner hours htheirs hrow owner.token).mpr hlive.1
          simp [htoken, hrow.result, hlive.2, bind, Except.bind]
      · have hmine : record.run ≠ owner.run ∨ record.owner ≠ some (ours owner.token) ∨
            record.result.isSome = true := by
          by_contra hcontra
          simp only [not_or, not_not, Option.isSome_iff_ne_none] at hcontra
          exact hlive hcontra.2
        have hother : row.ownerToken ≠ some (theirs owner.token) ∨ row.resultJson.isSome = true := by
          by_contra hcontra
          simp only [not_or, not_not, Option.isSome_iff_ne_none] at hcontra
          exact hlive ⟨(mirrors_owner hours htheirs hrow owner.token).mp hcontra.1,
            hrow.result ▸ hcontra.2⟩
        exact .inl ⟨.stale, .stale, if_pos hmine, if_pos hother⟩
    · refine .inl ⟨.stale, .identityConflict, if_pos (.inl hrun), ?_⟩
      rw [sameRun, hrow.run, if_pos hrun]
      rfl

theorem onOwned_lockstep (hours : Function.Injective ours) (htheirs : Function.Injective theirs)
    {s : Memory σ β} {t : Table σ β} (h : Agree ours theirs s t) (owner : WorkflowRunReservation ℕ)
    {body : RunRecord σ β → Except Rejection (RunRecord σ β × Reply σ β)}
    {rest : Row σ β → Except Rejection (Table σ β × Reply σ β)}
    (hbody : ∀ record row, t owner.run.runId = some row → record.run = owner.run →
      Mirrors ours theirs record row →
      (∃ mine other, body record = .error mine ∧ rest row = .error other) ∨
      ∃ (next : RunRecord σ β) (after : Row σ β) (reply : Reply ℕ β),
        body record = .ok (next, reply.issue ours) ∧ next.run = owner.run ∧
        rest row = .ok (Function.update t owner.run.runId (some after), reply.issue theirs) ∧
        Mirrors ours theirs next after) :
    Lockstep ours theirs (s.onOwned (owner.issue ours) body)
      (transaction t (t.owned (owner.issue theirs) >>= rest)) := by
  unfold Memory.onOwned
  obtain ⟨mine, other, hmine, hother⟩ | ⟨record, row, hmine, hother, hrow, hrun, hmirrors⟩ :=
    owned_lockstep hours htheirs h owner
  · rw [hmine, hother]
    exact lockstep_error h mine other
  rw [hmine, hother]
  obtain ⟨mine, other, hmine, hother⟩ | ⟨next, after, reply, hmine, hsame, hother, hnext⟩ :=
    hbody record row hrow hrun hmirrors
  · simp only [hmine, hother, bind, Except.bind]
    exact lockstep_error h mine other
  · simp only [hmine, hother, bind, Except.bind, transaction]
    refine ⟨?_, reply, rfl, rfl⟩
    rw [Memory.put, hsame]
    exact agree_update h _ hnext

omit [DecidableEq σ] in
theorem modify_row {t : Table σ β} {run : RunReference} {row : Row σ β}
    (h : t run.runId = some row) (change : Row σ β → Row σ β) :
    t.modify run change = Function.update t run.runId (some (change row)) := by
  rw [Table.modify, h, Option.map_some]

omit [DecidableEq σ] in
theorem update_row {t : Table σ β} {key : UUID} {row : Row σ β} (h : t key = some row) :
    t = Function.update t key (some row) := by
  rw [← h, Function.update_eq_self]

omit [DecidableEq σ] in
theorem refused_iff {record : RunRecord σ β} {row : Row σ β} (h : Mirrors ours theirs record row)
    {run : RunReference} (hrun : record.run = run) (result : BoundedWorkflowResult β) :
    (result.run ≠ run ∨ row.quarantined ≠ 0 ∧ result.termination.successful = true) ↔
    (result.run ≠ record.run ∨ record.quarantined = true ∧ result.termination.successful = true) := by
  rw [hrun, h.quarantined]

omit [DecidableEq σ] in
theorem acquire_lockstep {tokens : ℕ → σ} {n m : ℕ} {s : Memory σ β} {t : Table σ β}
    (h : Agree ours theirs s t) (hs : Sound tokens m s) (run : RunReference)
    (initialBudget : Budget) :
    Lockstep ours theirs (s.acquire (ours n) run initialBudget)
      (transaction t (t.acquire (theirs n) run initialBudget)) := by
  unfold Memory.acquire Table.acquire
  by_cases hrun : validRun run = true
  swap
  · rw [if_pos (by simpa using hrun), if_pos (by simpa using hrun)]
    exact lockstep_error h .invalid .invalid
  rw [if_neg (by simp [hrun]), if_neg (by simp [hrun])]
  cases initialBudget.revalidate with
  | error error => exact lockstep_error h error error
  | ok budget =>
    simp only [bind, Except.bind, Table.insert]
    cases hrecord : s run.runId with
    | none =>
      have hrow := agree_none h hrecord
      have hfree : Mirrors ours theirs { run := run, budget := budget, owner := some (ours n) }
          ({ runJson := run, budgetJson := budget, ownerToken := some (theirs n),
             reservationToken := some (theirs n) } : Row σ β) :=
        ⟨rfl, rfl, by simp, rfl, some n, rfl, rfl⟩
      simp only [hrow, Option.getD_none, Function.update_self, sameRun, ne_eq, not_true_eq_false,
        if_false, Option.isSome_none, Bool.or_self, decide_false, Bool.false_eq_true, Memory.put]
      refine ⟨?_, .reservation ⟨run, n⟩, rfl, rfl⟩
      rw [modify_row (Function.update_self _ _ _), Function.update_idem, Function.update_idem]
      exact agree_update h run.runId hfree
    | some record =>
      obtain ⟨row, hrow, hmirrors⟩ := agree_some h hrecord
      have hkept := hs _ record hrecord
      simp only [hrow, Option.getD_some, ← update_row hrow, sameRun, hmirrors.run, hmirrors.result]
      have hsame : Function.update s run.runId (some record) = s := by
        rw [← hrecord, Function.update_eq_self]
      rw [hsame]
      by_cases hidentity : record.run = run
      swap
      · rw [if_pos hidentity, if_pos hidentity]
        exact lockstep_error h .identityConflict .identityConflict
      rw [if_neg (not_not.mpr hidentity), if_neg (not_not.mpr hidentity)]
      cases hresult : record.result with
      | some result =>
        obtain ⟨hsame, -, hquarantined⟩ := hkept.completed result hresult
        have hallowed : ¬ (result.run ≠ run ∨
            row.quarantined ≠ 0 ∧ result.termination.successful = true) := by
          rw [refused_iff hmirrors hidentity, not_or, not_not]
          exact ⟨hsame, hquarantined⟩
        dsimp only
        rw [if_neg hallowed]
        exact ⟨h, .replay result, rfl, rfl⟩
      | none =>
        have hbusy : (row.ownerToken.isSome || decide (row.quarantined ≠ 0)) =
            (record.owner.isSome || record.quarantined) := by
          rw [mirrors_free hmirrors, Bool.eq_iff_iff]
          simp [hmirrors.quarantined]
        dsimp only
        rw [hbusy]
        cases hfree : record.owner.isSome || record.quarantined with
        | true => exact lockstep_error h .reserved .reserved
        | false =>
          simp only [Bool.false_eq_true, if_false, transaction]
          refine ⟨?_, .reservation ⟨run, n⟩, rfl, rfl⟩
          rw [modify_row hrow, Memory.put, hidentity]
          refine agree_update h run.runId ⟨hmirrors.run.trans hidentity, hmirrors.budget,
            hmirrors.quarantined, ?_, some n, rfl, rfl⟩
          exact hmirrors.result.trans hresult

theorem step_lockstep (accepts : BoundedWorkflowResult β → Bool)
    (hours : Function.Injective ours) (htheirs : Function.Injective theirs) {tokens : ℕ → σ}
    {n m : ℕ} {s : Memory σ β} {t : Table σ β} (h : Agree ours theirs s t) (hs : Sound tokens m s)
    (call : Call ℕ β) :
    Lockstep ours theirs (s.step accepts (ours n) (call.issue ours))
      (t.step accepts (theirs n) (call.issue theirs)) := by
  cases call with
  | acquire run initialBudget => exact acquire_lockstep h hs run initialBudget
  | assertActive owner =>
    refine onOwned_lockstep hours htheirs h owner fun record row hrow hrun hmirrors => ?_
    by_cases hquarantined : record.quarantined = true
    · refine .inl ⟨.quarantined, .quarantined, if_pos hquarantined, ?_⟩
      exact if_pos (hmirrors.quarantined.mpr hquarantined)
    · refine .inr ⟨record, row, .done, if_neg hquarantined, hrun, ?_, hmirrors⟩
      rw [if_neg (mt hmirrors.quarantined.mp hquarantined), ← update_row hrow]
      rfl
  | remaining owner =>
    refine onOwned_lockstep hours htheirs h owner fun record row hrow hrun hmirrors => ?_
    rw [hmirrors.budget]
    cases hbudget : record.budget.revalidate with
    | error error => exact .inl ⟨error, error, rfl, rfl⟩
    | ok budget =>
      refine .inr ⟨record, row, .budget budget, rfl, hrun, ?_, hmirrors⟩
      rw [← update_row hrow]
      rfl
  | checkpoint owner budget =>
    simp only [Call.issue, Memory.step, Table.step]
    cases hbudget : budget.revalidate with
    | error error =>
      cases hother : t.owned (owner.issue theirs) with
      | error other => exact lockstep_error h error other
      | ok row =>
        have hrefused : row.decreased budget = .error error := by rw [Row.decreased, hbudget]; rfl
        simp only [bind, Except.bind, hrefused]
        exact lockstep_error h error error
    | ok budget' =>
      refine onOwned_lockstep hours htheirs h owner fun record row hrow hrun hmirrors => ?_
      simp only [Row.decreased, hbudget, hmirrors.budget, bind, Except.bind]
      cases hless : decreased record.budget budget' with
      | error error => exact .inl ⟨error, error, rfl, rfl⟩
      | ok _ =>
        refine .inr ⟨{ record with budget := budget' }, { row with budgetJson := budget' }, .done, rfl,
          hrun, ?_, ⟨hmirrors.run, rfl, hmirrors.quarantined, hmirrors.result, hmirrors.owner⟩⟩
        exact congrArg (fun t => Except.ok (t, Reply.done)) (modify_row hrow _)
  | quarantine owner =>
    refine onOwned_lockstep hours htheirs h owner fun record row hrow hrun hmirrors => ?_
    refine .inr ⟨{ record with quarantined := true }, { row with quarantined := 1 }, .done, rfl,
      hrun, ?_, ⟨hmirrors.run, hmirrors.budget, by simp, hmirrors.result, hmirrors.owner⟩⟩
    exact congrArg (fun t => Except.ok (t, Reply.done)) (modify_row hrow _)
  | release owner =>
    refine onOwned_lockstep hours htheirs h owner fun record row hrow hrun hmirrors => ?_
    refine .inr ⟨{ record with owner := none }, { row with ownerToken := none }, .done, rfl,
      hrun, ?_, ⟨hmirrors.run, hmirrors.budget, hmirrors.quarantined, hmirrors.result, none, rfl, rfl⟩⟩
    exact congrArg (fun t => Except.ok (t, Reply.done)) (modify_row hrow _)
  | complete owner result =>
    simp only [Call.issue, Memory.step, Table.step]
    cases hresult : result.revalidate accepts with
    | error error => exact lockstep_error h error error
    | ok checked =>
      have hbudget : checked.finalBudget.revalidate = .ok checked.finalBudget :=
        if_pos (result_budget hresult)
      refine onOwned_lockstep hours htheirs h owner fun record row hrow hrun hmirrors => ?_
      have hiff : (checked.run ≠ (owner.issue theirs).run ∨
          row.quarantined ≠ 0 ∧ checked.termination.successful = true) ↔
          (checked.run ≠ record.run ∨
            record.quarantined = true ∧ checked.termination.successful = true) :=
        refused_iff hmirrors hrun checked
      by_cases hrefused : checked.run ≠ record.run ∨
          record.quarantined = true ∧ checked.termination.successful = true
      · refine .inl ⟨.cannotComplete, .cannotComplete, ?_, ?_⟩
        · rw [if_pos hrefused]
          rfl
        · rw [if_pos (hiff.mpr hrefused)]
          rfl
      · simp only [if_neg hrefused, if_neg (mt hiff.mp hrefused), Row.decreased, hbudget,
          hmirrors.budget, bind, Except.bind]
        cases hless : decreased record.budget checked.finalBudget with
        | error error => exact .inl ⟨error, error, rfl, rfl⟩
        | ok _ =>
          refine .inr ⟨RunRecord.mk record.run checked.finalBudget none record.quarantined (some checked),
            { row with budgetJson := checked.finalBudget, resultJson := some checked, ownerToken := none },
            .done, rfl, hrun, ?_, ⟨hmirrors.run, rfl, hmirrors.quarantined, rfl, none, rfl, rfl⟩⟩
          exact congrArg (fun t => Except.ok (t, Reply.done)) (modify_row hrow _)
  | abandon owner =>
    refine onOwned_lockstep hours htheirs h owner fun record row hrow hrun hmirrors => ?_
    refine .inr ⟨{ record with quarantined := true, owner := none },
      { row with quarantined := 1, ownerToken := none }, .done, rfl,
      hrun, ?_, ⟨hmirrors.run, hmirrors.budget, by simp, hmirrors.result, none, rfl, rfl⟩⟩
    exact congrArg (fun t => Except.ok (t, Reply.done)) (modify_row hrow _)

theorem replies_lockstep (accepts : BoundedWorkflowResult β → Bool)
    (hours : Function.Injective ours) (htheirs : Function.Injective theirs) {n : ℕ}
    {s : Memory σ β} {t : Table σ β} (h : Agree ours theirs s t) (hs : Sound ours n s)
    (calls : List (Call ℕ β)) :
    List.Forall₂ (SameReply ours theirs) (s.replies accepts ours n calls)
      (t.replies accepts theirs n calls) ∧
    Agree ours theirs (s.play accepts ours n calls) (t.play accepts theirs n calls) := by
  induction calls generalizing n s t with
  | nil => exact ⟨.nil, h⟩
  | cons call calls ih =>
    obtain ⟨hagree, hreply⟩ := step_lockstep accepts hours htheirs (n := n) h hs call
    obtain ⟨hreplies, hlast⟩ := ih hagree (step_sound accepts hs (call.issue ours))
    exact ⟨.cons hreply hreplies, hlast⟩

end

theorem sound_empty {σ β : Type} (tokens : ℕ → σ) :
    Sound tokens 0 fun _ => (none : Option (RunRecord σ β)) :=
  fun _ _ h => by simp at h

/-- After any calls and any later ones: one valid reservation for a run, stale ones refused
and never valid again, budgets that only fall, a quarantine that lasts and admits nothing, a
stored result that stays and is replayed; and the durable ledger answered every call alike. -/
theorem ledgers_fenced_and_alike {β : Type} (accepts : BoundedWorkflowResult β → Bool)
    {ours theirs : ℕ → UUID} (hours : Function.Injective ours) (htheirs : Function.Injective theirs)
    (calls later : List (Call ℕ β)) :
    let s := Memory.play accepts ours 0 (fun _ => none) calls
    let t := Memory.play accepts ours 0 (fun _ => none) (calls ++ later)
    (∀ a b, Holds s a → Holds s b → a.run.runId = b.run.runId → a = b) ∧
    (∀ owner call token, ¬ Holds s owner → call.owner = some owner →
      ∃ error, s.step accepts token call = (s, .error error)) ∧
    (∀ run k, Holds s ⟨run, ours k⟩ → ¬ Holds t ⟨run, ours k⟩ → ∀ more,
      ¬ Holds (Memory.play accepts ours 0 (fun _ => none) (calls ++ later ++ more)) ⟨run, ours k⟩) ∧
    (∀ key record, s key = some record → ∃ last, t key = some last ∧ Descends record last ∧
      (record.quarantined = true →
        (∀ result ∈ last.result, result.termination.successful = false) ∧
        ∀ token run budget owner, run.runId = key →
          (t.step accepts token (.acquire run budget)).2 ≠ .ok (.reservation owner)) ∧
      (∀ result ∈ record.result, ∀ token budget, budget.valid = true →
        t.step accepts token (.acquire record.run budget) = (t, .ok (.replay result)))) ∧
    List.Forall₂ (SameReply ours theirs) (Memory.replies accepts ours 0 (fun _ => none) calls)
      (Table.replies accepts theirs 0 (fun _ => none) calls) ∧
    Agree ours theirs s (Table.play accepts theirs 0 (fun _ => none) calls) := by
  intro s t
  have hs : Sound ours calls.length s := by
    have h := play_sound accepts (sound_empty ours) calls
    rwa [Nat.zero_add] at h
  have hsplit : t = s.play accepts ours calls.length later := by
    have h := play_append accepts ours (n := 0) (s := fun _ => none) calls later
    rwa [Nat.zero_add] at h
  have ht : Sound ours (calls ++ later).length t := by
    rw [hsplit, List.length_append]
    exact play_sound accepts hs later
  have halike := replies_lockstep accepts hours htheirs (n := 0) (s := fun _ => none)
    (t := fun _ => none) (fun _ => .none) (sound_empty ours) calls
  refine ⟨fun a b => holds_unique, fun owner call token h hcall => step_stale accepts h token hcall,
    ?_, ?_, halike⟩
  · intro run k hheld hlost more
    have hk : k < (calls ++ later).length := by
      obtain ⟨record, hrecord, -, howner, -⟩ := holds_iff.mp hheld
      obtain ⟨k', hk', heq⟩ := (hs _ record hrecord).issued (ours k) howner
      rw [hours heq, List.length_append]
      omega
    have hmore := play_append accepts ours (n := 0) (s := fun _ => none)
      (calls ++ later) more
    rw [Nat.zero_add] at hmore
    rw [hmore]
    exact play_fenced accepts hours ht hk more hlost
  · intro key record hrecord
    obtain ⟨last, hlast, hdescends⟩ := play_descends accepts hs later hrecord
    rw [← hsplit] at hlast
    have hkept := ht key last hlast
    refine ⟨last, hlast, hdescends, fun hquarantined => ⟨?_, ?_⟩, ?_⟩
    · intro result hresult
      have hnot := (hkept.completed result hresult).2.2
      simpa [hdescends.quarantined hquarantined] using hnot
    · intro token run budget owner hkey
      subst hkey
      exact acquire_quarantined accepts hlast (hdescends.quarantined hquarantined) token budget owner
    · intro result hresult token budget hbudget
      have hsame : last = record := hdescends.result (by rw [Option.mem_def.mp hresult]; rfl)
      subst hsame
      exact acquire_replays accepts (by rw [hkept.key]; exact hlast) hkept.run hresult token hbudget

theorem sampleRevision_text : opaqueText "revision-1" = true := by decide

def sampleRun : RunReference where
  runId := ⟨1⟩
  revision := ⟨⟨"case-1", sampleCase_text⟩, ⟨"revision-1", sampleRevision_text⟩,
    ⟨String.ofList (List.replicate 64 'b'), by decide +kernel⟩⟩

/-- Acquired, released and acquired again; the first reservation is then stale. -/
def sampleCalls : List (Call ℕ Unit) :=
  [.acquire sampleRun ⟨5, 5, 1, none⟩, .release ⟨sampleRun, 0⟩, .acquire sampleRun ⟨9, 9, 9, none⟩]

def drawn (first n : ℕ) : UUID := ⟨first + n⟩

theorem drawn_injective (first : ℕ) : Function.Injective (drawn first) := by
  intro a b h
  simpa [drawn] using h

theorem ledgers_fenced_and_alike_sample :
    List.Forall₂ (SameReply (drawn 0) (drawn 100))
      (Memory.replies (fun _ => true) (drawn 0) 0 (fun _ => none) sampleCalls)
      (Table.replies (fun _ => true) (drawn 100) 0 (fun _ => none) sampleCalls) :=
  (ledgers_fenced_and_alike (fun _ => true) (drawn_injective 0) (drawn_injective 100)
    sampleCalls []).2.2.2.2.1

end AppraisalReview.RunLedger
