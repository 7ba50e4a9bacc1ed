import AppraisalReview.ExtractionBudget
import Mathlib.Tactic.Linarith

set_option autoImplicit false

/-!
# Limits of the extraction calls

The counters of the ledger follow the calls one by one, whoever settles, finishes
or outlives them. A stop is never taken back, and bars every worker that has not
yet read the ledger in its dispatch check.
-/
namespace AppraisalReview.Extraction
open ModelDispatch (Guard Probe)

section
variable {ρ π : Type}

def CallPhase.isOpen : CallPhase ρ → Bool
  | .finished _ => false
  | _ => true

def openCalls (calls : List (Call ρ)) : ℕ := calls.countP fun call => call.phase.isOpen

theorem openCalls_modify {calls : List (Call ρ)} {k : ℕ} {call : Call ρ}
    (change : Call ρ → Call ρ) (hk : calls[k]? = some call) :
    openCalls (calls.modify k change) + (if call.phase.isOpen then 1 else 0) =
      openCalls calls + (if (change call).phase.isOpen then 1 else 0) := by
  induction calls generalizing k with
  | nil => simp at hk
  | cons head tail ih =>
    cases k with
    | zero =>
      obtain rfl : head = call := by simpa using hk
      simp only [List.modify_zero_cons, openCalls, List.countP_cons]
      omega
    | succ k =>
      have htail := ih (k := k) (by simpa using hk)
      simp only [List.modify_succ_cons, openCalls, List.countP_cons] at htail ⊢
      omega

theorem openCalls_kept {calls : List (Call ρ)} {k : ℕ} (change : Call ρ → Call ρ)
    (h : ∀ call, calls[k]? = some call → (change call).phase.isOpen = call.phase.isOpen) :
    openCalls (calls.modify k change) = openCalls calls := by
  cases hk : calls[k]? with
  | none => rw [List.modify_eq_self (List.getElem?_eq_none_iff.mp hk)]
  | some call =>
    have hcount := openCalls_modify change hk
    rw [h call hk] at hcount
    omega

/-- The counters of the ledger are those of the calls, within the limits. -/
structure Metered (limits : ExecutionBudget) (ledger : Ledger) (calls : List (Call ρ)) : Prop where
  pinned : ledger.limits = limits
  counted : ledger.calls = calls.length
  capped : ledger.calls ≤ limits.maxCalls
  flight : ledger.inFlight = openCalls calls
  concurrency : ledger.inFlight ≤ limits.maxConcurrency
  tokens : ledger.reservedOutputTokens ≤ limits.maxOutputTokens ∨ ledger.stopped = true

variable {limits : ExecutionBudget} {ledger : Ledger} {calls : List (Call ρ)}

theorem Metered.modified (h : Metered limits ledger calls) {k : ℕ} (change : Call ρ → Call ρ)
    (hopen : ∀ call, calls[k]? = some call → (change call).phase.isOpen = call.phase.isOpen) :
    Metered limits ledger (calls.modify k change) where
  pinned := h.pinned
  counted := by rw [List.length_modify]; exact h.counted
  capped := h.capped
  flight := by rw [openCalls_kept change hopen]; exact h.flight
  concurrency := h.concurrency
  tokens := h.tokens

theorem Metered.stop (h : Metered limits ledger calls) : Metered limits ledger.stop calls :=
  ⟨h.pinned, h.counted, h.capped, h.flight, h.concurrency, .inr rfl⟩

theorem Metered.settled (h : Metered limits ledger calls) (tokens : Int) (observed : Option Int) :
    Metered limits (ledger.settleTokens tokens observed) calls := by
  cases observed with
  | none => exact h
  | some observed =>
    refine ⟨h.pinned, h.counted, h.capped, h.flight, h.concurrency, ?_⟩
    simp only [Ledger.settleTokens, h.pinned, Bool.or_eq_true, decide_eq_true_eq]
    omega

theorem reserveCall_ok {tokens : Int} {now : ℚ} {next : Ledger}
    (h : ledger.reserveCall tokens now = .ok next) :
    ledger.stopped = false ∧ ledger.calls < ledger.limits.maxCalls ∧
      ledger.inFlight < ledger.limits.maxConcurrency ∧
      ledger.reservedOutputTokens + tokens ≤ ledger.limits.maxOutputTokens ∧
      next = { ledger with
        calls := ledger.calls + 1
        inFlight := ledger.inFlight + 1
        reservedOutputTokens := ledger.reservedOutputTokens + tokens } := by
  unfold Ledger.reserveCall at h
  split at h
  · simp at h
  · next hadmitted =>
    simp only [Bool.or_eq_true, not_or, decide_eq_true_eq, not_le, not_lt,
      Bool.not_eq_true] at hadmitted
    obtain ⟨⟨⟨⟨⟨-, hstopped⟩, -⟩, hcalls⟩, hflight⟩, htokens⟩ := hadmitted
    exact ⟨hstopped, hcalls, hflight, htokens, (Except.ok.inj h).symm⟩

theorem Metered.reserved (h : Metered limits ledger calls) {tokens : Int} {now : ℚ} {next : Ledger}
    (hnext : ledger.reserveCall tokens now = .ok next) (guard : Guard ℚ) :
    Metered limits next (calls ++ [{ guard := guard }]) := by
  obtain ⟨-, hcalls, hflight, htokens, rfl⟩ := reserveCall_ok hnext
  rw [h.pinned] at hcalls hflight htokens
  have hopen : openCalls (calls ++ [{ guard := guard }]) = openCalls calls + 1 := by
    simp [openCalls, CallPhase.isOpen]
  refine ⟨h.pinned, ?_, hcalls, ?_, hflight, .inl htokens⟩
  · simp [h.counted]
  · simp [hopen, h.flight]

theorem metered_page (h : Metered limits ledger calls) (binding : String) (now : ℚ) :
    Metered limits (ledger.beginPage binding now).1 calls := by
  unfold Ledger.beginPage
  split
  · exact h
  · dsimp only
    split <;> split <;> exact ⟨h.pinned, h.counted, h.capped, h.flight, h.concurrency, h.tokens⟩

theorem page_stopped (binding : String) (now : ℚ) :
    (ledger.beginPage binding now).1.stopped = ledger.stopped := by
  unfold Ledger.beginPage
  split
  · rfl
  · dsimp only
    split <;> split <;> rfl

theorem settle_stopped (tokens : Int) (observed : Option Int) (h : ledger.stopped = true) :
    (ledger.settleTokens tokens observed).stopped = true := by
  cases observed with
  | none => exact h
  | some observed => simp [Ledger.settleTokens, h]

variable (ledger) in
/-- Only the last action of a worker touches the ledger: it gives its slot back. -/
theorem work_cases (call : Call ρ) (answer : Answer ρ) :
    ((call.work answer ledger).2 = ledger ∧
      (call.work answer ledger).1.isOpen = call.phase.isOpen) ∨
    ((call.work answer ledger).2 = ledger.finishedCall ∧
      (call.work answer ledger).1.isOpen = false ∧ call.phase.isOpen = true) := by
  unfold Call.work
  cases hphase : call.phase with
  | reserved => exact .inl ⟨rfl, rfl⟩
  | queued => dsimp only; split <;> exact .inl ⟨rfl, rfl⟩
  | probing probe =>
    dsimp only
    split
    · exact .inl ⟨rfl, rfl⟩
    · split
      · split <;> exact .inl ⟨rfl, rfl⟩
      · exact .inl ⟨rfl, rfl⟩
  | cleared => dsimp only; split <;> exact .inl ⟨rfl, rfl⟩
  | sending => dsimp only; split <;> exact .inl ⟨rfl, rfl⟩
  | closing reply => exact .inr ⟨rfl, rfl, rfl⟩
  | finished reply => exact .inl ⟨rfl, rfl⟩

theorem Metered.worked (h : Metered limits ledger calls) {k : ℕ} {call : Call ρ}
    (hk : calls[k]? = some call) (answer : Answer ρ) :
    Metered limits (call.work answer ledger).2 (setPhase calls k (call.work answer ledger).1) := by
  obtain ⟨hledger, hopen⟩ | ⟨hledger, hclosed, hopen⟩ := work_cases ledger call answer
  · rw [hledger]
    refine h.modified _ fun other hother => ?_
    obtain rfl : call = other := Option.some.inj (hk.symm.trans hother)
    exact hopen
  · rw [hledger]
    have hcount := openCalls_modify
      (fun other => { other with phase := (call.work answer ledger).1 }) hk
    simp only [hopen, hclosed, if_true, Bool.false_eq_true, if_false] at hcount
    have hflight := h.flight
    have hconcurrency := h.concurrency
    refine ⟨h.pinned, by rw [setPhase, List.length_modify]; exact h.counted, h.capped, ?_, ?_, h.tokens⟩
    · simp only [Ledger.finishedCall, setPhase]
      omega
    · simp only [Ledger.finishedCall]
      omega

variable (validate : Response ρ → Except (Option String) π)

/-- The attempt succeeded, and what usage it reported fits the reservation. -/
def Good (tokens : Int) (note : AttemptTelemetry) : Prop :=
  note.completion = .returned ∧ note.failure = none ∧ ∀ n ∈ note.outputTokens, n ≤ tokens

def PhaseHonest (stopped : Bool) (tokens : Int) (records : List AttemptTelemetry) :
    Phase ρ π → Prop
  | .judging _ reply => reply.failure = some .timeout → stopped = true
  | .observing note code _ => (note.completion = .unknown → stopped = true) ∧
      (code = none → Good tokens note)
  | .faulted note => note.completion = .unknown → stopped = true
  | .deciding note code _ => (note.completion = .unknown → stopped = true) ∧
      (code = none → Good tokens note)
  | .sleeping note _ => note.completion = .unknown → stopped = true
  | .returned proposal _ => proposal.isSome →
      ∃ note, records.getLast? = some note ∧ Good tokens note
  | .raised .abandoned => stopped = true
  | _ => True

structure Honest (stopped : Bool) (run : Run ρ π) : Prop where
  unknown : ∀ note ∈ run.records, note.completion = .unknown → stopped = true
  phase : PhaseHonest stopped run.request.tokens run.records run.phase

theorem PhaseHonest.mono {stopped later : Bool} (hstopped : stopped = true → later = true)
    {tokens : Int} {records : List AttemptTelemetry} {phase : Phase ρ π}
    (h : PhaseHonest stopped tokens records phase) : PhaseHonest later tokens records phase := by
  unfold PhaseHonest at *
  split at h
  · exact fun htimeout => hstopped (h htimeout)
  · exact ⟨fun hunknown => hstopped (h.1 hunknown), h.2⟩
  · exact fun hunknown => hstopped (h hunknown)
  · exact ⟨fun hunknown => hstopped (h.1 hunknown), h.2⟩
  · exact fun hunknown => hstopped (h hunknown)
  · exact h
  · exact hstopped h
  · trivial

theorem Honest.mono {stopped later : Bool} (hstopped : stopped = true → later = true)
    {run : Run ρ π} (h : Honest stopped run) : Honest later run :=
  ⟨fun note hnote hunknown => hstopped (h.unknown note hnote hunknown), h.phase.mono hstopped⟩

theorem judge_unknown {reply : Reply ρ} (h : (judge validate reply).2.1 = .unknown) :
    reply.failure = some .timeout := by
  unfold judge at h
  split at h
  · assumption
  · split at h
    · simp at h
    · split at h
      · simp at h
      · split at h <;> simp at h

theorem judge_none {reply : Reply ρ} (h : (judge validate reply).1 = none) :
    (judge validate reply).2.1 = .returned := by
  unfold judge at *
  split at h
  · simp at h
  · next htimeout =>
    rw [if_neg htimeout]
    split at h
    · next hfailed =>
      rw [Bool.and_eq_true, Option.isSome_iff_exists] at hfailed
      obtain ⟨⟨code, hcode⟩, -⟩ := hfailed
      simp [hcode] at h
    · next hreturned =>
      rw [if_neg hreturned]
      split
      · rfl
      · split <;> rfl

theorem bounded_completion (tokens : Int) (output : Option Int) (beyond : Bool)
    (judged : Option String × Completion × Option π) :
    (bounded tokens output beyond judged).2.1 = judged.2.1 := by
  unfold bounded
  dsimp only
  split <;> split <;> rfl

theorem bounded_none {tokens : Int} {output : Option Int} {beyond : Bool}
    {judged : Option String × Completion × Option π} (h : (bounded tokens output beyond judged).1 = none) :
    judged.1 = none ∧ ∀ n ∈ output, n ≤ tokens := by
  unfold bounded at h
  cases hover : output.any (tokens < ·) with
  | true => simp [hover] at h
  | false =>
    simp only [hover, Bool.false_eq_true, if_false] at h
    split at h
    · simp at h
    · refine ⟨h, fun n hn => ?_⟩
      rw [Option.mem_def.mp hn] at hover
      simpa using hover

theorem noteOf_good {tokens : Int} {attempt : ℕ} {reply : Reply ρ} {beyond : Bool}
    (h : (bounded tokens (usage (reply.response.bind Response.outputTokens)) beyond
      (judge validate reply)).1 = none) :
    Good tokens (noteOf attempt reply (bounded tokens
      (usage (reply.response.bind Response.outputTokens)) beyond (judge validate reply))) := by
  obtain ⟨hnone, hwithin⟩ := bounded_none h
  refine ⟨?_, by simp only [noteOf, h], hwithin⟩
  simp only [noteOf, bounded_completion]
  exact judge_none validate hnone

variable (run : Run ρ π) (answer : Answer ρ)

theorem act_stopped (h : ledger.stopped = true) :
    (run.act validate answer ledger calls).2.1.stopped = true := by
  unfold Run.act
  cases run.phase with
  | reserving attempt =>
    dsimp only
    split
    · exact h
    · split
      · exact h
      · next hnext =>
        obtain ⟨hrunning, -⟩ := reserveCall_ok hnext
        simp [h] at hrunning
  | submitting attempt call => exact h
  | awaiting attempt call =>
    dsimp only
    split
    · exact h
    · exact h
    · split <;> exact h
  | cutting attempt call cancelled => exact h
  | interrupted attempt => rfl
  | settling attempt reply => exact settle_stopped _ _ h
  | halting attempt reply => rfl
  | judging attempt reply => dsimp only; split <;> exact h
  | observing note code proposal => dsimp only; split <;> exact h
  | faulted note => rfl
  | deciding note code proposal =>
    dsimp only
    split
    · split
      · exact h
      · split <;> exact h
    · exact h
  | sleeping note code => dsimp only; split <;> exact h
  | returned proposal code => exact h
  | raised error => exact h

/-- A reserved call of a run that submits it, and every other action keep the meter. -/
theorem Metered.acted (h : Metered limits ledger calls)
    (hreserved : ∀ attempt k, run.phase = .submitting attempt k →
      ∀ call, calls[k]? = some call → call.phase.isOpen = true) :
    Metered limits (run.act validate answer ledger calls).2.1
      (run.act validate answer ledger calls).2.2 := by
  unfold Run.act
  cases hphase : run.phase with
  | reserving attempt =>
    dsimp only
    split
    · exact h
    · split
      · exact h
      · next hnext => exact h.reserved hnext _
  | submitting attempt k =>
    exact h.modified _ fun call hcall => (hreserved attempt k hphase call hcall).symm
  | awaiting attempt call =>
    dsimp only
    split
    · exact h
    · exact h
    · split <;> exact h
  | cutting attempt call cancelled => exact h.modified _ fun _ _ => rfl
  | interrupted attempt => exact h.stop
  | settling attempt reply => exact h.settled _ _
  | halting attempt reply => exact h.stop
  | judging attempt reply => dsimp only; split <;> exact h
  | observing note code proposal => dsimp only; split <;> exact h
  | faulted note => exact h.stop
  | deciding note code proposal =>
    dsimp only
    split
    · split
      · exact h
      · split <;> exact h
    · exact h
  | sleeping note code => dsimp only; split <;> exact h
  | returned proposal code => exact h
  | raised error => exact h

theorem Honest.moved {stopped : Bool} {run : Run ρ π} (h : Honest stopped run) {phase : Phase ρ π}
    (hphase : PhaseHonest stopped run.request.tokens run.records phase) :
    Honest stopped (run.moved phase) :=
  ⟨h.unknown, hphase⟩

theorem Honest.noted {stopped : Bool} {run : Run ρ π} (h : Honest stopped run)
    {note : AttemptTelemetry} (hnote : note.completion = .unknown → stopped = true)
    {phase : Phase ρ π}
    (hphase : PhaseHonest stopped run.request.tokens (run.records ++ [note]) phase) :
    Honest stopped (run.noted note phase) := by
  refine ⟨fun other hother => ?_, hphase⟩
  rcases List.mem_append.mp hother with hold | hnew
  · exact h.unknown other hold
  · rw [List.mem_singleton.mp hnew]
    exact hnote

theorem following_honest {stopped : Bool} {tokens : Int} {records : List AttemptTelemetry}
    (limits : ExecutionBudget) (request : Request) (attempt : ℕ) (code : Option String) :
    PhaseHonest stopped tokens records (following limits request attempt code : Phase ρ π) := by
  unfold following
  split
  · trivial
  · exact fun h => by simp at h

theorem Honest.acted {run : Run ρ π} (h : Honest ledger.stopped run) :
    Honest (run.act validate answer ledger calls).2.1.stopped
      (run.act validate answer ledger calls).1 := by
  have hnone : ∀ {records : List AttemptTelemetry} {code : Option String},
      PhaseHonest ledger.stopped run.request.tokens records (.returned none code : Phase ρ π) :=
    fun h => by simp at h
  have hphase := h.phase
  unfold Run.act
  cases hrun : run.phase with
  | reserving attempt =>
    dsimp only
    split
    · exact h.moved hnone
    · split
      · exact h.moved hnone
      · next hnext =>
        obtain ⟨-, -, -, -, rfl⟩ := reserveCall_ok hnext
        exact h.moved trivial
  | submitting attempt call => exact h.moved trivial
  | awaiting attempt call =>
    dsimp only
    split
    · exact h.moved trivial
    · exact h.moved trivial
    · split
      · exact h.moved trivial
      · exact h
  | cutting attempt call cancelled =>
    refine h.moved ?_
    split <;> trivial
  | interrupted attempt => exact (h.mono fun _ => rfl).moved rfl
  | settling attempt reply =>
    have hlater := h.mono (settle_stopped run.request.tokens
      (usage (reply.response.bind Response.outputTokens)))
    refine hlater.moved ?_
    split
    · trivial
    · next htimeout => exact fun h => absurd h htimeout
  | halting attempt reply => exact (h.mono fun _ => rfl).moved fun _ => rfl
  | judging attempt reply =>
    rw [hrun] at hphase
    dsimp only
    split
    · refine h.moved ⟨fun hunknown => hphase (judge_unknown validate ?_), noteOf_good validate⟩
      simpa [noteOf, bounded_completion] using hunknown
    · exact h.moved trivial
  | observing note code proposal =>
    rw [hrun] at hphase
    dsimp only
    split
    · exact h.moved hphase.1
    · exact h.moved hphase
  | faulted note =>
    refine (h.mono fun _ => rfl).moved ⟨fun _ => rfl, fun hcode => ?_⟩
    simp at hcode
  | deciding note code proposal =>
    rw [hrun] at hphase
    dsimp only
    split
    · split
      · exact h.noted hphase.1 hnone
      · split
        · exact h.noted hphase.1 hnone
        · exact h.moved hphase.1
    · refine h.noted hphase.1 fun hsome => ?_
      cases hcode : code with
      | none => exact ⟨note, by simp, hphase.2 hcode⟩
      | some code => simp [hcode] at hsome
  | sleeping note code =>
    rw [hrun] at hphase
    dsimp only
    split
    · exact h.noted hphase (following_honest _ _ _ _)
    · exact h.noted hphase hnone
    · exact h.moved trivial
  | returned proposal code => exact h
  | raised error => exact h

/-- A worker that has not yet read the ledger in its dispatch check, or is past its call. -/
def CallPhase.barred : CallPhase ρ → Bool
  | .reserved => true
  | .queued => true
  | .probing .deadline => true
  | .probing .cancelled => true
  | .probing .authority => true
  | .probing _ => false
  | .cleared => false
  | .sending => false
  | .closing _ => true
  | .finished _ => true

/-- The calls barred before are barred after. -/
def Bars (before after : List (Call ρ)) : Prop :=
  ∀ (k : ℕ) (call : Call ρ), before[k]? = some call → call.phase.barred = true →
    ∃ later : Call ρ, after[k]? = some later ∧ later.phase.barred = true

theorem work_barred {call : Call ρ} {answer : Answer ρ} (hstopped : ledger.stopped = true)
    (hbarred : call.phase.barred = true) : (call.work answer ledger).1.barred = true := by
  unfold Call.work
  cases hphase : call.phase with
  | reserved => rfl
  | queued => simp [hstopped, CallPhase.barred]
  | probing probe =>
    rw [hphase] at hbarred
    dsimp only
    split
    · rfl
    · cases probe with
      | authority => simp [Probe.passes, permitted, hstopped, CallPhase.barred]
      | deadline => simp only [Probe.next]; split <;> rfl
      | cancelled => simp only [Probe.next]; split <;> rfl
      | deadlineAgain => simp [CallPhase.barred] at hbarred
      | cancelledAgain => simp [CallPhase.barred] at hbarred
  | cleared => simp [hphase, CallPhase.barred] at hbarred
  | sending => simp [hphase, CallPhase.barred] at hbarred
  | closing reply => rfl
  | finished reply => rfl

theorem modify_known {k : ℕ} {call : Call ρ} (hk : calls[k]? = some call) (k' : ℕ)
    (change : Call ρ → Call ρ) :
    ∃ next, (calls.modify k' change)[k]? = some next ∧ (next = call ∨ k' = k ∧ next = change call) := by
  by_cases hkk : k' = k
  · subst hkk
    exact ⟨change call, by rw [List.getElem?_modify_eq, hk]; rfl, .inr ⟨rfl, rfl⟩⟩
  · exact ⟨call, by rw [List.getElem?_modify_ne _ _ hkk, hk], .inl rfl⟩

theorem act_calls {k : ℕ} {call : Call ρ} (hk : calls[k]? = some call) :
    ∃ next, (run.act validate answer ledger calls).2.2[k]? = some next ∧
      (next.phase = call.phase ∨
        next.phase = .queued ∧ ∃ attempt, run.phase = .submitting attempt k) := by
  unfold Run.act
  cases hphase : run.phase with
  | reserving attempt =>
    dsimp only
    split
    · exact ⟨call, hk, .inl rfl⟩
    · split
      · exact ⟨call, hk, .inl rfl⟩
      · refine ⟨call, ?_, .inl rfl⟩
        rw [List.getElem?_append_left (List.getElem?_eq_some_iff.mp hk).1]
        exact hk
  | submitting attempt k' =>
    obtain ⟨next, hnext, rfl | ⟨rfl, rfl⟩⟩ := modify_known hk k' fun call => { call with
      guard := { deadline := some (answer.monotonic +
        min run.request.timeout (ledger.remaining answer.now)) }
      phase := .queued }
    · exact ⟨next, hnext, .inl rfl⟩
    · exact ⟨_, hnext, .inr ⟨rfl, attempt, rfl⟩⟩
  | cutting attempt k' cancelled =>
    obtain ⟨next, hnext, rfl | ⟨rfl, rfl⟩⟩ := modify_known hk k' fun call => { call with
      guard := { call.guard with cancelled := true } }
    · exact ⟨next, hnext, .inl rfl⟩
    · exact ⟨_, hnext, .inl rfl⟩
  | awaiting attempt call' =>
    dsimp only
    split
    · exact ⟨call, hk, .inl rfl⟩
    · exact ⟨call, hk, .inl rfl⟩
    · split <;> exact ⟨call, hk, .inl rfl⟩
  | judging attempt reply => dsimp only; split <;> exact ⟨call, hk, .inl rfl⟩
  | observing note code proposal => dsimp only; split <;> exact ⟨call, hk, .inl rfl⟩
  | deciding note code proposal =>
    dsimp only
    split
    · split
      · exact ⟨call, hk, .inl rfl⟩
      · split <;> exact ⟨call, hk, .inl rfl⟩
    · exact ⟨call, hk, .inl rfl⟩
  | sleeping note code => dsimp only; split <;> exact ⟨call, hk, .inl rfl⟩
  | interrupted attempt => exact ⟨call, hk, .inl rfl⟩
  | settling attempt reply => exact ⟨call, hk, .inl rfl⟩
  | halting attempt reply => exact ⟨call, hk, .inl rfl⟩
  | faulted note => exact ⟨call, hk, .inl rfl⟩
  | returned proposal code => exact ⟨call, hk, .inl rfl⟩
  | raised error => exact ⟨call, hk, .inl rfl⟩

theorem act_submitting {attempt k : ℕ}
    (h : (run.act validate answer ledger calls).1.phase = .submitting attempt k) :
    k = calls.length ∧ (run.act validate answer ledger calls).2.2[k]? =
      some { guard := { deadline := none } } := by
  unfold Run.act at h ⊢
  cases hphase : run.phase with
  | reserving attempt' =>
    simp only [hphase] at h ⊢
    split at h
    · simp [Run.moved] at h
    · next hattempt =>
      rw [if_neg hattempt]
      split at h
      · simp [Run.moved] at h
      · next hnext =>
        obtain ⟨-, rfl⟩ : attempt' = attempt ∧ calls.length = k := by simpa [Run.moved] using h
        exact ⟨rfl, by simp⟩
  | submitting attempt' k' => simp [hphase, Run.moved] at h
  | awaiting attempt' k' =>
    simp only [hphase] at h
    split at h
    · simp [Run.moved] at h
    · simp [Run.moved] at h
    · split at h
      · simp [Run.moved] at h
      · simp [hphase] at h
  | cutting attempt' k' cancelled =>
    simp only [hphase] at h
    exact absurd h (by simp only [Run.moved]; split <;> simp)
  | settling attempt' reply =>
    simp only [hphase] at h
    exact absurd h (by simp only [Run.moved]; split <;> simp)
  | judging attempt' reply => simp only [hphase] at h; split at h <;> simp [Run.moved] at h
  | observing note code proposal => simp only [hphase] at h; split at h <;> simp [Run.moved] at h
  | deciding note code proposal =>
    simp only [hphase] at h
    split at h
    · split at h
      · simp [Run.noted] at h
      · split at h <;> simp [Run.noted, Run.moved] at h
    · simp [Run.noted] at h
  | sleeping note code =>
    simp only [hphase] at h
    split at h
    · exact absurd h (by simp only [Run.noted, following]; split <;> simp)
    · simp [Run.noted] at h
    · simp [Run.moved] at h
  | interrupted attempt' => simp [hphase, Run.moved] at h
  | halting attempt' reply => simp [hphase, Run.moved] at h
  | faulted note => simp [hphase, Run.moved] at h
  | returned proposal code => simp [hphase] at h
  | raised error => simp [hphase] at h

theorem act_calls_stopped (hstopped : ledger.stopped = true) :
    (run.act validate answer ledger calls).2.1.calls = ledger.calls := by
  unfold Run.act
  cases run.phase with
  | reserving attempt =>
    dsimp only
    split
    · rfl
    · split
      · rfl
      · next hnext =>
        obtain ⟨hrunning, -⟩ := reserveCall_ok hnext
        simp [hstopped] at hrunning
  | awaiting attempt call =>
    dsimp only
    split
    · rfl
    · rfl
    · split <;> rfl
  | settling attempt reply =>
    dsimp only
    cases usage (reply.response.bind Response.outputTokens) <;> rfl
  | judging attempt reply => dsimp only; split <;> rfl
  | observing note code proposal => dsimp only; split <;> rfl
  | deciding note code proposal =>
    dsimp only
    split
    · split
      · rfl
      · split <;> rfl
    · rfl
  | sleeping note code => dsimp only; split <;> rfl
  | submitting attempt call => rfl
  | cutting attempt call cancelled => rfl
  | interrupted attempt => rfl
  | halting attempt reply => rfl
  | faulted note => rfl
  | returned proposal code => rfl
  | raised error => rfl

/-- The run saw its call time out or be cancelled, and stopped the ledger for it. -/
def CutOff (run : Run ρ π) : Prop :=
  run.phase = .raised .abandoned ∨ (∃ note ∈ run.records, note.completion = .unknown) ∨
    match run.phase with
    | .judging _ reply => reply.failure = some .timeout
    | .observing note _ _ => note.completion = .unknown
    | .faulted note => note.completion = .unknown
    | .deciding note _ _ => note.completion = .unknown
    | .sleeping note _ => note.completion = .unknown
    | _ => False

theorem Honest.cutOff {stopped : Bool} {run : Run ρ π} (h : Honest stopped run)
    (hcut : CutOff run) : stopped = true := by
  have hphase := h.phase
  obtain habandoned | ⟨note, hnote, hunknown⟩ | hcut := hcut
  · rw [habandoned] at hphase
    exact hphase
  · exact h.unknown note hnote hunknown
  · split at hcut
    · next heq =>
      rw [heq] at hphase
      exact hphase hcut
    · next heq =>
      rw [heq] at hphase
      exact hphase.1 hcut
    · next heq =>
      rw [heq] at hphase
      exact hphase hcut
    · next heq =>
      rw [heq] at hphase
      exact hphase.1 hcut
    · next heq =>
      rw [heq] at hphase
      exact hphase hcut
    · exact hcut.elim

structure Sound (limits : ExecutionBudget) (s : State ρ π) : Prop where
  metered : Metered limits s.ledger s.calls
  honest : ∀ run ∈ s.runs, Honest s.ledger.stopped run
  /-- A run that is about to submit has reserved its call, and it alone. -/
  reserved (i : ℕ) (run : Run ρ π) (attempt k : ℕ) : s.runs[i]? = some run →
    run.phase = .submitting attempt k → ∃ call : Call ρ, s.calls[k]? = some call ∧ call.phase = .reserved
  apart (i j : ℕ) (run other : Run ρ π) (attempt attempt' k : ℕ) : s.runs[i]? = some run →
    s.runs[j]? = some other → run.phase = .submitting attempt k → other.phase = .submitting attempt' k →
    i = j

theorem sound_start : Sound limits ({ ledger := { limits := limits } } : State ρ π) where
  metered := ⟨rfl, rfl, Nat.zero_le _, rfl, Int.natCast_nonneg _, .inl (Int.natCast_nonneg _)⟩
  honest run h := by simp at h
  reserved i run attempt k h := by simp at h
  apart i j run other attempt attempt' k h := by simp at h

variable {validate} {s : State ρ π}

theorem Sound.entered (h : Sound limits s) (request : Request) :
    Sound limits { s with runs := s.runs ++ [{ request := request }] } := by
  have hold : ∀ {i : ℕ} {run : Run ρ π} {attempt k : ℕ},
      (s.runs ++ [{ request := request }])[i]? = some run → run.phase = .submitting attempt k →
      s.runs[i]? = some run := by
    intro i run attempt k hi hphase
    rw [List.getElem?_append] at hi
    split at hi
    · exact hi
    · rw [List.getElem?_singleton] at hi
      split at hi
      · obtain rfl := Option.some.inj hi
        simp at hphase
      · simp at hi
  refine ⟨h.metered, fun run hrun => ?_, fun i run attempt k hi hphase => ?_,
    fun i j run other attempt attempt' k hi hj hrun hother => ?_⟩
  · rcases List.mem_append.mp hrun with hknown | hnew
    · exact h.honest run hknown
    · rw [List.mem_singleton.mp hnew]
      exact ⟨fun note hnote => by simp at hnote, trivial⟩
  · exact h.reserved i run attempt k (hold hi hphase) hphase
  · exact h.apart i j run other attempt attempt' k (hold hi hrun) (hold hj hother) hrun hother

theorem Sound.worked (h : Sound limits s) {k : ℕ} {call : Call ρ} (hk : s.calls[k]? = some call)
    (answer : Answer ρ) :
    Sound limits { s with
      ledger := (call.work answer s.ledger).2
      calls := setPhase s.calls k (call.work answer s.ledger).1 } := by
  have hstopped : (call.work answer s.ledger).2.stopped = s.ledger.stopped := by
    obtain ⟨hledger, -⟩ | ⟨hledger, -⟩ := work_cases s.ledger call answer
    · rw [hledger]
    · rw [hledger]
      rfl
  refine ⟨h.metered.worked hk answer, fun run hrun => ?_, fun i run attempt k' hi hphase => ?_, h.apart⟩
  · rw [hstopped]
    exact h.honest run hrun
  · obtain ⟨known, hknown, hreserved⟩ := h.reserved i run attempt k' hi hphase
    obtain ⟨next, hnext, rfl | ⟨rfl, rfl⟩⟩ := modify_known hknown k
      fun other => { other with phase := (call.work answer s.ledger).1 }
    · exact ⟨next, hnext, hreserved⟩
    · obtain rfl : call = known := Option.some.inj (hk.symm.trans hknown)
      exact ⟨_, hnext, by simp only [Call.work, hreserved]⟩

theorem Sound.acted (h : Sound limits s) {i : ℕ} {run : Run ρ π} (hi : s.runs[i]? = some run)
    (answer : Answer ρ) :
    let next := run.act validate answer s.ledger s.calls
    Sound limits { ledger := next.2.1, runs := s.runs.set i next.1, calls := next.2.2 } := by
  intro next
  have hmem := List.mem_of_getElem? hi
  have hlength := (List.getElem?_eq_some_iff.mp hi).1
  have hmetered : Metered limits next.2.1 next.2.2 := by
    refine h.metered.acted validate run answer fun attempt k hphase call hcall => ?_
    obtain ⟨known, hknown, hreserved⟩ := h.reserved i run attempt k hi hphase
    obtain rfl : known = call := Option.some.inj (hknown.symm.trans hcall)
    rw [hreserved]
    rfl
  have hgrow : s.ledger.stopped = true → next.2.1.stopped = true :=
    act_stopped validate run answer
  have hother : ∀ {j : ℕ} {other : Run ρ π}, j ≠ i → (s.runs.set i next.1)[j]? = some other →
      s.runs[j]? = some other := by
    intro j other hji hj
    rwa [List.getElem?_set_ne (Ne.symm hji)] at hj
  have hself : ∀ {other : Run ρ π}, (s.runs.set i next.1)[i]? = some other → next.1 = other := by
    intro other hj
    rw [List.getElem?_set_self hlength] at hj
    exact Option.some.inj hj
  -- The index of a new call is none that another run is about to submit.
  have hfresh : ∀ {j : ℕ} {other : Run ρ π} {attempt attempt' k : ℕ}, s.runs[j]? = some other →
      other.phase = .submitting attempt k → next.1.phase = .submitting attempt' k → False := by
    intro j other attempt attempt' k hj hphase hsubmitting
    obtain ⟨call, hcall, -⟩ := h.reserved j other attempt k hj hphase
    have hk := (List.getElem?_eq_some_iff.mp hcall).1
    exact hk.ne (act_submitting validate run answer hsubmitting).1
  refine ⟨hmetered, fun other hrun => ?_, fun j other attempt k hj hphase => ?_,
    fun j j' other other' attempt attempt' k hj hj' hphase hphase' => ?_⟩
  · rcases List.mem_or_eq_of_mem_set hrun with hold | rfl
    · exact (h.honest other hold).mono hgrow
    · exact (h.honest run hmem).acted validate answer
  · by_cases hji : j = i
    · subst hji
      obtain rfl := hself hj
      exact ⟨_, (act_submitting validate run answer hphase).2, rfl⟩
    · obtain ⟨call, hcall, hreserved⟩ := h.reserved j other attempt k (hother hji hj) hphase
      obtain ⟨later, hlater, hkept | ⟨-, attempt', hsubmitting⟩⟩ := act_calls validate run answer hcall
      · exact ⟨later, hlater, hkept.trans hreserved⟩
      · exact absurd (h.apart j i other run attempt attempt' k (hother hji hj) hi hphase hsubmitting) hji
  · by_cases hji : j = i
    · by_cases hji' : j' = i
      · rw [hji, hji']
      · subst hji
        obtain rfl := hself hj
        exact (hfresh (hother hji' hj') hphase' hphase).elim
    · by_cases hji' : j' = i
      · subst hji'
        obtain rfl := hself hj'
        exact (hfresh (hother hji hj) hphase hphase').elim
      · exact h.apart j j' other other' attempt attempt' k (hother hji hj) (hother hji' hj') hphase hphase'

theorem step_sound (h : Sound limits s) (event : Event ρ) : Sound limits (step validate s event) := by
  cases event with
  | page binding now =>
    refine ⟨metered_page h.metered binding now, fun run hrun => ?_, h.reserved, h.apart⟩
    exact (h.honest run hrun).mono fun hstopped => (page_stopped binding now).trans hstopped
  | enter request => exact h.entered request
  | act i answer =>
    rw [step]
    split
    · exact h
    · next run hi => exact h.acted hi answer
  | work k answer =>
    rw [step]
    split
    · exact h
    · next call hk => exact h.worked hk answer

variable (validate) in
theorem run_sound (h : Sound limits s) (events : List (Event ρ)) :
    Sound limits (Extraction.run validate s events) := by
  induction events generalizing s with
  | nil => exact h
  | cons event events ih => exact ih (step_sound h event)

variable (validate) in
/-- A stopped ledger stays so, admits no call and lets no barred worker through. -/
theorem step_stopped (hstopped : s.ledger.stopped = true) (event : Event ρ) :
    (step validate s event).ledger.stopped = true ∧
    (step validate s event).ledger.calls = s.ledger.calls ∧
    Bars s.calls (step validate s event).calls := by
  cases event with
  | page binding now =>
    refine ⟨(page_stopped binding now).trans hstopped, ?_, fun k call hk hbarred => ⟨call, hk, hbarred⟩⟩
    simp only [step, Ledger.beginPage]
    split
    · rfl
    · split <;> split <;> rfl
  | enter request => exact ⟨hstopped, rfl, fun k call hk hbarred => ⟨call, hk, hbarred⟩⟩
  | act i answer =>
    rw [step]
    split
    · exact ⟨hstopped, rfl, fun k call hk hbarred => ⟨call, hk, hbarred⟩⟩
    · next run hi =>
      refine ⟨act_stopped validate run answer hstopped,
        act_calls_stopped validate run answer hstopped, fun k call hk hbarred => ?_⟩
      obtain ⟨later, hlater, hkept | ⟨hqueued, -⟩⟩ := act_calls validate run answer hk
      · exact ⟨later, hlater, by rw [hkept]; exact hbarred⟩
      · exact ⟨later, hlater, by rw [hqueued]; rfl⟩
  | work k answer =>
    rw [step]
    split
    · exact ⟨hstopped, rfl, fun k call hk hbarred => ⟨call, hk, hbarred⟩⟩
    · next worker hworker =>
      have hledger : (worker.work answer s.ledger).2 = s.ledger ∨
          (worker.work answer s.ledger).2 = s.ledger.finishedCall :=
        (work_cases s.ledger worker answer).imp And.left And.left
      dsimp only
      refine ⟨?_, ?_, fun k' call hk hbarred => ?_⟩
      · obtain hsame | hsame := hledger
        · rw [hsame]
          exact hstopped
        · rw [hsame]
          exact hstopped
      · obtain hsame | hsame := hledger
        · rw [hsame]
        · rw [hsame]
          rfl
      · obtain ⟨next, hnext, rfl | ⟨rfl, rfl⟩⟩ := modify_known hk k
          fun other => { other with phase := (worker.work answer s.ledger).1 }
        · exact ⟨next, hnext, hbarred⟩
        · obtain rfl : worker = call := Option.some.inj (hworker.symm.trans hk)
          exact ⟨_, hnext, work_barred hstopped hbarred⟩

variable (validate) in
theorem run_stopped (hstopped : s.ledger.stopped = true) (events : List (Event ρ)) :
    let t := Extraction.run validate s events
    t.ledger.calls = s.ledger.calls ∧ Bars s.calls t.calls := by
  induction events generalizing s with
  | nil => exact ⟨rfl, fun k call hk hbarred => ⟨call, hk, hbarred⟩⟩
  | cons event events ih =>
    obtain ⟨hstill, hcalls, hbars⟩ := step_stopped validate hstopped event
    obtain ⟨hlater, hrest⟩ := ih hstill
    refine ⟨hlater.trans hcalls, fun k call hk hbarred => ?_⟩
    obtain ⟨next, hnext, hnextBarred⟩ := hbars k call hk hbarred
    exact hrest k next hnext hnextBarred

variable (validate) in
/-- In every run of callers and workers on one ledger: the calls, the calls in flight and the
reserved tokens stay within the limits; a run that saw its call cut off has stopped the ledger,
after which no call is reserved and no barred worker sends; and a proposal comes from a last
attempt that succeeded, with the output it reported within the reservation. -/
theorem execute_within_budget (limits : ExecutionBudget) (events : List (Event ρ)) :
    let s : State ρ π := Extraction.run validate { ledger := { limits := limits } } events
    (s.ledger.calls = s.calls.length ∧ s.ledger.calls ≤ limits.maxCalls) ∧
    (s.ledger.inFlight = openCalls s.calls ∧ 0 ≤ s.ledger.inFlight ∧
      s.ledger.inFlight ≤ limits.maxConcurrency) ∧
    (s.ledger.reservedOutputTokens ≤ limits.maxOutputTokens ∨ s.ledger.stopped = true) ∧
    (∀ run ∈ s.runs, CutOff run → s.ledger.stopped = true) ∧
    (s.ledger.stopped = true → ∀ more,
      let t := Extraction.run validate s more
      t.ledger.calls = s.ledger.calls ∧ Bars s.calls t.calls) ∧
    ∀ run ∈ s.runs, ∀ proposal code, run.phase = .returned (some proposal) code →
      ∃ note, run.records.getLast? = some note ∧ Good run.request.tokens note := by
  intro s
  have hs : Sound limits s := run_sound validate sound_start events
  have hmetered := hs.metered
  refine ⟨⟨hmetered.counted, hmetered.capped⟩, ⟨hmetered.flight, ?_, hmetered.concurrency⟩,
    hmetered.tokens, fun run hrun hcut => (hs.honest run hrun).cutOff hcut,
    fun hstopped more => run_stopped validate hstopped more, fun run hrun proposal code hphase => ?_⟩
  · rw [hmetered.flight]
    exact Int.natCast_nonneg _
  · have h := (hs.honest run hrun).phase
    rw [hphase] at h
    exact h rfl

end

def sampleLimits : ExecutionBudget where
  maxPages := 1
  maxCalls := 2
  maxAttemptsPerPage := 1
  maxConcurrency := 2
  maxOutputTokens := 20
  maxElapsedSeconds := 60

def sampleRequest : Request where
  attempts := 1
  tokens := 10
  timeout := 5
  backoffBase := 1
  backoffCap := 2

def acts (i n : ℕ) : List (Event Unit) := List.replicate n (.act i {})

def unreported : List (Event Unit) :=
  [.page "run-1" 0, .enter sampleRequest] ++ acts 0 2 ++ List.replicate 7 (.work 0 {}) ++
    [.work 0 { choice := .finish (.response (some { body := () })) }, .work 0 {}] ++ acts 0 5

/-- The second run reserves between the first one's timeout and its stop of the ledger. -/
def overlapped : List (Event Unit) :=
  [.page "run-1" 0, .enter sampleRequest, .enter sampleRequest] ++ acts 0 2 ++
    [.act 0 { wake := .timeout }] ++ acts 1 1

/-- A proposal may come without reported output, and a call be reserved after a timeout. -/
theorem proposal_without_usage :
    let s : State Unit Unit := run (fun _ => .ok ()) { ledger := { limits := sampleLimits } } unreported
    let t : State Unit Unit := run (fun _ => .ok ()) { ledger := { limits := sampleLimits } } overlapped
    (s.runs.map fun run => (run.records.map AttemptTelemetry.outputTokens,
      match run.phase with
      | .returned (some _) code => some code
      | _ => none)) = [([none], some none)] ∧
    (t.runs.map fun run => match run.phase with
      | .cutting _ _ false => 1
      | .submitting _ _ => 2
      | _ => 0) = [1, 2] ∧ t.ledger.calls = 2 := by
  decide +kernel

end AppraisalReview.Extraction
