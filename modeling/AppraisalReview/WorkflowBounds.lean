import AppraisalReview.ActionDerivation
import AppraisalReview.BoundedWorkflow
import AppraisalReview.RevisionIntegrity

set_option autoImplicit false

/-!
# The bounded runner terminates and never verifies a failure

A pass that goes on has charged an executed action with a step, or a retried
selection with a retry: the measure is the sum of both. A run that returns a
state of success returns it from the last snapshot; that its last decision was
executed fails in one branch only, where a selection failure is retried.
-/
namespace AppraisalReview.BoundedWorkflow
open RunLedger (Budget Memory Rejection WorkflowRunReservation WorkflowTermination)
open ControlledWorkflow Raising

variable {sources : List DocumentReference → Digest} {τ : Type} [DecidableEq τ]

def Owns (ledger : Ledger τ) (owner : WorkflowRunReservation τ) (budget : Budget) : Prop :=
  ∃ record, ledger.owned owner = .ok record ∧ record.budget = budget

theorem owned_put {ledger : Ledger τ} {owner : WorkflowRunReservation τ}
    {record next : RunLedger.RunRecord τ WorkflowHistory} (h : ledger.owned owner = .ok record)
    (hrun : next.run = record.run) (howner : next.owner = record.owner)
    (hresult : next.result = record.result) : (ledger.put next).owned owner = .ok next := by
  obtain ⟨-, hsame, hheld, hnone⟩ := RunLedger.owned_ok h
  have hstored : ledger.put next owner.run.runId = some next := by
    rw [Memory.put, hrun, hsame, Function.update_self]
  unfold Memory.owned
  rw [hstored]
  simp [hrun, howner, hresult, hsame, hheld, hnone]

theorem quarantine_owns {ledger next : Ledger τ} {owner : WorkflowRunReservation τ}
    {budget : Budget} {reply : RunLedger.Reply τ WorkflowHistory} (h : Owns ledger owner budget)
    (hask : ask ledger owner (.quarantine owner) = (next, .ok reply)) : Owns next owner budget := by
  obtain ⟨record, howned, hbudget⟩ := h
  simp only [ask, Memory.step, Memory.onOwned, howned] at hask
  cases hask
  exact ⟨_, owned_put howned rfl rfl rfl, hbudget⟩

theorem remaining_owns {ledger next : Ledger τ} {owner : WorkflowRunReservation τ}
    {reply : RunLedger.Reply τ WorkflowHistory}
    (hask : ask ledger owner (.remaining owner) = (next, .ok reply)) :
    ∃ budget, reply = .budget budget ∧ budget.valid = true ∧ Owns ledger owner budget ∧
      Owns next owner budget := by
  simp only [ask, Memory.step, Memory.onOwned] at hask
  cases howned : ledger.owned owner with
  | error rejection =>
    rw [howned] at hask
    cases hask
  | ok record =>
    rw [howned] at hask
    cases hbudget : record.budget.revalidate with
    | error rejection =>
      simp only [hbudget, error_bind] at hask
      cases hask
    | ok budget =>
      obtain ⟨hsame, hvalid⟩ := RunLedger.revalidate_ok hbudget
      simp only [hbudget] at hask
      cases hask
      exact ⟨budget, rfl, hsame ▸ hvalid, ⟨record, howned, hsame.symm⟩,
        ⟨record, owned_put howned rfl rfl rfl, hsame.symm⟩⟩

theorem checkpoint_owns {ledger next : Ledger τ} {owner : WorkflowRunReservation τ}
    {budget : Budget} {reply : RunLedger.Reply τ WorkflowHistory}
    (hask : ask ledger owner (.checkpoint owner budget) = (next, .ok reply)) :
    budget.valid = true ∧ Owns next owner budget ∧
      ∀ before, Owns ledger owner before → budget.AtMost before := by
  simp only [ask, Memory.step] at hask
  cases hbudget : budget.revalidate with
  | error rejection =>
    simp only [hbudget] at hask
    cases hask
  | ok budget' =>
    obtain ⟨rfl, hvalid⟩ := RunLedger.revalidate_ok hbudget
    simp only [hbudget, Memory.onOwned] at hask
    cases howned : ledger.owned owner with
    | error rejection =>
      rw [howned] at hask
      cases hask
    | ok record =>
      rw [howned] at hask
      cases hdecreased : RunLedger.decreased record.budget budget' with
      | error rejection =>
        simp only [hdecreased, error_bind] at hask
        cases hask
      | ok =>
        simp only [hdecreased] at hask
        cases hask
        refine ⟨hvalid, ⟨_, owned_put howned rfl rfl rfl, rfl⟩, ?_⟩
        rintro before ⟨record', howned', rfl⟩
        cases howned.symm.trans howned'
        exact RunLedger.decreased_ok hdecreased

def Stepped (budget : Budget) (event : DecisionEvent) : Prop :=
  event.disposition ≠ .rejected → event.budgetAfter.stepsRemaining + 1 ≤ budget.stepsRemaining

/-- The reply of a decision and the ledger that it leaves. -/
structure Accounted (budget : Budget) (owner : WorkflowRunReservation τ) (ledger : Ledger τ)
    (out : Except Raise DecisionEvent × Ledger τ) : Prop where
  owns : Owns ledger owner budget → Owns out.2 owner budget
  stepped : ∀ event, out.1 = .ok event → Stepped budget event

theorem Accounted.raised (budget : Budget) (owner : WorkflowRunReservation τ) (ledger : Ledger τ)
    (raise : Raise) : Accounted budget owner ledger (.error raise, ledger) :=
  ⟨id, fun event hevent => by cases hevent⟩

theorem Accounted.quarantined {budget : Budget} {owner : WorkflowRunReservation τ}
    {ledger : Ledger τ} {next : Ledger τ → Except Raise DecisionEvent × Ledger τ}
    (h : ∀ ledger, Accounted budget owner ledger (next ledger)) :
    Accounted budget owner ledger (quarantined ledger owner next) := by
  unfold ControlledWorkflow.quarantined
  split
  · next after rejection hask =>
    refine ⟨fun howns => ?_, fun event hevent => by cases hevent⟩
    obtain ⟨record, howned, -⟩ := howns
    simp only [ask, Memory.step, Memory.onOwned, howned] at hask
    cases hask
  · next after reply hask =>
    exact ⟨fun howns => (h after).owns (quarantine_owns howns hask), (h after).stepped⟩

theorem buildEvent_ok {record : DecisionRecord} {event : DecisionEvent}
    (h : buildEvent record = .ok event) : event.toDecisionRecord = record := by
  unfold buildEvent at h
  split at h
  · cases h
    rfl
  · cases h

theorem consume_ok {budget : Budget} {steps modelCalls retries elapsedMs minimum : Int}
    {after : Budget} {consumed : BudgetConsumption}
    (h : consume budget steps modelCalls retries elapsedMs minimum = .ok (after, consumed)) :
    after.stepsRemaining = budget.stepsRemaining - steps := by
  unfold consume at h
  simp only [guard_ok, bind_ok] at h
  obtain ⟨-, _, -, _, -, _, -, _, -, h⟩ := h
  cases h
  rfl

theorem decision_charged {c : Coordinator sources} {proposal : ActionProposal}
    {admitted : AllowedAction} {o : Opening sources} {result : WorkflowSnapshot sources}
    {charge : Charge} {eventId : UUID} {receipt : ControlledToolReceipt} {event : DecisionEvent}
    (h : decision c proposal admitted o result charge eventId receipt = .ok event) :
    event.budgetAfter = charge.after :=
  congrArg DecisionRecord.budgetAfter (buildEvent_ok h)

theorem map_event {answer : Except Raise Unit} {event made : DecisionEvent}
    (h : (answer.map fun _ => made) = .ok event) : event = made := by
  cases answer with
  | error raise => cases h
  | ok => exact (Except.ok.inj h).symm

theorem decided_accounted {c : Coordinator sources} {owner : WorkflowRunReservation τ}
    {proposal : ActionProposal} {admitted : AllowedAction} {o : Opening sources}
    {result : WorkflowSnapshot sources} {charge : Charge} {answers : Answers sources}
    {budget : Budget} (hcharge : charge.after.stepsRemaining + 1 ≤ budget.stepsRemaining)
    (receipt : ControlledToolReceipt) (ledger : Ledger τ) :
    Accounted budget owner ledger
      (ControlledWorkflow.decided c owner proposal admitted o result charge answers receipt
        ledger) := by
  have hevent : ∀ {eventId : UUID} {receipt : ControlledToolReceipt} {made : DecisionEvent}
      (ledger : Ledger τ), decision c proposal admitted o result charge eventId receipt = .ok made →
      Accounted budget owner ledger (answers.append.map fun _ => made, ledger) :=
    fun ledger hmade => ⟨id, fun event hevent => by
      rw [map_event hevent, Stepped, decision_charged hmade]
      exact fun _ => hcharge⟩
  unfold ControlledWorkflow.decided
  split
  · next event hmade => exact hevent ledger hmade
  · refine Accounted.quarantined fun ledger => ?_
    split
    · next event hmade => exact hevent ledger hmade
    · exact Accounted.raised _ _ _ _

theorem receipted_accounted {c : Coordinator sources} {owner : WorkflowRunReservation τ}
    {run : RunReference} {proposal : ActionProposal} {admitted : AllowedAction}
    {o : Opening sources} (hcost : 1 ≤ admitted.cost.steps) (retryCharge : ℕ)
    (answers : Answers sources) (receipt : ControlledToolReceipt) (ledger : Ledger τ) :
    Accounted o.initial.budget owner ledger
      (receipted c owner run proposal admitted o retryCharge answers receipt ledger) := by
  have hcharged : ∀ {after consumed}, consume o.initial.budget admitted.cost.steps
      ((providerCalls proposal).getD 0 : ℕ) (actualRetries proposal admitted retryCharge)
      answers.elapsedMs 0 = .ok (after, consumed) →
      after.stepsRemaining + 1 ≤ o.initial.budget.stepsRemaining := fun h => by
    rw [consume_ok h]
    omega
  unfold receipted
  split
  · exact Accounted.raised _ _ _ _
  · simp only
    split
    · split
      · exact Accounted.raised _ _ _ _
      · next hconsume => exact decided_accounted (hcharged hconsume) _ _
    · refine Accounted.quarantined fun ledger => ?_
      split
      · exact Accounted.raised _ _ _ _
      · next hconsume => exact decided_accounted (hcharged hconsume) _ _

theorem executed_accounted {c : Coordinator sources} {owner : WorkflowRunReservation τ}
    {run : RunReference} {proposal : ActionProposal} {admitted : AllowedAction}
    {o : Opening sources} (hcost : 1 ≤ admitted.cost.steps) (retryCharge : ℕ)
    (answers : Answers sources) (ledger : Ledger τ) :
    Accounted o.initial.budget owner ledger
      (executed c owner run proposal admitted o retryCharge answers ledger) := by
  unfold executed
  split
  · exact Accounted.raised _ _ _ _
  · exact receipted_accounted hcost _ _ _ _
  · exact Accounted.quarantined fun ledger => receipted_accounted hcost _ _ _ _

theorem rejection_rejected {proposal : ActionProposal} {o : Opening sources}
    {answers : Answers sources} {code : ServiceErrorCode} {event : DecisionEvent}
    (h : rejection proposal o answers code = .ok event) : event.disposition = .rejected := by
  unfold rejection at h
  simp only [bind_ok] at h
  obtain ⟨_, -, _, -, made, hmade, _, -, h⟩ := h
  cases h
  exact congrArg DecisionRecord.disposition (buildEvent_ok hmade)

theorem rejection_accounted (budget : Budget) (owner : WorkflowRunReservation τ)
    (proposal : ActionProposal) (o : Opening sources) (answers : Answers sources)
    (code : ServiceErrorCode) (ledger : Ledger τ) :
    Accounted budget owner ledger (rejection proposal o answers code, ledger) :=
  ⟨id, fun _ hevent hdisposition => absurd (rejection_rejected hevent) hdisposition⟩

theorem derive_steps {digest : WorkflowSnapshot sources → Digest}
    {policy : ActionPolicy.ControlledActionPolicy} {snapshot : WorkflowSnapshot sources}
    {allowed : AllowedActionSet} (h : ActionPolicy.derive digest policy snapshot = .ok allowed) :
    ∀ action ∈ allowed.actions, action.cost.steps = 1 := by
  unfold ActionPolicy.derive at h
  obtain ⟨results, hresults, hset⟩ := bind_ok.mp h
  have hactions : allowed.actions = results.filterMap id := by
    unfold AllowedActionSet.unambiguousRegistry at hset
    split_ifs at hset
    cases hset
    rfl
  intro action haction
  rw [hactions] at haction
  obtain ⟨rule, -, -, hgrants⟩ := ActionPolicy.derived_from (mapM_ok.mp hresults) haction
  rw [hgrants.cost]

theorem proposed_accounted (c : Coordinator sources) (owner : WorkflowRunReservation τ)
    (run : RunReference) (evidence : List SourceCitation) (proposal : ActionProposal)
    (o : Opening sources) (retryCharge : ℕ) (answers : Answers sources) (ledger : Ledger τ) :
    Accounted o.initial.budget owner ledger
      (proposed c owner run evidence proposal o retryCharge answers ledger) := by
  unfold proposed
  split
  · exact Accounted.raised _ _ _ _
  split
  · exact Accounted.raised _ _ _ _
  · next allowed hallowed =>
    split
    · exact rejection_accounted _ _ _ _ _ _ _
    split
    · exact Accounted.raised _ _ _ _
    · next admitted hadmitted =>
      have hmem := List.mem_of_mem_head? hadmitted
      have hcost := derive_steps hallowed admitted (List.mem_filter.mp hmem).1
      split
      · exact rejection_accounted _ _ _ _ _ _ _
      split
      · exact Accounted.raised _ _ _ _
      · exact executed_accounted hcost.ge _ _ _

theorem failedSelection_accounted (budget : Budget) (c : Coordinator sources)
    (owner : WorkflowRunReservation τ) (error : ActionSelectionError) (o : Opening sources)
    (answers : Answers sources) (ledger : Ledger τ) :
    Accounted budget owner ledger (failedSelection c owner error o answers ledger) := by
  unfold failedSelection
  cases recordSelectionFailure c error o answers with
  | error raised =>
    simp only
    split
    · exact Accounted.quarantined fun _ => Accounted.raised _ _ _ _
    · exact Accounted.raised _ _ _ _
  | ok error =>
    simp only
    split
    · exact Accounted.quarantined fun _ => Accounted.raised _ _ _ _
    · exact Accounted.raised _ _ _ _

theorem current_budget {run : RunReference} {budget : Budget}
    {answer : Except Raise (WorkflowSnapshot sources)} {snapshot : WorkflowSnapshot sources}
    (h : current run (some budget) answer = .ok snapshot) : snapshot.budget = budget := by
  unfold current at h
  simp only [bind_ok, guard_ok] at h
  obtain ⟨_, -, -, -, h⟩ := h
  unfold withBudget at h
  split_ifs at h
  cases h
  rfl

theorem opening_budget {c : Coordinator sources} {run : RunReference}
    {evidence : List SourceCitation} {budget : Budget} {answers : Answers sources}
    {o : Opening sources} (h : opening c run evidence budget answers = .ok o) :
    o.initial.budget = budget := by
  unfold opening at h
  simp only [bind_ok] at h
  obtain ⟨initial, hinitial, _, -, _, -, _, -, _, -, h⟩ := h
  cases h
  exact current_budget hinitial

theorem decideOnce_accounted (c : Coordinator sources) (owner : WorkflowRunReservation τ)
    (evidence : List SourceCitation) (budget : Budget) (retryCharge : ℕ)
    (answers : Answers sources) (ledger : Ledger τ) :
    Accounted budget owner ledger
      (decideOnce c owner evidence budget retryCharge answers ledger) := by
  unfold decideOnce
  split
  · exact Accounted.raised _ _ _ _
  · next o hopening =>
    split
    · exact failedSelection_accounted _ _ _ _ _ _ _
    · exact failedSelection_accounted _ _ _ _ _ _ _
    · exact Accounted.raised _ _ _ _
    · exact opening_budget hopening ▸ proposed_accounted c owner _ evidence _ o _ _ ledger

/-- A decision leaves a budget that the ledger has accepted as a decrease. -/
structure Decided (budget : Budget) (reply : Except Raise DecisionEvent) : Prop where
  charged : ∀ event, reply = .ok event → Stepped budget event ∧ event.budgetAfter.AtMost budget
  failed : ∀ error event, reply = .error (.selection error) → error.event = some event →
    event.budgetAfter.AtMost budget

theorem Decided.raised {budget : Budget} {raise : Raise}
    (h : ∀ error, raise = .selection error → error.event = none) :
    Decided budget (.error raise) where
  charged event hevent := by cases hevent
  failed error event hraise hevent := by
    cases hraise
    rw [h error rfl] at hevent
    cases hevent

theorem selectionCharged_decided {budget : Budget} {owner : WorkflowRunReservation τ}
    (error : ActionSelectionError) {ledger : Ledger τ} (h : Owns ledger owner budget) :
    Decided budget (selectionCharged owner error ledger).1 := by
  unfold selectionCharged
  split
  · next hnone =>
    unfold ControlledWorkflow.quarantined
    split
    · exact Decided.raised fun _ hselection => by cases hselection
    · refine Decided.raised fun _ hselection => ?_
      cases hselection
      exact hnone
  · next event hsome =>
    split
    · exact Decided.raised fun _ hselection => by cases hselection
    · next hcheckpoint =>
      refine ⟨fun event hevent => (by cases hevent), fun error' event' hraise hevent => ?_⟩
      cases hraise
      cases hsome.symm.trans hevent
      exact (checkpoint_owns hcheckpoint).2.2 budget h

theorem decideReserved_decided (c : Coordinator sources) (owner : WorkflowRunReservation τ)
    (evidence : List SourceCitation) (budget : Budget) (retryCharge : ℕ)
    (answers : Answers sources) (ledger : Ledger τ) :
    Decided budget (decideReserved c owner evidence budget retryCharge answers ledger).1 := by
  unfold decideReserved
  split
  · exact Decided.raised fun _ hselection => by cases hselection
  · next checked _ hcheckpoint =>
    obtain ⟨-, ⟨record, howned, hbudget⟩, -⟩ := checkpoint_owns hcheckpoint
    split
    · next remaining budget' hremaining =>
      obtain ⟨_, hreply, -, ⟨record', howned', hbudget'⟩, hleft⟩ := remaining_owns hremaining
      cases hreply
      cases howned.symm.trans howned'
      obtain rfl : budget' = budget := hbudget'.symm.trans hbudget
      have haccounted :=
        decideOnce_accounted c owner evidence budget' retryCharge answers remaining
      split
      · next error after hmade =>
        rw [hmade] at haccounted
        exact selectionCharged_decided error (haccounted.owns hleft)
      · next raise after hselection hmade =>
        exact Decided.raised fun error hraise => absurd hraise (hselection error)
      · next made after hmade =>
        rw [hmade] at haccounted
        split
        · exact Decided.raised fun _ hselection => by cases hselection
        · next hfinal =>
          refine ⟨fun event hevent => ?_, fun _ _ hraise _ => by cases hraise⟩
          cases hevent
          exact ⟨haccounted.stepped made rfl,
            (checkpoint_owns hfinal).2.2 budget' (haccounted.owns hleft)⟩
    · exact Decided.raised fun _ hselection => by cases hselection
    · exact Decided.raised fun _ hselection => by cases hselection

def Loop.measure (l : Loop sources τ) : Int := l.budget.stepsRemaining + l.budget.retriesRemaining

def Progress (decisions : ℕ) (measure : Int) : Pass sources τ → Prop
  | .ended ended => ended.decisions = decisions
  | .again l => l.decisions = decisions ∧ l.measure + 1 ≤ measure

theorem classify_retryable {event : DecisionEvent}
    (h : classifyEventFailure event = some .retryableProviderTool) :
    event.disposition ≠ .rejected := by
  intro hrejected
  unfold classifyEventFailure at h
  rw [if_neg (by rw [hrejected]; decide)] at h
  split_ifs at h <;> cases h

theorem classify_none {event : DecisionEvent} (h : classifyEventFailure event = none) :
    event.disposition = .executed := by
  by_contra hfailed
  unfold classifyEventFailure at h
  rw [if_neg hfailed] at h
  split_ifs at h
  split at h <;> cases h

@[simp] theorem backoff_steps (retryBackoffMs : ℕ) (budget : Budget) (failures : ℕ) :
    (backoff retryBackoffMs budget failures).stepsRemaining = budget.stepsRemaining := rfl

@[simp] theorem backoff_retries (retryBackoffMs : ℕ) (budget : Budget) (failures : ℕ) :
    (backoff retryBackoffMs budget failures).retriesRemaining = budget.retriesRemaining := rfl

namespace Loop

theorem consumeSelectionFailure_ok {budget after : Budget} {error : ActionSelectionError}
    (hvalid : budget.valid = true) (h : consumeSelectionFailure budget error = .ok after) :
    after.stepsRemaining ≤ budget.stepsRemaining ∧
      after.retriesRemaining ≤ budget.retriesRemaining := by
  have hretries : 0 ≤ budget.retriesRemaining := by
    simp only [Budget.valid, Bool.and_eq_true, decide_eq_true_eq] at hvalid
    exact hvalid.1.2
  unfold consumeSelectionFailure at h
  simp only at h
  split_ifs at h
  cases h
  refine ⟨Int.le_refl _, ?_⟩
  simp only
  omega

omit [DecidableEq τ] in
theorem selectionFailed_progress (r : Runner sources) (run : RunReference) (l : Loop sources τ)
    (error : ActionSelectionError) (refreshed : Except Raise (WorkflowSnapshot sources))
    (hvalid : l.budget.valid = true)
    (hcharged : ∀ event, error.event = some event → event.budgetAfter.AtMost l.budget) :
    Progress l.decisions l.measure (l.selectionFailed r run error refreshed) := by
  unfold selectionFailed
  split
  · rfl
  · next budget hbudget =>
    have hless : budget.stepsRemaining ≤ l.budget.stepsRemaining ∧
        budget.retriesRemaining ≤ l.budget.retriesRemaining := by
      unfold selectionBudget at hbudget
      split at hbudget
      · next event hevent =>
        cases hbudget
        exact ⟨(hcharged event hevent).steps, (hcharged event hevent).retries⟩
      · exact consumeSelectionFailure_ok hvalid hbudget
    split
    · rfl
    · simp only
      split
      · refine ⟨rfl, ?_⟩
        simp only [measure, backoff_steps, backoff_retries]
        omega
      · rfl

omit [DecidableEq τ] in
theorem eventFailed_progress (r : Runner sources) (run : RunReference) (l : Loop sources τ)
    {event : DecisionEvent} {category : FailureCategory} {bound : Int}
    (hretry : category = .retryableProviderTool → l.measure + 1 ≤ bound) :
    Progress l.decisions bound (l.eventFailed r run event category) := by
  unfold eventFailed
  simp only
  split
  · rfl
  split
  · rfl
  · next hcategory =>
    split
    · rfl
    split
    · rfl
    · exact ⟨rfl, hretry (not_not.mp hcategory)⟩

omit [DecidableEq τ] in
theorem decided_progress (r : Runner sources) (run : RunReference) (l : Loop sources τ)
    {event : DecisionEvent} (refreshed : Except Raise (WorkflowSnapshot sources))
    (hstepped : Stepped l.budget event) (hless : event.budgetAfter.AtMost l.budget) :
    Progress l.decisions l.measure (l.decided r run event refreshed) := by
  have hmeasure : event.disposition ≠ .rejected →
      event.budgetAfter.stepsRemaining + event.budgetAfter.retriesRemaining + 1 ≤ l.measure := by
    intro hdisposition
    have hsteps := hstepped hdisposition
    have hretries := hless.retries
    unfold measure
    omega
  have hexecuted : event.disposition = .executed → event.disposition ≠ .rejected := fun h => by
    rw [h]
    decide
  unfold decided
  simp only
  split
  · rfl
  split
  · split
    · rfl
    · rfl
  split
  · next hdone => exact ⟨rfl, hmeasure (hexecuted hdone)⟩
  split
  · next hnone => exact ⟨rfl, hmeasure (hexecuted (classify_none hnone))⟩
  · next category hcategory =>
    refine eventFailed_progress r run _ fun hretryable => ?_
    rw [hretryable] at hcategory
    exact hmeasure (classify_retryable hcategory)

theorem pass_progress (r : Runner sources) (owner : WorkflowRunReservation τ)
    (evidence : List SourceCitation) (world : World sources) (l : Loop sources τ) :
    (∃ ended, l.pass r owner evidence world = .ended ended ∧ ended.decisions = l.decisions) ∨
      (1 ≤ l.measure ∧
        Progress (l.decisions + 1) l.measure (l.pass r owner evidence world)) := by
  unfold pass
  split
  · exact Or.inl ⟨_, rfl, rfl⟩
  · next ledger _ hcheckpoint =>
    have hvalid := (checkpoint_owns hcheckpoint).1
    split
    · exact Or.inl ⟨_, rfl, rfl⟩
    split
    · exact Or.inl ⟨_, rfl, rfl⟩
    · next hbudget =>
      split
      · exact Or.inl ⟨_, rfl, rfl⟩
      · refine Or.inr ⟨?_, ?_⟩
        · rw [not_or] at hbudget
          simp only [Budget.valid, Bool.and_eq_true, decide_eq_true_eq] at hvalid
          have hsteps := hvalid.1.1.1
          have hretries := hvalid.1.2
          have hleft := hbudget.1
          unfold measure
          omega
        · have hdecided := decideReserved_decided r.coordinator owner evidence l.budget
            l.retryCharge (world.decision l.decisions) ledger
          split
          · next error after hmade =>
            rw [hmade] at hdecided
            exact selectionFailed_progress r owner.run
              { l with ledger := after, decisions := l.decisions + 1 } error _ hvalid
              fun event hevent => hdecided.failed error event rfl hevent
          · rfl
          · next event after hmade =>
            rw [hmade] at hdecided
            obtain ⟨hstepped, hless⟩ := hdecided.charged event rfl
            exact decided_progress r owner.run
              { l with ledger := after, decisions := l.decisions + 1 } _ hstepped hless

theorem passes_mono {r : Runner sources} {owner : WorkflowRunReservation τ}
    {evidence : List SourceCitation} {world : World sources} {fuel more : ℕ} {l : Loop sources τ}
    {ended : Ended sources} (h : l.passes r owner evidence world fuel = some ended)
    (hmore : fuel ≤ more) : l.passes r owner evidence world more = some ended := by
  induction fuel generalizing l more with
  | zero => cases h
  | succ fuel ih =>
    obtain ⟨more, rfl⟩ : ∃ n, more = n + 1 := ⟨more - 1, by omega⟩
    rw [passes] at h ⊢
    cases hpass : l.pass r owner evidence world with
    | ended last =>
      rw [hpass] at h
      exact h
    | again next =>
      rw [hpass] at h
      exact ih h (by omega)

theorem passes_ends (r : Runner sources) (owner : WorkflowRunReservation τ)
    (evidence : List SourceCitation) (world : World sources) (fuel : ℕ) (l : Loop sources τ)
    (hfuel : l.measure < fuel) (hpositive : 0 < fuel) :
    ∃ ended, l.passes r owner evidence world fuel = some ended ∧
      ended.decisions ≤ l.decisions + l.measure.toNat := by
  induction fuel generalizing l with
  | zero => exact absurd hpositive (Nat.lt_irrefl 0)
  | succ fuel ih =>
    rw [passes]
    rcases l.pass_progress r owner evidence world with
      ⟨ended, hpass, hdecisions⟩ | ⟨hmeasure, hprogress⟩
    · rw [hpass]
      exact ⟨ended, rfl, by omega⟩
    · cases hpass : l.pass r owner evidence world with
      | ended ended =>
        rw [hpass] at hprogress
        have hdecisions : ended.decisions = l.decisions + 1 := hprogress
        exact ⟨ended, rfl, by omega⟩
      | again next =>
        rw [hpass] at hprogress
        obtain ⟨hdecisions, hless⟩ := hprogress
        obtain ⟨ended, hended, hbound⟩ := ih next (by omega) (by omega)
        exact ⟨ended, hended, by omega⟩

end Loop

/-- A run that ends in success: where its last snapshot stands, and its last decision. -/
def Verified (ended : Ended sources) : Prop :=
  ∀ result snapshot, ended.outcome = .ok (result, snapshot) → result.termination.successful = true →
    terminal snapshot = some result.termination ∧
      ∀ last ∈ result.body.events.getLast?, last.disposition = .executed

/-- A state of success is not read after a failure; that of a verified run would be refused. -/
def Loop.Fresh (l : Loop sources τ) : Prop :=
  ∀ last ∈ l.events.getLast?, last.disposition ≠ .executed →
    terminal l.snapshot ≠ some .waitingForHuman

/-- What may come of a pass. -/
def Sound : Pass sources τ → Prop
  | .ended ended => Verified ended
  | .again l => l.Fresh

theorem buildResult_ok {result built : BoundedWorkflowResult} (h : buildResult result = .ok built) :
    built = result ∧ terminalShape result = .ok () := by
  unfold buildResult at h
  split at h
  · next hshape => exact ⟨(Except.ok.inj h).symm, hshape⟩
  · cases h

/-- `Failed execution cannot finish verified` -/
theorem terminalShape_verified {result : BoundedWorkflowResult} (h : terminalShape result = .ok ())
    (hverified : result.termination = .verified) :
    ∀ last ∈ result.body.events.getLast?, last.disposition = .executed := by
  unfold terminalShape at h
  split_ifs at h with hhandoff hevents hfailures hfailed
  intro last hlast
  by_contra hdisposition
  exact hfailed ⟨hverified, by simp [Option.mem_def.mp hlast, hdisposition]⟩

namespace Loop

theorem terminal_cases {snapshot : WorkflowSnapshot sources} {termination : WorkflowTermination}
    (h : terminal snapshot = some termination) :
    termination = .verified ∨ termination = .waitingForHuman := by
  unfold terminal at h
  split at h
  · exact Or.inl (Option.some.inj h).symm
  · exact Or.inr (Option.some.inj h).symm
  · cases h

omit [DecidableEq τ] in
theorem returned_verified {l : Loop sources τ} {run : RunReference}
    {termination : WorkflowTermination} (hterminal : terminal l.snapshot = some termination)
    (hfresh : l.Fresh) : Sound (l.returned (completed run termination l.events l.budget)) := by
  intro result snapshot houtcome _
  unfold completed at houtcome
  cases hbuilt : buildResult ⟨run, termination, l.budget, { events := l.events }⟩ with
  | error raise =>
    rw [hbuilt] at houtcome
    cases houtcome
  | ok built =>
    obtain ⟨rfl, hshape⟩ := buildResult_ok hbuilt
    rw [hbuilt] at houtcome
    cases houtcome
    refine ⟨hterminal, fun last hlast => ?_⟩
    rcases terminal_cases hterminal with rfl | rfl
    · exact terminalShape_verified hshape rfl last hlast
    · exact by_contra fun hfailed => hfresh last hlast hfailed hterminal

omit [DecidableEq τ] in
theorem handedOff_sound {l : Loop sources τ} {run : RunReference}
    {termination : WorkflowTermination} {category : FailureCategory} {reasonCode : String}
    {fingerprint : Option Digest} (h : termination.successful = false) :
    Sound (l.handedOff run termination category reasonCode fingerprint) := by
  intro result snapshot houtcome hsuccessful
  cases hbuilt : handoffResult run l.events l.budget l.snapshot termination category reasonCode
      fingerprint with
  | error raise =>
    rw [hbuilt] at houtcome
    cases houtcome
  | ok built =>
    rw [hbuilt] at houtcome
    cases houtcome
    unfold handoffResult at hbuilt
    obtain ⟨_, -, hbuilt⟩ := bind_ok.mp hbuilt
    rw [(buildResult_ok hbuilt).1, h] at hsuccessful
    cases hsuccessful

omit [DecidableEq τ] in
theorem raised_sound (l : Loop sources τ) (raise : Raise) : Sound (l.raised raise) := by
  intro result snapshot houtcome
  cases houtcome

omit [DecidableEq τ] in
theorem fresh_of_unfinished {l : Loop sources τ} (h : terminal l.snapshot = none) : l.Fresh := by
  intro last _ _ hwaiting
  cases h.symm.trans hwaiting

omit [DecidableEq τ] in
theorem eventFailed_sound {r : Runner sources} {run : RunReference} {l : Loop sources τ}
    {event : DecisionEvent} {category : FailureCategory} (h : terminal l.snapshot = none) :
    Sound (l.eventFailed r run event category) := by
  unfold eventFailed
  simp only
  split
  · exact handedOff_sound rfl
  split
  · exact handedOff_sound rfl
  split
  · exact handedOff_sound rfl
  split
  · exact handedOff_sound rfl
  · exact fresh_of_unfinished h

omit [DecidableEq τ] in
theorem decided_sound {r : Runner sources} {run : RunReference} {l : Loop sources τ}
    {event : DecisionEvent} {refreshed : Except Raise (WorkflowSnapshot sources)} :
    Sound (l.decided r run event refreshed) := by
  unfold decided
  simp only
  split
  · exact raised_sound _ _
  split
  · next termination hterminal =>
    split
    · next hexecuted =>
      refine returned_verified hterminal fun last hlast hfailed => ?_
      rw [List.getLast?_concat] at hlast
      cases hlast
      exact absurd hexecuted hfailed
    · exact handedOff_sound rfl
  · next hunfinished =>
    split
    · exact fresh_of_unfinished hunfinished
    split
    · exact fresh_of_unfinished hunfinished
    · exact eventFailed_sound hunfinished

/-- A failed selection is retried although the last decision was no execution, and the snapshot
that is accepted for the retry waits for a human. -/
def RetriesIntoWait (r : Runner sources) (owner : WorkflowRunReservation τ)
    (evidence : List SourceCitation) (world : World sources) (l : Loop sources τ) : Prop :=
  (∃ last ∈ l.events.getLast?, last.disposition ≠ .executed) ∧
    ∃ error budget snapshot,
      (decideReserved r.coordinator owner evidence l.budget l.retryCharge
        (world.decision l.decisions) (ask l.ledger owner (.checkpoint owner l.budget)).1).1 =
          .error (.selection error) ∧
      selectionBudget l.budget error = .ok budget ∧
      retriesSelection (classifySelectionFailure error) budget = true ∧
      currentSnapshot owner.run budget (world.refreshed l.decisions) = .ok snapshot ∧
      snapshot.state = .waitingForHuman

theorem terminal_waiting {snapshot : WorkflowSnapshot sources}
    (h : terminal snapshot = some .waitingForHuman) : snapshot.state = .waitingForHuman := by
  unfold terminal at h
  split at h
  · cases h
  · next hstate => exact hstate
  · cases h

omit [DecidableEq τ] in
theorem selectionFailed_sound {r : Runner sources} {run : RunReference} {l : Loop sources τ}
    {error : ActionSelectionError} {refreshed : Except Raise (WorkflowSnapshot sources)}
    (h : ∀ budget snapshot, selectionBudget l.budget error = .ok budget →
      retriesSelection (classifySelectionFailure error) budget = true →
      currentSnapshot run budget refreshed = .ok snapshot → snapshot.state = .waitingForHuman →
      ∀ last ∈ l.events.getLast?, last.disposition = .executed) :
    Sound (l.selectionFailed r run error refreshed) := by
  unfold selectionFailed
  split
  · exact raised_sound _ _
  · next budget hbudget =>
    split
    · exact raised_sound _ _
    · next snapshot hsnapshot =>
      simp only
      split
      · next hretries =>
        intro last hlast hfailed hwaiting
        exact hfailed (h budget snapshot hbudget hretries hsnapshot (terminal_waiting hwaiting)
          last hlast)
      · split
        · exact handedOff_sound rfl
        · exact handedOff_sound rfl

theorem pass_sound {r : Runner sources} {owner : WorkflowRunReservation τ}
    {evidence : List SourceCitation} {world : World sources} {l : Loop sources τ}
    (hfresh : l.Fresh) (hwait : ¬ l.RetriesIntoWait r owner evidence world) :
    Sound (l.pass r owner evidence world) := by
  unfold pass
  split
  · exact raised_sound _ _
  · next ledger _ hcheckpoint =>
    split
    · next termination hterminal => exact returned_verified hterminal hfresh
    split
    · exact handedOff_sound rfl
    split
    · exact handedOff_sound rfl
    split
    · next error after hmade =>
      refine selectionFailed_sound fun budget snapshot hbudget hretries hread hstate last hlast => ?_
      by_contra hfailed
      refine hwait ⟨⟨last, hlast, hfailed⟩, error, budget, snapshot, ?_, hbudget, hretries, hread,
        hstate⟩
      rw [hcheckpoint, hmade]
    · exact raised_sound _ _
    · exact decided_sound

/-- The states at the top of the loop. -/
inductive Reached (r : Runner sources) (owner : WorkflowRunReservation τ)
    (evidence : List SourceCitation) (world : World sources) (first : Loop sources τ) :
    Loop sources τ → Prop
  | first : Reached r owner evidence world first first
  | again {l next : Loop sources τ} (reached : Reached r owner evidence world first l)
      (pass : l.pass r owner evidence world = .again next) :
      Reached r owner evidence world first next

theorem passes_sound {r : Runner sources} {owner : WorkflowRunReservation τ}
    {evidence : List SourceCitation} {world : World sources} {first : Loop sources τ}
    (hwait : ∀ l, Reached r owner evidence world first l →
      ¬ l.RetriesIntoWait r owner evidence world)
    {fuel : ℕ} {l : Loop sources τ} (hreached : Reached r owner evidence world first l)
    (hfresh : l.Fresh) {ended : Ended sources}
    (h : l.passes r owner evidence world fuel = some ended) : Verified ended := by
  induction fuel generalizing l with
  | zero => cases h
  | succ fuel ih =>
    have hsound := pass_sound hfresh (hwait l hreached)
    rw [passes] at h
    cases hpass : l.pass r owner evidence world with
    | ended last =>
      rw [hpass] at h hsound
      cases h
      exact hsound
    | again next =>
      rw [hpass] at h hsound
      exact ih (hreached.again hpass) hsound h

end Loop

/-- Steps and retries of the budget that the ledger holds when the run begins, and one. -/
def allowance (ledger : Ledger τ) (owner : WorkflowRunReservation τ) : ℕ :=
  match (ask ledger owner (.remaining owner)).2 with
  | .ok (.budget budget) => (budget.stepsRemaining + budget.retriesRemaining + 1).toNat
  | _ => 1

/-- The beginning of a run: an end without a decision, or the first state of its loop. -/
theorem start_spec (r : Runner sources) (owner : WorkflowRunReservation τ) (world : World sources)
    (ledger : Ledger τ) :
    Sound (start r owner world ledger) ∧
      ((∃ ended, start r owner world ledger = .ended ended ∧ ended.decisions = 0) ∨
        ∃ l, start r owner world ledger = .again l ∧ l.decisions = 0 ∧
          0 ≤ l.measure ∧ allowance ledger owner = (l.measure + 1).toNat) := by
  unfold start allowance
  cases hask : ask ledger owner (.remaining owner) with
  | mk next reply => cases reply with
    | error rejection => exact ⟨fun _ _ h => (by cases h), Or.inl ⟨_, rfl, rfl⟩⟩
    | ok reply =>
      obtain ⟨budget, rfl, hvalid, -, -⟩ := remaining_owns hask
      have hmeasure : 0 ≤ budget.stepsRemaining + budget.retriesRemaining := by
        simp only [Budget.valid, Bool.and_eq_true, decide_eq_true_eq] at hvalid
        omega
      simp only
      split
      · exact ⟨fun _ _ h => (by cases h), Or.inl ⟨_, rfl, rfl⟩⟩
      · exact ⟨fun _ _ h => (by cases h), Or.inl ⟨_, rfl, rfl⟩⟩
      · next snapshot events _ hprior =>
        split
        · next hnone =>
          refine ⟨fun last hlast => ?_, Or.inr ⟨_, rfl, rfl, hmeasure, rfl⟩⟩
          cases hnone.symm.trans hlast
        · next last hlast =>
          split
          · next hexecuted =>
            refine ⟨fun other hother hfailed => ?_, Or.inr ⟨_, rfl, rfl, hmeasure, rfl⟩⟩
            cases hlast.symm.trans hother
            exact absurd hexecuted hfailed
          split
          · exact ⟨Loop.handedOff_sound rfl, Or.inl ⟨_, rfl, rfl⟩⟩
          · next hunfinished =>
            rw [Option.not_isSome_iff_eq_none] at hunfinished
            split
            · exact ⟨Loop.handedOff_sound rfl, Or.inl ⟨_, rfl, rfl⟩⟩
            · exact ⟨Loop.fresh_of_unfinished hunfinished, Or.inr ⟨_, rfl, rfl, hmeasure, rfl⟩⟩

/-- The runner ends within its allowance of decisions; where no failed selection is retried into a
wait for a human, what it returns as a success follows an executed decision. -/
theorem runner_bounded (r : Runner sources) (owner : WorkflowRunReservation τ)
    (evidence : List SourceCitation) (world : World sources) (ledger : Ledger τ) :
    ∃ ended, (∀ fuel, allowance ledger owner ≤ fuel →
        run r owner evidence world ledger fuel = some ended) ∧
      ended.decisions ≤ allowance ledger owner ∧
      ((∀ first, start r owner world ledger = .again first →
        ∀ l, Loop.Reached r owner evidence world first l →
          ¬ l.RetriesIntoWait r owner evidence world) → Verified ended) := by
  obtain ⟨hsound, hstart⟩ := start_spec r owner world ledger
  rcases hstart with ⟨ended, hended, hdecisions⟩ | ⟨l, hagain, hdecisions, hmeasure, hallowance⟩
  · refine ⟨ended, fun fuel _ => ?_, by omega, fun _ => ?_⟩
    · rw [run, hended]
    · rw [hended] at hsound
      exact hsound
  · have hends : ∀ fuel, allowance ledger owner ≤ fuel → ∃ ended,
        l.passes r owner evidence world fuel = some ended ∧
          ended.decisions ≤ l.decisions + l.measure.toNat := fun fuel hfuel =>
      l.passes_ends r owner evidence world fuel (by omega) (by omega)
    obtain ⟨ended, hended, hbound⟩ := hends _ (Nat.le_refl _)
    refine ⟨ended, fun fuel hfuel => ?_, by omega, fun hwait => ?_⟩
    · rw [run, hagain]
      exact Loop.passes_mono hended hfuel
    · rw [hagain] at hsound
      exact Loop.passes_sound (hwait l hagain) .first hsound hended

open HumanTaskStore (sampleBase sampleRuleReference)

def sampleRunReference : RunReference where
  runId := ⟨2⟩
  revision := MemoryJobStore.sampleRevision 0

def sampleBudget : Budget := ⟨3, 3, 3, none⟩

def sampleState (state : WorkflowState) : WorkflowSnapshot fun _ => MemoryJobStore.sampleDigest where
  stateVersion := 1
  run := sampleRunReference
  revision := .material (sampleBase (MemoryJobStore.sampleRevision 0)
    HumanTaskStore.sampleRevision_case)
  state := state
  budget := sampleBudget
  positive := numbered_from_one
  budgeted := rfl
  prepared := nofun
  sameRevision := rfl
  uniquePrerequisites := List.nodup_nil
  uniqueBlockers := by exact List.nodup_nil

def systemActor : ActorReference := ⟨"workflow", .system⟩

def reviewProposal : ActionProposal where
  proposalId := ⟨70⟩
  run := sampleRunReference
  actionId := ⟨"review", by decide⟩
  action := .review
  policyVersion := ⟨"policy-1", by decide⟩
  snapshotDigest := MemoryJobStore.sampleDigest
  proposer := systemActor
  arguments := .deterministicReview (MemoryJobStore.sampleRevision 0) [sampleRuleReference]
  typed := by rfl

def failedReview : DecisionEvent where
  eventId := ⟨71⟩
  proposal := reviewProposal
  executor := some systemActor
  policyVersion := ⟨"policy-1", by decide⟩
  stateBefore := .materialReady
  stateAfter := .materialReady
  disposition := .failed
  executedAction := some .review
  reasonCode := ⟨"tool-execution-failed", executionFailed_reason⟩
  reviewerSummary := "The admitted tool failed without an accepted result."
  toolResult := some (failedOutcome .execution)
  budgetBefore := ⟨4, 3, 3, none⟩
  budgetAfter := sampleBudget
  budgetConsumed := ⟨1, 0, 0, none⟩
  actual := by rfl

def sampleRunner : Runner fun _ => MemoryJobStore.sampleDigest where
  coordinator := {
    digest := fun _ => MemoryJobStore.sampleDigest
    policy := ActionPolicy.reviewingPolicy
    selectorActor := systemActor
    executorActor := systemActor
    trusted := rfl }
  fingerprint := fun _ => MemoryJobStore.sampleDigest

def throttledWorld : World fun _ => MemoryJobStore.sampleDigest where
  first := .ok (sampleState .materialReady)
  prior := .ok [failedReview]
  decision n := {
    initial := .ok (sampleState .materialReady)
    history := .ok []
    failures := .ok []
    select := fun _ => .error (.selection { code := .throttled })
    execution := .ok (sampleState .materialReady)
    execute := fun _ => .error .other
    result := .ok (sampleState .materialReady)
    eventId := ⟨100 + n⟩
    secondEventId := ⟨200 + n⟩ }
  refreshed _ := .ok (sampleState .waitingForHuman)

def sampleOwner : WorkflowRunReservation ℕ := ⟨sampleRunReference, 0⟩

def sampleLedger : Ledger ℕ :=
  Function.update (fun _ => none) ⟨2⟩
    (some { run := sampleRunReference, budget := sampleBudget, owner := some 0 })

def waitsAfterFailure (ended : Ended fun _ => MemoryJobStore.sampleDigest) : Bool :=
  match ended.outcome with
  | .error _ => false
  | .ok (result, _) => result.termination = .waitingForHuman &&
      result.body.events.getLast?.any (·.disposition = .failed)

theorem throttled_waits : ¬ ∀ ended,
    run sampleRunner sampleOwner [] throttledWorld sampleLedger 7 = some ended → Verified ended := by
  intro h
  have hrun : (run sampleRunner sampleOwner [] throttledWorld sampleLedger 7).any
      waitsAfterFailure = true := by
    decide +kernel
  cases hended : run sampleRunner sampleOwner [] throttledWorld sampleLedger 7 with
  | none =>
    rw [hended] at hrun
    cases hrun
  | some ended =>
    rw [hended] at hrun
    have hwaits : waitsAfterFailure ended = true := hrun
    unfold waitsAfterFailure at hwaits
    split at hwaits
    · cases hwaits
    · next result snapshot houtcome =>
      simp only [Bool.and_eq_true, decide_eq_true_eq] at hwaits
      obtain ⟨last, hlast, hfailed⟩ := (Option.any_eq_true _ _).mp hwaits.2
      have hexecuted := (h ended hended result snapshot houtcome (by rw [hwaits.1]; rfl)).2 last hlast
      simp [hexecuted] at hfailed

end AppraisalReview.BoundedWorkflow
