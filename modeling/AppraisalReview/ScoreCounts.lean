import AppraisalReview.EvaluationScore
import AppraisalReview.Raising
import Mathlib.Algebra.BigOperators.Group.List.Basic
import Mathlib.Tactic.Linarith

set_option autoImplicit false

/-!
# What the loops of the scorer count

Every tick belongs to one stage of a repeat. The counters of the predictions
follow the sizes of the sets the repeat carries along, and a page raises each
page counter by one at most.
-/
namespace AppraisalReview.Evaluation
open Extraction Raising

variable {scorer : Scorer} {policy : ScoringPolicy} {schedule : Schedule}

@[simp] theorem total_nil (tick : Tick) : total [] tick = 0 := rfl

@[simp] theorem total_cons (entry : Tick × ℤ) (tally : Tally) (tick : Tick) :
    total (entry :: tally) tick = (if entry.1 = tick then entry.2 else 0) + total tally tick := by
  simp [total]

@[simp] theorem total_append (xs ys : Tally) (tick : Tick) :
    total (xs ++ ys) tick = total xs tick + total ys tick := by
  simp [total]

theorem total_flatMap {α : Type} (xs : List α) (f : α → Tally) (tick : Tick) :
    total (xs.flatMap f) tick = (xs.map fun x => total (f x) tick).sum := by
  induction xs with
  | nil => rfl
  | cons x xs ih => simp [ih]

theorem total_eq_zero {tally : Tally} {tick : Tick} (h : ∀ entry ∈ tally, entry.1 ≠ tick) :
    total tally tick = 0 := by
  induction tally with
  | nil => rfl
  | cons entry tally ih =>
    obtain ⟨hentry, hrest⟩ := List.forall_mem_cons.mp h
    rw [total_cons, if_neg hentry, ih hrest, add_zero]

theorem sum_between {α : Type} (xs : List α) (f : α → ℤ) (h : ∀ x ∈ xs, 0 ≤ f x ∧ f x ≤ 1) :
    0 ≤ (xs.map f).sum ∧ (xs.map f).sum ≤ xs.length := by
  induction xs with
  | nil => simp
  | cons x xs ih =>
    obtain ⟨hx, hrest⟩ := List.forall_mem_cons.mp h
    obtain ⟨hlow, hhigh⟩ := ih hrest
    simp only [List.map_cons, List.sum_cons, List.length_cons, Nat.cast_add, Nat.cast_one]
    omega

theorem toNat_between (b : Bool) : (0 : ℤ) ≤ (b.toNat : ℤ) ∧ (b.toNat : ℤ) ≤ 1 := by
  cases b <;> decide

inductive Stage where
  | opening | paging | predicting | closing
deriving DecidableEq

def Count.stage : Count → Stage
  | .scheduledPages | .scheduledCases | .observedPages | .missingPages | .observedCases
  | .missingCases | .completeCaseOutcomes | .allCandidateCases => .opening
  | .correctFields | .missingPredictions | .expectedFields | .expectedCitedFields
  | .fullyCorrectCases | .reviewRequiredCases => .closing
  | .predictions | .identityMatches | .stateCorrect | .typeCorrect | .valueCorrect
  | .sourceCorrect | .localizationCorrect => .predicting
  | _ => .paging

def Tick.stage : Tick → Stage
  | .count name => name.stage
  | .fieldError .missingPrediction | .expectedState _ | .confusion _ none => .closing
  | .fieldError _ | .predictedState _ | .confusion _ (some _) => .predicting
  | _ => .paging

def AllIn (stage : Stage) (tally : Tally) : Prop := ∀ entry ∈ tally, entry.1.stage = stage

@[simp] theorem allIn_nil (stage : Stage) : AllIn stage [] := fun _ h => nomatch h

@[simp] theorem allIn_cons (stage : Stage) (entry : Tick × ℤ) (tally : Tally) :
    AllIn stage (entry :: tally) ↔ entry.1.stage = stage ∧ AllIn stage tally :=
  List.forall_mem_cons

@[simp] theorem allIn_append (stage : Stage) (xs ys : Tally) :
    AllIn stage (xs ++ ys) ↔ AllIn stage xs ∧ AllIn stage ys :=
  List.forall_mem_append

theorem AllIn.total {stage : Stage} {tally : Tally} (h : AllIn stage tally) {tick : Tick}
    (other : tick.stage ≠ stage) : total tally tick = 0 :=
  total_eq_zero fun entry hentry heq => other (heq ▸ h entry hentry)

def cited (schedule : Schedule) (key : FieldKey) : Bool :=
  (schedule.expected.get? key).any fun slot => slot.observed.citation.isSome

def hasState (schedule : Schedule) (state : ObservedState) (key : FieldKey) : Bool :=
  (schedule.expected.get? key).any fun slot => slot.observed.state = state

def observedStates : List ObservedState := [.present, .blank, .missing, .notPresent, .notApplicable]

def predictedRow (c : Tick → ℤ) (state : ObservedState) : ℤ :=
  (observedStates.map fun predicted => c (.confusion state (some predicted))).sum

structure Known (schedule : Schedule) (marks : Marks) : Prop where
  expected : ∀ key ∈ marks.seen, (schedule.expected.get? key).isSome = true
  correct : marks.correct ⊆ marks.seen

structure Advances (schedule : Schedule) (c : Tick → ℤ) (before after : Marks) : Prop where
  identity : c (.count .identityMatches) = (after.seen.card : ℤ) - before.seen.card
  predictions : c (.count .predictions) = c (.count .identityMatches) +
    c (.fieldError .unknownField) + c (.fieldError .duplicatePrediction)
  errors : 0 ≤ c (.fieldError .unknownField) ∧ 0 ≤ c (.fieldError .duplicatePrediction)
  state : 0 ≤ c (.count .stateCorrect) ∧
    c (.count .stateCorrect) ≤ c (.count .identityMatches)
  type : 0 ≤ c (.count .typeCorrect) ∧ c (.count .typeCorrect) ≤ c (.count .identityMatches)
  value : 0 ≤ c (.count .valueCorrect) ∧ c (.count .valueCorrect) ≤ c (.count .identityMatches)
  source : 0 ≤ c (.count .sourceCorrect) ∧ c (.count .sourceCorrect) ≤
    ((after.seen.filter fun key => cited schedule key).card : ℤ) -
      (before.seen.filter fun key => cited schedule key).card
  localization : 0 ≤ c (.count .localizationCorrect) ∧ c (.count .localizationCorrect) ≤
    ((after.seen.filter fun key => cited schedule key).card : ℤ) -
      (before.seen.filter fun key => cited schedule key).card
  confusion : ∀ state, predictedRow c state =
    ((after.seen.filter fun key => hasState schedule state key).card : ℤ) -
      (before.seen.filter fun key => hasState schedule state key).card

theorem predictedRow_add (c d : Tick → ℤ) (state : ObservedState) :
    predictedRow (fun tick => c tick + d tick) state = predictedRow c state + predictedRow d state := by
  simp only [predictedRow, observedStates, List.map_cons, List.map_nil, List.sum_cons,
    List.sum_nil]
  ring

theorem Advances.trans {c d : Tick → ℤ} {m₁ m₂ m₃ : Marks} (h : Advances schedule c m₁ m₂)
    (h' : Advances schedule d m₂ m₃) : Advances schedule (fun tick => c tick + d tick) m₁ m₃ where
  identity := by have := h.identity; have := h'.identity; omega
  predictions := by have := h.predictions; have := h'.predictions; omega
  errors := by have := h.errors; have := h'.errors; omega
  state := by have := h.state; have := h'.state; omega
  type := by have := h.type; have := h'.type; omega
  value := by have := h.value; have := h'.value; omega
  source := by have := h.source; have := h'.source; omega
  localization := by have := h.localization; have := h'.localization; omega
  confusion state := by
    rw [predictedRow_add]
    have := h.confusion state
    have := h'.confusion state
    omega

theorem Advances.still {stage : Stage} {tally : Tally} (h : AllIn stage tally)
    (other : stage ≠ .predicting) {marks marks' : Marks} (seen : marks'.seen = marks.seen) :
    Advances schedule (total tally) marks marks' := by
  have zero : ∀ tick : Tick, tick.stage = .predicting → total tally tick = 0 :=
    fun tick htick => h.total fun heq => other (heq.symm.trans htick)
  have identity := zero (.count .identityMatches) rfl
  have unknown := zero (.fieldError .unknownField) rfl
  have duplicate := zero (.fieldError .duplicatePrediction) rfl
  constructor
  · rw [identity, seen]
    omega
  · rw [zero (.count .predictions) rfl, identity, unknown, duplicate]
    rfl
  · rw [unknown, duplicate]
    decide
  · rw [zero (.count .stateCorrect) rfl, identity]
    decide
  · rw [zero (.count .typeCorrect) rfl, identity]
    decide
  · rw [zero (.count .valueCorrect) rfl, identity]
    decide
  · rw [zero (.count .sourceCorrect) rfl, seen]
    omega
  · rw [zero (.count .localizationCorrect) rfl, seen]
    omega
  · intro state
    rw [seen, sub_self]
    have row : ∀ predicted, total tally (.confusion state (some predicted)) = 0 :=
      fun predicted => zero _ rfl
    simp [predictedRow, observedStates, row]

theorem card_filter_insert {key : FieldKey} {seen : Finset FieldKey} (fresh : key ∉ seen)
    (p : FieldKey → Bool) : (((insert key seen).filter fun k => p k).card : ℤ) -
      (seen.filter fun k => p k).card = (p key).toNat := by
  rw [Finset.filter_insert]
  split
  case isTrue hp =>
    rw [Finset.card_insert_of_notMem fun h => fresh (Finset.mem_filter.mp h).1, hp]
    simp
  case isFalse hp =>
    rw [Bool.not_eq_true] at hp
    rw [hp, sub_self]
    rfl

theorem judged_advances {made : Tally} {marks : Marks} {key : FieldKey} {slot : ExpectedSlot}
    {actual : ObservedValue} (judgement : Judgement)
    (hmade : made = [(.count .predictions, 1), (.predictedState actual.state, 1)])
    (expected : schedule.expected.get? key = some slot) (fresh : key ∉ marks.seen)
    (correct : Finset FieldKey) :
    Advances schedule (total (made ++ judgementTicks policy slot actual judgement)) marks
      { marks with seen := insert key marks.seen, correct := correct } := by
  have hcard : ((insert key marks.seen).card : ℤ) = marks.seen.card + 1 := by
    rw [Finset.card_insert_of_notMem fresh]
    rfl
  have hcited := card_filter_insert fresh (cited schedule)
  have hstate := fun state => card_filter_insert fresh (hasState schedule state)
  have hkey : cited schedule key = slot.observed.citation.isSome := by
    rw [cited, expected]
    rfl
  have hkeyState : ∀ state, hasState schedule state key = decide (slot.observed.state = state) := by
    intro state
    rw [hasState, expected]
    rfl
  have hok := fun ok : Bool => toNat_between ok
  subst hmade
  simp only [judgementTicks, sourceTicks, localizationTicks, flag]
  constructor
  · split <;> (try split) <;> simp <;> omega
  · split <;> (try split) <;> simp
  · split <;> (try split) <;> simp
  · have := hok judgement.stateOk
    split <;> (try split) <;> simp <;> omega
  · have := hok judgement.typeOk
    split <;> (try split) <;> simp <;> omega
  · have := hok judgement.valueOk
    split <;> (try split) <;> simp <;> omega
  · have := hok judgement.sourceOk
    have := hok (cited schedule key)
    split
    case isTrue hsome =>
      rw [hkey, hsome] at hcited
      simp only [Bool.toNat_true] at hcited
      split <;> simp <;> omega
    case isFalse =>
      simp
      omega
  · have := hok judgement.localized
    have := hok (cited schedule key)
    split
    case isTrue hsome =>
      rw [hkey, hsome] at hcited
      simp only [Bool.toNat_true] at hcited
      split <;> simp <;> omega
    case isFalse =>
      simp
      omega
  · intro state
    have := hstate state
    rw [hkeyState] at this
    rw [this]
    cases actual.state <;> split <;> (try split) <;>
      simp [predictedRow, observedStates, Bool.toNat, Bool.cond_decide]

theorem judgement_stage (slot : ExpectedSlot) (actual : ObservedValue) (judgement : Judgement) :
    AllIn .predicting (judgementTicks policy slot actual judgement) := by
  unfold judgementTicks sourceTicks localizationTicks flag
  split <;> (try split) <;> simp [Tick.stage, Count.stage]

structure Predicted (schedule : Schedule) (before : Marks) (ticks : Tally) (after : Marks) :
    Prop where
  advances : Advances schedule (total ticks) before after
  known : Known schedule before → Known schedule after
  stage : AllIn .predicting ticks
  review : after.reviewCases = before.reviewCases

theorem predict_counts {caseId : String} {proposal : PageProposal} {before after : Marks}
    {actual : ObservedValue} {ticks : Tally}
    (h : predict scorer policy schedule caseId proposal before actual = .ok (ticks, after)) :
    Predicted schedule before ticks after := by
  unfold predict at h
  simp only at h
  split at h
  case h_1 hunknown =>
    obtain ⟨rfl, rfl⟩ := Prod.mk.inj (Except.ok.inj h)
    refine ⟨?_, id, by simp [Tick.stage, Count.stage], rfl⟩
    constructor <;> simp [predictedRow, observedStates]
  case h_2 slot hslot =>
    split at h
    case isTrue hseen =>
      obtain ⟨rfl, rfl⟩ := Prod.mk.inj (Except.ok.inj h)
      refine ⟨?_, id, by simp [Tick.stage, Count.stage], rfl⟩
      constructor <;> simp [predictedRow, observedStates]
    case isFalse hfresh =>
      obtain ⟨judgement, -, h⟩ := bind_ok.mp h
      obtain ⟨rfl, rfl⟩ := Prod.mk.inj (Except.ok.inj h)
      refine ⟨judged_advances judgement rfl hslot hfresh _, fun known => ⟨?_, ?_⟩, ?_, rfl⟩
      · intro key hkey
        obtain rfl | hkey := Finset.mem_insert.mp hkey
        · rw [hslot]
          rfl
        · exact known.expected key hkey
      · dsimp only
        split
        · exact Finset.insert_subset_insert _ known.correct
        · exact known.correct.trans (Finset.subset_insert _ _)
      · rw [allIn_append]
        exact ⟨by simp [Tick.stage, Count.stage], judgement_stage slot actual judgement⟩

theorem accumulate_rule {α : Type} {step : Marks → α → Except Halt (Tally × Marks)}
    {P : List α → Marks → Tally → Marks → Prop} (nil : ∀ marks, P [] marks [] marks)
    (cons : ∀ x rest before ticks middle later after, step before x = .ok (ticks, middle) →
      P rest middle later after → P (x :: rest) before (ticks ++ later) after)
    {xs : List α} {before after : Marks} {ticks : Tally}
    (h : accumulate step xs before = .ok (ticks, after)) : P xs before ticks after := by
  induction xs generalizing before ticks with
  | nil =>
    obtain ⟨rfl, rfl⟩ := Prod.mk.inj (Except.ok.inj h)
    exact nil _
  | cons x rest ih =>
    unfold accumulate at h
    obtain ⟨⟨first, middle⟩, hstep, h⟩ := bind_ok.mp h
    obtain ⟨⟨later, last⟩, hrest, h⟩ := bind_ok.mp h
    obtain ⟨rfl, rfl⟩ := Prod.mk.inj (Except.ok.inj h)
    exact cons x rest _ _ _ _ _ hstep (ih hrest)

theorem total_add (xs ys : Tally) : total (xs ++ ys) = fun tick => total xs tick + total ys tick :=
  funext fun tick => total_append xs ys tick

theorem Predicted.trans {m₁ m₂ m₃ : Marks} {xs ys : Tally} (h : Predicted schedule m₁ xs m₂)
    (h' : Predicted schedule m₂ ys m₃) : Predicted schedule m₁ (xs ++ ys) m₃ where
  advances := by
    rw [total_add]
    exact h.advances.trans h'.advances
  known known := h'.known (h.known known)
  stage := (allIn_append ..).mpr ⟨h.stage, h'.stage⟩
  review := h'.review.trans h.review

theorem predictions_count {caseId : String} {proposal : PageProposal} {observed : List ObservedValue}
    {before after : Marks} {ticks : Tally}
    (h : accumulate (predict scorer policy schedule caseId proposal) observed before =
      .ok (ticks, after)) : Predicted schedule before ticks after := by
  refine accumulate_rule (P := fun _ => Predicted schedule) (fun marks => ?_) ?_ h
  · exact ⟨.still (allIn_nil .paging) nofun rfl, id, allIn_nil _, rfl⟩
  · intro actual rest before ticks middle later after hstep hrest
    exact (predict_counts hstep).trans hrest

def pageCounts : List Count :=
  [.candidatePages, .failedPages, .refusedPages, .handoffPages, .reviewRequiredPages,
    .runnerErrorPages]

theorem total_map_other {α : Type} {xs : List α} {f : α → Tick × ℤ} {tick : Tick}
    (h : ∀ x, (f x).1 ≠ tick) : total (xs.map f) tick = 0 := by
  refine total_eq_zero fun entry hentry => ?_
  obtain ⟨x, -, rfl⟩ := List.mem_map.mp hentry
  exact h x

theorem allIn_map {α : Type} {stage : Stage} {xs : List α} {f : α → Tick × ℤ}
    (h : ∀ x, (f x).1.stage = stage) : AllIn stage (xs.map f) := by
  intro entry hentry
  obtain ⟨x, -, rfl⟩ := List.mem_map.mp hentry
  exact h x

theorem allIn_flatMap {α : Type} {stage : Stage} {xs : List α} {f : α → Tally}
    (h : ∀ x, AllIn stage (f x)) : AllIn stage (xs.flatMap f) := by
  intro entry hentry
  obtain ⟨x, -, hx⟩ := List.mem_flatMap.mp hentry
  exact h x entry hx

theorem outcomeTicks_stage (outcome : PageOutcome) : AllIn .paging (outcomeTicks outcome) := by
  simp only [outcomeTicks, allIn_append]
  refine ⟨⟨⟨⟨?_, allIn_map fun _ => rfl⟩, allIn_flatMap fun _ => allIn_map fun _ => rfl⟩,
    allIn_map fun _ => rfl⟩, ?_⟩ <;> simp [flag, Tick.stage, Count.stage]

theorem outcomeTicks_counts (outcome : PageOutcome) (name : Count) (hname : name ∈ pageCounts) :
    0 ≤ total (outcomeTicks outcome) (.count name) ∧
      total (outcomeTicks outcome) (.count name) ≤ 1 := by
  have hflat : total (outcome.telemetry.attempts.flatMap fun attempt =>
      attempt.failure.toList.map fun code => ((.attemptFailure code, 1) : Tick × ℤ))
        (.count name) = 0 := by
    refine total_eq_zero fun entry hentry => ?_
    obtain ⟨attempt, -, hattempt⟩ := List.mem_flatMap.mp hentry
    obtain ⟨code, -, rfl⟩ := List.mem_map.mp hattempt
    nofun
  have hfailure : total (outcome.failure.toList.map fun code =>
      ((.pageFailure code, 1) : Tick × ℤ)) (.count name) = 0 := total_map_other fun _ h => nomatch h
  have hreasons : total (outcome.handoffs.map fun handoff =>
      ((.handoffReason handoff.reason, 1) : Tick × ℤ)) (.count name) = 0 :=
    total_map_other fun _ h => nomatch h
  simp only [outcomeTicks, total_append, hflat, hfailure, hreasons]
  simp only [pageCounts, List.mem_cons, List.not_mem_nil, or_false] at hname
  have hcandidate := toNat_between (decide (outcome.status = .candidate))
  have hfailed := toNat_between (decide (outcome.status = .failed))
  have hrefused := toNat_between (decide (outcome.failure = some .refused))
  have hhandoff := toNat_between (decide (outcome.handoffs ≠ []))
  have hreview := toNat_between outcome.needsReview
  obtain rfl | rfl | rfl | rfl | rfl | rfl := hname <;> simp [flag] at * <;> omega

theorem proposalTicks_stage (proposal : PageProposal) : AllIn .paging (proposalTicks proposal) := by
  simp [proposalTicks, Tick.stage, Count.stage]

theorem proposalTicks_counts (proposal : PageProposal) (name : Count) (hname : name ∈ pageCounts) :
    total (proposalTicks proposal) (.count name) = 0 := by
  simp only [pageCounts, List.mem_cons, List.not_mem_nil, or_false] at hname
  obtain rfl | rfl | rfl | rfl | rfl | rfl := hname <;> simp [proposalTicks]

theorem absentTicks_stage (error : Option EvaluationExecutionError) :
    AllIn .paging (absentTicks error) := by
  cases error <;> simp [absentTicks, flag, Tick.stage, Count.stage]

theorem absentTicks_counts (error : Option EvaluationExecutionError) (name : Count)
    (hname : name ∈ pageCounts) : 0 ≤ total (absentTicks error) (.count name) ∧
      total (absentTicks error) (.count name) ≤ 1 := by
  simp only [pageCounts, List.mem_cons, List.not_mem_nil, or_false] at hname
  cases error with
  | none =>
    obtain rfl | rfl | rfl | rfl | rfl | rfl := hname <;> simp [absentTicks]
  | some error =>
    have hrefused := toNat_between (decide (error.failure = .refused))
    obtain rfl | rfl | rfl | rfl | rfl | rfl := hname <;> simp [absentTicks, flag]
    exact_mod_cast hrefused.2

structure Paged (schedule : Schedule) (repetition : ℕ) (keys : List PageKey) (before : Marks)
    (ticks : Tally) (after : Marks) : Prop where
  advances : Advances schedule (total ticks) before after
  known : Known schedule before → Known schedule after
  counts : ∀ name ∈ pageCounts, 0 ≤ total ticks (.count name) ∧
    total ticks (.count name) ≤ keys.length
  stages : ∀ entry ∈ ticks, entry.1.stage = .paging ∨ entry.1.stage = .predicting
  review : ∀ caseId ∈ after.reviewCases, caseId ∈ before.reviewCases ∨
    ∃ key ∈ keys, key.1 = caseId ∧
      ∃ outcome, (schedule.outcomes repetition).get? key = some outcome ∧
        outcome.needsReview = true

theorem pageCounts_stage : ∀ name ∈ pageCounts, (Tick.count name).stage = .paging := by decide

theorem scorePage_counts {repetition : ℕ} {before after : Marks} {key : PageKey} {ticks : Tally}
    (h : scorePage scorer policy schedule repetition before key = .ok (ticks, after)) :
    Paged schedule repetition [key] before ticks after := by
  unfold scorePage at h
  split at h
  case h_1 =>
    obtain ⟨rfl, rfl⟩ := Prod.mk.inj (Except.ok.inj h)
    exact ⟨.still (absentTicks_stage _) nofun rfl, id, absentTicks_counts _,
      fun entry hentry => .inl (absentTicks_stage _ entry hentry), fun _ => .inl⟩
  case h_2 outcome houtcome =>
    obtain ⟨marks, hmarks⟩ : ∃ marks, marks = if outcome.needsReview then
      { before with reviewCases := insert key.1 before.reviewCases } else before := ⟨_, rfl⟩
    have hseen : marks.seen = before.seen := by
      rw [hmarks]
      split <;> rfl
    have hknown : Known schedule before → Known schedule marks := by
      intro known
      rw [hmarks]
      split
      · exact ⟨known.expected, known.correct⟩
      · exact known
    have hreview : ∀ caseId ∈ marks.reviewCases, caseId ∈ before.reviewCases ∨
        ∃ other ∈ [key], other.1 = caseId ∧
          ∃ outcome, (schedule.outcomes repetition).get? other = some outcome ∧
            outcome.needsReview = true := by
      intro caseId hcase
      rw [hmarks] at hcase
      split at hcase
      case isTrue hneeds =>
        obtain rfl | hcase := Finset.mem_insert.mp hcase
        · exact .inr ⟨key, List.mem_singleton_self _, rfl, outcome, houtcome, hneeds⟩
        · exact .inl hcase
      case isFalse => exact .inl hcase
    have opening : Advances schedule (total (outcomeTicks outcome)) before marks :=
      .still (outcomeTicks_stage outcome) nofun hseen
    simp only [← hmarks] at h
    split at h
    case h_1 =>
      obtain ⟨rfl, rfl⟩ := Prod.mk.inj (Except.ok.inj h)
      exact ⟨opening, hknown, outcomeTicks_counts outcome,
        fun entry hentry => .inl (outcomeTicks_stage outcome entry hentry), hreview⟩
    case h_2 proposal hproposal =>
      obtain ⟨⟨predicted, last⟩, hpredicted, h⟩ := bind_ok.mp h
      obtain ⟨rfl, rfl⟩ := Prod.mk.inj (Except.ok.inj h)
      have law := predictions_count hpredicted
      have declared : Advances schedule (total (proposalTicks proposal)) marks marks :=
        .still (proposalTicks_stage proposal) nofun rfl
      refine ⟨?_, fun known => law.known (hknown known), fun name hname => ?_, ?_, ?_⟩
      · rw [total_add, total_add]
        exact (opening.trans declared).trans law.advances
      · have hpredicting : total predicted (.count name) = 0 :=
          law.stage.total (by rw [pageCounts_stage name hname]; nofun)
        rw [total_append, total_append, proposalTicks_counts proposal name hname, hpredicting,
          add_zero, add_zero]
        exact outcomeTicks_counts outcome name hname
      · intro entry hentry
        obtain hentry | hentry := List.mem_append.mp hentry
        · exact .inl ((allIn_append ..).mpr
            ⟨outcomeTicks_stage outcome, proposalTicks_stage proposal⟩ entry hentry)
        · exact .inr (law.stage entry hentry)
      · rw [law.review]
        exact hreview

theorem Paged.cons {repetition : ℕ} {key : PageKey} {rest : List PageKey} {m₁ m₂ m₃ : Marks}
    {xs ys : Tally} (h : Paged schedule repetition [key] m₁ xs m₂)
    (h' : Paged schedule repetition rest m₂ ys m₃) :
    Paged schedule repetition (key :: rest) m₁ (xs ++ ys) m₃ where
  advances := by
    rw [total_add]
    exact h.advances.trans h'.advances
  known known := h'.known (h.known known)
  counts name hname := by
    have hfirst := h.counts name hname
    have hrest := h'.counts name hname
    rw [total_append]
    simp only [List.length_cons, List.length_nil] at hfirst ⊢
    omega
  stages entry hentry := by
    obtain hentry | hentry := List.mem_append.mp hentry
    · exact h.stages entry hentry
    · exact h'.stages entry hentry
  review caseId hcase := by
    obtain hcase | ⟨other, hother, found⟩ := h'.review caseId hcase
    · obtain hcase | ⟨other, hother, found⟩ := h.review caseId hcase
      · exact .inl hcase
      · obtain rfl := List.mem_singleton.mp hother
        exact .inr ⟨other, List.mem_cons_self, found⟩
    · exact .inr ⟨other, List.mem_cons_of_mem _ hother, found⟩

theorem pages_count {repetition : ℕ} {keys : List PageKey} {before after : Marks} {ticks : Tally}
    (h : accumulate (scorePage scorer policy schedule repetition) keys before = .ok (ticks, after)) :
    Paged schedule repetition keys before ticks after := by
  refine accumulate_rule (P := Paged schedule repetition) (fun marks => ?_) ?_ h
  · exact ⟨.still (allIn_nil .paging) nofun rfl, id, by simp, nofun, fun _ => .inl⟩
  · intro key rest before ticks middle later after hstep hrest
    exact (scorePage_counts hstep).cons hrest

end AppraisalReview.Evaluation
