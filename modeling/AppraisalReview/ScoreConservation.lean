import AppraisalReview.ScheduleLaws
import AppraisalReview.ScoreCounts

set_option autoImplicit false

/-!
# Scores conserve every page and field

The counters of one repeat satisfy linear laws, which a sum of repeats inherits.
-/
namespace AppraisalReview.Evaluation
open Extraction Raising

variable {scorer : Scorer} {policy : ScoringPolicy} {schedule : Schedule} {repetition : ℕ}

def caseCounts : List Count :=
  [.observedCases, .missingCases, .completeCaseOutcomes, .allCandidateCases, .fullyCorrectCases,
    .reviewRequiredCases]

/-- The row of a golden state, the fields without a prediction included. -/
def confusionRow (c : Tick → ℤ) (state : ObservedState) : ℤ :=
  c (.confusion state none) + predictedRow c state

structure Conserves (c : Tick → ℤ) : Prop where
  pages : c (.count .observedPages) + c (.count .missingPages) = c (.count .scheduledPages)
  observed : 0 ≤ c (.count .observedPages) ∧ 0 ≤ c (.count .missingPages)
  pageBound : ∀ name ∈ pageCounts, 0 ≤ c (.count name) ∧
    c (.count name) ≤ c (.count .scheduledPages)
  caseBound : ∀ name ∈ caseCounts, 0 ≤ c (.count name) ∧
    c (.count name) ≤ c (.count .scheduledCases)
  fields : c (.count .identityMatches) + c (.count .missingPredictions) =
    c (.count .expectedFields)
  missing : 0 ≤ c (.count .missingPredictions)
  predictions : c (.count .identityMatches) + c (.fieldError .unknownField) +
    c (.fieldError .duplicatePrediction) = c (.count .predictions)
  errors : 0 ≤ c (.fieldError .unknownField) ∧ 0 ≤ c (.fieldError .duplicatePrediction)
  correct : 0 ≤ c (.count .correctFields) ∧
    c (.count .correctFields) ≤ c (.count .identityMatches)
  state : 0 ≤ c (.count .stateCorrect) ∧ c (.count .stateCorrect) ≤ c (.count .identityMatches)
  type : 0 ≤ c (.count .typeCorrect) ∧ c (.count .typeCorrect) ≤ c (.count .identityMatches)
  value : 0 ≤ c (.count .valueCorrect) ∧ c (.count .valueCorrect) ≤ c (.count .identityMatches)
  source : 0 ≤ c (.count .sourceCorrect) ∧
    c (.count .sourceCorrect) ≤ c (.count .expectedCitedFields)
  localization : 0 ≤ c (.count .localizationCorrect) ∧
    c (.count .localizationCorrect) ≤ c (.count .expectedCitedFields)
  confusion : ∀ state, confusionRow c state = c (.expectedState state)

theorem Conserves.zero : Conserves fun _ => 0 := by
  constructor <;> simp [confusionRow, predictedRow, observedStates]

theorem Conserves.add {c d : Tick → ℤ} (h : Conserves c) (h' : Conserves d) :
    Conserves fun tick => c tick + d tick where
  pages := by have := h.pages; have := h'.pages; omega
  observed := by have := h.observed; have := h'.observed; omega
  pageBound name hname := by
    have := h.pageBound name hname
    have := h'.pageBound name hname
    omega
  caseBound name hname := by
    have := h.caseBound name hname
    have := h'.caseBound name hname
    omega
  fields := by have := h.fields; have := h'.fields; omega
  missing := by have := h.missing; have := h'.missing; omega
  predictions := by have := h.predictions; have := h'.predictions; omega
  errors := by have := h.errors; have := h'.errors; omega
  correct := by have := h.correct; have := h'.correct; omega
  state := by have := h.state; have := h'.state; omega
  type := by have := h.type; have := h'.type; omega
  value := by have := h.value; have := h'.value; omega
  source := by have := h.source; have := h'.source; omega
  localization := by have := h.localization; have := h'.localization; omega
  confusion state := by
    have hrow := h.confusion state
    have hrow' := h'.confusion state
    simp only [confusionRow] at hrow hrow' ⊢
    rw [predictedRow_add]
    omega

theorem sum_toNat {α : Type} (xs : List α) (p : α → Bool) :
    (xs.map fun x => ((p x).toNat : ℤ)).sum = (xs.filter p).length := by
  induction xs with
  | nil => rfl
  | cons x xs ih =>
    rw [List.map_cons, List.sum_cons, ih, List.filter_cons]
    cases p x
    · simp
    · simp
      omega

theorem total_flags {α : Type} (xs : List α) (tick : Tick) (p : α → Bool) :
    total (xs.map fun x => flag tick (p x)) tick = (xs.filter p).length := by
  rw [← sum_toNat, total, List.map_map]
  congr 1
  refine List.map_congr_left fun x _ => ?_
  simp [flag]

/-- The seen fields with a property of their golden slot are as many as the entries that have it. -/
theorem card_seen {seen : Finset FieldKey}
    (known : ∀ key ∈ seen, (schedule.expected.get? key).isSome = true) (q : ExpectedSlot → Bool) :
    (seen.filter fun key => (schedule.expected.get? key).any q).card =
      (schedule.expected.items.filter fun entry => decide (entry.1 ∈ seen) && q entry.2).length := by
  have hnodup : ((schedule.expected.items.filter fun entry =>
      decide (entry.1 ∈ seen) && q entry.2).map Prod.fst).Nodup :=
    schedule.expected.keysNodup.sublist (List.filter_sublist.map _)
  rw [← List.length_map (f := Prod.fst), ← List.toFinset_card_of_nodup hnodup]
  congr 1
  ext key
  simp only [Finset.mem_filter, List.mem_toFinset, List.mem_map, List.mem_filter,
    Bool.and_eq_true, decide_eq_true_eq]
  constructor
  · rintro ⟨hseen, hany⟩
    obtain ⟨slot, hslot⟩ := Option.isSome_iff_exists.mp (known key hseen)
    rw [hslot] at hany
    exact ⟨(key, slot), ⟨(Dict.mem_items _ _ _).mpr hslot, hseen, hany⟩, rfl⟩
  · rintro ⟨⟨found, slot⟩, ⟨hitem, hseen, hq⟩, rfl⟩
    rw [(Dict.mem_items _ _ _).mp hitem]
    exact ⟨hseen, hq⟩

structure Bound (schedule : Schedule) : Prop where
  outcomes : ∀ repetition key, key ∈ (schedule.outcomes repetition).keys → key ∈ schedule.pages.keys
  cases : ∀ key ∈ schedule.pages.keys, key.1 ∈ schedule.cases.keys

theorem opening_stage : AllIn .opening (openingTicks schedule repetition) := by
  rw [openingTicks, allIn_append]
  refine ⟨by simp [sizeTicks, Tick.stage, Count.stage], allIn_flatMap fun caseId => ?_⟩
  simp [caseTicks, flag, Tick.stage, Count.stage]

theorem closing_stage (marks : Marks) : AllIn .closing (closingTicks schedule repetition marks) := by
  simp only [closingTicks, allIn_append]
  refine ⟨⟨⟨by simp [fieldTicks, Tick.stage, Count.stage], allIn_flatMap fun entry => ?_⟩,
    allIn_map fun _ => rfl⟩, by simp [Tick.stage, Count.stage]⟩
  simp [expectedTicks, flag, Tick.stage, Count.stage]

theorem opening_total (name : Count) : total (openingTicks schedule repetition) (.count name) =
    total (sizeTicks schedule repetition) (.count name) +
      (schedule.cases.keys.map fun caseId =>
        total (caseTicks schedule repetition caseId) (.count name)).sum := by
  rw [openingTicks, total_append, total_flatMap]

theorem opening_sizes :
    total (openingTicks schedule repetition) (.count .scheduledPages) =
      schedule.pages.items.length ∧
    total (openingTicks schedule repetition) (.count .scheduledCases) =
      schedule.cases.items.length ∧
    total (openingTicks schedule repetition) (.count .observedPages) =
      (schedule.outcomes repetition).items.length ∧
    total (openingTicks schedule repetition) (.count .missingPages) =
      (schedule.pages.items.length : ℤ) - (schedule.outcomes repetition).items.length := by
  simp only [opening_total]
  refine ⟨?_, ?_, ?_, ?_⟩ <;> simp [sizeTicks, caseTicks, flag]

theorem opening_cases (name : Count) (hname : name ∈ [Count.observedCases, .missingCases,
    .completeCaseOutcomes, .allCandidateCases]) :
    0 ≤ total (openingTicks schedule repetition) (.count name) ∧
      total (openingTicks schedule repetition) (.count name) ≤ schedule.cases.items.length := by
  have hsize : total (sizeTicks schedule repetition) (.count name) = 0 := by
    simp only [List.mem_cons, List.not_mem_nil, or_false] at hname
    obtain rfl | rfl | rfl | rfl := hname <;> simp [sizeTicks]
  have hlength : schedule.cases.items.length = schedule.cases.keys.length :=
    (List.length_map ..).symm
  rw [opening_total, hsize, zero_add, hlength]
  refine sum_between _ _ fun caseId _ => ?_
  have h := fun b : Bool => toNat_between b
  simp only [List.mem_cons, List.not_mem_nil, or_false] at hname
  obtain rfl | rfl | rfl | rfl := hname <;> simp only [caseTicks, flag, total_cons, total_nil] <;>
    simp only [Tick.count.injEq, reduceCtorEq, if_true, if_false, add_zero, zero_add] <;> exact h _

theorem closing_total (marks : Marks) (tick : Tick) :
    total (closingTicks schedule repetition marks) tick =
      total (fieldTicks schedule marks) tick +
      (schedule.expected.items.map fun entry => total (expectedTicks marks.seen entry) tick).sum +
      total (schedule.cases.keys.map fun caseId => flag (.count .fullyCorrectCases)
        (fullyCorrect schedule repetition marks.correct caseId)) tick +
      total [(Tick.count .reviewRequiredCases,
        ((reviewCases schedule repetition marks).card : ℤ))] tick := by
  rw [closingTicks, total_append, total_append, total_append, total_flatMap]

theorem closing_other (marks : Marks) {tick : Tick} (h : Tick.count .fullyCorrectCases ≠ tick) :
    total (closingTicks schedule repetition marks) tick =
      total (fieldTicks schedule marks) tick +
      (schedule.expected.items.map fun entry => total (expectedTicks marks.seen entry) tick).sum +
      total [(Tick.count .reviewRequiredCases,
        ((reviewCases schedule repetition marks).card : ℤ))] tick := by
  rw [closing_total, total_map_other fun _ => h, add_zero]

structure Closed (schedule : Schedule) (repetition : ℕ) (marks : Marks) (c : Tick → ℤ) : Prop where
  correct : c (.count .correctFields) = marks.correct.card
  missing : c (.count .missingPredictions) =
    (schedule.expected.items.length : ℤ) - marks.seen.card
  expected : c (.count .expectedFields) = schedule.expected.items.length
  cited : c (.count .expectedCitedFields) =
    (schedule.expected.items.filter fun entry => entry.2.observed.citation.isSome).length
  fullyCorrect : c (.count .fullyCorrectCases) =
    (schedule.cases.keys.filter (fullyCorrect schedule repetition marks.correct)).length
  review : c (.count .reviewRequiredCases) = (reviewCases schedule repetition marks).card
  state : ∀ state, c (.expectedState state) =
    (schedule.expected.items.filter fun entry => entry.2.observed.state = state).length
  unpredicted : ∀ state, c (.confusion state none) =
    (schedule.expected.items.filter fun entry =>
      entry.2.observed.state = state && decide (entry.1 ∉ marks.seen)).length

theorem closing_closed (marks : Marks) : Closed schedule repetition marks
    (total (closingTicks schedule repetition marks)) := by
  constructor
  · rw [closing_other _ (by simp)]
    simp [fieldTicks, expectedTicks, flag]
  · rw [closing_other _ (by simp)]
    simp [fieldTicks, expectedTicks, flag]
  · rw [closing_other _ (by simp)]
    simp [fieldTicks, expectedTicks, flag]
  · rw [closing_other _ (by simp)]
    simp [fieldTicks, expectedTicks, flag, sum_toNat]
  · rw [closing_total, total_flags]
    simp [fieldTicks, expectedTicks, flag]
  · rw [closing_other _ (by simp)]
    simp [fieldTicks, expectedTicks, flag]
  · intro state
    rw [closing_other _ (by simp), ← sum_toNat]
    simp [fieldTicks, expectedTicks, flag, Bool.toNat, Bool.cond_decide]
  · intro state
    rw [closing_other _ (by simp), ← sum_toNat]
    simp only [fieldTicks, expectedTicks, flag, total_cons, total_nil, reduceCtorEq, if_false,
      add_zero, zero_add, Tick.confusion.injEq, and_true]
    congr 1
    refine List.map_congr_left fun entry _ => ?_
    by_cases hstate : entry.2.observed.state = state <;> simp [hstate]

theorem cases_card {seen : Finset String} (h : ∀ caseId ∈ seen, caseId ∈ schedule.cases.keys) :
    seen.card ≤ schedule.cases.items.length := by
  have hsub : seen ⊆ schedule.cases.keys.toFinset := fun caseId hcase =>
    List.mem_toFinset.mpr (h caseId hcase)
  have hlength : schedule.cases.keys.length = schedule.cases.items.length := List.length_map ..
  rw [← hlength]
  exact (Finset.card_le_card hsub).trans (List.toFinset_card_le _)

theorem Bound.observed (bound : Bound schedule) :
    (schedule.outcomes repetition).items.length ≤ schedule.pages.items.length := by
  have hsub : (schedule.outcomes repetition).keys ⊆ schedule.pages.keys :=
    fun key hkey => bound.outcomes repetition key hkey
  have hlength := ((schedule.outcomes repetition).keysNodup.subperm hsub).length_le
  simpa [Dict.keys] using hlength

structure Repeated (scorer : Scorer) (policy : ScoringPolicy) (schedule : Schedule)
    (repetition : ℕ) (tally : Tally) (marks : Marks) : Prop where
  paging : ∃ ticks, Paged schedule repetition schedule.pages.keys {} ticks marks ∧
    tally = openingTicks schedule repetition ++ ticks ++ closingTicks schedule repetition marks
  known : Known schedule marks

theorem scoreRepeat_ok {tally : Tally} {marks : Marks}
    (h : scoreRepeat scorer policy schedule repetition = .ok (tally, marks)) :
    Repeated scorer policy schedule repetition tally marks := by
  unfold scoreRepeat at h
  obtain ⟨⟨ticks, last⟩, hpages, h⟩ := bind_ok.mp h
  obtain ⟨rfl, rfl⟩ := Prod.mk.inj (Except.ok.inj h)
  have paged := pages_count hpages
  exact ⟨⟨ticks, paged, rfl⟩, paged.known ⟨by simp, by simp⟩⟩

theorem repeat_total {ticks : Tally} {marks : Marks}
    (paged : Paged schedule repetition schedule.pages.keys {} ticks marks) (tick : Tick) :
    total (openingTicks schedule repetition ++ ticks ++ closingTicks schedule repetition marks) tick =
      match tick.stage with
      | .opening => total (openingTicks schedule repetition) tick
      | .closing => total (closingTicks schedule repetition marks) tick
      | _ => total ticks tick := by
  have opening := @opening_stage schedule repetition
  have closing := @closing_stage schedule repetition marks
  have middle : tick.stage = .opening ∨ tick.stage = .closing → total ticks tick = 0 := by
    intro h
    refine total_eq_zero fun entry hentry heq => ?_
    have hstage := paged.stages entry hentry
    rw [heq] at hstage
    obtain h | h := h <;> rw [h] at hstage <;> simp at hstage
  rw [total_append, total_append]
  cases hstage : tick.stage with
  | opening =>
    rw [middle (.inl hstage), closing.total (by rw [hstage]; nofun)]
    simp
  | closing =>
    rw [middle (.inr hstage), opening.total (by rw [hstage]; nofun)]
    simp
  | paging | predicting =>
    rw [closing.total (by rw [hstage]; nofun), opening.total (by rw [hstage]; nofun)]
    simp

theorem filter_split {α : Type} (xs : List α) (p q : α → Bool) :
    (xs.filter fun x => q x && !p x).length + (xs.filter fun x => p x && q x).length =
      (xs.filter q).length := by
  induction xs with
  | nil => rfl
  | cons x xs ih =>
    simp only [List.filter_cons]
    cases p x <;> cases q x <;> simp <;> omega

theorem filter_and_le {α : Type} (xs : List α) (p q : α → Bool) :
    (xs.filter fun x => p x && q x).length ≤ (xs.filter q).length := by
  have := filter_split xs p q
  omega

theorem Repeated.review_cases (bound : Bound schedule) {tally : Tally} {marks : Marks}
    (h : Repeated scorer policy schedule repetition tally marks) :
    ∀ caseId ∈ reviewCases schedule repetition marks, caseId ∈ schedule.cases.keys := by
  intro caseId hcase
  obtain ⟨ticks, paged, -⟩ := h.paging
  obtain hmarks | hlisted := Finset.mem_union.mp hcase
  · obtain hnone | ⟨key, hkey, rfl, -⟩ := paged.review caseId hmarks
    · exact absurd hnone (Finset.notMem_empty _)
    · exact bound.cases key hkey
  · exact List.mem_of_mem_filter (List.mem_toFinset.mp hlisted)

theorem Repeated.conserves (bound : Bound schedule) {tally : Tally} {marks : Marks}
    (h : Repeated scorer policy schedule repetition tally marks) : Conserves (total tally) := by
  obtain ⟨ticks, paged, htally⟩ := h.paging
  have split : ∀ tick, total tally tick = match tick.stage with
      | .opening => total (openingTicks schedule repetition) tick
      | .closing => total (closingTicks schedule repetition marks) tick
      | _ => total ticks tick := by
    rw [htally]
    exact repeat_total paged
  have known := h.known
  have closed : Closed schedule repetition marks _ := closing_closed marks
  obtain ⟨scheduledPages, scheduledCases, observedPages, missingPages⟩ :=
    @opening_sizes schedule repetition
  have observed := @Bound.observed schedule repetition bound
  have advances := paged.advances
  have keysLength : schedule.pages.keys.length = schedule.pages.items.length := List.length_map ..
  have seen : marks.seen.card ≤ schedule.expected.items.length := by
    have hall := card_seen known.expected fun _ => true
    have hany : (marks.seen.filter fun key =>
        (schedule.expected.get? key).any fun _ => true) = marks.seen := by
      refine Finset.filter_true_of_mem fun key hkey => ?_
      obtain ⟨slot, hslot⟩ := Option.isSome_iff_exists.mp (known.expected key hkey)
      rw [hslot]
      rfl
    rw [hany] at hall
    rw [hall]
    exact List.length_filter_le ..
  have correct : marks.correct.card ≤ marks.seen.card := Finset.card_le_card known.correct
  have cited : (marks.seen.filter fun key => cited schedule key).card ≤
      (schedule.expected.items.filter fun entry => entry.2.observed.citation.isSome).length := by
    rw [show (marks.seen.filter fun key => cited schedule key).card = _ from
      card_seen known.expected fun slot => slot.observed.citation.isSome]
    exact filter_and_le _ _ _
  have identity := advances.identity
  simp only [Finset.card_empty, Nat.cast_zero, sub_zero] at identity
  constructor
  · simp only [split, Tick.stage, Count.stage]
    omega
  · simp only [split, Tick.stage, Count.stage]
    omega
  · intro name hname
    have hstage := pageCounts_stage name hname
    have hcount := paged.counts name hname
    rw [split, hstage, split]
    simp only [Tick.stage, Count.stage]
    omega
  · intro name hname
    rw [split (.count .scheduledCases)]
    simp only [Tick.stage, Count.stage, scheduledCases]
    simp only [caseCounts, List.mem_cons, List.not_mem_nil, or_false] at hname
    obtain rfl | rfl | rfl | rfl | rfl | rfl := hname
    · rw [split]
      exact opening_cases _ (by decide)
    · rw [split]
      exact opening_cases _ (by decide)
    · rw [split]
      exact opening_cases _ (by decide)
    · rw [split]
      exact opening_cases _ (by decide)
    · rw [split]
      simp only [Tick.stage, Count.stage, closed.fullyCorrect]
      have hle := List.length_filter_le (fullyCorrect schedule repetition marks.correct)
        schedule.cases.keys
      have hlength : schedule.cases.keys.length = schedule.cases.items.length := List.length_map ..
      omega
    · rw [split]
      simp only [Tick.stage, Count.stage, closed.review]
      have hle := cases_card (h.review_cases bound)
      omega
  · simp only [split, Tick.stage, Count.stage, closed.missing, closed.expected]
    omega
  · simp only [split, Tick.stage, Count.stage, closed.missing]
    omega
  · simp only [split, Tick.stage, Count.stage]
    have := advances.predictions
    omega
  · simp only [split, Tick.stage]
    exact advances.errors
  · simp only [split, Tick.stage, Count.stage, closed.correct]
    omega
  · simp only [split, Tick.stage, Count.stage]
    exact advances.state
  · simp only [split, Tick.stage, Count.stage]
    exact advances.type
  · simp only [split, Tick.stage, Count.stage]
    exact advances.value
  · simp only [split, Tick.stage, Count.stage, closed.cited]
    have hsource := advances.source
    simp only [Finset.filter_empty, Finset.card_empty, Nat.cast_zero, sub_zero] at hsource
    omega
  · simp only [split, Tick.stage, Count.stage, closed.cited]
    have hlocalization := advances.localization
    simp only [Finset.filter_empty, Finset.card_empty, Nat.cast_zero, sub_zero] at hlocalization
    omega
  · intro state
    have hrow := advances.confusion state
    simp only [Finset.filter_empty, Finset.card_empty, Nat.cast_zero, sub_zero] at hrow
    rw [show (marks.seen.filter fun key => hasState schedule state key).card = _ from
      card_seen known.expected fun slot => slot.observed.state = state] at hrow
    have hsplit := filter_split schedule.expected.items (fun entry => decide (entry.1 ∈ marks.seen))
      fun entry => decide (entry.2.observed.state = state)
    have hpredicted : predictedRow (total tally) state = predictedRow (total ticks) state := by
      simp only [predictedRow, split, Tick.stage]
    rw [confusionRow, hpredicted, hrow, split, split (.expectedState state)]
    simp only [Tick.stage, closed.unpredicted, closed.state, decide_not]
    omega

/-- A fully correct case needs review only for a handoff or an open item on one of its pages. -/
theorem Repeated.fully_correct {tally : Tally} {marks : Marks}
    (h : Repeated scorer policy schedule repetition tally marks) {caseId : String}
    (correct : fullyCorrect schedule repetition marks.correct caseId = true)
    (review : caseId ∈ reviewCases schedule repetition marks) :
    ∃ key ∈ pagesOf schedule caseId, ∃ outcome,
      (schedule.outcomes repetition).get? key = some outcome ∧
        (outcome.handoffs ≠ [] ∨ ∃ proposal, outcome.proposal = some proposal ∧
          (proposal.unresolved ≠ [] ∨ proposal.unsupported ≠ [])) := by
  obtain ⟨ticks, paged, -⟩ := h.paging
  simp only [fullyCorrect, Bool.and_eq_true, List.all_eq_true] at correct
  obtain ⟨⟨-, answered⟩, candidates⟩ := correct
  have complete : completeCase schedule repetition caseId = true := by
    have present : ∀ key ∈ pagesOf schedule caseId,
        ((schedule.outcomes repetition).get? key).isSome = true := by
      intro key hkey
      cases houtcome : (schedule.outcomes repetition).get? key with
      | none => simpa [houtcome] using candidates key hkey
      | some outcome => rfl
    exact decide_eq_true (List.filterMap_length_eq_length.mpr present)
  obtain hmarks | hlisted := Finset.mem_union.mp review
  · obtain hnone | ⟨key, hkey, rfl, outcome, houtcome, needs⟩ := paged.review caseId hmarks
    · exact absurd hnone (Finset.notMem_empty _)
    have hpage : key ∈ pagesOf schedule key.1 := List.mem_filter.mpr ⟨hkey, by simp⟩
    refine ⟨key, hpage, outcome, houtcome, ?_⟩
    have candidate := candidates key hpage
    rw [houtcome] at candidate
    simp only [Option.any_some, decide_eq_true_eq] at candidate
    simp only [PageOutcome.needsReview, candidate, reduceCtorEq, decide_false, Bool.false_or,
      Bool.or_eq_true, decide_eq_true_eq] at needs
    refine needs.imp_right fun hproposal => ?_
    cases hfound : outcome.proposal with
    | none => simp [hfound] at hproposal
    | some proposal => exact ⟨proposal, rfl, by simpa [hfound] using hproposal⟩
  · have hopen := List.of_mem_filter (List.mem_toFinset.mp hlisted)
    simp [complete, answered] at hopen

def Metric.inRange (m : Metric) : Prop := ∀ value, m.value = some value → 0 ≤ value ∧ value ≤ 1

theorem metric_inRange {numerator denominator : ℤ} (measured : Bool)
    (h : 0 ≤ numerator ∧ numerator ≤ denominator) :
    (metric numerator denominator measured).inRange := by
  intro value hvalue
  simp only [metric] at hvalue
  split at hvalue
  case isTrue hdenominator =>
    obtain rfl := Option.some.inj hvalue
    have hpositive : (0 : ℚ) < denominator := by
      have : 0 < denominator := by omega
      exact_mod_cast this
    refine ⟨div_nonneg (by exact_mod_cast h.1) hpositive.le, ?_⟩
    rw [div_le_one hpositive]
    exact_mod_cast h.2
  case isFalse => cases hvalue

theorem Conserves.matched {c : Tick → ℤ} (h : Conserves c) :
    0 ≤ c (.count .identityMatches) ∧
      c (.count .identityMatches) ≤ c (.count .predictions) ∧
      c (.count .identityMatches) ≤ c (.count .expectedFields) := by
  have := h.correct
  have := h.predictions
  have := h.errors
  have := h.fields
  have := h.missing
  omega

theorem Conserves.metrics {c : Tick → ℤ} (h : Conserves c) (policy : ScoringPolicy) :
    ∀ entry ∈ metricsOf policy fun name => c (.count name), entry.2.inRange := by
  have matched := h.matched
  have correct := h.correct
  have pages := h.pages
  have observed := h.observed
  have state := h.state
  have type := h.type
  have value := h.value
  have page := h.pageBound
  have case := h.caseBound
  simp only [metricsOf, List.forall_mem_cons]
  refine ⟨metric_inRange _ (by omega), metric_inRange _ (by omega), metric_inRange _ (by omega),
    metric_inRange _ (by omega), metric_inRange _ (by omega), metric_inRange _ (by omega),
    metric_inRange _ (by omega), metric_inRange _ h.source, metric_inRange _ h.localization,
    metric_inRange _ (by omega), metric_inRange _ (page _ (by decide)),
    metric_inRange _ (case _ (by decide)), metric_inRange _ (case _ (by decide)),
    metric_inRange _ (page _ (by decide)), metric_inRange _ (page _ (by decide)),
    metric_inRange _ (page _ (by decide)), metric_inRange _ (page _ (by decide)),
    metric_inRange _ (case _ (by decide)), nofun⟩

structure ScoreLaw (summary : ScoreSummary) : Prop where
  conserves : Conserves summary.counters
  falsePositives : 0 ≤ summary.falsePositives ∧ summary.falsePositives =
    summary.counters (.count .predictions) - summary.counters (.count .correctFields)
  falseNegatives : 0 ≤ summary.falseNegatives ∧ summary.falseNegatives =
    summary.counters (.count .expectedFields) - summary.counters (.count .correctFields)
  metrics : ∀ entry ∈ summary.metrics, entry.2.inRange

theorem summarize_law {tally : Tally} (h : Conserves (total tally)) :
    ScoreLaw (summarize policy tally) := by
  have matched := h.matched
  have correct := h.correct
  refine ⟨h, ⟨?_, rfl⟩, ⟨?_, rfl⟩, h.metrics policy⟩
  · simp only [summarize]
    omega
  · simp only [summarize]
    omega

/-- The repeat behind a summary: its case counters count the cases of its own sets. -/
structure RepeatLaw (scorer : Scorer) (policy : ScoringPolicy) (schedule : Schedule)
    (repetition : ℕ) (summary : ScoreSummary) : Prop where
  law : ScoreLaw summary
  cases : ∃ tally marks, scoreRepeat scorer policy schedule repetition = .ok (tally, marks) ∧
    summary = summarize policy tally ∧
    summary.counters (.count .fullyCorrectCases) =
      (schedule.cases.keys.filter (fullyCorrect schedule repetition marks.correct)).length ∧
    summary.counters (.count .reviewRequiredCases) =
      (reviewCases schedule repetition marks).card ∧
    ∀ caseId, fullyCorrect schedule repetition marks.correct caseId = true →
      caseId ∈ reviewCases schedule repetition marks →
      ∃ key ∈ pagesOf schedule caseId, ∃ outcome,
        (schedule.outcomes repetition).get? key = some outcome ∧
          (outcome.handoffs ≠ [] ∨ ∃ proposal, outcome.proposal = some proposal ∧
            (proposal.unresolved ≠ [] ∨ proposal.unsupported ≠ []))

theorem score_single {summary : ScoreSummary}
    (h : score scorer policy schedule [repetition] = .ok summary) :
    ∃ tally marks, scoreRepeat scorer policy schedule repetition = .ok (tally, marks) ∧
      summary = summarize policy tally := by
  unfold score at h
  obtain ⟨scored, hscored, h⟩ := bind_ok.mp h
  obtain rfl := Except.ok.inj h
  obtain ⟨part, rest, hrepeat, hrest, rfl⟩ :=
    List.forall₂_cons_left_iff.mp (mapM_ok.mp hscored)
  obtain rfl := List.forall₂_nil_left_iff.mp hrest
  exact ⟨part.1, part.2, hrepeat, by simp⟩

theorem score_repeat (bound : Bound schedule) {summary : ScoreSummary}
    (h : score scorer policy schedule [repetition] = .ok summary) :
    RepeatLaw scorer policy schedule repetition summary := by
  obtain ⟨tally, marks, hrepeat, rfl⟩ := score_single h
  have repeated := scoreRepeat_ok hrepeat
  refine ⟨summarize_law (repeated.conserves bound), tally, marks, hrepeat, rfl, ?_, ?_,
    fun caseId => repeated.fully_correct⟩
  · obtain ⟨ticks, paged, htally⟩ := repeated.paging
    have closed : Closed schedule repetition marks _ := closing_closed marks
    rw [← closed.fullyCorrect]
    change total tally _ = _
    rw [htally, repeat_total paged]
    rfl
  · obtain ⟨ticks, paged, htally⟩ := repeated.paging
    have closed : Closed schedule repetition marks _ := closing_closed marks
    rw [← closed.review]
    change total tally _ = _
    rw [htally, repeat_total paged]
    rfl

/-- The ticks of several repeats are conserved, and their totals are the repeats' totals. -/
theorem repeats_total (bound : Bound schedule) {repeats : List ℕ} {scored : List (Tally × Marks)}
    {summaries : List ScoreSummary}
    (h : List.Forall₂ (fun n part => scoreRepeat scorer policy schedule n = .ok part) repeats scored)
    (h' : List.Forall₂ (fun n summary => score scorer policy schedule [n] = .ok summary) repeats
      summaries) :
    Conserves (total (scored.flatMap Prod.fst)) ∧ ∀ tick, total (scored.flatMap Prod.fst) tick =
      (summaries.map fun summary => summary.counters tick).sum := by
  induction h generalizing summaries with
  | nil =>
    obtain rfl := List.forall₂_nil_left_iff.mp h'
    exact ⟨Conserves.zero, fun _ => rfl⟩
  | @cons n part rest parts hpart hparts ih =>
    obtain ⟨summary, later, hsummary, hlater, rfl⟩ := List.forall₂_cons_left_iff.mp h'
    obtain ⟨conserves, sums⟩ := ih hlater
    obtain ⟨tally, marks, hrepeat, rfl⟩ := score_single hsummary
    obtain rfl := Except.ok.inj (hpart.symm.trans hrepeat)
    have repeated := scoreRepeat_ok hrepeat
    rw [List.flatMap_cons, total_add]
    refine ⟨(repeated.conserves bound).add conserves, fun tick => ?_⟩
    rw [List.map_cons, List.sum_cons, ← sums]
    rfl

/-- The laws of a whole report. -/
structure ReportLaw (scorer : Scorer) (manifest : EvaluationManifest) (schedule : Schedule)
    (report : EvaluationReport) : Prop where
  summary : ScoreLaw report.summary
  repeats : List.Forall₂ (fun repetition summary =>
    RepeatLaw scorer manifest.scoring schedule repetition summary) (repetitions manifest)
      report.repeats
  sums : ∀ tick, report.summary.counters tick =
    (report.repeats.map fun summary => summary.counters tick).sum

theorem Scheduled.bound {rt : Runtime} {manifest : EvaluationManifest} {replay : EvaluationReplay}
    {goldens : GoldenSuite} (h : Scheduled rt manifest replay goldens schedule) :
    Bound schedule :=
  ⟨h.outcomes_pages, h.pages_cases⟩

section
variable {table : ℕ → Dict PageKey PageOutcome} (same : Same schedule.outcomes table)
include same

theorem Same.presentOf (repetition : ℕ) :
    presentOf { schedule with outcomes := table } repetition =
      Evaluation.presentOf schedule repetition := by
  funext caseId
  simp only [Evaluation.presentOf, pagesOf, (same repetition).1]

theorem Same.completeCase (repetition : ℕ) :
    completeCase { schedule with outcomes := table } repetition =
      Evaluation.completeCase schedule repetition := by
  funext caseId
  simp only [Evaluation.completeCase, same.presentOf]
  rfl

theorem Same.openingTicks (repetition : ℕ) :
    openingTicks { schedule with outcomes := table } repetition =
      Evaluation.openingTicks schedule repetition := by
  have cases : caseTicks { schedule with outcomes := table } repetition =
      caseTicks schedule repetition := by
    funext caseId
    simp only [caseTicks, same.presentOf, same.completeCase]
  simp only [Evaluation.openingTicks, cases, sizeTicks, (same repetition).2]

theorem Same.closingTicks (repetition : ℕ) (marks : Marks) :
    closingTicks { schedule with outcomes := table } repetition marks =
      Evaluation.closingTicks schedule repetition marks := by
  have correct : fullyCorrect { schedule with outcomes := table } repetition marks.correct =
      fullyCorrect schedule repetition marks.correct := by
    funext caseId
    simp only [fullyCorrect, (same repetition).1]
    rfl
  simp only [Evaluation.closingTicks, fieldTicks, reviewCases, same.completeCase, answered,
    expectedOf, correct]

theorem Same.scorePage (repetition : ℕ) :
    scorePage scorer policy { schedule with outcomes := table } repetition =
      Evaluation.scorePage scorer policy schedule repetition := by
  have predicted : predict scorer policy { schedule with outcomes := table } =
      predict scorer policy schedule := rfl
  funext marks key
  simp only [Evaluation.scorePage, (same repetition).1, predicted]

theorem Same.score : score scorer policy { schedule with outcomes := table } =
    Evaluation.score scorer policy schedule := by
  funext repeats
  have repeated : scoreRepeat scorer policy { schedule with outcomes := table } =
      scoreRepeat scorer policy schedule := by
    funext repetition
    simp only [scoreRepeat, same.scorePage, same.openingTicks, same.closingTicks]
  simp only [Evaluation.score, repeated]

end

theorem scoreEvaluation_ok {digests : Digests} {manifest : EvaluationManifest}
    {replay : EvaluationReplay} {goldens : GoldenSuite} {report : EvaluationReport} :
    scoreEvaluation scorer digests manifest replay goldens = .ok report ↔
      ∃ schedule, Evaluation.schedule scorer.rt digests manifest replay goldens = .ok schedule ∧
        List.Forall₂ (fun repetition summary =>
          score scorer manifest.scoring schedule [repetition] = .ok summary)
          (repetitions manifest) report.repeats ∧
        score scorer manifest.scoring schedule (repetitions manifest) = .ok report.summary := by
  constructor
  · intro h
    unfold scoreEvaluation at h
    obtain ⟨schedule, hschedule, h⟩ := bind_ok.mp h
    obtain ⟨repeats, hrepeats, h⟩ := bind_ok.mp h
    obtain ⟨summary, hsummary, h⟩ := bind_ok.mp h
    obtain rfl := Except.ok.inj h
    exact ⟨schedule, hschedule, mapM_ok.mp hrepeats, hsummary⟩
  · rintro ⟨schedule, hschedule, hrepeats, hsummary⟩
    unfold scoreEvaluation
    exact bind_ok.mpr ⟨schedule, hschedule, bind_ok.mpr ⟨report.repeats, mapM_ok.mpr hrepeats,
      bind_ok.mpr ⟨report.summary, hsummary, rfl⟩⟩⟩

/-- Scores conserve every page and field, and do not depend on the order of the outcomes. -/
theorem scores_conserve {digests : Digests} {manifest : EvaluationManifest}
    {replay : EvaluationReplay} {goldens : GoldenSuite} {report : EvaluationReport}
    (h : scoreEvaluation scorer digests manifest replay goldens = .ok report) :
    (∃ schedule, Evaluation.schedule scorer.rt digests manifest replay goldens = .ok schedule ∧
      ReportLaw scorer manifest schedule report) ∧
    ∀ outcomes, replay.outcomes.Perm outcomes → scoreEvaluation scorer digests manifest
      { replay with outcomes := outcomes } goldens = .ok report := by
  obtain ⟨schedule, hschedule, hrepeats, hsummary⟩ := scoreEvaluation_ok.mp h
  have bound := (schedule_ok.mp hschedule).2.2.bound
  refine ⟨⟨schedule, hschedule, ?_, ?_, ?_⟩, fun outcomes perm => ?_⟩
  · unfold score at hsummary
    obtain ⟨scored, hscored, hsummary⟩ := bind_ok.mp hsummary
    rw [← Except.ok.inj hsummary]
    exact summarize_law (repeats_total bound (mapM_ok.mp hscored) hrepeats).1
  · exact hrepeats.imp fun _ _ => score_repeat bound
  · unfold score at hsummary
    obtain ⟨scored, hscored, hsummary⟩ := bind_ok.mp hsummary
    rw [← Except.ok.inj hsummary]
    exact (repeats_total bound (mapM_ok.mp hscored) hrepeats).2
  · obtain ⟨table, same, hpermuted⟩ := schedule_perm hschedule perm
    refine scoreEvaluation_ok.mpr ⟨_, hpermuted, ?_⟩
    rw [same.score]
    exact ⟨hrepeats, hsummary⟩

def pageDigest : Digest :=
  ⟨"5555555555555555555555555555555555555555555555555555555555555555", by decide⟩

def pageScorer : Scorer where
  rt := {
    sha256 := fun _ => pageDigest
    casefold := id
    repr := fun text => "'" ++ text ++ "'"
    decimalDigit := fun _ => none
    urlsplit := fun _ => none
    unquote := id }
  ctx := .default
  overlapRatio _ _ := 0

def pageDigests : Digests where
  manifest _ := pageDigest
  dataset _ := pageDigest
  golden _ := pageDigest
  split _ _ := pageDigest
  scoringPolicy _ := pageDigest
  unitConversion := pageDigest
  rates _ := pageDigest
  configuration _ := pageDigest

def pageSource : SanitizedSourceReference where
  document :=
    ⟨⟨"case", by decide⟩, ⟨"sheets", by decide⟩, ⟨"edition", by decide⟩, pageDigest, .forms⟩
  privacyManifestDigest := pageDigest
  pageCount := 2

def pageConfiguration : ProviderConfiguration :=
  ⟨⟨"replay", by decide⟩, "model", ⟨"local", by decide⟩, ⟨"edition", by decide⟩, [], zero64, 100⟩

def pageManifest : EvaluationManifest where
  datasetDigest := pageDigest
  datasetKind := .synthetic
  executionKind := .replay
  split := .development
  splitDigest := pageDigest
  goldenDigest := pageDigest
  goldenSchemaVersion := ⟨"edition", by decide⟩
  inputs := [⟨pageSource, [1, 2]⟩]
  promptVersion := ⟨"edition", by decide⟩
  promptDigest := pageDigest
  configuration := pageConfiguration
  budget := ⟨2, 4, 2, 400, one64⟩
  scoring := ⟨⟨"edition", by decide⟩, pageDigest, ⟨false, 0, 0⟩, ⟨false, 0, 0⟩, .exact, none,
    .notMeasured, none, none⟩
  repeats := 1
  costPolicy := none

/-- A grade field that is on the form, and one that the form does not have. -/
def pageGoldens : GoldenSuite where
  schemaVersion := "edition"
  cases := [{
    caseKey := "golden"
    fixture := ⟨pageDigest, [⟨"sheets", .forms, "edition", pageDigest, 2⟩]⟩
    identity := ⟨"case", "r1", "district", "zone", "residential", 0⟩
    expectedSlots := [
      { slotId := "total", slotValue := .total, context := ⟨.regional, "t", "c"⟩
        observed := ⟨.missing, none, none, none⟩ },
      { slotId := "subtotal", slotValue := .subtotal, context := ⟨.regional, "t", "c"⟩
        observed := ⟨.missing, none, none, none⟩ }] }]

def pageReplay : EvaluationReplay where
  manifestDigest := pageDigest
  bindings := [⟨⟨"case", by decide⟩, "golden"⟩]
  outcomes := [⟨1, {
    request := ⟨⟨⟨7⟩, ⟨⟨"case", by decide⟩, ⟨"r1", by decide⟩, pageDigest⟩, none, none⟩,
      pageSource, 1, ⟨.en, .proposeCase⟩⟩
    status := .candidate
    proposal := some { observed := [⟨"total", .missing, none, none, "", []⟩,
      ⟨"total", .missing, none, none, "", []⟩, ⟨"other", .blank, none, none, "", []⟩] }
    failure := none
    telemetry := ⟨pageConfiguration, ⟨"edition", by decide⟩, pageDigest, []⟩
    handoffs := [] }⟩]
  executionErrors := [⟨1, 0, 2, .refused⟩]

theorem scores_conserve_two_pages : ∃ schedule report,
    Evaluation.schedule pageScorer.rt pageDigests pageManifest pageReplay pageGoldens =
      .ok schedule ∧
    scoreEvaluation pageScorer pageDigests pageManifest pageReplay pageGoldens = .ok report ∧
    ReportLaw pageScorer pageManifest schedule report := by
  have accepted : (scoreEvaluation pageScorer pageDigests pageManifest pageReplay
      pageGoldens).toOption.isSome = true := by decide +kernel
  cases hreport : scoreEvaluation pageScorer pageDigests pageManifest pageReplay pageGoldens with
  | error halt =>
    rw [hreport] at accepted
    cases accepted
  | ok report =>
    obtain ⟨⟨schedule, hschedule, law⟩, -⟩ := scores_conserve hreport
    exact ⟨schedule, report, hschedule, rfl, law⟩

end AppraisalReview.Evaluation
