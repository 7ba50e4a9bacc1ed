import AppraisalReview.FillCandidates
import AppraisalReview.Reordering
import Mathlib.Data.Multiset.Basic

set_option autoImplicit false

/-!
# Slot validation in exact arithmetic

Without limits no operation on a slot raises, and its outcome depends on the
values of the numbers and on what the checks say, not on their order.
-/
namespace AppraisalReview
open Raising Reordering

variable (rt : Runtime)

def Candidate.key : Candidate → ℚ ⊕ String
  | .number value => .inl value.value
  | .text value => .inr value

theorem Candidate.same_iff (a b : Candidate) : a.same b = true ↔ a.key = b.key := by
  cases a <;> cases b <;> simp [Candidate.same, Candidate.key]

structure CheckContent where
  id : String
  kind : CheckKind
  inputs : Multiset String
  target : String
  quantum : Decimal
  tolerance : Decimal
  evidence : List SourceCitation

def ArithmeticCheck.content (check : ArithmeticCheck) : CheckContent :=
  ⟨check.id, check.kind, check.inputs, check.target, check.quantum, check.tolerance, check.evidence⟩

theorem ArithmeticCheck.content_inputs {check check' : ArithmeticCheck}
    (h : check.content = check'.content) : check.inputs.Perm check'.inputs :=
  Multiset.coe_eq_coe.mp (congrArg CheckContent.inputs h)

def ArithmeticComparison.key (comparison : ArithmeticComparison) : CheckContent × ℚ :=
  (comparison.check.content, comparison.expected.value)

theorem calculate_exact {kind : CheckKind} {inputs inputs' : List Decimal} (hne : inputs ≠ [])
    (hperm : (inputs.map Decimal.value).Perm (inputs'.map Decimal.value))
    (hone : kind = .equals → inputs.length = 1) (quantum : Decimal) :
    ∃ d d', calculate .exact kind inputs (some quantum) = .ok d ∧
      calculate .exact kind inputs' (some quantum) = .ok d' ∧ d.value = d'.value := by
  have hlength : inputs.length = inputs'.length := by simpa using hperm.length_eq
  obtain ⟨first, rest, rfl⟩ := List.exists_cons_of_ne_nil hne
  obtain ⟨first', rest', rfl⟩ := List.exists_cons_of_length_eq_add_one hlength.symm
  cases kind with
  | sum =>
    obtain ⟨total, hrun, htotal⟩ := Decimal.sum_exact (first :: rest)
    obtain ⟨total', hrun', htotal'⟩ := Decimal.sum_exact (first' :: rest')
    have hvalue : total.value = total'.value := by rw [htotal, htotal', hperm.sum_eq]
    refine ⟨total.rescale quantum.exponent, total'.rescale quantum.exponent, ?_, ?_,
      Decimal.rescale_value_congr hvalue _⟩
    · simp only [calculate, hrun, signalled]
      rfl
    · simp only [calculate, hrun', signalled]
      rfl
  | equals =>
    have hnil : rest = [] := by simpa using hone rfl
    subst hnil
    have hnil' : rest' = [] := by simpa using hlength.symm
    subst hnil'
    have hvalue : first.value = first'.value := by simpa using hperm
    exact ⟨first.rescale quantum.exponent, first'.rescale quantum.exponent, rfl, rfl,
      Decimal.rescale_value_congr hvalue _⟩

/-- Whether a candidate lies within the tolerance around what is expected. -/
def acceptable (tolerance expected : ℚ) : Option (ℚ ⊕ String) → Bool
  | some (.inl value) => decide (|expected - value| ≤ tolerance)
  | _ => false

theorem matches_exact (comparison : ArithmeticComparison) (actual : Decimal) :
    comparison.matches .exact actual =
      .ok (acceptable comparison.check.tolerance.value comparison.expected.value
        (some (.inl actual.value))) := by
  have hvalue : (Decimal.exactAdd comparison.expected actual.negate).absolute.value =
      |comparison.expected.value - actual.value| := by
    rw [Decimal.value_absolute, Decimal.value_exactAdd, Decimal.value_negate, sub_eq_add_neg]
  change Except.ok _ = _
  rw [acceptable, ← hvalue]
  congr 1
  rw [Bool.eq_iff_iff, Decimal.le_iff, decide_eq_true_iff]

theorem accepts_exact (comparison : ArithmeticComparison) (candidate : Option Candidate) :
    comparison.accepts .exact candidate =
      .ok (acceptable comparison.key.1.tolerance.value comparison.key.2
        (candidate.map Candidate.key)) := by
  rcases candidate with _ | ⟨value | text⟩
  · rfl
  · exact matches_exact comparison value
  · rfl

def roundedTotal (independent : Option Candidate) (content : CheckContent)
    (candidate : Option (ℚ ⊕ String)) : Bool :=
  match independent with
  | some (.number total) =>
    acceptable content.tolerance.value (total.rescale content.quantum.exponent).value candidate
  | _ => false

theorem matchesRounded_exact (independent candidate : Option Candidate)
    (constraint : ArithmeticComparison) :
    matchesRounded .exact independent candidate constraint =
      .ok (roundedTotal independent constraint.key.1 (candidate.map Candidate.key)) := by
  rcases independent with _ | ⟨total | text⟩
  · rfl
  · rcases candidate with _ | ⟨value | text⟩
    · rfl
    · exact matches_exact ⟨constraint.check, total.rescale constraint.check.quantum.exponent⟩ value
    · rfl
  · rfl

section constraints
variable {constraints constraints' : List ArithmeticComparison}

theorem constraints_all (h : SameElements (constraints.map ArithmeticComparison.key)
    (constraints'.map ArithmeticComparison.key)) (q : CheckContent × ℚ → Bool) :
    (constraints.all fun c => q c.key) = constraints'.all fun c => q c.key := by
  have hall := h.all q
  rwa [List.all_map, List.all_map] at hall

theorem constraints_nil (h : SameElements (constraints.map ArithmeticComparison.key)
    (constraints'.map ArithmeticComparison.key)) : constraints = [] ↔ constraints' = [] := by
  rw [← List.map_eq_nil_iff (f := ArithmeticComparison.key), h.eq_nil, List.map_eq_nil_iff]

theorem agreedExpectation_value (v : ℚ) :
    (agreedExpectation constraints).map Decimal.value = some v ↔
      constraints ≠ [] ∧ ∀ c ∈ constraints, c.expected.value = v := by
  cases constraints with
  | nil => simp [agreedExpectation]
  | cons first rest =>
    rw [agreedExpectation]
    split_ifs with hall
    · simp only [List.all_eq_true, Decimal.same_iff] at hall
      rw [Option.map_some, Option.some.injEq, List.forall_mem_cons]
      constructor
      · rintro rfl
        exact ⟨List.cons_ne_nil _ _, rfl, hall⟩
      · exact fun h => h.2.1
    · simp only [Option.map_none, reduceCtorEq, false_iff, not_and, List.forall_mem_cons]
      rintro - hfirst hrest
      apply hall
      rw [List.all_eq_true]
      intro c hc
      rw [Decimal.same_iff, hrest c hc, hfirst]

theorem agreedExpectation_same (h : SameElements (constraints.map ArithmeticComparison.key)
    (constraints'.map ArithmeticComparison.key)) :
    (agreedExpectation constraints).map Decimal.value =
      (agreedExpectation constraints').map Decimal.value := by
  have hvalues := h.map Prod.snd
  apply Option.ext
  intro v
  rw [agreedExpectation_value, agreedExpectation_value]
  refine and_congr (not_congr (constraints_nil h)) ?_
  have hforall : ∀ l : List ArithmeticComparison, (∀ c ∈ l, c.expected.value = v) ↔
      ∀ x ∈ (l.map ArithmeticComparison.key).map Prod.snd, x = v := by
    intro l
    simp [ArithmeticComparison.key]
  rw [hforall, hforall]
  exact forall_congr' fun x => imp_congr_left (hvalues x)

theorem expectation_same (independent : Option Candidate)
    (h : SameElements (constraints.map ArithmeticComparison.key)
      (constraints'.map ArithmeticComparison.key)) :
    (expectation independent constraints).map Candidate.key =
      (expectation independent constraints').map Candidate.key := by
  have hagreed := congrArg (Option.map (Sum.inl : ℚ → ℚ ⊕ String)) (agreedExpectation_same h)
  rw [Option.map_map, Option.map_map] at hagreed
  cases independent with
  | some value => rfl
  | none =>
    simp only [expectation, Option.none_or, Option.map_map]
    exact hagreed

def agreement : Option Candidate → Option Candidate → Bool
  | some a, some b => a.same b
  | _, _ => false

theorem satisfied_same (slot : ReviewSlot) (original : ObservedValue)
    (independent : Option Candidate) {expected expected' candidate candidate' : Option Candidate}
    (hexpected : expected.map Candidate.key = expected'.map Candidate.key)
    (hcandidate : candidate.map Candidate.key = candidate'.map Candidate.key)
    (h : SameElements (constraints.map ArithmeticComparison.key)
      (constraints'.map ArithmeticComparison.key)) :
    ∃ b, satisfied .exact slot original independent expected candidate constraints = .ok b ∧
      satisfied .exact slot original independent expected' candidate' constraints' = .ok b := by
  let within (c : CheckContent × ℚ) : Bool :=
    acceptable c.1.tolerance.value c.2 (candidate.map Candidate.key)
  let rounded (c : CheckContent × ℚ) : Bool :=
    roundedTotal independent c.1 (candidate.map Candidate.key)
  have hequal : (constraints.allM fun c => c.accepts .exact candidate) =
      .ok (constraints.all fun c => within c.key) :=
    allM_eq_all fun c _ => accepts_exact c candidate
  have hequal' : (constraints'.allM fun c => c.accepts .exact candidate') =
      .ok (constraints.all fun c => within c.key) := by
    rw [constraints_all h within]
    exact allM_eq_all fun c _ => by rw [accepts_exact, ← hcandidate]
  have hrounded : (constraints.allM (matchesRounded .exact independent candidate)) =
      .ok (constraints.all fun c => rounded c.key) :=
    allM_eq_all fun c _ => matchesRounded_exact independent candidate c
  have hrounded' : (constraints'.allM (matchesRounded .exact independent candidate')) =
      .ok (constraints.all fun c => rounded c.key) := by
    rw [constraints_all h rounded]
    exact allM_eq_all fun c _ => by rw [matchesRounded_exact, ← hcandidate]
  have hmatch : agreement candidate expected = agreement candidate' expected' := by
    unfold agreement
    rcases candidate with _ | a <;> rcases candidate' with _ | a' <;>
      rcases expected with _ | b <;> rcases expected' with _ | b' <;>
      first
      | rfl
      | cases hcandidate
      | cases hexpected
      | rw [Bool.eq_iff_iff, Candidate.same_iff, Candidate.same_iff, Option.some.inj hcandidate,
          Option.some.inj hexpected]
  simp only [satisfied, hequal, hequal', ne_eq, constraints_nil h]
  cases independent with
  | none => exact ⟨_, rfl, rfl⟩
  | some value =>
    simp only [bind, Except.bind]
    split_ifs
    · exact ⟨_, hrounded, hrounded'⟩
    · exact ⟨_, rfl, rfl⟩
    · exact ⟨_, rfl, congrArg (fun b => Except.ok (_ && b)) hmatch.symm⟩

end constraints

theorem decimal_no_overflow (content : ObservedContent) :
    content.decimal rt ≠ .error (.arithmetic .overflow) := by
  cases content with
  | number value => exact fun h => by cases h
  | text value =>
    rw [ObservedContent.decimal]
    split <;> simp

theorem percent_exact (value : ObservedValue) :
    percent rt .exact value ≠ .error (.arithmetic .overflow) := by
  intro h
  rw [percent] at h
  split at h
  · cases h
  · simp only at h
    split at h
    · rcases bind_error.mp h with hread | ⟨d, -, hscale⟩
      · exact decimal_no_overflow rt _ hread
      · split_ifs at hscale <;> cases hscale
    · cases h

theorem proposal_exact (slot : ReviewSlot) (original : ObservedValue)
    {expected expected' : Option Candidate}
    (h : expected.map Candidate.key = expected'.map Candidate.key) :
    (∃ reason, proposal rt .exact slot original expected = .ok (.error reason) ∧
      proposal rt .exact slot original expected' = .ok (.error reason)) ∨
    ∃ candidate candidate', proposal rt .exact slot original expected = .ok (.ok candidate) ∧
      proposal rt .exact slot original expected' = .ok (.ok candidate') ∧
      candidate.map Candidate.key = candidate'.map Candidate.key := by
  unfold proposal
  cases original.state with
  | blank =>
    simp only
    split_ifs
    · exact Or.inl ⟨_, rfl, rfl⟩
    · exact Or.inl ⟨_, rfl, rfl⟩
    · exact Or.inr ⟨_, _, rfl, rfl, h⟩
  | present =>
    simp only
    split_ifs
    · exact Or.inr ⟨_, _, rfl, rfl, rfl⟩
    · have hpercent := percent_exact rt original
      split
      · exact Or.inr ⟨_, _, rfl, rfl, rfl⟩
      · rename_i hoverflow
        exact absurd hoverflow hpercent
      · exact Or.inl ⟨_, rfl, rfl⟩
  | _ => exact Or.inl ⟨_, rfl, rfl⟩

theorem validateSlot_exact (slot : ReviewSlot) (original : ObservedValue)
    (independent : Option Candidate) {constraints constraints' : List ArithmeticComparison}
    (ready authorized : Bool) (h : SameElements (constraints.map ArithmeticComparison.key)
      (constraints'.map ArithmeticComparison.key)) :
    ∃ validated validated',
      validateSlot rt .exact slot original independent constraints ready authorized =
        .ok validated ∧
      validateSlot rt .exact slot original independent constraints' ready authorized =
        .ok validated' ∧
      validated.status = validated'.status ∧
      validated.candidate.map Candidate.key = validated'.candidate.map Candidate.key := by
  have hexpected := expectation_same independent h
  have hnone : expectation independent constraints = none ↔
      expectation independent constraints' = none := by
    rw [← Option.map_eq_none_iff (f := Candidate.key), hexpected, Option.map_eq_none_iff]
  unfold validateSlot
  rcases proposal_exact rt slot original hexpected with ⟨reason, hp, hp'⟩ |
    ⟨candidate, candidate', hp, hp', hcandidate⟩
  · simp only [hp, hp']
    exact ⟨_, _, rfl, rfl, rfl, rfl⟩
  · have hmissing : candidate = none ↔ candidate' = none := by
      rw [← Option.map_eq_none_iff (f := Candidate.key), hcandidate, Option.map_eq_none_iff]
    obtain ⟨b, hb, hb'⟩ := satisfied_same slot original independent hexpected hcandidate h
    simp only [hp, hp', bind, Except.bind, hmissing, hnone, constraints_nil h, hb, hb']
    split_ifs
    all_goals exact ⟨_, _, rfl, rfl, rfl, hcandidate⟩

theorem trustedNumber_same {validated validated' : ValidatedSlot}
    (hstatus : validated.status = validated'.status)
    (hcandidate : validated.candidate.map Candidate.key =
      validated'.candidate.map Candidate.key) :
    validated.trustedNumber.map Decimal.value = validated'.trustedNumber.map Decimal.value := by
  obtain ⟨candidate, _, status, _, _⟩ := validated
  obtain ⟨candidate', _, status', _, _⟩ := validated'
  cases hstatus
  rcases candidate with _ | ⟨d | t⟩ <;> rcases candidate' with _ | ⟨d' | t'⟩ <;> cases status <;>
    simp_all [ValidatedSlot.trustedNumber, Candidate.key]

end AppraisalReview
