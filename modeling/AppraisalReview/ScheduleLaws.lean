import AppraisalReview.EvaluationScore
import AppraisalReview.Raising
import Mathlib.Data.List.Perm.Basic

set_option autoImplicit false

/-!
# What an accepted schedule says, whatever the order of the replay

Each record of an accepted replay is admissible on its own and compatible with
every other one. Both are independent of the order, and so is everything that
the scorer looks up.
-/
namespace AppraisalReview.Evaluation
open Extraction Raising

variable {manifest : EvaluationManifest} {pages : Dict PageKey EvaluationInput}
variable {cases : Dict String GoldenCase}

theorem foldlM_keeps {ε α β : Type} {P : β → Prop} {f : β → α → Except ε β} {l : List α} {b b' : β}
    (step : ∀ x ∈ l, ∀ b b', P b → f b x = .ok b' → P b') (start : P b)
    (h : l.foldlM f b = .ok b') : P b' := by
  induction l generalizing b with
  | nil => exact pure_ok.mp h ▸ start
  | cons x rest ih =>
    rw [List.foldlM_cons] at h
    obtain ⟨middle, hstep, h⟩ := bind_ok.mp h
    exact ih (fun y hy => step y (List.mem_cons_of_mem _ hy))
      (step x List.mem_cons_self _ _ start hstep) h

theorem require_ok {condition : Bool} {code : String} {value : Unit} :
    require condition code = .ok value ↔ condition = true := by
  unfold require
  cases condition <;> simp

structure Admissible (manifest : EvaluationManifest) (pages : Dict PageKey EvaluationInput)
    (cases : Dict String GoldenCase) (record : RepeatedOutcome) : Prop where
  scheduled : scheduledRepeat manifest record.repetition = true
  page : ∃ item, pages.get? (pageKey record.outcome) = some item ∧
    record.outcome.request.source = item.source
  case : ∃ case, cases.get? (pageKey record.outcome).1 = some case ∧
    revisionMatches case record.outcome = true
  configuration : configurationMatches manifest record.outcome.telemetry = true

/-- Two records of one replay: other pages of a repeat, and one run for each repeat and case. -/
structure Compatible (r r' : RepeatedOutcome) : Prop where
  page : r.repetition = r'.repetition → pageKey r.outcome ≠ pageKey r'.outcome
  run : r.owner = r'.owner ↔ r.run = r'.run

theorem Compatible.symm {r r' : RepeatedOutcome} (h : Compatible r r') : Compatible r' r :=
  ⟨fun hrepeat heq => h.page hrepeat.symm heq.symm,
    eq_comm.trans (h.run.trans eq_comm)⟩

structure Lists (records : List RepeatedOutcome) (found : Recorded) : Prop where
  outcomes : ∀ n key outcome, (found.outcomes n).get? key = some outcome ↔
    ∃ r ∈ records, r.repetition = n ∧ pageKey r.outcome = key ∧ r.outcome = outcome
  size : ∀ n, (found.outcomes n).items.length =
    (records.filter fun r => r.repetition = n).length
  runs : ∀ owner run, found.runBindings owner = some run ↔
    ∃ r ∈ records, r.owner = owner ∧ r.run = run
  owners : ∀ run owner, found.runOwners run = some owner ↔
    ∃ r ∈ records, r.run = run ∧ r.owner = owner

def Recorded.add (found : Recorded) (record : RepeatedOutcome) : Recorded where
  outcomes := Function.update found.outcomes record.repetition
    ((found.outcomes record.repetition).set (pageKey record.outcome) record.outcome)
  runBindings := Function.update found.runBindings record.owner (some record.run)
  runOwners := Function.update found.runOwners record.run (some record.owner)

theorem recordOutcome_ok {found found' : Recorded} {record : RepeatedOutcome} :
    recordOutcome manifest pages cases found record = .ok found' ↔
      Admissible manifest pages cases record ∧
      (found.outcomes record.repetition).get? (pageKey record.outcome) = none ∧
      (found.runBindings record.owner).all (· = record.run) = true ∧
      (found.runOwners record.run).all (· = record.owner) = true ∧
      found' = found.add record := by
  constructor
  · intro h
    unfold recordOutcome at h
    simp only at h
    obtain ⟨_, hscheduled, h⟩ := bind_ok.mp h
    split at h
    · cases h
    case h_2 item hitem =>
      obtain ⟨_, hfree, h⟩ := bind_ok.mp h
      obtain ⟨_, hsource, h⟩ := bind_ok.mp h
      split at h
      · cases h
      case h_2 case hcase =>
        obtain ⟨_, hrevision, h⟩ := bind_ok.mp h
        obtain ⟨_, hconfiguration, h⟩ := bind_ok.mp h
        obtain ⟨_, hbinding, h⟩ := bind_ok.mp h
        obtain ⟨_, howner, h⟩ := bind_ok.mp h
        exact ⟨⟨require_ok.mp hscheduled,
            ⟨item, hitem, of_decide_eq_true (require_ok.mp hsource)⟩,
            ⟨case, hcase, require_ok.mp hrevision⟩, require_ok.mp hconfiguration⟩,
          Option.isNone_iff_eq_none.mp (require_ok.mp hfree), require_ok.mp hbinding,
          require_ok.mp howner, (Except.ok.inj h).symm⟩
  · rintro ⟨⟨scheduled, ⟨item, hitem, hsource⟩, ⟨case, hcase, hrevision⟩, hconfiguration⟩, hfree,
      hbinding, howner, rfl⟩
    have source : decide (record.outcome.request.source = item.source) = true :=
      decide_eq_true hsource
    simp only [recordOutcome, scheduled, hitem, hfree, hcase, source, hrevision, hconfiguration,
      hbinding, howner, require, Option.isNone_none, if_true]
    rfl

theorem Lists.nil : Lists [] {} where
  outcomes n key outcome := by simp
  size n := rfl
  runs owner run := by simp
  owners run owner := by simp

/-- One more record is accepted exactly when it is admissible and compatible with the others. -/
theorem Lists.accepts {records : List RepeatedOutcome} {found : Recorded}
    (lists : Lists records found) (record : RepeatedOutcome) :
    recordOutcome manifest pages cases found record = .ok (found.add record) ↔
      Admissible manifest pages cases record ∧ ∀ r ∈ records, Compatible r record := by
  rw [recordOutcome_ok]
  constructor
  · rintro ⟨admissible, hfree, hbinding, howner, -⟩
    refine ⟨admissible, fun r hr => ⟨fun hrepeat hpage => ?_, fun howner' => ?_, fun hrun => ?_⟩⟩
    · have hstored := (lists.outcomes record.repetition (pageKey record.outcome) r.outcome).mpr
        ⟨r, hr, hrepeat, hpage, rfl⟩
      exact absurd (hstored.symm.trans hfree) (Option.some_ne_none _)
    · have hstored := (lists.runs record.owner r.run).mpr ⟨r, hr, howner', rfl⟩
      rw [hstored] at hbinding
      simpa using hbinding
    · have hstored := (lists.owners record.run r.owner).mpr ⟨r, hr, hrun, rfl⟩
      rw [hstored] at howner
      simpa using howner
  · rintro ⟨admissible, compatible⟩
    refine ⟨admissible, ?_, ?_, ?_, rfl⟩
    · by_contra hstored
      obtain ⟨outcome, houtcome⟩ := Option.ne_none_iff_exists'.mp hstored
      obtain ⟨r, hr, hrepeat, hpage, -⟩ := (lists.outcomes _ _ _).mp houtcome
      exact (compatible r hr).page hrepeat hpage
    · cases hstored : found.runBindings record.owner with
      | none => rfl
      | some run =>
        obtain ⟨r, hr, howner, rfl⟩ := (lists.runs _ _).mp hstored
        simpa using (compatible r hr).run.mp howner
    · cases hstored : found.runOwners record.run with
      | none => rfl
      | some owner =>
        obtain ⟨r, hr, hrun, rfl⟩ := (lists.owners _ _).mp hstored
        simpa using (compatible r hr).run.mpr hrun

theorem items_length_set_new {κ ν : Type} [DecidableEq κ] (d : Dict κ ν) {k : κ} (v : ν)
    (h : d.get? k = none) : (d.set k v).items.length = d.items.length + 1 := by
  have hkeys := congrArg List.length (Dict.keys_set_new d v h)
  simpa [Dict.keys] using hkeys

theorem exists_snoc {records : List RepeatedOutcome} {record : RepeatedOutcome}
    {P : RepeatedOutcome → Prop} :
    (∃ r ∈ records ++ [record], P r) ↔ (∃ r ∈ records, P r) ∨ P record := by
  simp [or_and_right, exists_or]

theorem Lists.add {records : List RepeatedOutcome} {found : Recorded}
    (lists : Lists records found) {record : RepeatedOutcome}
    (compatible : ∀ r ∈ records, Compatible r record) :
    Lists (records ++ [record]) (found.add record) where
  outcomes n key outcome := by
    rw [exists_snoc]
    by_cases hn : n = record.repetition
    case neg =>
      simp only [Recorded.add, Function.update_of_ne hn]
      rw [lists.outcomes]
      exact (or_iff_left fun h => hn h.1.symm).symm
    subst hn
    simp only [Recorded.add, Function.update_self, Dict.get?_set]
    split
    case isTrue hkey =>
      subst hkey
      constructor
      · exact fun h => .inr ⟨trivial, rfl, Option.some.inj h⟩
      · rintro (⟨r, hr, hrepeat, hpage, -⟩ | ⟨-, -, rfl⟩)
        · exact absurd hpage ((compatible r hr).page hrepeat)
        · rfl
    case isFalse hkey =>
      rw [lists.outcomes]
      exact (or_iff_left fun h => hkey h.2.1.symm).symm
  size n := by
    rw [List.filter_append, List.length_append]
    by_cases hn : n = record.repetition
    case neg =>
      simp only [Recorded.add, Function.update_of_ne hn, lists.size]
      simp [Ne.symm hn]
    subst hn
    have hfree : (found.outcomes record.repetition).get? (pageKey record.outcome) = none := by
      by_contra hstored
      obtain ⟨outcome, houtcome⟩ := Option.ne_none_iff_exists'.mp hstored
      obtain ⟨r, hr, hrepeat, hpage, -⟩ := (lists.outcomes _ _ _).mp houtcome
      exact (compatible r hr).page hrepeat hpage
    simp only [Recorded.add, Function.update_self]
    rw [items_length_set_new _ _ hfree, lists.size]
    simp
  runs owner run := by
    rw [exists_snoc]
    simp only [Recorded.add, Function.update_apply]
    split
    case isTrue howner =>
      subst howner
      constructor
      · exact fun h => .inr ⟨rfl, Option.some.inj h⟩
      · rintro (⟨r, hr, howner, rfl⟩ | ⟨-, rfl⟩)
        · rw [(compatible r hr).run.mp howner]
        · rfl
    case isFalse howner =>
      rw [lists.runs]
      exact (or_iff_left fun h => howner h.1.symm).symm
  owners run owner := by
    rw [exists_snoc]
    simp only [Recorded.add, Function.update_apply]
    split
    case isTrue hrun =>
      subst hrun
      constructor
      · exact fun h => .inr ⟨rfl, Option.some.inj h⟩
      · rintro (⟨r, hr, hrun, rfl⟩ | ⟨-, rfl⟩)
        · rw [(compatible r hr).run.mpr hrun]
        · rfl
    case isFalse hrun =>
      rw [lists.owners]
      exact (or_iff_left fun h => hrun h.1.symm).symm

structure Accepted (manifest : EvaluationManifest) (pages : Dict PageKey EvaluationInput)
    (cases : Dict String GoldenCase) (records : List RepeatedOutcome) : Prop where
  admissible : ∀ r ∈ records, Admissible manifest pages cases r
  compatible : records.Pairwise Compatible

theorem Accepted.perm {records records' : List RepeatedOutcome} (perm : records.Perm records')
    (h : Accepted manifest pages cases records) : Accepted manifest pages cases records' where
  admissible r hr := h.admissible r (perm.mem_iff.mpr hr)
  compatible := (perm.pairwise_iff fun h => h.symm).mp h.compatible

theorem Accepted.snoc {records : List RepeatedOutcome} {record : RepeatedOutcome} :
    Accepted manifest pages cases (records ++ [record]) ↔
      Accepted manifest pages cases records ∧ Admissible manifest pages cases record ∧
        ∀ r ∈ records, Compatible r record := by
  constructor
  · rintro ⟨admissible, compatible⟩
    obtain ⟨hrecords, -, hlast⟩ := List.pairwise_append.mp compatible
    exact ⟨⟨fun r hr => admissible r (List.mem_append_left _ hr), hrecords⟩,
      admissible record (by simp), fun r hr => hlast r hr record List.mem_cons_self⟩
  · rintro ⟨⟨admissible, compatible⟩, hrecord, hlast⟩
    refine ⟨fun r hr => ?_, List.pairwise_append.mpr ⟨compatible, List.pairwise_singleton ..,
      fun r hr r' hr' => List.mem_singleton.mp hr' ▸ hlast r hr⟩⟩
    obtain hr | hr := List.mem_append.mp hr
    · exact admissible r hr
    · exact List.mem_singleton.mp hr ▸ hrecord

theorem records_listed {records : List RepeatedOutcome} {found : Recorded}
    (h : records.foldlM (recordOutcome manifest pages cases) {} = .ok found) :
    Accepted manifest pages cases records ∧ Lists records found := by
  induction records using List.reverseRecOn generalizing found with
  | nil =>
    rw [List.foldlM_nil] at h
    rw [← pure_ok.mp h]
    exact ⟨⟨fun _ h => absurd h List.not_mem_nil, List.Pairwise.nil⟩, Lists.nil⟩
  | append_singleton records record ih =>
    rw [List.foldlM_append] at h
    obtain ⟨middle, hmiddle, h⟩ := bind_ok.mp h
    rw [List.foldlM_cons] at h
    obtain ⟨last, hlast, h⟩ := bind_ok.mp h
    rw [List.foldlM_nil] at h
    rw [← pure_ok.mp h]
    obtain ⟨accepted, lists⟩ := ih hmiddle
    obtain rfl := (recordOutcome_ok.mp hlast).2.2.2.2
    obtain ⟨admissible, compatible⟩ := (lists.accepts record).mp hlast
    exact ⟨Accepted.snoc.mpr ⟨accepted, admissible, compatible⟩, lists.add compatible⟩

theorem Accepted.recorded {records : List RepeatedOutcome}
    (h : Accepted manifest pages cases records) :
    ∃ found, records.foldlM (recordOutcome manifest pages cases) {} = .ok found ∧
      Lists records found := by
  induction records using List.reverseRecOn with
  | nil => exact ⟨{}, List.foldlM_nil, .nil⟩
  | append_singleton records record ih =>
    obtain ⟨accepted, admissible, compatible⟩ := Accepted.snoc.mp h
    obtain ⟨found, hfound, lists⟩ := ih accepted
    refine ⟨found.add record, ?_, lists.add compatible⟩
    have hlast := (lists.accepts record).mpr ⟨admissible, compatible⟩
    rw [List.foldlM_append, hfound]
    refine bind_ok.mpr ⟨found, rfl, ?_⟩
    rw [List.foldlM_cons]
    exact bind_ok.mpr ⟨_, hlast, List.foldlM_nil⟩

def Same (a b : ℕ → Dict PageKey PageOutcome) : Prop :=
  ∀ n, (a n).get? = (b n).get? ∧ (a n).items.length = (b n).items.length

theorem Lists.same {records records' : List RepeatedOutcome} {found found' : Recorded}
    (perm : records.Perm records') (lists : Lists records found) (lists' : Lists records' found') :
    Same found.outcomes found'.outcomes := by
  refine fun n => ⟨funext fun key => Option.ext fun outcome => ?_, ?_⟩
  · rw [lists.outcomes, lists'.outcomes]
    simp only [perm.mem_iff]
  · rw [lists.size, lists'.size, (perm.filter _).length_eq]

theorem items_length_set_known {κ ν : Type} [DecidableEq κ] (d : Dict κ ν) {k : κ} {old : ν} (v : ν)
    (h : d.get? k = some old) : (d.set k v).items.length = d.items.length := by
  change Dict.find k d.items = some old at h
  change (Dict.store k v d.items).length = d.items.length
  revert h
  generalize d.items = items
  intro h
  induction items with
  | nil => cases h
  | cons head rest ih =>
    obtain ⟨k', v'⟩ := head
    by_cases hk : k' = k
    · simp [Dict.store, hk]
    · simp only [Dict.find, hk, if_false] at h
      simp only [Dict.store, hk, if_false, List.length_cons, ih h]

/-- Projections over tables with the same lookups. -/
structure Agree (p p' : Projection) : Prop where
  outcomes : Same p.outcomes p'.outcomes
  calls : p.usedCalls = p'.usedCalls
  tokens : p.usedOutputTokens = p'.usedOutputTokens

theorem Agree.page {p p' : Projection} (h : Agree p p') (repetition : ℕ) (key : PageKey) :
    Agree (projectPage manifest repetition p key) (projectPage manifest repetition p' key) := by
  have hget := congrFun (h.outcomes repetition).1 key
  cases hfound : (p.outcomes repetition).get? key with
  | none =>
    have hfound' := hget.symm.trans hfound
    simp only [projectPage, hfound, hfound']
    exact h
  | some recorded =>
    have hfound' := hget.symm.trans hfound
    simp only [projectPage, hfound, hfound', h.calls, h.tokens]
    refine ⟨fun n => ?_, rfl, rfl⟩
    by_cases hn : n = repetition
    · subst hn
      simp only [Function.update_self, items_length_set_known _ _ hfound,
        items_length_set_known _ _ hfound', (h.outcomes n).2, and_true]
      funext other
      simp only [Dict.get?_set, (h.outcomes n).1]
    · simp only [Function.update_of_ne hn]
      exact h.outcomes n

theorem Same.project {a b : ℕ → Dict PageKey PageOutcome} (h : Same a b) :
    Same (project manifest pages a) (project manifest pages b) := by
  have agree : ∀ slots : List (ℕ × PageKey), ∀ p p' : Projection, Agree p p' → Agree
      (slots.foldl (fun state slot => projectPage manifest slot.1 state slot.2) p)
      (slots.foldl (fun state slot => projectPage manifest slot.1 state slot.2) p') := by
    intro slots
    induction slots with
    | nil => exact fun _ _ => id
    | cons slot rest ih => exact fun p p' hp => ih _ _ (hp.page slot.1 slot.2)
  exact (agree (slotsInOrder manifest pages) { outcomes := a } { outcomes := b }
    ⟨h, rfl, rfl⟩).outcomes

theorem project_isSome (outcomes : ℕ → Dict PageKey PageOutcome) (n : ℕ) (key : PageKey) :
    ((project manifest pages outcomes n).get? key).isSome = ((outcomes n).get? key).isSome := by
  have keeps : ∀ slots : List (ℕ × PageKey), ∀ p : Projection,
      (((slots.foldl (fun state slot => projectPage manifest slot.1 state slot.2) p).outcomes
        n).get? key).isSome = ((p.outcomes n).get? key).isSome := by
    intro slots
    induction slots with
    | nil => exact fun _ => rfl
    | cons slot rest ih =>
      intro p
      rw [List.foldl_cons, ih]
      cases hfound : (p.outcomes slot.1).get? slot.2 with
      | none => simp only [projectPage, hfound]
      | some recorded =>
        simp only [projectPage, hfound]
        by_cases hn : n = slot.1
        · subst hn
          simp only [Function.update_self, Dict.get?_set]
          split
          case isTrue hkey => rw [hkey, hfound]; rfl
          case isFalse => rfl
        · simp only [Function.update_of_ne hn]
  exact keeps _ _

theorem recordError_same {a b : ℕ → Dict PageKey PageOutcome} (h : Same a b) :
    recordError manifest pages a = recordError manifest pages b := by
  funext found error
  simp only [recordError, (h _).1]

section
variable {rt : Runtime} {digests : Digests} {replay : EvaluationReplay} {goldens : GoldenSuite}
variable {s : Schedule}

structure Scheduled (rt : Runtime) (manifest : EvaluationManifest) (replay : EvaluationReplay)
    (goldens : GoldenSuite) (s : Schedule) : Prop where
  frame : Evaluation.frame rt manifest replay.bindings goldens = .ok ⟨s.cases, s.pages, s.expected⟩
  recorded : ∃ found,
    replay.outcomes.foldlM (recordOutcome manifest s.pages s.cases) {} = .ok found ∧
    replay.executionErrors.foldlM (recordError manifest s.pages found.outcomes)
      (fun _ => Dict.empty) = .ok s.executionErrors ∧
    s.outcomes = project manifest s.pages found.outcomes

theorem schedule_ok : schedule rt digests manifest replay goldens = .ok s ↔
    checkDigests digests manifest replay goldens = .ok () ∧
      validatePrices digests manifest replay = .ok () ∧ Scheduled rt manifest replay goldens s := by
  constructor
  · intro h
    unfold schedule at h
    obtain ⟨_, hdigests, h⟩ := bind_ok.mp h
    obtain ⟨found, hframe, h⟩ := bind_ok.mp h
    obtain ⟨recorded, hrecorded, h⟩ := bind_ok.mp h
    obtain ⟨errors, herrors, h⟩ := bind_ok.mp h
    obtain ⟨_, hprices, h⟩ := bind_ok.mp h
    obtain rfl := Except.ok.inj h
    exact ⟨hdigests, hprices, hframe, recorded, hrecorded, herrors, rfl⟩
  · rintro ⟨hdigests, hprices, hframe, found, hrecorded, herrors, hproject⟩
    unfold schedule
    rw [hdigests]
    refine bind_ok.mpr ⟨(), rfl, bind_ok.mpr ⟨_, hframe, bind_ok.mpr ⟨found, hrecorded,
      bind_ok.mpr ⟨_, herrors, bind_ok.mpr ⟨(), hprices, ?_⟩⟩⟩⟩⟩
    rw [← hproject]
    rfl

/-- Reordering the outcomes of a replay leaves the rest of the schedule as it is. -/
theorem schedule_perm (h : schedule rt digests manifest replay goldens = .ok s)
    {outcomes : List RepeatedOutcome} (perm : replay.outcomes.Perm outcomes) :
    ∃ table, Same s.outcomes table ∧
      schedule rt digests manifest { replay with outcomes := outcomes } goldens =
        .ok { s with outcomes := table } := by
  obtain ⟨hdigests, hprices, hframe, found, hrecorded, herrors, hproject⟩ := schedule_ok.mp h
  obtain ⟨accepted, lists⟩ := records_listed hrecorded
  obtain ⟨found', hrecorded', lists'⟩ := (accepted.perm perm).recorded
  have same := lists.same perm lists'
  refine ⟨project manifest s.pages found'.outcomes, hproject ▸ same.project, schedule_ok.mpr
    ⟨hdigests, hprices, hframe, found', hrecorded', ?_, rfl⟩⟩
  rw [← recordError_same same]
  exact herrors

theorem setPages_cases {found : Dict PageKey EvaluationInput} {item : EvaluationInput}
    (known : ∀ key ∈ found.keys, key.1 ∈ cases.keys)
    (hcase : caseOf item.source.document ∈ cases.keys) (numbers : List ℤ) :
    ∀ key ∈ (numbers.foldl (fun found page => found.set (keyOf item.source.document page) item)
      found).keys, key.1 ∈ cases.keys := by
  induction numbers generalizing found with
  | nil => exact known
  | cons page rest ih =>
    refine ih fun key hkey => ?_
    rw [Dict.mem_keys, Dict.get?_set] at hkey
    split at hkey
    case isTrue heq => rwa [heq]
    case isFalse => exact known key ((Dict.mem_keys _ _).mpr hkey)

theorem schedulePages_cases {found found' : Dict PageKey EvaluationInput} {item : EvaluationInput}
    (known : ∀ key ∈ found.keys, key.1 ∈ cases.keys)
    (h : schedulePages cases found item = .ok found') :
    ∀ key ∈ found'.keys, key.1 ∈ cases.keys := by
  unfold schedulePages at h
  simp only at h
  split at h
  · cases h
  case h_2 case hcase =>
    split at h
    · cases h
    case h_2 provenance hprovenance =>
      obtain ⟨_, -, h⟩ := bind_ok.mp h
      obtain ⟨_, -, h⟩ := bind_ok.mp h
      obtain rfl := Except.ok.inj h
      have hmember : caseOf item.source.document ∈ cases.keys := by
        rw [Dict.mem_keys, hcase]
        rfl
      exact setPages_cases known hmember _

theorem Scheduled.pages_cases (h : Scheduled rt manifest replay goldens s) :
    ∀ key ∈ s.pages.keys, key.1 ∈ s.cases.keys := by
  have hframe := h.frame
  unfold Evaluation.frame at hframe
  obtain ⟨cases, -, hframe⟩ := bind_ok.mp hframe
  obtain ⟨_, -, hframe⟩ := bind_ok.mp hframe
  obtain ⟨pages, hpages, hframe⟩ := bind_ok.mp hframe
  obtain ⟨expected, -, hframe⟩ := bind_ok.mp hframe
  obtain ⟨rfl, rfl, rfl⟩ := Frame.mk.inj (Except.ok.inj hframe)
  exact foldlM_keeps (fun item _ found found' known => schedulePages_cases known)
    (fun _ hkey => absurd hkey List.not_mem_nil) hpages

theorem Scheduled.outcomes_pages (h : Scheduled rt manifest replay goldens s) (repetition : ℕ) :
    ∀ key ∈ (s.outcomes repetition).keys, key ∈ s.pages.keys := by
  intro key hkey
  obtain ⟨found, hrecorded, -, hproject⟩ := h.recorded
  obtain ⟨accepted, lists⟩ := records_listed hrecorded
  rw [Dict.mem_keys, hproject, project_isSome] at hkey
  obtain ⟨outcome, houtcome⟩ := Option.isSome_iff_exists.mp hkey
  obtain ⟨record, hrecord, -, rfl, -⟩ := (lists.outcomes _ _ _).mp houtcome
  obtain ⟨item, hitem, -⟩ := (accepted.admissible record hrecord).page
  rw [Dict.mem_keys, hitem]
  rfl

end

end AppraisalReview.Evaluation
