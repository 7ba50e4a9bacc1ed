import AppraisalReview.CorrectionFrame
import AppraisalReview.WorkflowHandoff

set_option autoImplicit false

/-!
# No finding is lost on the way to a human

What is known of every finding of a review whose handoff is returned, and which
errors stand in its place.
-/
namespace AppraisalReview.Handoff
open Raising
variable {rt : Runtime} {taskId : UUID → String → UUID} {run : RunReference}
  {material : ReviewMaterial}

def Located (material : ReviewMaterial) (context : ComparisonContext) (factorId : String)
    (pair : EvidencedPair) : Prop :=
  material.facts.pairs.filter
    (fun pair => pair.context = context && pair.pair.factorId = factorId) = [pair]

def BothConfirmed (rt : Runtime) (material : ReviewMaterial) (context : ComparisonContext)
    (factorId : String) : Prop :=
  ∀ side, ∃ pair, Located material context factorId pair ∧ exactlyConfirmed rt pair side = true

/-- The reliability finding of a factor, or that of a slot observed for it. -/
def Symptom (material : ReviewMaterial) (context : ComparisonContext) (factorId : String)
    (finding : ReviewFinding) : Prop :=
  finding.kind = "evidence_reliability" ∧ finding.id = context.key ++ "/factor/" ++ factorId ∨
    finding.kind = "observed_unresolved" ∧
      ∃ slot ∈ material.policy.inventory.slots, finding.id = "observed/" ++ slot.id ∧
        slot.context = context ∧ slot.factorId = some factorId

/-- Why a finding that is not verified need not be asked about once more. -/
inductive Accounted (rt : Runtime) (material : ReviewMaterial) (findings : List ReviewFinding)
    (tasks : List HumanTask) (finding : ReviewFinding) : Prop where
  | listed (task : HumanTask) (mem : task ∈ tasks) (names : finding.id ∈ task.findingIds)
  | trust (identity : finding.id = "trust") (approval : finding.kind = "approval")
  | aggregate (context : ComparisonContext) (calculation : finding.kind = "calculation")
      (within : finding.context = some context) (identity : finding.id = context.key)
      (asked : (∃ task ∈ tasks, ∃ side, task.side = some side ∧ side.context = context) ∨
        approvalPending (blockedFindings findings) = true ∧
          ∃ entry ∈ material.policy.inventory.contexts, entry.context = context ∧
            ∀ factor ∈ entry.factorIds, BothConfirmed rt material context factor)
  | deferred (context : ComparisonContext) (factorId : String)
      (pending : approvalPending (blockedFindings findings) = true)
      (open_ : finding.status = .needsReview) (within : finding.context = some context)
      (factor : finding.factorId = some factorId) (both : BothConfirmed rt material context factorId)
      (symptom : Symptom material context factorId finding)

def AsksCurrent (rt : Runtime) (material : ReviewMaterial) (task : HumanTask) : Prop :=
  ∃ side pair, task.side = some side ∧ Located material side.context side.factorId pair ∧
    side.inputDigest.text = confirmationDigest rt pair side.side

/-- What makes a task out of a binding fail its own validation. -/
def IntegratedTaskBinding.Malformed (binding : IntegratedTaskBinding) : Prop :=
  binding.factorId = "" ∨ binding.question = "" ∨ opaqueText binding.bindingId = false ∨
    ¬ binding.findingIds.Nodup

theorem foldl_set_other {l : List ReviewFinding} {d : Dict String ReviewFinding} {id : String}
    (h : ∀ finding ∈ l, finding.id ≠ id) :
    (l.foldl (fun blocked finding => blocked.set finding.id finding) d).get? id = d.get? id := by
  induction l generalizing d with
  | nil => rfl
  | cons finding rest ih =>
    obtain ⟨hfinding, hrest⟩ := List.forall_mem_cons.mp h
    rw [List.foldl_cons, ih hrest, Dict.get?_set_of_ne _ _ hfinding.symm]

theorem blockedFindings_last {before after : List ReviewFinding} {finding : ReviewFinding}
    (hblocked : finding.status ≠ .verified)
    (hlast : ∀ later ∈ after, later.status ≠ .verified → later.id ≠ finding.id) :
    (blockedFindings (before ++ finding :: after)).get? finding.id = some finding := by
  rw [blockedFindings, List.filter_append, List.filter_cons_of_pos (by simpa using hblocked),
    List.foldl_append, List.foldl_cons, foldl_set_other ?_, Dict.get?_set_self]
  intro later hlater
  obtain ⟨hmem, hstatus⟩ := List.mem_filter.mp hlater
  exact hlast later hmem (by simpa using hstatus)

/-- What the loop has so far is about the current pairs. -/
structure Progress.Sound (rt : Runtime) (material : ReviewMaterial) (progress : Progress) : Prop where
  asks : ∀ task ∈ progress.tasks, AsksCurrent rt material task
  confirmed : ∀ key side, (key, side) ∈ progress.confirmedBindings →
    ∃ context factorId pair, key = (context.key, factorId) ∧
      Located material context factorId pair ∧ exactlyConfirmed rt pair side = true

theorem sideReference_ok {context : ComparisonContext} {factorId : String} {side : Side}
    {pair : EvidencedPair} {reference : FactSideReference}
    (h : sideReference rt context factorId side pair = .ok reference) :
    reference.context = context ∧ reference.factorId = factorId ∧ reference.side = side ∧
      reference.inputDigest.text = confirmationDigest rt pair side := by
  unfold sideReference at h
  split at h
  · cases h
    exact ⟨rfl, rfl, rfl, rfl⟩
  · cases h

theorem bindingTask_ok {binding : IntegratedTaskBinding}
    {purpose : binding.kind = .fact ∨ binding.kind = .correction} {findingIds : List String}
    {pair : EvidencedPair} {task : HumanTask}
    (h : bindingTask rt taskId run binding purpose findingIds pair = .ok task) :
    task.taskId = taskId run.runId binding.bindingId ∧ task.findingIds = findingIds ∧
      ∃ side, task.side = some side ∧ side.context = binding.context ∧
        side.factorId = binding.factorId ∧
        side.inputDigest.text = confirmationDigest rt pair side.side := by
  simp only [bindingTask, bind_ok] at h
  obtain ⟨side, hside, subject, -, h⟩ := h
  split at h
  · split at h
    · cases h
      obtain ⟨hcontext, hfactor, hname, hdigest⟩ := sideReference_ok hside
      exact ⟨rfl, rfl, side, rfl, hcontext, hfactor, hname ▸ hdigest⟩
    · cases h
  · cases h

theorem bindingTask_error {binding : IntegratedTaskBinding}
    {purpose : binding.kind = .fact ∨ binding.kind = .correction} {findingIds : List String}
    {pair : EvidencedPair} {fault : Fault} (hsome : findingIds ≠ [])
    (hsub : findingIds.Sublist binding.findingIds)
    (h : bindingTask rt taskId run binding purpose findingIds pair = .error fault) :
    (∃ message, fault = .valueError message) ∧ binding.Malformed := by
  simp only [bindingTask, bind_error] at h
  rcases h with hside | ⟨side, -, hsubject | ⟨subject, -, h⟩⟩
  · unfold sideReference at hside
    split at hside
    · cases hside
    · next hnamed =>
      cases hside
      exact ⟨⟨_, rfl⟩, Or.inl (not_not.mp hnamed)⟩
  · unfold OpaqueID.parse at hsubject
    split at hsubject
    · cases hsubject
    · next htext =>
      cases hsubject
      exact ⟨⟨_, rfl⟩, Or.inr (Or.inr (Or.inl (Bool.eq_false_iff.mpr htext)))⟩
  · split at h
    · split at h
      · cases h
      · next hrepeated =>
        cases h
        exact ⟨⟨_, rfl⟩, Or.inr (Or.inr (Or.inr fun hnodup => hrepeated (hnodup.sublist hsub)))⟩
    · next hasked =>
      cases h
      exact ⟨⟨_, rfl⟩, Or.inr (Or.inl (not_not.mp fun hquestion => hasked ⟨hquestion, hsome⟩))⟩

section
variable {blocked : Dict String ReviewFinding} {progress progress' : Progress}
  {binding : { binding : IntegratedTaskBinding //
    binding.kind = .fact ∨ binding.kind = .correction }}

theorem bindTask_cases
    (h : bindTask rt taskId run material blocked progress binding = .ok progress') :
    progress' = progress ∨
      (∃ pair, material.facts.pairs.filter binding.1.names = [pair] ∧
        ((exactlyConfirmed rt pair binding.1.side = true ∧ ∃ findingIds, progress' = { progress with
          confirmedBindings := progress.confirmedBindings ++
            [((binding.1.context.key, binding.1.factorId), binding.1.side)]
          confirmedFindings := progress.confirmedFindings ++ findingIds }) ∨
        ∃ findingIds task, bindingTask rt taskId run binding.1 binding.2 findingIds pair = .ok task ∧
          progress' = { progress with tasks := progress.tasks ++ [task] })) := by
  simp only [bindTask] at h
  split at h
  · cases h
    exact Or.inl rfl
  · rw [guard_ok] at h
    obtain ⟨-, h⟩ := h
    split at h
    · next pair hpair =>
      refine Or.inr ⟨pair, hpair, ?_⟩
      split at h
      · next hconfirmed =>
        cases h
        exact Or.inl ⟨(Bool.and_eq_true _ _ ▸ hconfirmed).2, _, rfl⟩
      · split at h
        · cases h
        · next task htask =>
          cases h
          exact Or.inr ⟨_, task, htask, rfl⟩
    · cases h

theorem bindTask_error {fault : Fault}
    (h : bindTask rt taskId run material blocked progress binding = .error fault) :
    fault = .service .capability ∨ fault = .service .conflict ∨
      (∃ message, fault = .valueError message) ∧ binding.1.Malformed := by
  simp only [bindTask] at h
  split at h
  · cases h
  · next hsome =>
    split at h
    · cases h
      exact Or.inl rfl
    · split at h
      · split at h
        · cases h
        · split at h
          · next hfault =>
            cases h
            exact Or.inr (Or.inr (bindingTask_error hsome List.filter_sublist hfault))
          · cases h
      · cases h
        exact Or.inr (Or.inl rfl)

theorem bindTask_sound (hsound : progress.Sound rt material)
    (h : bindTask rt taskId run material blocked progress binding = .ok progress') :
    progress'.Sound rt material := by
  obtain rfl | ⟨pair, hpair, ⟨hconfirmed, findingIds, rfl⟩ | ⟨findingIds, task, htask, rfl⟩⟩ :=
    bindTask_cases h
  · exact hsound
  · refine ⟨hsound.asks, fun key side hin => ?_⟩
    rcases List.mem_append.mp hin with hold | hnew
    · exact hsound.confirmed key side hold
    · cases List.mem_singleton.mp hnew
      exact ⟨_, _, pair, rfl, hpair, hconfirmed⟩
  · refine ⟨fun other hin => ?_, hsound.confirmed⟩
    rcases List.mem_append.mp hin with hold | hnew
    · exact hsound.asks other hold
    · cases List.mem_singleton.mp hnew
      obtain ⟨-, -, side, hside, hcontext, hfactor, hdigest⟩ := bindingTask_ok htask
      exact ⟨side, pair, hside, by rw [Located, hcontext, hfactor]; exact hpair, hdigest⟩

theorem bindTask_ids
    (h : bindTask rt taskId run material blocked progress binding = .ok progress') :
    ∃ added : List HumanTask, progress'.tasks = progress.tasks ++ added ∧
      (added.map HumanTask.taskId).Sublist [taskId run.runId binding.1.bindingId] := by
  obtain rfl | ⟨pair, hpair, ⟨hconfirmed, findingIds, rfl⟩ | ⟨findingIds, task, htask, rfl⟩⟩ :=
    bindTask_cases h
  · exact ⟨[], (List.append_nil _).symm, List.nil_sublist _⟩
  · exact ⟨[], (List.append_nil _).symm, List.nil_sublist _⟩
  · refine ⟨[task], rfl, ?_⟩
    rw [List.map_singleton, (bindingTask_ok htask).1]

end

section
variable {blocked : Dict String ReviewFinding} {progress progress' : Progress}
  {bindings : List { binding : IntegratedTaskBinding //
    binding.kind = .fact ∨ binding.kind = .correction }}

theorem foldlM_sound (hsound : progress.Sound rt material)
    (h : bindings.foldlM (bindTask rt taskId run material blocked) progress = .ok progress') :
    progress'.Sound rt material := by
  induction bindings generalizing progress with
  | nil =>
    cases pure_ok.mp h
    exact hsound
  | cons binding rest ih =>
    rw [List.foldlM_cons, bind_ok] at h
    obtain ⟨next, hnext, h⟩ := h
    exact ih (bindTask_sound hsound hnext) h

theorem foldlM_ids
    (h : bindings.foldlM (bindTask rt taskId run material blocked) progress = .ok progress') :
    ∃ added : List HumanTask, progress'.tasks = progress.tasks ++ added ∧
      (added.map HumanTask.taskId).Sublist
        (bindings.map fun binding => taskId run.runId binding.1.bindingId) := by
  induction bindings generalizing progress with
  | nil =>
    cases pure_ok.mp h
    exact ⟨[], (List.append_nil _).symm, List.nil_sublist _⟩
  | cons binding rest ih =>
    rw [List.foldlM_cons, bind_ok] at h
    obtain ⟨next, hnext, h⟩ := h
    obtain ⟨first, hfirst, hfirstIds⟩ := bindTask_ids hnext
    obtain ⟨others, hothers, hotherIds⟩ := ih h
    refine ⟨first ++ others, by rw [hothers, hfirst, List.append_assoc], ?_⟩
    rw [List.map_append, List.map_cons]
    exact hfirstIds.append hotherIds

theorem foldlM_error {fault : Fault}
    (h : bindings.foldlM (bindTask rt taskId run material blocked) progress = .error fault) :
    fault = .service .capability ∨ fault = .service .conflict ∨
      (∃ message, fault = .valueError message) ∧ ∃ binding ∈ bindings, binding.1.Malformed := by
  induction bindings generalizing progress with
  | nil => cases h
  | cons binding rest ih =>
    rw [List.foldlM_cons, bind_error] at h
    rcases h with h | ⟨next, -, h⟩
    · rcases bindTask_error h with hcapability | hconflict | ⟨hvalue, hmalformed⟩
      · exact Or.inl hcapability
      · exact Or.inr (Or.inl hconflict)
      · exact Or.inr (Or.inr ⟨hvalue, binding, List.mem_cons_self, hmalformed⟩)
    · rcases ih h with hcapability | hconflict | ⟨hvalue, other, hother, hmalformed⟩
      · exact Or.inl hcapability
      · exact Or.inr (Or.inl hconflict)
      · exact Or.inr (Or.inr ⟨hvalue, other, List.mem_cons_of_mem _ hother, hmalformed⟩)

end

theorem Progress.Sound.both {progress : Progress} (hsound : progress.Sound rt material)
    {context : ComparisonContext} {factorId : String}
    (h : progress.confirmedPair (context.key, factorId) = true) :
    BothConfirmed rt material context factorId := by
  simp only [Progress.confirmedPair, Bool.and_eq_true, decide_eq_true_eq] at h
  have confirmed : ∀ side, ((context.key, factorId), side) ∈ progress.confirmedBindings →
      ∃ pair, Located material context factorId pair ∧ exactlyConfirmed rt pair side = true := by
    intro side hin
    obtain ⟨other, factor, pair, hkey, hpair, hexact⟩ := hsound.confirmed _ side hin
    obtain ⟨hcontext, rfl⟩ := Prod.mk.inj hkey
    cases ComparisonContext.key_injective hcontext
    exact ⟨pair, hpair, hexact⟩
  intro side
  cases side with
  | target => exact confirmed .target h.1
  | comparable => exact confirmed .comparable h.2

theorem defers_deferred {progress : Progress} (hsound : progress.Sound rt material)
    {finding : ReviewFinding} (h : defers material progress finding.id finding = true) :
    finding.status = .needsReview ∧ ∃ context factorId, finding.context = some context ∧
      finding.factorId = some factorId ∧ BothConfirmed rt material context factorId ∧
      Symptom material context factorId finding := by
  unfold defers at h
  split at h
  · next context factorId hcontext hfactor =>
    simp only [Bool.and_eq_true, Bool.or_eq_true, decide_eq_true_eq, List.any_eq_true] at h
    obtain ⟨⟨hstatus, hboth⟩, hsymptom⟩ := h
    refine ⟨hstatus, context, factorId, hcontext, hfactor, hsound.both hboth, ?_⟩
    rcases hsymptom with hreliability | ⟨⟨hkind, -⟩, slot, hslot, ⟨hid, hin⟩, hof⟩
    · exact Or.inl hreliability
    · exact Or.inr ⟨hkind, slot, hslot, hid, hin, hof⟩
  · cases h

theorem calculationContexts_mem {blocked : Dict String ReviewFinding} {progress : Progress}
    (hsound : progress.Sound rt material) {context : ComparisonContext}
    (h : context.key ∈ calculationContexts material blocked progress) :
    (∃ task ∈ progress.tasks, ∃ side, task.side = some side ∧ side.context = context) ∨
      approvalPending blocked = true ∧
        ∃ entry ∈ material.policy.inventory.contexts, entry.context = context ∧
          ∀ factor ∈ entry.factorIds, BothConfirmed rt material context factor := by
  rcases List.mem_append.mp h with hasked | hpending
  · obtain ⟨side, hside, hkey⟩ := List.mem_map.mp hasked
    obtain ⟨task, htask, hof⟩ := List.mem_filterMap.mp hside
    exact Or.inl ⟨task, htask, side, hof, ComparisonContext.key_injective hkey⟩
  · split at hpending
    · next happroval =>
      obtain ⟨entry, hentry, hkey⟩ := List.mem_map.mp hpending
      obtain ⟨hmem, hall⟩ := List.mem_filter.mp hentry
      cases ComparisonContext.key_injective hkey
      exact Or.inr ⟨happroval, entry, hmem, rfl, fun factor hfactor =>
        hsound.both (List.all_eq_true.mp hall factor hfactor)⟩
    · cases hpending

theorem accounted_of_not_hides {findings : List ReviewFinding} {progress : Progress}
    (hsound : progress.Sound rt material) {finding : ReviewFinding}
    (h : hides material (blockedFindings findings) progress (finding.id, finding) = false) :
    Accounted rt material findings progress.tasks finding := by
  by_contra hnot
  refine Bool.eq_false_iff.mp h ?_
  simp only [hides, Bool.and_eq_true, Bool.not_eq_true']
  refine ⟨⟨⟨?_, ?_⟩, ?_⟩, ?_⟩ <;> refine Bool.eq_false_iff.mpr fun hreason => hnot ?_
  · obtain ⟨task, htask, hnames⟩ := List.any_eq_true.mp hreason
    exact .listed task htask (of_decide_eq_true hnames)
  · simp only [Bool.and_eq_true] at hreason
    obtain ⟨hstatus, context, factorId, hcontext, hfactor, hboth, hsymptom⟩ :=
      defers_deferred hsound hreason.2
    exact .deferred context factorId hreason.1.1 hstatus hcontext hfactor hboth hsymptom
  · simp only [Bool.and_eq_true, decide_eq_true_eq] at hreason
    exact .trust hreason.1 hreason.2
  · simp only [Bool.and_eq_true, decide_eq_true_eq] at hreason
    obtain ⟨hkind, hcontext⟩ := hreason
    obtain ⟨context, hwithin, hboth⟩ := (Option.any_eq_true _ _).mp hcontext
    simp only [Bool.and_eq_true, decide_eq_true_eq] at hboth
    exact .aggregate context hkind hwithin hboth.1 (calculationContexts_mem hsound hboth.2)

theorem tasks_covered {bindings : Bindings} {findings : List ReviewFinding}
    {result : List HumanTask}
    (h : tasks rt taskId run material bindings findings = .ok result) :
    result ≠ [] ∧ (∀ task ∈ result, AsksCurrent rt material task) ∧
      (result.map HumanTask.taskId).Sublist
        (bindings.items.map fun binding => taskId run.runId binding.bindingId) ∧
      ∀ before finding after, findings = before ++ finding :: after →
        finding.status ≠ .verified →
        (∀ later ∈ after, later.status ≠ .verified → later.id ≠ finding.id) →
        Accounted rt material findings result finding := by
  simp only [tasks, bind_ok] at h
  obtain ⟨progress, hprogress, h⟩ := h
  rw [guard_ok, not_or] at h
  obtain ⟨⟨hsome, hseen⟩, h⟩ := h
  cases h
  have hsound : progress.Sound rt material :=
    foldlM_sound ⟨by simp, by simp⟩ hprogress
  obtain ⟨added, hadded, hids⟩ := foldlM_ids hprogress
  refine ⟨hsome, hsound.asks, ?_, fun before finding after hsplit hblocked hlast => ?_⟩
  · obtain rfl : progress.tasks = added := hadded
    have hitems : ((bindings.items.attachWith _ bindings.purposes).map fun binding =>
        taskId run.runId binding.1.bindingId) =
          bindings.items.map fun binding => taskId run.runId binding.bindingId := by
      exact @List.attachWith_map_val _ _ _
        (fun binding : IntegratedTaskBinding => taskId run.runId binding.bindingId) _
        bindings.purposes
    rwa [hitems] at hids
  · refine accounted_of_not_hides hsound (Bool.eq_false_iff.mpr fun hhides => hseen ?_)
    refine List.any_eq_true.mpr ⟨(finding.id, finding), ?_, hhides⟩
    rw [Dict.mem_items, hsplit]
    exact blockedFindings_last hblocked hlast

theorem tasks_raises {bindings : Bindings} {findings : List ReviewFinding} {fault : Fault}
    (h : tasks rt taskId run material bindings findings = .error fault) :
    fault = .service .capability ∨ fault = .service .conflict ∨
      (∃ message, fault = .valueError message) ∧
        ∃ binding ∈ bindings.items, binding.Malformed := by
  simp only [tasks, bind_error] at h
  rcases h with h | ⟨progress, -, h⟩
  · rcases foldlM_error h with hcapability | hconflict | ⟨hvalue, binding, hbinding, hmalformed⟩
    · exact Or.inl hcapability
    · exact Or.inr (Or.inl hconflict)
    · obtain ⟨_, hmem, rfl⟩ := List.mem_pmap.mp hbinding
      exact Or.inr (Or.inr ⟨hvalue, _, hmem, hmalformed⟩)
  · split at h
    · cases h
      exact Or.inl rfl
    · cases h

section
variable {content : ContentDigest} {subjects : MaterialSubjectMap}
  {digest : TaskRepository.TaskDigest} {permits : ReviewMaterial → Bool}
  {context : TaskRepository.HumanTaskContext content}

theorem subjectSide_ok {subjectId : String} {side : FactSideReference} {pair : EvidencedPair}
    (h : subjectSide rt subjects context subjectId = .ok (side, pair)) :
    Located context.snapshot.material side.context side.factorId pair ∧
      side.inputDigest.text = confirmationDigest rt pair side.side := by
  unfold subjectSide at h
  split at h
  · cases h
  · next other subject hresolve =>
    split at h
    · cases h
    · next reference hreference =>
      cases h
      obtain ⟨hcontext, hfactor, hside, hdigest⟩ := sideReference_ok hreference
      obtain ⟨-, -, hsingle⟩ := MaterialSubjectMap.resolve_ok hresolve
      obtain ⟨hin, hof⟩ := MaterialSubjectMap.names_iff.mp
        (List.mem_filter.mp (hsingle ▸ List.mem_singleton_self pair)).2
      refine ⟨?_, hside ▸ hdigest⟩
      rw [Located, hcontext, hfactor, hin, hof]
      exact hsingle

theorem draft_side {kind : TaskKind} {findings : List ReviewFinding} {findingIds : List String}
    {subjectId : Option String} {drafted : Draft} {side : FactSideReference}
    (h : draft rt subjects digest context kind findings findingIds subjectId = .ok drafted)
    (hside : drafted.side = some side) : ∃ pair,
      Located context.snapshot.material side.context side.factorId pair ∧
        side.inputDigest.text = confirmationDigest rt pair side.side := by
  unfold draft at h
  split at h
  · unfold draftSide at h
    split at h
    · cases h
    · split at h
      · cases h
      · next reference pair hsubject =>
        rw [guard_ok] at h
        obtain ⟨-, h⟩ := h
        split at h
        · cases h
        · cases h
          cases hside
          exact ⟨pair, subjectSide_ok hsubject⟩
  · rw [guard_ok] at h
    obtain ⟨-, h⟩ := h
    split at h
    · cases h
      cases hside
    · rw [guard_ok] at h
      obtain ⟨-, h⟩ := h
      split at h
      · simp only [draftRules, guard_ok] at h
        cases h.2.2
        cases hside
      · cases h
        cases hside

theorem draftTask_ok {id : UUID} {kind : TaskKind} {findings : List ReviewFinding}
    {findingIds : List String} {drafted : Draft} {sides : kind = .fact → drafted.side.isSome = true}
    {task : HumanTask}
    (h : draftTask digest context id kind findings findingIds drafted sides = .ok task) :
    task.taskId = id ∧ task.findingIds = findingIds ∧ task.side = drafted.side := by
  simp only [draftTask, bind_ok] at h
  obtain ⟨reason, -, affected, -, h⟩ := h
  split at h
  · split at h
    · cases h
      exact ⟨rfl, rfl, rfl⟩
    · cases h
  · cases h

theorem buildTask_ok {id : UUID} {kind : TaskKind} {findingIds : List String}
    {subjectId : Option String} {task : HumanTask}
    (h : buildTask rt subjects digest permits context id kind findingIds subjectId = .ok task) :
    task.taskId = id ∧ task.findingIds = findingIds ∧
      ∀ side, task.side = some side → AsksCurrent rt context.snapshot.material task := by
  simp only [buildTask, bind_ok] at h
  obtain ⟨_, -, drafted, hdrafted, h⟩ := h
  rw [guard_ok] at h
  obtain ⟨-, h⟩ := h
  split at h
  · obtain ⟨hid, hfindings, hside⟩ := draftTask_ok h
    refine ⟨hid, hfindings, fun side hof => ?_⟩
    obtain ⟨pair, hpair, hdigest⟩ := draft_side hdrafted (hside ▸ hof)
    exact ⟨side, pair, hof, hpair, hdigest⟩
  · cases h

/-- The law of the workflow task service; a calculation is recomputed once a
finding of its comparison is asked about. -/
structure RunCovered (rt : Runtime) (context : TaskRepository.HumanTaskContext content)
    (draws : ℕ → UUID) (handoff : HumanReviewHandoff) (tasks : List HumanTask) : Prop where
  asked : tasks ≠ []
  ids : tasks.map HumanTask.taskId = (List.range tasks.length).map draws
  blockers : (handoff.blockers.map WorkflowBlocker.blockerId).Nodup
  current : ∀ task ∈ tasks, ∀ side, task.side = some side →
    AsksCurrent rt context.snapshot.material task
  covered : ∀ finding ∈ context.review.findings, finding.status ≠ .verified →
    (∃ task ∈ tasks, finding.id ∈ task.findingIds) ∨
      finding.kind = "calculation" ∧ ∃ within, finding.context = some within ∧
        ∃ other ∈ context.review.findings, other.context = some within ∧
          ∃ task ∈ tasks, other.id ∈ task.findingIds

theorem recomputed_covered {covered : List String} {finding : ReviewFinding}
    (h : recomputed context covered finding = true) :
    finding.kind = "calculation" ∧ ∃ within, finding.context = some within ∧
      ∃ other ∈ context.review.findings, other.context = some within ∧ other.id ∈ covered := by
  simp only [recomputed, Bool.and_eq_true, decide_eq_true_eq] at h
  obtain ⟨hkind, hcontext⟩ := h
  obtain ⟨within, hwithin, hcovered⟩ := (Option.any_eq_true _ _).mp hcontext
  obtain ⟨other, hother, hkey⟩ := List.mem_filterMap.mp (of_decide_eq_true hcovered)
  obtain ⟨hmem, hid⟩ := List.mem_filter.mp hother
  obtain ⟨own, hown, hsame⟩ := Option.map_eq_some_iff.mp hkey
  cases ComparisonContext.key_injective hsame
  exact ⟨hkind, within, hwithin, other, hmem, hown, of_decide_eq_true hid⟩

theorem handoffForRun_covered {principal : Principal} {draws : ℕ → UUID}
    {bindings : List HumanTaskBinding} {handoff : HumanReviewHandoff} {tasks : List HumanTask}
    (h : handoffForRun rt subjects digest permits context principal draws bindings =
      .ok (handoff, tasks)) : RunCovered rt context draws handoff tasks := by
  simp only [handoffForRun, guard_ok, bind_ok, not_or, not_not] at h
  obtain ⟨-, ⟨hrequired, hsame, -⟩, drafts, hdrafts, blockers, -, made, hmade, h⟩ := h
  cases pure_ok.mp h
  have hdrafts := mapM_ok.mp hdrafts
  have hlength : tasks.length = bindings.length := by
    rw [← hdrafts.length_eq, List.length_zipIdx]
  simp only [sameSet, Bool.and_eq_true, List.all_eq_true, decide_eq_true_eq] at hsame
  -- Each covered id is one that the task of its binding lists.
  have hlisted : ∀ id ∈ bindings.flatMap HumanTaskBinding.findingIds,
      ∃ task ∈ tasks, id ∈ task.findingIds := by
    intro id hid
    obtain ⟨binding, hbinding, hin⟩ := List.mem_flatMap.mp hid
    obtain ⟨index, hindex, hget⟩ := List.getElem_of_mem hbinding
    have hpair : (binding, index) ∈ bindings.zipIdx := by
      rw [List.mem_zipIdx_iff_getElem?, List.getElem?_eq_getElem hindex, hget]
    obtain ⟨task, htask, hbuild⟩ := forall₂_left hdrafts hpair
    exact ⟨task, htask, (buildTask_ok hbuild).2.1 ▸ hin⟩
  constructor
  case asked =>
    intro hnil
    obtain ⟨id, rest, hids⟩ := List.exists_cons_of_ne_nil hrequired
    obtain ⟨task, htask, -⟩ := hlisted id (hsame.1 id (hids ▸ List.mem_cons_self))
    rw [hnil] at htask
    cases htask
  case ids =>
    have hmap : tasks.map HumanTask.taskId =
        bindings.zipIdx.map fun entry => draws entry.2 := by
      refine List.forall₂_eq_eq_eq ▸ List.forall₂_map_left_iff.mpr
        (List.forall₂_map_right_iff.mpr (hdrafts.flip.imp fun _ _ hbuild => ?_))
      exact (buildTask_ok hbuild).1
    have hindices : (bindings.zipIdx.map fun entry => draws entry.2) =
        (bindings.zipIdx.map Prod.snd).map draws := by
      rw [List.map_map]
      rfl
    rw [hmap, hindices, List.zipIdx_map_snd, hlength, List.range_eq_range']
  case blockers =>
    unfold handoffOf at hmade
    split at hmade
    · next hunique =>
      cases hmade
      exact hunique
    · cases hmade
  case current =>
    intro task htask side hside
    obtain ⟨entry, -, hbuild⟩ := forall₂_right hdrafts htask
    exact (buildTask_ok hbuild).2.2 side hside
  case covered =>
    intro finding hfinding hstatus
    by_cases hrecomputed : recomputed context
        (bindings.flatMap HumanTaskBinding.findingIds) finding = true
    · obtain ⟨hkind, within, hwithin, other, hother, hown, hid⟩ := recomputed_covered hrecomputed
      exact Or.inr ⟨hkind, within, hwithin, other, hother, hown, hlisted _ hid⟩
    · refine Or.inl (hlisted _ (hsame.1 _ (List.mem_map.mpr ⟨finding, ?_, rfl⟩)))
      refine List.mem_filter.mpr ⟨hfinding, ?_⟩
      simp only [Bool.and_eq_true, decide_eq_true_eq, Bool.not_eq_true']
      exact ⟨hstatus, Bool.eq_false_iff.mpr hrecomputed⟩

end

/-- The law of the integrated workflow, for the last finding of each id. -/
structure TasksCovered (rt : Runtime) (material : ReviewMaterial) (findings : List ReviewFinding)
    (result : List HumanTask) : Prop where
  asked : result ≠ []
  ids : (result.map HumanTask.taskId).Nodup
  current : ∀ task ∈ result, AsksCurrent rt material task
  covered : ∀ before finding after, findings = before ++ finding :: after →
    finding.status ≠ .verified →
    (∀ later ∈ after, later.status ≠ .verified → later.id ≠ finding.id) →
    Accounted rt material findings result finding

theorem handoffs_cover (rt : Runtime) (taskId : UUID → String → UUID) (run : RunReference)
    (material : ReviewMaterial) (bindings : Bindings) (findings : List ReviewFinding)
    (hids : ∀ a ∈ bindings.items, ∀ b ∈ bindings.items,
      taskId run.runId a.bindingId = taskId run.runId b.bindingId → a.bindingId = b.bindingId) :
    (∀ result, tasks rt taskId run material bindings findings = .ok result →
      TasksCovered rt material findings result) ∧
    (∀ fault, tasks rt taskId run material bindings findings = .error fault →
      fault = .service .capability ∨ fault = .service .conflict ∨
        (∃ message, fault = .valueError message) ∧
          ∃ binding ∈ bindings.items, binding.Malformed) ∧
    ∀ (content : ContentDigest) (context : TaskRepository.HumanTaskContext content)
      (subjects : MaterialSubjectMap) (digest : TaskRepository.TaskDigest)
      (permits : ReviewMaterial → Bool) (principal : Principal) (draws : ℕ → UUID)
      (mappings : List HumanTaskBinding) (handoff : HumanReviewHandoff) (drafted : List HumanTask),
      handoffForRun rt subjects digest permits context principal draws mappings =
        .ok (handoff, drafted) → RunCovered rt context draws handoff drafted := by
  refine ⟨fun result h => ?_, fun fault => tasks_raises,
    fun content context subjects digest permits principal draws mappings handoff drafted =>
      handoffForRun_covered⟩
  obtain ⟨hasked, hcurrent, hsub, hcovered⟩ := tasks_covered h
  refine ⟨hasked, hsub.nodup ?_, hcurrent, hcovered⟩
  have hmapped := (List.nodup_map_iff_inj_on bindings.unique.of_map).mp bindings.unique
  exact (List.nodup_map_iff_inj_on bindings.unique.of_map).mpr fun a ha b hb heq =>
    hmapped a ha b hb (hids a ha b hb heq)

def sampleBinding (question : String) : IntegratedTaskBinding where
  bindingId := "binding"
  kind := .correction
  context := sampleContext
  factorId := "factor"
  side := .target
  findingIds := ["finding"]
  question := question

def sampleBindings (question : String) : Bindings where
  items := [sampleBinding question]
  unique := List.nodup_singleton _
  purposes binding hin := by
    cases List.mem_singleton.mp hin
    exact Or.inr rfl

def sampleFinding (id kind : String) : ReviewFinding where
  id := id
  kind := kind
  status := .needsReview
  context := some sampleContext
  trace := "open"

/-- A failed check shares its id with the aggregate calculation that comes after it. -/
def sharedFindings : List ReviewFinding :=
  [sampleFinding "finding" "comparison", sampleFinding sampleContext.key "arithmetic",
    sampleFinding sampleContext.key "calculation"]

def sampleTasks (question : String) (findings : List ReviewFinding) : Except Fault (List HumanTask) :=
  tasks sampleRuntime (fun _ _ => ⟨1⟩) { runId := ⟨2⟩, revision := MemoryJobStore.sampleRevision 0 }
    ⟨samplePolicy, sampleFacts⟩ (sampleBindings question) findings

def sideBinding (side : Side) (bindingId finding : String) : IntegratedTaskBinding :=
  { sampleBinding "Correct it" with bindingId := bindingId, side := side, findingIds := [finding] }

def sidesBindings : Bindings where
  items := [sideBinding .target "target" "finding", sideBinding .comparable "comparable" "other"]
  unique := by decide
  purposes binding hin := by
    simp only [List.mem_cons, List.not_mem_nil, or_false] at hin
    cases hin with
    | inl htarget => exact htarget ▸ Or.inr rfl
    | inr hcomparable => exact hcomparable ▸ Or.inr rfl

def sidesFindings : List ReviewFinding := [sampleFinding "finding" "comparison",
  sampleFinding "other" "comparison", sampleFinding sampleContext.key "calculation"]

def sideTaskId (_ : UUID) (bindingId : String) : UUID := ⟨if bindingId = "target" then 1 else 2⟩

def sidesTasks : Except Fault (List HumanTask) :=
  tasks sampleRuntime sideTaskId { runId := ⟨2⟩, revision := MemoryJobStore.sampleRevision 0 }
    ⟨samplePolicy, sampleFacts⟩ sidesBindings sidesFindings

theorem handoffs_cover_sample : ∃ result, sidesTasks = .ok result ∧
    result.map HumanTask.findingIds = [["finding"], ["other"]] ∧
    TasksCovered sampleRuntime ⟨samplePolicy, sampleFacts⟩ sidesFindings result := by
  have hlisted : sidesTasks.map (fun result => result.map HumanTask.findingIds) =
      .ok [["finding"], ["other"]] := by decide +kernel
  obtain ⟨result, hresult, hids⟩ := map_ok.mp hlisted
  have happart : ∀ a ∈ sidesBindings.items, ∀ b ∈ sidesBindings.items,
      sideTaskId ⟨2⟩ a.bindingId = sideTaskId ⟨2⟩ b.bindingId → a.bindingId = b.bindingId := by
    decide +kernel
  exact ⟨result, hresult, hids, (handoffs_cover _ _ _ _ _ _ happart).1 result hresult⟩

def refusal {α : Type} : Except Fault α → Option String
  | .error (.valueError message) => some message
  | _ => none

theorem refusal_some {α : Type} {result : Except Fault α} {message : String} :
    refusal result = some message ↔ result = .error (.valueError message) := by
  rcases result with fault | value
  · cases fault <;> simp [refusal]
  · simp [refusal]

/-- The check is in no task and none of the reasons holds of it; and a question
without text is refused with neither of the two codes. -/
theorem shared_id_hides : (∃ result, sampleTasks "Correct it" sharedFindings = .ok result ∧
      ¬ Accounted sampleRuntime ⟨samplePolicy, sampleFacts⟩ sharedFindings result
        (sampleFinding sampleContext.key "arithmetic")) ∧
    ∃ message, sampleTasks "" sharedFindings = .error (.valueError message) := by
  refine ⟨?_, "String should have at least 1 character", ?_⟩
  · have hlisted : (sampleTasks "Correct it" sharedFindings).map
        (fun result => result.map HumanTask.findingIds) = .ok [["finding"]] := by decide +kernel
    obtain ⟨result, hresult, hids⟩ := map_ok.mp hlisted
    refine ⟨result, hresult, fun haccounted => ?_⟩
    cases haccounted with
    | listed task htask hnames =>
      have hin : task.findingIds ∈ result.map HumanTask.findingIds := List.mem_map_of_mem htask
      rw [hids] at hin
      rw [List.mem_singleton.mp hin] at hnames
      exact absurd (List.mem_singleton.mp hnames) (by decide)
    | trust identity => exact absurd identity (by decide)
    | aggregate context calculation => exact absurd calculation (by decide)
    | deferred context factorId pending => exact absurd pending (by decide)
  · have hrefused : refusal (sampleTasks "" sharedFindings) =
        some "String should have at least 1 character" := by decide +kernel
    exact refusal_some.mp hrefused

end AppraisalReview.Handoff
