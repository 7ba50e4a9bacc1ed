import AppraisalReview.Raising
import AppraisalReview.TaskRepository
import Mathlib.Logic.Relation

set_option autoImplicit false

/-!
# What a call of the task repository can change

A call that raises changes nothing. Any other call is a sequence of moves: a
case is registered, a question asked, a run paused, a task answered or a run
reviewed again.
-/
namespace AppraisalReview.TaskRepository
open Raising (bind_ok error_bind guard_ok)
open Relation (ReflTransGen)
variable {content : ContentDigest} {s s' : Repository content}

structure Active (s : Repository content) (run : RunReference) : Prop where
  known : s.runs.get? run.runId = some run
  current : s.current.get? run.revision.caseId = some run.revision.revisionId
  active : s.activeRun.get? run.revision.caseId = some run.runId
  stored : ∃ snapshot, s.snapshots.get? (run.revision.caseId, run.revision.revisionId) =
    some snapshot ∧ snapshot.revision.reference = run.revision

theorem Active.of_same {run : RunReference} (active : Active s run)
    (runs : s'.runs.get? run.runId = s.runs.get? run.runId)
    (current : s'.current.get? run.revision.caseId = s.current.get? run.revision.caseId)
    (activeRun : s'.activeRun.get? run.revision.caseId = s.activeRun.get? run.revision.caseId)
    (snapshots : s.snapshots.Extends s'.snapshots) : Active s' run where
  known := by rw [runs]; exact active.known
  current := by rw [current]; exact active.current
  active := by rw [activeRun]; exact active.active
  stored := by
    obtain ⟨snapshot, hsnapshot, href⟩ := active.stored
    exact ⟨snapshot, snapshots _ _ hsnapshot, href⟩

theorem Active.unique {run run' : RunReference} (active : Active s run) (active' : Active s run')
    (case : run.revision.caseId = run'.revision.caseId) : run = run' := by
  have hid : run.runId = run'.runId := by
    have h := active.active
    rw [case, active'.active] at h
    exact (Option.some.inj h).symm
  have h := active.known
  rw [hid, active'.known] at h
  exact (Option.some.inj h).symm

structure ContextOf (s : Repository content) (principal : Principal) (run : RunReference)
    (found : HumanTaskContext content) : Prop where
  authorized : principal.require run.revision.caseId .review = .ok ()
  active : Active s run
  stored : s.snapshots.get? (run.revision.caseId, run.revision.revisionId) = some found.snapshot
  reference : found.snapshot.revision.reference = run.revision
  sameRun : found.run = run
  review : s.reviews.get? run.runId = some found.review
  sides : found.confirmedSides = (((s.confirmations.get? run.revision.caseId).getD []).filter
    fun confirmed => confirmed.1 = principal.actor).map Prod.snd

theorem context_ok {principal : Principal} {run : RunReference} {allowPending : Bool}
    {found : HumanTaskContext content} (h : context principal run allowPending s = .ok found) :
    ContextOf s principal run found := by
  simp only [context, bind_ok, error_bind, guard_ok, not_or, not_not] at h
  obtain ⟨⟨⟩, hrequire, hrun, ⟨hcurrent, hactive⟩, h⟩ := h
  cases hsnapshot : s.snapshots.get? (run.revision.caseId, run.revision.revisionId) with
  | none =>
    rw [hsnapshot] at h
    cases h
  | some snapshot =>
    simp only [hsnapshot, guard_ok, not_not] at h
    obtain ⟨hreference, h⟩ := h
    cases hreview : s.reviews.get? run.runId with
    | none =>
      rw [hreview] at h
      cases h
    | some review =>
      simp only [hreview, guard_ok] at h
      obtain ⟨-, h⟩ := h
      cases h
      exact ⟨hrequire, ⟨hrun, hcurrent, hactive, snapshot, hsnapshot, hreference⟩, hsnapshot,
        hreference, rfl, hreview, rfl⟩

structure Answers (s : Repository content) (key : String × OpaqueID) (task : HumanTask)
    (prepared : Prepared content) : Prop where
  stored : s.tasks.get? task.taskId = some task
  isOpen : task.state = .open
  active : Active s task.run
  unused : s.responses.get? key = none
  taskId : prepared.result.accepted.command.taskId = task.taskId
  key : key = (prepared.result.accepted.actor.actorId,
    prepared.result.accepted.command.idempotencyKey)
  answered : prepared.answered = task.run.revision
  case : prepared.change.snapshot.revision.reference.caseId = task.run.revision.caseId
  child : prepared.change.changed = true →
    s.snapshots.get? (task.run.revision.caseId,
      prepared.change.snapshot.revision.reference.revisionId) = none ∧
    prepared.change.nextRun.isSome = true
  unchanged : prepared.change.changed = false →
    prepared.change.snapshot.revision.reference = task.run.revision
  nextRun : ∀ run ∈ prepared.change.nextRun,
    run.revision = prepared.change.snapshot.revision.reference ∧ s.runs.get? run.runId = none

inductive Move (s : Repository content) : Repository content → Prop
  | registered {snapshot : RevisionSnapshot content} {run : RunReference}
      {review : CaseReviewResult} (about : run.revision = snapshot.revision.reference)
      (unknown : s.current.get? run.revision.caseId = none)
      (fresh : s.runs.get? run.runId = none) : Move s { s with
        snapshots := s.snapshots.set (run.revision.caseId, run.revision.revisionId) snapshot
        current := s.current.set run.revision.caseId run.revision.revisionId
        activeRun := s.activeRun.set run.revision.caseId run.runId
        runs := s.runs.set run.runId run
        reviews := s.reviews.set run.runId review }
  | asked {task : HumanTask} (active : Active s task.run)
      (fresh : s.tasks.get? task.taskId = none) :
      Move s { s with tasks := s.tasks.set task.taskId task }
  | paused {pause : WorkflowPause} (unpaused : s.pauses.get? pause.result.run.runId = none) :
      Move s { s with pauses := s.pauses.set pause.result.run.runId pause }
  | answered {key : String × OpaqueID} {task : HumanTask} {prepared : Prepared content}
      (answers : Answers s key task prepared) : Move s (store key task prepared s)
  | reviewed {run : RunReference} {review : CaseReviewResult} : Move s { s with
      reviews := s.reviews.set run.runId review
      pending := s.pending.filter (· ≠ run.runId) }

def Moves (s : Repository content) {α : Type} (outcome : Outcome content α) : Prop :=
  match outcome.1 with
  | .error _ => outcome.2 = s
  | .ok _ => ReflTransGen Move s outcome.2

theorem Moves.of_eq {α : Type} {reply : Except Fault α} : Moves s (reply, s) := by
  cases reply with
  | error fault => rfl
  | ok value => exact .refl

theorem Moves.map {α β : Type} {outcome : Outcome content α} {f : Except Fault α → Except Fault β}
    (h : Moves s outcome) (errors : ∀ fault, f (.error fault) = .error fault)
    (values : ∀ value, ∃ value', f (.ok value) = .ok value') : Moves s (outcome.map f id) := by
  obtain ⟨reply, after⟩ := outcome
  cases reply with
  | error fault =>
    rw [Prod.map_apply, errors]
    exact h
  | ok value =>
    obtain ⟨value', hvalue⟩ := values value
    rw [Prod.map_apply, hvalue]
    exact h

theorem bootstrap_ok {texts : SnapshotTexts} {run : RunReference} {review : CaseReviewResult}
    {snapshot : RevisionSnapshot content} (h : bootstrap texts run review = .ok snapshot) :
    run.revision = snapshot.revision.reference := by
  simp only [bootstrap, bind_ok, error_bind, guard_ok, not_not] at h
  obtain ⟨material, -, revision, -, hrun, h⟩ := h
  split_ifs at h
  cases h
  exact hrun

theorem register_moves (texts : SnapshotTexts) (run : RunReference) (review : CaseReviewResult) :
    Moves s (register texts run review s) := by
  unfold register
  cases hboot : @bootstrap content texts run review with
  | error fault => exact Moves.of_eq
  | ok snapshot =>
    simp only
    split_ifs with hknown
    · exact Moves.of_eq
    · have about := bootstrap_ok hboot
      simp only [← about] at hknown ⊢
      rw [not_or, Bool.not_eq_true, Bool.not_eq_true, Option.isSome_eq_false_iff,
        Option.isSome_eq_false_iff, Option.isNone_iff_eq_none, Option.isNone_iff_eq_none] at hknown
      exact ReflTransGen.single (.registered about hknown.1 hknown.2)

def SameButTasks (s s' : Repository content) : Prop := { s' with tasks := s.tasks } = s

theorem createTask_moves (principal : Principal) (task : HumanTask) :
    SameButTasks s (createTask principal task s).2 ∧
      ReflTransGen Move s (createTask principal task s).2 := by
  have same : SameButTasks s s ∧ ReflTransGen Move s s := ⟨rfl, .refl⟩
  unfold createTask
  cases hcontext : context principal task.run false s with
  | error fault => exact same
  | ok found =>
    simp only
    by_cases hkind : ¬ Principal.mayAsk principal
    · rw [if_pos hkind]
      exact same
    rw [if_neg hkind]
    split
    · exact same
    · cases hprior : s.tasks.get? task.taskId with
      | some prior =>
        simp only
        split_ifs <;> exact same
      | none =>
        simp only
        cases s.tasks.values.find? (asksSame task) with
        | some existing =>
          simp only
          split_ifs <;> exact same
        | none => exact ⟨rfl, .single (.asked (context_ok hcontext).active hprior)⟩

theorem createEach_moves (principal : Principal) (tasks : List HumanTask) :
    SameButTasks s (createEach principal tasks s).2 ∧
      ReflTransGen Move s (createEach principal tasks s).2 := by
  induction tasks generalizing s with
  | nil => exact ⟨rfl, .refl⟩
  | cons task rest ih =>
    obtain ⟨hsame, hmoves⟩ := createTask_moves (s := s) principal task
    simp only [createEach]
    generalize createTask principal task s = outcome at hsame hmoves ⊢
    obtain ⟨reply, middle⟩ := outcome
    cases reply with
    | error fault => exact ⟨hsame, hmoves⟩
    | ok created =>
      obtain ⟨hsame', hmoves'⟩ := ih (s := middle)
      simp only
      generalize createEach principal rest middle = outcome at hsame' hmoves' ⊢
      obtain ⟨reply, after⟩ := outcome
      have hboth : SameButTasks s after := by
        unfold SameButTasks at hsame hsame' ⊢
        rw [← hsame, ← hsame']
      cases reply <;> exact ⟨hboth, hmoves.trans hmoves'⟩

theorem createTasks_moves (principal : Principal) (tasks : List HumanTask) :
    Moves s (createTasks principal tasks s) := by
  obtain ⟨hsame, hmoves⟩ := createEach_moves (s := s) principal tasks
  unfold createTasks
  generalize createEach principal tasks s = outcome at hsame hmoves ⊢
  obtain ⟨reply, after⟩ := outcome
  cases reply with
  | error fault => exact hsame
  | ok created => exact hmoves

theorem waitingOnly_ok {pause pause' : WorkflowPause} (h : pause.waitingOnly = .ok pause') :
    pause' = pause := by
  simp only [WorkflowPause.waitingOnly, guard_ok] at h
  obtain ⟨-, -, -, -, h⟩ := h
  cases h
  rfl

theorem checkpoint_ok {digest : TaskDigest} {principal : Principal} {pauseId : UUID}
    {result : BoundedWorkflowResult} {pause : WorkflowPause}
    (h : checkpoint digest principal pauseId result s = .ok pause) : pause.result = result := by
  simp only [checkpoint, bind_ok] at h
  obtain ⟨found, -, pause', hwaiting, h⟩ := h
  split at h
  · cases h
  · rw [guard_ok] at h
    obtain ⟨-, h⟩ := h
    cases h
    rw [waitingOnly_ok hwaiting]

theorem pause_moves (digest : TaskDigest) (principal : Principal) (pauseId : UUID)
    (result : BoundedWorkflowResult) : Moves s (pause digest principal pauseId result s) := by
  unfold pause
  cases terminalShape result with
  | error fault => exact Moves.of_eq
  | ok shape =>
    cases principal.require result.run.revision.caseId .review with
    | error fault => exact Moves.of_eq
    | ok authorized =>
      by_cases hkind : ¬ Principal.mayAsk principal
      · rw [if_pos hkind]
        exact Moves.of_eq
      rw [if_neg hkind]
      cases hprior : s.pauses.get? result.run.runId with
      | some prior =>
        simp only
        split_ifs <;> exact Moves.of_eq
      | none =>
        cases hpause : checkpoint digest principal pauseId result s with
        | error fault => exact Moves.of_eq
        | ok pause =>
          have hresult := checkpoint_ok hpause
          simp only [← hresult] at hprior ⊢
          exact ReflTransGen.single (.paused hprior)

theorem pin_ok {texts : SnapshotTexts} {snapshot : RevisionSnapshot content}
    (h : texts.pin = .ok snapshot) :
    texts.material = .ok snapshot.material ∧ texts.revision = .ok snapshot.revision := by
  unfold SnapshotTexts.pin at h
  split at h
  · cases h
  · cases h
  · rename_i revision material hrevision hmaterial
    split_ifs at h
    cases h
    exact ⟨hmaterial, hrevision⟩

structure Admitted (s : Repository content) (context : HumanTaskContext content)
    (transition : HumanTaskTransition) (change : Change content) : Prop where
  material : transition.snapshot.material = .ok change.snapshot.material
  revision : transition.snapshot.revision = .ok change.snapshot.revision
  nextRun : transition.nextRun = change.nextRun
  authorization : transition.authorization = change.authorization
  changed : change.changed = true ↔ change.snapshot.revision ≠ context.snapshot.revision
  child : change.changed = true →
    change.snapshot.revision.parent = some context.snapshot.revision.reference ∧
    change.snapshot.revision.reference.caseId = context.snapshot.revision.reference.caseId ∧
    s.snapshots.get? (change.snapshot.revision.reference.caseId,
      change.snapshot.revision.reference.revisionId) = none ∧ change.nextRun ≠ none
  fresh : ∀ run ∈ change.nextRun, run.revision = change.snapshot.revision.reference ∧
    s.runs.get? run.runId = none ∧ run.attemptId = none ∧ run.runtimeSessionId = none

theorem admitChange_ok {context : HumanTaskContext content} {transition : HumanTaskTransition}
    {change : Change content} (h : admitChange context transition s = .ok change) :
    Admitted s context transition change := by
  simp only [admitChange, bind_ok, error_bind, guard_ok] at h
  obtain ⟨snapshot, hpin, hchild, hfresh, h⟩ := h
  cases h
  obtain ⟨hmaterial, hrevision⟩ := pin_ok hpin
  refine ⟨hmaterial, hrevision, rfl, rfl, decide_eq_true_iff, ?_, ?_⟩
  · intro hchanged
    push Not at hchild
    obtain ⟨hparent, hcase, hunused, hrun⟩ := hchild (decide_eq_true_iff.mp hchanged)
    exact ⟨hparent, hcase, by simpa using hunused, hrun⟩
  · intro run hrun
    change transition.nextRun = some run at hrun
    simpa [hrun, not_or] using hfresh

/-- What `responseBinding` returns is what it was given. -/
theorem responseBinding_ok {result result' : HumanResponseResult}
    (h : result.responseBinding = .ok result') : result' = result := by
  simp only [HumanResponseResult.responseBinding, bind_ok, error_bind, guard_ok] at h
  obtain ⟨-, -, -, -, -, -, -, h⟩ := h
  cases h
  rfl

structure PreparedBy (s : Repository content) (principal : Principal) (command : HumanResponse)
    (transition : TaskTransition content) (task : HumanTask) (prepared : Prepared content)
    (context : HumanTaskContext content) (outcome : HumanTaskTransition) : Prop where
  found : ContextOf s principal task.run context
  accepted : prepared.result.accepted = { command := command, actor := principal.actor }
  taskId : command.taskId = task.taskId
  isOpen : task.state = .open
  action : command.action ∈ task.allowedResponses
  side : command.sideDigest = task.side.map FactSideReference.inputDigest
  transition : transition task context = .ok outcome
  admitted : Admitted s context outcome prepared.change
  answered : prepared.answered = task.run.revision
  confirmations : prepared.confirmations =
    if prepared.change.changed then confirmationsAfter principal command task context
    else (s.confirmations.get? prepared.change.snapshot.revision.reference.caseId).getD []

theorem prepare_ok {principal : Principal} {command : HumanResponse}
    {transition : TaskTransition content} {eventId : UUID} {task : HumanTask}
    {prepared : Prepared content}
    (h : prepare principal command transition eventId task s = .ok prepared) :
    ∃ context outcome, PreparedBy s principal command transition task prepared context outcome := by
  simp only [prepare, bind_ok] at h
  obtain ⟨found, hcontext, accepted, haccepted, outcome, htransition, change, hchange, result,
    hresult, h⟩ := h
  cases hreview : s.reviews.get? task.run.runId with
  | none =>
    rw [hreview] at h
    cases h
  | some review =>
    simp only [hreview, bind_ok] at h
    obtain ⟨link, -, h⟩ := h
    cases h
    have hfound := context_ok hcontext
    obtain ⟨rfl, htask, hopen, -, hside, haction⟩ := admitResponse_ok haccepted
    exact ⟨found, outcome, {
      found := hfound
      accepted := by rw [responseBinding_ok hresult]
      taskId := htask
      isOpen := hopen
      action := haction
      side := hside
      transition := htransition
      admitted := admitChange_ok hchange
      answered := hfound.reference
      confirmations := rfl }⟩

theorem PreparedBy.answers {principal : Principal} {command : HumanResponse}
    {transition : TaskTransition content} {task : HumanTask} {prepared : Prepared content}
    {context : HumanTaskContext content} {outcome : HumanTaskTransition}
    (h : PreparedBy s principal command transition task prepared context outcome)
    (stored : s.tasks.get? command.taskId = some task)
    (unused : s.responses.get? (principal.actor.actorId, command.idempotencyKey) = none) :
    Answers s (principal.actor.actorId, command.idempotencyKey) task prepared where
  stored := by rw [← h.taskId]; exact stored
  isOpen := h.isOpen
  active := h.found.active
  unused := unused
  taskId := by rw [h.accepted]; exact h.taskId
  key := by rw [h.accepted]
  answered := h.answered
  case := by
    by_cases hchanged : prepared.change.changed = true
    · rw [(h.admitted.child hchanged).2.1, h.found.reference]
    · rw [not_not.mp (mt h.admitted.changed.mpr hchanged), h.found.reference]
  child := by
    intro hchanged
    obtain ⟨-, hcase, hunused, hrun⟩ := h.admitted.child hchanged
    rw [hcase, h.found.reference] at hunused
    exact ⟨hunused, Option.isSome_iff_ne_none.mpr hrun⟩
  unchanged := by
    intro hchanged
    have hsame : prepared.change.snapshot.revision = context.snapshot.revision :=
      not_not.mp (mt h.admitted.changed.mpr (by rw [hchanged]; exact Bool.false_ne_true))
    rw [hsame, h.found.reference]
  nextRun := fun run hrun =>
    ⟨(h.admitted.fresh run hrun).1, (h.admitted.fresh run hrun).2.1⟩

theorem readTask_ok {principal : Principal} {taskId : UUID} {task : HumanTask}
    (h : readTask principal taskId s = .ok task) :
    s.tasks.get? taskId = some task ∧
      principal.require task.run.revision.caseId .review = .ok () := by
  unfold readTask at h
  split at h
  · cases h
  · rename_i stored hstored
    obtain ⟨⟨⟩, hrequire, h⟩ := bind_ok.mp h
    cases h
    exact ⟨hstored, hrequire⟩

/-- How an answer that did not raise came about: from the record of an earlier
one, or by the whole admission path. -/
inductive Responded (s : Repository content) (principal : Principal) (command : HumanResponse)
    (transition : TaskTransition content) (result : HumanResponseResult) :
    Repository content → Prop
  | replayed (stored : s.responses.get? (principal.actor.actorId, command.idempotencyKey) =
        some result) (same : result.accepted.command = command)
      (actor : result.accepted.actor = principal.actor) :
      Responded s principal command transition result s
  | answered {task : HumanTask} {prepared : Prepared content} {eventId : UUID}
      (stored : s.tasks.get? command.taskId = some task)
      (unused : s.responses.get? (principal.actor.actorId, command.idempotencyKey) = none)
      (prepares : prepare principal command transition eventId task s = .ok prepared)
      (isResult : result = prepared.result) :
      Responded s principal command transition result
        (store (principal.actor.actorId, command.idempotencyKey) task prepared s)

structure MayAnswer (s : Repository content) (principal : Principal) (taskId : UUID) : Prop where
  human : principal.actor.kind = .human
  stored : ∃ task, s.tasks.get? taskId = some task ∧
    principal.require task.run.revision.caseId .review = .ok () ∧
    principal.require task.run.revision.caseId task.requiredPermission = .ok ()

theorem respond_cases (principal : Principal) (command : HumanResponse)
    (transition : TaskTransition content) (eventId : UUID) :
    match (respond principal command transition eventId s).1 with
    | .error _ => (respond principal command transition eventId s).2 = s
    | .ok result => MayAnswer s principal command.taskId ∧ Responded s principal command
        transition result (respond principal command transition eventId s).2 := by
  unfold respond
  cases htask : readTask principal command.taskId s with
  | error fault => rfl
  | ok task =>
    obtain ⟨hstored, hreview⟩ := readTask_ok htask
    cases hpermission : principal.require task.run.revision.caseId task.requiredPermission with
    | error fault => simp [hpermission]
    | ok permitted =>
      simp only [hpermission]
      by_cases hkind : principal.actor.kind ≠ .human
      · rw [if_pos hkind]
      rw [if_neg hkind]
      have may : MayAnswer s principal command.taskId :=
        ⟨not_not.mp hkind, task, hstored, hreview, hpermission⟩
      cases hprior : s.responses.get? (principal.actor.actorId, command.idempotencyKey) with
      | some previous =>
        simp only
        by_cases hsame : previous.accepted.command ≠ command ∨
            previous.accepted.actor ≠ principal.actor
        · rw [if_pos hsame]
        · rw [if_neg hsame]
          rw [not_or, not_not, not_not] at hsame
          exact ⟨may, .replayed hprior hsame.1 hsame.2⟩
      | none =>
        cases hprepare : prepare principal command transition eventId task s with
        | error fault => simp only
        | ok prepared =>
          simp only
          exact ⟨may, .answered hstored hprior hprepare rfl⟩

theorem respond_moves (principal : Principal) (command : HumanResponse)
    (transition : TaskTransition content) (eventId : UUID) :
    Moves s (respond principal command transition eventId s) := by
  have h := respond_cases (s := s) principal command transition eventId
  generalize respond principal command transition eventId s = outcome at h ⊢
  obtain ⟨reply, after⟩ := outcome
  cases reply with
  | error fault => exact h
  | ok result =>
    obtain ⟨-, h⟩ := h
    cases h with
    | replayed => exact ReflTransGen.refl
    | answered stored unused prepares =>
      obtain ⟨found, outcome, hprepared⟩ := prepare_ok prepares
      exact ReflTransGen.single (.answered (hprepared.answers stored unused))

theorem reenter_moves (principal : Principal) (run : RunReference) (review : ReentryReview content) :
    Moves s (reenter principal run review s) := by
  unfold reenter
  cases context principal run true s with
  | error fault => exact Moves.of_eq
  | ok found =>
    simp only
    by_cases hpaused : (s.pauses.get? run.runId).isSome
    · rw [if_pos hpaused]
      exact Moves.of_eq
    rw [if_neg hpaused]
    by_cases hpending : run.runId ∉ s.pending
    · rw [if_pos hpending]
      exact Moves.of_eq
    rw [if_neg hpending]
    cases review found with
    | error fault => exact Moves.of_eq
    | ok result =>
      simp only
      split_ifs
      · exact Moves.of_eq
      · exact ReflTransGen.single .reviewed

theorem step_moves (digest : TaskDigest) (call : Call content) : Moves s (step digest s call) := by
  cases call with
  | register texts run review =>
    exact (register_moves texts run review).map (fun _ => rfl) fun _ => ⟨_, rfl⟩
  | createTasks principal tasks =>
    exact (createTasks_moves principal tasks).map (fun _ => rfl) fun _ => ⟨_, rfl⟩
  | pause principal pauseId result =>
    exact (pause_moves digest principal pauseId result).map (fun _ => rfl) fun _ => ⟨_, rfl⟩
  | respond principal command transition eventId =>
    exact (respond_moves principal command transition eventId).map (fun _ => rfl) fun _ => ⟨_, rfl⟩
  | reenter principal run review =>
    exact (reenter_moves principal run review).map (fun _ => rfl) fun _ => ⟨_, rfl⟩

theorem Moves.reach {α : Type} {outcome : Outcome content α} (h : Moves s outcome) :
    ReflTransGen Move s outcome.2 := by
  obtain ⟨reply, after⟩ := outcome
  cases reply with
  | error fault =>
    obtain rfl : after = s := h
    exact .refl
  | ok value => exact h

theorem run_moves (digest : TaskDigest) (calls : List (Call content)) :
    ReflTransGen Move s (run digest s calls) := by
  induction calls generalizing s with
  | nil => exact .refl
  | cons call rest ih => exact (step_moves digest call).reach.trans ih

end AppraisalReview.TaskRepository
