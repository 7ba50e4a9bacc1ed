import AppraisalReview.Revisions
import AppraisalReview.WorkflowContracts

set_option autoImplicit false

/-!
# The single-process task repository

Revisions, runs, reviews, tasks and responses of every case, kept by one object
under one lock. The tables hold the values whose JSON they store. A transition
runs under the lock and may raise or return texts that decode to anything.
-/
namespace AppraisalReview

inductive AuthorizationPurpose where
  | rules | material | publication
deriving DecidableEq

/-- Reserved server record; never interchangeable with a signed local receipt. -/
structure AuthorizationRecord where
  authorizationId : UUID
  purpose : AuthorizationPurpose
  revision : MaterialRevision
  actor : ActorReference
  resultDigest : Option Digest := none
  human : actor.kind = .human
  publication : purpose = .publication ↔ resultDigest.isSome = true
deriving DecidableEq

def TaskKind.purpose : TaskKind → Option AuthorizationPurpose
  | .rules => some .rules
  | .material => some .material
  | .publication => some .publication
  | _ => none

def TaskKind.appendsRevision : TaskKind → Bool
  | .fact | .correction | .evidence | .rules => true
  | _ => false

structure HumanResponseResult where
  eventId : UUID
  accepted : AcceptedResponse
  task : HumanTask
  revision : MaterialRevision
  nextRun : Option RunReference := none
  authorization : Option AuthorizationRecord := none
deriving DecidableEq

def HumanResponseResult.acceptedEffect (result : HumanResponseResult) : Except Fault Unit :=
  let command := result.accepted.command
  if result.task.kind.purpose.isSome ≠ result.authorization.isSome then
    .error (.valueError "Only approving authority tasks produce an authorization record")
  else if (result.task.kind = .publication : Bool) ≠ result.nextRun.isNone then
    .error (.valueError "Accepted non-publication responses require fresh review work")
  else if result.task.kind.appendsRevision then
    if result.revision.parent ≠ some command.revision ∨
        result.revision.reference = command.revision then
      .error (.valueError "Material changes must append an exact child revision")
    else .ok ()
  else if result.revision.reference ≠ command.revision then
    .error (.valueError "Material and publication approval cannot edit the material")
  else .ok ()

def HumanResponseResult.effect (result : HumanResponseResult) : Except Fault Unit :=
  if result.accepted.command.action = .reject then
    if result.authorization.isSome ∨ result.nextRun.isSome ∨
        result.revision.reference ≠ result.accepted.command.revision then
      .error (.valueError "Rejection cannot create authority or re-entry or change material")
    else .ok ()
  else result.acceptedEffect

def HumanResponseResult.authority (result : HumanResponseResult) : Except Fault Unit :=
  match result.authorization with
  | none => .ok ()
  | some authorization =>
    let command := result.accepted.command
    if some authorization.purpose ≠ result.task.kind.purpose ∨
        (command.action ≠ .approve ∧ command.action ≠ .authorizePublication) then
      .error (.valueError "Authorization must match the task's approved purpose")
    else if authorization.resultDigest ≠ command.resultDigest then
      .error (.valueError "Publication authority must bind the accepted result digest")
    else .ok ()

/-- `response_binding` -/
def HumanResponseResult.responseBinding (result : HumanResponseResult) :
    Except Fault HumanResponseResult := do
  let command := result.accepted.command
  if result.accepted.actor.kind ≠ .human ∨ result.task.taskId ≠ command.taskId ∨
      result.task.state ≠ .answered ∨ result.task.version ≠ command.expectedVersion + 1 ∨
      result.task.run.revision ≠ command.revision then
    .error (.valueError "Response event must bind an answered version and trusted human")
  if result.nextRun.any (·.revision ≠ result.revision.reference) then
    .error (.valueError "Re-entry must bind the resulting exact material revision")
  if result.authorization.any fun authorization =>
      authorization.actor ≠ result.accepted.actor ∨ authorization.revision ≠ result.revision then
    .error (.valueError "Response authority must bind its actual actor and revision")
  result.effect
  result.authority
  .ok result

namespace TaskRepository

/-- `content_digest` of the other models that tasks are made from. -/
structure TaskDigest where
  tasks : List HumanTask → Digest
  review : CaseReviewResult → Digest
  value : PublicValue → Digest
  context : ComparisonContext → Digest

section
variable {content : ContentDigest}

structure Repository (content : ContentDigest) where
  snapshots : Dict (OpaqueID × OpaqueID) (RevisionSnapshot content) := .empty
  current : Dict OpaqueID OpaqueID := .empty
  activeRun : Dict OpaqueID UUID := .empty
  runs : Dict UUID RunReference := .empty
  reviews : Dict UUID CaseReviewResult := .empty
  tasks : Dict UUID HumanTask := .empty
  responses : Dict (String × OpaqueID) HumanResponseResult := .empty
  pending : List UUID := []
  pauses : Dict UUID WorkflowPause := .empty
  continuations : Dict UUID WorkflowContinuation := .empty
  confirmations : Dict OpaqueID (List (ActorReference × FactSideReference)) := .empty

abbrev Outcome (content : ContentDigest) (α : Type) := Except Fault α × Repository content

structure SnapshotTexts where
  material : Except Fault ReviewMaterial
  revision : Except Fault MaterialRevision

structure HumanTaskContext (content : ContentDigest) where
  snapshot : RevisionSnapshot content
  run : RunReference
  review : CaseReviewResult
  confirmedSides : List FactSideReference

structure HumanTaskTransition where
  snapshot : SnapshotTexts
  nextRun : Option RunReference := none
  authorization : Option AuthorizationRecord := none

abbrev TaskTransition (content : ContentDigest) :=
  HumanTask → HumanTaskContext content → Except Fault HumanTaskTransition

abbrev ReentryReview (content : ContentDigest) :=
  HumanTaskContext content → Except Fault CaseReviewResult

def SnapshotTexts.pin (texts : SnapshotTexts) : Except Fault (RevisionSnapshot content) :=
  match texts.revision, texts.material with
  | .error fault, _ => .error fault
  | _, .error fault => .error fault
  | .ok revision, .ok material =>
    if h : revision.reference.materialDigest = content.material material then
      .ok { material := material, revision := revision, pinned := h }
    else .error (.service .conflict)

/-- The checks of `register` that need no table. -/
def bootstrap (texts : SnapshotTexts) (run : RunReference) (review : CaseReviewResult) :
    Except Fault (RevisionSnapshot content) := do
  let material ← texts.material
  let revision ← texts.revision
  if run.revision ≠ revision.reference then .error (.service .conflict)
  if h : revision.reference.materialDigest = content.material material then
    if review.identity ≠ material.policy.identity then .error (.service .conflict)
    else .ok { material := material, revision := revision, pinned := h }
  else .error (.service .conflict)

def register (texts : SnapshotTexts) (run : RunReference) (review : CaseReviewResult)
    (s : Repository content) : Outcome content Unit :=
  match bootstrap texts run review with
  | .error fault => (.error fault, s)
  | .ok snapshot =>
    let reference := snapshot.revision.reference
    if (s.current.get? reference.caseId).isSome ∨ (s.runs.get? run.runId).isSome then
      (.error (.service .conflict), s)
    else (.ok (), { s with
      snapshots := s.snapshots.set (reference.caseId, reference.revisionId) snapshot
      current := s.current.set reference.caseId reference.revisionId
      activeRun := s.activeRun.set reference.caseId run.runId
      runs := s.runs.set run.runId run
      reviews := s.reviews.set run.runId review })

/-- `_context` -/
def context (principal : Principal) (run : RunReference) (allowPending : Bool)
    (s : Repository content) : Except Fault (HumanTaskContext content) := do
  let case := run.revision.caseId
  principal.require case .review
  if s.runs.get? run.runId ≠ some run then .error (.service .notFound)
  if s.current.get? case ≠ some run.revision.revisionId ∨
      s.activeRun.get? case ≠ some run.runId then .error (.service .conflict)
  match s.snapshots.get? (case, run.revision.revisionId) with
  | none => .error .keyError
  | some snapshot =>
    if snapshot.revision.reference ≠ run.revision then .error (.service .conflict)
    else match s.reviews.get? run.runId with
    | none => .error (.service .capability)
    | some review =>
      if run.runId ∈ s.pending ∧ ¬ allowPending then .error (.service .capability)
      else .ok {
        snapshot := snapshot
        run := run
        review := review
        confirmedSides := (((s.confirmations.get? case).getD []).filter
          fun confirmed => confirmed.1 = principal.actor).map Prod.snd }

def Principal.mayAsk (principal : Principal) : Bool :=
  principal.actor.kind = .human || principal.actor.kind = .system

def asksSame (task existing : HumanTask) : Bool :=
  existing.run = task.run && existing.state = .open && existing.kind = task.kind &&
    sameSet existing.findingIds task.findingIds &&
    existing.affectedSubjectIds = task.affectedSubjectIds

/-- `_create_task` -/
def createTask (principal : Principal) (task : HumanTask) (s : Repository content) :
    Outcome content HumanTask :=
  match context principal task.run false s with
  | .error fault => (.error fault, s)
  | .ok context =>
    if ¬ Principal.mayAsk principal then (.error (.service .unauthorized), s)
    else if task.state ≠ .open ∨ task.version ≠ 1 ∨ task.reasonCode = none ∨
        task.affectedSubjectIds = [] ∨
        ¬ task.findingIds.all (· ∈ context.review.findings.map ReviewFinding.id) then
      (.error (.service .validation), s)
    else match s.tasks.get? task.taskId with
    | some prior => if prior ≠ task then (.error (.service .conflict), s) else (.ok prior, s)
    | none => match s.tasks.values.find? (asksSame task) with
      | some existing =>
        if { existing with taskId := task.taskId } ≠ task then (.error (.service .conflict), s)
        else (.ok existing, s)
      | none => (.ok task, { s with tasks := s.tasks.set task.taskId task })

def createEach (principal : Principal) : List HumanTask → Repository content →
    Outcome content (List HumanTask)
  | [], s => (.ok [], s)
  | task :: rest, s =>
    match createTask principal task s with
    | (.error fault, s) => (.error fault, s)
    | (.ok created, s) => match createEach principal rest s with
      | (.error fault, s) => (.error fault, s)
      | (.ok others, s) => (.ok (created :: others), s)

def createTasks (principal : Principal) (tasks : List HumanTask) (s : Repository content) :
    Outcome content (List HumanTask) :=
  match createEach principal tasks s with
  | (.error fault, after) => (.error fault, { after with tasks := s.tasks })
  | created => created

/-- `_task` -/
def readTask (principal : Principal) (taskId : UUID) (s : Repository content) :
    Except Fault HumanTask :=
  match s.tasks.get? taskId with
  | none => .error (.service .notFound)
  | some task => do
    principal.require task.run.revision.caseId .review
    .ok task

def openTasks (run : RunReference) (s : Repository content) : List HumanTask :=
  s.tasks.values.filter fun task => task.run = run && task.state = .open

/-- The checkpoint a pause stores; the last receipt names exactly the open tasks. -/
def checkpoint (digest : TaskDigest) (principal : Principal) (pauseId : UUID)
    (result : BoundedWorkflowResult) (s : Repository content) : Except Fault WorkflowPause := do
  let _ ← context principal result.run false s
  let tasks := openTasks result.run s
  let pause ← WorkflowPause.waitingOnly {
    pauseId := pauseId, result := result, taskIds := tasks.map HumanTask.taskId }
  match result.body.events.getLast?.bind (·.toolResult) with
  | none => .error (.service .conflict)
  | some receipt =>
    if receipt.resultDigest ≠ some (digest.tasks tasks) then .error (.service .conflict)
    else .ok pause

def pause (digest : TaskDigest) (principal : Principal) (pauseId : UUID)
    (result : BoundedWorkflowResult) (s : Repository content) : Outcome content WorkflowPause :=
  match terminalShape result with
  | .error fault => (.error fault, s)
  | .ok () =>
    match principal.require result.run.revision.caseId .review with
    | .error fault => (.error fault, s)
    | .ok () =>
      if ¬ Principal.mayAsk principal then (.error (.service .unauthorized), s)
      else match s.pauses.get? result.run.runId with
      | some prior =>
        if prior.result ≠ result then (.error (.service .conflict), s) else (.ok prior, s)
      | none => match checkpoint digest principal pauseId result s with
        | .error fault => (.error fault, s)
        | .ok pause => (.ok pause, { s with pauses := s.pauses.set result.run.runId pause })

/-- What a transition asks to be stored, after the checks of the repository. -/
structure Change (content : ContentDigest) where
  snapshot : RevisionSnapshot content
  changed : Bool
  nextRun : Option RunReference
  authorization : Option AuthorizationRecord

def admitChange (context : HumanTaskContext content) (change : HumanTaskTransition)
    (s : Repository content) : Except Fault (Change content) := do
  let snapshot ← @SnapshotTexts.pin content change.snapshot
  let reference := snapshot.revision.reference
  let before := context.snapshot.revision
  let changed := snapshot.revision ≠ before
  if changed ∧ (snapshot.revision.parent ≠ some before.reference ∨
      reference.caseId ≠ before.reference.caseId ∨
      (s.snapshots.get? (reference.caseId, reference.revisionId)).isSome ∨
      change.nextRun = none) then .error (.service .conflict)
  if change.nextRun.any fun run => run.revision ≠ reference ∨ (s.runs.get? run.runId).isSome ∨
      run.attemptId.isSome ∨ run.runtimeSessionId.isSome then .error (.service .conflict)
  .ok {
    snapshot := snapshot, changed := changed
    nextRun := change.nextRun, authorization := change.authorization }

def continuation (task : HumanTask) (eventId : UUID) (nextRun : Option RunReference)
    (s : Repository content) : Except Fault (Option WorkflowContinuation) :=
  match nextRun, s.pauses.get? task.run.runId with
  | some nextRun, some checkpoint =>
    if task.taskId ∉ checkpoint.taskIds then .error (.service .conflict)
    else (WorkflowContinuation.freshRun {
      pauseId := checkpoint.pauseId
      responseEventId := eventId
      taskId := task.taskId
      previousRun := task.run
      nextRun := nextRun }).map some
  | _, _ => .ok none

structure Prepared (content : ContentDigest) where
  change : Change content
  result : HumanResponseResult
  continuation : Option WorkflowContinuation
  review : CaseReviewResult
  answered : RevisionReference
  confirmations : List (ActorReference × FactSideReference)

/-- The confirmations of a case after a change by this answer: those its author
had, and the answered side, or none. -/
def confirmationsAfter (principal : Principal) (command : HumanResponse) (task : HumanTask)
    (context : HumanTaskContext content) : List (ActorReference × FactSideReference) :=
  match task.side with
  | none => []
  | some side =>
    if task.kind = .fact ∧ command.action = .confirm then
      (context.confirmedSides ++ [side]).map fun side => (principal.actor, side)
    else []

def prepare (principal : Principal) (command : HumanResponse)
    (transition : TaskTransition content) (eventId : UUID) (task : HumanTask)
    (s : Repository content) : Except Fault (Prepared content) := do
  let context ← context principal task.run false s
  let accepted ← admitResponse task command principal context.snapshot.revision.reference
  let change ← transition task context
  let change ← admitChange context change s
  let result ← HumanResponseResult.responseBinding {
    eventId := eventId
    accepted := accepted
    task := task.restate .answered
    revision := change.snapshot.revision
    nextRun := change.nextRun
    authorization := change.authorization }
  match s.reviews.get? task.run.runId with
  | none => .error .keyError
  | some review =>
    let continuation ← continuation task eventId change.nextRun s
    let case := change.snapshot.revision.reference.caseId
    .ok {
      change := change
      result := result
      continuation := continuation
      review := review
      answered := context.snapshot.revision.reference
      confirmations := if change.changed then confirmationsAfter principal command task context
        else (s.confirmations.get? case).getD [] }

def siblings (task : HumanTask) (revision : RevisionReference) (s : Repository content) :
    List (UUID × HumanTask) :=
  s.tasks.items.filter fun entry => entry.1 ≠ task.taskId &&
    entry.2.run.revision = revision && entry.2.state = .open

/-- The tasks a response rewrites: its own and, when work goes on, the siblings. -/
def rewritten (task : HumanTask) (revision : RevisionReference) (superseding : Bool)
    (s : Repository content) : Dict UUID HumanTask :=
  let answered := s.tasks.set task.taskId (task.restate .answered)
  if superseding then
    (siblings task revision s).foldl (fun tasks entry =>
      tasks.set entry.1 (entry.2.restate .superseded)) answered
  else answered

/-- The writes at the end of `respond`; none of them can fail. -/
def store (key : String × OpaqueID) (task : HumanTask) (prepared : Prepared content)
    (s : Repository content) : Repository content :=
  let change := prepared.change
  let reference := change.snapshot.revision.reference
  let case := reference.caseId
  { tasks := rewritten task prepared.answered (change.changed || change.nextRun.isSome) s
    confirmations := s.confirmations.set case prepared.confirmations
    snapshots := if change.changed then
        s.snapshots.set (case, reference.revisionId) change.snapshot
      else s.snapshots
    current := if change.changed then s.current.set case reference.revisionId else s.current
    runs := change.nextRun.elim s.runs fun run => s.runs.set run.runId run
    activeRun := change.nextRun.elim s.activeRun fun run => s.activeRun.set case run.runId
    -- Previous findings remain available until work recomputes them.
    reviews := change.nextRun.elim s.reviews fun run => s.reviews.set run.runId prepared.review
    pending := change.nextRun.elim s.pending fun run => run.runId :: s.pending
    responses := s.responses.set key prepared.result
    continuations := prepared.continuation.elim s.continuations fun link =>
      s.continuations.set prepared.result.eventId link
    pauses := s.pauses }

def respond (principal : Principal) (command : HumanResponse)
    (transition : TaskTransition content) (eventId : UUID) (s : Repository content) :
    Outcome content HumanResponseResult :=
  match readTask principal command.taskId s with
  | .error fault => (.error fault, s)
  | .ok task =>
    match principal.require task.run.revision.caseId task.requiredPermission with
    | .error fault => (.error fault, s)
    | .ok () =>
      let key := (principal.actor.actorId, command.idempotencyKey)
      if principal.actor.kind ≠ .human then (.error (.service .unauthorized), s)
      else match s.responses.get? key with
      | some previous =>
        if previous.accepted.command ≠ command ∨ previous.accepted.actor ≠ principal.actor then
          (.error (.service .conflict), s)
        else (.ok previous, s)
      | none => match prepare principal command transition eventId task s with
        | .error fault => (.error fault, s)
        | .ok prepared => (.ok prepared.result, store key task prepared s)

def reenter (principal : Principal) (run : RunReference) (review : ReentryReview content)
    (s : Repository content) : Outcome content CaseReviewResult :=
  match context principal run true s with
  | .error fault => (.error fault, s)
  | .ok context =>
    if (s.pauses.get? run.runId).isSome then (.error (.service .capability), s)
    else if run.runId ∉ s.pending then (.ok context.review, s)
    else match review context with
    | .error fault => (.error fault, s)
    | .ok result =>
      if result.identity ≠ context.snapshot.material.policy.identity then
        (.error (.service .conflict), s)
      else (.ok result, { s with
        reviews := s.reviews.set run.runId result
        pending := s.pending.filter (· ≠ run.runId) })

inductive Call (content : ContentDigest) where
  | register (texts : SnapshotTexts) (run : RunReference) (review : CaseReviewResult)
  | createTasks (principal : Principal) (tasks : List HumanTask)
  | pause (principal : Principal) (pauseId : UUID) (result : BoundedWorkflowResult)
  | respond (principal : Principal) (command : HumanResponse)
      (transition : TaskTransition content) (eventId : UUID)
  | reenter (principal : Principal) (run : RunReference) (review : ReentryReview content)

inductive Reply where
  | registered
  | created (tasks : List HumanTask)
  | paused (pause : WorkflowPause)
  | responded (result : HumanResponseResult)
  | reviewed (review : CaseReviewResult)

def step (digest : TaskDigest) (s : Repository content) : Call content → Outcome content Reply
  | .register texts run review => (register texts run review s).map (·.map fun _ => .registered) id
  | .createTasks principal tasks => (createTasks principal tasks s).map (·.map .created) id
  | .pause principal pauseId result =>
    (pause digest principal pauseId result s).map (·.map .paused) id
  | .respond principal command transition eventId =>
    (respond principal command transition eventId s).map (·.map .responded) id
  | .reenter principal run review => (reenter principal run review s).map (·.map .reviewed) id

def run (digest : TaskDigest) (s : Repository content) (calls : List (Call content)) :
    Repository content :=
  calls.foldl (fun s call => (step digest s call).2) s

end
end TaskRepository
end AppraisalReview
