import AppraisalReview.FactorModels
import AppraisalReview.JobContracts
import AppraisalReview.Raising

set_option autoImplicit false

/-!
# Human-task contracts

A question about one revision of the material, its answer, and the receipt of
what the answer committed. A model whose validator can fail carries what the
validator guarantees, and is built from raw fields by a function that may raise.
-/
namespace AppraisalReview

def OpaqueID.parse (text : String) : Except Fault OpaqueID :=
  if h : opaqueText text = true then .ok ⟨text, h⟩
  else .error (.valueError "String should match pattern '^[A-Za-z0-9][A-Za-z0-9._-]\x7b0,127\x7d$'")

def Digest.parse (text : String) : Except Fault Digest :=
  if h : digestText text = true then .ok ⟨text, h⟩
  else .error (.valueError "String should match pattern '^[a-f0-9]\x7b64\x7d$'")

def DocumentRole.purpose : DocumentRole → DocumentPurpose
  | .criteria => .criteria
  | .forms => .forms
  | .reference => .reference
  | .brief => .brief

structure RuleReference where
  ruleSetId : String
  version : String
  context : ComparisonContext
  contentHash : Digest
  named : ruleSetId ≠ ""
  versioned : version ≠ ""
deriving DecidableEq

inductive PublicState where
  | present | blank | missing | notPresent | notApplicable
deriving DecidableEq

inductive PublicContent where
  | normalized (value : NormalizedValue)
  | text (value : String)
  | decimal (value : Decimal)
deriving DecidableEq

/-- URI-free view of an original or proposed value; never a trusted fact input. -/
structure PublicValue where
  state : PublicState
  value : Option PublicContent := none
  rawText : String
  unit : Option String := none
  confidence : Option Binary64 := none
  evidence : List SourceCitation := []
  stateValue : state = .present ↔ value.isSome = true
  confidenceUnit : confidence.all Binary64.unit = true
deriving DecidableEq

structure ValueRevision where
  subjectId : String
  original : PublicValue
  proposed : Option PublicValue := none
  corrected : Option PublicValue := none
  correctedBy : Option ActorReference := none
  named : subjectId ≠ ""
  correctionActor : corrected.isSome = correctedBy.isSome
  humanActor : correctedBy.all (·.kind = .human) = true
deriving DecidableEq

/-- One version of the review material of a case. Its canonicalization is the
one of review material; source preparation has no place in a task store. -/
structure MaterialRevision where
  reference : RevisionReference
  parent : Option RevisionReference := none
  documents : List DocumentReference
  rules : List RuleReference
  changes : List ValueRevision := []
  minDocuments : 2 ≤ documents.length
  actualRules : rules ≠ []
  sameCase : ∀ document ∈ documents, document.caseId = reference.caseId
  distinctDocuments : (documents.map DocumentReference.documentId).Nodup
  childVersion : ∀ p ∈ parent, p.caseId = reference.caseId ∧
    p.revisionId ≠ reference.revisionId ∧ p.materialDigest ≠ reference.materialDigest
deriving DecidableEq

/-- The constructor with its validator `identities`. -/
def MaterialRevision.build (reference : RevisionReference) (parent : Option RevisionReference)
    (documents : List DocumentReference) (rules : List RuleReference)
    (changes : List ValueRevision) : Except Fault MaterialRevision :=
  if hmin : 2 ≤ documents.length then
    if hrules : rules ≠ [] then
      if hcase : ∀ document ∈ documents, document.caseId = reference.caseId then
        if hdistinct : (documents.map DocumentReference.documentId).Nodup then
          if hchild : ∀ p ∈ parent, p.caseId = reference.caseId ∧
              p.revisionId ≠ reference.revisionId ∧
              p.materialDigest ≠ reference.materialDigest then
            .ok {
              reference := reference, parent := parent, documents := documents, rules := rules
              changes := changes, minDocuments := hmin, actualRules := hrules, sameCase := hcase
              distinctDocuments := hdistinct, childVersion := hchild }
          else .error (.valueError "A child revision requires a new exact material version")
        else .error (.valueError "Duplicate revision document")
      else .error (.valueError "Document case does not match revision")
    else .error (.valueError "Review material requires actual rules")
  else .error (.valueError "Tuple should have at least 2 items after validation")

theorem MaterialRevision.build_ok {reference : RevisionReference}
    {parent : Option RevisionReference} {documents : List DocumentReference}
    {rules : List RuleReference} {changes : List ValueRevision} {revision : MaterialRevision}
    (h : build reference parent documents rules changes = .ok revision) :
    revision.reference = reference ∧ revision.parent = parent := by
  unfold build at h
  split_ifs at h
  cases h
  exact ⟨rfl, rfl⟩

inductive TaskKind where
  | fact | correction | rules | material | publication | evidence
deriving DecidableEq

inductive ResponseAction where
  | confirm | correct | reject | approve | authorizePublication | supplyEvidence
deriving DecidableEq

def TaskKind.permission : TaskKind → Permission
  | .fact => .confirm
  | .correction | .evidence => .correct
  | .rules => .approveRules
  | .material => .approveMaterial
  | .publication => .publish

def TaskKind.action : TaskKind → ResponseAction
  | .fact => .confirm
  | .correction => .correct
  | .rules | .material => .approve
  | .publication => .authorizePublication
  | .evidence => .supplyEvidence

structure FactSideReference where
  context : ComparisonContext
  factorId : String
  side : Side
  inputDigest : Digest
  named : factorId ≠ ""
deriving DecidableEq

inductive TaskState where
  | open | answered | superseded
deriving DecidableEq

@[ext]
structure HumanTask where
  taskId : UUID
  run : RunReference
  version : ℕ
  kind : TaskKind
  requiredPermission : Permission
  state : TaskState := .open
  side : Option FactSideReference := none
  resultDigest : Option Digest := none
  question : String
  evidence : List SourceCitation := []
  findingIds : List String
  allowedResponses : List ResponseAction
  reasonCode : Option OpaqueID := none
  affectedSubjectIds : List OpaqueID := []
  positive : 1 ≤ version
  permitted : requiredPermission = kind.permission
  purposeful : ∀ action ∈ allowedResponses, action = kind.action ∨ action = .reject
  publication : kind = .publication ↔ resultDigest.isSome = true
  exactSide : kind = .fact → side.isSome = true
  asked : question ≠ "" ∧ findingIds ≠ [] ∧ allowedResponses ≠ []
  distinct : findingIds.Nodup ∧ allowedResponses.Nodup ∧ affectedSubjectIds.Nodup

instance : DecidableEq HumanTask := fun _ _ =>
  decidable_of_iff _ HumanTask.ext_iff.symm

/-- `_restate`: no check of a task reads its state, and versions only grow. -/
def HumanTask.restate (task : HumanTask) (state : TaskState) : HumanTask :=
  { task with state := state, version := task.version + 1, positive := Nat.le_add_left .. }

/-- Untrusted command: principal, roles and approval flags are not accepted. -/
@[ext]
structure HumanResponse where
  taskId : UUID
  expectedVersion : ℕ
  revision : RevisionReference
  sideDigest : Option Digest := none
  resultDigest : Option Digest := none
  idempotencyKey : OpaqueID
  action : ResponseAction
  correction : Option ValueRevision := none
  positive : 1 ≤ expectedVersion
  payload : (action = .correct ∨ action = .supplyEvidence) ↔ correction.isSome = true
  unasserted : ∀ c ∈ correction, c.corrected = none ∧ c.correctedBy = none ∧ c.proposed ≠ none

instance : DecidableEq HumanResponse := fun _ _ =>
  decidable_of_iff _ HumanResponse.ext_iff.symm

structure AcceptedResponse where
  command : HumanResponse
  actor : ActorReference
deriving DecidableEq

def admitResponse (task : HumanTask) (command : HumanResponse) (principal : Principal)
    (current : RevisionReference) : Except Fault AcceptedResponse :=
  match principal.require current.caseId task.requiredPermission with
  | .error fault => .error fault
  | .ok () =>
    if principal.actor.kind ≠ .human then .error (.service .unauthorized)
    else if command.taskId ≠ task.taskId then .error (.service .notFound)
    else if task.state ≠ .open ∨ command.expectedVersion ≠ task.version ∨
        command.revision ≠ current ∨ task.run.revision ≠ current ∨
        command.resultDigest ≠ task.resultDigest ∨
        command.sideDigest ≠ task.side.map FactSideReference.inputDigest then
      .error (.service .conflict)
    else if command.action ∉ task.allowedResponses then .error (.service .unauthorized)
    else .ok { command := command, actor := principal.actor }

theorem admitResponse_ok {task : HumanTask} {command : HumanResponse} {principal : Principal}
    {current : RevisionReference} {accepted : AcceptedResponse}
    (h : admitResponse task command principal current = .ok accepted) :
    accepted = { command := command, actor := principal.actor } ∧
      command.taskId = task.taskId ∧ task.state = .open ∧ task.run.revision = current ∧
      command.sideDigest = task.side.map FactSideReference.inputDigest ∧
      command.action ∈ task.allowedResponses := by
  unfold admitResponse at h
  split at h
  · cases h
  · simp only [Raising.guard_ok, not_or, not_not] at h
    obtain ⟨-, htask, ⟨hopen, -, -, hrevision, -, hside⟩, haction, h⟩ := h
    exact ⟨(Except.ok.inj h).symm, htask, hopen, hrevision, hside, haction⟩

structure ResponseReceipt where
  taskId : UUID
  consumedVersion : ℕ
  action : ResponseAction
  job : JobReference
  jobStatus : JobStatus
  revision : Option RevisionReference := none
  resumedRun : Option RunReference := none
  supersededTaskIds : List UUID := []
deriving DecidableEq

def ResponseReceipt.committedEffect (receipt : ResponseReceipt) : Except Fault ResponseReceipt :=
  if receipt.revision.isSome ≠ receipt.resumedRun.isSome then
    .error (.valueError "A new revision and its scheduled run are committed together")
  else if receipt.revision.any (·.caseId ≠ receipt.job.caseId) then
    .error (.valueError "The committed revision must belong to the job's case")
  else if receipt.resumedRun.map RunReference.revision ≠ receipt.revision then
    .error (.valueError "The resumed run must review the committed revision")
  else if receipt.resumedRun.any (·.attemptId.isSome) then
    .error (.valueError "A resumed run is scheduled before any attempt")
  else if receipt.action = .reject ∧ receipt.revision.isSome then
    .error (.valueError "A rejection produces no new revision")
  else if ¬ receipt.supersededTaskIds.Nodup then
    .error (.valueError "Duplicate superseded task reference")
  else if receipt.taskId ∈ receipt.supersededTaskIds then
    .error (.valueError "The answered task is not superseded by its own response")
  else .ok receipt

theorem ResponseReceipt.committedEffect_ok {receipt receipt' : ResponseReceipt}
    (h : receipt.committedEffect = .ok receipt') :
    receipt' = receipt ∧ (receipt.action = .reject → receipt.revision = none) := by
  unfold committedEffect at h
  split_ifs at h with _ _ _ _ hreject
  cases h
  refine ⟨rfl, fun rejecting => ?_⟩
  by_contra hsome
  exact hreject ⟨rejecting, by simpa [Option.ne_none_iff_isSome] using hsome⟩

def MaterialRevision.Follows (parent child : MaterialRevision) : Prop :=
  child.parent = some parent.reference

instance (parent child : MaterialRevision) : Decidable (parent.Follows child) :=
  inferInstanceAs (Decidable (child.parent = some parent.reference))

/-- `RevisionListView.linked_chain` -/
def linkedChain (job : JobReference) (revisions : List MaterialRevision) : Except Fault Unit :=
  if revisions.any (·.reference.caseId ≠ job.caseId) then
    .error (.valueError "Every listed revision must belong to the job's case")
  else if ¬ (revisions.zip revisions.tail).all fun pair => pair.1.Follows pair.2 then
    .error (.valueError "Listed revisions must form one parent-linked chain")
  else .ok ()

end AppraisalReview
