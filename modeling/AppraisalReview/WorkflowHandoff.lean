import AppraisalReview.MaterialSubjects

set_option autoImplicit false

/-!
# Handing a review over to a human

Which questions the findings of a review become. Configuration chooses the
purpose of a question; a finding that no question covers has to be one of the
few that a later review settles by itself.
-/
namespace AppraisalReview.Handoff

/-- Trusted configuration mapping actual finding ids to one editable observation. -/
structure IntegratedTaskBinding where
  bindingId : String
  kind : TaskKind
  context : ComparisonContext
  factorId : String
  side : Side
  findingIds : List String
  question : String

/-- The bindings an execution was configured with. -/
structure Bindings where
  items : List IntegratedTaskBinding
  unique : (items.map IntegratedTaskBinding.bindingId).Nodup
  purposes : ∀ binding ∈ items, binding.kind = .fact ∨ binding.kind = .correction

def Bindings.build (items : List IntegratedTaskBinding) : Except Fault Bindings :=
  if hunique : (items.map IntegratedTaskBinding.bindingId).Nodup then
    if hpurposes : ∀ binding ∈ items, binding.kind = .fact ∨ binding.kind = .correction then
      .ok ⟨items, hunique, hpurposes⟩
    else .error (.valueError "Only canonical material response purposes are supported")
  else .error (.valueError "Workflow task bindings must be unique")

def blockedFindings (findings : List ReviewFinding) : Dict String ReviewFinding :=
  (findings.filter fun finding => finding.status ≠ .verified).foldl
    (fun blocked finding => blocked.set finding.id finding) .empty

def IntegratedTaskBinding.misses (binding : IntegratedTaskBinding) (finding : ReviewFinding) :
    Bool :=
  finding.kind = "approval" || finding.context ≠ some binding.context ||
    finding.factorId.any (· ≠ binding.factorId)

def IntegratedTaskBinding.names (binding : IntegratedTaskBinding) (pair : EvidencedPair) : Bool :=
  pair.context = binding.context && pair.pair.factorId = binding.factorId

def exactlyConfirmed (rt : Runtime) (pair : EvidencedPair) (side : Side) : Bool :=
  let reliability := pair.reliability side
  reliability.method = .reviewerConfirmed &&
    reliability.confirmation.any (·.inputDigest = confirmationDigest rt pair side) &&
    reliability.unresolved = [] && reliability.selection ≠ .ambiguous &&
    reliability.confidenceKind ≠ .unknown && reliability.provenance ≠ .unknown

structure Progress where
  tasks : List HumanTask := []
  confirmedBindings : List ((String × String) × Side) := []
  confirmedFindings : List String := []

section
variable (rt : Runtime) (taskId : UUID → String → UUID) (run : RunReference)

def sideReference (context : ComparisonContext) (factorId : String) (side : Side)
    (pair : EvidencedPair) : Except Fault FactSideReference :=
  if h : factorId ≠ "" then .ok {
    context := context
    factorId := factorId
    side := side
    inputDigest := rt.sha256 (CanonicalJson.dumps (pair.covered side).json)
    named := h }
  else .error (.valueError "String should have at least 1 character")

/-- `uuid5` makes the id of a task from its run and its binding. -/
def bindingTask (binding : IntegratedTaskBinding)
    (purpose : binding.kind = .fact ∨ binding.kind = .correction) (findingIds : List String)
    (pair : EvidencedPair) : Except Fault HumanTask := do
  let side ← sideReference rt binding.context binding.factorId binding.side pair
  let subject ← OpaqueID.parse binding.bindingId
  if hasked : binding.question ≠ "" ∧ findingIds ≠ [] then
    if hdistinct : findingIds.Nodup then .ok {
      taskId := taskId run.runId binding.bindingId
      run := run
      version := 1
      kind := binding.kind
      requiredPermission := binding.kind.permission
      side := some side
      question := binding.question
      evidence := pair.sources binding.side
      findingIds := findingIds
      allowedResponses := [binding.kind.action, .reject]
      reasonCode := some ⟨"controller-review-findings", by decide⟩
      affectedSubjectIds := [subject]
      positive := numbered_from_one
      permitted := rfl
      purposeful := by simp
      publication := by obtain h | h := purpose <;> simp [h]
      exactSide := fun _ => rfl
      asked := ⟨hasked.1, hasked.2, List.cons_ne_nil _ _⟩
      distinct := ⟨hdistinct, by obtain h | h := purpose <;> simp [h, TaskKind.action],
        List.nodup_singleton _⟩ }
    else .error (.valueError "Task findings, subjects and allowed responses must be unique")
  else .error (.valueError "String should have at least 1 character")

variable (material : ReviewMaterial)

def bindTask (blocked : Dict String ReviewFinding) (progress : Progress)
    (binding : { binding : IntegratedTaskBinding //
      binding.kind = .fact ∨ binding.kind = .correction }) : Except Fault Progress :=
  let findingIds := binding.1.findingIds.filter fun identity => (blocked.get? identity).isSome
  if findingIds = [] then .ok progress
  else if findingIds.any fun identity => (blocked.get? identity).any binding.1.misses then
    .error (.service .capability)
  else match material.facts.pairs.filter binding.1.names with
  | [pair] =>
    if binding.1.kind = .fact && exactlyConfirmed rt pair binding.1.side then .ok { progress with
      confirmedBindings := progress.confirmedBindings ++
        [((binding.1.context.key, binding.1.factorId), binding.1.side)]
      confirmedFindings := progress.confirmedFindings ++ findingIds }
    else match bindingTask rt taskId run binding.1 binding.2 findingIds pair with
    | .error fault => .error fault
    | .ok task => .ok { progress with tasks := progress.tasks ++ [task] }
  | _ => .error (.service .conflict)

def Progress.confirmedPair (progress : Progress) (key : String × String) : Bool :=
  (key, .target) ∈ progress.confirmedBindings && (key, .comparable) ∈ progress.confirmedBindings

/-- The controller keeps these blockers until its final authority permits the revision. -/
def approvalPending (blocked : Dict String ReviewFinding) : Bool :=
  (blocked.get? "trust").any fun finding =>
    finding.kind = "approval" && finding.status = .needsReview

/-- The contexts of the tasks, and the confirmed ones while the approval is pending. -/
def calculationContexts (blocked : Dict String ReviewFinding) (progress : Progress) :
    List String :=
  (progress.tasks.filterMap HumanTask.side).map (fun side => side.context.key) ++
    if approvalPending blocked then
      (material.policy.inventory.contexts.filter fun entry => entry.factorIds.all fun factor =>
        progress.confirmedPair (entry.context.key, factor)).map fun entry => entry.context.key
    else []

/-- A known symptom of the pending approval; it stays in the persisted review. -/
def defers (progress : Progress) (identity : String) (finding : ReviewFinding) : Bool :=
  match finding.context, finding.factorId with
  | some context, some factorId =>
    finding.status = .needsReview && progress.confirmedPair (context.key, factorId) &&
      ((finding.kind = "evidence_reliability" &&
          identity = context.key ++ "/factor/" ++ factorId) ||
        (finding.kind = "observed_unresolved" &&
          finding.trace = "Current source and exact-material authority required" &&
          material.policy.inventory.slots.any fun slot => identity = "observed/" ++ slot.id &&
            slot.context = context && slot.factorId = some factorId))
  | _, _ => false

def hides (blocked : Dict String ReviewFinding) (progress : Progress)
    (entry : String × ReviewFinding) : Bool :=
  let (identity, finding) := entry
  !(progress.tasks.any fun task => identity ∈ task.findingIds) &&
    !(approvalPending blocked && identity ∈ progress.confirmedFindings &&
      defers material progress identity finding) &&
    !(identity = "trust" && finding.kind = "approval") &&
    !(finding.kind = "calculation" && finding.context.any fun context =>
      identity = context.key && context.key ∈ calculationContexts material blocked progress)

/-- `_WorkflowSession._tasks` -/
def tasks (bindings : Bindings) (findings : List ReviewFinding) :
    Except Fault (List HumanTask) := do
  let blocked := blockedFindings findings
  let progress ← (bindings.items.attachWith _ bindings.purposes).foldlM
    (bindTask rt taskId run material blocked) {}
  if progress.tasks = [] ∨ blocked.items.any (hides material blocked progress) then
    .error (.service .capability)
  else .ok progress.tasks

end
/-- Trusted mapping from one workflow blocker to stored deterministic findings. -/
structure HumanTaskBinding where
  blockerId : String
  kind : TaskKind
  findingIds : List String
  subjectId : Option String := none

def ResponseAction.title : ResponseAction → String
  | .confirm => "Confirm"
  | .correct => "Correct"
  | .reject => "Reject"
  | .approve => "Approve"
  | .authorizePublication => "Authorize publication"
  | .supplyEvidence => "Supply evidence"

def TaskKind.asksSide : TaskKind → Bool
  | .fact | .correction | .evidence => true
  | _ => false

def ReviewFinding.approves (finding : ReviewFinding) : Bool :=
  finding.kind = "approval" || finding.kind = "rule_rejected" || finding.kind = "rule_source"

def strays (side : FactSideReference) (finding : ReviewFinding) : Bool :=
  finding.context.any (· ≠ side.context) || finding.factorId.any (· ≠ side.factorId) ||
    ((finding.context.isNone || finding.factorId.isNone) &&
      finding.id ≠ side.context.key ++ "/factor/" ++ side.factorId)

structure Draft where
  side : Option FactSideReference := none
  subjectIds : List String
  question : String
  evidence : List SourceCitation

section
variable {content : ContentDigest} (rt : Runtime) (subjects : MaterialSubjectMap)
  (digest : TaskRepository.TaskDigest) (permits : ReviewMaterial → Bool)
  (context : TaskRepository.HumanTaskContext content)

/-- A `ValueError` of the subject map is a request that is not valid. -/
def subjectSide (subjectId : String) : Except Fault (FactSideReference × EvidencedPair) :=
  match subjects.resolve context.snapshot.material subjectId with
  | .error _ => .error (.service .validation)
  | .ok (pair, subject) =>
    match sideReference rt pair.context pair.pair.factorId subject.side pair with
    | .error _ => .error (.service .validation)
    | .ok side => .ok (side, pair)

/-- The evidence that `public_value` shows. -/
def subjectEvidence (pair : EvidencedPair) (side : Side) : Except Fault (List SourceCitation) :=
  match MaterialSubjectMap.project pair side with
  | .error _ => .error (.valueError "Input should be less than or equal to 1")
  | .ok value => .ok value.evidence

def draftSide (kind : TaskKind) (findings : List ReviewFinding) (subjectId : Option String) :
    Except Fault Draft :=
  match subjectId with
  | none => .error (.service .validation)
  | some subjectId =>
    match subjectSide rt subjects context subjectId with
    | .error fault => .error fault
    | .ok (side, pair) =>
      if findings.any (strays side) then .error (.service .unauthorized)
      else match subjectEvidence pair side.side with
      | .error fault => .error fault
      | .ok sources => .ok {
          side := some side
          subjectIds := [subjectId]
          question := ResponseAction.title kind.action ++ " " ++ subjectId ++ " (" ++
            side.context.scope.text ++ ", " ++ side.side.text ++ ") against the cited source. " ++
            "This response will require a full review of the resulting material."
          evidence := findings.flatMap ReviewFinding.evidence ++ sources }

def draftRules (findings : List ReviewFinding) (findingIds : List String) : Except Fault Draft :=
  let ruleSets := context.snapshot.material.policy.ruleSets
  if !ruleSets.any fun entry => entry.rules.status = .candidate then .error (.service .conflict)
  else
    let required := (context.review.findings.filter fun finding =>
      finding.status ≠ .verified && ReviewFinding.approves finding).map ReviewFinding.id
    if !sameSet findingIds required then .error (.service .validation)
    else .ok {
      subjectIds := ruleSets.map fun entry => "rules-" ++ (digest.context entry.context).text
      question := "Approve the cited candidate rules for these exact contexts: " ++
        ", ".intercalate (ruleSets.map fun entry => entry.context.key) ++ "?"
      evidence := findings.flatMap ReviewFinding.evidence ++ ruleSets.flatMap ScopedRules.evidence }

def draft (kind : TaskKind) (findings : List ReviewFinding) (findingIds : List String)
    (subjectId : Option String) : Except Fault Draft :=
  if TaskKind.asksSide kind then draftSide rt subjects context kind findings subjectId
  else if subjectId ≠ none then .error (.service .validation)
  else match kind with
  | .publication => .ok {
      subjectIds := ["publication"]
      question := "Authorize publication of this exact verified result? " ++
        "Artifact writing and publication checks remain required."
      evidence := findings.flatMap ReviewFinding.evidence }
  | _ =>
    if !findings.all ReviewFinding.approves then .error (.service .unauthorized)
    else match kind with
    | .rules => draftRules digest context findings findingIds
    | _ => .ok {
        subjectIds := ["material"]
        question := "Approve this exact material after separate fact and rule review? " ++
          "A current signed local material receipt is required."
        evidence := findings.flatMap ReviewFinding.evidence }

def reasonOf (findings : List ReviewFinding) : String :=
  match Dict.fromKeys (findings.map ReviewFinding.kind) with
  | [kind] => kind
  | _ => "multiple-review-findings"

def admitFindings (kind : TaskKind) (findings : List ReviewFinding) (findingIds : List String) :
    Except Fault Unit :=
  if findingIds = [] ∨ ¬ findingIds.Nodup ∨
      ¬ sameSet findingIds (findings.map ReviewFinding.id) then .error (.service .validation)
  else if kind = .publication then
    if context.review.status ≠ .verified ∨ !permits context.snapshot.material then
      .error (.service .capability)
    else .ok ()
  else if findings.any fun finding => finding.status = .verified then .error (.service .conflict)
  else .ok ()

def draftTask (taskId : UUID) (kind : TaskKind) (findings : List ReviewFinding)
    (findingIds : List String) (draft : Draft)
    (sides : kind = .fact → draft.side.isSome = true) : Except Fault HumanTask := do
  let reason ← OpaqueID.parse (reasonOf findings)
  let affected ← draft.subjectIds.mapM OpaqueID.parse
  if hasked : draft.question ≠ "" ∧ findingIds ≠ [] then
    if hdistinct : findingIds.Nodup ∧ affected.Nodup then .ok {
      taskId := taskId
      run := context.run
      version := 1
      kind := kind
      requiredPermission := kind.permission
      side := draft.side
      resultDigest := if kind = .publication then some (digest.review context.review) else none
      question := draft.question
      evidence := Dict.fromKeys draft.evidence
      findingIds := findingIds
      allowedResponses := [kind.action, .reject]
      reasonCode := some reason
      affectedSubjectIds := affected
      positive := numbered_from_one
      permitted := rfl
      purposeful := by simp
      publication := by by_cases h : kind = .publication <;> simp [h]
      exactSide := sides
      asked := ⟨hasked.1, hasked.2, List.cons_ne_nil _ _⟩
      distinct := ⟨hdistinct.1, by cases kind <;> decide, hdistinct.2⟩ }
    else .error (.valueError "Task findings, subjects and allowed responses must be unique")
  else .error (.valueError "String should have at least 1 character")

/-- `_build_task` -/
def buildTask (taskId : UUID) (kind : TaskKind) (findingIds : List String)
    (subjectId : Option String) : Except Fault HumanTask := do
  let findings := context.review.findings.filter fun finding => finding.id ∈ findingIds
  admitFindings permits context kind findings findingIds
  let drafted ← draft rt subjects digest context kind findings findingIds subjectId
  if drafted.evidence.any fun citation =>
      !context.snapshot.material.policy.registry.resolves citation then
    .error (.service .validation)
  else if sides : kind = .fact → drafted.side.isSome = true then
    draftTask digest context taskId kind findings findingIds drafted sides
  else .error (.valueError "Observation confirmation requires an exact side")

def coveredContexts (covered : List String) : List String :=
  (context.review.findings.filter fun finding => finding.id ∈ covered).filterMap
    fun finding => finding.context.map ComparisonContext.key

/-- An aggregate calculation is recomputed, never confirmed as a side fact. -/
def recomputed (covered : List String) (finding : ReviewFinding) : Bool :=
  finding.kind = "calculation" &&
    finding.context.any fun within => within.key ∈ coveredContexts context covered

def requiredIds (covered : List String) : List String :=
  (context.review.findings.filter fun finding =>
    finding.status ≠ .verified && !recomputed context covered finding).map ReviewFinding.id

def blockerOf (binding : HumanTaskBinding) (task : HumanTask) : Except Fault WorkflowBlocker := do
  let blockerId ← OpaqueID.parse binding.blockerId
  if h : task.affectedSubjectIds ≠ [] ∧ task.affectedSubjectIds.Nodup then .ok {
    blockerId := blockerId
    reasonCode := task.reasonCode.getD ⟨"review-findings", by decide⟩
    affectedSubjectIds := task.affectedSubjectIds
    evidence := task.evidence
    affected := h.1
    uniqueSubjects := h.2 }
  else .error (.valueError "A blocker cannot repeat an affected subject")

def handoffOf (blockers : List WorkflowBlocker) (drafts : List HumanTask) :
    Except Fault HumanReviewHandoff :=
  if h : (blockers.map WorkflowBlocker.blockerId).Nodup then .ok {
    reasonCode := ⟨"review-findings", by decide⟩
    category := .deterministicReviewBlocker
    question := "Review all located findings before authorizing subsequent work."
    revision := context.run.revision
    blockers := blockers
    affectedSubjectIds := Dict.fromKeys (drafts.flatMap HumanTask.affectedSubjectIds)
    evidence := Dict.fromKeys (drafts.flatMap HumanTask.evidence)
    asked := by decide
    uniqueSubjects := Dict.fromKeys_nodup _
    uniqueBlockers := h }
  else .error (.valueError "Handoff blockers must be unique")

/-- `handoff_for_run` with the tasks that it drafts and does not persist; the ids
are drawn in the order of the bindings. -/
def handoffForRun (principal : Principal) (draws : ℕ → UUID) (bindings : List HumanTaskBinding) :
    Except Fault (HumanReviewHandoff × List HumanTask) := do
  let covered := bindings.flatMap HumanTaskBinding.findingIds
  let required := requiredIds context covered
  if ¬ TaskRepository.Principal.mayAsk principal then .error (.service .unauthorized)
  else if required = [] ∨ ¬ sameSet required covered ∨
      ¬ (bindings.map HumanTaskBinding.blockerId).Nodup then .error (.service .capability)
  else do
    let drafts ← bindings.zipIdx.mapM fun (binding, index) =>
      buildTask rt subjects digest permits context (draws index) binding.kind binding.findingIds
        binding.subjectId
    let blockers ← (bindings.zip drafts).mapM fun (binding, task) => blockerOf binding task
    let handoff ← handoffOf context blockers drafts
    return (handoff, drafts)

end
end AppraisalReview.Handoff
