import AppraisalReview.HumanTaskStore
import AppraisalReview.ResultPublication

set_option autoImplicit false

/-!
# Answering a human task

The body proposes and the server decides: actor, corrected value, new revision
and job status are server-authored. Reads come before the one write, and other
parties may act between any two of them.
-/
namespace AppraisalReview.HumanTaskStore
variable {content : ContentDigest}

def sideSubjectId (side : FactSideReference) : String :=
  side.context.key ++ ":" ++ side.factorId ++ ":" ++ side.side.text

def FactSideReference.names (side : FactSideReference) (pair : EvidencedPair) : Bool :=
  pair.context.key = side.context.key && pair.pair.factorId = side.factorId

def locate (material : ReviewMaterial) (side : FactSideReference) : Except Fault EvidencedPair :=
  match material.facts.pairs.filter (FactSideReference.names side) with
  | [pair] => .ok pair
  | _ => .error (.service .conflict)

def replaceLocated (material : ReviewMaterial) (side : FactSideReference) (pair : EvidencedPair) :
    ReviewMaterial :=
  { material with facts := { material.facts with
      pairs := material.facts.pairs.map fun old =>
        if FactSideReference.names side old then pair else old } }

/-- `_public`: the evidence comes from the pair's citations, which carry no local file. -/
def publicValue (observation : FactorObservation) (sources : List SourceCitation) :
    Except Fault PublicValue :=
  if h : observation.confidence.unit = true then .ok {
    state := if observation.value.isSome then .present else .blank
    value := observation.value.map .normalized
    rawText := observation.rawText.getD ""
    unit := observation.value.bind NormalizedValue.unit
    confidence := some observation.confidence
    evidence := sources
    stateValue := by cases observation.value <;> simp
    confidenceUnit := h }
  else .error (.valueError "Input should be less than or equal to 1")

def responseDigest (content : ContentDigest) (command : HumanResponse) : Digest :=
  content.response { command with idempotencyKey := ⟨"canonical-payload", by decide⟩ }

def setObservation (pair : EvidencedPair) (side : Side) (observation : FactorObservation) :
    EvidencedPair :=
  match side with
  | .target => { pair with pair := { pair.pair with target := observation } }
  | .comparable => { pair with pair := { pair.pair with comparable := observation } }

def setSources (pair : EvidencedPair) (side : Side) (sources : List SourceCitation) :
    EvidencedPair :=
  match side with
  | .target => { pair with targetSources := sources }
  | .comparable => { pair with comparableSources := sources }

/-- A proposed present value is normalized and keeps the stored type and unit. -/
def admitProposed (observation : FactorObservation) (proposed : PublicValue) :
    Except Fault (Option NormalizedValue) :=
  match proposed.state, proposed.value with
  | .present, some (.normalized value) =>
    match observation.value with
    | none => .error (.service .validation)
    | some stored =>
      if value.type ≠ stored.type then .error (.service .validation)
      else if value.type = .number ∧ (stored.unit = none ∨ value.unit ≠ stored.unit ∨
          proposed.unit ≠ stored.unit) then .error (.service .validation)
      else .ok (some value)
  | .present, _ => .error (.service .validation)
  | _, _ => .ok none

def correctObservation (observation : FactorObservation) (proposed : PublicValue)
    (value : Option NormalizedValue) : FactorObservation :=
  { observation with
    value := value
    rawText := if proposed.rawText = "" then none else some proposed.rawText
    confidence := observation.confidence.least
      [proposed.confidence.getD observation.confidence] }

def suppliedReference (registry : SourceRegistry) (confidence : Binary64)
    (citation : SourceCitation) : Except Fault EvidenceRef :=
  match registry.documents.find? fun document => document.documentId = citation.documentId with
  -- A citation that resolves names a document of the registry.
  | none => .error .keyError
  | some document =>
    if h : 1 ≤ citation.page ∧ confidence.unit = true then .ok {
      documentId := citation.documentId
      sourceFile := some document.uri
      page := citation.page
      confidence := confidence
      boundingBox := some citation.bbox
      coordinateSystem := some .pdfBottomLeft
      firstPage := h.1
      confidenceUnit := h.2 }
    else .error (.valueError "Invalid evidence reference")

/-- Evidence is selected from the pinned registry; it authorizes no new source. -/
def supplyEvidence (registry : SourceRegistry) (pair : EvidencedPair) (side : Side)
    (observation : FactorObservation) (evidence : List SourceCitation) :
    Except Fault EvidencedPair :=
  if evidence = [] ∨ evidence.any (fun citation => !registry.resolves citation) then
    .error (.service .validation)
  else match evidence.mapM (suppliedReference registry observation.confidence) with
  | .error fault => .error fault
  | .ok references => .ok (setObservation (setSources pair side evidence) side
      { observation with evidence := references })

section
variable (rt : Runtime) (ctx : DecimalContext)

/-- `_confirm` captures rather than revises: `revise` clears every confirmation. -/
def confirm (snapshot : RevisionSnapshot content) (pair : EvidencedPair)
    (reference : FactSideReference) (accepted : AcceptedResponse) (revisionId : String) :
    Except Fault (RevisionSnapshot content) :=
  match confirmSide rt pair reference.side accepted.actor.actorId with
  | .error _ => .error (.service .conflict)
  | .ok confirmed => RevisionSnapshot.capture rt ctx content
      ((replaceLocated snapshot.material reference confirmed).withVersion revisionId) revisionId
      (some snapshot.revision.reference) []

/-- `_correct`: replace one observed value, keeping its stored evidence. -/
def correct (snapshot : RevisionSnapshot content) (pair : EvidencedPair)
    (reference : FactSideReference) (accepted : AcceptedResponse) (revisionId : String) :
    Except Fault (RevisionSnapshot content) :=
  match accepted.command.correction with
  | none => .error (.service .validation)
  | some correction =>
    match correction.proposed with
    | none => .error (.service .validation)
    | some proposed =>
      if correction.subjectId ≠ sideSubjectId reference then .error (.service .validation)
      else do
        let side := reference.side
        let observation := pair.pair.observation side
        let value ← admitProposed observation proposed
        let original ← publicValue observation (pair.sources side)
        let observation := correctObservation observation proposed value
        let edited ←
          if accepted.command.action = .supplyEvidence then
            supplyEvidence snapshot.material.policy.registry pair side observation
              proposed.evidence
          else .ok (setObservation pair side observation)
        let corrected ← publicValue (edited.pair.observation side) (edited.sources side)
        snapshot.revise rt ctx content (replaceLocated snapshot.material reference edited)
          revisionId [{
            subjectId := correction.subjectId
            original := original
            proposed := some proposed
            corrected := some corrected
            correctedBy := some { actorId := accepted.actor.actorId, kind := .human }
            named := correction.named
            correctionActor := rfl
            humanActor := rfl }]

/-- `MATERIAL_KINDS`: rule, material and publication approval have another authority. -/
def TaskKind.changesMaterial : TaskKind → Bool
  | .fact | .correction | .evidence => true
  | _ => false

/-- Derive the revision this answer commits, without storing or approving it. -/
def nextRevision (s : Store content) (record : TaskRecord) (accepted : AcceptedResponse)
    (revisionId : String) : Except Fault (Option (RevisionSnapshot content)) :=
  if accepted.command.action = .reject then .ok none
  else if ¬ TaskKind.changesMaterial record.task.kind then .error (.service .capability)
  else match readSnapshot s record.currentRevision with
  | none => .error (.service .execution)
  | some snapshot =>
    match record.task.side with
    | none => .error (.service .conflict)
    | some reference =>
      match locate snapshot.material reference with
      | .error fault => .error fault
      | .ok pair =>
        if record.task.kind = .fact then
          (confirm rt ctx snapshot pair reference accepted revisionId).map some
        else (correct rt ctx snapshot pair reference accepted revisionId).map some

end

/-- `_authorized_job` -/
def authorizedJob (s : Store content) (principal : Principal) (jobId : UUID) :
    Except Fault JobRecord :=
  MemoryJobStore.authorizedRecord s.jobs principal jobId

def visible (principal : Principal) (record : TaskRecord) : Bool :=
  record.principalId = principal.actor.actorId && record.caseId.text ∈ principal.caseIds

/-- The stores that the successive reads of one response see. -/
structure Reads (content : ContentDigest) where
  task : Store content
  job : Store content
  receipt : Store content
  snapshot : Store content

/-- `_authorized` -/
def authorized (reads : Reads content) (principal : Principal) (taskId : UUID) :
    Except Fault TaskRecord :=
  match readTask reads.task taskId with
  | .error fault => .error fault
  | .ok none => .error (.service .notFound)
  | .ok (some record) =>
    if ¬ visible principal record then .error (.service .notFound)
    else match authorizedJob reads.job principal record.jobId with
    | .error fault => .error fault
    | .ok _ => .ok record

section
variable (rt : Runtime) (ctx : DecimalContext) (policy : JobPolicy)

/-- `respond` up to the write: an earlier receipt, or what it asks the store to commit. -/
def prepare (reads : Reads content) (principal : Principal) (taskId : UUID)
    (command : HumanResponse) (revisionId : String) :
    Except Fault (ResponseReceipt ⊕ (AcceptedResponse × Option (RevisionSnapshot content))) :=
  if command.taskId ≠ taskId then .error (.service .notFound)
  else match authorized reads principal taskId with
  | .error fault => .error fault
  | .ok record =>
    -- Replay before admission: the first use already moved the task off this version.
    match readReceipt reads.receipt principal.actor.actorId command.idempotencyKey.text with
    | some stored =>
      if stored.payloadDigest ≠ responseDigest content command then .error (.service .conflict)
      else .ok (.inl stored.receipt)
    | none =>
      match admitResponse record.task command principal record.currentRevision with
      | .error fault => .error fault
      | .ok accepted =>
        (nextRevision rt ctx reads.snapshot record accepted revisionId).map
          fun next => .inr (accepted, next)

/-- Admit one response and commit its whole effect, or commit nothing at all. -/
def respond (reads : Reads content) (principal : Principal) (taskId : UUID)
    (command : HumanResponse) (revisionId : String) (now : Int) (runId token : UUID)
    (s : Store content) : Outcome content ResponseReceipt :=
  match prepare rt ctx reads principal taskId command revisionId with
  | .error fault => (.error fault, s)
  | .ok (.inl receipt) => (.ok receipt, s)
  | .ok (.inr (accepted, next)) =>
    match commitResponse policy accepted next (responseDigest content command) now runId token s with
    -- Another reviewer answered first, or the revision moved. Not a retry signal.
    | (.error (.conditionFailed _), s) => (.error (.service .conflict), s)
    | outcome => outcome

end
end AppraisalReview.HumanTaskStore
