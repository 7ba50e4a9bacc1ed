import AppraisalReview.ArtifactPublication
import AppraisalReview.Interleaving
import AppraisalReview.SQLiteReviewStore

set_option autoImplicit false

/-!
# Publication in the review store's own database

A call is a program of transactions, with the source authority asked between
them. Every transaction is atomic and a raise undoes it; between two of them
any other call, of the job store too, may have run. What the clock shows at
each look and what the authority answers come from outside.
-/
namespace AppraisalReview.Publication
open Interleaving ArtifactPublication
open MemoryJobStore (Store Job Run Attempt)
open CanonicalJson (Json dumps)

abbrev Bytes := List UInt8

inductive Refusal where
  | publication (code : PublicationCode)
  /-- Of the principal's own check, or of the job store. -/
  | fault (fault : Fault)
deriving DecidableEq

structure AccessRow where
  actor : ActorReference
  permissions : List Permission
  expiresAt : Int
  active : Bool

structure GrantRow where
  digest : Digest
  candidate : ManifestCandidate
  pin : Digest
  epoch : ℕ
  expiresAt : Int
  active : Bool

structure ManifestRow where
  actorId : String
  fencingToken : ℕ
  digest : Digest
  payload : CommittedManifest
deriving DecidableEq

structure ObjectRow where
  version : Digest
  digest : Digest
  size : ℕ
  body : Bytes
deriving DecidableEq

structure Database where
  review : Store := {}
  candidates : List SQLiteReviewStore.Candidate := []
  epochs : OpaqueID → ℕ := fun _ => 0
  access : OpaqueID × String → Option AccessRow := fun _ => none
  grants : OpaqueID × UUID × String → Option GrantRow := fun _ => none
  manifests : Dict (OpaqueID × UUID) ManifestRow := .empty
  objects : String → Option ObjectRow := fun _ => none

structure PublicationAttempt where
  jobId : UUID
  owner : UUID
  expectedResultVersion : ℕ

/-- Digests, and whether the PDF reader accepts bytes as this artifact. -/
structure Platform where
  textDigest : String → Digest
  bodyDigest : Bytes → Digest
  digest : ManifestCandidate → Digest
  opens : Bytes → PublishedArtifact → Bool
  policy : JobPolicy

structure Configuration where
  trustedSyntheticApproval : Bool := false
  approvalTtlSeconds : ℕ := 900
  maxBytes : ℕ := 67108864

/-- What the outside adds to one operation. -/
structure Weather where
  /-- What the clock shows at each look of the transaction. -/
  clock : ℕ → Int
  /-- The authority returned nothing and raised nothing. -/
  authorized : Bool := true

def refuse {α : Type} (code : PublicationCode) : Except Refusal α := .error (.publication code)

def refuseIf (condition : Prop) [Decidable condition] (code : PublicationCode) :
    Except Refusal Unit :=
  if condition then refuse code else .ok ()

def orRefuse {α : Type} (code : PublicationCode) : Option α → Except Refusal α
  | some a => .ok a
  | none => refuse code

structure Pinned where
  job : Job
  run : Run
  attempt : Option Attempt
  digest : Digest
  epoch : ℕ
  results : List ResultReference

def sourcesOf (documents : List DocumentReference) : List SourceVersion :=
  documents.map fun document => ⟨document.documentId, document.version, document.contentHash⟩

def Cites (sources : List SourceVersion) (artifact : PublishedArtifact) : Prop :=
  artifact.sourceVersions.length = sources.length ∧
    artifact.sourceVersions ⊆ sources ∧ sources ⊆ artifact.sourceVersions

instance (sources : List SourceVersion) (artifact : PublishedArtifact) :
    Decidable (Cites sources artifact) := by
  unfold Cites
  infer_instance

def pinText (job : Job) (run : Run) : String :=
  dumps (.object [("current_run_id", .string (uuidText job.currentRunId)),
    ("documents", .array (run.documents.map DocumentReference.json)),
    ("job_id", .string (uuidText job.jobId)),
    ("payload_digest", .string run.payloadDigest.text),
    ("principal_id", .string job.principalId),
    ("revision", run.revision.json)])

/-- The job is stored under its own identity, for this case, with this run as its current one. -/
def Names (candidate : ManifestCandidate) (jobId : UUID) (job : Job) (run : Run) : Prop :=
  job.jobId = jobId ∧ job.caseId = candidate.caseId ∧ job.currentRunId = candidate.run.runId ∧
    run.revision = candidate.run.revision

instance (candidate : ManifestCandidate) (jobId : UUID) (job : Job) (run : Run) :
    Decidable (Names candidate jobId job run) := by
  unfold Names
  infer_instance

/-- Every artifact cites exactly the documents of the run, all of the candidate's case. -/
def Evidenced (candidate : ManifestCandidate) (run : Run) : Prop :=
  sourcesOf run.documents ≠ [] ∧ (sourcesOf run.documents).Nodup ∧
    (∀ document ∈ run.documents, document.caseId = candidate.caseId) ∧
    ∀ artifact ∈ candidate.artifacts, Cites (sourcesOf run.documents) artifact

instance (candidate : ManifestCandidate) (run : Run) : Decidable (Evidenced candidate run) := by
  unfold Evidenced
  infer_instance

def attemptsOf (s : Store) (jobId : UUID) (candidate : ManifestCandidate) : List Attempt :=
  s.attempts.filter fun attempt => attempt.jobId = jobId ∧
    attempt.runId = candidate.run.runId ∧ some attempt.attemptId = candidate.run.attemptId

section
variable (platform : Platform)

def pin (db : Database) (candidate : ManifestCandidate) : Except Refusal Pinned :=
  match db.review.runs.items.filter fun row => row.2.runId = candidate.run.runId with
  | [((jobId, _), run)] => do
    let job ← orRefuse .stalePublication (db.review.jobs.get? jobId)
    refuseIf (¬ Names candidate jobId job run) .stalePublication
    refuseIf (¬ Evidenced candidate run) .artifactEvidenceMissing
    refuseIf (1 < (attemptsOf db.review jobId candidate).length) .stalePublication
    pure {
      job := job, run := run
      attempt := (attemptsOf db.review jobId candidate).head?
      digest := platform.textDigest (pinText job run)
      epoch := db.epochs candidate.caseId
      results := db.review.results.values.filter fun r => r.runId = candidate.run.runId }
  | _ => refuse .stalePublication

def samePin (before current : Pinned) : Prop :=
  (before.digest, before.epoch) = (current.digest, current.epoch)

instance (before current : Pinned) : Decidable (samePin before current) := by
  unfold samePin
  infer_instance

def owner (principal : Principal) (pinned : Pinned) : Except Refusal Unit :=
  refuseIf (principal.actor.kind = .model ∨ principal.actor.actorId ≠ pinned.job.principalId)
    .publicationUnauthorized

structure Live (clock : Int) (pinned : Pinned) (candidate : ManifestCandidate)
    (attempt : PublicationAttempt) (token : ℕ) : Prop where
  positive : 1 ≤ token
  job : pinned.job.jobId = attempt.jobId
  running : pinned.job.status = .running
  uncancelled : pinned.job.cancelRequested = false
  answered : pinned.job.openTaskIds = []
  runRunning : pinned.run.runStatus = .running
  claimed : pinned.run.attemptId = candidate.run.attemptId
  leased : pinned.run.leaseOwner = some attempt.owner
  unexpired : ∃ deadline ∈ pinned.run.leaseExpiresAt, clock < deadline
  fenced : pinned.run.fencingToken = token
  version : pinned.run.resultVersion = attempt.expectedResultVersion
  next : candidate.resultVersion = attempt.expectedResultVersion + 1
  stored : ∃ stored ∈ pinned.attempt, stored.owner = attempt.owner ∧
    stored.fencingToken = token ∧ stored.outcome = .running

instance (clock : Int) (pinned : Pinned) (candidate : ManifestCandidate)
    (attempt : PublicationAttempt) (token : ℕ) :
    Decidable (Live clock pinned candidate attempt token) :=
  decidable_of_iff
    (1 ≤ token ∧ pinned.job.jobId = attempt.jobId ∧ pinned.job.status = .running ∧
      pinned.job.cancelRequested = false ∧ pinned.job.openTaskIds = [] ∧
      pinned.run.runStatus = .running ∧ pinned.run.attemptId = candidate.run.attemptId ∧
      pinned.run.leaseOwner = some attempt.owner ∧
      (∃ deadline ∈ pinned.run.leaseExpiresAt, clock < deadline) ∧
      pinned.run.fencingToken = token ∧
      pinned.run.resultVersion = attempt.expectedResultVersion ∧
      candidate.resultVersion = attempt.expectedResultVersion + 1 ∧
      ∃ stored ∈ pinned.attempt, stored.owner = attempt.owner ∧ stored.fencingToken = token ∧
        stored.outcome = .running)
    ⟨fun ⟨a, b, c, d, e, f, g, h, i, j, k, l, m⟩ => ⟨a, b, c, d, e, f, g, h, i, j, k, l, m⟩,
      fun ⟨a, b, c, d, e, f, g, h, i, j, k, l, m⟩ => ⟨a, b, c, d, e, f, g, h, i, j, k, l, m⟩⟩

def live (clock : Int) (pinned : Pinned) (candidate : ManifestCandidate)
    (attempt : PublicationAttempt) (token : ℕ) : Except Refusal Unit :=
  refuseIf (¬ Live clock pinned candidate attempt token) .stalePublication

def References (pinned : Pinned) (result : CommittedManifest) : Prop :=
  match pinned.results.filter fun r => r.resultVersion = result.candidate.resultVersion with
  | [reference] => reference.fencingToken = result.fencingToken ∧
      reference.executionStatus = .succeeded ∧
      ∀ artifact ∈ result.candidate.artifacts, artifact.artifactId ∈ reference.artifactIds
  | _ => False

instance (pinned : Pinned) (result : CommittedManifest) :
    Decidable (References pinned result) := by
  unfold References
  split <;> infer_instance

def Succeeded (pinned : Pinned) (result : CommittedManifest) : Prop :=
  pinned.job.status = .succeeded ∧ pinned.job.cancelRequested = false ∧
    pinned.run.runStatus = .succeeded ∧ pinned.job.openTaskIds = [] ∧
    pinned.run.resultVersion = result.candidate.resultVersion ∧
    pinned.run.fencingToken = result.fencingToken ∧
    (∃ stored ∈ pinned.attempt, stored.outcome = .closed .publishResult ∧
      stored.fencingToken = result.fencingToken) ∧
    References pinned result

instance (pinned : Pinned) (result : CommittedManifest) : Decidable (Succeeded pinned result) := by
  unfold Succeeded
  infer_instance

def readable (clock : Int) (pinned : Pinned) (result : CommittedManifest) :
    Except Refusal Unit :=
  if pinned.job.status = .running then do
    let leaseOwner ← orRefuse .stalePublication pinned.run.leaseOwner
    live clock pinned result.candidate {
      jobId := pinned.job.jobId, owner := leaseOwner
      expectedResultVersion := result.candidate.resultVersion - 1 } result.fencingToken
  else refuseIf (¬ Succeeded pinned result) .stalePublication

def require (principal : Principal) (caseId : OpaqueID) (permission : Permission) :
    Except Refusal Unit :=
  (principal.require caseId permission).mapError .fault

def access (clock : Int) (db : Database) (principal : Principal) (caseId : OpaqueID)
    (permission : Permission) : Except Refusal Int := do
  require principal caseId permission
  refuseIf (principal.actor.kind = .model) .publicationUnauthorized
  let row ← orRefuse .publicationUnauthorized (db.access (caseId, principal.actor.actorId))
  refuseIf (row.active ≠ true ∨ row.expiresAt ≤ clock ∨ permission ∉ row.permissions)
    .publicationUnauthorized
  pure row.expiresAt

def grant (clock : Int) (db : Database) (candidate : ManifestCandidate) (principal : Principal)
    (pinned : Pinned) : Except Refusal Int := do
  let row ← orRefuse .publicationUnauthorized
    (db.grants (candidate.caseId, candidate.run.runId, principal.actor.actorId))
  refuseIf ((row.digest, row.pin, row.epoch) ≠
      (platform.digest candidate, pinned.digest, pinned.epoch) ∨
    row.expiresAt ≤ clock ∨ row.active ≠ true) .publicationUnauthorized
  pure row.expiresAt

def ManifestRow.Bound (row : ManifestRow) : Prop :=
  row.payload.boundDigest platform.digest ∧
    (row.payload.fencingToken, row.payload.manifestDigest) = (row.fencingToken, row.digest)

instance (row : ManifestRow) : Decidable (row.Bound platform) := by
  unfold ManifestRow.Bound
  infer_instance

def manifest : Option ManifestRow → Except Refusal (Option CommittedManifest)
  | none => .ok none
  | some row => do
    refuseIf (¬ row.Bound platform) .manifestCorrupt
    pure (some row.payload)

def checkCandidate (candidate : ManifestCandidate) : Except Refusal Unit := do
  refuseIf (candidate.reviewStatus ≠ .completed) .reviewNotPublishable
  refuseIf (∃ artifact ∈ candidate.artifacts, artifact.fontHash = none ∨
    artifact.objectVersion = none ∨ artifact.objectVersion = some "null" ∨
    artifact.sourceVersions = []) .artifactEvidenceMissing

def Database.caseRuns (db : Database) (principal : Principal) (caseId : OpaqueID) : List UUID :=
  (db.review.jobs.values.filter fun job =>
    job.caseId = caseId ∧ job.principalId = principal.actor.actorId).map Job.currentRunId

def Database.manifestsOf (db : Database) (principal : Principal) (caseId : OpaqueID) :
    List ManifestRow :=
  (db.manifests.items.filter fun row =>
    row.1.1 = caseId ∧ row.2.actorId = principal.actor.actorId).map Prod.snd

/-- The actor's published manifests of current runs, each pinned under its grant. -/
def snapshotEach (clock : ℕ → Int) (db : Database) (principal : Principal) (runs : List UUID) :
    ℕ → List ManifestRow → Except Refusal (List (ManifestCandidate × Pinned))
  | _, [] => .ok []
  | k, row :: rows => do
    match ← manifest platform (some row) with
    | none => snapshotEach clock db principal runs k rows
    | some found =>
      if found.candidate.run.runId ∉ runs then snapshotEach clock db principal runs k rows
      else do
        let pinned ← pin platform db found.candidate
        owner principal pinned
        let _ ← grant platform (clock k) db found.candidate principal pinned
        let rest ← snapshotEach clock db principal runs (k + 1) rows
        pure ((found.candidate, pinned) :: rest)

/-- The first transaction of `authorize`. -/
def authorizing (clock : ℕ → Int) (db : Database) (principal : Principal) (caseId : OpaqueID)
    (permission : Permission) : Except Refusal (Int × List (ManifestCandidate × Pinned)) := do
  let expires ← access (clock 0) db principal caseId permission
  if permission = .review then do
    let snapshots ← snapshotEach platform clock db principal (db.caseRuns principal caseId) 1
      (db.manifestsOf principal caseId)
    pure (expires, snapshots)
  else pure (expires, [])

def reauthorizeEach (clock : ℕ → Int) (db : Database) (principal : Principal) :
    ℕ → Int → List (ManifestCandidate × Pinned) → Except Refusal Int
  | _, expires, [] => .ok expires
  | k, expires, (candidate, before) :: rest => do
    let current ← pin platform db candidate
    refuseIf (¬ samePin before current) .stalePublication
    owner principal current
    let granted ← grant platform (clock k) db candidate principal current
    reauthorizeEach clock db principal (k + 1) (min expires granted) rest

/-- The second transaction of `authorize`, after the sources were asked for. -/
def reauthorizing (clock : ℕ → Int) (db : Database) (principal : Principal) (caseId : OpaqueID)
    (permission : Permission) (snapshots : List (ManifestCandidate × Pinned)) :
    Except Refusal Int := do
  let expires ← access (clock 0) db principal caseId permission
  reauthorizeEach platform clock db principal 1 expires snapshots

def unsuperseded (existing : Option CommittedManifest) (candidate : ManifestCandidate)
    (token : ℕ) : Except Refusal Unit := do
  refuseIf (∃ found ∈ existing, token < found.fencingToken) .stalePublication
  refuseIf (∃ found ∈ existing, found.fencingToken = token ∧ found.candidate ≠ candidate)
    .manifestConflict

def Database.published (db : Database) (candidate : ManifestCandidate) : Option ManifestRow :=
  db.manifests.get? (candidate.caseId, candidate.run.runId)

def Database.approved (db : Database) (candidate : ManifestCandidate) (principal : Principal)
    (pinned : Pinned) (expires : Int) : Database :=
  { db with
    access := Function.update db.access (candidate.caseId, principal.actor.actorId) (some {
      actor := principal.actor, permissions := principal.permissions, expiresAt := expires
      active := true })
    grants := Function.update db.grants
      (candidate.caseId, candidate.run.runId, principal.actor.actorId) (some {
        digest := platform.digest candidate, candidate := candidate, pin := pinned.digest
        epoch := pinned.epoch, expiresAt := expires, active := true }) }

/-- The transaction of `approve_exact`. -/
def approving (clock : ℕ → Int) (ttl : ℕ) (db : Database) (candidate : ManifestCandidate)
    (principal : Principal) (before : Pinned) : Except Refusal (Digest × Database) := do
  let current ← pin platform db candidate
  refuseIf (¬ samePin before current) .stalePublication
  owner principal current
  let leaseOwner ← orRefuse .stalePublication current.run.leaseOwner
  live (clock 0) current candidate {
    jobId := current.job.jobId, owner := leaseOwner
    expectedResultVersion := current.run.resultVersion } current.run.fencingToken
  let existing ← manifest platform (db.published candidate)
  unsuperseded existing candidate current.run.fencingToken
  pure (platform.digest candidate,
    db.approved platform candidate principal current (clock 1 + ttl))

def Database.revoked (db : Database) (caseId : OpaqueID) : Database :=
  { db with
    epochs := Function.update db.epochs caseId (db.epochs caseId + 1)
    grants := fun key =>
      if key.1 = caseId then (db.grants key).map fun row => { row with active := false }
      else db.grants key
    access := fun key =>
      if key.1 = caseId then (db.access key).map fun row => { row with active := false }
      else db.access key }

def committedManifest (candidate : ManifestCandidate) (token : ℕ) : CommittedManifest where
  candidate := candidate
  fencingToken := token
  manifestDigest := platform.digest candidate

def Database.committed (db : Database) (principal : Principal) (result : CommittedManifest) :
    Database :=
  { db with
    manifests := db.manifests.set (result.candidate.caseId, result.candidate.run.runId) {
      actorId := principal.actor.actorId, fencingToken := result.fencingToken
      digest := result.manifestDigest, payload := result } }

/-- The transaction of `commit`. -/
def committing (clock : ℕ → Int) (db : Database) (candidate : ManifestCandidate) (token : ℕ)
    (principal : Principal) (attempt : PublicationAttempt) (before : Pinned) :
    Except Refusal (CommittedManifest × Database) := do
  let current ← pin platform db candidate
  refuseIf (¬ samePin before current) .stalePublication
  owner principal current
  live (clock 0) current candidate attempt token
  let _ ← access (clock 1) db principal candidate.caseId .publish
  let existing ← manifest platform (db.published candidate)
  unsuperseded existing candidate token
  let _ ← grant platform (clock 2) db candidate principal current
  match existing with
  | some found =>
    if found.fencingToken = token then pure (found, db)
    else
      let result := committedManifest platform candidate token
      pure (result, db.committed principal result)
  | none =>
    let result := committedManifest platform candidate token
    pure (result, db.committed principal result)

def publisher (caseId : OpaqueID) (row : AccessRow) : Principal where
  actor := row.actor
  caseIds := [caseId.text]
  permissions := row.permissions

/-- The first transaction of `read`. -/
def reading (clock : ℕ → Int) (db : Database) (caseId : OpaqueID) (runId : UUID) :
    Except Refusal (Option (CommittedManifest × Principal × Pinned)) := do
  let stored := db.manifests.get? (caseId, runId)
  match stored, ← manifest platform stored with
  | some row, some result => do
    refuseIf (result.candidate.run.runId ≠ runId ∨ result.candidate.caseId ≠ caseId)
      .manifestCorrupt
    let allowed ← orRefuse .publicationUnauthorized (db.access (caseId, row.actorId))
    let pinned ← pin platform db result.candidate
    let _ ← grant platform (clock 0) db result.candidate (publisher caseId allowed) pinned
    readable (clock 1) pinned result
    pure (some (result, publisher caseId allowed, pinned))
  | _, _ => pure none

/-- The second transaction of `read`. -/
def rereading (clock : ℕ → Int) (db : Database) (caseId : OpaqueID) (runId : UUID)
    (result : CommittedManifest) (principal : Principal) (before : Pinned) :
    Except Refusal CommittedManifest := do
  let current ← pin platform db result.candidate
  refuseIf (¬ samePin before current) .stalePublication
  owner principal current
  let _ ← access (clock 0) db principal caseId .review
  let _ ← grant platform (clock 1) db result.candidate principal current
  readable (clock 2) current result
  let latest ← manifest platform (db.manifests.get? (caseId, runId))
  refuseIf (latest ≠ some result) .stalePublication
  pure result

def objectVersion (key : ArtifactKey) (data : Bytes) : Digest :=
  platform.bodyDigest (key.key.toUTF8.toList ++ 0 :: data)

/-- `create`: a replay compares bytes and never replaces them. -/
def creating (db : Database) (key : ArtifactKey) (data : Bytes) (maxBytes : ℕ) :
    Except Refusal (Digest × Database) := do
  refuseIf (data.length = 0 ∨ maxBytes < data.length) .artifactMismatch
  let row : ObjectRow := {
    version := objectVersion platform key data, digest := platform.bodyDigest data
    size := data.length, body := data }
  match db.objects key.key with
  | none => pure (row.version, { db with objects := Function.update db.objects key.key (some row) })
  | some stored => do
    refuseIf (stored ≠ row) .artifactMismatch
    pure (row.version, db)

/-- `read` of an object. -/
def fetching (db : Database) (artifact : PublishedArtifact) (maxBytes : ℕ) :
    Except Refusal Bytes := do
  refuseIf (maxBytes < artifact.sizeBytes) .artifactMismatch
  let row ← orRefuse .artifactMismatch
    ((db.objects artifact.key.key).filter fun row => row.body.length ≤ maxBytes)
  refuseIf (row.body.length ≠ row.size ∨ row.size ≠ artifact.sizeBytes ∨
    some row.version.text ≠ artifact.objectVersion ∨ row.digest ≠ artifact.contentHash ∨
    platform.bodyDigest row.body ≠ row.digest ∨
    objectVersion platform artifact.key row.body ≠ row.version) .artifactMismatch
  pure row.body

/-- `_verify` -/
def verify (data : Bytes) (artifact : PublishedArtifact) : Except Refusal Unit :=
  refuseIf (data.length ≠ artifact.sizeBytes ∨ platform.bodyDigest data ≠ artifact.contentHash ∨
    platform.opens data artifact ≠ true) .artifactMismatch

end

inductive Op where
  | job (op : SQLiteReviewStore.Op)
  | before (candidate : ManifestCandidate)
  | sources (principal : Principal) (run : RunReference) (versions : List SourceVersion)
  | authorize (principal : Principal) (caseId : OpaqueID) (permission : Permission)
  | reauthorize (principal : Principal) (caseId : OpaqueID) (permission : Permission)
      (snapshots : List (ManifestCandidate × Pinned))
  | approve (ttl : ℕ) (candidate : ManifestCandidate) (principal : Principal) (before : Pinned)
  | revoke (caseId : OpaqueID)
  | commit (candidate : ManifestCandidate) (token : ℕ) (principal : Principal)
      (attempt : PublicationAttempt) (before : Pinned)
  | read (caseId : OpaqueID) (runId : UUID)
  | reread (caseId : OpaqueID) (runId : UUID) (result : CommittedManifest)
      (principal : Principal) (before : Pinned)
  | create (key : ArtifactKey) (data : Bytes) (maxBytes : ℕ)
  | fetch (artifact : PublishedArtifact) (maxBytes : ℕ)

@[reducible] def Answer : Op → Type
  | .job _ => SQLiteReviewStore.Reply
  | .before _ => Pinned
  | .sources .. | .revoke _ => Unit
  | .authorize .. => Int × List (ManifestCandidate × Pinned)
  | .reauthorize .. => Int
  | .approve .. | .create .. => Digest
  | .commit .. | .reread .. => CommittedManifest
  | .read .. => Option (CommittedManifest × Principal × Pinned)
  | .fetch .. => Bytes

@[reducible] def Reply (op : Op) : Type := Except Refusal (Answer op)

def within {α : Type} (db : Database) (body : Except Refusal (α × Database)) :
    Except Refusal α × Database :=
  match body with
  | .ok (a, db') => (.ok a, db')
  | .error refusal => (.error refusal, db)

section
variable (platform : Platform)

def serve (weather : Weather) : (op : Op) → Database → Reply op × Database
  | .job op, db =>
    let outcome := SQLiteReviewStore.step platform.textDigest platform.policy (weather.clock 0)
      { store := db.review, candidates := db.candidates } op
    (outcome.1.mapError .fault,
      { db with review := outcome.2.store, candidates := outcome.2.candidates })
  | .before candidate, db => (pin platform db candidate, db)
  | .sources .., db =>
    (refuseIf (weather.authorized ≠ true) .publicationUnauthorized, db)
  | .authorize principal caseId permission, db =>
    (authorizing platform weather.clock db principal caseId permission, db)
  | .reauthorize principal caseId permission snapshots, db =>
    (reauthorizing platform weather.clock db principal caseId permission snapshots, db)
  | .approve ttl candidate principal before, db =>
    within db (approving platform weather.clock ttl db candidate principal before)
  | .revoke caseId, db => (.ok (), db.revoked caseId)
  | .commit candidate token principal attempt before, db =>
    within db (committing platform weather.clock db candidate token principal attempt before)
  | .read caseId runId, db => (reading platform weather.clock db caseId runId, db)
  | .reread caseId runId result principal before, db =>
    (rereading platform weather.clock db caseId runId result principal before, db)
  | .create key data maxBytes, db => within db (creating platform db key data maxBytes)
  | .fetch artifact maxBytes, db => (fetching platform db artifact maxBytes, db)

end

abbrev Call := Program Op Reply Refusal

def ask (op : Op) : Call (Answer op) := do
  let reply ← Program.ask op
  Program.ofExcept reply

def sources (principal : Principal) (candidate : ManifestCandidate) : Call Unit :=
  ask (.sources principal candidate.run candidate.firstSources)

def sourcesEach (principal : Principal) : List (ManifestCandidate × Pinned) → Call Unit
  | [] => pure ()
  | (candidate, _) :: rest => do
    sources principal candidate
    sourcesEach principal rest

def authorize (principal : Principal) (caseId : OpaqueID) (permission : Permission) :
    Call Int := do
  let (expires, snapshots) ← ask (.authorize principal caseId permission)
  sourcesEach principal snapshots
  match snapshots with
  | [] => pure expires
  | _ :: _ => ask (.reauthorize principal caseId permission snapshots)

def revoke (caseId : OpaqueID) : Call Unit := ask (.revoke caseId)

def read (caseId : OpaqueID) (runId : UUID) : Call (Option CommittedManifest) := do
  match ← ask (.read caseId runId) with
  | none => pure none
  | some (result, principal, before) => do
    let result ← ask (.reread caseId runId result principal before)
    pure (some result)

section
variable (platform : Platform) (configuration : Configuration)

def approveExact (candidate : ManifestCandidate) (principal : Principal) : Call Digest := do
  Program.ofExcept (refuseIf (configuration.trustedSyntheticApproval ≠ true) .approvalDisabled)
  Program.ofExcept (checkCandidate candidate)
  Program.ofExcept (require principal candidate.caseId .publish)
  let before ← ask (.before candidate)
  Program.ofExcept (refuseIf (before.epoch ≠ 0) .publicationUnauthorized)
  Program.ofExcept (owner principal before)
  sources principal candidate
  ask (.approve configuration.approvalTtlSeconds candidate principal before)

def commit (candidate : ManifestCandidate) (token : ℕ) (principal : Principal)
    (attempt : PublicationAttempt) : Call CommittedManifest := do
  Program.ofExcept (checkCandidate candidate)
  let _ ← authorize principal candidate.caseId .publish
  let before ← ask (.before candidate)
  Program.ofExcept (owner principal before)
  sources principal candidate
  ask (.commit candidate token principal attempt before)

def fetchVerified (artifact : PublishedArtifact) : Call Bytes := do
  let data ← ask (.fetch artifact configuration.maxBytes)
  Program.ofExcept (verify platform data artifact)
  pure data

def verifyEach : List PublishedArtifact → Call Unit
  | [] => pure ()
  | artifact :: rest => do
    Program.ofExcept (refuseIf (artifact.sourceVersions = [] ∨ artifact.fontHash = none)
      .artifactEvidenceMissing)
    Program.ofExcept (refuseIf (artifact.objectVersion = none ∨
      artifact.objectVersion = some "null") .artifactVersionMissing)
    let _ ← fetchVerified platform configuration artifact
    verifyEach rest

/-- `AttemptArtifactPublisher.publish` -/
def publish (candidate : ManifestCandidate) (token : ℕ) (principal : Principal)
    (attempt : PublicationAttempt) : Call CommittedManifest := do
  let _ ← authorize principal candidate.caseId .publish
  Program.ofExcept (refuseIf (candidate.reviewStatus ≠ .completed) .reviewNotPublishable)
  verifyEach platform configuration candidate.artifacts
  commit candidate token principal attempt

/-- `CommittedResultResolver.result` -/
def result (principal : Principal) (caseId : OpaqueID) (runId : UUID) :
    Call (Option CommittedManifest) := do
  let _ ← authorize principal caseId .review
  let found ← read caseId runId
  let _ ← authorize principal caseId .review
  pure found

/-- `CommittedResultResolver.verified_bytes` -/
def verifiedBytes (principal : Principal) (caseId : OpaqueID) (runId artifactId : UUID) :
    Call (PublishedArtifact × Bytes) := do
  let found ← result principal caseId runId
  match found.bind fun m => m.candidate.artifacts.find? fun a => a.artifactId = artifactId with
  | none => Program.raise (.publication .unpublished)
  | some artifact => do
    Program.ofExcept (refuseIf (artifact.objectVersion = none ∨
      artifact.objectVersion = some "null") .artifactVersionMissing)
    let data ← fetchVerified platform configuration artifact
    let _ ← authorize principal caseId .review
    pure (artifact, data)

end

inductive Request where
  | job (op : SQLiteReviewStore.Op)
  | create (configuration : Configuration) (key : ArtifactKey) (data : Bytes)
  | approveExact (configuration : Configuration) (candidate : ManifestCandidate)
      (principal : Principal)
  | revoke (caseId : OpaqueID)
  | authorize (principal : Principal) (caseId : OpaqueID) (permission : Permission)
  | commit (candidate : ManifestCandidate) (token : ℕ) (principal : Principal)
      (attempt : PublicationAttempt)
  | publish (configuration : Configuration) (candidate : ManifestCandidate) (token : ℕ)
      (principal : Principal) (attempt : PublicationAttempt)
  | read (caseId : OpaqueID) (runId : UUID)
  | verifiedBytes (configuration : Configuration) (principal : Principal) (caseId : OpaqueID)
      (runId artifactId : UUID)

inductive Result where
  | job (reply : SQLiteReviewStore.Reply)
  | created (version : Digest)
  | approved (digest : Digest)
  | revoked
  | authorized (expires : Int)
  | manifest (manifest : CommittedManifest)
  | nothing
  | bytes (artifact : PublishedArtifact) (data : Bytes)

def Request.program (platform : Platform) : Request → Call Result
  | .job op => return .job (← ask (.job op))
  | .create configuration key data =>
    return .created (← ask (.create key data configuration.maxBytes))
  | .approveExact configuration candidate principal =>
    return .approved (← Publication.approveExact configuration candidate principal)
  | .revoke caseId => do
    Publication.revoke caseId
    return .revoked
  | .authorize principal caseId permission =>
    return .authorized (← Publication.authorize principal caseId permission)
  | .commit candidate token principal attempt =>
    return .manifest (← Publication.commit candidate token principal attempt)
  | .publish configuration candidate token principal attempt =>
    return .manifest
      (← Publication.publish platform configuration candidate token principal attempt)
  | .read caseId runId => do
    match ← Publication.read caseId runId with
    | none => return .nothing
    | some found => return .manifest found
  | .verifiedBytes configuration principal caseId runId artifactId => do
    let (artifact, data) ←
      Publication.verifiedBytes platform configuration principal caseId runId artifactId
    return .bytes artifact data

abbrev Calls := Pool Op Reply Refusal Result Database Weather Request

def run (platform : Platform) (calls : Calls) (events : List (Event Weather Request)) : Calls :=
  calls.run (serve platform) (Request.program platform) events

end AppraisalReview.Publication
