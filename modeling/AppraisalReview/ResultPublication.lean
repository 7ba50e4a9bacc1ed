import AppraisalReview.JobCancellation
import AppraisalReview.ReviewContracts

set_option autoImplicit false

/-!
# Publishing a result in two writes

`publish` stores the body under its run and version, then commits the reference
with `finish`. A process may die between the two, and other parties may act.
`contentDigest` is the digest of a body's canonical JSON.
-/
namespace AppraisalReview

structure ArtifactManifest where
  artifactId : UUID
  manifest : CanonicalJson.Json

structure ResultBody where
  run : RunReference
  resultVersion : ℕ
  executionStatus : ExecutionStatus
  businessStatus : Option WorkflowStatus := none
  artifactStatus : ArtifactStatus := .notRequested
  findings : List ReviewFinding := []
  verification : Option CanonicalJson.Json := none
  artifacts : List ArtifactManifest := []
  problem : Option ServiceProblem := none
  durable : Bool := false

def ResultBody.honestCompletion (body : ResultBody) : Except Fault Unit :=
  let written := body.artifactStatus = .written
  if (body.executionStatus = .queued ∨ body.executionStatus = .running) ∧
      (body.businessStatus.isSome ∨ body.verification.isSome ∨ body.problem.isSome ∨
        body.artifacts.length ≠ 0 ∨ body.artifactStatus ≠ .notRequested) then
    .error (.valueError "Active execution cannot claim a terminal result")
  else if body.executionStatus = .succeeded ∧
      (body.businessStatus = none ∨ body.problem.isSome) then
    .error (.valueError "Successful execution requires a business result and no failure")
  else if ¬ (written ↔ body.artifacts.length ≠ 0) ∨
      ¬ (written ↔ body.businessStatus = some .completed) then
    .error (.valueError "Completed/written requires an actual artifact manifest")
  else if written ∧ body.executionStatus ≠ .succeeded then
    .error (.valueError "Only successful execution can report a completed PDF")
  else if body.executionStatus = .failed ∧ body.problem = none then
    .error (.valueError "Execution failure requires a sanitized problem")
  else .ok ()

/-- A body its own validator accepts. -/
structure ServiceResult extends ResultBody where
  positive : 1 ≤ resultVersion
  maxArtifacts : artifacts.length ≤ 1
  honest : toResultBody.honestCompletion = .ok ()

/-- Keep identity, status, digest and counts; findings and citations stay in the body. -/
def resultReference (result : ServiceResult) (attempt : ClaimedAttempt) (digest : Digest) :
    ResultReference where
  runId := attempt.runId
  resultVersion := result.resultVersion
  fencingToken := attempt.fencingToken
  executionStatus := result.executionStatus
  businessStatus := result.businessStatus
  artifactStatus := result.artifactStatus
  resultDigest := digest
  artifactIds := result.artifacts.map ArtifactManifest.artifactId
  findingCount := result.findings.length

namespace MemoryJobStore

abbrev Bodies := Dict (UUID × ℕ) ServiceResult

/-- The job store with the result bodies beside it. -/
structure Plane where
  jobs : Store := {}
  bodies : Bodies := .empty

/-- A call on the job store, or the first half of a publication. -/
inductive Call where
  | job (op : Op)
  | stage (attempt : ClaimedAttempt) (result : ServiceResult)

section
variable (contentDigest : ServiceResult → Digest)

/-- `InMemoryResultStore.put` -/
def putBody (runId : UUID) (version : ℕ) (result : ServiceResult) (bodies : Bodies) :
    Except Fault Digest × Bodies :=
  if result.run.runId ≠ runId ∨ result.resultVersion ≠ version then
    (.error (.service .conflict), bodies)
  -- A retried write of the identical body is fine.
  else if (bodies.get? (runId, version)).any
      fun stored => contentDigest stored ≠ contentDigest result then
    (.error (.service .conflict), bodies)
  else (.ok (contentDigest result), bodies.set (runId, version) result)

/-- `publish` up to the stored body. -/
def stage (attempt : ClaimedAttempt) (result : ServiceResult) (p : Plane) :
    Except Fault Digest × Plane :=
  if result.run.runId ≠ attempt.runId ∨
      result.resultVersion ≠ attempt.expectedResultVersion + 1 then
    (.error (.service .conflict), p)
  else
    let stored := putBody contentDigest attempt.runId result.resultVersion result p.bodies
    (stored.1, { p with bodies := stored.2 })

variable (sha256 : String → Digest) (policy : JobPolicy)

def Plane.step (p : Plane) : Call → Plane
  | .job op => { p with jobs := (MemoryJobStore.step sha256 policy p.jobs op).2 }
  | .stage attempt result => (MemoryJobStore.stage contentDigest attempt result p).2

def Plane.run (p : Plane) (calls : List Call) : Plane :=
  calls.foldl (Plane.step contentDigest sha256 policy) p

/-- `publish`; other parties act between the body and its reference. -/
def publish (attempt : ClaimedAttempt) (result : ServiceResult) (others : List Call) (now : Int)
    (p : Plane) : Except Fault JobRecord × Plane :=
  match stage contentDigest attempt result p with
  | (.error fault, p) => (.error fault, p)
  | (.ok digest, p) =>
    let p := p.run contentDigest sha256 policy others
    let finished := finish policy attempt .publishResult now none []
      (some (resultReference result attempt digest)) p.jobs
    (finished.1, { p with jobs := finished.2 })

/-- `_authorized` -/
def authorizedRecord (s : Store) (principal : Principal) (jobId : UUID) : Except Fault JobRecord :=
  match readJob s jobId with
  | .error fault => .error fault
  | .ok none => .error (.service .notFound)
  | .ok (some record) =>
    if record.principalId ≠ principal.actor.actorId ∨
        record.caseId.text ∉ principal.caseIds then .error (.service .notFound)
    else match principal.require record.caseId .review with
    | .error fault => .error fault
    | .ok () => .ok record

/-- `ReviewJobService.result` -/
def serveResult (p : Plane) (principal : Principal) (jobId : UUID) : Except Fault ServiceResult :=
  match authorizedRecord p.jobs principal jobId with
  | .error fault => .error fault
  | .ok record =>
    if record.resultVersion < 1 then .error (.service .conflict)
    else
      let runId := record.currentRun.runId
      match readResultReference p.jobs runId record.resultVersion,
        p.bodies.get? (runId, record.resultVersion) with
      | some reference, some body =>
        if contentDigest body ≠ reference.resultDigest then .error (.service .execution)
        else .ok body
      | _, _ => .error (.service .execution)

end

end MemoryJobStore
end AppraisalReview
