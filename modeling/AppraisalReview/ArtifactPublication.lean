import AppraisalReview.ReviewContracts
import AppraisalReview.ServiceGuards

set_option autoImplicit false

/-!
# Attempt-scoped artifacts and fenced manifests

A worker writes artifacts under the keys of its own attempt and proposes a
candidate. Only a commit under the current fencing token makes it the run's
result. `digest` is the content digest of a candidate.
-/
namespace AppraisalReview.ArtifactPublication

/-- `PublicationError.code` -/
inductive PublicationCode where
  | artifactMismatch | artifactVersionMissing | artifactEvidenceMissing | reviewNotPublishable
  | approvalDisabled | publicationUnauthorized | stalePublication | manifestConflict
  | manifestCorrupt | revealedOutputForbidden | unpublished
deriving DecidableEq, Repr

/-- `str(u)`: five groups of lower-case hexadecimal digits. -/
def uuidChars (u : UUID) : List Char :=
  let group k := CanonicalJson.hex4 (u.value / 65536 ^ k)
  group 7 ++ group 6 ++ ['-'] ++ group 5 ++ ['-'] ++ group 4 ++ ['-'] ++ group 3 ++ ['-'] ++
    group 2 ++ group 1 ++ group 0

def uuidText (u : UUID) : String := String.ofList (uuidChars u)

structure ArtifactKey where
  caseId : OpaqueID
  runId : UUID
  attemptId : UUID
  artifactId : UUID
deriving DecidableEq

def ArtifactKey.chars (key : ArtifactKey) : List Char :=
  "cases/".toList ++ key.caseId.text.toList ++ "/runs/".toList ++ uuidChars key.runId ++
    "/attempts/".toList ++ uuidChars key.attemptId ++ "/artifacts/".toList ++
    uuidChars key.artifactId ++ ".pdf".toList

def ArtifactKey.key (key : ArtifactKey) : String := String.ofList key.chars

def ArtifactKey.forRun (run : RunReference) (artifactId : UUID) : Option ArtifactKey :=
  run.attemptId.map fun attemptId =>
    { caseId := run.revision.caseId, runId := run.runId, attemptId := attemptId
      artifactId := artifactId }

structure SourceVersion where
  documentId : OpaqueID
  version : OpaqueID
  contentHash : Digest
deriving DecidableEq

structure PublishedArtifact where
  artifactId : UUID
  key : ArtifactKey
  contentHash : Digest
  objectVersion : Option String := none
  fontHash : Option Digest := none
  sizeBytes : ℕ
  writerVersion : String
  templateId : OpaqueID
  templateVersion : OpaqueID
  templateHash : Digest
  fieldMapHash : Digest
  contexts : List ComparisonContext := []
  fieldIds : List String
  pageCount : ℕ
  sourceVersions : List SourceVersion := []
  sized : 1 ≤ sizeBytes ∧ 1 ≤ pageCount
  named : objectVersion ≠ some "" ∧ writerVersion ≠ "" ∧ fieldIds ≠ []
  coherentKey : key.artifactId = artifactId ∧ fieldIds.Nodup
deriving DecidableEq

structure ManifestCandidate where
  run : RunReference
  resultVersion : ℕ
  reviewStatus : WorkflowStatus
  artifacts : List PublishedArtifact
  numbered : 1 ≤ resultVersion ∧ artifacts ≠ []
  distinct : (artifacts.map PublishedArtifact.key).Nodup ∧
    (artifacts.map PublishedArtifact.artifactId).Nodup
  attemptScoped : ∀ artifact ∈ artifacts, ArtifactKey.forRun run artifact.artifactId =
    some artifact.key
  attempted : run.attemptId.isSome = true
deriving DecidableEq

def ManifestCandidate.caseId (candidate : ManifestCandidate) : OpaqueID :=
  candidate.run.revision.caseId

def ManifestCandidate.firstSources (candidate : ManifestCandidate) : List SourceVersion :=
  match candidate.artifacts with
  | [] => []
  | artifact :: _ => artifact.sourceVersions

structure CommittedManifest where
  candidate : ManifestCandidate
  fencingToken : ℕ
  manifestDigest : Digest
deriving DecidableEq

def CommittedManifest.boundDigest (digest : ManifestCandidate → Digest)
    (manifest : CommittedManifest) : Prop :=
  manifest.manifestDigest = digest manifest.candidate

instance (digest : ManifestCandidate → Digest) (manifest : CommittedManifest) :
    Decidable (manifest.boundDigest digest) := by
  unfold CommittedManifest.boundDigest
  infer_instance

end AppraisalReview.ArtifactPublication
