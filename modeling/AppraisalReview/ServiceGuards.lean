import AppraisalReview.CanonicalJson
import AppraisalReview.JobContracts
import Mathlib.Data.List.Sort

set_option autoImplicit false

/-!
# Admission checks shared by the job stores

The canonical identity of a submission and the replay check against a stored
idempotency record. `sha256` is the hexadecimal digest of a text.
-/
namespace AppraisalReview
open CanonicalJson (Json dumps)

def DocumentPurpose.text : DocumentPurpose → String
  | .criteria => "criteria"
  | .forms => "forms"
  | .reference => "reference"
  | .brief => "brief"
  | .template => "template"

def RevisionReference.json (revision : RevisionReference) : Json :=
  .object [("case_id", .string revision.caseId.text),
    ("material_digest", .string revision.materialDigest.text),
    ("revision_id", .string revision.revisionId.text),
    ("schema_version", .string "service-v1")]

def DocumentReference.json (document : DocumentReference) : Json :=
  .object [("case_id", .string document.caseId.text),
    ("content_hash", .string document.contentHash.text),
    ("document_id", .string document.documentId.text),
    ("purpose", .string document.purpose.text),
    ("schema_version", .string "service-v1"),
    ("version", .string document.version.text)]

/-- `sorted(documents, key=document_id)`; the sort is stable. -/
def sortedDocuments (documents : List DocumentReference) : List DocumentReference :=
  documents.insertionSort fun a b => a.documentId.text ≤ b.documentId.text

def canonicalSubmission (revision : RevisionReference) (documents : List DocumentReference) :
    Json :=
  .object [("documents", .array ((sortedDocuments documents).map DocumentReference.json)),
    ("idempotency_key", .string "canonical-payload"),
    ("revision", revision.json),
    ("schema_version", .string "service-v1")]

theorem DocumentPurpose.text_injective : Function.Injective DocumentPurpose.text := by
  intro a b h
  cases a <;> cases b <;> first | rfl | simp [DocumentPurpose.text] at h

theorem OpaqueID.ext_text {a b : OpaqueID} (h : a.text = b.text) : a = b := by
  obtain ⟨text, _⟩ := a
  obtain ⟨text', _⟩ := b
  obtain rfl : text = text' := h
  rfl

theorem Digest.ext_text {a b : Digest} (h : a.text = b.text) : a = b := by
  obtain ⟨text, _⟩ := a
  obtain ⟨text', _⟩ := b
  obtain rfl : text = text' := h
  rfl

theorem RevisionReference.json_injective : Function.Injective RevisionReference.json := by
  rintro ⟨caseId, revisionId, digest⟩ ⟨caseId', revisionId', digest'⟩ h
  simp only [RevisionReference.json, Json.object.injEq, List.cons.injEq, Prod.mk.injEq,
    Json.string.injEq, true_and, and_true] at h
  obtain ⟨hcase, hdigest, hrevision⟩ := h
  rw [OpaqueID.ext_text hcase, Digest.ext_text hdigest, OpaqueID.ext_text hrevision]

theorem DocumentReference.json_injective : Function.Injective DocumentReference.json := by
  rintro ⟨caseId, documentId, version, hash, purpose⟩
    ⟨caseId', documentId', version', hash', purpose'⟩ h
  simp only [DocumentReference.json, Json.object.injEq, List.cons.injEq, Prod.mk.injEq,
    Json.string.injEq, true_and, and_true] at h
  obtain ⟨hcase, hhash, hdocument, hpurpose, hversion⟩ := h
  rw [OpaqueID.ext_text hcase, Digest.ext_text hhash, OpaqueID.ext_text hdocument,
    DocumentPurpose.text_injective hpurpose, OpaqueID.ext_text hversion]

theorem sortedDocuments_perm {xs ys : List DocumentReference} (h : xs.Perm ys)
    (distinct : (xs.map DocumentReference.documentId).Nodup) :
    sortedDocuments xs = sortedDocuments ys := by
  have hxs := List.perm_insertionSort
    (fun a b : DocumentReference => a.documentId.text ≤ b.documentId.text) xs
  have hys := List.perm_insertionSort
    (fun a b : DocumentReference => a.documentId.text ≤ b.documentId.text) ys
  have total : Std.Total fun a b : DocumentReference => a.documentId.text ≤ b.documentId.text :=
    ⟨fun a b => String.le_total a.documentId.text b.documentId.text⟩
  have transitive : IsTrans DocumentReference fun a b => a.documentId.text ≤ b.documentId.text :=
    ⟨fun _ _ _ => String.le_trans⟩
  refine List.Perm.eq_of_pairwise ?_ (List.pairwise_insertionSort _ xs)
    (List.pairwise_insertionSort _ ys) (hxs.trans (h.trans hys.symm))
  intro a b ha hb hab hba
  exact List.inj_on_of_nodup_map distinct (hxs.mem_iff.mp ha) (h.mem_iff.mpr (hys.mem_iff.mp hb))
    (OpaqueID.ext_text (String.le_antisymm hab hba))

theorem canonicalSubmission_eq_iff {revision revision' : RevisionReference}
    {documents documents' : List DocumentReference}
    (distinct : (documents.map DocumentReference.documentId).Nodup) :
    canonicalSubmission revision documents = canonicalSubmission revision' documents' ↔
      revision = revision' ∧ documents.Perm documents' := by
  constructor
  · intro h
    simp only [canonicalSubmission, Json.object.injEq, List.cons.injEq, Prod.mk.injEq,
      Json.array.injEq, true_and, and_true] at h
    obtain ⟨hdocuments, hrevision⟩ := h
    have hsorted := List.map_injective_iff.mpr DocumentReference.json_injective hdocuments
    have hperm : (sortedDocuments documents).Perm documents := List.perm_insertionSort ..
    have hperm' : (sortedDocuments documents').Perm documents' := List.perm_insertionSort ..
    rw [hsorted] at hperm
    exact ⟨RevisionReference.json_injective hrevision, hperm.symm.trans hperm'⟩
  · rintro ⟨rfl, hperm⟩
    rw [canonicalSubmission, canonicalSubmission, sortedDocuments_perm hperm distinct]

section
variable (sha256 : String → Digest)

def submissionDigest (submission : ReviewSubmission) : Digest :=
  sha256 (dumps (canonicalSubmission submission.revision submission.documents))

structure IdempotencyRecord where
  principalId : String
  key : String
  payloadDigest : Digest
  runId : UUID
deriving DecidableEq

def checkIdempotency (stored : IdempotencyRecord) (principal : Principal)
    (submission : ReviewSubmission) : Except Fault UUID :=
  match principal.require submission.revision.caseId .review with
  | .error fault => .error fault
  | .ok () =>
    if stored.principalId ≠ principal.actor.actorId ∨
        stored.key ≠ submission.idempotencyKey.text then .error (.service .unauthorized)
    else if stored.payloadDigest ≠ submissionDigest sha256 submission then
      .error (.service .conflict)
    else .ok stored.runId

end
end AppraisalReview
