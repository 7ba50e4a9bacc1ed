import AppraisalReview.Confidence
import AppraisalReview.Raising
import AppraisalReview.TaskContracts
import Mathlib.Data.List.Sort

set_option autoImplicit false

/-!
# Immutable in-process material snapshots

A snapshot pairs the material with the revision that names its digest. Revising
clears confirmations, so changed material has to be confirmed again.
-/
namespace AppraisalReview

/-- `content_digest` of the models a task store hashes: the digest of the canonical JSON. -/
structure ContentDigest where
  material : ReviewMaterial → Digest
  rules : ScopedRules → Digest
  response : HumanResponse → Digest

structure RevisionSnapshot (content : ContentDigest) where
  material : ReviewMaterial
  revision : MaterialRevision
  pinned : revision.reference.materialDigest = content.material material

def SourceDocument.materialReference (document : SourceDocument) (caseId : OpaqueID) :
    Except Fault DocumentReference := do
  let documentId ← OpaqueID.parse document.documentId
  let version ← OpaqueID.parse document.version
  let contentHash ← Digest.parse document.contentHash
  return {
    caseId := caseId, documentId := documentId, version := version
    contentHash := contentHash, purpose := document.role.purpose }

def ScopedRules.ruleReference (content : ContentDigest) (entry : ScopedRules) :
    Except Fault RuleReference :=
  if h : entry.rules.ruleSetId ≠ "" ∧ entry.rules.version ≠ "" then
    .ok {
      ruleSetId := entry.rules.ruleSetId, version := entry.rules.version
      context := entry.context, contentHash := content.rules entry
      named := h.1, versioned := h.2 }
  else .error (.valueError "String should have at least 1 character")

def ReviewMaterial.valid (rt : Runtime) (ctx : DecimalContext) (material : ReviewMaterial) : Bool :=
  material.policy.valid rt ctx && material.facts.valid

def ReviewMaterial.withVersion (material : ReviewMaterial) (version : String) : ReviewMaterial where
  policy := { material.policy with
    identity := { material.policy.identity with version := version } }
  facts := { material.facts with
    identity := { material.facts.identity with version := version } }

section
variable (rt : Runtime) (ctx : DecimalContext) (content : ContentDigest)

/-- The revision that names a material, in the order `capture` builds its parts. -/
def ReviewMaterial.revision (material : ReviewMaterial) (revisionId : String)
    (parent : Option RevisionReference) (changes : List ValueRevision) :
    Except Fault MaterialRevision := do
  let caseId ← OpaqueID.parse material.policy.identity.caseId
  let identity ← OpaqueID.parse revisionId
  let documents ← (material.policy.registry.documents.insertionSort
    fun a b => a.documentId ≤ b.documentId).mapM fun document => document.materialReference caseId
  let rules ← (material.policy.ruleSets.insertionSort
    fun a b => a.context.key ≤ b.context.key).mapM fun entry => entry.ruleReference content
  MaterialRevision.build
    { caseId := caseId, revisionId := identity, materialDigest := content.material material }
    parent documents rules changes

theorem ReviewMaterial.revision_ok {material : ReviewMaterial} {revisionId : String}
    {parent : Option RevisionReference} {changes : List ValueRevision}
    {revision : MaterialRevision}
    (h : material.revision content revisionId parent changes = .ok revision) :
    revision.reference.materialDigest = content.material material ∧ revision.parent = parent := by
  simp only [ReviewMaterial.revision, Raising.bind_ok] at h
  obtain ⟨caseId, -, identity, -, documents, -, rules, -, h⟩ := h
  obtain ⟨hreference, hparent⟩ := MaterialRevision.build_ok h
  exact ⟨by rw [hreference], hparent⟩

def RevisionSnapshot.capture (material : ReviewMaterial) (revisionId : String)
    (parent : Option RevisionReference) (changes : List ValueRevision) :
    Except Fault (RevisionSnapshot content) :=
  if ¬ material.valid rt ctx then .error (.valueError "Invalid review material")
  else if material.policy.identity ≠ material.facts.identity then
    .error (.valueError "Material identities differ")
  else match h : material.revision content revisionId parent changes with
  | .error fault => .error fault
  | .ok revision => .ok {
      material := material, revision := revision
      pinned := (ReviewMaterial.revision_ok content h).1 }

/-- The pair a dictionary by context and factor keeps: the last one wins. -/
def pairOfKey (pairs : List EvidencedPair) (key : String × String) : Option EvidencedPair :=
  pairs.reverse.find? fun pair => (pair.context.key, pair.pair.factorId) = key

/-- Only unchanged native lineage survives a revision; a label is not re-extraction. -/
def retainsNative (old pair : EvidencedPair) (side : Side) : Bool :=
  (old.reliability side).method = .nativeNumeric && (pair.reliability side).method = .nativeNumeric &&
    (old.reliability side).confirmation.isNone && (pair.reliability side).confirmation.isNone &&
    confirmationDigest rt old side = confirmationDigest rt pair side

def clearConfirmation (old : Option EvidencedPair) (pair : EvidencedPair) (side : Side) :
    EvidencedPair :=
  let reliability := pair.reliability side
  pair.setReliability side { reliability with
    method := if old.any fun old => retainsNative rt old pair side then reliability.method
      else .modelProposed
    confirmation := none }

def RevisionSnapshot.revise (snapshot : RevisionSnapshot content) (material : ReviewMaterial)
    (revisionId : String) (changes : List ValueRevision) :
    Except Fault (RevisionSnapshot content) :=
  if ¬ material.valid rt ctx then .error (.valueError "Invalid review material")
  else if material.policy.identity.caseId ≠ snapshot.revision.reference.caseId.text then
    .error (.valueError "Cannot revise a different case")
  else if revisionId = snapshot.revision.reference.revisionId.text then
    .error (.valueError "A revision cannot replace its parent")
  else
    let candidate := material.withVersion revisionId
    let pairs := candidate.facts.pairs.map fun pair =>
      let old := pairOfKey snapshot.material.facts.pairs (pair.context.key, pair.pair.factorId)
      clearConfirmation rt old (clearConfirmation rt old pair .target) .comparable
    RevisionSnapshot.capture rt ctx content
      { candidate with facts := { candidate.facts with pairs := pairs } }
      revisionId (some snapshot.revision.reference) changes

variable {rt ctx content}

theorem RevisionSnapshot.capture_ok {material : ReviewMaterial} {revisionId : String}
    {parent : Option RevisionReference} {changes : List ValueRevision}
    {snapshot : RevisionSnapshot content}
    (h : RevisionSnapshot.capture rt ctx content material revisionId parent changes =
      .ok snapshot) :
    snapshot.revision.parent = parent := by
  unfold capture at h
  split_ifs at h
  split at h
  · cases h
  · rename_i revision hrevision
    cases h
    exact (ReviewMaterial.revision_ok content hrevision).2

theorem RevisionSnapshot.revise_ok {before snapshot : RevisionSnapshot content}
    {material : ReviewMaterial} {revisionId : String} {changes : List ValueRevision}
    (h : before.revise rt ctx content material revisionId changes = .ok snapshot) :
    snapshot.revision.parent = some before.revision.reference := by
  unfold revise at h
  split_ifs at h
  exact capture_ok h

end
end AppraisalReview
