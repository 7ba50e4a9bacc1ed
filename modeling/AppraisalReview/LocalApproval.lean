import AppraisalReview.CaseReview
import AppraisalReview.MaterialJson

set_option autoImplicit false

/-!
# The local approval store

One reviewer, by the identity of the operating system, approves exact material:
a signed receipt is kept in a private file under the digest of the material. The
files are read as they were written, and `sign` stands for the keyed digest of
a receipt.
-/
namespace AppraisalReview.LocalApproval

structure Reviewer where
  uid : ℕ
  name : String
deriving DecidableEq

def Reviewer.label (reviewer : Reviewer) : String := toString reviewer.uid ++ ":" ++ reviewer.name

structure ReceiptBody where
  materialDigest : Digest
  caseId : String
  caseVersion : String
  reviewer : Reviewer
  approvedAt : Int
deriving DecidableEq

structure ApprovalReceipt extends ReceiptBody where
  signature : Digest
deriving DecidableEq

/-- The evidence is the PDF region of some reference, in the file that the registry names. -/
def evidenceAnchored (rt : Runtime) (registry : SourceRegistry) (refs : List SourceCitation)
    (evidence : EvidenceRef) : Except Escape Bool :=
  match evidence.sourceFile with
  | none => .ok false
  | some file =>
    if evidence.coordinateSystem ≠ some .pdfBottomLeft ∨
        ¬ refs.any fun ref => evidence.locates ref then .ok false
    else match registry.documents.find? fun document =>
        document.documentId = evidence.documentId with
      | none => .error .stopIteration
      | some document => do
        let own ← documentIdentity rt file
        let registered ← documentIdentity rt document.uri
        .ok (own = registered)

def methodEligible (rt : Runtime) (reviewer : Reviewer) (pair : EvidencedPair) (side : Side) : Bool :=
  let reliability := pair.reliability side
  match reliability.method with
  | .reviewerConfirmed => (reliability.confirmation.any fun confirmation =>
      confirmation.reviewer = reviewer.label &&
        confirmation.inputDigest = confirmationDigest rt pair side) &&
      reliability.confidenceKind ≠ .unknown && reliability.provenance ≠ .unknown
  | .nativeNumeric => reliability.confidenceKind = .measured &&
      reliability.provenance = .nativeExtraction && reliability.producer.isSome &&
      reliability.confirmation.isNone
  | .modelProposed => false

def sideEligible (rt : Runtime) (registry : SourceRegistry) (reviewer : Reviewer)
    (pair : EvidencedPair) (side : Side) : Except Escape Bool :=
  let reliability := pair.reliability side
  let observation := pair.pair.observation side
  let refs := pair.sources side
  if reliability.unresolved ≠ [] ∨ reliability.selection = .ambiguous ∨ observation.value = none ∨
      observation.rawText.getD "" = "" ∨ observation.evidence = [] ∨ refs = [] ∨
      ¬ refs.all registry.resolves then .ok false
  else if ¬ refs.all fun ref => observation.evidence.any fun evidence => evidence.locates ref then
    .ok false
  else do
    let anchored ← observation.evidence.allM (evidenceAnchored rt registry refs)
    .ok (anchored && methodEligible rt reviewer pair side)

def pairEligible (rt : Runtime) (registry : SourceRegistry) (reviewer : Reviewer)
    (pair : EvidencedPair) : Except Escape Bool :=
  sides.allM (sideEligible rt registry reviewer pair)

/-- Eligibility is separate from full-case completeness and measured thresholds. Whatever the
tests raise is caught. -/
def confirmationsValid (rt : Runtime) (ctx : DecimalContext) (material : ReviewMaterial)
    (reviewer : Reviewer) : Bool :=
  material.policy.valid rt ctx && material.facts.valid && material.facts.pairs ≠ [] &&
    match material.facts.pairs.allM (pairEligible rt material.policy.registry reviewer) with
    | .ok eligible => eligible
    | .error _ => false

/-- What the code reads of the outside; two days are written as two texts. -/
structure Platform where
  rt : Runtime
  ctx : DecimalContext
  isoformat : Date → String
  isoformat_injective : Function.Injective isoformat
  sign : ReceiptBody → Digest

structure LocalApprovalStore where
  reviewer : Reviewer
  receipts : Digest → Option ApprovalReceipt := fun _ => none

inductive Denial where
  | unconfirmed | differentDigest | fileExists
deriving DecidableEq

section
variable (os : Platform)

def Platform.digest (material : ReviewMaterial) : Digest :=
  contentDigest os.isoformat os.rt material

def receiptFor (reviewer : Reviewer) (material : ReviewMaterial) (now : Int) : ReceiptBody where
  materialDigest := os.digest material
  caseId := material.policy.identity.caseId
  caseVersion := material.policy.identity.version
  reviewer := reviewer
  approvedAt := now

namespace LocalApprovalStore

def approve (store : LocalApprovalStore) (material : ReviewMaterial) (expectedDigest : String)
    (now : Int) : Except Denial ApprovalReceipt × LocalApprovalStore :=
  let digest := os.digest material
  if ¬ confirmationsValid os.rt os.ctx material store.reviewer then (.error .unconfirmed, store)
  else if digest.text ≠ expectedDigest then (.error .differentDigest, store)
  else if (store.receipts digest).isSome then (.error .fileExists, store)
  else
    let body := receiptFor os store.reviewer material now
    let receipt : ApprovalReceipt := { body with signature := os.sign body }
    (.ok receipt, { store with receipts := Function.update store.receipts digest (some receipt) })

def permits (store : LocalApprovalStore) (material : ReviewMaterial) (now : Int) : Bool :=
  match store.receipts (os.digest material) with
  | none => false
  | some receipt =>
    confirmationsValid os.rt os.ctx material store.reviewer &&
      os.sign receipt.toReceiptBody = receipt.signature &&
      receipt.materialDigest = os.digest material &&
      receipt.caseId = material.policy.identity.caseId &&
      receipt.caseVersion = material.policy.identity.version &&
      receipt.reviewer = store.reviewer && receipt.approvedAt ≤ now

def authorization (store : LocalApprovalStore) (now : Int) : ReviewMaterial → Bool :=
  fun material => store.permits os material now

end LocalApprovalStore

inductive Call where
  | approve (material : ReviewMaterial) (expectedDigest : String) (now : Int)
  | permits (material : ReviewMaterial) (now : Int)

def step (store : LocalApprovalStore) : Call → LocalApprovalStore
  | .approve material expectedDigest now => (store.approve os material expectedDigest now).2
  | .permits _ _ => store

def run (reviewer : Reviewer) (calls : List Call) : LocalApprovalStore :=
  calls.foldl (step os) { reviewer := reviewer }

end
end AppraisalReview.LocalApproval
