import AppraisalReview.CanonicalJson
import AppraisalReview.Interleaving
import AppraisalReview.ServiceGuards
import Mathlib.Algebra.Group.Nat.Defs
import Mathlib.Data.Rat.Defs

set_option autoImplicit false

/-!
# Document transfer

Controlled ingestion of sanitized exports and the pinning of run sources. A call
is a program over an immutable object storage; the clock, the fresh identities
and the answers of the authorities come from outside, one with each operation.
-/
namespace AppraisalReview

def UUID.isV4 (u : UUID) : Prop :=
  u.value < 2 ^ 128 ∧ u.value / 2 ^ 76 % 16 = 4 ∧ u.value / 2 ^ 62 % 4 = 2

instance (u : UUID) : Decidable (UUID.isV4 u) := by
  unfold UUID.isV4
  infer_instance

abbrev UUID4 := {u : UUID // UUID.isV4 u}

def UUID4.chars (u : UUID4) : List Char :=
  let group k := CanonicalJson.hex4 (u.val.value / 65536 ^ k)
  group 7 ++ group 6 ++ ['-'] ++ group 5 ++ ['-'] ++ group 4 ++ ['-'] ++ group 3 ++ ['-'] ++
    group 2 ++ group 1 ++ group 0

theorem hexDigit_alphanumeric (n : ℕ) :
    asciiAlphanumeric (CanonicalJson.hexDigit (n % 16)) = true := by
  have h : ∀ d < 16, asciiAlphanumeric (CanonicalJson.hexDigit d) = true := by decide
  exact h _ (Nat.mod_lt _ (by decide))

/-- `str(u)` -/
def UUID4.str (u : UUID4) : OpaqueID where
  text := String.ofList u.chars
  wellFormed := by
    simp [opaqueText, UUID4.chars, CanonicalJson.hex4, hexDigit_alphanumeric]

def opaqueUuid (value : String) : Option UUID4 :=
  let digits := value.toList.filter (· ≠ '-')
  let parsed : UUID := ⟨digits.foldl (fun n c => 16 * n + CanonicalJson.hexValue c) 0⟩
  if h : parsed.isV4 then
    if (UUID4.str ⟨parsed, h⟩).text = value then some ⟨parsed, h⟩ else none
  else none

theorem fold_hex4 (n g : ℕ) :
    (CanonicalJson.hex4 g).foldl (fun n c => 16 * n + CanonicalJson.hexValue c) n =
      65536 * n + g % 65536 := by
  simp only [CanonicalJson.hex4, List.foldl_cons, List.foldl_nil,
    CanonicalJson.hexValue_hexDigit _ (Nat.mod_lt _ (show 0 < 16 by decide))]
  omega

theorem filter_hex4 (g : ℕ) : (CanonicalJson.hex4 g).filter (· ≠ '-') = CanonicalJson.hex4 g := by
  have hdigit : ∀ d < 16, CanonicalJson.hexDigit d ≠ '-' := by decide
  have hdash : ∀ n : ℕ, CanonicalJson.hexDigit (n % 16) ≠ '-' := fun n =>
    hdigit _ (Nat.mod_lt _ (by decide))
  simp [CanonicalJson.hex4, hdash]

theorem digits_chars (u : UUID4) :
    (u.chars.filter (· ≠ '-')).foldl (fun n c => 16 * n + CanonicalJson.hexValue c) 0 =
      u.val.value := by
  have hlt : u.val.value < 2 ^ 128 := u.property.1
  have hdash : ['-'].filter (· ≠ '-') = [] := by decide
  simp only [UUID4.chars, List.filter_append, filter_hex4, hdash, List.append_nil,
    List.foldl_append, fold_hex4]
  generalize u.val.value = v at hlt ⊢
  have hgroup : ∀ k, 65536 * (v / 65536 ^ (k + 1)) + v / 65536 ^ k % 65536 = v / 65536 ^ k := by
    intro k
    rw [Nat.pow_succ, ← Nat.div_div_eq_div_mul]
    exact Nat.div_add_mod ..
  have htop : v / 65536 ^ 7 % 65536 = v / 65536 ^ 7 :=
    Nat.mod_eq_of_lt (Nat.div_lt_of_lt_mul (by omega))
  rw [Nat.mul_zero, Nat.zero_add, htop, hgroup 6, hgroup 5, hgroup 4, hgroup 3, hgroup 2, hgroup 1,
    hgroup 0, Nat.pow_zero, Nat.div_one]

theorem opaqueUuid_str (u : UUID4) : opaqueUuid u.str.text = some u := by
  have hread : (u.str.text.toList.filter (· ≠ '-')).foldl
      (fun n c => 16 * n + CanonicalJson.hexValue c) 0 = u.val.value := by
    rw [UUID4.str, String.toList_ofList]
    exact digits_chars u
  simp only [opaqueUuid, hread]
  rw [dif_pos u.property, if_pos trivial]

namespace DocumentTransfer
open Interleaving

abbrev Bytes := List UInt8

def catalogLimit : ℕ := 2 * 1024 * 1024

inductive DocumentErrorCode where
  | invalid | unauthorized | privacy | tooLarge | notPdf | notFound | conflict | integrity
  | unavailable
deriving DecidableEq, Repr

structure PrivacyPage where
  number : ℕ
  width : ℚ
  height : ℚ
deriving DecidableEq

structure PrivacyRegion where
  page : ℕ
  bbox : ℚ × ℚ × ℚ × ℚ
deriving DecidableEq

structure PlaceholderOccurrence where
  occurrenceId : UUID4
  entityId : UUID4
  region : PrivacyRegion
deriving DecidableEq

structure PrivacyManifest where
  caseId : UUID4
  documentId : UUID4
  sanitizedDigest : Digest
  byteSize : ℕ
  pages : List PrivacyPage
  occurrences : List PlaceholderOccurrence
  sized : 0 < byteSize
  paged : pages ≠ []
  numbered : pages.map PrivacyPage.number = List.range' 1 pages.length
  distinct : (occurrences.map PlaceholderOccurrence.occurrenceId).Nodup
deriving DecidableEq

structure ExportClaims where
  keyId : UUID4
  exportId : UUID4
  principalId : UUID4
  manifest : PrivacyManifest
  purpose : DocumentPurpose
  confirmedAt : ℕ
  expiresAt : ℕ
  previous : Option DocumentReference := none
  window : confirmedAt < expiresAt
  binding : ∀ p ∈ previous, p.caseId = manifest.caseId.str ∧ p.purpose = purpose
deriving DecidableEq

structure PrivacyAttestation where
  claims : ExportClaims
  signatureHex : String
deriving DecidableEq

/-- The last field is the validator `binding`. -/
structure DocumentMetadata where
  reference : DocumentReference
  attestation : PrivacyAttestation
  uploadedBy : UUID4
  createdAt : ℕ
  byteSize : ℕ
  bound : reference.caseId = attestation.claims.manifest.caseId.str ∧
    reference.contentHash = attestation.claims.manifest.sanitizedDigest ∧
    reference.purpose = attestation.claims.purpose ∧
    uploadedBy = attestation.claims.principalId ∧
    byteSize = attestation.claims.manifest.byteSize
deriving DecidableEq

inductive ObjectKind where
  | content | documents | snapshots | exports | audit
deriving DecidableEq, Repr

structure ObjectKey where
  kind : ObjectKind
  scope : UUID4
  identity : UUID4
deriving DecidableEq

structure StoredDocument where
  metadata : DocumentMetadata
  storageVersion : String
  named : 1 ≤ storageVersion.length ∧ storageVersion.length ≤ 1024
deriving DecidableEq

structure DocumentAllocation where
  documentId : UUID4
  version : UUID4
  attestationDigest : Digest
  createdAt : ℕ
deriving DecidableEq

structure StoredBytes where
  content : Bytes
  version : String

structure SnapshotEntry where
  document : DocumentReference
  privacyManifestDigest : Digest
  storedDocumentDigest : Digest
  pageCount : ℕ
deriving DecidableEq

structure RunSourceSnapshot where
  runId : UUID4
  revision : RevisionReference
  createdAt : ℕ
  createdBy : UUID4
  documents : List SnapshotEntry
  counted : 1 ≤ documents.length ∧ documents.length ≤ 100
  sameCase : ∀ entry ∈ documents, entry.document.caseId = revision.caseId
  distinct : (documents.map fun entry => entry.document.documentId).Nodup
deriving DecidableEq

structure AuthorizedDocumentBytes where
  metadata : DocumentMetadata
  content : Bytes

inductive DocumentOperation where
  | ingest | snapshot | read
deriving DecidableEq, Repr

/-- Its outcome is `succeeded` when there is no code. -/
structure DocumentAuditEvent where
  eventId : UUID4
  occurredAt : ℕ
  actorId : UUID4
  caseId : UUID4
  operation : DocumentOperation
  code : Option DocumentErrorCode
  documentId : Option UUID4
  runId : Option UUID

inductive LabelPurpose where
  | document (purpose : DocumentPurpose)
  | snapshot
  | catalog
deriving DecidableEq

inductive ContentType where
  | pdf | json
deriving DecidableEq, Repr

structure ObjectLabels where
  caseId : UUID4
  uploader : UUID4
  createdAt : ℕ
  contentHash : Digest
  byteSize : ℕ
  contentType : ContentType
  purpose : LabelPurpose
  sized : 0 < byteSize

structure StoredObject where
  content : Bytes
  version : String
  labels : ObjectLabels

structure Storage where
  objects : ObjectKey → Option StoredObject := fun _ => none
  audit : List DocumentAuditEvent := []

inductive Op where
  | require (principal : Principal) (caseId : OpaqueID) (purpose : DocumentPurpose)
      (operation : DocumentOperation)
  | verify (attestation : PrivacyAttestation) (principal : Principal)
  | now
  | uuid4
  | create (key : ObjectKey) (content : Bytes) (labels : ObjectLabels)
  | read (key : ObjectKey) (version : Option String) (limit : ℕ)
  | append (event : DocumentAuditEvent)

@[reducible] def Reply : Op → Type
  | .require .. | .verify .. | .append .. => Except DocumentErrorCode Unit
  | .now => ℕ
  | .uuid4 => UUID4
  | .create .. => Except DocumentErrorCode String
  | .read .. => Except DocumentErrorCode StoredBytes

/-- What the outside adds to one operation: a refusal or an outage, the time, what is drawn. -/
structure Weather where
  failure : Option DocumentErrorCode := none
  clock : ℕ := 0
  fresh : UUID4
  version : String

def Weather.permits (weather : Weather) : Except DocumentErrorCode Unit :=
  match weather.failure with
  | some code => .error code
  | none => .ok ()

def Storage.create (s : Storage) (key : ObjectKey) (content : Bytes) (labels : ObjectLabels)
    (version : String) : Except DocumentErrorCode String × Storage :=
  match s.objects key with
  | some _ => (.error .conflict, s)
  | none => (.ok version,
      { s with objects := Function.update s.objects key (some ⟨content, version, labels⟩) })

def Storage.read (s : Storage) (key : ObjectKey) (version : Option String) (limit : ℕ) :
    Except DocumentErrorCode StoredBytes :=
  match s.objects key with
  | none => .error .notFound
  | some found =>
    if version.isSome ∧ version ≠ some found.version then .error .notFound
    else if limit < found.content.length then .error .tooLarge
    else .ok ⟨found.content, found.version⟩

def serve (weather : Weather) : (op : Op) → Storage → Reply op × Storage
  | .require .., s => (weather.permits, s)
  | .verify .., s => (weather.permits, s)
  | .now, s => (weather.clock, s)
  | .uuid4, s => (weather.fresh, s)
  | .create key content labels, s =>
    match weather.failure with
    | some code => (.error code, s)
    | none => s.create key content labels weather.version
  | .read key version limit, s =>
    match weather.failure with
    | some code => (.error code, s)
    | none => (s.read key version limit, s)
  | .append event, s =>
    match weather.failure with
    | some code => (.error code, s)
    | none => (.ok (), { s with audit := s.audit ++ [event] })

abbrev Call := Program Op Reply DocumentErrorCode

def now : Call ℕ := Program.ask Op.now

def uuid4 : Call UUID4 := Program.ask Op.uuid4

def create (key : ObjectKey) (content : Bytes) (labels : ObjectLabels) :
    Call (Except DocumentErrorCode String) :=
  Program.ask (Op.create key content labels)

def fetch (key : ObjectKey) (version : Option String) (limit : ℕ) : Call StoredBytes := do
  let reply ← Program.ask (Op.read key version limit)
  Program.ofExcept reply

def require (principal : Principal) (caseId : OpaqueID) (purpose : DocumentPurpose)
    (operation : DocumentOperation) : Call Unit := do
  let reply ← Program.ask (Op.require principal caseId purpose operation)
  Program.ofExcept reply

def verify (attestation : PrivacyAttestation) (principal : Principal) : Call Unit := do
  let reply ← Program.ask (Op.verify attestation principal)
  Program.ofExcept reply

def append (event : DocumentAuditEvent) : Call (Except DocumentErrorCode Unit) :=
  Program.ask (Op.append event)

def orRaise {α : Type} (code : DocumentErrorCode) : Option α → Call α
  | some a => pure a
  | none => Program.raise code

def refuseIf (condition : Prop) [Decidable condition] (code : DocumentErrorCode) : Call Unit :=
  if condition then Program.raise code else pure ()

/-- `json.dumps` of a record, and the validation of such a text. -/
structure Codec (α : Type) where
  canonical : α → Bytes
  parse : Bytes → Option α

/-- The spellings of the records, the digest, and the operator's size bound. -/
structure Service where
  sha256 : Bytes → Digest
  manifestBytes : PrivacyManifest → Bytes
  attestationBytes : PrivacyAttestation → Bytes
  allocations : Codec DocumentAllocation
  documents : Codec StoredDocument
  snapshots : Codec RunSourceSnapshot
  maxPdfBytes : ℕ := 20 * 1024 * 1024

structure Service.Spells (service : Service) : Prop where
  allocation : ∀ a, service.allocations.parse (service.allocations.canonical a) = some a
  snapshot : ∀ a, service.snapshots.parse (service.snapshots.canonical a) = some a
  written : ∀ stored, service.documents.canonical stored ≠ []

/-- ASCII whitespace, as `bytes.rstrip` takes it off. -/
def whitespace (b : UInt8) : Bool := b = 32 || (9 ≤ b && b ≤ 13)

def rstrip (content : Bytes) : Bytes := (content.reverse.dropWhile whitespace).reverse

/-- Starts with `%PDF-` and ends, up to whitespace, with `%%EOF`. -/
def framed (content : Bytes) : Bool :=
  [37, 80, 68, 70, 45].isPrefixOf content && [37, 37, 69, 79, 70].isSuffixOf (rstrip content)

section
variable (service : Service)

def operation {α : Type} (principal : Principal) (caseId : OpaqueID) (op : DocumentOperation)
    (documentId : Option UUID4) (runId : Option UUID) (body : Call α) : Call α := do
  let actor ← orRaise .invalid (opaqueUuid principal.actor.actorId)
  let case ← orRaise .invalid (opaqueUuid caseId.text)
  let outcome ← body.attempt
  let eventId ← uuid4
  let occurredAt ← now
  let recorded ← append {
    eventId := eventId, occurredAt := occurredAt, actorId := actor, caseId := case
    operation := op
    code := match outcome with
      | .ok _ => none
      | .error code => some code
    documentId := documentId, runId := runId }
  match recorded with
  | .error _ => Program.raise .unavailable
  | .ok () => Program.ofExcept outcome

def labels (principal : Principal) (caseId : OpaqueID) (content : Bytes) (purpose : LabelPurpose) :
    Call ObjectLabels := do
  let createdAt ← now
  let case ← orRaise .unavailable (opaqueUuid caseId.text)
  let uploader ← orRaise .unavailable (opaqueUuid principal.actor.actorId)
  if sized : 0 < content.length then
    pure {
      caseId := case, uploader := uploader, createdAt := createdAt
      contentHash := service.sha256 content, byteSize := content.length
      contentType := match purpose with
        | .document _ => .pdf
        | .snapshot | .catalog => .json
      purpose := purpose, sized := sized }
  else Program.raise .unavailable

def createOnce (key : ObjectKey) (content : Bytes) (labels : ObjectLabels) : Call String := do
  match ← create key content labels with
  | .ok version => pure version
  | .error code =>
    refuseIf (code ≠ .conflict) code
    let existing ← fetch key none (max content.length 1)
    refuseIf (existing.content ≠ content) .conflict
    pure existing.version

def keyOf (reference : DocumentReference) (kind : ObjectKind) : Option ObjectKey := do
  let scope ← opaqueUuid reference.documentId.text
  let identity ← opaqueUuid reference.version.text
  pure { kind := kind, scope := scope, identity := identity }

def resolve (principal : Principal) (reference : DocumentReference) (op : DocumentOperation) :
    Call StoredDocument := do
  let key ← orRaise .invalid (keyOf reference .documents)
  require principal reference.caseId reference.purpose op
  let found ← fetch key none catalogLimit
  let stored ← orRaise .unavailable (service.documents.parse found.content)
  refuseIf (stored.metadata.reference ≠ reference) .integrity
  pure stored

def readStored (stored : StoredDocument) : Call AuthorizedDocumentBytes := do
  let key ← orRaise .invalid (keyOf stored.metadata.reference .content)
  let found ← fetch key (some stored.storageVersion) service.maxPdfBytes
  refuseIf (found.version ≠ stored.storageVersion ∨
    found.content.length ≠ stored.metadata.byteSize ∨
    service.sha256 found.content ≠ stored.metadata.reference.contentHash) .integrity
  pure { metadata := stored.metadata, content := found.content }

def attestationDigest (attestation : PrivacyAttestation) : Digest :=
  service.sha256 (service.attestationBytes attestation)

def exportKey (attestation : PrivacyAttestation) : ObjectKey :=
  { kind := .exports, scope := attestation.claims.manifest.caseId
    identity := attestation.claims.exportId }

/-- `ingest`, up to its first write. -/
def admitExport (principal : Principal) (content : Bytes) (attestation : PrivacyAttestation) :
    Call Unit := do
  let claims := attestation.claims
  require principal claims.manifest.caseId.str claims.purpose .ingest
  verify attestation principal
  refuseIf (catalogLimit / 2 < (service.attestationBytes attestation).length) .tooLarge
  refuseIf (service.maxPdfBytes < content.length) .tooLarge
  refuseIf (content.length ≠ claims.manifest.byteSize ∨
    service.sha256 content ≠ claims.manifest.sanitizedDigest) .integrity
  refuseIf (framed content = false) .notPdf
  match claims.previous with
  | none => pure ()
  | some previous =>
    let _ ← resolve service principal previous .ingest
    pure ()

def documentIdFor (claims : ExportClaims) : Call UUID4 :=
  match claims.previous with
  | some previous => orRaise .invalid (opaqueUuid previous.documentId.text)
  | none => uuid4

/-- `ingest`: the identities of the export, drawn once and read back ever after. -/
def allocate (principal : Principal) (attestation : PrivacyAttestation) :
    Call DocumentAllocation := do
  let claims := attestation.claims
  let documentId ← documentIdFor claims
  let version ← uuid4
  let createdAt ← now
  let allocation : DocumentAllocation := {
    documentId := documentId, version := version
    attestationDigest := attestationDigest service attestation, createdAt := createdAt }
  let encoded := service.allocations.canonical allocation
  let labelled ← labels service principal claims.manifest.caseId.str encoded .catalog
  match ← create (exportKey attestation) encoded labelled with
  | .ok _ => pure allocation
  | .error code =>
    refuseIf (code ≠ .conflict) code
    let found ← fetch (exportKey attestation) none catalogLimit
    let existing ← orRaise .unavailable (service.allocations.parse found.content)
    refuseIf (existing.attestationDigest ≠ attestationDigest service attestation) .conflict
    pure existing

def referenceOf (content : Bytes) (attestation : PrivacyAttestation)
    (allocation : DocumentAllocation) : DocumentReference where
  caseId := attestation.claims.manifest.caseId.str
  documentId := allocation.documentId.str
  version := allocation.version.str
  contentHash := service.sha256 content
  purpose := attestation.claims.purpose

def metadataOf (principal : Principal) (content : Bytes) (attestation : PrivacyAttestation)
    (allocation : DocumentAllocation) : Option DocumentMetadata := do
  let uploadedBy ← opaqueUuid principal.actor.actorId
  let reference := referenceOf service content attestation allocation
  if bound : reference.caseId = attestation.claims.manifest.caseId.str ∧
      reference.contentHash = attestation.claims.manifest.sanitizedDigest ∧
      reference.purpose = attestation.claims.purpose ∧
      uploadedBy = attestation.claims.principalId ∧
      content.length = attestation.claims.manifest.byteSize then
    some ⟨reference, attestation, uploadedBy, allocation.createdAt, content.length, bound⟩
  else none

def StoredDocument.build (metadata : DocumentMetadata) (storageVersion : String) :
    Option StoredDocument :=
  if named : 1 ≤ storageVersion.length ∧ storageVersion.length ≤ 1024 then
    some ⟨metadata, storageVersion, named⟩
  else none

/-- `ingest`: the content and the record, at the identities of the allocation. -/
def fileDocument (principal : Principal) (content : Bytes) (attestation : PrivacyAttestation)
    (allocation : DocumentAllocation) : Call DocumentMetadata := do
  let caseId := attestation.claims.manifest.caseId.str
  let metadata ← orRaise .unavailable (metadataOf service principal content attestation allocation)
  let contentKey ← orRaise .invalid (keyOf metadata.reference .content)
  let contentLabels ← labels service principal caseId content
    (.document attestation.claims.purpose)
  let version ← createOnce contentKey content contentLabels
  let stored ← orRaise .unavailable (StoredDocument.build metadata version)
  let encoded := service.documents.canonical stored
  let recordKey ← orRaise .invalid (keyOf metadata.reference .documents)
  let recordLabels ← labels service principal caseId encoded .catalog
  let _ ← createOnce recordKey encoded recordLabels
  pure metadata

def ingest (principal : Principal) (content : Bytes) (attestation : PrivacyAttestation) :
    Call DocumentMetadata :=
  operation principal attestation.claims.manifest.caseId.str .ingest none none do
    admitExport service principal content attestation
    let allocation ← allocate service principal attestation
    fileDocument service principal content attestation allocation

def read (principal : Principal) (reference : DocumentReference) : Call AuthorizedDocumentBytes :=
  operation principal reference.caseId .read (opaqueUuid reference.documentId.text) none do
    let stored ← resolve service principal reference .read
    readStored service stored

def entryOf (reference : DocumentReference) (stored : StoredDocument) : SnapshotEntry :=
  let manifest := stored.metadata.attestation.claims.manifest
  { document := reference
    privacyManifestDigest := service.sha256 (service.manifestBytes manifest)
    storedDocumentDigest := service.sha256 (service.documents.canonical stored)
    pageCount := manifest.pages.length }

def pinEach (principal : Principal) : List DocumentReference → Call (List SnapshotEntry)
  | [] => pure []
  | reference :: rest => do
    let stored ← resolve service principal reference .snapshot
    let _ ← readStored service stored
    let entries ← pinEach principal rest
    pure (entryOf service reference stored :: entries)

def RunSourceSnapshot.build (runId : UUID4) (revision : RevisionReference) (createdAt : ℕ)
    (createdBy : UUID4) (documents : List SnapshotEntry) : Option RunSourceSnapshot :=
  if h : (1 ≤ documents.length ∧ documents.length ≤ 100) ∧
      (∀ entry ∈ documents, entry.document.caseId = revision.caseId) ∧
      (documents.map fun entry => entry.document.documentId).Nodup then
    some ⟨runId, revision, createdAt, createdBy, documents, h.1, h.2.1, h.2.2⟩
  else none

def runKey (run : RunReference) : Option UUID4 :=
  if h : run.runId.isV4 then some ⟨run.runId, h⟩ else none

def snapshotKey (caseId : OpaqueID) (runId : UUID4) : Option ObjectKey := do
  let scope ← opaqueUuid caseId.text
  pure { kind := .snapshots, scope := scope, identity := runId }

/-- Same run, material, documents and requester: the pinned moment may differ. -/
def RunSourceSnapshot.repeats (existing snapshot : RunSourceSnapshot) : Prop :=
  existing.runId = snapshot.runId ∧ existing.revision = snapshot.revision ∧
    existing.documents = snapshot.documents ∧ existing.createdBy = snapshot.createdBy

instance (existing snapshot : RunSourceSnapshot) : Decidable (existing.repeats snapshot) := by
  unfold RunSourceSnapshot.repeats
  infer_instance

def createSnapshot (principal : Principal) (run : RunReference) (revision : RevisionReference)
    (documents : List DocumentReference) : Call RunSourceSnapshot :=
  operation principal run.revision.caseId .snapshot none (some run.runId) do
    let _ ← orRaise .invalid (opaqueUuid run.revision.revisionId.text)
    refuseIf (run.revision ≠ revision) .conflict
    let runId ← orRaise .conflict (runKey run)
    let entries ← pinEach service principal (sortedDocuments documents)
    let createdAt ← now
    let createdBy ← orRaise .invalid (opaqueUuid principal.actor.actorId)
    let snapshot ← orRaise .unavailable
      (RunSourceSnapshot.build runId run.revision createdAt createdBy entries)
    let key ← orRaise .invalid (snapshotKey run.revision.caseId runId)
    let data := service.snapshots.canonical snapshot
    let labelled ← labels service principal run.revision.caseId data .snapshot
    match ← create key data labelled with
    | .ok _ => pure snapshot
    | .error code =>
      refuseIf (code ≠ .conflict) code
      let found ← fetch key none catalogLimit
      let existing ← orRaise .unavailable (service.snapshots.parse found.content)
      refuseIf (¬ existing.repeats snapshot) .conflict
      pure existing

def readSnapshot (principal : Principal) (run : RunReference) (reference : DocumentReference) :
    Call AuthorizedDocumentBytes :=
  operation principal run.revision.caseId .read none (some run.runId) do
    refuseIf (run.revision.caseId ≠ reference.caseId) .unauthorized
    require principal reference.caseId reference.purpose .read
    let runId ← orRaise .unavailable (runKey run)
    let key ← orRaise .invalid (snapshotKey reference.caseId runId)
    let found ← fetch key none catalogLimit
    let snapshot ← orRaise .unavailable (service.snapshots.parse found.content)
    refuseIf (snapshot.runId.val ≠ run.runId ∨ snapshot.revision ≠ run.revision) .conflict
    match snapshot.documents.filter (fun entry => entry.document = reference) with
    | [entry] =>
      let stored ← resolve service principal reference .read
      refuseIf (service.sha256 (service.documents.canonical stored) ≠ entry.storedDocumentDigest)
        .integrity
      readStored service stored
    | _ => Program.raise .unauthorized

end

inductive Request where
  | ingest (principal : Principal) (content : Bytes) (attestation : PrivacyAttestation)
  | read (principal : Principal) (reference : DocumentReference)
  | createSnapshot (principal : Principal) (run : RunReference) (revision : RevisionReference)
      (documents : List DocumentReference)
  | readSnapshot (principal : Principal) (run : RunReference) (reference : DocumentReference)

inductive Result where
  | metadata (metadata : DocumentMetadata)
  | bytes (bytes : AuthorizedDocumentBytes)
  | snapshot (snapshot : RunSourceSnapshot)

def Request.program (service : Service) : Request → Call Result
  | .ingest principal content attestation => do
    return .metadata (← DocumentTransfer.ingest service principal content attestation)
  | .read principal reference => do
    return .bytes (← DocumentTransfer.read service principal reference)
  | .createSnapshot principal run revision documents => do
    return .snapshot (← DocumentTransfer.createSnapshot service principal run revision documents)
  | .readSnapshot principal run reference => do
    return .bytes (← DocumentTransfer.readSnapshot service principal run reference)

abbrev Calls := Pool Op Reply DocumentErrorCode Result Storage Weather Request

def run (service : Service) (calls : Calls) (events : List (Event Weather Request)) : Calls :=
  calls.run serve (Request.program service) events

end DocumentTransfer
end AppraisalReview
