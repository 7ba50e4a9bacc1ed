import AppraisalReview.DocumentTransfer

set_option autoImplicit false

/-!
# What one transfer does

Stored objects never change, so what a call has read or created stays true for
every later call. Each call is followed operation by operation: what it adds to
the storage, what holds when it returns, and why it may have failed.
-/
namespace AppraisalReview.DocumentTransfer
open Interleaving

def Kept (s s' : Storage) : Prop :=
  ∀ key object, s.objects key = some object → s'.objects key = some object

theorem Kept.refl (s : Storage) : Kept s s := fun _ _ h => h

theorem Kept.trans {s₁ s₂ s₃ : Storage} (h : Kept s₁ s₂) (h' : Kept s₂ s₃) : Kept s₁ s₃ :=
  fun key object hfound => h' key object (h key object hfound)

theorem Kept.of_same {s s' : Storage} (h : s'.objects = s.objects) : Kept s s' := by
  intro key object hfound
  rwa [h]

theorem Kept.added {s s' : Storage} {key : ObjectKey} {object : StoredObject}
    (hfree : s.objects key = none)
    (h : s'.objects = Function.update s.objects key (some object)) : Kept s s' := by
  intro other found hfound
  have hne : other ≠ key := by
    rintro rfl
    rw [hfree] at hfound
    cases hfound
  rwa [h, Function.update_of_ne hne]

def Quiet : Op → Prop
  | .create .. => False
  | _ => True

theorem serve_quiet {op : Op} (h : Quiet op) (weather : Weather) (s : Storage) :
    (serve weather op s).2.objects = s.objects := by
  cases op with
  | create key content labels => exact h.elim
  | read key version limit => simp only [serve]; split <;> rfl
  | append event => simp only [serve]; split <;> rfl
  | require principal caseId purpose operation => rfl
  | verify attestation principal => rfl
  | now => rfl
  | uuid4 => rfl

theorem read_ok {s : Storage} {key : ObjectKey} {version : Option String} {limit : ℕ}
    {found : StoredBytes} (h : s.read key version limit = .ok found) :
    ∃ object, s.objects key = some object ∧ object.content = found.content ∧
      object.version = found.version := by
  unfold Storage.read at h
  split at h
  · cases h
  · next object hobject =>
    refine ⟨object, hobject, ?_⟩
    split at h
    · cases h
    · split at h
      · cases h
      · cases h
        exact ⟨rfl, rfl⟩

def Smooth (trace : List (Op × Weather)) : Prop := ∀ entry ∈ trace, entry.2.failure = none

def Attempted (attestation : PrivacyAttestation) (trace : List (Op × Weather)) : Prop :=
  ∃ content labels weather, (Op.create (exportKey attestation) content labels, weather) ∈ trace

section
variable (service : Service)

def Allocated (attestation : PrivacyAttestation) (a : DocumentAllocation) (s : Storage) : Prop :=
  ∃ object, s.objects (exportKey attestation) = some object ∧
    service.allocations.parse object.content = some a

def contentKey (a : DocumentAllocation) : ObjectKey :=
  { kind := .content, scope := a.documentId, identity := a.version }

def recordKey (a : DocumentAllocation) : ObjectKey :=
  { kind := .documents, scope := a.documentId, identity := a.version }

def exportObjects (attestation : PrivacyAttestation) (a : DocumentAllocation) : List ObjectKey :=
  [exportKey attestation, contentKey a, recordKey a]

def Describes (content : Bytes) (attestation : PrivacyAttestation) (a : DocumentAllocation)
    (metadata : DocumentMetadata) : Prop :=
  metadata.reference = referenceOf service content attestation a ∧
    metadata.attestation = attestation ∧ metadata.createdAt = a.createdAt

/-- The object under a key of the export is what an ingestion puts there. -/
def Placed (content : Bytes) (attestation : PrivacyAttestation) (a : DocumentAllocation)
    (key : ObjectKey) (object : StoredObject) (s : Storage) : Prop :=
  key = exportKey attestation ∨ key = contentKey a ∧ object.content = content ∨
    key = recordKey a ∧ ∃ (body : StoredObject) (stored : StoredDocument),
      s.objects (contentKey a) = some body ∧ Describes service content attestation a stored.metadata ∧
      stored.storageVersion = body.version ∧
      object.content = service.documents.canonical stored

/-- The export is complete: its allocation, its content and its record are stored. -/
def Filed (content : Bytes) (attestation : PrivacyAttestation) (metadata : DocumentMetadata)
    (s : Storage) : Prop :=
  ∃ a body record stored, Allocated service attestation a s ∧
    a.attestationDigest = attestationDigest service attestation ∧
    Describes service content attestation a metadata ∧
    s.objects (contentKey a) = some body ∧ body.content = content ∧
    s.objects (recordKey a) = some record ∧
    record.content = service.documents.canonical stored ∧
    stored.metadata = metadata ∧ stored.storageVersion = body.version

def Pinned (run : RunReference) (snapshot : RunSourceSnapshot) (s : Storage) : Prop :=
  ∃ runId key object, runKey run = some runId ∧
    snapshotKey run.revision.caseId runId = some key ∧ s.objects key = some object ∧
    service.snapshots.parse object.content = some snapshot

def Acts : Request → Storage → Storage → Prop
  | .ingest _ content attestation, s, s' => s'.objects = s.objects ∨
      ∃ key object a, s.objects key = none ∧
        s'.objects = Function.update s.objects key (some object) ∧
        Allocated service attestation a s' ∧
        a.attestationDigest = attestationDigest service attestation ∧
        Placed service content attestation a key object s'
  | .createSnapshot .., s, s' => s'.objects = s.objects ∨
      ∃ key object, key.kind = .snapshots ∧ s.objects key = none ∧
        s'.objects = Function.update s.objects key (some object)
  | _, s, s' => s'.objects = s.objects

inductive Halted (principal : Principal) (content : Bytes) (attestation : PrivacyAttestation)
    (a : DocumentAllocation) (s : Storage) : Prop where
  | unbound (h : metadataOf service principal content attestation a = none)
  | body (object : StoredObject) (stored : s.objects (contentKey a) = some object)
      (h : object.content ≠ content)
  | unnamed (object : StoredObject) (stored : s.objects (contentKey a) = some object)
      (h : ¬ (1 ≤ object.version.length ∧ object.version.length ≤ 1024))
  | record (body object : StoredObject) (document : StoredDocument)
      (found : s.objects (contentKey a) = some body)
      (named : document.storageVersion = body.version)
      (described : Describes service content attestation a document.metadata)
      (stored : s.objects (recordKey a) = some object)
      (h : object.content ≠ service.documents.canonical document)

inductive Excused (principal : Principal) (content : Bytes) (attestation : PrivacyAttestation)
    (trace : List (Op × Weather)) (code : DocumentErrorCode) (s : Storage) : Prop where
  | unattempted (h : ¬ Attempted attestation trace)
  | rough (h : ¬ Smooth trace)
  | taken (a : DocumentAllocation) (stored : Allocated service attestation a s)
      (other : a.attestationDigest ≠ attestationDigest service attestation)
      (conflict : code = .conflict)
  | halted (a : DocumentAllocation) (stored : Allocated service attestation a s)
      (own : a.attestationDigest = attestationDigest service attestation)
      (h : Halted service principal content attestation a s)
  | unreadable (object : StoredObject) (stored : s.objects (exportKey attestation) = some object)
      (h : catalogLimit < object.content.length ∨
        service.allocations.parse object.content = none)

/-- The bytes are those of the record and the record is the one the entry pins. -/
def Pins (entry : SnapshotEntry) (bytes : AuthorizedDocumentBytes) : Prop :=
  service.sha256 bytes.content = entry.document.contentHash ∧
    bytes.metadata.reference = entry.document ∧
    ∃ stored : StoredDocument, stored.metadata = bytes.metadata ∧
      service.sha256 (service.documents.canonical stored) = entry.storedDocumentDigest

def Ends : Request → List (Op × Weather) → Except DocumentErrorCode Result → Storage → Prop
  | .ingest _ content attestation, _, .ok result, s =>
    ∃ metadata, result = .metadata metadata ∧ Filed service content attestation metadata s
  | .ingest principal content attestation, trace, .error code, s =>
    Excused service principal content attestation trace code s
  | .createSnapshot _ run _ _, _, .ok result, s =>
    ∃ snapshot, result = .snapshot snapshot ∧ Pinned service run snapshot s
  | .readSnapshot _ run reference, _, .ok result, s =>
    ∃ bytes snapshot entry, result = .bytes bytes ∧ Pinned service run snapshot s ∧
      entry ∈ snapshot.documents ∧ entry.document = reference ∧ Pins service entry bytes
  | _, _, _, _ => True

end

variable {service : Service}

theorem Allocated.kept {attestation : PrivacyAttestation} {a : DocumentAllocation}
    {s s' : Storage} (h : Allocated service attestation a s) (hkept : Kept s s') :
    Allocated service attestation a s' := by
  obtain ⟨object, hfound, hparse⟩ := h
  exact ⟨object, hkept _ _ hfound, hparse⟩

theorem Allocated.unique {attestation : PrivacyAttestation} {a b : DocumentAllocation}
    {s : Storage} (ha : Allocated service attestation a s)
    (hb : Allocated service attestation b s) : a = b := by
  obtain ⟨object, hfound, hparse⟩ := ha
  obtain ⟨other, hother, hparse'⟩ := hb
  obtain rfl := Option.some.inj (hfound.symm.trans hother)
  exact Option.some.inj (hparse.symm.trans hparse')

theorem Filed.kept {content : Bytes} {attestation : PrivacyAttestation}
    {metadata : DocumentMetadata} {s s' : Storage}
    (h : Filed service content attestation metadata s) (hkept : Kept s s') :
    Filed service content attestation metadata s' := by
  obtain ⟨a, body, record, stored, halloc, hdigest, hdescribes, hbody, hcontent, hrecord,
    hrest⟩ := h
  exact ⟨a, body, record, stored, halloc.kept hkept, hdigest, hdescribes, hkept _ _ hbody,
    hcontent, hkept _ _ hrecord, hrest⟩

theorem Placed.kept {content : Bytes} {attestation : PrivacyAttestation}
    {a : DocumentAllocation} {key : ObjectKey} {object : StoredObject} {s s' : Storage}
    (h : Placed service content attestation a key object s) (hkept : Kept s s') :
    Placed service content attestation a key object s' := by
  obtain h | h | ⟨hkey, body, stored, hbody, hrest⟩ := h
  · exact .inl h
  · exact .inr (.inl h)
  · exact .inr (.inr ⟨hkey, body, stored, hkept _ _ hbody, hrest⟩)

theorem Placed.mem {content : Bytes} {attestation : PrivacyAttestation}
    {a : DocumentAllocation} {key : ObjectKey} {object : StoredObject} {s : Storage}
    (h : Placed service content attestation a key object s) :
    key ∈ exportObjects attestation a := by
  obtain rfl | ⟨rfl, -⟩ | ⟨rfl, -⟩ := h <;> simp [exportObjects]

theorem Pinned.kept {run : RunReference} {snapshot : RunSourceSnapshot} {s s' : Storage}
    (h : Pinned service run snapshot s) (hkept : Kept s s') : Pinned service run snapshot s' := by
  obtain ⟨runId, key, object, hrun, hkey, hfound, hparse⟩ := h
  exact ⟨runId, key, object, hrun, hkey, hkept _ _ hfound, hparse⟩

theorem Halted.kept {principal : Principal} {content : Bytes} {attestation : PrivacyAttestation}
    {a : DocumentAllocation} {s s' : Storage}
    (h : Halted service principal content attestation a s) (hkept : Kept s s') :
    Halted service principal content attestation a s' := by
  cases h with
  | unbound h => exact .unbound h
  | body object stored h => exact .body object (hkept _ _ stored) h
  | unnamed object stored h => exact .unnamed object (hkept _ _ stored) h
  | record body object document hbody named described stored h =>
    exact .record body object document (hkept _ _ hbody) named described (hkept _ _ stored) h

theorem Excused.kept {principal : Principal} {content : Bytes} {attestation : PrivacyAttestation}
    {trace : List (Op × Weather)} {code : DocumentErrorCode} {s s' : Storage}
    (h : Excused service principal content attestation trace code s) (hkept : Kept s s') :
    Excused service principal content attestation trace code s' := by
  cases h with
  | unattempted h => exact .unattempted h
  | rough h => exact .rough h
  | taken a stored other conflict => exact .taken a (stored.kept hkept) other conflict
  | halted a stored own h => exact .halted a (stored.kept hkept) own (h.kept hkept)
  | unreadable object stored h => exact .unreadable object (hkept _ _ stored) h

theorem Pinned.unique {run other : RunReference} {x y : RunSourceSnapshot} {s : Storage}
    (hx : Pinned service run x s) (hy : Pinned service other y s)
    (hrun : run.runId = other.runId) (hcase : run.revision.caseId = other.revision.caseId) :
    x = y := by
  obtain ⟨runId, key, object, hrunId, hkey, hfound, hparse⟩ := hx
  obtain ⟨runId', key', object', hrunId', hkey', hfound', hparse'⟩ := hy
  have hid : runKey run = runKey other := by simp only [runKey, hrun]
  obtain rfl := Option.some.inj (hrunId.symm.trans (hid.trans hrunId'))
  rw [hcase] at hkey
  obtain rfl := Option.some.inj (hkey.symm.trans hkey')
  obtain rfl := Option.some.inj (hfound.symm.trans hfound')
  exact Option.some.inj (hparse.symm.trans hparse')

theorem Acts.same {request : Request} {s s' : Storage} (h : s'.objects = s.objects) :
    Acts service request s s' := by
  cases request with
  | ingest principal content attestation => exact .inl h
  | createSnapshot principal run revision documents => exact .inl h
  | read principal reference => exact h
  | readSnapshot principal run reference => exact h

theorem Acts.kept {request : Request} {s s' : Storage} (h : Acts service request s s') :
    Kept s s' := by
  cases request with
  | ingest principal content attestation =>
    obtain hsame | ⟨key, object, a, hfree, hadded, -⟩ := h
    · exact .of_same hsame
    · exact .added hfree hadded
  | createSnapshot principal run revision documents =>
    obtain hsame | ⟨key, object, -, hfree, hadded⟩ := h
    · exact .of_same hsame
    · exact .added hfree hadded
  | read principal reference => exact .of_same h
  | readSnapshot principal run reference => exact .of_same h

section
variable {α β : Type} {acts : Storage → Storage → Prop}

theorem orRaise_only (code : DocumentErrorCode) (value : Option α) :
    (orRaise code value).Only Quiet := by
  cases value <;> trivial

theorem refuseIf_only (condition : Prop) [Decidable condition] (code : DocumentErrorCode) :
    (refuseIf condition code).Only Quiet := by
  unfold refuseIf
  split <;> trivial

theorem asked_only (op : Op) (h : Quiet op) {f : Reply op → Call α}
    (hf : ∀ reply, (f reply).Only Quiet) : (Program.ask op >>= f : Call α).Only Quiet :=
  ⟨h, hf⟩

theorem fetch_only (key : ObjectKey) (version : Option String) (limit : ℕ) :
    (fetch key version limit).Only Quiet :=
  asked_only (.read key version limit) trivial fun _ => trivial

theorem require_only (principal : Principal) (caseId : OpaqueID) (purpose : DocumentPurpose)
    (op : DocumentOperation) : (require principal caseId purpose op).Only Quiet :=
  asked_only (.require principal caseId purpose op) trivial fun _ => trivial

theorem labels_only (principal : Principal) (caseId : OpaqueID) (content : Bytes)
    (purpose : LabelPurpose) : (labels service principal caseId content purpose).Only Quiet := by
  refine asked_only .now trivial fun createdAt => ?_
  refine (orRaise_only _ _).bind fun case => (orRaise_only _ _).bind fun uploader => ?_
  split <;> trivial

theorem resolve_only (principal : Principal) (reference : DocumentReference)
    (op : DocumentOperation) : (resolve service principal reference op).Only Quiet := by
  refine (orRaise_only _ _).bind fun key => (require_only _ _ _ _).bind fun _ => ?_
  refine (fetch_only _ _ _).bind fun found => (orRaise_only _ _).bind fun stored => ?_
  exact (refuseIf_only _ _).bind fun _ => trivial

theorem readStored_only (stored : StoredDocument) : (readStored service stored).Only Quiet := by
  refine (orRaise_only _ _).bind fun key => (fetch_only _ _ _).bind fun found => ?_
  exact (refuseIf_only _ _).bind fun _ => trivial

theorem pinEach_only (principal : Principal) (documents : List DocumentReference) :
    (pinEach service principal documents).Only Quiet := by
  induction documents with
  | nil => trivial
  | cons reference rest ih =>
    refine (resolve_only _ _ _).bind fun stored => (readStored_only _).bind fun _ => ?_
    exact ih.bind fun _ => trivial

theorem admitExport_only (principal : Principal) (content : Bytes)
    (attestation : PrivacyAttestation) :
    (admitExport service principal content attestation).Only Quiet := by
  refine (require_only _ _ _ _).bind fun _ => ?_
  refine Program.Only.bind (asked_only (.verify _ _) trivial fun _ => trivial) fun _ => ?_
  refine (refuseIf_only _ _).bind fun _ => (refuseIf_only _ _).bind fun _ => ?_
  refine (refuseIf_only _ _).bind fun _ => (refuseIf_only _ _).bind fun _ => ?_
  split
  · trivial
  · exact (resolve_only _ _ _).bind fun _ => trivial

theorem refuse_bind {ends : List (Op × Weather) → Except DocumentErrorCode β → Storage → Prop}
    {condition : Prop} [Decidable condition] {code : DocumentErrorCode} {f : Unit → Call β}
    {trace : List (Op × Weather)} {s : Storage}
    (hfail : condition → ends trace (.error code) s)
    (hnext : ¬ condition → (f ()).Ensures serve Kept acts ends trace s) :
    (refuseIf condition code >>= f).Ensures serve Kept acts ends trace s := by
  unfold refuseIf
  by_cases h : condition
  · rw [if_pos h]
    exact hfail h
  · rw [if_neg h]
    exact hnext h

theorem orRaise_bind {ends : List (Op × Weather) → Except DocumentErrorCode β → Storage → Prop}
    {value : Option α} {code : DocumentErrorCode} {f : α → Call β}
    {trace : List (Op × Weather)} {s : Storage}
    (hfail : value = none → ends trace (.error code) s)
    (hnext : ∀ a, value = some a → (f a).Ensures serve Kept acts ends trace s) :
    (orRaise code value >>= f).Ensures serve Kept acts ends trace s := by
  cases value with
  | none => exact hfail rfl
  | some a => exact hnext a rfl

variable (hsame : ∀ s s' : Storage, s'.objects = s.objects → acts s s')
include hsame

theorem quiet_ensures {p : Call α} (h : p.Only Quiet) (trace : List (Op × Weather)) (s : Storage) :
    p.Ensures serve Kept acts (fun trace' _ s' => Kept s s' ∧
      ∃ more, trace' = trace ++ more ∧ ∀ entry ∈ more, Quiet entry.1) trace s :=
  Program.Ensures.of_only Kept.refl Kept.trans
    (fun weather _ s hquiet => hsame s _ (serve_quiet hquiet weather s))
    (fun weather _ s hquiet => .of_same (serve_quiet hquiet weather s)) h trace s

theorem quiet_bind {ends : List (Op × Weather) → Except DocumentErrorCode β → Storage → Prop}
    {p : Call α} {f : α → Call β} {trace : List (Op × Weather)} {s : Storage}
    (h : p.Only Quiet)
    (hnext : ∀ a more s', Kept s s' → (∀ entry ∈ more, Quiet entry.1) →
      (f a).Ensures serve Kept acts ends (trace ++ more) s')
    (hfail : ∀ code more s', Kept s s' → (∀ entry ∈ more, Quiet entry.1) →
      ends (trace ++ more) (.error code) s') :
    (p >>= f).Ensures serve Kept acts ends trace s := by
  refine Program.Ensures.bind ((quiet_ensures hsame h trace s).mono ?_)
  rintro trace' outcome s' ⟨hkept, more, rfl, hmore⟩
  cases outcome with
  | ok a => exact hnext a more s' hkept hmore
  | error code => exact hfail code more s' hkept hmore

theorem fetch_ensures (key : ObjectKey) (version : Option String) (limit : ℕ)
    (trace : List (Op × Weather)) (s : Storage) :
    (fetch key version limit).Ensures serve Kept acts (fun trace' outcome s' => Kept s s' ∧
      (∀ found, outcome = .ok found → ∃ object, s'.objects key = some object ∧
        object.content = found.content ∧ object.version = found.version) ∧
      ∃ weather, trace' = trace ++ [(.read key version limit, weather)] ∧
        (weather.failure = none → outcome = s'.read key version limit)) trace s := by
  intro s' hs weather
  have hstill : (serve weather (.read key version limit) s').2.objects = s'.objects :=
    serve_quiet (show Quiet (.read key version limit) from trivial) weather s'
  refine ⟨hsame _ _ hstill, hs.trans (.of_same hstill), ?_, weather, rfl, fun hfine => ?_⟩
  · intro found hfound
    rw [hstill]
    cases hfailure : weather.failure with
    | some code =>
      simp only [serve, hfailure] at hfound
      cases hfound
    | none =>
      simp only [serve, hfailure] at hfound
      exact read_ok hfound
  · simp only [serve, hfine]

theorem create_ensures {key : ObjectKey} {s : Storage}
    {content : Bytes} {labels : ObjectLabels}
    (hadd : ∀ s' version, Kept s s' → s'.objects key = none → acts s' { s' with
      objects := Function.update s'.objects key (some ⟨content, version, labels⟩) })
    (trace : List (Op × Weather)) :
    (create key content labels).Ensures serve Kept acts (fun trace' outcome s' => Kept s s' ∧
      ∃ weather reply, trace' = trace ++ [(.create key content labels, weather)] ∧
        outcome = .ok reply ∧ match reply with
          | .ok version => s'.objects key = some ⟨content, version, labels⟩
          | .error _ => weather.failure = none →
            reply = .error .conflict ∧ ∃ object, s'.objects key = some object) trace s := by
  intro s' hs weather
  cases hfailure : weather.failure with
  | some code =>
    simp only [serve, hfailure]
    refine ⟨hsame _ _ rfl, hs, weather, .error code, rfl, rfl, fun hfine => ?_⟩
    rw [hfailure] at hfine
    cases hfine
  | none =>
    simp only [serve, hfailure, Storage.create]
    cases hfound : s'.objects key with
    | some object =>
      exact ⟨hsame _ _ rfl, hs, weather, .error .conflict, rfl, rfl, fun _ => ⟨rfl, object, hfound⟩⟩
    | none =>
      refine ⟨hadd s' _ hs hfound, hs.trans (.added hfound rfl), weather, .ok weather.version, rfl,
        rfl, ?_⟩
      exact Function.update_self ..

end

section
variable {attestation : PrivacyAttestation} {trace : List (Op × Weather)}

theorem Smooth.left {more : List (Op × Weather)} (h : Smooth (trace ++ more)) : Smooth trace :=
  fun entry hentry => h entry (List.mem_append_left _ hentry)

theorem unattempted_quiet {more : List (Op × Weather)} (h : ¬ Attempted attestation trace)
    (hmore : ∀ entry ∈ more, Quiet entry.1) : ¬ Attempted attestation (trace ++ more) := by
  rintro ⟨content, labels, weather, hmem⟩
  obtain hmem | hmem := List.mem_append.mp hmem
  · exact h ⟨content, labels, weather, hmem⟩
  · exact hmore _ hmem

/-- What has excused a call still does after further operations without a create. -/
theorem Excused.later {principal : Principal} {content : Bytes} {code : DocumentErrorCode}
    {s : Storage} (h : Excused service principal content attestation trace code s)
    {more : List (Op × Weather)} (hmore : ∀ entry ∈ more, Quiet entry.1) :
    Excused service principal content attestation (trace ++ more) code s := by
  cases h with
  | unattempted h => exact .unattempted (unattempted_quiet h hmore)
  | rough h => exact .rough fun hsmooth => h hsmooth.left
  | taken a stored other conflict => exact .taken a stored other conflict
  | halted a stored own h => exact .halted a stored own h
  | unreadable object stored h => exact .unreadable object stored h

theorem read_found {s : Storage} {key : ObjectKey} {object : StoredObject}
    (h : s.objects key = some object) (limit : ℕ) :
    s.read key none limit = if limit < object.content.length then .error .tooLarge
      else .ok ⟨object.content, object.version⟩ := by
  simp [Storage.read, h]

end

section
variable {acts : Storage → Storage → Prop}

theorem createOnce_ensures (hsame : ∀ s s' : Storage, s'.objects = s.objects → acts s s')
    {key : ObjectKey} {s : Storage} {content : Bytes} {labels : ObjectLabels}
    (hadd : ∀ s' version, Kept s s' → s'.objects key = none → acts s' { s' with
      objects := Function.update s'.objects key (some ⟨content, version, labels⟩) })
    (trace : List (Op × Weather)) :
    (createOnce key content labels).Ensures serve Kept acts (fun trace' outcome s' =>
      Kept s s' ∧ match outcome with
        | .ok version => ∃ object, s'.objects key = some object ∧ object.content = content ∧
          object.version = version
        | .error _ => ¬ Smooth trace' ∨
          ∃ object, s'.objects key = some object ∧ object.content ≠ content) trace s := by
  refine Program.Ensures.bind ((create_ensures hsame hadd trace).mono ?_)
  rintro trace' outcome s' ⟨hkept, weather, reply, rfl, rfl, hreply⟩
  cases reply with
  | ok version => exact ⟨hkept, _, hreply, rfl, rfl⟩
  | error code =>
    refine refuse_bind (fun hcode => ⟨hkept, .inl fun hsmooth => ?_⟩) fun _ => ?_
    · have hconflict := (hreply (hsmooth _ (List.mem_append_right _ (List.mem_singleton_self _)))).1
      exact hcode (Except.error.inj hconflict)
    · refine Program.Ensures.bind ((fetch_ensures hsame key none _ _ s').mono ?_)
      rintro trace₂ outcome s₂ ⟨h₂, hfound, weather₂, rfl, hread⟩
      have hkept₂ := hkept.trans h₂
      cases outcome with
      | ok existing =>
        obtain ⟨object, hobject, hcontent, hversion⟩ := hfound existing rfl
        refine refuse_bind (fun hother => ⟨hkept₂, .inr ⟨object, hobject, ?_⟩⟩) fun hown => ?_
        · rw [hcontent]
          exact hother
        · exact ⟨hkept₂, object, hobject, hcontent.trans (not_not.mp hown), hversion⟩
      | error code' =>
        refine ⟨hkept₂, ?_⟩
        by_cases hfine : weather.failure = none ∧ weather₂.failure = none
        · obtain ⟨-, object, hobject⟩ := hreply hfine.1
          have hobject₂ := h₂ _ _ hobject
          have hlong := hread hfine.2
          rw [read_found hobject₂] at hlong
          split at hlong
          · next hlimit =>
            refine .inr ⟨object, hobject₂, ?_⟩
            rintro rfl
            omega
          · cases hlong
        · refine .inl fun hsmooth => hfine ⟨?_, ?_⟩
          · exact hsmooth.left _ (List.mem_append_right _ (List.mem_singleton_self _))
          · exact hsmooth _ (List.mem_append_right _ (List.mem_singleton_self _))

end

section
variable {principal : Principal} {content : Bytes} {attestation : PrivacyAttestation}
variable {trace : List (Op × Weather)}

theorem fresh_bind {α β : Type} {acts : Storage → Storage → Prop}
    (hsame : ∀ s s' : Storage, s'.objects = s.objects → acts s s')
    {ends : List (Op × Weather) → Except DocumentErrorCode β → Storage → Prop}
    {p : Call α} {f : α → Call β} {s : Storage}
    (hfresh : ¬ Attempted attestation trace) (h : p.Only Quiet)
    (hnext : ∀ a trace' s', Kept s s' → ¬ Attempted attestation trace' →
      (f a).Ensures serve Kept acts ends trace' s')
    (hfail : ∀ code trace' s', Kept s s' → ¬ Attempted attestation trace' →
      ends trace' (.error code) s') :
    (p >>= f).Ensures serve Kept acts ends trace s :=
  quiet_bind hsame h
    (fun a _ s' hkept hmore => hnext a _ s' hkept (unattempted_quiet hfresh hmore))
    fun code _ s' hkept hmore => hfail code _ s' hkept (unattempted_quiet hfresh hmore)

theorem Acts.added {s : Storage} {a : DocumentAllocation} {key : ObjectKey} {object : StoredObject}
    (hfree : s.objects key = none)
    (hdigest : a.attestationDigest = attestationDigest service attestation)
    (h : Allocated service attestation a
      { s with objects := Function.update s.objects key (some object) })
    (hplaced : Placed service content attestation a key object
      { s with objects := Function.update s.objects key (some object) }) :
    Acts service (.ingest principal content attestation) s
      { s with objects := Function.update s.objects key (some object) } :=
  .inr ⟨key, object, a, hfree, rfl, h, hdigest, hplaced⟩

theorem reallocate_ensures {s : Storage} {weather : Weather} {code : DocumentErrorCode} {op : Op}
    (hrefused : weather.failure = none →
      code = .conflict ∧ ∃ object, s.objects (exportKey attestation) = some object) :
    (do
      refuseIf (code ≠ .conflict) code
      let found ← fetch (exportKey attestation) none catalogLimit
      let existing ← orRaise .unavailable (service.allocations.parse found.content)
      refuseIf (existing.attestationDigest ≠ attestationDigest service attestation) .conflict
      pure existing : Call DocumentAllocation).Ensures serve Kept
        (Acts service (.ingest principal content attestation)) (fun trace' outcome s' =>
          Kept s s' ∧ match outcome with
            | .ok a => Allocated service attestation a s' ∧
              a.attestationDigest = attestationDigest service attestation
            | .error code => Excused service principal content attestation trace' code s')
        (trace ++ [(op, weather)]) s := by
  refine refuse_bind (fun hcode => ⟨.refl s, .rough fun hsmooth => ?_⟩) fun _ => ?_
  · exact hcode (hrefused (hsmooth (op, weather) (by simp))).1
  · refine Program.Ensures.bind ((fetch_ensures (fun _ _ h => .same h) _ _ _ _ s).mono ?_)
    rintro trace' outcome s' ⟨hkept, hok, weather', rfl, hread⟩
    by_cases hsmooth : Smooth (trace ++ [(op, weather)] ++
      [(.read (exportKey attestation) none catalogLimit, weather')])
    · obtain ⟨-, object, hobject⟩ := hrefused (hsmooth (op, weather) (by simp))
      have hfine := hsmooth (.read (exportKey attestation) none catalogLimit, weather') (by simp)
      have hobject' := hkept _ _ hobject
      rw [hread hfine, read_found hobject']
      by_cases hlong : catalogLimit < object.content.length
      · rw [if_pos hlong]
        exact ⟨hkept, .unreadable object hobject' (.inl hlong)⟩
      · rw [if_neg hlong]
        refine orRaise_bind (fun hparse => ?_) fun existing hparse => ?_
        · exact ⟨hkept, .unreadable object hobject' (.inr hparse)⟩
        · have hstored : Allocated service attestation existing s' := ⟨object, hobject', hparse⟩
          refine refuse_bind (fun hother => ⟨hkept, .taken existing hstored hother rfl⟩) fun hown => ?_
          exact ⟨hkept, hstored, not_not.mp hown⟩
    · cases outcome with
      | error code' => exact ⟨hkept, .rough hsmooth⟩
      | ok found =>
        obtain ⟨object, hobject, hcontent, -⟩ := hok found rfl
        refine orRaise_bind (fun _ => ⟨hkept, .rough hsmooth⟩) fun existing hparse => ?_
        refine refuse_bind (fun _ => ⟨hkept, .rough hsmooth⟩) fun hdigest => ?_
        exact ⟨hkept, ⟨object, hobject, hcontent ▸ hparse⟩, not_not.mp hdigest⟩

theorem allocate_ensures (hspells : service.Spells) (hfresh : ¬ Attempted attestation trace)
    (s : Storage) :
    (allocate service principal attestation).Ensures serve Kept
      (Acts service (.ingest principal content attestation)) (fun trace' outcome s' =>
        Kept s s' ∧ match outcome with
          | .ok a => Allocated service attestation a s' ∧
            a.attestationDigest = attestationDigest service attestation
          | .error code => Excused service principal content attestation trace' code s') trace s := by
  have hsame : ∀ s s' : Storage, s'.objects = s.objects →
      Acts service (.ingest principal content attestation) s s' := fun _ _ h => .same h
  dsimp only [allocate]
  refine fresh_bind hsame hfresh ?_ (fun documentId trace₁ s₁ h₁ hfresh₁ => ?_)
    fun _ _ _ hkept hfresh => ⟨hkept, .unattempted hfresh⟩
  · unfold documentIdFor
    split
    · exact orRaise_only _ _
    · exact asked_only .uuid4 trivial fun _ => trivial
  refine fresh_bind hsame hfresh₁ (asked_only .uuid4 trivial fun _ => trivial)
    (fun version trace₂ s₂ h₂ hfresh₂ => ?_)
    fun _ _ _ hkept hfresh => ⟨h₁.trans hkept, .unattempted hfresh⟩
  refine fresh_bind hsame hfresh₂ (asked_only .now trivial fun _ => trivial)
    (fun createdAt trace₃ s₃ h₃ hfresh₃ => ?_)
    fun _ _ _ hkept hfresh => ⟨h₁.trans (h₂.trans hkept), .unattempted hfresh⟩
  have hkept₃ := h₁.trans (h₂.trans h₃)
  refine fresh_bind hsame hfresh₃ (labels_only _ _ _ _)
    (fun labelled trace₄ s₄ h₄ hfresh₄ => ?_)
    fun _ _ _ hkept hfresh => ⟨hkept₃.trans hkept, .unattempted hfresh⟩
  have hkept₄ := hkept₃.trans h₄
  let allocation : DocumentAllocation := {
    documentId := documentId, version := version
    attestationDigest := attestationDigest service attestation, createdAt := createdAt }
  refine Program.Ensures.bind ((create_ensures hsame (fun s' version hs' hfree => ?_) _).mono ?_)
  · refine .added (a := allocation) hfree rfl ?_ (.inl rfl)
    exact ⟨_, Function.update_self .., hspells.allocation allocation⟩
  · rintro trace₅ outcome s₅ ⟨h₅, weather, reply, rfl, rfl, hreply⟩
    cases reply with
    | ok _ =>
      exact ⟨hkept₄.trans h₅, ⟨_, hreply, hspells.allocation allocation⟩, rfl⟩
    | error code =>
      refine (reallocate_ensures fun hfine => ?_).mono fun _ _ _ h => ⟨hkept₄.trans (h₅.trans h.1), h.2⟩
      obtain ⟨hcode, hobject⟩ := hreply hfine
      exact ⟨Except.error.inj hcode, hobject⟩

end

theorem asked_ensures {α : Type} {acts : Storage → Storage → Prop}
    {ends : List (Op × Weather) → Except DocumentErrorCode α → Storage → Prop}
    (hsame : ∀ s s' : Storage, s'.objects = s.objects → acts s s') (op : Op) (h : Quiet op)
    {f : Reply op → Call α} {trace : List (Op × Weather)} {s : Storage}
    (hnext : ∀ s' weather, Kept s (serve weather op s').2 →
      (f (serve weather op s').1).Ensures serve Kept acts ends (trace ++ [(op, weather)])
        (serve weather op s').2) :
    (Program.ask op >>= f : Call α).Ensures serve Kept acts ends trace s := by
  intro s' hs weather
  have hstill := serve_quiet h weather s'
  exact ⟨hsame _ _ hstill, hnext s' weather (hs.trans (.of_same hstill))⟩

theorem metadataOf_ok {principal : Principal} {content : Bytes} {attestation : PrivacyAttestation}
    {a : DocumentAllocation} {metadata : DocumentMetadata}
    (h : metadataOf service principal content attestation a = some metadata) :
    Describes service content attestation a metadata ∧
      (∃ actor, opaqueUuid principal.actor.actorId = some actor) ∧ content ≠ [] := by
  unfold metadataOf at h
  obtain ⟨uploadedBy, hactor, h⟩ := Option.bind_eq_some_iff.mp h
  dsimp only at h
  split at h
  · next hbound =>
    obtain rfl := Option.some.inj h
    refine ⟨⟨rfl, rfl, rfl⟩, ⟨uploadedBy, hactor⟩, ?_⟩
    rintro rfl
    have hsized := attestation.claims.manifest.sized
    rw [← hbound.2.2.2.2] at hsized
    cases hsized
  · cases h

theorem labels_ensures {acts : Storage → Storage → Prop}
    (hsame : ∀ s s' : Storage, s'.objects = s.objects → acts s s') {principal : Principal}
    (hactor : ∃ actor, opaqueUuid principal.actor.actorId = some actor) (case : UUID4)
    {content : Bytes} (hcontent : content ≠ []) (purpose : LabelPurpose)
    (trace : List (Op × Weather)) (s : Storage) :
    (labels service principal case.str content purpose).Ensures serve Kept acts
      (fun _ outcome s' => Kept s s' ∧ ∃ labels, outcome = .ok labels) trace s := by
  obtain ⟨actor, hactor⟩ := hactor
  unfold labels
  rw [opaqueUuid_str, hactor]
  refine asked_ensures hsame .now trivial fun s₁ weather h₁ => ?_
  rw [orRaise, orRaise, Program.pure_bind, Program.pure_bind,
    dif_pos (List.length_pos_iff.mpr hcontent)]
  exact ⟨h₁, _, rfl⟩

theorem keyOf_allocated {content : Bytes} {attestation : PrivacyAttestation}
    {a : DocumentAllocation} {reference : DocumentReference}
    (h : reference = referenceOf service content attestation a) (kind : ObjectKind) :
    keyOf reference kind = some { kind := kind, scope := a.documentId, identity := a.version } := by
  subst h
  simp [keyOf, referenceOf, opaqueUuid_str]

theorem StoredDocument.build_ok {metadata : DocumentMetadata} {version : String}
    {stored : StoredDocument} (h : StoredDocument.build metadata version = some stored) :
    stored.metadata = metadata ∧ stored.storageVersion = version := by
  unfold StoredDocument.build at h
  split at h
  · cases h
    exact ⟨rfl, rfl⟩
  · cases h

theorem StoredDocument.build_none {metadata : DocumentMetadata} {version : String}
    (h : StoredDocument.build metadata version = none) :
    ¬ (1 ≤ version.length ∧ version.length ≤ 1024) := by
  unfold StoredDocument.build at h
  split at h
  · cases h
  · assumption

section
variable {principal : Principal} {content : Bytes} {attestation : PrivacyAttestation}
variable {a : DocumentAllocation} {trace : List (Op × Weather)}

/-- The content or the record, created once at the identities of the allocation. -/
theorem createOwn_ensures {s : Storage} (hstored : Allocated service attestation a s)
    (hdigest : a.attestationDigest = attestationDigest service attestation) {key : ObjectKey}
    {data : Bytes} {labels : ObjectLabels}
    (hplaced : ∀ s' version, Kept s s' →
      Placed service content attestation a key ⟨data, version, labels⟩ s') :
    (createOnce key data labels).Ensures serve Kept
      (Acts service (.ingest principal content attestation)) (fun trace' outcome s' =>
        Kept s s' ∧ match outcome with
          | .ok version => ∃ object, s'.objects key = some object ∧ object.content = data ∧
            object.version = version
          | .error _ => ¬ Smooth trace' ∨
            ∃ object, s'.objects key = some object ∧ object.content ≠ data) trace s := by
  refine createOnce_ensures (fun _ _ h => .same h) (fun s' version hs' hfree => ?_) trace
  have hadded : Kept s { s' with
      objects := Function.update s'.objects key (some ⟨data, version, labels⟩) } :=
    hs'.trans (.added hfree rfl)
  exact .added hfree hdigest (hstored.kept hadded) (hplaced _ version hadded)

theorem fileDocument_ensures (hspells : service.Spells) {s : Storage}
    (hstored : Allocated service attestation a s)
    (hdigest : a.attestationDigest = attestationDigest service attestation) :
    (fileDocument service principal content attestation a).Ensures serve Kept
      (Acts service (.ingest principal content attestation)) (fun trace' outcome s' =>
        Kept s s' ∧ match outcome with
          | .ok metadata => Filed service content attestation metadata s'
          | .error _ => ¬ Smooth trace' ∨
            Halted service principal content attestation a s') trace s := by
  have hsame : ∀ s s' : Storage, s'.objects = s.objects →
      Acts service (.ingest principal content attestation) s s' := fun _ _ h => .same h
  dsimp only [fileDocument]
  refine orRaise_bind (fun hnone => ⟨.refl s, .inr (.unbound hnone)⟩) fun metadata hmetadata => ?_
  obtain ⟨hdescribes, hactor, hcontent⟩ := metadataOf_ok hmetadata
  rw [keyOf_allocated hdescribes.1 .content, keyOf_allocated hdescribes.1 .documents]
  rw [orRaise, Program.pure_bind]
  refine Program.Ensures.bind ((labels_ensures hsame hactor _ hcontent _ trace s).mono ?_)
  rintro trace₁ _ s₁ ⟨h₁, contentLabels, rfl⟩
  refine Program.Ensures.bind ((createOwn_ensures (hstored.kept h₁) hdigest
    fun s' version _ => .inr (.inl ⟨rfl, rfl⟩)).mono ?_)
  rintro trace₂ outcome s₂ ⟨h₂, hcreated⟩
  have hkept₂ := h₁.trans h₂
  cases outcome with
  | error code =>
    refine ⟨hkept₂, hcreated.imp_right ?_⟩
    rintro ⟨object, hobject, hother⟩
    exact .body object hobject hother
  | ok version =>
    obtain ⟨body, hbody, hsamebytes, rfl⟩ := hcreated
    refine orRaise_bind (fun hnone => ?_) fun stored hbuild => ?_
    · exact ⟨hkept₂, .inr (.unnamed body hbody (StoredDocument.build_none hnone))⟩
    obtain ⟨rfl, hversion⟩ := StoredDocument.build_ok hbuild
    rw [orRaise, Program.pure_bind]
    refine Program.Ensures.bind
      ((labels_ensures hsame hactor _ (hspells.written stored) _ trace₂ s₂).mono ?_)
    rintro trace₃ _ s₃ ⟨h₃, recordLabels, rfl⟩
    have hkept₃ := hkept₂.trans h₃
    refine Program.Ensures.bind ((createOwn_ensures (hstored.kept hkept₃) hdigest
      fun s' version hs' => .inr (.inr ⟨rfl, body, stored, hs' _ _ (h₃ _ _ hbody), hdescribes,
        hversion, rfl⟩)).mono ?_)
    rintro trace₄ outcome s₄ ⟨h₄, hcreated⟩
    have hkept₄ := hkept₃.trans h₄
    have hbody₄ := h₄ _ _ (h₃ _ _ hbody)
    cases outcome with
    | error code =>
      refine ⟨hkept₄, hcreated.imp_right ?_⟩
      rintro ⟨object, hobject, hother⟩
      exact .record body object stored hbody₄ hversion hdescribes hobject hother
    | ok version' =>
      obtain ⟨record, hrecord, hencoded, -⟩ := hcreated
      exact ⟨hkept₄, a, body, record, stored, hstored.kept hkept₄, hdigest, hdescribes, hbody₄,
        hsamebytes, hrecord, hencoded, rfl, hversion⟩

end

section
variable {α : Type} {acts : Storage → Storage → Prop}

theorem append_ensures (hsame : ∀ s s' : Storage, s'.objects = s.objects → acts s s')
    (event : DocumentAuditEvent) (trace : List (Op × Weather)) (s : Storage) :
    (append event).Ensures serve Kept acts (fun trace' outcome s' => Kept s s' ∧
      ∃ weather reply, trace' = trace ++ [(.append event, weather)] ∧ outcome = .ok reply ∧
        ∀ code, reply = .error code → weather.failure ≠ none) trace s := by
  intro s' hs weather
  have hstill : (serve weather (.append event) s').2.objects = s'.objects :=
    serve_quiet (show Quiet (.append event) from trivial) weather s'
  refine ⟨hsame _ _ hstill, hs.trans (.of_same hstill), weather, _, rfl, rfl, fun code h => ?_⟩
  intro hfine
  simp only [serve, hfine] at h
  cases h

theorem operation_ensures {ends : List (Op × Weather) → Except DocumentErrorCode α → Storage → Prop}
    {trace : List (Op × Weather)} {s : Storage}
    (hsame : ∀ s s' : Storage, s'.objects = s.objects → acts s s')
    (hinvalid : ends trace (.error .invalid) s)
    (hlost : ∀ trace' s', ¬ Smooth trace' → ends trace' (.error .unavailable) s')
    (hends : ∀ trace' more outcome s' s'', ends trace' outcome s' → Kept s' s'' →
      (∀ entry ∈ more, Quiet entry.1) → ends (trace' ++ more) outcome s'')
    (principal : Principal) (caseId : OpaqueID) (op : DocumentOperation)
    (documentId : Option UUID4) (runId : Option UUID) {body : Call α}
    (hbody : body.Ensures serve Kept acts ends trace s) :
    (operation principal caseId op documentId runId body).Ensures serve Kept acts ends
      trace s := by
  unfold operation
  refine orRaise_bind (fun _ => hinvalid) fun actor _ => ?_
  refine orRaise_bind (fun _ => hinvalid) fun case _ => ?_
  refine Program.Ensures.bind (Program.Ensures.attempt (hbody.mono fun trace₁ outcome s₁ h => ?_))
  refine asked_ensures hsame .uuid4 trivial fun s₂ weather₂ h₂ => ?_
  refine asked_ensures hsame .now trivial fun s₃ weather₃ h₃ => ?_
  refine Program.Ensures.bind ((append_ensures hsame _ _ _).mono ?_)
  rintro _ recorded s₄ ⟨h₄, weather₄, reply, rfl, rfl, hreply⟩
  cases reply with
  | error code =>
    exact hlost _ _ fun hsmooth =>
      hreply code rfl (hsmooth _ (List.mem_append_right _ (List.mem_singleton_self _)))
  | ok _ =>
    rw [List.append_assoc, List.append_assoc]
    exact hends _ _ outcome s₁ s₄ h (h₂.trans (h₃.trans h₄)) (by simp [Quiet])

end

section
variable {principal : Principal} {content : Bytes} {attestation : PrivacyAttestation}

theorem ingest_ensures (hspells : service.Spells) (s : Storage) :
    (ingest service principal content attestation).Ensures serve Kept
      (Acts service (.ingest principal content attestation)) (fun trace' outcome s' =>
        match outcome with
        | .ok metadata => Filed service content attestation metadata s'
        | .error code => Excused service principal content attestation trace' code s') [] s := by
  have hsame : ∀ s s' : Storage, s'.objects = s.objects →
      Acts service (.ingest principal content attestation) s s' := fun _ _ h => .same h
  have hfresh : ¬ Attempted attestation [] := fun ⟨_, _, _, hmem⟩ => List.not_mem_nil hmem
  refine operation_ensures hsame (.unattempted hfresh) (fun _ _ => .rough) ?_
    principal _ .ingest none none ?_
  · intro trace more outcome s₁ s₂ h hkept hmore
    cases outcome with
    | ok metadata => exact Filed.kept h hkept
    | error code => exact (Excused.later h hmore).kept hkept
  · refine fresh_bind hsame hfresh (admitExport_only _ _ _) (fun _ trace₁ s₁ h₁ hfresh₁ => ?_)
      fun _ _ _ _ hfresh => .unattempted hfresh
    refine Program.Ensures.bind ((allocate_ensures hspells hfresh₁ s₁).mono ?_)
    rintro trace₂ outcome s₂ ⟨-, h₂⟩
    cases outcome with
    | error code => exact h₂
    | ok a =>
      refine (fileDocument_ensures hspells h₂.1 h₂.2).mono fun trace₃ outcome s₃ h₃ => ?_
      cases outcome with
      | ok metadata => exact h₃.2
      | error code =>
        obtain ⟨hkept, hrough | hhalted⟩ := h₃
        · exact .rough hrough
        · exact .halted a (h₂.1.kept hkept) h₂.2 hhalted

end

section
variable {principal : Principal} {trace : List (Op × Weather)}

theorem resolve_ensures {acts : Storage → Storage → Prop}
    (hsame : ∀ s s' : Storage, s'.objects = s.objects → acts s s') (reference : DocumentReference)
    (op : DocumentOperation) (s : Storage) :
    (resolve service principal reference op).Ensures serve Kept acts (fun _ outcome s' =>
      Kept s s' ∧ match outcome with
        | .ok stored => stored.metadata.reference = reference
        | .error _ => True) trace s := by
  dsimp only [resolve]
  refine orRaise_bind (fun _ => ⟨.refl s, trivial⟩) fun key _ => ?_
  refine quiet_bind hsame (require_only _ _ _ _) (fun _ _ s₁ h₁ _ => ?_)
    fun _ _ s₁ h₁ _ => ⟨h₁, trivial⟩
  refine quiet_bind hsame (fetch_only _ _ _) (fun found _ s₂ h₂ _ => ?_)
    fun _ _ s₂ h₂ _ => ⟨h₁.trans h₂, trivial⟩
  refine orRaise_bind (fun _ => ⟨h₁.trans h₂, trivial⟩) fun stored _ => ?_
  refine refuse_bind (fun _ => ⟨h₁.trans h₂, trivial⟩) fun hsame => ?_
  exact ⟨h₁.trans h₂, not_not.mp hsame⟩

theorem readStored_ensures {acts : Storage → Storage → Prop}
    (hsame : ∀ s s' : Storage, s'.objects = s.objects → acts s s') (stored : StoredDocument)
    (s : Storage) :
    (readStored service stored).Ensures serve Kept acts (fun _ outcome s' =>
      Kept s s' ∧ match outcome with
        | .ok bytes => bytes.metadata = stored.metadata ∧
          service.sha256 bytes.content = stored.metadata.reference.contentHash
        | .error _ => True) trace s := by
  dsimp only [readStored]
  refine orRaise_bind (fun _ => ⟨.refl s, trivial⟩) fun key _ => ?_
  refine quiet_bind hsame (fetch_only _ _ _) (fun found _ s₁ h₁ _ => ?_)
    fun _ _ s₁ h₁ _ => ⟨h₁, trivial⟩
  refine refuse_bind (fun _ => ⟨h₁, trivial⟩) fun hsame => ?_
  push Not at hsame
  exact ⟨h₁, rfl, hsame.2.2⟩

end

section
variable {principal : Principal} {run : RunReference}

theorem snapshotKey_kind {caseId : OpaqueID} {runId : UUID4} {key : ObjectKey}
    (h : snapshotKey caseId runId = some key) : key.kind = .snapshots := by
  obtain ⟨scope, -, h⟩ := Option.bind_eq_some_iff.mp h
  obtain rfl := Option.some.inj h
  rfl

theorem createSnapshot_ensures (hspells : service.Spells) (revision : RevisionReference)
    (documents : List DocumentReference) (s : Storage) :
    (createSnapshot service principal run revision documents).Ensures serve Kept
      (Acts service (.createSnapshot principal run revision documents)) (fun _ outcome s' =>
        match outcome with
        | .ok snapshot => Pinned service run snapshot s'
        | .error _ => True) [] s := by
  have hsame : ∀ s s' : Storage, s'.objects = s.objects →
      Acts service (.createSnapshot principal run revision documents) s s' := fun _ _ h => .same h
  refine operation_ensures hsame trivial (fun _ _ _ => trivial) ?_ principal _ .snapshot none _ ?_
  · intro trace more outcome s₁ s₂ h hkept _
    cases outcome with
    | ok snapshot => exact Pinned.kept h hkept
    | error code => trivial
  refine orRaise_bind (fun _ => trivial) fun _ _ => ?_
  refine refuse_bind (fun _ => trivial) fun _ => ?_
  refine orRaise_bind (fun _ => trivial) fun runId hrun => ?_
  refine quiet_bind hsame (pinEach_only _ _) (fun entries _ s₁ _ _ => ?_) fun _ _ _ _ _ => trivial
  refine asked_ensures hsame .now trivial fun s₂ weather _ => ?_
  refine orRaise_bind (fun _ => trivial) fun createdBy _ => ?_
  refine orRaise_bind (fun _ => trivial) fun snapshot _ => ?_
  refine orRaise_bind (fun _ => trivial) fun key hkey => ?_
  refine quiet_bind hsame (labels_only _ _ _ _) (fun labelled _ s₃ _ _ => ?_)
    fun _ _ _ _ _ => trivial
  refine Program.Ensures.bind ((create_ensures hsame
    (fun s' version _ hfree => .inr ⟨key, _, snapshotKey_kind hkey, hfree, rfl⟩) _).mono ?_)
  rintro trace₄ outcome s₄ ⟨-, _, reply, -, rfl, hreply⟩
  cases reply with
  | ok version => exact ⟨runId, key, _, hrun, hkey, hreply, hspells.snapshot snapshot⟩
  | error code =>
    refine refuse_bind (fun _ => trivial) fun _ => ?_
    refine Program.Ensures.bind ((fetch_ensures hsame key none _ _ s₄).mono ?_)
    rintro trace₅ outcome s₅ ⟨-, hfound, -⟩
    cases outcome with
    | error code => trivial
    | ok found =>
      obtain ⟨object, hobject, hcontent, -⟩ := hfound found rfl
      refine orRaise_bind (fun _ => trivial) fun existing hparse => ?_
      refine refuse_bind (fun _ => trivial) fun _ => ?_
      exact ⟨runId, key, object, hrun, hkey, hobject, hcontent ▸ hparse⟩

theorem readSnapshot_ensures (reference : DocumentReference) (s : Storage) :
    (readSnapshot service principal run reference).Ensures serve Kept
      (Acts service (.readSnapshot principal run reference)) (fun _ outcome s' =>
        match outcome with
        | .ok bytes => ∃ snapshot entry, Pinned service run snapshot s' ∧
          entry ∈ snapshot.documents ∧ entry.document = reference ∧ Pins service entry bytes
        | .error _ => True) [] s := by
  have hsame : ∀ s s' : Storage, s'.objects = s.objects →
      Acts service (.readSnapshot principal run reference) s s' := fun _ _ h => .same h
  refine operation_ensures hsame trivial (fun _ _ _ => trivial) ?_ principal _ .read none _ ?_
  · intro trace more outcome s₁ s₂ h hkept _
    cases outcome with
    | ok bytes =>
      obtain ⟨snapshot, entry, hpinned, hrest⟩ := h
      exact ⟨snapshot, entry, hpinned.kept hkept, hrest⟩
    | error code => trivial
  refine refuse_bind (fun _ => trivial) fun hcase => ?_
  refine quiet_bind hsame (require_only _ _ _ _) (fun _ _ s₁ _ _ => ?_) fun _ _ _ _ _ => trivial
  refine orRaise_bind (fun _ => trivial) fun runId hrun => ?_
  refine orRaise_bind (fun _ => trivial) fun key hkey => ?_
  rw [← not_not.mp hcase] at hkey
  refine Program.Ensures.bind ((fetch_ensures hsame key none _ _ s₁).mono ?_)
  rintro trace₂ outcome s₂ ⟨-, hfound, -⟩
  cases outcome with
  | error code => trivial
  | ok found =>
    obtain ⟨object, hobject, hcontent, -⟩ := hfound found rfl
    refine orRaise_bind (fun _ => trivial) fun snapshot hparse => ?_
    refine refuse_bind (fun _ => trivial) fun _ => ?_
    have hpinned : Pinned service run snapshot s₂ :=
      ⟨runId, key, object, hrun, hkey, hobject, hcontent ▸ hparse⟩
    split
    · next entry hentry =>
      have hmem : entry ∈ snapshot.documents.filter fun entry => entry.document = reference := by
        rw [hentry]
        exact List.mem_singleton_self entry
      obtain ⟨hin, hdocument⟩ := List.mem_filter.mp hmem
      refine Program.Ensures.bind ((resolve_ensures hsame reference .read s₂).mono ?_)
      rintro trace₃ outcome s₃ ⟨h₃, hstored⟩
      cases outcome with
      | error code => trivial
      | ok stored =>
        refine refuse_bind (fun _ => trivial) fun hdigest => ?_
        refine (readStored_ensures hsame stored s₃).mono fun trace₄ outcome s₄ h₄ => ?_
        cases outcome with
        | error code => trivial
        | ok bytes =>
          obtain ⟨hkept, hmetadata, hsha⟩ := h₄
          have hentry : entry.document = reference := of_decide_eq_true hdocument
          refine ⟨snapshot, entry, hpinned.kept (h₃.trans hkept), hin, hentry, ?_, ?_, stored,
            hmetadata.symm, not_not.mp hdigest⟩
          · rw [hsha, hstored, hentry]
          · rw [hmetadata, hstored, hentry]
    · trivial

theorem read_ensures (reference : DocumentReference) (s : Storage) :
    (read service principal reference).Ensures serve Kept
      (Acts service (.read principal reference)) (fun _ _ _ => True) [] s := by
  have hsame : ∀ s s' : Storage, s'.objects = s.objects →
      Acts service (.read principal reference) s s' := fun _ _ h => .same h
  refine operation_ensures hsame trivial (fun _ _ _ => trivial) (fun _ _ _ _ _ _ _ _ => trivial)
    principal _ .read _ none ?_
  refine (quiet_ensures hsame ?_ [] s).mono fun _ _ _ _ => trivial
  exact (resolve_only _ _ _).bind fun stored => readStored_only stored

end

theorem program_ensures (hspells : service.Spells) (request : Request) (s : Storage) :
    (request.program service).Ensures serve Kept (Acts service request) (Ends service request)
      [] s := by
  cases request with
  | ingest principal content attestation =>
    refine Program.Ensures.bind ((ingest_ensures hspells s).mono fun trace outcome s' h => ?_)
    cases outcome with
    | ok metadata => exact ⟨metadata, rfl, h⟩
    | error code => exact h
  | read principal reference =>
    refine Program.Ensures.bind ((read_ensures reference s).mono fun trace outcome s' h => ?_)
    cases outcome <;> trivial
  | createSnapshot principal run revision documents =>
    refine Program.Ensures.bind ((createSnapshot_ensures hspells revision documents s).mono
      fun trace outcome s' h => ?_)
    cases outcome with
    | ok snapshot => exact ⟨snapshot, rfl, h⟩
    | error code => trivial
  | readSnapshot principal run reference =>
    refine Program.Ensures.bind ((readSnapshot_ensures reference s).mono fun trace outcome s' h => ?_)
    cases outcome with
    | ok bytes =>
      obtain ⟨snapshot, entry, hrest⟩ := h
      exact ⟨bytes, snapshot, entry, rfl, hrest⟩
    | error code => trivial

end AppraisalReview.DocumentTransfer
