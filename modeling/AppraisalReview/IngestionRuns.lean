import AppraisalReview.TransferLaws
import Mathlib.Data.List.Induction

set_option autoImplicit false

/-!
# Ingestion across crashes

Calls for one export meet at its allocation, the content and the record are
created at the identities it names, and a run has one snapshot, whatever the
interleaving and wherever calls stop.
-/
namespace AppraisalReview.DocumentTransfer
open Interleaving

def Returned (t : Calls) (request : Request) (result : Result) : Prop :=
  ∃ p ∈ t.processes, p.request = request ∧ p.rest = .done (.ok result)

variable {service : Service}

section
variable (service : Service)

def OnlyThis (content : Bytes) (attestation : PrivacyAttestation)
    (events : List (Event Weather Request)) : Prop :=
  ∀ principal content' attestation', .start (.ingest principal content' attestation') ∈ events →
    content' = content ∧ attestation' = attestation

def Bound (principal : Principal) (content : Bytes) (attestation : PrivacyAttestation) : Prop :=
  opaqueUuid principal.actor.actorId = some attestation.claims.principalId ∧
    service.sha256 content = attestation.claims.manifest.sanitizedDigest ∧
    content.length = attestation.claims.manifest.byteSize

/-- What holds after any events, from any storage. -/
structure Converges (storage : Storage) (events : List (Event Weather Request)) : Prop where
  /-- All calls that return give one metadata. -/
  sameMetadata : ∀ {attestation principal principal' content content' metadata metadata'},
    let t := run service { store := storage } events
    Returned t (.ingest principal content attestation) (.metadata metadata) →
    Returned t (.ingest principal' content' attestation) (.metadata metadata') →
      metadata = metadata'
  /-- Then the three objects of the export are there. -/
  filed : ∀ {attestation principal content result},
    let t := run service { store := storage } events
    Returned t (.ingest principal content attestation) result →
      ∃ metadata, result = .metadata metadata ∧
        Filed service content attestation metadata t.store
  /-- Nothing else is ever created for it, and nothing at all under another attestation. -/
  created : ∀ {before i weather after p principal content attestation key},
    events = before ++ .act i weather :: after →
    let s := run service { store := storage } before
    s.processes[i]? = some p → p.request = .ingest principal content attestation →
    s.store.objects key = none →
    (s.step serve (Request.program service) (.act i weather)).store.objects key ≠ none →
      ∃ a, Allocated service attestation a (run service { store := storage } events).store ∧
        a.attestationDigest = attestationDigest service attestation ∧
        key ∈ exportObjects attestation a
  /-- A call with another attestation than the allocated one does not return: once it has
  tried to allocate, it raises the conflict. -/
  conflict : ∀ {p principal content attestation object a},
    let t := run service { store := storage } events
    p ∈ t.processes → p.request = .ingest principal content attestation →
    t.store.objects (exportKey attestation) = some object →
    service.allocations.parse object.content = some a →
    a.attestationDigest ≠ attestationDigest service attestation →
      (∀ result, p.rest ≠ .done (.ok result)) ∧
        (Attempted attestation p.trace → Smooth p.trace → object.content.length ≤ catalogLimit →
          ∀ code, p.rest = .done (.error code) → code = .conflict)
  /-- No retry is stopped by what earlier calls for the export left behind. -/
  retried : ∀ {p principal content attestation outcome},
    let t := run service { store := storage } events
    (∀ key, storage.objects key = none) → OnlyThis content attestation events →
    p ∈ t.processes → p.request = .ingest principal content attestation →
    Bound service principal content attestation →
    (∀ key object, t.store.objects key = some object →
      1 ≤ object.version.length ∧ object.version.length ≤ 1024) →
    (∀ object, t.store.objects (exportKey attestation) = some object →
      object.content.length ≤ catalogLimit) →
    Attempted attestation p.trace → Smooth p.trace → p.rest = .done outcome →
      ∃ metadata, outcome = .ok (.metadata metadata)
  /-- A run has one snapshot, whoever returns it. -/
  pinned : ∀ {principal run' revision documents result},
    let t := run service { store := storage } events
    Returned t (.createSnapshot principal run' revision documents) result →
      ∃ snapshot, result = .snapshot snapshot ∧ Pinned service run' snapshot t.store ∧
        ∀ {other run'' revision' documents' snapshot'},
          Returned t (.createSnapshot other run'' revision' documents') (.snapshot snapshot') →
          run'.runId = run''.runId → run'.revision.caseId = run''.revision.caseId →
            snapshot = snapshot'
  /-- Only pinned bytes are read through it. -/
  readPinned : ∀ {principal run' reference result},
    let t := run service { store := storage } events
    Returned t (.readSnapshot principal run' reference) result →
      ∃ bytes snapshot entry, result = .bytes bytes ∧ Pinned service run' snapshot t.store ∧
        entry ∈ snapshot.documents ∧ entry.document = reference ∧ Pins service entry bytes

end

theorem DocumentMetadata.settled {m n : DocumentMetadata} (hreference : m.reference = n.reference)
    (hattestation : m.attestation = n.attestation) (hcreated : m.createdAt = n.createdAt) :
    m = n := by
  have huploaded : m.uploadedBy = n.uploadedBy := by
    rw [m.bound.2.2.2.1, n.bound.2.2.2.1, hattestation]
  have hsize : m.byteSize = n.byteSize := by
    rw [m.bound.2.2.2.2, n.bound.2.2.2.2, hattestation]
  cases m
  cases n
  simp only [DocumentMetadata.mk.injEq]
  exact ⟨hreference, hattestation, huploaded, hcreated, hsize⟩

theorem Filed.unique {attestation : PrivacyAttestation} {content content' : Bytes}
    {metadata metadata' : DocumentMetadata} {s : Storage}
    (h : Filed service content attestation metadata s)
    (h' : Filed service content' attestation metadata' s) : metadata = metadata' := by
  obtain ⟨a, _, _, _, ha, -, ⟨hreference, hattestation, hcreated⟩, -⟩ := h
  obtain ⟨a', _, _, _, ha', -, ⟨hreference', hattestation', hcreated'⟩, -⟩ := h'
  obtain rfl := ha.unique ha'
  have hhash : service.sha256 content = service.sha256 content' := by
    have hleft := metadata.bound.2.1
    have hright := metadata'.bound.2.1
    rw [hreference, hattestation] at hleft
    rw [hreference', hattestation'] at hright
    exact hleft.trans hright.symm
  refine DocumentMetadata.settled ?_ (hattestation.trans hattestation'.symm)
    (hcreated.trans hcreated'.symm)
  rw [hreference, hreference', referenceOf, referenceOf, hhash]

section
variable (service : Service) (content : Bytes) (attestation : PrivacyAttestation)

structure Proper (s : Storage) : Prop where
  allocated : ∀ object, s.objects (exportKey attestation) = some object →
    ∃ a, service.allocations.parse object.content = some a ∧
      a.attestationDigest = attestationDigest service attestation
  placed : ∀ key object, s.objects key = some object →
    key.kind = .content ∨ key.kind = .documents →
      ∃ a, Allocated service attestation a s ∧
        Placed service content attestation a key object s

end

section
variable {content : Bytes} {attestation : PrivacyAttestation}

theorem Proper.empty {s : Storage} (h : ∀ key, s.objects key = none) :
    Proper service content attestation s where
  allocated object hobject := by
    rw [h] at hobject
    cases hobject
  placed key object hobject := by
    rw [h] at hobject
    cases hobject

theorem Proper.kept {s s' : Storage} (h : Proper service content attestation s)
    (hkept : Kept s s') {key : ObjectKey} {object : StoredObject}
    (hobject : s.objects key = some object)
    (hkind : key.kind = .content ∨ key.kind = .documents) :
    ∃ a, Allocated service attestation a s' ∧
      Placed service content attestation a key object s' := by
  obtain ⟨a, hstored, hplaced⟩ := h.placed key object hobject hkind
  exact ⟨a, hstored.kept hkept, hplaced.kept hkept⟩

theorem Proper.same {s s' : Storage} (h : Proper service content attestation s)
    (hsame : s'.objects = s.objects) : Proper service content attestation s' where
  allocated object hobject := h.allocated object (hsame ▸ hobject)
  placed _ _ hobject hkind := h.kept (.of_same hsame) (hsame ▸ hobject) hkind

theorem Proper.acts {s s' : Storage} (h : Proper service content attestation s)
    {request : Request} (hacts : Acts service request s s')
    (honly : ∀ principal content' attestation', request = .ingest principal content' attestation' →
      content' = content ∧ attestation' = attestation) :
    Proper service content attestation s' := by
  have hkept := hacts.kept
  cases request with
  | read principal reference => exact h.same hacts
  | readSnapshot principal run reference => exact h.same hacts
  | createSnapshot principal run revision documents =>
    obtain hsame | ⟨key, object, hkind, hfree, hadded⟩ := hacts
    · exact h.same hsame
    · have hold : ∀ other found, other.kind ≠ .snapshots → s'.objects other = some found →
          s.objects other = some found := by
        intro other found hother hfound
        have hne : other ≠ key := by
          rintro rfl
          exact hother hkind
        rwa [hadded, Function.update_of_ne hne] at hfound
      refine ⟨fun found hfound => h.allocated found (hold _ _ (by simp [exportKey]) hfound), ?_⟩
      intro other found hfound hother
      refine h.kept hkept (hold other found ?_ hfound) hother
      obtain hother | hother := hother <;> simp [hother]
  | ingest principal content' attestation' =>
    obtain ⟨rfl, rfl⟩ := honly _ _ _ rfl
    obtain hsame | ⟨key, object, a, hfree, hadded, hstored, hdigest, hplaced⟩ := hacts
    · exact h.same hsame
    · constructor
      · intro found hfound
        obtain ⟨allocation, hallocation, hparse⟩ := hstored
        obtain rfl := Option.some.inj (hfound.symm.trans hallocation)
        exact ⟨a, hparse, hdigest⟩
      · intro other found hfound hother
        by_cases heq : other = key
        · subst heq
          rw [hadded, Function.update_self] at hfound
          obtain rfl := Option.some.inj hfound
          exact ⟨a, hstored, hplaced⟩
        · rw [hadded, Function.update_of_ne heq] at hfound
          exact h.kept hkept hfound hother

theorem Proper.not_halted {s : Storage} (h : Proper service content attestation s)
    {principal : Principal} (hbound : Bound service principal content attestation)
    {a : DocumentAllocation} (hstored : Allocated service attestation a s)
    (hnamed : ∀ key object, s.objects key = some object →
      1 ≤ object.version.length ∧ object.version.length ≤ 1024) :
    ¬ Halted service principal content attestation a s := by
  have hown : ∀ {key object}, s.objects key = some object →
      key.kind = .content ∨ key.kind = .documents →
      Placed service content attestation a key object s := by
    intro key object hobject hkind
    obtain ⟨b, hb, hplaced⟩ := h.placed key object hobject hkind
    rwa [hb.unique hstored] at hplaced
  intro hhalted
  cases hhalted with
  | unbound hnone =>
    obtain ⟨hactor, hhash, hsize⟩ := hbound
    simp [metadataOf, referenceOf, hactor, hhash, hsize] at hnone
  | body object hobject hother =>
    obtain hkey | ⟨-, hsame⟩ | ⟨hkey, -⟩ := hown hobject (.inl rfl)
    · simp [contentKey, exportKey] at hkey
    · exact hother hsame
    · simp [contentKey, recordKey] at hkey
  | unnamed object hobject hother => exact hother (hnamed _ _ hobject)
  | record body object document hbody hversion hdescribes hobject hother =>
    obtain hkey | ⟨hkey, -⟩ | ⟨-, body', stored, hbody', hdescribed, hversion', hencoded⟩ :=
      hown hobject (.inr rfl)
    · simp [recordKey, exportKey] at hkey
    · simp [contentKey, recordKey] at hkey
    · obtain rfl := Option.some.inj (hbody.symm.trans hbody')
      have hmetadata : stored.metadata = document.metadata :=
        DocumentMetadata.settled (hdescribed.1.trans hdescribes.1.symm)
          (hdescribed.2.1.trans hdescribes.2.1.symm) (hdescribed.2.2.trans hdescribes.2.2.symm)
      have hstored : stored = document := by
        cases stored
        cases document
        simp only [StoredDocument.mk.injEq]
        exact ⟨hmetadata, hversion'.trans hversion.symm⟩
      exact hother (hstored ▸ hencoded)

end

section
variable (hspells : service.Spells) (storage : Storage) (events : List (Event Weather Request))
include hspells

theorem run_ends {request : Request} {outcome : Except DocumentErrorCode Result}
    {p : Process Op Reply DocumentErrorCode Result Weather Request}
    (hp : p ∈ (run service { store := storage } events).processes)
    (hdone : p.rest = .done outcome) (hrequest : p.request = request) :
    ∃ seen, Kept seen (run service { store := storage } events).store ∧
      Ends service request p.trace outcome seen := by
  subst hrequest
  have hsound := (Pool.run_sound Kept.refl Kept.trans (fun _ _ _ => Acts.kept)
    (program_ensures hspells) (s := { store := storage }) (fun _ h => absurd h List.not_mem_nil)
    events).1
  exact hsound.ended hp hdone

theorem returned_filed {attestation : PrivacyAttestation} {principal : Principal} {content : Bytes}
    {result : Result} (h : Returned (run service { store := storage } events)
      (.ingest principal content attestation) result) :
    ∃ metadata, result = .metadata metadata ∧ Filed service content attestation metadata
      (run service { store := storage } events).store := by
  obtain ⟨p, hp, hrequest, hdone⟩ := h
  obtain ⟨seen, hseen, metadata, rfl, hfiled⟩ := run_ends hspells storage events hp hdone hrequest
  exact ⟨metadata, rfl, hfiled.kept hseen⟩

theorem returned_pinned {run' : RunReference} {principal : Principal}
    {revision : RevisionReference} {documents : List DocumentReference} {result : Result}
    (h : Returned (run service { store := storage } events)
      (.createSnapshot principal run' revision documents) result) :
    ∃ snapshot, result = .snapshot snapshot ∧ Pinned service run' snapshot
      (run service { store := storage } events).store := by
  obtain ⟨p, hp, hrequest, hdone⟩ := h
  obtain ⟨seen, hseen, snapshot, rfl, hpinned⟩ := run_ends hspells storage events hp hdone hrequest
  exact ⟨snapshot, rfl, hpinned.kept hseen⟩

/-- Every operation of a run moves the storage as its call may, and nothing is lost after it. -/
theorem run_acts {before after : List (Event Weather Request)} {i : ℕ} {weather : Weather}
    (hevents : events = before ++ .act i weather :: after)
    {p : Process Op Reply DocumentErrorCode Result Weather Request}
    (hp : (run service { store := storage } before).processes[i]? = some p) :
    let s := run service { store := storage } before
    let s' := s.step serve (Request.program service) (.act i weather)
    (s'.store = s.store ∨ Acts service p.request s.store s'.store) ∧
      Kept s'.store (run service { store := storage } events).store := by
  intro s s'
  have hsound := (Pool.run_sound Kept.refl Kept.trans (fun _ _ _ => Acts.kept)
    (program_ensures hspells) (s := { store := storage }) (fun _ h => absurd h List.not_mem_nil)
    before).1
  obtain ⟨hsound', hmove⟩ := Pool.step_sound Kept.refl Kept.trans (fun _ _ _ => Acts.kept)
    (program_ensures hspells) hsound (.act i weather)
  have hrest := (Pool.run_sound Kept.refl Kept.trans (fun _ _ _ => Acts.kept)
    (program_ensures hspells) hsound' after).2
  constructor
  · obtain hstill | ⟨j, _, q, hevent, hq, hacts⟩ := hmove
    · exact .inl hstill
    · cases hevent
      obtain rfl := Option.some.inj (hp.symm.trans hq)
      exact .inr hacts
  · rw [hevents, run, Pool.run_append]
    exact hrest

omit hspells in
theorem run_requests {content : Bytes} {attestation : PrivacyAttestation}
    (honly : OnlyThis content attestation events)
    {p : Process Op Reply DocumentErrorCode Result Weather Request}
    (hp : p ∈ (run service { store := storage } events).processes)
    {principal : Principal} {content' : Bytes} {attestation' : PrivacyAttestation}
    (hrequest : p.request = .ingest principal content' attestation') :
    content' = content ∧ attestation' = attestation := by
  apply honly principal
  rw [← hrequest]
  obtain hstarted | ⟨q, hq, -⟩ := Pool.run_started serve _ _ events hp
  · exact hstarted
  · exact absurd hq List.not_mem_nil

theorem run_proper {content : Bytes} {attestation : PrivacyAttestation}
    (hempty : ∀ key, storage.objects key = none) (honly : OnlyThis content attestation events) :
    Proper service content attestation (run service { store := storage } events).store := by
  induction events using List.reverseRecOn with
  | nil => exact .empty hempty
  | append_singleton before event ih =>
    have hbefore : OnlyThis content attestation before := fun principal content' attestation' h =>
      honly principal content' attestation' (List.mem_append_left _ h)
    have hproper := ih hbefore
    have hsound := (Pool.run_sound Kept.refl Kept.trans (fun _ _ _ => Acts.kept)
      (program_ensures hspells) (s := { store := storage })
      (fun _ h => absurd h List.not_mem_nil) before).1
    obtain ⟨-, hmove⟩ := Pool.step_sound Kept.refl Kept.trans (fun _ _ _ => Acts.kept)
      (program_ensures hspells) hsound event
    rw [run, Pool.run_append]
    obtain hstill | ⟨i, weather, p, rfl, hp, hacts⟩ := hmove
    · exact hproper.same (congrArg Storage.objects hstill)
    · refine hproper.acts hacts fun principal content' attestation' hrequest => ?_
      exact run_requests storage before hbefore (List.mem_of_getElem? hp) hrequest

/-- Calls for one export, and snapshots of one run, converge from every storage, in every
interleaving and wherever calls stop. -/
theorem transfers_converge : Converges service storage events where
  sameMetadata := by
    intro attestation principal principal' content content' metadata metadata' t h h'
    obtain ⟨_, hresult, hfiled⟩ := returned_filed hspells storage events h
    obtain ⟨_, hresult', hfiled'⟩ := returned_filed hspells storage events h'
    cases hresult
    cases hresult'
    exact hfiled.unique hfiled'
  filed := returned_filed hspells storage events
  created := by
    intro before i weather after p principal content attestation key hevents s hp hrequest hfree
      hcreated
    obtain ⟨hacts, hkept⟩ := run_acts hspells storage events hevents hp
    rw [hrequest] at hacts
    obtain hstill | hsame | ⟨other, object, a, -, hadded, hstored, hdigest, hplaced⟩ := hacts
    · exact absurd ((congrArg (fun t => t.objects key) hstill).trans hfree) hcreated
    · exact absurd ((congrFun hsame key).trans hfree) hcreated
    · have hother : key = other := by
        by_contra hne
        rw [hadded, Function.update_of_ne hne] at hcreated
        exact hcreated hfree
      rw [hother]
      exact ⟨a, hstored.kept hkept, hdigest, hplaced.mem⟩
  conflict := by
    intro p principal content attestation object a t hp hrequest hobject hparse hdigest
    have hstored : Allocated service attestation a t.store := ⟨object, hobject, hparse⟩
    constructor
    · intro result hdone
      obtain ⟨_, -, b, _, _, _, hb, hown, -⟩ :=
        returned_filed hspells storage events ⟨p, hp, hrequest, hdone⟩
      exact hdigest (hstored.unique hb ▸ hown)
    · intro hattempted hsmooth hfits code hdone
      obtain ⟨seen, hseen, hends⟩ := run_ends hspells storage events hp hdone hrequest
      have hexcused : Excused service principal content attestation p.trace code t.store :=
        Excused.kept hends hseen
      cases hexcused with
      | unattempted h => exact absurd hattempted h
      | rough h => exact absurd hsmooth h
      | taken b hb hother h => exact h
      | halted b hb hown h => exact absurd (hstored.unique hb ▸ hown) hdigest
      | unreadable other hother h =>
        obtain rfl := Option.some.inj (hobject.symm.trans hother)
        obtain hlong | hnone := h
        · omega
        · rw [hparse] at hnone
          cases hnone
  retried := by
    intro p principal content attestation outcome t hempty honly hp hrequest hbound hnamed hfits
      hattempted hsmooth hdone
    have hproper := run_proper hspells storage events hempty honly
    cases outcome with
    | ok result =>
      obtain ⟨metadata, rfl, -⟩ := returned_filed hspells storage events ⟨p, hp, hrequest, hdone⟩
      exact ⟨metadata, rfl⟩
    | error code =>
      obtain ⟨seen, hseen, hends⟩ := run_ends hspells storage events hp hdone hrequest
      have hexcused : Excused service principal content attestation p.trace code t.store :=
        Excused.kept hends hseen
      cases hexcused with
      | unattempted h => exact absurd hattempted h
      | rough h => exact absurd hsmooth h
      | taken a hstored hother h =>
        obtain ⟨object, hobject, hparse⟩ := hstored
        obtain ⟨b, hb, hown⟩ := hproper.allocated object hobject
        obtain rfl := Option.some.inj (hparse.symm.trans hb)
        exact absurd hown hother
      | halted a hstored hown h => exact absurd h (hproper.not_halted hbound hstored hnamed)
      | unreadable object hobject h =>
        obtain ⟨b, hb, -⟩ := hproper.allocated object hobject
        obtain hlong | hnone := h
        · exact absurd (hfits object hobject) (not_le.mpr hlong)
        · rw [hb] at hnone
          cases hnone
  pinned := by
    intro principal run' revision documents result t h
    obtain ⟨snapshot, hresult, hpinned⟩ := returned_pinned hspells storage events h
    refine ⟨snapshot, hresult, hpinned, fun h' hrun hcase => ?_⟩
    obtain ⟨_, hresult', hpinned'⟩ := returned_pinned hspells storage events h'
    cases hresult'
    exact hpinned.unique hpinned' hrun hcase
  readPinned := by
    intro principal run' reference result t h
    obtain ⟨p, hp, hrequest, hdone⟩ := h
    obtain ⟨seen, hseen, bytes, snapshot, entry, hresult, hpinned, hrest⟩ :=
      run_ends hspells storage events hp hdone hrequest
    exact ⟨bytes, snapshot, entry, hresult, hpinned.kept hseen, hrest⟩

end

section
open CanonicalJson

/-- The bytes of `json.dumps`. -/
def utf8 (text : List Char) : Bytes := text.flatMap String.utf8EncodeChar

theorem utf8_injective : Function.Injective utf8 := by
  intro a b h
  have hbytes : a.utf8Encode = b.utf8Encode := congrArg List.toByteArray h
  have htext : String.ofList a = String.ofList b := String.toByteArray_inj.mp hbytes
  simpa only [String.toList_ofList] using congrArg String.toList htext

def instantJson : ℕ → Json
  | 0 => .string "1970-01-01T00:00:00Z"
  | n + 1 => .number (intText (n + 1))

theorem instantJson_injective : Function.Injective instantJson := by
  intro m n h
  cases m <;> cases n
  · rfl
  · cases h
  · cases h
  · have hint := intText_injective (Json.number.inj h)
    omega

theorem UUID4.str_injective {u v : UUID4} (h : u.str.text = v.str.text) : u = v := by
  have hread := congrArg opaqueUuid h
  rw [opaqueUuid_str, opaqueUuid_str] at hread
  exact Option.some.inj hread

def DocumentAllocation.json (a : DocumentAllocation) : Json :=
  .object [("attestation_digest", .string a.attestationDigest.text),
    ("created_at", instantJson a.createdAt), ("document_id", .string a.documentId.str.text),
    ("version", .string a.version.str.text)]

def SnapshotEntry.json (entry : SnapshotEntry) : Json :=
  .object [("document", entry.document.json), ("page_count", .number (intText entry.pageCount)),
    ("privacy_manifest_digest", .string entry.privacyManifestDigest.text),
    ("stored_document_digest", .string entry.storedDocumentDigest.text)]

def RunSourceSnapshot.json (snapshot : RunSourceSnapshot) : Json :=
  .object [("created_at", instantJson snapshot.createdAt),
    ("created_by", .string snapshot.createdBy.str.text),
    ("documents", .array (snapshot.documents.map SnapshotEntry.json)),
    ("revision", snapshot.revision.json), ("run_id", .string snapshot.runId.str.text),
    ("schema_version", .string "document-snapshot-v1")]

theorem DocumentAllocation.json_injective : Function.Injective DocumentAllocation.json := by
  rintro ⟨documentId, version, digest, createdAt⟩ ⟨documentId', version', digest', createdAt'⟩ h
  simp only [DocumentAllocation.json, Json.object.injEq, List.cons.injEq, Prod.mk.injEq,
    Json.string.injEq, true_and, and_true] at h
  obtain ⟨hdigest, hcreated, hdocument, hversion⟩ := h
  rw [Digest.ext_text hdigest, instantJson_injective hcreated, UUID4.str_injective hdocument,
    UUID4.str_injective hversion]

theorem SnapshotEntry.json_injective : Function.Injective SnapshotEntry.json := by
  rintro ⟨document, manifest, stored, pages⟩ ⟨document', manifest', stored', pages'⟩ h
  simp only [SnapshotEntry.json, Json.object.injEq, List.cons.injEq, Prod.mk.injEq,
    Json.string.injEq, Json.number.injEq, true_and, and_true] at h
  obtain ⟨hdocument, hpages, hmanifest, hstored⟩ := h
  rw [DocumentReference.json_injective hdocument, Digest.ext_text hmanifest,
    Digest.ext_text hstored, Int.ofNat_inj.mp (intText_injective hpages)]

theorem RunSourceSnapshot.json_injective : Function.Injective RunSourceSnapshot.json := by
  intro x y h
  simp only [RunSourceSnapshot.json, Json.object.injEq, List.cons.injEq, Prod.mk.injEq,
    Json.string.injEq, Json.array.injEq, true_and, and_true] at h
  obtain ⟨hcreatedAt, hcreatedBy, hdocuments, hrevision, hrun⟩ := h
  cases x
  cases y
  simp only [RunSourceSnapshot.mk.injEq]
  exact ⟨UUID4.str_injective hrun, RevisionReference.json_injective hrevision,
    instantJson_injective hcreatedAt, UUID4.str_injective hcreatedBy,
    List.map_injective_iff.mpr SnapshotEntry.json_injective hdocuments⟩

theorem render_injective : Function.Injective render := fun _ _ h =>
  dumps_injective (congrArg String.ofList h)

/-- Reads the text of a known record at once, and any other by inverting the spelling. -/
noncomputable def codecOf {α : Type} (json : α → Json) (known : α) : Codec α where
  canonical a := utf8 (render (json a))
  parse bytes :=
    if bytes = utf8 (render (json known)) then some known
    else (fun a => utf8 (render (json a))).partialInv bytes

theorem codecOf_parse {α : Type} {json : α → Json} (h : Function.Injective json) (known a : α) :
    (codecOf json known).parse ((codecOf json known).canonical a) = some a := by
  have hspelling : Function.Injective fun a => utf8 (render (json a)) :=
    utf8_injective.comp (render_injective.comp h)
  simp only [codecOf]
  split
  · next hsame => rw [hspelling hsame]
  · exact (hspelling.isPartialInv a _).mpr rfl

def sampleId (n : ℕ) : UUID4 :=
  ⟨⟨4 * 2 ^ 76 + 2 ^ 63 + n % 2 ^ 62⟩, by unfold UUID.isV4; dsimp only; omega⟩

def samplePdf : Bytes := utf8 "%PDF-1.4\n%%EOF".toList

def samplePdfDigest : Digest :=
  ⟨"4f1949e95440af0ece666ebd5f399c1d77d22de639950784d349fa5feb47dca5", by decide +kernel⟩

def sampleAttestationDigest : Digest :=
  ⟨"6b8c0d54bc48e0c4ff7dc5aa1bd53a07235111d86dd034f9d86c39945a6d9989", by decide +kernel⟩

def sampleAllocationDigest : Digest :=
  ⟨"38537d7ff37a1d056c80a7ae5e12296c5aaa60761df60701f9e769a1cdfd79c4", by decide +kernel⟩

def sampleRecordDigest : Digest :=
  ⟨"f319534404d5cfc4dd591a42e360ea4ce9f03d4faf2cd95d0753ec44fae5751f", by decide +kernel⟩

def sampleAttestation : PrivacyAttestation where
  claims := {
    keyId := sampleId 3, exportId := sampleId 4, principalId := sampleId 5
    manifest := {
      caseId := sampleId 1, documentId := sampleId 2, sanitizedDigest := samplePdfDigest
      byteSize := 14, pages := [⟨1, 595, 842⟩], occurrences := []
      sized := by decide, paged := by decide, numbered := by decide, distinct := by decide }
    purpose := .forms, confirmedAt := 0, expiresAt := 1, window := by decide
    binding := by simp }
  signatureHex := String.ofList (List.replicate 128 'a')

def points (text : String) (nonempty : text.toList ≠ [])
    (numeric : text.toList.all numberChar = true) : Json :=
  .number ⟨text, nonempty, numeric⟩

def sampleAttestationJson : Json :=
  let page : Json := .object [("coordinate_system", .string "pdf_bottom_left"),
    ("height", points "842.0" (by decide) (by decide)), ("number", .number (intText 1)),
    ("page_space", .string "unrotated_crop_box"), ("width", points "595.0" (by decide) (by decide))]
  let manifest : Json := .object [("byte_size", .number (intText 14)),
    ("case_id", .string (sampleId 1).str.text), ("document_id", .string (sampleId 2).str.text),
    ("filename", .string "sanitized.pdf"), ("media_type", .string "application/pdf"),
    ("occurrences", .array []), ("pages", .array [page]),
    ("policy_version", .string "privacy-policy-v1"),
    ("processor_version", .string "privacy-processor-v1"),
    ("sanitized_digest", .string samplePdfDigest.text), ("schema_version", .string "privacy-v1")]
  let claims : Json := .object [("confirmed_at", instantJson 0),
    ("expires_at", .string "1970-01-01T00:00:00.000001Z"),
    ("export_id", .string (sampleId 4).str.text), ("key_id", .string (sampleId 3).str.text),
    ("manifest", manifest), ("previous", .null), ("principal_id", .string (sampleId 5).str.text),
    ("purpose", .string "forms"), ("schema_version", .string "document-export-v1")]
  .object [("algorithm", .string "Ed25519"), ("claims", claims),
    ("signature_hex", .string sampleAttestation.signatureHex)]

def sampleAllocation : DocumentAllocation :=
  { documentId := sampleId 6, version := sampleId 7
    attestationDigest := sampleAttestationDigest, createdAt := 0 }

def sampleRecordJson (stored : StoredDocument) : Json :=
  .object [("metadata", .object [("attestation", sampleAttestationJson),
      ("byte_size", .number (intText stored.metadata.byteSize)),
      ("classification", .string "sanitized"), ("content_type", .string "application/pdf"),
      ("created_at", instantJson stored.metadata.createdAt),
      ("reference", stored.metadata.reference.json), ("schema_version", .string "document-v1"),
      ("uploaded_by", .string stored.metadata.uploadedBy.str.text)]),
    ("storage_version", .string stored.storageVersion)]

def sampleSha256 (bytes : Bytes) : Digest :=
  if bytes = samplePdf then samplePdfDigest
  else if bytes = utf8 (render sampleAttestationJson) then sampleAttestationDigest
  else if bytes = utf8 (render sampleAllocation.json) then sampleAllocationDigest
  else sampleRecordDigest

def sampleSnapshot : RunSourceSnapshot where
  runId := sampleId 9
  revision := ⟨(sampleId 1).str, (sampleId 8).str, samplePdfDigest⟩
  createdAt := 0
  createdBy := sampleId 5
  documents := [⟨⟨(sampleId 1).str, (sampleId 6).str, (sampleId 7).str, samplePdfDigest, .forms⟩,
    samplePdfDigest, sampleRecordDigest, 1⟩]
  counted := by decide
  sameCase := by simp
  distinct := by simp

noncomputable def sampleService : Service where
  sha256 := sampleSha256
  manifestBytes _ := []
  attestationBytes _ := utf8 (render sampleAttestationJson)
  allocations := codecOf DocumentAllocation.json sampleAllocation
  documents := {
    canonical := fun stored => utf8 (render (sampleRecordJson stored))
    parse := fun _ => none }
  snapshots := codecOf RunSourceSnapshot.json sampleSnapshot

theorem sampleService_spells : sampleService.Spells where
  allocation := codecOf_parse DocumentAllocation.json_injective sampleAllocation
  snapshot := codecOf_parse RunSourceSnapshot.json_injective sampleSnapshot
  written stored h := by
    have hempty : render (sampleRecordJson stored) = [] := utf8_injective h
    rw [sampleRecordJson, render] at hempty
    cases hempty

def samplePrincipal : Principal where
  actor := { actorId := (sampleId 5).str.text, kind := .human }
  caseIds := [(sampleId 1).str.text]
  permissions := []

/-- The first call stops after its allocation; the second draws other identities. -/
def sampleEvents : List (Event Weather Request) :=
  let request : Request := .ingest samplePrincipal samplePdf sampleAttestation
  let act i n : Event Weather Request := .act i { fresh := sampleId n, version := "v1" }
  .start request :: [0, 0, 6, 7, 0, 0, 0].map (act 0) ++
    .start request :: [0, 0, 8, 9, 0, 0, 0, 0, 0, 0, 0, 0, 10, 0, 0].map (act 1)

theorem transfers_converge_sample : Converges sampleService {} sampleEvents :=
  transfers_converge sampleService_spells {} sampleEvents

end

end AppraisalReview.DocumentTransfer
