import AppraisalReview.CorrectionScores

set_option autoImplicit false

/-!
# What a confirmation of a fact binds

The digest a reviewer echoes is compared with the one the task carries, and the
digest that is stored is taken from the material. The two are the same side
when the task was registered with the digest of its own revision.
-/
namespace AppraisalReview.HumanTaskStore
open Raising
variable {content : ContentDigest} {sha256 : String → Digest} {policy : JobPolicy}
variable {rt : Runtime} {ctx : DecimalContext} {s : Store content}

/-- The side after `confirm_side`. -/
def confirmedSide (pair : EvidencedPair) (side : Side) (confirmation : FactConfirmation) :
    EvidencedPair :=
  pair.setReliability side { pair.reliability side with
    confirmation := some confirmation, method := .reviewerConfirmed }

structure ConfirmedOnly (reference : FactSideReference) (revisionId : String) (pair : EvidencedPair)
    (confirmation : FactConfirmation) (before after : RevisionSnapshot content) : Prop where
  located : before.material.facts.pairs.filter (FactSideReference.names reference) = [pair]
  material : after.material =
    (replaceLocated before.material reference
      (confirmedSide pair reference.side confirmation)).withVersion revisionId
  parent : after.revision.parent = some before.revision.reference

/-- The confirmation is of the side that the reviewer named, as the head had it. -/
def Binds (rt : Runtime) (command : HumanResponse) (reference : FactSideReference)
    (revisionId : String) (before after : RevisionSnapshot content) : Prop :=
  ∃ pair confirmation, ConfirmedOnly reference revisionId pair confirmation before after ∧
    confirmation.inputDigest = confirmationDigest rt pair reference.side ∧
    command.sideDigest.map Digest.text = some confirmation.inputDigest

theorem confirmSide_confirmed {pair confirmed : EvidencedPair} {side : Side} {reviewer : String}
    (h : confirmSide rt pair side reviewer = .ok confirmed) :
    confirmed = confirmedSide pair side ⟨reviewer, confirmationDigest rt pair side⟩ := by
  rw [confirmSide, guard_ok] at h
  obtain ⟨-, h⟩ := h
  split_ifs at h
  cases h
  rfl

theorem confirm_only {before after : RevisionSnapshot content} {pair : EvidencedPair}
    {reference : FactSideReference} {accepted : AcceptedResponse} {revisionId : String}
    (hlocate : locate before.material reference = .ok pair)
    (h : confirm rt ctx before pair reference accepted revisionId = .ok after) :
    ConfirmedOnly reference revisionId pair
      ⟨accepted.actor.actorId, confirmationDigest rt pair reference.side⟩ before after := by
  unfold confirm at h
  split at h
  · cases h
  · next confirmed hconfirmed =>
    exact ⟨locate_ok hlocate, by rw [RevisionSnapshot.capture_material h, confirmSide_confirmed hconfirmed],
      RevisionSnapshot.capture_ok h⟩

structure AskedAbout (reads : Reads content) (principal : Principal) (taskId : UUID)
    (record : TaskRecord) (reference : FactSideReference) (pair : EvidencedPair)
    (head : RevisionSnapshot content) : Prop where
  authorized : authorized reads principal taskId = .ok record
  side : record.task.side = some reference
  stored : readSnapshot reads.snapshot record.task.run.revision = some head
  located : locate head.material reference = .ok pair

theorem prepare_confirms {reads : Reads content} {principal : Principal} {taskId : UUID}
    {command : HumanResponse} {revisionId : String} {accepted : AcceptedResponse}
    {next : Option (RevisionSnapshot content)} (hconfirm : command.action = .confirm)
    (hfact : ∀ record, authorized reads principal taskId = .ok record → record.task.kind = .fact)
    (h : prepare rt ctx reads principal taskId command revisionId = .ok (.inr (accepted, next))) :
    ∃ record reference pair head after, AskedAbout reads principal taskId record reference pair head ∧
      next = some after ∧ command.taskId = taskId ∧
      accepted = { command := command, actor := principal.actor } ∧
      command.sideDigest = some reference.inputDigest ∧
      ConfirmedOnly reference revisionId pair
        ⟨principal.actor.actorId, confirmationDigest rt pair reference.side⟩ head after := by
  have hprepared := prepare_ok h
  obtain ⟨record, hrecord, hadmission, hnext⟩ := prepare_next h
  cases hprepared.accepts
  cases next with
  | none =>
    have hreject := hprepared.bare.mp rfl
    rw [hconfirm] at hreject
    cases hreject
  | some after =>
    obtain ⟨head, reference, pair, hhead, hside, hlocate, hderived, -⟩ := nextRevision_located hnext
    obtain ⟨hrun, hdigest⟩ := admitResponse_current hadmission
    rw [hside] at hdigest
    exact ⟨record, reference, pair, head, after, ⟨hrecord, hside, hrun ▸ hhead, hlocate⟩, rfl,
      hprepared.named, rfl, hdigest, confirm_only hlocate (hderived (hfact record hrecord))⟩

/-- The stored digest is the one that the reviewer named when the task was
registered with the digest of the side. -/
theorem ConfirmedOnly.binds_iff {command : HumanResponse} {reference : FactSideReference}
    {revisionId reviewer : String} {pair : EvidencedPair} {before after : RevisionSnapshot content}
    (hdigest : command.sideDigest = some reference.inputDigest)
    (h : ConfirmedOnly reference revisionId pair
      ⟨reviewer, confirmationDigest rt pair reference.side⟩ before after) :
    Binds rt command reference revisionId before after ↔
      confirmationDigest rt pair reference.side = reference.inputDigest.text := by
  constructor
  · rintro ⟨other, confirmation, hother, hinput, hnamed⟩
    obtain rfl : pair = other :=
      List.singleton_injective (h.located.symm.trans hother.located)
    rw [hdigest, hinput] at hnamed
    exact (Option.some.inj hnamed).symm
  · intro hinput
    exact ⟨pair, _, h, rfl, by rw [hdigest, hinput]; rfl⟩

/-- Of a response that confirms a fact: it changes nothing, or it binds exactly
when the task's digest is the side's own. -/
structure ConfirmationLaw (rt : Runtime) (reads : Reads content) (principal : Principal)
    (taskId : UUID) (command : HumanResponse) (revisionId : String) (s : Store content)
    (outcome : Outcome content ResponseReceipt) : Prop where
  raised : ∀ fault, outcome.1 = .error fault → outcome.2 = s
  returned : ∀ receipt, outcome.1 = .ok receipt → outcome.2 = s ∨
    ∃ record reference pair head next known,
      AskedAbout reads principal taskId record reference pair head ∧
      outcome.2.jobMeta.get? record.jobId = some known ∧
      known.head = next.revision.reference ∧ readSnapshot outcome.2 known.head = some next ∧
      (∃ confirmation, ConfirmedOnly reference revisionId pair confirmation head next) ∧
      (Binds rt command reference revisionId head next ↔
        confirmationDigest rt pair reference.side = reference.inputDigest.text)

def askedToConfirm (inputDigest : Digest) : Store versionDigest :=
  (seed ⟨1⟩ "reviewer" certainSnapshot [factTask inputDigest]
    (run (fun _ => MemoryJobStore.sampleDigest) .standard {} [.job MemoryJobStore.sampleCreate,
      .job MemoryJobStore.sampleClaim,
      .job (.finish MemoryJobStore.sampleAttempt .needsHuman 30 none [⟨40⟩] none)])).2

def confirmed (inputDigest : Digest) : Outcome versionDigest ResponseReceipt :=
  let asked := askedToConfirm inputDigest
  respond sampleRuntime .default .standard ⟨asked, asked, asked, asked⟩ sampleAnswerer ⟨40⟩
    (confirmCommand inputDigest) "revision-2" 40 ⟨5⟩ ⟨11⟩ asked

def confirmedHead (outcome : Outcome versionDigest ResponseReceipt) :
    Option (RevisionSnapshot versionDigest) :=
  (outcome.2.jobMeta.get? ⟨1⟩).bind fun known => readSnapshot outcome.2 known.head

theorem confirmed_returns (inputDigest : Digest)
    (h : (confirmed inputDigest).1.toOption.isSome = true) :
    ∃ receipt, (confirmed inputDigest).1 = .ok receipt := by
  cases hreply : (confirmed inputDigest).1 with
  | error fault => rw [hreply] at h; cases h
  | ok receipt => exact ⟨receipt, rfl⟩

end AppraisalReview.HumanTaskStore
