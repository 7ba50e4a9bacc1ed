import AppraisalReview.DocumentModels

set_option autoImplicit false

/-!
# The local privacy review service

One source at a time: a scan proposes regions, a human adds, edits, dismisses
and looks at every page, and one confirmation stands for fifteen minutes. Every
operation holds the lock; a scan and a human prompt are awaited without it. A
call that waits is two steps of the system, and others may act in between.
-/
namespace AppraisalReview.PrivacyReview

structure LocalSourcePage where
  number : ℕ
  width : Binary64
  height : Binary64
  rotation : ℕ
  cropBox : Box
deriving DecidableEq

structure PrivacyRegion where
  page : ℕ
  bbox : Box
  positive : 1 ≤ page
deriving DecidableEq

structure LocalSourceSnapshot where
  caseId : UUID
  documentId : UUID
  snapshotId : UUID
  sourceRevision : ℕ
  sourceDigest : Digest
  byteSize : ℕ
  pages : List LocalSourcePage
  pageSequence : pages.map LocalSourcePage.number = List.range' 1 pages.length
deriving DecidableEq

inductive SensitiveCategory where
  | name | identityNumber | businessNumber | birthDate | phone | email | address | account
  | signature | stamp | face | caseContact | parcel | ownershipFinancial
deriving DecidableEq

structure SensitiveCandidate where
  candidateId : UUID
  category : SensitiveCategory
  region : PrivacyRegion
  rawText : Option String := none
  cropId : Option UUID := none
  confidence : Option Binary64 := none
  detectorId : String
  detectorVersion : String
  evidence : rawText.isSome ∨ cropId.isSome
deriving DecidableEq

inductive Disposition where
  | redact (entityId : UUID)
  | dismiss (reason : String)
deriving DecidableEq

structure ReviewSelection where
  candidate : SensitiveCandidate
  disposition : Disposition
deriving DecidableEq

/-- `validate_region` -/
def regionWithin (pages : List LocalSourcePage) (region : PrivacyRegion) : Bool :=
  (pages[region.page - 1]?).any fun page =>
    region.bbox.x1.le page.width && region.bbox.y1.le page.height

structure PrivacyReviewCommand where
  source : LocalSourceSnapshot
  selectionRevision : ℕ
  policyDigest : Digest
  selections : List ReviewSelection
  reviewedPages : List ℕ
  distinct : (selections.map fun s => s.candidate.candidateId).Nodup
  reviewed : reviewedPages.Nodup ∧ ∀ page ∈ reviewedPages, 1 ≤ page ∧ page ≤ source.pages.length
  within : ∀ s ∈ selections, regionWithin source.pages s.candidate.region = true
deriving DecidableEq

def PrivacyReviewCommand.build (source : LocalSourceSnapshot) (revision : ℕ) (policyDigest : Digest)
    (selections : List ReviewSelection) (reviewedPages : List ℕ) : Option PrivacyReviewCommand :=
  if h : (selections.map fun s => s.candidate.candidateId).Nodup ∧
      (reviewedPages.Nodup ∧ ∀ page ∈ reviewedPages, 1 ≤ page ∧ page ≤ source.pages.length) ∧
      ∀ s ∈ selections, regionWithin source.pages s.candidate.region = true then
    some ⟨source, revision, policyDigest, selections, reviewedPages, h.1, h.2.1, h.2.2⟩
  else none

/-- What the service reads of a scan report, with the part of its validator about that. -/
structure PrivacyScanReport where
  source : LocalSourceSnapshot
  blocked : Bool
  candidates : List SensitiveCandidate
  distinct : (candidates.map SensitiveCandidate.candidateId).Nodup
  within : ∀ candidate ∈ candidates, regionWithin source.pages candidate.region = true
deriving DecidableEq

structure LocalPrivacyApproval where
  approvalId : UUID
  caseId : UUID
  snapshotId : UUID
  reviewDigest : Digest
  principalId : String
  approvedAt : Int
  expiresAt : Int
deriving DecidableEq

inductive PrivacyErrorCode where
  | invalidInput | staleConfirmation | unauthorized | capabilityUnavailable
deriving DecidableEq

structure ReviewVersion where
  caseId : UUID
  snapshotId : UUID
  revision : ℕ

inductive EventAction where
  | scan | add | edit | remove | reviewPage
deriving DecidableEq

structure PrivacyReviewEvent where
  revision : ℕ
  action : EventAction
  before : Option ReviewSelection := none
  after : Option ReviewSelection := none
  page : Option ℕ := none
deriving DecidableEq

inductive ReviewState where
  | blocked | awaitingConfirmation | confirmed
deriving DecidableEq

structure PrivacyReviewView where
  state : ReviewState
  command : PrivacyReviewCommand
  scan : Option PrivacyScanReport
  events : List PrivacyReviewEvent

/-- An object of the heap: `is` compares the serial number, `==` the value. -/
structure Held where
  serial : ℕ
  command : PrivacyReviewCommand
deriving DecidableEq

/-- The fields of the service, the objects created so far and the draws of `uuid4`. -/
structure Service where
  command : Option Held := none
  scan : Option PrivacyScanReport := none
  approval : Option LocalPrivacyApproval := none
  events : List PrivacyReviewEvent := []
  previewed : List ℕ := []
  revision : ℕ := 0
  confirmationAttempt : Option ℕ := none
  serials : ℕ := 0
  draws : ℕ := 0

/-- What one operation reads of the outside: whether the source and its preview can be read, and
the clock, twice. -/
structure Ambient where
  readable : Bool
  now : Int
  clock : Int

def lifetime : Int := 900000000

section
variable (uuid : ℕ → UUID) (digest : PrivacyReviewCommand → Digest)

namespace Service

def close (s : Service) : Service :=
  { s with
    command := none, scan := none, approval := none, confirmationAttempt := none
    events := [], previewed := [] }

/-- `_check`: the request names the current case, snapshot and revision. -/
def check (s : Service) (request : ReviewVersion) : Except PrivacyErrorCode Held :=
  match s.command with
  | none => .error .invalidInput
  | some held =>
    if request.caseId ≠ held.command.source.caseId ∨
        request.snapshotId ≠ held.command.source.snapshotId ∨
        request.revision ≠ held.command.selectionRevision then .error .staleConfirmation
    else .ok held

/-- `_ready` -/
def ready (s : Service) : Bool := s.scan.any fun scan => !scan.blocked

def permits (s : Service) (approval : LocalPrivacyApproval) (command : PrivacyReviewCommand)
    (now : Int) (ambient : Ambient) : Bool :=
  s.ready && ambient.readable && s.approval = some approval &&
    s.command.map Held.command = some command && approval.reviewDigest = digest command &&
    (approval.approvedAt ≤ now && now < approval.expiresAt) &&
    (approval.approvedAt ≤ ambient.clock && ambient.clock < approval.expiresAt)

def view (s : Service) (held : Held) (ambient : Ambient) : PrivacyReviewView where
  state :=
    if !s.ready then .blocked
    else if s.approval.any fun approval =>
        permits digest s approval held.command ambient.now ambient then .confirmed
    else .awaitingConfirmation
  command := held.command
  scan := s.scan
  events := s.events

def list (s : Service) (ambient : Ambient) : Except PrivacyErrorCode PrivacyReviewView :=
  match s.command with
  | none => .error .invalidInput
  | some held => .ok (s.view digest held ambient)

def hold (s : Service) (command : PrivacyReviewCommand) : Service :=
  { s with command := some ⟨s.serials, command⟩, serials := s.serials + 1 }

/-- `rescan` up to the wait. Everything is revoked before the new source is looked at. -/
def rescan (s : Service) (source : LocalSourceSnapshot) (policyDigest : Digest)
    (ambient : Ambient) : Except PrivacyErrorCode Held × Service :=
  let s := { s with
    revision := s.revision + 1, approval := none, confirmationAttempt := none
    scan := none, command := none, previewed := [] }
  match PrivacyReviewCommand.build source s.revision policyDigest [] [] with
  | none => (.error .invalidInput, s)
  | some command =>
    if !ambient.readable then (.error .invalidInput, s)
    else (.ok ⟨s.serials, command⟩,
      { s.hold command with events := [{ revision := command.selectionRevision, action := .scan }] })

def scanSelections (draws : ℕ) (candidates : List SensitiveCandidate) : List ReviewSelection :=
  candidates.mapIdx fun i candidate => ⟨candidate, .redact (uuid (draws + i))⟩

/-- `rescan` after the wait: the scan belongs to the command that is still current. -/
def scanned (s : Service) (pending : Held) (answer : Option PrivacyScanReport) (ambient : Ambient) :
    Except PrivacyErrorCode PrivacyReviewView × Service :=
  match answer with
  | none => (.error .capabilityUnavailable, s)
  | some scan =>
    if scan.source ≠ pending.command.source then (.error .capabilityUnavailable, s)
    else if s.command.map Held.serial ≠ some pending.serial then (.error .staleConfirmation, s)
    else
      let s := { s with scan := some scan, draws := s.draws + scan.candidates.length }
      match PrivacyReviewCommand.build pending.command.source pending.command.selectionRevision
          pending.command.policyDigest
          (scanSelections uuid (s.draws - scan.candidates.length) scan.candidates)
          pending.command.reviewedPages with
      -- A valid report has distinct candidates that lie within its source.
      | none => (.error .invalidInput, s)
      | some command =>
        let s := s.hold command
        (s.list digest ambient, s)

def preview (s : Service) (request : ReviewVersion) (page : ℕ) (ambient : Ambient) :
    Except PrivacyErrorCode Unit × Service :=
  match s.check request with
  | .error code => (.error code, s)
  | .ok held =>
    if held.command.source.pages.length < page ∨ page < 1 then (.error .invalidInput, s)
    else if !ambient.readable then (.error .capabilityUnavailable, s)
    else (.ok (), { s with previewed := page :: s.previewed })

/-- `_change` -/
def change (s : Service) (held : Held) (selections : List ReviewSelection)
    (event : PrivacyReviewEvent) (reviewedPages : List ℕ) (clearPreviews : Bool) (ambient : Ambient) :
    Except PrivacyErrorCode PrivacyReviewView × Service :=
  if 1000 ≤ s.events.length ∨ 10000 < selections.length then (.error .capabilityUnavailable, s)
  else
    let s := { s with revision := s.revision + 1 }
    match PrivacyReviewCommand.build held.command.source s.revision held.command.policyDigest
        selections reviewedPages with
    | none => (.error .invalidInput, s)
    | some command =>
      let s := { s.hold command with
        approval := none
        previewed := if clearPreviews then [] else s.previewed
        events := s.events ++ [event] }
      (s.list digest ambient, s)

def manualCandidate (candidateId cropId : UUID) (category : SensitiveCategory)
    (region : PrivacyRegion) : SensitiveCandidate where
  candidateId := candidateId
  category := category
  region := region
  cropId := some cropId
  detectorId := "local-manual-region"
  detectorVersion := "1"
  evidence := Or.inr rfl

def add (s : Service) (request : ReviewVersion) (region : PrivacyRegion)
    (category : SensitiveCategory) (ambient : Ambient) :
    Except PrivacyErrorCode PrivacyReviewView × Service :=
  match s.check request with
  | .error code => (.error code, s)
  | .ok held =>
    if !regionWithin held.command.source.pages region then (.error .invalidInput, s)
    else
      let selection : ReviewSelection := {
        candidate := manualCandidate (uuid s.draws) (uuid (s.draws + 1)) category region
        disposition := .redact (uuid (s.draws + 2)) }
      change digest { s with draws := s.draws + 3 } held (held.command.selections ++ [selection])
        { revision := held.command.selectionRevision + 1, action := .add, after := some selection }
        [] true ambient

/-- `_selection` -/
def selection (held : Held) (candidateId : UUID) : Option ReviewSelection :=
  held.command.selections.find? fun s => s.candidate.candidateId = candidateId

/-- `_replace` -/
def replace (s : Service) (held : Held) (before after : ReviewSelection) (action : EventAction)
    (ambient : Ambient) : Except PrivacyErrorCode PrivacyReviewView × Service :=
  change digest s held
    (held.command.selections.map fun s =>
      if s.candidate.candidateId = before.candidate.candidateId then after else s)
    { revision := held.command.selectionRevision + 1, action := action
      before := some before, after := some after } [] true ambient

def entities (held : Held) : List UUID :=
  held.command.selections.filterMap fun s => match s.disposition with
    | .redact entityId => some entityId
    | .dismiss _ => none

/-- Known evidence is kept where only the category or the entity changes. -/
def editedCandidate (before : SensitiveCandidate) (cropId : UUID) (category : SensitiveCategory)
    (region : PrivacyRegion) : SensitiveCandidate :=
  if region = before.region then { before with category := category }
  else manualCandidate before.candidateId cropId category region

def edit (s : Service) (request : ReviewVersion) (candidateId : UUID) (region : PrivacyRegion)
    (category : SensitiveCategory) (entityId : Option UUID) (ambient : Ambient) :
    Except PrivacyErrorCode PrivacyReviewView × Service :=
  match s.check request with
  | .error code => (.error code, s)
  | .ok held => match selection held candidateId with
    | none => (.error .invalidInput, s)
    | some before =>
      if !regionWithin held.command.source.pages region then (.error .invalidInput, s)
      else if entityId.any fun entity => entity ∉ entities held then (.error .invalidInput, s)
      else replace digest { s with draws := s.draws + 2 } held before {
          candidate := editedCandidate before.candidate (uuid (s.draws + 1)) category region
          disposition := .redact (entityId.getD (uuid s.draws)) } .edit ambient

/-- `str.strip` leaves something of the reason. -/
def remove (s : Service) (request : ReviewVersion) (candidateId : UUID) (reason : String)
    (ambient : Ambient) : Except PrivacyErrorCode PrivacyReviewView × Service :=
  match s.check request with
  | .error code => (.error code, s)
  | .ok held =>
    if strip reason.toList = [] then (.error .invalidInput, s)
    else match selection held candidateId with
    | none => (.error .invalidInput, s)
    | some before =>
      replace digest s held before ⟨before.candidate, .dismiss reason⟩ .remove ambient

/-- `tuple(sorted(set(pages) | {page}))` -/
def reviewedWith (pages : List ℕ) (page : ℕ) : List ℕ :=
  (page :: pages).dedup.mergeSort (· ≤ ·)

def reviewPage (s : Service) (request : ReviewVersion) (page : ℕ) (ambient : Ambient) :
    Except PrivacyErrorCode PrivacyReviewView × Service :=
  match s.check request with
  | .error code => (.error code, s)
  | .ok held =>
    if page ∉ s.previewed then (.error .invalidInput, s)
    else change digest s held held.command.selections
      { revision := held.command.selectionRevision + 1, action := .reviewPage, page := some page }
      (reviewedWith held.command.reviewedPages page) false ambient

/-- `confirm` up to the human prompt; the attempt is an object of its own. -/
def confirm (s : Service) (request : ReviewVersion) (reviewDigest : Digest) :
    Except PrivacyErrorCode (ℕ × Held) × Service :=
  match s.check request with
  | .error code => (.error code, s)
  | .ok held =>
    if !s.ready then (.error .capabilityUnavailable, s)
    else if reviewDigest ≠ digest held.command ∨
        held.command.reviewedPages ≠ held.command.source.pages.map LocalSourcePage.number then
      (.error .staleConfirmation, s)
    else (.ok (s.serials, held), { s with
      approval := none, confirmationAttempt := some s.serials, serials := s.serials + 1 })

/-- `confirm` after the prompt, with the principal that the human prompt gave. -/
def answered (s : Service) (attempt : ℕ) (held : Held) (principal : Option String)
    (ambient : Ambient) : Except PrivacyErrorCode LocalPrivacyApproval × Service :=
  match principal with
  | none => (.error .unauthorized, s)
  | some principal =>
    if strip principal.toList = [] then (.error .unauthorized, s)
    else if s.command.map Held.serial ≠ some held.serial ∨
        s.confirmationAttempt ≠ some attempt then (.error .staleConfirmation, s)
    else if !s.ready then (.error .capabilityUnavailable, s)
    else if !ambient.readable ∨ 4096 < principal.length then (.error .unauthorized, s)
    else
      let approval : LocalPrivacyApproval := {
        approvalId := uuid s.draws
        caseId := held.command.source.caseId
        snapshotId := held.command.source.snapshotId
        reviewDigest := digest held.command
        principalId := principal
        approvedAt := ambient.now
        expiresAt := ambient.now + lifetime }
      (.ok approval, { s with approval := some approval, draws := s.draws + 1 })

end Service

/-- The calls that wait are kept in the order in which they began to. The last
three fields record what happened: the commands that left the service, the
pages that were shown with the command of that moment, and the approvals with
the command that the human was prompted with. -/
structure System where
  service : Service := {}
  scans : List Held := []
  prompts : List (ℕ × Held) := []
  exposed : List PrivacyReviewCommand := []
  shown : List (ℕ × PrivacyReviewCommand) := []
  issued : List (LocalPrivacyApproval × PrivacyReviewCommand) := []

inductive Call where
  | rescan (source : LocalSourceSnapshot) (policyDigest : Digest) (ambient : Ambient)
  | scanned (waiting : ℕ) (answer : Option PrivacyScanReport) (ambient : Ambient)
  | preview (request : ReviewVersion) (page : ℕ) (ambient : Ambient)
  | add (request : ReviewVersion) (region : PrivacyRegion) (category : SensitiveCategory)
      (ambient : Ambient)
  | edit (request : ReviewVersion) (candidateId : UUID) (region : PrivacyRegion)
      (category : SensitiveCategory) (entityId : Option UUID) (ambient : Ambient)
  | remove (request : ReviewVersion) (candidateId : UUID) (reason : String) (ambient : Ambient)
  | reviewPage (request : ReviewVersion) (page : ℕ) (ambient : Ambient)
  | confirm (request : ReviewVersion) (reviewDigest : Digest)
  | answered (waiting : ℕ) (principal : Option String) (ambient : Ambient)
  | list (ambient : Ambient)
  | permits (approval : LocalPrivacyApproval) (command : PrivacyReviewCommand) (now : Int)
      (ambient : Ambient)
  | close

section
variable (uuid : ℕ → UUID) (digest : PrivacyReviewCommand → Digest)

namespace System

def viewed (s : System) (reply : Except PrivacyErrorCode PrivacyReviewView × Service) : System :=
  { s with
    service := reply.2
    exposed := match reply.1 with
      | .error _ => s.exposed
      | .ok view => s.exposed ++ [view.command] }

def rescan (s : System) (source : LocalSourceSnapshot) (policyDigest : Digest)
    (ambient : Ambient) : System :=
  match s.service.rescan source policyDigest ambient with
  | (.error _, service) => { s with service := service }
  | (.ok pending, service) => { s with service := service, scans := s.scans ++ [pending] }

def scanned (s : System) (waiting : ℕ) (answer : Option PrivacyScanReport) (ambient : Ambient) :
    System :=
  match s.scans[waiting]? with
  | none => s
  | some pending =>
    { s with scans := s.scans.eraseIdx waiting }.viewed
      (s.service.scanned uuid digest pending answer ambient)

def preview (s : System) (request : ReviewVersion) (page : ℕ) (ambient : Ambient) : System :=
  match s.service.preview request page ambient with
  | (.error _, service) => { s with service := service }
  | (.ok _, service) => { s with
    service := service
    shown := s.shown ++ (service.command.toList.map fun held => (page, held.command)) }

def confirm (s : System) (request : ReviewVersion) (reviewDigest : Digest) : System :=
  match s.service.confirm digest request reviewDigest with
  | (.error _, service) => { s with service := service }
  | (.ok prompt, service) => { s with
    service := service
    prompts := s.prompts ++ [prompt]
    exposed := s.exposed ++ [prompt.2.command] }

def answered (s : System) (waiting : ℕ) (principal : Option String) (ambient : Ambient) : System :=
  match s.prompts[waiting]? with
  | none => s
  | some (attempt, held) =>
    match s.service.answered uuid digest attempt held principal ambient with
    | (.error _, service) => { s with service := service, prompts := s.prompts.eraseIdx waiting }
    | (.ok approval, service) => { s with
      service := service
      prompts := s.prompts.eraseIdx waiting
      issued := s.issued ++ [(approval, held.command)] }

def step (s : System) : Call → System
  | .rescan source policyDigest ambient => s.rescan source policyDigest ambient
  | .scanned waiting answer ambient => s.scanned uuid digest waiting answer ambient
  | .preview request page ambient => s.preview request page ambient
  | .add request region category ambient =>
    s.viewed (s.service.add uuid digest request region category ambient)
  | .edit request candidateId region category entityId ambient =>
    s.viewed (s.service.edit uuid digest request candidateId region category entityId ambient)
  | .remove request candidateId reason ambient =>
    s.viewed (s.service.remove digest request candidateId reason ambient)
  | .reviewPage request page ambient =>
    s.viewed (s.service.reviewPage digest request page ambient)
  | .confirm request reviewDigest => s.confirm digest request reviewDigest
  | .answered waiting principal ambient => s.answered uuid digest waiting principal ambient
  | .list ambient => s.viewed (s.service.list digest ambient, s.service)
  | .permits _ _ _ _ => s
  | .close => { s with service := s.service.close }

def run (calls : List Call) (s : System) : System := calls.foldl (step uuid digest) s

end System
end
end
end AppraisalReview.PrivacyReview
