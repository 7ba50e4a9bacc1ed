import AppraisalReview.DecimalText
import AppraisalReview.PlaceholderInventory
import AppraisalReview.Going
import Mathlib.Algebra.BigOperators.Group.List.Basic
import Mathlib.Algebra.Order.Ring.Rat
import Mathlib.Data.Finset.Insert

set_option autoImplicit false

/-!
# The local review of a refilled document

One session reviews the readings of the published pages, writes a candidate,
reviews the readings of its pages and only then releases it. Every method checks
the session on its way and keeps what it wrote before a check raised.
-/
namespace AppraisalReview.RefillReview
open DocumentTransfer Placeholders Going

inductive Stage where
  | published | restored
deriving DecidableEq

def stages : List Stage := [.published, .restored]

inductive Origin where
  | native | ocr
deriving DecidableEq

structure TextObservation where
  text : String
  region : PrivacyRegion
  origin : Origin
  confidence : Option ℚ
deriving DecidableEq

structure RefillRenderedPage where
  png : Bytes
  native : List TextObservation

/-- The targets of a publication lie apart, each under an identity of its own. -/
structure PublishedRefillDescriptor where
  pages : List PrivacyPage
  targets : List RefillTarget
  numbered : pages.map PrivacyPage.number = List.range' 1 pages.length
  placed : ∀ target ∈ targets, validateRegion pages target.region = .ok ()
  apart : targets.Pairwise fun a b => overlaps a.region b.region = false
  identified : (targets.map RefillTarget.occurrenceId).Nodup

inductive FieldOperation where
  | restore | omit
deriving DecidableEq

structure RehydrationPlan where
  caseId : UUID4
  documentId : UUID4
  mapId : UUID4
  runId : UUID4
  revisionId : UUID4
  artifactDigest : Digest
  fields : List (UUID4 × FieldOperation)

structure OCRReviewPage where
  number : ℕ
  width : ℚ
  height : ℚ
  imageSha256 : Digest
deriving DecidableEq

structure OCRReviewObservation where
  observationId : UUID
  page : ℕ
  bbox : ℚ × ℚ × ℚ × ℚ
  rawText : String
  confidence : Option ℚ
  reviewItemId : Option UUID := none
deriving DecidableEq

def OCRReviewObservation.region (row : OCRReviewObservation) : PrivacyRegion := ⟨row.page, row.bbox⟩

inductive ItemKind where
  | observation | placeholder
deriving DecidableEq

structure OCRReviewItem where
  itemId : UUID
  kind : ItemKind
  page : ℕ
  bbox : ℚ × ℚ × ℚ × ℚ
  observationIds : List UUID
  expectedText : Option String := none
  confirmedReading : Option String := none
deriving DecidableEq

def OCRReviewItem.region (item : OCRReviewItem) : PrivacyRegion := ⟨item.page, item.bbox⟩

structure OCRReviewReceipt where
  receiptId : UUID
  reviewId : UUID
  stage : Stage
  principalId : String
  bindingDigest : Digest
  reviewDigest : Digest
  engineDigest : Digest
  inputSha256 : Digest
  measurementsDigest : Digest
  pageImageSha256 : List Digest
  readings : List OCRReviewItem
  confirmedAt : ℤ
  expiresAt : ℤ
deriving DecidableEq

structure OCRReviewView where
  reviewId : UUID
  stage : Stage
  reviewDigest : Digest
  engineDigest : Digest
  inputSha256 : Digest
  pages : List OCRReviewPage
  observations : List OCRReviewObservation
  items : List OCRReviewItem
  receipts : List OCRReviewReceipt := []
deriving DecidableEq

structure OCRReviewConfirmation where
  reviewDigest : Digest
  pageImageSha256 : Digest
  reading : String

structure FinalLocalManifest where
  caseId : UUID4
  documentId : UUID4
  mapId : UUID4
  runId : UUID4
  revisionId : UUID4
  inputArtifactDigest : Digest
  finalDigest : Digest
  byteSize : ℕ
  restoredFields : List UUID4
  omittedFields : List UUID4
  sized : 0 < byteSize

structure FinalLocalArtifact where
  manifest : FinalLocalManifest
  pdf : Bytes

structure ReviewScope where
  binding : Digest
  stage : Stage
  input : Digest
  measurements : List TextObservation
  pages : List OCRReviewPage
  items : List OCRReviewItem

/-- The functions that the session calls; `uuid4` by the number of the draw. -/
structure Platform where
  sha256 : Bytes → Digest
  measurementsDigest : List TextObservation → Digest
  viewDigest : OCRReviewView → Digest
  reviewDigest : ReviewScope → Digest
  nfkc : String → String
  casefold : String → String
  uuid4 : ℕ → UUID

/-- What a session is constructed with, and never changes. -/
structure Session where
  reviewId : UUID
  principalId : String
  plan : RehydrationPlan
  descriptor : PublishedRefillDescriptor
  publication : Bytes
  original : Bytes
  engineDigest : Digest
  bindingDigest : Digest
  createdAt : ℤ
  expiresAt : ℤ
  deadline : ℤ
  maxRetainedBytes : ℕ

structure StageEvidence where
  observations : List TextObservation
  images : List (ℕ × Bytes)
  measurementsDigest : Digest
  pageDigests : List Digest
  viewBinding : Digest
  inputDigest : Digest

/-- The stage under review: `_view`, `_view_binding`, `_measurements_digest`, `_images`, `_seen`. -/
structure Reviewed where
  view : OCRReviewView
  viewBinding : Digest
  measurementsDigest : Digest
  images : List (ℕ × Bytes)
  seen : Finset ℕ

structure State where
  receipts : List OCRReviewReceipt := []
  current : Option Reviewed := none
  candidate : Option Bytes := none
  complete : Option FinalLocalArtifact := none
  revoked : Bool := false
  history : Stage → Option OCRReviewView := fun _ => none
  evidence : Stage → Option StageEvidence := fun _ => none
  draws : ℕ := 0

abbrev Review (α : Type) := Acting String State α

/-- What one `_check` meets: the clocks at its start and its end, the engine, the authority and
whether `validate_refill` still accepts the mapping. -/
structure Conditions where
  now : ℤ
  monotonic : ℤ
  engineIdentity : Digest
  authorized : Bool
  validates : Bool
  closingNow : ℤ
  closingMonotonic : ℤ

/-- One page as it is read by the engine, between two looks at the clock. -/
structure PageReading where
  before : ℤ
  answer : Except String (List TextObservation)
  after : ℤ

/-- What a call meets: the answers of its checks in their order, of the processor and the engine. -/
structure Environment where
  checks : ℕ → Conditions
  confirmedAt : ℤ
  render : Bytes → Except String (List RefillRenderedPage)
  started : ℤ
  reads : ℕ → PageReading
  write : Except String (Option Bytes)

section
variable (platform : Platform) (session : Session)

/-- `_lifetime` -/
def lifetime (revoked : Bool) (now monotonic : ℤ) : Except String Unit :=
  if revoked = true ∨ ¬(session.createdAt ≤ now ∧ now < session.expiresAt) ∨
      session.deadline ≤ monotonic then
    .error "Local OCR review expired"
  else .ok ()

def State.viewOf (s : State) (stage : Stage) : Option OCRReviewView :=
  match s.current with
  | some current => if current.view.stage = stage then some current.view else s.history stage
  | none => s.history stage

def evidenceBytes (evidence : StageEvidence) : ℕ :=
  (evidence.images.map fun image => image.2.length).sum +
    (evidence.observations.map fun o => o.text.utf8ByteSize).sum

def itemBytes (item : OCRReviewItem) : ℕ :=
  (item.expectedText.getD "").utf8ByteSize + (item.confirmedReading.getD "").utf8ByteSize

def viewBytes (view : OCRReviewView) : ℕ := (view.items.map itemBytes).sum

/-- `retained_bytes` -/
def retainedBytes (s : State) : ℕ :=
  session.original.length + session.publication.length +
    (s.candidate.map List.length).getD 0 +
    (stages.map fun stage => ((s.evidence stage).map evidenceBytes).getD 0).sum +
    (stages.map fun stage => ((s.viewOf stage).map viewBytes).getD 0).sum

/-- `_admit` -/
def admitExtra (s : State) (extra : ℕ) : Except String Unit :=
  if session.maxRetainedBytes < retainedBytes session s + extra then
    .error "Local OCR review retention limit"
  else .ok ()

def OCRReviewItem.unread (item : OCRReviewItem) : OCRReviewItem :=
  { item with confirmedReading := none }

def OCRReviewView.strip (view : OCRReviewView) : OCRReviewView :=
  { view with receipts := [], items := view.items.map OCRReviewItem.unread }

/-- `_immutable_view` -/
def immutableView (view : OCRReviewView) : Digest := platform.viewDigest view.strip

def checkStage (s : State) (stage : Stage) : Except String Unit :=
  match s.evidence stage with
  | none => .ok ()
  | some evidence =>
    if platform.measurementsDigest evidence.observations ≠ evidence.measurementsDigest then
      .error "Retained stage measurements changed"
    else if evidence.images.map (fun image => platform.sha256 image.2) ≠ evidence.pageDigests then
      .error "Retained stage images changed"
    else .ok ()

def checkHistory (s : State) (stage : Stage) : Except String Unit :=
  match s.history stage, s.evidence stage with
  | none, _ => .ok ()
  | some _, none => .error "KeyError"
  | some view, some evidence =>
    if immutableView platform view ≠ evidence.viewBinding then
      .error "Retained stage view changed"
    else .ok ()

def checkReceipt (s : State) (receipt : OCRReviewReceipt) : Except String Unit :=
  match s.viewOf receipt.stage, s.evidence receipt.stage with
  | some view, some evidence =>
    if receipt.principalId ≠ session.principalId ∨
        receipt.bindingDigest ≠ session.bindingDigest ∨
        receipt.engineDigest ≠ session.engineDigest ∨
        receipt.inputSha256 ≠ evidence.inputDigest ∨
        receipt.measurementsDigest ≠ evidence.measurementsDigest ∨
        receipt.pageImageSha256 ≠ evidence.pageDigests ∨
        receipt.readings ≠ view.items ∨ receipt.expiresAt ≠ session.expiresAt then
      .error "Local review receipt changed"
    else .ok ()
  | _, _ => .error "KeyError"

def imageOf (images : List (ℕ × Bytes)) (page : ℕ) : Except String Bytes :=
  match images.find? fun image => image.1 = page with
  | some image => .ok image.2
  | none => .error "KeyError"

def checkCurrent (s : State) : Except String Unit :=
  match s.current with
  | none => .ok ()
  | some current => do
    if immutableView platform current.view ≠ current.viewBinding then
      throw "Review measurements or scope changed"
    current.view.pages.forM fun page => do
      let image ← imageOf current.images page.number
      if platform.sha256 image ≠ page.imageSha256 then throw "Review image changed"
    if current.view.stage = .restored ∧
        s.candidate.map platform.sha256 ≠ some current.view.inputSha256 then
      throw "Reviewed candidate changed"

/-- `_check_evidence` -/
def checkEvidence (s : State) : Except String Unit := do
  stages.forM (checkStage platform s)
  stages.forM (checkHistory platform s)
  s.receipts.forM (checkReceipt session s)
  checkCurrent platform s
  admitExtra session s 0

def checked (s : State) (conditions : Conditions) : Except String Unit := do
  lifetime session s.revoked conditions.now conditions.monotonic
  if conditions.engineIdentity ≠ session.engineDigest then
    throw "Local OCR review expired or engine changed"
  if conditions.authorized = false then throw "unauthorized"
  if conditions.validates = false then throw "refill"
  checkEvidence platform session s
  lifetime session s.revoked conditions.closingNow conditions.closingMonotonic

/-- `_check` -/
def check (conditions : Conditions) : Review Unit := do
  liftM (checked platform session (← get) conditions)

def currentOf : Review Reviewed := do
  match (← get).current with
  | some current => return current
  | none => throw "AttributeError"

structure Measured where
  observations : List TextObservation := []
  images : List (ℕ × Bytes) := []
  pages : List OCRReviewPage := []

def unbounded (page : ℕ) (observations : List TextObservation) : Bool :=
  observations.isEmpty || 10000 < observations.length ||
    100000 < (observations.map fun o => o.text.length).sum ||
    observations.any fun o => o.origin ≠ .ocr || o.region.page ≠ page

def readings (observations : List TextObservation) : List Reading :=
  observations.map fun o => (o.text, o.region)

def verify (observations : List Reading) (targets : List RefillTarget) (requireAll : Bool) :
    Except String Unit :=
  verifyTextRegions platform.nfkc platform.casefold observations targets session.descriptor.pages
    requireAll

def measurePage (targets : List RefillTarget) (env : Environment) (measured : Measured)
    (page : PrivacyPage × RefillRenderedPage) : Except String Measured := do
  let (page, image) := page
  let reading := env.reads page.number
  let deadline := env.started + 30000000
  if deadline ≤ reading.before then throw "OCR deadline"
  let observations ← reading.answer
  if deadline < reading.after ∨ unbounded page.number observations = true then
    throw "Unavailable or unbounded OCR cannot be reviewed"
  observations.forM fun o => validateRegion session.descriptor.pages o.region
  verify platform session (readings image.native)
    (targets.filter fun target => target.region.page = page.number) false
  let all := measured.observations ++ observations
  if 10000 < all.length ∨ 1000000 < (all.map fun o => o.text.utf8ByteSize).sum then
    throw "Aggregate OCR evidence limit"
  return {
    observations := all
    images := measured.images ++ [(page.number, image.png)]
    pages := measured.pages ++ [⟨page.number, page.width, page.height, platform.sha256 image.png⟩] }

structure Assigned where
  rows : List OCRReviewObservation
  items : List OCRReviewItem := []
  draws : ℕ

def rowsOf (draws : ℕ) (observations : List TextObservation) : List OCRReviewObservation :=
  observations.zipIdx.map fun o =>
    { observationId := platform.uuid4 (draws + o.2), page := o.1.region.page
      bbox := o.1.region.bbox, rawText := o.1.text, confidence := o.1.confidence }

def claimRow (target : RefillTarget) (identifier : UUID) (row : OCRReviewObservation) :
    Except String OCRReviewObservation :=
  if overlaps row.region target.region = true then
    if holds target row.region = false then
      .error "Cross-cell OCR geometry cannot be overridden"
    else if row.reviewItemId ≠ none then .error "Ambiguous OCR cell"
    else .ok { row with reviewItemId := some identifier }
  else .ok row

def cellItem (target : RefillTarget) (identifier : UUID) (covered : List OCRReviewObservation) :
    OCRReviewItem where
  itemId := identifier
  kind := .placeholder
  page := target.region.page
  bbox := target.region.bbox
  observationIds := covered.map OCRReviewObservation.observationId
  expectedText := some (placeholderText target.entityId)

def placeTarget (assigned : Assigned) (target : RefillTarget) : Except String Assigned :=
  if target.present = false then .ok assigned
  else do
    let identifier := platform.uuid4 assigned.draws
    let rows ← assigned.rows.mapM (claimRow target identifier)
    let covered := assigned.rows.filter fun row => overlaps row.region target.region
    return {
      rows := rows
      items := assigned.items ++ [cellItem target identifier covered]
      draws := assigned.draws + 1 }

/-- The float `0.85` -/
def reliable : ℚ := 7656119366529843 / 9007199254740992

/-- A reading is asked for unless the measurement is reliable and free of tokens. -/
def required (row : OCRReviewObservation) : Bool :=
  !(row.confidence.any fun confidence => reliable ≤ confidence) ||
    (verify platform session [(row.rawText, row.region)] [] false).toOption.isNone

def rowItem (row : OCRReviewObservation) (identifier : UUID) : OCRReviewItem where
  itemId := identifier
  kind := .observation
  page := row.page
  bbox := row.bbox
  observationIds := [row.observationId]

def settleRow (assigned : Assigned) (row : OCRReviewObservation) : Assigned :=
  if row.reviewItemId ≠ none ∨ required platform session row = false then
    { assigned with rows := assigned.rows ++ [row] }
  else
    let identifier := platform.uuid4 assigned.draws
    { rows := assigned.rows ++ [{ row with reviewItemId := some identifier }]
      items := assigned.items ++ [rowItem row identifier]
      draws := assigned.draws + 1 }

def assign (targets : List RefillTarget) (draws : ℕ) (observations : List TextObservation) :
    Except String Assigned := do
  let placed ← targets.foldlM (placeTarget platform)
    { rows := rowsOf platform draws observations, draws := draws + observations.length }
  return placed.rows.foldl (settleRow platform session)
    { rows := [], items := placed.items, draws := placed.draws }

def targetsOf : Stage → List RefillTarget
  | .published => session.descriptor.targets
  | .restored => []

def firstView (s : State) (stage : Stage) (pdf : Bytes) (measured : Measured)
    (assigned : Assigned) : OCRReviewView where
  reviewId := session.reviewId
  stage := stage
  reviewDigest := platform.reviewDigest ⟨session.bindingDigest, stage, platform.sha256 pdf,
    measured.observations, measured.pages, assigned.items⟩
  engineDigest := session.engineDigest
  inputSha256 := platform.sha256 pdf
  pages := measured.pages
  observations := assigned.rows
  items := assigned.items
  receipts := s.receipts

def evidenceOf (view : OCRReviewView) (measured : Measured) : StageEvidence where
  observations := measured.observations
  images := measured.images
  measurementsDigest := platform.measurementsDigest measured.observations
  pageDigests := measured.pages.map OCRReviewPage.imageSha256
  viewBinding := immutableView platform view
  inputDigest := view.inputSha256

/-- The end of `_prepare`, before its last check. -/
def enter (view : OCRReviewView) (measured : Measured) (draws : ℕ) (s : State) : State :=
  { s with
    current := some {
      view := view
      viewBinding := immutableView platform view
      measurementsDigest := platform.measurementsDigest measured.observations
      images := measured.images
      seen := ∅ }
    evidence := Function.update s.evidence view.stage (some (evidenceOf platform view measured))
    draws := draws }

def admitted (extra : ℕ) : Review Unit := do
  liftM (admitExtra session (← get) extra)

/-- `_prepare`; its checks are the ones numbered from `first`. -/
def prepare (env : Environment) (first : ℕ) (stage : Stage) (pdf : Bytes) : Review Unit := do
  check platform session (env.checks first)
  let rendered ← liftM (env.render pdf)
  if rendered.length ≠ session.descriptor.pages.length then throw "Page coverage differs"
  admitted session (rendered.map fun image => image.png.length).sum
  let targets := targetsOf session stage
  let measured ← liftM ((session.descriptor.pages.zip rendered).foldlM
    (measurePage platform session targets env) {})
  check platform session (env.checks (first + 1))
  admitted session ((measured.images.map fun image => image.2.length).sum +
    (measured.observations.map fun o => o.text.utf8ByteSize).sum +
    (targets.map fun target => (placeholderText target.entityId).utf8ByteSize).sum)
  let s ← get
  let assigned ← liftM (assign platform session targets s.draws measured.observations)
  let view := firstView platform session s stage pdf measured assigned
  modify (enter platform view measured assigned.draws)
  check platform session (env.checks (first + 2))

def view (conditions : Conditions) : Review OCRReviewView := do
  check platform session conditions
  let current ← currentOf
  return { current.view with receipts := (← get).receipts }

def markSeen (page : ℕ) (s : State) : State :=
  { s with current := s.current.map fun current =>
      { current with seen := insert page current.seen } }

def image (env : Environment) (page : ℕ) : Review Bytes := do
  check platform session (env.checks 0)
  let current ← currentOf
  let content ← liftM (imageOf current.images page)
  match current.view.pages.find? fun p => p.number = page with
  | none => throw "StopIteration"
  | some expected =>
    if platform.sha256 content ≠ expected.imageSha256 then throw "Review image changed"
    modify (markSeen page)
    check platform session (env.checks 1)
    return content

def finalReadings (view : OCRReviewView) : List Reading :=
  (view.observations.filter fun row => row.reviewItemId.isNone).map
      (fun row => (row.rawText, row.region)) ++
    view.items.filterMap fun item => item.confirmedReading.map fun reading => (reading, item.region)

def receiptOf (s : State) (current : Reviewed) (confirmedAt : ℤ) : OCRReviewReceipt where
  receiptId := platform.uuid4 s.draws
  reviewId := session.reviewId
  stage := current.view.stage
  principalId := session.principalId
  bindingDigest := session.bindingDigest
  reviewDigest := current.view.reviewDigest
  engineDigest := session.engineDigest
  inputSha256 := current.view.inputSha256
  measurementsDigest := current.measurementsDigest
  pageImageSha256 := current.view.pages.map OCRReviewPage.imageSha256
  readings := current.view.items
  confirmedAt := confirmedAt
  expiresAt := session.expiresAt

def sign (current : Reviewed) (confirmedAt : ℤ) (s : State) : State :=
  { s with receipts := s.receipts ++ [receiptOf platform session s current confirmedAt],
           draws := s.draws + 1 }

/-- `_receipt` -/
def receipt (env : Environment) (conditions : Conditions) : Review Bool := do
  let current ← currentOf
  if current.view.items.any fun item => item.confirmedReading.isNone then return false
  check platform session conditions
  liftM (verify platform session (finalReadings current.view)
    (targetsOf session current.view.stage) true)
  let s ← get
  if s.receipts.any fun receipt => receipt.reviewDigest = current.view.reviewDigest then return true
  modify (sign platform session current env.confirmedAt)
  return true

def invisible (reading : String) : Bool :=
  (strip reading.toList).isEmpty || reading.toList.any fun c => c.toNat < 32

def rereadItem (itemId : UUID) (reading : String) (item : OCRReviewItem) : OCRReviewItem :=
  if item.itemId = itemId then { item with confirmedReading := some reading } else item

def rereadView (itemId : UUID) (reading : String) (view : OCRReviewView) : OCRReviewView :=
  { view with items := view.items.map (rereadItem itemId reading) }

def reread (itemId : UUID) (reading : String) (s : State) : State :=
  { s with current := s.current.map fun current =>
      { current with view := rereadView itemId reading current.view } }

/-- What `confirm` asks of a reading. -/
def confirmable (current : Reviewed) (item : OCRReviewItem) (command : OCRReviewConfirmation) :
    Except String Unit := do
  match current.view.pages.find? fun page => page.number = item.page with
  | none => throw "StopIteration"
  | some page =>
    if item.page ∉ current.seen ∨ command.pageImageSha256 ≠ page.imageSha256 then
      throw "Exact rendered page must be viewed"
    if invisible command.reading = true then throw "Explicit visible reading required"
    if item.expectedText.any (· ≠ command.reading) then
      throw "Placeholder reading differs from exact bound target"
    if item.confirmedReading.any (· ≠ command.reading) then
      throw "Confirmed reading is immutable; restart review to change it"

def admitReading (s : State) (item : OCRReviewItem) (reading : String) : Except String Unit :=
  if item.confirmedReading.isNone then admitExtra session s reading.utf8ByteSize else .ok ()

def confirm (env : Environment) (itemId : UUID) (command : OCRReviewConfirmation) :
    Review OCRReviewView := do
  check platform session (env.checks 0)
  let current ← currentOf
  let s ← get
  if command.reviewDigest ≠ current.view.reviewDigest ∨ s.complete.isSome then
    throw "Stale OCR review command"
  match current.view.items.find? fun item => item.itemId = itemId with
  | none => throw "Unknown local review item"
  | some item =>
    liftM (confirmable current item command)
    liftM (admitReading session s item command.reading)
    liftM (verify platform session [(command.reading, item.region)]
      (if item.kind = .placeholder then session.descriptor.targets else []) false)
    modify (reread itemId command.reading)
    check platform session (env.checks 1)
    let _ ← receipt platform session env (env.checks 2)
    view platform session (env.checks 3)

def history (env : Environment) (stage : Stage) : Review OCRReviewView := do
  check platform session (env.checks 0)
  let current ← currentOf
  if current.view.stage = stage then view platform session (env.checks 1)
  else
    match (← get).history stage with
    | some view => return view
    | none => throw "KeyError"

def keepView (view : OCRReviewView) (s : State) : State :=
  { s with history := Function.update s.history .published (some view) }

def keepCandidate (pdf : Bytes) (s : State) : State := { s with candidate := some pdf }

def selected (operation : FieldOperation → Bool) : List UUID4 :=
  (session.plan.fields.filter fun field => operation field.2).map Prod.fst

def artifactOf (pdf : Bytes) : Except String FinalLocalArtifact :=
  if sized : 0 < pdf.length then
    .ok {
      manifest := {
        caseId := session.plan.caseId
        documentId := session.plan.documentId
        mapId := session.plan.mapId
        runId := session.plan.runId
        revisionId := session.plan.revisionId
        inputArtifactDigest := session.plan.artifactDigest
        finalDigest := platform.sha256 pdf
        byteSize := pdf.length
        restoredFields := selected session (· ≠ .omit)
        omittedFields := selected session (· = .omit)
        sized := sized }
      pdf := pdf }
  else .error "byte_size"

def release (artifact : FinalLocalArtifact) (s : State) : State := { s with complete := some artifact }

/-- The end of `advance`. -/
def complete (conditions : Conditions) : Review (Option FinalLocalArtifact) := do
  match (← get).candidate with
  | none => throw "Exact local candidate required"
  | some pdf =>
    check platform session conditions
    let artifact ← liftM (artifactOf platform session pdf)
    modify (release artifact)
    return some artifact

def restore (env : Environment) : Review Unit := do
  let view ← view platform session (env.checks 2)
  modify (keepView view)
  match ← (liftM env.write : Review (Option Bytes)) with
  | none => throw "Immutable candidate PDF required"
  | some pdf =>
    admitted session pdf.length
    modify (keepCandidate pdf)
    check platform session (env.checks 3)
    prepare platform session env 4 .restored pdf

def advance (env : Environment) : Review (Option FinalLocalArtifact) := do
  check platform session (env.checks 0)
  match (← get).complete with
  | some artifact => return some artifact
  | none =>
    if ← receipt platform session env (env.checks 1) then
      let current ← currentOf
      if current.view.stage = .published then
        restore platform session env
        if ← receipt platform session env (env.checks 7) then
          complete platform session (env.checks 8)
        else return none
      else complete platform session (env.checks 2)
    else return none

def permitsCompleted (env : Environment) (digest : Digest) : Review Bool := do
  check platform session (env.checks 0)
  let s ← get
  return s.complete.any (fun artifact => artifact.manifest.finalDigest = digest) &&
    stages.all (fun stage => s.receipts.any fun receipt => receipt.stage = stage) &&
    s.receipts.all fun receipt => receipt.expiresAt = session.expiresAt

/-- `archive_evidence`; what it copies is all in the state. -/
def archiveEvidence (env : Environment) : Review Unit := do
  let s ← get
  if s.revoked = true ∨ s.complete.isSome then throw "Review cannot restart"
  if (env.checks 0).authorized = false then throw "unauthorized"
  liftM (checkEvidence platform session s)
  if (env.checks 1).authorized = false then throw "unauthorized"

def revoke (s : State) : State := { s with revoked := true }

def revokeAfterArchive (env : Environment) : Review Unit := do
  if (← get).complete.isSome then throw "Completed review cannot restart"
  if (env.checks 0).authorized = false then throw "unauthorized"
  modify revoke

inductive Call where
  | image (page : ℕ)
  | confirm (itemId : UUID) (command : OCRReviewConfirmation)
  | advance
  | view
  | history (stage : Stage)
  | permitsCompleted (digest : Digest)
  | archiveEvidence
  | revokeAfterArchive

def perform (env : Environment) : Call → Review Unit
  | .image page => do let _ ← image platform session env page
  | .confirm itemId command => do let _ ← confirm platform session env itemId command
  | .advance => do let _ ← advance platform session env
  | .view => do let _ ← view platform session (env.checks 0)
  | .history stage => do let _ ← history platform session env stage
  | .permitsCompleted digest => do let _ ← permitsCompleted platform session env digest
  | .archiveEvidence => archiveEvidence platform session env
  | .revokeAfterArchive => revokeAfterArchive env

def step (s : State) (call : Call × Environment) : State :=
  (perform platform session call.2 call.1 s).2

def run (calls : List (Call × Environment)) (s : State) : State :=
  calls.foldl (step platform session) s

/-- The constructor, from the first check on: the review starts with the published pages. -/
def create (env : Environment) : Review Unit := do
  check platform session (env.checks 0)
  prepare platform session env 1 .published session.publication

end

end AppraisalReview.RefillReview
