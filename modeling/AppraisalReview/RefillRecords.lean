import AppraisalReview.RefillMoves

set_option autoImplicit false

/-!
# The records of a review session

What a session has on file is kept by every write: the measurements and items of
a stage as they were first shown, the readings of its receipts, and the bytes
that were measured in the restored stage.
-/
namespace AppraisalReview.RefillReview
open DocumentTransfer Placeholders Going Raising
open Relation (ReflTransGen)

section
variable (platform : Platform) (session : Session)

def Source (s : State) : Stage → Bytes → Prop
  | .published, pdf => pdf = session.publication
  | .restored, pdf => s.candidate = some pdf

/-- A view and its evidence, as they were prepared but for the readings confirmed since. -/
structure Filed (known : Account) (stage : Stage) (pdf : Bytes) (view : OCRReviewView)
    (evidence : StageEvidence) : Prop where
  prepared : ∃ measured assigned, Prepared platform session stage measured assigned ∧
    view.strip = (firstView platform session {} stage pdf measured assigned).strip ∧
    evidence = evidenceOf platform (firstView platform session {} stage pdf measured assigned)
      measured
  read : ∀ item ∈ view.items, ∀ reading ∈ item.confirmedReading,
    (∀ text ∈ item.expectedText, text = reading) ∧
      known.confirms stage item.itemId item.page reading

structure Attests (receipt : OCRReviewReceipt) (view : OCRReviewView) (evidence : StageEvidence) :
    Prop where
  principal : receipt.principalId = session.principalId
  binding : receipt.bindingDigest = session.bindingDigest
  engine : receipt.engineDigest = session.engineDigest
  input : receipt.inputSha256 = evidence.inputDigest
  measurements : receipt.measurementsDigest = evidence.measurementsDigest
  pages : receipt.pageImageSha256 = evidence.pageDigests
  readings : receipt.readings = view.items
  expiry : receipt.expiresAt = session.expiresAt
  digest : receipt.reviewDigest = view.reviewDigest
  read : ∀ item ∈ view.items, item.confirmedReading ≠ none
  verified : verify platform session (finalReadings view) (targetsOf session receipt.stage) true =
    .ok ()

structure Matches (known : Account) (current : Reviewed) (evidence : StageEvidence) :
    Prop where
  binding : current.viewBinding = evidence.viewBinding
  measurements : current.measurementsDigest = evidence.measurementsDigest
  images : current.images = evidence.images
  seen : ∀ page ∈ current.seen, known.shows current.view.stage page

structure Sound (known : Account) (s : State) : Prop where
  filed : ∀ stage view, s.viewOf stage = some view → ∃ evidence pdf,
    s.evidence stage = some evidence ∧ Source session s stage pdf ∧
      Filed platform session known stage pdf view evidence
  measured : ∀ stage, s.viewOf stage = none → s.evidence stage = none
  current : ∀ current, s.current = some current → ∀ evidence,
    s.evidence current.view.stage = some evidence → Matches known current evidence
  history : ∀ view, s.history .published = some view → ∃ evidence,
    s.evidence .published = some evidence ∧ immutableView platform view = evidence.viewBinding
  later : s.history .restored = none
  before : ∀ current, s.current = some current → current.view.stage = .restored →
    (∃ view, s.history .published = some view) ∧ ∃ receipt ∈ s.receipts, receipt.stage = .published
  receipts : ∀ receipt ∈ s.receipts, ∃ view evidence, s.viewOf receipt.stage = some view ∧
    s.evidence receipt.stage = some evidence ∧ Attests platform session receipt view evidence
  complete : ∀ artifact, s.complete = some artifact → ∃ current, s.current = some current ∧
    current.view.stage = .restored ∧ Signed s current ∧ s.candidate = some artifact.pdf ∧
      artifactOf platform session artifact.pdf = .ok artifact
  fits : retainedBytes session s ≤ session.maxRetainedBytes

variable {platform session} {known : Account} {s : State}

theorem viewOf_current {current : Reviewed} (held : s.current = some current) :
    s.viewOf current.view.stage = some current.view := by
  simp [State.viewOf, held]

theorem viewOf_other {current : Reviewed} (held : s.current = some current) {stage : Stage}
    (other : current.view.stage ≠ stage) : s.viewOf stage = s.history stage := by
  simp [State.viewOf, held, other]

theorem retainedBytes_congr {s' : State} (hcandidate : s'.candidate = s.candidate)
    (hevidence : s'.evidence = s.evidence) (hviews : ∀ stage, s'.viewOf stage = s.viewOf stage) :
    retainedBytes session s' = retainedBytes session s := by
  simp only [retainedBytes, hcandidate, hevidence, hviews]

structure Account.Within (known known' : Account) : Prop where
  shows : ∀ {stage page}, known.shows stage page → known'.shows stage page
  confirms : ∀ {stage itemId page reading}, known.confirms stage itemId page reading →
    known'.confirms stage itemId page reading

def Account.nothing : Account := ⟨fun _ _ => False, fun _ _ _ _ => False⟩

def Account.everything : Account := ⟨fun _ _ => True, fun _ _ _ _ => True⟩

theorem Account.Within.nothing (known : Account) : Account.nothing.Within known :=
  ⟨fun h => h.elim, fun h => h.elim⟩

theorem Account.Within.everything (known : Account) : known.Within .everything :=
  ⟨fun _ => trivial, fun _ => trivial⟩

theorem Filed.mono {known' : Account} (more : known.Within known')
    {stage : Stage} {pdf : Bytes} {view : OCRReviewView} {evidence : StageEvidence}
    (h : Filed platform session known stage pdf view evidence) :
    Filed platform session known' stage pdf view evidence :=
  ⟨h.prepared, fun item hitem reading hreading =>
    ⟨(h.read item hitem reading hreading).1, more.confirms (h.read item hitem reading hreading).2⟩⟩

theorem Sound.mono {known' : Account} (more : known.Within known')
    (h : Sound platform session known s) : Sound platform session known' s where
  filed stage view hview := by
    obtain ⟨evidence, pdf, hevidence, hsource, hfiled⟩ := h.filed stage view hview
    exact ⟨evidence, pdf, hevidence, hsource, hfiled.mono more⟩
  measured := h.measured
  current current held evidence hevidence := by
    obtain ⟨hbinding, hmeasurements, himages, hseen⟩ := h.current current held evidence hevidence
    exact ⟨hbinding, hmeasurements, himages, fun page hpage => more.shows (hseen page hpage)⟩
  history := h.history
  later := h.later
  before := h.before
  receipts := h.receipts
  complete := h.complete
  fits := h.fits

theorem markSeen_current {current : Reviewed} (held : s.current = some current) (page : ℕ) :
    (markSeen page s).current = some { current with seen := insert page current.seen } := by
  simp [markSeen, held]

theorem markSeen_viewOf (page : ℕ) (stage : Stage) : (markSeen page s).viewOf stage = s.viewOf stage := by
  unfold State.viewOf markSeen
  cases s.current <;> rfl

theorem Sound.markSeen (h : Sound platform session known s) {current : Reviewed}
    (held : s.current = some current) {page : ℕ} (shown : known.shows current.view.stage page) :
    Sound platform session known (markSeen page s) where
  filed stage view hview := h.filed stage view ((markSeen_viewOf ..).symm.trans hview)
  measured stage hview := h.measured stage ((markSeen_viewOf ..).symm.trans hview)
  current other hother evidence hevidence := by
    obtain rfl := Option.some.inj ((markSeen_current held page).symm.trans hother)
    obtain ⟨hbinding, hmeasurements, himages, hseen⟩ := h.current current held evidence hevidence
    refine ⟨hbinding, hmeasurements, himages, fun p hp => ?_⟩
    obtain rfl | hp := Finset.mem_insert.mp hp
    · exact shown
    · exact hseen p hp
  history := h.history
  later := h.later
  before other hother restored := by
    obtain rfl := Option.some.inj ((markSeen_current held page).symm.trans hother)
    exact h.before current held restored
  receipts receipt hreceipt := by
    obtain ⟨view, evidence, hview, hevidence, hattests⟩ := h.receipts receipt hreceipt
    exact ⟨view, evidence, (markSeen_viewOf ..).trans hview, hevidence, hattests⟩
  complete artifact hartifact := by
    obtain ⟨other, hother, hstage, signed, hcandidate, hmade⟩ := h.complete artifact hartifact
    obtain rfl := Option.some.inj (held.symm.trans hother)
    exact ⟨_, markSeen_current held page, hstage, signed, hcandidate, hmade⟩
  fits := by
    have same : retainedBytes session (RefillReview.markSeen page s) = retainedBytes session s :=
      retainedBytes_congr rfl rfl (markSeen_viewOf page)
    rw [same]
    exact h.fits

theorem Sound.revoke (h : Sound platform session known s) :
    Sound platform session known (revoke s) := ⟨h.filed, h.measured, h.current, h.history, h.later,
  h.before, h.receipts, h.complete, h.fits⟩

theorem Sound.release (h : Sound platform session known s) {current : Reviewed} {pdf : Bytes}
    {artifact : FinalLocalArtifact} (held : s.current = some current)
    (restored : current.view.stage = .restored) (signed : Signed s current)
    (written : s.candidate = some pdf) (made : artifactOf platform session pdf = .ok artifact) :
    Sound platform session known (release artifact s) where
  filed := h.filed
  measured := h.measured
  current := h.current
  history := h.history
  later := h.later
  before := h.before
  receipts := h.receipts
  complete other hother := by
    obtain rfl := Option.some.inj hother
    have hpdf : artifact.pdf = pdf := by
      unfold artifactOf at made
      split at made
      · rw [← Except.ok.inj made]
      · cases made
    subst hpdf
    exact ⟨current, held, restored, signed, written, made⟩
  fits := h.fits

section
variable {stage : Stage} {pdf : Bytes} {view : OCRReviewView} {evidence : StageEvidence}

theorem Filed.staged (h : Filed platform session known stage pdf view evidence) :
    view.stage = stage := by
  obtain ⟨⟨measured, assigned, -, hstrip, -⟩, -⟩ := h
  exact congrArg OCRReviewView.stage hstrip

theorem Filed.input (h : Filed platform session known stage pdf view evidence) :
    view.inputSha256 = platform.sha256 pdf ∧ evidence.inputDigest = platform.sha256 pdf := by
  obtain ⟨⟨measured, assigned, -, hstrip, rfl⟩, -⟩ := h
  exact ⟨congrArg OCRReviewView.inputSha256 hstrip, rfl⟩

theorem Filed.pages (h : Filed platform session known stage pdf view evidence) :
    view.pages.map OCRReviewPage.imageSha256 = evidence.pageDigests := by
  obtain ⟨⟨measured, assigned, -, hstrip, rfl⟩, -⟩ := h
  exact congrArg (fun view => view.pages.map OCRReviewPage.imageSha256) hstrip

theorem Filed.binding (h : Filed platform session known stage pdf view evidence) :
    immutableView platform view = evidence.viewBinding := by
  obtain ⟨⟨measured, assigned, -, hstrip, rfl⟩, -⟩ := h
  exact congrArg platform.viewDigest hstrip

theorem Filed.digest (h : Filed platform session known stage pdf view evidence) :
    ∃ scope : ReviewScope, scope.stage = stage ∧
      view.reviewDigest = platform.reviewDigest scope := by
  obtain ⟨⟨measured, assigned, -, hstrip, -⟩, -⟩ := h
  exact ⟨_, rfl, congrArg OCRReviewView.reviewDigest hstrip⟩

theorem Filed.distinct (h : Filed platform session known stage pdf view evidence)
    (fresh : Function.Injective platform.uuid4) : (view.items.map OCRReviewItem.itemId).Nodup := by
  obtain ⟨⟨measured, assigned, hprepared, hstrip, -⟩, -⟩ := h
  have hitems : view.items.map OCRReviewItem.unread = assigned.items.map OCRReviewItem.unread :=
    congrArg OCRReviewView.items hstrip
  have hids := congrArg (List.map OCRReviewItem.itemId) hitems
  rw [List.map_map, List.map_map] at hids
  have hsame : view.items.map OCRReviewItem.itemId = assigned.items.map OCRReviewItem.itemId := hids
  rw [hsame]
  exact hprepared.itemized.nodup fresh

theorem Attests.congr {receipt : OCRReviewReceipt} {view' : OCRReviewView}
    (h : Attests platform session receipt view evidence) (hitems : view'.items = view.items)
    (hrows : view'.observations = view.observations)
    (hdigest : view'.reviewDigest = view.reviewDigest) :
    Attests platform session receipt view' evidence where
  principal := h.principal
  binding := h.binding
  engine := h.engine
  input := h.input
  measurements := h.measurements
  pages := h.pages
  readings := h.readings.trans hitems.symm
  expiry := h.expiry
  digest := h.digest.trans hdigest.symm
  read := hitems ▸ h.read
  verified := by
    have same : finalReadings view' = finalReadings view := by
      rw [finalReadings, finalReadings, hitems, hrows]
    rw [same]
    exact h.verified

theorem Filed.copy (h : Filed platform session known stage pdf view evidence)
    (receipts : List OCRReviewReceipt) :
    Filed platform session known stage pdf { view with receipts := receipts } evidence :=
  ⟨h.prepared, h.read⟩

end

theorem Sound.stage_of_digest (h : Sound platform session known s)
    (apart : ∀ scope scope', platform.reviewDigest scope = platform.reviewDigest scope' →
      scope.stage = scope'.stage) {current : Reviewed} (held : s.current = some current)
    {receipt : OCRReviewReceipt} (hreceipt : receipt ∈ s.receipts)
    (hdigest : receipt.reviewDigest = current.view.reviewDigest) :
    receipt.stage = current.view.stage := by
  obtain ⟨view, evidence, hview, -, hattests⟩ := h.receipts receipt hreceipt
  obtain ⟨_, _, -, -, hfiled⟩ := h.filed _ _ hview
  obtain ⟨_, _, -, -, hcurrent⟩ := h.filed _ _ (viewOf_current held)
  obtain ⟨scope, hscope, hview⟩ := hfiled.digest
  obtain ⟨scope', hscope', hview'⟩ := hcurrent.digest
  rw [← hscope, ← hscope']
  refine apart _ _ ?_
  rw [← hview, ← hview', ← hattests.digest, hdigest]

theorem Sound.sign (h : Sound platform session known s) {current : Reviewed} (confirmedAt : ℤ)
    (held : s.current = some current)
    (read : ∀ item ∈ current.view.items, item.confirmedReading ≠ none)
    (verified : verify platform session (finalReadings current.view)
      (targetsOf session current.view.stage) true = .ok ()) :
    Sound platform session known (sign platform session current confirmedAt s) where
  filed := h.filed
  measured := h.measured
  current := h.current
  history := h.history
  later := h.later
  before other hother restored := by
    obtain ⟨hkept, receipt, hreceipt, hstage⟩ := h.before other hother restored
    exact ⟨hkept, receipt, List.mem_append_left _ hreceipt, hstage⟩
  receipts receipt hreceipt := by
    obtain hreceipt | hreceipt := List.mem_append.mp hreceipt
    · exact h.receipts receipt hreceipt
    · obtain rfl := List.mem_singleton.mp hreceipt
      obtain ⟨evidence, pdf, hevidence, -, hfiled⟩ := h.filed _ _ (viewOf_current held)
      obtain ⟨-, hmeasurements, -, -⟩ := h.current current held evidence hevidence
      refine ⟨current.view, evidence, viewOf_current held, hevidence, rfl, rfl, rfl, ?_,
        hmeasurements, hfiled.pages, rfl, rfl, rfl, read, verified⟩
      exact hfiled.input.1.trans hfiled.input.2.symm
  complete artifact hartifact := by
    obtain ⟨other, hother, hstage, ⟨receipt, hreceipt, hdigest⟩, hcandidate, hmade⟩ :=
      h.complete artifact hartifact
    exact ⟨other, hother, hstage, ⟨receipt, List.mem_append_left _ hreceipt, hdigest⟩, hcandidate,
      hmade⟩
  fits := h.fits

theorem keepView_viewOf {current : Reviewed} (held : s.current = some current)
    (published : current.view.stage = .published) (view : OCRReviewView) (stage : Stage) :
    (keepView view s).viewOf stage = s.viewOf stage := by
  cases stage <;> simp [State.viewOf, keepView, held, published]

theorem Sound.unreleased (h : Sound platform session known s) {current : Reviewed}
    (held : s.current = some current) (published : current.view.stage = .published) :
    s.complete = none ∧ s.viewOf .restored = none := by
  constructor
  · cases hcomplete : s.complete with
    | none => rfl
    | some artifact =>
      obtain ⟨other, hother, hstage, -⟩ := h.complete artifact hcomplete
      obtain rfl := Option.some.inj (held.symm.trans hother)
      cases published.symm.trans hstage
  · rw [viewOf_other held (by rw [published]; decide)]
    exact h.later

theorem Sound.keepView (h : Sound platform session known s) {current : Reviewed}
    (held : s.current = some current) (published : current.view.stage = .published) :
    Sound platform session known (keepView { current.view with receipts := s.receipts } s) where
  filed stage view hview := h.filed stage view ((keepView_viewOf held published ..).symm.trans hview)
  measured stage hview := h.measured stage ((keepView_viewOf held published ..).symm.trans hview)
  current := h.current
  history view hview := by
    obtain rfl := Option.some.inj ((keepView_history _ s).symm.trans hview)
    obtain ⟨evidence, pdf, hevidence, -, hfiled⟩ := h.filed _ _ (viewOf_current held)
    rw [published] at hevidence
    exact ⟨evidence, hevidence, hfiled.binding⟩
  later := by
    simp [RefillReview.keepView, h.later]
  before other hother restored := by
    obtain rfl := Option.some.inj (held.symm.trans hother)
    cases published.symm.trans restored
  receipts receipt hreceipt := by
    obtain ⟨view, evidence, hview, hevidence, hattests⟩ := h.receipts receipt hreceipt
    exact ⟨view, evidence, (keepView_viewOf held published ..).trans hview, hevidence, hattests⟩
  complete := h.complete
  fits := by
    have same : ∀ view, retainedBytes session (RefillReview.keepView view s) =
        retainedBytes session s := fun view =>
      retainedBytes_congr rfl rfl (keepView_viewOf held published view)
    rw [same]
    exact h.fits

theorem Sound.keepCandidate (h : Sound platform session known s) {current : Reviewed}
    {pdf : Bytes} (held : s.current = some current) (published : current.view.stage = .published)
    (fits : retainedBytes session s + pdf.length ≤ session.maxRetainedBytes) :
    Sound platform session known (keepCandidate pdf s) where
  filed stage view hview := by
    obtain ⟨evidence, source, hevidence, hsource, hfiled⟩ := h.filed stage view hview
    refine ⟨evidence, source, hevidence, ?_, hfiled⟩
    cases stage with
    | published => exact hsource
    | restored => cases (h.unreleased held published).2.symm.trans hview
  measured := h.measured
  current := h.current
  history := h.history
  later := h.later
  before := h.before
  receipts := h.receipts
  complete artifact hartifact := by
    cases (h.unreleased held published).1.symm.trans hartifact
  fits := by
    refine le_trans ?_ fits
    have views : (RefillReview.keepCandidate pdf s).viewOf = s.viewOf := rfl
    unfold retainedBytes
    rw [views]
    simp only [RefillReview.keepCandidate, Option.map_some, Option.getD_some]
    omega

@[simp] theorem unread_reread (itemId : UUID) (reading : String) (item : OCRReviewItem) :
    (rereadItem itemId reading item).unread = item.unread := by
  unfold rereadItem
  split <;> rfl

theorem strip_reread (itemId : UUID) (reading : String) (view : OCRReviewView) :
    (rereadView itemId reading view).strip = view.strip := by
  simp [OCRReviewView.strip, rereadView, Function.comp_def]

theorem reread_current {current : Reviewed} (held : s.current = some current) (itemId : UUID)
    (reading : String) : (reread itemId reading s).current =
      some { current with view := rereadView itemId reading current.view } := by
  simp [reread, held]

theorem reread_other {current : Reviewed} (held : s.current = some current) {stage : Stage}
    (other : current.view.stage ≠ stage) (itemId : UUID) (reading : String) :
    (reread itemId reading s).viewOf stage = s.viewOf stage := by
  simp [State.viewOf, reread, held, rereadView, other]

theorem reread_self {current : Reviewed} (held : s.current = some current) (itemId : UUID)
    (reading : String) : (reread itemId reading s).viewOf current.view.stage =
      some (rereadView itemId reading current.view) := by
  simp [State.viewOf, reread, held, rereadView]

theorem found_unique {items : List OCRReviewItem} (distinct : (items.map OCRReviewItem.itemId).Nodup)
    {itemId : UUID} {item other : OCRReviewItem}
    (found : (items.find? fun item => item.itemId = itemId) = some item) (hother : other ∈ items)
    (hid : other.itemId = itemId) : other = item := by
  obtain ⟨hitem, hitemId⟩ := find_mem found
  exact List.inj_on_of_nodup_map distinct hother hitem (hid.trans hitemId.symm)

theorem reread_same {view : OCRReviewView} (distinct : (view.items.map OCRReviewItem.itemId).Nodup)
    {itemId : UUID} {reading : String} {item : OCRReviewItem}
    (found : (view.items.find? fun item => item.itemId = itemId) = some item)
    (confirmed : item.confirmedReading = some reading) : rereadView itemId reading view = view := by
  have items : view.items.map (rereadItem itemId reading) = view.items := by
    refine (List.map_congr_left fun other hother => ?_).trans (List.map_id _)
    unfold rereadItem
    split
    · next hid =>
      rw [found_unique distinct found hother hid, ← confirmed]
      rfl
    · rfl
  rw [rereadView, items]

theorem reread_bytes {items : List OCRReviewItem} (distinct : (items.map OCRReviewItem.itemId).Nodup)
    {itemId : UUID} {item : OCRReviewItem} (reading : String)
    (found : (items.find? fun item => item.itemId = itemId) = some item)
    (unconfirmed : item.confirmedReading = none) :
    ((items.map (rereadItem itemId reading)).map itemBytes).sum =
      (items.map itemBytes).sum + reading.utf8ByteSize := by
  induction items with
  | nil => cases found
  | cons first rest ih =>
    rw [List.map_cons, List.nodup_cons] at distinct
    simp only [List.map_cons, List.sum_cons]
    by_cases hid : first.itemId = itemId
    case pos =>
      rw [List.find?_cons_of_pos (by simpa using hid)] at found
      obtain rfl := Option.some.inj found
      have others : rest.map (rereadItem itemId reading) = rest := by
        refine (List.map_congr_left fun other hother => ?_).trans (List.map_id _)
        refine if_neg fun same => distinct.1 ?_
        rw [hid, ← same]
        exact List.mem_map_of_mem hother
      have here : itemBytes (rereadItem itemId reading first) =
          itemBytes first + reading.utf8ByteSize := by
        simp [rereadItem, hid, itemBytes, unconfirmed]
      rw [others, here]
      omega
    case neg =>
      rw [List.find?_cons_of_neg (by simpa using hid)] at found
      have here : rereadItem itemId reading first = first := if_neg hid
      rw [ih distinct.2 found, here]
      omega

theorem retained_eq (s : State) : retainedBytes session s =
    session.original.length + session.publication.length + (s.candidate.map List.length).getD 0 +
      ((((s.evidence .published).map evidenceBytes).getD 0) +
        ((s.evidence .restored).map evidenceBytes).getD 0) +
      ((((s.viewOf .published).map viewBytes).getD 0) +
        ((s.viewOf .restored).map viewBytes).getD 0) := by
  simp [retainedBytes, stages]

theorem Sound.reread_fits (h : Sound platform session known s)
    (fresh : Function.Injective platform.uuid4) {current : Reviewed} {item : OCRReviewItem}
    {itemId : UUID} {reading : String} (held : s.current = some current)
    (found : (current.view.items.find? fun item => item.itemId = itemId) = some item)
    (kept : ∀ text ∈ item.confirmedReading, text = reading)
    (fits : item.confirmedReading = none →
      retainedBytes session s + reading.utf8ByteSize ≤ session.maxRetainedBytes) :
    retainedBytes session (reread itemId reading s) ≤ session.maxRetainedBytes := by
  obtain ⟨evidence, pdf, -, -, hfiled⟩ := h.filed _ _ (viewOf_current held)
  have distinct := hfiled.distinct fresh
  have self := reread_self held itemId reading
  have mine := viewOf_current held
  have other : ∀ stage, current.view.stage ≠ stage →
      (reread itemId reading s).viewOf stage = s.viewOf stage := fun _ hstage =>
    reread_other held hstage itemId reading
  have candidate : (reread itemId reading s).candidate = s.candidate := rfl
  have onFile : (reread itemId reading s).evidence = s.evidence := rfl
  cases hconfirmed : item.confirmedReading with
  | some text =>
    obtain rfl := kept text hconfirmed
    rw [reread_same distinct found hconfirmed] at self
    have same : retainedBytes session (reread itemId text s) = retainedBytes session s := by
      refine retainedBytes_congr rfl rfl fun stage => ?_
      by_cases hstage : current.view.stage = stage
      · exact hstage ▸ self.trans mine.symm
      · exact other stage hstage
    rw [same]
    exact h.fits
  | none =>
    refine le_trans ?_ (fits hconfirmed)
    have bytes : viewBytes (rereadView itemId reading current.view) =
        viewBytes current.view + reading.utf8ByteSize := reread_bytes distinct reading found hconfirmed
    rw [retained_eq, retained_eq, candidate, onFile]
    cases hstage : current.view.stage with
    | published =>
      rw [hstage] at self mine
      rw [self, mine, other .restored (by rw [hstage]; decide)]
      simp only [Option.map_some, Option.getD_some, bytes]
      omega
    | restored =>
      rw [hstage] at self mine
      rw [self, mine, other .published (by rw [hstage]; decide)]
      simp only [Option.map_some, Option.getD_some, bytes]
      omega

theorem Filed.reread {stage : Stage} {pdf : Bytes} {view : OCRReviewView} {evidence : StageEvidence}
    (h : Filed platform session known stage pdf view evidence)
    (fresh : Function.Injective platform.uuid4) {item : OCRReviewItem} {itemId : UUID}
    {reading : String} (found : (view.items.find? fun item => item.itemId = itemId) = some item)
    (told : known.confirms stage itemId item.page reading)
    (bound : ∀ text ∈ item.expectedText, text = reading) :
    Filed platform session known stage pdf (rereadView itemId reading view) evidence where
  prepared := by
    obtain ⟨measured, assigned, hprepared, hstrip, hevidence⟩ := h.prepared
    exact ⟨measured, assigned, hprepared, (strip_reread ..).trans hstrip, hevidence⟩
  read other hother text htext := by
    obtain ⟨before, hbefore, rfl⟩ := List.mem_map.mp hother
    unfold rereadItem at htext ⊢
    split at htext
    · next hid =>
      rw [if_pos hid]
      obtain rfl := Option.some.inj htext
      obtain rfl := found_unique (h.distinct fresh) found hbefore hid
      exact ⟨bound, hid ▸ told⟩
    · next hid =>
      rw [if_neg hid]
      exact h.read before hbefore text htext

theorem Sound.reread (h : Sound platform session known s)
    (fresh : Function.Injective platform.uuid4) {current : Reviewed} {item : OCRReviewItem}
    {itemId : UUID} {reading : String} (held : s.current = some current)
    (found : (current.view.items.find? fun item => item.itemId = itemId) = some item)
    (told : known.shows current.view.stage item.page →
      known.confirms current.view.stage itemId item.page reading)
    (viewed : item.page ∈ current.seen) (bound : ∀ text ∈ item.expectedText, text = reading)
    (kept : ∀ text ∈ item.confirmedReading, text = reading)
    (fits : item.confirmedReading = none →
      retainedBytes session s + reading.utf8ByteSize ≤ session.maxRetainedBytes) :
    Sound platform session known (reread itemId reading s) where
  filed stage view hview := by
    by_cases hstage : current.view.stage = stage
    case pos =>
      subst hstage
      obtain rfl := Option.some.inj ((reread_self held itemId reading).symm.trans hview)
      obtain ⟨evidence, pdf, hevidence, hsource, hfiled⟩ := h.filed _ _ (viewOf_current held)
      have shown := (h.current current held evidence hevidence).seen item.page viewed
      exact ⟨evidence, pdf, hevidence, hsource, hfiled.reread fresh found (told shown) bound⟩
    case neg =>
      exact h.filed stage view ((reread_other held hstage itemId reading).symm.trans hview)
  measured stage hview := by
    by_cases hstage : current.view.stage = stage
    case pos =>
      subst hstage
      cases (reread_self held itemId reading).symm.trans hview
    case neg => exact h.measured stage ((reread_other held hstage itemId reading).symm.trans hview)
  current other hother evidence hevidence := by
    obtain rfl := Option.some.inj ((reread_current held itemId reading).symm.trans hother)
    obtain ⟨hbinding, hmeasurements, himages, hseen⟩ := h.current current held evidence hevidence
    exact ⟨hbinding, hmeasurements, himages, hseen⟩
  history := h.history
  later := h.later
  before other hother restored := by
    obtain rfl := Option.some.inj ((reread_current held itemId reading).symm.trans hother)
    exact h.before current held restored
  receipts receipt hreceipt := by
    obtain ⟨view, evidence, hview, hevidence, hattests⟩ := h.receipts receipt hreceipt
    refine ⟨view, evidence, ?_, hevidence, hattests⟩
    by_cases hstage : current.view.stage = receipt.stage
    case pos =>
      rw [← hstage] at hview ⊢
      obtain rfl := Option.some.inj ((viewOf_current held).symm.trans hview)
      obtain ⟨_, _, -, -, hfiled⟩ := h.filed _ _ (viewOf_current held)
      rw [reread_self held]
      -- an attested view is read completely, so the reading is the one it has
      cases hconfirmed : item.confirmedReading with
      | none => exact absurd hconfirmed (hattests.read item (find_mem found).1)
      | some text =>
        obtain rfl := kept text hconfirmed
        rw [reread_same (hfiled.distinct fresh) found hconfirmed]
    case neg => exact (reread_other held hstage itemId reading).trans hview
  complete artifact hartifact := by
    obtain ⟨other, hother, hstage, signed, hcandidate, hmade⟩ := h.complete artifact hartifact
    obtain rfl := Option.some.inj (held.symm.trans hother)
    exact ⟨_, reread_current held itemId reading, hstage, signed, hcandidate, hmade⟩
  fits := h.reread_fits fresh held found kept fits

theorem enter_self (view : OCRReviewView) (measured : Measured) (draws : ℕ) (s : State) :
    (enter platform view measured draws s).viewOf view.stage = some view := by
  simp [State.viewOf, enter]

theorem enter_other {view : OCRReviewView} {stage : Stage} (other : view.stage ≠ stage)
    (measured : Measured) (draws : ℕ) (s : State) :
    (enter platform view measured draws s).viewOf stage = s.history stage := by
  simp [State.viewOf, enter, other]

theorem enter_evidence (view : OCRReviewView) (measured : Measured) (draws : ℕ) (s : State) :
    (enter platform view measured draws s).evidence view.stage =
      some (evidenceOf platform view measured) := by
  simp [enter]

theorem enter_evidence_other {view : OCRReviewView} {stage : Stage} (other : stage ≠ view.stage)
    (measured : Measured) (draws : ℕ) (s : State) :
    (enter platform view measured draws s).evidence stage = s.evidence stage :=
  Function.update_of_ne other ..

theorem firstView_filed {stage : Stage} {pdf : Bytes} {measured : Measured} {assigned : Assigned}
    (prepared : Prepared platform session stage measured assigned) (s : State) :
    Filed platform session known stage pdf
      (firstView platform session s stage pdf measured assigned)
      (evidenceOf platform (firstView platform session s stage pdf measured assigned) measured) where
  prepared := ⟨measured, assigned, prepared, rfl, rfl⟩
  read item hitem reading hreading := by
    have unread : item.confirmedReading = none := by
      obtain ⟨target, -, hcell⟩ | hasked := prepared.itemized.items item hitem
      · exact hcell.unread
      · exact hasked.unread
    rw [unread] at hreading
    cases hreading

theorem enter_bytes {stage : Stage} {pdf : Bytes} {measured : Measured} {assigned : Assigned}
    (prepared : Prepared platform session stage measured assigned) (s : State) :
    evidenceBytes (evidenceOf platform (firstView platform session s stage pdf measured assigned)
        measured) + viewBytes (firstView platform session s stage pdf measured assigned) ≤
      preparedBytes session stage measured := by
  have items := prepared.itemized.bytes
  exact Nat.add_le_add_left items _

theorem published_ne : Stage.published ≠ .restored := by decide

theorem sound_enterPublished {measured : Measured} {assigned : Assigned}
    (prepared : Prepared platform session .published measured assigned)
    (fits : retainedBytes session {} + preparedBytes session .published measured ≤
      session.maxRetainedBytes) :
    Sound platform session known (enter platform
      (firstView platform session {} .published session.publication measured assigned) measured
      assigned.draws {}) := by
  set view := firstView platform session {} .published session.publication measured assigned
  have self := @enter_self platform view measured assigned.draws {}
  have other : (enter platform view measured assigned.draws {}).viewOf .restored = none :=
    enter_other published_ne measured assigned.draws {}
  have here := @enter_evidence platform view measured assigned.draws {}
  refine ⟨fun stage v hv => ?_, fun stage hv => ?_, fun current held evidence hevidence => ?_,
    fun _ hv => ?_, rfl, fun current held restored => ?_, fun _ hr => ?_, fun _ ha => ?_, ?_⟩
  · cases stage with
    | published =>
      obtain rfl := Option.some.inj (self.symm.trans hv)
      exact ⟨_, _, here, rfl, firstView_filed prepared {}⟩
    | restored => cases other.symm.trans hv
  · cases stage with
    | published => cases self.symm.trans hv
    | restored => exact enter_evidence_other published_ne.symm measured assigned.draws {}
  · obtain rfl := Option.some.inj held
    obtain rfl := Option.some.inj (here.symm.trans hevidence)
    exact ⟨rfl, rfl, rfl, fun page hpage => absurd hpage (Finset.notMem_empty _)⟩
  · cases hv
  · obtain rfl := Option.some.inj held
    cases restored
  · cases hr
  · cases ha
  · refine le_trans ?_ fits
    have bytes : evidenceBytes (evidenceOf platform view measured) + viewBytes view ≤
        preparedBytes session .published measured := enter_bytes prepared {}
    have onFile : (enter platform view measured assigned.draws {}).evidence .published =
      some (evidenceOf platform view measured) := here
    have absent : (enter platform view measured assigned.draws {}).evidence .restored = none :=
      enter_evidence_other published_ne.symm measured assigned.draws {}
    have mine : (enter platform view measured assigned.draws {}).viewOf .published = some view := self
    have candidate : (enter platform view measured assigned.draws {}).candidate = none := rfl
    have empty : ∀ stage, ({} : State).viewOf stage = none := fun _ => rfl
    rw [retained_eq, retained_eq, onFile, absent, mine, other, candidate, empty, empty]
    simp only [Option.map_some, Option.map_none, Option.getD_some, Option.getD_none]
    omega

theorem Sound.enterRestored (h : Sound platform session known s)
    (apart : ∀ scope scope', platform.reviewDigest scope = platform.reviewDigest scope' →
      scope.stage = scope'.stage) {pdf : Bytes} {measured : Measured} {assigned : Assigned}
    (turn : Turn session s pdf .restored)
    (prepared : Prepared platform session .restored measured assigned)
    (fits : retainedBytes session s + preparedBytes session .restored measured ≤
      session.maxRetainedBytes) :
    Sound platform session known (enter platform
      (firstView platform session s .restored pdf measured assigned) measured assigned.draws s) := by
  obtain ⟨current, held, published, ⟨receipt, hreceipt, hsigned⟩, hcandidate, receipts, hkept⟩ := turn
  set view := firstView platform session s .restored pdf measured assigned
  have self : (enter platform view measured assigned.draws s).viewOf .restored = some view :=
    enter_self view measured assigned.draws s
  have other : (enter platform view measured assigned.draws s).viewOf .published =
      some { current.view with receipts := receipts } :=
    (enter_other published_ne.symm measured assigned.draws s).trans hkept
  have here : (enter platform view measured assigned.draws s).evidence .restored =
      some (evidenceOf platform view measured) := enter_evidence view measured assigned.draws s
  have there : (enter platform view measured assigned.draws s).evidence .published =
      s.evidence .published := enter_evidence_other published_ne measured assigned.draws s
  have mine := published ▸ viewOf_current held
  obtain ⟨evidence, source, hevidence, hsource, hfiled⟩ := h.filed .published _ mine
  obtain ⟨unreleased, unrestored⟩ := h.unreleased held published
  refine ⟨fun stage v hv => ?_, fun stage hv => ?_, fun after hafter e he => ?_,
    fun v hv => ?_, h.later, fun after hafter restored => ?_, fun r hr => ?_, fun a ha => ?_, ?_⟩
  · cases stage with
    | published =>
      obtain rfl := Option.some.inj (other.symm.trans hv)
      exact ⟨evidence, source, there.trans hevidence, hsource, hfiled.copy receipts⟩
    | restored =>
      obtain rfl := Option.some.inj (self.symm.trans hv)
      exact ⟨_, pdf, here, hcandidate, firstView_filed prepared s⟩
  · cases stage with
    | published => cases other.symm.trans hv
    | restored => cases self.symm.trans hv
  · obtain rfl := Option.some.inj hafter
    obtain rfl := Option.some.inj (here.symm.trans he)
    exact ⟨rfl, rfl, rfl, fun page hpage => absurd hpage (Finset.notMem_empty _)⟩
  · obtain rfl := Option.some.inj (hkept.symm.trans hv)
    exact ⟨evidence, there.trans hevidence, hfiled.binding⟩
  · refine ⟨⟨_, hkept⟩, receipt, hreceipt, ?_⟩
    exact (h.stage_of_digest apart held hreceipt hsigned).trans published
  · obtain ⟨v, e, hv, he, hattests⟩ := h.receipts r hr
    cases hstage : r.stage with
    | published =>
      rw [hstage] at hv he
      obtain rfl := Option.some.inj (mine.symm.trans hv)
      exact ⟨_, e, other, there.trans he, hattests.congr rfl rfl rfl⟩
    | restored =>
      rw [hstage] at hv
      cases unrestored.symm.trans hv
  · cases unreleased.symm.trans ha
  · refine le_trans ?_ fits
    have bytes : evidenceBytes (evidenceOf platform view measured) + viewBytes view ≤
        preparedBytes session .restored measured := enter_bytes prepared s
    have copied : viewBytes { current.view with receipts := receipts } = viewBytes current.view := rfl
    have candidate : (enter platform view measured assigned.draws s).candidate = s.candidate := rfl
    rw [retained_eq, retained_eq, here, there, self, other, mine, unrestored,
      h.measured .restored unrestored, candidate]
    simp only [Option.map_some, Option.map_none, Option.getD_some, Option.getD_none, copied]
    omega

/-- Fresh identities, review digests that tell the stages apart, and a casefold of tokens. -/
structure Ideal (platform : Platform) : Prop where
  fresh : Function.Injective platform.uuid4
  apart : ∀ scope scope', platform.reviewDigest scope = platform.reviewDigest scope' →
    scope.stage = scope'.stage
  folds : Folds platform.casefold

/-- What the call may do is known once it is done; it confirms readings on pages shown before. -/
structure Account.Told (may known : Account) : Prop where
  shows : ∀ {stage page}, may.shows stage page → known.shows stage page
  confirms : ∀ {stage itemId page reading}, may.confirms stage itemId page reading →
    known.shows stage page → known.confirms stage itemId page reading

theorem Account.Told.nothing (known : Account) : Account.nothing.Told known :=
  ⟨fun h => h.elim, fun h _ => h.elim⟩

theorem Account.Told.everything (may : Account) : may.Told .everything :=
  ⟨fun _ => trivial, fun _ _ => trivial⟩

theorem Sound.move (h : Sound platform session known s) (ideal : Ideal platform) {may : Account}
    (told : may.Told known) {s' : State} (move : Move platform session may s s') :
    Sound platform session known s' := by
  cases move with
  | seen held shown => exact h.markSeen held (told.shows shown)
  | reread held found asked viewed bound kept fits =>
    exact h.reread ideal.fresh held found (told.confirms asked) viewed bound kept fits
  | sign held read verified unsigned => exact h.sign _ held read verified
  | keepView held published signed => exact h.keepView held published
  | keepCandidate held published fits => exact h.keepCandidate held published fits
  | @enter stage pdf measured assigned turn prepared fits =>
    cases stage with
    | published =>
      obtain ⟨rfl, rfl⟩ := turn
      exact sound_enterPublished prepared fits
    | restored => exact h.enterRestored ideal.apart turn prepared fits
  | release held restored signed written made => exact h.release held restored signed written made
  | revoke unfinished => exact h.revoke

theorem Sound.moves (h : Sound platform session known s) (ideal : Ideal platform) {may : Account}
    (told : may.Told known) {s' : State} (moves : ReflTransGen (Move platform session may) s s') :
    Sound platform session known s' := by
  induction moves with
  | refl => exact h
  | tail _ move ih => exact ih.move ideal told move

/-- A page that some image call showed while its stage was under review. -/
def Looked (platform : Platform) (session : Session) (calls : List (Call × Environment)) (s : State)
    (stage : Stage) (page : ℕ) : Prop :=
  ∃ before env, before ++ [(.image page, env)] <+: calls ∧
    Shows platform session env page (run platform session before s) stage

/-- A reading that some confirm call gave, after an earlier call had shown its page. -/
def Confirmed (platform : Platform) (session : Session) (calls : List (Call × Environment))
    (s : State) (stage : Stage) (itemId : UUID) (page : ℕ) (reading : String) : Prop :=
  ∃ before env command, before ++ [(.confirm itemId command, env)] <+: calls ∧
    command.reading = reading ∧
    Confirms platform session env itemId command page (run platform session before s) stage ∧
    Looked platform session before s stage page

/-- What the calls did from `s` on. -/
def accounts (platform : Platform) (session : Session) (calls : List (Call × Environment))
    (s : State) : Account where
  shows := Looked platform session calls s
  confirms := Confirmed platform session calls s

theorem accounts_within (calls : List (Call × Environment)) (call : Call × Environment)
    (s : State) : (accounts platform session calls s).Within
      (accounts platform session (calls ++ [call]) s) where
  shows := by
    rintro stage page ⟨before, env, hprefix, shown⟩
    exact ⟨before, env, hprefix.trans (List.prefix_append ..), shown⟩
  confirms := by
    rintro stage itemId page reading ⟨before, env, command, hprefix, confirmed⟩
    exact ⟨before, env, command, hprefix.trans (List.prefix_append ..), confirmed⟩

theorem accountOf_told (calls : List (Call × Environment)) (call : Call × Environment)
    (s : State) : (accountOf platform session (run platform session calls s) call).Told
      (accounts platform session (calls ++ [call]) s) where
  shows := by
    obtain ⟨name, env⟩ := call
    rintro stage page ⟨rfl, shown⟩
    exact ⟨calls, env, List.prefix_rfl, shown⟩
  confirms := by
    obtain ⟨name, env⟩ := call
    rintro stage itemId page reading ⟨command, rfl, hreading, confirmed⟩ ⟨before, env', hprefix, shown⟩
    refine ⟨calls, env, command, List.prefix_rfl, hreading, confirmed, before, env', ?_, shown⟩
    -- the call is not an image call, so the page was shown before it
    obtain hsame | hbefore := List.prefix_concat_iff.mp hprefix
    · cases (List.append_inj' hsame rfl).2
    · exact hbefore

theorem run_append (calls more : List (Call × Environment)) (s : State) :
    run platform session (calls ++ more) s =
      run platform session more (run platform session calls s) := List.foldl_append ..

theorem run_sound (ideal : Ideal platform) (calls : List (Call × Environment))
    (h : Sound platform session .nothing s) :
    Sound platform session (accounts platform session calls s) (run platform session calls s) := by
  induction calls using List.reverseRecOn with
  | nil => exact h.mono (.nothing _)
  | append_singleton calls call ih =>
    rw [run_append]
    exact (ih.mono (accounts_within calls call s)).moves ideal (accountOf_told calls call s)
      (step_moves call)

theorem checked_ok {conditions : Conditions}
    (h : checked platform session s conditions = .ok ()) :
    lifetime session s.revoked conditions.now conditions.monotonic = .ok () ∧
      checkEvidence platform session s = .ok () ∧
      lifetime session s.revoked conditions.closingNow conditions.closingMonotonic = .ok () := by
  unfold checked at h
  obtain ⟨_, hentry, h⟩ := bind_ok.mp h
  obtain ⟨-, h⟩ := raise_ok.mp h
  obtain ⟨-, h⟩ := raise_ok.mp h
  obtain ⟨-, h⟩ := raise_ok.mp h
  obtain ⟨_, hevidence, hclosing⟩ := bind_ok.mp h
  exact ⟨hentry, hevidence, hclosing⟩

theorem checkEvidence_fits (h : checkEvidence platform session s = .ok ()) :
    retainedBytes session s ≤ session.maxRetainedBytes := by
  unfold checkEvidence at h
  obtain ⟨_, -, h⟩ := bind_ok.mp h
  obtain ⟨_, -, h⟩ := bind_ok.mp h
  obtain ⟨_, -, h⟩ := bind_ok.mp h
  obtain ⟨_, -, h⟩ := bind_ok.mp h
  exact admitExtra_ok h

theorem create_goes {opening : Environment} :
    Goes (Move platform session .nothing) (create platform session opening) {}
      fun _ _ => retainedBytes session {} ≤ session.maxRetainedBytes := by
  refine .bind check_goes ?_
  rintro _ _ ⟨rfl, hchecked⟩
  have fits := checkEvidence_fits (checked_ok hchecked).2.1
  have turn : Turn session {} session.publication .published := ⟨rfl, rfl⟩
  exact (prepare_goes turn).mono fun _ _ _ => fits

theorem create_sound (ideal : Ideal platform) {opening : Environment}
    (opened : (create platform session opening {}).1 = .ok ()) :
    Sound platform session .nothing (create platform session opening {}).2 := by
  have goes := @create_goes platform session opening
  have empty : Sound platform session .nothing {} :=
    { filed := fun _ _ h => by cases h
      measured := fun _ _ => rfl
      current := fun _ h => by cases h
      history := fun _ h => by cases h
      later := rfl
      before := fun _ h => by cases h
      receipts := fun _ h => by cases h
      complete := fun _ h => by cases h
      fits := goes.post () opened }
  exact empty.moves ideal (.nothing _) goes.steps

end

end AppraisalReview.RefillReview
