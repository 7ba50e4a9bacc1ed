import AppraisalReview.RefillRecords

set_option autoImplicit false

/-!
# A document is released after its complete review

An artifact that a session hands out was reviewed in both stages, reading by
reading. Readings, receipts and evidence stay as they are once they are there,
and the session never finds fault with its own records.
-/
namespace AppraisalReview.RefillReview
open DocumentTransfer Placeholders Going Raising
open Relation (ReflTransGen)

section
variable (platform : Platform) (session : Session)

/-- A stage whose every reading was confirmed and verified, over some bytes. -/
structure Completed (known : Account) (s : State) (stage : Stage) (pdf : Bytes)
    (view : OCRReviewView) (evidence : StageEvidence) (receipt : OCRReviewReceipt) : Prop where
  shown : s.viewOf stage = some view
  onFile : s.evidence stage = some evidence
  signed : receipt ∈ s.receipts
  staged : receipt.stage = stage
  attests : Attests platform session receipt view evidence
  input : evidence.inputDigest = platform.sha256 pdf
  measurements : evidence.measurementsDigest = platform.measurementsDigest evidence.observations
  images : evidence.pageDigests = evidence.images.map fun image => platform.sha256 image.2
  rows : List.Forall₂ Taken evidence.observations view.observations
  reliable : ∀ row ∈ view.observations, row.reviewItemId = none →
    ∃ confidence ∈ row.confidence, reliable ≤ confidence
  read : ∀ item ∈ view.items, ∃ reading ∈ item.confirmedReading,
    (∀ text ∈ item.expectedText, text = reading) ∧
      known.confirms stage item.itemId item.page reading
  cells : ∀ target ∈ targetsOf session stage, target.present = true → ∃ item ∈ view.items,
    item.kind = .placeholder ∧ item.region = target.region ∧
      item.expectedText = some (placeholderText target.entityId)
  inventory : Inventory platform.nfkc platform.casefold (finalReadings view)
    (targetsOf session stage) true

/-- Both stages were reviewed, and the bytes are those of the second one. -/
structure Released (known : Account) (s : State) (artifact : FinalLocalArtifact) :
    Prop where
  published : ∃ view evidence receipt,
    Completed platform session known s .published session.publication view evidence receipt
  restored : ∃ view evidence receipt,
    Completed platform session known s .restored artifact.pdf view evidence receipt ∧
      (finalReadings view).flatMap (occurrencesOf platform.nfkc) = []
  digest : artifact.manifest.finalDigest = platform.sha256 artifact.pdf

variable {platform session} {known : Account} {s : State}

theorem required_reliable {row : OCRReviewObservation}
    (h : required platform session row = false) :
    ∃ confidence ∈ row.confidence, reliable ≤ confidence := by
  unfold required at h
  rw [Bool.or_eq_false_iff, Bool.not_eq_false'] at h
  cases hconfidence : row.confidence with
  | none =>
    rw [hconfidence] at h
    cases h.1
  | some confidence =>
    rw [hconfidence] at h
    exact ⟨confidence, rfl, of_decide_eq_true h.1⟩

section
variable {stage : Stage} {pdf : Bytes} {view : OCRReviewView} {evidence : StageEvidence}
  {measured : Measured} {assigned : Assigned}

/-- Every item of a view is one of those it was prepared with, but for its reading. -/
theorem item_prepared
    (hstrip : view.strip = (firstView platform session {} stage pdf measured assigned).strip)
    {item : OCRReviewItem} (hitem : item ∈ view.items) :
    ∃ first ∈ assigned.items, item.unread = first.unread := by
  have hitems : view.items.map OCRReviewItem.unread = assigned.items.map OCRReviewItem.unread :=
    congrArg OCRReviewView.items hstrip
  have hmem := @List.mem_map_of_mem _ _ _ _ OCRReviewItem.unread hitem
  rw [hitems] at hmem
  obtain ⟨first, hfirst, hunread⟩ := List.mem_map.mp hmem
  exact ⟨first, hfirst, hunread.symm⟩

theorem prepared_item
    (hstrip : view.strip = (firstView platform session {} stage pdf measured assigned).strip)
    {first : OCRReviewItem} (hfirst : first ∈ assigned.items) :
    ∃ item ∈ view.items, item.unread = first.unread := by
  have hitems : view.items.map OCRReviewItem.unread = assigned.items.map OCRReviewItem.unread :=
    congrArg OCRReviewView.items hstrip
  have hmem := @List.mem_map_of_mem _ _ _ _ OCRReviewItem.unread hfirst
  rw [← hitems] at hmem
  exact List.mem_map.mp hmem

theorem targetsOf_placed {target : RefillTarget} (h : target ∈ targetsOf session stage) :
    validateRegion session.descriptor.pages target.region = .ok () := by
  cases stage with
  | published => exact session.descriptor.placed target h
  | restored => cases h

theorem finalReadings_laid
    (hprepared : Prepared platform session stage measured assigned)
    (hstrip : view.strip = (firstView platform session {} stage pdf measured assigned).strip) :
    Laid (finalReadings view) (targetsOf session stage) session.descriptor.pages where
  regions reading hreading := by
    have hrows : view.observations = assigned.rows := congrArg OCRReviewView.observations hstrip
    have rowRegion : ∀ row ∈ assigned.rows,
        validateRegion session.descriptor.pages row.region = .ok () := by
      intro row hrow
      obtain ⟨o, ho, hregion, -, -⟩ := forall₂_right hprepared.itemized.rows hrow
      rw [hregion]
      exact hprepared.measures.regions o ho
    obtain hreading | hreading := List.mem_append.mp hreading
    · obtain ⟨row, hrow, rfl⟩ := List.mem_map.mp hreading
      exact rowRegion row (hrows ▸ (List.mem_filter.mp hrow).1)
    · obtain ⟨item, hitem, hsome⟩ := List.mem_filterMap.mp hreading
      obtain ⟨text, -, rfl⟩ := Option.map_eq_some_iff.mp hsome
      obtain ⟨first, hfirst, hunread⟩ := item_prepared hstrip hitem
      have hregion : item.unread.region = first.unread.region := congrArg _ hunread
      change validateRegion _ item.unread.region = _
      rw [hregion]
      change validateRegion _ first.region = _
      obtain ⟨target, htarget, hcell⟩ | hasked := hprepared.itemized.items first hfirst
      · rw [hcell.region]
        exact targetsOf_placed htarget
      · obtain ⟨row, hrow, hrow'⟩ := hasked.region
        rw [hrow']
        exact rowRegion row hrow
  apart := by
    cases stage with
    | published => exact session.descriptor.apart
    | restored => exact .nil
  identified := by
    cases stage with
    | published => exact session.descriptor.identified
    | restored => exact .nil

theorem Sound.completed (h : Sound platform session known s) (folds : Folds platform.casefold)
    {receipt : OCRReviewReceipt} (hreceipt : receipt ∈ s.receipts) (hstage : receipt.stage = stage)
    (source : ∀ bytes, Source session s stage bytes → bytes = pdf) :
    ∃ view evidence, Completed platform session known s stage pdf view evidence receipt := by
  obtain ⟨view, evidence, hview, hevidence, hattests⟩ := h.receipts receipt hreceipt
  rw [hstage] at hview hevidence
  obtain ⟨evidence', bytes, hevidence', hsource, hfiled⟩ := h.filed stage view hview
  obtain rfl := Option.some.inj (hevidence.symm.trans hevidence')
  obtain rfl := source bytes hsource
  obtain ⟨⟨measured, assigned, hprepared, hstrip, rfl⟩, hread⟩ := hfiled
  have hrows : view.observations = assigned.rows := congrArg OCRReviewView.observations hstrip
  refine ⟨view, _, hview, hevidence, hreceipt, hstage, hattests, rfl, rfl,
    hprepared.measures.digests.symm, hrows ▸ hprepared.itemized.rows, ?_, ?_, ?_, ?_⟩
  · intro row hrow hnone
    exact required_reliable (hprepared.itemized.reliable row (hrows ▸ hrow) hnone)
  · intro item hitem
    obtain ⟨reading, hreading⟩ := Option.ne_none_iff_exists'.mp (hattests.read item hitem)
    exact ⟨reading, hreading, hread item hitem reading hreading⟩
  · intro target htarget present
    obtain ⟨first, hfirst, hcell⟩ := hprepared.itemized.cells target htarget present
    obtain ⟨item, hitem, hunread⟩ := prepared_item hstrip hfirst
    refine ⟨item, hitem, ?_, ?_, ?_⟩
    · exact (congrArg OCRReviewItem.kind hunread).trans hcell.kind
    · exact (congrArg OCRReviewItem.region hunread).trans hcell.region
    · exact (congrArg OCRReviewItem.expectedText hunread).trans hcell.expected
  · have verified := hattests.verified
    rw [hstage] at verified
    exact (verifyTextRegions_ok folds (finalReadings_laid hprepared hstrip) true).mp verified

end

theorem no_tokens {nfkc casefold : String → String} {readings : List Reading}
    (h : Inventory nfkc casefold readings [] true) : readings.flatMap (occurrencesOf nfkc) = [] := by
  obtain ⟨-, chosen, hmatched⟩ := h
  have hempty : chosen = [] := List.eq_nil_iff_forall_not_mem.mpr fun target htarget =>
    List.not_mem_nil (hmatched.among target htarget)
  have fitting := hmatched.fitting
  rw [hempty] at fitting
  exact List.forall₂_nil_right_iff.mp fitting

theorem Sound.released (h : Sound platform session known s) (ideal : Ideal platform)
    {artifact : FinalLocalArtifact} (hcomplete : s.complete = some artifact) :
    Released platform session known s artifact := by
  obtain ⟨current, held, hrestored, ⟨receipt, hreceipt, hsigned⟩, hcandidate, hmade⟩ :=
    h.complete artifact hcomplete
  obtain ⟨-, first, hfirst, hpublished⟩ := h.before current held hrestored
  have hstage := (h.stage_of_digest ideal.apart held hreceipt hsigned).trans hrestored
  refine ⟨?_, ?_, ?_⟩
  · obtain ⟨view, evidence, hcompleted⟩ :=
      h.completed ideal.folds hfirst hpublished fun _ hsource => hsource
    exact ⟨view, evidence, first, hcompleted⟩
  · obtain ⟨view, evidence, hcompleted⟩ := h.completed ideal.folds hreceipt hstage
      fun _ hsource => Option.some.inj (hsource.symm.trans hcandidate)
    exact ⟨view, evidence, receipt, hcompleted, no_tokens hcompleted.inventory⟩
  · unfold artifactOf at hmade
    split at hmade
    · rw [← Except.ok.inj hmade]
    · cases hmade

theorem lifetime_ok {revoked : Bool} {now monotonic : ℤ}
    (h : lifetime session revoked now monotonic = .ok ()) : revoked = false ∧
      (session.createdAt ≤ now ∧ now < session.expiresAt) ∧ monotonic < session.deadline := by
  unfold lifetime at h
  split at h
  · cases h
  · next hpast =>
    push Not at hpast
    exact ⟨Bool.eq_false_iff.mpr hpast.1, hpast.2.1, hpast.2.2⟩

/-- What a call finds when it lets an artifact out. -/
structure InTime (session : Session) (s : State) (conditions : Conditions) : Prop where
  unrevoked : s.revoked = false
  window : session.createdAt ≤ conditions.now ∧ conditions.now < session.expiresAt
  deadline : conditions.monotonic < session.deadline
  engine : conditions.engineIdentity = session.engineDigest
  authorized : conditions.authorized = true

theorem checked_inTime {conditions : Conditions}
    (h : checked platform session s conditions = .ok ()) :
    InTime session s conditions := by
  obtain ⟨hrevoked, hwindow, hdeadline⟩ := lifetime_ok (checked_ok h).1
  unfold checked at h
  obtain ⟨_, -, h⟩ := bind_ok.mp h
  obtain ⟨hengine, h⟩ := raise_ok.mp h
  obtain ⟨hauthorized, h⟩ := raise_ok.mp h
  exact ⟨hrevoked, hwindow, hdeadline, not_not.mp hengine, Bool.eq_true_of_not_eq_false hauthorized⟩

theorem samplePublished_text : digestText (String.ofList (List.replicate 64 '7')) = true := by
  decide +kernel

theorem sampleRestored_text : digestText (String.ofList (List.replicate 64 '8')) = true := by
  decide +kernel

def samplePublished : Digest := ⟨_, samplePublished_text⟩
def sampleRestored : Digest := ⟨_, sampleRestored_text⟩

def sampleStageDigest : Stage → Digest
  | .published => samplePublished
  | .restored => sampleRestored

def samplePlatform : Platform where
  sha256 bytes := if bytes.isEmpty then samplePublished else sampleRestored
  measurementsDigest _ := samplePublished
  viewDigest _ := samplePublished
  reviewDigest scope := sampleStageDigest scope.stage
  nfkc := id
  casefold := lowerAscii
  uuid4 draw := ⟨draw⟩

theorem samplePlatform_ideal : Ideal samplePlatform where
  fresh a b h := UUID.mk.inj h
  apart scope scope' h := by
    have texts : ∀ stage stage', sampleStageDigest stage = sampleStageDigest stage' →
        stage = stage' := by
      intro stage stage' h
      cases stage <;> cases stage'
      · rfl
      · exact absurd h (by decide +kernel)
      · exact absurd h (by decide +kernel)
      · rfl
    exact texts _ _ h
  folds := lowerAscii_folds

def sampleCell : RefillTarget where
  occurrenceId := sampleId
  entityId := sampleId
  outputFieldId := sampleId
  region := ⟨1, 0, 0, 20, 20⟩

def samplePage : PrivacyPage := ⟨1, 200, 200⟩

theorem samplePage_numbered : [samplePage].map PrivacyPage.number = List.range' 1 1 := rfl

theorem sampleCell_placed : ∀ target ∈ [sampleCell],
    validateRegion [samplePage] target.region = .ok () := by
  decide +kernel

def sampleSession : Session where
  reviewId := ⟨0⟩
  principalId := "reviewer"
  plan := ⟨sampleId, sampleId, sampleId, sampleId, sampleId, sampleRestored, [(sampleId, .restore)]⟩
  descriptor := ⟨[samplePage], [sampleCell], samplePage_numbered, sampleCell_placed,
    List.pairwise_singleton _ _, List.nodup_singleton _⟩
  publication := [1]
  original := [2]
  engineDigest := samplePublished
  bindingDigest := samplePublished
  createdAt := 0
  expiresAt := 900
  deadline := 900
  maxRetainedBytes := 1000

def meeting (word : TextObservation) : Environment where
  checks _ := ⟨1, 1, samplePublished, true, true, 1, 1⟩
  confirmedAt := 1
  render _ := .ok [⟨[3], []⟩]
  started := 0
  reads _ := ⟨0, .ok [word], 0⟩
  write := .ok (some [4])

def blurred : TextObservation :=
  ⟨"PT_0000000000004000800000000000000O", ⟨1, 1, 1, 9, 9⟩, .ocr, some 0⟩

def clear : TextObservation := ⟨"Wang", ⟨1, 1, 1, 9, 9⟩, .ocr, some 1⟩

/-- The page is looked at, a stale command is refused, and the placeholder is read. -/
def sampleReading : List (Call × Environment) :=
  [(.image 1, meeting clear),
    (.confirm ⟨1⟩ ⟨sampleRestored, sampleRestored, placeholderText sampleId⟩, meeting clear),
    (.confirm ⟨1⟩ ⟨samplePublished, sampleRestored, placeholderText sampleId⟩, meeting clear)]

def sampleCalls : List (Call × Environment) := sampleReading ++ [(.advance, meeting clear)]

theorem sample_opened : (create samplePlatform sampleSession (meeting blurred) {}).1 = .ok () := by
  decide +kernel

theorem sample_permits : (permitsCompleted samplePlatform sampleSession (meeting clear) sampleRestored
    (run samplePlatform sampleSession sampleCalls
      (create samplePlatform sampleSession (meeting blurred) {}).2)).1 = .ok true := by
  decide +kernel

def Kept (item item' : OCRReviewItem) : Prop :=
  ∀ reading ∈ item.confirmedReading, reading ∈ item'.confirmedReading

/-- A session only gains: readings, receipts, stages and in the end its artifact. -/
structure Grows (s s' : State) : Prop where
  receipts : s.receipts <+: s'.receipts
  evidence : ∀ stage evidence, s.evidence stage = some evidence → s'.evidence stage = some evidence
  views : ∀ stage view, s.viewOf stage = some view → ∃ view', s'.viewOf stage = some view' ∧
    view'.strip = view.strip ∧ List.Forall₂ Kept view.items view'.items
  complete : ∀ artifact, s.complete = some artifact → s'.complete = some artifact
  revoked : s.revoked = true → s'.revoked = true

theorem kept_items (items : List OCRReviewItem) : List.Forall₂ Kept items items :=
  List.forall₂_same.mpr fun _ _ _ h => h

theorem Grows.refl (s : State) : Grows s s :=
  ⟨List.prefix_rfl, fun _ _ h => h, fun _ view h => ⟨view, h, rfl, kept_items _⟩, fun _ h => h, id⟩

theorem kept_trans {items items' items'' : List OCRReviewItem} (h : List.Forall₂ Kept items items')
    (h' : List.Forall₂ Kept items' items'') : List.Forall₂ Kept items items'' := by
  induction h generalizing items'' with
  | nil => exact h'
  | cons hfirst _ ih =>
    cases h' with
    | cons hfirst' hrest' =>
      exact .cons (fun reading hreading => hfirst' reading (hfirst reading hreading)) (ih hrest')

theorem Grows.trans {s s' s'' : State} (h : Grows s s') (h' : Grows s' s'') : Grows s s'' where
  receipts := h.receipts.trans h'.receipts
  evidence stage e he := h'.evidence stage e (h.evidence stage e he)
  views stage view hview := by
    obtain ⟨view', hview', hstrip, hkept⟩ := h.views stage view hview
    obtain ⟨view'', hview'', hstrip', hkept'⟩ := h'.views stage view' hview'
    exact ⟨view'', hview'', hstrip'.trans hstrip, kept_trans hkept hkept'⟩
  complete artifact hartifact := h'.complete artifact (h.complete artifact hartifact)
  revoked hrevoked := h'.revoked (h.revoked hrevoked)

theorem Sound.reread_grows (h : Sound platform session known s)
    (fresh : Function.Injective platform.uuid4) {current : Reviewed} {item : OCRReviewItem}
    {itemId : UUID} {reading : String} (held : s.current = some current)
    (found : (current.view.items.find? fun item => item.itemId = itemId) = some item)
    (kept : ∀ text ∈ item.confirmedReading, text = reading) :
    Grows s (RefillReview.reread itemId reading s) where
  receipts := List.prefix_rfl
  evidence _ _ he := he
  views stage view hview := by
    by_cases hstage : current.view.stage = stage
    case pos =>
      subst hstage
      obtain rfl := Option.some.inj ((viewOf_current held).symm.trans hview)
      obtain ⟨_, _, -, -, hfiled⟩ := h.filed _ _ hview
      refine ⟨_, reread_self held itemId reading, strip_reread .., ?_⟩
      change List.Forall₂ Kept _ (current.view.items.map (rereadItem itemId reading))
      rw [List.forall₂_map_right_iff]
      refine List.forall₂_same.mpr fun other hother text htext => ?_
      unfold rereadItem
      split
      · next hid =>
        obtain rfl := found_unique (hfiled.distinct fresh) found hother hid
        rw [kept text htext]
        rfl
      · exact htext
    case neg => exact ⟨view, (reread_other held hstage ..).trans hview, rfl, kept_items _⟩
  complete _ ha := ha
  revoked := id

theorem Sound.enter_grows (h : Sound platform session known s) {pdf : Bytes} {measured : Measured}
    {assigned : Assigned} (turn : Turn session s pdf .restored) :
    Grows s (enter platform (firstView platform session s .restored pdf measured assigned) measured
      assigned.draws s) := by
  obtain ⟨current, held, published, -, -, receipts, hkept⟩ := turn
  have mine := published ▸ viewOf_current held
  have unrestored := (h.unreleased held published).2
  refine ⟨List.prefix_rfl, fun stage e he => ?_, fun stage view hview => ?_, fun _ ha => ha, id⟩
  · cases stage with
    | published => exact (enter_evidence_other published_ne ..).trans he
    | restored => cases (h.measured .restored unrestored).symm.trans he
  · cases stage with
    | published =>
      obtain rfl := Option.some.inj (mine.symm.trans hview)
      exact ⟨_, (enter_other published_ne.symm ..).trans hkept, rfl, kept_items _⟩
    | restored => cases unrestored.symm.trans hview

theorem Sound.grows (h : Sound platform session known s) (ideal : Ideal platform)
    {may : Account} {s' : State} (move : Move platform session may s s') :
    Grows s s' := by
  have same : ∀ {t : State}, s.receipts <+: t.receipts → t.evidence = s.evidence →
      (∀ stage, t.viewOf stage = s.viewOf stage) → t.complete = s.complete →
      (s.revoked = true → t.revoked = true) → Grows s t := by
    intro t hreceipts hevidence hviews hcomplete hrevoked
    exact ⟨hreceipts, fun _ _ he => hevidence ▸ he,
      fun stage view hview => ⟨view, (hviews stage).trans hview, rfl, kept_items _⟩,
      fun _ ha => hcomplete ▸ ha, hrevoked⟩
  cases move with
  | seen held shown => exact same List.prefix_rfl rfl (markSeen_viewOf _) rfl id
  | reread held found asked viewed bound kept fits => exact h.reread_grows ideal.fresh held found kept
  | sign held read verified unsigned =>
    exact same (List.prefix_append ..) rfl (fun _ => rfl) rfl id
  | keepView held published signed =>
    exact same List.prefix_rfl rfl (keepView_viewOf held published _) rfl id
  | keepCandidate held published fits => exact same List.prefix_rfl rfl (fun _ => rfl) rfl id
  | @enter stage pdf measured assigned turn prepared fits =>
    cases stage with
    | published =>
      obtain ⟨rfl, rfl⟩ := turn
      exact ⟨List.prefix_rfl, fun _ _ he => (by cases he), fun _ _ hview => (by cases hview),
        fun _ ha => ha, id⟩
    | restored => exact h.enter_grows turn
  | release held restored signed written made =>
    refine ⟨List.prefix_rfl, fun _ _ he => he, fun _ view hview => ⟨view, hview, rfl, kept_items _⟩,
      fun other hother => ?_, id⟩
    obtain ⟨_, -, -, -, hcandidate, hmade⟩ := h.complete other hother
    obtain rfl := Option.some.inj (hcandidate.symm.trans written)
    obtain rfl := Except.ok.inj (hmade.symm.trans made)
    rfl
  | revoke unfinished => exact same List.prefix_rfl rfl (fun _ => rfl) rfl fun _ => rfl

theorem Sound.moves_grow (h : Sound platform session known s) (ideal : Ideal platform)
    {may : Account} (told : may.Told known) {s' : State}
    (moves : ReflTransGen (Move platform session may) s s') : Grows s s' := by
  induction moves with
  | refl => exact Grows.refl s
  | tail earlier move ih => exact ih.trans ((h.moves ideal told earlier).grows ideal move)

/-- Nothing that a session has on file is taken back by a later call. -/
theorem run_grows (platform : Platform) (session : Session) (ideal : Ideal platform)
    (opening : Environment) (opened : (create platform session opening {}).1 = .ok ())
    (calls more : List (Call × Environment)) :
    Grows (run platform session calls (create platform session opening {}).2)
      (run platform session (calls ++ more) (create platform session opening {}).2) := by
  set start := (create platform session opening {}).2
  have sound := create_sound ideal opened
  induction more using List.reverseRecOn with
  | nil =>
    rw [List.append_nil]
    exact Grows.refl _
  | append_singleton more call ih =>
    rw [← List.append_assoc, run_append (calls ++ more)]
    refine ih.trans ?_
    have here : Sound platform session .everything
        (run platform session (calls ++ more) start) :=
      (run_sound ideal (calls ++ more) sound).mono (.everything _)
    exact here.moves_grow ideal (.everything _) (step_moves call)

theorem sample_stale : (perform samplePlatform sampleSession (meeting clear)
    (.confirm ⟨1⟩ ⟨sampleRestored, sampleRestored, placeholderText sampleId⟩)
    (run samplePlatform sampleSession [(.image 1, meeting clear)]
      (create samplePlatform sampleSession (meeting blurred) {}).2)).1 =
    .error "Stale OCR review command" := by
  decide +kernel

theorem sample_read : (((run samplePlatform sampleSession sampleReading
    (create samplePlatform sampleSession (meeting blurred) {}).2).viewOf .published).map
    fun view => view.items.map OCRReviewItem.confirmedReading) =
      some [some (placeholderText sampleId)] := by
  decide +kernel

/-- The reading that was confirmed before the candidate stays, after a call that raised. -/
theorem run_grows_sample :
    (perform samplePlatform sampleSession (meeting clear)
      (.confirm ⟨1⟩ ⟨sampleRestored, sampleRestored, placeholderText sampleId⟩)
      (run samplePlatform sampleSession [(.image 1, meeting clear)]
        (create samplePlatform sampleSession (meeting blurred) {}).2)).1 =
      .error "Stale OCR review command" ∧
    ∃ view, (run samplePlatform sampleSession sampleCalls
        (create samplePlatform sampleSession (meeting blurred) {}).2).viewOf .published = some view ∧
      ∃ item ∈ view.items, item.confirmedReading = some (placeholderText sampleId) := by
  obtain ⟨view, hview, hitems⟩ := Option.map_eq_some_iff.mp sample_read
  have grows := run_grows samplePlatform sampleSession samplePlatform_ideal (meeting blurred)
    sample_opened sampleReading [(.advance, meeting clear)]
  obtain ⟨view', hview', -, hkept⟩ := grows.views .published view hview
  refine ⟨sample_stale, view', hview', ?_⟩
  obtain ⟨item, hitem, hconfirmed⟩ := List.map_eq_singleton_iff.mp hitems
  rw [hitem] at hkept
  obtain ⟨item', rest, kept, -, hitems'⟩ := List.forall₂_cons_left_iff.mp hkept
  rw [hitems']
  exact ⟨item', List.mem_cons_self, kept _ hconfirmed⟩

theorem Sound.consistent (h : Sound platform session known s) :
    checkEvidence platform session s = .ok () := by
  have stageChecks : stages.forM (checkStage platform s) = .ok () := by
    refine forM_ok.mpr fun stage _ => ?_
    unfold checkStage
    split
    · rfl
    · next evidence hevidence =>
      cases hview : s.viewOf stage with
      | none => cases (h.measured stage hview).symm.trans hevidence
      | some view =>
        obtain ⟨other, pdf, hother, -, ⟨measured, assigned, hprepared, -, rfl⟩, -⟩ :=
          h.filed stage view hview
        obtain rfl := Option.some.inj (hevidence.symm.trans hother)
        exact (if_neg fun changed => changed rfl).trans
          (if_neg fun changed => changed hprepared.measures.digests)
  have historyChecks : stages.forM (checkHistory platform s) = .ok () := by
    refine forM_ok.mpr fun stage _ => ?_
    unfold checkHistory
    cases hview : s.history stage with
    | none => rfl
    | some view =>
      cases stage with
      | published =>
        obtain ⟨evidence, hevidence, hbinding⟩ := h.history view hview
        rw [hevidence]
        exact if_neg (not_not.mpr hbinding)
      | restored => cases h.later.symm.trans hview
  have receiptChecks : s.receipts.forM (checkReceipt session s) = .ok () := by
    refine forM_ok.mpr fun receipt hreceipt => ?_
    obtain ⟨view, evidence, hview, hevidence, hattests⟩ := h.receipts receipt hreceipt
    unfold checkReceipt
    rw [hview, hevidence]
    simp only [hattests.principal, hattests.binding, hattests.engine, hattests.input,
      hattests.measurements, hattests.pages, hattests.readings, hattests.expiry, ne_eq,
      not_true_eq_false, or_self, if_false]
  have currentCheck : checkCurrent platform s = .ok () := by
    unfold checkCurrent
    cases held : s.current with
    | none => rfl
    | some current =>
      obtain ⟨evidence, pdf, hevidence, hsource, hfiled⟩ := h.filed _ _ (viewOf_current held)
      obtain ⟨hbinding, -, himages, -⟩ := h.current current held evidence hevidence
      have binding := hfiled.binding.trans hbinding.symm
      have input := hfiled.input.1
      obtain ⟨⟨measured, assigned, hprepared, hstrip, rfl⟩, -⟩ := hfiled
      have pages : current.view.pages = measured.pages := congrArg OCRReviewView.pages hstrip
      have shown : (current.view.pages.forM fun page => do
          let image ← imageOf current.images page.number
          if platform.sha256 image ≠ page.imageSha256 then
            throw "Review image changed" : Except String Unit) = .ok () := by
        refine forM_ok.mpr fun page hpage => ?_
        obtain ⟨image, himage, hdigest⟩ := hprepared.measures.image (pages ▸ hpage)
        have retained : imageOf current.images page.number = .ok image := himages ▸ himage
        rw [retained]
        exact if_neg (not_not.mpr hdigest)
      have written : ¬(current.view.stage = .restored ∧
          s.candidate.map platform.sha256 ≠ some current.view.inputSha256) := by
        rintro ⟨hstage, hother⟩
        rw [hstage] at hsource
        have hcandidate : s.candidate = some pdf := hsource
        rw [hcandidate, input] at hother
        exact hother rfl
      refine (if_neg (not_not.mpr binding)).trans ?_
      rw [shown]
      exact if_neg written
  have space : admitExtra session s 0 = .ok () := if_neg (not_lt.mpr h.fits)
  unfold checkEvidence
  rw [stageChecks, historyChecks, receiptChecks, currentCheck]
  exact space

/-- A check fails for its lifetime, its engine, its authority or its mapping, and never for the
records that the session keeps; these stay within the space that it was given. -/
theorem run_check_iff (platform : Platform) (session : Session) (ideal : Ideal platform)
    (opening : Environment) (opened : (create platform session opening {}).1 = .ok ())
    (calls : List (Call × Environment)) (conditions : Conditions) (s : State)
    (hs : s = run platform session calls (create platform session opening {}).2) :
    retainedBytes session s ≤ session.maxRetainedBytes ∧
      (checked platform session s conditions = .ok () ↔
        lifetime session s.revoked conditions.now conditions.monotonic = .ok () ∧
        conditions.engineIdentity = session.engineDigest ∧ conditions.authorized = true ∧
        conditions.validates = true ∧
        lifetime session s.revoked conditions.closingNow conditions.closingMonotonic = .ok ()) := by
  have sound := run_sound ideal calls (create_sound ideal opened)
  rw [← hs] at sound
  refine ⟨sound.fits, ?_⟩
  constructor
  · intro h
    obtain ⟨hentry, -, hclosing⟩ := checked_ok h
    unfold checked at h
    obtain ⟨_, -, h⟩ := bind_ok.mp h
    obtain ⟨hengine, h⟩ := raise_ok.mp h
    obtain ⟨hauthorized, h⟩ := raise_ok.mp h
    obtain ⟨hvalidates, -⟩ := raise_ok.mp h
    exact ⟨hentry, not_not.mp hengine, Bool.eq_true_of_not_eq_false hauthorized,
      Bool.eq_true_of_not_eq_false hvalidates, hclosing⟩
  · rintro ⟨hentry, hengine, hauthorized, hvalidates, hclosing⟩
    unfold checked
    rw [hentry]
    refine (if_neg (not_not.mpr hengine)).trans ((if_neg ?_).trans ((if_neg ?_).trans ?_))
    · rw [hauthorized]
      decide
    · rw [hvalidates]
      decide
    · rw [sound.consistent]
      exact hclosing

theorem run_check_iff_sample : checked samplePlatform sampleSession
    (run samplePlatform sampleSession sampleCalls
      (create samplePlatform sampleSession (meeting blurred) {}).2)
    ((meeting clear).checks 0) = .ok () := by
  refine (run_check_iff samplePlatform sampleSession samplePlatform_ideal (meeting blurred)
    sample_opened sampleCalls ((meeting clear).checks 0) _ rfl).2.mpr ⟨?_, rfl, rfl, rfl, ?_⟩
  · decide +kernel
  · decide +kernel

end

end AppraisalReview.RefillReview
