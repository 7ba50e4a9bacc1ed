import AppraisalReview.RefillItems

set_option autoImplicit false

/-!
# The writes of a review session

Whatever a method meets, and wherever it raises, it has moved the session by the
writes listed here, each behind its guards.
-/
namespace AppraisalReview.RefillReview
open DocumentTransfer Placeholders Going Raising
open Relation (ReflTransGen)

section
variable (platform : Platform) (session : Session)

structure Prepared (stage : Stage) (measured : Measured) (assigned : Assigned) : Prop where
  measures : Measures platform session session.descriptor.pages measured
  itemized : Itemized platform session (targetsOf session stage) measured.observations assigned

def Signed (s : State) (current : Reviewed) : Prop :=
  ∃ receipt ∈ s.receipts, receipt.reviewDigest = current.view.reviewDigest

@[simp] theorem keepView_history (v : OCRReviewView) (s : State) :
    (keepView v s).history .published = some v := by
  simp [keepView]

def Turn (s : State) (pdf : Bytes) : Stage → Prop
  | .published => s = {} ∧ pdf = session.publication
  | .restored => ∃ current, s.current = some current ∧ current.view.stage = .published ∧
      Signed s current ∧ s.candidate = some pdf ∧
      ∃ receipts, s.history .published = some { current.view with receipts := receipts }

def preparedBytes (stage : Stage) (measured : Measured) : ℕ :=
  (measured.images.map fun image => image.2.length).sum +
    (measured.observations.map fun o => o.text.utf8ByteSize).sum +
    ((targetsOf session stage).map fun target => (placeholderText target.entityId).utf8ByteSize).sum

/-- What calls do for a reviewer: the pages they show, and the readings they confirm. -/
structure Account where
  shows : Stage → ℕ → Prop
  confirms : Stage → UUID → ℕ → String → Prop

inductive Move (may : Account) : State → State → Prop
  | seen {s : State} {current : Reviewed} {page : ℕ} (held : s.current = some current)
      (shown : may.shows current.view.stage page) : Move may s (markSeen page s)
  | reread {s : State} {current : Reviewed} {item : OCRReviewItem} {itemId : UUID}
      {reading : String} (held : s.current = some current)
      (found : (current.view.items.find? fun item => item.itemId = itemId) = some item)
      (asked : may.confirms current.view.stage itemId item.page reading)
      (viewed : item.page ∈ current.seen) (bound : ∀ text ∈ item.expectedText, text = reading)
      (kept : ∀ text ∈ item.confirmedReading, text = reading)
      (fits : item.confirmedReading = none →
        retainedBytes session s + reading.utf8ByteSize ≤ session.maxRetainedBytes) :
      Move may s (reread itemId reading s)
  | sign {s : State} {current : Reviewed} {confirmedAt : ℤ} (held : s.current = some current)
      (read : ∀ item ∈ current.view.items, item.confirmedReading ≠ none)
      (verified : verify platform session (finalReadings current.view)
        (targetsOf session current.view.stage) true = .ok ())
      (unsigned : ¬ Signed s current) :
      Move may s (sign platform session current confirmedAt s)
  | keepView {s : State} {current : Reviewed} (held : s.current = some current)
      (published : current.view.stage = .published) (signed : Signed s current) :
      Move may s (keepView { current.view with receipts := s.receipts } s)
  | keepCandidate {s : State} {current : Reviewed} {pdf : Bytes} (held : s.current = some current)
      (published : current.view.stage = .published)
      (fits : retainedBytes session s + pdf.length ≤ session.maxRetainedBytes) :
      Move may s (keepCandidate pdf s)
  | enter {s : State} {stage : Stage} {pdf : Bytes} {measured : Measured} {assigned : Assigned}
      (turn : Turn session s pdf stage) (prepared : Prepared platform session stage measured assigned)
      (fits : retainedBytes session s + preparedBytes session stage measured ≤
        session.maxRetainedBytes) :
      Move may s (enter platform (firstView platform session s stage pdf measured assigned)
        measured assigned.draws s)
  | release {s : State} {current : Reviewed} {pdf : Bytes} {artifact : FinalLocalArtifact}
      (held : s.current = some current) (restored : current.view.stage = .restored)
      (signed : Signed s current) (written : s.candidate = some pdf)
      (made : artifactOf platform session pdf = .ok artifact) :
      Move may s (release artifact s)
  | revoke {s : State} (unfinished : s.complete = none) : Move may s (revoke s)

variable {platform session} {s : State} {R : State → State → Prop} {may : Account}

theorem get_goes : Goes R (get : Review State) s fun t s' => s' = s ∧ t = s := .reads ⟨rfl, rfl⟩

theorem check_goes {conditions : Conditions} : Goes R (check platform session conditions) s
    fun _ s' => s' = s ∧ checked platform session s conditions = .ok () := by
  refine .bind get_goes ?_
  rintro _ _ ⟨rfl, rfl⟩
  exact .lift fun _ h => ⟨rfl, h⟩

theorem currentOf_goes :
    Goes R currentOf s fun current s' => s' = s ∧ s.current = some current := by
  refine .bind get_goes ?_
  rintro _ _ ⟨rfl, rfl⟩
  split
  · next held => exact .returns ⟨rfl, held⟩
  · exact .raises _

theorem admitExtra_ok {extra : ℕ} (h : admitExtra session s extra = .ok ()) :
    retainedBytes session s + extra ≤ session.maxRetainedBytes := by
  unfold admitExtra at h
  split at h
  · cases h
  · next hfits => exact not_lt.mp hfits

theorem admitted_goes {extra : ℕ} : Goes R (admitted session extra) s fun _ s' => s' = s ∧
    retainedBytes session s + extra ≤ session.maxRetainedBytes := by
  refine .bind get_goes ?_
  rintro _ _ ⟨rfl, rfl⟩
  exact .lift fun _ h => ⟨rfl, admitExtra_ok h⟩

theorem view_goes {conditions : Conditions} : Goes R (view platform session conditions) s
    fun v s' => s' = s ∧ ∃ current, s.current = some current ∧
      v = { current.view with receipts := s.receipts } := by
  refine .bind check_goes ?_
  rintro _ _ ⟨rfl, -⟩
  refine .bind currentOf_goes ?_
  rintro current _ ⟨rfl, held⟩
  refine .bind get_goes ?_
  rintro _ _ ⟨rfl, rfl⟩
  exact .returns ⟨rfl, current, held, rfl⟩

theorem lift_goes {α : Type} {x : Except String α} :
    Goes R (liftM x : Review α) s fun a s' => s' = s ∧ x = .ok a := .lift fun _ h => ⟨rfl, h⟩

theorem write_goes {f : State → State} (step : R s (f s)) :
    Goes R (modify f : Review Unit) s fun _ s' => s' = f s := .writes step rfl

/-- An image call that passes its first check over an unchanged image of the page. -/
def Shows (platform : Platform) (session : Session) (env : Environment) (page : ℕ) (s : State)
    (stage : Stage) : Prop :=
  checked platform session s (env.checks 0) = .ok () ∧ ∃ current content expected,
    s.current = some current ∧ current.view.stage = stage ∧
    imageOf current.images page = .ok content ∧
    (current.view.pages.find? fun p => p.number = page) = some expected ∧
    platform.sha256 content = expected.imageSha256

theorem image_goes {env : Environment} {page : ℕ}
    (allowed : ∀ stage, Shows platform session env page s stage → may.shows stage page) :
    Goes (Move platform session may) (image platform session env page) s fun _ _ => True := by
  refine .bind check_goes ?_
  rintro _ _ ⟨rfl, hchecked⟩
  refine .bind currentOf_goes ?_
  rintro current _ ⟨rfl, held⟩
  refine .bind lift_goes ?_
  rintro content _ ⟨rfl, hcontent⟩
  split
  · exact .raises _
  · next expected hexpected =>
    refine .guard fun hdigest => ?_
    have shown : Shows platform session env page _ current.view.stage :=
      ⟨hchecked, current, content, expected, held, rfl, hcontent, hexpected, not_not.mp hdigest⟩
    refine .bind (write_goes (.seen held (allowed _ shown))) fun _ _ _ => ?_
    exact .bind check_goes fun _ _ _ => .returns trivial

def Resigned (s s' : State) : Prop :=
  ∃ receipts draws, s' = { s with receipts := receipts, draws := draws }

theorem receipt_goes {env : Environment} {conditions : Conditions} :
    Goes (Move platform session may) (receipt platform session env conditions) s fun done s' =>
      Resigned s s' ∧ (done = true → ∃ current, s'.current = some current ∧ Signed s' current) := by
  refine .bind currentOf_goes ?_
  rintro current _ ⟨rfl, held⟩
  refine .ite (fun _ => .returns ⟨⟨_, _, rfl⟩, fun h => by cases h⟩) fun hread => ?_
  refine .bind check_goes ?_
  rintro _ _ ⟨rfl, -⟩
  refine .bind lift_goes ?_
  rintro _ _ ⟨rfl, hverified⟩
  refine .bind get_goes ?_
  rintro now _ ⟨rfl, rfl⟩
  refine .ite (fun hsigned => .returns ⟨⟨_, _, rfl⟩, fun _ => ⟨current, held, ?_⟩⟩) fun hunsigned => ?_
  · obtain ⟨receipt, hreceipt, hdigest⟩ := List.any_eq_true.mp hsigned
    exact ⟨receipt, hreceipt, of_decide_eq_true hdigest⟩
  · have read : ∀ item ∈ current.view.items, item.confirmedReading ≠ none := by
      intro item hitem hnone
      exact hread (List.any_eq_true.mpr ⟨item, hitem, by simp [hnone]⟩)
    have unsigned : ¬ Signed now current := by
      rintro ⟨receipt, hreceipt, hdigest⟩
      exact hunsigned (List.any_eq_true.mpr ⟨receipt, hreceipt, decide_eq_true hdigest⟩)
    refine .bind (write_goes (.sign held read hverified unsigned)) ?_
    rintro _ _ rfl
    refine .returns ⟨⟨_, _, rfl⟩, fun _ => ⟨current, held, ?_⟩⟩
    exact ⟨_, List.mem_append_right _ (List.mem_singleton.mpr rfl), rfl⟩

theorem find_mem {items : List OCRReviewItem} {itemId : UUID} {item : OCRReviewItem}
    (h : (items.find? fun item => item.itemId = itemId) = some item) :
    item ∈ items ∧ item.itemId = itemId :=
  ⟨List.mem_of_find?_eq_some h, by simpa using List.find?_some h⟩

theorem any_ne {text : Option String} {reading : String} (h : ¬ text.any (· ≠ reading) = true) :
    ∀ other ∈ text, other = reading := by
  rintro other hother
  by_contra hne
  exact h (by simp [Option.mem_def.mp hother, hne])

theorem confirmable_ok {current : Reviewed} {item : OCRReviewItem}
    {command : OCRReviewConfirmation} (h : confirmable current item command = .ok ()) :
    item.page ∈ current.seen ∧ (∀ text ∈ item.expectedText, text = command.reading) ∧
      ∀ text ∈ item.confirmedReading, text = command.reading := by
  unfold confirmable at h
  split at h
  · cases h
  · obtain ⟨hviewed, h⟩ := raise_ok.mp h
    obtain ⟨-, h⟩ := raise_ok.mp h
    obtain ⟨hbound, h⟩ := raise_ok.mp h
    have hkept : ¬ item.confirmedReading.any (· ≠ command.reading) = true := by
      intro hany
      rw [if_pos hany] at h
      cases h
    exact ⟨not_not.mp fun hunseen => hviewed (.inl hunseen), any_ne hbound, any_ne hkept⟩

/-- A confirm call that passes its first check, and whose reading may be confirmed of the item. -/
def Confirms (platform : Platform) (session : Session) (env : Environment) (itemId : UUID)
    (command : OCRReviewConfirmation) (page : ℕ) (s : State) (stage : Stage) : Prop :=
  checked platform session s (env.checks 0) = .ok () ∧ ∃ current item,
    s.current = some current ∧ current.view.stage = stage ∧
    (current.view.items.find? fun item => item.itemId = itemId) = some item ∧ item.page = page ∧
    confirmable current item command = .ok ()

theorem confirm_goes {env : Environment} {itemId : UUID} {command : OCRReviewConfirmation}
    (allowed : ∀ stage page, Confirms platform session env itemId command page s stage →
      may.confirms stage itemId page command.reading) :
    Goes (Move platform session may) (confirm platform session env itemId command) s
      fun _ _ => True := by
  refine .bind check_goes ?_
  rintro _ _ ⟨rfl, hchecked⟩
  refine .bind currentOf_goes ?_
  rintro current _ ⟨rfl, held⟩
  refine .bind get_goes ?_
  rintro _ _ ⟨rfl, rfl⟩
  refine .guard fun _ => ?_
  split
  · exact .raises _
  · next item found =>
    refine .bind lift_goes ?_
    rintro _ _ ⟨rfl, hconfirmable⟩
    obtain ⟨hviewed, hbound, hkept⟩ := confirmable_ok hconfirmable
    refine .bind lift_goes ?_
    rintro _ _ ⟨rfl, hfits⟩
    refine .bind lift_goes ?_
    rintro _ _ ⟨rfl, -⟩
    have asked := allowed _ _ ⟨hchecked, current, item, held, rfl, found, rfl, hconfirmable⟩
    refine .bind (write_goes (.reread held found asked hviewed hbound hkept ?_)) fun _ _ _ => ?_
    · intro hnone
      rw [admitReading, hnone] at hfits
      exact admitExtra_ok hfits
    · refine .bind check_goes fun _ _ _ => .bind receipt_goes fun _ _ _ => ?_
      exact view_goes.mono fun _ _ _ => trivial

theorem prepare_goes {env : Environment} {first : ℕ} {stage : Stage} {pdf : Bytes}
    (turn : Turn session s pdf stage) :
    Goes (Move platform session may) (prepare platform session env first stage pdf) s
      fun _ s' => ∃ current, s'.current = some current ∧ current.view.stage = stage := by
  refine .bind check_goes ?_
  rintro _ _ ⟨rfl, -⟩
  refine .bind lift_goes ?_
  rintro rendered _ ⟨rfl, -⟩
  refine .guard fun hlength => ?_
  refine .bind admitted_goes ?_
  rintro _ _ ⟨rfl, -⟩
  refine .bind lift_goes ?_
  rintro measured _ ⟨rfl, hmeasured⟩
  refine .bind check_goes ?_
  rintro _ _ ⟨rfl, -⟩
  refine .bind admitted_goes ?_
  rintro _ _ ⟨rfl, hfits⟩
  refine .bind get_goes ?_
  rintro now _ ⟨rfl, rfl⟩
  refine .bind lift_goes ?_
  rintro assigned _ ⟨rfl, hassigned⟩
  refine .bind (write_goes (.enter turn
    ⟨prepared_measures (not_not.mp hlength) hmeasured, assign_itemized hassigned⟩ hfits)) ?_
  rintro _ _ rfl
  refine check_goes.mono ?_
  rintro _ _ ⟨rfl, -⟩
  exact ⟨_, rfl, rfl⟩

theorem complete_goes {conditions : Conditions} {current : Reviewed}
    (held : s.current = some current) (restored : current.view.stage = .restored)
    (signed : Signed s current) :
    Goes (Move platform session may) (complete platform session conditions) s
      fun released s' => ∀ artifact ∈ released, s'.complete = some artifact := by
  refine .bind get_goes ?_
  rintro now _ ⟨rfl, rfl⟩
  split
  · exact .raises _
  · next pdf hcandidate =>
    refine .bind check_goes ?_
    rintro _ _ ⟨rfl, -⟩
    refine .bind lift_goes ?_
    rintro artifact _ ⟨rfl, hartifact⟩
    refine .bind (write_goes (.release held restored signed hcandidate hartifact)) ?_
    rintro _ _ rfl
    exact .returns fun other hother => hother

theorem restore_goes {env : Environment} {current : Reviewed} (held : s.current = some current)
    (published : current.view.stage = .published) (signed : Signed s current) :
    Goes (Move platform session may) (restore platform session env) s
      fun _ s' => ∃ current, s'.current = some current ∧ current.view.stage = .restored := by
  refine .bind view_goes ?_
  rintro _ now ⟨rfl, other, hother, rfl⟩
  obtain rfl := Option.some.inj (held.symm.trans hother)
  refine .bind (write_goes (.keepView held published signed)) ?_
  rintro _ _ rfl
  refine .bind lift_goes ?_
  rintro written _ ⟨rfl, -⟩
  split
  · exact .raises _
  · next pdf =>
    refine .bind admitted_goes ?_
    rintro _ _ ⟨rfl, hfits⟩
    refine .bind (write_goes (.keepCandidate held published hfits)) ?_
    rintro _ _ rfl
    refine .bind check_goes ?_
    rintro _ _ ⟨rfl, -⟩
    exact prepare_goes ⟨current, held, published, signed, rfl, now.receipts,
      keepView_history _ now⟩

theorem advance_goes {env : Environment} : Goes (Move platform session may)
    (advance platform session env) s fun released s' =>
      checked platform session s (env.checks 0) = .ok () ∧
        ∀ artifact ∈ released, s'.complete = some artifact := by
  refine .bind check_goes ?_
  rintro _ _ ⟨rfl, hchecked⟩
  refine .bind get_goes ?_
  rintro now _ ⟨rfl, rfl⟩
  split
  · next artifact hcomplete =>
    refine .returns ⟨hchecked, fun other hother => ?_⟩
    obtain rfl := Option.some.inj hother
    exact hcomplete
  · refine .bind receipt_goes ?_
    rintro done _ ⟨⟨receipts, draws, rfl⟩, hsigned⟩
    refine .ite (fun hdone => ?_) fun _ => .returns ⟨hchecked, fun _ h => by cases h⟩
    obtain ⟨current, held, signed⟩ := hsigned hdone
    refine .bind currentOf_goes ?_
    rintro other _ ⟨rfl, hother⟩
    obtain rfl := Option.some.inj (held.symm.trans hother)
    refine .ite (fun published => ?_) fun unpublished => ?_
    · refine .bind (restore_goes held published signed) ?_
      rintro _ after ⟨restored, hrestored, hstage⟩
      refine .bind receipt_goes ?_
      rintro again after' ⟨⟨receipts', draws', rfl⟩, hsigned'⟩
      refine .ite (fun hagain => ?_) fun _ => .returns ⟨hchecked, fun _ h => by cases h⟩
      obtain ⟨last, hlast, signed'⟩ := hsigned' hagain
      obtain rfl := Option.some.inj (hrestored.symm.trans hlast)
      have held' : ({ after with receipts := receipts', draws := draws' } : State).current =
          some restored := hrestored
      exact (complete_goes held' hstage signed').mono fun _ _ h => ⟨hchecked, h⟩
    · have restored : current.view.stage = .restored := by
        cases hstage : current.view.stage with
        | published => exact absurd hstage unpublished
        | restored => rfl
      exact (complete_goes held restored signed).mono fun _ _ h => ⟨hchecked, h⟩

theorem permitsCompleted_goes {env : Environment} {digest : Digest} :
    Goes R (permitsCompleted platform session env digest) s fun permitted s' => s' = s ∧
      checked platform session s (env.checks 0) = .ok () ∧ (permitted = true →
        ∃ artifact, s.complete = some artifact ∧ artifact.manifest.finalDigest = digest) := by
  refine .bind check_goes ?_
  rintro _ _ ⟨rfl, hchecked⟩
  refine .bind get_goes ?_
  rintro now _ ⟨rfl, rfl⟩
  refine .returns ⟨rfl, hchecked, fun hpermitted => ?_⟩
  rw [Bool.and_eq_true, Bool.and_eq_true] at hpermitted
  cases hcomplete : now.complete with
  | none =>
    rw [hcomplete] at hpermitted
    cases hpermitted.1.1
  | some artifact =>
    rw [hcomplete] at hpermitted
    exact ⟨artifact, rfl, of_decide_eq_true hpermitted.1.1⟩

theorem history_goes {env : Environment} {stage : Stage} :
    Goes R (history platform session env stage) s fun _ s' => s' = s := by
  refine .bind check_goes ?_
  rintro _ _ ⟨rfl, -⟩
  refine .bind currentOf_goes ?_
  rintro current _ ⟨rfl, held⟩
  refine .ite (fun _ => view_goes.mono fun _ _ h => h.1) fun _ => ?_
  refine .bind get_goes ?_
  rintro now _ ⟨rfl, rfl⟩
  split
  · exact .returns rfl
  · exact .raises _

theorem archiveEvidence_goes {env : Environment} :
    Goes R (archiveEvidence platform session env) s fun _ s' => s' = s := by
  refine .bind get_goes ?_
  rintro now _ ⟨rfl, rfl⟩
  refine .guard fun _ => .guard fun _ => ?_
  refine .bind lift_goes ?_
  rintro _ _ ⟨rfl, -⟩
  exact .ite (fun _ => .raises _) fun _ => .returns rfl

theorem revokeAfterArchive_goes {env : Environment} :
    Goes (Move platform session may) (revokeAfterArchive env) s fun _ _ => True := by
  refine .bind get_goes ?_
  rintro now _ ⟨rfl, rfl⟩
  refine .guard fun hcomplete => .guard fun _ => ?_
  exact (write_goes (.revoke (Option.not_isSome_iff_eq_none.mp hcomplete))).mono fun _ _ _ => trivial

def accountOf (platform : Platform) (session : Session) (s : State) (call : Call × Environment) :
    Account where
  shows stage page := call.1 = .image page ∧ Shows platform session call.2 page s stage
  confirms stage itemId page reading := ∃ command, call.1 = .confirm itemId command ∧
    command.reading = reading ∧ Confirms platform session call.2 itemId command page s stage

theorem step_moves (call : Call × Environment) :
    ReflTransGen (Move platform session (accountOf platform session s call)) s
      (step platform session s call) := by
  obtain ⟨call, env⟩ := call
  have goes : Goes (Move platform session (accountOf platform session s (call, env)))
      (perform platform session env call) s fun _ _ => True := by
    cases call with
    | image page =>
      have allowed : ∀ stage, Shows platform session env page s stage →
          (accountOf platform session s (.image page, env)).shows stage page :=
        fun _ shown => ⟨rfl, shown⟩
      exact (image_goes allowed).bind fun _ _ _ => .returns trivial
    | confirm itemId command =>
      have allowed : ∀ stage page, Confirms platform session env itemId command page s stage →
          (accountOf platform session s (.confirm itemId command, env)).confirms stage itemId page
            command.reading :=
        fun _ _ asked => ⟨command, rfl, rfl, asked⟩
      exact (confirm_goes allowed).bind fun _ _ _ => .returns trivial
    | advance => exact advance_goes.bind fun _ _ _ => .returns trivial
    | view => exact view_goes.bind fun _ _ _ => .returns trivial
    | history stage => exact history_goes.bind fun _ _ _ => .returns trivial
    | permitsCompleted digest => exact permitsCompleted_goes.bind fun _ _ _ => .returns trivial
    | archiveEvidence => exact archiveEvidence_goes.mono fun _ _ _ => trivial
    | revokeAfterArchive => exact revokeAfterArchive_goes
  exact goes.steps

end

end AppraisalReview.RefillReview
