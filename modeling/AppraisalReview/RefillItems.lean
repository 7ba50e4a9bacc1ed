import AppraisalReview.RefillReview
import Mathlib.Algebra.Order.BigOperators.Group.List
import Mathlib.Data.List.Range
import Mathlib.Tactic.Linarith

set_option autoImplicit false

/-!
# The pages and items of a stage

Every measurement has its row, every present target its item, and a row without
an item is a reliable reading without tokens.
-/
namespace AppraisalReview.RefillReview
open DocumentTransfer Placeholders Raising

section
variable (platform : Platform) (session : Session)

structure Measures (pages : List PrivacyPage) (measured : Measured) : Prop where
  regions : ∀ o ∈ measured.observations, validateRegion session.descriptor.pages o.region = .ok ()
  numbers : measured.images.map Prod.fst = pages.map PrivacyPage.number
  shown : List.Forall₂ (fun image page => page.number = image.1 ∧
    platform.sha256 image.2 = page.imageSha256) measured.images measured.pages

variable {platform session}

theorem forM_ok {ε α : Type} {f : α → Except ε Unit} {l : List α} :
    l.forM f = .ok () ↔ ∀ x ∈ l, f x = .ok () := by
  induction l with
  | nil => exact ⟨fun _ x hx => absurd hx List.not_mem_nil, fun _ => rfl⟩
  | cons x rest ih =>
    change (f x >>= fun _ => rest.forM f) = .ok () ↔ _
    rw [bind_ok, List.forall_mem_cons, ← ih]
    constructor
    · rintro ⟨_, hx, hrest⟩
      exact ⟨hx, hrest⟩
    · rintro ⟨hx, hrest⟩
      exact ⟨(), hx, hrest⟩

theorem raise_ok {ε α : Type} {c : Prop} [Decidable c] {e : ε} {f : PUnit → Except ε α}
    {x : Except ε α} {a : α} :
    (if c then (throw e : Except ε PUnit) >>= f else x) = .ok a ↔ ¬ c ∧ x = .ok a := by
  split
  · next h =>
    constructor
    · intro hx
      cases hx
    · exact fun hx => absurd h hx.1
  · next h => exact ⟨fun hx => ⟨h, hx⟩, fun hx => hx.2⟩

theorem measurePage_measures {targets : List RefillTarget} {env : Environment}
    {pages : List PrivacyPage} {measured measured' : Measured}
    {page : PrivacyPage × RefillRenderedPage} (h : Measures platform session pages measured)
    (hpage : measurePage platform session targets env measured page = .ok measured') :
    Measures platform session (pages ++ [page.1]) measured' := by
  obtain ⟨page, image⟩ := page
  unfold measurePage at hpage
  obtain ⟨-, hpage⟩ := raise_ok.mp hpage
  obtain ⟨observations, -, hpage⟩ := bind_ok.mp hpage
  obtain ⟨-, hpage⟩ := raise_ok.mp hpage
  obtain ⟨_, hregions, hpage⟩ := bind_ok.mp hpage
  obtain ⟨_, -, hpage⟩ := bind_ok.mp hpage
  obtain ⟨-, hpage⟩ := raise_ok.mp hpage
  obtain rfl := Except.ok.inj hpage
  refine ⟨fun o ho => ?_, ?_, ?_⟩
  · obtain ho | ho := List.mem_append.mp ho
    · exact h.regions o ho
    · exact forM_ok.mp hregions o ho
  · simp only [List.map_append, h.numbers, List.map_cons, List.map_nil]
  · exact List.rel_append h.shown (.cons ⟨rfl, rfl⟩ .nil)

theorem measurePages_measures {targets : List RefillTarget} {env : Environment}
    {rest : List (PrivacyPage × RefillRenderedPage)} {pages : List PrivacyPage}
    {measured measured' : Measured} (h : Measures platform session pages measured)
    (hrest : rest.foldlM (measurePage platform session targets env) measured = .ok measured') :
    Measures platform session (pages ++ rest.map Prod.fst) measured' := by
  induction rest generalizing pages measured with
  | nil =>
    obtain rfl := pure_ok.mp hrest
    simpa using h
  | cons page rest ih =>
    rw [List.foldlM_cons, bind_ok] at hrest
    obtain ⟨middle, hpage, hrest⟩ := hrest
    have done := ih (measurePage_measures h hpage) hrest
    simpa only [List.append_assoc, List.singleton_append, List.map_cons] using done

theorem prepared_measures {targets : List RefillTarget} {env : Environment}
    {rendered : List RefillRenderedPage} {measured : Measured}
    (hlength : rendered.length = session.descriptor.pages.length)
    (h : (session.descriptor.pages.zip rendered).foldlM
      (measurePage platform session targets env) {} = .ok measured) :
    Measures platform session session.descriptor.pages measured := by
  have start : Measures platform session [] {} :=
    ⟨fun _ ho => absurd ho List.not_mem_nil, rfl, .nil⟩
  have done := measurePages_measures start h
  rwa [List.nil_append, List.map_fst_zip hlength.ge] at done

theorem find_of_nodup {images : List (ℕ × Bytes)} (distinct : (images.map Prod.fst).Nodup)
    {image : ℕ × Bytes} (h : image ∈ images) : imageOf images image.1 = .ok image.2 := by
  have found : images.find? (fun other => other.1 = image.1) = some image := by
    induction images with
    | nil => cases h
    | cons first rest ih =>
      rw [List.map_cons, List.nodup_cons] at distinct
      obtain rfl | h := List.mem_cons.mp h
      · simp
      · have other : first.1 ≠ image.1 := fun same =>
          distinct.1 (same ▸ List.mem_map_of_mem h)
        rw [List.find?_cons_of_neg (by simpa using other)]
        exact ih distinct.2 h
  simp only [imageOf, found]

theorem Measures.image {measured : Measured}
    (h : Measures platform session session.descriptor.pages measured) {page : OCRReviewPage}
    (hpage : page ∈ measured.pages) : ∃ image, imageOf measured.images page.number = .ok image ∧
      platform.sha256 image = page.imageSha256 := by
  obtain ⟨image, himage, hnumber, hdigest⟩ := forall₂_right h.shown hpage
  refine ⟨image.2, ?_, hdigest⟩
  rw [hnumber]
  refine find_of_nodup ?_ himage
  rw [h.numbers, session.descriptor.numbered]
  exact List.nodup_range'

theorem Measures.digests {pages : List PrivacyPage} {measured : Measured}
    (h : Measures platform session pages measured) :
    measured.images.map (fun image => platform.sha256 image.2) =
      measured.pages.map OCRReviewPage.imageSha256 := by
  obtain ⟨-, -, shown⟩ := h
  generalize measured.images = images at shown
  generalize measured.pages = pages at shown
  induction shown with
  | nil => rfl
  | cons hfirst _ ih => rw [List.map_cons, List.map_cons, hfirst.2, ih]

def Same (row row' : OCRReviewObservation) : Prop :=
  row'.page = row.page ∧ row'.bbox = row.bbox ∧ row'.rawText = row.rawText ∧
    row'.confidence = row.confidence

theorem Same.refl (row : OCRReviewObservation) : Same row row := ⟨rfl, rfl, rfl, rfl⟩

theorem Same.trans {a b c : OCRReviewObservation} (h : Same a b) (h' : Same b c) : Same a c :=
  ⟨h'.1.trans h.1, h'.2.1.trans h.2.1, h'.2.2.1.trans h.2.2.1, h'.2.2.2.trans h.2.2.2⟩

theorem same_rows (rows : List OCRReviewObservation) : List.Forall₂ Same rows rows :=
  List.forall₂_same.mpr fun row _ => Same.refl row

def Taken (o : TextObservation) (row : OCRReviewObservation) : Prop :=
  row.region = o.region ∧ row.rawText = o.text ∧ row.confidence = o.confidence

theorem rowsOf_taken (draws : ℕ) (observations : List TextObservation) :
    List.Forall₂ Taken observations (rowsOf platform draws observations) := by
  rw [rowsOf, List.forall₂_map_right_iff]
  rw [List.forall₂_iff_get]
  simp only [List.length_zipIdx, true_and, List.get_eq_getElem, List.getElem_zipIdx]
  intro i h h'
  exact ⟨rfl, rfl, rfl⟩

theorem claimRow_same {target : RefillTarget} {identifier : UUID} {row row' : OCRReviewObservation}
    (h : claimRow target identifier row = .ok row') : Same row row' := by
  unfold claimRow at h
  split at h
  · split at h
    · cases h
    split at h
    · cases h
    · obtain rfl := Except.ok.inj h
      exact ⟨rfl, rfl, rfl, rfl⟩
  · obtain rfl := Except.ok.inj h
    exact Same.refl row

theorem mapM_same {target : RefillTarget} {identifier : UUID}
    {rows rows' : List OCRReviewObservation}
    (h : rows.mapM (claimRow target identifier) = .ok rows') : List.Forall₂ Same rows rows' :=
  (mapM_ok.mp h).imp fun _ _ => claimRow_same

theorem same_trans {rows rows' rows'' : List OCRReviewObservation} (h : List.Forall₂ Same rows rows')
    (h' : List.Forall₂ Same rows' rows'') : List.Forall₂ Same rows rows'' := by
  induction h generalizing rows'' with
  | nil => exact h'
  | cons hfirst _ ih =>
    cases h' with
    | cons hfirst' hrest' => exact .cons (hfirst.trans hfirst') (ih hrest')

theorem taken_same {observations : List TextObservation} {rows rows' : List OCRReviewObservation}
    (h : List.Forall₂ Taken observations rows) (h' : List.Forall₂ Same rows rows') :
    List.Forall₂ Taken observations rows' := by
  induction h generalizing rows' with
  | nil =>
    cases h'
    exact .nil
  | cons hfirst _ ih =>
    cases h' with
    | cons hfirst' hrest' =>
      obtain ⟨hregion, htext, hconfidence⟩ := hfirst
      obtain ⟨hpage, hbbox, htext', hconfidence'⟩ := hfirst'
      refine .cons ⟨?_, htext'.trans htext, hconfidence'.trans hconfidence⟩ (ih hrest')
      rw [← hregion, OCRReviewObservation.region, OCRReviewObservation.region, hpage, hbbox]

structure Cell (target : RefillTarget) (item : OCRReviewItem) : Prop where
  kind : item.kind = .placeholder
  region : item.region = target.region
  expected : item.expectedText = some (placeholderText target.entityId)
  unread : item.confirmedReading = none

structure Asked (rows : List OCRReviewObservation) (item : OCRReviewItem) : Prop where
  kind : item.kind = .observation
  region : ∃ row ∈ rows, item.region = row.region
  expected : item.expectedText = none
  unread : item.confirmedReading = none

def drawn (platform : Platform) (draws count : ℕ) : List UUID :=
  (List.range' draws count).map platform.uuid4

theorem drawn_append (draws a b : ℕ) :
    drawn platform draws a ++ drawn platform (draws + a) b = drawn platform draws (a + b) := by
  rw [drawn, drawn, drawn, ← List.map_append, List.range'_append_1]

theorem placeTargets_cells {targets : List RefillTarget} {assigned assigned' : Assigned}
    (h : targets.foldlM (placeTarget platform) assigned = .ok assigned') :
    List.Forall₂ Same assigned.rows assigned'.rows ∧ ∃ cells,
      assigned'.items = assigned.items ++ cells ∧
      List.Forall₂ Cell (targets.filter RefillTarget.present) cells ∧
      assigned'.draws = assigned.draws + cells.length ∧
      cells.map OCRReviewItem.itemId = drawn platform assigned.draws cells.length := by
  induction targets generalizing assigned with
  | nil =>
    obtain rfl := pure_ok.mp h
    exact ⟨same_rows _, [], by simp, .nil, rfl, rfl⟩
  | cons target rest ih =>
    rw [List.foldlM_cons, bind_ok] at h
    obtain ⟨middle, hmiddle, h⟩ := h
    obtain ⟨hrows, cells, hitems, hcells, hdraws, hids⟩ := ih h
    unfold placeTarget at hmiddle
    split at hmiddle
    case isTrue absent =>
      obtain rfl := Except.ok.inj hmiddle
      refine ⟨hrows, cells, hitems, ?_, hdraws, hids⟩
      rwa [List.filter_cons_of_neg (by simp [absent])]
    case isFalse present =>
      obtain ⟨rows, hclaimed, hmiddle⟩ := bind_ok.mp hmiddle
      obtain rfl := Except.ok.inj hmiddle
      refine ⟨same_trans (mapM_same hclaimed) hrows, _ :: cells,
        hitems.trans (List.append_assoc ..), ?_, ?_, ?_⟩
      · rw [List.filter_cons_of_pos (by simpa using present)]
        exact .cons ⟨rfl, rfl, rfl, rfl⟩ hcells
      · rw [hdraws, List.length_cons, Nat.add_right_comm, Nat.add_assoc]
      · rw [List.map_cons, hids, List.length_cons, Nat.add_comm cells.length,
          ← drawn_append assigned.draws 1]
        rfl

theorem settleRows_asked (rows : List OCRReviewObservation) (assigned : Assigned) :
    ∃ done asked, (rows.foldl (settleRow platform session) assigned).rows = assigned.rows ++ done ∧
      List.Forall₂ Same rows done ∧
      (∀ row ∈ done, row.reviewItemId = none → required platform session row = false) ∧
      (rows.foldl (settleRow platform session) assigned).items = assigned.items ++ asked ∧
      (∀ item ∈ asked, Asked rows item) ∧
      (rows.foldl (settleRow platform session) assigned).draws = assigned.draws + asked.length ∧
      asked.map OCRReviewItem.itemId = drawn platform assigned.draws asked.length := by
  induction rows generalizing assigned with
  | nil => exact ⟨[], [], by simp, .nil, by simp, by simp, by simp, rfl, rfl⟩
  | cons row rest ih =>
    have later : ∀ item, Asked rest item → Asked (row :: rest) item := by
      rintro item ⟨hkind, ⟨other, hother, hregion⟩, hexpected, hunread⟩
      exact ⟨hkind, ⟨other, List.mem_cons_of_mem _ hother, hregion⟩, hexpected, hunread⟩
    rw [List.foldl_cons]
    obtain ⟨done, asked, hrows, hdone, hreliable, hitems, hasked, hdraws, hids⟩ :=
      ih (settleRow platform session assigned row)
    unfold settleRow at hrows hitems hdraws hids
    unfold settleRow
    split at hrows
    case isTrue settled =>
      rw [if_pos settled] at hitems hdraws hids ⊢
      exact ⟨row :: done, asked, hrows.trans (List.append_assoc ..), .cons (Same.refl row) hdone,
        List.forall_mem_cons.mpr ⟨fun hnone => settled.resolve_left (not_not.mpr hnone), hreliable⟩,
        hitems, fun item hitem => later item (hasked item hitem), hdraws, hids⟩
    case isFalse unsettled =>
      rw [if_neg unsettled] at hitems hdraws hids ⊢
      refine ⟨_ :: done, rowItem row (platform.uuid4 assigned.draws) :: asked,
        hrows.trans (List.append_assoc ..), .cons ⟨rfl, rfl, rfl, rfl⟩ hdone,
        List.forall_mem_cons.mpr ⟨fun hnone => absurd hnone (Option.some_ne_none _), hreliable⟩,
        hitems.trans (List.append_assoc ..), List.forall_mem_cons.mpr ⟨?_, fun item hitem =>
          later item (hasked item hitem)⟩, ?_, ?_⟩
      · exact ⟨rfl, ⟨row, List.mem_cons_self, rfl⟩, rfl, rfl⟩
      · rw [hdraws, List.length_cons, Nat.add_right_comm, Nat.add_assoc]
      · rw [List.map_cons, hids, List.length_cons, Nat.add_comm asked.length,
          ← drawn_append assigned.draws 1]
        rfl

structure Itemized (platform : Platform) (session : Session) (targets : List RefillTarget)
    (observations : List TextObservation) (assigned : Assigned) : Prop where
  rows : List.Forall₂ Taken observations assigned.rows
  reliable : ∀ row ∈ assigned.rows, row.reviewItemId = none → required platform session row = false
  cells : ∀ target ∈ targets, target.present = true → ∃ item ∈ assigned.items, Cell target item
  items : ∀ item ∈ assigned.items, (∃ target ∈ targets, Cell target item) ∨
    Asked assigned.rows item
  distinct : ∃ draws count, assigned.items.map OCRReviewItem.itemId = drawn platform draws count
  bytes : (assigned.items.map itemBytes).sum ≤
    (targets.map fun target => (placeholderText target.entityId).utf8ByteSize).sum

theorem Cell.bytes {target : RefillTarget} {item : OCRReviewItem} (h : Cell target item) :
    itemBytes item = (placeholderText target.entityId).utf8ByteSize := by
  simp [itemBytes, h.expected, h.unread]

theorem Asked.bytes {rows : List OCRReviewObservation} {item : OCRReviewItem} (h : Asked rows item) :
    itemBytes item = 0 := by
  simp [itemBytes, h.expected, h.unread]

theorem cells_bytes {targets : List RefillTarget} {cells : List OCRReviewItem}
    (h : List.Forall₂ Cell targets cells) : (cells.map itemBytes).sum =
      (targets.map fun target => (placeholderText target.entityId).utf8ByteSize).sum := by
  induction h with
  | nil => rfl
  | cons hfirst _ ih => rw [List.map_cons, List.map_cons, List.sum_cons, List.sum_cons, ih,
      hfirst.bytes]

theorem asked_bytes {rows : List OCRReviewObservation} {asked : List OCRReviewItem}
    (h : ∀ item ∈ asked, Asked rows item) : (asked.map itemBytes).sum = 0 := by
  refine List.sum_eq_zero fun x hx => ?_
  obtain ⟨item, hitem, rfl⟩ := List.mem_map.mp hx
  exact (h item hitem).bytes

theorem filtered_sum (p : RefillTarget → Bool) (f : RefillTarget → ℕ) (targets : List RefillTarget) :
    ((targets.filter p).map f).sum ≤ (targets.map f).sum :=
  (List.filter_sublist.map f).sum_le_sum fun _ _ => Nat.zero_le _

theorem Asked.rows {rows done : List OCRReviewObservation} (hrows : List.Forall₂ Same rows done)
    {item : OCRReviewItem} (h : Asked rows item) : Asked done item := by
  obtain ⟨row, hrow, hregion⟩ := h.region
  obtain ⟨row', hrow', hpage, hbbox, -, -⟩ := forall₂_left hrows hrow
  refine ⟨h.kind, ⟨row', hrow', hregion.trans ?_⟩, h.expected, h.unread⟩
  rw [OCRReviewObservation.region, OCRReviewObservation.region, hpage, hbbox]

theorem assign_itemized {targets : List RefillTarget} {draws : ℕ}
    {observations : List TextObservation} {assigned : Assigned}
    (h : assign platform session targets draws observations = .ok assigned) :
    Itemized platform session targets observations assigned := by
  unfold assign at h
  obtain ⟨placed, hplaced, h⟩ := bind_ok.mp h
  obtain rfl := Except.ok.inj h
  obtain ⟨hclaimed, cells, hcellItems, hcells, hdraws, hcellIds⟩ := placeTargets_cells hplaced
  obtain ⟨done, asked, hrows, hdone, hreliable, hitems, hasked, -, hids⟩ :=
    @settleRows_asked platform session placed.rows
      { rows := [], items := placed.items, draws := placed.draws }
  simp only [List.nil_append] at hrows hitems hcellItems
  have asked' : ∀ item ∈ asked, Asked done item := fun item hitem =>
    (hasked item hitem).rows hdone
  refine ⟨?_, ?_, ?_, ?_, ?_, ?_⟩
  · rw [hrows]
    exact taken_same (taken_same (rowsOf_taken draws observations) hclaimed) hdone
  · rw [hrows]
    exact hreliable
  · intro target htarget present
    rw [hitems, hcellItems]
    obtain ⟨item, hitem, hcell⟩ := forall₂_left hcells (List.mem_filter.mpr ⟨htarget, present⟩)
    exact ⟨item, List.mem_append_left _ hitem, hcell⟩
  · rw [hrows, hitems, hcellItems]
    intro item hitem
    obtain hitem | hitem := List.mem_append.mp hitem
    · obtain ⟨target, htarget, hcell⟩ := forall₂_right hcells hitem
      exact .inl ⟨target, (List.mem_filter.mp htarget).1, hcell⟩
    · exact .inr (asked' item hitem)
  · refine ⟨draws + observations.length, cells.length + asked.length, ?_⟩
    rw [hitems, hcellItems, List.map_append, hcellIds, hids, hdraws, drawn_append]
  · rw [hitems, hcellItems, List.map_append, List.sum_append, cells_bytes hcells, asked_bytes hasked]
    exact filtered_sum ..

theorem Itemized.nodup {targets : List RefillTarget} {observations : List TextObservation}
    {assigned : Assigned} (h : Itemized platform session targets observations assigned)
    (fresh : Function.Injective platform.uuid4) :
    (assigned.items.map OCRReviewItem.itemId).Nodup := by
  obtain ⟨draws, count, hids⟩ := h.distinct
  rw [hids]
  exact List.Nodup.map fresh List.nodup_range'

end

end AppraisalReview.RefillReview
