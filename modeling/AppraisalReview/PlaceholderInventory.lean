import AppraisalReview.PlaceholderTokens
import AppraisalReview.Raising
import Mathlib.Data.Finset.Lattice.Lemmas
import Mathlib.Data.List.Perm.Basic

set_option autoImplicit false

/-!
# The inventory of placeholders

`verify_text_regions` takes the readings one by one and remembers which targets
it has met. Over targets that do not overlap its verdict is that of a matching
of token occurrences with targets, whatever the order.
-/
namespace AppraisalReview.Placeholders
open Raising
open DocumentTransfer (PrivacyPage PrivacyRegion)

structure RefillTarget where
  occurrenceId : UUID4
  entityId : UUID4
  outputFieldId : UUID4
  region : PrivacyRegion
  present : Bool := true
deriving DecidableEq

def overlaps (a b : PrivacyRegion) : Bool :=
  a.page = b.page && max a.bbox.1 b.bbox.1 < min a.bbox.2.2.1 b.bbox.2.2.1 &&
    max a.bbox.2.1 b.bbox.2.1 < min a.bbox.2.2.2 b.bbox.2.2.2

/-- `validate_region` -/
def validateRegion (pages : List PrivacyPage) (region : PrivacyRegion) : Except String Unit :=
  match pages[region.page - 1]? with
  | none => .error "Privacy region outside document"
  | some page =>
    if page.width < region.bbox.2.2.1 ∨ page.height < region.bbox.2.2.2 then
      .error "Privacy region outside page"
    else .ok ()

abbrev Reading := String × PrivacyRegion

abbrev Occurrence := String × PrivacyRegion

def holds (target : RefillTarget) (region : PrivacyRegion) : Bool :=
  let a := target.region.bbox
  let b := region.bbox
  target.region.page = region.page && a.1 ≤ b.1 && b.1 < b.2.2.1 && b.2.2.1 ≤ a.2.2.1 &&
    a.2.1 ≤ b.2.1 && b.2.1 < b.2.2.2 && b.2.2.2 ≤ a.2.2.2

section
variable (nfkc casefold : String → String)

def fits (occurrence : Occurrence) (target : RefillTarget) : Bool :=
  target.present && casefold (placeholderText target.entityId) = casefold occurrence.1 &&
    holds target occurrence.2

def placeToken (targets : List RefillTarget) (seen : Finset UUID4) (occurrence : Occurrence) :
    Except String (Finset UUID4) :=
  match targets.filter fun target =>
      target.occurrenceId ∉ seen && fits casefold occurrence target with
  | [target] => .ok (insert target.occurrenceId seen)
  | _ => .error "Unexpected or misplaced placeholder"

def occurrencesOf (reading : Reading) : List Occurrence :=
  (finditer none 0 (nfkc reading.1).toList).map fun token => (String.ofList token, reading.2)

def placeReading (targets : List RefillTarget) (pages : List PrivacyPage) (seen : Finset UUID4)
    (reading : Reading) : Except String (Finset UUID4) := do
  validateRegion pages reading.2
  let found := occurrencesOf nfkc reading
  if countLower (casefold (nfkc reading.1)).toList ≠ found.length then
    .error "Malformed placeholder"
  else found.foldlM (placeToken casefold targets) seen

def presentIds (targets : List RefillTarget) : Finset UUID4 :=
  ((targets.filter RefillTarget.present).map RefillTarget.occurrenceId).toFinset

def verifyTextRegions (readings : List Reading) (targets : List RefillTarget)
    (pages : List PrivacyPage) (requireAll : Bool) : Except String Unit := do
  let seen ← readings.foldlM (placeReading nfkc casefold targets pages) ∅
  if requireAll && seen ≠ presentIds targets then .error "Missing placeholder" else .ok ()

/-- The readings name the targets: the tokens are complete, and each one has a target of its own. -/
structure Matched (readings : List Reading) (targets : List RefillTarget) (requireAll : Bool)
    (chosen : List RefillTarget) : Prop where
  fitting : List.Forall₂ (fun occurrence target => fits casefold occurrence target = true)
    (readings.flatMap (occurrencesOf nfkc)) chosen
  among : ∀ target ∈ chosen, target ∈ targets
  distinct : (chosen.map RefillTarget.occurrenceId).Nodup
  onto : requireAll = true → ∀ target ∈ targets, target.present = true → target ∈ chosen

def Inventory (readings : List Reading) (targets : List RefillTarget) (requireAll : Bool) : Prop :=
  (∀ reading ∈ readings, Complete none (nfkc reading.1).toList) ∧
    ∃ chosen, Matched nfkc casefold readings targets requireAll chosen

/-- What a descriptor and its pages promise. -/
structure Laid (readings : List Reading) (targets : List RefillTarget)
    (pages : List PrivacyPage) : Prop where
  regions : ∀ reading ∈ readings, validateRegion pages reading.2 = .ok ()
  apart : targets.Pairwise fun a b => overlaps a.region b.region = false
  identified : (targets.map RefillTarget.occurrenceId).Nodup

end

section
variable {nfkc casefold : String → String} {targets : List RefillTarget}

theorem holds_overlaps {a b : RefillTarget} {region : PrivacyRegion} (ha : holds a region = true)
    (hb : holds b region = true) : overlaps a.region b.region = true := by
  simp only [holds, Bool.and_eq_true, decide_eq_true_eq] at ha hb
  obtain ⟨⟨⟨⟨⟨⟨hpage, ha1⟩, hx⟩, ha2⟩, ha3⟩, hy⟩, ha4⟩ := ha
  obtain ⟨⟨⟨⟨⟨⟨hpage', hb1⟩, -⟩, hb2⟩, hb3⟩, -⟩, hb4⟩ := hb
  simp only [overlaps, Bool.and_eq_true, decide_eq_true_eq]
  refine ⟨⟨hpage.trans hpage'.symm, ?_⟩, ?_⟩
  · exact lt_of_le_of_lt (max_le ha1 hb1) (lt_of_lt_of_le hx (le_min ha2 hb2))
  · exact lt_of_le_of_lt (max_le ha3 hb3) (lt_of_lt_of_le hy (le_min ha4 hb4))

theorem candidates_le_one {p : RefillTarget → Bool} {region : PrivacyRegion}
    (hapart : targets.Pairwise fun a b => overlaps a.region b.region = false)
    (hp : ∀ target, p target = true → holds target region = true) :
    targets.filter p = [] ∨ ∃ target, targets.filter p = [target] := by
  have hpairwise := hapart.filter p
  have hmem : ∀ target ∈ targets.filter p, holds target region = true :=
    fun target hin => hp target (List.mem_filter.mp hin).2
  match h : targets.filter p with
  | [] => exact Or.inl rfl
  | [target] => exact Or.inr ⟨target, rfl⟩
  | a :: b :: rest =>
    rw [h] at hpairwise hmem
    have hno := List.rel_of_pairwise_cons hpairwise (List.mem_cons_self (l := rest) (a := b))
    rw [holds_overlaps (hmem a (by simp)) (hmem b (by simp))] at hno
    cases hno

theorem placeToken_ok (hapart : targets.Pairwise fun a b => overlaps a.region b.region = false)
    {seen seen' : Finset UUID4} {occurrence : Occurrence} :
    placeToken casefold targets seen occurrence = .ok seen' ↔
      ∃ target ∈ targets, fits casefold occurrence target = true ∧ target.occurrenceId ∉ seen ∧
        seen' = insert target.occurrenceId seen := by
  have hholds : ∀ target : RefillTarget, (target.occurrenceId ∉ seen &&
      fits casefold occurrence target) = true → holds target occurrence.2 = true := by
    intro target h
    simp only [fits, Bool.and_eq_true] at h
    exact h.2.2
  unfold placeToken
  rcases candidates_le_one hapart hholds with hnil | ⟨only, honly⟩
  · rw [hnil]
    constructor
    · intro h
      cases h
    · rintro ⟨target, hin, hfits, hunseen, -⟩
      exact absurd (by simp [hunseen, hfits]) (List.filter_eq_nil_iff.mp hnil target hin)
  · have hmem : ∀ target, target ∈ targets ∧ target.occurrenceId ∉ seen ∧
        fits casefold occurrence target = true ↔ target = only := by
      intro target
      rw [← @List.mem_singleton _ target only, ← honly, List.mem_filter, Bool.and_eq_true,
        decide_eq_true_eq]
    rw [honly]
    obtain ⟨hin, hunseen, hfits⟩ := (hmem only).mpr rfl
    constructor
    · intro h
      cases h
      exact ⟨only, hin, hfits, hunseen, rfl⟩
    · rintro ⟨target, hin', hfits', hunseen', rfl⟩
      rw [(hmem target).mp ⟨hin', hunseen', hfits'⟩]

theorem placeTokens_ok (hapart : targets.Pairwise fun a b => overlaps a.region b.region = false)
    {occurrences : List Occurrence} {seen seen' : Finset UUID4} :
    occurrences.foldlM (placeToken casefold targets) seen = .ok seen' ↔
      ∃ chosen : List RefillTarget,
        List.Forall₂ (fun occurrence target => fits casefold occurrence target = true)
          occurrences chosen ∧
        (∀ target ∈ chosen, target ∈ targets ∧ target.occurrenceId ∉ seen) ∧
        (chosen.map RefillTarget.occurrenceId).Nodup ∧
        seen' = seen ∪ (chosen.map RefillTarget.occurrenceId).toFinset := by
  induction occurrences generalizing seen with
  | nil =>
    rw [List.foldlM_nil, pure_ok]
    constructor
    · rintro rfl
      exact ⟨[], .nil, by simp, by simp, by simp⟩
    · rintro ⟨chosen, hfitting, -, -, rfl⟩
      cases hfitting
      simp
  | cons occurrence rest ih =>
    rw [List.foldlM_cons, bind_ok]
    constructor
    · rintro ⟨middle, hfirst, hrest⟩
      obtain ⟨target, hin, hfits, hunseen, rfl⟩ := (placeToken_ok hapart).mp hfirst
      obtain ⟨chosen, hfitting, hamong, hdistinct, rfl⟩ := ih.mp hrest
      refine ⟨target :: chosen, .cons hfits hfitting, ?_, ?_, ?_⟩
      · intro other hother
        rcases List.mem_cons.mp hother with rfl | hother
        · exact ⟨hin, hunseen⟩
        · obtain ⟨hmem, hnew⟩ := hamong other hother
          exact ⟨hmem, fun h => hnew (Finset.mem_insert_of_mem h)⟩
      · rw [List.map_cons, List.nodup_cons]
        refine ⟨fun h => ?_, hdistinct⟩
        obtain ⟨other, hother, hsame⟩ := List.mem_map.mp h
        exact (hamong other hother).2 (hsame ▸ Finset.mem_insert_self _ _)
      · rw [List.map_cons, List.toFinset_cons, Finset.insert_union, Finset.union_insert]
    · rintro ⟨chosen, hfitting, hamong, hdistinct, rfl⟩
      cases hfitting with
      | @cons _ target _ later hfits hlater =>
        obtain ⟨hin, hunseen⟩ := hamong target List.mem_cons_self
        rw [List.map_cons, List.nodup_cons] at hdistinct
        refine ⟨_, (placeToken_ok hapart).mpr ⟨target, hin, hfits, hunseen, rfl⟩,
          ih.mpr ⟨later, hlater, ?_, hdistinct.2, ?_⟩⟩
        · intro other hother
          obtain ⟨hmem, hnew⟩ := hamong other (List.mem_cons_of_mem _ hother)
          refine ⟨hmem, fun h => ?_⟩
          rcases Finset.mem_insert.mp h with hsame | h
          · exact hdistinct.1 (hsame ▸ List.mem_map_of_mem hother)
          · exact hnew h
        · rw [List.map_cons, List.toFinset_cons, Finset.insert_union, Finset.union_insert]

/-- The loop over the readings is the loop over their tokens, once these are complete. -/
theorem placeReadings_ok (hfolds : Folds casefold) {pages : List PrivacyPage}
    {readings : List Reading} (hregions : ∀ reading ∈ readings, validateRegion pages reading.2 = .ok ())
    {seen seen' : Finset UUID4} :
    readings.foldlM (placeReading nfkc casefold targets pages) seen = .ok seen' ↔
      (∀ reading ∈ readings, Complete none (nfkc reading.1).toList) ∧
        (readings.flatMap (occurrencesOf nfkc)).foldlM (placeToken casefold targets) seen =
          .ok seen' := by
  induction readings generalizing seen with
  | nil => simp
  | cons reading rest ih =>
    have hcount : countLower (casefold (nfkc reading.1)).toList = (occurrencesOf nfkc reading).length ↔
        Complete none (nfkc reading.1).toList := by
      rw [occurrencesOf, List.length_map]
      exact count_matches hfolds _
    have hlater : ∀ middle, rest.foldlM (placeReading nfkc casefold targets pages) middle =
        .ok seen' ↔ (∀ reading ∈ rest, Complete none (nfkc reading.1).toList) ∧
          (rest.flatMap (occurrencesOf nfkc)).foldlM (placeToken casefold targets) middle =
            .ok seen' := fun middle => ih fun r hr => hregions r (List.mem_cons_of_mem _ hr)
    have hfirst : ∀ middle, placeReading nfkc casefold targets pages seen reading = .ok middle ↔
        Complete none (nfkc reading.1).toList ∧
          (occurrencesOf nfkc reading).foldlM (placeToken casefold targets) seen = .ok middle := by
      intro middle
      rw [placeReading, hregions reading List.mem_cons_self, ← hcount]
      by_cases hcomplete : countLower (casefold (nfkc reading.1)).toList =
          (occurrencesOf nfkc reading).length
      · refine ⟨fun h => ⟨hcomplete, ?_⟩, fun h => ?_⟩
        · exact (if_neg (not_not.mpr hcomplete)).symm.trans h
        · exact (if_neg (not_not.mpr hcomplete)).trans h.2
      · refine ⟨fun h => ?_, fun h => absurd h.1 hcomplete⟩
        cases (if_pos hcomplete).symm.trans h
    rw [List.foldlM_cons, List.flatMap_cons, List.foldlM_append, bind_ok, bind_ok,
      List.forall_mem_cons]
    constructor
    · rintro ⟨middle, hmiddle, hrest⟩
      obtain ⟨hcomplete, hplaced⟩ := (hfirst middle).mp hmiddle
      obtain ⟨hall, hthen⟩ := (hlater middle).mp hrest
      exact ⟨⟨hcomplete, hall⟩, middle, hplaced, hthen⟩
    · rintro ⟨⟨hcomplete, hall⟩, middle, hplaced, hthen⟩
      exact ⟨middle, (hfirst middle).mpr ⟨hcomplete, hplaced⟩, (hlater middle).mpr ⟨hall, hthen⟩⟩

/-- What the loops leave behind meets the demand for all targets exactly when all are chosen. -/
theorem presentIds_iff (hidentified : (targets.map RefillTarget.occurrenceId).Nodup)
    {occurrences : List Occurrence} {chosen : List RefillTarget}
    (hfitting : List.Forall₂ (fun occurrence target => fits casefold occurrence target = true)
      occurrences chosen) (hamong : ∀ target ∈ chosen, target ∈ targets) :
    (chosen.map RefillTarget.occurrenceId).toFinset = presentIds targets ↔
      ∀ target ∈ targets, target.present = true → target ∈ chosen := by
  have hpresent : ∀ target ∈ chosen, target.present = true := by
    intro target hin
    obtain ⟨occurrence, -, hfits⟩ := forall₂_right hfitting hin
    simp only [fits, Bool.and_eq_true] at hfits
    exact hfits.1.1
  constructor
  · intro hsame target hin hthere
    have hid : target.occurrenceId ∈ presentIds targets := by
      rw [presentIds, List.mem_toFinset]
      exact List.mem_map_of_mem (List.mem_filter.mpr ⟨hin, hthere⟩)
    rw [← hsame, List.mem_toFinset] at hid
    obtain ⟨other, hother, hequal⟩ := List.mem_map.mp hid
    rwa [List.inj_on_of_nodup_map hidentified (hamong other hother) hin hequal] at hother
  · intro hall
    ext id
    rw [presentIds, List.mem_toFinset, List.mem_toFinset, List.mem_map, List.mem_map]
    constructor
    · rintro ⟨target, hin, rfl⟩
      exact ⟨target, List.mem_filter.mpr ⟨hamong target hin, hpresent target hin⟩, rfl⟩
    · rintro ⟨target, hin, rfl⟩
      obtain ⟨hmem, hthere⟩ := List.mem_filter.mp hin
      exact ⟨target, hall target hmem hthere, rfl⟩

theorem verifyTextRegions_ok (hfolds : Folds casefold) {readings : List Reading}
    {pages : List PrivacyPage} (h : Laid readings targets pages) (requireAll : Bool) :
    verifyTextRegions nfkc casefold readings targets pages requireAll = .ok () ↔
      Inventory nfkc casefold readings targets requireAll := by
  have hend : ∀ seen : Finset UUID4, (if (requireAll && decide (seen ≠ presentIds targets)) = true then
      (.error "Missing placeholder" : Except String Unit) else .ok ()) = .ok () ↔
      (requireAll = true → seen = presentIds targets) := by
    intro seen
    cases requireAll <;> by_cases hsame : seen = presentIds targets <;> simp [hsame]
  rw [verifyTextRegions, bind_ok]
  simp only [placeReadings_ok hfolds h.regions, placeTokens_ok h.apart, hend]
  constructor
  · rintro ⟨seen, ⟨hcomplete, chosen, hfitting, hamong, hdistinct, rfl⟩, hall⟩
    refine ⟨hcomplete, chosen, hfitting, fun target hin => (hamong target hin).1, hdistinct, ?_⟩
    intro hrequired
    rw [← presentIds_iff h.identified hfitting fun target hin => (hamong target hin).1]
    rw [← hall hrequired, Finset.empty_union]
  · rintro ⟨hcomplete, chosen, hmatched⟩
    refine ⟨_, ⟨hcomplete, chosen, hmatched.fitting, fun target hin => ⟨hmatched.among target hin,
      Finset.notMem_empty _⟩, hmatched.distinct, rfl⟩, fun hrequired => ?_⟩
    rw [Finset.empty_union]
    exact (presentIds_iff h.identified hmatched.fitting hmatched.among).mpr (hmatched.onto hrequired)

theorem overlaps_comm (a b : PrivacyRegion) : overlaps a b = overlaps b a := by
  rw [Bool.eq_iff_iff]
  simp only [overlaps, Bool.and_eq_true, decide_eq_true_eq, max_comm b.bbox.1, min_comm b.bbox.2.2.1,
    max_comm b.bbox.2.1, min_comm b.bbox.2.2.2, @eq_comm _ b.page]

theorem Laid.perm {readings readings' : List Reading} {targets' : List RefillTarget}
    {pages : List PrivacyPage} (h : Laid readings targets pages) (hreadings : readings'.Perm readings)
    (htargets : targets'.Perm targets) : Laid readings' targets' pages where
  regions reading hin := h.regions reading (hreadings.mem_iff.mp hin)
  apart := (htargets.symm.pairwise h.apart fun hab => (overlaps_comm _ _).trans hab)
  identified := (htargets.map _).nodup_iff.mpr h.identified

theorem Inventory.perm {readings readings' : List Reading} {targets' : List RefillTarget}
    {requireAll : Bool} (h : Inventory nfkc casefold readings targets requireAll)
    (hreadings : readings'.Perm readings) (htargets : targets'.Perm targets) :
    Inventory nfkc casefold readings' targets' requireAll := by
  obtain ⟨hcomplete, chosen, hmatched⟩ := h
  obtain ⟨chosen', hfitting, hperm⟩ :=
    List.perm_comp_forall₂ (hreadings.flatMap_right (occurrencesOf nfkc)) hmatched.fitting
  refine ⟨fun reading hin => hcomplete reading (hreadings.mem_iff.mp hin), chosen', hfitting, ?_,
    (hperm.map _).nodup_iff.mpr hmatched.distinct, ?_⟩
  · intro target hin
    exact htargets.mem_iff.mpr (hmatched.among target (hperm.mem_iff.mp hin))
  · intro hrequired target hin hthere
    exact hperm.mem_iff.mpr (hmatched.onto hrequired target (htargets.mem_iff.mp hin) hthere)

end

/-- The verdict is that of a matching, and does not depend on the order. -/
theorem inventory_matching (nfkc casefold : String → String) (hfolds : Folds casefold)
    (readings : List Reading) (targets : List RefillTarget) (pages : List PrivacyPage)
    (requireAll : Bool) (h : Laid readings targets pages) :
    (verifyTextRegions nfkc casefold readings targets pages requireAll = .ok () ↔
      Inventory nfkc casefold readings targets requireAll) ∧
    ∀ readings' targets', readings'.Perm readings → targets'.Perm targets →
      (verifyTextRegions nfkc casefold readings' targets' pages requireAll = .ok () ↔
        verifyTextRegions nfkc casefold readings targets pages requireAll = .ok ()) := by
  refine ⟨verifyTextRegions_ok hfolds h requireAll, ?_⟩
  intro readings' targets' hreadings htargets
  rw [verifyTextRegions_ok hfolds h, verifyTextRegions_ok hfolds (h.perm hreadings htargets)]
  exact ⟨fun hinventory => hinventory.perm hreadings.symm htargets.symm,
    fun hinventory => hinventory.perm hreadings htargets⟩

def sampleId : UUID4 := ⟨⟨4 * 2 ^ 76 + 2 * 2 ^ 62⟩, by decide⟩

def sampleTarget : RefillTarget where
  occurrenceId := sampleId
  entityId := sampleId
  outputFieldId := sampleId
  region := ⟨1, 0, 0, 10, 10⟩

def otherId : UUID4 := ⟨⟨4 * 2 ^ 76 + 2 * 2 ^ 62 + 1⟩, by decide⟩

def otherTarget : RefillTarget where
  occurrenceId := otherId
  entityId := otherId
  outputFieldId := otherId
  region := ⟨1, 20, 20, 30, 30⟩

def sampleReadings : List Reading :=
  [("PT_00000000000040008000000000000001", ⟨1, 21, 21, 29, 29⟩),
    ("to PT_00000000000040008000000000000000", ⟨1, 1, 1, 9, 9⟩)]

theorem sample_laid : Laid sampleReadings [sampleTarget, otherTarget] [⟨1, 100, 100⟩] where
  regions := by decide +kernel
  apart := by decide +kernel
  identified := by decide +kernel

theorem inventory_matching_sample :
    Inventory id lowerAscii sampleReadings [sampleTarget, otherTarget] true :=
  (inventory_matching id lowerAscii lowerAscii_folds sampleReadings [sampleTarget, otherTarget]
    [⟨1, 100, 100⟩] true sample_laid).1.mp (by decide +kernel)

end AppraisalReview.Placeholders
