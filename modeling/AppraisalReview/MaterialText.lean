import AppraisalReview.MaterialJson

set_option autoImplicit false

/-!
# What the text of the material determines

The canonical text tells any two materials apart, except for what the dump itself
does not show: the order in which a dictionary was filled, and whether an observed
number was given as a number or as the text of that number.
-/
namespace AppraisalReview
open CanonicalJson

namespace Decimal

def fractionOf : List Char → List Char × List Char
  | '.' :: rest => rest.span Char.isDigit
  | rest => ([], rest)

def numeral (cs : List Char) : Option (ℕ × ℤ) :=
  let (whole, rest) := cs.span Char.isDigit
  let (fraction, rest) := fractionOf rest
  (exponentOf rest).map fun e => (natOf (whole ++ fraction), e - fraction.length)

theorem span_digits {ds rest : List Char} (hds : ∀ c ∈ ds, c.isDigit = true)
    (hrest : rest.takeWhile Char.isDigit = []) :
    (ds ++ rest).span Char.isDigit = (ds, rest) := by
  have hsame := List.takeWhile_append_dropWhile (p := Char.isDigit) (l := rest)
  rw [hrest, List.nil_append] at hsame
  rw [List.span_eq_takeWhile_dropWhile, List.takeWhile_append_of_pos hds,
    List.dropWhile_append_of_pos hds, hrest, List.append_nil, hsame]

/-- What `str` writes after the digits. -/
def exponentText (places : ℤ) : List Char :=
  if places = 0 then []
  else 'E' :: (if places < 0 then '-' else '+') :: Nat.toDigits 10 places.natAbs

theorem exponentText_takeWhile (places : ℤ) : (exponentText places).takeWhile Char.isDigit = [] := by
  unfold exponentText
  split <;> rfl

theorem toDigits_isDigit {n : ℕ} {c : Char} (h : c ∈ Nat.toDigits 10 n) : c.isDigit = true :=
  Nat.isDigit_of_mem_toDigits (by omega) (by omega) h

theorem natOf_toDigits (n : ℕ) : natOf (Nat.toDigits 10 n) = n := Nat.ofDigitChars_ten_toDigits

theorem exponentOf_exponentText (places : ℤ) : exponentOf (exponentText places) = some places := by
  unfold exponentText
  split
  · rename_i hzero
    rw [hzero]
    rfl
  · have hds : Nat.toDigits 10 places.natAbs ≠ [] ∧
        (Nat.toDigits 10 places.natAbs).all Char.isDigit = true :=
      ⟨Nat.toDigits_ne_nil, List.all_eq_true.mpr fun _ => toDigits_isDigit⟩
    split
    · simp only [exponentOf, or_true, if_true, if_pos hds, natOf_toDigits]
      congr 1
      omega
    · simp only [exponentOf, or_true, if_true, if_pos hds, natOf_toDigits]
      simp
      omega

theorem fractionOf_exponentText (places : ℤ) :
    fractionOf (exponentText places) = ([], exponentText places) := by
  unfold exponentText
  split
  · rfl
  · simp [fractionOf]

theorem numeral_whole {whole : List Char} (hwhole : ∀ c ∈ whole, c.isDigit = true) (places : ℤ) :
    numeral (whole ++ exponentText places) = some (natOf whole, places) := by
  rw [numeral, span_digits hwhole (exponentText_takeWhile places)]
  simp [fractionOf_exponentText, exponentOf_exponentText]

theorem numeral_point {whole fraction : List Char} (hwhole : ∀ c ∈ whole, c.isDigit = true)
    (hfraction : ∀ c ∈ fraction, c.isDigit = true) (places : ℤ) :
    numeral (whole ++ '.' :: (fraction ++ exponentText places)) =
      some (natOf (whole ++ fraction), places - fraction.length) := by
  rw [numeral, span_digits hwhole (by rfl)]
  simp only [fractionOf, span_digits hfraction (exponentText_takeWhile places), exponentOf_exponentText,
    Option.map_some]

theorem natOf_zeros (n : ℕ) (ds : List Char) : natOf (List.replicate n '0' ++ ds) = natOf ds := by
  rw [natOf, Nat.ofDigitChars_append, Nat.ofDigitChars_replicate_zero, Nat.mul_zero, natOf]

def unsignedText (d : Decimal) : List Char :=
  let ds := Nat.toDigits 10 d.coefficient
  let left := d.exponent + ds.length
  let point := if d.exponent ≤ 0 ∧ -6 < left then left else 1
  (if point ≤ 0 then "0.".toList ++ List.replicate (-point).toNat '0' ++ ds
    else if (ds.length : ℤ) ≤ point then ds ++ List.replicate (point - ds.length).toNat '0'
    else ds.take point.toNat ++ '.' :: ds.drop point.toNat) ++ exponentText (left - point)

theorem text_toList (d : Decimal) :
    d.text.toList = (if d.negative then ['-'] else []) ++ d.unsignedText := by
  simp only [text, unsignedText, exponentText, String.toList_ofList, List.append_assoc, sub_eq_zero,
    sub_neg]

theorem numeral_unsignedText (d : Decimal) :
    numeral d.unsignedText = some (d.coefficient, d.exponent) := by
  have hds : ∀ c ∈ Nat.toDigits 10 d.coefficient, c.isDigit = true := fun _ => toDigits_isDigit
  have hlength : 0 < (Nat.toDigits 10 d.coefficient).length :=
    List.length_pos_iff.mpr Nat.toDigits_ne_nil
  have hnatOf := natOf_toDigits d.coefficient
  simp only [unsignedText]
  generalize Nat.toDigits 10 d.coefficient = ds at hds hlength hnatOf ⊢
  generalize hpoint : (if d.exponent ≤ 0 ∧ -6 < d.exponent + ds.length then
    d.exponent + ds.length else 1) = point
  split
  · have hzeros : ∀ c ∈ List.replicate (-point).toNat '0' ++ ds, c.isDigit = true := by
      intro c hc
      rcases List.mem_append.mp hc with hzero | hdigit
      · rw [List.eq_of_mem_replicate hzero]
        rfl
      · exact hds c hdigit
    have hzero : ∀ c ∈ ['0'], c.isDigit = true := by simp
    have hread := numeral_point hzero hzeros (d.exponent + ds.length - point)
    have hall : natOf (['0'] ++ (List.replicate (-point).toNat '0' ++ ds)) = d.coefficient := by
      rw [← hnatOf, ← natOf_zeros (-point).toNat ds]
      exact natOf_zeros 1 _
    have hexponent : d.exponent + ds.length - point -
        (List.replicate (-point).toNat '0' ++ ds).length = d.exponent := by
      rw [List.length_append, List.length_replicate]
      omega
    rw [hall, hexponent] at hread
    simpa using hread
  · split
    · -- the digits end at the point, so no zero is written after them
      have hends : (point - ds.length).toNat = 0 ∧ d.exponent + ds.length - point = d.exponent := by
        split at hpoint <;> omega
      rw [hends.1, hends.2, List.replicate_zero, List.append_nil, numeral_whole hds, hnatOf]
    · have hlast : (ds.drop point.toNat).length = ds.length - point.toNat := List.length_drop
      have hexponent : d.exponent + ds.length - point - (ds.drop point.toNat).length =
          d.exponent := by
        omega
      rw [List.append_assoc, List.cons_append,
        numeral_point (fun c hc => hds c (List.mem_of_mem_take hc))
          (fun c hc => hds c (List.mem_of_mem_drop hc)),
        List.take_append_drop, hnatOf, hexponent]

theorem numeral_minus (rest : List Char) : numeral ('-' :: rest) = none := by
  rw [numeral, List.span_eq_takeWhile_dropWhile]
  rfl

theorem text_injective : Function.Injective text := by
  intro a b h
  have hchars := congrArg String.toList h
  rw [text_toList, text_toList] at hchars
  have hunsigned : ∀ (d : Decimal) (rest : List Char), d.unsignedText ≠ '-' :: rest := by
    intro d rest hminus
    have hread := numeral_unsignedText d
    rw [hminus, numeral_minus] at hread
    cases hread
  have hboth : a.negative = b.negative ∧ a.unsignedText = b.unsignedText := by
    cases ha : a.negative <;> cases hb : b.negative <;> rw [ha, hb] at hchars
    · exact ⟨rfl, hchars⟩
    · exact absurd hchars (hunsigned a _)
    · exact absurd hchars.symm (hunsigned b _)
    · exact ⟨rfl, (List.cons.inj hchars).2⟩
  have hread := numeral_unsignedText a
  rw [hboth.2, numeral_unsignedText b, Option.some.injEq, Prod.mk.injEq] at hread
  obtain ⟨negative, coefficient, exponent⟩ := a
  obtain ⟨negative', coefficient', exponent'⟩ := b
  simp only [mk.injEq]
  exact ⟨hboth.1, hread.1.symm, hread.2.symm⟩

end Decimal

namespace Dict
variable {ν μ : Type}

theorem sorted_nodup (dict : Dict String ν) :
    ((dict.items.insertionSort fun a b => a.1 ≤ b.1).map Prod.fst).Nodup :=
  ((List.perm_insertionSort _ dict.items).map Prod.fst).nodup_iff.mpr dict.keysNodup

/-- The entries in the order of their keys, with `f` of each value. -/
def ordered (f : ν → μ) (dict : Dict String ν) : Dict String μ where
  items := (dict.items.insertionSort fun a b => a.1 ≤ b.1).map fun entry => (entry.1, f entry.2)
  keysNodup := by
    rw [List.map_map]
    exact dict.sorted_nodup

theorem ordered_pairwise (f : ν → μ) (dict : Dict String ν) :
    (dict.ordered f).items.Pairwise fun a b => a.1 ≤ b.1 := by
  have htrans : IsTrans (String × ν) fun a b => a.1 ≤ b.1 := ⟨fun _ _ _ => String.le_trans⟩
  have htotal : Std.Total fun a b : String × ν => a.1 ≤ b.1 := ⟨fun a b => String.le_total a.1 b.1⟩
  exact List.pairwise_map.mpr (List.pairwise_insertionSort _ _)

theorem items_injective {a b : Dict String ν} (h : a.items = b.items) : a = b := by
  obtain ⟨items, _⟩ := a
  obtain ⟨items', _⟩ := b
  cases h
  rfl

theorem get?_ordered (f : ν → μ) (dict : Dict String ν) (key : String) :
    (dict.ordered f).get? key = (dict.get? key).map f := by
  have hentry : ∀ v, (dict.ordered f).get? key = some v ↔ (dict.get? key).map f = some v := by
    intro v
    simp only [← mem_items, ordered, List.mem_map, List.mem_insertionSort, Option.map_eq_some_iff,
      Prod.mk.injEq, Prod.exists]
    constructor
    · rintro ⟨_, w, hin, rfl, rfl⟩
      exact ⟨w, hin, rfl⟩
    · rintro ⟨w, hin, rfl⟩
      exact ⟨key, w, hin, rfl, rfl⟩
  exact Option.ext hentry

/-- Python compares two dictionaries key by key, whatever the order of the keys. -/
theorem ordered_eq_iff (f : ν → μ) (a b : Dict String ν) :
    a.ordered f = b.ordered f ↔ ∀ key, (a.get? key).map f = (b.get? key).map f := by
  constructor
  · intro h key
    rw [← get?_ordered, h, get?_ordered]
  · intro h
    apply items_injective
    have hmem : ∀ entry, entry ∈ (a.ordered f).items ↔ entry ∈ (b.ordered f).items := by
      rintro ⟨key, v⟩
      rw [mem_items, mem_items, get?_ordered, get?_ordered, h]
    have hperm : (a.ordered f).items.Perm (b.ordered f).items :=
      (List.perm_ext_iff_of_nodup (a.ordered f).keysNodup.of_map
        (b.ordered f).keysNodup.of_map).mpr hmem
    refine List.Perm.eq_of_pairwise ?_ (a.ordered_pairwise f) (b.ordered_pairwise f) hperm
    intro x y hx hy hle hge
    exact List.inj_on_of_nodup_map (a.ordered f).keysNodup hx ((hmem y).mpr hy)
      (String.le_antisymm hle hge)

end Dict

section
variable {α β : Type} {json : α → Json} {f : α → β}

theorem map_eq_iff {γ : Type} {g : α → γ} (h : ∀ x y, g x = g y ↔ f x = f y) (xs ys : List α) :
    xs.map g = ys.map g ↔ xs.map f = ys.map f := by
  induction xs generalizing ys with
  | nil => simp [eq_comm]
  | cons x xs ih =>
    cases ys with
    | nil => simp
    | cons y ys => rw [List.map_cons, List.map_cons, List.map_cons, List.map_cons, List.cons.injEq,
        List.cons.injEq, h, ih]

theorem optionJson_eq_iff (h : ∀ x y, json x = json y ↔ f x = f y) (hnull : ∀ x, json x ≠ .null)
    (a b : Option α) : optionJson json a = optionJson json b ↔ a.map f = b.map f := by
  cases a with
  | none =>
    cases b with
    | none => simp
    | some y => simp [optionJson, (hnull y).symm]
  | some x =>
    cases b with
    | none => simp [optionJson, hnull x]
    | some y => simp [optionJson, h]

theorem Dict.json_eq_iff (h : ∀ x y, json x = json y ↔ f x = f y) (a b : Dict String α) :
    a.json json = b.json json ↔ a.ordered f = b.ordered f := by
  have hentry : ∀ x y : String × α, (x.1, json x.2) = (y.1, json y.2) ↔ (x.1, f x.2) = (y.1, f y.2) := by
    intro x y
    rw [Prod.mk.injEq, Prod.mk.injEq, h]
  rw [Dict.json, Dict.json, Json.object.injEq, map_eq_iff hentry]
  exact ⟨fun hitems => items_injective hitems, congrArg Dict.items⟩

end

theorem citationsJson_injective : Function.Injective citationsJson := fun _ _ h =>
  List.map_injective_iff.mpr SourceCitation.json_injective (Json.array.inj h)

theorem floatJson_injective : Function.Injective floatJson := fun _ _ h => number_injective h

theorem optionFloat_injective : Function.Injective (optionJson floatJson) :=
  optionJson_injective floatJson_injective fun _ => Json.noConfusion

theorem numberJson_injective : Function.Injective fun n : ℤ => Json.number (intText n) :=
  fun _ _ h => intText_injective (Json.number.inj h)

theorem optionNumber_injective : Function.Injective (optionJson fun n : ℤ => .number (intText n)) :=
  optionJson_injective numberJson_injective fun _ => Json.noConfusion

theorem optionText_injective : Function.Injective optionText := optionString_injective

theorem RegionKind.label_injective : Function.Injective RegionKind.label := by
  intro a b h
  cases a <;> cases b <;> first | rfl | exact absurd h (by decide)

theorem Marking.text_injective : Function.Injective Marking.text := by
  intro a b h
  cases a <;> cases b <;> first | rfl | exact absurd h (by decide)

theorem DocumentRole.text_injective : Function.Injective DocumentRole.text := by
  intro a b h
  cases a <;> cases b <;> first | rfl | exact absurd h (by decide)

theorem SlotValue.text_injective : Function.Injective SlotValue.text := by
  intro a b h
  cases a <;> cases b <;> first | rfl | exact absurd h (by decide)

theorem ObservedUnit.text_injective : Function.Injective ObservedUnit.text := by
  intro a b h
  cases a <;> cases b <;> first | rfl | exact absurd h (by decide)

theorem ObservedState.text_injective : Function.Injective ObservedState.text := by
  intro a b h
  cases a <;> cases b <;> first | rfl | exact absurd h (by decide)

theorem ReliabilityMethod.text_injective : Function.Injective ReliabilityMethod.text := by
  intro a b h
  cases a <;> cases b <;> first | rfl | exact absurd h (by decide)

theorem CheckKind.text_injective : Function.Injective CheckKind.text := by
  intro a b h
  cases a <;> cases b <;> first | rfl | exact absurd h (by decide)

theorem RuleKind.text_injective : Function.Injective RuleKind.text := by
  intro a b h
  cases a <;> cases b <;> first | rfl | exact absurd h (by decide)

theorem RuleSetStatus.text_injective : Function.Injective RuleSetStatus.text := by
  intro a b h
  cases a <;> cases b <;> first | rfl | exact absurd h (by decide)

theorem Grade.text_injective : Function.Injective Grade.text := by
  intro a b h
  cases a <;> cases b <;> first | rfl | exact absurd h (by decide)

theorem SourceRegion.json_injective : Function.Injective SourceRegion.json := by
  rintro ⟨id, kind, box, text, table, row, column, selection⟩
    ⟨id', kind', box', text', table', row', column', selection'⟩ h
  simp only [SourceRegion.json, Json.object.injEq, List.cons.injEq, Prod.mk.injEq, true_and,
    Json.string.injEq, and_true] at h
  obtain ⟨hbox, hcolumn, rfl, hkind, hrow, hselection, htable, rfl⟩ := h
  have hselections : selection = selection' :=
    optionJson_injective (fun _ _ h => Marking.text_injective (Json.string.inj h))
      (fun _ => Json.noConfusion) hselection
  rw [Box.json_injective hbox, optionNumber_injective hcolumn, RegionKind.label_injective hkind,
    optionNumber_injective hrow, hselections, optionText_injective htable]

theorem SourcePage.json_injective : Function.Injective SourcePage.json := by
  rintro ⟨number, width, height, rotation, box, text, regions⟩
    ⟨number', width', height', rotation', box', text', regions'⟩ h
  simp only [SourcePage.json, Json.object.injEq, List.cons.injEq, Prod.mk.injEq, true_and,
    Json.bool.injEq, Json.array.injEq, and_true] at h
  obtain ⟨hbox, rfl, hheight, hnumber, hregions, hrotation, hwidth⟩ := h
  rw [Box.json_injective hbox, floatJson_injective hheight, numberJson_injective hnumber,
    List.map_injective_iff.mpr SourceRegion.json_injective hregions,
    Int.natCast_inj.mp (numberJson_injective hrotation), floatJson_injective hwidth]

theorem SourceDocument.json_injective : Function.Injective SourceDocument.json := by
  rintro ⟨document, uri, hash, version, role, date, pages⟩
    ⟨document', uri', hash', version', role', date', pages'⟩ h
  simp only [SourceDocument.json, Json.object.injEq, List.cons.injEq, Prod.mk.injEq, true_and,
    Json.string.injEq, Json.array.injEq, and_true] at h
  obtain ⟨rfl, hdate, rfl, hpages, hrole, rfl, rfl⟩ := h
  rw [optionText_injective hdate, List.map_injective_iff.mpr SourcePage.json_injective hpages,
    DocumentRole.text_injective hrole]

theorem SourceRegistry.json_injective : Function.Injective SourceRegistry.json := by
  rintro ⟨documents⟩ ⟨documents'⟩ h
  simp only [SourceRegistry.json, Json.object.injEq, List.cons.injEq, Prod.mk.injEq, true_and,
    Json.array.injEq, and_true] at h
  rw [List.map_injective_iff.mpr SourceDocument.json_injective h]

theorem ReviewSlot.json_injective : Function.Injective ReviewSlot.json := by
  rintro ⟨id, context, factor, value, blank, evidence⟩
    ⟨id', context', factor', value', blank', evidence'⟩ h
  simp only [ReviewSlot.json, Json.object.injEq, List.cons.injEq, Prod.mk.injEq, true_and,
    Json.string.injEq, Json.bool.injEq, and_true] at h
  obtain ⟨hcontext, rfl, hevidence, hfactor, rfl, hvalue⟩ := h
  rw [ComparisonContext.json_injective hcontext, citationsJson_injective hevidence,
    optionText_injective hfactor, SlotValue.text_injective hvalue]

theorem InventoryContext.json_injective : Function.Injective InventoryContext.json := by
  rintro ⟨context, factors, evidence⟩ ⟨context', factors', evidence'⟩ h
  simp only [InventoryContext.json, Json.object.injEq, List.cons.injEq, Prod.mk.injEq, true_and,
    and_true] at h
  obtain ⟨hcontext, hevidence, hfactors⟩ := h
  rw [ComparisonContext.json_injective hcontext, citationsJson_injective hevidence,
    stringsJson_injective hfactors]

theorem EmptyColumn.json_injective : Function.Injective EmptyColumn.json := by
  rintro ⟨id, evidence⟩ ⟨id', evidence'⟩ h
  simp only [EmptyColumn.json, Json.object.injEq, List.cons.injEq, Prod.mk.injEq, true_and,
    Json.string.injEq, and_true] at h
  obtain ⟨hevidence, rfl⟩ := h
  rw [citationsJson_injective hevidence]

theorem ArithmeticCheck.json_injective : Function.Injective ArithmeticCheck.json := by
  rintro ⟨id, kind, inputs, target, quantum, tolerance, evidence⟩
    ⟨id', kind', inputs', target', quantum', tolerance', evidence'⟩ h
  simp only [ArithmeticCheck.json, Json.object.injEq, List.cons.injEq, Prod.mk.injEq, true_and,
    Json.string.injEq, and_true] at h
  obtain ⟨hevidence, rfl, hinputs, hkind, hquantum, rfl, htolerance⟩ := h
  rw [citationsJson_injective hevidence, stringsJson_injective hinputs,
    CheckKind.text_injective hkind, Decimal.text_injective hquantum,
    Decimal.text_injective htolerance]

theorem IntervalBand.json_injective : Function.Injective IntervalBand.json := by
  rintro ⟨grade, minimum, minimumInclusive, maximum, maximumInclusive⟩
    ⟨grade', minimum', minimumInclusive', maximum', maximumInclusive'⟩ h
  simp only [IntervalBand.json, Json.object.injEq, List.cons.injEq, Prod.mk.injEq, true_and,
    Json.string.injEq, Json.bool.injEq, and_true] at h
  obtain ⟨hgrade, hmaximum, rfl, hminimum, rfl⟩ := h
  rw [Grade.text_injective hgrade, optionFloat_injective hmaximum, optionFloat_injective hminimum]

theorem CategoryBand.json_injective : Function.Injective CategoryBand.json := by
  rintro ⟨grade, values⟩ ⟨grade', values'⟩ h
  simp only [CategoryBand.json, Json.object.injEq, List.cons.injEq, Prod.mk.injEq, true_and,
    Json.string.injEq, and_true] at h
  rw [Grade.text_injective h.1, stringsJson_injective h.2]

theorem RuleSource.json_injective : Function.Injective RuleSource.json := by
  rintro ⟨document, hash, pages⟩ ⟨document', hash', pages'⟩ h
  simp only [RuleSource.json, Json.object.injEq, List.cons.injEq, Prod.mk.injEq, true_and,
    Json.string.injEq, Json.array.injEq, and_true] at h
  obtain ⟨rfl, rfl, hpages⟩ := h
  rw [List.map_injective_iff.mpr numberJson_injective hpages]

theorem FactConfirmation.json_injective : Function.Injective FactConfirmation.json := by
  rintro ⟨reviewer, digest⟩ ⟨reviewer', digest'⟩ h
  simp only [FactConfirmation.json, Json.object.injEq, List.cons.injEq, Prod.mk.injEq, true_and,
    Json.string.injEq, and_true] at h
  rw [h.1, h.2]

theorem Reliability.json_injective : Function.Injective Reliability.json := by
  rintro ⟨kind, provenance, producer, confirmation, model, method, selection, unresolved⟩
    ⟨kind', provenance', producer', confirmation', model', method', selection', unresolved'⟩ h
  simp only [Reliability.json, Json.object.injEq, List.cons.injEq, Prod.mk.injEq, true_and,
    Json.string.injEq, and_true] at h
  obtain ⟨hkind, hconfirmation, hmethod, hmodel, hproducer, hprovenance, hselection,
    hunresolved⟩ := h
  have hconfirmations : confirmation = confirmation' :=
    optionJson_injective FactConfirmation.json_injective (fun _ => Json.noConfusion) hconfirmation
  rw [ConfidenceKind.text_injective hkind, hconfirmations, ReliabilityMethod.text_injective hmethod,
    optionFloat_injective hmodel, optionText_injective hproducer,
    Provenance.text_injective hprovenance, ReliabilitySelection.text_injective hselection,
    stringsJson_injective hunresolved]

theorem FactorPair.json_injective : Function.Injective FactorPair.json := by
  rintro ⟨factor, target, comparable⟩ ⟨factor', target', comparable'⟩ h
  simp only [FactorPair.json, Json.object.injEq, List.cons.injEq, Prod.mk.injEq, true_and,
    Json.string.injEq, and_true] at h
  obtain ⟨hcomparable, rfl, htarget⟩ := h
  rw [FactorObservation.json_injective hcomparable, FactorObservation.json_injective htarget]

theorem EvidencedPair.json_injective : Function.Injective EvidencedPair.json := by
  rintro ⟨context, pair, targets, comparables, target, comparable⟩
    ⟨context', pair', targets', comparables', target', comparable'⟩ h
  simp only [EvidencedPair.json, Json.object.injEq, List.cons.injEq, Prod.mk.injEq, true_and,
    and_true] at h
  obtain ⟨hcomparable, hcomparables, hcontext, hpair, htarget, htargets⟩ := h
  rw [Reliability.json_injective hcomparable, citationsJson_injective hcomparables,
    ComparisonContext.json_injective hcontext, FactorPair.json_injective hpair,
    Reliability.json_injective htarget, citationsJson_injective htargets]

def ObservedContent.dumped : ObservedContent → ObservedContent
  | .text value => .text value
  | .number value => .text value.text

def ObservedValue.dumped (observed : ObservedValue) : ObservedValue :=
  { observed with value := observed.value.map ObservedContent.dumped }

def CaseFacts.dumped (facts : CaseFacts) : CaseFacts :=
  { facts with observed := facts.observed.map ObservedValue.dumped }

def ReviewInventory.dumped (inventory : ReviewInventory) : ReviewInventory :=
  { inventory with
    inspectedPages := inventory.inspectedPages.ordered id
    inspectedTables := inventory.inspectedTables.ordered id }

def CorrectionMatrix.dumped (matrix : CorrectionMatrix) : CorrectionMatrix :=
  matrix.ordered (Dict.ordered id)

def FactorRule.dumped (rule : FactorRule) : FactorRule :=
  { rule with correctionMatrix := CorrectionMatrix.dumped rule.correctionMatrix }

def FactorRuleSet.dumped (rules : FactorRuleSet) : FactorRuleSet :=
  { rules with rules := rules.rules.map FactorRule.dumped }

def ScopedRules.dumped (entry : ScopedRules) : ScopedRules :=
  { entry with rules := entry.rules.dumped }

def ReviewPolicy.dumped (policy : ReviewPolicy) : ReviewPolicy :=
  { policy with
    inventory := policy.inventory.dumped
    ruleSets := policy.ruleSets.map ScopedRules.dumped }

def ReviewMaterial.dumped (material : ReviewMaterial) : ReviewMaterial :=
  ⟨material.policy.dumped, material.facts.dumped⟩

/-- The same material, but for an observed number given as its text and for the order in which
dictionaries were filled. -/
def ReviewMaterial.Alike (a b : ReviewMaterial) : Prop := a.dumped = b.dumped

/-- Two observed contents that the dump does not tell apart are one, or a number and its text. -/
theorem ObservedContent.dumped_eq_iff (a b : ObservedContent) : a.dumped = b.dumped ↔
    a = b ∨ ∃ d : Decimal, a = .number d ∧ b = .text d.text ∨ a = .text d.text ∧ b = .number d := by
  cases a with
  | text v => cases b with
    | text w => simp [dumped]
    | number e => simp [dumped]
  | number d => cases b with
    | text w => simp [dumped, eq_comm]
    | number e => simp [dumped, Decimal.text_injective.eq_iff]

theorem ObservedContent.json_eq_iff (a b : ObservedContent) :
    a.json = b.json ↔ a.dumped = b.dumped := by
  cases a <;> cases b <;> simp [json, dumped]

theorem ObservedContent.json_ne_null (a : ObservedContent) : a.json ≠ .null := by
  cases a <;> exact Json.noConfusion

theorem ObservedValue.json_eq_iff (a b : ObservedValue) : a.json = b.json ↔ a.dumped = b.dumped := by
  have hunit : Function.Injective (optionJson fun u : ObservedUnit => .string u.text) :=
    optionJson_injective (fun _ _ h => ObservedUnit.text_injective (Json.string.inj h))
      fun _ => Json.noConfusion
  obtain ⟨slot, state, value, unit, raw, evidence⟩ := a
  obtain ⟨slot', state', value', unit', raw', evidence'⟩ := b
  simp only [ObservedValue.json, ObservedValue.dumped, Json.object.injEq, List.cons.injEq,
    Prod.mk.injEq, true_and, and_true, Json.string.injEq, mk.injEq, citationsJson_injective.eq_iff,
    ObservedState.text_injective.eq_iff, hunit.eq_iff,
    optionJson_eq_iff ObservedContent.json_eq_iff ObservedContent.json_ne_null]
  tauto

theorem numbersJson_injective :
    Function.Injective fun pages : List ℤ => Json.array (pages.map fun n => .number (intText n)) :=
  fun _ _ h => List.map_injective_iff.mpr numberJson_injective (Json.array.inj h)

theorem ReviewInventory.json_eq_iff (a b : ReviewInventory) :
    a.json = b.json ↔ a.dumped = b.dumped := by
  obtain ⟨contexts, slots, checks, columns, pages, tables, unresolved, unsupported⟩ := a
  obtain ⟨contexts', slots', checks', columns', pages', tables', unresolved', unsupported'⟩ := b
  simp only [ReviewInventory.json, ReviewInventory.dumped, Json.object.injEq, List.cons.injEq,
    Prod.mk.injEq, true_and, and_true, Json.array.injEq, mk.injEq, stringsJson_injective.eq_iff,
    (List.map_injective_iff.mpr ArithmeticCheck.json_injective).eq_iff,
    (List.map_injective_iff.mpr InventoryContext.json_injective).eq_iff,
    (List.map_injective_iff.mpr EmptyColumn.json_injective).eq_iff,
    (List.map_injective_iff.mpr ReviewSlot.json_injective).eq_iff,
    Dict.json_eq_iff fun x y => numbersJson_injective.eq_iff (a := x) (b := y),
    Dict.json_eq_iff fun x y => stringsJson_injective.eq_iff (a := x) (b := y)]
  tauto

theorem CorrectionMatrix.json_eq_iff (a b : CorrectionMatrix) :
    CorrectionMatrix.json a = CorrectionMatrix.json b ↔
      CorrectionMatrix.dumped a = CorrectionMatrix.dumped b := by
  have hrow : ∀ x y : Dict String Binary64, x.json floatJson = y.json floatJson ↔
      x.ordered id = y.ordered id :=
    Dict.json_eq_iff fun x y => floatJson_injective.eq_iff
  simp only [CorrectionMatrix.json, CorrectionMatrix.dumped, Json.object.injEq, List.cons.injEq,
    Prod.mk.injEq, true_and, and_true, Dict.json_eq_iff hrow]

theorem FactorRule.json_eq_iff (a b : FactorRule) : a.json = b.json ↔ a.dumped = b.dumped := by
  obtain ⟨id, factor, kind, unit, intervals, categories, matrix, critical⟩ := a
  obtain ⟨id', factor', kind', unit', intervals', categories', matrix', critical'⟩ := b
  simp only [FactorRule.json, FactorRule.dumped, Json.object.injEq, List.cons.injEq, Prod.mk.injEq,
    true_and, and_true, Json.array.injEq, Json.string.injEq, Json.bool.injEq, mk.injEq,
    optionText_injective.eq_iff, RuleKind.text_injective.eq_iff, CorrectionMatrix.json_eq_iff,
    (List.map_injective_iff.mpr CategoryBand.json_injective).eq_iff,
    (List.map_injective_iff.mpr IntervalBand.json_injective).eq_iff]
  tauto

section
variable {isoformat : Date → String} (hday : Function.Injective isoformat)
include hday

theorem optionDay_injective :
    Function.Injective (optionJson fun day : Date => .string (isoformat day)) :=
  optionJson_injective (fun _ _ h => hday (Json.string.inj h)) fun _ => Json.noConfusion

theorem RuleApplicability.json_injective :
    Function.Injective (RuleApplicability.json isoformat) := by
  rintro ⟨jurisdiction, category, first, last⟩ ⟨jurisdiction', category', first', last'⟩ h
  simp only [RuleApplicability.json, Json.object.injEq, List.cons.injEq, Prod.mk.injEq, true_and,
    Json.string.injEq, and_true] at h
  obtain ⟨hfirst, hlast, rfl, rfl⟩ := h
  rw [optionDay_injective hday hfirst, optionDay_injective hday hlast]

theorem CaseIdentity.json_injective : Function.Injective (CaseIdentity.json isoformat) := by
  rintro ⟨case, version, district, zone, category, date⟩
    ⟨case', version', district', zone', category', date'⟩ h
  simp only [CaseIdentity.json, Json.object.injEq, List.cons.injEq, Prod.mk.injEq, true_and,
    Json.string.injEq, and_true] at h
  obtain ⟨rfl, rfl, hdate, rfl, rfl, rfl⟩ := h
  rw [hday hdate]

theorem FactorRuleSet.json_eq_iff (a b : FactorRuleSet) :
    a.json isoformat = b.json isoformat ↔ a.dumped = b.dumped := by
  obtain ⟨id, version, status, applicability, source, rules⟩ := a
  obtain ⟨id', version', status', applicability', source', rules'⟩ := b
  simp only [FactorRuleSet.json, FactorRuleSet.dumped, Json.object.injEq, List.cons.injEq,
    Prod.mk.injEq, true_and, and_true, Json.array.injEq, Json.string.injEq, mk.injEq,
    RuleSetStatus.text_injective.eq_iff, RuleSource.json_injective.eq_iff,
    (RuleApplicability.json_injective hday).eq_iff, map_eq_iff FactorRule.json_eq_iff]
  tauto

theorem ScopedRules.json_eq_iff (a b : ScopedRules) :
    a.json isoformat = b.json isoformat ↔ a.dumped = b.dumped := by
  obtain ⟨context, rules, version, zone, evidence⟩ := a
  obtain ⟨context', rules', version', zone', evidence'⟩ := b
  simp only [ScopedRules.json, ScopedRules.dumped, Json.object.injEq, List.cons.injEq,
    Prod.mk.injEq, true_and, and_true, Json.string.injEq, mk.injEq,
    ComparisonContext.json_injective.eq_iff, citationsJson_injective.eq_iff,
    FactorRuleSet.json_eq_iff hday]
  tauto

theorem ReviewPolicy.json_eq_iff (a b : ReviewPolicy) :
    a.json isoformat = b.json isoformat ↔ a.dumped = b.dumped := by
  obtain ⟨identity, registry, inventory, rules⟩ := a
  obtain ⟨identity', registry', inventory', rules'⟩ := b
  simp only [ReviewPolicy.json, ReviewPolicy.dumped, Json.object.injEq, List.cons.injEq,
    Prod.mk.injEq, true_and, and_true, Json.array.injEq, mk.injEq,
    (CaseIdentity.json_injective hday).eq_iff, ReviewInventory.json_eq_iff,
    SourceRegistry.json_injective.eq_iff, map_eq_iff (ScopedRules.json_eq_iff hday)]
  tauto

theorem CaseFacts.json_eq_iff (a b : CaseFacts) :
    a.json isoformat = b.json isoformat ↔ a.dumped = b.dumped := by
  obtain ⟨identity, pairs, observed, unresolved⟩ := a
  obtain ⟨identity', pairs', observed', unresolved'⟩ := b
  simp only [CaseFacts.json, CaseFacts.dumped, Json.object.injEq, List.cons.injEq, Prod.mk.injEq,
    true_and, and_true, Json.array.injEq, mk.injEq, (CaseIdentity.json_injective hday).eq_iff,
    (List.map_injective_iff.mpr EvidencedPair.json_injective).eq_iff,
    stringsJson_injective.eq_iff, map_eq_iff ObservedValue.json_eq_iff]
  tauto

theorem ReviewMaterial.canonical_eq_iff (a b : ReviewMaterial) :
    a.canonical isoformat = b.canonical isoformat ↔ a.Alike b := by
  obtain ⟨policy, facts⟩ := a
  obtain ⟨policy', facts'⟩ := b
  simp only [ReviewMaterial.canonical, dumps_injective.eq_iff, ReviewMaterial.json, Json.object.injEq,
    List.cons.injEq, Prod.mk.injEq, true_and, and_true, Alike, ReviewMaterial.dumped, mk.injEq,
    CaseFacts.json_eq_iff hday, ReviewPolicy.json_eq_iff hday]
  exact and_comm

end
end AppraisalReview
