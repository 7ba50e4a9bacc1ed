import AppraisalReview.DocumentTransfer
import Mathlib.Tactic.IntervalCases

set_option autoImplicit false

/-!
# Placeholder tokens in a text

`PT_` and thirty-two hexadecimal digits in any case, between boundaries. The
scan passes over a match before it goes on, and misses no token by that.
-/
namespace AppraisalReview.Placeholders

/-- `uuid.hex` -/
def hex (u : UUID4) : List Char := u.chars.filter (· ≠ '-')

/-- `placeholder_text` -/
def placeholderText (entityId : UUID4) : String := "PT_" ++ String.ofList (hex entityId)

/-- `[0-9a-f]` in any case. -/
def hexLetter (c : Char) : Bool :=
  ('0' ≤ c && c ≤ '9') || ('a' ≤ c && c ≤ 'f') || ('A' ≤ c && c ≤ 'F')

/-- `[a-z0-9_]` in any case, with the four letters that fold into it. -/
def wordLetter (c : Char) : Bool :=
  asciiAlphanumeric c || c = '_' || c = '\u0130' || c = '\u0131' || c = '\u017f' || c = '\u212a'

def isP (c : Char) : Bool := c = 'P' || c = 'p'

/-- The text starts with `pt_` in some case. -/
def opens : List Char → Bool
  | p :: t :: u :: _ => isP p && (t = 'T' || t = 't') && u = '_'
  | _ => false

def tokenAt (before : Option Char) (text : List Char) : Option (List Char) :=
  let digits := (text.drop 3).take 32
  if !before.any wordLetter && opens text && digits.length = 32 && digits.all hexLetter &&
      !(text.drop 35).head?.any wordLetter then some (text.take 35)
  else none

/-- `TOKEN.finditer`: the characters of a match that remain are skipped. -/
def finditer (before : Option Char) : ℕ → List Char → List (List Char)
  | _, [] => []
  | skip + 1, c :: rest => finditer (some c) skip rest
  | 0, c :: rest =>
    match tokenAt before (c :: rest) with
    | some token => token :: finditer (some c) (token.length - 1) rest
    | none => finditer (some c) 0 rest

/-- `count("pt_")`; two occurrences cannot overlap. -/
def countLower : List Char → ℕ
  | [] => 0
  | c :: rest => (if ['p', 't', '_'].isPrefixOf (c :: rest) then 1 else 0) + countLower rest

/-- The occurrences of `pt_` in any case. -/
def openings : List Char → ℕ
  | [] => 0
  | c :: rest => (opens (c :: rest)).toNat + openings rest

/-- Every occurrence of `pt_` starts a complete token. -/
def Complete (before : Option Char) : List Char → Prop
  | [] => True
  | c :: rest => (opens (c :: rest) = true → (tokenAt before (c :: rest)).isSome = true) ∧
      Complete (some c) rest

/-- Folding the case neither makes nor breaks an occurrence of `pt_`. -/
def Folds (casefold : String → String) : Prop :=
  ∀ text : String, countLower (casefold text).toList = openings text.toList

def tokens (before : Option Char) : List Char → List (List Char)
  | [] => []
  | c :: rest => (tokenAt before (c :: rest)).toList ++ tokens (some c) rest

theorem tokenAt_some {before : Option Char} {text token : List Char}
    (h : tokenAt before text = some token) :
    opens text = true ∧ token = text.take 35 ∧ ((text.drop 3).take 32).length = 32 ∧
      ((text.drop 3).take 32).all hexLetter = true := by
  simp only [tokenAt] at h
  split at h
  · rename_i hmatch
    cases h
    simp only [Bool.and_eq_true, decide_eq_true_eq] at hmatch
    exact ⟨hmatch.1.1.1.2, rfl, hmatch.1.1.2, hmatch.1.2⟩
  · cases h

theorem opens_isP {c : Char} {rest : List Char} (h : opens (c :: rest) = true) : isP c = true := by
  cases rest with
  | nil => cases h
  | cons t rest =>
    cases rest with
    | nil => cases h
    | cons u rest =>
      simp only [opens, Bool.and_eq_true] at h
      exact h.1.1

theorem hexLetter_not_isP {c : Char} (h : hexLetter c = true) : isP c = false := by
  cases hp : isP c with
  | false => rfl
  | true =>
    simp only [isP, Bool.or_eq_true, decide_eq_true_eq] at hp
    rcases hp with rfl | rfl <;> exact absurd h (by decide)

theorem token_rest {before : Option Char} {c : Char} {rest token : List Char}
    (h : tokenAt before (c :: rest) = some token) :
    token.length - 1 = 34 ∧ ∀ d ∈ rest.take 34, isP d = false := by
  obtain ⟨hopens, rfl, hlength, hdigits⟩ := tokenAt_some h
  match rest, hopens with
  | t :: u :: digits, hopens =>
    simp only [opens, Bool.and_eq_true, Bool.or_eq_true, decide_eq_true_eq] at hopens
    obtain ⟨⟨-, ht⟩, rfl⟩ := hopens
    simp only [List.drop_succ_cons, List.drop_zero] at hlength hdigits
    refine ⟨?_, ?_⟩
    · simp only [List.take_succ_cons, List.length_cons]
      omega
    · intro d hd
      simp only [List.take_succ_cons, List.mem_cons] at hd
      rcases hd with rfl | rfl | hd
      · rcases ht with rfl | rfl <;> decide
      · decide
      · exact hexLetter_not_isP (List.all_eq_true.mp hdigits d hd)

theorem tokenAt_none {before : Option Char} {c : Char} {rest : List Char} (h : isP c = false) :
    tokenAt before (c :: rest) = none := by
  cases htoken : tokenAt before (c :: rest) with
  | none => rfl
  | some token =>
    have hp := opens_isP (tokenAt_some htoken).1
    rw [h] at hp
    cases hp

theorem finditer_skip (text : List Char) (before : Option Char) (skip : ℕ)
    (h : ∀ d ∈ text.take skip, isP d = false) : finditer before skip text = tokens before text := by
  induction text generalizing before skip with
  | nil => cases skip <;> rfl
  | cons c rest ih =>
    cases skip with
    | succ skip =>
      have hc : isP c = false := h c (by simp)
      rw [finditer, tokens, tokenAt_none hc]
      exact ih (some c) skip fun d hd => h d (by simp [hd])
    | zero =>
      rw [finditer, tokens]
      split
      · rename_i token htoken
        obtain ⟨hlength, hskip⟩ := token_rest htoken
        rw [htoken, hlength, ih (some c) 34 hskip]
        rfl
      · rename_i hnone
        rw [hnone]
        exact ih (some c) 0 (by simp)

theorem finditer_eq_tokens (text : List Char) : finditer none 0 text = tokens none text :=
  finditer_skip text none 0 (by simp)

/-- There are at most as many tokens as occurrences, and as many only when all are complete. -/
theorem tokens_length (text : List Char) (before : Option Char) :
    (tokens before text).length ≤ openings text ∧
      ((tokens before text).length = openings text ↔ Complete before text) := by
  induction text generalizing before with
  | nil => exact ⟨le_refl _, iff_of_true rfl trivial⟩
  | cons c rest ih =>
    obtain ⟨hle, hiff⟩ := ih (some c)
    simp only [tokens, openings, List.length_append, Complete, ← hiff]
    cases htoken : tokenAt before (c :: rest) with
    | some token =>
      have hopens := (tokenAt_some htoken).1
      simp only [hopens, Option.toList_some, List.length_singleton, Bool.toNat_true,
        Option.isSome_some, implies_true, true_and]
      omega
    | none =>
      cases hopens : opens (c :: rest) with
      | true => simp; omega
      | false => simp [hle]

/-- The count of the code agrees with the matches exactly when all occurrences are complete. -/
theorem count_matches {casefold : String → String} (h : Folds casefold) (text : String) :
    countLower (casefold text).toList = (finditer none 0 text.toList).length ↔
      Complete none text.toList := by
  rw [h, finditer_eq_tokens, eq_comm]
  exact (tokens_length text.toList none).2

def lowerChar (c : Char) : Char := if 'A' ≤ c ∧ c ≤ 'Z' then Char.ofNat (c.toNat + 32) else c

def lowerAscii (text : String) : String := String.ofList (text.toList.map lowerChar)

theorem lowerChar_eq (c : Char) : (lowerChar c = 'p' ↔ isP c = true) ∧
    (lowerChar c = 't' ↔ c = 'T' ∨ c = 't') ∧ (lowerChar c = '_' ↔ c = '_') := by
  unfold lowerChar
  split
  · rename_i hupper
    have hlow : 65 ≤ c.toNat := hupper.1
    have hhigh : c.toNat ≤ 90 := hupper.2
    have hc : c = Char.ofNat c.toNat := (Char.ofNat_toNat c).symm
    generalize c.toNat = n at hlow hhigh hc
    subst hc
    interval_cases n <;> decide
  · rename_i hupper
    have hP : c ≠ 'P' := by rintro rfl; exact hupper (by decide)
    have hT : c ≠ 'T' := by rintro rfl; exact hupper (by decide)
    simp [isP, hP, hT]

theorem lower_prefix (text : List Char) :
    ['p', 't', '_'].isPrefixOf (text.map lowerChar) = opens text := by
  match text with
  | [] => rfl
  | [_] => simp [opens, List.isPrefixOf]
  | [_, _] => simp [opens, List.isPrefixOf]
  | p :: t :: u :: rest =>
    obtain ⟨hp, -, -⟩ := lowerChar_eq p
    obtain ⟨-, ht, -⟩ := lowerChar_eq t
    obtain ⟨-, -, hu⟩ := lowerChar_eq u
    rw [Bool.eq_iff_iff]
    simp only [List.map_cons, List.isPrefixOf, Bool.and_eq_true, beq_iff_eq, opens,
      Bool.or_eq_true, decide_eq_true_eq, @eq_comm _ 'p', @eq_comm _ 't', @eq_comm _ '_', hp, ht, hu]
    tauto

theorem lowerAscii_folds : Folds lowerAscii := by
  intro text
  rw [lowerAscii, String.toList_ofList]
  induction text.toList with
  | nil => rfl
  | cons c rest ih =>
    have hprefix := lower_prefix (c :: rest)
    rw [List.map_cons] at hprefix ⊢
    rw [countLower, openings, ih, hprefix]
    cases opens (c :: rest) <;> rfl

end AppraisalReview.Placeholders
