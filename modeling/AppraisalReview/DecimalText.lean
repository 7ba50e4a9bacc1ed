import AppraisalReview.CanonicalJson
import AppraisalReview.Decimal

set_option autoImplicit false

/-!
# Decimal texts and floating-point numbers

How `Decimal(text)` reads a numeral, how `str` writes one, and the finite
binary64 numbers, each given by the text `repr` writes for it.
-/
namespace AppraisalReview

/-- `str.isspace` of one character. -/
def isSpace (c : Char) : Bool :=
  let n := c.toNat
  (9 ≤ n && n ≤ 13) || (28 ≤ n && n ≤ 32) || n = 133 || n = 160 || n = 5760 ||
    (8192 ≤ n && n ≤ 8202) || n = 8232 || n = 8233 || n = 8239 || n = 8287 || n = 12288

/-- `str.strip` on a list of characters. -/
def strip (cs : List Char) : List Char :=
  ((cs.dropWhile isSpace).reverse.dropWhile isSpace).reverse

namespace Decimal

/-- What a numeral denotes; the non-finite values are kept apart from the malformed texts. -/
inductive Reading where
  | finite (number : Decimal)
  | nonfinite
  | malformed
deriving DecidableEq

def natOf (cs : List Char) : ℕ := Nat.ofDigitChars 10 cs 0

def exponentOf : List Char → Option ℤ
  | [] => some 0
  | mark :: rest =>
    if mark = 'e' ∨ mark = 'E' then
      let (negative, ds) := match rest with
        | '-' :: ds => (true, ds)
        | '+' :: ds => (false, ds)
        | ds => (false, ds)
      if ds ≠ [] ∧ ds.all Char.isDigit then
        some (if negative then -(natOf ds : ℤ) else natOf ds)
      else none
    else none

def storable (d : Decimal) : Bool :=
  -1999999999999999997 ≤ d.exponent &&
    (if d.coefficient = 0 then d.exponent else d.adjusted) ≤ 999999999999999999

def unsignedReading (negative : Bool) (cs : List Char) : Reading :=
  let lower := String.ofList (cs.map Char.toLower)
  if lower = "inf" ∨ lower = "infinity" then .nonfinite
  else if (lower.toList.take 3 = "nan".toList ∧ (cs.drop 3).all Char.isDigit) ∨
      (lower.toList.take 4 = "snan".toList ∧ (cs.drop 4).all Char.isDigit) then .nonfinite
  else
    let (whole, rest) := cs.span Char.isDigit
    let (fraction, rest) := match rest with
      | '.' :: rest => rest.span Char.isDigit
      | _ => ([], rest)
    if whole = [] ∧ fraction = [] then .malformed
    else match exponentOf rest with
      | none => .malformed
      | some e =>
        let d : Decimal := ⟨negative, natOf (whole ++ fraction), e - fraction.length⟩
        if d.storable then .finite d else .malformed

/-- `Decimal(text)` for a text of ASCII characters without padding. -/
def reading : List Char → Reading
  | '-' :: cs => unsignedReading true cs
  | '+' :: cs => unsignedReading false cs
  | cs => unsignedReading false cs

/-- `Decimal(text)`: padding and underscores go, and every decimal digit of
Unicode stands for its value. `digit` is the character table for the rest. -/
def ofText (digit : Char → Option ℕ) (text : String) : Reading :=
  let ascii (c : Char) : Char :=
    if c.toNat < 128 then c
    else if isSpace c then ' '
    else match digit c with
      | some d => Char.ofNat (48 + d)
      | none => '?'
  reading (((strip text.toList).filter (· ≠ '_')).map ascii)

/-- `str(number)`: plain notation for moderate exponents, otherwise one leading digit. -/
def text (d : Decimal) : String :=
  let ds := Nat.toDigits 10 d.coefficient
  let left := d.exponent + ds.length
  let point := if d.exponent ≤ 0 ∧ -6 < left then left else 1
  let body :=
    if point ≤ 0 then "0.".toList ++ List.replicate (-point).toNat '0' ++ ds
    else if (ds.length : ℤ) ≤ point then ds ++ List.replicate (point - ds.length).toNat '0'
    else ds.take point.toNat ++ '.' :: ds.drop point.toNat
  let tail :=
    if left = point then []
    else 'E' :: (if left < point then '-' else '+') :: Nat.toDigits 10 (left - point).natAbs
  String.ofList ((if d.negative then ['-'] else []) ++ body ++ tail)

example : (reading "-12.50e3".toList, (⟨true, 1250, 1⟩ : Decimal).text) =
    (.finite ⟨true, 1250, 1⟩, "-1.250E+4") := by decide

end Decimal

/-- A finite float: the text `repr` writes and `Decimal` of that text. -/
structure Binary64 where
  repr : CanonicalJson.NumberText
  decimal : Decimal
  reads : Decimal.reading repr.text.toList = .finite decimal

namespace Binary64

theorem ext_repr {x y : Binary64} (h : x.repr = y.repr) : x = y := by
  obtain ⟨t, d, hd⟩ := x
  obtain ⟨t', d', hd'⟩ := y
  subst h
  rw [hd] at hd'
  cases hd'
  rfl

instance : DecidableEq Binary64 := fun x y =>
  decidable_of_iff (x.repr = y.repr) ⟨ext_repr, fun h => h ▸ rfl⟩

/-- `==`: the two zeros are equal. -/
def same (x y : Binary64) : Bool := x.decimal.same y.decimal

def le (x y : Binary64) : Bool := x.decimal.le y.decimal

def lt (x y : Binary64) : Bool := x.decimal.lt y.decimal

/-- `min(first, *rest)` keeps the first of equal values. -/
def least (first : Binary64) (rest : List Binary64) : Binary64 :=
  rest.foldl (fun low x => if x.lt low then x else low) first

/-- The float a numeral denotes when it is a `repr`. -/
def ofText (text : String) : Option Binary64 :=
  match h : Decimal.reading text.toList with
  | .finite d =>
    if hn : text.toList ≠ [] ∧ text.toList.all CanonicalJson.numberChar = true then
      some ⟨⟨text, hn.1, hn.2⟩, d, h⟩
    else none
  | _ => none

/-- The significand and exponent of the binary64 nearest to a positive
quotient, ties to even; `none` above the largest finite one. -/
def nearest (num den : ℕ) : Option (ℕ × ℤ) :=
  let gap : ℤ := (num.log2 : ℤ) - den.log2
  let full : Bool := if 0 ≤ gap then den * 2 ^ gap.toNat ≤ num else den ≤ num * 2 ^ (-gap).toNat
  let e := max (if full then gap - 52 else gap - 53) (-1074)
  let n := if e < 0 then num * 2 ^ (-e).toNat else num
  let d := if e < 0 then den else den * 2 ^ e.toNat
  let m := n / d + if d < 2 * (n % d) ∨ d = 2 * (n % d) ∧ n / d % 2 = 1 then 1 else 0
  if e = 971 ∧ 2 ^ 53 ≤ m ∨ 971 < e then none
  else if m = 2 ^ 53 then some (2 ^ 52, e + 1) else some (m, e)

def nearestDecimal (coefficient : ℕ) (exponent : ℤ) : Option (ℕ × ℤ) :=
  if exponent < 0 then nearest coefficient (10 ^ (-exponent).toNat)
  else nearest (coefficient * 10 ^ exponent.toNat) 1

/-- The shortest decimal between `count` and seventeen digits that rounds to
`m * 2 ^ e`, whose leading digit has the place `point`. -/
def shortest (m : ℕ) (e : ℤ) (point : ℤ) : ℕ → ℕ → ℕ × ℤ
  | _, 0 => (0, 0)
  | count, fuel + 1 =>
    let exponent := point - count
    let num := (if 0 < e then m * 2 ^ e.toNat else m) *
      (if exponent < 0 then 10 ^ (-exponent).toNat else 1)
    let den := (if e < 0 then 2 ^ (-e).toNat else 1) *
      (if exponent < 0 then 1 else 10 ^ exponent.toNat)
    let low := num / den
    let (first, second) := if den < 2 * (num % den) then (low + 1, low) else (low, low + 1)
    if nearestDecimal first exponent = some (m, e) then (first, exponent)
    else if nearestDecimal second exponent = some (m, e) then (second, exponent)
    else shortest m e point (count + 1) fuel

/-- `repr` of the number with these digits: plain notation between 1e-4 and 1e16. -/
def layout (negative : Bool) (ds : List Char) (exponent : ℤ) : String :=
  let point := exponent + ds.length
  let body :=
    if -4 < point ∧ point ≤ 16 then
      if point ≤ 0 then "0.".toList ++ List.replicate (-point).toNat '0' ++ ds
      else if (ds.length : ℤ) ≤ point then
        ds ++ List.replicate (point - ds.length).toNat '0' ++ ".0".toList
      else ds.take point.toNat ++ '.' :: ds.drop point.toNat
    else
      let places := Nat.toDigits 10 (point - 1).natAbs
      ds.take 1 ++ (if ds.length ≤ 1 then [] else '.' :: ds.drop 1) ++
        'e' :: (if point - 1 < 0 then '-' else '+') ::
          ((if places.length < 2 then ['0'] else []) ++ places)
  String.ofList ((if negative then ['-'] else []) ++ body)

/-- `float(number)`; `none` stands for an infinite result. -/
def ofDecimal (d : Decimal) : Option Binary64 :=
  if d.coefficient = 0 then ofText (layout d.negative ['0'] 0)
  else match nearestDecimal d.coefficient d.exponent with
    | none => none
    | some (0, _) => ofText (layout d.negative ['0'] 0)
    | some (m, e) =>
      let (n, exponent) := shortest m e (d.adjusted + 1) 1 17
      let ds := Nat.toDigits 10 n
      let kept := (ds.reverse.dropWhile (· = '0')).reverse
      ofText (layout d.negative kept (exponent + (ds.length - kept.length : ℕ)))

example : (ofDecimal ⟨true, 250, -1⟩).map (·.repr.text) = some "-25.0" := by decide

end Binary64
end AppraisalReview
