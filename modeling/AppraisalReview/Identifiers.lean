import Mathlib.Tactic.Common

set_option autoImplicit false

/-!
# Identifiers shared by the service contracts
-/
namespace AppraisalReview

/-- Only identity matters: no field of a UUID is ever read. -/
structure UUID where
  value : ℕ
deriving DecidableEq, Repr

def asciiAlphanumeric (c : Char) : Bool :=
  ('A' ≤ c && c ≤ 'Z') || ('a' ≤ c && c ≤ 'z') || ('0' ≤ c && c ≤ '9')

/-- `^[A-Za-z0-9][A-Za-z0-9._-]{0,127}$` -/
def opaqueText (text : String) : Bool :=
  match text.toList with
  | [] => false
  | first :: rest => asciiAlphanumeric first && rest.length ≤ 127 &&
      rest.all fun c => asciiAlphanumeric c || c = '.' || c = '_' || c = '-'

structure OpaqueID where
  text : String
  wellFormed : opaqueText text = true
deriving DecidableEq

theorem sampleCase_text : opaqueText "case-1" = true := by decide

theorem numbered_from_one : 1 ≤ 1 := Nat.le_refl 1

/-- `^[a-f0-9]{64}$` -/
def digestText (text : String) : Bool :=
  text.toList.length = 64 &&
    text.toList.all fun c => ('a' ≤ c && c ≤ 'f') || ('0' ≤ c && c ≤ '9')

structure Digest where
  text : String
  wellFormed : digestText text = true
deriving DecidableEq

end AppraisalReview
