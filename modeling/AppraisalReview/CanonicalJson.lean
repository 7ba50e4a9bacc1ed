import Mathlib.Tactic.Common

set_option autoImplicit false

/-!
# Canonical JSON text

The text `json.dumps` writes with `separators=(",", ":")` and ASCII escapes,
and the fact that this text determines the value. Fields are listed in the
order they are printed, so a caller that sorts keys lists them sorted.
-/
namespace AppraisalReview.CanonicalJson

def numberChar (c : Char) : Bool := c.isDigit || c = '+' || c = '-' || c = '.' || c = 'e'

structure NumberText where
  text : String
  nonempty : text.toList ≠ []
  numeric : text.toList.all numberChar = true
deriving DecidableEq

theorem digit_numberChar {c : Char} (h : c.isDigit = true) : numberChar c = true := by
  simp [numberChar, h]

def intDigits (n : Int) : List Char :=
  (if n < 0 then ['-'] else []) ++ Nat.toDigits 10 n.natAbs

theorem intDigits_numeric (n : Int) : (intDigits n).all numberChar = true := by
  rw [List.all_eq_true]
  intro c hc
  rcases List.mem_append.mp hc with hsign | hdigit
  · split at hsign
    · rw [List.mem_singleton.mp hsign]
      rfl
    · exact absurd hsign List.not_mem_nil
  · exact digit_numberChar (Nat.isDigit_of_mem_toDigits (by omega) (by omega) hdigit)

theorem intDigits_injective : Function.Injective intDigits := by
  have digits_inj : ∀ m n : ℕ, Nat.toDigits 10 m = Nat.toDigits 10 n → m = n := by
    intro m n h
    have hread := congrArg (fun cs => Nat.ofDigitChars 10 cs 0) h
    simpa only [Nat.ofDigitChars_ten_toDigits] using hread
  have no_sign : ∀ (n : ℕ) (rest : List Char), Nat.toDigits 10 n ≠ '-' :: rest := by
    intro n rest h
    have hin : '-' ∈ Nat.toDigits 10 n := by rw [h]; exact List.mem_cons_self
    exact absurd (Nat.isDigit_of_mem_toDigits (by omega) (by omega) hin) (by decide)
  intro m n h
  unfold intDigits at h
  split at h <;> split at h
  · have := digits_inj _ _ (List.cons.inj h).2
    omega
  · exact absurd h.symm (no_sign _ _)
  · exact absurd h (no_sign _ _)
  · have := digits_inj _ _ h
    omega

def intText (n : Int) : NumberText where
  text := String.ofList (intDigits n)
  nonempty := by
    rw [String.toList_ofList]
    exact List.append_ne_nil_of_right_ne_nil _ Nat.toDigits_ne_nil
  numeric := by
    rw [String.toList_ofList]
    exact intDigits_numeric n

theorem intText_injective : Function.Injective intText := by
  intro m n h
  have htext := congrArg (fun t => t.text.toList) h
  simp only [intText, String.toList_ofList] at htext
  exact intDigits_injective htext

inductive Json where
  | null
  | bool (value : Bool)
  | number (value : NumberText)
  | string (value : String)
  | array (items : List Json)
  | object (fields : List (String × Json))

def hexDigit (d : ℕ) : Char := Char.ofNat (if d < 10 then 48 + d else 87 + d)

def hexValue (c : Char) : ℕ := if c.toNat < 58 then c.toNat - 48 else c.toNat - 87

def hex4 (n : ℕ) : List Char :=
  [hexDigit (n / 4096 % 16), hexDigit (n / 256 % 16), hexDigit (n / 16 % 16), hexDigit (n % 16)]

/-- `ensure_ascii`: printable ASCII stands for itself, everything else is escaped. -/
def escape (c : Char) : List Char :=
  if c = '"' then ['\\', '"']
  else if c = '\\' then ['\\', '\\']
  else if c = '\n' then ['\\', 'n']
  else if c = '\r' then ['\\', 'r']
  else if c = '\t' then ['\\', 't']
  else if c = '\x0c' then ['\\', 'f']
  else if c = '\x08' then ['\\', 'b']
  else if 32 ≤ c.toNat ∧ c.toNat ≤ 126 then [c]
  else if c.toNat < 65536 then '\\' :: 'u' :: hex4 c.toNat
  else '\\' :: 'u' :: (hex4 (55296 + (c.toNat - 65536) / 1024) ++
    '\\' :: 'u' :: hex4 (56320 + (c.toNat - 65536) % 1024))

def quote (s : String) : List Char := '"' :: (s.toList.flatMap escape ++ ['"'])

mutual
def render : Json → List Char
  | .null => ['n', 'u', 'l', 'l']
  | .bool true => ['t', 'r', 'u', 'e']
  | .bool false => ['f', 'a', 'l', 's', 'e']
  | .number n => n.text.toList
  | .string s => quote s
  | .array [] => ['[', ']']
  | .array (x :: xs) => '[' :: (render x ++ renderItems xs)
  | .object [] => ['{', '}']
  | .object ((k, v) :: rest) => '{' :: (quote k ++ ':' :: (render v ++ renderFields rest))
def renderItems : List Json → List Char
  | [] => [']']
  | x :: xs => ',' :: (render x ++ renderItems xs)
def renderFields : List (String × Json) → List Char
  | [] => ['}']
  | (k, v) :: rest => ',' :: (quote k ++ ':' :: (render v ++ renderFields rest))
end

def dumps (value : Json) : String := String.ofList (render value)

def unescape : List Char → Option (Char × List Char)
  | '\\' :: 'u' :: a :: b :: c :: d :: rest =>
    let high := hexValue a * 4096 + hexValue b * 256 + hexValue c * 16 + hexValue d
    if 55296 ≤ high ∧ high < 56320 then
      match rest with
      | '\\' :: 'u' :: a' :: b' :: c' :: d' :: rest' =>
        let low := hexValue a' * 4096 + hexValue b' * 256 + hexValue c' * 16 + hexValue d'
        some (Char.ofNat (65536 + (high - 55296) * 1024 + (low - 56320)), rest')
      | _ => none
    else some (Char.ofNat high, rest)
  | '\\' :: 'n' :: rest => some ('\n', rest)
  | '\\' :: 'r' :: rest => some ('\r', rest)
  | '\\' :: 't' :: rest => some ('\t', rest)
  | '\\' :: 'f' :: rest => some ('\x0c', rest)
  | '\\' :: 'b' :: rest => some ('\x08', rest)
  | '\\' :: c :: rest => some (c, rest)
  | c :: rest => some (c, rest)
  | [] => none

theorem hexValue_hexDigit (d : ℕ) (h : d < 16) : hexValue (hexDigit d) = d := by
  have all : ∀ d < 16, hexValue (hexDigit d) = d := by decide
  exact all d h

theorem hex4_value (n : ℕ) (h : n < 65536) :
    hexValue (hexDigit (n / 4096 % 16)) * 4096 + hexValue (hexDigit (n / 256 % 16)) * 256 +
      hexValue (hexDigit (n / 16 % 16)) * 16 + hexValue (hexDigit (n % 16)) = n := by
  rw [hexValue_hexDigit _ (by omega), hexValue_hexDigit _ (by omega),
    hexValue_hexDigit _ (by omega), hexValue_hexDigit _ (by omega)]
  omega

theorem char_scalar (c : Char) : c.toNat < 55296 ∨ 57343 < c.toNat ∧ c.toNat < 1114112 :=
  c.valid

theorem unescape_bmp (n : ℕ) (h : n < 65536) (hs : n < 55296 ∨ 57343 < n) (rest : List Char) :
    unescape ('\\' :: 'u' :: (hex4 n ++ rest)) = some (Char.ofNat n, rest) := by
  have hv := hex4_value n h
  simp only [hex4, List.cons_append, List.nil_append, unescape]
  rw [hv, if_neg (by omega)]

theorem unescape_pair (v : ℕ) (h : v < 1048576) (rest : List Char) :
    unescape ('\\' :: 'u' :: (hex4 (55296 + v / 1024) ++
      '\\' :: 'u' :: (hex4 (56320 + v % 1024) ++ rest))) =
      some (Char.ofNat (65536 + v), rest) := by
  have hhigh := hex4_value (55296 + v / 1024) (by omega)
  have hlow := hex4_value (56320 + v % 1024) (by omega)
  simp only [hex4, List.cons_append, List.nil_append, unescape]
  have hvalue : 65536 + (55296 + v / 1024 - 55296) * 1024 + (56320 + v % 1024 - 56320) =
      65536 + v := by omega
  rw [hhigh, hlow, if_pos (by omega), hvalue]

theorem unescape_escape (c : Char) (rest : List Char) :
    unescape (escape c ++ rest) = some (c, rest) := by
  unfold escape
  split_ifs with hq hb hn hr ht hf hbs hp hbmp
  · subst hq; rfl
  · subst hb; rfl
  · subst hn; rfl
  · subst hr; rfl
  · subst ht; rfl
  · subst hf; rfl
  · subst hbs; rfl
  · simp [unescape, hb]
  · have hs := char_scalar c
    rw [List.cons_append, List.cons_append, unescape_bmp _ hbmp (by omega), Char.ofNat_toNat]
  · have hs := char_scalar c
    have hpair := unescape_pair (c.toNat - 65536) (by omega) rest
    simp only [List.cons_append, List.append_assoc] at hpair ⊢
    rw [hpair, show 65536 + (c.toNat - 65536) = c.toNat by omega, Char.ofNat_toNat]

theorem escape_inj {c d : Char} {r s : List Char} (h : escape c ++ r = escape d ++ s) :
    c = d ∧ r = s := by
  have hread := congrArg unescape h
  rw [unescape_escape, unescape_escape] at hread
  simpa using hread

theorem escape_ne_quote (c : Char) (r s : List Char) : escape c ++ r ≠ '"' :: s := by
  intro h
  have hread := congrArg unescape h
  rw [unescape_escape] at hread
  have hc : c = '"' := by
    have := congrArg (Option.map Prod.fst) hread
    simpa [unescape] using this
  subst hc
  simp [escape] at h

theorem body_inj (xs ys : List Char) (r s : List Char)
    (h : xs.flatMap escape ++ '"' :: r = ys.flatMap escape ++ '"' :: s) : xs = ys ∧ r = s := by
  induction xs generalizing ys with
  | nil =>
    cases ys with
    | nil => simpa using h
    | cons y ys =>
      simp only [List.flatMap_nil, List.nil_append, List.flatMap_cons, List.append_assoc] at h
      exact absurd h.symm (escape_ne_quote y _ _)
  | cons x xs ih =>
    cases ys with
    | nil =>
      simp only [List.flatMap_nil, List.nil_append, List.flatMap_cons, List.append_assoc] at h
      exact absurd h (escape_ne_quote x _ _)
    | cons y ys =>
      simp only [List.flatMap_cons, List.append_assoc] at h
      obtain ⟨hxy, hrest⟩ := escape_inj h
      obtain ⟨hxs, hrs⟩ := ih ys hrest
      exact ⟨by rw [hxy, hxs], hrs⟩

theorem quote_inj {s t : String} {r u : List Char} (h : quote s ++ r = quote t ++ u) :
    s = t ∧ r = u := by
  simp only [quote, List.cons_append, List.append_assoc, List.nil_append, List.cons.injEq,
    true_and] at h
  obtain ⟨htext, hrest⟩ := body_inj s.toList t.toList r u h
  exact ⟨String.toList_injective htext, hrest⟩

/-- What may follow a value: nothing, or a character no number contains. -/
def Delimited (r : List Char) : Prop := ∀ c rest, r = c :: rest → numberChar c = false

theorem delimited_nil : Delimited [] := fun _ _ h => by cases h

theorem delimited_cons {c : Char} (h : numberChar c = false) (rest : List Char) :
    Delimited (c :: rest) := fun _ _ e => by cases e; exact h

theorem number_inj {xs ys r s : List Char} (hx : xs.all numberChar = true)
    (hy : ys.all numberChar = true) (hr : Delimited r) (hs : Delimited s)
    (h : xs ++ r = ys ++ s) : xs = ys ∧ r = s := by
  induction xs generalizing ys with
  | nil =>
    cases ys with
    | nil => exact ⟨rfl, h⟩
    | cons y ys =>
      have hy' : numberChar y = true := by simp at hy; exact hy.1
      have := hr y (ys ++ s) h
      rw [hy'] at this
      cases this
  | cons x xs ih =>
    simp only [List.all_cons, Bool.and_eq_true] at hx
    cases ys with
    | nil =>
      have := hs x (xs ++ r) h.symm
      rw [hx.1] at this
      cases this
    | cons y ys =>
      simp only [List.all_cons, Bool.and_eq_true] at hy
      simp only [List.cons_append, List.cons.injEq] at h
      obtain ⟨htail, hrest⟩ := ih hx.2 hy.2 h.2
      exact ⟨by rw [h.1, htail], hrest⟩

def kind : Json → ℕ
  | .null => 0
  | .bool _ => 1
  | .number _ => 3
  | .string _ => 4
  | .array _ => 5
  | .object _ => 6

def headKind (c : Char) : ℕ :=
  if c = 'n' then 0 else if c = 't' ∨ c = 'f' then 1 else if c = '"' then 4
  else if c = '[' then 5 else if c = '{' then 6 else if c = ']' then 7 else 3

theorem headKind_number (c : Char) (h : numberChar c = true) : headKind c = 3 := by
  unfold headKind
  split_ifs with hn ht hq ha ho hc
  · subst hn; cases h
  · rcases ht with rfl | rfl <;> cases h
  · subst hq; cases h
  · subst ha; cases h
  · subst ho; cases h
  · subst hc; cases h
  · rfl

theorem render_head (value : Json) (r : List Char) :
    ∃ c rest, render value ++ r = c :: rest ∧ headKind c = kind value := by
  cases value with
  | null => exact ⟨_, _, rfl, rfl⟩
  | bool b => cases b <;> exact ⟨_, _, rfl, rfl⟩
  | number n =>
    cases hn : n.text.toList with
    | nil => exact absurd hn n.nonempty
    | cons c rest =>
      refine ⟨c, rest ++ r, by simp [render, hn], headKind_number c ?_⟩
      have := n.numeric
      rw [hn, List.all_cons, Bool.and_eq_true] at this
      exact this.1
  | string s => exact ⟨_, _, rfl, rfl⟩
  | array items => cases items <;> exact ⟨_, _, rfl, rfl⟩
  | object fields => cases fields <;> exact ⟨_, _, rfl, rfl⟩

theorem kind_eq {a b : Json} {r s : List Char} (h : render a ++ r = render b ++ s) :
    kind a = kind b := by
  obtain ⟨c, rest, hc, hkc⟩ := render_head a r
  obtain ⟨d, rest', hd, hkd⟩ := render_head b s
  rw [hc, hd, List.cons.injEq] at h
  rw [← hkc, ← hkd, h.1]

theorem items_delimited (items : List Json) (r : List Char) :
    Delimited (renderItems items ++ r) := by
  cases items <;> exact delimited_cons (by decide) _

theorem fields_delimited (fields : List (String × Json)) (r : List Char) :
    Delimited (renderFields fields ++ r) := by
  cases fields <;> exact delimited_cons (by decide) _

mutual
theorem render_inj : ∀ (a b : Json) (r s : List Char), Delimited r → Delimited s →
    render a ++ r = render b ++ s → a = b ∧ r = s
  | .null, b, r, s, _, _, h => by
    cases b with
    | null => exact ⟨rfl, by simpa [render] using h⟩
    | _ => cases kind_eq h
  | .bool x, b, r, s, _, _, h => by
    cases b with
    | bool y =>
      cases x <;> cases y <;> simp_all [render]
    | _ => cases kind_eq h
  | .number x, b, r, s, hr, hs, h => by
    cases b with
    | number y =>
      obtain ⟨htext, hrest⟩ := number_inj x.numeric y.numeric hr hs h
      obtain ⟨xt, _, _⟩ := x
      obtain ⟨yt, _, _⟩ := y
      obtain rfl := String.toList_injective htext
      exact ⟨rfl, hrest⟩
    | _ => cases kind_eq h
  | .string x, b, r, s, _, _, h => by
    cases b with
    | string y =>
      obtain ⟨rfl, hrest⟩ := quote_inj h
      exact ⟨rfl, hrest⟩
    | _ => cases kind_eq h
  | .array [], b, r, s, _, _, h => by
    cases b with
    | array ys =>
      cases ys with
      | nil => exact ⟨rfl, by simpa [render] using h⟩
      | cons y ys =>
        simp only [render, List.cons_append, List.nil_append, List.cons.injEq, true_and,
          List.append_assoc] at h
        obtain ⟨c, rest, hc, hk⟩ := render_head y (renderItems ys ++ s)
        rw [hc, List.cons.injEq] at h
        rw [← h.1] at hk
        cases y <;> cases hk
    | _ => cases kind_eq h
  | .array (x :: xs), b, r, s, hr, hs, h => by
    cases b with
    | array ys =>
      cases ys with
      | nil =>
        simp only [render, List.cons_append, List.nil_append, List.cons.injEq, true_and,
          List.append_assoc] at h
        obtain ⟨c, rest, hc, hk⟩ := render_head x (renderItems xs ++ r)
        rw [hc, List.cons.injEq] at h
        rw [h.1] at hk
        cases x <;> cases hk
      | cons y ys =>
        simp only [render, List.cons_append, List.cons.injEq, true_and, List.append_assoc] at h
        obtain ⟨rfl, htail⟩ := render_inj x y _ _ (items_delimited xs r) (items_delimited ys s) h
        obtain ⟨rfl, hrest⟩ := renderItems_inj xs ys r s hr hs htail
        exact ⟨rfl, hrest⟩
    | _ => cases kind_eq h
  | .object [], b, r, s, _, _, h => by
    cases b with
    | object ys =>
      cases ys with
      | nil => exact ⟨rfl, by simpa [render] using h⟩
      | cons y ys =>
        obtain ⟨k, v⟩ := y
        simp [render, quote] at h
    | _ => cases kind_eq h
  | .object ((k, v) :: rest), b, r, s, hr, hs, h => by
    cases b with
    | object ys =>
      cases ys with
      | nil => simp [render, quote] at h
      | cons y ys =>
        obtain ⟨k', v'⟩ := y
        simp only [render, List.cons_append, List.cons.injEq, true_and, List.append_assoc] at h
        obtain ⟨rfl, hvalue⟩ := quote_inj h
        rw [List.cons.injEq] at hvalue
        obtain ⟨rfl, htail⟩ := render_inj v v' _ _ (fields_delimited rest r)
          (fields_delimited ys s) hvalue.2
        obtain ⟨rfl, hrest⟩ := renderFields_inj rest ys r s hr hs htail
        exact ⟨rfl, hrest⟩
    | _ => cases kind_eq h
theorem renderItems_inj : ∀ (xs ys : List Json) (r s : List Char), Delimited r → Delimited s →
    renderItems xs ++ r = renderItems ys ++ s → xs = ys ∧ r = s
  | [], ys, r, s, _, _, h => by
    cases ys with
    | nil => exact ⟨rfl, by simpa [renderItems] using h⟩
    | cons y ys => simp [renderItems] at h
  | x :: xs, ys, r, s, hr, hs, h => by
    cases ys with
    | nil => simp [renderItems] at h
    | cons y ys =>
      simp only [renderItems, List.cons_append, List.cons.injEq, true_and, List.append_assoc] at h
      obtain ⟨rfl, htail⟩ := render_inj x y _ _ (items_delimited xs r) (items_delimited ys s) h
      obtain ⟨rfl, hrest⟩ := renderItems_inj xs ys r s hr hs htail
      exact ⟨rfl, hrest⟩
theorem renderFields_inj : ∀ (xs ys : List (String × Json)) (r s : List Char), Delimited r →
    Delimited s → renderFields xs ++ r = renderFields ys ++ s → xs = ys ∧ r = s
  | [], ys, r, s, _, _, h => by
    cases ys with
    | nil => exact ⟨rfl, by simpa [renderFields] using h⟩
    | cons y ys => simp [renderFields] at h
  | (k, v) :: rest, ys, r, s, hr, hs, h => by
    cases ys with
    | nil => simp [renderFields] at h
    | cons y ys =>
      obtain ⟨k', v'⟩ := y
      simp only [renderFields, List.cons_append, List.cons.injEq, true_and,
        List.append_assoc] at h
      obtain ⟨rfl, hvalue⟩ := quote_inj h
      rw [List.cons.injEq] at hvalue
      obtain ⟨rfl, htail⟩ := render_inj v v' _ _ (fields_delimited rest r)
        (fields_delimited ys s) hvalue.2
      obtain ⟨rfl, hrest⟩ := renderFields_inj rest ys r s hr hs htail
      exact ⟨rfl, hrest⟩
end

theorem dumps_injective : Function.Injective dumps := by
  intro a b h
  have htext : render a ++ [] = render b ++ [] := by
    simpa [dumps] using congrArg String.toList h
  exact (render_inj a b [] [] delimited_nil delimited_nil htext).1

end AppraisalReview.CanonicalJson
