import CyberstalkMe.Foundations.Json
import Mathlib.Algebra.Order.Field.Rat
import Mathlib.Data.Nat.Notation
import Mathlib.Tactic.SplitIfs

/-! # JSON texts

The text of a JSON value, and the value of a JSON text. A writer may choose characters that
it writes as escapes although it need not; a reader does not see the difference.
-/
namespace CyberstalkMe.Foundations

namespace Json

mutual

/-- Replace every text, the names of members among them, and every number. -/
def mapText {ν μ : Type} (f : String → String) (g : ν → μ) : Json ν → Json μ
  | .null => .null
  | .bool b => .bool b
  | .number n => .number (g n)
  | .string s => .string (f s)
  | .array elems => .array (mapTextElems f g elems)
  | .object members => .object (mapTextMembers f g members)

def mapTextElems {ν μ : Type} (f : String → String) (g : ν → μ) : List (Json ν) → List (Json μ)
  | [] => []
  | value :: rest => mapText f g value :: mapTextElems f g rest

def mapTextMembers {ν μ : Type} (f : String → String) (g : ν → μ) : List (String × Json ν) → List (String × Json μ)
  | [] => []
  | (key, value) :: rest => (f key, mapText f g value) :: mapTextMembers f g rest

end

end Json

namespace JsonText

open Json

/-! ### Numbers -/

/-- A number as it is written. -/
structure Numeral where
  negative : Bool
  whole : List Char
  fraction : List Char
  exponent : Option ℤ
deriving DecidableEq, Repr

namespace Numeral

def ofInt (n : ℤ) : Numeral := ⟨n < 0, Nat.toDigits 10 n.natAbs, [], none⟩

def int (m : Numeral) : Option ℤ :=
  if m.fraction = [] ∧ m.exponent = none then
    let n : ℕ := Nat.ofDigitChars 10 m.whole 0
    some (if m.negative then -n else n)
  else none

/-- The number that is written. -/
def value (m : Numeral) : ℚ :=
  let n : ℚ := Nat.ofDigitChars 10 (m.whole ++ m.fraction) 0
  (if m.negative then -n else n) * 10 ^ (m.exponent.getD 0 - m.fraction.length)

end Numeral

def writeInt (n : ℤ) : List Char := (if n < 0 then ['-'] else []) ++ Nat.toDigits 10 n.natAbs

def readDigits (cs : List Char) : Option (List Char × List Char) :=
  let digits := cs.takeWhile Char.isDigit
  if digits = [] then none else some (digits, cs.dropWhile Char.isDigit)

def readFraction : List Char → Option (List Char × List Char)
  | '.' :: cs => readDigits cs
  | cs => some ([], cs)

def readExponent : List Char → Option (Option ℤ × List Char)
  | [] => some (none, [])
  | c :: cs =>
    if c = 'e' ∨ c = 'E' then
      let digits := if cs.head? = some '+' ∨ cs.head? = some '-' then cs.tail else cs
      (readDigits digits).map fun r =>
        let n : ℕ := Nat.ofDigitChars 10 r.1 0
        (some (if cs.head? = some '-' then -n else n), r.2)
    else some (none, c :: cs)

/-- A number at the front. The whole part has no leading zero. -/
def readNumeral (cs : List Char) : Option (Numeral × List Char) := do
  let negative := cs.head? = some '-'
  let (whole, cs) ← readDigits (if negative then cs.tail else cs)
  if whole.head? = some '0' ∧ whole.length ≠ 1 then none
  else
    let (fraction, cs) ← readFraction cs
    let (exponent, cs) ← readExponent cs
    some (⟨negative, whole, fraction, exponent⟩, cs)

/-! ### Strings -/

/-- The characters with an escape of one letter. -/
def shortEscapes : List (Char × Char) :=
  [('"', '"'), ('\\', '\\'), ('\x08', 'b'), ('\x0c', 'f'), ('\n', 'n'), ('\r', 'r'), ('\t', 't')]

/-- Four hexadecimal digits. -/
def hex4 (n : ℕ) : List Char := [n / 4096 % 16, n / 256 % 16, n / 16 % 16, n % 16].map Nat.digitChar

/-- A character inside a string. Those that `also` holds of are escaped like the control characters. -/
def writeChar (also : Char → Bool) (c : Char) : List Char :=
  match shortEscapes.find? (·.1 = c) with
  | some (_, e) => ['\\', e]
  | none => if c.toNat < 0x20 || also c then '\\' :: 'u' :: hex4 c.toNat else [c]

def writeChars (also : Char → Bool) (s : String) : List Char := s.toList.flatMap (writeChar also)

def writeString (also : Char → Bool) (s : String) : List Char := '"' :: (writeChars also s ++ ['"'])

/-- What stands before the closing quote, and what follows it. -/
def cutString : List Char → Option (List Char × List Char)
  | [] => none
  | c :: cs =>
    if c = '"' then some ([], cs)
    else if c = '\\' then
      match cs with
      | [] => none
      | e :: cs => (cutString cs).map fun r => (c :: e :: r.1, r.2)
    else (cutString cs).map fun r => (c :: r.1, r.2)

/-- A character, or the code unit of UTF-16 that an escape stands for. -/
inductive Token where
  | char (c : Char)
  | unit (n : ℕ)
deriving DecidableEq, Repr

def hexValue (c : Char) : Option ℕ :=
  if c.isDigit then some (c.toNat - '0'.toNat)
  else if 'a' ≤ c ∧ c ≤ 'f' then some (c.toNat - 'a'.toNat + 10)
  else if 'A' ≤ c ∧ c ≤ 'F' then some (c.toNat - 'A'.toNat + 10)
  else none

/-- The escape of one letter. A slash may be escaped too. -/
def shortEscape (e : Char) : Option Char :=
  if e = '/' then some '/' else (shortEscapes.find? (·.2 = e)).map Prod.fst

/-- The characters and escapes of the body of a string. -/
def tokens : List Char → Option (List Token)
  | [] => some []
  | c :: cs =>
    if c = '\\' then
      match cs with
      | [] => none
      | e :: cs =>
        if e = 'u' then
          match cs with
          | h₃ :: h₂ :: h₁ :: h₀ :: cs => do
            let n₃ ← hexValue h₃
            let n₂ ← hexValue h₂
            let n₁ ← hexValue h₁
            let n₀ ← hexValue h₀
            (tokens cs).map (.unit (((n₃ * 16 + n₂) * 16 + n₁) * 16 + n₀) :: ·)
          | _ => none
        else (shortEscape e).bind fun c => (tokens cs).map (.char c :: ·)
    else if c = '"' ∨ c.toNat < 0x20 then none
    else (tokens cs).map (.char c :: ·)

def isHigh (n : ℕ) : Bool := 0xd800 ≤ n && n < 0xdc00

def isLow (n : ℕ) : Bool := 0xdc00 ≤ n && n < 0xe000

/-- The character of a code unit; a lone surrogate is replaced. -/
def unitChar (n : ℕ) : Char := if isHigh n || isLow n then '\ufffd' else Char.ofNat n

/-- The text of a sequence, two surrogates making one character. -/
def joinTokens : List Token → List Char
  | [] => []
  | .char c :: ts => c :: joinTokens ts
  | .unit n :: .unit m :: ts =>
    if isHigh n && isLow m then Char.ofNat (0x10000 + (n - 0xd800) * 0x400 + (m - 0xdc00)) :: joinTokens ts
    else unitChar n :: joinTokens (.unit m :: ts)
  | .unit n :: ts => unitChar n :: joinTokens ts

def unquote (body : List Char) : Option String := (tokens body).map fun ts => String.ofList (joinTokens ts)

def rawBody (body : List Char) : Option String := (tokens body).map fun _ => String.ofList body

/-! ### Values -/

mutual

/-- The text of a value, without any space. -/
def write (also : Char → Bool) : Json ℤ → List Char
  | .null => ['n', 'u', 'l', 'l']
  | .bool true => ['t', 'r', 'u', 'e']
  | .bool false => ['f', 'a', 'l', 's', 'e']
  | .number n => writeInt n
  | .string s => writeString also s
  | .array [] => ['[', ']']
  | .array (value :: rest) => '[' :: (write also value ++ writeElems also rest)
  | .object [] => ['\x7b', '\x7d']
  | .object ((key, value) :: rest) =>
    '\x7b' :: (writeString also key ++ ':' :: (write also value ++ writeMembers also rest))

def writeElems (also : Char → Bool) : List (Json ℤ) → List Char
  | [] => [']']
  | value :: rest => ',' :: (write also value ++ writeElems also rest)

def writeMembers (also : Char → Bool) : List (String × Json ℤ) → List Char
  | [] => ['\x7d']
  | (key, value) :: rest =>
    ',' :: (writeString also key ++ ':' :: (write also value ++ writeMembers also rest))

end

def isSpace (c : Char) : Bool := c = ' ' || c = '\t' || c = '\n' || c = '\r'

def skipSpace (cs : List Char) : List Char := cs.dropWhile isSpace

def readWord (word cs : List Char) : Option (List Char) := if word.isPrefixOf cs then some (cs.drop word.length) else none

section Read

-- what is kept of the body of a string
variable (str : List Char → Option String)

def readString (cs : List Char) : Option (String × List Char) :=
  (cutString cs).bind fun r => (str r.1).map fun s => (s, r.2)

/-- The name of a member and the colon behind it. -/
def readKey (cs : List Char) : Option (String × List Char) :=
  match skipSpace cs with
  | '"' :: cs => (readString str cs).bind fun r =>
    match skipSpace r.2 with
    | ':' :: cs => some (r.1, cs)
    | _ => none
  | _ => none

mutual

def readValue : ℕ → List Char → Option (Json Numeral × List Char)
  | 0, _ => none
  | n + 1, cs =>
    match skipSpace cs with
    | [] => none
    | c :: cs =>
      if c = '"' then (readString str cs).map fun r => (.string r.1, r.2)
      else if c = '[' then
        match skipSpace cs with
        | ']' :: cs => some (.array [], cs)
        | cs => (readValue n cs).bind fun r => (readElems n r.2).map fun r' => (.array (r.1 :: r'.1), r'.2)
      else if c = '\x7b' then
        match skipSpace cs with
        | '\x7d' :: cs => some (.object [], cs)
        | cs => (readKey str cs).bind fun k => (readValue n k.2).bind fun r =>
          (readMembers n r.2).map fun r' => (.object ((k.1, r.1) :: r'.1), r'.2)
      else if c = 'n' then (readWord ['u', 'l', 'l'] cs).map fun cs => (.null, cs)
      else if c = 't' then (readWord ['r', 'u', 'e'] cs).map fun cs => (.bool true, cs)
      else if c = 'f' then (readWord ['a', 'l', 's', 'e'] cs).map fun cs => (.bool false, cs)
      else (readNumeral (c :: cs)).map fun r => (.number r.1, r.2)

def readElems : ℕ → List Char → Option (List (Json Numeral) × List Char)
  | 0, _ => none
  | n + 1, cs =>
    match skipSpace cs with
    | ']' :: cs => some ([], cs)
    | ',' :: cs => (readValue n cs).bind fun r => (readElems n r.2).map fun r' => (r.1 :: r'.1, r'.2)
    | _ => none

def readMembers : ℕ → List Char → Option (List (String × Json Numeral) × List Char)
  | 0, _ => none
  | n + 1, cs =>
    match skipSpace cs with
    | '\x7d' :: cs => some ([], cs)
    | ',' :: cs => (readKey str cs).bind fun k => (readValue n k.2).bind fun r =>
      (readMembers n r.2).map fun r' => ((k.1, r.1) :: r'.1, r'.2)
    | _ => none

end

/-- The value at the front of a text, and what follows it. -/
def readFirst (text : List Char) : Option (Json Numeral × List Char) := readValue str (text.length + 1) text

/-- The value of a text. -/
def read (text : List Char) : Option (Json Numeral) :=
  (readFirst str text).bind fun r => if skipSpace r.2 = [] then some r.1 else none

end Read

/-! ### Numbers are read back -/

/-- No number can be continued by what comes next. -/
def Ends (cs : List Char) : Prop := ∀ c ∈ cs.head?, ¬ c.isDigit ∧ c ∉ ['.', 'e', 'E']

theorem readDigits_append {digits rest : List Char} (hne : digits ≠ []) (hdigits : ∀ c ∈ digits, c.isDigit)
    (hrest : ∀ c ∈ rest.head?, ¬ c.isDigit) : readDigits (digits ++ rest) = some (digits, rest) := by
  have hstop : rest.takeWhile Char.isDigit = [] ∧ rest.dropWhile Char.isDigit = rest := by
    cases rest with
    | nil => exact ⟨rfl, rfl⟩
    | cons c rest =>
      have hc : ¬ c.isDigit := hrest c rfl
      simp [hc]
  rw [readDigits, List.takeWhile_append_of_pos hdigits, List.dropWhile_append_of_pos hdigits, hstop.1, hstop.2,
    List.append_nil]
  exact if_neg hne

/-- Only zero is written with a zero in front. -/
theorem head?_toDigits (n : ℕ) (h : (Nat.toDigits 10 n).head? = some '0') : (Nat.toDigits 10 n).length = 1 := by
  induction n using Nat.strong_induction_on with
  | _ n ih =>
    by_cases hlt : n < 10
    · rw [Nat.toDigits_of_lt_base hlt]
      rfl
    · rw [Nat.toDigits_of_base_le (by decide) (Nat.le_of_not_lt hlt),
        List.head?_append_of_ne_nil _ Nat.toDigits_ne_nil] at h
      have hone := ih (n / 10) (by omega) h
      have hsmall : n / 10 < 10 := by
        have := (Nat.length_toDigits_le_iff (b := 10) (n := n / 10) (k := 1) (by decide) (by decide)).mp hone.le
        omega
      have hdigit : ∀ d < 10, 0 < d → Nat.digitChar d ≠ '0' := by decide
      rw [Nat.toDigits_of_lt_base hsmall, List.head?_cons, Option.some.injEq] at h
      exact absurd h (hdigit _ hsmall (by omega))

theorem readNumeral_writeInt (n : ℤ) {rest : List Char} (h : Ends rest) :
    readNumeral (writeInt n ++ rest) = some (Numeral.ofInt n, rest) := by
  have hall : ∀ c ∈ Nat.toDigits 10 n.natAbs, c.isDigit := fun c hc =>
    Nat.isDigit_of_mem_toDigits (by decide) (by decide) hc
  have hdigits := readDigits_append Nat.toDigits_ne_nil hall fun c hc => (h c hc).1
  have hzero : ¬ ((Nat.toDigits 10 n.natAbs).head? = some '0' ∧ (Nat.toDigits 10 n.natAbs).length ≠ 1) := by
    rintro ⟨hhead, hlength⟩
    exact hlength (head?_toDigits _ hhead)
  have hminus : (Nat.toDigits 10 n.natAbs).head? ≠ some '-' := by
    intro hhead
    have := hall '-' (List.mem_of_head? hhead)
    revert this
    decide
  have hfraction : readFraction rest = some ([], rest) := by
    cases rest with
    | nil => rfl
    | cons c rest =>
      have hc : c ≠ '.' := fun hc => (h c rfl).2 (by simp [hc])
      rw [readFraction]
      rintro cs ⟨⟩
      exact hc rfl
  have hexponent : readExponent rest = some (none, rest) := by
    cases rest with
    | nil => rfl
    | cons c rest =>
      have hc : ¬ (c = 'e' ∨ c = 'E') := fun hc => (h c rfl).2 (by rcases hc with rfl | rfl <;> decide)
      rw [readExponent, if_neg hc]
  by_cases hneg : n < 0
  · simp [writeInt, readNumeral, hneg, hdigits, hzero, hfraction, hexponent, Numeral.ofInt]
  · simp [writeInt, readNumeral, hneg, hdigits, hzero, hfraction, hexponent, Numeral.ofInt, hminus]

@[simp] theorem Numeral.int_ofInt (n : ℤ) : (Numeral.ofInt n).int = some n := by
  simp only [Numeral.int, Numeral.ofInt, and_self, if_true, Nat.ofDigitChars_ten_toDigits, Option.some.injEq,
    decide_eq_true_eq]
  split_ifs <;> omega

@[simp] theorem Numeral.value_ofInt (n : ℤ) : (Numeral.ofInt n).value = n := by
  simp only [Numeral.value, Numeral.ofInt, List.append_nil, Nat.ofDigitChars_ten_toDigits, Option.getD_none,
    List.length_nil, Nat.cast_zero, sub_zero, zpow_zero, mul_one, decide_eq_true_eq]
  split_ifs with hneg
  · rw [← Int.cast_natCast, ← Int.cast_neg]
    congr 1
    omega
  · rw [← Int.cast_natCast]
    congr 1
    omega

/-! ### Strings are read back -/

/-- The ways in which a character can be written. -/
theorem writeChar_cases (also : Char → Bool) (c : Char) :
    (∃ e, (c, e) ∈ shortEscapes ∧ writeChar also c = ['\\', e]) ∨
      ((c.toNat < 0x20 ∨ also c) ∧ writeChar also c = '\\' :: 'u' :: hex4 c.toNat) ∨
      ((c ≠ '"' ∧ c ≠ '\\' ∧ 0x20 ≤ c.toNat) ∧ writeChar also c = [c]) := by
  rw [writeChar]
  cases hfind : shortEscapes.find? (·.1 = c) with
  | some p =>
    obtain ⟨d, e⟩ := p
    have hd : d = c := by simpa using List.find?_some hfind
    exact .inl ⟨e, hd ▸ List.mem_of_find?_eq_some hfind, rfl⟩
  | none =>
    right
    by_cases hcode : c.toNat < 0x20 ∨ also c
    · exact .inl ⟨hcode, if_pos (by simpa using hcode)⟩
    · have hnot : ∀ p ∈ shortEscapes, p.1 ≠ c := by simpa using List.find?_eq_none.mp hfind
      have hlow : 0x20 ≤ c.toNat := Nat.le_of_not_lt fun h => hcode (.inl h)
      exact .inr ⟨⟨(hnot ('"', '"') (by decide)).symm, (hnot ('\\', '\\') (by decide)).symm, hlow⟩,
        if_neg (by simpa using hcode)⟩

theorem cutString_quote (cs : List Char) : cutString ('"' :: cs) = some ([], cs) := by
  cases cs <;> rfl

theorem cutString_escape (e : Char) (cs : List Char) :
    cutString ('\\' :: e :: cs) = (cutString cs).map fun r => ('\\' :: e :: r.1, r.2) := rfl

theorem cutString_char {c : Char} (hquote : c ≠ '"') (hslash : c ≠ '\\') (cs : List Char) :
    cutString (c :: cs) = (cutString cs).map fun r => (c :: r.1, r.2) := by
  cases cs <;> simp [cutString, hquote, hslash]

theorem cutString_writeChar (also : Char → Bool) (c : Char) (cs : List Char) :
    cutString (writeChar also c ++ cs) = (cutString cs).map fun r => (writeChar also c ++ r.1, r.2) := by
  have hhex : ∀ d < 16, Nat.digitChar d ≠ '"' ∧ Nat.digitChar d ≠ '\\' := by decide
  rcases writeChar_cases also c with ⟨e, -, h⟩ | ⟨-, h⟩ | ⟨⟨hquote, hslash, -⟩, h⟩
  · simp [h, cutString_escape]
  · simp [h, hex4, cutString_escape, cutString_char, hhex _ (Nat.mod_lt _ (by decide : 16 > 0)), Function.comp_def]
  · simp [h, cutString_char hquote hslash]

/-- A string ends at the first quote that is not escaped. -/
theorem cutString_writeChars (also : Char → Bool) (s : String) (rest : List Char) :
    cutString (writeChars also s ++ '"' :: rest) = some (writeChars also s, rest) := by
  rw [writeChars]
  induction s.toList with
  | nil => exact cutString_quote rest
  | cons c cs ih => simp [List.flatMap_cons, List.append_assoc, cutString_writeChar, ih]

/-- How a character that was written is read. -/
def tokenOf (also : Char → Bool) (c : Char) : Token :=
  if (shortEscapes.find? (·.1 = c)).isNone ∧ (c.toNat < 0x20 ∨ also c) then .unit c.toNat else .char c

theorem hexValue_digitChar : ∀ d < 16, hexValue (Nat.digitChar d) = some d := by decide

theorem tokens_escape {e c : Char} (hu : e ≠ 'u') (h : shortEscape e = some c) (cs : List Char) :
    tokens ('\\' :: e :: cs) = (tokens cs).map (.char c :: ·) := by
  rcases cs with _ | ⟨a, _ | ⟨b, _ | ⟨c, _ | ⟨d, cs⟩⟩⟩⟩ <;> simp [tokens, hu, h]

theorem tokens_char {c : Char} (hquote : c ≠ '"') (hslash : c ≠ '\\') (hlow : 0x20 ≤ c.toNat) (cs : List Char) :
    tokens (c :: cs) = (tokens cs).map (.char c :: ·) := by
  rcases cs with _ | ⟨a, _ | ⟨b, _ | ⟨c, _ | ⟨d, _ | ⟨e, cs⟩⟩⟩⟩⟩ <;> simp [tokens, hquote, hslash, hlow]

section Lawful
variable {also : Char → Bool} (halso : ∀ c, also c → c.toNat < 0x10000)
include halso

theorem tokens_writeChar (c : Char) (cs : List Char) :
    tokens (writeChar also c ++ cs) = (tokens cs).map (tokenOf also c :: ·) := by
  have hdigit (n : ℕ) : hexValue (Nat.digitChar (n % 16)) = some (n % 16) :=
    hexValue_digitChar _ (Nat.mod_lt _ (by decide))
  rw [writeChar, tokenOf]
  cases hfind : shortEscapes.find? (·.1 = c) with
  | some p =>
    obtain ⟨d, e⟩ := p
    have hd : d = c := by simpa using List.find?_some hfind
    have hback : ∀ p ∈ shortEscapes, p.2 ≠ 'u' ∧ shortEscape p.2 = some p.1 := by decide
    obtain ⟨hu, hshort⟩ := hback _ (List.mem_of_find?_eq_some hfind)
    simp only at hu hshort
    simp [tokens_escape hu hshort, hd]
  | none =>
    have hnot : ∀ p ∈ shortEscapes, p.1 ≠ c := by simpa using List.find?_eq_none.mp hfind
    have hquote : c ≠ '"' := (hnot ('"', '"') (by decide)).symm
    have hslash : c ≠ '\\' := (hnot ('\\', '\\') (by decide)).symm
    by_cases hcode : c.toNat < 0x20 ∨ also c
    · have hlow : c.toNat < 0x10000 := by
        rcases hcode with h | h
        · omega
        · exact halso c h
      have hunit : ((c.toNat / 4096 % 16 * 16 + c.toNat / 256 % 16) * 16 + c.toNat / 16 % 16) * 16 +
          c.toNat % 16 = c.toNat := by omega
      simp [hcode, hex4, tokens, hdigit, hunit]
    · have hlow : 0x20 ≤ c.toNat := Nat.le_of_not_lt (not_or.mp hcode).1
      simp [hcode, tokens_char hquote hslash hlow]

theorem tokens_writeChars (s : String) : tokens (writeChars also s) = some (s.toList.map (tokenOf also)) := by
  rw [writeChars]
  induction s.toList with
  | nil => rfl
  | cons c cs ih => rw [List.flatMap_cons, tokens_writeChar halso, ih, Option.map_some, List.map_cons]

omit halso in
theorem unitChar_toNat (c : Char) : unitChar c.toNat = c := by
  have hvalid : c.toNat < 0xd800 ∨ 0xdfff < c.toNat ∧ c.toNat < 0x110000 := c.valid
  have hhigh : isHigh c.toNat = false := by
    simp only [isHigh, Bool.and_eq_false_iff, decide_eq_false_iff_not]
    omega
  have hlow : isLow c.toNat = false := by
    simp only [isLow, Bool.and_eq_false_iff, decide_eq_false_iff_not]
    omega
  simp [unitChar, hhigh, hlow]

omit halso in
/-- No character is a surrogate. -/
theorem joinTokens_tokenOf (cs : List Char) : joinTokens (cs.map (tokenOf also)) = cs := by
  induction cs with
  | nil => rfl
  | cons c cs ih =>
    have hvalid : c.toNat < 0xd800 ∨ 0xdfff < c.toNat ∧ c.toNat < 0x110000 := c.valid
    have hhigh : isHigh c.toNat = false := by
      simp only [isHigh, Bool.and_eq_false_iff, decide_eq_false_iff_not]
      omega
    rw [List.map_cons]
    by_cases hunit : (shortEscapes.find? (·.1 = c)).isNone ∧ (c.toNat < 0x20 ∨ also c)
    · rw [tokenOf, if_pos hunit]
      cases cs with
      | nil => simp [joinTokens, unitChar_toNat]
      | cons d ds =>
        rw [List.map_cons] at ih ⊢
        cases htoken : tokenOf also d with
        | char e =>
          rw [htoken] at ih
          simpa [joinTokens, unitChar_toNat] using ih
        | unit n =>
          rw [htoken] at ih
          simp [joinTokens, unitChar_toNat, hhigh, ih]
    · rw [tokenOf, if_neg hunit, joinTokens, ih]

/-- A text is read back from its string. -/
theorem unquote_writeChars (s : String) : unquote (writeChars also s) = some s := by
  rw [unquote, tokens_writeChars halso, Option.map_some, joinTokens_tokenOf, String.ofList_toList]

theorem rawBody_writeChars (s : String) :
    rawBody (writeChars also s) = some (String.ofList (writeChars also s)) := by
  rw [rawBody, tokens_writeChars halso, Option.map_some]

end Lawful

end JsonText

end CyberstalkMe.Foundations
