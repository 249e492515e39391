import CyberstalkMe.Foundations.Trim
import Mathlib.Data.List.Basic
import Mathlib.Data.Nat.Notation

/-! # String functions

The parts of Go's `strings` and `strconv` packages that are used, on lists of runes.
-/
namespace CyberstalkMe.Go

/-- `unicode.IsSpace`. -/
def isSpace (c : Char) : Bool :=
  c.toNat ∈ [0x09, 0x0a, 0x0b, 0x0c, 0x0d, 0x20, 0x85, 0xa0, 0x1680, 0x2028, 0x2029, 0x202f, 0x205f,
    0x3000] || (0x2000 ≤ c.toNat && c.toNat ≤ 0x200a)

def trimRunes (cs : List Char) : List Char :=
  (((cs.dropWhile isSpace).reverse).dropWhile isSpace).reverse

/-- `strings.TrimSpace`. -/
def trimSpace (s : String) : String := String.ofList (trimRunes s.toList)

/-- `strings.ToLower` for a rune mapping. -/
def toLower (lower : Char → Char) (s : String) : String := String.ofList (s.toList.map lower)

/-- `strings.EqualFold` with a text whose letters have only ASCII case variants. -/
def equalFold (s t : List Char) : Bool := s.map Char.toLower == t.map Char.toLower

/-- The lower-case letter that a character is folded to when it is compared with an ASCII text. Two
letters outside of ASCII fold to one inside. -/
def foldRune (c : Char) : Char :=
  if c = '\u017f' then 's' else if c = '\u212a' then 'k' else c.toLower

/-- `strings.TrimRight` for a single character. -/
def trimRight (s : String) (cut : Char) : String := String.ofList (s.toList.rdropWhile (· == cut))

/-- `strconv.Atoi`: a decimal integer that fits 64 bits. -/
def atoi (s : String) : Option ℤ :=
  match s.toList with
  | '-' :: ds => number ds fun n => -n
  | '+' :: ds => number ds id
  | ds => number ds id
where
  number (ds : List Char) (sign : ℤ → ℤ) : Option ℤ :=
    let n := sign (Nat.ofDigitChars 10 ds 0 : ℕ)
    if ds ≠ [] ∧ ds.all Char.isDigit ∧ -9223372036854775808 ≤ n ∧ n < 9223372036854775808 then some n else none

theorem trimRunes_eq (cs : List Char) : trimRunes cs = Foundations.trimEnds isSpace cs := rfl

theorem toList_trimSpace (s : String) : (trimSpace s).toList = Foundations.trimEnds isSpace s.toList := by
  rw [trimSpace, String.toList_ofList, trimRunes_eq]

@[simp] theorem trimSpace_trimSpace (s : String) : trimSpace (trimSpace s) = trimSpace s := by
  conv_lhs => rw [trimSpace, toList_trimSpace, trimRunes_eq, Foundations.trimEnds_idem]
  rfl

/-- A text without space at its ends is left as it is. -/
theorem trimSpace_of_trimmed {s : String} (h : Foundations.Trimmed isSpace s.toList) : trimSpace s = s := by
  rw [trimSpace, trimRunes_eq, h.trimEnds_eq, String.ofList_toList]

theorem isSpace_of_isDigit {c : Char} (h : c.isDigit) : isSpace c = false := by
  simp only [Char.isDigit, Bool.and_eq_true, decide_eq_true_eq, UInt32.le_iff_toNat_le] at h
  have hlow : 48 ≤ c.toNat := h.1
  have hhigh : c.toNat ≤ 57 := h.2
  simp [isSpace]
  omega

end CyberstalkMe.Go
