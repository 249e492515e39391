import Mathlib.Data.List.Basic
import Mathlib.Algebra.Ring.Nat

/-! # Zero-padded decimal numbers

Numbers are printed with at least a given number of digits and read back with
exactly that number.
-/
namespace CyberstalkMe.Foundations

/-- At least `width` decimal digits, padded with zeros on the left. -/
def padded (width n : ℕ) : List Char := List.leftpad width '0' (Nat.toDigits 10 n)

theorem length_padded (width n : ℕ) :
    (padded width n).length = max width (Nat.toDigits 10 n).length := List.length_leftpad

theorem length_padded_of_lt {width n : ℕ} (hw : 0 < width) (h : n < 10 ^ width) :
    (padded width n).length = width := by
  have hl := (Nat.length_toDigits_le_iff (b := 10) (by decide) hw).mpr h
  rw [length_padded, Nat.max_eq_left hl]

theorem isDigit_of_mem_padded {width n : ℕ} {c : Char} (h : c ∈ padded width n) : c.isDigit := by
  rw [padded, List.leftpad, List.mem_append] at h
  rcases h with h | h
  · rw [List.eq_of_mem_replicate h]
    rfl
  · exact Nat.isDigit_of_mem_toDigits (by decide) (by decide) h

theorem value_padded (width n : ℕ) : Nat.ofDigitChars 10 (padded width n) 0 = n := by
  rw [padded, List.leftpad, Nat.ofDigitChars_append, Nat.ofDigitChars_replicate_zero, Nat.mul_zero,
    Nat.ofDigitChars_ten_toDigits]

theorem padded_injective (width : ℕ) : Function.Injective (padded width) := fun m n h => by
  rw [← value_padded width m, h, value_padded]

/-- Read exactly `width` digits off the front. -/
def takeDigits (width : ℕ) (cs : List Char) : Option (ℕ × List Char) :=
  if (cs.take width).length = width ∧ (cs.take width).all Char.isDigit then
    some (Nat.ofDigitChars 10 (cs.take width) 0, cs.drop width)
  else none

theorem takeDigits_append {width : ℕ} {ds : List Char} (hl : ds.length = width)
    (hd : ∀ c ∈ ds, c.isDigit) (rest : List Char) :
    takeDigits width (ds ++ rest) = some (Nat.ofDigitChars 10 ds 0, rest) := by
  subst hl
  have htake : (ds ++ rest).take ds.length = ds := List.take_left
  have hdrop : (ds ++ rest).drop ds.length = rest := List.drop_left
  rw [takeDigits, htake, hdrop, if_pos ⟨rfl, List.all_eq_true.mpr hd⟩]

theorem takeDigits_padded {width n : ℕ} (hw : 0 < width) (h : n < 10 ^ width) (rest : List Char) :
    takeDigits width (padded width n ++ rest) = some (n, rest) := by
  rw [takeDigits_append (length_padded_of_lt hw h) (fun _ => isDigit_of_mem_padded), value_padded]

theorem takeDigits_padded_of_le {width n : ℕ} (hw : 0 < width) (h : 10 ^ width ≤ n)
    (rest : List Char) :
    ∃ (k : ℕ) (c : Char) (cs : List Char), c.isDigit ∧
      takeDigits width (padded width n ++ rest) = some (k, c :: cs) := by
  have hlong : width < (padded width n).length := by
    have hn := mt (Nat.length_toDigits_le_iff (b := 10) (by decide) hw).mp (Nat.not_lt.mpr h)
    rw [length_padded]
    omega
  obtain ⟨c, cs, hcs⟩ := List.exists_cons_of_length_pos
    (show 0 < ((padded width n).drop width).length by rw [List.length_drop]; omega)
  have hsplit : padded width n = (padded width n).take width ++ c :: cs := by
    rw [← hcs, List.take_append_drop]
  have hmem : ∀ d ∈ (padded width n).take width, d.isDigit :=
    fun d hd => isDigit_of_mem_padded (List.mem_of_mem_take hd)
  have hlen : ((padded width n).take width).length = width := by
    rw [List.length_take]
    omega
  have hmemc : c ∈ padded width n := by
    rw [hsplit]
    simp
  have hc : c.isDigit := isDigit_of_mem_padded hmemc
  have hread : takeDigits width (padded width n ++ rest) =
      some (Nat.ofDigitChars 10 ((padded width n).take width) 0, c :: cs ++ rest) := by
    conv_lhs => rw [hsplit, List.append_assoc]
    exact takeDigits_append hlen hmem _
  exact ⟨_, c, cs ++ rest, hc, hread⟩

/-- Two digits, or a single one where `fixed` is false. -/
def getnum (fixed : Bool) : List Char → Option (ℕ × List Char)
  | c :: d :: rest =>
    if c.isDigit then
      if d.isDigit then some (Nat.ofDigitChars 10 [c, d] 0, rest)
      else if fixed then none else some (Nat.ofDigitChars 10 [c] 0, d :: rest)
    else none
  | [c] => if c.isDigit && !fixed then some (Nat.ofDigitChars 10 [c] 0, []) else none
  | [] => none

theorem getnum_padded (fixed : Bool) {n : ℕ} (h : n < 100) (rest : List Char) :
    getnum fixed (padded 2 n ++ rest) = some (n, rest) := by
  have hl : (padded 2 n).length = 2 := length_padded_of_lt (by decide) h
  obtain ⟨c, d, hcd⟩ := List.length_eq_two.mp hl
  have hmem : c ∈ padded 2 n ∧ d ∈ padded 2 n := by simp [hcd]
  have hc : c.isDigit := isDigit_of_mem_padded hmem.1
  have hd : d.isDigit := isDigit_of_mem_padded hmem.2
  have hv : Nat.ofDigitChars 10 [c, d] 0 = n := by rw [← hcd, value_padded]
  simp [hcd, getnum, hc, hd, hv]

end CyberstalkMe.Foundations
