import Mathlib.Data.Int.Log
import Mathlib.Data.Rat.Floor
import Mathlib.Algebra.Order.Archimedean.Basic
import Mathlib.Tactic.Ring
import Mathlib.Tactic.FieldSimp
import Mathlib.Tactic.Positivity

/-! # Rounding to binary64

A rational number rounded to 53 significant bits, ties to even. The exponent is
unbounded, so overflow and subnormal results are not represented.
-/
namespace CyberstalkMe.Foundations

/-- The nearest integer; the even one when two are equally near. -/
def roundHalfEven (q : ℚ) : ℤ :=
  if Int.fract q < 1 / 2 then ⌊q⌋
  else if 1 / 2 < Int.fract q then ⌊q⌋ + 1
  else if Even ⌊q⌋ then ⌊q⌋ else ⌊q⌋ + 1

/-- The unit in the last place of a number of this size. -/
def ulp (q : ℚ) : ℚ := 2 ^ (Int.log 2 |q| - 52)

def binary64 (q : ℚ) : ℚ := roundHalfEven (q / ulp q) * ulp q

theorem roundHalfEven_intCast (n : ℤ) : roundHalfEven n = n := by
  simp [roundHalfEven]

theorem ulp_pos (q : ℚ) : 0 < ulp q := zpow_pos (by norm_num) _

/-- A multiple of its own unit is represented exactly. -/
theorem binary64_of_multiple {q : ℚ} {n : ℤ} (h : q = n * ulp q) : binary64 q = q := by
  have hdiv : q / ulp q = n := by
    rw [div_eq_iff (ulp_pos q).ne']
    exact h
  rw [binary64, hdiv, roundHalfEven_intCast]
  exact h.symm

@[simp] theorem binary64_zero : binary64 0 = 0 := binary64_of_multiple (n := 0) (by simp)

/-- Integers of at most 53 bits are represented exactly. -/
theorem binary64_intCast {n : ℤ} (h : |n| ≤ 2 ^ 53) : binary64 n = n := by
  by_cases hzero : n = 0
  · simp [hzero]
  have hpos : 0 < |n| := abs_pos.mpr hzero
  have habs : |(n : ℚ)| = (|n|.toNat : ℕ) := by
    rw [← Int.cast_abs]
    norm_cast
    exact (Int.toNat_of_nonneg (abs_nonneg n)).symm
  have hlog : Int.log 2 |(n : ℚ)| = Nat.log 2 |n|.toNat := by
    rw [habs, Int.log_natCast]
  rcases lt_or_eq_of_le h with hlt | heq
  · have hsmall : Nat.log 2 |n|.toNat ≤ 52 := by
      apply Nat.lt_succ_iff.mp
      apply Nat.log_lt_of_lt_pow (by omega)
      omega
    have hulp : ulp n = (2 ^ (52 - Nat.log 2 |n|.toNat) : ℚ)⁻¹ := by
      rw [ulp, hlog, ← zpow_natCast, ← zpow_neg]
      congr 1
      omega
    apply binary64_of_multiple (n := n * 2 ^ (52 - Nat.log 2 |n|.toNat))
    rw [hulp]
    push_cast
    field_simp
  · have hnat : |n|.toNat = 2 ^ 53 := by omega
    have hulp : ulp n = 2 := by
      rw [ulp, hlog, hnat, Nat.log_pow (by decide)]
      norm_num
    have htwice : n = n / 2 * 2 := by
      rcases abs_eq (by positivity) |>.mp heq with hn | hn <;> omega
    apply binary64_of_multiple (n := n / 2)
    rw [hulp]
    exact_mod_cast htwice

theorem binary64_natCast {n : ℕ} (h : n ≤ 2 ^ 53) : binary64 n = n := by
  have hint := binary64_intCast (n := n) (by simpa using by exact_mod_cast h)
  simpa using hint

/-- 2^53 + 1 lies halfway between two doubles and is rounded to the even one. -/
theorem binary64_halfway : binary64 9007199254740993 = 9007199254740992 := by
  have hlog : Nat.log 2 9007199254740993 = 53 :=
    (Nat.log_eq_iff (.inl (by norm_num))).mpr ⟨by norm_num, by norm_num⟩
  have hulp : ulp 9007199254740993 = 2 := by
    have hint := Int.log_natCast (R := ℚ) 2 9007199254740993
    rw [hlog] at hint
    rw [ulp, abs_of_pos (by norm_num)]
    exact_mod_cast congrArg (fun k : ℤ => (2 : ℚ) ^ (k - 52)) hint
  have hfloor : ⌊(9007199254740993 / 2 : ℚ)⌋ = 4503599627370496 := by
    rw [Int.floor_eq_iff]
    norm_num
  have hfract : Int.fract (9007199254740993 / 2 : ℚ) = 1 / 2 := by
    rw [Int.fract, hfloor]
    norm_num
  have heven : Even (4503599627370496 : ℤ) := ⟨2251799813685248, by norm_num⟩
  rw [binary64, hulp, roundHalfEven, hfract, hfloor, if_neg (lt_irrefl _), if_neg (lt_irrefl _), if_pos heven]
  norm_num
end CyberstalkMe.Foundations
