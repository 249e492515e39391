import Mathlib.Order.Monotone.Basic
import Mathlib.Order.SuccPred.IntervalSucc
import Mathlib.Algebra.Order.SuccPred
import Mathlib.Data.Int.SuccPred
import Mathlib.Data.List.GetD
import Mathlib.Algebra.BigOperators.Group.List.Basic
import Mathlib.Algebra.Ring.Int.Defs
import Mathlib.Tactic.Ring
import Mathlib.Logic.Equiv.Defs

/-! # The proleptic Gregorian calendar

Day 0 is 0001-01-01. A `Date` is a calendar date that exists, and the dates are
in bijection with the integers.
-/
namespace CyberstalkMe.Foundations.Gregorian

def isLeap (y : ℤ) : Bool := decide (y % 4 = 0 ∧ (y % 100 ≠ 0 ∨ y % 400 = 0))

def yearLength (y : ℤ) : ℕ := if isLeap y then 366 else 365

def daysBeforeYear (y : ℤ) : ℤ := 365 * (y - 1) + (y - 1) / 4 - (y - 1) / 100 + (y - 1) / 400

theorem daysBeforeYear_succ (y : ℤ) : daysBeforeYear (y + 1) = daysBeforeYear y + yearLength y := by
  unfold daysBeforeYear yearLength isLeap
  split_ifs with h
  · simp only [decide_eq_true_eq] at h
    push_cast
    omega
  · simp only [decide_eq_true_eq] at h
    push_cast
    omega

theorem yearLength_pos (y : ℤ) : 0 < yearLength y := by
  rw [yearLength]
  split_ifs <;> omega

theorem daysBeforeYear_lt_iff {y z : ℤ} : daysBeforeYear y < daysBeforeYear z ↔ y < z := by
  have hmono : StrictMono daysBeforeYear := by
    apply strictMono_of_lt_succ
    intro y _
    have h := yearLength_pos y
    rw [Order.succ_eq_add_one, daysBeforeYear_succ]
    omega
  exact hmono.lt_iff_lt

/-- The year of a day: whole cycles of 400, 100, 4 and 1 years are taken off in turn. The last
day of a leap cycle does not start another one. -/
def yearOf (n : ℤ) : ℤ :=
  let r := n % 146097
  let b := min (r / 36524) 3
  let s := r - 36524 * b
  let c := s / 1461
  let e := min ((s - 1461 * c) / 365) 3
  400 * (n / 146097) + 100 * b + 4 * c + e + 1

theorem isLeap_cycle {a b c e : ℤ} (hb : 0 ≤ b ∧ b ≤ 3) (hc : 0 ≤ c ∧ c ≤ 24)
    (he : 0 ≤ e ∧ e ≤ 3) :
    isLeap (400 * a + 100 * b + 4 * c + e + 1) = decide (e = 3 ∧ (c < 24 ∨ b = 3)) := by
  have h4 : (400 * a + 100 * b + 4 * c + e + 1) % 4 = (e + 1) % 4 := by omega
  have h100 : (400 * a + 100 * b + 4 * c + e + 1) % 100 = (4 * c + e + 1) % 100 := by omega
  have h400 : (400 * a + 100 * b + 4 * c + e + 1) % 400 = (100 * b + 4 * c + e + 1) % 400 := by
    omega
  rw [isLeap]
  rw [h4, h100, h400]
  congr 1
  apply propext
  constructor <;> intro h <;> omega

theorem daysBeforeYear_cycle {a b c e : ℤ} (hb : 0 ≤ b ∧ b ≤ 3) (hc : 0 ≤ c ∧ c ≤ 24)
    (he : 0 ≤ e ∧ e ≤ 3) :
    daysBeforeYear (400 * a + 100 * b + 4 * c + e + 1) =
      146097 * a + 36524 * b + 1461 * c + 365 * e := by
  have h4 : (400 * a + 100 * b + 4 * c + e) / 4 = 100 * a + 25 * b + c := by omega
  have h100 : (400 * a + 100 * b + 4 * c + e) / 100 = 4 * a + b := by omega
  have h400 : (400 * a + 100 * b + 4 * c + e) / 400 = a := by omega
  rw [daysBeforeYear, add_sub_cancel_right, h4, h100, h400]
  ring

/-- The cycles of a day: quotients within their bounds and what is left of the last year. -/
theorem exists_cycles (n : ℤ) : ∃ a b c e d : ℤ, (0 ≤ b ∧ b ≤ 3) ∧ (0 ≤ c ∧ c ≤ 24) ∧
    (0 ≤ e ∧ e ≤ 3) ∧ 0 ≤ d ∧ d ≤ 365 ∧ (d = 365 → e = 3 ∧ (c < 24 ∨ b = 3)) ∧
    yearOf n = 400 * a + 100 * b + 4 * c + e + 1 ∧
    n = 146097 * a + 36524 * b + 1461 * c + 365 * e + d := by
  obtain ⟨a, ha⟩ : ∃ a, a = n / 146097 := ⟨_, rfl⟩
  obtain ⟨r, hr⟩ : ∃ r, r = n % 146097 := ⟨_, rfl⟩
  obtain ⟨b, hb⟩ : ∃ b, b = min (r / 36524) 3 := ⟨_, rfl⟩
  obtain ⟨s, hs⟩ : ∃ s, s = r - 36524 * b := ⟨_, rfl⟩
  obtain ⟨c, hc⟩ : ∃ c, c = s / 1461 := ⟨_, rfl⟩
  obtain ⟨t, ht⟩ : ∃ t, t = s - 1461 * c := ⟨_, rfl⟩
  obtain ⟨e, he⟩ : ∃ e, e = min (t / 365) 3 := ⟨_, rfl⟩
  have hy : yearOf n = 400 * a + 100 * b + 4 * c + e + 1 := by
    simp only [yearOf, ha, hr, hb, hs, hc, ht, he]
  have hn : n = 146097 * a + r := by omega
  have hb' : (0 ≤ b ∧ b ≤ 3) ∧ 0 ≤ s ∧ s ≤ 36524 ∧ (b < 3 → s < 36524) := by omega
  have hc' : (0 ≤ c ∧ c ≤ 24) ∧ 0 ≤ t ∧ t ≤ 1460 ∧ (t = 1460 → c < 24 ∨ b = 3) := by omega
  have he' : (0 ≤ e ∧ e ≤ 3) ∧ 0 ≤ t - 365 * e ∧ t - 365 * e ≤ 365 ∧
      (t - 365 * e = 365 → e = 3 ∧ t = 1460) := by omega
  exact ⟨a, b, c, e, t - 365 * e, hb'.1, hc'.1, he'.1, he'.2.1, he'.2.2.1,
    fun h => ⟨(he'.2.2.2 h).1, hc'.2.2.2 (he'.2.2.2 h).2⟩, hy, by omega⟩

theorem yearOf_bounds (n : ℤ) :
    daysBeforeYear (yearOf n) ≤ n ∧ n < daysBeforeYear (yearOf n + 1) := by
  obtain ⟨a, b, c, e, d, hb, hc, he, hd0, hd, hlast, hy, hn⟩ := exists_cycles n
  have hstart := daysBeforeYear_cycle (a := a) hb hc he
  have hleap := isLeap_cycle (a := a) hb hc he
  rw [daysBeforeYear_succ, hy, hstart, yearLength, hleap]
  by_cases h : e = 3 ∧ (c < 24 ∨ b = 3)
  · rw [if_pos (decide_eq_true h)]
    omega
  · have hd' : d ≠ 365 := fun hd' => h (hlast hd')
    rw [if_neg (by simpa using h)]
    omega

theorem yearOf_eq {n y : ℤ} (h : daysBeforeYear y ≤ n) (h' : n < daysBeforeYear (y + 1)) :
    yearOf n = y := by
  obtain ⟨hl, hu⟩ := yearOf_bounds n
  have h1 := daysBeforeYear_lt_iff.mp (hl.trans_lt h')
  have h2 := daysBeforeYear_lt_iff.mp (h.trans_lt hu)
  omega

/-! ### Months -/

/-- The entry of a list of lengths in which a position falls, and the offset inside it. -/
def locate : List ℕ → ℕ → ℕ × ℕ
  | [], n => (0, n)
  | len :: rest, n =>
    if n < len then (0, n) else ((locate rest (n - len)).1 + 1, (locate rest (n - len)).2)

theorem locate_spec {l : List ℕ} {n : ℕ} (h : n < l.sum) :
    ∃ hi : (locate l n).1 < l.length,
      (locate l n).2 < l[(locate l n).1] ∧ (l.take (locate l n).1).sum + (locate l n).2 = n := by
  induction l generalizing n with
  | nil => simp at h
  | cons len rest ih =>
    by_cases hn : n < len
    · simp [locate, hn]
    · rw [List.sum_cons] at h
      obtain ⟨hi, hlt, hsum⟩ := ih (n := n - len) (by omega)
      simp only [locate, hn, ite_false, List.length_cons, List.getElem_cons_succ,
        List.take_succ_cons, List.sum_cons]
      exact ⟨by omega, hlt, by omega⟩

theorem locate_take {l : List ℕ} {i r : ℕ} (hi : i < l.length) (hr : r < l[i]) :
    locate l ((l.take i).sum + r) = (i, r) := by
  induction l generalizing i with
  | nil => simp at hi
  | cons len rest ih =>
    cases i with
    | zero => simpa [locate] using hr
    | succ i =>
      have hlt : ¬ len + (rest.take i).sum + r < len := by omega
      have hsub : len + (rest.take i).sum + r - len = (rest.take i).sum + r := by omega
      rw [List.take_succ_cons, List.sum_cons, locate, if_neg hlt, hsub,
        ih (by simpa using hi) (by simpa using hr)]

theorem take_sum_add_lt {l : List ℕ} {i r : ℕ} (hi : i < l.length) (hr : r < l[i]) :
    (l.take i).sum + r < l.sum := by
  have hsplit : l.sum = (l.take i).sum + (l[i] + (l.drop (i + 1)).sum) := by
    rw [← List.sum_cons, ← List.drop_eq_getElem_cons hi, List.sum_take_add_sum_drop]
  omega

def monthLengths (leap : Bool) : List ℕ :=
  [31, if leap then 29 else 28, 31, 30, 31, 30, 31, 31, 30, 31, 30, 31]

@[simp] theorem monthLengths_length (leap : Bool) : (monthLengths leap).length = 12 := rfl

theorem monthLengths_sum (y : ℤ) : (monthLengths (isLeap y)).sum = yearLength y := by
  rw [yearLength]
  cases isLeap y <;> rfl

/-- The length of a month, zero for a month that does not exist. -/
def daysIn (month : ℕ) (y : ℤ) : ℕ := (monthLengths (isLeap y)).getD (month - 1) 0

/-! ### Dates -/

structure Date where
  year : ℤ
  month : ℕ
  day : ℕ
  month_pos : 1 ≤ month
  month_le : month ≤ 12
  day_pos : 1 ≤ day
  day_le : day ≤ daysIn month year
deriving DecidableEq, Repr

theorem Date.ext {a b : Date} (hy : a.year = b.year) (hm : a.month = b.month)
    (hd : a.day = b.day) : a = b := by
  cases a
  cases b
  cases hy
  cases hm
  cases hd
  rfl

def Date.ofParts (year : ℤ) (month day : ℕ) : Option Date :=
  if h : (1 ≤ month ∧ month ≤ 12) ∧ 1 ≤ day ∧ day ≤ daysIn month year then
    some ⟨year, month, day, h.1.1, h.1.2, h.2.1, h.2.2⟩
  else none

@[simp] theorem Date.ofParts_self (d : Date) : Date.ofParts d.year d.month d.day = some d := by
  rw [ofParts, dif_pos ⟨⟨d.month_pos, d.month_le⟩, d.day_pos, d.day_le⟩]

def Date.toDay (d : Date) : ℤ :=
  daysBeforeYear d.year + (((monthLengths (isLeap d.year)).take (d.month - 1)).sum + (d.day - 1) : ℕ)

def yearDay (n : ℤ) : ℕ := (n - daysBeforeYear (yearOf n)).toNat

theorem yearDay_cast (n : ℤ) : (yearDay n : ℤ) = n - daysBeforeYear (yearOf n) :=
  Int.toNat_of_nonneg (by have := (yearOf_bounds n).1; omega)

theorem yearDay_lt (n : ℤ) : yearDay n < (monthLengths (isLeap (yearOf n))).sum := by
  have h := (yearOf_bounds n).2
  have hc := yearDay_cast n
  rw [daysBeforeYear_succ] at h
  rw [monthLengths_sum]
  omega

def Date.ofDay (n : ℤ) : Date where
  year := yearOf n
  month := (locate (monthLengths (isLeap (yearOf n))) (yearDay n)).1 + 1
  day := (locate (monthLengths (isLeap (yearOf n))) (yearDay n)).2 + 1
  month_pos := by omega
  month_le := by
    obtain ⟨hi, -, -⟩ := locate_spec (yearDay_lt n)
    simpa using hi
  day_pos := by omega
  day_le := by
    obtain ⟨hi, hlt, -⟩ := locate_spec (yearDay_lt n)
    rw [daysIn, Nat.add_sub_cancel, List.getD_eq_getElem _ _ hi]
    omega

theorem Date.toDay_ofDay (n : ℤ) : (Date.ofDay n).toDay = n := by
  obtain ⟨-, -, hsum⟩ := locate_spec (yearDay_lt n)
  have hc := yearDay_cast n
  simp only [toDay, ofDay, Nat.add_sub_cancel, hsum]
  omega

theorem Date.offset_bounds (d : Date) :
    ∃ hi : d.month - 1 < (monthLengths (isLeap d.year)).length,
      d.day - 1 < (monthLengths (isLeap d.year))[d.month - 1] := by
  have hi : d.month - 1 < (monthLengths (isLeap d.year)).length := by
    have h1 := d.month_pos
    have h2 := d.month_le
    rw [monthLengths_length]
    omega
  refine ⟨hi, ?_⟩
  have h := d.day_le
  have hp := d.day_pos
  rw [daysIn, List.getD_eq_getElem _ _ hi] at h
  omega

theorem Date.yearOf_toDay (d : Date) : yearOf d.toDay = d.year := by
  obtain ⟨hi, hlt⟩ := d.offset_bounds
  have h := take_sum_add_lt hi hlt
  rw [monthLengths_sum] at h
  apply yearOf_eq
  · rw [toDay]
    omega
  · rw [daysBeforeYear_succ]
    rw [toDay]
    omega

theorem Date.ofDay_toDay (d : Date) : Date.ofDay d.toDay = d := by
  obtain ⟨hi, hlt⟩ := d.offset_bounds
  have hyear := d.yearOf_toDay
  have hday : yearDay d.toDay = ((monthLengths (isLeap d.year)).take (d.month - 1)).sum + (d.day - 1) := by
    rw [yearDay]
    rw [hyear, toDay]
    omega
  have hm := d.month_pos
  have hd := d.day_pos
  apply Date.ext
  · exact hyear
  · simp only [ofDay, hyear, hday, locate_take hi hlt]
    omega
  · simp only [ofDay, hyear, hday, locate_take hi hlt]
    omega

/-- Dates and day numbers are the same thing. -/
def dateEquiv : Date ≃ ℤ where
  toFun := Date.toDay
  invFun := Date.ofDay
  left_inv := Date.ofDay_toDay
  right_inv := Date.toDay_ofDay

end CyberstalkMe.Foundations.Gregorian
