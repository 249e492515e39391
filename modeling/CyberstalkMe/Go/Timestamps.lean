import CyberstalkMe.Go.Time
import Mathlib.Data.String.Basic

/-! # The order of timestamps as text

RFC 3339 text in UTC with a four-digit year consists of decimal fields of fixed
width, the most significant first, so its lexical order is chronological.
-/
namespace CyberstalkMe.Foundations

open Gregorian

/-- Texts with prefixes of one length compare by the prefixes first. -/
theorem append_lt_append {x y s t : List Char} (h : x.length = y.length) :
    x ++ s < y ++ t ↔ x < y ∨ x = y ∧ s < t := by
  induction x generalizing y with
  | nil =>
    rw [List.length_nil, eq_comm, List.length_eq_zero_iff] at h
    simp [h]
  | cons a x ih =>
    cases y with
    | nil => simp at h
    | cons b y =>
      simp only [List.cons_append, List.cons_lt_cons_iff, List.cons.injEq, ih (Nat.succ.inj h)]
      tauto

theorem ofDigitChars_lt {x y : List Char} (h : x.length = y.length) (hx : ∀ c ∈ x, c.isDigit)
    (hy : ∀ c ∈ y, c.isDigit) (a b : ℕ) :
    Nat.ofDigitChars 10 x a < Nat.ofDigitChars 10 y b ↔ a < b ∨ a = b ∧ x < y := by
  induction x generalizing y a b with
  | nil =>
    rw [List.length_nil, eq_comm, List.length_eq_zero_iff] at h
    simp [h]
  | cons c x ih =>
    cases y with
    | nil => simp at h
    | cons d y =>
      have hc := Char.isDigit_iff_toNat.mp (hx c List.mem_cons_self)
      have hd := Char.isDigit_iff_toNat.mp (hy d List.mem_cons_self)
      rw [Nat.ofDigitChars_cons, Nat.ofDigitChars_cons, ih (Nat.succ.inj h)
        (fun e he => hx e (List.mem_cons_of_mem _ he)) fun e he => hy e (List.mem_cons_of_mem _ he),
        List.cons_lt_cons_iff]
      have hzero : '0'.toNat = 48 := rfl
      have hnine : '9'.toNat = 57 := rfl
      have hlt : c < d ↔ c.toNat < d.toNat := Iff.rfl
      have heq : c = d ↔ c.toNat = d.toNat := ⟨congrArg _, Char.toNat_inj.mp⟩
      rw [hlt, heq]
      constructor
      · rintro (h | ⟨h, hrest⟩)
        · by_cases hab : a < b
          · exact Or.inl hab
          · exact Or.inr ⟨by omega, Or.inl (by omega)⟩
        · exact Or.inr ⟨by omega, Or.inr ⟨by omega, hrest⟩⟩
      · rintro (h | ⟨h, hcd | ⟨hcd, hrest⟩⟩)
        · exact Or.inl (by omega)
        · exact Or.inl (by omega)
        · exact Or.inr ⟨by omega, hrest⟩

theorem padded_lt_iff {width m n : ℕ} (hw : 0 < width) (hm : m < 10 ^ width) (hn : n < 10 ^ width) :
    padded width m < padded width n ↔ m < n := by
  have h := ofDigitChars_lt (x := padded width m) (y := padded width n)
    (by rw [length_padded_of_lt hw hm, length_padded_of_lt hw hn]) (fun _ => isDigit_of_mem_padded)
    (fun _ => isDigit_of_mem_padded) 0 0
  simpa [value_padded] using h.symm

namespace Gregorian

theorem take_sum_mono (l : List ℕ) {i j : ℕ} (h : i ≤ j) : (l.take i).sum ≤ (l.take j).sum := by
  obtain ⟨k, rfl⟩ := Nat.exists_eq_add_of_le h
  rw [List.take_add, List.sum_append]
  omega

theorem Date.toDay_lt {a b : Date} (h : a.year < b.year ∨ a.year = b.year ∧
    (a.month < b.month ∨ a.month = b.month ∧ a.day < b.day)) : a.toDay < b.toDay := by
  rcases h with hy | ⟨hy, hm | ⟨hm, hd⟩⟩
  · have ha := (yearOf_bounds a.toDay).2
    have hb := (yearOf_bounds b.toDay).1
    rw [yearOf_toDay] at ha hb
    have hmono : daysBeforeYear (a.year + 1) ≤ daysBeforeYear b.year := by
      by_contra hlt
      have := daysBeforeYear_lt_iff.mp (not_le.mp hlt)
      omega
    omega
  · obtain ⟨hi, hlt⟩ := a.offset_bounds
    have hsucc : ((monthLengths (isLeap a.year)).take (a.month - 1 + 1)).sum =
        ((monthLengths (isLeap a.year)).take (a.month - 1)).sum + (monthLengths (isLeap a.year))[a.month - 1] := by
      rw [List.take_add_one, List.getElem?_eq_getElem hi, List.sum_append]
      simp
    have hle := take_sum_mono (monthLengths (isLeap a.year)) (i := a.month - 1 + 1) (j := b.month - 1)
      (by have := a.month_pos; omega)
    rw [toDay, toDay, ← hy]
    omega
  · have ha := a.day_pos
    rw [toDay, toDay, ← hy, ← hm]
    omega

theorem Date.lt_iff {a b : Date} : a.toDay < b.toDay ↔ a.year < b.year ∨ a.year = b.year ∧
    (a.month < b.month ∨ a.month = b.month ∧ a.day < b.day) := by
  constructor
  · intro h
    by_contra hnot
    have hne : a ≠ b := fun he => absurd h (he ▸ lt_irrefl _)
    have hparts : ¬ (a.year = b.year ∧ a.month = b.month ∧ a.day = b.day) := fun hp =>
      hne (Date.ext hp.1 hp.2.1 hp.2.2)
    have hback := Date.toDay_lt (a := b) (b := a) (by omega)
    omega
  · exact Date.toDay_lt

end Gregorian

end CyberstalkMe.Foundations

namespace CyberstalkMe.Go.Time

open Foundations Gregorian

theorem clockText_lt_iff {s u : ℕ} (hs : s < 86400) (hu : u < 86400) :
    clockText s < clockText u ↔ s < u := by
  have h2 (n : ℕ) (hn : n < 100) : (padded 2 n).length = 2 := length_padded_two hn
  have hcmp (m n : ℕ) (hm : m < 100) (hn : n < 100) : padded 2 m < padded 2 n ↔ m < n :=
    padded_lt_iff (by decide) hm hn
  have hinj (m n : ℕ) : padded 2 m = padded 2 n ↔ m = n := (padded_injective 2).eq_iff
  simp only [clockText, List.append_assoc, List.cons_append]
  rw [append_lt_append (by rw [h2 _ (by omega), h2 _ (by omega)]), List.cons_lt_cons_iff,
    append_lt_append (by rw [h2 _ (by omega), h2 _ (by omega)]), List.cons_lt_cons_iff,
    hcmp _ _ (by omega) (by omega), hcmp _ _ (by omega) (by omega), hcmp _ _ (by omega) (by omega),
    hinj, hinj]
  simp only [lt_irrefl, false_or, true_and]
  omega

/-- A year that RFC 3339 can write. -/
def FourDigitYear (t : Time) : Prop := 0 ≤ t.utc.year ∧ t.utc.year ≤ 9999

instance (t : Time) : Decidable t.FourDigitYear := inferInstanceAs (Decidable (_ ∧ _))

theorem format_utc (t : Time) (h : t.FourDigitYear) :
    t.utc.format.toList = padded 4 t.utc.year.toNat ++ ('-' :: (padded 2 t.utc.date.month ++
      ('-' :: (padded 2 t.utc.date.day ++ ('T' :: (clockText t.utc.secondOfDay ++ ['Z'])))))) := by
  simp [format, tailText, zoneText, appendInt_of_nonneg h.1]

theorem seconds_lt_iff (t u : Time) : t.seconds < u.seconds ↔
    t.utc.date.toDay < u.utc.date.toDay ∨
      t.utc.date.toDay = u.utc.date.toDay ∧ t.utc.secondOfDay < u.utc.secondOfDay := by
  have ht : t.utc.date.toDay * 86400 + t.utc.secondOfDay = t.seconds :=
    t.utc.day_secondOfDay.trans (add_zero _)
  have hu : u.utc.date.toDay * 86400 + u.utc.secondOfDay = u.seconds :=
    u.utc.day_secondOfDay.trans (add_zero _)
  have hs := t.utc.secondOfDay_lt
  have hs' := u.utc.secondOfDay_lt
  omega

theorem format_lt_iff {t u : Time} (ht : t.FourDigitYear) (hu : u.FourDigitYear) :
    t.utc.format < u.utc.format ↔ t.seconds < u.seconds := by
  have hyear : t.utc.year.toNat < 10 ^ 4 ∧ u.utc.year.toNat < 10 ^ 4 := by
    have h1 := ht.2
    have h2 := hu.2
    omega
  have h4 (n : ℕ) (hn : n < 10 ^ 4) : (padded 4 n).length = 4 := length_padded_of_lt (by decide) hn
  have hday : t.utc.date.toDay = u.utc.date.toDay ↔
      t.utc.date.year = u.utc.date.year ∧ t.utc.date.month = u.utc.date.month ∧
        t.utc.date.day = u.utc.date.day := by
    constructor
    · intro h
      have hdate : t.utc.date = u.utc.date := dateEquiv.injective h
      rw [hdate]
      exact ⟨rfl, rfl, rfl⟩
    · rintro ⟨hy, hm, hd⟩
      rw [Date.ext hy hm hd]
  rw [String.lt_iff_toList_lt, format_utc t ht, format_utc u hu, seconds_lt_iff, Date.lt_iff, hday,
    append_lt_append (by rw [h4 _ hyear.1, h4 _ hyear.2]), List.cons_lt_cons_iff,
    append_lt_append (by rw [length_padded_two t.utc.month_lt, length_padded_two u.utc.month_lt]),
    List.cons_lt_cons_iff,
    append_lt_append (by rw [length_padded_two t.utc.day_lt, length_padded_two u.utc.day_lt]),
    List.cons_lt_cons_iff,
    append_lt_append (by rw [length_clockText t.utc.secondOfDay_lt, length_clockText u.utc.secondOfDay_lt]),
    padded_lt_iff (by decide) hyear.1 hyear.2, padded_lt_iff (by decide) t.utc.month_lt u.utc.month_lt,
    padded_lt_iff (by decide) t.utc.day_lt u.utc.day_lt,
    clockText_lt_iff t.utc.secondOfDay_lt u.utc.secondOfDay_lt, (padded_injective 4).eq_iff,
    (padded_injective 2).eq_iff, (padded_injective 2).eq_iff]
  have h0 := ht.1
  have h0' := hu.1
  simp only [lt_irrefl, false_or, true_and, and_false, or_false]
  unfold year at *
  omega

theorem year_mono {t u : Time} (h : t.seconds ≤ u.seconds) : t.utc.year ≤ u.utc.year := by
  by_contra hyear
  have hday : u.utc.date.toDay < t.utc.date.toDay := Date.lt_iff.mpr (.inl (not_le.mp hyear))
  exact absurd ((seconds_lt_iff u t).mpr (.inl hday)) (not_lt.mpr h)

theorem format_lt_of_year_neg {t u : Time} (ht : t.utc.year < 0) (hu : u.FourDigitYear) :
    t.utc.format < u.utc.format := by
  have hne : padded 4 u.utc.year.toNat ≠ [] := by
    apply List.ne_nil_of_length_pos
    rw [length_padded_of_lt (by decide) (by have := hu.2; omega)]
    decide
  have hdigits : ∀ c ∈ padded 4 u.utc.year.toNat, c.isDigit := fun c hc => isDigit_of_mem_padded hc
  rw [String.lt_iff_toList_lt, format_utc u hu, format, String.toList_ofList, appendInt, if_pos ht]
  cases hu4 : padded 4 u.utc.year.toNat with
  | nil => exact absurd hu4 hne
  | cons c cs =>
    have hc : c.isDigit := hdigits c (hu4 ▸ List.mem_cons_self)
    have hlt : '-' < c := by
      simp only [Char.isDigit, Bool.and_eq_true, decide_eq_true_eq] at hc
      exact lt_of_lt_of_le (by decide : '-' < '0') hc.1
    exact List.cons_lt_cons_iff.mpr (.inl hlt)

theorem format_lt_iff_of_year_le {t u : Time} (ht : t.FourDigitYear) (hu : u.utc.year ≤ 9999) :
    t.utc.format < u.utc.format ↔ t.seconds < u.seconds := by
  by_cases hyear : 0 ≤ u.utc.year
  · exact format_lt_iff ht ⟨hyear, hu⟩
  · have htext := format_lt_of_year_neg (not_le.mp hyear) ht
    constructor
    · intro h
      exact absurd h (lt_asymm htext)
    · intro h
      have hle := year_mono h.le
      have h0 := ht.1
      omega

end CyberstalkMe.Go.Time
