import CyberstalkMe.Go.Nanoseconds

/-! # The times that are read from text

Whatever RFC 3339 text is parsed, its time has a year of four digits and a zone of whole minutes. The zone
can be a whole day and more, and such a time is not written again.
-/
namespace CyberstalkMe.Foundations

theorem ofDigitChars_lt_pow (ds : List Char) (hds : ∀ c ∈ ds, c.isDigit) : Nat.ofDigitChars 10 ds 0 < 10 ^ ds.length := by
  induction ds using List.reverseRecOn with
  | nil => decide
  | append_singleton ds c ih =>
    have hlt := ih fun d hd => hds d (List.mem_append_left _ hd)
    have hc := Char.isDigit_iff_toNat.mp (hds c (List.mem_append_right _ List.mem_cons_self))
    have hzero : '0'.toNat = 48 := rfl
    have hnine : '9'.toNat = 57 := rfl
    rw [Nat.ofDigitChars_append, Nat.ofDigitChars_cons, Nat.ofDigitChars_nil, List.length_append, List.length_singleton,
      pow_succ]
    omega

theorem takeDigits_lt {width n : ℕ} {cs rest : List Char} (h : takeDigits width cs = some (n, rest)) :
    n < 10 ^ width := by
  rw [takeDigits] at h
  split_ifs at h with hdigits
  cases h
  have hlt := ofDigitChars_lt_pow (cs.take width) (List.all_eq_true.mp hdigits.2)
  rwa [hdigits.1] at hlt

end CyberstalkMe.Foundations

namespace CyberstalkMe.Go.Time

open Foundations Gregorian

structure OfText (t : Time) : Prop where
  year_nonneg : 0 ≤ t.year
  year_le : t.year ≤ 9999
  minutes : t.offset % 60 = 0

theorem ofText_zero : OfText ⟨0, 0⟩ where
  year_nonneg := by decide
  year_le := by decide
  minutes := rfl

theorem parseNanoseconds_lt (cs : List Char) : (parseNanoseconds cs).1 < 10 ^ 9 := by
  rw [parseNanoseconds.eq_def]
  split
  · rename_i c d cs
    split_ifs with hdigit
    · have hmem : ∀ c ∈ ((d :: cs).takeWhile Char.isDigit).take 9, c.isDigit :=
        fun c hc => List.mem_takeWhile_imp (List.mem_of_mem_take hc)
      have hlt := ofDigitChars_lt_pow _ hmem
      have hlen : (((d :: cs).takeWhile Char.isDigit).take 9).length ≤ 9 := List.length_take_le _ _
      calc _ < 10 ^ (((d :: cs).takeWhile Char.isDigit).take 9).length *
            10 ^ (9 - (((d :: cs).takeWhile Char.isDigit).take 9).length) :=
          Nat.mul_lt_mul_of_pos_right hlt (Nat.pow_pos (by decide))
        _ = 10 ^ 9 := by rw [← pow_add, Nat.add_sub_cancel' hlen]
    · exact Nat.pow_pos (by decide)
  · exact Nat.pow_pos (by decide)

theorem parseZone_minutes {cs rest : List Char} {offset : ℤ} (h : parseZone cs = some (offset, rest)) :
    offset % 60 = 0 := by
  rw [parseZone.eq_def] at h
  split at h
  · cases h
    rfl
  · simp only [Option.bind_eq_bind, Option.bind_eq_some_iff] at h
    obtain ⟨⟨hr, cs⟩, -, cs', -, ⟨mm, cs''⟩, -, h⟩ := h
    split_ifs at h
    · cases h
      exact Int.mul_emod_left _ _
    · cases h
      omega
  · cases h

theorem parseClock_lt {cs rest : List Char} {s : ℕ} (h : parseClock cs = some (s, rest)) : s < 86400 := by
  simp only [parseClock, Option.bind_eq_bind, Option.bind_eq_some_iff] at h
  obtain ⟨⟨hr, cs⟩, -, cs₁, -, ⟨mm, cs₂⟩, -, cs₃, -, ⟨ss, cs₄⟩, -, h⟩ := h
  split_ifs at h with hrange
  cases h
  omega

theorem parseDate_year {cs rest : List Char} {d : Date} (h : parseDate cs = some (d, rest)) :
    0 ≤ d.year ∧ d.year ≤ 9999 := by
  simp only [parseDate, Option.bind_eq_bind, Option.bind_eq_some_iff] at h
  obtain ⟨⟨year, cs⟩, hyear, cs₁, -, ⟨month, cs₂⟩, -, cs₃, -, ⟨day, cs₄⟩, -, date, hdate, h⟩ := h
  cases h
  have hlt : year < 10 ^ 4 := takeDigits_lt hyear
  rw [Date.ofParts] at hdate
  split_ifs at hdate
  cases hdate
  dsimp only
  omega

theorem ofText_parse {s : String} {t : Time} (h : parse s = some t) : t.OfText := by
  simp only [parse, Option.bind_eq_bind, Option.bind_eq_some_iff] at h
  obtain ⟨⟨date, cs⟩, hdate, cs₁, -, ⟨s, cs₂⟩, hclock, ⟨offset, cs₃⟩, hzone, h⟩ := h
  split_ifs at h
  cases h
  have hnanos := parseNanoseconds_lt cs₂
  have hs := parseClock_lt hclock
  have hseconds : ((date.toDay * 86400 + s - offset) * second + (parseNanoseconds cs₂).1 : ℤ) / second =
      date.toDay * 86400 + s - offset := by
    unfold second
    omega
  have hday : (date.toDay * 86400 + s - offset + offset) / 86400 = date.toDay := by omega
  have hyear : year ⟨(date.toDay * 86400 + s - offset) * second + (parseNanoseconds cs₂).1, offset⟩ = date.year := by
    rw [year, Time.date, localSeconds, seconds, hseconds, hday, Date.ofDay_toDay]
  constructor
  · rw [hyear]
    exact (parseDate_year hdate).1
  · rw [hyear]
    exact (parseDate_year hdate).2
  · exact parseZone_minutes hzone

end CyberstalkMe.Go.Time
