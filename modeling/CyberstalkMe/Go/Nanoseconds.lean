import CyberstalkMe.Go.Time
import Mathlib.Data.List.DropRight

/-! # RFC 3339 text with nanoseconds

The text of a timestamp in JSON. Unlike the text in the database it keeps the
fraction of the second and the zone, and it is read back to the same time.
-/
namespace CyberstalkMe.Go.Time

open Foundations Gregorian

/-- The fraction of a second, without trailing zeros. -/
def fractionText (n : ℕ) : List Char :=
  if n = 0 then [] else '.' :: (padded 9 n).rdropWhile (· = '0')

/-- The nanoseconds within the second. -/
def nanosecond (t : Time) : ℕ := (t.nanos % second).toNat

/-- `t.Format(time.RFC3339Nano)`. -/
def formatNano (t : Time) : String :=
  String.ofList (appendInt t.year 4 ++ '-' :: padded 2 t.date.month ++ '-' :: padded 2 t.date.day ++
    'T' :: clockText t.secondOfDay ++ fractionText t.nanosecond ++ zoneText t.offset)

theorem nanosecond_lt (t : Time) : t.nanosecond < 10 ^ 9 := by
  unfold nanosecond second
  omega

theorem seconds_nanosecond (t : Time) : t.seconds * second + t.nanosecond = t.nanos := by
  unfold seconds nanosecond second
  omega

/-- What follows a fraction does not continue it. -/
theorem parseNanoseconds_of_zone {c : Char} (hc : c ≠ '.' ∧ c ≠ ',') (rest : List Char) :
    parseNanoseconds (c :: rest) = (0, c :: rest) := by
  cases rest with
  | nil => rfl
  | cons d rest => simp [parseNanoseconds, hc]

theorem parseNanoseconds_of_digits {d c : Char} {ds : List Char} (hds : ∀ c ∈ d :: ds, c.isDigit)
    (hlen : (d :: ds).length ≤ 9) (hc : c.isDigit = false) (rest : List Char) :
    parseNanoseconds ('.' :: d :: ds ++ c :: rest) =
      (Nat.ofDigitChars 10 (d :: ds) 0 * 10 ^ (9 - (d :: ds).length), c :: rest) := by
  have hd : d.isDigit := hds d List.mem_cons_self
  have htake : (d :: (ds ++ c :: rest)).takeWhile Char.isDigit = d :: ds := by
    rw [← List.cons_append, List.takeWhile_append_of_pos hds, List.takeWhile_cons, hc]
    exact List.append_nil _
  have hdrop : (d :: (ds ++ c :: rest)).dropWhile Char.isDigit = c :: rest := by
    rw [← List.cons_append, List.dropWhile_append_of_pos hds, List.dropWhile_cons, hc]
    rfl
  simp only [parseNanoseconds, List.cons_append, hd, htake, hdrop, List.take_of_length_le hlen,
    true_or, and_self, ite_true]

/-- Dropping the zeros at the end divides by their power of ten. -/
theorem ofDigitChars_rdropWhile_zero (cs : List Char) :
    Nat.ofDigitChars 10 (cs.rdropWhile (· = '0')) 0 *
      10 ^ (cs.length - (cs.rdropWhile (· = '0')).length) = Nat.ofDigitChars 10 cs 0 := by
  have hsplit : cs.rdropWhile (· = '0') ++ cs.rtakeWhile (· = '0') = cs :=
    List.rdropWhile_append_rtakeWhile
  have hzeros : cs.rtakeWhile (· = '0') =
      List.replicate (cs.rtakeWhile (· = '0')).length '0' :=
    List.eq_replicate_of_mem fun c hc => by simpa using List.mem_rtakeWhile_imp hc
  have hlen := congrArg List.length hsplit
  rw [List.length_append] at hlen
  have hcount : cs.length - (cs.rdropWhile (· = '0')).length = (cs.rtakeWhile (· = '0')).length := by
    omega
  rw [hcount]
  conv_rhs => rw [← hsplit, Nat.ofDigitChars_append, hzeros, Nat.ofDigitChars_replicate_zero]
  rw [Nat.mul_comm]

theorem parseNanoseconds_fractionText {n : ℕ} (h : n < 10 ^ 9) {c : Char}
    (hc : c.isDigit = false ∧ c ≠ '.' ∧ c ≠ ',') (rest : List Char) :
    parseNanoseconds (fractionText n ++ c :: rest) = (n, c :: rest) := by
  by_cases hzero : n = 0
  · subst hzero
    exact parseNanoseconds_of_zone hc.2 rest
  · have hlen : (padded 9 n).length = 9 := length_padded_of_lt (by decide) h
    have hvalue := ofDigitChars_rdropWhile_zero (padded 9 n)
    rw [hlen, value_padded] at hvalue
    have hkeep := List.rdropWhile_prefix (· = '0') (l := padded 9 n)
    rw [fractionText, if_neg hzero]
    cases hkept : (padded 9 n).rdropWhile (· = '0') with
    | nil =>
      rw [hkept] at hvalue
      exact absurd (by simpa using hvalue.symm) hzero
    | cons d ds =>
      rw [hkept] at hvalue hkeep
      have hdigits : ∀ c ∈ d :: ds, c.isDigit := fun c hmem =>
        isDigit_of_mem_padded (hkeep.subset hmem)
      have hle : (d :: ds).length ≤ 9 := hlen ▸ hkeep.length_le
      rw [parseNanoseconds_of_digits hdigits hle hc.1, hvalue]

theorem parseZone_zoneText {offset : ℤ} (hlow : -86400 < offset) (hhigh : offset < 86400)
    (hminutes : offset % 60 = 0) : parseZone (zoneText offset) = some (offset, []) := by
  obtain ⟨zone, rfl⟩ : ∃ zone, offset = zone * 60 := ⟨offset / 60, by omega⟩
  have htrunc : (zone * 60).tdiv 60 = zone := Int.mul_tdiv_cancel zone (by decide)
  by_cases hutc : zone * 60 = 0
  · rw [hutc]
    rfl
  · have hhr : zone.natAbs / 60 < 10 ^ 2 := by omega
    have hmm : zone.natAbs % 60 < 10 ^ 2 := by omega
    have hhours := takeDigits_padded (by decide) hhr (':' :: padded 2 (zone.natAbs % 60))
    have hrest := takeDigits_padded (by decide) hmm []
    rw [List.append_nil] at hrest
    have hrange : ¬ (24 < zone.natAbs / 60 ∨ 60 < zone.natAbs % 60) := by omega
    rw [zoneText, if_neg hutc, htrunc]
    by_cases hsign : zone < 0
    · have hvalue : -((|zone| / 60 * 60 + |zone| % 60) * 60) = zone * 60 := by
        rw [abs_of_neg hsign]
        omega
      simp [parseZone, hsign, hhours, skip, hrest, hrange, hvalue]
    · have hvalue : |zone| / 60 * 60 + |zone| % 60 = zone := by
        rw [abs_of_nonneg (not_lt.mp hsign)]
        omega
      simp [parseZone, hsign, hhours, skip, hrest, hrange, hvalue]

/-- A zone starts with a sign or is the letter of UTC. -/
theorem zoneText_eq_cons (offset : ℤ) : ∃ c rest, zoneText offset = c :: rest ∧
    c.isDigit = false ∧ c ≠ '.' ∧ c ≠ ',' := by
  unfold zoneText
  split_ifs
  · exact ⟨_, _, rfl, by decide⟩
  · exact ⟨_, _, rfl, by decide⟩
  · exact ⟨_, _, rfl, by decide⟩

/-- The text of a time is read back when its year has four digits and its zone is whole minutes. -/
theorem parse_formatNano {t : Time} (h0 : 0 ≤ t.year) (hyear : t.year ≤ 9999)
    (hlow : -86400 < t.offset) (hhigh : t.offset < 86400) (hminutes : t.offset % 60 = 0) :
    parse t.formatNano = some t := by
  obtain ⟨c, rest, hzone, hc⟩ := zoneText_eq_cons t.offset
  have hy : t.year.toNat < 10 ^ 4 := by omega
  have hread := parseZone_zoneText hlow hhigh hminutes
  rw [hzone] at hread
  have hfraction := parseNanoseconds_fractionText t.nanosecond_lt hc rest
  have hclock := parseClock_clockText t.secondOfDay_lt (fractionText t.nanosecond ++ c :: rest)
  have hdate : parseDate t.formatNano.toList = some (t.date,
      'T' :: (clockText t.secondOfDay ++ (fractionText t.nanosecond ++ c :: rest))) := by
    apply parseDate_append (Int.toNat_of_nonneg h0) t.month_lt t.day_lt
    rw [formatNano, String.toList_ofList, appendInt_of_nonneg h0]
    simp only [List.append_assoc, List.cons_append, hzone]
    exact takeDigits_padded (by decide) hy _
  have hday := t.day_secondOfDay
  have hnanos := t.seconds_nanosecond
  have hsum : t.date.toDay * 86400 + t.secondOfDay - t.offset = t.seconds := by
    rw [hday, localSeconds, add_sub_cancel_right]
  simp only [parse, hdate, Option.bind_eq_bind, Option.bind_some, skip, ite_true, hclock, hfraction,
    hread, hsum, hnanos]

end CyberstalkMe.Go.Time
