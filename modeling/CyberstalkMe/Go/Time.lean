import CyberstalkMe.Foundations.Gregorian
import CyberstalkMe.Foundations.Decimal

/-! # Instants, durations and RFC 3339 text

The parts of Go's `time` package that the server relies on. An instant counts
nanoseconds from the zero time, 0001-01-01T00:00:00Z. A duration is a number of
nanoseconds within an int64, and `Sub` saturates at the ends of that range.
-/
namespace CyberstalkMe.Go

open Foundations Gregorian

/-- Durations are nanoseconds. -/
def second : ℤ := 1000000000
def hour : ℤ := 3600000000000

/-- The longest `time.Duration`, about 292 years. -/
def maxDuration : ℤ := 9223372036854775807
def minDuration : ℤ := -9223372036854775808

/-- `time.Time`: an instant and the zone it is shown in, in seconds east of UTC. -/
structure Time where
  nanos : ℤ
  offset : ℤ
deriving DecidableEq, Repr, Inhabited

namespace Time

@[ext] theorem ext {t u : Time} (hn : t.nanos = u.nanos) (ho : t.offset = u.offset) : t = u := by
  cases t
  cases u
  cases hn
  cases ho
  rfl

/-- The zero value of `time.Time` is the instant 0. -/
def isZero (t : Time) : Bool := decide (t.nanos = 0)

def utc (t : Time) : Time := { t with offset := 0 }

def add (t : Time) (d : ℤ) : Time := { t with nanos := t.nanos + d }

/-- The difference of two instants, saturating at the ends of `Duration`. -/
def sub (t u : Time) : ℤ := max minDuration (min maxDuration (t.nanos - u.nanos))

def after (t u : Time) : Bool := decide (u.nanos < t.nanos)

def before (t u : Time) : Bool := decide (t.nanos < u.nanos)

/-- Round down to a multiple of `d` since the zero time. -/
def truncate (t : Time) (d : ℤ) : Time :=
  if d ≤ 0 then t else { t with nanos := t.nanos - t.nanos % d }

/-- Whole seconds since the zero time. -/
def seconds (t : Time) : ℤ := t.nanos / second

/-- The instant of a whole second, in UTC. -/
def ofSeconds (s : ℤ) : Time := ⟨s * second, 0⟩

@[simp] theorem utc_nanos (t : Time) : t.utc.nanos = t.nanos := rfl

@[simp] theorem utc_offset (t : Time) : t.utc.offset = 0 := rfl

@[simp] theorem utc_seconds (t : Time) : t.utc.seconds = t.seconds := rfl

@[simp] theorem ofSeconds_seconds (s : ℤ) : (ofSeconds s).seconds = s := by
  unfold seconds ofSeconds second
  dsimp only
  omega

@[simp] theorem ofSeconds_nanos (s : ℤ) : (ofSeconds s).nanos = s * second := rfl

@[simp] theorem utc_ofSeconds (s : ℤ) : (ofSeconds s).utc = ofSeconds s := rfl

theorem seconds_mono {t u : Time} (h : t.nanos ≤ u.nanos) : t.seconds ≤ u.seconds :=
  Int.ediv_le_ediv (by decide) h

theorem isZero_ofSeconds (s : ℤ) : (ofSeconds s).isZero = decide (s = 0) := by
  unfold isZero ofSeconds second
  congr 1
  apply propext
  dsimp only
  omega

theorem utc_truncate_second (t : Time) : t.utc.truncate second = ofSeconds t.seconds := by
  have hd : ¬ second ≤ 0 := by decide
  rw [truncate, if_neg hd]
  apply Time.ext
  · unfold utc ofSeconds seconds second
    dsimp only
    omega
  · rfl

theorem truncate_hour_ofSeconds (s : ℤ) :
    (ofSeconds s).truncate hour = ofSeconds (s / 3600 * 3600) := by
  have hd : ¬ hour ≤ 0 := by decide
  rw [truncate, if_neg hd]
  apply Time.ext
  · unfold ofSeconds second hour
    dsimp only
    omega
  · rfl

theorem add_hour_ofSeconds (s : ℤ) : (ofSeconds s).add hour = ofSeconds (s + 3600) := by
  apply Time.ext
  · unfold add ofSeconds second hour
    dsimp only
    omega
  · rfl

theorem after_ofSeconds (s u : ℤ) : (ofSeconds s).after (ofSeconds u) = decide (u < s) := by
  unfold after ofSeconds second
  congr 1
  apply propext
  dsimp only
  omega

theorem before_ofSeconds (s u : ℤ) : (ofSeconds s).before (ofSeconds u) = decide (s < u) := by
  unfold before ofSeconds second
  congr 1
  apply propext
  dsimp only
  omega

theorem sub_mono {t t' u : Time} (h : t.nanos ≤ t'.nanos) : t.sub u ≤ t'.sub u := by
  unfold sub
  omega

/-- Below the saturation point, comparing `Sub` with a bound compares the instants. -/
theorem lt_sub_iff {t u : Time} {d : ℤ} (hmin : minDuration ≤ d) (hmax : d < maxDuration) :
    d < t.sub u ↔ d < t.nanos - u.nanos := by
  unfold sub
  omega

theorem sub_le_maxDuration (t u : Time) : t.sub u ≤ maxDuration := by
  unfold sub maxDuration minDuration
  omega

/-! ### Calendar fields and text -/

def localSeconds (t : Time) : ℤ := t.seconds + t.offset

def date (t : Time) : Date := Date.ofDay (t.localSeconds / 86400)

def year (t : Time) : ℤ := t.date.year

def secondOfDay (t : Time) : ℕ := (t.localSeconds % 86400).toNat

theorem secondOfDay_lt (t : Time) : t.secondOfDay < 86400 := by
  unfold secondOfDay
  omega

theorem day_secondOfDay (t : Time) :
    t.date.toDay * 86400 + t.secondOfDay = t.localSeconds := by
  rw [date, Date.toDay_ofDay, secondOfDay]
  omega

/-- Decimal digits with a sign, padded to `width` digits. -/
def appendInt (x : ℤ) (width : ℕ) : List Char :=
  (if x < 0 then ['-'] else []) ++ padded width x.natAbs

def zoneText (offset : ℤ) : List Char :=
  if offset = 0 then ['Z']
  else
    let zone := (offset.tdiv 60).natAbs
    (if offset.tdiv 60 < 0 then '-' else '+') :: padded 2 (zone / 60) ++ ':' :: padded 2 (zone % 60)

def clockText (s : ℕ) : List Char :=
  padded 2 (s / 3600) ++ ':' :: padded 2 (s / 60 % 60) ++ ':' :: padded 2 (s % 60)

/-- The part of the text after the year. -/
def tailText (t : Time) : List Char :=
  '-' :: padded 2 t.date.month ++ '-' :: padded 2 t.date.day ++ 'T' :: clockText t.secondOfDay ++
    zoneText t.offset

/-- `t.Format(time.RFC3339)`. -/
def format (t : Time) : String := String.ofList (appendInt t.year 4 ++ t.tailText)

/-- The literal text between two fields of the layout. -/
def skip (c : Char) : List Char → Option (List Char)
  | d :: cs => if d = c then some cs else none
  | [] => none

/-- A fraction of a second is accepted although the layout has none. Digits after the ninth
are dropped. -/
def parseNanoseconds : List Char → ℕ × List Char
  | c :: d :: cs =>
    if (c = '.' ∨ c = ',') ∧ d.isDigit then
      let digits := (d :: cs).takeWhile Char.isDigit
      let kept := digits.take 9
      (Nat.ofDigitChars 10 kept 0 * 10 ^ (9 - kept.length), (d :: cs).dropWhile Char.isDigit)
    else (0, c :: d :: cs)
  | cs => (0, cs)

def parseZone : List Char → Option (ℤ × List Char)
  | 'Z' :: cs => some (0, cs)
  | sign :: cs => do
    let (hr, cs) ← takeDigits 2 cs
    let cs ← skip ':' cs
    let (mm, cs) ← takeDigits 2 cs
    if 24 < hr ∨ 60 < mm then none
    else if sign = '+' then some ((hr * 60 + mm) * 60, cs)
    else if sign = '-' then some (-((hr * 60 + mm) * 60), cs)
    else none
  | [] => none

def parseClock (cs : List Char) : Option (ℕ × List Char) := do
  let (hr, cs) ← getnum false cs
  let cs ← skip ':' cs
  let (mm, cs) ← getnum true cs
  let cs ← skip ':' cs
  let (ss, cs) ← getnum true cs
  if hr < 24 ∧ mm < 60 ∧ ss < 60 then some (hr * 3600 + mm * 60 + ss, cs) else none

def parseDate (cs : List Char) : Option (Date × List Char) := do
  let (year, cs) ← takeDigits 4 cs
  let cs ← skip '-' cs
  let (month, cs) ← getnum true cs
  let cs ← skip '-' cs
  let (day, cs) ← getnum true cs
  let date ← Date.ofParts year month day
  some (date, cs)

/-- `time.Parse(time.RFC3339, value)`: the year has exactly four digits. -/
def parse (value : String) : Option Time := do
  let (date, cs) ← parseDate value.toList
  let cs ← skip 'T' cs
  let (s, cs) ← parseClock cs
  let (nsec, cs) := parseNanoseconds cs
  let (offset, cs) ← parseZone cs
  if cs = [] then some ⟨(date.toDay * 86400 + s - offset) * second + nsec, offset⟩ else none

theorem appendInt_of_nonneg {x : ℤ} (h : 0 ≤ x) (width : ℕ) :
    appendInt x width = padded width x.toNat := by
  have hn : ¬ x < 0 := not_lt.mpr h
  have habs : x.natAbs = x.toNat := by omega
  rw [appendInt, if_neg hn, habs, List.nil_append]

theorem parseClock_clockText {s : ℕ} (h : s < 86400) (rest : List Char) :
    parseClock (clockText s ++ rest) = some (s, rest) := by
  have hh : s / 3600 < 100 := by omega
  have hm : s / 60 % 60 < 100 := by omega
  have hs : s % 60 < 100 := by omega
  have hrange : s / 3600 < 24 ∧ s / 60 % 60 < 60 ∧ s % 60 < 60 := by omega
  have hsum : s / 3600 * 3600 + s / 60 % 60 * 60 + s % 60 = s := by omega
  simp [parseClock, clockText, List.append_assoc, getnum_padded, skip, hh, hm, hs, hrange, hsum]

theorem daysIn_le (m : ℕ) (y : ℤ) : daysIn m y ≤ 31 := by
  have hall : ∀ leap, ∀ n ∈ monthLengths leap, n ≤ 31 := by decide
  unfold daysIn
  by_cases h : m - 1 < (monthLengths (isLeap y)).length
  · rw [List.getD_eq_getElem _ _ h]
    exact hall _ _ (List.getElem_mem h)
  · rw [List.getD_eq_default _ _ (not_lt.mp h)]
    omega

theorem month_lt (t : Time) : t.date.month < 100 := by
  have h := t.date.month_le
  omega

theorem day_lt (t : Time) : t.date.day < 100 := by
  have h := t.date.day_le.trans (daysIn_le _ _)
  omega

theorem parseDate_append {cs rest : List Char} {year : ℕ} {d : Date} (hyear : (year : ℤ) = d.year)
    (hm : d.month < 100) (hd : d.day < 100)
    (hcs : takeDigits 4 cs = some (year, '-' :: padded 2 d.month ++ '-' :: padded 2 d.day ++ rest)) :
    parseDate cs = some (d, rest) := by
  have hparts : Date.ofParts year d.month d.day = some d := hyear ▸ Date.ofParts_self d
  simp only [parseDate, hcs, Option.bind_eq_bind, Option.bind_some, skip, List.cons_append,
    List.append_assoc, ite_true, getnum_padded true hm, getnum_padded true hd, hparts]

theorem parse_of_year {value : String} {year : ℕ} {t : Time} (hyear : (year : ℤ) = t.utc.year)
    (hvalue : takeDigits 4 value.toList = some (year, t.utc.tailText)) :
    parse value = some (ofSeconds t.seconds) := by
  have hdate : parseDate value.toList = some (t.utc.date, 'T' :: clockText t.utc.secondOfDay ++ ['Z']) :=
    parseDate_append hyear t.utc.month_lt t.utc.day_lt (by
      rw [hvalue, tailText, List.append_assoc]
      rfl)
  have hclock := parseClock_clockText t.utc.secondOfDay_lt ['Z']
  have hday : t.utc.date.toDay * 86400 + t.utc.secondOfDay = t.seconds :=
    t.utc.day_secondOfDay.trans (add_zero _)
  simp only [parse, hdate, Option.bind_eq_bind, Option.bind_some, skip, List.cons_append, ite_true,
    hclock, parseNanoseconds, parseZone, sub_zero, Nat.cast_zero, add_zero, hday, ofSeconds]

/-- Text written in UTC is read back, to the second, when its year has four digits. -/
theorem parse_format {t : Time} (h0 : 0 ≤ t.utc.year) (h : t.utc.year ≤ 9999) :
    parse t.utc.format = some (ofSeconds t.seconds) := by
  have hy : t.utc.year.toNat < 10 ^ 4 := by omega
  refine parse_of_year (Int.toNat_of_nonneg h0) ?_
  rw [format, String.toList_ofList, appendInt_of_nonneg h0, takeDigits_padded (by decide) hy]

/-- Text of another year cannot be read back: it starts with a sign, or its year is longer. -/
theorem parse_format_eq_none {t : Time} (h : t.utc.year < 0 ∨ 9999 < t.utc.year) :
    parse t.utc.format = none := by
  obtain h | h := h
  · have hsign : takeDigits 4 t.utc.format.toList = none := by
      simp [format, appendInt, h, takeDigits]
    simp [parse, parseDate, hsign]
  · have hy : 10 ^ 4 ≤ t.utc.year.toNat := by omega
    obtain ⟨k, c, cs, hc, hread⟩ := takeDigits_padded_of_le (by decide) hy t.utc.tailText
    have hne : c ≠ '-' := by
      rintro rfl
      exact absurd hc (by decide)
    have hyear : takeDigits 4 t.utc.format.toList = some (k, c :: cs) := by
      rw [format, String.toList_ofList, appendInt_of_nonneg (by omega), hread]
    simp [parse, parseDate, hyear, skip, hne]

theorem appendInt_injective (width : ℕ) : Function.Injective fun x => appendInt x width := by
  have hne (n m : ℕ) : '-' :: padded width n ≠ padded width m := fun h =>
    absurd (isDigit_of_mem_padded (h ▸ List.mem_cons_self : '-' ∈ padded width m)) (by decide)
  intro x y h
  simp only [appendInt] at h
  by_cases hx : x < 0 <;> by_cases hy : y < 0
  · simp only [hx, hy, ite_true, List.singleton_append, List.cons.injEq, true_and] at h
    have := padded_injective width h
    omega
  · simp only [hx, hy, ite_true, ite_false, List.singleton_append, List.nil_append] at h
    exact absurd h (hne _ _)
  · simp only [hx, hy, ite_true, ite_false, List.singleton_append, List.nil_append] at h
    exact absurd h.symm (hne _ _)
  · simp only [hx, hy, ite_false, List.nil_append] at h
    have := padded_injective width h
    omega

theorem length_padded_two {n : ℕ} (h : n < 100) : (padded 2 n).length = 2 :=
  length_padded_of_lt (by decide) h

theorem clockText_inj {s u : ℕ} (hs : s < 86400) (hu : u < 86400) (h : clockText s = clockText u) :
    s = u := by
  have h1 := parseClock_clockText hs []
  rw [h, parseClock_clockText hu] at h1
  simpa using h1.symm

theorem length_clockText {s : ℕ} (hs : s < 86400) : (clockText s).length = 8 := by
  have hh : s / 3600 < 100 := by omega
  have hm : s / 60 % 60 < 100 := by omega
  have hz : s % 60 < 100 := by omega
  simp [clockText, length_padded_two, hh, hm, hz]

theorem length_tailText_utc (t : Time) : t.utc.tailText.length = 16 := by
  simp [tailText, length_padded_two, month_lt, day_lt, length_clockText, secondOfDay_lt, zoneText]

theorem tailText_utc_inj {t u : Time} (h : t.utc.tailText = u.utc.tailText) :
    t.utc.date.month = u.utc.date.month ∧ t.utc.date.day = u.utc.date.day ∧
      t.utc.secondOfDay = u.utc.secondOfDay := by
  simp only [tailText, List.append_assoc, List.cons_append, List.cons.injEq, true_and] at h
  obtain ⟨hm, h⟩ := List.append_inj h (by simp [length_padded_two, month_lt])
  simp only [List.cons.injEq, true_and] at h
  obtain ⟨hd, h⟩ := List.append_inj h (by simp [length_padded_two, day_lt])
  simp only [List.cons.injEq, true_and] at h
  obtain ⟨hc, -⟩ := List.append_inj h (by simp [length_clockText, secondOfDay_lt])
  exact ⟨padded_injective 2 hm, padded_injective 2 hd,
    clockText_inj (secondOfDay_lt _) (secondOfDay_lt _) hc⟩

/-- The UTC text of an instant determines its whole second, in every year. -/
theorem format_utc_inj {t u : Time} : t.utc.format = u.utc.format ↔ t.seconds = u.seconds := by
  constructor
  · intro h
    have hlist : appendInt t.utc.year 4 ++ t.utc.tailText = appendInt u.utc.year 4 ++ u.utc.tailText :=
      String.ofList_inj.mp h
    obtain ⟨hyear, htail⟩ := List.append_inj' hlist
      (by rw [length_tailText_utc, length_tailText_utc])
    obtain ⟨hm, hd, hs⟩ := tailText_utc_inj htail
    have hdate : t.utc.date = u.utc.date := Date.ext (appendInt_injective 4 hyear) hm hd
    have ht := t.utc.day_secondOfDay
    have hu := u.utc.day_secondOfDay
    rw [hdate, hs, hu] at ht
    simpa [localSeconds] using ht.symm
  · intro h
    have hlocal : t.utc.localSeconds = u.utc.localSeconds := by simp [localSeconds, h]
    simp only [format, tailText, year, date, secondOfDay, hlocal, utc_offset]

/-- Whatever `parse` makes of UTC text is the instant truncated to seconds. -/
theorem eq_of_parse_format {t u : Time} (h : parse t.utc.format = some u) :
    u = ofSeconds t.seconds := by
  by_cases hy : 0 ≤ t.utc.year ∧ t.utc.year ≤ 9999
  · rw [parse_format hy.1 hy.2] at h
    exact (Option.some.inj h).symm
  · rw [parse_format_eq_none (by omega)] at h
    cases h

example : parse "9999-12-31T23:59:59-01:00" = some ⟨315537901199000000000, -3600⟩ := by decide +kernel

end Time

end CyberstalkMe.Go
