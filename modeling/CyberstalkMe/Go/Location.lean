import CyberstalkMe.Go.Time
import CyberstalkMe.Foundations.Clock

/-! # Locations

A `time.Location` is a list of offset changes, as zone data has it. Its instants
count seconds from the zero time. `time.Date` resolves a reading of the wall
clock by looking the offset up at most twice.
-/
namespace CyberstalkMe.Go

open Foundations Gregorian

/-- The offset in force from an instant on, in seconds east of UTC. -/
structure Change where
  instant : ℤ
  offset : ℤ
deriving DecidableEq, Repr

/-- The changes are more than two days apart and the offsets within a day of UTC, for the offset in force
before them. -/
def Spaced : ℤ → List Change → Prop
  | o, [] => -86400 ≤ o ∧ o ≤ 86400
  | o, ch :: rest =>
    (-86400 ≤ o ∧ o ≤ 86400) ∧ (∀ next ∈ rest.head?, ch.instant + 172800 < next.instant) ∧ Spaced ch.offset rest

/-- The changes are of at most half a day. -/
def Gradual : ℤ → List Change → Prop
  | _, [] => True
  | o, ch :: rest => (-43200 ≤ ch.offset - o ∧ ch.offset - o ≤ 43200) ∧ Gradual ch.offset rest

instance Spaced.decidable : ∀ (o : ℤ) (changes : List Change), Decidable (Spaced o changes)
  | _, [] => inferInstanceAs (Decidable (_ ∧ _))
  | _, ch :: rest =>
    have : Decidable (Spaced ch.offset rest) := Spaced.decidable ch.offset rest
    have : Decidable (∀ next ∈ rest.head?, ch.instant + 172800 < next.instant) :=
      match rest.head? with
      | none => isTrue (by simp)
      | some next => decidable_of_iff (ch.instant + 172800 < next.instant) (by simp)
    inferInstanceAs (Decidable (_ ∧ _ ∧ _))

instance Gradual.decidable : ∀ (o : ℤ) (changes : List Change), Decidable (Gradual o changes)
  | _, [] => inferInstanceAs (Decidable True)
  | _, ch :: rest =>
    have : Decidable (Gradual ch.offset rest) := Gradual.decidable ch.offset rest
    inferInstanceAs (Decidable (_ ∧ _))

/-- `time.Location`. -/
structure Zone where
  name : String
  first : ℤ
  changes : List Change

/-- A zone with its changes apart. -/
structure SpacedZone extends Zone where
  spaced : Spaced first changes

/-- A zone whose changes are of at most half a day, as all but the moves across the date line are. -/
structure Location extends SpacedZone where
  gradual : Gradual first changes

instance : Coe SpacedZone Zone := ⟨SpacedZone.toZone⟩

instance : Coe Location SpacedZone := ⟨Location.toSpacedZone⟩

/-- What `lookup` returns: the offset at an instant, and the period in which it is in force. -/
structure Period where
  offset : ℤ
  start : Option ℤ
  stop : Option ℤ
deriving DecidableEq, Repr

/-- The instant lies outside the period. -/
def Period.excludes (p : Period) (t : ℤ) : Bool := p.start.any (t < ·) || p.stop.any (· ≤ t)

def lookupFrom (t : ℤ) : ℤ → Option ℤ → List Change → Period
  | o, start, [] => ⟨o, start, none⟩
  | o, start, ch :: rest =>
    if t < ch.instant then ⟨o, start, some ch.instant⟩
    else lookupFrom t ch.offset (some ch.instant) rest

namespace Zone

/-- The period that contains an instant. -/
def lookup (loc : Zone) (t : ℤ) : Period := lookupFrom t loc.first none loc.changes

/-- The end of `time.Date`: from the wall clock, read as if it were UTC, to the instant. -/
def unix (loc : Zone) (u : ℤ) : ℤ :=
  let p := loc.lookup u
  if p.offset ≠ 0 then
    let utc := u - p.offset
    -- an offset that is not in force at its own answer is looked up again there
    let offset := if p.excludes utc then (loc.lookup utc).offset else p.offset
    u - offset
  else u

end Zone

/-- The day number of a calendar date; the day of the month may be out of range. -/
def dayNumber (year : ℤ) (month : ℕ) (day : ℤ) : ℤ :=
  daysBeforeYear year + ((monthLengths (isLeap year)).take (month - 1)).sum + (day - 1)

theorem dayNumber_add (d : Date) (k : ℤ) : dayNumber d.year d.month (d.day + k) = d.toDay + k := by
  have h := d.day_pos
  unfold dayNumber Date.toDay
  omega

namespace Time

/-- `t.In(loc)`. -/
def inLoc (t : Time) (loc : Zone) : Time := { t with offset := (loc.lookup t.seconds).offset }

/-- `time.Date` of a calendar date and a number of seconds and nanoseconds into that day. -/
def ofDate (year : ℤ) (month : ℕ) (day sec nsec : ℤ) (loc : Zone) : Time :=
  let s := loc.unix (dayNumber year month day * 86400 + sec)
  ⟨s * second + nsec, (loc.lookup s).offset⟩

/-- `t.AddDate(0, 0, days)` of a time in `loc`. -/
def addDate (t : Time) (days : ℤ) (loc : Zone) : Time :=
  ofDate t.date.year t.date.month (t.date.day + days) t.secondOfDay (t.nanos % second) loc

def textOfDate (d : Date) : String :=
  String.ofList (appendInt d.year 4 ++ '-' :: padded 2 d.month ++ '-' :: padded 2 d.day)

/-- `t.Format("2006-01-02")`. -/
def dateText (t : Time) : String := textOfDate t.date

end Time

/-! ### A location as a clock -/

def offsetFrom (t : ℤ) : ℤ → List Change → ℤ
  | o, [] => o
  | o, ch :: rest => if t < ch.instant then o else offsetFrom t ch.offset rest

theorem lookupFrom_offset (t o : ℤ) (start : Option ℤ) (changes : List Change) :
    (lookupFrom t o start changes).offset = offsetFrom t o changes := by
  induction changes generalizing o start with
  | nil => rfl
  | cons ch rest ih =>
    rw [lookupFrom, offsetFrom]
    split_ifs
    · rfl
    · exact ih _ _

theorem offsetFrom_bounded {o : ℤ} {changes : List Change} (h : Spaced o changes) (t : ℤ) :
    -86400 ≤ offsetFrom t o changes ∧ offsetFrom t o changes ≤ 86400 := by
  induction changes generalizing o with
  | nil => exact h
  | cons ch rest ih =>
    rw [offsetFrom]
    split_ifs
    · exact h.1
    · exact ih h.2.2

theorem offsetFrom_of_lt {t o : ℤ} {changes : List Change} (h : ∀ next ∈ changes.head?, t < next.instant) :
    offsetFrom t o changes = o := by
  cases changes with
  | nil => rfl
  | cons ch rest => rw [offsetFrom, if_pos (h ch rfl)]

/-- Any two days hold at most one change. -/
theorem offsetFrom_isolated {o : ℤ} {changes : List Change} (h : Spaced o changes) (s : ℤ) :
    ∃ T a b, (Gradual o changes → -43200 ≤ b - a ∧ b - a ≤ 43200) ∧
      ∀ r, s ≤ r → r ≤ s + 172800 → offsetFrom r o changes = if r < T then a else b := by
  induction changes generalizing o with
  | nil => exact ⟨s, o, o, by omega, fun r _ _ => by rw [offsetFrom, ite_self]⟩
  | cons ch rest ih =>
    obtain ⟨-, hnext, hrest⟩ := h
    by_cases hs : s < ch.instant
    · refine ⟨ch.instant, o, ch.offset, fun hg => hg.1, fun r _ hr => ?_⟩
      rw [offsetFrom]
      split_ifs
      · rfl
      · exact offsetFrom_of_lt fun next hn => by have := hnext next hn; omega
    · obtain ⟨T, a, b, hab, hw⟩ := ih hrest
      refine ⟨T, a, b, fun hg => hab hg.2, fun r hr hr' => ?_⟩
      rw [offsetFrom, if_neg (by omega), hw r hr hr']

/-- The wall clock of a zone. -/
def SpacedZone.clock (loc : SpacedZone) : Clock where
  offset t := offsetFrom t loc.first loc.changes
  bounded t := offsetFrom_bounded loc.spaced t
  isolated s := by
    obtain ⟨T, a, b, -, hw⟩ := offsetFrom_isolated loc.spaced s
    exact ⟨T, a, b, hw⟩

instance (loc : Location) : loc.clock.Gradual where
  isolated s := by
    obtain ⟨T, a, b, hab, hw⟩ := offsetFrom_isolated loc.spaced s
    exact ⟨T, a, b, hab loc.gradual, hw⟩

theorem lookupFrom_start {t o i : ℤ} {changes : List Change} (h : Spaced o changes)
    (hi : ∀ next ∈ changes.head?, i < next.instant) :
    ∃ x, (lookupFrom t o (some i) changes).start = some x ∧ i ≤ x := by
  induction changes generalizing o i with
  | nil => exact ⟨i, rfl, le_rfl⟩
  | cons ch rest ih =>
    rw [lookupFrom]
    split_ifs
    · exact ⟨i, rfl, le_rfl⟩
    · have hlt := hi ch rfl
      obtain ⟨x, hx, hle⟩ := ih (i := ch.instant) h.2.2 fun next hn => by have := h.2.1 next hn; omega
      exact ⟨x, hx, by omega⟩

/-- An instant that the period does not exclude has the period's offset. -/
theorem offsetFrom_of_not_excludes {t t' o : ℤ} {start : Option ℤ} {changes : List Change}
    (h : Spaced o changes) (hp : (lookupFrom t o start changes).excludes t' = false) :
    offsetFrom t' o changes = offsetFrom t o changes := by
  induction changes generalizing o start with
  | nil => rfl
  | cons ch rest ih =>
    rw [lookupFrom] at hp
    rw [offsetFrom, offsetFrom]
    by_cases ht : t < ch.instant
    · rw [if_pos ht] at hp
      have hstop : t' < ch.instant := by simpa [Period.excludes] using (Bool.or_eq_false_iff.mp hp).2
      rw [if_pos ht, if_pos hstop]
    · rw [if_neg ht] at hp
      obtain ⟨x, hx, hle⟩ := lookupFrom_start (t := t) (i := ch.instant) h.2.2 fun next hn => by
        have := h.2.1 next hn
        omega
      have hstart := (Bool.or_eq_false_iff.mp hp).1
      rw [hx, Option.any_some, decide_eq_false_iff_not, not_lt] at hstart
      rw [if_neg ht, if_neg (by omega), ih h.2.2 hp]

namespace SpacedZone
variable (loc : SpacedZone)

@[simp] theorem lookup_offset (t : ℤ) : (loc.lookup t).offset = loc.clock.offset t :=
  lookupFrom_offset t loc.first none loc.changes

/-- `time.Date` resolves the wall clock. -/
theorem unix_eq (u : ℤ) : loc.unix u = loc.clock.resolve u := by
  simp only [Zone.unix, lookup_offset, Clock.resolve]
  split_ifs with h0 hout
  · rfl
  · have hin := offsetFrom_of_not_excludes loc.spaced (Bool.not_eq_true _ ▸ hout)
    exact congrArg (u - ·) hin.symm
  · rw [not_not] at h0
    rw [h0, sub_zero, h0, sub_zero]

end SpacedZone

namespace Time
variable (t : Time) (loc : SpacedZone)

@[simp] theorem inLoc_nanos : (t.inLoc loc).nanos = t.nanos := rfl

@[simp] theorem inLoc_seconds : (t.inLoc loc).seconds = t.seconds := rfl

@[simp] theorem inLoc_localSeconds : (t.inLoc loc).localSeconds = loc.clock.reading t.seconds := by
  simp [localSeconds, inLoc, seconds, Clock.reading]

@[simp] theorem inLoc_date : (t.inLoc loc).date = Date.ofDay (loc.clock.day t.seconds) := by
  rw [date, inLoc_localSeconds, Clock.day]

def ofUnix (s : ℤ) (loc : Zone) : Time := (ofSeconds s).inLoc loc

@[simp] theorem ofUnix_seconds (s : ℤ) : (ofUnix s loc).seconds = s := ofSeconds_seconds s

@[simp] theorem ofUnix_nanos (s : ℤ) : (ofUnix s loc).nanos = s * second := rfl

@[simp] theorem ofUnix_date (s : ℤ) : (ofUnix s loc).date = Date.ofDay (loc.clock.day s) := by
  rw [ofUnix, inLoc_date, ofSeconds_seconds]

theorem ofDate_eq (d : Date) (k sec : ℤ) :
    ofDate d.year d.month (d.day + k) sec 0 loc =
      ofUnix (loc.clock.resolve ((d.toDay + k) * 86400 + sec)) loc := by
  rw [ofDate, dayNumber_add, loc.unix_eq, add_zero, ofUnix, inLoc, ofSeconds_seconds]
  rfl

theorem ofDate_midnight (k : ℤ) :
    ofDate (t.inLoc loc).date.year (t.inLoc loc).date.month ((t.inLoc loc).date.day + k) 0 0 loc =
      ofUnix (loc.clock.midnight (loc.clock.day t.seconds + k)) loc := by
  rw [ofDate_eq, inLoc_date, Date.toDay_ofDay, Clock.midnight, add_zero, mul_comm]

/-- The next day at the same reading. -/
theorem addDate_ofUnix (s : ℤ) :
    (ofUnix s loc).addDate 1 loc = ofUnix (loc.clock.resolve (loc.clock.reading s + 86400)) loc := by
  have hday := (ofUnix s loc).day_secondOfDay
  have hnsec : (ofUnix s loc).nanos % second = 0 := Int.mul_emod_left s second
  have hread : (ofUnix s loc).localSeconds = loc.clock.reading s := by
    rw [ofUnix, inLoc_localSeconds, ofSeconds_seconds]
  rw [addDate, hnsec, ofDate_eq, ← hread, ← hday]
  congr 2
  ring

theorem textOfDate_injective : Function.Injective textOfDate := by
  intro d e h
  have hmonth : ∀ d : Date, (padded 2 d.month).length = 2 := fun d =>
    length_padded_two (d.month_le.trans_lt (by decide))
  have hday : ∀ d : Date, (padded 2 d.day).length = 2 := fun d =>
    length_padded_two ((d.day_le.trans (daysIn_le _ _)).trans_lt (by decide))
  have hlist := String.ofList_inj.mp h
  rw [List.append_assoc, List.append_assoc] at hlist
  obtain ⟨hyear, htail⟩ := List.append_inj' hlist (by simp [hmonth, hday])
  obtain ⟨hm, hd⟩ := List.append_inj (List.cons.inj htail).2 (by simp [hmonth])
  exact Date.ext (appendInt_injective 4 hyear) (padded_injective 2 hm)
    (padded_injective 2 (List.cons.inj hd).2)

theorem textOfDate_ofDay_injective : Function.Injective fun D => textOfDate (.ofDay D) :=
  textOfDate_injective.comp dateEquiv.symm.injective

theorem dateText_ofUnix_inj {s s' : ℤ} :
    (ofUnix s loc).dateText = (ofUnix s' loc).dateText ↔ loc.clock.day s = loc.clock.day s' := by
  constructor
  · intro h
    rw [dateText, dateText, ofUnix_date, ofUnix_date] at h
    exact textOfDate_ofDay_injective h
  · intro h
    rw [dateText, dateText, ofUnix_date, ofUnix_date, h]

end Time

end CyberstalkMe.Go
