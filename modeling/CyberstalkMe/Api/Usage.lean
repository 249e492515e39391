import CyberstalkMe.Api.Snapshot
import CyberstalkMe.Foundations.ClockChanges
import CyberstalkMe.Store.Query
import CyberstalkMe.Usage.DaySlots

/-! # The usage handler

`GET /api/v1/usage` asks the store for the buckets from the first midnight of
the window to now. Whether these are the buckets of the last local days, and
whether the day slots are those days, depends on how the zone's changes lie
around the two ends of the window.
-/
namespace CyberstalkMe.Api

open Go Shared Store Usage Foundations

/-- The lower bound of a window of `days` local days, today included. -/
def usageFrom (loc : Zone) (now : Time) (days : ℕ) : Time :=
  let l := now.inLoc loc
  .ofDate l.date.year l.date.month (l.date.day - ((days : ℤ) - 1)) 0 0 loc

def toRow (s : UsageRow) : Row := ⟨s.deviceID, s.hourStart, s.state, s.app, s.description, s.seconds⟩

def usageRows (loc : Zone) (db : DB) (now : Time) (days : ℕ) (fails : Bool) :
    Except StoreError (List Row) :=
  (queryUsage db (usageFrom loc now days).utc now.utc fails).map fun stored => stored.map toRow

/-- `GET /api/v1/usage`. There is no answer when the day loop needs more than `fuel` turns. -/
def usage (loc : Zone) (db : DB) (now : Time) (window : String) (statesFail queryFails : Bool)
    (fuel : ℕ) : Option (Except Response UsageResponse) :=
  let window := if window = "" then windowToday else window
  match windowDays window with
  | none => some (.error (writeError 400 "window must be one of today, 7d, 30d"))
  | some days =>
    match listStates db statesFail with
    | .error _ => some (.error writeInternalError)
    | .ok states =>
      let devices := states.map fun s => (⟨s.deviceID, s.deviceName, s.deviceType⟩ : Usage.Device)
      match usageRows loc db now days queryFails with
      | .error _ => some (.error writeInternalError)
      | .ok rows =>
        (aggregate devices rows window (usageFrom loc now days).utc now.utc loc fuel).map .ok

/-! ### The last local days -/

/-- The local date of a time, as a day number. -/
def localDay (loc : Zone) (t : Time) : ℤ := (t.inLoc loc).date.toDay

def bucketRow (r : UsageKey × ℤ) : Row := toRow (.ofBucket r)

/-- The bucket's hour is before now, to the second, and falls on one of the last `days` local dates. -/
def inLastDays (loc : Zone) (now : Time) (days : ℕ) (r : Row) : Bool :=
  decide (r.hourStart.seconds < now.seconds ∧ localDay loc now - days < localDay loc r.hourStart ∧
    localDay loc r.hourStart ≤ localDay loc now)

/-- The rows passed to `aggregate` are the stored buckets of the last local days. -/
def RowsExact (loc : Zone) (db : DB) (now : Time) (days : ℕ) : Prop :=
  ∃ rows, usageRows loc db now days false = .ok rows ∧
    rows.Perm ((db.usageBucket.rows.map bucketRow).filter (inLastDays loc now days))

/-- The day loop over the window ends. -/
def DayLoopReturns (loc : Zone) (now : Time) (days : ℕ) : Prop :=
  ∃ rows fuel, (daySlots rows (usageFrom loc now days).utc now.utc loc fuel).isSome

/-- When `daySlots` returns, its slots are the last local days in order. -/
def SlotsExact (loc : Zone) (now : Time) (days : ℕ) : Prop :=
  ∀ rows fuel slots, daySlots rows (usageFrom loc now days).utc now.utc loc fuel = some slots →
    slots.map DayUsage.date =
      (List.range days).map fun k => Time.textOfDate (.ofDay (localDay loc now - days + 1 + (k : ℕ)))

/-- The window is the last local days: its rows, and for a window of several days its slots. -/
def UsageWindowExact (loc : Zone) (db : DB) (now : Time) (days : ℕ) : Prop :=
  RowsExact loc db now days ∧ (days ≠ 1 → SlotsExact loc now days)

def midnightOf (loc : SpacedZone) (D : ℤ) : Time := .ofUnix (loc.clock.midnight D) loc

variable (loc : SpacedZone)

/-- A stored hour before now shows a later date than now exactly when a change displaces it from the
window's first midnight. -/
def HoursPlaced (db : DB) (now : Time) (days : ℕ) : Prop :=
  ∀ r ∈ db.usageBucket.rows, hourOf r < now.seconds →
    (loc.clock.Displaced (86400 * (localDay loc now - days + 1)) (hourOf r) ↔
      86400 * (localDay loc now + 1) ≤ loc.clock.reading (hourOf r))

/-- No change moves the midnight of one of the last `days` local dates. -/
def DatesKept (now : Time) (days : ℕ) : Prop :=
  ∀ D, localDay loc now - days < D → D ≤ localDay loc now → ¬ loc.clock.Moved D

def secondBefore (t : Time) : ℤ := ceilSeconds t - 1

/-- The second before now shows a reading from today's midnight on and before tomorrow's, each of
them unless a change displaces it. -/
def NowPlaced (now : Time) : Prop :=
  (86400 * localDay loc now ≤ loc.clock.reading (secondBefore now) ↔
      ¬ loc.clock.Displaced (86400 * localDay loc now) (secondBefore now)) ∧
    (loc.clock.reading (secondBefore now) < 86400 * (localDay loc now + 1) ↔
      ¬ loc.clock.Displaced (86400 * (localDay loc now + 1)) (secondBefore now))

variable (now : Time)

theorem localDay_eq (t : Time) : localDay loc t = loc.clock.day t.seconds := by
  rw [localDay, Time.inLoc_date, Gregorian.Date.toDay_ofDay]

theorem usageFrom_eq (days : ℕ) :
    usageFrom loc now days = midnightOf loc (localDay loc now - days + 1) := by
  have h := now.ofDate_midnight loc (-((days : ℤ) - 1))
  have hday : localDay loc now - days + 1 = loc.clock.day now.seconds + -((days : ℤ) - 1) := by
    rw [localDay_eq]
    ring
  rw [midnightOf, hday, usageFrom, sub_eq_add_neg]
  exact h

@[simp] theorem midnightOf_seconds (D : ℤ) : (midnightOf loc D).seconds = loc.clock.midnight D :=
  Time.ofUnix_seconds loc _

theorem inLastDays_bucketRow (days : ℕ) (r : UsageKey × ℤ) :
    inLastDays loc now days (bucketRow r) = true ↔ hourOf r < now.seconds ∧
      localDay loc now - days < loc.clock.day (hourOf r) ∧ loc.clock.day (hourOf r) ≤ localDay loc now := by
  have hsec : (bucketRow r).hourStart.seconds = hourOf r := Time.ofSeconds_seconds _
  rw [inLastDays, decide_eq_true_eq, localDay_eq loc (bucketRow r).hourStart, hsec]

theorem rowsExact_iff {db : DB} (hdb : HoursStored db) {days : ℕ}
    (hfrom : (usageFrom loc now days).FourDigitYear) (hnow : now.FourDigitYear) :
    RowsExact loc db now days ↔ ∀ r ∈ db.usageBucket.rows,
      ((usageFrom loc now days).seconds ≤ hourOf r ∧ hourOf r < now.seconds ↔
        inLastDays loc now days (bucketRow r) = true) := by
  obtain ⟨stored, hquery, hperm⟩ := queryUsage_eq hdb.written (usageFrom loc now days).utc now.utc
  have hrows : usageRows loc db now days false = .ok (stored.map toRow) := by
    rw [usageRows, hquery]
    rfl
  have hpick : ∀ r ∈ db.usageBucket.rows, (inRange (usageFrom loc now days).utc now.utc r = true ↔
      (usageFrom loc now days).seconds ≤ hourOf r ∧ hourOf r < now.seconds) := fun r hr =>
    hdb.written.inRange_iff hr hfrom.2 hnow.2
  have hperm' := hperm.map toRow
  rw [List.map_map] at hperm'
  constructor
  · rintro ⟨rows, hrows', hexact⟩ r hr
    rw [hrows] at hrows'
    cases hrows'
    have hmem := (hperm'.symm.trans hexact).mem_iff (a := bucketRow r)
    rw [← hpick r hr]
    constructor
    · intro hin
      have h := hmem.mp (List.mem_map_of_mem (List.mem_filter.mpr ⟨hr, hin⟩))
      exact (List.mem_filter.mp h).2
    · intro hlast
      obtain ⟨r', hr', heq⟩ := List.mem_map.mp
        (hmem.mpr (List.mem_filter.mpr ⟨List.mem_map_of_mem hr, hlast⟩))
      obtain ⟨hr', hin⟩ := List.mem_filter.mp hr'
      have hhour : hourOf r' = hourOf r := by
        have h := congrArg (fun row : Row => row.hourStart.seconds) heq
        exact (Time.ofSeconds_seconds _).symm.trans (h.trans (Time.ofSeconds_seconds _))
      rw [hpick r hr, ← hhour]
      exact (hpick r' hr').mp hin
  · intro hsame
    refine ⟨stored.map toRow, hrows, hperm'.trans ?_⟩
    rw [List.filter_map]
    apply List.Perm.of_eq
    congr 1
    apply List.filter_congr
    intro r hr
    rw [Bool.eq_iff_iff, hpick r hr, hsame r hr]
    rfl

/-- An hour is selected exactly when it falls on the last local days, unless a change displaces it or
it shows a later date than now. -/
theorem selected_iff {days : ℕ} (hdays : 0 < days) {h : ℤ} :
    ((usageFrom loc now days).seconds ≤ h ↔
      localDay loc now - days < loc.clock.day h ∧ loc.clock.day h ≤ localDay loc now) ↔
    (loc.clock.Displaced (86400 * (localDay loc now - days + 1)) h ↔
      86400 * (localDay loc now + 1) ≤ loc.clock.reading h) := by
  rw [loc.clock.displaced_iff, usageFrom_eq, midnightOf_seconds, Clock.midnight, Clock.day]
  omega

theorem rowsExact_iff_hoursPlaced {db : DB} (hdb : HoursStored db) {days : ℕ} (hdays : 0 < days)
    (hfrom : (usageFrom loc now days).FourDigitYear) (hnow : now.FourDigitYear) :
    RowsExact loc db now days ↔ HoursPlaced loc db now days := by
  rw [rowsExact_iff loc now hdb hfrom hnow]
  apply forall₂_congr
  intro r hr
  rw [inLastDays_bucketRow]
  by_cases hlt : hourOf r < now.seconds
  · simp only [hlt, and_true, true_and, forall_const]
    exact selected_iff loc now hdays
  · simp only [hlt, and_false, false_and, false_imp_iff]

/-- Now lies after the instant for today's midnight and not after that for tomorrow's. -/
theorem nowPlaced_iff : NowPlaced loc now ↔ loc.clock.midnight (localDay loc now) < ceilSeconds now ∧
    ceilSeconds now ≤ loc.clock.midnight (localDay loc now + 1) := by
  rw [NowPlaced, secondBefore, loc.clock.displaced_iff, loc.clock.displaced_iff, Clock.midnight, Clock.midnight]
  omega

theorem ceilSeconds_le : ceilSeconds now ≤ now.seconds + 1 := by
  unfold Time.seconds ceilSeconds second
  omega

theorem map_textOfDate_eq_iff {n days : ℕ} {D : ℤ} {day : ℕ → ℤ} :
    ((List.range n).map fun k => Time.textOfDate (.ofDay (day k))) =
        (List.range days).map (fun k => Time.textOfDate (.ofDay (D + (k : ℕ)))) ↔
      n = days ∧ ∀ k < n, day k = D + (k : ℕ) := by
  constructor
  · intro h
    have hlen := congrArg List.length h
    rw [List.length_map, List.length_map, List.length_range, List.length_range] at hlen
    subst hlen
    refine ⟨rfl, fun k hk => ?_⟩
    exact Time.textOfDate_ofDay_injective (List.map_inj_left.mp h k (List.mem_range.mpr hk))
  · rintro ⟨rfl, h⟩
    apply List.map_congr_left
    intro k hk
    rw [h k (List.mem_range.mp hk)]

theorem dayLoopReturns_iff (loc : Location) {days : ℕ} (h : (usageFrom loc now days).nanos ≤ now.nanos) :
    DayLoopReturns loc now days ↔ MidnightsKept loc (usageFrom loc now days).utc now.utc :=
  daySlots_isSome_iff loc h

/-- The slots are the last local days when their midnights are in place, and now between the last two. -/
theorem slotsExact_iff {days : ℕ} (hdays : 1 < days) : SlotsExact loc now days ↔
    (DayLoopReturns loc now days → DatesKept loc now days ∧ NowPlaced loc now) := by
  have hstart : (usageFrom loc now days).utc.seconds = loc.clock.midnight (localDay loc now - days + 1) := by
    rw [Time.utc_seconds, usageFrom_eq, midnightOf_seconds]
  obtain ⟨n, hend, hbelow⟩ | hstuck := loc.clock.passes_or_stays (usageFrom loc now days).utc.seconds (ceilSeconds now.utc)
  · obtain ⟨hsome, hslots⟩ := daySlots_of_walk loc hend hbelow
    have hstop : ceilSeconds now.utc = ceilSeconds now := rfl
    rw [hstart] at hend hbelow hslots
    rw [hstop] at hend hbelow
    have hlong : localDay loc now - days + 1 < loc.clock.day now.seconds := by
      rw [localDay_eq]
      omega
    have hwalk := loc.clock.walk_days_iff hlong (ceilSeconds_le now) hend hbelow
    rw [← localDay_eq, ← nowPlaced_iff] at hwalk
    have hdates : (∀ F, localDay loc now - days + 1 ≤ F → F ≤ localDay loc now → ¬ loc.clock.Moved F) ↔
        DatesKept loc now days := Iff.rfl
    rw [hdates] at hwalk
    constructor
    · intro hexact _
      obtain ⟨slots, hs⟩ := Option.isSome_iff_exists.mp (hsome [] _ (Nat.lt_succ_self _))
      obtain ⟨hn, hdays⟩ := map_textOfDate_eq_iff.mp ((hslots [] _ slots hs).symm.trans (hexact [] _ slots hs))
      exact hwalk.mp ⟨by omega, hdays⟩
    · intro h rows fuel slots hs
      obtain ⟨hn, hdays⟩ := hwalk.mpr (h ⟨rows, fuel, by rw [hs]; rfl⟩)
      rw [hslots rows fuel slots hs]
      exact map_textOfDate_eq_iff.mpr ⟨by omega, hdays⟩
  · have hnone := daySlots_of_stuck loc hstuck
    constructor
    · rintro - ⟨rows, fuel, hsome⟩
      rw [hnone] at hsome
      cases hsome
    · intro _ rows fuel slots hs
      rw [hnone] at hs
      cases hs

theorem windowDays_eq_some {window : String} {days : ℕ} (h : windowDays window = some days) :
    days = 1 ∨ days = 7 ∨ days = 30 := by
  unfold windowDays at h
  split_ifs at h <;> simp_all

/-- The usage window is the last local days exactly when the hours and now are placed. -/
theorem usage_window_exact_iff {window : String} {days : ℕ} (hwindow : windowDays window = some days)
    {db : DB} (hdb : HoursStored db) (hfrom : (usageFrom loc now days).FourDigitYear)
    (hnow : now.FourDigitYear) :
    UsageWindowExact loc db now days ↔
      HoursPlaced loc db now days ∧
        (days ≠ 1 → DayLoopReturns loc now days → DatesKept loc now days ∧ NowPlaced loc now) := by
  rw [UsageWindowExact]
  rcases windowDays_eq_some hwindow with rfl | rfl | rfl
  · simp only [ne_eq, not_true_eq_false, false_imp_iff, and_true]
    exact rowsExact_iff_hoursPlaced loc now hdb (by decide) hfrom hnow
  · rw [rowsExact_iff_hoursPlaced loc now hdb (by decide) hfrom hnow,
      slotsExact_iff loc now (by decide)]
  · rw [rowsExact_iff_hoursPlaced loc now hdb (by decide) hfrom hnow,
      slotsExact_iff loc now (by decide)]

/-! ### A day with two midnights -/

/-- The clocks of Amman around 2021-10-29, when they went back from 01:00 to 00:00. -/
def amman : SpacedZone := ⟨⟨"Asia/Amman", 10800, [⟨63771055200, 7200⟩]⟩, by decide⟩

def firstHour : UsageKey × ℤ :=
  (⟨"d1", (Time.ofSeconds (17714181 * 3600)).format, .active, "Code", "Editing"⟩, 60)

def firstHourDB : DB := { DB.empty with usageBucket := ⟨[firstHour], by decide⟩ }

def thatNoon : Time := .ofSeconds 63771098400

theorem hoursStored_firstHourDB : HoursStored firstHourDB := by
  intro r hr
  rw [List.mem_singleton.mp hr]
  exact ⟨17714181, rfl, by decide +kernel⟩

theorem usage_window_exact_iff_sample : windowDays "7d" = some 7 ∧ HoursStored firstHourDB ∧
    (usageFrom amman thatNoon 7).FourDigitYear ∧ thatNoon.FourDigitYear ∧
    (UsageWindowExact amman firstHourDB thatNoon 7 ↔
      HoursPlaced amman firstHourDB thatNoon 7 ∧
        (7 ≠ 1 → DayLoopReturns amman thatNoon 7 → DatesKept amman thatNoon 7 ∧ NowPlaced amman thatNoon)) :=
  ⟨rfl, hoursStored_firstHourDB, by decide +kernel, by decide +kernel,
    usage_window_exact_iff amman thatNoon (rfl : windowDays "7d" = some 7) hoursStored_firstHourDB (by decide +kernel)
      (by decide +kernel)⟩

/-- The window of today starts at the second of its two midnights and leaves the hour before it out. -/
theorem first_hour_left_out : ¬ UsageWindowExact amman firstHourDB thatNoon 1 := by
  rintro ⟨⟨rows, hrows, hperm⟩, -⟩
  have hnone : usageRows amman firstHourDB thatNoon 1 false = .ok [] := by decide +kernel
  have hone : ((firstHourDB.usageBucket.rows.map bucketRow).filter
      (inLastDays amman thatNoon 1)).length = 1 := by decide +kernel
  rw [hnone] at hrows
  cases hrows
  rw [← hperm.length_eq] at hone
  cases hone

end CyberstalkMe.Api
