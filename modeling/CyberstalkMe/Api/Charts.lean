import CyberstalkMe.Api.Usage
import CyberstalkMe.Usage.Aggregation
import CyberstalkMe.Foundations.Json

/-! # The charts of the usage response

Rows fall into the slot of their own local hour or date; the slots of the dates
come from stepping between midnights. When the clock shows every midnight of the
window once, the steps reach the dates of all rows and no active second is lost.
-/
namespace CyberstalkMe.Api

open Go Shared Store Usage Foundations

/-- The slots of a chart hold the active rows: each counts in the one slot with its label and no other
row does, so that together they hold `total`. -/
structure Conserves {σ κ : Type} [DecidableEq κ] (label : σ → κ) (seconds : σ → ℤ) (key : Row → κ)
    (rows : List Row) (slots : List σ) (total : ℤ) : Prop where
  nodup : (slots.map label).Nodup
  covers : ∀ r ∈ activeRows rows, key r ∈ slots.map label
  holds : ∀ s ∈ slots, seconds s = secondsOf ((activeRows rows).filter (key · = label s))
  sum : (slots.map seconds).sum = total

def localHour (loc : Zone) (r : Row) : ℤ := ((r.hourStart.inLoc loc).secondOfDay / 3600 : ℕ)

def localDate (loc : Zone) (r : Row) : String := (r.hourStart.inLoc loc).dateText

theorem localDate_eq (loc : SpacedZone) (r : Row) :
    localDate loc r = Time.textOfDate (.ofDay (localDay loc r.hourStart)) := by
  rw [localDate, Time.dateText, Time.inLoc_date, localDay_eq]

/-- The chart of a device for its rows: the 24 hours of a day, or consecutive dates from `first` on. -/
structure Charted (loc : Zone) (window : String) (first : ℤ) (rows : List Row) (u : DeviceUsage) : Prop where
  hourly : window = windowToday → ∃ slots, u.hourly = .of slots ∧
    slots.map HourUsage.hour = (List.range 24).map Nat.cast ∧
    Conserves HourUsage.hour HourUsage.seconds (localHour loc) rows slots u.totals.activeSeconds
  daily : window ≠ windowToday → ∃ slots, u.daily = .of slots ∧
    (∃ n, 0 < n ∧ slots.map DayUsage.date =
      (List.range n).map fun k => Time.textOfDate (.ofDay (first + (k : ℕ)))) ∧
    Conserves DayUsage.date DayUsage.seconds (localDate loc) rows slots u.totals.activeSeconds

/-! ### Slots -/

theorem conserves_of_labels {σ κ : Type} [DecidableEq κ] {label : σ → κ} {seconds : σ → ℤ} {key : Row → κ}
    {rows : List Row} {slots : List σ} (hnodup : (slots.map label).Nodup)
    (hcovers : ∀ r ∈ activeRows rows, key r ∈ slots.map label)
    (hholds : ∀ s ∈ slots, seconds s = secondsOf ((activeRows rows).filter (key · = label s))) :
    Conserves label seconds key rows slots (secondsOf (activeRows rows)) where
  nodup := hnodup
  covers := hcovers
  holds := hholds
  sum := by
    have hsum := KeyedTable.sum_map_sum_filter key Row.seconds hnodup hcovers
    rw [List.map_map] at hsum
    rw [List.map_congr_left hholds]
    exact hsum

theorem hourRows_eq (loc : Zone) (rows : List Row) (hour : ℕ) :
    hourRows loc rows hour = (activeRows rows).filter (localHour loc · = hour) := by
  rw [hourRows, activeRows, List.filter_filter]
  apply List.filter_congr
  intro r _
  rw [localHour, Bool.and_comm]
  simp only [Nat.cast_inj]

theorem dayRows_eq (loc : Zone) (rows : List Row) (date : String) :
    dayRows loc rows date = (activeRows rows).filter (localDate loc · = date) := by
  rw [dayRows, activeRows, List.filter_filter]
  apply List.filter_congr
  intro r _
  rw [localDate, Bool.and_comm]

/-- The hours of the chart are those of a day, and every row falls on one of them. -/
theorem conserves_hourlySlots (loc : Zone) (rows : List Row) :
    (hourlySlots rows loc).map HourUsage.hour = (List.range 24).map Nat.cast ∧
      Conserves HourUsage.hour HourUsage.seconds (localHour loc) rows (hourlySlots rows loc)
        (secondsOf (activeRows rows)) := by
  have hhours : (hourlySlots rows loc).map HourUsage.hour = (List.range 24).map Nat.cast := by
    rw [hourlySlots_eq, List.map_map]
    rfl
  refine ⟨hhours, conserves_of_labels ?_ ?_ ?_⟩
  · rw [hhours]
    exact List.nodup_range.map Nat.cast_injective
  · intro r _
    have hlt := (r.hourStart.inLoc loc).secondOfDay_lt
    rw [hhours, localHour]
    exact List.mem_map_of_mem (List.mem_range.mpr (by omega))
  · intro s hs
    rw [hourlySlots_eq, List.mem_map] at hs
    obtain ⟨hour, -, rfl⟩ := hs
    rw [sumAndTop_addByApp_fst, hourRows_eq]

/-- The dates of the chart hold the rows when these fall on them. -/
theorem conserves_daySlots {loc : Zone} {rows : List Row} {start stop : Time} {fuel : ℕ} {slots : List DayUsage}
    (h : daySlots rows start stop loc fuel = some slots) (hnodup : (slots.map DayUsage.date).Nodup)
    (hcovers : ∀ r ∈ activeRows rows, localDate loc r ∈ slots.map DayUsage.date) :
    Conserves DayUsage.date DayUsage.seconds (localDate loc) rows slots (secondsOf (activeRows rows)) := by
  apply conserves_of_labels hnodup hcovers
  intro s hs
  rw [daySlots_eq, Option.map_eq_some_iff] at h
  obtain ⟨starts, -, rfl⟩ := h
  obtain ⟨date, -, rfl⟩ := List.mem_map.mp hs
  rw [sumAndTop_addByApp_fst, dayRows_eq]

/-! ### The dates of the window -/

section Window
variable {loc : SpacedZone} {now : Time} {days : ℕ}
variable (honce : loc.clock.Once (localDay loc now - days + 1) (localDay loc now + 1))
include honce

/-- The window starts at an instant of its first date. -/
theorem localDay_usageFrom : localDay loc (usageFrom loc now days) = localDay loc now - days + 1 := by
  obtain ⟨t, ht, -⟩ := honce _ le_rfl (by omega)
  rw [localDay_eq, usageFrom_eq, midnightOf_seconds]
  exact loc.clock.day_midnight_of_reading (loc.clock.reading_resolve_of_reading ht)

theorem exists_dates : ∃ n ≤ days, ceilSeconds now ≤ loc.clock.midnight (localDay loc now - days + 1 + n) ∧
    ∀ k < n, loc.clock.midnight (localDay loc now - days + 1 + (k : ℕ)) < ceilSeconds now := by
  have hlast : ceilSeconds now ≤ loc.clock.midnight (localDay loc now - days + 1 + days) := by
    have hafter := loc.clock.midnight_le_iff_of_unique (honce (localDay loc now + 1) (by omega) le_rfl) now.seconds
    have hcast : localDay loc now - days + 1 + days = localDay loc now + 1 := by ring
    rw [← localDay_eq] at hafter
    rw [hcast]
    unfold ceilSeconds Time.seconds second at *
    omega
  have hex : ∃ n : ℕ, ceilSeconds now ≤ loc.clock.midnight (localDay loc now - days + 1 + n) := ⟨days, hlast⟩
  exact ⟨Nat.find hex, Nat.find_min' hex hlast, Nat.find_spec hex, fun k hk => not_le.mp (Nat.find_min hex hk)⟩

theorem day_of_window {n : ℕ} (hn : n ≤ days)
    (hend : ceilSeconds now ≤ loc.clock.midnight (localDay loc now - days + 1 + n)) {t : Time}
    (hfrom : (usageFrom loc now days).nanos ≤ t.nanos) (hto : t.nanos < now.nanos) :
    localDay loc now - days + 1 ≤ localDay loc t ∧ localDay loc t < localDay loc now - days + 1 + n := by
  have hfirst := loc.clock.midnight_le_iff_of_unique (honce _ le_rfl (by omega)) t.seconds
  have hlast := loc.clock.midnight_le_iff_of_unique
    (honce (localDay loc now - days + 1 + n) (by omega) (by omega)) t.seconds
  rw [usageFrom_eq, midnightOf, Time.ofUnix_nanos] at hfrom
  rw [localDay_eq loc t]
  constructor
  · rw [← hfirst]
    unfold Time.seconds second at *
    omega
  · rw [← not_le, ← hlast]
    unfold ceilSeconds Time.seconds second at *
    omega

/-- A window of several dates starts before now. -/
theorem midnight_lt_ceilSeconds (hdays : 1 < days) :
    loc.clock.midnight (localDay loc now - days + 1) < ceilSeconds now := by
  obtain ⟨x, hx, -⟩ := honce _ le_rfl (by omega)
  have hfirst := loc.clock.day_midnight_of_reading (loc.clock.reading_resolve_of_reading hx)
  have hsecond := loc.clock.midnight_le_iff_of_unique (honce (localDay loc now - days + 1 + 1) (by omega) (by omega))
  have hbefore := not_le.mp (mt (hsecond _).mp (by rw [hfirst]; omega))
  have hreach := (hsecond now.seconds).mpr (by rw [← localDay_eq]; omega)
  exact (hbefore.trans_le hreach).trans_le (seconds_le_ceilSeconds le_rfl)

theorem daySlots_of_once : ∃ n ≤ days, ceilSeconds now ≤ loc.clock.midnight (localDay loc now - days + 1 + n) ∧
    (1 < days → 0 < n) ∧
    (∀ rows fuel, n < fuel → (daySlots rows (usageFrom loc now days).utc now.utc loc fuel).isSome) ∧
    ∀ rows fuel slots, daySlots rows (usageFrom loc now days).utc now.utc loc fuel = some slots →
      slots.map DayUsage.date = (List.range n).map fun k =>
        Time.textOfDate (.ofDay (localDay loc now - days + 1 + (k : ℕ))) := by
  obtain ⟨n, hn, hend, hbelow⟩ := exists_dates honce
  have hday : loc.clock.day (usageFrom loc now days).utc.seconds = localDay loc now - days + 1 := by
    rw [Time.utc_seconds, ← localDay_eq, localDay_usageFrom honce]
  have hwalk : ∀ k ≤ n, loc.clock.walk (usageFrom loc now days).utc.seconds k =
        loc.clock.midnight (localDay loc now - days + 1 + k) ∧
      loc.clock.day (loc.clock.walk (usageFrom loc now days).utc.seconds k) = localDay loc now - days + 1 + k := by
    intro k hk
    rw [← hday]
    exact loc.clock.walk_of_once (fun F h1 h2 => honce F (by omega) (by omega)) hk
  have hstop : ceilSeconds now.utc = ceilSeconds now := rfl
  have hpassed : ceilSeconds now.utc ≤ loc.clock.walk (usageFrom loc now days).utc.seconds n := by
    rwa [(hwalk n le_rfl).1, hstop]
  obtain ⟨hsome, hdates⟩ := daySlots_of_walk loc hpassed fun k hk => by
    rw [(hwalk k hk.le).1, hstop]
    exact hbelow k hk
  refine ⟨n, hn, hend, ?_, hsome, ?_⟩
  · intro hdays
    by_contra hzero
    rw [Nat.eq_zero_of_not_pos hzero, Nat.cast_zero, add_zero] at hend
    exact absurd (midnight_lt_ceilSeconds honce hdays) (not_lt.mpr hend)
  · intro rows fuel slots hslots
    rw [hdates rows fuel slots hslots]
    apply List.map_congr_left
    intro k hk
    rw [(hwalk k (List.mem_range.mp hk).le).2]

end Window

/-! ### The response -/

theorem one_lt_windowDays {window : String} {days : ℕ} (h : windowDays window = some days)
    (htoday : window ≠ windowToday) : 1 < days := by
  rw [windowDays, if_neg htoday] at h
  split_ifs at h <;> cases h <;> decide

theorem isSome_aggregate {devices : List Usage.Device} {rows : List Row} {w : String} {start stop : Time} {loc : Zone}
    {fuel : ℕ} (h : ∀ rows, (daySlots rows start stop loc fuel).isSome) :
    (aggregate devices rows w start stop loc fuel).isSome := by
  have hall : ((sortDevices devices).mapM fun d =>
      aggregateDevice d (rows.filter fun r => r.deviceID = d.deviceID) w start stop loc fuel).isSome := by
    rw [Json.isSome_mapM, List.all_eq_true]
    intro d _
    rw [aggregateDevice]
    split_ifs
    · rfl
    · rw [Option.isSome_map]
      exact h _
  obtain ⟨usages, husages⟩ := Option.isSome_iff_exists.mp hall
  rw [aggregate, ← sortDevices, husages]
  rfl

section Response
variable {loc : SpacedZone} {now : Time} {window : String} {days : ℕ} {devices : List Usage.Device} {rows : List Row}
variable (hwindow : windowDays window = some days)
variable (honce : loc.clock.Once (localDay loc now - days + 1) (localDay loc now + 1))
include hwindow honce

theorem charted_aggregateDevice {d : Usage.Device} {fuel : ℕ} {u : DeviceUsage}
    (hrows : ∀ r ∈ rows, (usageFrom loc now days).nanos ≤ r.hourStart.nanos ∧ r.hourStart.nanos < now.nanos)
    (hd : aggregateDevice d rows window (usageFrom loc now days).utc now.utc loc fuel = some u) :
    Charted loc window (localDay loc (usageFrom loc now days)) rows u := by
  obtain ⟨n, hn, hend, hpos, -, hdates⟩ := daySlots_of_once honce
  obtain ⟨-, htotals, -, hslots⟩ := aggregateDevice_eq_some hd
  have hactive : u.totals.activeSeconds = secondsOf (activeRows rows) := by
    rw [htotals, foldl_addTotals]
    rfl
  constructor
  · intro htoday
    rw [if_pos htoday] at hslots
    exact ⟨_, hslots.1, hactive ▸ conserves_hourlySlots loc rows⟩
  · intro htoday
    rw [if_neg htoday] at hslots
    obtain ⟨-, slots, hdaily, hslots⟩ := hslots
    have hlist := hdates rows fuel slots hslots
    refine ⟨slots, hdaily, ⟨n, hpos (one_lt_windowDays hwindow htoday), ?_⟩, hactive ▸ conserves_daySlots hslots ?_ ?_⟩
    · rw [localDay_usageFrom honce]
      exact hlist
    · rw [hlist]
      apply List.nodup_range.map
      exact Time.textOfDate_ofDay_injective.comp ((add_right_injective _).comp Nat.cast_injective)
    · intro r hr
      obtain ⟨hfrom, hto⟩ := hrows r (List.mem_filter.mp hr).1
      obtain ⟨hfirst, hlast⟩ := day_of_window honce hn hend hfrom hto
      rw [hlist, List.mem_map]
      refine ⟨(localDay loc r.hourStart - (localDay loc now - days + 1)).toNat, List.mem_range.mpr (by omega), ?_⟩
      rw [localDate_eq, Int.toNat_of_nonneg (by omega), add_sub_cancel]

theorem charted_aggregate {fuel : ℕ} {r : UsageResponse}
    (hrows : ∀ r ∈ rows, (usageFrom loc now days).nanos ≤ r.hourStart.nanos ∧ r.hourStart.nanos < now.nanos)
    (hr : aggregate devices rows window (usageFrom loc now days).utc now.utc loc fuel = some r) :
    ∃ usages, r.devices = .of usages ∧ (usages.map deviceOf).Perm devices ∧
      ∀ u ∈ usages, Charted loc window (localDay loc (usageFrom loc now days))
        (rows.filter (·.deviceID = u.deviceID)) u := by
  obtain ⟨usages, husages, hall⟩ := aggregate_eq_some hr
  refine ⟨usages, husages, map_deviceOf hall ▸ List.perm_insertionSort _ devices, fun u hu => ?_⟩
  obtain ⟨d, hd⟩ := aggregateDevice_of_mem hall hu
  exact charted_aggregateDevice hwindow honce (fun r hr => hrows r (List.mem_filter.mp hr).1) hd

end Response

/-- The charts conserve time when the clock shows every midnight of the window and the one after it once. -/
theorem charts_conserve (loc : SpacedZone) (now : Time) {window : String} {days : ℕ}
    (hwindow : windowDays window = some days)
    (honce : loc.clock.Once (localDay loc now - days + 1) (localDay loc now + 1))
    (devices : List Usage.Device) (rows : List Row)
    (hrows : ∀ r ∈ rows, (usageFrom loc now days).nanos ≤ r.hourStart.nanos ∧ r.hourStart.nanos < now.nanos) :
    (∃ n, ∀ fuel, n < fuel →
      (aggregate devices rows window (usageFrom loc now days).utc now.utc loc fuel).isSome) ∧
    ∀ fuel r, aggregate devices rows window (usageFrom loc now days).utc now.utc loc fuel = some r →
      ∃ usages, r.devices = .of usages ∧ (usages.map deviceOf).Perm devices ∧
        ∀ u ∈ usages, Charted loc window (localDay loc (usageFrom loc now days))
          (rows.filter (·.deviceID = u.deviceID)) u := by
  obtain ⟨n, -, -, -, hsome, -⟩ := daySlots_of_once honce
  constructor
  · exact ⟨n, fun fuel hfuel => isSome_aggregate fun rows => hsome rows fuel hfuel⟩
  · intro fuel r hr
    exact charted_aggregate hwindow honce hrows hr

/-! ### A week in which the clocks go forward -/

/-- The clocks of London around 2026-03-29, when they went from 01:00 to 02:00. -/
def londonSpring : SpacedZone := ⟨⟨"Europe/London", 0, [⟨63910342800, 3600⟩]⟩, by decide⟩

def springNoon : Time := .ofSeconds 63910468800

/-- The hours on either side of the change, and the last one of the day before. -/
def springRows : List Row :=
  [⟨"d1", .ofSeconds 63910339200, .active, "Code", "Editing", 60⟩, ⟨"d1", .ofSeconds 63910342800, .active, "Mail", "", 90⟩,
    ⟨"d1", .ofSeconds 63910335600, .idle, "Code", "Editing", 30⟩]

theorem londonSpring_once (D E : ℤ) : londonSpring.clock.Once D E := by
  intro F _ _
  have hreading : ∀ t, londonSpring.clock.reading t = t + if t < 63910342800 then 0 else 3600 := fun _ => rfl
  simp only [hreading]
  refine ⟨if 86400 * F < 63910342800 then 86400 * F else 86400 * F - 3600, ?_, fun t ht => ?_⟩
  · dsimp only
    split_ifs <;> omega
  · dsimp only at ht
    split_ifs at ht ⊢ <;> omega

theorem charts_conserve_springRows : windowDays "7d" = some 7 ∧
    (∀ r ∈ springRows, (usageFrom londonSpring springNoon 7).nanos ≤ r.hourStart.nanos ∧
      r.hourStart.nanos < springNoon.nanos) ∧
    ∃ fuel r usages, aggregate [⟨"d1", "Desk", "pc"⟩] springRows "7d" (usageFrom londonSpring springNoon 7).utc
        springNoon.utc londonSpring fuel = some r ∧ r.devices = .of usages ∧
      ∀ u ∈ usages, Charted londonSpring "7d" (localDay londonSpring (usageFrom londonSpring springNoon 7))
        (springRows.filter (·.deviceID = u.deviceID)) u := by
  have hrows : ∀ r ∈ springRows, (usageFrom londonSpring springNoon 7).nanos ≤ r.hourStart.nanos ∧
      r.hourStart.nanos < springNoon.nanos := by decide +kernel
  have hwindow : windowDays "7d" = some 7 := rfl
  obtain ⟨⟨n, hsome⟩, hcharts⟩ := charts_conserve londonSpring springNoon hwindow (londonSpring_once _ _)
    [⟨"d1", "Desk", "pc"⟩] springRows hrows
  obtain ⟨r, hr⟩ := Option.isSome_iff_exists.mp (hsome (n + 1) (Nat.lt_succ_self n))
  obtain ⟨usages, husages, -, hall⟩ := hcharts (n + 1) r hr
  exact ⟨hwindow, hrows, n + 1, r, usages, hr, husages, hall⟩

/-! ### The handler -/

theorem usage_eq_ok {loc : Zone} {db : DB} {now : Time} {window : String} {statesFail queryFails : Bool} {fuel : ℕ}
    {r : UsageResponse} (h : usage loc db now window statesFail queryFails fuel = some (.ok r)) :
    ∃ days devices rows, windowDays (if window = "" then windowToday else window) = some days ∧
      usageRows loc db now days queryFails = .ok rows ∧
      aggregate devices rows (if window = "" then windowToday else window) (usageFrom loc now days).utc now.utc loc
        fuel = some r := by
  rw [usage] at h
  dsimp only at h
  split at h
  · cases h
  · rename_i days hdays
    split at h
    · cases h
    · split at h
      · cases h
      · rename_i rows hrows
        obtain ⟨r', hr, heq⟩ := Option.map_eq_some_iff.mp h
        cases heq
        exact ⟨days, _, rows, hdays, hrows, hr⟩

/-- The rows that the handler aggregates lie in its window. -/
theorem usageRows_bounds {loc : SpacedZone} {db : DB} (hdb : HoursStored db) {now : Time} {days : ℕ}
    (hfrom : (usageFrom loc now days).FourDigitYear) (hnow : now.FourDigitYear) {fails : Bool} {rows : List Row}
    (h : usageRows loc db now days fails = .ok rows) {r : Row} (hr : r ∈ rows) :
    (usageFrom loc now days).nanos ≤ r.hourStart.nanos ∧ r.hourStart.nanos < now.nanos := by
  cases fails with
  | true => cases h
  | false =>
    obtain ⟨stored, hquery, hperm⟩ := queryUsage_eq hdb.written (usageFrom loc now days).utc now.utc
    rw [usageRows, hquery] at h
    cases h
    obtain ⟨s, hs, rfl⟩ := List.mem_map.mp hr
    obtain ⟨b, hb, rfl⟩ := List.mem_map.mp (hperm.subset hs)
    obtain ⟨hmem, hin⟩ := List.mem_filter.mp hb
    have hhour : (usageFrom loc now days).seconds ≤ hourOf b ∧ hourOf b < now.seconds :=
      (hdb.written.inRange_iff hmem hfrom.2 hnow.2).mp hin
    rw [usageFrom_eq, midnightOf_seconds] at hhour
    have hstart : (toRow (.ofBucket b)).hourStart.nanos = hourOf b * second := rfl
    rw [hstart, usageFrom_eq, midnightOf, Time.ofUnix_nanos]
    unfold Time.seconds second at *
    omega

theorem usage_charted {loc : SpacedZone} {db : DB} (hdb : HoursStored db) {now : Time} {window : String} {days : ℕ}
    (hwindow : windowDays (if window = "" then windowToday else window) = some days)
    (honce : loc.clock.Once (localDay loc now - days + 1) (localDay loc now + 1))
    (hfrom : (usageFrom loc now days).FourDigitYear) (hnow : now.FourDigitYear) {statesFail queryFails : Bool}
    {fuel : ℕ} {r : UsageResponse} (h : usage loc db now window statesFail queryFails fuel = some (.ok r)) :
    ∃ rows usages, usageRows loc db now days queryFails = .ok rows ∧ r.devices = .of usages ∧
      ∀ u ∈ usages, Charted loc (if window = "" then windowToday else window)
        (localDay loc (usageFrom loc now days)) (rows.filter (·.deviceID = u.deviceID)) u := by
  obtain ⟨days', devices, rows, hdays, hrows, hr⟩ := usage_eq_ok h
  rw [hwindow] at hdays
  cases hdays
  obtain ⟨usages, husages, -, hall⟩ :=
    charted_aggregate hwindow honce (fun r hr => usageRows_bounds hdb hfrom hnow hrows hr) hr
  exact ⟨rows, usages, hrows, husages, hall⟩

end CyberstalkMe.Api
