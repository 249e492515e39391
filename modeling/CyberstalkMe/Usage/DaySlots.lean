import CyberstalkMe.Usage.Aggregate

/-! # The day loop

`daySlots` steps from midnight to midnight through `time.Date`. A midnight that
the zone skips is resolved to the day before when the zone is west of UTC, and
the loop does not get past it; with every midnight on its way kept it visits
each day once.
-/
namespace CyberstalkMe.Usage

open Go Shared Foundations Gregorian

section Spaced
variable (loc : SpacedZone)

theorem startOfDay_eq (t : Time) : startOfDay t loc = .ofUnix (loc.clock.startOfDay t.seconds) loc := by
  have h := t.ofDate_midnight loc 0
  rw [add_zero, add_zero] at h
  exact h

/-- One turn of the loop on the clock of the location. -/
theorem startOfDay_addDate (s : ℤ) :
    startOfDay ((Time.ofUnix s loc).addDate 1 loc) loc = .ofUnix (loc.clock.nextDay s) loc := by
  rw [startOfDay_eq, Time.addDate_ofUnix, Time.ofUnix_seconds, Clock.nextDay]

/-- The loop variable of `daySlots` after `n` turns. -/
def loopDay (start : Time) : ℕ → Time
  | 0 => startOfDay start loc
  | n + 1 => startOfDay ((loopDay start n).addDate 1 loc) loc

theorem loopDay_eq (start : Time) (n : ℕ) :
    loopDay loc start n = .ofUnix (loc.clock.walk start.seconds n) loc := by
  induction n with
  | zero => exact startOfDay_eq loc start
  | succ n ih => rw [loopDay, ih, startOfDay_addDate, Clock.walk_succ]

def ceilSeconds (t : Time) : ℤ := -(-t.nanos / second)

theorem before_iff (s : ℤ) (t : Time) : (Time.ofUnix s loc).before t = true ↔ s < ceilSeconds t := by
  unfold Time.before ceilSeconds
  rw [decide_eq_true_eq, Time.ofUnix_nanos]
  unfold second
  omega

theorem ofUnix_before_ofUnix (s s' : ℤ) :
    (Time.ofUnix s loc).before (.ofUnix s' loc) = true ↔ s < s' := by
  unfold Time.before
  rw [decide_eq_true_eq, Time.ofUnix_nanos, Time.ofUnix_nanos]
  unfold second
  omega

theorem seconds_le_ceilSeconds {t u : Time} (h : t.nanos ≤ u.nanos) : t.seconds ≤ ceilSeconds u := by
  unfold Time.seconds ceilSeconds second
  omega

/-! ### The turns that the loop makes -/

/-- The loop returns the loop variable of its turns once it has passed `stop`. -/
theorem dayStarts_eq {start stop : Time} {n : ℕ} (hbelow : ∀ k < n, (loopDay loc start k).before stop)
    (hend : ¬ (loopDay loc start n).before stop) {fuel : ℕ} (hfuel : n < fuel) :
    dayStarts stop loc fuel (startOfDay start loc) = some ((List.range n).map (loopDay loc start)) := by
  have hfrom : ∀ m ≤ n, ∀ fuel, m < fuel →
      dayStarts stop loc fuel (loopDay loc start (n - m)) =
        some ((List.range' (n - m) m).map (loopDay loc start)) := by
    intro m
    induction m with
    | zero =>
      rintro - (- | fuel) hfuel
      · cases hfuel
      · rw [dayStarts, Nat.sub_zero, if_neg hend]
        rfl
    | succ m ih =>
      rintro hm (- | fuel) hfuel
      · cases hfuel
      · have hnext : startOfDay ((loopDay loc start (n - (m + 1))).addDate 1 loc) loc =
            loopDay loc start (n - m) := by
          change loopDay loc start (n - (m + 1) + 1) = _
          congr 1
          omega
        have hrange : List.range' (n - (m + 1)) (m + 1) = (n - (m + 1)) :: List.range' (n - m) m := by
          rw [List.range'_succ]
          congr 2
          omega
        rw [dayStarts, if_pos (hbelow _ (by omega)), hnext, ih (by omega) fuel (by omega), hrange]
        rfl
  have h := hfrom n le_rfl fuel hfuel
  rw [Nat.sub_self, ← List.range_eq_range'] at h
  exact h

theorem dayStarts_eq_none {start stop : Time} (hbelow : ∀ k, (loopDay loc start k).before stop)
    (fuel : ℕ) : dayStarts stop loc fuel (startOfDay start loc) = none := by
  have hfrom : ∀ k, dayStarts stop loc fuel (loopDay loc start k) = none := by
    induction fuel with
    | zero => exact fun _ => rfl
    | succ fuel ih =>
      intro k
      have hnext : startOfDay ((loopDay loc start k).addDate 1 loc) loc = loopDay loc start (k + 1) := rfl
      rw [dayStarts, if_pos (hbelow k), hnext, ih]
      rfl
  exact hfrom 0

/-- More fuel does not change a result. -/
theorem dayStarts_succ {stop : Time} {fuel : ℕ} {cur : Time} {starts : List Time}
    (h : dayStarts stop loc fuel cur = some starts) : dayStarts stop loc (fuel + 1) cur = some starts := by
  induction fuel generalizing cur starts with
  | zero => cases h
  | succ fuel ih =>
    rw [dayStarts] at h ⊢
    split_ifs at h ⊢
    · obtain ⟨rest, hrest, rfl⟩ := Option.map_eq_some_iff.mp h
      rw [ih hrest]
      rfl
    · exact h

theorem dayStarts_add {stop : Time} {fuel : ℕ} {cur : Time} {starts : List Time}
    (h : dayStarts stop loc fuel cur = some starts) (k : ℕ) :
    dayStarts stop loc (fuel + k) cur = some starts := by
  induction k with
  | zero => exact h
  | succ k ih => exact dayStarts_succ loc ih

theorem map_date_daySlots (rows : List Row) {start stop : Time} {fuel : ℕ} {starts : List Time}
    (h : dayStarts stop loc fuel (startOfDay start loc) = some starts) :
    ∃ slots, daySlots rows start stop loc fuel = some slots ∧
      slots.map DayUsage.date = starts.map Time.dateText := by
  rw [daySlots, h]
  exact ⟨_, rfl, List.map_map⟩

/-- `daySlots` returns the days of the turns that the loop makes before the walk has passed `stop`. -/
theorem daySlots_of_walk {start stop : Time} {n : ℕ} (hend : ceilSeconds stop ≤ loc.clock.walk start.seconds n)
    (hbelow : ∀ k < n, loc.clock.walk start.seconds k < ceilSeconds stop) :
    (∀ rows fuel, n < fuel → (daySlots rows start stop loc fuel).isSome) ∧
      ∀ rows fuel slots, daySlots rows start stop loc fuel = some slots →
        slots.map DayUsage.date =
          (List.range n).map fun k => Time.textOfDate (.ofDay (loc.clock.day (loc.clock.walk start.seconds k))) := by
  have hstop : ¬ (loopDay loc start n).before stop := by
    rwa [loopDay_eq, before_iff, not_lt]
  have hturn : ∀ k < n, (loopDay loc start k).before stop := fun k hk => by
    rw [loopDay_eq, before_iff]
    exact hbelow k hk
  constructor
  · intro rows fuel hfuel
    rw [daySlots, dayStarts_eq loc hturn hstop hfuel]
    rfl
  · intro rows fuel slots hslots
    rw [daySlots, Option.map_eq_some_iff] at hslots
    obtain ⟨starts, hstarts, rfl⟩ := hslots
    have hlong := dayStarts_add loc hstarts (n + 1)
    rw [dayStarts_eq loc hturn hstop (by omega), Option.some.injEq] at hlong
    rw [← hlong, List.map_map, List.map_map]
    apply List.map_congr_left
    intro k _
    simp only [Function.comp_apply, Time.dateText]
    rw [loopDay_eq, Time.ofUnix_date]

theorem daySlots_of_stuck {start stop : Time} (h : ∀ k, loc.clock.walk start.seconds k < ceilSeconds stop)
    (rows : List Row) (fuel : ℕ) : daySlots rows start stop loc fuel = none := by
  have hbelow : ∀ k, (loopDay loc start k).before stop := fun k => by
    rw [loopDay_eq, before_iff]
    exact h k
  rw [daySlots, dayStarts_eq_none loc hbelow]
  rfl

end Spaced

variable (loc : Location)

/-! ### When the loop ends -/

/-- The day loop ends: the loop variable grows until it has passed `stop`, and `daySlots` returns
the dates of its turns, none of them twice. -/
def DayLoopEnds (start stop : Time) : Prop :=
  ∃ n, ¬ (loopDay loc start n).before stop ∧
    (∀ k < n, (loopDay loc start k).before stop ∧ (loopDay loc start k).before (loopDay loc start (k + 1))) ∧
    ∀ rows fuel, n < fuel → ∃ slots, daySlots rows start stop loc fuel = some slots ∧
      slots.map DayUsage.date = (List.range n).map (fun k => (loopDay loc start k).dateText) ∧
      (slots.map DayUsage.date).Nodup

/-- Every local midnight on the way of the loop is kept: neither the day of `start` nor a later one
whose preceding midnight is before `stop` has a midnight that the zone skips at an instant later
than that midnight read as UTC. -/
def MidnightsKept (start stop : Time) : Prop :=
  ∀ D, loc.clock.day start.seconds ≤ D →
    (D = loc.clock.day start.seconds ∨ (Time.ofUnix (loc.clock.midnight (D - 1)) loc).before stop) →
      ¬ loc.clock.Lost (86400 * D)

theorem midnightsKept_iff {start stop : Time} :
    MidnightsKept loc start stop ↔ loc.clock.Kept start.seconds (ceilSeconds stop) := by
  simp only [MidnightsKept, Clock.Kept, before_iff]

theorem dayLoopEnds_iff_climbs {start stop : Time} :
    DayLoopEnds loc start stop ↔ loc.clock.Climbs start.seconds (ceilSeconds stop) := by
  constructor
  · rintro ⟨n, hend, hclimb, hslots⟩
    obtain ⟨slots, -, hdates, hnodup⟩ := hslots [] (n + 1) (Nat.lt_succ_self n)
    rw [loopDay_eq, before_iff, not_lt] at hend
    refine ⟨n, hend, fun k hk => ?_, fun j hj k hk hjk => ?_⟩
    · have h := hclimb k hk
      rwa [loopDay_eq, loopDay_eq, before_iff, ofUnix_before_ofUnix] at h
    · rw [hdates] at hnodup
      apply List.inj_on_of_nodup_map hnodup (List.mem_range.mpr hj) (List.mem_range.mpr hk)
      rw [loopDay_eq, loopDay_eq, Time.dateText_ofUnix_inj, hjk]
  · rintro ⟨n, hend, hclimb, hdays⟩
    have hstop : ¬ (loopDay loc start n).before stop := by
      rwa [loopDay_eq, before_iff, not_lt]
    have hbelow : ∀ k < n, (loopDay loc start k).before stop := fun k hk => by
      rw [loopDay_eq, before_iff]
      exact (hclimb k hk).1
    refine ⟨n, hstop, fun k hk => ⟨hbelow k hk, ?_⟩, fun rows fuel hfuel => ?_⟩
    · rw [loopDay_eq, loopDay_eq, ofUnix_before_ofUnix]
      exact (hclimb k hk).2
    · obtain ⟨slots, hslots, hdates⟩ :=
        map_date_daySlots loc rows (dayStarts_eq loc hbelow hstop hfuel)
      rw [List.map_map] at hdates
      refine ⟨slots, hslots, hdates, ?_⟩
      rw [hdates]
      refine List.nodup_range.map_on fun j hj k hk hjk => ?_
      apply hdays j (List.mem_range.mp hj) k (List.mem_range.mp hk)
      rwa [Function.comp_apply, Function.comp_apply, loopDay_eq, loopDay_eq,
        Time.dateText_ofUnix_inj] at hjk

/-- The loop ends exactly when the midnights on its way are kept; otherwise it never returns. -/
theorem day_loop_ends_iff {start stop : Time} (h : start.nanos ≤ stop.nanos) :
    (DayLoopEnds loc start stop ↔ MidnightsKept loc start stop) ∧
      (¬ MidnightsKept loc start stop → ∀ rows fuel, daySlots rows start stop loc fuel = none) := by
  have hle := seconds_le_ceilSeconds h
  rw [midnightsKept_iff]
  constructor
  · rw [dayLoopEnds_iff_climbs, loc.clock.climbs_iff hle]
  · exact fun hlost => daySlots_of_stuck loc (loc.clock.walk_lt_of_not_kept hle hlost)

/-- Where no change exceeds half a day, it is the lost midnights that keep `daySlots` from returning. -/
theorem daySlots_isSome_iff {start stop : Time} (h : start.nanos ≤ stop.nanos) :
    (∃ rows fuel, (daySlots rows start stop loc fuel).isSome) ↔ MidnightsKept loc start stop := by
  rw [midnightsKept_iff]
  constructor
  · rintro ⟨rows, fuel, hsome⟩
    by_contra hlost
    have hstuck := loc.clock.walk_lt_of_not_kept (seconds_le_ceilSeconds h) hlost
    rw [daySlots_of_stuck loc hstuck] at hsome
    cases hsome
  · intro hkept
    obtain ⟨n, ⟨hend, hbelow⟩, -⟩ := loc.clock.walk_of_kept hkept
    exact ⟨[], n + 1, (daySlots_of_walk loc hend hbelow).1 [] (n + 1) (Nat.lt_succ_self n)⟩

/-- The clocks of São Paulo around 2018-11-04, when the local midnight was skipped. -/
def saoPaulo : Location := ⟨⟨⟨"America/Sao_Paulo", -10800, [⟨63676897200, -7200⟩]⟩, by decide⟩, by decide⟩

/-- From noon of that day to an hour later. -/
theorem day_loop_ends_iff_sample :
    (Time.ofSeconds 63676936800).nanos ≤ (Time.ofSeconds 63676940400).nanos ∧
      (DayLoopEnds saoPaulo (.ofSeconds 63676936800) (.ofSeconds 63676940400) ↔
        MidnightsKept saoPaulo (.ofSeconds 63676936800) (.ofSeconds 63676940400)) :=
  ⟨by decide, (day_loop_ends_iff saoPaulo (by decide)).1⟩

/-- The loop starts at 23:00 of the day before, and its next midnight is the same instant. -/
theorem day_loop_stands_still :
    ¬ DayLoopEnds saoPaulo (.ofSeconds 63676936800) (.ofSeconds 63676940400) := by
  rintro ⟨n, hend, hclimb, -⟩
  cases n with
  | zero => exact hend (by decide +kernel)
  | succ n => exact absurd (hclimb 0 (Nat.succ_pos n)).2 (by decide +kernel)

end CyberstalkMe.Usage
