import CyberstalkMe.Api.Usage
import CyberstalkMe.Store.Retention
import Mathlib.Tactic.LinearCombination

/-! # The retention sweep

The server deletes the buckets from before `retentionDays` times 24 hours ago, at startup and on
every tick. A usage window starts at a local midnight instead, so a window of as many days as are
kept can start before the deletion does: when the clock has gone back since.
-/
namespace CyberstalkMe.Server

open Go Store Api Usage Foundations

/-- `time.UTC`. -/
def utcZone : Zone := ⟨"UTC", 0, []⟩

/-- `now.UTC().AddDate(0, 0, -retentionDays)`; `time.Date` counts the seconds modulo 2^64. -/
def pruneBefore (now : Time) (retentionDays : ℤ) : Time :=
  let before := now.utc.addDate (-retentionDays) utcZone
  ⟨Int.bmod before.seconds (2 ^ 64) * second + before.nanos % second, before.offset⟩

/-- One sweep. A failed one is logged. -/
def prune (db : DB) (retentionDays : ℤ) (now : Time) (fault : Option PruneFault) : DB :=
  (pruneUsage db (pruneBefore now retentionDays) fault).1

inductive UsageStep where
  | add (deviceID : String) (deltas : List UsageDelta) (fault : Option AddUsageFault)
  | sweep (now : Time) (fault : Option PruneFault)

def UsageStep.isAdd : UsageStep → Bool
  | .add .. => true
  | .sweep .. => false

def UsageStep.apply (retentionDays : ℤ) (db : DB) : UsageStep → DB
  | .add deviceID deltas fault =>
    match addUsage db deviceID deltas fault with
    | .ok db' => db'
    | .error _ => db
  | .sweep now fault => Server.prune db retentionDays now fault

def runUsage (retentionDays : ℤ) (db : DB) (steps : List UsageStep) : DB :=
  steps.foldl (UsageStep.apply retentionDays) db

/-- Seconds are added to whole hours, and the sweeps are at instants up to `p`. -/
def UsageStep.UpTo (p : Time) : UsageStep → Prop
  | .add _ deltas _ => ∀ d ∈ deltas, ∃ H : ℤ, d.hourStart.utc = .ofSeconds (H * 3600) ∧ d.hourStart.FourDigitYear
  | .sweep now _ => 0 ≤ now.nanos ∧ now.nanos ≤ p.nanos

/-- With sweeps up to `p`, the rows of a window at `now` are those without any sweep. -/
def RowsKept (loc : Zone) (retentionDays : ℤ) (p now : Time) (days : ℕ) : Prop :=
  ∀ db steps fails, HoursStored db → (∀ st ∈ steps, UsageStep.UpTo p st) →
    usageRows loc (runUsage retentionDays db steps) now days fails =
      usageRows loc (runUsage retentionDays db (steps.filter UsageStep.isAdd)) now days fails

/-- No whole hour of the window is before the cutoff. -/
def Spared (loc : Zone) (before now : Time) (days : ℕ) : Prop :=
  ∀ H : ℤ, (usageFrom loc now days).seconds ≤ H * 3600 → H * 3600 < now.seconds → before.seconds ≤ H * 3600

/-- The offsets are within a day of UTC, and those within 31 days within an hour of each other. -/
structure HourlyShifts (loc : Zone) : Prop where
  bounded : ∀ t, -86400 ≤ (loc.lookup t).offset ∧ (loc.lookup t).offset ≤ 86400
  varies : ∀ s t, s ≤ t → t ≤ s + 31 * 86400 →
    (loc.lookup s).offset - 3600 ≤ (loc.lookup t).offset ∧ (loc.lookup t).offset ≤ (loc.lookup s).offset + 3600

/-- On the clock as it stands now, the window does not start before a midnight. -/
def StartsNoEarlier (loc : Zone) (now : Time) (days : ℕ) : Prop :=
  86400 * (localDay loc now - days + 1) ≤ (usageFrom loc now days).seconds + (loc.lookup now.seconds).offset

/-! ### The cutoff -/

theorem addDate_utcZone (t : Time) (days : ℤ) :
    t.utc.addDate days utcZone = ⟨t.nanos + days * 86400 * second, 0⟩ := by
  have hday := t.utc.day_secondOfDay
  have hlocal : t.utc.localSeconds = t.seconds := by simp [Time.localSeconds]
  have hsplit : t.seconds * second + t.nanos % second = t.nanos := by
    rw [mul_comm]
    exact Int.mul_ediv_add_emod t.nanos second
  rw [hlocal] at hday
  have hunix (u : ℤ) : utcZone.unix u = u := by simp [Zone.unix, Zone.lookup, utcZone, lookupFrom]
  rw [Time.addDate, Time.ofDate, hunix, dayNumber_add]
  simp only [Zone.lookup, utcZone, lookupFrom, Time.mk.injEq, and_true, Time.utc_nanos]
  linear_combination second * hday + hsplit

/-- Within the range of 64 bits the cutoff is that many seconds before. -/
theorem pruneBefore_seconds {p : Time} {retentionDays : ℤ} (hp : 0 ≤ p.seconds) (hp' : p.seconds < 2 ^ 62)
    (hR : 0 ≤ retentionDays) (hR' : retentionDays ≤ 10 ^ 14) :
    (pruneBefore p retentionDays).seconds = p.seconds - 86400 * retentionDays := by
  have hbefore : (p.utc.addDate (-retentionDays) utcZone).seconds = p.seconds - 86400 * retentionDays := by
    rw [addDate_utcZone]
    unfold Time.seconds second
    dsimp only
    omega
  have hround : (pruneBefore p retentionDays).seconds = Int.bmod (p.seconds - 86400 * retentionDays) (2 ^ 64) := by
    rw [pruneBefore, hbefore]
    unfold Time.seconds second
    dsimp only
    omega
  rw [hround]
  apply Int.bmod_eq_of_le <;> omega

/-- An instant with a four-digit year is far from the end of the 64 bits. -/
theorem seconds_lt_of_year_le {t : Time} (h : t.utc.year ≤ 9999) : t.seconds < 2 ^ 62 := by
  by_contra hle
  have hyear := Time.year_mono (t := .ofSeconds (2 ^ 62)) (u := t) (by rw [Time.ofSeconds_seconds]; omega)
  have hfar : 9999 < (Time.ofSeconds (2 ^ 62)).utc.year := by decide +kernel
  omega

/-! ### The start of a window -/

/-- `time.Date` subtracts the offset that is in force at the reading itself or at its first guess. -/
theorem unix_eq_sub (loc : Zone) (u : ℤ) : ∃ t, (t = u ∨ t = u - (loc.lookup u).offset) ∧
    loc.unix u = u - (loc.lookup t).offset := by
  unfold Zone.unix
  dsimp only
  split_ifs with h0 hout
  · exact ⟨u - (loc.lookup u).offset, .inr rfl, rfl⟩
  · exact ⟨u, .inl rfl, rfl⟩
  · refine ⟨u, .inl rfl, ?_⟩
    rw [not_not] at h0
    rw [h0, sub_zero]

theorem usageFrom_seconds (loc : Zone) (now : Time) (days : ℕ) :
    (usageFrom loc now days).seconds = loc.unix (86400 * (localDay loc now - days + 1)) := by
  have hdays : (now.inLoc loc).date.day - ((days : ℤ) - 1) = (now.inLoc loc).date.day + -((days : ℤ) - 1) :=
    sub_eq_add_neg _ _
  rw [usageFrom, hdays, Time.ofDate, dayNumber_add, localDay]
  unfold Time.seconds second
  dsimp only
  have hread : ((now.inLoc loc).date.toDay + -((days : ℤ) - 1)) * 86400 + 0 =
      86400 * ((now.inLoc loc).date.toDay - days + 1) := by ring
  rw [hread]
  omega

theorem localDay_bounds (loc : Zone) (now : Time) :
    86400 * localDay loc now ≤ now.seconds + (loc.lookup now.seconds).offset ∧
      now.seconds + (loc.lookup now.seconds).offset < 86400 * (localDay loc now + 1) := by
  have hday : localDay loc now = (now.seconds + (loc.lookup now.seconds).offset) / 86400 := by
    rw [localDay, Time.date, Gregorian.Date.toDay_ofDay]
    rfl
  omega

/-- The window starts within an hour of the midnight that the clock of now would give. -/
theorem startsNoEarlier_hour {loc : Zone} (hloc : HourlyShifts loc) (now : Time) {days : ℕ} (hdays : days ≤ 30) :
    86400 * (localDay loc now - days + 1) ≤
      (usageFrom loc now days).seconds + (loc.lookup now.seconds).offset + 3600 := by
  have hnow := localDay_bounds loc now
  have hb := hloc.bounded now.seconds
  rw [usageFrom_seconds]
  generalize hu : 86400 * (localDay loc now - days + 1) = u
  obtain ⟨t, ht, hunix⟩ := unix_eq_sub loc u
  have hvar (s : ℤ) (hs : now.seconds - 31 * 86400 ≤ s) (hs' : s ≤ now.seconds + 31 * 86400) :
      (loc.lookup s).offset ≤ (loc.lookup now.seconds).offset + 3600 ∧
        (loc.lookup now.seconds).offset ≤ (loc.lookup s).offset + 3600 := by
    rcases le_total s now.seconds with hle | hle
    · have h := hloc.varies s now.seconds hle (by omega)
      omega
    · have h := hloc.varies now.seconds s hle (by omega)
      omega
  have hguess := hvar u (by omega) (by omega)
  have hat : (loc.lookup t).offset ≤ (loc.lookup now.seconds).offset + 3600 := by
    rcases ht with rfl | rfl
    · exact hguess.1
    · exact (hvar _ (by omega) (by omega)).1
  rw [hunix]
  omega

/-- A cutoff of more days than the window has, or of as many when the clock has not gone back, is not
after the start of the window. -/
theorem spared_of {loc : Zone} (hloc : HourlyShifts loc) {now before : Time} {days : ℕ} {retentionDays : ℤ}
    (hdays : days ≤ 30) (hdays' : (days : ℤ) ≤ retentionDays)
    (hbefore : before.seconds ≤ now.seconds - 86400 * retentionDays)
    (h : (days : ℤ) < retentionDays ∨ StartsNoEarlier loc now days) : Spared loc before now days := by
  intro H hfrom hto
  have hnow := localDay_bounds loc now
  have hstart := startsNoEarlier_hour hloc now hdays
  rcases h with h | h
  · omega
  · unfold StartsNoEarlier at h
    omega

/-! ### Runs of the usage table -/

def inWindow (loc : Zone) (now : Time) (days : ℕ) (key : UsageKey) : Bool :=
  inRange (usageFrom loc now days).utc now.utc (key, 0)

theorem inWindow_iff {loc : Zone} {now : Time} {days : ℕ} {db : DB} (hdb : HoursStored db) {r : UsageKey × ℤ}
    (hr : r ∈ db.usageBucket.rows) (hfrom : (usageFrom loc now days).FourDigitYear) (hnow : now.FourDigitYear) :
    inWindow loc now days r.1 = true ↔ (usageFrom loc now days).seconds ≤ hourOf r ∧ hourOf r < now.seconds :=
  hdb.written.inRange_iff hr hfrom.2 hnow.2

theorem usageRows_congr {loc : Zone} {now : Time} {days : ℕ} {db db' : DB}
    (h : db.usageBucket.filterKeys (inWindow loc now days) = db'.usageBucket.filterKeys (inWindow loc now days))
    (fails : Bool) : usageRows loc db now days fails = usageRows loc db' now days fails := by
  have hrows : db.usageBucket.rows.filter (inRange (usageFrom loc now days).utc now.utc) =
      db'.usageBucket.rows.filter (inRange (usageFrom loc now days).utc now.utc) := congrArg KeyedTable.rows h
  rw [usageRows, usageRows, queryUsage, queryUsage, hrows]

theorem hoursStored_prune {db : DB} (h : HoursStored db) (retentionDays : ℤ) (now : Time)
    (fault : Option PruneFault) : HoursStored (prune db retentionDays now fault) := by
  intro r hr
  match fault with
  | some .exec => exact h r hr
  | some .rowsAffected | none => exact h r (List.mem_of_mem_filter hr)

theorem hoursStored_apply {db : DB} (h : HoursStored db) (retentionDays : ℤ) {p : Time} {st : UsageStep}
    (hst : st.UpTo p) : HoursStored (st.apply retentionDays db) := by
  cases st with
  | add deviceID deltas fault =>
    rw [UsageStep.apply]
    cases hadd : addUsage db deviceID deltas fault with
    | error e => exact h
    | ok db' =>
      apply forall_addUsage (P := fun key => ∃ H : ℤ, key.hourStart = (Time.ofSeconds (H * 3600)).format ∧
        (Time.ofSeconds (H * 3600)).FourDigitYear) h ?_ hadd
      intro d hd
      obtain ⟨H, hhour, hyear⟩ := hst d hd
      refine ⟨H, congrArg Time.format hhour, ?_⟩
      rw [← hhour]
      exact hyear
  | sweep now fault => exact hoursStored_prune h retentionDays now fault

/-- Adding the same seconds keeps two tables in step. -/
theorem addDeltas_filterKeys {q : UsageKey → Bool} {table table' : KeyedTable UsageKey ℤ}
    (h : table.filterKeys q = table'.filterKeys q) (deviceID : String) (deltas : List UsageDelta) :
    (deltas.foldl (addDelta deviceID) table).filterKeys q = (deltas.foldl (addDelta deviceID) table').filterKeys q := by
  induction deltas generalizing table table' with
  | nil => exact h
  | cons d ds ih =>
    apply ih
    rw [addDelta, addDelta, KeyedTable.filterKeys_upsert, KeyedTable.filterKeys_upsert, h]

theorem add_window {q : UsageKey → Bool} {db db' : DB} {retentionDays : ℤ}
    (h : db.usageBucket.filterKeys q = db'.usageBucket.filterKeys q) (deviceID : String) (deltas : List UsageDelta)
    (fault : Option AddUsageFault) :
    ((UsageStep.add deviceID deltas fault).apply retentionDays db).usageBucket.filterKeys q =
      ((UsageStep.add deviceID deltas fault).apply retentionDays db').usageBucket.filterKeys q := by
  rw [UsageStep.apply, UsageStep.apply, addUsage_eq, addUsage_eq]
  split_ifs
  · exact h
  · exact addDeltas_filterKeys h deviceID deltas

section Run
variable {loc : Zone} {p now : Time} {days : ℕ} {retentionDays : ℤ} (hp : p.nanos ≤ now.nanos)
  (hR : 0 ≤ retentionDays) (hR' : retentionDays ≤ 10 ^ 14) (hnow : now.FourDigitYear)
  (hfrom : (usageFrom loc now days).FourDigitYear) (hspared : Spared loc (pruneBefore p retentionDays) now days)
include hp hR hR' hnow hfrom hspared

theorem olderThan_eq_false {db : DB} (hdb : HoursStored db) {t : Time} (ht0 : 0 ≤ t.nanos) (ht : t.nanos ≤ p.nanos)
    {r : UsageKey × ℤ} (hr : r ∈ db.usageBucket.rows) (hin : inWindow loc now days r.1 = true) :
    olderThan (pruneBefore t retentionDays) r.1 = false := by
  have hpast : ∀ q : Time, 0 ≤ q.nanos → q.nanos ≤ now.nanos →
      (pruneBefore q retentionDays).seconds = q.seconds - 86400 * retentionDays := by
    intro q hq hq'
    have hle := Time.seconds_mono hq'
    have hfar := seconds_lt_of_year_le hnow.2
    exact pruneBefore_seconds (Int.ediv_nonneg hq (by decide)) (by omega) hR hR'
  have hbefore := hpast t ht0 (ht.trans hp)
  have hbefore' := hpast p (ht0.trans ht) hp
  have hle := Time.seconds_mono ht
  have hle' := Time.seconds_mono hp
  have hyear : (pruneBefore t retentionDays).utc.year ≤ 9999 :=
    (Time.year_mono (by omega : (pruneBefore t retentionDays).seconds ≤ now.seconds)).trans hnow.2
  have hrange := (inWindow_iff hdb hr hfrom hnow).mp hin
  rw [Bool.eq_false_iff, Ne, hdb.written.olderThan_iff hr hyear, not_lt]
  obtain ⟨H, htext, hH⟩ := hdb r hr
  have hhour : hourOf r = H * 3600 := by
    rw [hourOf_of_format (t := .ofSeconds (H * 3600)) (by rwa [Time.utc_ofSeconds]) hH, Time.ofSeconds_seconds]
  rw [hhour] at hrange ⊢
  have h := hspared H hrange.1 hrange.2
  omega

theorem prune_window {db : DB} (hdb : HoursStored db) {t : Time} (ht0 : 0 ≤ t.nanos) (ht : t.nanos ≤ p.nanos)
    (fault : Option PruneFault) :
    (prune db retentionDays t fault).usageBucket.filterKeys (inWindow loc now days) =
      db.usageBucket.filterKeys (inWindow loc now days) := by
  have hdeleted : (deleteOlder db (pruneBefore t retentionDays)).usageBucket.filterKeys (inWindow loc now days) =
      db.usageBucket.filterKeys (inWindow loc now days) := by
    apply KeyedTable.filterKeys_filterKeys
    intro r hr hin
    rw [olderThan_eq_false hp hR hR' hnow hfrom hspared hdb ht0 ht hr hin]
    rfl
  match fault with
  | some .exec => rfl
  | some .rowsAffected | none => exact hdeleted

theorem runUsage_window {steps : List UsageStep} (hsteps : ∀ st ∈ steps, UsageStep.UpTo p st) {db db' : DB}
    (hdb : HoursStored db)
    (h : db.usageBucket.filterKeys (inWindow loc now days) = db'.usageBucket.filterKeys (inWindow loc now days)) :
    (runUsage retentionDays db steps).usageBucket.filterKeys (inWindow loc now days) =
      (runUsage retentionDays db' (steps.filter UsageStep.isAdd)).usageBucket.filterKeys
        (inWindow loc now days) := by
  induction steps generalizing db db' with
  | nil => exact h
  | cons st rest ih =>
    have hst := hsteps st List.mem_cons_self
    have hrest : ∀ st ∈ rest, UsageStep.UpTo p st := fun st' hst' => hsteps st' (List.mem_cons_of_mem st hst')
    have hdb' := hoursStored_apply hdb retentionDays hst
    cases st with
    | add deviceID deltas fault => exact ih hrest hdb' (add_window h deviceID deltas fault)
    | sweep t fault =>
      exact ih hrest hdb' ((prune_window hp hR hR' hnow hfrom hspared hdb hst.1 hst.2 fault).trans h)

theorem rowsKept_of_spared : RowsKept loc retentionDays p now days := by
  intro db steps fails hdb hsteps
  exact usageRows_congr (runUsage_window hp hR hR' hnow hfrom hspared hsteps hdb rfl) fails

end Run

/-! ### A bucket that is lost -/

def oneBucket (H : ℤ) : DB :=
  { DB.empty with usageBucket := ⟨[(⟨"pc", (Time.ofSeconds (H * 3600)).format, .active, "Code", "Editing"⟩, 60)],
    List.nodup_singleton _⟩ }

theorem hoursStored_oneBucket {H : ℤ} (hH : (Time.ofSeconds (H * 3600)).FourDigitYear) :
    HoursStored (oneBucket H) := by
  intro r hr
  rw [List.mem_singleton.mp hr]
  exact ⟨H, rfl, hH⟩

section Bucket
variable {H : ℤ} (hH : (Time.ofSeconds (H * 3600)).FourDigitYear)
include hH

theorem hourOf_oneBucket {r : UsageKey × ℤ} (hr : r ∈ (oneBucket H).usageBucket.rows) : hourOf r = H * 3600 := by
  rw [List.mem_singleton.mp hr, hourOf_of_format (t := .ofSeconds (H * 3600)) rfl hH, Time.ofSeconds_seconds]

theorem usageRows_oneBucket {loc : Zone} {now : Time} {days : ℕ} (hnow : now.FourDigitYear)
    (hfrom : (usageFrom loc now days).FourDigitYear) (h : (usageFrom loc now days).seconds ≤ H * 3600)
    (h' : H * 3600 < now.seconds) : usageRows loc (oneBucket H) now days false ≠ .ok [] := by
  have hdb := hoursStored_oneBucket hH
  obtain ⟨rows, hrows, hperm⟩ := queryUsage_eq hdb.written (usageFrom loc now days).utc now.utc
  have hin : (oneBucket H).usageBucket.rows.filter (inRange (usageFrom loc now days).utc now.utc) =
      (oneBucket H).usageBucket.rows := by
    apply List.filter_eq_self.mpr
    intro r hr
    rw [← hourOf_oneBucket hH hr] at h h'
    exact (inWindow_iff hdb hr hfrom hnow).mpr ⟨h, h'⟩
  rw [hin] at hperm
  rw [usageRows, hrows]
  intro hnil
  have hlen : rows.length = 1 := hperm.length_eq
  simp only [Except.map, Except.ok.injEq, List.map_eq_nil_iff] at hnil
  rw [hnil] at hlen
  cases hlen

/-- A sweep with a later cutoff removes it. -/
theorem prune_oneBucket {before : Time} (hbefore : before.utc.year ≤ 9999) (h : H * 3600 < before.seconds) :
    (deleteOlder (oneBucket H) before).usageBucket.rows = [] := by
  rw [rows_deleteOlder, List.filter_eq_nil_iff]
  intro r hr
  have holder := ((hoursStored_oneBucket hH).written.olderThan_iff hr hbefore).mpr (by rwa [hourOf_oneBucket hH hr])
  simp [holder]

end Bucket

/-- A whole hour of the window before the cutoff is lost with the sweep. -/
theorem not_rowsKept {loc : Zone} {p now : Time} {days : ℕ} {retentionDays H : ℤ} (hp0 : 0 ≤ p.nanos)
    (hnow : now.FourDigitYear) (hfrom : (usageFrom loc now days).FourDigitYear)
    (hbefore : (pruneBefore p retentionDays).utc.year ≤ 9999) (hstart : (usageFrom loc now days).seconds ≤ H * 3600)
    (hstop : H * 3600 < now.seconds) (hlt : H * 3600 < (pruneBefore p retentionDays).seconds) :
    ¬ RowsKept loc retentionDays p now days := by
  intro h
  have hH : (Time.ofSeconds (H * 3600)).FourDigitYear := by
    constructor
    · exact hfrom.1.trans (Time.year_mono (by rwa [Time.ofSeconds_seconds]))
    · exact (Time.year_mono (by rw [Time.ofSeconds_seconds]; exact hstop.le)).trans hnow.2
  have hrun := h (oneBucket H) [.sweep p none] false (hoursStored_oneBucket hH) (by
    intro st hst
    rw [List.mem_singleton.mp hst]
    exact ⟨hp0, le_rfl⟩)
  have hnone : usageRows loc (runUsage retentionDays (oneBucket H) [.sweep p none]) now days false = .ok [] := by
    have hrows := prune_oneBucket hH hbefore hlt
    rw [usageRows, queryUsage, if_neg Bool.false_ne_true]
    change Except.map _ ((List.insertionSort rowOrder (List.filter _
      (deleteOlder (oneBucket H) (pruneBefore p retentionDays)).usageBucket.rows)).mapM decodeUsage) = _
    rw [hrows]
    rfl
  rw [hnone] at hrun
  exact usageRows_oneBucket hH hnow hfrom hstart hstop hrun.symm

/-! ### Windows and sweeps -/

/-- The sweeps up to `p` leave the rows of a usage window as they are exactly when the last cutoff passes
no whole hour of the window. They do so when more days are kept than the window has, and when as many are
kept and the clock has not gone back since the start of the window. -/
theorem window_rows_kept_iff {loc : Zone} (hloc : HourlyShifts loc) {retentionDays : ℤ} (hR : 30 ≤ retentionDays)
    (hR' : retentionDays ≤ 10 ^ 14) {p now : Time} (hp0 : 0 ≤ p.nanos) (hp : p.nanos ≤ now.nanos) {window : String}
    {days : ℕ} (hwindow : windowDays window = some days) (hnow : now.FourDigitYear)
    (hfrom : (usageFrom loc now days).FourDigitYear) :
    (RowsKept loc retentionDays p now days ↔ Spared loc (pruneBefore p retentionDays) now days) ∧
      ((days : ℤ) < retentionDays ∨ StartsNoEarlier loc now days → RowsKept loc retentionDays p now days) := by
  have hR0 : 0 ≤ retentionDays := by omega
  have hple := Time.seconds_mono hp
  have hbefore := pruneBefore_seconds (Int.ediv_nonneg hp0 (by decide))
    (hple.trans_lt (seconds_lt_of_year_le hnow.2)) hR0 hR'
  have hyear : (pruneBefore p retentionDays).utc.year ≤ 9999 :=
    (Time.year_mono (by omega : (pruneBefore p retentionDays).seconds ≤ now.seconds)).trans hnow.2
  have hdays : days ≤ 30 := by
    rcases windowDays_eq_some hwindow with rfl | rfl | rfl <;> decide
  constructor
  · constructor
    · intro hkept H hstart hstop
      by_contra hlt
      exact not_rowsKept hp0 hnow hfrom hyear hstart hstop (not_le.mp hlt) hkept
    · exact rowsKept_of_spared hp hR0 hR' hnow hfrom
  · intro h
    apply rowsKept_of_spared hp hR0 hR' hnow hfrom
    exact spared_of hloc hdays (by omega) (by omega) h

/-- The clocks of Berlin around 2026-10-25, when they went back from 03:00 to 02:00. -/
def berlin : Zone := ⟨"Europe/Berlin", 7200, [⟨63928486800, 3600⟩]⟩

theorem hourlyShifts_berlin : HourlyShifts berlin := by
  have hoffset (t : ℤ) : (berlin.lookup t).offset = if t < 63928486800 then 7200 else 3600 := by
    rw [Zone.lookup, lookupFrom_offset]
    rfl
  constructor
  · intro t
    rw [hoffset]
    split_ifs <;> omega
  · intro s t _ _
    rw [hoffset, hoffset]
    split_ifs <;> omega

/-- 23:30 in Berlin on 2026-11-20. -/
def lateEvening : Time := .ofSeconds 63930810600

theorem window_rows_kept_iff_berlin : RowsKept berlin 365 lateEvening lateEvening 30 :=
  (window_rows_kept_iff hourlyShifts_berlin (by decide) (by decide) (by decide) le_rfl (rfl : windowDays "30d" = some 30)
    (by decide +kernel) (by decide +kernel)).2 (.inl (by decide))

/-- 00:00 of 12360-01-02 in UTC. -/
def farFuture : Time := .ofSeconds 390012364800

/-- With 30 days kept, the first hour of the 30 days is lost once the clock has gone back. With more days
than seconds can be counted for, the cutoff is after now; and years of five digits are not in order. -/
theorem window_rows_lost : ¬ RowsKept berlin 30 lateEvening lateEvening 30 ∧
    ¬ RowsKept berlin 213503982334601 lateEvening lateEvening 1 ∧
    ¬ RowsKept utcZone 3783597 farFuture farFuture 30 := by
  refine ⟨?_, ?_, ?_⟩
  · apply not_rowsKept (H := 17757838) <;> decide +kernel
  · apply not_rowsKept (H := 17758558) <;> decide +kernel
  · intro h
    have hrun := h (oneBucket 10831000) [.sweep farFuture none] false (hoursStored_oneBucket (by decide +kernel)) (by
      intro st hst
      rw [List.mem_singleton.mp hst]
      exact ⟨by decide, le_rfl⟩)
    have hsome : usageRows utcZone (oneBucket 10831000) farFuture 30 false ≠ .ok [] := by decide +kernel
    have hnone : usageRows utcZone (runUsage 3783597 (oneBucket 10831000) [.sweep farFuture none]) farFuture 30 false =
        .ok [] := by decide +kernel
    rw [hnone] at hrun
    exact hsome hrun.symm

end CyberstalkMe.Server
