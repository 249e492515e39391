import CyberstalkMe.Store.Query
import CyberstalkMe.Foundations.Utf8

/-! # Retention

`pruneUsage` deletes the buckets before an instant, which it compares with the stored hours as
text. On years of four digits the order of the texts is the order of the instants.
-/
namespace CyberstalkMe.Store

open Go Foundations

/-- `WHERE hour_start < ?`. -/
def olderThan (beforeUTC : Time) (key : UsageKey) : Bool := decide (key.hourStart < beforeUTC.utc.format)

/-- The points at which the deletion can fail. -/
inductive PruneFault where
  | exec
  | rowsAffected
deriving DecidableEq, Repr

def deleteOlder (db : DB) (beforeUTC : Time) : DB :=
  { db with usageBucket := db.usageBucket.filterKeys fun key => !olderThan beforeUTC key }

/-- Delete the older buckets and count them. The rows are gone when only their count fails. -/
def pruneUsage (db : DB) (beforeUTC : Time) : Option PruneFault → DB × Except StoreError ℕ
  | some .exec => (db, .error .database)
  | some .rowsAffected => (deleteOlder db beforeUTC, .error .database)
  | none => (deleteOlder db beforeUTC, .ok (db.usageBucket.rows.countP fun r => olderThan beforeUTC r.1))

@[simp] theorem rows_deleteOlder (db : DB) (beforeUTC : Time) :
    (deleteOlder db beforeUTC).usageBucket.rows =
      db.usageBucket.rows.filter fun r => !olderThan beforeUTC r.1 := rfl

/-! ### The stored hours -/

theorem forall_addDeltas {P : UsageKey → Prop} {deviceID : String} {deltas : List UsageDelta}
    {table : KeyedTable UsageKey ℤ} (h : ∀ r ∈ table.rows, P r.1) (hdeltas : ∀ d ∈ deltas, P (d.key deviceID)) :
    ∀ r ∈ (deltas.foldl (addDelta deviceID) table).rows, P r.1 := by
  induction deltas generalizing table with
  | nil => exact h
  | cons d ds ih =>
    apply ih
    · exact KeyedTable.forall_upsert h (hdeltas d List.mem_cons_self) _ _
    · exact fun d' hd' => hdeltas d' (List.mem_cons_of_mem d hd')

/-- What holds of the stored keys and of the added ones holds after the transaction. -/
theorem forall_addUsage {P : UsageKey → Prop} {db db' : DB} {deviceID : String} {deltas : List UsageDelta}
    {fault : Option AddUsageFault} (h : ∀ r ∈ db.usageBucket.rows, P r.1)
    (hdeltas : ∀ d ∈ deltas, P (d.key deviceID)) (hadd : addUsage db deviceID deltas fault = .ok db') :
    ∀ r ∈ db'.usageBucket.rows, P r.1 := by
  rw [addUsage_eq] at hadd
  split_ifs at hadd
  cases hadd
  exact forall_addDeltas h hdeltas

namespace HoursWritten

theorem empty : HoursWritten DB.empty := by
  intro r hr
  cases hr

theorem addUsage {db db' : DB} {deviceID : String} {deltas : List UsageDelta} {fault : Option AddUsageFault}
    (h : HoursWritten db) (hdeltas : ∀ d ∈ deltas, d.hourStart.FourDigitYear)
    (hadd : addUsage db deviceID deltas fault = .ok db') : HoursWritten db' :=
  forall_addUsage (P := fun key => ∃ t : Time, key.hourStart = t.utc.format ∧ t.FourDigitYear) h
    (fun d hd => ⟨d.hourStart, rfl, hdeltas d hd⟩) hadd

theorem deleteOlder {db : DB} (h : HoursWritten db) (beforeUTC : Time) : HoursWritten (deleteOlder db beforeUTC) := by
  intro r hr
  exact h r (List.mem_of_mem_filter hr)

/-- The condition of the deletion in seconds. -/
theorem olderThan_iff {db : DB} (hdb : HoursWritten db) {r : UsageKey × ℤ} (hr : r ∈ db.usageBucket.rows)
    {beforeUTC : Time} (hbefore : beforeUTC.utc.year ≤ 9999) :
    olderThan beforeUTC r.1 = true ↔ hourOf r < beforeUTC.seconds := by
  rw [olderThan, decide_eq_true_eq, hdb.hourStart_lt_iff hr hbefore]

end HoursWritten

/-! ### Texts and instants -/

/-- The bytes of two texts stand in the order of the seconds they write. -/
def BytesChronological (a b : Time) : Prop :=
  (utf8Bytes a.utc.format < utf8Bytes b.utc.format ↔ a.seconds < b.seconds) ∧
    (utf8Bytes a.utc.format = utf8Bytes b.utc.format ↔ a.seconds = b.seconds)

/-- The query returns the buckets whose hours are in the range of seconds. -/
def QueriesSeconds (db : DB) (fromUTC toUTC : Time) : Prop :=
  ∃ rows, queryUsage db fromUTC toUTC false = .ok rows ∧ rows.Perm ((db.usageBucket.rows.filter fun r =>
    decide (fromUTC.seconds ≤ hourOf r ∧ hourOf r < toUTC.seconds)).map .ofBucket)

/-- The deletion removes the buckets whose hours are earlier seconds, and counts them. -/
def PrunesSeconds (db : DB) (beforeUTC : Time) : Prop :=
  ∃ db', pruneUsage db beforeUTC none =
      (db', .ok (db.usageBucket.rows.countP fun r => decide (hourOf r < beforeUTC.seconds))) ∧
    db'.devices = db.devices ∧ db'.deviceState = db.deviceState ∧
    db'.usageBucket.rows = db.usageBucket.rows.filter fun r => decide (beforeUTC.seconds ≤ hourOf r)

/-- The query of a range is that of its two parts, which have no bucket in common. -/
def QuerySplits (db : DB) (x y z : Time) : Prop :=
  ∃ before after rows, queryUsage db x y false = .ok before ∧ queryUsage db y z false = .ok after ∧
    queryUsage db x z false = .ok rows ∧ rows.Perm (before ++ after) ∧ before.Disjoint after

theorem bytesChronological {a b : Time} (ha : a.FourDigitYear) (hb : b.FourDigitYear) : BytesChronological a b := by
  constructor
  · rw [utf8Bytes_lt_iff, Time.format_lt_iff ha hb]
  · rw [utf8Bytes_inj, Time.format_utc_inj]

section
variable {db : DB} (hdb : HoursWritten db)
include hdb

theorem queriesSeconds {fromUTC toUTC : Time} (hfrom : fromUTC.FourDigitYear) (hto : toUTC.FourDigitYear) :
    QueriesSeconds db fromUTC toUTC := by
  obtain ⟨rows, hrows, hperm⟩ := queryUsage_eq hdb fromUTC toUTC
  refine ⟨rows, hrows, ?_⟩
  have hrange : db.usageBucket.rows.filter (inRange fromUTC toUTC) = db.usageBucket.rows.filter fun r =>
      decide (fromUTC.seconds ≤ hourOf r ∧ hourOf r < toUTC.seconds) := by
    apply List.filter_congr
    intro r hr
    rw [Bool.eq_iff_iff, hdb.inRange_iff hr hfrom.2 hto.2, decide_eq_true_eq]
  rwa [hrange] at hperm

theorem prunesSeconds {beforeUTC : Time} (hbefore : beforeUTC.FourDigitYear) : PrunesSeconds db beforeUTC := by
  have holder : ∀ r ∈ db.usageBucket.rows, olderThan beforeUTC r.1 = decide (hourOf r < beforeUTC.seconds) := by
    intro r hr
    rw [Bool.eq_iff_iff, hdb.olderThan_iff hr hbefore.2, decide_eq_true_eq]
  refine ⟨deleteOlder db beforeUTC, ?_, rfl, rfl, ?_⟩
  · rw [pruneUsage, List.countP_congr fun r hr => by rw [holder r hr]]
  · rw [rows_deleteOlder]
    apply List.filter_congr
    intro r hr
    rw [holder r hr, ← decide_not, decide_eq_decide, not_lt]

end

/-- The buckets of a range are those of its two parts. -/
theorem filter_seconds_perm (l : List (UsageKey × ℤ)) {x y z : ℤ} (hxy : x ≤ y) (hyz : y ≤ z) :
    (l.filter fun r => decide (x ≤ hourOf r ∧ hourOf r < z)).Perm
      ((l.filter fun r => decide (x ≤ hourOf r ∧ hourOf r < y)) ++
        l.filter fun r => decide (y ≤ hourOf r ∧ hourOf r < z)) := by
  have hparts := List.filter_append_perm (fun r => decide (hourOf r < y))
    (l.filter fun r => decide (x ≤ hourOf r ∧ hourOf r < z))
  rw [List.filter_filter, List.filter_filter] at hparts
  have hbefore : (l.filter fun r => decide (hourOf r < y) && decide (x ≤ hourOf r ∧ hourOf r < z)) =
      l.filter fun r => decide (x ≤ hourOf r ∧ hourOf r < y) := by
    apply List.filter_congr
    intro r _
    rw [← Bool.decide_and, decide_eq_decide]
    omega
  have hafter : (l.filter fun r => (!decide (hourOf r < y)) && decide (x ≤ hourOf r ∧ hourOf r < z)) =
      l.filter fun r => decide (y ≤ hourOf r ∧ hourOf r < z) := by
    apply List.filter_congr
    intro r _
    rw [← decide_not, ← Bool.decide_and, decide_eq_decide]
    omega
  rw [hbefore, hafter] at hparts
  exact hparts.symm

theorem hourStart_of_mem {db : DB} {rows : List UsageRow} {x y : ℤ} (hrows : rows.Perm
      ((db.usageBucket.rows.filter fun r => decide (x ≤ hourOf r ∧ hourOf r < y)).map .ofBucket))
    {row : UsageRow} (hrow : row ∈ rows) : x ≤ row.hourStart.seconds ∧ row.hourStart.seconds < y := by
  rw [hrows.mem_iff, List.mem_map] at hrow
  cases hrow with
  | intro r hr =>
    rw [← hr.2, UsageRow.ofBucket, Time.ofSeconds_seconds]
    exact of_decide_eq_true (List.mem_filter.mp hr.1).2

theorem querySplits {db : DB} (hdb : HoursWritten db) {x y z : Time} (hx : x.FourDigitYear)
    (hy : y.FourDigitYear) (hz : z.FourDigitYear) (hxy : x.nanos ≤ y.nanos) (hyz : y.nanos ≤ z.nanos) :
    QuerySplits db x y z := by
  obtain ⟨before, hbefore, hbeforePerm⟩ := queriesSeconds hdb hx hy
  obtain ⟨after, hafter, hafterPerm⟩ := queriesSeconds hdb hy hz
  obtain ⟨rows, hrows, hperm⟩ := queriesSeconds hdb hx hz
  refine ⟨before, after, rows, hbefore, hafter, hrows, ?_, ?_⟩
  · have hparts := (filter_seconds_perm db.usageBucket.rows (Time.seconds_mono hxy) (Time.seconds_mono hyz)).map
      UsageRow.ofBucket
    rw [List.map_append] at hparts
    exact hperm.trans (hparts.trans (hbeforePerm.append hafterPerm).symm)
  · intro row hrow hrow'
    have hlt := (hourStart_of_mem hbeforePerm hrow).2
    have hge := (hourStart_of_mem hafterPerm hrow').1
    omega

/-- On years of four digits the texts of instants are in the order of the instants, the query and the
deletion select by whole seconds, and a query splits at any instant within its range. -/
theorem text_comparison_chronological {db : DB} (hdb : HoursWritten db) {x y z : Time} (hx : x.FourDigitYear)
    (hy : y.FourDigitYear) (hz : z.FourDigitYear) :
    BytesChronological x y ∧ QueriesSeconds db x y ∧ PrunesSeconds db x ∧
      (x.nanos ≤ y.nanos → y.nanos ≤ z.nanos → QuerySplits db x y z) :=
  ⟨bytesChronological hx hy, queriesSeconds hdb hx hy, prunesSeconds hdb hx, querySplits hdb hx hy hz⟩

/-- Two buckets, of the hours before and after midnight of 2026-01-01. -/
def newYearDB : DB :=
  { DB.empty with usageBucket := ⟨[
      (⟨"pc", (Time.ofSeconds 63902818800).format, .active, "Code", "Editing"⟩, 1200),
      (⟨"pc", (Time.ofSeconds 63902822400).format, .active, "Code", "Editing"⟩, 900)], by decide +kernel⟩ }

theorem hoursWritten_newYearDB : HoursWritten newYearDB := by
  intro r hr
  rcases List.mem_cons.mp hr with rfl | hr
  · exact ⟨.ofSeconds 63902818800, rfl, by decide +kernel⟩
  · rw [List.mem_singleton.mp hr]
    exact ⟨.ofSeconds 63902822400, rfl, by decide +kernel⟩

theorem text_comparison_chronological_newYear :
    BytesChronological (.ofSeconds 63902818800) (.ofSeconds 63902822400) ∧
      QueriesSeconds newYearDB (.ofSeconds 63902818800) (.ofSeconds 63902822400) ∧
      PrunesSeconds newYearDB (.ofSeconds 63902818800) ∧
      QuerySplits newYearDB (.ofSeconds 63902818800) (.ofSeconds 63902822400) (.ofSeconds 63902826000) :=
  have h := text_comparison_chronological hoursWritten_newYearDB (x := .ofSeconds 63902818800)
    (y := .ofSeconds 63902822400) (z := .ofSeconds 63902826000) (by decide +kernel) (by decide +kernel) (by decide +kernel)
  ⟨h.1, h.2.1, h.2.2.1, h.2.2.2 (by decide) (by decide)⟩

end CyberstalkMe.Store
