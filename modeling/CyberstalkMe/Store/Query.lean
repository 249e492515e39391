import CyberstalkMe.Store.Spec
import CyberstalkMe.Go.Timestamps

/-! # The usage query

`queryUsage` selects the buckets of a range by comparing their hours as text.
-/
namespace CyberstalkMe.Store

open Go Shared Foundations

/-- A stored bucket as it is returned. -/
structure UsageRow where
  deviceID : String
  hourStart : Time
  state : UsageState
  app : String
  description : String
  seconds : ℤ
deriving DecidableEq, Repr

def decodeUsage (r : UsageKey × ℤ) : Except StoreError UsageRow := do
  let hourStart ← parseColumn "hour_start" r.1.deviceID r.1.hourStart
  .ok ⟨r.1.deviceID, hourStart, r.1.state, r.1.app, r.1.description, r.2⟩

/-- `WHERE hour_start >= ? AND hour_start < ?`. -/
def inRange (fromUTC toUTC : Time) (r : UsageKey × ℤ) : Bool :=
  decide (fromUTC.utc.format ≤ r.1.hourStart ∧ r.1.hourStart < toUTC.utc.format)

/-- `ORDER BY device_id, hour_start`. -/
def rowOrder (a b : UsageKey × ℤ) : Prop :=
  a.1.deviceID < b.1.deviceID ∨ a.1.deviceID = b.1.deviceID ∧ a.1.hourStart ≤ b.1.hourStart

instance : DecidableRel rowOrder := fun _ _ => inferInstanceAs (Decidable (_ ∨ _))

/-- The buckets of a range of hours. One hour that cannot be parsed fails the whole query. -/
def queryUsage (db : DB) (fromUTC toUTC : Time) (fails : Bool) : Except StoreError (List UsageRow) :=
  if fails then .error .database
  else ((db.usageBucket.rows.filter (inRange fromUTC toUTC)).insertionSort rowOrder).mapM decodeUsage

/-- Every stored hour is the text of a whole hour with a four-digit year. -/
def HoursStored (db : DB) : Prop :=
  ∀ r ∈ db.usageBucket.rows, ∃ H : ℤ,
    r.1.hourStart = (Time.ofSeconds (H * 3600)).format ∧ (Time.ofSeconds (H * 3600)).FourDigitYear

/-- Every stored hour is the text of an instant with a four-digit year. -/
def HoursWritten (db : DB) : Prop :=
  ∀ r ∈ db.usageBucket.rows, ∃ t : Time, r.1.hourStart = t.utc.format ∧ t.FourDigitYear

theorem HoursStored.written {db : DB} (hdb : HoursStored db) : HoursWritten db := by
  intro r hr
  obtain ⟨H, htext, hyear⟩ := hdb r hr
  refine ⟨.ofSeconds (H * 3600), ?_, hyear⟩
  rwa [Time.utc_ofSeconds]

def hourOf (r : UsageKey × ℤ) : ℤ := ((Time.parse r.1.hourStart).getD default).seconds

def UsageRow.ofBucket (r : UsageKey × ℤ) : UsageRow :=
  ⟨r.1.deviceID, .ofSeconds (hourOf r), r.1.state, r.1.app, r.1.description, r.2⟩

theorem hourOf_of_format {r : UsageKey × ℤ} {t : Time} (htext : r.1.hourStart = t.utc.format) (ht : t.FourDigitYear) :
    hourOf r = t.seconds := by
  rw [hourOf, htext, Time.parse_format ht.1 ht.2, Option.getD_some, Time.ofSeconds_seconds]

namespace HoursWritten
variable {db : DB} (hdb : HoursWritten db) {r : UsageKey × ℤ} (hr : r ∈ db.usageBucket.rows)
include hdb hr

theorem decode_eq : decodeUsage r = .ok (.ofBucket r) := by
  obtain ⟨t, htext, ht⟩ := hdb r hr
  rw [UsageRow.ofBucket, hourOf_of_format htext ht, decodeUsage, parseColumn, htext, Time.parse_format ht.1 ht.2]
  rfl

theorem hourStart_lt_iff {t : Time} (ht : t.utc.year ≤ 9999) : r.1.hourStart < t.utc.format ↔ hourOf r < t.seconds := by
  obtain ⟨u, htext, hu⟩ := hdb r hr
  rw [htext, hourOf_of_format htext hu, Time.format_lt_iff_of_year_le hu ht]

theorem inRange_iff {fromUTC toUTC : Time} (hfrom : fromUTC.utc.year ≤ 9999) (hto : toUTC.utc.year ≤ 9999) :
    inRange fromUTC toUTC r = true ↔ fromUTC.seconds ≤ hourOf r ∧ hourOf r < toUTC.seconds := by
  rw [inRange, decide_eq_true_eq, ← not_lt, hdb.hourStart_lt_iff hr hfrom, hdb.hourStart_lt_iff hr hto, not_lt]

end HoursWritten

theorem queryUsage_eq {db : DB} (hdb : HoursWritten db) (fromUTC toUTC : Time) :
    ∃ rows, queryUsage db fromUTC toUTC false = .ok rows ∧
      rows.Perm ((db.usageBucket.rows.filter (inRange fromUTC toUTC)).map .ofBucket) := by
  refine ⟨((db.usageBucket.rows.filter (inRange fromUTC toUTC)).insertionSort rowOrder).map .ofBucket,
    ?_, (List.perm_insertionSort _ _).map _⟩
  rw [queryUsage, if_neg Bool.false_ne_true, mapM_eq_ok, List.forall₂_map_right_iff, List.forall₂_same]
  intro r hr
  rw [List.mem_insertionSort] at hr
  exact hdb.decode_eq (List.mem_of_mem_filter hr)

end CyberstalkMe.Store
