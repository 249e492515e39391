import CyberstalkMe.Store.Tables

/-! # What the statements do

One lemma for each statement says when it succeeds and what it leaves behind or
returns, so that the callers' proofs never unfold a statement.
-/
namespace CyberstalkMe.Store

open Go Shared Foundations

theorem decodeState_eq_ok {id : String} {d : DeviceRow} {s : StateRecord} {r : StateRow} :
    decodeState id d s = .ok r ↔
      ∃ p reportedAt lastSeenAt, unmarshal s.lastReportJSON = some p ∧
        Time.parse s.reportedAt = some reportedAt ∧ Time.parse s.lastSeenAt = some lastSeenAt ∧
        r = ⟨id, d.deviceName, d.deviceType, p, reportedAt, lastSeenAt⟩ := by
  unfold decodeState parseColumn
  cases unmarshal s.lastReportJSON with
  | none => simp
  | some p =>
    cases Time.parse s.reportedAt with
    | none => simp [bind, Except.bind]
    | some reportedAt =>
      cases Time.parse s.lastSeenAt with
      | none => simp [bind, Except.bind]
      | some lastSeenAt => simp [bind, Except.bind, eq_comm]

/-! ### One device -/

/-- The text in `last_seen_at`, when the device has reported. -/
def DB.lastSeen (db : DB) (id : String) : Option String :=
  (db.deviceState.lookup id).map StateRecord.lastSeenAt

/-- The instant that the text decodes to. -/
def DB.lastSeenAt (db : DB) (id : String) : Option Time := (db.lastSeen id).bind Time.parse

theorem lookup_upsert_const {κ ρ : Type*} [DecidableEq κ] (t : KeyedTable κ ρ) (j k : κ) (r : ρ) :
    (t.upsert k r fun _ => r).lookup j = if j = k then some r else t.lookup j := by
  rw [KeyedTable.lookup_upsert]
  cases t.lookup k <;> rfl

theorem getState_eq_ok {db : DB} {id : String} {fails : Bool} {row : StateRow} :
    getState db id fails = .ok row ↔
      fails = false ∧ ∃ d, db.devices.lookup id = some d ∧
        (db.deviceState.lookup id = none ∧
            row = ⟨id, d.deviceName, d.deviceType, default, default, default⟩ ∨
          ∃ s, db.deviceState.lookup id = some s ∧ decodeState id d s = .ok row) := by
  unfold getState
  cases fails with
  | true => simp
  | false =>
    cases db.devices.lookup id with
    | none => simp
    | some d => cases db.deviceState.lookup id <;> simp [eq_comm]

/-- What `getState` reads as the last observation: nothing before the first report, and then the
instant whose text is stored. -/
theorem getState_lastSeen {db : DB} {id : String} {fails : Bool} {row : StateRow} {t : Time}
    (h : getState db id fails = .ok row) (ht : db.lastSeen id = some t.utc.format) :
    row.lastSeenAt = Time.ofSeconds t.seconds ∧
      ∃ s, db.deviceState.lookup id = some s ∧ unmarshal s.lastReportJSON = some row.payload := by
  rcases getState_eq_ok.mp h with ⟨-, d, -, ⟨hnone, -⟩ | ⟨s, hs, hdec⟩⟩
  · simp [DB.lastSeen, hnone] at ht
  · obtain ⟨p, reportedAt, lastSeenAt, hp, -, hlast, rfl⟩ := decodeState_eq_ok.mp hdec
    rw [DB.lastSeen, hs, Option.map_some, Option.some.injEq] at ht
    rw [ht] at hlast
    exact ⟨Time.eq_of_parse_format hlast, s, hs, hp⟩

/-! ### The listing -/

theorem mapM_eq_ok {α β ε : Type} (f : α → Except ε β) {l : List α} {bs : List β} :
    l.mapM f = .ok bs ↔ List.Forall₂ (fun a b => f a = .ok b) l bs := by
  induction l generalizing bs with
  | nil => simp [pure, Except.pure, eq_comm]
  | cons a l ih =>
    rw [List.mapM_cons, List.forall₂_cons_left_iff]
    cases ha : f a with
    | error e => simp [bind, Except.bind]
    | ok b =>
      cases hl : l.mapM f with
      | error e => simp [bind, Except.bind, ← ih, hl]
      | ok cs => simp [bind, Except.bind, pure, Except.pure, ← ih, hl, eq_comm]

theorem mem_joinedStates {db : DB} {r : String × DeviceRow × StateRecord} :
    r ∈ joinedStates db ↔ db.devices.lookup r.1 = some r.2.1 ∧ db.deviceState.lookup r.1 = some r.2.2 := by
  obtain ⟨id, d, s⟩ := r
  simp only [joinedStates, List.mem_insertionSort, List.mem_filterMap, Option.map_eq_some_iff,
    Prod.exists, Prod.mk.injEq, KeyedTable.lookup_eq_some (t := db.devices)]
  constructor
  · rintro ⟨id', d', hd, s', hs, rfl, rfl, rfl⟩
    exact ⟨hd, hs⟩
  · rintro ⟨hd, hs⟩
    exact ⟨id, d, hd, s, hs, rfl, rfl, rfl⟩

/-- No device is listed twice. -/
theorem nodup_joinedStates (db : DB) : ((joinedStates db).map Prod.fst).Nodup := by
  have hperm := (List.perm_insertionSort (fun a b : String × DeviceRow × StateRecord => a.1 ≤ b.1)
    (db.devices.rows.filterMap fun r => (db.deviceState.lookup r.1).map fun s => (r.1, r.2, s))).map
      Prod.fst
  refine hperm.nodup_iff.mpr (List.Nodup.sublist ?_ db.devices.nodup)
  rw [List.map_filterMap]
  induction db.devices.rows with
  | nil => exact List.Sublist.slnil
  | cons r rows ih =>
    cases hr : db.deviceState.lookup r.1 with
    | none => simpa [hr] using List.Sublist.cons r.1 ih
    | some s => simpa [hr] using ih

theorem listStates_eq_ok {db : DB} {fails : Bool} {rows : List StateRow} :
    listStates db fails = .ok rows ↔
      fails = false ∧ List.Forall₂ (fun r row => decodeState r.1 r.2.1 r.2.2 = .ok row)
        (joinedStates db) rows := by
  cases fails <;> simp [listStates, mapM_eq_ok]

theorem decodeState_deviceID {id : String} {d : DeviceRow} {s : StateRecord} {row : StateRow}
    (h : decodeState id d s = .ok row) : row.deviceID = id := by
  obtain ⟨p, reportedAt, lastSeenAt, -, -, -, rfl⟩ := decodeState_eq_ok.mp h
  rfl

theorem mem_listStates {db : DB} {fails : Bool} {rows : List StateRow}
    (h : listStates db fails = .ok rows) {row : StateRow} :
    row ∈ rows ↔ ∃ d s, db.devices.lookup row.deviceID = some d ∧
      db.deviceState.lookup row.deviceID = some s ∧ decodeState row.deviceID d s = .ok row := by
  have hall := (listStates_eq_ok.mp h).2
  constructor
  · intro hrow
    obtain ⟨i, hi, rfl⟩ := List.mem_iff_getElem.mp hrow
    have hi' : i < (joinedStates db).length := hall.length_eq ▸ hi
    have hdec := List.Forall₂.get hall hi' hi
    obtain ⟨hd, hs⟩ := mem_joinedStates.mp (List.getElem_mem hi')
    simp only [List.get_eq_getElem] at hdec
    have hid := decodeState_deviceID hdec
    rw [← hid] at hd hs hdec
    exact ⟨_, _, hd, hs, hdec⟩
  · rintro ⟨d, s, hd, hs, hdec⟩
    have hmem : (row.deviceID, d, s) ∈ joinedStates db := mem_joinedStates.mpr ⟨hd, hs⟩
    obtain ⟨i, hi, hget⟩ := List.mem_iff_getElem.mp hmem
    have hi' : i < rows.length := hall.length_eq ▸ hi
    have hrow := List.Forall₂.get hall hi hi'
    simp only [List.get_eq_getElem, hget] at hrow
    rw [hdec, Except.ok.injEq] at hrow
    exact hrow ▸ List.getElem_mem hi'

theorem map_deviceID_listStates {db : DB} {fails : Bool} {rows : List StateRow}
    (h : listStates db fails = .ok rows) :
    rows.map StateRow.deviceID = (joinedStates db).map Prod.fst := by
  have hall := (listStates_eq_ok.mp h).2
  clear h
  generalize joinedStates db = l at hall
  induction hall with
  | nil => rfl
  | cons hab _ ih => rw [List.map_cons, List.map_cons, ih, decodeState_deviceID hab]

theorem listDeviceStates_eq_ok {db : DB} {fails : Bool} {states : List DeviceState} :
    listDeviceStates db fails = .ok states ↔
      ∃ rows, listStates db fails = .ok rows ∧ states = rows.map StateRow.toDeviceState := by
  unfold listDeviceStates
  cases listStates db fails <;> simp [Except.map, eq_comm]

theorem nodup_listDeviceStates {db : DB} {fails : Bool} {states : List DeviceState}
    (h : listDeviceStates db fails = .ok states) : (states.map DeviceState.deviceID).Nodup := by
  obtain ⟨rows, hrows, rfl⟩ := listDeviceStates_eq_ok.mp h
  have hids : (rows.map StateRow.toDeviceState).map DeviceState.deviceID =
      rows.map StateRow.deviceID := by
    rw [List.map_map]
    rfl
  rw [hids, map_deviceID_listStates hrows]
  exact nodup_joinedStates db

theorem exists_mem_listDeviceStates {db : DB} {fails : Bool} {states : List DeviceState}
    (h : listDeviceStates db fails = .ok states) {id : String}
    (hdev : (db.devices.lookup id).isSome) (hstate : (db.deviceState.lookup id).isSome) :
    ∃ ds ∈ states, ds.deviceID = id := by
  obtain ⟨rows, hrows, rfl⟩ := listDeviceStates_eq_ok.mp h
  obtain ⟨d, hd⟩ := Option.isSome_iff_exists.mp hdev
  obtain ⟨s, hs⟩ := Option.isSome_iff_exists.mp hstate
  have hmem : id ∈ rows.map StateRow.deviceID := by
    rw [map_deviceID_listStates hrows]
    exact List.mem_map.mpr ⟨(id, d, s), mem_joinedStates.mpr ⟨hd, hs⟩, rfl⟩
  obtain ⟨row, hrow, hid⟩ := List.mem_map.mp hmem
  exact ⟨row.toDeviceState, List.mem_map_of_mem hrow, hid⟩

theorem lastSeenAt_of_mem_listDeviceStates {db : DB} {fails : Bool} {states : List DeviceState}
    (h : listDeviceStates db fails = .ok states) {ds : DeviceState} (hds : ds ∈ states) :
    (db.devices.lookup ds.deviceID).isSome ∧ db.lastSeenAt ds.deviceID = some ds.lastSeenAt := by
  obtain ⟨rows, hrows, rfl⟩ := listDeviceStates_eq_ok.mp h
  obtain ⟨row, hrow, rfl⟩ := List.mem_map.mp hds
  obtain ⟨d, s, hd, hs, hdec⟩ := (mem_listStates hrows).mp hrow
  obtain ⟨p, reportedAt, lastSeenAt, -, -, hparse, heq⟩ := decodeState_eq_ok.mp hdec
  refine ⟨Option.isSome_of_mem hd, ?_⟩
  change (Option.map StateRecord.lastSeenAt (db.deviceState.lookup row.deviceID)).bind Time.parse = _
  rw [hs, Option.map_some, Option.bind_some, hparse]
  congr 1
  rw [heq]
  rfl

/-! ### Usage -/

/-- The fault stops a transaction of `n` statements. -/
def AddUsageFault.stops (n : ℕ) : AddUsageFault → Bool
  | .exec i => decide (i < n)
  | _ => true

/-- One of the statements `i`, ..., `i + n - 1` fails. -/
def AddUsageFault.execWithin (i n : ℕ) : AddUsageFault → Bool
  | .exec j => decide (i ≤ j ∧ j < i + n)
  | _ => false

theorem execDeltas_eq {id : String} {fault : Option AddUsageFault} (i : ℕ) (deltas : List UsageDelta)
    (table : KeyedTable UsageKey ℤ) :
    execDeltas id fault i deltas table =
      if fault.any (AddUsageFault.execWithin i deltas.length) then .error .database
      else .ok (deltas.foldl (addDelta id) table) := by
  induction deltas generalizing i table with
  | nil =>
    have hnone : ¬ fault.any (AddUsageFault.execWithin i 0) := by
      match fault with
      | none | some .beginTx | some .prepare | some .commit => simp [AddUsageFault.execWithin]
      | some (.exec j) =>
        simp only [Option.any_some, AddUsageFault.execWithin, decide_eq_true_eq]
        omega
    rw [List.length_nil, if_neg hnone]
    rfl
  | cons d ds ih =>
    rw [execDeltas, ih, List.length_cons, List.foldl_cons]
    match fault with
    | none | some .beginTx | some .prepare | some .commit => simp [AddUsageFault.execWithin]
    | some (.exec j) =>
      by_cases hj : j = i
      · subst hj
        simp [AddUsageFault.execWithin]
      · have hiff : (i < j ∧ j < i + 1 + ds.length) ↔ (i ≤ j ∧ j < i + (ds.length + 1)) := by omega
        simp [AddUsageFault.execWithin, hj, hiff]

/-- The transaction adds every delta, or fails and changes nothing. -/
theorem addUsage_eq {db : DB} {id : String} {deltas : List UsageDelta} {fault : Option AddUsageFault} :
    addUsage db id deltas fault =
      if deltas ≠ [] ∧ fault.any (AddUsageFault.stops deltas.length) then .error .database
      else .ok { db with usageBucket := deltas.foldl (addDelta id) db.usageBucket } := by
  unfold addUsage
  by_cases hnil : deltas = []
  · simp [hnil]
  · have hlen : 0 < deltas.length := List.length_pos_iff.mpr hnil
    rw [if_neg hnil, execDeltas_eq]
    match fault with
    | none => simp [bind, Except.bind]
    | some .beginTx | some .prepare => simp [hnil, AddUsageFault.stops]
    | some .commit => simp [hnil, AddUsageFault.stops, AddUsageFault.execWithin, bind, Except.bind]
    | some (.exec i) =>
      by_cases hi : i < deltas.length <;>
        simp [hnil, AddUsageFault.stops, AddUsageFault.execWithin, bind, Except.bind, hi]

theorem lookup_addDelta (id : String) (table : KeyedTable UsageKey ℤ) (d : UsageDelta) (k : UsageKey) :
    (addDelta id table d).lookup k =
      if k = d.key id then some ((table.lookup k).getD 0 + d.seconds) else table.lookup k := by
  rw [addDelta, KeyedTable.lookup_upsert]
  split_ifs with h
  · subst h
    cases table.lookup (d.key id) <;> simp
  · rfl

theorem total_foldl_addDelta (id : String) (deltas : List UsageDelta) (table : KeyedTable UsageKey ℤ)
    (p : UsageKey → Prop) [DecidablePred p] :
    (deltas.foldl (addDelta id) table).total p =
      table.total p + (deltas.map fun d => if p (d.key id) then d.seconds else 0).sum := by
  induction deltas generalizing table with
  | nil => simp
  | cons d ds ih =>
    rw [List.foldl_cons, ih, addDelta, KeyedTable.total_upsert_add, List.map_cons, List.sum_cons,
      add_assoc]

end CyberstalkMe.Store
