import CyberstalkMe.Shared.Contract
import CyberstalkMe.Foundations.KeyedTable
import Mathlib.Data.List.Sort
import Mathlib.Data.String.Basic

/-! # The SQLite store

The three tables and the statements that the report, snapshot and scan paths
execute. Timestamps are RFC 3339 text in UTC. A Boolean argument `fails` says
that the database operation itself fails; decoding a row can fail as well.
-/
namespace CyberstalkMe.Store

open Go Shared Foundations

/-- A row of `devices`, without its key. -/
structure DeviceRow where
  deviceName : String
  deviceType : String
  tokenHash : String
  createdAt : String
deriving DecidableEq, Repr

/-- A row of `device_state`, without its key. -/
structure StateRecord where
  lastReportJSON : JSONText
  reportedAt : String
  lastSeenAt : String
deriving DecidableEq, Repr

/-- The primary key of `usage_bucket`; the one other column is `seconds`. -/
structure UsageKey where
  deviceID : String
  hourStart : String
  state : UsageState
  app : String
  description : String
deriving DecidableEq, Repr

structure DB where
  devices : KeyedTable String DeviceRow
  deviceState : KeyedTable String StateRecord
  usageBucket : KeyedTable UsageKey ℤ

def DB.empty : DB := ⟨.empty, .empty, .empty⟩

inductive StoreError where
  | deviceNotFound
  | database
  | decodePayload (id : String)
  | parseTime (column id : String)
deriving DecidableEq, Repr

/-- A row of `devices` as it is returned. -/
structure Device where
  deviceID : String
  deviceName : String
  deviceType : String
  tokenHash : String
  createdAt : Time
deriving DecidableEq, Repr

/-- A device's latest state. A device that never reported has the zero payload and times. -/
structure StateRow where
  deviceID : String
  deviceName : String
  deviceType : String
  payload : ReportPayload
  reportedAt : Time
  lastSeenAt : Time
deriving DecidableEq, Repr

/-- `time.Parse` of a text column. -/
def parseColumn (column id text : String) : Except StoreError Time :=
  match Time.parse text with
  | some t => .ok t
  | none => .error (.parseTime column id)

/-! ### Devices -/

def registerDevice (db : DB) (id name deviceType tokenHash : String) (createdAt : Time) : DB :=
  { db with
    devices := db.devices.upsert id ⟨name, deviceType, tokenHash, createdAt.utc.format⟩
      fun d => { d with deviceName := name, deviceType, tokenHash } }

def lookupByTokenHash (db : DB) (tokenHash : String) (fails : Bool) : Except StoreError Device :=
  if fails then .error .database
  else match db.devices.rows.find? fun r => r.2.tokenHash = tokenHash with
    | none => .error .deviceNotFound
    | some (id, d) => do
      let createdAt ← parseColumn "created_at" id d.createdAt
      .ok ⟨id, d.deviceName, d.deviceType, d.tokenHash, createdAt⟩

/-! ### Latest state -/

/-- Store the latest report of a device over any previous one. -/
def upsertState (db : DB) (id : String) (payload : JSONText) (reportedAt seenAt : Time)
    (fails : Bool) : Except StoreError DB :=
  if fails then .error .database
  else
    let row : StateRecord := ⟨payload, reportedAt.utc.format, seenAt.utc.format⟩
    .ok { db with deviceState := db.deviceState.upsert id row fun _ => row }

def decodeState (id : String) (d : DeviceRow) (s : StateRecord) : Except StoreError StateRow :=
  match unmarshal s.lastReportJSON with
  | none => .error (.decodePayload id)
  | some payload => do
    let reportedAt ← parseColumn "reported_at" id s.reportedAt
    let lastSeenAt ← parseColumn "last_seen_at" id s.lastSeenAt
    .ok ⟨id, d.deviceName, d.deviceType, payload, reportedAt, lastSeenAt⟩

/-- The latest state of one registered device. -/
def getState (db : DB) (id : String) (fails : Bool) : Except StoreError StateRow :=
  if fails then .error .database
  else match db.devices.lookup id with
    | none => .error .deviceNotFound
    | some d => match db.deviceState.lookup id with
      | none => .ok ⟨id, d.deviceName, d.deviceType, default, default, default⟩
      | some s => decodeState id d s

/-- The rows of `devices JOIN device_state`, ordered by device. -/
def joinedStates (db : DB) : List (String × DeviceRow × StateRecord) :=
  (db.devices.rows.filterMap fun r => (db.deviceState.lookup r.1).map fun s => (r.1, r.2, s)).insertionSort
    fun a b => a.1 ≤ b.1

/-- The latest state of every device that has reported. One row that cannot be decoded fails
the whole listing. -/
def listStates (db : DB) (fails : Bool) : Except StoreError (List StateRow) :=
  if fails then .error .database
  else (joinedStates db).mapM fun r => decodeState r.1 r.2.1 r.2.2

/-- `Online` is left false: the caller judges it. -/
def StateRow.toDeviceState (r : StateRow) : DeviceState where
  deviceID := r.deviceID
  deviceName := r.deviceName
  deviceType := r.deviceType
  activity := r.payload.activity
  battery := r.payload.battery
  network := r.payload.network
  online := false
  reportedAt := r.reportedAt
  lastSeenAt := r.lastSeenAt

def listDeviceStates (db : DB) (fails : Bool) : Except StoreError (List DeviceState) :=
  (listStates db fails).map fun rows => rows.map StateRow.toDeviceState

/-! ### Usage -/

/-- One bucket increment. -/
structure UsageDelta where
  hourStart : Time
  state : UsageState
  app : String
  description : String
  seconds : ℤ
deriving DecidableEq, Repr

def UsageDelta.key (deviceID : String) (d : UsageDelta) : UsageKey :=
  ⟨deviceID, d.hourStart.utc.format, d.state, d.app, d.description⟩

/-- The points at which the transaction of `addUsage` can fail. -/
inductive AddUsageFault where
  | beginTx
  | prepare
  | exec (i : ℕ)
  | commit
deriving DecidableEq, Repr

/-- `ON CONFLICT ... DO UPDATE SET seconds = seconds + excluded.seconds`. -/
def addDelta (deviceID : String) (table : KeyedTable UsageKey ℤ) (d : UsageDelta) :
    KeyedTable UsageKey ℤ :=
  table.upsert (d.key deviceID) d.seconds (· + d.seconds)

def execDeltas (deviceID : String) (fault : Option AddUsageFault) :
    ℕ → List UsageDelta → KeyedTable UsageKey ℤ → Except StoreError (KeyedTable UsageKey ℤ)
  | _, [], table => .ok table
  | i, d :: ds, table =>
    if fault = some (.exec i) then .error .database
    else execDeltas deviceID fault (i + 1) ds (addDelta deviceID table d)

/-- Accumulate the deltas in one transaction: all of them are added, or none. -/
def addUsage (db : DB) (deviceID : String) (deltas : List UsageDelta)
    (fault : Option AddUsageFault) : Except StoreError DB :=
  if deltas = [] then .ok db
  else if fault = some .beginTx ∨ fault = some .prepare then .error .database
  else do
    let table ← execDeltas deviceID fault 0 deltas db.usageBucket
    if fault = some .commit then .error .database else .ok { db with usageBucket := table }

end CyberstalkMe.Store
