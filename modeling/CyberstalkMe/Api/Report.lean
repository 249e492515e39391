import CyberstalkMe.Store.Spec
import CyberstalkMe.Usage.Attribute
import CyberstalkMe.Hub.Broadcast
import CyberstalkMe.State.Tracker
import CyberstalkMe.Go.Strings

/-! # The report handler

`report` is the handler of `POST /api/v1/report` run by itself: the checks, the
clock reading, the attribution of the interval that just ended, the state
upsert, the online mark and the broadcast. `checkReport` and `stamp` are its parts
before the first write.
-/
namespace CyberstalkMe.Api

open Go Shared Store Usage Foundations

/-- The dependencies of the handlers that do not change: the token hash, and the two durations, which
are positive in every configuration that loads. -/
structure Config where
  hashToken : String → String
  maxGap : ℤ
  offlineThreshold : ℤ
  maxGap_pos : 0 < maxGap
  maxGap_le : maxGap ≤ maxDuration
  offlineThreshold_pos : 0 < offlineThreshold
  offlineThreshold_le : offlineThreshold ≤ maxDuration

/-- The mutable state of the server process: the store, the tracker's known set, the hub. -/
structure Server where
  db : DB
  known : Finset String
  hub : Hub

/-- The parts of a report request that are read. A missing header is empty. -/
structure Request where
  authorization : String
  body : JSONText
deriving DecidableEq, Repr

structure Response where
  status : ℕ
  error : Option String
deriving DecidableEq, Repr

def noContent : Response := ⟨204, none⟩

def writeError (status : ℕ) (msg : String) : Response := ⟨status, some msg⟩

def writeInternalError : Response := writeError 500 "internal error"

/-- Which of a handler's store operations fail. -/
structure Faults where
  lookup : Bool
  getState : Bool
  addUsage : Option AddUsageFault
  upsertState : Bool
deriving DecidableEq, Repr

def Faults.none : Faults := ⟨false, false, Option.none, false⟩

inductive AuthError where
  | badToken
  | lookup (e : StoreError)

def authFromBearer (cfg : Config) (db : DB) (header : String) (fails : Bool) :
    Except AuthError Store.Device :=
  let bearer := "Bearer ".toList
  let runes := header.toList
  if runes.length ≤ bearer.length ∨ !equalFold (runes.take bearer.length) bearer then
    .error .badToken
  else
    let token := trimSpace (String.ofList (runes.drop bearer.length))
    if token = "" then .error .badToken
    else match lookupByTokenHash db (cfg.hashToken token) fails with
      | .ok dev => .ok dev
      | .error .deviceNotFound => .error .badToken
      | .error e => .error (.lookup e)

def stringsIsspace (s : String) : Bool := trimSpace s == ""

/-- Authentication and validation. -/
def checkReport (cfg : Config) (db : DB) (req : Request) (lookupFails : Bool) :
    Except Response (Store.Device × ReportPayload) :=
  match authFromBearer cfg db req.authorization lookupFails with
  | .error .badToken => .error (writeError 401 "invalid device token")
  | .error (.lookup _) => .error writeInternalError
  | .ok dev =>
    match unmarshal req.body with
    | none => .error (writeError 400 "malformed json body")
    | some p =>
      if stringsIsspace p.deviceID then .error (writeError 400 "device_id is required")
      else if p.deviceType ≠ "windows" ∧ p.deviceType ≠ "android" then
        .error (writeError 400 "device_type must be windows or android")
      else if p.deviceID ≠ dev.deviceID then .error (writeError 401 "invalid device token")
      else .ok (dev, p)

/-- A report once the handler has read the clock: the authenticated device, the payload under its
identity, and both timestamps. -/
structure Observation where
  device : Store.Device
  payload : ReportPayload
  payloadJSON : JSONText
  reportedAt : Time
  seenAt : Time
deriving DecidableEq, Repr

namespace Observation

def id (o : Observation) : String := o.device.deviceID

/-- The row that `upsertState` writes. -/
def record (o : Observation) : StateRecord :=
  ⟨o.payloadJSON, o.reportedAt.utc.format, o.seenAt.utc.format⟩

/-- The update event. -/
def event (o : Observation) : Event where
  type := .update
  device :=
    { deviceID := o.device.deviceID
      deviceName := o.device.deviceName
      deviceType := o.device.deviceType
      activity := o.payload.activity
      battery := o.payload.battery
      network := o.payload.network
      online := true
      reportedAt := o.reportedAt
      lastSeenAt := o.seenAt }

@[simp] theorem event_type (o : Observation) : o.event.type = .update := rfl

@[simp] theorem event_deviceID (o : Observation) : o.event.device.deviceID = o.id := rfl

@[simp] theorem event_lastSeenAt (o : Observation) : o.event.device.lastSeenAt = o.seenAt := rfl

end Observation

/-- The server's clock is read, and the payload is stamped with the device's identity. -/
def stamp (dev : Store.Device) (p : ReportPayload) (seenAt : Time) : Except Response Observation :=
  let reportedAt := if p.reportedAt.isZero then seenAt else p.reportedAt
  let p :=
    { p with
      deviceID := dev.deviceID
      deviceName := dev.deviceName
      deviceType := dev.deviceType }
  match marshal p with
  | none => .error writeInternalError
  | some payloadJSON => .ok ⟨dev, p, payloadJSON, reportedAt, seenAt⟩

/-- Everything before the first write. -/
def prepare (cfg : Config) (db : DB) (req : Request) (now : Time) (lookupFails : Bool) :
    Except Response Observation :=
  match checkReport cfg db req lookupFails with
  | .error resp => .error resp
  | .ok (dev, p) => stamp dev p now

/-- The deltas that `attributeUsage` computes from the state row it read. -/
def usageDeltas (cfg : Config) (prev : Except StoreError StateRow) (seenAt : Time) :
    List UsageDelta :=
  match prev with
  | .error _ => []
  | .ok prev =>
    if prev.lastSeenAt.isZero then []
    else (attributeInterval prev.payload.activity prev.lastSeenAt seenAt cfg.maxGap).map fun b =>
      ⟨b.hourStart, b.state, b.app, b.description, b.seconds⟩

/-- Accumulate the interval since the previous report. A failure is only logged. -/
def attributeUsage (cfg : Config) (db : DB) (id : String) (seenAt : Time) (getStateFails : Bool)
    (fault : Option AddUsageFault) : DB :=
  match addUsage db id (usageDeltas cfg (getState db id getStateFails) seenAt) fault with
  | .ok db => db
  | .error _ => db

def report (cfg : Config) (srv : Server) (req : Request) (now : Time) (faults : Faults) :
    Server × Response :=
  match prepare cfg srv.db req now faults.lookup with
  | .error resp => (srv, resp)
  | .ok o =>
    let db := attributeUsage cfg srv.db o.id o.seenAt faults.getState faults.addUsage
    match upsertState db o.id o.payloadJSON o.reportedAt o.seenAt faults.upsertState with
    | .error _ => ({ srv with db }, writeInternalError)
    | .ok db => (⟨db, State.markOnline srv.known o.id, srv.hub.broadcast o.event⟩, noContent)

/-! ### Before the first write -/

theorem row_of_lookupByTokenHash {db : DB} {hash : String} {fails : Bool} {dev : Store.Device}
    (h : lookupByTokenHash db hash fails = .ok dev) :
    ∃ d, db.devices.lookup dev.deviceID = some d ∧ d.tokenHash = hash ∧ dev.deviceName = d.deviceName ∧
      dev.deviceType = d.deviceType := by
  rw [lookupByTokenHash] at h
  split_ifs at h
  split at h
  · cases h
  · rename_i id d hfind
    have hrow := KeyedTable.lookup_eq_some.mpr (List.mem_of_find?_eq_some hfind)
    have hhash : d.tokenHash = hash := by simpa using List.find?_some hfind
    cases ht : parseColumn "created_at" id d.createdAt with
    | error e =>
      rw [ht] at h
      cases h
    | ok t =>
      rw [ht] at h
      cases h
      exact ⟨d, hrow, hhash, rfl, rfl⟩

theorem authFromBearer_eq_ok {cfg : Config} {db : DB} {header : String} {fails : Bool} {dev : Store.Device}
    (h : authFromBearer cfg db header fails = .ok dev) : (db.devices.lookup dev.deviceID).isSome := by
  rw [authFromBearer] at h
  dsimp only at h
  split_ifs at h
  split at h
  · rename_i hlookup
    obtain ⟨d, hrow, -⟩ := row_of_lookupByTokenHash (Except.ok.inj h ▸ hlookup)
    exact Option.isSome_of_mem hrow
  · cases h
  · cases h

theorem checkReport_eq_ok {cfg : Config} {db : DB} {req : Request} {lookupFails : Bool} {dev : Store.Device}
    {p : ReportPayload} (h : checkReport cfg db req lookupFails = .ok (dev, p)) :
    (db.devices.lookup dev.deviceID).isSome ∧ unmarshal req.body = some p := by
  rw [checkReport] at h
  split at h
  · cases h
  · cases h
  · rename_i hauth
    split at h
    · cases h
    · rename_i hbody
      split_ifs at h
      cases h
      exact ⟨authFromBearer_eq_ok hauth, hbody⟩

theorem checkReport_eq_error {cfg : Config} {db : DB} {req : Request} {lookupFails : Bool} {resp : Response}
    (h : checkReport cfg db req lookupFails = .error resp) : resp.status ≠ 204 := by
  rw [checkReport] at h
  split at h
  · cases h
    decide
  · cases h
    decide
  · split at h
    · cases h
      decide
    · split_ifs at h <;> (cases h; decide)

theorem stamp_eq_ok {dev : Store.Device} {p : ReportPayload} {seenAt : Time} {o : Observation}
    (h : stamp dev p seenAt = .ok o) :
    o.device = dev ∧ o.seenAt = seenAt ∧ o.payload.activity = p.activity ∧
      unmarshal o.payloadJSON = some o.payload ∧
      o.reportedAt = if p.reportedAt.isZero then seenAt else p.reportedAt := by
  unfold stamp at h
  dsimp only at h
  split at h
  · cases h
  · rename_i hjson
    cases h
    exact ⟨rfl, rfl, rfl, unmarshal_of_marshal hjson, rfl⟩

theorem stamp_eq_error {dev : Store.Device} {p : ReportPayload} {seenAt : Time} {resp : Response}
    (h : stamp dev p seenAt = .error resp) : resp = writeInternalError := by
  unfold stamp at h
  dsimp only at h
  split at h
  · exact (Except.error.inj h).symm
  · cases h

theorem prepare_eq_ok {cfg : Config} {db : DB} {req : Request} {now : Time} {lookupFails : Bool}
    {o : Observation} :
    prepare cfg db req now lookupFails = .ok o ↔
      ∃ dev p, checkReport cfg db req lookupFails = .ok (dev, p) ∧ stamp dev p now = .ok o := by
  rw [prepare]
  cases checkReport cfg db req lookupFails with
  | error resp => simp
  | ok r => simp [Prod.ext_iff]

theorem prepare_eq_error {cfg : Config} {db : DB} {req : Request} {now : Time} {lookupFails : Bool}
    {resp : Response} (h : prepare cfg db req now lookupFails = .error resp) : resp.status ≠ 204 := by
  rw [prepare] at h
  split at h
  · rename_i hcheck
    exact checkReport_eq_error (Except.error.inj h ▸ hcheck)
  · rw [stamp_eq_error h]
    decide

theorem prepare_registered {cfg : Config} {db : DB} {req : Request} {now : Time} {lookupFails : Bool}
    {o : Observation} (h : prepare cfg db req now lookupFails = .ok o) :
    (db.devices.lookup o.id).isSome := by
  obtain ⟨dev, p, hcheck, hstamp⟩ := prepare_eq_ok.mp h
  rw [Observation.id, (stamp_eq_ok hstamp).1]
  exact (checkReport_eq_ok hcheck).1

theorem prepare_seenAt {cfg : Config} {db : DB} {req : Request} {now : Time} {lookupFails : Bool}
    {o : Observation} (h : prepare cfg db req now lookupFails = .ok o) : o.seenAt = now := by
  obtain ⟨dev, p, -, hstamp⟩ := prepare_eq_ok.mp h
  exact (stamp_eq_ok hstamp).2.1

theorem prepare_unmarshal {cfg : Config} {db : DB} {req : Request} {now : Time} {lookupFails : Bool}
    {o : Observation} (h : prepare cfg db req now lookupFails = .ok o) :
    unmarshal o.payloadJSON = some o.payload := by
  obtain ⟨dev, p, -, hstamp⟩ := prepare_eq_ok.mp h
  exact (stamp_eq_ok hstamp).2.2.2.1

/-! ### The writes -/

def storeObservation (db : DB) (o : Observation) : DB :=
  { db with deviceState := db.deviceState.upsert o.id o.record fun _ => o.record }

@[simp] theorem devices_storeObservation (db : DB) (o : Observation) :
    (storeObservation db o).devices = db.devices := rfl

@[simp] theorem usageBucket_storeObservation (db : DB) (o : Observation) :
    (storeObservation db o).usageBucket = db.usageBucket := rfl

theorem lookup_storeObservation (db : DB) (o : Observation) (id : String) :
    (storeObservation db o).deviceState.lookup id =
      if id = o.id then some o.record else db.deviceState.lookup id :=
  lookup_upsert_const db.deviceState id o.id o.record

theorem lastSeen_storeObservation (db : DB) (o : Observation) (id : String) :
    (storeObservation db o).lastSeen id =
      if id = o.id then some o.seenAt.utc.format else db.lastSeen id := by
  rw [DB.lastSeen, lookup_storeObservation]
  split_ifs <;> rfl

def creditUsage (db : DB) (id : String) (deltas : List UsageDelta) : DB :=
  { db with usageBucket := deltas.foldl (addDelta id) db.usageBucket }

@[simp] theorem devices_creditUsage (db : DB) (id : String) (deltas : List UsageDelta) :
    (creditUsage db id deltas).devices = db.devices := rfl

@[simp] theorem deviceState_creditUsage (db : DB) (id : String) (deltas : List UsageDelta) :
    (creditUsage db id deltas).deviceState = db.deviceState := rfl

@[simp] theorem lastSeen_creditUsage (db : DB) (id : String) (deltas : List UsageDelta) :
    (creditUsage db id deltas).lastSeen = db.lastSeen := rfl

@[simp] theorem creditUsage_nil (db : DB) (id : String) : creditUsage db id [] = db := rfl

/-- What `attributeUsage` adds: everything it computed, or nothing when the transaction fails. -/
def addedDeltas (cfg : Config) (db : DB) (id : String) (seenAt : Time) (getStateFails : Bool)
    (fault : Option AddUsageFault) : List UsageDelta :=
  let deltas := usageDeltas cfg (getState db id getStateFails) seenAt
  if fault.any (AddUsageFault.stops deltas.length) then [] else deltas

theorem attributeUsage_eq (cfg : Config) (db : DB) (id : String) (seenAt : Time)
    (getStateFails : Bool) (fault : Option AddUsageFault) :
    attributeUsage cfg db id seenAt getStateFails fault =
      creditUsage db id (addedDeltas cfg db id seenAt getStateFails fault) := by
  rw [attributeUsage, addUsage_eq, addedDeltas]
  by_cases hnil : usageDeltas cfg (getState db id getStateFails) seenAt = []
  · simp [hnil, creditUsage]
  · by_cases hfault :
      fault.any (AddUsageFault.stops (usageDeltas cfg (getState db id getStateFails) seenAt).length)
    · simp [hnil, hfault]
    · simp [hnil, hfault, creditUsage]

/-- The store after the attribution of a report. -/
def creditReport (cfg : Config) (db : DB) (o : Observation) (faults : Faults) : DB :=
  creditUsage db o.id (addedDeltas cfg db o.id o.seenAt faults.getState faults.addUsage)

def acceptReport (cfg : Config) (srv : Server) (o : Observation) (faults : Faults) : Server where
  db := storeObservation (creditReport cfg srv.db o faults) o
  known := State.markOnline srv.known o.id
  hub := srv.hub.broadcast o.event

/-- The ways a report request ends: rejected with nothing written, failed after the usage was
added, or accepted. -/
theorem report_cases (cfg : Config) (srv : Server) (req : Request) (now : Time) (faults : Faults) :
    (∃ resp, prepare cfg srv.db req now faults.lookup = .error resp ∧ resp.status ≠ 204 ∧
        report cfg srv req now faults = (srv, resp)) ∨
      ∃ o, prepare cfg srv.db req now faults.lookup = .ok o ∧
        (faults.upsertState = true ∧
            report cfg srv req now faults =
              ({ srv with db := creditReport cfg srv.db o faults }, writeInternalError) ∨
          faults.upsertState = false ∧
            report cfg srv req now faults = (acceptReport cfg srv o faults, noContent)) := by
  rw [report]
  cases hprep : prepare cfg srv.db req now faults.lookup with
  | error resp => exact .inl ⟨resp, rfl, prepare_eq_error hprep, rfl⟩
  | ok o =>
    refine .inr ⟨o, rfl, ?_⟩
    cases hfails : faults.upsertState with
    | true =>
      refine .inl ⟨rfl, ?_⟩
      simp only [upsertState, if_true, attributeUsage_eq, creditReport]
    | false =>
      refine .inr ⟨rfl, ?_⟩
      simp only [upsertState, Bool.false_eq_true, if_false, attributeUsage_eq]
      rfl

/-! ### A sample deployment

One registered device, with the defaults of the configuration.
-/

namespace Sample

/-- The hash of the one token in use; other tokens are not registered. -/
def hashToken (token : String) : String :=
  if token = "tok-1" then "65dcf16ea3dfa49069628089eb4a75483070f5584b2a21ee64912b5f621f12da" else token

def config : Config where
  hashToken := hashToken
  maxGap := 60 * second
  offlineThreshold := 60 * second
  maxGap_pos := by decide
  maxGap_le := by decide
  offlineThreshold_pos := by decide
  offlineThreshold_le := by decide

/-- Seconds after 2026-07-28T12:00:00Z. -/
def clock (s : ℤ) : Time := Time.ofSeconds (63920836800 + s)

def db : DB := registerDevice .empty "d1" "PC" "windows" (hashToken "tok-1") (clock 0)

def payload (app description : String) (reportedAt : Time) : ReportPayload :=
  ⟨"d1", "PC", "windows", ⟨app, description, false, 0, false⟩, none, none, reportedAt⟩

def request (app description : String) (reportedAt : Time) : Request :=
  ⟨"Bearer tok-1", .payload (payload app description reportedAt)⟩

end Sample

example : (report Sample.config ⟨Sample.db, ∅, Hub.new⟩ (Sample.request "Code" "writing" default)
    (Sample.clock 0) .none).2 = noContent := by decide +kernel

end CyberstalkMe.Api
