import CyberstalkMe.Api.Snapshot
import CyberstalkMe.Shared.ReportText
import CyberstalkMe.Foundations.Unwinding

/-! # The server on texts

Reports arrive as texts, and the store keeps the latest one of each device as a text that it decodes
whenever it is read. The server on decoded payloads is what remains of this one when every text is replaced
by what it decodes to.
-/
namespace CyberstalkMe.Api

open Go Shared Store Foundations

/-! ### The store -/

def StoredReport : Type :=
  { column : List Char // ∃ p : ReportPayload, p.InRange ∧ jsonTime p.reportedAt ∧ column = text p.json }

structure TextRecord where
  lastReportJSON : StoredReport
  reportedAt : String
  lastSeenAt : String

structure TextDB where
  devices : KeyedTable String DeviceRow
  deviceState : KeyedTable String TextRecord
  usageBucket : KeyedTable UsageKey ℤ

/-- The row with its text decoded. -/
def TextRecord.decoded (r : TextRecord) : StateRecord where
  lastReportJSON :=
    match readReport r.lastReportJSON.1 with
    | some p => .payload p
    | none => .malformed
  reportedAt := r.reportedAt
  lastSeenAt := r.lastSeenAt

/-- The tables as the store's queries see them. -/
def TextDB.decoded (db : TextDB) : DB := ⟨db.devices, db.deviceState.map TextRecord.decoded, db.usageBucket⟩

/-! ### The handlers -/

structure TextServer where
  db : TextDB
  known : Finset String
  hub : Hub

structure TextRequest where
  authorization : String
  body : List Char

def TextServer.decoded (srv : TextServer) : Server := ⟨srv.db.decoded, srv.known, srv.hub⟩

def restamp (dev : Store.Device) (p : ReportPayload) : ReportPayload :=
  { p with
    deviceID := dev.deviceID
    deviceName := dev.deviceName
    deviceType := dev.deviceType }

theorem restamp_inRange {dev : Store.Device} {p : ReportPayload} (h : p.InRange) : (restamp dev p).InRange :=
  ⟨h.idleSeconds, h.level⟩

theorem jsonTime_of_marshals {t : Time} (h : t.OfText) (hm : marshals t = true) : jsonTime t := by
  simp only [marshals, decide_eq_true_eq] at hm
  simp [jsonTime, hm, h.minutes]

/-- `json.Marshal` of a decoded payload. -/
def storeReport (dev : Store.Device) {body : List Char} {p : ReportPayload} (h : decodeReport body = some p) :
    Option StoredReport :=
  if hm : marshals p.reportedAt then
    some ⟨text (restamp dev p).json, restamp dev p, restamp_inRange (decodeReport_spec h).1,
      jsonTime_of_marshals (decodeReport_spec h).2 hm, rfl⟩
  else none

namespace TextServer

def reportDecoded (cfg : Config) (srv : TextServer) (dev : Store.Device) (p : ReportPayload)
    (payloadJSON : Option StoredReport) (now : Time) (faults : Faults) : TextServer × Response :=
  if stringsIsspace p.deviceID then (srv, writeError 400 "device_id is required")
  else if p.deviceType ≠ "windows" ∧ p.deviceType ≠ "android" then
    (srv, writeError 400 "device_type must be windows or android")
  else if p.deviceID ≠ dev.deviceID then (srv, writeError 401 "invalid device token")
  else
    let reportedAt := if p.reportedAt.isZero then now else p.reportedAt
    match payloadJSON with
    | none => (srv, writeInternalError)
    | some payloadJSON =>
      let credited := attributeUsage cfg srv.db.decoded dev.deviceID now faults.getState faults.addUsage
      let db := { srv.db with usageBucket := credited.usageBucket }
      if faults.upsertState then ({ srv with db }, writeInternalError)
      else
        let row : TextRecord := ⟨payloadJSON, reportedAt.utc.format, now.utc.format⟩
        let device : DeviceState :=
          { deviceID := dev.deviceID
            deviceName := dev.deviceName
            deviceType := dev.deviceType
            activity := p.activity
            battery := p.battery
            network := p.network
            online := true
            reportedAt
            lastSeenAt := now }
        ({ db := { db with deviceState := db.deviceState.upsert dev.deviceID row fun _ => row }
           known := State.markOnline srv.known dev.deviceID
           hub := srv.hub.broadcast ⟨.update, device⟩ },
          noContent)

/-- The handler of reports. -/
def report (cfg : Config) (srv : TextServer) (req : TextRequest) (now : Time) (faults : Faults) :
    TextServer × Response :=
  match authFromBearer cfg srv.db.decoded req.authorization faults.lookup with
  | .error .badToken => (srv, writeError 401 "invalid device token")
  | .error (.lookup _) => (srv, writeInternalError)
  | .ok dev =>
    match h : decodeReport req.body with
    | none => (srv, writeError 400 "malformed json body")
    | some p => srv.reportDecoded cfg dev p (storeReport dev h) now faults

end TextServer

/-! ### Both servers -/

/-- What the server is asked to do, with the clock at the time. Scans ask themselves. -/
inductive Call (Req : Type) where
  | register (id name deviceType tokenHash : String) (now : Time)
  | report (req : Req) (now : Time) (faults : Faults)
  | scan (now : Time) (fails : Bool)
  | snapshot (now : Time) (fails : Bool)

inductive Answer where
  | done
  | response (resp : Response)
  | listing (states : Except StoreError (List DeviceState))

def scanTables (cfg : Config) (db : DB) (known : Finset String) (hub : Hub) (now : Time) (fails : Bool) :
    Finset String × Hub :=
  match listDeviceStates db fails with
  | .error _ => (known, hub)
  | .ok states =>
    let out := State.scanOnce cfg.offlineThreshold now known states
    (out.1, hub.broadcastAll out.2)

def Server.answer (cfg : Config) (srv : Server) : Call Request → Server × Answer
  | .register id name deviceType tokenHash now =>
    ({ srv with db := registerDevice srv.db id name deviceType tokenHash now }, .done)
  | .report req now faults =>
    let out := Api.report cfg srv req now faults
    (out.1, .response out.2)
  | .scan now fails =>
    let out := scanTables cfg srv.db srv.known srv.hub now fails
    ({ srv with known := out.1, hub := out.2 }, .done)
  | .snapshot now fails => (srv, .listing (snapshot cfg srv.db now fails))

def TextServer.answer (cfg : Config) (srv : TextServer) : Call TextRequest → TextServer × Answer
  | .register id name deviceType tokenHash now =>
    let registered := registerDevice srv.db.decoded id name deviceType tokenHash now
    ({ srv with db := { srv.db with devices := registered.devices } }, .done)
  | .report req now faults =>
    let out := srv.report cfg req now faults
    (out.1, .response out.2)
  | .scan now fails =>
    let out := scanTables cfg srv.db.decoded srv.known srv.hub now fails
    ({ srv with known := out.1, hub := out.2 }, .done)
  | .snapshot now fails => (srv, .listing (snapshot cfg srv.db.decoded now fails))

/-! ### Decoding the run -/

def TextRequest.decoded (req : TextRequest) : Request where
  authorization := req.authorization
  body :=
    match decodeReport req.body with
    | some p => .payload p
    | none => .malformed

/-- The report was made in a zone of a day or more, with which no time is written. -/
def TextRequest.unwritable (req : TextRequest) : Bool := (decodeReport req.body).any fun p => !jsonTime p.reportedAt

/-- The call of the server on payloads. -/
def Call.decoded : Call TextRequest → Option (Call Request)
  | .register id name deviceType tokenHash now => some (.register id name deviceType tokenHash now)
  | .report req now faults => if req.unwritable then none else some (.report req.decoded now faults)
  | .scan now fails => some (.scan now fails)
  | .snapshot now fails => some (.snapshot now fails)

theorem decoded_record (column : StoredReport) (reportedAt lastSeenAt : String) {p : ReportPayload}
    (hp : p.InRange) (htime : jsonTime p.reportedAt) (hcolumn : column.1 = text p.json) :
    (TextRecord.mk column reportedAt lastSeenAt).decoded = ⟨.payload p, reportedAt, lastSeenAt⟩ := by
  rw [TextRecord.decoded, hcolumn, (decode_text hp htime).2]

section Handler
variable {cfg : Config} {srv : TextServer}

/-- A payload that cannot be written is answered with an error, and nothing changes. -/
theorem reportDecoded_none (dev : Store.Device) (p : ReportPayload) (now : Time) (faults : Faults) :
    (srv.reportDecoded cfg dev p none now faults).1 = srv ∧
      (srv.reportDecoded cfg dev p none now faults).2.status ∈ [400, 401, 500] := by
  rw [TextServer.reportDecoded]
  dsimp only
  generalize (if p.reportedAt.isZero then now else p.reportedAt) = reportedAt
  split_ifs <;> simp [writeInternalError, writeError]

theorem storeReport_eq_none {dev : Store.Device} {body : List Char} {p : ReportPayload}
    (h : decodeReport body = some p) (htime : jsonTime p.reportedAt = false) : storeReport dev h = none := by
  apply dif_neg
  intro hm
  rw [jsonTime_of_marshals (decodeReport_spec h).2 hm] at htime
  cases htime

theorem storeReport_eq_some (dev : Store.Device) {body : List Char} {p : ReportPayload}
    (h : decodeReport body = some p) (htime : jsonTime p.reportedAt = true) :
    ∃ column, storeReport dev h = some column ∧ column.1 = text (restamp dev p).json :=
  ⟨_, dif_pos (marshals_of_jsonTime htime).1, rfl⟩

/-- The handler on a body that can be written again. -/
theorem reportDecoded_decoded (dev : Store.Device) {p : ReportPayload} (hp : p.InRange)
    (htime : jsonTime p.reportedAt = true) {column : StoredReport} (hcolumn : column.1 = text (restamp dev p).json)
    (now : Time) (faults : Faults) :
    let out := srv.reportDecoded cfg dev p (some column) now faults
    (out.1.decoded, out.2) =
      if stringsIsspace p.deviceID then (srv.decoded, writeError 400 "device_id is required")
      else if p.deviceType ≠ "windows" ∧ p.deviceType ≠ "android" then
        (srv.decoded, writeError 400 "device_type must be windows or android")
      else if p.deviceID ≠ dev.deviceID then (srv.decoded, writeError 401 "invalid device token")
      else
        let reportedAt := if p.reportedAt.isZero then now else p.reportedAt
        let o : Observation := ⟨dev, restamp dev p, .payload (restamp dev p), reportedAt, now⟩
        if faults.upsertState then
          ({ srv.decoded with db := creditReport cfg srv.decoded.db o faults }, writeInternalError)
        else (acceptReport cfg srv.decoded o faults, noContent) := by
  dsimp only [TextServer.reportDecoded]
  generalize (if p.reportedAt.isZero then now else p.reportedAt) = reportedAt
  split_ifs
  · rfl
  · rfl
  · rfl
  · rw [attributeUsage_eq]
    rfl
  · rw [attributeUsage_eq]
    have hrow := decoded_record column reportedAt.utc.format now.utc.format (restamp_inRange hp) htime hcolumn
    have hstate := KeyedTable.map_upsert TextRecord.decoded srv.db.deviceState dev.deviceID
      ⟨column, reportedAt.utc.format, now.utc.format⟩
    rw [hrow] at hstate
    simp only [TextServer.decoded, TextDB.decoded, hstate]
    rfl

theorem stamp_eq (dev : Store.Device) {p : ReportPayload} (htime : jsonTime p.reportedAt = true) (now : Time) :
    stamp dev p now = .ok ⟨dev, restamp dev p, .payload (restamp dev p),
      if p.reportedAt.isZero then now else p.reportedAt, now⟩ := by
  have hmarshal : marshal (restamp dev p) = some (.payload (restamp dev p)) := if_pos htime
  unfold stamp
  dsimp only [restamp] at hmarshal ⊢
  rw [hmarshal]

/-- A body that can be written again is handled as the payload it decodes to. -/
theorem report_decoded {req : TextRequest} (h : req.unwritable = false) (now : Time) (faults : Faults) :
    let out := srv.report cfg req now faults
    (out.1.decoded, out.2) = Api.report cfg srv.decoded req.decoded now faults := by
  dsimp only
  rw [TextServer.report, Api.report, prepare, checkReport]
  cases hauth : authFromBearer cfg srv.db.decoded req.authorization faults.lookup with
  | error e =>
    have hauth' : authFromBearer cfg srv.decoded.db req.decoded.authorization faults.lookup = .error e := hauth
    rw [hauth']
    cases e <;> rfl
  | ok dev =>
    have hauth' : authFromBearer cfg srv.decoded.db req.decoded.authorization faults.lookup = .ok dev := hauth
    rw [hauth']
    dsimp only
    split
    · rename_i hbody
      have hmalformed : req.decoded.body = .malformed := by rw [TextRequest.decoded, hbody]
      rw [hmalformed]
      rfl
    · rename_i p hbody
      have htime : jsonTime p.reportedAt = true := by simpa [TextRequest.unwritable, hbody] using h
      have hpayload : unmarshal req.decoded.body = some p := by
        rw [TextRequest.decoded, hbody]
        exact unmarshal_payload htime
      obtain ⟨column, hstore, hcolumn⟩ := storeReport_eq_some dev hbody htime
      have hout : ((srv.reportDecoded cfg dev p (some column) now faults).1.decoded,
          (srv.reportDecoded cfg dev p (some column) now faults).2) = _ :=
        reportDecoded_decoded dev (decodeReport_spec hbody).1 htime hcolumn now faults
      have hstamp := stamp_eq dev htime now
      rw [hstore, hpayload]
      dsimp only at hout hstamp ⊢
      rw [hout]
      generalize (if p.reportedAt.isZero then now else p.reportedAt) = reportedAt at hstamp ⊢
      split_ifs with hblank htype hdevice hfails
      · rfl
      · rfl
      · rfl
      · simp only [hstamp, upsertState, hfails, if_true, attributeUsage_eq, creditReport]
      · simp only [hstamp, upsertState, hfails, attributeUsage_eq]
        rfl

/-- And one that cannot be written is answered with an error, and nothing changes. -/
theorem report_unwritable {req : TextRequest} (h : req.unwritable = true) (now : Time) (faults : Faults) :
    (srv.report cfg req now faults).1 = srv ∧ (srv.report cfg req now faults).2.status ∈ [400, 401, 500] := by
  rw [TextServer.report]
  cases hauth : authFromBearer cfg srv.db.decoded req.authorization faults.lookup with
  | error e => cases e <;> simp [writeInternalError, writeError]
  | ok dev =>
    dsimp only
    split
    · rename_i hbody
      simp [TextRequest.unwritable, hbody] at h
    · rename_i p hbody
      have htime : jsonTime p.reportedAt = false := by simpa [TextRequest.unwritable, hbody] using h
      rw [storeReport_eq_none hbody htime]
      exact reportDecoded_none dev p now faults

end Handler

/-! ### Whole runs -/

theorem projects (cfg : Config) :
    Projects (TextServer.answer cfg) (Server.answer cfg) TextServer.decoded Call.decoded (fun answer => answer) where
  step_call srv a c hc := by
    cases a with
    | register id name deviceType tokenHash now =>
      cases hc
      exact ⟨rfl, rfl⟩
    | scan now fails =>
      cases hc
      exact ⟨rfl, rfl⟩
    | snapshot now fails =>
      cases hc
      exact ⟨rfl, rfl⟩
    | report req now faults =>
      rw [Call.decoded] at hc
      split_ifs at hc with hreq
      cases hc
      have hout : _ = Api.report cfg srv.decoded req.decoded now faults :=
        report_decoded (Bool.eq_false_iff.mpr hreq) now faults
      simp only [TextServer.answer, Server.answer, ← hout, and_self]
  step_other srv a hc := by
    cases a with
    | register id name deviceType tokenHash now => cases hc
    | scan now fails => cases hc
    | snapshot now fails => cases hc
    | report req now faults =>
      rw [Call.decoded] at hc
      split_ifs at hc with hreq
      exact congrArg TextServer.decoded (report_unwritable hreq now faults).1

/-- A report that is left out is answered with an error wherever it comes. -/
theorem status_of_decoded_eq_none {cfg : Config} {srv : TextServer} {as : List (Call TextRequest)}
    {p : Call TextRequest × Answer} (hp : p ∈ answers (TextServer.answer cfg) srv as) (hcall : p.1.decoded = none) :
    ∃ resp, p.2 = .response resp ∧ resp.status ∈ [400, 401, 500] := by
  induction as generalizing srv with
  | nil => cases hp
  | cons a as ih =>
    rw [answers_cons, List.mem_cons] at hp
    rcases hp with rfl | hp
    · cases a with
      | register id name deviceType tokenHash now => cases hcall
      | scan now fails => cases hcall
      | snapshot now fails => cases hcall
      | report req now faults =>
        simp only [Call.decoded] at hcall
        split_ifs at hcall with hreq
        exact ⟨_, rfl, (report_unwritable hreq now faults).2⟩
    · exact ih hp

/-- The server on texts refines the server on payloads. Whatever is posted to it, registered, scanned and listed,
in any order: its tables, tracker and hub are those of the decoded run, which gets the same answers; a report
made in a zone of a day or longer is not part of that run, changes nothing and is answered with an error; and
every stored text is the text of what it is read as. -/
theorem text_server_refines (cfg : Config) (srv : TextServer) (calls : List (Call TextRequest)) :
    let step := TextServer.answer cfg
    (stateAfter step srv calls).decoded = stateAfter (Server.answer cfg) srv.decoded (calls.filterMap Call.decoded) ∧
      (answers step srv calls).filterMap (fun p => p.1.decoded.map fun c => (c, p.2)) =
        answers (Server.answer cfg) srv.decoded (calls.filterMap Call.decoded) ∧
      (∀ p ∈ answers step srv calls, p.1.decoded = none →
        ∃ resp, p.2 = .response resp ∧ resp.status ∈ [400, 401, 500]) ∧
      ∀ r ∈ (stateAfter step srv calls).db.deviceState.rows, ∃ p,
        readReport r.2.lastReportJSON.1 = some p ∧ r.2.lastReportJSON.1 = text p.json := by
  intro step
  obtain ⟨hstate, hanswers⟩ := (projects cfg).run srv calls
  rw [List.map_id'] at hanswers
  refine ⟨hstate, hanswers, fun p hp => status_of_decoded_eq_none hp, fun r _ => ?_⟩
  obtain ⟨p, hp, htime, hcolumn⟩ := r.2.lastReportJSON.2
  rw [hcolumn]
  exact ⟨p, (decode_text hp htime).2, rfl⟩

end CyberstalkMe.Api
