import CyberstalkMe.Agent.Main
import CyberstalkMe.Api.Isolation
import CyberstalkMe.Api.TextReports

/-! # Agent and server

A running agent and the server it reports to, while others use the server too. Messages and answers get lost
on their way. An agent whose device is registered is never told to give up, and what the server keeps of the
device is the last report that it took.
-/
namespace CyberstalkMe.Agent

open Go Shared Collect Mapping Foundations Store

variable {lib : Library}

/-! ### The network between them -/

/-- What becomes of a message: it is lost, it is answered at a time of the server, or the answer is lost. -/
inductive Fate where
  | lost (err : String)
  | answered (now : Time) (faults : Api.Faults)
  | answerLost (now : Time) (faults : Api.Faults) (err : String)

def Message.request (m : Message) : Api.TextRequest := ⟨m.authorization, m.body⟩

/-- `Router` routes a POST to this URL to the handler of reports. -/
def reaches (url : String) : Bool := (URL.parse url).map URL.path = some (reportPath.toList.map .rune)

/-- The handlers, and what comes of a message that is posted elsewhere. -/
structure Router where
  handlers : Api.Config
  elsewhere : Message → Report.Attempt

def Router.post (router : Router) (srv : Api.TextServer) (m : Message) (now : Time) (faults : Api.Faults) :
    Api.TextServer × Report.Attempt :=
  if reaches m.url then
    let out := srv.report router.handlers m.request now faults
    (out.1, .answered out.2.status)
  else (srv, router.elsewhere m)

def Fate.deliver (router : Router) (srv : Api.TextServer) (m : Message) : Fate → Api.TextServer × Report.Attempt
  | .lost err => (srv, .noAnswer err)
  | .answered now faults => router.post srv m now faults
  | .answerLost now faults err => ((router.post srv m now faults).1, .noAnswer err)

/-- A cycle of an agent that is not stopped, after what others have asked the server. -/
structure Turn where
  others : List (Api.Call Api.TextRequest)
  desktop : Desktop
  now : Time
  fate : Fate

def Turn.cycle (router : Router) (srv : Api.TextServer) (t : Turn) : Cycle where
  cancelled := none
  desktop := t.desktop
  now := t.now
  world m := (t.fate.deliver router srv m).2
  sleepErr := none

/-- The payload that is sent in a turn. -/
def Turn.payload (cfg : Config) (mapper : Mapper lib.toLibrary) (t : Turn) : ReportPayload :=
  { next cfg mapper t.desktop with reportedAt := t.now.utc }

def Turn.serve (router : Router) (cfg : Config) (mapper : Mapper lib.toLibrary) (srv : Api.TextServer)
    (t : Turn) : Api.TextServer :=
  match message cfg (t.payload cfg mapper) with
  | none => srv
  | some m => (t.fate.deliver router srv m).1

/-- The device of the configuration is registered as `d`, and its token with no other device. -/
structure Enrolled (srvCfg : Api.Config) (cfg : Config) (d : DeviceRow) (devices : KeyedTable String DeviceRow) : Prop where
  row : devices.lookup cfg.deviceID = some d
  hash : d.tokenHash = srvCfg.hashToken cfg.token
  createdAt : (Time.parse d.createdAt).isSome
  only : ∀ r ∈ devices.rows, r.2.tokenHash = srvCfg.hashToken cfg.token → r.1 = cfg.deviceID

/-- The call registers neither the device nor its token, and does not report with the token. -/
def Foreign (srvCfg : Api.Config) (cfg : Config) : Api.Call Api.TextRequest → Prop
  | .register id _ _ tokenHash _ => id ≠ cfg.deviceID ∧ tokenHash ≠ srvCfg.hashToken cfg.token
  | .report req _ _ =>
    ∀ token, Api.presentedToken req.authorization = some token → srvCfg.hashToken token ≠ srvCfg.hashToken cfg.token
  | .scan _ _ => True
  | .snapshot _ _ => True

section Authentication
variable {srvCfg : Api.Config} {cfg : Config} {d : DeviceRow}

theorem Enrolled.lookup {db : DB} (h : Enrolled srvCfg cfg d db.devices) :
    ∃ createdAt, lookupByTokenHash db (srvCfg.hashToken cfg.token) false =
      .ok ⟨cfg.deviceID, d.deviceName, d.deviceType, d.tokenHash, createdAt⟩ := by
  obtain ⟨createdAt, htime⟩ := Option.isSome_iff_exists.mp h.createdAt
  have hmem := KeyedTable.lookup_eq_some.mp h.row
  have hfound : ∃ r, db.devices.rows.find? (fun r => r.2.tokenHash = srvCfg.hashToken cfg.token) = some r := by
    rw [← Option.isSome_iff_exists, List.find?_isSome]
    exact ⟨_, hmem, decide_eq_true h.hash⟩
  obtain ⟨⟨id, d'⟩, hfind⟩ := hfound
  have hhash : d'.tokenHash = srvCfg.hashToken cfg.token := by simpa using List.find?_some hfind
  have hid : id = cfg.deviceID := h.only _ (List.mem_of_find?_eq_some hfind) hhash
  subst hid
  have hrow := KeyedTable.lookup_eq_some.mpr (List.mem_of_find?_eq_some hfind)
  rw [h.row, Option.some.injEq] at hrow
  subst hrow
  refine ⟨createdAt, ?_⟩
  rw [lookupByTokenHash, if_neg Bool.false_ne_true, hfind]
  simp only [parseColumn, htime]
  rfl

end Authentication

/-! ### What the server does -/

/-- What the server keeps of a payload that it sees at a time. -/
def kept (d : DeviceRow) (p : ReportPayload) (seenAt : Time) : StateRecord where
  lastReportJSON := .payload { p with deviceName := d.deviceName, deviceType := d.deviceType }
  reportedAt := (if p.reportedAt.isZero then seenAt else p.reportedAt).utc.format
  lastSeenAt := seenAt.utc.format

section Server
variable {srvCfg : Api.Config} {cfg : Config} {d : DeviceRow} {srv : Api.TextServer}

/-- The latest report of the device. -/
def latest (cfg : Config) (srv : Api.TextServer) : Option StateRecord :=
  srv.decoded.db.deviceState.lookup cfg.deviceID

theorem Enrolled.register {devices : KeyedTable String DeviceRow} (h : Enrolled srvCfg cfg d devices)
    {id tokenHash : String} (hid : id ≠ cfg.deviceID) (hhash : tokenHash ≠ srvCfg.hashToken cfg.token)
    (name deviceType createdAt : String) :
    Enrolled srvCfg cfg d (devices.upsert id ⟨name, deviceType, tokenHash, createdAt⟩
      fun d => { d with deviceName := name, deviceType, tokenHash }) where
  row := by rw [KeyedTable.lookup_upsert_ne _ (Ne.symm hid), h.row]
  hash := h.hash
  createdAt := h.createdAt
  only := by
    rintro ⟨id', d'⟩ hmem hhash'
    have hlookup := KeyedTable.lookup_eq_some.mpr hmem
    by_cases heq : id' = id
    · subst heq
      rw [KeyedTable.lookup_upsert_self] at hlookup
      cases hold : devices.lookup id' with
      | none =>
        rw [hold] at hlookup
        cases hlookup
        exact absurd hhash' hhash
      | some old =>
        rw [hold] at hlookup
        cases hlookup
        exact absurd hhash' hhash
    · rw [KeyedTable.lookup_upsert_ne _ heq] at hlookup
      exact h.only _ (KeyedTable.lookup_eq_some.mp hlookup) hhash'

end Server

/-! ### One turn -/

/-- The time at which the server keeps the report, if it does. -/
def Fate.seenAt : Fate → Option Time
  | .lost _ => none
  | .answered now faults => if faults.lookup || faults.upsertState then none else some now
  | .answerLost now faults _ => if faults.lookup || faults.upsertState then none else some now

/-- What the server keeps of the turn's report, if it does. -/
def Turn.kept (cfg : Config) (mapper : Mapper lib.toLibrary) (d : DeviceRow) (t : Turn) : Option StateRecord :=
  if marshals t.now.utc then t.fate.seenAt.map (Agent.kept d (t.payload cfg mapper)) else none

/-- The result of the turn's send. -/
def Turn.result (router : Router) (cfg : Config) (mapper : Mapper lib.toLibrary) (srv : Api.TextServer) (t : Turn) :
    Except Report.SendError Unit :=
  Report.send (((t.cycle router srv).round cfg mapper).attempt (t.payload cfg mapper))

section Turns
variable {router : Router} {cfg : Config} {mapper : Mapper lib.toLibrary} {d : DeviceRow} {srv : Api.TextServer}

end Turns

namespace Sample

def server : Api.TextServer := ⟨⟨Api.Sample.db.devices, .empty, .empty⟩, ∅, Hub.new⟩

def row : DeviceRow := ⟨"PC", "windows", Api.Sample.hashToken "tok-1", (Api.Sample.clock 0).utc.format⟩

/-- The static files have a route for every path, but not for a POST. -/
def router : Router := ⟨Api.Sample.config, fun _ => .answered 405⟩

end Sample

end CyberstalkMe.Agent
