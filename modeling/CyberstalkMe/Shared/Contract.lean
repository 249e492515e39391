import CyberstalkMe.Go.Time

/-! # The wire contract

The records that the agent, the server and the page exchange. The default value
of a record is Go's zero value.
-/
namespace CyberstalkMe.Shared

open Go

/-- The sanitized description of what the user is doing. -/
structure Activity where
  app : String
  description : String
  idle : Bool
  idleSeconds : ℤ
  locked : Bool
deriving DecidableEq, Repr, Inhabited

structure Battery where
  level : Option ℤ
  charging : Bool
deriving DecidableEq, Repr, Inhabited

/-- The body of `POST /api/v1/report`. `reportedAt` is the client's clock. -/
structure ReportPayload where
  deviceID : String
  deviceName : String
  deviceType : String
  activity : Activity
  battery : Option Battery
  network : Option String
  reportedAt : Time
deriving DecidableEq, Repr, Inhabited

/-- The state of a device as the page receives it. `lastSeenAt` is the server's clock. -/
structure DeviceState where
  deviceID : String
  deviceName : String
  deviceType : String
  activity : Activity
  battery : Option Battery
  network : Option String
  online : Bool
  reportedAt : Time
  lastSeenAt : Time
deriving DecidableEq, Repr, Inhabited

inductive EventType where
  | update
  | offline
deriving DecidableEq, Repr

/-- One server-sent event. -/
structure Event where
  type : EventType
  device : DeviceState
deriving DecidableEq, Repr

/-- Which bucket a second of wall-clock time is attributed to. -/
inductive UsageState where
  | active
  | idle
  | locked
deriving DecidableEq, Repr

/-! ### Encoding as JSON

A JSON text is represented by the payload it decodes to; `encoding/json` is the
identity on every field but the timestamp, whose local year must have four
digits. It reads a zone offset of up to 24 hours and 60 minutes, and writes one
of less than a day.
-/

inductive JSONText where
  | payload (p : ReportPayload)
  | malformed
deriving DecidableEq, Repr

/-- The timestamps that strict RFC 3339 can write. -/
def jsonTime (t : Time) : Bool :=
  decide (0 ≤ t.year ∧ t.year ≤ 9999 ∧ -86400 < t.offset ∧ t.offset < 86400 ∧ t.offset % 60 = 0)

/-- The timestamps that `time.Parse` reads. -/
def readableTime (t : Time) : Bool :=
  decide (0 ≤ t.year ∧ t.year ≤ 9999 ∧ -90000 ≤ t.offset ∧ t.offset ≤ 90000 ∧ t.offset % 60 = 0)

def marshal (p : ReportPayload) : Option JSONText :=
  if jsonTime p.reportedAt then some (.payload p) else none

def unmarshal : JSONText → Option ReportPayload
  | .payload p => if readableTime p.reportedAt then some p else none
  | .malformed => none

theorem readableTime_of_jsonTime {t : Time} (h : jsonTime t) : readableTime t := by
  simp only [jsonTime, readableTime, decide_eq_true_eq] at *
  omega

theorem unmarshal_payload {p : ReportPayload} (h : jsonTime p.reportedAt) : unmarshal (.payload p) = some p :=
  if_pos (readableTime_of_jsonTime h)

theorem marshal_eq_some {p : ReportPayload} {j : JSONText} :
    marshal p = some j ↔ jsonTime p.reportedAt ∧ j = .payload p := by
  unfold marshal
  split_ifs with h <;> simp [h, eq_comm]

theorem unmarshal_of_marshal {p : ReportPayload} {j : JSONText} (h : marshal p = some j) :
    unmarshal j = some p := by
  obtain ⟨ht, rfl⟩ := marshal_eq_some.mp h
  exact unmarshal_payload ht

end CyberstalkMe.Shared
