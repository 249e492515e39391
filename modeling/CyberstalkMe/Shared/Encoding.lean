import CyberstalkMe.Shared.Usage
import CyberstalkMe.Go.Nanoseconds
import CyberstalkMe.Foundations.Json

/-! # Encoding of the responses

What `encoding/json` makes of the records that the page receives: a struct is an
object with its tags, a nil pointer or slice is `null`, a time is its text.
There is no encoding of a time that strict RFC 3339 cannot write.
-/
namespace CyberstalkMe.Shared

open Go Foundations

/-- A nil slice is `null`, an empty one is an empty array. -/
def ofSlice {α : Type} (encode : α → Json ℤ) : Slice α → Json ℤ := .ofOption (.ofList encode)

def ofTime (t : Time) : Json ℤ := .string t.formatNano

def Activity.json (a : Activity) : Json ℤ :=
  .object
    [("app", .string a.app),
     ("description", .string a.description),
     ("idle", .bool a.idle),
     ("idle_seconds", .number a.idleSeconds),
     ("locked", .bool a.locked)]

def Battery.json (b : Battery) : Json ℤ :=
  .object
    [("level", .ofOption .number b.level),
     ("charging", .bool b.charging)]

def DeviceState.json (d : DeviceState) : Json ℤ :=
  .object
    [("device_id", .string d.deviceID),
     ("device_name", .string d.deviceName),
     ("device_type", .string d.deviceType),
     ("activity", d.activity.json),
     ("battery", .ofOption Battery.json d.battery),
     ("network", .ofOption .string d.network),
     ("online", .bool d.online),
     ("reported_at", ofTime d.reportedAt),
     ("last_seen_at", ofTime d.lastSeenAt)]

def EventType.text : EventType → String
  | .update => "update"
  | .offline => "offline"

def Event.json (ev : Event) : Json ℤ :=
  .object
    [("type", .string ev.type.text),
     ("device", ev.device.json)]

def UsageTotals.json (t : UsageTotals) : Json ℤ :=
  .object
    [("active_seconds", .number t.activeSeconds),
     ("idle_seconds", .number t.idleSeconds),
     ("locked_seconds", .number t.lockedSeconds)]

def ActivityUsage.json (a : ActivityUsage) : Json ℤ :=
  .object
    [("description", .string a.description),
     ("seconds", .number a.seconds)]

def AppUsage.json (a : AppUsage) : Json ℤ :=
  .object
    [("app", .string a.app),
     ("seconds", .number a.seconds),
     ("activities", ofSlice ActivityUsage.json a.activities)]

def HourUsage.json (h : HourUsage) : Json ℤ :=
  .object
    [("hour", .number h.hour),
     ("seconds", .number h.seconds),
     ("top_app", .string h.topApp)]

def DayUsage.json (d : DayUsage) : Json ℤ :=
  .object
    [("date", .string d.date),
     ("seconds", .number d.seconds),
     ("top_app", .string d.topApp)]

def DeviceUsage.json (d : DeviceUsage) : Json ℤ :=
  .object
    [("device_id", .string d.deviceID),
     ("device_name", .string d.deviceName),
     ("device_type", .string d.deviceType),
     ("totals", d.totals.json),
     ("apps", ofSlice AppUsage.json d.apps),
     ("hourly", ofSlice HourUsage.json d.hourly),
     ("daily", ofSlice DayUsage.json d.daily)]

def UsageResponse.json (r : UsageResponse) : Json ℤ :=
  .object
    [("window", .string r.window),
     ("timezone", .string r.timezone),
     ("from", ofTime r.start),
     ("to", ofTime r.stop),
     ("devices", ofSlice DeviceUsage.json r.devices)]

/-- The times that `Time.MarshalJSON` writes: a year of four digits and less than 24 zone hours. -/
def marshals (t : Time) : Bool :=
  decide (0 ≤ t.year ∧ t.year ≤ 9999 ∧ -86400 < t.offset ∧ t.offset < 86400)

def DeviceState.marshals (d : DeviceState) : Bool :=
  Shared.marshals d.reportedAt && Shared.marshals d.lastSeenAt

/-- The value of a list of device states. -/
def marshalStates (states : Slice DeviceState) : Option (Json ℤ) :=
  if (states.getD []).all DeviceState.marshals then some (ofSlice DeviceState.json states) else none

def marshalEvent (ev : Event) : Option (Json ℤ) :=
  if ev.device.marshals then some ev.json else none

def marshalUsage (r : UsageResponse) : Option (Json ℤ) :=
  if marshals r.start && marshals r.stop then some r.json else none

theorem marshalStates_eq_some {states : Slice DeviceState} {j : Json ℤ} (h : marshalStates states = some j) :
    j = ofSlice DeviceState.json states := by
  unfold marshalStates at h
  split_ifs at h
  exact (Option.some.inj h).symm

theorem marshalEvent_eq_some {ev : Event} {j : Json ℤ} (h : marshalEvent ev = some j) : j = ev.json := by
  unfold marshalEvent at h
  split_ifs at h
  exact (Option.some.inj h).symm

theorem marshalUsage_eq_some {r : UsageResponse} {j : Json ℤ} (h : marshalUsage r = some j) : j = r.json := by
  unfold marshalUsage at h
  split_ifs at h
  exact (Option.some.inj h).symm

/-- A timestamp that the server can read from a report is written, and its text is read back to it. -/
theorem marshals_of_jsonTime {t : Time} (h : jsonTime t) : marshals t ∧ Time.parse t.formatNano = some t := by
  obtain ⟨h0, hyear, hlow, hhigh, hminutes⟩ := of_decide_eq_true h
  exact ⟨decide_eq_true ⟨h0, hyear, hlow, hhigh⟩, Time.parse_formatNano h0 hyear hlow hhigh hminutes⟩

end CyberstalkMe.Shared
