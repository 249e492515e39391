import CyberstalkMe.Web.Contract
import CyberstalkMe.Api.Report

/-! # What the page receives

The guards accept what the server's encoder makes of a list of device states, of
an event and of an aggregated response. The page's values have the server's
fields, with each integer replaced by the nearest double.
-/
namespace CyberstalkMe.Web.Contract

open Foundations Json

/-! ### The server's records on the page -/

section Fields

variable (number : ℤ → ℚ)

def Activity.of (a : Shared.Activity) : Activity :=
  ⟨a.app, a.description, a.idle, number a.idleSeconds, some a.locked⟩

def Battery.of (b : Shared.Battery) : Battery := ⟨b.level.map number, b.charging⟩

def DeviceState.of (d : Shared.DeviceState) : DeviceState where
  deviceID := d.deviceID
  deviceName := d.deviceName
  deviceType := d.deviceType
  activity := .of number d.activity
  battery := d.battery.map (.of number)
  network := d.network
  online := d.online
  reportedAt := d.reportedAt.formatNano
  lastSeenAt := d.lastSeenAt.formatNano

def StreamEvent.of (ev : Shared.Event) : StreamEvent := ⟨ev.type.text, .of number ev.device⟩

def UsageTotals.of (t : Shared.UsageTotals) : UsageTotals :=
  ⟨number t.activeSeconds, number t.idleSeconds, number t.lockedSeconds⟩

def ActivityUsage.of (a : Shared.ActivityUsage) : ActivityUsage := ⟨a.description, number a.seconds⟩

/-- A nil slice has no value in the type. -/
def AppUsage.of (a : Shared.AppUsage) : Option AppUsage :=
  a.activities.map fun activities => ⟨a.app, number a.seconds, activities.map (.of number)⟩

def HourUsage.of (h : Shared.HourUsage) : HourUsage := ⟨number h.hour, number h.seconds, h.topApp⟩

def DayUsage.of (d : Shared.DayUsage) : DayUsage := ⟨d.date, number d.seconds, d.topApp⟩

def DeviceUsage.of (d : Shared.DeviceUsage) : Option DeviceUsage :=
  (d.apps.bind fun apps => apps.mapM (AppUsage.of number)).map fun apps =>
    { deviceID := d.deviceID
      deviceName := d.deviceName
      deviceType := d.deviceType
      totals := .of number d.totals
      apps
      hourly := d.hourly.map (List.map (.of number))
      daily := d.daily.map (List.map (.of number)) }

def UsageResponse.of (r : Shared.UsageResponse) : Option UsageResponse :=
  (r.devices.bind fun devices => devices.mapM (DeviceUsage.of number)).map fun devices =>
    ⟨r.window, r.timezone, r.start.formatNano, r.stop.formatNano, devices⟩

end Fields

/-! ### Reading what was encoded -/

section Read

variable {f : ℤ → ℚ}

theorem readArray_ofSlice {α β : Type} {encode : α → Json ℤ} {read : Unknown → Option β} {view : α → Option β}
    (hread : ∀ a, read (some (mapNumber f (encode a))) = view a) (s : Shared.Slice α) :
    readArray read (some (mapNumber f (Shared.ofSlice encode s))) = s.bind fun l => l.mapM view := by
  cases s with
  | none => rfl
  | some l => exact readArray_ofList hread l

theorem readNullable_ofSlice {α β : Type} {encode : α → Json ℤ} {read : Unknown → Option β} {view : α → β}
    (hread : ∀ a, read (some (mapNumber f (encode a))) = some (view a)) (s : Shared.Slice α) :
    readNullable (readArray read) (some (mapNumber f (Shared.ofSlice encode s))) =
      some (s.map (List.map view)) := by
  apply readNullable_ofOption rfl
  intro l
  rw [readArray_ofList hread, mapM_some]

theorem read_activity (a : Shared.Activity) :
    Activity.read (some (mapNumber f a.json)) = some (.of f a) := by
  simp [Activity.read, Shared.Activity.json, mapNumber, mapMembers, readObject, field, member, readString,
    readBool, readNumber, readOptional, Activity.of]

theorem read_battery (b : Shared.Battery) : Battery.read (some (mapNumber f b.json)) = some (.of f b) := by
  have hlevel : readNullable readNumber (some (mapNumber f (.ofOption .number b.level))) = some (b.level.map f) :=
    readNullable_ofOption (by rfl) (fun _ => by rfl) _
  simp [Battery.read, Shared.Battery.json, mapNumber, mapMembers, readObject, field, member, readBool,
    hlevel, Battery.of]

theorem read_deviceState (d : Shared.DeviceState) :
    DeviceState.read (some (mapNumber f d.json)) = some (.of f d) := by
  have hbattery := readNullable_ofOption rfl (read_battery (f := f)) d.battery
  have hnetwork : readNullable readString (some (mapNumber f (.ofOption .string d.network))) =
      some (d.network.map id) := readNullable_ofOption (by rfl) (fun _ => by rfl) _
  simp [DeviceState.read, Shared.DeviceState.json, mapNumber, mapMembers, readObject, field, member,
    readString, readBool, read_activity, hbattery, hnetwork, Shared.ofTime, DeviceState.of]

theorem read_streamEvent (ev : Shared.Event) :
    StreamEvent.read (some (mapNumber f ev.json)) = some (.of f ev) := by
  simp [StreamEvent.read, Shared.Event.json, mapNumber, mapMembers, readObject, field, member, readString,
    read_deviceState, StreamEvent.of]

theorem read_usageTotals (t : Shared.UsageTotals) :
    UsageTotals.read (some (mapNumber f t.json)) = some (.of f t) := by
  simp [UsageTotals.read, Shared.UsageTotals.json, mapNumber, mapMembers, readObject, field, member,
    readNumber, UsageTotals.of]

theorem read_activityUsage (a : Shared.ActivityUsage) :
    ActivityUsage.read (some (mapNumber f a.json)) = some (.of f a) := by
  simp [ActivityUsage.read, Shared.ActivityUsage.json, mapNumber, mapMembers, readObject, field, member,
    readString, readNumber, ActivityUsage.of]

theorem read_appUsage (a : Shared.AppUsage) : AppUsage.read (some (mapNumber f a.json)) = AppUsage.of f a := by
  have hactivities := readArray_ofSlice (read_activityUsage (f := f)) a.activities
  simp only [mapM_some] at hactivities
  cases hnil : a.activities with
  | none =>
    rw [hnil] at hactivities
    simp [AppUsage.read, Shared.AppUsage.json, mapNumber, mapMembers, readObject, field, member, readString,
      readNumber, hnil, hactivities, AppUsage.of]
  | some activities =>
    rw [hnil] at hactivities
    simp [AppUsage.read, Shared.AppUsage.json, mapNumber, mapMembers, readObject, field, member, readString,
      readNumber, hnil, hactivities, AppUsage.of]

theorem read_hourUsage (h : Shared.HourUsage) :
    HourUsage.read (some (mapNumber f h.json)) = some (.of f h) := by
  simp [HourUsage.read, Shared.HourUsage.json, mapNumber, mapMembers, readObject, field, member, readString,
    readNumber, HourUsage.of]

theorem read_dayUsage (d : Shared.DayUsage) : DayUsage.read (some (mapNumber f d.json)) = some (.of f d) := by
  simp [DayUsage.read, Shared.DayUsage.json, mapNumber, mapMembers, readObject, field, member, readString,
    readNumber, DayUsage.of]

theorem read_deviceUsage (d : Shared.DeviceUsage) :
    DeviceUsage.read (some (mapNumber f d.json)) = DeviceUsage.of f d := by
  have happs := readArray_ofSlice (read_appUsage (f := f)) d.apps
  have hhourly := readNullable_ofSlice (read_hourUsage (f := f)) d.hourly
  have hdaily := readNullable_ofSlice (read_dayUsage (f := f)) d.daily
  cases hread : d.apps.bind fun apps => apps.mapM (AppUsage.of f) <;>
    simp [DeviceUsage.read, Shared.DeviceUsage.json, mapNumber, mapMembers, readObject, field, member,
      readString, read_usageTotals, happs, hhourly, hdaily, hread, DeviceUsage.of]

theorem read_usageResponse (r : Shared.UsageResponse) :
    UsageResponse.read (some (mapNumber f r.json)) = UsageResponse.of f r := by
  have hdevices := readArray_ofSlice (read_deviceUsage (f := f)) r.devices
  cases hread : r.devices.bind fun devices => devices.mapM (DeviceUsage.of f) <;>
    simp [UsageResponse.read, Shared.UsageResponse.json, mapNumber, mapMembers, readObject, field, member,
      readString, hdevices, hread, Shared.ofTime, UsageResponse.of]

end Read

/-! ### The guards accept it -/

/-- The double that `JSON.parse` makes of an integer. -/
def nearest (n : ℤ) : ℚ := binary64 n

theorem parse_eq (text : Json ℤ) : parse text = text.mapNumber nearest := rfl

/-- The body of a snapshot is accepted and shows the device states. -/
def SnapshotAgrees (number : ℤ → ℚ) (states : List Shared.DeviceState) : Prop :=
  ∀ text, Shared.marshalStates (.of states) = some text → ∃ value, parseSnapshot (parse text) = some value ∧
    readArray DeviceState.read (some value) = some (states.map (.of number))

/-- The data of an event is accepted and shows the event. -/
def EventAgrees (number : ℤ → ℚ) (ev : Shared.Event) : Prop :=
  ∀ text, Shared.marshalEvent ev = some text → ∃ value, parseStreamEvent (some text) = some value ∧
    StreamEvent.read (some value) = some (.of number ev)

/-- The body of a usage request is accepted and shows the response; each of its devices has either
hours or days. -/
def UsageAgrees (number : ℤ → ℚ) (r : Shared.UsageResponse) : Prop :=
  ∀ text, Shared.marshalUsage r = some text → ∃ value u, parseUsage (parse text) = some value ∧
    UsageResponse.of number r = some u ∧ UsageResponse.read (some value) = some u ∧
    ∀ d ∈ u.devices, Xor (d.hourly ≠ none) (d.daily ≠ none)

theorem snapshot_agrees (states : List Shared.DeviceState) : SnapshotAgrees nearest states := by
  intro text htext
  have hread : readArray DeviceState.read (some (parse text)) = some (states.map (.of nearest)) := by
    rw [Shared.marshalStates_eq_some htext, parse_eq, readArray_ofSlice read_deviceState, Shared.Slice.of,
      Option.bind_some, mapM_some]
  have hguard := isSome_readArray (some (parse text)) isSome_deviceState
  rw [hread, Option.isSome_some, eq_comm, Bool.and_eq_true] at hguard
  refine ⟨parse text, ?_, hread⟩
  simp [parseSnapshot, hguard]

theorem event_agrees (ev : Shared.Event) : EventAgrees nearest ev := by
  intro text htext
  have htext := Shared.marshalEvent_eq_some htext
  have hread := read_streamEvent (f := nearest) ev
  rw [← htext, ← parse_eq] at hread
  refine ⟨parse text, ?_, hread⟩
  have htype : readString (field "type" (some (parse text))) = some ev.type.text := by
    rw [htext]
    rfl
  have hdevice : isDeviceState (field "device" (some (parse text))) = true := by
    rw [← isSome_deviceState, htext]
    exact congrArg Option.isSome (read_deviceState ev.device)
  have hrecord : isRecord (some (parse text)) = true := by
    rw [htext]
    rfl
  cases hev : ev.type <;> simp [parseStreamEvent, hrecord, htype, hdevice, hev, Shared.EventType.text]

/-! ### No nil slices -/

theorem activities_rankApps {m : KeyedTable String (KeyedTable String ℤ)} {a : Shared.AppUsage}
    (h : a ∈ Usage.rankApps m) : a.activities.isSome := by
  obtain ⟨row, -, rfl⟩ := List.mem_map.mp ((List.mem_insertionSort _).mp h)
  rfl

/-- The rank list has a value on the page: no app in it has a nil slice. -/
theorem rankApps_of (number : ℤ → ℚ) (m : KeyedTable String (KeyedTable String ℤ)) :
    ∃ apps, (Usage.rankApps m).mapM (AppUsage.of number) = some apps := by
  apply Option.isSome_iff_exists.mp
  rw [isSome_mapM, List.all_eq_true]
  intro a ha
  rw [AppUsage.of, Option.isSome_map]
  exact activities_rankApps ha

/-- Exactly one of the hours and the days of a device is set. -/
theorem aggregateDevice_slices {d : Usage.Device} {rows : List Usage.Row} {w : String} {start stop : Go.Time}
    {loc : Go.Zone} {fuel : ℕ} {du : Shared.DeviceUsage}
    (h : Usage.aggregateDevice d rows w start stop loc fuel = some du) :
    du.apps = some (Usage.rankApps (Usage.perApp rows)) ∧ Xor (du.hourly ≠ none) (du.daily ≠ none) := by
  rw [Usage.aggregateDevice] at h
  dsimp only at h
  split_ifs at h
  · cases h
    exact ⟨rfl, .inl ⟨Option.some_ne_none _, not_not.mpr rfl⟩⟩
  · obtain ⟨slots, -, rfl⟩ := Option.map_eq_some_iff.mp h
    exact ⟨rfl, .inr ⟨Option.some_ne_none _, not_not.mpr rfl⟩⟩

theorem aggregateDevice_of (number : ℤ → ℚ) {d : Usage.Device} {rows : List Usage.Row} {w : String}
    {start stop : Go.Time} {loc : Go.Zone} {fuel : ℕ} {du : Shared.DeviceUsage}
    (h : Usage.aggregateDevice d rows w start stop loc fuel = some du) :
    ∃ v, DeviceUsage.of number du = some v ∧ Xor (v.hourly ≠ none) (v.daily ≠ none) := by
  obtain ⟨apps, happs⟩ := rankApps_of number (Usage.perApp rows)
  obtain ⟨hrank, hone⟩ := aggregateDevice_slices h
  rw [DeviceUsage.of, hrank, Option.bind_some, happs, Option.map_some]
  refine ⟨_, rfl, ?_⟩
  simpa only [ne_eq, Option.map_eq_none_iff] using hone

theorem aggregate_of (number : ℤ → ℚ) {devices : List Usage.Device} {rows : List Usage.Row} {w : String}
    {start stop : Go.Time} {loc : Go.Zone} {fuel : ℕ} {r : Shared.UsageResponse}
    (h : Usage.aggregate devices rows w start stop loc fuel = some r) :
    ∃ u, UsageResponse.of number r = some u ∧ ∀ d ∈ u.devices, Xor (d.hourly ≠ none) (d.daily ≠ none) := by
  obtain ⟨out, hout, hr⟩ := Option.bind_eq_some_iff.mp h
  cases hr
  obtain ⟨us, hus, hone⟩ := exists_mapM hout fun _ _ hdevice => aggregateDevice_of number hdevice
  rw [UsageResponse.of, Shared.Slice.of, Option.bind_some, hus, Option.map_some]
  exact ⟨_, rfl, hone⟩

theorem usage_agrees {devices : List Usage.Device} {rows : List Usage.Row} {w : String}
    {start stop : Go.Time} {loc : Go.Zone} {fuel : ℕ} {r : Shared.UsageResponse}
    (h : Usage.aggregate devices rows w start stop loc fuel = some r) : UsageAgrees nearest r := by
  intro text htext
  obtain ⟨u, hu, hone⟩ := aggregate_of nearest h
  have hread : UsageResponse.read (some (parse text)) = some u := by
    rw [Shared.marshalUsage_eq_some htext, parse_eq, read_usageResponse, hu]
  have hguard := isSome_usageResponse (some (parse text))
  rw [hread, Option.isSome_some] at hguard
  refine ⟨parse text, u, ?_, hu, hread, hone⟩
  rw [parseUsage, ← hguard]
  rfl

/-! ### The wire contract -/

theorem nearest_eq {n : ℤ} (h : |n| ≤ 2 ^ 53) : nearest n = n := binary64_intCast h

/-- The page accepts every snapshot, every event and every aggregated response, and has the server's
fields with each integer as the nearest double, which is itself up to 2^53. -/
theorem encoded_values_accepted :
    (∀ states, SnapshotAgrees nearest states) ∧
    (∀ ev, EventAgrees nearest ev) ∧
    (∀ devices rows w start stop loc fuel r,
      Usage.aggregate devices rows w start stop loc fuel = some r → UsageAgrees nearest r) ∧
    ∀ n : ℤ, |n| ≤ 2 ^ 53 → nearest n = n :=
  ⟨snapshot_agrees, event_agrees, fun _ _ _ _ _ _ _ _ h => usage_agrees h, fun _ h => nearest_eq h⟩

/-- A report of a computer that was left alone for 2^53 + 1 seconds. -/
def longIdle : Shared.Event where
  type := .update
  device :=
    { (default : Shared.DeviceState) with
      deviceID := "d1"
      deviceType := "windows"
      activity := ⟨"Code", "Editing", true, 9007199254740993, false⟩
      online := true }

theorem encoded_values_accepted_sample :
    SnapshotAgrees nearest [longIdle.device] ∧ EventAgrees nearest longIdle ∧
    (∃ r text, Usage.aggregate [⟨"d1", "PC", "windows"⟩] [] "today" default default ⟨"UTC", 0, []⟩ 1 = some r ∧
      Shared.marshalUsage r = some text ∧ UsageAgrees nearest r) ∧
    nearest 9007199254740992 = 9007199254740992 :=
  ⟨encoded_values_accepted.1 _, encoded_values_accepted.2.1 _,
    ⟨_, _, rfl, if_pos (by decide +kernel),
      encoded_values_accepted.2.2.1 [⟨"d1", "PC", "windows"⟩] [] "today" default default
        ⟨"UTC", 0, []⟩ 1 _ rfl⟩,
    encoded_values_accepted.2.2.2 _ (by norm_num)⟩

/-- The page shows a second less. -/
theorem long_idle_rounded : ¬ EventAgrees (fun n => n) longIdle := by
  intro hexact
  have htext : Shared.marshalEvent longIdle = some longIdle.json := if_pos (by decide +kernel)
  obtain ⟨value, hvalue, hread⟩ := hexact _ htext
  obtain ⟨value', hvalue', hread'⟩ := event_agrees longIdle _ htext
  rw [hvalue] at hvalue'
  cases hvalue'
  rw [hread] at hread'
  have hidle := congrArg (fun ev => ev.device.activity.idleSeconds) (Option.some.inj hread')
  have hround : ((9007199254740993 : ℤ) : ℚ) = nearest 9007199254740993 := hidle
  rw [nearest, Int.cast_ofNat, binary64_halfway] at hround
  norm_num at hround

end CyberstalkMe.Web.Contract
