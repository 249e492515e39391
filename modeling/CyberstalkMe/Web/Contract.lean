import CyberstalkMe.Shared.Encoding
import CyberstalkMe.Foundations.Binary64
import CyberstalkMe.Usage.Aggregate

/-! # The guards of the page

The page checks the structure of what it receives and takes it for a value of
its own types. The numbers of these are doubles, so an integer of the server
arrives as the nearest one.
-/
namespace CyberstalkMe.Web.Contract

open Foundations Json

/-- A value from `JSON.parse`, or `undefined`. -/
abbrev Unknown := Option (Json ℚ)

/-- `JSON.parse` of a text, given by the value that it denotes. -/
def parse (text : Json ℤ) : Json ℚ := text.mapNumber fun n : ℤ => binary64 n

/-! ### The types -/

structure Activity where
  app : String
  description : String
  idle : Bool
  idleSeconds : ℚ
  locked : Option Bool
deriving DecidableEq

structure Battery where
  level : Option ℚ
  charging : Bool
deriving DecidableEq

structure DeviceState where
  deviceID : String
  deviceName : String
  deviceType : String
  activity : Activity
  battery : Option Battery
  network : Option String
  online : Bool
  reportedAt : String
  lastSeenAt : String
deriving DecidableEq

structure StreamEvent where
  type : String
  device : DeviceState
deriving DecidableEq

structure UsageTotals where
  activeSeconds : ℚ
  idleSeconds : ℚ
  lockedSeconds : ℚ
deriving DecidableEq

structure ActivityUsage where
  description : String
  seconds : ℚ
deriving DecidableEq

structure AppUsage where
  app : String
  seconds : ℚ
  activities : List ActivityUsage
deriving DecidableEq

structure HourUsage where
  hour : ℚ
  seconds : ℚ
  topApp : String
deriving DecidableEq

structure DayUsage where
  date : String
  seconds : ℚ
  topApp : String
deriving DecidableEq

structure DeviceUsage where
  deviceID : String
  deviceName : String
  deviceType : String
  totals : UsageTotals
  apps : List AppUsage
  hourly : Option (List HourUsage)
  daily : Option (List DayUsage)
deriving DecidableEq

structure UsageResponse where
  window : String
  timezone : String
  start : String
  stop : String
  devices : List DeviceUsage
deriving DecidableEq

/-! ### The guards -/

def isNull : Unknown → Bool
  | some .null => true
  | _ => false

def isBoolean : Unknown → Bool
  | some (.bool _) => true
  | _ => false

def isNumber : Unknown → Bool
  | some (.number _) => true
  | _ => false

def isString : Unknown → Bool
  | some (.string _) => true
  | _ => false

def isArray : Unknown → Bool
  | some (.array _) => true
  | _ => false

/-- `value.every(guard)` of an array. -/
def every (guard : Unknown → Bool) : Unknown → Bool
  | some (.array elems) => elems.all fun value => guard (some value)
  | _ => false

def isRecord : Unknown → Bool
  | some (.object _) => true
  | _ => false

def isActivity (value : Unknown) : Bool :=
  isRecord value &&
    isString (field "app" value) &&
    isString (field "description" value) &&
    isBoolean (field "idle" value) &&
    isNumber (field "idle_seconds" value) &&
    -- an agent older than the field omits it
    ((field "locked" value).isNone || isBoolean (field "locked" value))

def isBattery (value : Unknown) : Bool :=
  isRecord value &&
    (isNull (field "level" value) || isNumber (field "level" value)) &&
    isBoolean (field "charging" value)

def isDeviceState (value : Unknown) : Bool :=
  isRecord value &&
    isString (field "device_id" value) &&
    isString (field "device_name" value) &&
    isString (field "device_type" value) &&
    isActivity (field "activity" value) &&
    (isNull (field "battery" value) || isBattery (field "battery" value)) &&
    (isNull (field "network" value) || isString (field "network" value)) &&
    isBoolean (field "online" value) &&
    isString (field "reported_at" value) &&
    isString (field "last_seen_at" value)

/-- The body of `GET /api/v1/snapshot`, when it is an array of device states. -/
def parseSnapshot (value : Json ℚ) : Option (Json ℚ) :=
  if !isArray (some value) then none
  else if !every isDeviceState (some value) then none
  else some value

def isUsageTotals (value : Unknown) : Bool :=
  isRecord value &&
    isNumber (field "active_seconds" value) &&
    isNumber (field "idle_seconds" value) &&
    isNumber (field "locked_seconds" value)

def isActivityUsage (value : Unknown) : Bool :=
  isRecord value &&
    isString (field "description" value) &&
    isNumber (field "seconds" value)

def isAppUsage (value : Unknown) : Bool :=
  isRecord value &&
    isString (field "app" value) &&
    isNumber (field "seconds" value) &&
    isArray (field "activities" value) &&
    every isActivityUsage (field "activities" value)

def isHourUsage (value : Unknown) : Bool :=
  isRecord value &&
    isNumber (field "hour" value) &&
    isNumber (field "seconds" value) &&
    isString (field "top_app" value)

def isDayUsage (value : Unknown) : Bool :=
  isRecord value &&
    isString (field "date" value) &&
    isNumber (field "seconds" value) &&
    isString (field "top_app" value)

def isDeviceUsage (value : Unknown) : Bool :=
  isRecord value &&
    isString (field "device_id" value) &&
    isString (field "device_name" value) &&
    isString (field "device_type" value) &&
    isUsageTotals (field "totals" value) &&
    isArray (field "apps" value) &&
    every isAppUsage (field "apps" value) &&
    (isNull (field "hourly" value) ||
      (isArray (field "hourly" value) && every isHourUsage (field "hourly" value))) &&
    (isNull (field "daily" value) ||
      (isArray (field "daily" value) && every isDayUsage (field "daily" value)))

def isUsageResponse (value : Unknown) : Bool :=
  isRecord value &&
    isString (field "window" value) &&
    isString (field "timezone" value) &&
    isString (field "from" value) &&
    isString (field "to" value) &&
    isArray (field "devices" value) &&
    every isDeviceUsage (field "devices" value)

/-- The body of `GET /api/v1/usage`. -/
def parseUsage (value : Json ℚ) : Option (Json ℚ) :=
  if isUsageResponse (some value) then some value else none

/-- The `data:` line of a server-sent event; `none` is a text that is not JSON. -/
def parseStreamEvent (raw : Option (Json ℤ)) : Option (Json ℚ) :=
  match raw.map parse with
  | none => none
  | some data =>
    if !isRecord (some data) then none
    else if readString (field "type" (some data)) ≠ some "update" ∧
        readString (field "type" (some data)) ≠ some "offline" then none
    else if !isDeviceState (field "device" (some data)) then none
    else some data

/-! ### The values of the types -/

def Activity.read : Unknown → Option Activity := readObject fun value =>
  Activity.mk <$> readString (field "app" value) <*> readString (field "description" value) <*>
    readBool (field "idle" value) <*> readNumber (field "idle_seconds" value) <*>
    readOptional readBool (field "locked" value)

def Battery.read : Unknown → Option Battery := readObject fun value =>
  Battery.mk <$> readNullable readNumber (field "level" value) <*> readBool (field "charging" value)

def DeviceState.read : Unknown → Option DeviceState := readObject fun value =>
  DeviceState.mk <$> readString (field "device_id" value) <*> readString (field "device_name" value) <*>
    readString (field "device_type" value) <*> Activity.read (field "activity" value) <*>
    readNullable Battery.read (field "battery" value) <*> readNullable readString (field "network" value) <*>
    readBool (field "online" value) <*> readString (field "reported_at" value) <*>
    readString (field "last_seen_at" value)

def StreamEvent.read : Unknown → Option StreamEvent := readObject fun value =>
  StreamEvent.mk <$> readString (field "type" value) <*> DeviceState.read (field "device" value)

def UsageTotals.read : Unknown → Option UsageTotals := readObject fun value =>
  UsageTotals.mk <$> readNumber (field "active_seconds" value) <*> readNumber (field "idle_seconds" value) <*>
    readNumber (field "locked_seconds" value)

def ActivityUsage.read : Unknown → Option ActivityUsage := readObject fun value =>
  ActivityUsage.mk <$> readString (field "description" value) <*> readNumber (field "seconds" value)

def AppUsage.read : Unknown → Option AppUsage := readObject fun value =>
  AppUsage.mk <$> readString (field "app" value) <*> readNumber (field "seconds" value) <*>
    readArray ActivityUsage.read (field "activities" value)

def HourUsage.read : Unknown → Option HourUsage := readObject fun value =>
  HourUsage.mk <$> readNumber (field "hour" value) <*> readNumber (field "seconds" value) <*>
    readString (field "top_app" value)

def DayUsage.read : Unknown → Option DayUsage := readObject fun value =>
  DayUsage.mk <$> readString (field "date" value) <*> readNumber (field "seconds" value) <*>
    readString (field "top_app" value)

def DeviceUsage.read : Unknown → Option DeviceUsage := readObject fun value =>
  DeviceUsage.mk <$> readString (field "device_id" value) <*> readString (field "device_name" value) <*>
    readString (field "device_type" value) <*> UsageTotals.read (field "totals" value) <*>
    readArray AppUsage.read (field "apps" value) <*>
    readNullable (readArray HourUsage.read) (field "hourly" value) <*>
    readNullable (readArray DayUsage.read) (field "daily" value)

def UsageResponse.read : Unknown → Option UsageResponse := readObject fun value =>
  UsageResponse.mk <$> readString (field "window" value) <*> readString (field "timezone" value) <*>
    readString (field "from" value) <*> readString (field "to" value) <*>
    readArray DeviceUsage.read (field "devices" value)

/-! ### A guard accepts the values of its type -/

section Guards

variable {α : Type} {read : Unknown → Option α} {guard : Unknown → Bool} (value : Unknown)

@[simp] theorem isSome_readBool : (readBool value).isSome = isBoolean value := by
  rcases value with _ | (_ | _ | _ | _ | _ | _) <;> rfl

@[simp] theorem isSome_readNumber : (readNumber value).isSome = isNumber value := by
  rcases value with _ | (_ | _ | _ | _ | _ | _) <;> rfl

@[simp] theorem isSome_readString : (readString value).isSome = isString value := by
  rcases value with _ | (_ | _ | _ | _ | _ | _) <;> rfl

theorem isSome_readNullable (h : ∀ value, (read value).isSome = guard value) :
    (readNullable read value).isSome = (isNull value || guard value) := by
  rcases value with _ | (_ | _ | _ | _ | _ | _) <;> simp [readNullable, isNull, h]

theorem isSome_readOptional (h : ∀ value, (read value).isSome = guard value) :
    (readOptional read value).isSome = (value.isNone || guard value) := by
  cases value <;> simp [readOptional, h]

theorem isSome_readArray (h : ∀ value, (read value).isSome = guard value) :
    (readArray read value).isSome = (isArray value && every guard value) := by
  rcases value with _ | (_ | _ | _ | _ | _ | _) <;> simp [readArray, isArray, every, isSome_mapM, h]

theorem isSome_readObject : (readObject read value).isSome = (isRecord value && (read value).isSome) := by
  rcases value with _ | (_ | _ | _ | _ | _ | _) <;> simp [readObject, isRecord]

theorem isSome_activity : (Activity.read value).isSome = isActivity value := by
  simp [Activity.read, isActivity, isSome_readObject, isSome_seq, isSome_readOptional _ isSome_readBool,
    Bool.and_assoc]

theorem isSome_battery : (Battery.read value).isSome = isBattery value := by
  simp [Battery.read, isBattery, isSome_readObject, isSome_seq, isSome_readNullable _ isSome_readNumber,
    Bool.and_assoc]

theorem isSome_deviceState : (DeviceState.read value).isSome = isDeviceState value := by
  simp [DeviceState.read, isDeviceState, isSome_readObject, isSome_seq, isSome_activity,
    isSome_readNullable _ isSome_battery, isSome_readNullable _ isSome_readString, Bool.and_assoc]

theorem isSome_usageTotals : (UsageTotals.read value).isSome = isUsageTotals value := by
  simp [UsageTotals.read, isUsageTotals, isSome_readObject, isSome_seq, Bool.and_assoc]

theorem isSome_activityUsage : (ActivityUsage.read value).isSome = isActivityUsage value := by
  simp [ActivityUsage.read, isActivityUsage, isSome_readObject, isSome_seq, Bool.and_assoc]

theorem isSome_appUsage : (AppUsage.read value).isSome = isAppUsage value := by
  simp [AppUsage.read, isAppUsage, isSome_readObject, isSome_seq, isSome_readArray _ isSome_activityUsage,
    Bool.and_assoc]

theorem isSome_hourUsage : (HourUsage.read value).isSome = isHourUsage value := by
  simp [HourUsage.read, isHourUsage, isSome_readObject, isSome_seq, Bool.and_assoc]

theorem isSome_dayUsage : (DayUsage.read value).isSome = isDayUsage value := by
  simp [DayUsage.read, isDayUsage, isSome_readObject, isSome_seq, Bool.and_assoc]

theorem isSome_deviceUsage : (DeviceUsage.read value).isSome = isDeviceUsage value := by
  simp [DeviceUsage.read, isDeviceUsage, isSome_readObject, isSome_seq, isSome_usageTotals,
    isSome_readArray _ isSome_appUsage, isSome_readNullable _ fun value => isSome_readArray value isSome_hourUsage,
    isSome_readNullable _ fun value => isSome_readArray value isSome_dayUsage, Bool.and_assoc]

theorem isSome_usageResponse : (UsageResponse.read value).isSome = isUsageResponse value := by
  simp [UsageResponse.read, isUsageResponse, isSome_readObject, isSome_seq,
    isSome_readArray _ isSome_deviceUsage, Bool.and_assoc]

end Guards

end CyberstalkMe.Web.Contract
