import CyberstalkMe.Shared.Contract

/-! # The usage part of the wire contract

The body of `GET /api/v1/usage`. A Go slice may be nil, which JSON tells apart
from an empty one.
-/
namespace CyberstalkMe.Shared

open Go

/-- A Go slice: `none` is the nil slice. -/
abbrev Slice (α : Type) := Option (List α)

/-- `make([]T, 0, n)` with the elements appended to it. -/
def Slice.of {α : Type} (l : List α) : Slice α := some l

structure UsageTotals where
  activeSeconds : ℤ
  idleSeconds : ℤ
  lockedSeconds : ℤ
deriving DecidableEq, Repr, Inhabited

structure ActivityUsage where
  description : String
  seconds : ℤ
deriving DecidableEq, Repr

structure AppUsage where
  app : String
  seconds : ℤ
  activities : Slice ActivityUsage
deriving DecidableEq, Repr

structure HourUsage where
  hour : ℤ
  seconds : ℤ
  topApp : String
deriving DecidableEq, Repr

structure DayUsage where
  date : String
  seconds : ℤ
  topApp : String
deriving DecidableEq, Repr

/-- The usage of one device. `hourly` is set for the window "today", `daily` for the others. -/
structure DeviceUsage where
  deviceID : String
  deviceName : String
  deviceType : String
  totals : UsageTotals
  apps : Slice AppUsage
  hourly : Slice HourUsage
  daily : Slice DayUsage
deriving DecidableEq, Repr

structure UsageResponse where
  window : String
  timezone : String
  start : Time
  stop : Time
  devices : Slice DeviceUsage
deriving DecidableEq, Repr

end CyberstalkMe.Shared
