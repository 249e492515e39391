import CyberstalkMe.Shared.Usage
import CyberstalkMe.Foundations.KeyedTable
import CyberstalkMe.Go.Location
import Mathlib.Data.List.Sort
import Mathlib.Data.String.Basic

/-! # Aggregation of the stored buckets

`aggregate` turns the buckets of a window into the response, with local hours
and local dates. The loop over the local days takes the number of turns that it
may make; it has no result when it needs more.
-/
namespace CyberstalkMe.Usage

open Go Shared Foundations

def windowToday : String := "today"
def window7d : String := "7d"
def window30d : String := "30d"

/-- How many local days a window covers, today included. An unknown window has no answer. -/
def windowDays (w : String) : Option ℕ :=
  if w = windowToday then some 1
  else if w = window7d then some 7
  else if w = window30d then some 30
  else none

/-- One stored bucket. -/
structure Row where
  deviceID : String
  hourStart : Time
  state : UsageState
  app : String
  description : String
  seconds : ℤ
deriving DecidableEq, Repr

/-- A device that appears in the response even without buckets. -/
structure Device where
  deviceID : String
  deviceName : String
  deviceType : String
deriving DecidableEq, Repr

def addByApp (rows : List Row) : KeyedTable String ℤ :=
  rows.foldl (fun m r => m.upsert r.app r.seconds (· + r.seconds)) .empty

/-- The loop of `sumAndTop` over the sorted apps: the sum so far, and the app with the most so far. -/
def sumAndTopLoop (total best : ℤ) (top : String) : List (String × ℤ) → ℤ × String
  | [] => (total, top)
  | (app, seconds) :: rest =>
    if best < seconds then sumAndTopLoop (total + seconds) seconds app rest
    else sumAndTopLoop (total + seconds) best top rest

/-- The total, and the app that holds the most of it; ties go to the first name. -/
def sumAndTop (byApp : KeyedTable String ℤ) : ℤ × String :=
  let r := sumAndTopLoop 0 (-1) "" (byApp.rows.insertionSort fun a b => a.1 ≤ b.1)
  if r.1 = 0 then (0, "") else r

def hourlySlots (rows : List Row) (loc : Zone) : List HourUsage :=
  (List.range 24).map fun (h : ℕ) =>
    let perHour := rows.filter fun r =>
      r.state = .active && decide ((r.hourStart.inLoc loc).secondOfDay / 3600 = h)
    let s := sumAndTop (addByApp perHour)
    ⟨h, s.1, s.2⟩

/-- Local midnight of the day that contains `t`. -/
def startOfDay (t : Time) (loc : Zone) : Time :=
  let l := t.inLoc loc
  .ofDate l.date.year l.date.month l.date.day 0 0 loc

/-- The turns of the loop from midnight to midnight; `fuel` bounds their number. -/
def dayStarts (stop : Time) (loc : Zone) : ℕ → Time → Option (List Time)
  | 0, _ => none
  | fuel + 1, cur =>
    if cur.before stop then
      (dayStarts stop loc fuel (startOfDay (cur.addDate 1 loc) loc)).map (cur :: ·)
    else some []

/-- One entry for each turn of the day loop, from the day of `start` to `stop`. -/
def daySlots (rows : List Row) (start stop : Time) (loc : Zone) (fuel : ℕ) :
    Option (List DayUsage) :=
  (dayStarts stop loc fuel (startOfDay start loc)).map fun starts => starts.map fun cur =>
    let key := cur.dateText
    let perDay := rows.filter fun r => r.state = .active && (r.hourStart.inLoc loc).dateText = key
    let s := sumAndTop (addByApp perDay)
    ⟨key, s.1, s.2⟩

/-- The ranking by seconds, largest first; ties go by name. -/
def rankApps (perApp : KeyedTable String (KeyedTable String ℤ)) : List AppUsage :=
  let apps := perApp.rows.map fun (app, byDesc) =>
    let acts := byDesc.rows.map fun (desc, seconds) => (⟨desc, seconds⟩ : ActivityUsage)
    { app
      seconds := (byDesc.rows.map Prod.snd).sum
      activities := .of (acts.insertionSort fun a b =>
        b.seconds < a.seconds ∨ (a.seconds = b.seconds ∧ a.description ≤ b.description)) : AppUsage }
  apps.insertionSort fun a b => b.seconds < a.seconds ∨ (a.seconds = b.seconds ∧ a.app ≤ b.app)

def addTotals (t : UsageTotals) (r : Row) : UsageTotals :=
  match r.state with
  | .active => { t with activeSeconds := t.activeSeconds + r.seconds }
  | .idle => { t with idleSeconds := t.idleSeconds + r.seconds }
  | .locked => { t with lockedSeconds := t.lockedSeconds + r.seconds }

def perApp (rows : List Row) : KeyedTable String (KeyedTable String ℤ) :=
  rows.foldl (fun m r =>
    if r.state = .active then
      let add (byDesc : KeyedTable String ℤ) := byDesc.upsert r.description r.seconds (· + r.seconds)
      m.upsert r.app (add .empty) add
    else m) .empty

def aggregateDevice (d : Device) (rows : List Row) (w : String) (start stop : Time) (loc : Zone)
    (fuel : ℕ) : Option DeviceUsage :=
  let du : DeviceUsage :=
    { deviceID := d.deviceID
      deviceName := d.deviceName
      deviceType := d.deviceType
      totals := rows.foldl addTotals default
      apps := .of (rankApps (perApp rows))
      hourly := none
      daily := none }
  if w = windowToday then some { du with hourly := .of (hourlySlots rows loc) }
  else (daySlots rows start stop loc fuel).map fun slots => { du with daily := .of slots }

/-- The response for the buckets of a window. Rows of devices that are not listed are ignored. -/
def aggregate (devices : List Device) (rows : List Row) (w : String) (start stop : Time)
    (loc : Zone) (fuel : ℕ) : Option UsageResponse := do
  let sorted := devices.insertionSort fun a b => a.deviceID ≤ b.deviceID
  let out ← sorted.mapM fun d =>
    aggregateDevice d (rows.filter fun r => r.deviceID = d.deviceID) w start stop loc fuel
  some
    { window := w
      timezone := loc.name
      start := start.utc
      stop := stop.utc
      devices := .of out }

end CyberstalkMe.Usage
