import CyberstalkMe.Api.Report
import CyberstalkMe.Foundations.Execution

/-! # One step at a time

The server process whose requests and scans run one after the other under a
clock that never goes back. `Transition` lists what one step can do; every
invariant of this model is proved from it.
-/
namespace CyberstalkMe.Sequential

open Go Shared Store Foundations Api

/-- The server, its clock, and two records that no step reads: the accepted reports, and the
clock and the listing of every completed scan. -/
structure System where
  srv : Server
  clock : Time
  accepted : List Observation
  scans : List (Time × List DeviceState)

inductive Action where
  | tick (now : Time)
  | register (id name deviceType tokenHash : String)
  | report (req : Request) (faults : Faults)
  | scan (fails : Bool)
deriving DecidableEq, Repr

/-- A process that starts over a store. -/
def System.start (db : DB) (clock : Time) : System := ⟨⟨db, ∅, Hub.new⟩, clock, [], []⟩

def System.afterScan (cfg : Config) (s : System) (states : List DeviceState) : System :=
  let out := State.scanOnce cfg.offlineThreshold s.clock s.srv.known states
  { s with
    srv := { s.srv with known := out.1, hub := s.srv.hub.broadcastAll out.2 }
    scans := s.scans ++ [(s.clock, states)] }

def System.afterReport (cfg : Config) (s : System) (o : Observation) (faults : Faults) : System :=
  { s with srv := acceptReport cfg s.srv o faults, accepted := s.accepted ++ [o] }

section AfterReport
variable (cfg : Config) (s : System) (o : Observation) (faults : Faults)

@[simp] theorem System.srv_afterReport :
    (s.afterReport cfg o faults).srv = acceptReport cfg s.srv o faults := rfl

@[simp] theorem System.clock_afterReport : (s.afterReport cfg o faults).clock = s.clock := rfl

@[simp] theorem System.accepted_afterReport :
    (s.afterReport cfg o faults).accepted = s.accepted ++ [o] := rfl

@[simp] theorem System.scans_afterReport : (s.afterReport cfg o faults).scans = s.scans := rfl

end AfterReport

def System.scan (cfg : Config) (s : System) (fails : Bool) : System :=
  match listDeviceStates s.srv.db fails with
  | .error _ => s
  | .ok states => s.afterScan cfg states

def System.report (cfg : Config) (s : System) (req : Request) (faults : Faults) : System :=
  let out := Api.report cfg s.srv req s.clock faults
  { s with
    srv := out.1
    accepted :=
      if out.2.status = 204 then
        s.accepted ++ (prepare cfg s.srv.db req s.clock faults.lookup).toOption.toList
      else s.accepted }

def step (cfg : Config) (s : System) : Action → Option System
  | .tick now => if s.clock.nanos ≤ now.nanos then some { s with clock := now } else none
  | .register id name deviceType tokenHash =>
    some { s with srv := { s.srv with db := registerDevice s.srv.db id name deviceType tokenHash s.clock } }
  | .report req faults => some (s.report cfg req faults)
  | .scan fails => some (s.scan cfg fails)

/-- What one step can do. -/
inductive Transition (cfg : Config) (s : System) : Action → System → Prop
  | tick {now : Time} (hnow : s.clock.nanos ≤ now.nanos) :
      Transition cfg s (.tick now) { s with clock := now }
  | register {id name deviceType tokenHash : String} :
      Transition cfg s (.register id name deviceType tokenHash)
        { s with srv := { s.srv with db := registerDevice s.srv.db id name deviceType tokenHash s.clock } }
  | rejected {req : Request} {faults : Faults} {resp : Response}
      (hprep : prepare cfg s.srv.db req s.clock faults.lookup = .error resp) :
      Transition cfg s (.report req faults) s
  | failed {req : Request} {faults : Faults} {o : Observation}
      (hprep : prepare cfg s.srv.db req s.clock faults.lookup = .ok o)
      (hfails : faults.upsertState = true) :
      Transition cfg s (.report req faults)
        { s with srv := { s.srv with db := creditReport cfg s.srv.db o faults } }
  | accepted {req : Request} {faults : Faults} {o : Observation}
      (hprep : prepare cfg s.srv.db req s.clock faults.lookup = .ok o)
      (hfails : faults.upsertState = false) :
      Transition cfg s (.report req faults) (s.afterReport cfg o faults)
  | scanFailed {fails : Bool} {e : StoreError} (hlist : listDeviceStates s.srv.db fails = .error e) :
      Transition cfg s (.scan fails) s
  | scanned {fails : Bool} {states : List DeviceState}
      (hlist : listDeviceStates s.srv.db fails = .ok states) :
      Transition cfg s (.scan fails) (s.afterScan cfg states)

theorem transition_report (cfg : Config) (s : System) (req : Request) (faults : Faults) :
    Transition cfg s (.report req faults) (s.report cfg req faults) := by
  unfold System.report
  rcases report_cases cfg s.srv req s.clock faults with
    ⟨resp, hprep, hstatus, hout⟩ | ⟨o, hprep, ⟨hfails, hout⟩ | ⟨hfails, hout⟩⟩
  · simp only [hout, if_neg hstatus]
    exact .rejected hprep
  · have hstatus : writeInternalError.status ≠ 204 := by decide
    simp only [hout, if_neg hstatus]
    exact .failed hprep hfails
  · have hstatus : noContent.status = 204 := rfl
    simp only [hout, if_pos hstatus, hprep, Except.toOption, Option.toList_some]
    exact .accepted hprep hfails

theorem transition_scan (cfg : Config) (s : System) (fails : Bool) :
    Transition cfg s (.scan fails) (s.scan cfg fails) := by
  unfold System.scan
  cases hlist : listDeviceStates s.srv.db fails with
  | error e => exact .scanFailed hlist
  | ok states => exact .scanned hlist

theorem transition_of_step {cfg : Config} {s t : System} {a : Action} (h : step cfg s a = some t) :
    Transition cfg s a t := by
  cases a with
  | tick now =>
    rw [step] at h
    split_ifs at h with hnow
    cases h
    exact .tick hnow
  | register id name deviceType tokenHash =>
    cases h
    exact .register
  | report req faults =>
    cases h
    exact transition_report cfg s req faults
  | scan fails =>
    cases h
    exact transition_scan cfg s fails

@[simp] theorem deviceState_registerDevice (db : DB) (id name deviceType tokenHash : String)
    (createdAt : Time) :
    (registerDevice db id name deviceType tokenHash createdAt).deviceState = db.deviceState := rfl

@[simp] theorem usageBucket_registerDevice (db : DB) (id name deviceType tokenHash : String)
    (createdAt : Time) :
    (registerDevice db id name deviceType tokenHash createdAt).usageBucket = db.usageBucket := rfl

theorem isSome_devices_registerDevice {db : DB} {d : String} (h : (db.devices.lookup d).isSome)
    (id name deviceType tokenHash : String) (createdAt : Time) :
    ((registerDevice db id name deviceType tokenHash createdAt).devices.lookup d).isSome :=
  KeyedTable.lookup_upsert_isSome _ _ _ _ _ h

end CyberstalkMe.Sequential
