import CyberstalkMe.Concurrent.Process
import CyberstalkMe.Sequential.System

/-! # One at a time

A handler whose steps are not interrupted does what `report` does, and an
uninterrupted scan what `scanOnce` does. So every run of the sequential system is
a run of the process.
-/
namespace CyberstalkMe.Concurrent

open Go Shared Store Foundations Api

/-! ### One handler -/

/-- The action is a step of handler `i`. -/
def Action.ofHandler (i : ℕ) : Action → Prop
  | .request j _ _ | .handler j _ => j = i
  | .tick _ | .register .. | .scanner _ => False

/-- Handler `i` has taken several steps, and stored these reports. -/
def Process.served (p : Process) (i : ℕ) (srv : Server) (h : Handler) (stored : List Observation) : Process :=
  { p with
    srv
    handlers := Function.update p.handlers i h
    stores := p.stores ++ stored }

theorem Process.advance_served (p : Process) (i : ℕ) (srv srv' : Server) (h h' : Handler)
    (stored : List Observation) :
    (p.served i srv h stored).advance i srv' h' = p.served i srv' h' (stored ++ h'.justStored) := by
  simp only [served, advance, Function.update_idem, List.append_assoc]

section Handler
variable {cfg : Config} {p : Process} {i : ℕ}

theorem reaches_handler (faults : Faults) {srv srv' : Server} {h h' : Handler} {stored : List Observation}
    (hreach : Reaches (step cfg) (Action.ofHandler i) p (p.served i srv h stored))
    (hstep : h.step cfg srv p.clock faults = some (srv', h')) :
    Reaches (step cfg) (Action.ofHandler i) p (p.served i srv' h' (stored ++ h'.justStored)) := by
  have hallowed : Action.ofHandler i (.handler i faults) := rfl
  apply hreach.tail hallowed
  rw [← Process.advance_served p i srv srv' h h' stored, step]
  have hi : (p.served i srv h stored).handlers i = h := Function.update_self ..
  rw [hi]
  exact congrArg (Option.map _) hstep

/-- The step that adds usage, whether its transaction succeeds or not. -/
theorem exists_credited (cfg : Config) (srv : Server) (now : Time) (faults : Faults) (o : Observation) :
    ∃ added, (Handler.observed o (getState srv.db o.id faults.getState)).step cfg srv now faults =
      some ({ srv with db := creditReport cfg srv.db o faults }, .credited o added) := by
  rw [creditReport, ← attributeUsage_eq, attributeUsage, Handler.step]
  cases addUsage srv.db o.id (usageDeltas cfg (getState srv.db o.id faults.getState) o.seenAt)
    faults.addUsage with
  | error e => exact ⟨_, rfl⟩
  | ok db => exact ⟨_, rfl⟩

def storedBy (cfg : Config) (srv : Server) (req : Request) (now : Time) (faults : Faults) : List Observation :=
  if (report cfg srv req now faults).2.status = 204 then
    (prepare cfg srv.db req now faults.lookup).toOption.toList
  else []

variable (cfg) in
/-- A handler that runs to its end without interruption does what `report` does. -/
theorem reaches_report (hi : p.handlers i = .idle) (req : Request) (faults : Faults) :
    ∃ h, Reaches (step cfg) (Action.ofHandler i) p (p.served i (report cfg p.srv req p.clock faults).1 h
        (storedBy cfg p.srv req p.clock faults)) ∧
      h.response = some (report cfg p.srv req p.clock faults).2 := by
  have harrive : Reaches (step cfg) (Action.ofHandler i) p (p.served i p.srv (.accept cfg p.srv.db req faults.lookup) []) := by
    have hallowed : Action.ofHandler i (.request i req faults) := rfl
    apply (Reaches.refl p).tail hallowed
    rw [step, hi]
    simp only [Process.advance, justStored_accept, Process.served]
  rw [Handler.accept] at harrive
  rcases report_cases cfg p.srv req p.clock faults with ⟨resp, hprep, hstatus, hout⟩ | ⟨o, hprep, hrest⟩
  · rw [storedBy, hout, if_neg hstatus]
    rw [prepare] at hprep
    cases hcheck : checkReport cfg p.srv.db req faults.lookup with
    | error resp' =>
      rw [hcheck] at harrive hprep
      cases hprep
      exact ⟨_, harrive, rfl⟩
    | ok r =>
      rw [hcheck] at harrive hprep
      have hstamp : stamp r.1 r.2 p.clock = .error resp := hprep
      have hstep : (Handler.checked r.1 r.2).step cfg p.srv p.clock faults =
          some (p.srv, .answered resp) := by
        rw [Handler.step, hstamp]
      exact ⟨_, reaches_handler faults harrive hstep, rfl⟩
  · obtain ⟨dev, payload, hcheck, hstamp⟩ := prepare_eq_ok.mp hprep
    rw [hcheck] at harrive
    have hstep : (Handler.checked dev payload).step cfg p.srv p.clock faults = some (p.srv, .stamped o) := by
      rw [Handler.step, hstamp]
    have hobserved := reaches_handler faults (reaches_handler faults harrive hstep) rfl
    obtain ⟨added, hadded⟩ := exists_credited cfg p.srv p.clock faults o
    have hcredited := reaches_handler faults hobserved hadded
    rcases hrest with ⟨hfails, hout⟩ | ⟨hfails, hout⟩
    · have hstatus : writeInternalError.status ≠ 204 := by decide
      rw [storedBy, hout, if_neg hstatus]
      have hstep : (Handler.credited o added).step cfg { p.srv with db := creditReport cfg p.srv.db o faults }
          p.clock faults =
          some ({ p.srv with db := creditReport cfg p.srv.db o faults }, .answered writeInternalError) := by
        rw [Handler.step, upsertState, hfails, if_pos rfl]
      exact ⟨_, reaches_handler faults hcredited hstep, rfl⟩
    · have hstatus : noContent.status = 204 := rfl
      rw [storedBy, hout, if_pos hstatus, hprep]
      have hstep : (Handler.credited o added).step cfg { p.srv with db := creditReport cfg p.srv.db o faults }
          p.clock faults =
          some ({ p.srv with db := storeObservation (creditReport cfg p.srv.db o faults) o }, .stored o) := by
        rw [Handler.step, upsertState, hfails, if_neg Bool.false_ne_true]
        rfl
      have hstored := reaches_handler faults hcredited hstep
      have hmarked := reaches_handler faults hstored rfl
      have hdone := reaches_handler faults hmarked rfl
      exact ⟨_, hdone, rfl⟩

end Handler

/-! ### One scan -/

def Action.ofScanner : Action → Prop
  | .scanner _ => True
  | .tick _ | .register .. | .request .. | .handler .. => False

/-- The scanning goroutine has taken several steps. -/
def Process.scanning (p : Process) (srv : Server) (sc : Scanner) : Process := { p with srv, scanner := sc }

section Scan
variable {cfg : Config} {p : Process}

theorem reaches_scanner {srv srv' : Server} {sc sc' : Scanner} (fails : Bool)
    (hreach : Reaches (step cfg) Action.ofScanner p (p.scanning srv sc))
    (hstep : sc.step cfg srv p.clock fails = (srv', sc')) :
    Reaches (step cfg) Action.ofScanner p (p.scanning srv' sc') := by
  have hallowed : Action.ofScanner (.scanner fails) := trivial
  apply hreach.tail hallowed
  rw [step]
  have hout : (p.scanning srv sc).scanner.step cfg (p.scanning srv sc).srv (p.scanning srv sc).clock fails =
      (srv', sc') := hstep
  simp only [hout]
  rfl

/-- The loop over the listed devices. -/
theorem reaches_checked {srv : Server} {now : Time} {states : List DeviceState} {scan : State.Scan}
    (hreach : Reaches (step cfg) Action.ofScanner p (p.scanning srv (.checking now states scan))) :
    let out := State.scanLoop cfg.offlineThreshold now srv.known scan states
    Reaches (step cfg) Action.ofScanner p (p.scanning { srv with known := out.1 } (.checking now [] out.2)) := by
  induction states generalizing srv scan with
  | nil => exact hreach
  | cons ds states ih => exact ih (reaches_scanner false hreach rfl)

/-- The broadcasts after the loop. -/
theorem reaches_announced {srv : Server} {events : List Event}
    (hreach : Reaches (step cfg) Action.ofScanner p (p.scanning srv (.announcing events))) :
    Reaches (step cfg) Action.ofScanner p (p.scanning { srv with hub := srv.hub.broadcastAll events } (.announcing [])) := by
  induction events generalizing srv with
  | nil => exact hreach
  | cons ev events ih => exact ih (reaches_scanner false hreach rfl)

variable (cfg) in
/-- A scan that runs to its end without interruption does what `scanOnce` does. -/
theorem reaches_scanned (hsc : p.scanner = .idle) {states : List DeviceState}
    (hlist : listDeviceStates p.srv.db false = .ok states) :
    let out := State.scanOnce cfg.offlineThreshold p.clock p.srv.known states
    Reaches (step cfg) Action.ofScanner p
      (p.scanning { p.srv with known := out.1, hub := p.srv.hub.broadcastAll out.2 } .idle) := by
  have hidle : Reaches (step cfg) Action.ofScanner p (p.scanning p.srv .idle) := by
    rw [← hsc]
    exact .refl p
  have hstep : Scanner.idle.step cfg p.srv p.clock false = (p.srv, .listed states) := by
    rw [Scanner.step, hlist]
  have hlisted := reaches_scanner false hidle hstep
  have hstarted := reaches_scanner false hlisted rfl
  have hchecked := reaches_checked hstarted
  have hmerged := reaches_scanner false hchecked rfl
  have hannounced := reaches_announced hmerged
  exact reaches_scanner false hannounced rfl

end Scan

/-! ### Every sequential run -/

structure Mirrors (s : Sequential.System) (p : Process) : Prop where
  srv : p.srv = s.srv
  clock : p.clock = s.clock
  stores : p.stores = s.accepted
  scanner : p.scanner = .idle
  free : ∃ n, Within n p

theorem mirrors_start (db : DB) (clock : Time) : Mirrors (.start db clock) (.start db clock) :=
  ⟨rfl, rfl, rfl, rfl, 0, within_start db clock 0⟩

namespace Mirrors
variable {cfg : Config} {s t : Sequential.System} {p : Process}

theorem report (hp : Mirrors s p) (req : Request) (faults : Faults) :
    ∃ q, Reaches (step cfg) (fun _ => True) p q ∧ Mirrors (s.report cfg req faults) q := by
  obtain ⟨n, hn⟩ := hp.free
  obtain ⟨h, hreach, -⟩ := reaches_report cfg (hn n (le_refl n)) req faults
  refine ⟨_, hreach.mono fun _ _ => trivial, ?_, hp.clock, ?_, hp.scanner, n + 1, fun j hj => ?_⟩
  · rw [Process.served, hp.srv, hp.clock, Sequential.System.report]
  · rw [Process.served, storedBy, hp.srv, hp.clock, hp.stores, Sequential.System.report]
    dsimp only
    split_ifs
    · rfl
    · exact List.append_nil _
  · have hne : j ≠ n := by omega
    exact (Function.update_of_ne hne _ _).trans (hn j (by omega))

theorem scan (hp : Mirrors s p) (fails : Bool) :
    ∃ q, Reaches (step cfg) (fun _ => True) p q ∧ Mirrors (s.scan cfg fails) q := by
  rw [Sequential.System.scan]
  cases hlist : listDeviceStates s.srv.db fails with
  | error e => exact ⟨p, .refl p, hp⟩
  | ok states =>
    cases fails with
    | true => cases hlist
    | false =>
      rw [← hp.srv] at hlist
      refine ⟨_, (reaches_scanned cfg hp.scanner hlist).mono fun _ _ => trivial, ?_, hp.clock, hp.stores, rfl, hp.free⟩
      rw [Process.scanning, hp.srv, hp.clock]
      rfl

theorem step {a : Sequential.Action} (hp : Mirrors s p) (h : Sequential.step cfg s a = some t) :
    ∃ q, Reaches (step cfg) (fun _ => True) p q ∧ Mirrors t q := by
  cases a with
  | tick now =>
    rw [Sequential.step] at h
    split_ifs at h with hnow
    cases h
    have hstep : Concurrent.step cfg p (.tick now) = some { p with clock := now } := by
      rw [Concurrent.step, hp.clock, if_pos hnow]
    exact ⟨_, (Reaches.refl p).tail trivial hstep, hp.srv, rfl, hp.stores, hp.scanner, hp.free⟩
  | register id name deviceType tokenHash =>
    cases h
    have hstep : Concurrent.step cfg p (.register id name deviceType tokenHash) = some { p with
        srv := { p.srv with db := registerDevice p.srv.db id name deviceType tokenHash p.clock } } := rfl
    refine ⟨_, (Reaches.refl p).tail trivial hstep, ?_, hp.clock, hp.stores, hp.scanner, hp.free⟩
    rw [hp.srv, hp.clock]
  | report req faults =>
    cases h
    exact hp.report req faults
  | scan fails =>
    cases h
    exact hp.scan fails

end Mirrors

/-- Every run of the sequential system is one of the process, with the same server at its end. -/
theorem exists_mirror (cfg : Config) (db : DB) (clock : Time) (as : List Sequential.Action)
    (s : Sequential.System) (h : execute (Sequential.step cfg) (.start db clock) as = some s) :
    ∃ p, Reaches (step cfg) (fun _ => True) (.start db clock) p ∧ Mirrors s p :=
  execute_simulation (fun _ _ _ _ hp hstep => hp.step hstep) (mirrors_start db clock) h

end CyberstalkMe.Concurrent
