import CyberstalkMe.Api.Report
import CyberstalkMe.Foundations.Execution

/-! # Interleaved handlers

The server process with any number of report handlers, one scanning goroutine and
the clock. A statement of the store, a section under the tracker's lock and a
broadcast are one step each; between its steps a handler holds what it has read.
A run is a list of such steps, so a property of every run is one of every
interleaving.
-/
namespace CyberstalkMe.Concurrent

open Go Shared Store Foundations Api

/-- How far a report handler has come. `credited` remembers the deltas that were committed, which
no step reads. -/
inductive Handler where
  | idle
  | checked (dev : Device) (p : ReportPayload)
  | stamped (o : Observation)
  | observed (o : Observation) (prev : Except StoreError StateRow)
  | credited (o : Observation) (added : List UsageDelta)
  | stored (o : Observation)
  | marked (o : Observation)
  | done (o : Observation)
  | answered (resp : Response)

/-- The report of a handler that has read the clock and has not failed. -/
def Handler.observation : Handler → Option Observation
  | .stamped o | .observed o _ | .credited o _ | .stored o | .marked o | .done o => some o
  | .idle | .checked _ _ | .answered _ => none

/-- The response of a handler that has ended. -/
def Handler.response : Handler → Option Response
  | .done _ => some noContent
  | .answered resp => some resp
  | _ => none

/-- Authentication and validation. -/
def Handler.accept (cfg : Config) (db : DB) (req : Request) (lookupFails : Bool) : Handler :=
  match checkReport cfg db req lookupFails with
  | .error resp => .answered resp
  | .ok (dev, p) => .checked dev p

/-- The next step of a handler: the server after it, and where the handler is then. -/
def Handler.step (cfg : Config) (srv : Server) (now : Time) (faults : Faults) :
    Handler → Option (Server × Handler)
  | .checked dev p =>
    match stamp dev p now with
    | .error resp => some (srv, .answered resp)
    | .ok o => some (srv, .stamped o)
  | .stamped o => some (srv, .observed o (getState srv.db o.id faults.getState))
  | .observed o prev =>
    let deltas := usageDeltas cfg prev o.seenAt
    match addUsage srv.db o.id deltas faults.addUsage with
    | .error _ => some (srv, .credited o [])
    | .ok db => some ({ srv with db }, .credited o deltas)
  | .credited o _ =>
    match upsertState srv.db o.id o.payloadJSON o.reportedAt o.seenAt faults.upsertState with
    | .error _ => some (srv, .answered writeInternalError)
    | .ok db => some ({ srv with db }, .stored o)
  | .stored o => some ({ srv with known := State.markOnline srv.known o.id }, .marked o)
  | .marked o => some ({ srv with hub := srv.hub.broadcast o.event }, .done o)
  | .idle | .done _ | .answered _ => none

/-- How far a scan has come. -/
inductive Scanner where
  | idle
  | listed (states : List DeviceState)
  | checking (now : Time) (rest : List DeviceState) (scan : State.Scan)
  | announcing (events : List Event)

/-- The next step of the scanning goroutine. A failing listing ends the scan. -/
def Scanner.step (cfg : Config) (srv : Server) (now : Time) (fails : Bool) :
    Scanner → Server × Scanner
  | .idle =>
    match listDeviceStates srv.db fails with
    | .error _ => (srv, .idle)
    | .ok states => (srv, .listed states)
  | .listed states => (srv, .checking now states .start)
  | .checking now (ds :: rest) scan =>
    let out := State.scanDevice cfg.offlineThreshold now srv.known scan ds
    ({ srv with known := out.1 }, .checking now rest out.2)
  | .checking _ [] scan =>
    ({ srv with known := srv.known ∪ scan.online }, .announcing scan.transitions)
  | .announcing (ev :: evs) => ({ srv with hub := srv.hub.broadcast ev }, .announcing evs)
  | .announcing [] => (srv, .idle)

/-- The process. `stores` records every report whose state was stored, in the order of the upserts;
no step reads it. -/
structure Process where
  srv : Server
  clock : Time
  handlers : ℕ → Handler
  scanner : Scanner
  stores : List Observation

inductive Action where
  | tick (now : Time)
  | register (id name deviceType tokenHash : String)
  | request (i : ℕ) (req : Request) (faults : Faults)
  | handler (i : ℕ) (faults : Faults)
  | scanner (fails : Bool)
deriving DecidableEq, Repr

/-- A process that starts over a store. -/
def Process.start (db : DB) (clock : Time) : Process :=
  ⟨⟨db, ∅, Hub.new⟩, clock, fun _ => .idle, .idle, []⟩

def Handler.justStored : Handler → List Observation
  | .stored o => [o]
  | _ => []

/-- Handler `i` has taken a step. -/
def Process.advance (s : Process) (i : ℕ) (srv : Server) (h : Handler) : Process :=
  { s with
    srv
    handlers := Function.update s.handlers i h
    stores := s.stores ++ h.justStored }

def step (cfg : Config) (s : Process) : Action → Option Process
  | .tick now => if s.clock.nanos ≤ now.nanos then some { s with clock := now } else none
  | .register id name deviceType tokenHash =>
    some { s with srv := { s.srv with db := registerDevice s.srv.db id name deviceType tokenHash s.clock } }
  | .request i req faults =>
    match s.handlers i with
    | .idle => some (s.advance i s.srv (.accept cfg s.srv.db req faults.lookup))
    | _ => none
  | .handler i faults =>
    ((s.handlers i).step cfg s.srv s.clock faults).map fun out => s.advance i out.1 out.2
  | .scanner fails =>
    let out := s.scanner.step cfg s.srv s.clock fails
    some { s with srv := out.1, scanner := out.2 }

/-! ### What one step can do -/

inductive Advance (cfg : Config) (srv : Server) (now : Time) (faults : Faults) :
    Handler → Server → Handler → Prop
  | arrived {req : Request} :
      Advance cfg srv now faults .idle srv (.accept cfg srv.db req faults.lookup)
  | unstamped {dev : Device} {p : ReportPayload} {resp : Response} (hstamp : stamp dev p now = .error resp) :
      Advance cfg srv now faults (.checked dev p) srv (.answered resp)
  | stamped {dev : Device} {p : ReportPayload} {o : Observation} (hstamp : stamp dev p now = .ok o) :
      Advance cfg srv now faults (.checked dev p) srv (.stamped o)
  | observed {o : Observation} :
      Advance cfg srv now faults (.stamped o) srv
        (.observed o (getState srv.db o.id faults.getState))
  | credited {o : Observation} {prev : Except StoreError StateRow} {added : List UsageDelta}
      (hadded : added = if faults.addUsage.any (AddUsageFault.stops (usageDeltas cfg prev o.seenAt).length)
        then [] else usageDeltas cfg prev o.seenAt) :
      Advance cfg srv now faults (.observed o prev)
        { srv with db := creditUsage srv.db o.id added } (.credited o added)
  | failed {o : Observation} {added : List UsageDelta} (hfails : faults.upsertState = true) :
      Advance cfg srv now faults (.credited o added) srv (.answered writeInternalError)
  | stored {o : Observation} {added : List UsageDelta} (hfails : faults.upsertState = false) :
      Advance cfg srv now faults (.credited o added)
        { srv with db := storeObservation srv.db o } (.stored o)
  | marked {o : Observation} :
      Advance cfg srv now faults (.stored o)
        { srv with known := State.markOnline srv.known o.id } (.marked o)
  | done {o : Observation} :
      Advance cfg srv now faults (.marked o) { srv with hub := srv.hub.broadcast o.event } (.done o)

theorem advance_credited (cfg : Config) (srv : Server) (now : Time) (faults : Faults) (o : Observation)
    (prev : Except StoreError StateRow) :
    ∃ srv' h', (Handler.observed o prev).step cfg srv now faults = some (srv', h') ∧
      Advance cfg srv now faults (.observed o prev) srv' h' := by
  simp only [Handler.step, addUsage_eq]
  by_cases hstop : faults.addUsage.any (AddUsageFault.stops (usageDeltas cfg prev o.seenAt).length)
  · by_cases hnil : usageDeltas cfg prev o.seenAt = []
    · have hcredit : Advance cfg srv now faults (.observed o prev)
          { srv with db := creditUsage srv.db o.id [] } (.credited o []) :=
        .credited (by rw [hnil, ite_self])
      exact ⟨_, _, by simp [hnil], hcredit⟩
    · have hcredit : Advance cfg srv now faults (.observed o prev)
          { srv with db := creditUsage srv.db o.id [] } (.credited o []) :=
        .credited (by rw [if_pos hstop])
      exact ⟨_, _, by simp [hnil, hstop], hcredit⟩
  · have hcredit : Advance cfg srv now faults (.observed o prev)
        { srv with db := creditUsage srv.db o.id (usageDeltas cfg prev o.seenAt) }
        (.credited o (usageDeltas cfg prev o.seenAt)) := .credited (by rw [if_neg hstop])
    exact ⟨_, _, by simp [hstop, creditUsage], hcredit⟩

theorem advance_of_step {cfg : Config} {srv srv' : Server} {now : Time} {faults : Faults}
    {h h' : Handler} (hstep : h.step cfg srv now faults = some (srv', h')) :
    Advance cfg srv now faults h srv' h' := by
  cases h with
  | idle | done | answered => cases hstep
  | checked dev p =>
    rw [Handler.step] at hstep
    cases hstamp : stamp dev p now with
    | error resp =>
      rw [hstamp] at hstep
      cases hstep
      exact .unstamped hstamp
    | ok o =>
      rw [hstamp] at hstep
      cases hstep
      exact .stamped hstamp
  | stamped o =>
    cases hstep
    exact .observed
  | observed o prev =>
    obtain ⟨srv'', h'', hstep', hadvance⟩ := advance_credited cfg srv now faults o prev
    rw [hstep] at hstep'
    cases hstep'
    exact hadvance
  | credited o added =>
    rw [Handler.step, upsertState] at hstep
    cases hfails : faults.upsertState with
    | true =>
      rw [hfails] at hstep
      cases hstep
      exact .failed hfails
    | false =>
      rw [hfails] at hstep
      cases hstep
      exact .stored hfails
  | stored o =>
    cases hstep
    exact .marked
  | marked o =>
    cases hstep
    exact .done

/-- The steps of the scanning goroutine, with the server after each. -/
inductive Sweep (cfg : Config) (srv : Server) (now : Time) : Scanner → Server → Scanner → Prop
  | unlisted : Sweep cfg srv now .idle srv .idle
  | listed {states : List DeviceState} (hlist : listDeviceStates srv.db false = .ok states) :
      Sweep cfg srv now .idle srv (.listed states)
  | started {states : List DeviceState} :
      Sweep cfg srv now (.listed states) srv (.checking now states .start)
  | passed {clock : Time} {ds : DeviceState} {rest : List DeviceState} {scan scan' : State.Scan}
      (hpass : State.isOnline cfg.offlineThreshold clock ds.lastSeenAt ∨ ds.deviceID ∉ srv.known)
      (htransitions : scan'.transitions = scan.transitions) :
      Sweep cfg srv now (.checking clock (ds :: rest) scan) srv (.checking clock rest scan')
  | dropped {clock : Time} {ds : DeviceState} {rest : List DeviceState} {scan scan' : State.Scan}
      (hstale : ¬ State.isOnline cfg.offlineThreshold clock ds.lastSeenAt) (hknown : ds.deviceID ∈ srv.known)
      (htransitions : scan'.transitions = scan.transitions ++ [State.offlineEvent ds]) :
      Sweep cfg srv now (.checking clock (ds :: rest) scan)
        { srv with known := srv.known.erase ds.deviceID } (.checking clock rest scan')
  | merged {clock : Time} {scan : State.Scan} :
      Sweep cfg srv now (.checking clock [] scan)
        { srv with known := srv.known ∪ scan.online } (.announcing scan.transitions)
  | announced {ev : Event} {evs : List Event} :
      Sweep cfg srv now (.announcing (ev :: evs)) { srv with hub := srv.hub.broadcast ev } (.announcing evs)
  | ended : Sweep cfg srv now (.announcing []) srv .idle

theorem sweep_step (cfg : Config) (srv : Server) (now : Time) (fails : Bool) (sc : Scanner) :
    Sweep cfg srv now sc (sc.step cfg srv now fails).1 (sc.step cfg srv now fails).2 := by
  cases sc with
  | idle =>
    rw [Scanner.step]
    cases hlist : listDeviceStates srv.db fails with
    | error e => exact .unlisted
    | ok states =>
      cases fails with
      | true => cases hlist
      | false => exact .listed hlist
  | listed states => exact .started
  | checking clock rest scan =>
    cases rest with
    | nil => exact .merged
    | cons ds rest =>
      rw [Scanner.step, State.scanDevice]
      by_cases hon : State.isOnline cfg.offlineThreshold clock ds.lastSeenAt
      · rw [if_pos hon]
        exact .passed (.inl hon) rfl
      · rw [if_neg hon]
        by_cases hknown : ds.deviceID ∈ srv.known
        · rw [if_pos hknown]
          exact .dropped hon hknown rfl
        · rw [if_neg hknown]
          exact .passed (.inr hknown) rfl
  | announcing evs =>
    cases evs with
    | nil => exact .ended
    | cons ev evs => exact .announced

inductive Transition (cfg : Config) (s : Process) : Action → Process → Prop
  | tick {now : Time} (hnow : s.clock.nanos ≤ now.nanos) :
      Transition cfg s (.tick now) { s with clock := now }
  | register {id name deviceType tokenHash : String} :
      Transition cfg s (.register id name deviceType tokenHash)
        { s with srv := { s.srv with db := registerDevice s.srv.db id name deviceType tokenHash s.clock } }
  | request {i : ℕ} {req : Request} {faults : Faults} {h' : Handler} (hi : s.handlers i = .idle)
      (hadvance : Advance cfg s.srv s.clock faults .idle s.srv h') :
      Transition cfg s (.request i req faults) (s.advance i s.srv h')
  | handler {i : ℕ} {faults : Faults} {h h' : Handler} {srv' : Server} (hi : s.handlers i = h)
      (hadvance : Advance cfg s.srv s.clock faults h srv' h') :
      Transition cfg s (.handler i faults) (s.advance i srv' h')
  | scanner {fails : Bool} {sc sc' : Scanner} {srv' : Server} (hsc : s.scanner = sc)
      (hsweep : Sweep cfg s.srv s.clock sc srv' sc') :
      Transition cfg s (.scanner fails) { s with srv := srv', scanner := sc' }

theorem transition_of_step {cfg : Config} {s t : Process} {a : Action} (h : step cfg s a = some t) :
    Transition cfg s a t := by
  cases a with
  | tick now =>
    rw [step] at h
    split_ifs at h with hnow
    cases h
    exact .tick hnow
  | register id name deviceType tokenHash =>
    cases h
    exact .register
  | request i req faults =>
    rw [step] at h
    split at h
    · rename_i hidle
      cases h
      exact .request hidle .arrived
    · cases h
  | handler i faults =>
    rw [step, Option.map_eq_some_iff] at h
    obtain ⟨⟨srv', h'⟩, hstep, rfl⟩ := h
    exact .handler rfl (advance_of_step hstep)
  | scanner fails =>
    cases h
    exact .scanner rfl (sweep_step cfg s.srv s.clock fails s.scanner)

/-! ### The parts of the state -/

section Advance
variable (s : Process) (i : ℕ) (srv : Server) (h : Handler)

@[simp] theorem Process.srv_advance : (s.advance i srv h).srv = srv := rfl

@[simp] theorem Process.clock_advance : (s.advance i srv h).clock = s.clock := rfl

@[simp] theorem Process.scanner_advance : (s.advance i srv h).scanner = s.scanner := rfl

@[simp] theorem Process.stores_advance : (s.advance i srv h).stores = s.stores ++ h.justStored := rfl

@[simp] theorem Process.handlers_advance :
    (s.advance i srv h).handlers = Function.update s.handlers i h := rfl

end Advance

@[simp] theorem justStored_accept (cfg : Config) (db : DB) (req : Request) (lookupFails : Bool) :
    (Handler.accept cfg db req lookupFails).justStored = [] := by
  rw [Handler.accept]
  split <;> rfl

theorem accept_ne_done (cfg : Config) (db : DB) (req : Request) (lookupFails : Bool) (o : Observation) :
    Handler.accept cfg db req lookupFails ≠ .done o := by
  rw [Handler.accept]
  split <;> exact fun h => nomatch h

@[simp] theorem observation_accept (cfg : Config) (db : DB) (req : Request) (lookupFails : Bool) :
    (Handler.accept cfg db req lookupFails).observation = none := by
  rw [Handler.accept]
  split <;> rfl

theorem Sweep.db_eq {cfg : Config} {srv srv' : Server} {now : Time} {sc sc' : Scanner}
    (h : Sweep cfg srv now sc srv' sc') : srv'.db = srv.db := by
  cases h with
  | unlisted | listed | started | passed | dropped | merged | announced | ended => rfl

/-- Only `done` adds to what a handler has broadcast, and only its own event. -/
theorem Advance.history_eq {cfg : Config} {srv srv' : Server} {now : Time} {faults : Faults}
    {h h' : Handler} (hadvance : Advance cfg srv now faults h srv' h') :
    srv'.hub.history = srv.hub.history ∨
      ∃ o, h = .marked o ∧ h' = .done o ∧ srv'.hub.history = srv.hub.history ++ [o.event] := by
  cases hadvance with
  | arrived | unstamped | stamped | observed | credited | failed | stored | marked => exact .inl rfl
  | done => exact .inr ⟨_, rfl, rfl, rfl⟩

theorem Process.exists_advance {s : Process} {i : ℕ} {srv : Server} {h : Handler} {P : Handler → Prop}
    (hi : P (s.handlers i) → P h) :
    (∃ j, P ((s.advance i srv h).handlers j)) ↔ P h ∨ ∃ j, P (s.handlers j) := by
  simp only [handlers_advance]
  rw [Function.exists_update_iff s.handlers fun _ h => P h]
  constructor
  · rintro (hnew | ⟨j, -, hold⟩)
    · exact .inl hnew
    · exact .inr ⟨j, hold⟩
  · rintro (hnew | ⟨j, hold⟩)
    · exact .inl hnew
    · by_cases hj : j = i
      · exact .inl (hi (hj ▸ hold))
      · exact .inr ⟨j, hj, hold⟩

theorem Process.done_advance {s : Process} {i : ℕ} {srv : Server} {h : Handler}
    (hi : ∀ o, s.handlers i ≠ .done o) {o : Observation} :
    (∃ j, (s.advance i srv h).handlers j = .done o) ↔ h = .done o ∨ ∃ j, s.handlers j = .done o :=
  exists_advance (P := fun h => h = .done o) fun h' => absurd h' (hi o)

/-! ### Runs of finitely many handlers -/

/-- The handlers from `n` on have not started. -/
def Within (n : ℕ) (s : Process) : Prop := ∀ j, n ≤ j → s.handlers j = .idle

def Action.within (n : ℕ) : Action → Prop
  | .request i _ _ | .handler i _ => i < n
  | _ => True

instance (n : ℕ) : DecidablePred (Action.within n)
  | .request i _ _ | .handler i _ => inferInstanceAs (Decidable (i < n))
  | .tick _ | .register .. | .scanner _ => isTrue trivial

theorem Within.step {cfg : Config} {n : ℕ} {s t : Process} {a : Action} (hs : Within n s)
    (ha : a.within n) (h : step cfg s a = some t) : Within n t := by
  intro j hj
  cases transition_of_step h with
  | tick | register | scanner => exact hs j hj
  | request | handler =>
    have hne : j ≠ _ := (lt_of_lt_of_le ha hj).ne'
    rw [Process.handlers_advance, Function.update_of_ne hne]
    exact hs j hj

/-- A condition on all handlers need only be checked on those that have started. -/
theorem meets_of_within {cfg : Config} {P : Process → Action → Handler → Prop}
    (hidle : ∀ s a, P s a .idle) (n : ℕ) {s : Process} {as : List Action} (hs : Within n s)
    (h : Meets (step cfg) (fun s a => a.within n ∧ ∀ j < n, P s a (s.handlers j)) s as) :
    Meets (step cfg) (fun s a => ∀ j, P s a (s.handlers j)) s as := by
  refine h.imp (fun s a t hs hguard hstep => hs.step hguard.1 hstep) (fun s a hs hguard j => ?_) hs
  by_cases hj : j < n
  · exact hguard.2 j hj
  · rw [hs j (not_lt.mp hj)]
    exact hidle s a

theorem within_start (db : DB) (clock : Time) (n : ℕ) : Within n (.start db clock) := fun _ _ => rfl

namespace Sample
open Api.Sample

def start : Process := .start db (clock 0)

def steps (i n : ℕ) : List Action := List.replicate n (.handler i .none)

/-- Handler `i` takes a request and reads the clock; five more steps complete it. -/
def arrive (i : ℕ) (app description : String) : List Action :=
  .request i (request app description default) .none :: steps i 1

def scanSteps (n : ℕ) : List Action := List.replicate n (.scanner false)

end Sample

end CyberstalkMe.Concurrent
