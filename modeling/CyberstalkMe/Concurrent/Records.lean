import CyberstalkMe.Concurrent.Process
import CyberstalkMe.Foundations.Log

/-! # What the records say

The history of broadcasts and the log of stored reports agree with where the
handlers are: the update events are those of the handlers that are done, and the
stored reports those of the handlers that are past their upsert. A state row is
the record of the latest stored report.
-/
namespace CyberstalkMe.Concurrent

open Go Shared Store Foundations Api

/-! ### Broadcasts -/

/-- The offline events that the scan has decided on and not broadcast. -/
def Scanner.pending : Scanner → List Event
  | .idle | .listed _ => []
  | .checking _ _ scan => scan.transitions
  | .announcing evs => evs

structure Broadcasts (s : Process) : Prop where
  done : ∀ ev ∈ s.srv.hub.history, ev.type = .update → ∃ o, (∃ i, s.handlers i = .done o) ∧ ev = o.event
  mem : ∀ o, (∃ i, s.handlers i = .done o) → o.event ∈ s.srv.hub.history
  pending : ∀ ev ∈ s.scanner.pending, ev.type = .offline

theorem broadcasts_start (db : DB) (clock : Time) : Broadcasts (.start db clock) where
  done _ h := nomatch h
  mem _ h := nomatch h.choose_spec
  pending _ h := nomatch h

namespace Broadcasts
variable {cfg : Config} {s t : Process} {a : Action}

theorem advance (hs : Broadcasts s) {i : ℕ} {srv : Server} {h : Handler}
    (hi : ∀ o, s.handlers i ≠ .done o) (hh : ∀ o, h ≠ .done o)
    (hhistory : srv.hub.history = s.srv.hub.history) : Broadcasts (s.advance i srv h) where
  done ev hev hupdate := by
    rw [Process.srv_advance, hhistory] at hev
    obtain ⟨o, hdone, rfl⟩ := hs.done ev hev hupdate
    exact ⟨o, (Process.done_advance hi).mpr (.inr hdone), rfl⟩
  mem o hdone := by
    rw [Process.srv_advance, hhistory]
    rcases (Process.done_advance hi).mp hdone with hh' | hold
    · exact absurd hh' (hh o)
    · exact hs.mem o hold
  pending := hs.pending

theorem advance_done (hs : Broadcasts s) {i : ℕ} {srv : Server} {o : Observation}
    (hi : s.handlers i = .marked o) (hhistory : srv.hub.history = s.srv.hub.history ++ [o.event]) :
    Broadcasts (s.advance i srv (.done o)) where
  done ev hev hupdate := by
    have hnot : ∀ o', s.handlers i ≠ .done o' := fun o' h => nomatch hi.symm.trans h
    rw [Process.srv_advance, hhistory, List.mem_append, List.mem_singleton] at hev
    rcases hev with hold | rfl
    · obtain ⟨o', hdone, rfl⟩ := hs.done ev hold hupdate
      exact ⟨o', (Process.done_advance hnot).mpr (.inr hdone), rfl⟩
    · exact ⟨o, (Process.done_advance hnot).mpr (.inl rfl), rfl⟩
  mem o' hdone := by
    have hnot : ∀ o', s.handlers i ≠ .done o' := fun o' h => nomatch hi.symm.trans h
    rw [Process.srv_advance, hhistory, List.mem_append, List.mem_singleton]
    rcases (Process.done_advance hnot).mp hdone with hh | hold
    · cases hh
      exact .inr rfl
    · exact .inl (hs.mem o' hold)
  pending := hs.pending

theorem sweep (hs : Broadcasts s) {sc sc' : Scanner} {srv' : Server} (hsc : s.scanner = sc)
    (hsweep : Sweep cfg s.srv s.clock sc srv' sc') :
    Broadcasts { s with srv := srv', scanner := sc' } := by
  have hpending := hs.pending
  rw [hsc] at hpending
  cases hsweep with
  | unlisted | listed | started | merged | ended => exact ⟨hs.done, hs.mem, hpending⟩
  | passed hpass htransitions =>
    refine ⟨hs.done, hs.mem, fun ev hev => hpending ev ?_⟩
    rw [Scanner.pending, htransitions] at hev
    exact hev
  | dropped hstale hknown htransitions =>
    refine ⟨hs.done, hs.mem, fun ev hev => ?_⟩
    rw [Scanner.pending, htransitions, List.mem_append, List.mem_singleton] at hev
    rcases hev with hold | rfl
    · exact hpending ev hold
    · rfl
  | announced =>
    rename_i ev evs
    have hoffline : ev.type = .offline := hpending ev List.mem_cons_self
    constructor
    · intro ev' hev' hupdate
      rw [Hub.history_broadcast, List.mem_append, List.mem_singleton] at hev'
      rcases hev' with hold | rfl
      · exact hs.done ev' hold hupdate
      · rw [hoffline] at hupdate
        cases hupdate
    · intro o hdone
      exact List.mem_append_left _ (hs.mem o hdone)
    · exact fun ev' hev' => hpending ev' (List.mem_cons_of_mem ev hev')

theorem step (hs : Broadcasts s) (h : step cfg s a = some t) : Broadcasts t := by
  cases transition_of_step h with
  | tick => exact ⟨hs.done, hs.mem, hs.pending⟩
  | register => exact ⟨hs.done, hs.mem, hs.pending⟩
  | request hi hadvance =>
    cases hadvance with
    | arrived => exact hs.advance (fun o h => nomatch hi.symm.trans h) (accept_ne_done _ _ _ _) rfl
  | handler hi hadvance =>
    cases hadvance with
    | arrived => exact hs.advance (fun o h => nomatch hi.symm.trans h) (accept_ne_done _ _ _ _) rfl
    | unstamped | stamped | observed | credited | failed | stored | marked =>
      exact hs.advance (fun o h => nomatch hi.symm.trans h) (fun o h => nomatch h) rfl
    | done => exact hs.advance_done hi rfl
  | scanner hsc hsweep => exact hs.sweep hsc hsweep

end Broadcasts

def Process.broadcasts (s : Process) : Action → Option Event
  | .handler i _ =>
    match s.handlers i with
    | .marked o => some o.event
    | _ => none
  | .scanner _ =>
    match s.scanner with
    | .announcing (ev :: _) => some ev
    | _ => none
  | .tick _ | .register .. | .request .. => none

theorem hub_of_step {cfg : Config} {s t : Process} {a : Action} (h : step cfg s a = some t) :
    t.srv.hub = match s.broadcasts a with
      | some ev => s.srv.hub.broadcast ev
      | none => s.srv.hub := by
  cases transition_of_step h with
  | tick | register | request => rfl
  | handler hi hadvance =>
    rw [Process.broadcasts, hi]
    cases hadvance with
    | arrived | unstamped | stamped | observed | credited | failed | stored | marked | done => rfl
  | scanner hsc hsweep =>
    rw [Process.broadcasts, hsc]
    cases hsweep with
    | unlisted | listed | started | passed | dropped | merged | announced | ended => rfl

/-! ### Stores -/

def Handler.storedReport : Handler → Option Observation
  | .stored o | .marked o | .done o => some o
  | _ => none

/-- The report of a handler that is done. -/
def Handler.doneReport : Handler → Option Observation
  | .done o => some o
  | _ => none

theorem Handler.observation_of_storedReport {h : Handler} {o : Observation}
    (ho : h.storedReport = some o) : h.observation = some o := by
  cases h with
  | stored | marked | done => exact ho
  | idle | checked | stamped | observed | credited | answered => cases ho

def ofDevice (d : String) (o : Observation) : Bool := decide (o.id = d)

@[simp] theorem ofDevice_iff {d : String} {o : Observation} : ofDevice d o ↔ o.id = d :=
  decide_eq_true_iff

@[simp] theorem storedReport_accept (cfg : Config) (db : DB) (req : Request) (lookupFails : Bool) :
    (Handler.accept cfg db req lookupFails).storedReport = none := by
  rw [Handler.accept]
  split <;> rfl

theorem Advance.storedReport {cfg : Config} {srv srv' : Server} {now : Time} {faults : Faults}
    {h h' : Handler} (hadvance : Advance cfg srv now faults h srv' h') (o : Observation) :
    h'.storedReport = some o ↔ h.storedReport = some o ∨ o ∈ h'.justStored := by
  cases hadvance with
  | arrived =>
    rw [storedReport_accept, justStored_accept]
    simp [Handler.storedReport]
  | unstamped | stamped | observed | credited | failed | stored | marked | done =>
    simp [Handler.storedReport, Handler.justStored, eq_comm]

/-- A handler gets its report when it reads the clock, and keeps it until it fails. -/
theorem Advance.observation {cfg : Config} {srv srv' : Server} {now : Time} {faults : Faults}
    {h h' : Handler} (hadvance : Advance cfg srv now faults h srv' h') {o : Observation}
    (ho : h'.observation = some o) : h.observation = some o ∨ o.seenAt = now := by
  cases hadvance with
  | arrived =>
    rw [observation_accept] at ho
    cases ho
  | unstamped | failed => cases ho
  | stamped hstamp =>
    cases ho
    exact .inr (stamp_eq_ok hstamp).2.1
  | observed | credited | stored | marked | done => exact .inl ho

theorem Advance.deviceState {cfg : Config} {srv srv' : Server} {now : Time} {faults : Faults}
    {h h' : Handler} (hadvance : Advance cfg srv now faults h srv' h') :
    srv'.db.deviceState = srv.db.deviceState ∧ h'.justStored = [] ∨
      ∃ o added, h = .credited o added ∧ h' = .stored o ∧ srv'.db = storeObservation srv.db o ∧
        faults.upsertState = false := by
  cases hadvance with
  | arrived => exact .inl ⟨rfl, justStored_accept ..⟩
  | unstamped | stamped | observed | credited | failed | marked | done => exact .inl ⟨rfl, rfl⟩
  | stored hfails => exact .inr ⟨_, _, rfl, rfl, rfl, hfails⟩

structure Stores (db : DB) (clock : Time) (s : Process) : Prop where
  mem : ∀ o, o ∈ s.stores ↔ ∃ i, (s.handlers i).storedReport = some o
  row : ∀ d, s.srv.db.deviceState.lookup d =
    ((latest (ofDevice d) s.stores).map Observation.record).or (db.deviceState.lookup d)
  since : ∀ i o, (s.handlers i).observation = some o → clock.nanos ≤ o.seenAt.nanos
  clock_le : clock.nanos ≤ s.clock.nanos

theorem stores_start (db : DB) (clock : Time) : Stores db clock (.start db clock) where
  mem _ := iff_of_false (fun h => nomatch h) (fun h => nomatch h.choose_spec)
  row _ := rfl
  since _ _ h := nomatch h
  clock_le := le_refl _

namespace Stores
variable {cfg : Config} {db : DB} {clock : Time} {s t : Process} {a : Action}

theorem advance (hs : Stores db clock s) {i : ℕ} {faults : Faults} {srv' : Server} {h h' : Handler}
    (hi : s.handlers i = h) (hadvance : Advance cfg s.srv s.clock faults h srv' h') :
    Stores db clock (s.advance i srv' h') where
  mem o := by
    have hkeep : (s.handlers i).storedReport = some o → h'.storedReport = some o := by
      rw [hi]
      exact fun h => (hadvance.storedReport o).mpr (.inl h)
    rw [Process.exists_advance (P := fun h => h.storedReport = some o) hkeep, hadvance.storedReport,
      Process.stores_advance, List.mem_append, hs.mem]
    constructor
    · rintro (hold | hnew)
      · exact .inr hold
      · exact .inl (.inr hnew)
    · rintro ((hold | hnew) | hold)
      · exact .inl ⟨i, hi ▸ hold⟩
      · exact .inr hnew
      · exact .inl hold
  row d := by
    rw [Process.srv_advance, Process.stores_advance]
    rcases hadvance.deviceState with ⟨hstate, hstored⟩ | ⟨o, added, -, rfl, hdb, -⟩
    · rw [hstate, hstored, List.append_nil, hs.row]
    · rw [hdb, lookup_storeObservation, Handler.justStored, latest_concat]
      by_cases hd : o.id = d
      · rw [if_pos hd.symm, if_pos (ofDevice_iff.mpr hd)]
        rfl
      · rw [if_neg (Ne.symm hd), if_neg (mt ofDevice_iff.mp hd), hs.row]
  since j o ho := by
    rw [Process.handlers_advance] at ho
    by_cases hj : j = i
    · subst hj
      rw [Function.update_self] at ho
      rcases hadvance.observation ho with hold | hnow
      · exact hs.since j o (hi ▸ hold)
      · exact hnow ▸ hs.clock_le
    · rw [Function.update_of_ne hj] at ho
      exact hs.since j o ho
  clock_le := hs.clock_le

theorem step (hs : Stores db clock s) (h : step cfg s a = some t) : Stores db clock t := by
  cases transition_of_step h with
  | tick hnow => exact ⟨hs.mem, hs.row, hs.since, hs.clock_le.trans hnow⟩
  | register => exact ⟨hs.mem, hs.row, hs.since, hs.clock_le⟩
  | request hi hadvance => exact hs.advance hi hadvance
  | handler hi hadvance => exact hs.advance hi hadvance
  | scanner hsc hsweep =>
    have hrow := hs.row
    rw [← hsweep.db_eq] at hrow
    exact ⟨hs.mem, hrow, hs.since, hs.clock_le⟩

/-- What the row holds: the instant of the latest report, or what it held at the start. -/
theorem lastSeen_eq (hs : Stores db clock s) (d : String) :
    s.srv.db.lastSeen d =
      ((latest (ofDevice d) s.stores).map fun o => o.seenAt.utc.format).or (db.lastSeen d) := by
  rw [DB.lastSeen, hs.row d, DB.lastSeen]
  cases latest (ofDevice d) s.stores <;> rfl

theorem stored_since (hs : Stores db clock s) {o : Observation} (ho : o ∈ s.stores) :
    clock.nanos ≤ o.seenAt.nanos := by
  obtain ⟨i, hi⟩ := (hs.mem o).mp ho
  exact hs.since i o (Handler.observation_of_storedReport hi)

end Stores

/-- The log of stored reports only grows. -/
theorem execute_stores {cfg : Config} {s u : Process} {as : List Action}
    (h : execute (step cfg) s as = some u) : s.stores <+: u.stores :=
  execute_relation (I := fun _ => True) (R := fun s u => s.stores <+: u.stores)
    (fun _ => List.prefix_rfl) (fun _ _ _ => List.IsPrefix.trans)
    (fun s a t _ _ h => ⟨trivial, by
      cases transition_of_step h with
      | tick | register | scanner => exact List.prefix_rfl
      | request | handler => exact List.prefix_append _ _⟩)
    trivial (meets_true s as) h

/-! ### The order of the upserts -/

/-- The order of the clock readings of two reports. -/
def SeenBy (o o' : Observation) : Prop := o.seenAt.nanos ≤ o'.seenAt.nanos

instance : DecidableRel SeenBy := fun o o' =>
  inferInstanceAs (Decidable (o.seenAt.nanos ≤ o'.seenAt.nanos))

def Process.storing (s : Process) : Action → Option Observation
  | .handler i faults =>
    match s.handlers i with
    | .credited o _ => if faults.upsertState then none else some o
    | _ => none
  | _ => none

/-- A report of the device that the step stores has read the clock no earlier than the other handler,
when that has stored one. -/
def StoresAfter (d : String) (s : Process) (a : Action) (other : Handler) : Prop :=
  ∀ o ∈ s.storing a, o.id = d → ∀ o' ∈ other.storedReport, o'.id = d → SeenBy o' o

instance (d : String) (s : Process) (a : Action) (other : Handler) :
    Decidable (StoresAfter d s a other) :=
  inferInstanceAs (Decidable (∀ o ∈ s.storing a, _))

theorem Stores.ordered_step {cfg : Config} {d : String} {db : DB} {clock : Time} {s t : Process}
    {a : Action} (hs : Stores db clock s) (hordered : Ordered (ofDevice d) SeenBy s.stores)
    (hafter : ∀ j, StoresAfter d s a (s.handlers j)) (h : Concurrent.step cfg s a = some t) :
    Ordered (ofDevice d) SeenBy t.stores := by
  cases transition_of_step h with
  | tick | register | scanner => exact hordered
  | request hi hadvance =>
    cases hadvance with
    | arrived =>
      rw [Process.stores_advance, justStored_accept, List.append_nil]
      exact hordered
  | handler hi hadvance =>
    rename_i i faults h h' srv'
    rw [Process.stores_advance]
    rcases hadvance.deviceState with ⟨-, hnone⟩ | ⟨o, added, rfl, rfl, -, hfails⟩
    · rw [hnone, List.append_nil]
      exact hordered
    · refine ordered_concat.mpr ⟨hordered, fun hd o' ho' hd' => ?_⟩
      obtain ⟨j, hj⟩ := (hs.mem o').mp ho'
      have hstoring : o ∈ s.storing (.handler i faults) := by
        rw [Process.storing, hi, hfails]
        rfl
      exact hafter j o hstoring (ofDevice_iff.mp hd) o' hj (ofDevice_iff.mp hd')

end CyberstalkMe.Concurrent
