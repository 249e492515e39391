import CyberstalkMe.Foundations.Execution
import CyberstalkMe.Hub.Broadcast
import Mathlib.Data.Finset.Basic
import Mathlib.Tactic.Common

/-! # Delivery to the subscribers

The hub's operations in the steps that other goroutines can observe. `Subscribe`
and `Unsubscribe` hold the mutex for one step; `Broadcast` takes it, attempts
one send after another in the order of the map, removes the channels it found
full, and releases it. Receives happen at any moment.
-/
namespace CyberstalkMe.Delivery

open Shared Foundations

/-- What happened to a subscriber. `start` and `stop` count the broadcasts before its subscription
and up to its removal; `found` is the length of its buffer at the last attempt to send to it. -/
structure Subscription where
  start : ℕ
  stop : Option ℕ
  dropped : Bool
  found : ℕ
  received : List Event
  sawClosed : Bool
deriving DecidableEq, Repr

/-- A broadcast that holds the mutex: the subscribers still to be visited and those found full. -/
structure Running where
  event : Event
  todo : Finset ℕ
  dead : List ℕ
deriving DecidableEq

/-- The two ways in which Go punishes the use of a closed channel. -/
inductive Panic
  | sendOnClosed (ch : ℕ)
  | closeOfClosed (ch : ℕ)
deriving DecidableEq, Repr

/-- `log` holds the subscription of every channel ever subscribed. -/
structure State where
  hub : Hub
  running : Option Running
  log : ℕ → Option Subscription
  panics : List Panic

def State.init : State := ⟨.new, none, fun _ => none, []⟩

inductive Action
  | subscribe (ch capacity : ℕ)
  | unsubscribe (ch : ℕ)
  | broadcast (ev : Event)
  | visit (ch : ℕ)
  | drop
  | finish
  | receive (ch : ℕ)
  | receiveClosed (ch : ℕ)
deriving DecidableEq, Repr

def Action.event? : Action → Option Event
  | .broadcast ev => some ev
  | _ => none

namespace State

def note (s : State) (ch : ℕ) (f : Subscription → Subscription) : State :=
  { s with log := Function.update s.log ch ((s.log ch).map f) }

/-- `delete(h.subs, ch)` and `close(ch)`. -/
def remove (s : State) (ch : ℕ) : State :=
  { s with
    hub := { s.hub with
      subs := s.hub.subs.erase ch
      chans := Function.update s.hub.chans ch (s.hub.chans ch).close }
    panics := if (s.hub.chans ch).closed then s.panics ++ [.closeOfClosed ch] else s.panics }

/-- `ch <- ev`, which is possible. -/
def send (s : State) (ch : ℕ) (ev : Event) : State :=
  { s with
    hub := { s.hub with chans := Function.update s.hub.chans ch ((s.hub.chans ch).send ev) } }

/-- The select statement of the fan-out, for one subscriber. -/
def attempt (s : State) (r : Running) (ch : ℕ) : State :=
  let s := s.note ch fun sub => { sub with found := (s.hub.chans ch).buffer.length }
  let r := { r with todo := r.todo.erase ch }
  if (s.hub.chans ch).closed then { s with running := some r, panics := s.panics ++ [.sendOnClosed ch] }
  else if (s.hub.chans ch).ready then { s.send ch r.event with running := some r }
  else { s with running := some { r with dead := r.dead ++ [ch] } }

end State

/-- One step of some goroutine. The mutex is free when no broadcast is running. -/
def step (s : State) : Action → Option State
  | .subscribe ch capacity =>
    if s.running = none ∧ s.log ch = none ∧ 0 < capacity then
      some { s with
        hub := (s.hub.makeChan ch capacity).subscribe ch
        log := Function.update s.log ch (some ⟨s.hub.history.length, none, false, 0, [], false⟩) }
    else none
  | .unsubscribe ch =>
    if s.running = none then
      some (if ch ∈ s.hub.subs then
        (s.remove ch).note ch fun sub => { sub with stop := some s.hub.history.length }
      else s)
    else none
  | .broadcast ev =>
    if s.running = none then
      some { s with
        hub := { s.hub with history := s.hub.history ++ [ev] }
        running := some ⟨ev, s.hub.subs, []⟩ }
    else none
  | .visit ch => do
    let r ← s.running
    if ch ∈ r.todo then some (s.attempt r ch) else none
  | .drop => do
    let r ← s.running
    match r.dead with
    | [] => none
    | ch :: dead =>
      if r.todo = ∅ then
        some { (s.remove ch).note ch fun sub =>
            { sub with stop := some (s.hub.history.length - 1), dropped := true } with
          running := some { r with dead } }
      else none
  | .finish => do
    let r ← s.running
    if r.todo = ∅ ∧ r.dead = [] then some { s with running := none } else none
  | .receive ch => do
    let (ev, hub) ← s.hub.receive ch
    some { s.note ch fun sub => { sub with received := sub.received ++ [ev] } with hub }
  | .receiveClosed ch =>
    if (s.hub.chans ch).closed ∧ (s.hub.chans ch).buffer = [] then
      some (s.note ch fun sub => { sub with sawClosed := true })
    else none

/-! ### The stretch of a subscriber -/

namespace State

/-- The subscribers to which the running broadcast has not tried to send. -/
def todo (s : State) : Finset ℕ := (s.running.map Running.todo).getD ∅

def dead (s : State) : List ℕ := (s.running.map Running.dead).getD []

/-- A broadcast is running and has not sent to this subscriber. -/
def awaits (s : State) (ch : ℕ) : Bool := ch ∈ s.todo || ch ∈ s.dead

/-- How many broadcasts had been made when the stretch of the subscriber ended, or by now. -/
def stop (s : State) (ch : ℕ) (sub : Subscription) : ℕ :=
  sub.stop.getD (if s.awaits ch then s.hub.history.length - 1 else s.hub.history.length)

/-- The consecutive broadcasts from its subscription up to its removal, or to now. -/
def stretch (s : State) (ch : ℕ) (sub : Subscription) : List Event :=
  (s.hub.history.take (s.stop ch sub)).drop sub.start

end State

structure Tracked (s : State) (ch : ℕ) (sub : Subscription) : Prop where
  member : ch ∈ s.hub.subs ↔ sub.stop = none
  closed : (s.hub.chans ch).closed = sub.stop.isSome
  start_le : sub.start ≤ s.stop ch sub
  stop_le : s.stop ch sub ≤ s.hub.history.length
  delivered : sub.received ++ (s.hub.chans ch).buffer = s.stretch ch sub
  bounded : (s.hub.chans ch).buffer.length ≤ (s.hub.chans ch).capacity
  dead : ch ∈ s.dead → sub.found = (s.hub.chans ch).capacity
  dropped : sub.dropped → sub.found = (s.hub.chans ch).capacity ∧ sub.stop.isSome
  sawClosed : sub.sawClosed → sub.stop.isSome ∧ (s.hub.chans ch).buffer = []

structure Invariant (s : State) : Prop where
  panics : s.panics = []
  logged : ∀ ch ∈ s.hub.subs, ∃ sub, s.log ch = some sub
  unused : ∀ ch, s.log ch = none → (s.hub.chans ch).buffer = [] ∧ (s.hub.chans ch).closed = false
  tracked : ∀ ch sub, s.log ch = some sub → Tracked s ch sub
  todo : s.todo ⊆ s.hub.subs
  dead : s.dead.Nodup ∧ ∀ ch ∈ s.dead, ch ∈ s.hub.subs ∧ ch ∉ s.todo
  history : ∀ ev, s.running.map Running.event = some ev → ∃ before, s.hub.history = before ++ [ev]

/-! ### One step -/

@[simp] theorem awaits_iff {s : State} {ch : ℕ} : s.awaits ch = true ↔ ch ∈ s.todo ∨ ch ∈ s.dead := by
  simp [State.awaits]

theorem todo_of_idle {s : State} (h : s.running = none) : s.todo = ∅ := by simp [State.todo, h]

theorem dead_of_idle {s : State} (h : s.running = none) : s.dead = [] := by simp [State.dead, h]

theorem todo_of_running {s : State} {r : Running} (h : s.running = some r) : s.todo = r.todo := by
  simp [State.todo, h]

theorem dead_of_running {s : State} {r : Running} (h : s.running = some r) : s.dead = r.dead := by
  simp [State.dead, h]

/-- A step that changes nothing a subscriber can see leaves what is true of it. -/
theorem Tracked.congr {s t : State} {ch : ℕ} {sub : Subscription} (h : Tracked s ch sub)
    (hsubs : ch ∈ t.hub.subs ↔ ch ∈ s.hub.subs) (hchan : t.hub.chans ch = s.hub.chans ch)
    (hhistory : t.hub.history = s.hub.history) (htodo : ch ∈ t.todo ↔ ch ∈ s.todo)
    (hdead : ch ∈ t.dead ↔ ch ∈ s.dead) : Tracked t ch sub := by
  have hawaits : t.awaits ch = s.awaits ch := by
    rw [Bool.eq_iff_iff, awaits_iff, awaits_iff, htodo, hdead]
  have hstop : t.stop ch sub = s.stop ch sub := by rw [State.stop, State.stop, hawaits, hhistory]
  have hstretch : t.stretch ch sub = s.stretch ch sub := by
    rw [State.stretch, State.stretch, hstop, hhistory]
  exact {
    member := by rw [hsubs, h.member]
    closed := by rw [hchan, h.closed]
    start_le := by rw [hstop]; exact h.start_le
    stop_le := by rw [hstop, hhistory]; exact h.stop_le
    delivered := by rw [hchan, hstretch, h.delivered]
    bounded := by rw [hchan]; exact h.bounded
    dead := by rw [hchan, hdead]; exact h.dead
    dropped := by rw [hchan]; exact h.dropped
    sawClosed := by rw [hchan]; exact h.sawClosed }

/-- A subscription that has not ended ends now, or one before the event being sent. -/
theorem stop_of_open {s : State} {ch : ℕ} {sub : Subscription} (h : sub.stop = none) :
    s.stop ch sub = if s.awaits ch then s.hub.history.length - 1 else s.hub.history.length := by
  rw [State.stop, h]
  rfl

theorem Invariant.tracked_of_mem {s : State} (h : Invariant s) {ch : ℕ} (hch : ch ∈ s.hub.subs) :
    ∃ sub, s.log ch = some sub ∧ Tracked s ch sub ∧ sub.stop = none := by
  obtain ⟨sub, hsub⟩ := h.logged ch hch
  have htracked := h.tracked ch sub hsub
  exact ⟨sub, hsub, htracked, htracked.member.mp hch⟩

theorem Invariant.open_of_mem {s : State} (h : Invariant s) {ch : ℕ} (hch : ch ∈ s.hub.subs) :
    (s.hub.chans ch).closed = false := by
  obtain ⟨sub, -, htracked, hstop⟩ := h.tracked_of_mem hch
  rw [htracked.closed, hstop]
  rfl

theorem log_note {s : State} {ch : ℕ} {sub : Subscription} (h : s.log ch = some sub)
    (f : Subscription → Subscription) : (s.note ch f).log ch = some (f sub) := by
  simp [State.note, h]

structure Only (ch : ℕ) (s t : State) : Prop where
  subs : ∀ ch', ch' ≠ ch → (ch' ∈ t.hub.subs ↔ ch' ∈ s.hub.subs)
  chans : ∀ ch', ch' ≠ ch → t.hub.chans ch' = s.hub.chans ch'
  history : t.hub.history = s.hub.history
  log : ∀ ch', ch' ≠ ch → t.log ch' = s.log ch'
  todo : ∀ ch', ch' ≠ ch → (ch' ∈ t.todo ↔ ch' ∈ s.todo)
  dead : ∀ ch', ch' ≠ ch → (ch' ∈ t.dead ↔ ch' ∈ s.dead)
  event : t.running.map Running.event = s.running.map Running.event

/-- To keep the invariant such a step only has to keep it for its channel. -/
theorem Only.invariant {ch : ℕ} {s t : State} (ho : Only ch s t) (h : Invariant s) (hpanics : t.panics = [])
    {sub : Subscription} (hlog : t.log ch = some sub) (htracked : Tracked t ch sub)
    (hnodup : t.dead.Nodup) (htodo : ch ∈ t.todo → ch ∈ t.hub.subs)
    (hdead : ch ∈ t.dead → ch ∈ t.hub.subs ∧ ch ∉ t.todo) : Invariant t where
  panics := hpanics
  logged ch' hch' := by
    by_cases hne : ch' = ch
    · exact ⟨sub, hne ▸ hlog⟩
    · rw [ho.log ch' hne]
      exact h.logged ch' ((ho.subs ch' hne).mp hch')
  unused ch' hch' := by
    by_cases hne : ch' = ch
    · subst hne
      rw [hlog] at hch'
      cases hch'
    · rw [ho.chans ch' hne]
      exact h.unused ch' (ho.log ch' hne ▸ hch')
  tracked ch' sub' hsub' := by
    by_cases hne : ch' = ch
    · subst hne
      rw [hlog] at hsub'
      cases hsub'
      exact htracked
    · rw [ho.log ch' hne] at hsub'
      exact (h.tracked ch' sub' hsub').congr (ho.subs ch' hne) (ho.chans ch' hne) ho.history
        (ho.todo ch' hne) (ho.dead ch' hne)
  todo ch' hch' := by
    by_cases hne : ch' = ch
    · subst hne
      exact htodo hch'
    · rw [ho.subs ch' hne]
      exact h.todo ((ho.todo ch' hne).mp hch')
  dead := by
    refine ⟨hnodup, fun ch' hch' => ?_⟩
    by_cases hne : ch' = ch
    · subst hne
      exact hdead hch'
    · rw [ho.subs ch' hne, ho.todo ch' hne]
      exact h.dead.2 ch' ((ho.dead ch' hne).mp hch')
  history := by
    rw [ho.history, ho.event]
    exact h.history

theorem Only.of_update (s : State) (ch : ℕ) (subs : Finset ℕ) (c : Chan) (sub : Option Subscription)
    (panics : List Panic) (hsubs : ∀ ch', ch' ≠ ch → (ch' ∈ subs ↔ ch' ∈ s.hub.subs)) :
    Only ch s ⟨⟨subs, Function.update s.hub.chans ch c, s.hub.history⟩, s.running,
      Function.update s.log ch sub, panics⟩ where
  subs := hsubs
  chans _ hne := Function.update_of_ne hne _ _
  history := rfl
  log _ hne := Function.update_of_ne hne _ _
  todo _ _ := Iff.rfl
  dead _ _ := Iff.rfl
  event := rfl

theorem Tracked.ended {s t : State} {ch : ℕ} {sub : Subscription} (h : Tracked s ch sub) {dropped : Bool}
    (hdropped : dropped → sub.found = (s.hub.chans ch).capacity) (hsubs : ch ∉ t.hub.subs)
    (hchan : t.hub.chans ch = (s.hub.chans ch).close) (hhistory : t.hub.history = s.hub.history)
    (hdead : ch ∉ t.dead) :
    Tracked t ch { sub with stop := some (s.stop ch sub), dropped } where
  member := by simp [hsubs]
  closed := by simp [hchan, Chan.close]
  start_le := h.start_le
  stop_le := by
    rw [hhistory]
    exact h.stop_le
  delivered := by
    rw [hchan, State.stretch, hhistory]
    exact h.delivered
  bounded := by
    rw [hchan]
    exact h.bounded
  dead hch := absurd hch hdead
  dropped hd := by
    rw [hchan]
    exact ⟨hdropped hd, rfl⟩
  sawClosed hs := by
    rw [hchan]
    exact ⟨rfl, (h.sawClosed hs).2⟩

theorem Tracked.receive {s t : State} {ch : ℕ} {sub : Subscription} (h : Tracked s ch sub) {ev : Event}
    {evs : List Event} (hbuffer : (s.hub.chans ch).buffer = ev :: evs) (hsubs : t.hub.subs = s.hub.subs)
    (hchan : t.hub.chans ch = { s.hub.chans ch with buffer := evs })
    (hhistory : t.hub.history = s.hub.history) (hrunning : t.running = s.running) :
    Tracked t ch { sub with received := sub.received ++ [ev] } := by
  have hdead : t.dead = s.dead := by rw [State.dead, State.dead, hrunning]
  have hstop : ∀ sub, t.stop ch sub = s.stop ch sub := fun sub => by
    rw [State.stop, State.stop, State.awaits, State.awaits, hdead, State.todo, State.todo, hrunning, hhistory]
  constructor
  case member => simpa [hsubs] using h.member
  case closed => simpa [hchan] using h.closed
  case start_le =>
    rw [hstop]
    exact h.start_le
  case stop_le =>
    rw [hstop, hhistory]
    exact h.stop_le
  case delivered =>
    have hdelivered := h.delivered
    rw [hbuffer] at hdelivered
    rw [State.stretch, hstop, hhistory, hchan, List.append_assoc]
    exact hdelivered
  case bounded =>
    have hbounded := h.bounded
    rw [hbuffer] at hbounded
    rw [hchan]
    exact (Nat.le_succ _).trans hbounded
  case dead => simpa [hchan, hdead] using h.dead
  case dropped => simpa [hchan] using h.dropped
  case sawClosed =>
    intro hs
    rw [(h.sawClosed hs).2] at hbuffer
    cases hbuffer

theorem Tracked.send {s t : State} {ch : ℕ} {sub : Subscription} (h : Tracked s ch sub) {ev : Event}
    {before : List Event} {found : ℕ} (hstop : sub.stop = none) (hbefore : s.hub.history = before ++ [ev])
    (hawait : s.stop ch sub = before.length) (hready : (s.hub.chans ch).ready)
    (hsubs : t.hub.subs = s.hub.subs) (hchan : t.hub.chans ch = (s.hub.chans ch).send ev)
    (hhistory : t.hub.history = s.hub.history) (htodo : ch ∉ t.todo) (hdead : ch ∉ t.dead) :
    Tracked t ch { sub with found } := by
  have hall : t.stop ch { sub with found } = before.length + 1 := by
    simp [State.stop, hstop, htodo, hdead, hhistory, hbefore]
  have hstart := h.start_le
  rw [hawait] at hstart
  constructor
  case member => simpa [hsubs] using h.member
  case closed => simpa [hchan, Chan.send] using h.closed
  case start_le =>
    rw [hall]
    exact hstart.trans (Nat.le_succ _)
  case stop_le => simp [hall, hhistory, hbefore]
  case delivered =>
    have hdelivered := h.delivered
    rw [State.stretch, hawait, hbefore, List.take_left] at hdelivered
    have hwhole : (before ++ [ev]).take (before.length + 1) = before ++ [ev] :=
      List.take_of_length_le (by simp)
    rw [State.stretch, hall, hhistory, hbefore, hchan, hwhole, List.drop_append_of_le_length hstart, ← hdelivered]
    simp [Chan.send]
  case bounded =>
    have := of_decide_eq_true hready
    simp [hchan, Chan.send]
    omega
  case dead => exact fun hch => absurd hch hdead
  case dropped =>
    intro hd
    have hended := (h.dropped hd).2
    rw [hstop] at hended
    cases hended
  case sawClosed =>
    intro hs
    have hended := (h.sawClosed hs).1
    rw [hstop] at hended
    cases hended

/-- A subscriber found full misses the event, its stretch stands still. -/
theorem Tracked.full {s t : State} {ch : ℕ} {sub : Subscription} (h : Tracked s ch sub)
    (hstop : sub.stop = none) (hready : ¬ (s.hub.chans ch).ready) (hsubs : t.hub.subs = s.hub.subs)
    (hchan : t.hub.chans ch = s.hub.chans ch) (hhistory : t.hub.history = s.hub.history)
    (hawaits : t.awaits ch = s.awaits ch) :
    Tracked t ch { sub with found := (s.hub.chans ch).buffer.length } := by
  have hfound : (s.hub.chans ch).buffer.length = (s.hub.chans ch).capacity := by
    have hle := h.bounded
    simp only [Chan.ready, decide_eq_true_eq] at hready
    omega
  have hsame : ∀ sub, t.stop ch sub = s.stop ch sub := fun sub => by
    rw [State.stop, State.stop, hawaits, hhistory]
  constructor
  case member => simpa [hsubs] using h.member
  case closed => simpa [hchan] using h.closed
  case start_le =>
    rw [hsame]
    exact h.start_le
  case stop_le =>
    rw [hsame, hhistory]
    exact h.stop_le
  case delivered =>
    rw [State.stretch, hsame, hhistory, hchan]
    exact h.delivered
  case bounded => simpa [hchan] using h.bounded
  case dead => simpa [hchan] using fun _ => hfound
  case dropped =>
    intro hd
    have hended := (h.dropped hd).2
    rw [hstop] at hended
    cases hended
  case sawClosed => simpa [hchan] using h.sawClosed

section
variable {s t : State} {ch : ℕ} (h : Invariant s)
include h

theorem invariant_subscribe {capacity : ℕ} (hstep : step s (.subscribe ch capacity) = some t) :
    Invariant t := by
  rw [step] at hstep
  split_ifs at hstep with hfree
  cases hstep
  have honly := Only.of_update s ch (insert ch s.hub.subs) ⟨capacity, [], false⟩
    (some ⟨s.hub.history.length, none, false, 0, [], false⟩) s.panics
    fun ch' hne => by rw [Finset.mem_insert, or_iff_right hne]
  apply honly.invariant h h.panics (Function.update_self _ _ _) _ h.dead.1
  · exact fun _ => Finset.mem_insert_self _ _
  · intro hch
    change ch ∈ s.dead at hch
    rw [dead_of_idle hfree.1] at hch
    cases hch
  · constructor <;> simp [State.stop, State.stretch, State.awaits, State.todo, State.dead, hfree.1]

theorem invariant_unsubscribe (hstep : step s (.unsubscribe ch) = some t) : Invariant t := by
  rw [step] at hstep
  split_ifs at hstep with hidle hch
  · cases hstep
    obtain ⟨sub, hsub, htracked, hstop⟩ := h.tracked_of_mem hch
    have hdead : ch ∉ s.dead := by simp [dead_of_idle hidle]
    have htodo : ch ∉ s.todo := by simp [todo_of_idle hidle]
    have hall : s.stop ch sub = s.hub.history.length := by simp [stop_of_open hstop, hdead, htodo]
    have honly := Only.of_update s ch (s.hub.subs.erase ch) (s.hub.chans ch).close
      ((s.log ch).map fun sub => { sub with stop := some s.hub.history.length })
      (if (s.hub.chans ch).closed then s.panics ++ [.closeOfClosed ch] else s.panics)
      fun ch' hne => by rw [Finset.mem_erase, and_iff_right hne]
    have hlog : (Function.update s.log ch
        ((s.log ch).map fun sub => { sub with stop := some s.hub.history.length })) ch =
          some { sub with stop := some (s.stop ch sub) } := by
      rw [Function.update_self, hsub, hall]
      rfl
    apply honly.invariant h _ hlog _ h.dead.1 (absurd · htodo) (absurd · hdead)
    · simpa [h.open_of_mem hch] using h.panics
    · apply htracked.ended
      · exact fun hd => (htracked.dropped hd).1
      · exact Finset.notMem_erase _ _
      · exact Function.update_self _ _ _
      · rfl
      · exact hdead
  · cases hstep
    exact h

theorem invariant_broadcast {ev : Event} (hstep : step s (.broadcast ev) = some t) : Invariant t := by
  rw [step] at hstep
  split_ifs at hstep with hidle
  cases hstep
  have hdead := dead_of_idle hidle
  have htodo := todo_of_idle hidle
  constructor
  case panics => exact h.panics
  case logged => exact h.logged
  case unused => exact h.unused
  case tracked =>
    intro ch sub hsub
    have htracked := h.tracked ch sub hsub
    have hall : (State.mk { s.hub with history := s.hub.history ++ [ev] } (some ⟨ev, s.hub.subs, []⟩)
        s.log s.panics).stop ch sub = s.stop ch sub := by
      cases hstop : sub.stop with
      | some n => simp [State.stop, hstop]
      | none =>
        rw [stop_of_open hstop, stop_of_open hstop]
        simp [State.awaits, State.todo, State.dead, hidle, htracked.member.mpr hstop]
    exact {
      member := htracked.member
      closed := htracked.closed
      start_le := by rw [hall]; exact htracked.start_le
      stop_le := by
        rw [hall]
        have := htracked.stop_le
        simp only [List.length_append]
        omega
      delivered := by
        rw [State.stretch, hall, List.take_append_of_le_length htracked.stop_le]
        exact htracked.delivered
      bounded := htracked.bounded
      dead := fun hch => by cases hch
      dropped := htracked.dropped
      sawClosed := htracked.sawClosed }
  case todo => exact Finset.Subset.refl _
  case dead => exact ⟨List.nodup_nil, fun ch hch => by cases hch⟩
  case history =>
    intro ev' hev
    cases hev
    exact ⟨s.hub.history, rfl⟩

theorem invariant_finish (hstep : step s .finish = some t) : Invariant t := by
  cases hrunning : s.running with
  | none => simp [step, hrunning] at hstep
  | some r =>
    simp only [step, hrunning, Option.bind_eq_bind, Option.bind_some] at hstep
    split_ifs at hstep with hdone
    cases hstep
    have htodo := todo_of_running hrunning
    have hdead := dead_of_running hrunning
    rw [hdone.1] at htodo
    rw [hdone.2] at hdead
    constructor
    case panics => exact h.panics
    case logged => exact h.logged
    case unused => exact h.unused
    case tracked =>
      intro ch sub hsub
      exact (h.tracked ch sub hsub).congr Iff.rfl rfl rfl (by rw [htodo]; exact Iff.rfl) (by rw [hdead]; exact Iff.rfl)
    case todo => exact Finset.empty_subset _
    case dead => exact ⟨List.nodup_nil, fun ch hch => by cases hch⟩
    case history => exact fun ev hev => by cases hev

/-- The send that does not block extends buffer and stretch by the same event; a subscriber that is
full joins the dead, and its stretch stands still. -/
theorem invariant_visit (hstep : step s (.visit ch) = some t) : Invariant t := by
  cases hrunning : s.running with
  | none => simp [step, hrunning] at hstep
  | some r =>
    simp only [step, hrunning, Option.bind_eq_bind, Option.bind_some] at hstep
    split_ifs at hstep with hch
    have htodo := todo_of_running hrunning
    have hdead := dead_of_running hrunning
    have hmem : ch ∈ s.hub.subs := h.todo (htodo ▸ hch)
    have hnot : ch ∉ r.dead := fun hd => (h.dead.2 ch (hdead ▸ hd)).2 (htodo ▸ hch)
    obtain ⟨before, hbefore⟩ := h.history r.event (by rw [hrunning]; rfl)
    obtain ⟨sub, hsub, htracked, hstop⟩ := h.tracked_of_mem hmem
    have hawait : s.stop ch sub = before.length := by
      simp [stop_of_open hstop, htodo, hch, hbefore]
    rw [State.attempt, if_neg (by simp [State.note, h.open_of_mem hmem])] at hstep
    have hlog := log_note hsub fun sub => { sub with found := (s.hub.chans ch).buffer.length }
    have honly : ∀ chans dead, (∀ ch', ch' ≠ ch → chans ch' = s.hub.chans ch') →
        (∀ ch', ch' ≠ ch → (ch' ∈ dead ↔ ch' ∈ r.dead)) →
          Only ch s ⟨⟨s.hub.subs, chans, s.hub.history⟩, some ⟨r.event, r.todo.erase ch, dead⟩,
            Function.update s.log ch
              ((s.log ch).map fun sub => { sub with found := (s.hub.chans ch).buffer.length }), s.panics⟩ :=
      fun chans dead hchans hdead' => {
        subs := fun _ _ => Iff.rfl
        chans := hchans
        history := rfl
        log := fun _ hne => Function.update_of_ne hne _ _
        todo := fun ch' hne => by
          rw [htodo]
          exact Finset.mem_erase.trans (and_iff_right hne)
        dead := fun ch' hne => by
          rw [hdead]
          exact hdead' ch' hne
        event := by
          rw [hrunning]
          rfl }
    split_ifs at hstep with hready
    · cases hstep
      have ho := honly (Function.update s.hub.chans ch ((s.hub.chans ch).send r.event)) r.dead
        (fun ch' hne => Function.update_of_ne hne _ _) fun _ _ => Iff.rfl
      apply ho.invariant h h.panics hlog _ (hdead ▸ h.dead.1)
      · exact fun hin => absurd hin (Finset.notMem_erase ch r.todo)
      · exact fun hin => absurd hin hnot
      · exact htracked.send hstop hbefore hawait hready rfl (Function.update_self _ _ _) rfl
          (Finset.notMem_erase ch r.todo) hnot
    · cases hstep
      have ho := honly s.hub.chans (r.dead ++ [ch]) (fun _ _ => rfl)
        fun ch' hne => by simp [hne]
      apply ho.invariant h h.panics hlog
      · apply htracked.full hstop hready
        · rfl
        · rfl
        · rfl
        · simp [State.awaits, State.todo, State.dead, hrunning, hch]
      · have hnodup := h.dead.1
        rw [hdead] at hnodup
        change (r.dead ++ [ch]).Nodup
        rw [← List.concat_eq_append]
        exact hnodup.concat hnot
      · exact fun _ => hmem
      · exact fun _ => ⟨hmem, Finset.notMem_erase ch r.todo⟩

theorem invariant_drop (hstep : step s .drop = some t) : Invariant t := by
  cases hrunning : s.running with
  | none => simp [step, hrunning] at hstep
  | some r =>
    cases hr : r.dead with
    | nil => simp [step, hrunning, hr] at hstep
    | cons ch dead =>
      simp only [step, hrunning, hr, Option.bind_eq_bind, Option.bind_some] at hstep
      split_ifs at hstep with hempty
      cases hstep
      have htodo := todo_of_running hrunning
      have hdead := dead_of_running hrunning
      rw [hempty] at htodo
      rw [hr] at hdead
      have hnodup := hdead ▸ h.dead.1
      have hnot : ch ∉ dead := (List.nodup_cons.mp hnodup).1
      have hmem : ch ∈ s.hub.subs := (h.dead.2 ch (by simp [hdead])).1
      obtain ⟨sub, hsub, htracked, hstop⟩ := h.tracked_of_mem hmem
      have hawait : s.stop ch sub = s.hub.history.length - 1 := by
        simp [stop_of_open hstop, hdead]
      have hlog : (s.note ch fun sub =>
          { sub with stop := some (s.hub.history.length - 1), dropped := true }).log ch =
            some { sub with stop := some (s.stop ch sub), dropped := true } := by
        rw [log_note hsub, hawait]
      have honly : Only ch s ⟨⟨s.hub.subs.erase ch, Function.update s.hub.chans ch (s.hub.chans ch).close,
          s.hub.history⟩, some ⟨r.event, r.todo, dead⟩, Function.update s.log ch ((s.log ch).map fun sub =>
          { sub with stop := some (s.hub.history.length - 1), dropped := true }),
          if (s.hub.chans ch).closed then s.panics ++ [.closeOfClosed ch] else s.panics⟩ := {
        subs := fun ch' hne => by rw [Finset.mem_erase, and_iff_right hne]
        chans := fun _ hne => Function.update_of_ne hne _ _
        history := rfl
        log := fun _ hne => Function.update_of_ne hne _ _
        todo := fun _ _ => by
          rw [htodo, ← hempty]
          exact Iff.rfl
        dead := fun ch' hne => by
          rw [hdead, List.mem_cons, or_iff_right hne]
          exact Iff.rfl
        event := by
          rw [hrunning]
          rfl }
      have hnone : ch ∉ r.todo := by simp [hempty]
      apply honly.invariant h _ hlog _ (List.nodup_cons.mp hnodup).2 (absurd · hnone) (absurd · hnot)
      · simpa [h.open_of_mem hmem] using h.panics
      · apply htracked.ended
        · exact fun _ => htracked.dead (by simp [hdead])
        · exact Finset.notMem_erase _ _
        · exact Function.update_self _ _ _
        · rfl
        · exact hnot

theorem invariant_receive (hstep : step s (.receive ch) = some t) : Invariant t := by
  simp only [step, Option.bind_eq_bind, Option.bind_eq_some_iff] at hstep
  obtain ⟨⟨ev, hub⟩, hreceive, hstep⟩ := hstep
  rw [Hub.receive] at hreceive
  cases hbuffer : (s.hub.chans ch).buffer with
  | nil =>
    rw [hbuffer] at hreceive
    cases hreceive
  | cons ev' evs =>
    rw [hbuffer] at hreceive
    cases hreceive
    cases hstep
    cases hsub : s.log ch with
    | none =>
      rw [(h.unused ch hsub).1] at hbuffer
      cases hbuffer
    | some sub =>
      have htracked := h.tracked ch sub hsub
      have honly := Only.of_update s ch s.hub.subs { s.hub.chans ch with buffer := evs }
        ((s.log ch).map fun sub => { sub with received := sub.received ++ [ev] }) s.panics fun _ _ => Iff.rfl
      have hlog := log_note hsub fun sub => { sub with received := sub.received ++ [ev] }
      apply honly.invariant h h.panics hlog _ h.dead.1 (fun hmem => h.todo hmem) (h.dead.2 ch)
      exact htracked.receive hbuffer rfl (Function.update_self _ _ _) rfl rfl

theorem invariant_receiveClosed (hstep : step s (.receiveClosed ch) = some t) : Invariant t := by
  rw [step] at hstep
  split_ifs at hstep with hclosed
  cases hstep
  cases hsub : s.log ch with
  | none =>
    rw [(h.unused ch hsub).2] at hclosed
    cases hclosed.1
  | some sub =>
    have htracked := h.tracked ch sub hsub
    have hchan : Function.update s.hub.chans ch (s.hub.chans ch) = s.hub.chans := Function.update_eq_self _ _
    have honly := Only.of_update s ch s.hub.subs (s.hub.chans ch)
      ((s.log ch).map fun sub => { sub with sawClosed := true }) s.panics fun _ _ => Iff.rfl
    rw [hchan] at honly
    have hlog : Function.update s.log ch ((s.log ch).map fun sub => { sub with sawClosed := true }) ch =
        some { sub with sawClosed := true } := by
      rw [Function.update_self, hsub]
      rfl
    apply honly.invariant h h.panics hlog _ h.dead.1 (fun hmem => h.todo hmem) (h.dead.2 ch)
    exact {
      member := htracked.member
      closed := htracked.closed
      start_le := htracked.start_le
      stop_le := htracked.stop_le
      delivered := htracked.delivered
      bounded := htracked.bounded
      dead := htracked.dead
      dropped := htracked.dropped
      sawClosed := fun _ => ⟨htracked.closed ▸ hclosed.1, hclosed.2⟩ }

end

theorem invariant_init : Invariant .init where
  panics := rfl
  logged _ hch := absurd hch (Finset.notMem_empty _)
  unused _ _ := ⟨rfl, rfl⟩
  tracked _ _ hsub := by cases hsub
  todo := Finset.empty_subset _
  dead := ⟨List.nodup_nil, fun _ hch => by cases hch⟩
  history _ hev := by cases hev

theorem step_invariant {s t : State} {a : Action} (h : Invariant s) (hstep : step s a = some t) :
    Invariant t := by
  cases a with
  | subscribe ch capacity => exact invariant_subscribe h hstep
  | unsubscribe ch => exact invariant_unsubscribe h hstep
  | broadcast ev => exact invariant_broadcast h hstep
  | visit ch => exact invariant_visit h hstep
  | drop => exact invariant_drop h hstep
  | finish => exact invariant_finish h hstep
  | receive ch => exact invariant_receive h hstep
  | receiveClosed ch => exact invariant_receiveClosed h hstep

/-! ### Every schedule -/

/-- The actions that change neither the set of subscribers nor the history. -/
def Action.Quiet : Action → Prop
  | .visit _ | .finish | .receive _ | .receiveClosed _ => True
  | _ => False

theorem step_quiet {s t : State} {a : Action} (hstep : step s a = some t) (ha : a.Quiet) :
    t.hub.subs = s.hub.subs ∧ t.hub.history = s.hub.history := by
  cases a with
  | subscribe ch capacity => exact ha.elim
  | unsubscribe ch => exact ha.elim
  | broadcast ev => exact ha.elim
  | drop => exact ha.elim
  | visit ch =>
    simp only [step, Option.bind_eq_bind, Option.bind_eq_some_iff] at hstep
    obtain ⟨r, -, hstep⟩ := hstep
    split_ifs at hstep
    cases hstep
    simp only [State.attempt]
    split_ifs <;> exact ⟨rfl, rfl⟩
  | finish =>
    simp only [step, Option.bind_eq_bind, Option.bind_eq_some_iff] at hstep
    obtain ⟨r, -, hstep⟩ := hstep
    split_ifs at hstep
    cases hstep
    exact ⟨rfl, rfl⟩
  | receive ch =>
    simp only [step, Option.bind_eq_bind, Option.bind_eq_some_iff] at hstep
    obtain ⟨⟨ev, hub⟩, hreceive, hstep⟩ := hstep
    cases hstep
    exact (Hub.receive_eq_some hreceive).2
  | receiveClosed ch =>
    rw [step] at hstep
    split_ifs at hstep
    cases hstep
    exact ⟨rfl, rfl⟩

theorem drop_eq_some {s t : State} (hstep : step s .drop = some t) :
    ∃ ch, ch ∈ s.dead ∧ t.hub.subs = s.hub.subs.erase ch ∧ t.hub.history = s.hub.history := by
  cases hrunning : s.running with
  | none => simp [step, hrunning] at hstep
  | some r =>
    cases hr : r.dead with
    | nil => simp [step, hrunning, hr] at hstep
    | cons ch dead =>
      simp only [step, hrunning, hr, Option.bind_eq_bind, Option.bind_some] at hstep
      split_ifs at hstep
      cases hstep
      exact ⟨ch, by simp [dead_of_running hrunning, hr], rfl, rfl⟩

/-- Only the start of a broadcast extends the history. -/
theorem history_step {s t : State} {a : Action} (hstep : step s a = some t) :
    t.hub.history = s.hub.history ++ a.event?.toList := by
  cases a with
  | broadcast ev =>
    rw [step] at hstep
    split_ifs at hstep
    cases hstep
    rfl
  | subscribe ch capacity =>
    rw [step] at hstep
    split_ifs at hstep
    cases hstep
    exact (List.append_nil _).symm
  | unsubscribe ch =>
    rw [step] at hstep
    split_ifs at hstep
    · cases hstep
      exact (List.append_nil _).symm
    · cases hstep
      exact (List.append_nil _).symm
  | drop =>
    obtain ⟨ch, -, -, hhistory⟩ := drop_eq_some hstep
    rw [hhistory]
    exact (List.append_nil _).symm
  | visit ch => rw [(step_quiet hstep trivial).2]; exact (List.append_nil _).symm
  | finish => rw [(step_quiet hstep trivial).2]; exact (List.append_nil _).symm
  | receive ch => rw [(step_quiet hstep trivial).2]; exact (List.append_nil _).symm
  | receiveClosed ch => rw [(step_quiet hstep trivial).2]; exact (List.append_nil _).symm

/-- A subscriber leaves the set by its own cancellation, or because a broadcast found it full. -/
theorem removed_by {s t : State} {a : Action} {ch : ℕ} (h : Invariant s) (hstep : step s a = some t)
    (hin : ch ∈ s.hub.subs) (hout : ch ∉ t.hub.subs) :
    a = .unsubscribe ch ∨
      a = .drop ∧ ∃ sub, s.log ch = some sub ∧ sub.found = (s.hub.chans ch).capacity := by
  cases a with
  | broadcast ev =>
    rw [step] at hstep
    split_ifs at hstep
    cases hstep
    exact absurd hin hout
  | subscribe ch' capacity =>
    rw [step] at hstep
    split_ifs at hstep
    cases hstep
    exact absurd (Finset.mem_insert_of_mem hin) hout
  | unsubscribe ch' =>
    rw [step] at hstep
    split_ifs at hstep
    · cases hstep
      have hsame : ch = ch' := by
        by_contra hne
        exact hout (Finset.mem_erase.mpr ⟨hne, hin⟩)
      exact .inl (hsame ▸ rfl)
    · cases hstep
      exact absurd hin hout
  | drop =>
    obtain ⟨ch', hdead, hsubs, -⟩ := drop_eq_some hstep
    have hsame : ch = ch' := by
      by_contra hne
      rw [hsubs] at hout
      exact hout (Finset.mem_erase.mpr ⟨hne, hin⟩)
    obtain ⟨sub, hsub, htracked, -⟩ := h.tracked_of_mem hin
    exact .inr ⟨rfl, sub, hsub, htracked.dead (hsame ▸ hdead)⟩
  | visit ch' => exact absurd hin ((step_quiet hstep trivial).1 ▸ hout)
  | finish => exact absurd hin ((step_quiet hstep trivial).1 ▸ hout)
  | receive ch' => exact absurd hin ((step_quiet hstep trivial).1 ▸ hout)
  | receiveClosed ch' => exact absurd hin ((step_quiet hstep trivial).1 ▸ hout)

theorem history_execute {as : List Action} {s t : State} (h : execute step s as = some t) :
    t.hub.history = s.hub.history ++ as.filterMap Action.event? := by
  induction as generalizing s with
  | nil =>
    cases h
    simp
  | cons a as ih =>
    obtain ⟨u, hu, ht⟩ := (execute_cons step).mp h
    rw [ih ht, history_step hu, List.append_assoc]
    cases hev : a.event? <;> simp [hev]

/-- A subscriber sees its channel closed when it is subscribed no more and has received its stretch. -/
theorem receiveClosed_isSome_iff {s : State} {ch : ℕ} {sub : Subscription} (h : Tracked s ch sub) :
    (step s (.receiveClosed ch)).isSome ↔ sub.stop.isSome ∧ sub.received = s.stretch ch sub := by
  rw [step, ← h.delivered, ← h.closed]
  simp

/-- For every schedule of subscriptions, cancellations, broadcasts and receives. -/
theorem gap_free_delivery {as : List Action} {s : State} (h : execute step .init as = some s) :
    s.panics = [] ∧ s.hub.history = as.filterMap Action.event? ∧
      (∀ ch, ch ∈ s.hub.subs ↔ (∃ sub, s.log ch = some sub) ∧ (s.hub.chans ch).closed = false) ∧
      (∀ ch sub, s.log ch = some sub →
        sub.received ++ (s.hub.chans ch).buffer = s.stretch ch sub ∧
        ((s.hub.chans ch).closed ↔ sub.stop.isSome) ∧
        (sub.dropped → sub.stop.isSome ∧ sub.found = (s.hub.chans ch).capacity) ∧
        ((step s (.receiveClosed ch)).isSome ↔ sub.stop.isSome ∧ sub.received = s.stretch ch sub) ∧
        (sub.sawClosed → sub.stop.isSome ∧ sub.received = s.stretch ch sub)) ∧
      ∀ a t ch, step s a = some t → ch ∈ s.hub.subs → ch ∉ t.hub.subs →
        a = .unsubscribe ch ∨
          a = .drop ∧ ∃ sub, s.log ch = some sub ∧ sub.found = (s.hub.chans ch).capacity := by
  have hinv : Invariant s := execute_invariant_all (fun _ _ _ => step_invariant) invariant_init h
  refine ⟨hinv.panics, history_execute h, fun ch => ⟨fun hch => ?_, ?_⟩, fun ch sub hsub => ?_,
    fun a t ch => removed_by hinv⟩
  · exact ⟨hinv.logged ch hch, hinv.open_of_mem hch⟩
  · rintro ⟨⟨sub, hsub⟩, hopen⟩
    have htracked := hinv.tracked ch sub hsub
    rw [htracked.closed] at hopen
    exact htracked.member.mpr (Option.not_isSome_iff_eq_none.mp (by simp [hopen]))
  · have htracked := hinv.tracked ch sub hsub
    refine ⟨htracked.delivered, by rw [htracked.closed], fun hd => (htracked.dropped hd).symm,
      receiveClosed_isSome_iff htracked, fun hs => ⟨(htracked.sawClosed hs).1, ?_⟩⟩
    have hdelivered := htracked.delivered
    rw [(htracked.sawClosed hs).2, List.append_nil] at hdelivered
    exact hdelivered

def someEvent : Event := ⟨.update, default⟩

def droppedSchedule : List Action :=
  [.subscribe 1 1, .broadcast someEvent, .visit 1, .finish, .broadcast someEvent, .visit 1, .drop, .finish,
    .unsubscribe 1, .receive 1, .receiveClosed 1]

theorem gap_free_delivery_sample :
    ∃ s, execute step .init droppedSchedule = some s ∧
      s.log 1 = some ⟨0, some 1, true, 1, [someEvent], true⟩ ∧ s.panics = [] := by
  have hsome : (execute step .init droppedSchedule).isSome := by decide
  obtain ⟨s, hs⟩ := Option.isSome_iff_exists.mp hsome
  have hlog : ((execute step .init droppedSchedule).bind fun s => s.log 1) =
      some ⟨0, some 1, true, 1, [someEvent], true⟩ := by decide
  rw [hs] at hlog
  exact ⟨s, hs, hlog, (gap_free_delivery hs).1⟩

end CyberstalkMe.Delivery
