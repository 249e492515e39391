import CyberstalkMe.Shared.Contract
import Mathlib.Data.Finset.Erase
import Mathlib.Data.Finset.Filter
import Mathlib.Data.Finset.Insert

/-! # The broadcast hub

Every operation runs under the hub's mutex, so each is one step. A subscriber
whose buffer is full is dropped and its channel closed.
-/
namespace CyberstalkMe

open Shared

structure Chan where
  capacity : ℕ
  buffer : List Event
  closed : Bool
deriving DecidableEq, Repr

/-- A send that does not block is possible. -/
def Chan.ready (c : Chan) : Bool := decide (c.buffer.length < c.capacity)

def Chan.send (c : Chan) (ev : Event) : Chan := { c with buffer := c.buffer ++ [ev] }

def Chan.close (c : Chan) : Chan := { c with closed := true }

/-- The subscribed channels and all channels by number. `history` records every event passed to
`broadcast`; no operation reads it. -/
structure Hub where
  subs : Finset ℕ
  chans : ℕ → Chan
  history : List Event

def Hub.new : Hub := ⟨∅, fun _ => ⟨0, [], false⟩, []⟩

/-- `make(chan shared.Event, capacity)`. -/
def Hub.makeChan (h : Hub) (ch capacity : ℕ) : Hub :=
  { h with chans := Function.update h.chans ch ⟨capacity, [], false⟩ }

def Hub.subscribe (h : Hub) (ch : ℕ) : Hub := { h with subs := insert ch h.subs }

def Hub.unsubscribe (h : Hub) (ch : ℕ) : Hub :=
  if ch ∈ h.subs then
    { h with
      subs := h.subs.erase ch
      chans := Function.update h.chans ch (h.chans ch).close }
  else h

/-- Send to every subscriber that is ready; the others are removed and closed. -/
def Hub.broadcast (h : Hub) (ev : Event) : Hub where
  subs := h.subs.filter fun ch => (h.chans ch).ready
  chans ch :=
    if ch ∈ h.subs then
      if (h.chans ch).ready then (h.chans ch).send ev else (h.chans ch).close
    else h.chans ch
  history := h.history ++ [ev]

def Hub.broadcastAll (h : Hub) (evs : List Event) : Hub := evs.foldl Hub.broadcast h

/-- `<-ch`, when the buffer is not empty. -/
def Hub.receive (h : Hub) (ch : ℕ) : Option (Event × Hub) :=
  match (h.chans ch).buffer with
  | [] => none
  | ev :: evs => some (ev, { h with chans := Function.update h.chans ch { h.chans ch with buffer := evs } })

@[simp] theorem Hub.history_broadcast (h : Hub) (ev : Event) :
    (h.broadcast ev).history = h.history ++ [ev] := rfl

@[simp] theorem Hub.history_broadcastAll (h : Hub) (evs : List Event) :
    (h.broadcastAll evs).history = h.history ++ evs := by
  induction evs generalizing h with
  | nil => simp [broadcastAll]
  | cons ev evs ih =>
    change ((h.broadcast ev).broadcastAll evs).history = _
    rw [ih, history_broadcast, List.append_assoc]
    rfl

/-- A subscriber that is ready stays subscribed and receives the event. -/
theorem Hub.broadcast_ready {h : Hub} {ch : ℕ} (hsub : ch ∈ h.subs) (hready : (h.chans ch).ready)
    (ev : Event) :
    ch ∈ (h.broadcast ev).subs ∧
      ((h.broadcast ev).chans ch).buffer = (h.chans ch).buffer ++ [ev] := by
  constructor
  · exact Finset.mem_filter.mpr ⟨hsub, hready⟩
  · simp only [broadcast, if_pos hsub, if_pos hready]
    rfl

@[simp] theorem Hub.history_unsubscribe (h : Hub) (ch : ℕ) : (h.unsubscribe ch).history = h.history := by
  rw [unsubscribe]
  split_ifs <;> rfl

/-- Unsubscribing one channel leaves the others as they are. -/
theorem Hub.unsubscribe_of_ne {h : Hub} {ch ch' : ℕ} (hne : ch ≠ ch') (hsub : ch ∈ h.subs) :
    ch ∈ (h.unsubscribe ch').subs ∧ (h.unsubscribe ch').chans ch = h.chans ch := by
  rw [unsubscribe]
  split_ifs with hmem
  · exact ⟨Finset.mem_erase.mpr ⟨hne, hsub⟩, Function.update_of_ne hne _ _⟩
  · exact ⟨hsub, rfl⟩

theorem Hub.receive_eq_some {h h' : Hub} {ch : ℕ} {ev : Event} (hreceive : h.receive ch = some (ev, h')) :
    (h.chans ch).buffer = ev :: (h'.chans ch).buffer ∧ h'.subs = h.subs ∧ h'.history = h.history := by
  rw [receive] at hreceive
  cases hbuffer : (h.chans ch).buffer with
  | nil =>
    rw [hbuffer] at hreceive
    cases hreceive
  | cons ev' evs =>
    rw [hbuffer] at hreceive
    cases hreceive
    refine ⟨?_, rfl, rfl⟩
    simp only [Function.update_self]

theorem Hub.exists_receive {h : Hub} {ch : ℕ} {ev : Event} {evs : List Event}
    (hbuffer : (h.chans ch).buffer = ev :: evs) : ∃ h', h.receive ch = some (ev, h') := by
  rw [receive, hbuffer]
  exact ⟨_, rfl⟩

end CyberstalkMe
