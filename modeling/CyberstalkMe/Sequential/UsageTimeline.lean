import CyberstalkMe.Sequential.System
import CyberstalkMe.Api.Crediting

/-! # The usage table counts a timeline

The abstract model of a device's usage is a timeline: at most one label for each
second. `Tracks` relates it to the store: the rows count the timeline, and
nothing is painted from the stored `last_seen_at` on. A report that is accepted
paints the interval it credits and moves `last_seen_at` to its end. The one way
out of `Tracks` is a report whose usage is added and whose state is not stored.
-/
namespace CyberstalkMe.Sequential

open Go Shared Store Usage Foundations Api

structure Tracks (d : String) (tl : Timeline Label) (s : System) : Prop where
  counts : Counts d tl s.srv.db.usageBucket
  keyed : WellKeyed d s.srv.db.usageBucket
  last : s.srv.db.deviceState.lookup d = none ∧ (∀ x, tl x = none) ∨
    ∃ t : Time, s.srv.db.lastSeen d = some t.utc.format ∧ t.nanos ≤ s.clock.nanos ∧
      tl.FreeFrom t.seconds

/-- The device has neither reported nor been credited. -/
structure Fresh (d : String) (s : System) : Prop where
  state : s.srv.db.deviceState.lookup d = none
  usage : ∀ k n, s.srv.db.usageBucket.lookup k = some n → k.deviceID ≠ d
  accepted : ∀ o ∈ s.accepted, o.id ≠ d

theorem Fresh.tracks {d : String} {s : System} (h : Fresh d s) : Tracks d (fun _ => none) s where
  counts H q := by
    rw [Timeline.count_none, KeyedTable.total, KeyedTable.totalRows_eq_zero]
    · rfl
    · intro r hr hin
      exact h.usage r.1 r.2 (KeyedTable.lookup_eq_some.mpr hr) hin.1
  keyed k n hk hid := absurd hid (h.usage k n hk)
  last := .inl ⟨h.state, fun _ => rfl⟩

namespace Tracks
variable {cfg : Config} {d : String} {tl : Timeline Label} {s : System}

/-- What a report of the device reads: an interval that starts where the timeline is free. -/
theorem free_of_getState (h : Tracks d tl s) {fails : Bool} {row : StateRow}
    (hrow : getState s.srv.db d fails = .ok row) :
    tl.FreeFrom row.lastSeenAt.seconds ∧ (s.srv.db.deviceState.lookup d = none ∨
      row.lastSeenAt.seconds ≤ s.clock.seconds) := by
  rcases h.last with ⟨hnone, htl⟩ | ⟨t, ht, hclock, hfree⟩
  · exact ⟨fun x _ => htl x, .inl hnone⟩
  · rw [(getState_lastSeen hrow ht).1, Time.ofSeconds_seconds]
    exact ⟨hfree, .inr (Time.seconds_mono hclock)⟩

theorem free_paintReport (h : Tracks d tl s) {fails : Bool} {row : StateRow}
    (hrow : getState s.srv.db d fails = .ok row) :
    (paintReport cfg tl row s.clock).FreeFrom s.clock.seconds := by
  unfold paintReport
  rcases h.free_of_getState hrow with ⟨hfree, hnone | hle⟩
  · rw [if_neg (not_credits_of_lookup_none hrow hnone s.clock)]
    rcases h.last with ⟨-, htl⟩ | ⟨t, ht, -⟩
    · exact fun x _ => htl x
    · simp [DB.lastSeen, hnone] at ht
  · split_ifs with hc
    · exact hfree.paint hle _
    · exact hfree.mono hle

theorem free_clock (h : Tracks d tl s) : tl.FreeFrom s.clock.seconds := by
  rcases h.last with ⟨-, htl⟩ | ⟨t, -, hclock, hfree⟩
  · exact fun x _ => htl x
  · exact hfree.mono (Time.seconds_mono hclock)

theorem accept_nothing (h : Tracks d tl s) {o : Observation} {faults : Faults} (hid : o.id = d)
    (hseen : o.seenAt = s.clock)
    (hadded : addedDeltas cfg s.srv.db o.id o.seenAt faults.getState faults.addUsage = []) :
    Tracks d tl (s.afterReport cfg o faults) where
  counts := by
    simp only [System.srv_afterReport, acceptReport, usageBucket_storeObservation, creditReport, hadded, creditUsage_nil]
    exact h.counts
  keyed := by
    simp only [System.srv_afterReport, acceptReport, usageBucket_storeObservation, creditReport, hadded, creditUsage_nil]
    exact h.keyed
  last := .inr ⟨o.seenAt, by simp [acceptReport, lastSeen_storeObservation, hid],
    (congrArg Time.nanos hseen).le, hseen ▸ h.free_clock⟩

theorem accept_credit (h : Tracks d tl s) {o : Observation} {faults : Faults} {row : StateRow}
    (hid : o.id = d) (hseen : o.seenAt = s.clock)
    (hrow : getState s.srv.db o.id faults.getState = .ok row)
    (hadded : addedDeltas cfg s.srv.db o.id o.seenAt faults.getState faults.addUsage =
      usageDeltas cfg (.ok row) o.seenAt) :
    Tracks d (paintReport cfg tl row o.seenAt) (s.afterReport cfg o faults) where
  counts := by
    have hfree := (h.free_of_getState (hid ▸ hrow)).1
    simp only [System.srv_afterReport, acceptReport, usageBucket_storeObservation, creditReport, hadded, creditUsage]
    exact hid ▸ h.counts.report hfree
  keyed := by
    simp only [System.srv_afterReport, acceptReport, usageBucket_storeObservation, creditReport]
    exact h.keyed.addDeltas fun _ => mem_addedDeltas
  last := .inr ⟨o.seenAt, by simp [acceptReport, lastSeen_storeObservation, hid],
    (congrArg Time.nanos hseen).le, hseen ▸ h.free_paintReport (hid ▸ hrow)⟩

/-- A change of the server that leaves the device's rows alone. -/
theorem frame (h : Tracks d tl s) {t : System} (hclock : s.clock.nanos ≤ t.clock.nanos)
    (hcounts : Counts d tl t.srv.db.usageBucket) (hkeyed : WellKeyed d t.srv.db.usageBucket)
    (hstate : t.srv.db.deviceState.lookup d = s.srv.db.deviceState.lookup d) : Tracks d tl t where
  counts := hcounts
  keyed := hkeyed
  last := by
    rcases h.last with ⟨hnone, htl⟩ | ⟨u, hu, hle, hfree⟩
    · exact .inl ⟨hstate.trans hnone, htl⟩
    · refine .inr ⟨u, ?_, hle.trans hclock, hfree⟩
      rw [← hu, DB.lastSeen, DB.lastSeen, hstate]

/-- A report of another device, accepted or not. -/
theorem other (h : Tracks d tl s) (cfg : Config) {o : Observation} (faults : Faults) (hid : o.id ≠ d) :
    Counts d tl (creditReport cfg s.srv.db o faults).usageBucket ∧
      WellKeyed d (creditReport cfg s.srv.db o faults).usageBucket :=
  ⟨h.counts.other hid _, h.keyed.addDeltas fun _ => mem_addedDeltas⟩

end Tracks

namespace Sample
open Api.Sample

theorem fresh_start : Fresh "d1" (System.start db (clock 0)) :=
  ⟨rfl, fun _ _ h => (nomatch h), fun _ h => (nomatch h)⟩

def accepted (app description : String) : Action := .report (request app description default) .none

end Sample

end CyberstalkMe.Sequential
