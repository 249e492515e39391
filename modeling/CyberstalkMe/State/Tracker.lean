import CyberstalkMe.Shared.Contract
import Mathlib.Data.Finset.Erase
import Mathlib.Data.Finset.Insert
import Mathlib.Data.Finset.Lattice.Basic

/-! # The online tracker

A device is online while its last report is at most the threshold old. A scan
announces the devices that were known to be online and no longer are; `known`
holds the devices whose next transition is still to be announced.
-/
namespace CyberstalkMe.State

open Go Shared

def isOnline (threshold : ℤ) (now lastSeen : Time) : Bool := decide (now.sub lastSeen ≤ threshold)

theorem isOnline_iff {threshold : ℤ} {now lastSeen : Time} :
    isOnline threshold now lastSeen ↔ now.sub lastSeen ≤ threshold := decide_eq_true_iff

structure Scan where
  online : Finset String
  transitions : List Event

def Scan.start : Scan := ⟨∅, []⟩

def offlineEvent (ds : DeviceState) : Event := ⟨.offline, { ds with online := false }⟩

/-- One turn of the scan's loop. The check and the deletion are one step under the lock. -/
def scanDevice (threshold : ℤ) (now : Time) (known : Finset String) (scan : Scan)
    (ds : DeviceState) : Finset String × Scan :=
  if isOnline threshold now ds.lastSeenAt then
    (known, { scan with online := insert ds.deviceID scan.online })
  else if ds.deviceID ∈ known then
    (known.erase ds.deviceID, { scan with transitions := scan.transitions ++ [offlineEvent ds] })
  else (known, scan)

def scanLoop (threshold : ℤ) (now : Time) (known : Finset String) (scan : Scan)
    (states : List DeviceState) : Finset String × Scan :=
  states.foldl (fun s ds => scanDevice threshold now s.1 s.2 ds) (known, scan)

/-- A whole scan of a listing: the new known set and the events to broadcast. -/
def scanOnce (threshold : ℤ) (now : Time) (known : Finset String) (states : List DeviceState) :
    Finset String × List Event :=
  let s := scanLoop threshold now known .start states
  (s.1 ∪ s.2.online, s.2.transitions)

/-- Record that a device reported. -/
def markOnline (known : Finset String) (id : String) : Finset String := insert id known

/-! ### What a scan does -/

section Scan
variable {threshold : ℤ} {now : Time}

theorem scanLoop_cons (known : Finset String) (scan : Scan) (ds : DeviceState)
    (states : List DeviceState) :
    scanLoop threshold now known scan (ds :: states) =
      scanLoop threshold now (scanDevice threshold now known scan ds).1
        (scanDevice threshold now known scan ds).2 states := rfl

theorem mem_fst_scanLoop {known : Finset String} {scan : Scan} {states : List DeviceState} {id : String} :
    id ∈ (scanLoop threshold now known scan states).1 ↔
      id ∈ known ∧ ∀ ds ∈ states, ds.deviceID = id → isOnline threshold now ds.lastSeenAt := by
  induction states generalizing known scan with
  | nil => simp [scanLoop]
  | cons ds states ih =>
    rw [scanLoop_cons, ih, List.forall_mem_cons]
    unfold scanDevice
    by_cases hon : isOnline threshold now ds.lastSeenAt
    · simp [hon]
    · by_cases hknown : ds.deviceID ∈ known
      · simp only [hon, hknown, if_true, Bool.false_eq_true, if_false, Finset.mem_erase, imp_false]
        rw [ne_comm]
        tauto
      · have hne : id ∈ known → ds.deviceID ≠ id := by
          rintro hid rfl
          exact hknown hid
        simp only [hon, hknown, Bool.false_eq_true, if_false, imp_false]
        tauto

theorem mem_online_scanLoop {known : Finset String} {scan : Scan} {states : List DeviceState}
    {id : String} :
    id ∈ (scanLoop threshold now known scan states).2.online ↔
      id ∈ scan.online ∨ ∃ ds ∈ states, ds.deviceID = id ∧ isOnline threshold now ds.lastSeenAt := by
  induction states generalizing known scan with
  | nil => simp [scanLoop]
  | cons ds states ih =>
    simp only [scanLoop_cons, ih, List.mem_cons, exists_eq_or_imp]
    unfold scanDevice
    by_cases hon : isOnline threshold now ds.lastSeenAt
    · simp only [hon, if_true, Finset.mem_insert, and_true, eq_comm (a := id)]
      tauto
    · by_cases hknown : ds.deviceID ∈ known <;> simp [hon, hknown]

theorem transitions_scanLoop {known : Finset String} {scan : Scan} {states : List DeviceState}
    (hnodup : (states.map DeviceState.deviceID).Nodup) :
    (scanLoop threshold now known scan states).2.transitions = scan.transitions ++
      (states.filter fun ds => !isOnline threshold now ds.lastSeenAt && ds.deviceID ∈ known).map
        offlineEvent := by
  induction states generalizing known scan with
  | nil => simp [scanLoop]
  | cons ds states ih =>
    obtain ⟨hds, hrest⟩ := List.nodup_cons.mp hnodup
    rw [scanLoop_cons, ih hrest, List.filter_cons]
    unfold scanDevice
    by_cases hon : isOnline threshold now ds.lastSeenAt
    · simp [hon]
    · by_cases hknown : ds.deviceID ∈ known
      · -- erasing this device does not change the check of the others
        have hsame : (states.filter fun x =>
            !isOnline threshold now x.lastSeenAt && x.deviceID ∈ known.erase ds.deviceID) =
            states.filter fun x => !isOnline threshold now x.lastSeenAt && x.deviceID ∈ known := by
          apply List.filter_congr
          intro x hx
          have hne : x.deviceID ≠ ds.deviceID := fun heq => hds (heq ▸ List.mem_map_of_mem hx)
          simp [hne]
        simp only [hon, hknown, if_true, Bool.false_eq_true, if_false, hsame]
        simp
      · simp [hon, hknown]

theorem mem_fst_scanOnce {known : Finset String} {states : List DeviceState} {id : String} :
    id ∈ (scanOnce threshold now known states).1 ↔
      (id ∈ known ∧ ∀ ds ∈ states, ds.deviceID = id → isOnline threshold now ds.lastSeenAt) ∨
        ∃ ds ∈ states, ds.deviceID = id ∧ isOnline threshold now ds.lastSeenAt := by
  simp [scanOnce, mem_fst_scanLoop, mem_online_scanLoop, Scan.start]

theorem snd_scanOnce {known : Finset String} {states : List DeviceState}
    (hnodup : (states.map DeviceState.deviceID).Nodup) :
    (scanOnce threshold now known states).2 =
      (states.filter fun ds => !isOnline threshold now ds.lastSeenAt && ds.deviceID ∈ known).map
        offlineEvent := by
  simp [scanOnce, transitions_scanLoop hnodup, Scan.start]

end Scan

end CyberstalkMe.State
