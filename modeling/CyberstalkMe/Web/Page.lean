import CyberstalkMe.Shared.Contract
import Mathlib.Data.List.Sort

/-! # The page

The state of the hook `useDeviceStream` and its handlers. The device list is
kept sorted for display; what matters of it is the entry of each device.
-/
namespace CyberstalkMe.Web

open Go Shared

inductive ConnectionState where
  | connecting
  | live
  | reconnecting
deriving DecidableEq, Repr

/-- The hook's state, and `connectedOnce`, which its effect keeps. -/
structure Page where
  devices : List DeviceState
  connection : ConnectionState
  error : Option String
  connectedOnce : Bool
deriving DecidableEq, Repr

def Page.initial : Page := ⟨[], .connecting, none, false⟩

def entryOf (d : String) (devices : List DeviceState) : Option DeviceState :=
  devices.find? fun ds => ds.deviceID = d

section Handlers
variable (localeCompare : String → String → ℤ)

def byDeviceID (a b : DeviceState) : ℤ := localeCompare a.deviceID b.deviceID

/-- `devices.sort(byDeviceId)`, which is stable. -/
def sortDevices (devices : List DeviceState) : List DeviceState :=
  devices.insertionSort fun a b => byDeviceID localeCompare a b ≤ 0

def upsert (devices : List DeviceState) (next : DeviceState) : List DeviceState :=
  match devices.findIdx? fun ds => ds.deviceID = next.deviceID with
  | none => sortDevices localeCompare (devices ++ [next])
  | some index => devices.set index next

/-- The stream is open. An open after the first must load a snapshot. -/
def Page.onOpen (p : Page) : Page × Bool :=
  ({ p with connection := .live, error := none, connectedOnce := true }, p.connectedOnce)

def Page.onMessage (p : Page) (ev : Event) : Page :=
  { p with devices := upsert localeCompare p.devices ev.device }

/-- `EventSource` reconnects on its own. -/
def Page.onError (p : Page) : Page := { p with connection := .reconnecting }

def Page.onSnapshot (p : Page) (devices : List DeviceState) : Page :=
  { p with devices := sortDevices localeCompare devices, error := none }

def Page.onSnapshotError (p : Page) : Page := { p with error := some "拉取设备快照失败" }

end Handlers

/-! ### The entries -/

def Distinct (devices : List DeviceState) : Prop := (devices.map DeviceState.deviceID).Nodup

theorem entryOf_eq_some {d : String} {devices : List DeviceState} (h : Distinct devices)
    {ds : DeviceState} : entryOf d devices = some ds ↔ ds ∈ devices ∧ ds.deviceID = d := by
  induction devices with
  | nil => simp [entryOf]
  | cons x xs ih =>
    obtain ⟨hx, hxs⟩ := List.nodup_cons.mp h
    rw [entryOf, List.find?_cons]
    by_cases hd : x.deviceID = d
    · simp only [hd, decide_true, Option.some.injEq, List.mem_cons]
      constructor
      · rintro rfl
        exact ⟨.inl rfl, hd⟩
      · rintro ⟨rfl | hmem, hid⟩
        · rfl
        · exact absurd (List.mem_map.mpr ⟨ds, hmem, hid.trans hd.symm⟩) hx
    · simp only [hd, decide_false, List.mem_cons]
      refine (ih hxs).trans ⟨fun ⟨hmem, hid⟩ => ⟨.inr hmem, hid⟩, ?_⟩
      rintro ⟨rfl | hmem, hid⟩
      · exact absurd hid hd
      · exact ⟨hmem, hid⟩

/-- The order of the list does not matter to its entries. -/
theorem entryOf_perm {l l' : List DeviceState} (h : Distinct l) (hperm : l.Perm l') (d : String) :
    entryOf d l = entryOf d l' := by
  have h' : Distinct l' := (hperm.map DeviceState.deviceID).nodup_iff.mp h
  apply Option.ext
  intro ds
  rw [entryOf_eq_some h, entryOf_eq_some h', hperm.mem_iff]

/-- Replacing a device at the index where it stands. -/
theorem set_findIdx {devices : List DeviceState} {next : DeviceState} {index : ℕ}
    (h : devices.findIdx? (fun ds => ds.deviceID = next.deviceID) = some index) :
    (devices.set index next).map DeviceState.deviceID = devices.map DeviceState.deviceID ∧
      ∀ d, entryOf d (devices.set index next) =
        if next.deviceID = d then some next else entryOf d devices := by
  induction devices generalizing index with
  | nil => cases h
  | cons x xs ih =>
    rw [List.findIdx?_cons] at h
    by_cases hx : x.deviceID = next.deviceID
    · simp only [hx, decide_true, if_true, Option.some.injEq] at h
      subst h
      refine ⟨by rw [List.set_cons_zero, List.map_cons, List.map_cons, hx], fun d => ?_⟩
      rw [List.set_cons_zero, entryOf, List.find?_cons, entryOf, List.find?_cons, hx]
      by_cases hd : next.deviceID = d
      · simp only [hd, decide_true, if_true]
      · simp only [hd, decide_false, if_false]
    · simp only [hx, decide_false, Bool.false_eq_true, if_false, Option.map_eq_some_iff] at h
      obtain ⟨j, hj, rfl⟩ := h
      obtain ⟨hids, hentry⟩ := ih hj
      refine ⟨by rw [List.set_cons_succ, List.map_cons, List.map_cons, hids], fun d => ?_⟩
      have hrest := hentry d
      rw [entryOf, entryOf] at hrest
      rw [List.set_cons_succ, entryOf, List.find?_cons, hrest, entryOf, List.find?_cons]
      by_cases hd : x.deviceID = d
      · have hne : next.deviceID ≠ d := fun heq => hx (hd.trans heq.symm)
        simp only [hd, decide_true, if_neg hne]
      · simp only [hd, decide_false]

section Handlers
variable {localeCompare : String → String → ℤ} {devices : List DeviceState}

theorem sortDevices_perm (devices : List DeviceState) : (sortDevices localeCompare devices).Perm devices :=
  List.perm_insertionSort _ devices

theorem Distinct.sortDevices (h : Distinct devices) : Distinct (sortDevices localeCompare devices) :=
  ((sortDevices_perm devices).map DeviceState.deviceID).nodup_iff.mpr h

@[simp] theorem entryOf_sortDevices (h : Distinct devices) (d : String) :
    entryOf d (sortDevices localeCompare devices) = entryOf d devices :=
  (entryOf_perm h (sortDevices_perm devices).symm d).symm

/-- The list of devices with a new one at its end. -/
theorem concat_findIdx_none {next : DeviceState} (h : Distinct devices)
    (hnone : devices.findIdx? (fun ds => ds.deviceID = next.deviceID) = none) :
    Distinct (devices ++ [next]) ∧ ∀ d, entryOf d (devices ++ [next]) =
      if next.deviceID = d then some next else entryOf d devices := by
  have hnew : ∀ ds ∈ devices, ds.deviceID ≠ next.deviceID := fun ds hds =>
    of_decide_eq_false (List.findIdx?_eq_none_iff.mp hnone ds hds)
  constructor
  · rw [Distinct, List.map_append, List.nodup_append]
    refine ⟨h, List.nodup_singleton _, fun id hid id' hid' => ?_⟩
    obtain ⟨ds, hds, rfl⟩ := List.mem_map.mp hid
    rw [List.map_singleton, List.mem_singleton] at hid'
    exact hid' ▸ hnew ds hds
  · intro d
    rw [entryOf, List.find?_append, ← entryOf]
    by_cases hd : next.deviceID = d
    · have hnone : entryOf d devices = none :=
        List.find?_eq_none.mpr fun ds hds heq => hnew ds hds ((of_decide_eq_true heq).trans hd.symm)
      rw [hnone, Option.none_or, if_pos hd, List.find?_cons, decide_eq_true hd]
    · rw [if_neg hd, List.find?_cons, decide_eq_false hd]
      exact Option.or_none

theorem upsert_spec (h : Distinct devices) (next : DeviceState) :
    Distinct (upsert localeCompare devices next) ∧ ∀ d, entryOf d (upsert localeCompare devices next) =
      if next.deviceID = d then some next else entryOf d devices := by
  rw [upsert]
  cases hindex : devices.findIdx? fun ds => ds.deviceID = next.deviceID with
  | none =>
    obtain ⟨hdistinct, hentry⟩ := concat_findIdx_none h hindex
    refine ⟨hdistinct.sortDevices, fun d => ?_⟩
    rw [← hentry d]
    exact entryOf_sortDevices hdistinct d
  | some index =>
    obtain ⟨hids, hentry⟩ := set_findIdx hindex
    exact ⟨by rw [Distinct, hids]; exact h, hentry⟩

end Handlers

end CyberstalkMe.Web
