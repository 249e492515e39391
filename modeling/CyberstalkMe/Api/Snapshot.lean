import CyberstalkMe.Api.Report

/-! # The snapshot handler

`GET /api/v1/snapshot` lists the stored states and judges each of them online by
the server's clock.
-/
namespace CyberstalkMe.Api

open Go Shared Store

/-- The device states of a snapshot. -/
def snapshot (cfg : Config) (db : DB) (now : Time) (fails : Bool) : Except StoreError (List DeviceState) :=
  (listStates db fails).map fun rows => rows.map fun row =>
    { row.toDeviceState with online := State.isOnline cfg.offlineThreshold now row.lastSeenAt }

theorem snapshot_eq (cfg : Config) (db : DB) (now : Time) (fails : Bool) :
    snapshot cfg db now fails = (listDeviceStates db fails).map fun states =>
      states.map fun ds =>
        { ds with online := State.isOnline cfg.offlineThreshold now ds.lastSeenAt } := by
  simp only [snapshot, listDeviceStates]
  cases listStates db fails with
  | error e => rfl
  | ok rows =>
    simp only [Except.map, List.map_map]
    rfl

theorem mem_snapshot {cfg : Config} {db : DB} {now : Time} {fails : Bool} {out : List DeviceState}
    (h : snapshot cfg db now fails = .ok out) {ds : DeviceState} (hds : ds ∈ out) :
    ds.online = State.isOnline cfg.offlineThreshold now ds.lastSeenAt ∧
      (db.devices.lookup ds.deviceID).isSome ∧ db.lastSeenAt ds.deviceID = some ds.lastSeenAt := by
  rw [snapshot_eq] at h
  cases hlist : listDeviceStates db fails with
  | error e =>
    rw [hlist] at h
    cases h
  | ok states =>
    rw [hlist] at h
    cases h
    obtain ⟨ds', hmem, rfl⟩ := List.mem_map.mp hds
    have hrow := lastSeenAt_of_mem_listDeviceStates hlist hmem
    exact ⟨rfl, hrow⟩

end CyberstalkMe.Api
