import CyberstalkMe.Sequential.Announcements
import CyberstalkMe.Foundations.Fallible

/-! # Devices shown online across a restart

A snapshot judges a device by its stored row, the scans announce the devices of
the known set, and the set of a new process is empty. The two agree on a device
once it has been confirmed: it has reported to this process, or a scan has found
it online.
-/
namespace CyberstalkMe.Sequential

open Go Shared Store Foundations Api State

/-- The device has reported to this process, or a completed scan found it online. -/
def Confirmed (cfg : Config) (d : String) (s : System) : Prop :=
  (∃ o ∈ s.accepted, o.id = d) ∨
    ∃ sc ∈ s.scans, ∃ ds ∈ sc.2, ds.deviceID = d ∧
      isOnline cfg.offlineThreshold sc.1 ds.lastSeenAt

structure Watched (cfg : Config) (d : String) (s : System) : Prop where
  confirmed : d ∈ s.srv.known → Confirmed cfg d s
  known : ∀ L, s.srv.db.lastSeenAt d = some L → s.clock.sub L ≤ cfg.offlineThreshold →
    Confirmed cfg d s → d ∈ s.srv.known

theorem watched_start (cfg : Config) (d : String) (db : DB) (clock : Time) :
    Watched cfg d (System.start db clock) where
  confirmed h := absurd h (Finset.notMem_empty d)
  known := by
    rintro L - - (⟨o, ho, -⟩ | ⟨sc, hsc, -⟩)
    · cases ho
    · cases hsc

theorem confirmed_afterReport (cfg : Config) (d : String) (s : System) (o : Observation)
    (faults : Faults) :
    Confirmed cfg d (s.afterReport cfg o faults) ↔ Confirmed cfg d s ∨ o.id = d := by
  simp only [Confirmed, System.accepted_afterReport, System.scans_afterReport, List.mem_append,
    List.mem_singleton, or_and_right, exists_or, exists_eq_left]
  exact or_right_comm

theorem confirmed_afterScan {cfg : Config} {d : String} {s : System} {states : List DeviceState} :
    Confirmed cfg d (s.afterScan cfg states) ↔ Confirmed cfg d s ∨
      ∃ ds ∈ states, ds.deviceID = d ∧ isOnline cfg.offlineThreshold s.clock ds.lastSeenAt := by
  simp only [Confirmed, System.afterScan, List.mem_append, List.mem_singleton, or_and_right,
    exists_or, exists_eq_left]
  exact or_assoc.symm

theorem lastSeenAt_accept_other {cfg : Config} {d : String} {s : System} {o : Observation}
    {faults : Faults} (hid : o.id ≠ d) :
    (acceptReport cfg s.srv o faults).db.lastSeenAt d = s.srv.db.lastSeenAt d := by
  simp [DB.lastSeenAt, acceptReport, lastSeen_storeObservation, Ne.symm hid, creditReport]

theorem known_accept_other {cfg : Config} {d : String} {s : System} {o : Observation}
    {faults : Faults} (hid : o.id ≠ d) :
    d ∈ (acceptReport cfg s.srv o faults).known ↔ d ∈ s.srv.known := by
  simp [acceptReport, markOnline, Ne.symm hid]

theorem Watched.step {cfg : Config} {d : String} {s t : System} {a : Action} (h : Watched cfg d s)
    (hstep : step cfg s a = some t) : Watched cfg d t := by
  cases transition_of_step hstep with
  | tick hnow => exact ⟨h.confirmed, fun L hL hle => h.known L hL ((Time.sub_mono hnow).trans hle)⟩
  | register | rejected | failed | scanFailed => exact ⟨h.confirmed, h.known⟩
  | @accepted req faults o hprep _ =>
    have hconf := confirmed_afterReport cfg d s o faults
    by_cases hid : o.id = d
    · refine ⟨fun _ => hconf.mpr (.inr hid), fun _ _ _ _ => ?_⟩
      exact hid ▸ Finset.mem_insert_self _ _
    · refine ⟨fun hin => hconf.mpr (.inl (h.confirmed ((known_accept_other hid).mp hin))), ?_⟩
      intro L hL hle hc
      rw [System.srv_afterReport, lastSeenAt_accept_other hid] at hL
      exact (known_accept_other hid).mpr (h.known L hL hle ((hconf.mp hc).resolve_right hid))
  | scanned hlist =>
    rcases Announced.afterScan_cases cfg d hlist with ⟨ds, hds, hid, hstale, -, hout, -⟩ | ⟨-, hknown, -⟩
    · refine ⟨fun hin => absurd hin hout, fun L hL hle _ => ?_⟩
      have hrow := (lastSeenAt_of_mem_listDeviceStates hlist hds).2
      rw [hid] at hrow
      cases hrow.symm.trans hL
      exact absurd hle (not_le.mpr hstale)
    · refine ⟨fun hin => confirmed_afterScan.mpr ((hknown.mp hin).imp_left h.confirmed), ?_⟩
      intro L hL hle hc
      exact hknown.mpr ((confirmed_afterScan.mp hc).imp_left (h.known L hL hle))

theorem watched_execute {cfg : Config} {db : DB} {clock : Time} {as : List Action} {u : System}
    (hrun : execute (step cfg) (System.start db clock) as = some u) (d : String) : Watched cfg d u :=
  execute_invariant_all (fun _ _ _ h hstep => h.step hstep) (watched_start cfg d db clock) hrun

/-- The condition on the steps before the scan in question: the device has no accepted report, and
no scan runs later than its `last_seen_at` and the threshold. -/
def BeforeLateScan (cfg : Config) (d : String) (L : Time) (s : System) : Action → Prop
  | .report req faults => ∀ o, prepare cfg s.srv.db req s.clock faults.lookup = .ok o → o.id = d →
      faults.upsertState = true
  | .scan _ => s.clock.nanos ≤ L.nanos + cfg.offlineThreshold
  | _ => True

structure Awaited (cfg : Config) (d : String) (L : Time) (s : System) : Prop where
  registered : (s.srv.db.devices.lookup d).isSome
  row : s.srv.db.lastSeenAt d = some L
  known_iff : d ∈ s.srv.known ↔ Confirmed cfg d s

theorem sub_le_of_nanos_le {t u : Time} {d : ℤ} (hpos : 0 < d) (h : t.nanos ≤ u.nanos + d) :
    t.sub u ≤ d := by
  unfold Time.sub minDuration
  omega

theorem Awaited.step {cfg : Config} {d : String} {L : Time} {s t : System} {a : Action}
    (h : Awaited cfg d L s) (hguard : BeforeLateScan cfg d L s a) (hstep : step cfg s a = some t) :
    Awaited cfg d L t := by
  cases transition_of_step hstep with
  | tick | rejected | failed | scanFailed => exact ⟨h.registered, h.row, h.known_iff⟩
  | register => exact ⟨isSome_devices_registerDevice h.registered _ _ _ _ _, h.row, h.known_iff⟩
  | @accepted req faults o hprep hfails =>
    have hid : o.id ≠ d := fun hid => by
      rw [hguard o hprep hid] at hfails
      cases hfails
    refine ⟨h.registered, (lastSeenAt_accept_other hid).trans h.row, (known_accept_other hid).trans ?_⟩
    rw [h.known_iff, confirmed_afterReport, or_iff_left hid]
  | scanned hlist =>
    rcases Announced.afterScan_cases cfg d hlist with ⟨ds, hds, hid, hstale, -, -, -⟩ | ⟨-, hknown, -⟩
    · have hrow := (lastSeenAt_of_mem_listDeviceStates hlist hds).2
      rw [hid, h.row, Option.some.injEq] at hrow
      have hle := sub_le_of_nanos_le cfg.offlineThreshold_pos hguard
      rw [hrow] at hle
      exact absurd hle (not_le.mpr hstale)
    · refine ⟨h.registered, h.row, ?_⟩
      rw [hknown, confirmed_afterScan, h.known_iff]

theorem Watched.awaited {cfg : Config} {s : System} {ds : DeviceState}
    (h : Watched cfg ds.deviceID s) {fails : Bool} {out : List DeviceState}
    (hsnap : snapshot cfg s.srv.db s.clock fails = .ok out) (hds : ds ∈ out)
    (honline : ds.online = true) : Awaited cfg ds.deviceID ds.lastSeenAt s := by
  obtain ⟨hflag, hdev, hrow⟩ := mem_snapshot hsnap hds
  rw [honline] at hflag
  exact ⟨hdev, hrow, h.confirmed, h.known _ hrow (isOnline_iff.mp hflag.symm)⟩

/-- The first late scan of an awaited device announces it exactly when its listing succeeds, the
threshold can be exceeded, and the device has been confirmed. -/
theorem Awaited.announced_iff {cfg : Config} {d : String} {L : Time} {s : System}
    (h : Awaited cfg d L s) (hlate : L.nanos + cfg.offlineThreshold < s.clock.nanos) (fails : Bool) :
    (∃ ev, ev.type = .offline ∧ eventsOf d (s.scan cfg fails).srv.hub.history =
        eventsOf d s.srv.hub.history ++ [ev]) ↔
      (listDeviceStates s.srv.db fails).toOption.isSome ∧ cfg.offlineThreshold < maxDuration ∧
        Confirmed cfg d s := by
  cases hlist : listDeviceStates s.srv.db fails with
  | error e =>
    have hscan : s.scan cfg fails = s := by rw [System.scan, hlist]
    simp [hscan, Except.toOption]
  | ok states =>
    rw [scan_eq hlist]
    rcases Announced.afterScan_cases cfg d hlist with
      ⟨ds, hds, hid, hstale, hin, -, hevents⟩ | ⟨hevents, -, hfresh⟩
    · refine iff_of_true ⟨offlineEvent ds, rfl, hevents⟩ ⟨rfl, ?_, h.known_iff.mp hin⟩
      exact hstale.trans_le (Time.sub_le_maxDuration _ _)
    · refine iff_of_false ?_ ?_
      · rintro ⟨ev, -, hev⟩
        rw [hevents] at hev
        simp at hev
      · rintro ⟨-, hmax, hconf⟩
        have hstate : (s.srv.db.deviceState.lookup d).isSome := by
          have hrow := h.row
          unfold DB.lastSeenAt DB.lastSeen at hrow
          cases hlookup : s.srv.db.deviceState.lookup d with
          | none =>
            rw [hlookup] at hrow
            cases hrow
          | some rec => rfl
        obtain ⟨ds, hds, hid⟩ := exists_mem_listDeviceStates hlist h.registered hstate
        have hrow := (lastSeenAt_of_mem_listDeviceStates hlist hds).2
        rw [hid, h.row, Option.some.injEq] at hrow
        have hle := isOnline_iff.mp (hfresh ds hds hid (h.known_iff.mpr hconf))
        rw [← hrow] at hle
        have hmin : minDuration ≤ cfg.offlineThreshold := by
          have hpos := cfg.offlineThreshold_pos
          unfold minDuration
          omega
        have hstale := (Time.lt_sub_iff hmin hmax).mpr (lt_sub_iff_add_lt'.mpr hlate)
        exact absurd hle (not_le.mpr hstale)

/-- A device that a snapshot listed online, and that stays silent, is announced offline by the
first scan past its threshold exactly when the scan's listing succeeds, the threshold is not the
largest duration, and the device was confirmed by then. -/
theorem first_late_scan_announces_iff {cfg : Config} {db : DB} {clock : Time} {as bs : List Action}
    {s u : System} (hrun : execute (step cfg) (System.start db clock) as = some s)
    {snapshotFails : Bool} {out : List DeviceState}
    (hsnap : snapshot cfg s.srv.db s.clock snapshotFails = .ok out) {ds : DeviceState} (hds : ds ∈ out)
    (honline : ds.online = true)
    (hmeets : Meets (step cfg) (BeforeLateScan cfg ds.deviceID ds.lastSeenAt) s bs)
    (hrun' : execute (step cfg) s bs = some u)
    (hlate : ds.lastSeenAt.nanos + cfg.offlineThreshold < u.clock.nanos) (fails : Bool) :
    (∃ ev, ev.type = .offline ∧ eventsOf ds.deviceID (u.scan cfg fails).srv.hub.history =
        eventsOf ds.deviceID u.srv.hub.history ++ [ev]) ↔
      (listDeviceStates u.srv.db fails).toOption.isSome ∧ cfg.offlineThreshold < maxDuration ∧
        Confirmed cfg ds.deviceID u := by
  have hawaited : Awaited cfg ds.deviceID ds.lastSeenAt u :=
    execute_invariant (fun _ _ _ h hguard hstep => h.step hguard hstep)
      ((watched_execute hrun ds.deviceID).awaited hsnap hds honline) hmeets hrun'
  exact hawaited.announced_iff hlate fails

namespace Sample
open Api.Sample

/-- What a snapshot shows of the device of `silent` while it is online. -/
def card : DeviceState :=
  ⟨"d1", "PC", "windows", ⟨"Code", "writing", false, 0, false⟩, none, none, true, clock 0, clock 0⟩

/-- A new process over the store that `silent` leaves behind. -/
def restarted : System := System.start (silent (clock 0)).srv.db (clock 20)

end Sample

open Api.Sample Sample in
/-- A device reports, is listed online 20 seconds later, and is scanned 61 seconds after its report. -/
theorem first_late_scan_announces_sample :
    (∃ ev, ev.type = .offline ∧ eventsOf "d1" ((silent (clock 61)).scan config false).srv.hub.history =
        eventsOf "d1" (silent (clock 61)).srv.hub.history ++ [ev]) ↔
      (listDeviceStates (silent (clock 61)).srv.db false).toOption.isSome ∧
        config.offlineThreshold < maxDuration ∧ Confirmed config "d1" (silent (clock 61)) := by
  have hrun : execute (step config) (System.start db (clock 0)) (silentRun (clock 20)) =
      some (silent (clock 20)) := rfl
  have hsnap : snapshot config (silent (clock 20)).srv.db (silent (clock 20)).clock false = .ok [card] :=
    eq_ok_of_toOption (by decide +kernel)
  have hrun' : execute (step config) (silent (clock 20)) [.tick (clock 61)] =
      some (silent (clock 61)) := rfl
  have hmeets : Meets (step config) (BeforeLateScan config "d1" (clock 0)) (silent (clock 20))
      [.tick (clock 61)] := meets_cons rfl trivial trivial
  exact first_late_scan_announces_iff hrun hsnap (List.mem_singleton_self card) rfl hmeets hrun'
    (by decide) false

open Api.Sample Sample in
/-- The process restarts and a snapshot lists the device online, but no scan runs before the device
is stale: the late scan finds it unknown and announces nothing, and neither does the next. -/
theorem restarted_device_not_announced :
    snapshot config restarted.srv.db restarted.clock false = .ok [card] ∧
      execute (step config) restarted [.tick (clock 61)] = some { restarted with clock := clock 61 } ∧
      card.lastSeenAt.nanos + config.offlineThreshold < (clock 61).nanos ∧
      ({ restarted with clock := clock 61 }.scan config false).srv.hub.history = [] ∧
      (({ restarted with clock := clock 61 }.scan config false).scan config false).srv.hub.history = [] :=
  ⟨eq_ok_of_toOption (by decide +kernel), rfl, by decide, by decide +kernel, by decide +kernel⟩

end CyberstalkMe.Sequential
