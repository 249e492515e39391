import CyberstalkMe.Sequential.System
import CyberstalkMe.Api.Snapshot
import Mathlib.Data.List.Chain
import CyberstalkMe.Foundations.Fallible

/-! # Announcements of one process

The known set holds the devices whose next transition is still to be announced.
`Announced` ties it to the broadcast events and to the stored rows: a device
whose last event is offline is not in the set and its row is stale, and a device
that reported to this process and whose last event is an update is in the set.
-/
namespace CyberstalkMe.Sequential

open Go Shared Store Foundations Api State

/-- The events of one device, oldest first. -/
def eventsOf (d : String) (history : List Event) : List Event :=
  history.filter (·.device.deviceID = d)

theorem eventsOf_append (d : String) (h h' : List Event) :
    eventsOf d (h ++ h') = eventsOf d h ++ eventsOf d h' := List.filter_append ..

/-- The device's last event is an offline event. -/
def LastOffline (d : String) (history : List Event) : Prop :=
  ∃ ev, (eventsOf d history).getLast? = some ev ∧ ev.type = .offline

def NotBothOffline (a b : Event) : Prop := ¬ (a.type = .offline ∧ b.type = .offline)

theorem filter_key_eq {α β : Type*} [DecidableEq β] (f : α → β) {l : List α} (h : (l.map f).Nodup)
    {x : α} (hx : x ∈ l) : (l.filter fun y => f y = f x) = [x] := by
  induction l with
  | nil => cases hx
  | cons a l ih =>
    obtain ⟨ha, hl⟩ := List.nodup_cons.mp h
    rcases List.mem_cons.mp hx with rfl | hx
    · have hnone : (l.filter fun y => f y = f x) = [] := by
        rw [List.filter_eq_nil_iff]
        intro y hy
        simpa using fun heq : f y = f x => ha (heq ▸ List.mem_map_of_mem hy)
      rw [List.filter_cons_of_pos (by simp), hnone]
    · have hne : f a ≠ f x := fun heq => ha (heq ▸ List.mem_map_of_mem hx)
      rw [List.filter_cons_of_neg (by simpa using hne), ih hl hx]

section Scan
variable (threshold : ℤ) (now : Time) (known : Finset String) {db : DB} {fails : Bool}
  {states : List DeviceState}

theorem eventsOf_scanOnce (hlist : listDeviceStates db fails = .ok states) {ds : DeviceState}
    (hds : ds ∈ states) :
    eventsOf ds.deviceID (scanOnce threshold now known states).2 =
      if threshold < now.sub ds.lastSeenAt ∧ ds.deviceID ∈ known then [offlineEvent ds] else [] := by
  have hnodup := nodup_listDeviceStates hlist
  have hone := filter_key_eq DeviceState.deviceID hnodup hds
  rw [snd_scanOnce hnodup, eventsOf, List.filter_map]
  have hswap : ((states.filter fun x => !isOnline threshold now x.lastSeenAt && x.deviceID ∈ known).filter
      ((fun ev : Event => decide (ev.device.deviceID = ds.deviceID)) ∘ offlineEvent)) =
      (states.filter fun x => x.deviceID = ds.deviceID).filter
        fun x => !isOnline threshold now x.lastSeenAt && x.deviceID ∈ known := by
    rw [List.filter_filter, List.filter_filter]
    apply List.filter_congr
    intro x _
    exact Bool.and_comm _ _
  rw [hswap, hone]
  by_cases hstale : threshold < now.sub ds.lastSeenAt
  · by_cases hknown : ds.deviceID ∈ known <;> simp [isOnline, hstale, hknown]
  · simp [isOnline, hstale, not_lt.mp hstale]

theorem eventsOf_scanOnce_unlisted (hlist : listDeviceStates db fails = .ok states) {d : String}
    (hd : ∀ ds ∈ states, ds.deviceID ≠ d) :
    eventsOf d (scanOnce threshold now known states).2 = [] := by
  rw [snd_scanOnce (nodup_listDeviceStates hlist), eventsOf, List.filter_eq_nil_iff]
  intro ev hev
  obtain ⟨ds, hds, rfl⟩ := List.mem_map.mp hev
  exact decide_eq_false (hd ds (List.mem_of_mem_filter hds)) ▸ Bool.false_ne_true

end Scan

/-- How the known set, the events and the rows hang together. -/
structure Announced (cfg : Config) (d : String) (s : System) : Prop where
  chain : List.IsChain NotBothOffline (eventsOf d s.srv.hub.history)
  offline : LastOffline d s.srv.hub.history →
    d ∉ s.srv.known ∧ ∀ L, s.srv.db.lastSeenAt d = some L → cfg.offlineThreshold < s.clock.sub L
  reported : (∃ o ∈ s.accepted, o.id = d) →
    (s.srv.db.devices.lookup d).isSome ∧ (s.srv.db.deviceState.lookup d).isSome ∧
      (d ∈ s.srv.known ∨ LastOffline d s.srv.hub.history)

theorem announced_start (cfg : Config) (d : String) (db : DB) (clock : Time) :
    Announced cfg d (System.start db clock) where
  chain := List.isChain_nil
  offline := by
    rintro ⟨ev, hev, -⟩
    cases hev
  reported := by
    rintro ⟨o, ho, -⟩
    cases ho

namespace Announced
variable {cfg : Config} {d : String} {s t : System}

/-- A step without events, reports or changes of the known set. -/
theorem frame (h : Announced cfg d s) (hhistory : t.srv.hub.history = s.srv.hub.history)
    (hknown : t.srv.known = s.srv.known) (haccepted : t.accepted = s.accepted)
    (hstate : t.srv.db.deviceState = s.srv.db.deviceState)
    (hdevices : (s.srv.db.devices.lookup d).isSome → (t.srv.db.devices.lookup d).isSome)
    (hclock : s.clock.nanos ≤ t.clock.nanos) : Announced cfg d t where
  chain := by
    rw [hhistory]
    exact h.chain
  offline := by
    rw [hhistory, hknown, DB.lastSeenAt, DB.lastSeen, hstate]
    intro hlast
    obtain ⟨hknown, hstale⟩ := h.offline hlast
    exact ⟨hknown, fun L hL => (hstale L hL).trans_le (Time.sub_mono hclock)⟩
  reported := by
    rw [hhistory, hknown, haccepted, hstate]
    intro hrep
    obtain ⟨hdev, hrow, hor⟩ := h.reported hrep
    exact ⟨hdevices hdev, hrow, hor⟩

theorem eventsOf_event {o : Observation} : eventsOf o.id [o.event] = [o.event] := by
  simp [eventsOf]

/-- A report puts its device into the known set and ends its events with an update. -/
theorem accept_self (h : Announced cfg d s) {o : Observation} {faults : Faults} (hid : o.id = d)
    (hdev : (s.srv.db.devices.lookup d).isSome) :
    Announced cfg d (s.afterReport cfg o faults) := by
  subst hid
  have hevents : eventsOf o.id (acceptReport cfg s.srv o faults).hub.history =
      eventsOf o.id s.srv.hub.history ++ [o.event] := by
    rw [acceptReport, Hub.history_broadcast, eventsOf_append, eventsOf_event]
  have hlast : ¬ LastOffline o.id (acceptReport cfg s.srv o faults).hub.history := by
    rintro ⟨ev, hev, htype⟩
    rw [hevents, List.getLast?_concat] at hev
    cases hev
    cases htype
  refine ⟨?_, fun hoff => absurd hoff hlast, fun _ => ⟨hdev, ?_, ?_⟩⟩
  · rw [System.srv_afterReport, hevents, List.isChain_append]
    refine ⟨h.chain, List.isChain_singleton _, ?_⟩
    rintro x - y hy ⟨-, htype⟩
    cases hy
    cases htype
  · simp [acceptReport, lookup_storeObservation]
  · exact .inl (Finset.mem_insert_self _ _)

theorem accept_other (h : Announced cfg d s) {o : Observation} {faults : Faults} (hid : o.id ≠ d) :
    Announced cfg d (s.afterReport cfg o faults) := by
  have hevents : eventsOf d (acceptReport cfg s.srv o faults).hub.history =
      eventsOf d s.srv.hub.history := by
    rw [acceptReport, Hub.history_broadcast, eventsOf_append]
    simp [eventsOf, hid]
  have hknown : d ∈ (acceptReport cfg s.srv o faults).known ↔ d ∈ s.srv.known := by
    simp [acceptReport, markOnline, Ne.symm hid]
  have hstate : (acceptReport cfg s.srv o faults).db.deviceState.lookup d =
      s.srv.db.deviceState.lookup d := by
    simp [acceptReport, lookup_storeObservation, Ne.symm hid, creditReport]
  refine ⟨?_, ?_, ?_⟩
  · rw [System.srv_afterReport, hevents]
    exact h.chain
  · simp only [System.srv_afterReport, System.clock_afterReport, LastOffline, hevents, hknown,
      DB.lastSeenAt, DB.lastSeen, hstate]
    exact h.offline
  · simp only [System.srv_afterReport, System.accepted_afterReport, LastOffline, hevents, hknown,
      hstate, List.mem_append, List.mem_singleton]
    rintro ⟨o', ho' | rfl, rfl⟩
    · exact h.reported ⟨o', ho', rfl⟩
    · exact absurd rfl hid

/-- What a completed scan does to one device: a stale known device is announced and forgotten;
otherwise it has no event, and it is known if it was known or is listed online. -/
theorem afterScan_cases (cfg : Config) (d : String) {states : List DeviceState} {fails : Bool}
    (hlist : listDeviceStates s.srv.db fails = .ok states) :
    (∃ ds ∈ states, ds.deviceID = d ∧ cfg.offlineThreshold < s.clock.sub ds.lastSeenAt ∧
        d ∈ s.srv.known ∧ d ∉ (s.afterScan cfg states).srv.known ∧
        eventsOf d (s.afterScan cfg states).srv.hub.history =
          eventsOf d s.srv.hub.history ++ [offlineEvent ds]) ∨
      eventsOf d (s.afterScan cfg states).srv.hub.history = eventsOf d s.srv.hub.history ∧
        (d ∈ (s.afterScan cfg states).srv.known ↔ d ∈ s.srv.known ∨
          ∃ ds ∈ states, ds.deviceID = d ∧ isOnline cfg.offlineThreshold s.clock ds.lastSeenAt) ∧
        ∀ ds ∈ states, ds.deviceID = d → d ∈ s.srv.known →
          isOnline cfg.offlineThreshold s.clock ds.lastSeenAt := by
  have hhistory : (s.afterScan cfg states).srv.hub.history =
      s.srv.hub.history ++ (scanOnce cfg.offlineThreshold s.clock s.srv.known states).2 :=
    Hub.history_broadcastAll _ _
  have hknown : d ∈ (scanOnce cfg.offlineThreshold s.clock s.srv.known states).1 ↔ _ :=
    mem_fst_scanOnce
  change d ∈ (s.afterScan cfg states).srv.known ↔ _ at hknown
  have hunique : ∀ ds ∈ states, ∀ ds' ∈ states, ds.deviceID = d → ds'.deviceID = d →
      ds.lastSeenAt = ds'.lastSeenAt := by
    intro ds hds ds' hds' hid hid'
    have hL := (lastSeenAt_of_mem_listDeviceStates hlist hds).2
    have hL' := (lastSeenAt_of_mem_listDeviceStates hlist hds').2
    rw [hid] at hL
    rw [hid', hL] at hL'
    exact Option.some.inj hL'
  by_cases hmem : ∃ ds ∈ states, ds.deviceID = d
  · obtain ⟨ds, hds, rfl⟩ := hmem
    have hevents := eventsOf_scanOnce cfg.offlineThreshold s.clock s.srv.known hlist hds
    by_cases hann : cfg.offlineThreshold < s.clock.sub ds.lastSeenAt ∧ ds.deviceID ∈ s.srv.known
    · refine .inl ⟨ds, hds, rfl, hann.1, hann.2, ?_, ?_⟩
      · rw [hknown]
        rintro (⟨-, hall⟩ | ⟨ds', hds', hid', hon⟩)
        · exact absurd (isOnline_iff.mp (hall ds hds rfl)) (not_le.mpr hann.1)
        · rw [hunique ds' hds' ds hds hid' rfl] at hon
          exact absurd (isOnline_iff.mp hon) (not_le.mpr hann.1)
      · rw [hhistory, eventsOf_append, hevents, if_pos hann]
    · have honline : ∀ ds' ∈ states, ds'.deviceID = ds.deviceID → ds.deviceID ∈ s.srv.known →
          isOnline cfg.offlineThreshold s.clock ds'.lastSeenAt := by
        intro ds' hds' hid' hin
        rw [hunique ds' hds' ds hds hid' rfl]
        exact isOnline_iff.mpr (not_lt.mp fun hstale => hann ⟨hstale, hin⟩)
      refine .inr ⟨?_, ?_, honline⟩
      · rw [hhistory, eventsOf_append, hevents, if_neg hann, List.append_nil]
      · rw [hknown]
        exact or_congr_left (and_iff_left_of_imp fun hin ds' hds' hid' => honline ds' hds' hid' hin)
  · have hne : ∀ ds ∈ states, ds.deviceID ≠ d := fun ds hds hid => hmem ⟨ds, hds, hid⟩
    refine .inr ⟨?_, ?_, fun ds hds hid => absurd hid (hne ds hds)⟩
    · rw [hhistory, eventsOf_append, eventsOf_scanOnce_unlisted _ _ _ hlist hne, List.append_nil]
    · rw [hknown]
      exact or_congr_left (and_iff_left_of_imp fun _ ds hds hid => absurd hid (hne ds hds))

theorem afterScan (h : Announced cfg d s) {states : List DeviceState} {fails : Bool}
    (hlist : listDeviceStates s.srv.db fails = .ok states) :
    Announced cfg d (s.afterScan cfg states) := by
  rcases afterScan_cases cfg d hlist with
    ⟨ds, hds, hid, hstale, hin, hout, hevents⟩ | ⟨hevents, hknown, hfresh⟩
  · have hlast : LastOffline d (s.afterScan cfg states).srv.hub.history :=
      ⟨offlineEvent ds, by rw [hevents, List.getLast?_concat], rfl⟩
    refine ⟨?_, fun _ => ⟨hout, fun L hL => ?_⟩, fun hrep => ?_⟩
    · rw [hevents, List.isChain_append]
      refine ⟨h.chain, List.isChain_singleton _, ?_⟩
      rintro x hx y - ⟨htype, -⟩
      exact (h.offline ⟨x, hx, htype⟩).1 hin
    · have hrow := (lastSeenAt_of_mem_listDeviceStates hlist hds).2
      rw [hid] at hrow
      cases hrow.symm.trans hL
      exact hstale
    · obtain ⟨hdev, hstate, -⟩ := h.reported hrep
      exact ⟨hdev, hstate, .inr hlast⟩
  · refine ⟨?_, ?_, ?_⟩
    · rw [hevents]
      exact h.chain
    · simp only [LastOffline, hevents, hknown, not_or, not_exists, not_and]
      intro hlast
      obtain ⟨hnot, hstale⟩ := h.offline hlast
      refine ⟨⟨hnot, fun ds hds hid hon => ?_⟩, hstale⟩
      have hL := (lastSeenAt_of_mem_listDeviceStates hlist hds).2
      rw [hid] at hL
      exact absurd (isOnline_iff.mp hon) (not_le.mpr (hstale _ hL))
    · simp only [LastOffline, hevents, hknown]
      intro hrep
      obtain ⟨hdev, hstate, hor⟩ := h.reported hrep
      exact ⟨hdev, hstate, hor.imp_left .inl⟩

theorem step (h : Announced cfg d s) {a : Action} (hstep : step cfg s a = some t) :
    Announced cfg d t := by
  cases transition_of_step hstep with
  | tick hnow => exact h.frame rfl rfl rfl rfl id hnow
  | register =>
    exact h.frame rfl rfl rfl rfl (fun hdev => isSome_devices_registerDevice hdev _ _ _ _ _) (le_refl _)
  | rejected | scanFailed => exact h
  | failed => exact h.frame rfl rfl rfl rfl id (le_refl _)
  | @accepted req faults o hprep _ =>
    by_cases hid : o.id = d
    · exact h.accept_self hid (hid ▸ prepare_registered hprep)
    · exact h.accept_other hid
  | scanned hlist => exact h.afterScan hlist

end Announced

theorem announced_execute {cfg : Config} {db : DB} {clock : Time} {as : List Action} {u : System}
    (hrun : execute (step cfg) (System.start db clock) as = some u) (d : String) :
    Announced cfg d u :=
  execute_invariant_all (fun _ _ _ h hstep => h.step hstep) (announced_start cfg d db clock) hrun

/-- After a completed scan the last event of a device that reported is offline exactly when the
device is stale. -/
theorem Announced.last_offline_iff {cfg : Config} {d : String} {s : System} (h : Announced cfg d s)
    (hrep : ∃ o ∈ s.accepted, o.id = d) {states : List DeviceState} {fails : Bool}
    (hlist : listDeviceStates s.srv.db fails = .ok states) :
    ∃ L, (s.afterScan cfg states).srv.db.lastSeenAt d = some L ∧
      (LastOffline d (s.afterScan cfg states).srv.hub.history ↔
        cfg.offlineThreshold < s.clock.sub L) := by
  obtain ⟨hdev, hstate, hor⟩ := h.reported hrep
  obtain ⟨ds, hds, rfl⟩ := exists_mem_listDeviceStates hlist hdev hstate
  have hL := (lastSeenAt_of_mem_listDeviceStates hlist hds).2
  refine ⟨ds.lastSeenAt, hL, fun hlast => ((h.afterScan hlist).offline hlast).2 _ hL, fun hstale => ?_⟩
  rcases Announced.afterScan_cases cfg ds.deviceID hlist with
    ⟨ds', -, -, -, -, -, hevents⟩ | ⟨hevents, -, hfresh⟩
  · exact ⟨offlineEvent ds', by rw [hevents, List.getLast?_concat], rfl⟩
  · rcases hor with hin | hlast
    · exact absurd (isOnline_iff.mp (hfresh ds hds rfl hin)) (not_le.mpr hstale)
    · simpa only [LastOffline, hevents] using hlast

theorem scan_eq {cfg : Config} {s : System} {fails : Bool} {states : List DeviceState}
    (hlist : listDeviceStates s.srv.db fails = .ok states) : s.scan cfg fails = s.afterScan cfg states := by
  rw [System.scan, hlist]

/-- In every run of a process, a device that has reported never has two offline events in a row,
and after a completed scan its last event is offline exactly when it is past the threshold. -/
theorem offline_announcements_correct {cfg : Config} {db : DB} {clock : Time} {as : List Action}
    {u : System} (hrun : execute (step cfg) (System.start db clock) as = some u) {d : String}
    (hrep : ∃ o ∈ u.accepted, o.id = d) :
    List.IsChain NotBothOffline (eventsOf d u.srv.hub.history) ∧
      ∀ fails states v, listDeviceStates u.srv.db fails = .ok states →
        step cfg u (.scan fails) = some v →
        ∃ L, v.srv.db.lastSeenAt d = some L ∧
          (LastOffline d v.srv.hub.history ↔ cfg.offlineThreshold < v.clock.sub L) ∧
          (LastOffline d v.srv.hub.history ↔ isOnline cfg.offlineThreshold v.clock L = false) ∧
          (cfg.offlineThreshold < maxDuration →
            (LastOffline d v.srv.hub.history ↔ cfg.offlineThreshold < v.clock.nanos - L.nanos)) := by
  have h := announced_execute hrun d
  refine ⟨h.chain, fun fails states v hlist hstep => ?_⟩
  rw [step, scan_eq hlist, Option.some.injEq] at hstep
  subst hstep
  obtain ⟨L, hL, hiff⟩ := h.last_offline_iff hrep hlist
  refine ⟨L, hL, hiff, ?_, fun hmax => ?_⟩
  · rw [hiff, isOnline, decide_eq_false_iff_not, not_le]
    rfl
  · have hmin : minDuration ≤ cfg.offlineThreshold := by
      have hpos := cfg.offlineThreshold_pos
      unfold minDuration
      omega
    rw [hiff]
    exact Time.lt_sub_iff hmin hmax

namespace Sample
open Api.Sample

/-- A device has reported once, and the clock has moved on. -/
def silent (later : Time) : System :=
  { (System.start db (clock 0)).report config (request "Code" "writing" default) .none with
    clock := later }

def silentRun (later : Time) : List Action :=
  [.report (request "Code" "writing" default) .none, .tick later]

theorem execute_silentRun : execute (step config) (System.start db (clock 0)) (silentRun (clock 61)) =
    some (silent (clock 61)) := rfl

end Sample

open Api.Sample Sample in
/-- The device is scanned 61 seconds after its report. -/
theorem offline_announcements_correct_sample :
    ∃ states L, listDeviceStates (silent (clock 61)).srv.db false = .ok states ∧
      ((silent (clock 61)).afterScan config states).srv.db.lastSeenAt "d1" = some L ∧
        (LastOffline "d1" ((silent (clock 61)).afterScan config states).srv.hub.history ↔
          config.offlineThreshold < (clock 61).sub L) := by
  obtain ⟨states, hlist⟩ : ∃ states, listDeviceStates (silent (clock 61)).srv.db false = .ok states := by
    apply exists_eq_ok
    decide +kernel
  have hstep : step config (silent (clock 61)) (.scan false) =
      some ((silent (clock 61)).afterScan config states) := congrArg some (scan_eq hlist)
  obtain ⟨L, hL, hiff, -⟩ := (offline_announcements_correct execute_silentRun (d := "d1")
    (by decide +kernel)).2 false states _ hlist hstep
  exact ⟨states, L, hlist, hL, hiff⟩

end CyberstalkMe.Sequential
