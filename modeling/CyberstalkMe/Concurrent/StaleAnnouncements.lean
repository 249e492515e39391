import CyberstalkMe.Concurrent.Records

/-! # Announcements that come too late

A scan decides from a listing and announces later, so a report can be broadcast
in between. The events broadcast so far and those that the scan still holds are
one list, in which a scan's broadcast moves nothing. An offline event is stale
when an update from a later observation stands before it; the two steps that can
bring this about are the check of a listed device and the broadcast of a report.
-/
namespace CyberstalkMe.Concurrent

open Go Shared Store Foundations Api

section Stale
variable (later : Time → Time → Prop)

def Supersedes (upd off : Event) : Prop :=
  upd.type = .update ∧ off.type = .offline ∧ upd.device.deviceID = off.device.deviceID ∧
    later upd.device.lastSeenAt off.device.lastSeenAt

instance [DecidableRel later] : DecidableRel (Supersedes later) := fun _ _ =>
  inferInstanceAs (Decidable (_ ∧ _ ∧ _ ∧ _))

/-- No offline event comes after an update that supersedes it. -/
def NeverStale (events : List Event) : Prop :=
  events.Pairwise fun upd off => ¬ Supersedes later upd off

instance [DecidableRel later] (events : List Event) : Decidable (NeverStale later events) :=
  inferInstanceAs (Decidable (List.Pairwise _ _))

/-- The condition on a step. A check that takes a stale device out of the known set comes before the
device's later reports are done, and a broadcast of a report while the scan holds no offline event of
its device from an earlier observation. -/
def Timely (cfg : Config) (s : Process) : Action → Prop
  | .scanner _ => ∀ now ds rest scan, s.scanner = .checking now (ds :: rest) scan →
      ¬ State.isOnline cfg.offlineThreshold now ds.lastSeenAt → ds.deviceID ∈ s.srv.known →
      ∀ i o, s.handlers i = .done o → o.id = ds.deviceID → ¬ later o.seenAt ds.lastSeenAt
  | .handler i _ => ∀ o, s.handlers i = .marked o →
      ∀ off ∈ s.scanner.pending, off.device.deviceID = o.id → ¬ later o.seenAt off.device.lastSeenAt
  | _ => True

/-- What has been broadcast, then what the scan will broadcast. -/
def Process.announcements (s : Process) : List Event := s.srv.hub.history ++ s.scanner.pending

end Stale

variable {later : Time → Time → Prop} {cfg : Config} {s t : Process} {a : Action}

/-- The check of a listed device. The new event is superseded exactly by the later reports of the
device that are done. -/
theorem neverStale_append_offline (hs : Broadcasts s) {ds : DeviceState} :
    NeverStale later (s.announcements ++ [State.offlineEvent ds]) ↔
      NeverStale later s.announcements ∧
        ∀ i o, s.handlers i = .done o → o.id = ds.deviceID → ¬ later o.seenAt ds.lastSeenAt := by
  rw [NeverStale, List.pairwise_append]
  simp only [List.pairwise_singleton, List.mem_singleton, forall_eq, true_and]
  apply and_congr_right
  intro _
  constructor
  · intro h i o hdone hid hlater
    have hmem : o.event ∈ s.announcements := List.mem_append_left _ (hs.mem o ⟨i, hdone⟩)
    exact h o.event hmem ⟨rfl, rfl, hid, hlater⟩
  · rintro h ev hev ⟨hupdate, -, hid, hlater⟩
    rcases List.mem_append.mp hev with hold | hpending
    · obtain ⟨o, ⟨i, hdone⟩, rfl⟩ := hs.done ev hold hupdate
      exact h i o hdone hid hlater
    · rw [hs.pending ev hpending] at hupdate
      cases hupdate

theorem neverStale_insert_update (hs : Broadcasts s) {o : Observation} :
    NeverStale later (s.srv.hub.history ++ [o.event] ++ s.scanner.pending) ↔
      NeverStale later s.announcements ∧
        ∀ off ∈ s.scanner.pending, off.device.deviceID = o.id → ¬ later o.seenAt off.device.lastSeenAt := by
  have hlast : ∀ ev, ¬ Supersedes later ev o.event := fun ev h => nomatch h.2.1
  simp only [NeverStale, Process.announcements, List.pairwise_append, List.pairwise_singleton,
    List.mem_append, List.mem_singleton, forall_eq, hlast, not_false_eq_true, implies_true, and_true,
    or_imp, forall_and, and_assoc]
  apply and_congr_right
  intro _
  apply and_congr_right
  intro _
  apply and_congr_right
  intro _
  constructor
  · intro h off hoff hid hlater
    exact h off hoff ⟨rfl, hs.pending off hoff, hid.symm, hlater⟩
  · rintro h off hoff ⟨-, -, hid, hlater⟩
    exact h off hoff hid.symm hlater

theorem announcements_sweep {sc sc' : Scanner} {srv' : Server} (hsc : s.scanner = sc)
    (hsweep : Sweep cfg s.srv s.clock sc srv' sc') :
    (srv'.hub.history ++ sc'.pending = s.announcements ∧ ∀ now ds rest scan,
        sc = .checking now (ds :: rest) scan →
        State.isOnline cfg.offlineThreshold now ds.lastSeenAt ∨ ds.deviceID ∉ s.srv.known) ∨
      ∃ now ds rest scan, sc = .checking now (ds :: rest) scan ∧
        ¬ State.isOnline cfg.offlineThreshold now ds.lastSeenAt ∧ ds.deviceID ∈ s.srv.known ∧
        srv'.hub.history ++ sc'.pending = s.announcements ++ [State.offlineEvent ds] := by
  rw [Process.announcements, hsc]
  cases hsweep with
  | unlisted | listed | started | merged | ended =>
    refine .inl ⟨rfl, fun _ _ _ _ h => ?_⟩
    cases h
  | passed hpass htransitions =>
    left
    constructor
    · rw [Scanner.pending, Scanner.pending, htransitions]
    · rintro now ds rest scan h
      cases h
      exact hpass
  | dropped hstale hknown htransitions =>
    refine .inr ⟨_, _, _, _, rfl, hstale, hknown, ?_⟩
    rw [Scanner.pending, Scanner.pending, htransitions, List.append_assoc]
  | announced =>
    refine .inl ⟨?_, fun _ _ _ _ h => ?_⟩
    · rw [Hub.history_broadcast, Scanner.pending, Scanner.pending, List.append_assoc, List.singleton_append]
    · cases h

theorem neverStale_step (hs : Broadcasts s) (h : step cfg s a = some t) :
    NeverStale later t.announcements ↔ NeverStale later s.announcements ∧ Timely later cfg s a := by
  cases transition_of_step h with
  | tick => exact (and_iff_left trivial).symm
  | register => exact (and_iff_left trivial).symm
  | request => exact (and_iff_left trivial).symm
  | handler hi hadvance =>
    cases hadvance with
    | arrived | unstamped | stamped | observed | credited | failed | stored | marked =>
      exact (and_iff_left fun o h => nomatch hi.symm.trans h).symm
    | done =>
      rename_i i faults o
      have htimely : Timely later cfg s (.handler i faults) ↔
          ∀ off ∈ s.scanner.pending, off.device.deviceID = o.id →
            ¬ later o.seenAt off.device.lastSeenAt := by
        simp only [Timely, hi, Handler.marked.injEq, forall_eq']
      rw [htimely]
      exact neverStale_insert_update hs
  | scanner hsc hsweep =>
    rename_i fails sc sc' srv'
    change NeverStale later (srv'.hub.history ++ sc'.pending) ↔ _
    rw [Timely, hsc]
    rcases announcements_sweep hsc hsweep with
      ⟨heq, hpass⟩ | ⟨now, ds, rest, scan, rfl, hstale, hknown, heq⟩
    · rw [heq]
      refine (and_iff_left fun now ds rest scan hchecking hstale hknown => ?_).symm
      rcases hpass now ds rest scan hchecking with hon | hunknown
      · exact absurd hon hstale
      · exact absurd hknown hunknown
    · rw [heq, neverStale_append_offline hs]
      apply and_congr_right
      intro _
      constructor
      · rintro h now' ds' rest' scan' hchecking - -
        cases hchecking
        exact h
      · exact fun h => h now ds rest scan rfl hstale hknown

theorem neverStale_announcements_iff {db : DB} {clock : Time} {as : List Action}
    (h : execute (step cfg) (.start db clock) as = some t) :
    NeverStale later t.announcements ↔ Meets (step cfg) (Timely later cfg) (.start db clock) as := by
  have hstart := broadcasts_start db clock
  constructor
  · intro hnever
    exact (meets_of_execute (I := Broadcasts) (J := fun s => NeverStale later s.announcements)
      (fun _ _ _ hs hstep => hs.step hstep) (fun _ _ _ hs hstep => (neverStale_step hs hstep).mp)
      hstart h hnever).2
  · intro hmeets
    refine (execute_invariant (I := fun s => Broadcasts s ∧ NeverStale later s.announcements)
      (fun _ _ _ hs hguard hstep => ⟨hs.1.step hstep, (neverStale_step hs.1 hstep).mpr ⟨hs.2, hguard⟩⟩)
      ⟨hstart, List.Pairwise.nil⟩ hmeets h).2

/-- In every interleaving of a scanning goroutine with reports: when every step is timely, no offline
event is broadcast after an update that supersedes it, and once the scan has ended only then. -/
theorem no_stale_announcement_iff (later : Time → Time → Prop) (cfg : Config) (db : DB) (clock : Time)
    (as : List Action) (t : Process) (h : execute (step cfg) (.start db clock) as = some t) :
    (Meets (step cfg) (Timely later cfg) (.start db clock) as → NeverStale later t.srv.hub.history) ∧
      (t.scanner.pending = [] → NeverStale later t.srv.hub.history →
        Meets (step cfg) (Timely later cfg) (.start db clock) as) := by
  rw [← neverStale_announcements_iff h]
  constructor
  · intro hnever
    exact List.Pairwise.sublist (List.sublist_append_left _ _) hnever
  · intro hpending hnever
    rw [Process.announcements, hpending, List.append_nil]
    exact hnever

namespace Sample
open Api.Sample

def silent : List Action := arrive 0 "Code" "writing" ++ steps 0 5 ++ [.tick (clock 61)]

def awake : List Action := arrive 1 "Code" "writing" ++ steps 1 5

end Sample

open Api.Sample Sample in
/-- The report arrives when the six steps of the scan are done. -/
theorem no_stale_announcement_iff_sample :
    Meets (step config) (Timely (fun t u => t.after u) config) start
      (silent ++ scanSteps 6 ++ awake) := by
  have hrun : (execute (step config) start (silent ++ scanSteps 6 ++ awake)).any (fun t =>
      decide (t.scanner.pending = [] ∧ NeverStale (fun t u => t.after u) t.srv.hub.history)) = true := by
    decide +kernel
  obtain ⟨t, ht, hnever⟩ := (Option.any_eq_true _ _).mp hrun
  obtain ⟨hpending, hnever⟩ := of_decide_eq_true hnever
  exact (no_stale_announcement_iff _ config db (clock 0) _ t ht).2 hpending hnever

open Api.Sample Sample in
/-- The report comes between the listing and the check, and the device is announced offline, as of
12:00:00, after its update of 12:01:01. -/
theorem awake_device_announced_offline :
    ∃ t, execute (step config) start (silent ++ scanSteps 2 ++ awake ++ scanSteps 4) = some t ∧
      ¬ NeverStale (fun t u => t.after u) t.srv.hub.history := by
  have hrun : (execute (step config) start (silent ++ scanSteps 2 ++ awake ++ scanSteps 4)).any (fun t =>
      decide (¬ NeverStale (fun t u => t.after u) t.srv.hub.history)) = true := by
    decide +kernel
  obtain ⟨t, ht, hstale⟩ := (Option.any_eq_true _ _).mp hrun
  exact ⟨t, ht, of_decide_eq_true hstale⟩

end CyberstalkMe.Concurrent
