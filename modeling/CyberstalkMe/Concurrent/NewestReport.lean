import CyberstalkMe.Concurrent.Records

/-! # The newest report

Each report is stored and broadcast under the time at which its handler read the
clock. The store keeps the report that was stored last and the page the one that
was broadcast last, so both keep the newest one when the reports of a device are
stored, and broadcast, in the order of their clock readings.
-/
namespace CyberstalkMe.Concurrent

open Go Shared Store Foundations Api

def updateOf (d : String) (ev : Event) : Bool := decide (ev.type = .update ∧ ev.device.deviceID = d)

@[simp] theorem updateOf_iff {d : String} {ev : Event} :
    updateOf d ev ↔ ev.type = .update ∧ ev.device.deviceID = d := decide_eq_true_iff

/-- The order of the clock readings that two events carry. -/
def CarriesBy (ev ev' : Event) : Prop := ev.device.lastSeenAt.nanos ≤ ev'.device.lastSeenAt.nanos

def Process.broadcasting (s : Process) : Action → Option Observation
  | .handler i _ =>
    match s.handlers i with
    | .marked o => some o
    | _ => none
  | _ => none

/-- A report of the device that the step broadcasts has read the clock no earlier than the other
handler, when that is done. -/
def BroadcastsAfter (d : String) (s : Process) (a : Action) (other : Handler) : Prop :=
  ∀ o ∈ s.broadcasting a, o.id = d → ∀ o' ∈ other.doneReport, o'.id = d → SeenBy o' o

instance (d : String) (s : Process) (a : Action) (other : Handler) :
    Decidable (BroadcastsAfter d s a other) :=
  inferInstanceAs (Decidable (∀ o ∈ s.broadcasting a, _))

/-- The condition on a step. A report of the device is stored after the reports that read the clock
earlier, and so it is broadcast. -/
def InClockOrder (d : String) (s : Process) (a : Action) : Prop :=
  ∀ j, StoresAfter d s a (s.handlers j) ∧ BroadcastsAfter d s a (s.handlers j)

structure Chronological (d : String) (db : DB) (clock : Time) (s : Process) : Prop where
  broadcasts : Broadcasts s
  records : Stores db clock s
  stores : Ordered (ofDevice d) SeenBy s.stores
  updates : Ordered (updateOf d) CarriesBy s.srv.hub.history

theorem chronological_start (d : String) (db : DB) (clock : Time) :
    Chronological d db clock (.start db clock) :=
  ⟨broadcasts_start db clock, stores_start db clock, ordered_nil, ordered_nil⟩

/-- A scan broadcasts only the offline events that it holds. -/
theorem Sweep.history_eq {cfg : Config} {srv srv' : Server} {now : Time} {sc sc' : Scanner}
    (h : Sweep cfg srv now sc srv' sc') :
    srv'.hub.history = srv.hub.history ∨
      ∃ ev ∈ sc.pending, srv'.hub.history = srv.hub.history ++ [ev] := by
  cases h with
  | unlisted | listed | started | passed | dropped | merged | ended => exact .inl rfl
  | announced => exact .inr ⟨_, List.mem_cons_self, rfl⟩

namespace Chronological
variable {cfg : Config} {d : String} {db : DB} {clock : Time} {s t : Process} {a : Action}

theorem updates_advance (hs : Chronological d db clock s) {i : ℕ} {faults : Faults} {srv' : Server}
    {h h' : Handler} (hi : s.handlers i = h) (hadvance : Advance cfg s.srv s.clock faults h srv' h')
    (horder : InClockOrder d s (.handler i faults)) :
    Ordered (updateOf d) CarriesBy srv'.hub.history := by
  rcases hadvance.history_eq with hsame | ⟨o, rfl, -, hnew⟩
  · rw [hsame]
    exact hs.updates
  · rw [hnew]
    refine ordered_concat.mpr ⟨hs.updates, fun hd ev hev hd' => ?_⟩
    obtain ⟨hupdate, hid⟩ := updateOf_iff.mp hd'
    obtain ⟨o', ⟨j, hj⟩, rfl⟩ := hs.broadcasts.done ev hev hupdate
    have hbroadcasting : o ∈ s.broadcasting (.handler i faults) := by
      rw [Process.broadcasting, hi]
      rfl
    have hdone : o' ∈ (s.handlers j).doneReport := congrArg Handler.doneReport hj
    exact (horder j).2 o hbroadcasting (updateOf_iff.mp hd).2 o' hdone hid

theorem step (hs : Chronological d db clock s) (horder : InClockOrder d s a)
    (h : step cfg s a = some t) : Chronological d db clock t := by
  refine ⟨hs.broadcasts.step h, hs.records.step h,
    hs.records.ordered_step hs.stores (fun j => (horder j).1) h, ?_⟩
  cases transition_of_step h with
  | tick | register | request => exact hs.updates
  | handler hi hadvance => exact hs.updates_advance hi hadvance horder
  | scanner hsc hsweep =>
    rcases hsweep.history_eq with hsame | ⟨ev, hev, hnew⟩
    · rw [hsame]
      exact hs.updates
    · rw [hnew]
      refine ordered_concat.mpr ⟨hs.updates, fun hd => ?_⟩
      have hoffline := hs.broadcasts.pending ev (hsc ▸ hev)
      rw [(updateOf_iff.mp hd).1] at hoffline
      cases hoffline

end Chronological

/-- Both rows hold an instant, and the second no earlier one. -/
def NeverBack (d : String) (s u : Process) : Prop :=
  ∀ t t' : Time, s.srv.db.lastSeen d = some t.utc.format → u.srv.db.lastSeen d = some t'.utc.format →
    t.seconds ≤ t'.seconds

/-- Every report of the device that has read the clock is done, and there is one. -/
def Settled (d : String) (s : Process) : Prop :=
  (∀ i o, (s.handlers i).observation = some o → o.id = d → s.handlers i = .done o) ∧
    ∃ i o, s.handlers i = .done o ∧ o.id = d

def Newest (d : String) (s : Process) (o : Observation) : Prop :=
  o.id = d ∧ ∃ i, s.handlers i = .done o ∧ ∀ j o', s.handlers j = .done o' → o'.id = d → SeenBy o' o

/-- The row and the last update event of the device are those of a newest report. -/
def ShowsNewest (d : String) (s : Process) : Prop :=
  ∃ o o', Newest d s o ∧ s.srv.db.deviceState.lookup d = some o.record ∧
    Newest d s o' ∧ latest (updateOf d) s.srv.hub.history = some o'.event

namespace Chronological
variable {d : String} {db : DB} {clock : Time} {s u : Process}

theorem neverBack (hs : Stores db clock s) (hu : Chronological d db clock u)
    (hgrow : s.stores <+: u.stores)
    (hpast : ∀ t : Time, db.lastSeen d = some t.utc.format → t.seconds ≤ clock.seconds) :
    NeverBack d s u := by
  intro t t' ht ht'
  rw [hs.lastSeen_eq] at ht
  rw [hu.records.lastSeen_eq] at ht'
  obtain ⟨more, hmore⟩ := hgrow
  cases hlast' : latest (ofDevice d) u.stores with
  | none =>
    -- nothing was stored, so both rows are the one of the start
    have hlast : latest (ofDevice d) s.stores = none := by
      rw [latest_eq_none] at hlast' ⊢
      exact fun o ho => hlast' o (hmore ▸ List.mem_append_left more ho)
    rw [hlast] at ht
    rw [hlast'] at ht'
    have hsame := ht.symm.trans ht'
    rw [Option.some.injEq, Time.format_utc_inj] at hsame
    exact hsame.le
  | some o' =>
    rw [hlast', Option.map_some, Option.some_or, Option.some.injEq, Time.format_utc_inj] at ht'
    rw [← ht']
    cases hlast : latest (ofDevice d) s.stores with
    | none =>
      rw [hlast] at ht
      have hclock := Time.seconds_mono (hu.records.stored_since (mem_of_latest hlast').1)
      exact (hpast t ht).trans hclock
    | some o =>
      rw [hlast, Option.map_some, Option.some_or, Option.some.injEq, Time.format_utc_inj] at ht
      rw [← ht]
      have hordered : Ordered (ofDevice d) SeenBy (s.stores ++ more) := hmore ▸ hu.stores
      have hseen : SeenBy o o' :=
        hordered.latest_rel_latest (fun o => le_refl o.seenAt.nanos) hlast (hmore ▸ hlast')
      exact Time.seconds_mono hseen

theorem newest_stored (hs : Chronological d db clock s) (hsettled : Settled d s) :
    ∃ o, Newest d s o ∧ latest (ofDevice d) s.stores = some o := by
  obtain ⟨hfinished, i, o, hi, hid⟩ := hsettled
  have hstored : ∀ {j o'}, s.handlers j = .done o' → o' ∈ s.stores := fun {j o'} hj =>
    (hs.records.mem o').mpr ⟨j, congrArg Handler.storedReport hj⟩
  cases hlast : latest (ofDevice d) s.stores with
  | none => exact absurd (ofDevice_iff.mpr hid) (latest_eq_none.mp hlast o (hstored hi))
  | some o₁ =>
    obtain ⟨hmem, hd⟩ := mem_of_latest hlast
    obtain ⟨j, hj⟩ := (hs.records.mem o₁).mp hmem
    have hid₁ := ofDevice_iff.mp hd
    have hdone := hfinished j o₁ (Handler.observation_of_storedReport hj) hid₁
    refine ⟨o₁, ⟨hid₁, j, hdone, fun j' o' hj' hid' => ?_⟩, rfl⟩
    exact hs.stores.rel_latest (fun o => le_refl o.seenAt.nanos) hlast (hstored hj') (ofDevice_iff.mpr hid')

theorem newest_broadcast (hs : Chronological d db clock s) (hdone : ∃ i o, s.handlers i = .done o ∧ o.id = d) :
    ∃ o, Newest d s o ∧ latest (updateOf d) s.srv.hub.history = some o.event := by
  obtain ⟨i, o, hi, hid⟩ := hdone
  cases hlast : latest (updateOf d) s.srv.hub.history with
  | none =>
    have hupdate : updateOf d o.event := updateOf_iff.mpr ⟨rfl, hid⟩
    exact absurd hupdate (latest_eq_none.mp hlast _ (hs.broadcasts.mem o ⟨i, hi⟩))
  | some ev =>
    obtain ⟨hmem, hd⟩ := mem_of_latest hlast
    obtain ⟨hupdate, hid₁⟩ := updateOf_iff.mp hd
    obtain ⟨o₁, ⟨j, hj⟩, rfl⟩ := hs.broadcasts.done ev hmem hupdate
    refine ⟨o₁, ⟨hid₁, j, hj, fun j' o' hj' hid' => ?_⟩, rfl⟩
    exact hs.updates.rel_latest (fun ev => le_refl ev.device.lastSeenAt.nanos) hlast
      (hs.broadcasts.mem o' ⟨j', hj'⟩) (updateOf_iff.mpr ⟨rfl, hid'⟩)

theorem showsNewest (hs : Chronological d db clock s) (hsettled : Settled d s) : ShowsNewest d s := by
  obtain ⟨o, hnewest, hlast⟩ := hs.newest_stored hsettled
  obtain ⟨o', hnewest', hlast'⟩ := hs.newest_broadcast hsettled.2
  refine ⟨o, o', hnewest, ?_, hnewest', hlast'⟩
  rw [hs.records.row d, hlast]
  rfl

end Chronological

/-- In every interleaving in which the reports of a device are stored, and broadcast, in the order of
their clock readings, the stored instant never goes back, and once the reports are done the row and
the last update are those of the newest. -/
theorem reports_settle_on_newest (d : String) (cfg : Config) (db : DB) (clock : Time)
    (as bs : List Action) (s u : Process)
    (hpast : ∀ t : Time, db.lastSeen d = some t.utc.format → t.seconds ≤ clock.seconds)
    (hmeets : Meets (step cfg) (InClockOrder d) (.start db clock) (as ++ bs))
    (hs : execute (step cfg) (.start db clock) as = some s) (hu : execute (step cfg) s bs = some u) :
    NeverBack d s u ∧ (Settled d u → ShowsNewest d u) := by
  have hrun : execute (step cfg) (.start db clock) (as ++ bs) = some u := by
    rw [execute_append, hs, Option.bind_some, hu]
  have hstores : Stores db clock s :=
    execute_invariant_all (fun _ _ _ h hstep => h.step hstep) (stores_start db clock) hs
  have hchronological : Chronological d db clock u :=
    execute_invariant (fun _ _ _ h horder hstep => h.step horder hstep)
      (chronological_start d db clock) hmeets hrun
  exact ⟨hchronological.neverBack hstores (execute_stores hu) hpast, hchronological.showsNewest⟩

theorem inClockOrder_of_within {d : String} {cfg : Config} (n : ℕ) {s : Process} {as : List Action}
    (hs : Within n s)
    (h : Meets (step cfg) (fun s a => a.within n ∧ ∀ j < n, StoresAfter d s a (s.handlers j) ∧
      BroadcastsAfter d s a (s.handlers j)) s as) : Meets (step cfg) (InClockOrder d) s as :=
  meets_of_within (P := fun s a h => StoresAfter d s a h ∧ BroadcastsAfter d s a h)
    (fun _ _ => ⟨fun _ _ _ _ h => (nomatch h), fun _ _ _ _ h => (nomatch h)⟩) n hs h

namespace Sample
open Api.Sample

def twoReports : List Action :=
  arrive 0 "Code" "writing" ++ .tick (clock 10) :: arrive 1 "Mail" "reading"

end Sample

open Api.Sample Sample in
theorem reports_settle_on_newest_sample :
    ∃ s u, execute (step config) start (twoReports ++ steps 0 3 ++ steps 1 2) = some s ∧
      execute (step config) s (steps 0 2 ++ steps 1 3) = some u ∧
      NeverBack "d1" s u ∧ (Settled "d1" u → ShowsNewest "d1" u) := by
  have hmeets : Meets (step config) (InClockOrder "d1") start
      ((twoReports ++ steps 0 3 ++ steps 1 2) ++ (steps 0 2 ++ steps 1 3)) :=
    inClockOrder_of_within 2 (within_start db (clock 0) 2) (by decide +kernel)
  have hrun : (execute (step config) start (twoReports ++ steps 0 3 ++ steps 1 2)).any (fun s =>
      (execute (step config) s (steps 0 2 ++ steps 1 3)).isSome) = true := by
    decide +kernel
  obtain ⟨s, hs, hsome⟩ := (Option.any_eq_true _ _).mp hrun
  obtain ⟨u, hu⟩ := Option.isSome_iff_exists.mp hsome
  exact ⟨s, u, hs, hu, reports_settle_on_newest "d1" config db (clock 0) _ _ s u (fun _ h => nomatch h)
    hmeets hs hu⟩

open Api.Sample Sample in
/-- The second report overtakes the first, which then overwrites its row and follows its update. -/
theorem older_report_overwrites_newer :
    ∃ s u, execute (step config) start (twoReports ++ steps 1 5) = some s ∧
      execute (step config) s (steps 0 5) = some u ∧
      s.srv.db.lastSeen "d1" = some (clock 10).utc.format ∧
      u.srv.db.lastSeen "d1" = some (clock 0).utc.format ∧
      (latest (updateOf "d1") u.srv.hub.history).map (fun ev => ev.device.lastSeenAt) = some (clock 0) ∧
      ¬ NeverBack "d1" s u := by
  have hrun : (execute (step config) start (twoReports ++ steps 1 5)).any (fun s =>
      decide (s.srv.db.lastSeen "d1" = some (clock 10).utc.format) &&
        (execute (step config) s (steps 0 5)).any (fun u => decide
          (u.srv.db.lastSeen "d1" = some (clock 0).utc.format ∧
            (latest (updateOf "d1") u.srv.hub.history).map (fun ev => ev.device.lastSeenAt) =
              some (clock 0)))) = true := by
    decide +kernel
  obtain ⟨s, hs, hrest⟩ := (Option.any_eq_true _ _).mp hrun
  obtain ⟨hrow, hrest⟩ := (Bool.and_eq_true _ _).mp hrest
  obtain ⟨u, hu, hend⟩ := (Option.any_eq_true _ _).mp hrest
  have hrow := of_decide_eq_true hrow
  obtain ⟨hrow', hevent⟩ := of_decide_eq_true hend
  refine ⟨s, u, hs, hu, hrow, hrow', hevent, fun hback => ?_⟩
  have hle := hback (clock 10) (clock 0) hrow hrow'
  revert hle
  decide +kernel

end CyberstalkMe.Concurrent
