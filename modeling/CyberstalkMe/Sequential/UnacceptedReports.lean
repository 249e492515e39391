import CyberstalkMe.Sequential.ReportIntervals

/-! # Reports that are not accepted

An answer other than 204 leaves the server as it was, unless the report is half
written: its usage is committed, its state is not. Without half-written reports
a second is attributed at most once, to the report before it, also when store
operations fail in between.
-/
namespace CyberstalkMe.Sequential

open Go Shared Store Usage Foundations Api

/-- The usage of the report is committed although its state cannot be stored. -/
def HalfWritten (cfg : Config) (srv : Server) (req : Request) (now : Time) (faults : Faults) : Prop :=
  faults.upsertState = true ∧
    ∃ o row, prepare cfg srv.db req now faults.lookup = .ok o ∧
      getState srv.db o.id faults.getState = .ok row ∧ Credits cfg row o.seenAt ∧
      ¬ faults.addUsage.any (AddUsageFault.stops (usageDeltas cfg (.ok row) o.seenAt).length)

theorem halfWritten_iff {cfg : Config} {srv : Server} {req : Request} {now : Time} {faults : Faults}
    {o : Observation} (hprep : prepare cfg srv.db req now faults.lookup = .ok o)
    (hfails : faults.upsertState = true) :
    HalfWritten cfg srv req now faults ↔
      addedDeltas cfg srv.db o.id o.seenAt faults.getState faults.addUsage ≠ [] := by
  constructor
  · rintro ⟨-, o', row, hprep', hrow, hcredits, hcommit⟩
    cases hprep.symm.trans hprep'
    rw [addedDeltas, hrow]
    simp only [if_neg hcommit]
    exact fun hnil => usageDeltas_eq_nil.mp hnil hcredits
  · intro hne
    rcases addedDeltas_cases cfg srv.db o.id o.seenAt faults.getState faults.addUsage with
      hnil | ⟨row, hrow, hcredits, hadded⟩
    · exact absurd hnil hne
    · refine ⟨hfails, o, row, hprep, hrow, hcredits, fun hstop => hne ?_⟩
      rw [addedDeltas, hrow]
      exact if_pos hstop

/-- Usage that was added shows: the device's sum has grown by the length of the interval. -/
theorem creditReport_ne {cfg : Config} {db : DB} {o : Observation} {faults : Faults}
    (h : addedDeltas cfg db o.id o.seenAt faults.getState faults.addUsage ≠ []) :
    creditReport cfg db o faults ≠ db := by
  intro heq
  rcases addedDeltas_cases cfg db o.id o.seenAt faults.getState faults.addUsage with
    hnil | ⟨row, hrow, hcredits, hadded⟩
  · exact h hnil
  · have htotal := total_foldl_addDelta o.id (usageDeltas cfg (.ok row) o.seenAt) db.usageBucket
      fun k => k.deviceID = o.id
    have htable : (usageDeltas cfg (.ok row) o.seenAt).foldl (addDelta o.id) db.usageBucket =
        db.usageBucket := by
      rw [← hadded]
      exact congrArg DB.usageBucket heq
    rw [htable, sum_usageDeltas, if_pos hcredits] at htotal
    have hlt := hcredits.2.1
    omega

theorem report_unchanged_iff (cfg : Config) (srv : Server) (req : Request) (now : Time)
    (faults : Faults) :
    ((report cfg srv req now faults).2.status ≠ 204 → (report cfg srv req now faults).1 = srv) ↔
      ¬ HalfWritten cfg srv req now faults := by
  rcases report_cases cfg srv req now faults with
    ⟨resp, hprep, -, hout⟩ | ⟨o, hprep, ⟨hfails, hout⟩ | ⟨hfails, hout⟩⟩
  · rw [hout]
    refine iff_of_true (fun _ => rfl) ?_
    rintro ⟨-, o, row, hprep', -⟩
    rw [hprep] at hprep'
    cases hprep'
  · have hstatus : writeInternalError.status ≠ 204 := by decide
    rw [hout, halfWritten_iff hprep hfails, not_not]
    constructor
    · intro hsame
      by_contra hne
      exact creditReport_ne hne (congrArg Server.db (hsame hstatus))
    · intro hnil _
      simp only [creditReport, hnil, creditUsage_nil]
  · rw [hout]
    refine iff_of_true (fun hstatus => absurd rfl hstatus) ?_
    rintro ⟨hfails', -⟩
    rw [hfails] at hfails'
    cases hfails'

/-- The condition on a step: a report request is not half written. -/
def NotHalfWritten (cfg : Config) (s : System) : Action → Prop
  | .report req faults => ¬ HalfWritten cfg s.srv req s.clock faults
  | _ => True

/-! ### Each second at most once -/

/-- The rows of the device count a timeline that gives a second a label only between two
consecutive accepted reports, the label of the first; in all they hold no more seconds than have
passed since `start`. -/
structure AttributedOnce (cfg : Config) (d : String) (start : Time) (s : System) : Prop where
  timeline : ∃ tl, Counts d tl s.srv.db.usageBucket ∧ ∀ x l, tl x = some l →
    ∃ p ∈ consecutive (reportsOf d s), Covers cfg.maxGap p x ∧ labelOf p.1.payload.activity = l
  seconds : s.srv.db.usageBucket.total (fun k => k.deviceID = d) ≤
    s.clock.seconds - start.seconds

/-- The second of the last accepted report, `start` if there is none. -/
def lastReport (d : String) (start : Time) (s : System) : ℤ :=
  (reportsOf d s).getLast?.elim start.seconds fun o => o.seenAt.seconds

/-- What a run keeps: the seconds stored so far fit between `start` and the last report. -/
structure Attributes (cfg : Config) (d : String) (start : Time) (tl : Timeline Label)
    (s : System) : Prop where
  tracks : Tracks d tl s
  stored : LastStored d s
  owner : ∀ x l, tl x = some l →
    ∃ p ∈ consecutive (reportsOf d s), Covers cfg.maxGap p x ∧ labelOf p.1.payload.activity = l
  seconds : s.srv.db.usageBucket.total (fun k => k.deviceID = d) ≤
    lastReport d start s - start.seconds
  last : lastReport d start s ≤ s.clock.seconds

theorem Fresh.attributes {d : String} {s : System} (h : Fresh d s) (cfg : Config) :
    Attributes cfg d s.clock (fun _ => none) s := by
  have hunseen : Unseen d s := ⟨h.state, h.accepted⟩
  have hlast : lastReport d s.clock s = s.clock.seconds := by
    simp [lastReport, hunseen.reportsOf_eq_nil]
  refine ⟨h.tracks, hunseen.lastStored, by simp, ?_, hlast.le⟩
  rw [hlast, sub_self, KeyedTable.total, KeyedTable.totalRows_eq_zero]
  intro r hr hid
  exact h.usage r.1 r.2 (KeyedTable.lookup_eq_some.mpr hr) hid

namespace Attributes
variable {cfg : Config} {d : String} {start : Time} {tl : Timeline Label} {s : System}

theorem attributedOnce (h : Attributes cfg d start tl s) : AttributedOnce cfg d start s where
  timeline := ⟨tl, h.tracks.counts, h.owner⟩
  seconds := h.seconds.trans (Int.sub_le_sub_right h.last _)

theorem frame (h : Attributes cfg d start tl s) {t : System} (htracks : Tracks d tl t)
    (hstored : LastStored d t) (hreports : reportsOf d t = reportsOf d s)
    (htotal : t.srv.db.usageBucket.total (fun k => k.deviceID = d) =
      s.srv.db.usageBucket.total fun k => k.deviceID = d)
    (hclock : s.clock.nanos ≤ t.clock.nanos) : Attributes cfg d start tl t := by
  have hlast : lastReport d start t = lastReport d start s := by
    rw [lastReport, lastReport, hreports]
  refine ⟨htracks, hstored, ?_, ?_, ?_⟩
  · rw [hreports]
    exact h.owner
  · rw [htotal, hlast]
    exact h.seconds
  · rw [hlast]
    exact h.last.trans (Time.seconds_mono hclock)

theorem owner_concat (h : Attributes cfg d start tl s) (o : Observation) {x : ℤ} {l : Label}
    (hx : tl x = some l) : ∃ p ∈ consecutive (reportsOf d s ++ [o]),
      Covers cfg.maxGap p x ∧ labelOf p.1.payload.activity = l := by
  obtain ⟨p, hp, hcovers⟩ := h.owner x l hx
  rw [consecutive_concat]
  exact ⟨p, List.mem_append_left _ hp, hcovers⟩

section Accepted
variable {o : Observation} {faults : Faults}

theorem lastReport_afterReport (hid : o.id = d) (hseen : o.seenAt = s.clock) :
    lastReport d start (s.afterReport cfg o faults) = s.clock.seconds := by
  rw [lastReport, reportsOf_self hid, List.getLast?_concat, Option.elim_some, hseen]

theorem accept_nothing (h : Attributes cfg d start tl s) (hid : o.id = d)
    (hseen : o.seenAt = s.clock) (hstored : LastStored d (s.afterReport cfg o faults))
    (hadded : addedDeltas cfg s.srv.db o.id o.seenAt faults.getState faults.addUsage = []) :
    Attributes cfg d start tl (s.afterReport cfg o faults) where
  tracks := h.tracks.accept_nothing hid hseen hadded
  stored := hstored
  owner x l hx := by
    rw [reportsOf_self hid]
    exact h.owner_concat o hx
  seconds := by
    rw [lastReport_afterReport hid hseen]
    simp only [System.srv_afterReport, acceptReport, usageBucket_storeObservation, creditReport,
      hadded, creditUsage_nil]
    exact h.seconds.trans (Int.sub_le_sub_right h.last _)
  last := (lastReport_afterReport hid hseen).le

theorem accept_credit (h : Attributes cfg d start tl s) {row : StateRow} (hid : o.id = d)
    (hseen : o.seenAt = s.clock) (hstored : LastStored d (s.afterReport cfg o faults))
    (hrow : getState s.srv.db o.id faults.getState = .ok row) (hcredits : Credits cfg row o.seenAt)
    (hadded : addedDeltas cfg s.srv.db o.id o.seenAt faults.getState faults.addUsage =
      usageDeltas cfg (.ok row) o.seenAt) :
    Attributes cfg d start (paintReport cfg tl row o.seenAt) (s.afterReport cfg o faults) where
  tracks := h.tracks.accept_credit hid hseen hrow hadded
  stored := hstored
  owner x l hx := by
    rw [reportsOf_self hid]
    rcases (paintReport_eq_some h.tracks h.stored (hid ▸ hrow) x l).mp hx with hold | ⟨o', ho', hnew⟩
    · exact h.owner_concat o hold
    · rw [consecutive_concat]
      exact ⟨(o', o), List.mem_append_right _ (List.mem_map.mpr ⟨o', Option.mem_toList.mpr ho', rfl⟩), hnew⟩
  seconds := by
    have hprevious : row.lastSeenAt.seconds = lastReport d start s := by
      cases hlast : (reportsOf d s).getLast? with
      | none => exact absurd hcredits (h.stored.not_credits (hid ▸ hrow) hlast o.seenAt)
      | some o' =>
        rw [(h.stored.getState_eq (hid ▸ hrow) hlast).1, Time.ofSeconds_seconds, lastReport, hlast,
          Option.elim_some]
    have hseconds := h.seconds
    rw [lastReport_afterReport hid hseen]
    simp only [System.srv_afterReport, acceptReport, usageBucket_storeObservation, creditReport,
      hadded, creditUsage]
    rw [hid, total_foldl_addDelta, sum_usageDeltas, if_pos hcredits, hprevious, hseen]
    omega
  last := (lastReport_afterReport hid hseen).le

end Accepted

theorem step (h : Attributes cfg d start tl s) {t : System} {a : Action}
    (hguard : NotHalfWritten cfg s a) (hstep : step cfg s a = some t) :
    ∃ tl', Attributes cfg d start tl' t := by
  have hstored := h.stored.step hstep
  cases transition_of_step hstep with
  | tick hnow =>
    exact ⟨tl, h.frame (h.tracks.frame hnow h.tracks.counts h.tracks.keyed rfl) hstored rfl rfl hnow⟩
  | register | scanned =>
    exact ⟨tl, h.frame (h.tracks.frame (le_refl _) h.tracks.counts h.tracks.keyed rfl) hstored rfl
      rfl (le_refl _)⟩
  | rejected | scanFailed => exact ⟨tl, h⟩
  | @failed req faults o hprep hfails =>
    -- the usage was not added either
    have hnil := not_not.mp (mt (halfWritten_iff hprep hfails).mpr hguard)
    have hsame : creditReport cfg s.srv.db o faults = s.srv.db := by
      simp only [creditReport, hnil, creditUsage_nil]
    rw [hsame]
    exact ⟨tl, h⟩
  | @accepted req faults o hprep _ =>
    have hseen := prepare_seenAt hprep
    by_cases hid : o.id = d
    · rcases addedDeltas_cases cfg s.srv.db o.id o.seenAt faults.getState faults.addUsage with
        hnil | ⟨row, hrow, hcredits, hadded⟩
      · exact ⟨tl, h.accept_nothing hid hseen hstored hnil⟩
      · exact ⟨_, h.accept_credit hid hseen hstored hrow hcredits hadded⟩
    · obtain ⟨hcounts, hkeyed⟩ := h.tracks.other cfg faults hid
      have htracks := h.tracks.frame (t := s.afterReport cfg o faults) (le_refl _) hcounts hkeyed
        (lookup_other hid faults)
      exact ⟨tl, h.frame htracks hstored (reportsOf_other hid faults)
        (total_foldl_addDelta_ne hid _ _ _ fun _ hk => hk) (le_refl _)⟩

end Attributes

/-- A report that is not answered 204 has no effect exactly when it is not half written; and over
every run without half-written reports each second is attributed at most once. -/
theorem unaccepted_report_no_effect (cfg : Config) :
    (∀ srv req now faults,
      ((Api.report cfg srv req now faults).2.status ≠ 204 →
          (Api.report cfg srv req now faults).1 = srv) ↔
        ¬ HalfWritten cfg srv req now faults) ∧
      ∀ d s u as, Fresh d s → Meets (step cfg) (NotHalfWritten cfg) s as →
        execute (step cfg) s as = some u → AttributedOnce cfg d s.clock u := by
  refine ⟨report_unchanged_iff cfg, fun d s u as hfresh hmeets hrun => ?_⟩
  obtain ⟨tl, h⟩ := execute_invariant (I := fun t => ∃ tl, Attributes cfg d s.clock tl t)
    (fun _ _ _ ⟨_, h⟩ hguard hstep => h.step hguard hstep) ⟨_, hfresh.attributes cfg⟩ hmeets hrun
  exact h.attributedOnce

namespace Sample
open Api.Sample

/-- A report whose state upsert fails. -/
def unstored (app description : String) (fault : Option AddUsageFault) : Action :=
  .report (request app description default) ⟨false, false, fault, true⟩

/-- Reports at 12:00:00, 12:00:30 (neither usage nor state is stored) and 12:00:40. -/
def unstoredRun : List Action :=
  [accepted "Code" "writing", .tick (clock 30), unstored "Chrome" "surfing" (some .commit),
    .tick (clock 40), accepted "Chrome" "surfing"]

def secondsOf (d : String) (s : System) : ℤ := s.srv.db.usageBucket.total fun k => k.deviceID = d

end Sample

open Api.Sample Sample in
theorem unaccepted_report_no_effect_sample :
    ∃ u, execute (step config) (System.start db (clock 0)) unstoredRun = some u ∧
      AttributedOnce config "d1" (clock 0) u := by
  refine ⟨_, rfl, (unaccepted_report_no_effect config).2 "d1" _ _ unstoredRun fresh_start ?_ rfl⟩
  apply meets_of_forall
  simp only [unstoredRun, List.mem_cons, List.not_mem_nil, or_false]
  rintro a (rfl | rfl | rfl | rfl | rfl) s
  · rintro ⟨hfails, -⟩
    cases hfails
  · trivial
  · rintro ⟨-, o, row, -, -, -, hcommit⟩
    exact hcommit rfl
  · trivial
  · rintro ⟨hfails, -⟩
    cases hfails

open Api.Sample Sample in
/-- The second report is answered 500 after its 30 seconds were added, and the third adds the same
30 seconds again: 70 seconds are stored for 40. -/
theorem half_written_report_counted_twice :
    ∃ s, execute (step config) (System.start db (clock 0))
        [accepted "Code" "writing", .tick (clock 30)] = some s ∧
      (Api.report config s.srv (request "Chrome" "surfing" default) s.clock
        ⟨false, false, none, true⟩).2.status = 500 ∧
      (Api.report config s.srv (request "Chrome" "surfing" default) s.clock
        ⟨false, false, none, true⟩).1 ≠ s.srv ∧
      ∃ u, execute (step config) s
          [unstored "Chrome" "surfing" none, .tick (clock 40), accepted "Chrome" "surfing"] = some u ∧
        secondsOf "d1" u = 70 ∧ u.clock.seconds - (clock 0).seconds = 40 ∧
        ¬ AttributedOnce config "d1" (clock 0) u := by
  refine ⟨_, rfl, by decide +kernel, fun hsame => ?_, _, rfl, by decide +kernel, by decide +kernel,
    fun honce => ?_⟩
  · have htotal := congrArg (fun srv => srv.db.usageBucket.total fun k => k.deviceID = "d1") hsame
    exact absurd htotal (by decide +kernel)
  · exact absurd honce.seconds (by decide +kernel)

end CyberstalkMe.Sequential
