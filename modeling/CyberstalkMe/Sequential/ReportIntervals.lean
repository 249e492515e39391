import CyberstalkMe.Sequential.UsageTimeline
import CyberstalkMe.Sequential.Readback

/-! # Which intervals are counted

When the store operations of a device's reports succeed, the timeline is known:
a second belongs to the report before it, as long as the next report came soon
enough. The stored `last_seen_at` is truncated to seconds and the attribution
truncates again, so consecutive intervals meet without a gap or an overlap.
-/
namespace CyberstalkMe.Sequential

open Go Shared Store Usage Foundations Api

/-- The second `x` lies between two consecutive reports that are within `maxGap` of each other. An
interval from the zero time counts as no report before. -/
def Covers (maxGap : ℤ) (p : Observation × Observation) (x : ℤ) : Prop :=
  p.1.seenAt.seconds ≠ 0 ∧ p.1.seenAt.seconds ≤ x ∧ x < p.2.seenAt.seconds ∧
    (Time.ofSeconds p.2.seenAt.seconds).sub (Time.ofSeconds p.1.seenAt.seconds) ≤ maxGap

instance (maxGap : ℤ) (p : Observation × Observation) (x : ℤ) : Decidable (Covers maxGap p x) :=
  inferInstanceAs (Decidable (_ ∧ _ ∧ _ ∧ _))

/-- The store operations of a report of the device succeed. -/
def StoreSucceeds (cfg : Config) (d : String) (s : System) : Action → Prop
  | .report req faults => ∀ o, prepare cfg s.srv.db req s.clock faults.lookup = .ok o → o.id = d →
      faults.addUsage = none ∧ faults.upsertState = false ∧
        ∃ row, getState s.srv.db d faults.getState = .ok row
  | _ => True

theorem LastStored.getState_eq {d : String} {s : System} (h : LastStored d s) {fails : Bool}
    {row : StateRow} {o : Observation} (hrow : getState s.srv.db d fails = .ok row)
    (hlast : (reportsOf d s).getLast? = some o) :
    row.lastSeenAt = Time.ofSeconds o.seenAt.seconds ∧ row.payload = o.payload := by
  have hlookup : s.srv.db.deviceState.lookup d = some o.record := by
    rw [h.row, hlast]
    rfl
  have hseen : s.srv.db.lastSeen d = some o.seenAt.utc.format := by
    rw [DB.lastSeen, hlookup]
    rfl
  obtain ⟨htime, rec, hrec, hpayload⟩ := getState_lastSeen hrow hseen
  rw [hlookup, Option.some.injEq] at hrec
  subst hrec
  have hdec := h.decodes o (List.mem_of_getLast? hlast)
  exact ⟨htime, Option.some.inj (hpayload.symm.trans hdec)⟩

theorem LastStored.not_credits {cfg : Config} {d : String} {s : System} (h : LastStored d s)
    {fails : Bool} {row : StateRow} (hrow : getState s.srv.db d fails = .ok row)
    (hlast : (reportsOf d s).getLast? = none) (seenAt : Time) : ¬ Credits cfg row seenAt := by
  apply not_credits_of_lookup_none hrow
  rw [h.row, hlast]
  rfl

theorem credits_iff (cfg : Config) {row : StateRow} {o : Observation} (o' : Observation)
    (htime : row.lastSeenAt = Time.ofSeconds o.seenAt.seconds) :
    Credits cfg row o'.seenAt ↔ ∃ x, Covers cfg.maxGap (o, o') x := by
  simp only [Credits, Credited, Covers, htime, Time.ofSeconds_seconds, Time.isZero_ofSeconds,
    decide_eq_false_iff_not]
  constructor
  · rintro ⟨hzero, hlt, hgap⟩
    exact ⟨_, hzero, le_refl _, hlt, hgap⟩
  · rintro ⟨x, hzero, hle, hlt, hgap⟩
    exact ⟨hzero, hle.trans_lt hlt, hgap⟩

theorem paintReport_eq_some {cfg : Config} {d : String} {tl : Timeline Label} {s : System}
    (htracks : Tracks d tl s) (hstored : LastStored d s) {fails : Bool} {row : StateRow}
    {o : Observation} (hrow : getState s.srv.db d fails = .ok row) (x : ℤ) (l : Label) :
    paintReport cfg tl row o.seenAt x = some l ↔ tl x = some l ∨
      ∃ o' ∈ (reportsOf d s).getLast?,
        Covers cfg.maxGap (o', o) x ∧ labelOf o'.payload.activity = l := by
  cases hlast : (reportsOf d s).getLast? with
  | none => simp [paintReport, hstored.not_credits hrow hlast o.seenAt]
  | some o' =>
    obtain ⟨htime, hpayload⟩ := hstored.getState_eq hrow hlast
    have hfree := (htracks.free_of_getState hrow).1
    have hcredits := credits_iff cfg o htime
    rw [htime, Time.ofSeconds_seconds] at hfree
    simp only [Option.mem_some_iff, exists_eq_left']
    unfold paintReport
    by_cases hc : Credits cfg row o.seenAt
    · obtain ⟨y, hzero, -, -, hgap⟩ := hcredits.mp hc
      rw [if_pos hc, Timeline.paint, htime, Time.ofSeconds_seconds, hpayload]
      split_ifs with hx
      · have hold := hfree x hx.1
        simp [hold, Covers, hzero, hgap, hx]
      · have hnot : ¬ Covers cfg.maxGap (o', o) x := fun hcov => hx ⟨hcov.2.1, hcov.2.2.1⟩
        simp [hnot]
    · have hnot : ¬ Covers cfg.maxGap (o', o) x := fun hcov => hc (hcredits.mpr ⟨x, hcov⟩)
      simp [hc, hnot]

structure Records (cfg : Config) (d : String) (tl : Timeline Label) (s : System) : Prop where
  tracks : Tracks d tl s
  owner : ∀ x l, tl x = some l ↔
    ∃ p ∈ consecutive (reportsOf d s), Covers cfg.maxGap p x ∧ labelOf p.1.payload.activity = l
  stored : LastStored d s

theorem Fresh.records {d : String} {s : System} (h : Fresh d s) (cfg : Config) :
    Records cfg d (fun _ => none) s := by
  have hunseen : Unseen d s := ⟨h.state, h.accepted⟩
  exact ⟨h.tracks, by simp [hunseen.reportsOf_eq_nil, consecutive], hunseen.lastStored⟩

namespace Records
variable {cfg : Config} {d : String} {tl : Timeline Label} {s : System}

theorem owner_paintReport (h : Records cfg d tl s) {fails : Bool} {row : StateRow} {o : Observation}
    (hrow : getState s.srv.db d fails = .ok row) (x : ℤ) (l : Label) :
    paintReport cfg tl row o.seenAt x = some l ↔
      ∃ p ∈ consecutive (reportsOf d s ++ [o]),
        Covers cfg.maxGap p x ∧ labelOf p.1.payload.activity = l := by
  rw [paintReport_eq_some h.tracks h.stored hrow, h.owner, consecutive_concat]
  simp only [List.mem_append, List.mem_map, Option.mem_toList, or_and_right, exists_or,
    exists_exists_and_eq_and, Option.mem_def]

/-- A step that accepts no report of the device. -/
theorem frame (h : Records cfg d tl s) {t : System} (htracks : Tracks d tl t)
    (hstored : LastStored d t) (hreports : reportsOf d t = reportsOf d s) : Records cfg d tl t where
  tracks := htracks
  owner := by
    rw [hreports]
    exact h.owner
  stored := hstored

theorem step (h : Records cfg d tl s) {t : System} {a : Action} (hguard : StoreSucceeds cfg d s a)
    (hstep : step cfg s a = some t) : ∃ tl', Records cfg d tl' t := by
  have hstored := h.stored.step hstep
  cases transition_of_step hstep with
  | tick hnow =>
    exact ⟨tl, h.frame (h.tracks.frame hnow h.tracks.counts h.tracks.keyed rfl) hstored rfl⟩
  | register | scanned =>
    exact ⟨tl, h.frame (h.tracks.frame (le_refl _) h.tracks.counts h.tracks.keyed rfl) hstored rfl⟩
  | rejected | scanFailed => exact ⟨tl, h⟩
  | @failed req faults o hprep hfails =>
    have hid : o.id ≠ d := fun hid => by
      have hok := (hguard o hprep hid).2.1
      rw [hfails] at hok
      cases hok
    obtain ⟨hcounts, hkeyed⟩ := h.tracks.other cfg faults hid
    exact ⟨tl, h.frame (h.tracks.frame (le_refl _) hcounts hkeyed rfl) hstored rfl⟩
  | @accepted req faults o hprep hfails =>
    by_cases hid : o.id = d
    · obtain ⟨hadd, -, row, hrow⟩ := hguard o hprep hid
      have hadded : addedDeltas cfg s.srv.db o.id o.seenAt faults.getState faults.addUsage =
          usageDeltas cfg (.ok row) o.seenAt := by
        rw [hadd, addedDeltas_none, hid, hrow]
      have hpainted := h.tracks.accept_credit hid (prepare_seenAt hprep) (hid ▸ hrow) hadded
      refine ⟨_, hpainted, ?_, hstored⟩
      rw [reportsOf_self hid]
      exact h.owner_paintReport hrow
    · obtain ⟨hcounts, hkeyed⟩ := h.tracks.other cfg faults hid
      have htracks := h.tracks.frame (t := s.afterReport cfg o faults) (le_refl _) hcounts hkeyed
        (lookup_other hid faults)
      exact ⟨tl, h.frame htracks hstored (reportsOf_other hid faults)⟩

theorem count_eq (h : Records cfg d tl s) (lo : ℤ) (n : ℕ) (l : Label) :
    tl.count lo n (· == l) = ((Finset.range n).filter fun i : ℕ =>
      ∃ p ∈ consecutive (reportsOf d s),
        Covers cfg.maxGap p (lo + i) ∧ labelOf p.1.payload.activity = l).card := by
  rw [Timeline.count]
  congr 1
  apply Finset.filter_congr
  intro i _
  rw [← h.owner (lo + i) l]
  cases tl (lo + i) <;> simp

theorem lookup_eq (h : Records cfg d tl s) (H : ℤ) (l : Label) :
    (s.srv.db.usageBucket.lookup (usageKey d H l)).getD 0 =
      ((Finset.range 3600).filter fun i : ℕ =>
        ∃ p ∈ consecutive (reportsOf d s),
          Covers cfg.maxGap p (H * 3600 + i) ∧ labelOf p.1.payload.activity = l).card := by
  rw [h.tracks.counts.lookup H l, h.count_eq]

end Records

theorem records_execute {cfg : Config} {d : String} {s u : System} {as : List Action}
    (hfresh : Fresh d s) (hmeets : Meets (step cfg) (StoreSucceeds cfg d) s as)
    (hrun : execute (step cfg) s as = some u) : ∃ tl, Records cfg d tl u :=
  execute_invariant (I := fun s => ∃ tl, Records cfg d tl s)
    (fun _ _ _ ⟨_, h⟩ hguard hstep => h.step hguard hstep) ⟨_, hfresh.records cfg⟩ hmeets hrun

/-- After a run in which the store operations of a device succeed, each of its keys holds the
number of seconds of its hour that lie between two consecutive reports, the first of which has the
key's label. There are no other keys, and no hour exceeds 3600 seconds. -/
theorem usage_counts_report_intervals {cfg : Config} {d : String} {s u : System} {as : List Action}
    (hfresh : Fresh d s) (hmeets : Meets (step cfg) (StoreSucceeds cfg d) s as)
    (hrun : execute (step cfg) s as = some u) :
    (∀ H l, (u.srv.db.usageBucket.lookup (usageKey d H l)).getD 0 =
        ((Finset.range 3600).filter fun i : ℕ =>
          ∃ p ∈ consecutive (reportsOf d u),
            Covers cfg.maxGap p (H * 3600 + i) ∧ labelOf p.1.payload.activity = l).card) ∧
      (∀ k n, u.srv.db.usageBucket.lookup k = some n → k.deviceID = d →
        0 < n ∧ ∃ H l, k = usageKey d H l) ∧
      ∀ H, u.srv.db.usageBucket.total (InHour d H fun _ => true) ≤ 3600 := by
  obtain ⟨tl, h⟩ := records_execute hfresh hmeets hrun
  exact ⟨h.lookup_eq, h.tracks.keyed, h.tracks.counts.hour_le⟩

/-! ### Two reports in a row -/

namespace Sample
open Api.Sample

def twoReports (later : Time) : List Action :=
  [accepted "Code" "writing", .tick later, accepted "Chrome" "surfing"]

/-- The state after `twoReports` in a process that starts at `c`. -/
def afterTwo (cfg : Config) (c later : Time) : System :=
  let first := (System.start db c).report cfg (request "Code" "writing" default) .none
  { first with clock := later }.report cfg (request "Chrome" "surfing" default) .none

theorem execute_twoReports (cfg : Config) (c later : Time) (h : c.nanos ≤ later.nanos) :
    execute (step cfg) (System.start db c) (twoReports later) = some (afterTwo cfg c later) := by
  have hstep : step cfg ((System.start db c).report cfg (request "Code" "writing" default) .none)
      (.tick later) = some { (System.start db c).report cfg (request "Code" "writing" default) .none
        with clock := later } := if_pos h
  exact (execute_cons _).mpr ⟨_, rfl, (execute_cons _).mpr ⟨_, hstep, rfl⟩⟩

theorem storeSucceeds {cfg : Config} {d app description : String} {s : System}
    (h : (getState s.srv.db d false).toOption.isSome) :
    StoreSucceeds cfg d s (accepted app description) := by
  intro o _ _
  refine ⟨rfl, rfl, ?_⟩
  cases hrow : getState s.srv.db d false with
  | error e =>
    rw [hrow] at h
    cases h
  | ok row => exact ⟨row, hrow⟩

/-- The seconds of an hour between two reports at most `maxGap` apart, by exact arithmetic. -/
def exactCount (cfg : Config) (d : String) (s : System) (H : ℤ) (l : Label) : ℕ :=
  ((Finset.range 3600).filter fun i : ℕ =>
    ∃ p ∈ consecutive (reportsOf d s),
      p.1.seenAt.seconds ≤ H * 3600 + i ∧ H * 3600 + i < p.2.seenAt.seconds ∧
      (p.2.seenAt.seconds - p.1.seenAt.seconds) * second ≤ cfg.maxGap ∧
      labelOf p.1.payload.activity = l).card

/-- A maximal gap: every difference of times is found to be within it. -/
def boundless : Config :=
  { config with
    maxGap := maxDuration
    maxGap_pos := by decide
    maxGap_le := le_refl _ }

end Sample

open Api.Sample Sample in
theorem usage_counts_report_intervals_sample :
    ((afterTwo config (clock 0) (clock 30)).srv.db.usageBucket.lookup
        (usageKey "d1" 17755788 ⟨.active, "Code", "writing"⟩)).getD 0 =
      ((Finset.range 3600).filter fun i : ℕ =>
        ∃ p ∈ consecutive (reportsOf "d1" (afterTwo config (clock 0) (clock 30))),
          Covers config.maxGap p (17755788 * 3600 + i) ∧
            labelOf p.1.payload.activity = ⟨.active, "Code", "writing"⟩).card := by
  have hmeets : Meets (step config) (StoreSucceeds config "d1") (System.start db (clock 0))
      (twoReports (clock 30)) :=
    meets_cons rfl (storeSucceeds (by decide +kernel)) (meets_cons rfl trivial
      (meets_cons rfl (storeSucceeds (by decide +kernel)) trivial))
  have hrun := execute_twoReports config (clock 0) (clock 30) (by decide)
  exact (usage_counts_report_intervals fresh_start hmeets hrun).1 17755788 ⟨.active, "Code", "writing"⟩

open Api.Sample Sample in
/-- An interval that starts in the second 0001-01-01T00:00:00Z is not counted; and with the largest
`maxGap` an interval of four centuries is, although it is longer. -/
theorem usage_counts_differ_from_exact :
    (execute (step config) (System.start db (Time.ofSeconds 0)) (twoReports (Time.ofSeconds 30)) =
        some (afterTwo config (Time.ofSeconds 0) (Time.ofSeconds 30)) ∧
      Meets (step config) (StoreSucceeds config "d1") (System.start db (Time.ofSeconds 0))
        (twoReports (Time.ofSeconds 30)) ∧
      ((afterTwo config (Time.ofSeconds 0) (Time.ofSeconds 30)).srv.db.usageBucket.lookup
          (usageKey "d1" 0 ⟨.active, "Code", "writing"⟩)).getD 0 ≠
        exactCount config "d1" (afterTwo config (Time.ofSeconds 0) (Time.ofSeconds 30)) 0
          ⟨.active, "Code", "writing"⟩) ∧
    execute (step boundless) (System.start db (clock 0)) (twoReports (clock 12622780800)) =
        some (afterTwo boundless (clock 0) (clock 12622780800)) ∧
      Meets (step boundless) (StoreSucceeds boundless "d1") (System.start db (clock 0))
        (twoReports (clock 12622780800)) ∧
      ((afterTwo boundless (clock 0) (clock 12622780800)).srv.db.usageBucket.lookup
          (usageKey "d1" 17755789 ⟨.active, "Code", "writing"⟩)).getD 0 ≠
        exactCount boundless "d1" (afterTwo boundless (clock 0) (clock 12622780800)) 17755789
          ⟨.active, "Code", "writing"⟩ := by
  have hzero : Meets (step config) (StoreSucceeds config "d1") (System.start db (Time.ofSeconds 0))
      (twoReports (Time.ofSeconds 30)) :=
    meets_cons rfl (storeSucceeds (by decide +kernel)) (meets_cons rfl trivial
      (meets_cons rfl (storeSucceeds (by decide +kernel)) trivial))
  have hlong : Meets (step boundless) (StoreSucceeds boundless "d1") (System.start db (clock 0))
      (twoReports (clock 12622780800)) :=
    meets_cons rfl (storeSucceeds (by decide +kernel)) (meets_cons rfl trivial
      (meets_cons rfl (storeSucceeds (by decide +kernel)) trivial))
  have hrun := execute_twoReports boundless (clock 0) (clock 12622780800) (by decide)
  refine ⟨⟨execute_twoReports config _ _ (by decide), hzero, fun heq => ?_⟩, hrun, hlong, fun heq => ?_⟩
  · -- nothing is stored for the second 0, which the exact count has
    have hstored : ((afterTwo config (Time.ofSeconds 0) (Time.ofSeconds 30)).srv.db.usageBucket.lookup
        (usageKey "d1" 0 ⟨.active, "Code", "writing"⟩)).getD 0 = 0 := by decide +kernel
    rw [hstored, eq_comm, Nat.cast_eq_zero] at heq
    refine absurd heq (Finset.card_ne_zero_of_mem (a := 0) ?_)
    exact Finset.mem_filter.mpr ⟨Finset.mem_range.mpr (by decide), by decide +kernel⟩
  · -- the stored hour is full, and the exact count of it is empty
    obtain ⟨tl, h⟩ := records_execute fresh_start hlong hrun
    rw [h.lookup_eq, Nat.cast_inj] at heq
    have hnone : ∀ p ∈ consecutive (reportsOf "d1" (afterTwo boundless (clock 0) (clock 12622780800))),
        ¬ (p.2.seenAt.seconds - p.1.seenAt.seconds) * second ≤ boundless.maxGap := by decide +kernel
    have hempty : exactCount boundless "d1" (afterTwo boundless (clock 0) (clock 12622780800)) 17755789
        ⟨.active, "Code", "writing"⟩ = 0 := by
      rw [exactCount, Finset.card_eq_zero, Finset.filter_eq_empty_iff]
      rintro x - ⟨p, hp, -, -, hgap, -⟩
      exact hnone p hp hgap
    rw [hempty] at heq
    refine absurd heq (Finset.card_ne_zero_of_mem (a := 0) ?_)
    exact Finset.mem_filter.mpr ⟨Finset.mem_range.mpr (by decide), by decide +kernel⟩

end CyberstalkMe.Sequential
