import CyberstalkMe.Api.Report

/-! # Usage rows and timelines

The deltas of one report add, to every key of its device, the overlap of the
credited interval with the hour of the key. So a usage table that counts a
timeline still counts one after a report: the timeline painted with the
interval.
-/
namespace CyberstalkMe.Api

open Go Shared Store Usage Foundations

/-- What a second is attributed to. -/
structure Label where
  state : UsageState
  app : String
  description : String
deriving DecidableEq, Repr

def labelOf (a : Activity) : Label := ⟨stateOf a, a.app, a.description⟩

/-- The hour `H` since the zero time, in UTC. -/
def hourStart (H : ℤ) : Time := Time.ofSeconds (H * 3600)

def usageKey (id : String) (H : ℤ) (l : Label) : UsageKey :=
  ⟨id, (hourStart H).utc.format, l.state, l.app, l.description⟩

@[simp] theorem usageKey_deviceID (id : String) (H : ℤ) (l : Label) :
    (usageKey id H l).deviceID = id := rfl

@[simp] theorem key_deviceID (id : String) (d : UsageDelta) : (d.key id).deviceID = id := rfl

def keyLabel (k : UsageKey) : Label := ⟨k.state, k.app, k.description⟩

/-- The keys of a device in one hour whose label satisfies `q`. -/
def InHour (id : String) (H : ℤ) (q : Label → Bool) (k : UsageKey) : Prop :=
  k.deviceID = id ∧ k.hourStart = (hourStart H).utc.format ∧ q (keyLabel k)

instance (id : String) (H : ℤ) (q : Label → Bool) : DecidablePred (InHour id H q) :=
  fun _ => inferInstanceAs (Decidable (_ ∧ _ ∧ _))

theorem inHour_usageKey {id id' : String} {H H' : ℤ} {q : Label → Bool} {l : Label} :
    InHour id H q (usageKey id' H' l) ↔ id' = id ∧ H' = H ∧ q l := by
  simp only [InHour, usageKey, keyLabel, Time.format_utc_inj, hourStart, Time.ofSeconds_seconds]
  constructor
  · rintro ⟨rfl, hH, hq⟩
    exact ⟨rfl, by omega, hq⟩
  · rintro ⟨rfl, rfl, hq⟩
    exact ⟨rfl, rfl, hq⟩

theorem inHour_eq {id : String} {H : ℤ} {l : Label} {k : UsageKey} :
    InHour id H (· == l) k ↔ k = usageKey id H l := by
  obtain ⟨kid, hour, st, app, descr⟩ := k
  obtain ⟨lst, lapp, ldescr⟩ := l
  simp [InHour, usageKey, keyLabel]

/-- A report at `seenAt` credits the interval since `row` was stored: there was a report, and the
interval is not dropped. -/
def Credits (cfg : Config) (row : StateRow) (seenAt : Time) : Prop :=
  row.lastSeenAt.isZero = false ∧ Credited cfg.maxGap row.lastSeenAt seenAt

instance (cfg : Config) (row : StateRow) (seenAt : Time) : Decidable (Credits cfg row seenAt) :=
  inferInstanceAs (Decidable (_ ∧ _))

section Deltas
variable {cfg : Config} {row : StateRow} {seenAt : Time}

theorem usageDeltas_ok (hzero : row.lastSeenAt.isZero = false) :
    usageDeltas cfg (.ok row) seenAt =
      (attributeInterval row.payload.activity row.lastSeenAt seenAt cfg.maxGap).map fun b =>
        ⟨b.hourStart, b.state, b.app, b.description, b.seconds⟩ := by
  simp [usageDeltas, hzero]

theorem usageDeltas_eq_nil : usageDeltas cfg (.ok row) seenAt = [] ↔ ¬ Credits cfg row seenAt := by
  cases hzero : row.lastSeenAt.isZero with
  | true => simp [usageDeltas, Credits, hzero]
  | false => simp [usageDeltas_ok hzero, Credits, hzero, attributeInterval_eq_nil]

theorem sum_usageDeltas_hours (hzero : row.lastSeenAt.isZero = false) (id : String)
    (p : UsageKey → Prop) [DecidablePred p] (q : Time → Bool)
    (hp : ∀ H, p (usageKey id H (labelOf row.payload.activity)) ↔ q (hourStart H)) :
    ((usageDeltas cfg (.ok row) seenAt).map fun d => if p (d.key id) then d.seconds else 0).sum =
      secondsIn q (attributeInterval row.payload.activity row.lastSeenAt seenAt cfg.maxGap) := by
  rw [usageDeltas_ok hzero, List.map_map, secondsIn]
  congr 1
  apply List.map_congr_left
  intro b hb
  obtain ⟨hstate, happ, hdescr, -, H, hH⟩ := mem_attributeInterval hb
  have hkey : (⟨b.hourStart, b.state, b.app, b.description, b.seconds⟩ : UsageDelta).key id =
      usageKey id H (labelOf row.payload.activity) := by
    rw [UsageDelta.key, usageKey, hstate, happ, hdescr, hH]
    rfl
  have hq := hp H
  rw [← hkey, hourStart, ← hH] at hq
  simp only [Function.comp_apply]
  by_cases hb : q b.hourStart
  · rw [if_pos (hq.mpr hb), if_pos hb]
  · rw [if_neg (mt hq.mp hb), if_neg hb]

theorem sum_usageDeltas_inHour (id : String) (H : ℤ) (q : Label → Bool) :
    ((usageDeltas cfg (.ok row) seenAt).map fun d =>
        if InHour id H q (d.key id) then d.seconds else 0).sum =
      if Credits cfg row seenAt ∧ q (labelOf row.payload.activity) then
        overlap row.lastSeenAt.seconds seenAt.seconds (H * 3600) (H * 3600 + 3600)
      else 0 := by
  by_cases hc : Credits cfg row seenAt
  · by_cases hq : q (labelOf row.payload.activity)
    · rw [sum_usageDeltas_hours hc.1 id (InHour id H q) (fun t => t = Time.ofSeconds (H * 3600)),
        secondsIn_attributeInterval_hour, if_pos hc.2, if_pos ⟨hc, hq⟩]
      intro H'
      rw [inHour_usageKey, hourStart]
      constructor
      · rintro ⟨-, rfl, -⟩
        exact decide_eq_true rfl
      · intro h
        have hs := congrArg Time.seconds (of_decide_eq_true h)
        simp only [Time.ofSeconds_seconds] at hs
        exact ⟨rfl, by omega, hq⟩
    · rw [sum_usageDeltas_hours hc.1 id (InHour id H q) (fun _ => false), if_neg (fun h => hq h.2)]
      · simp [secondsIn]
      · simp [inHour_usageKey, hq]
  · rw [usageDeltas_eq_nil.mpr hc, if_neg fun h => hc h.1]
    rfl

/-- All the deltas together are the length of the credited interval. -/
theorem sum_usageDeltas (id : String) :
    ((usageDeltas cfg (.ok row) seenAt).map fun d =>
        if (d.key id).deviceID = id then d.seconds else 0).sum =
      if Credits cfg row seenAt then seenAt.seconds - row.lastSeenAt.seconds else 0 := by
  by_cases hc : Credits cfg row seenAt
  · rw [sum_usageDeltas_hours hc.1 id (fun k => k.deviceID = id) (fun _ => true) (by simp),
      secondsIn_attributeInterval, if_pos hc.2, if_pos hc]
  · rw [usageDeltas_eq_nil.mpr hc, if_neg hc]
    rfl

/-- Every delta has a positive number of seconds and a key of some hour. -/
theorem mem_usageDeltas {d : UsageDelta} (h : d ∈ usageDeltas cfg (.ok row) seenAt) (id : String) :
    0 < d.seconds ∧ ∃ H l, d.key id = usageKey id H l := by
  cases hzero : row.lastSeenAt.isZero with
  | true =>
    simp [usageDeltas, hzero] at h
  | false =>
    rw [usageDeltas_ok hzero] at h
    obtain ⟨b, hb, rfl⟩ := List.mem_map.mp h
    obtain ⟨-, -, -, hpos, H, hH⟩ := mem_attributeInterval hb
    refine ⟨hpos, H, ⟨b.state, b.app, b.description⟩, ?_⟩
    rw [UsageDelta.key, usageKey, hH]
    rfl

theorem addedDeltas_cases (cfg : Config) (db : DB) (id : String) (seenAt : Time)
    (getStateFails : Bool) (fault : Option AddUsageFault) :
    addedDeltas cfg db id seenAt getStateFails fault = [] ∨
      ∃ row, getState db id getStateFails = .ok row ∧ Credits cfg row seenAt ∧
        addedDeltas cfg db id seenAt getStateFails fault = usageDeltas cfg (.ok row) seenAt := by
  rw [addedDeltas]
  cases hstate : getState db id getStateFails with
  | error e =>
    left
    exact ite_self []
  | ok row =>
    by_cases hc : Credits cfg row seenAt
    · by_cases hfault : fault.any (AddUsageFault.stops (usageDeltas cfg (.ok row) seenAt).length)
      · left
        simp [hfault]
      · right
        exact ⟨row, rfl, hc, by simp [hfault]⟩
    · left
      simp [usageDeltas_eq_nil.mpr hc]

/-- Without a fault everything that was computed is added. -/
theorem addedDeltas_none (cfg : Config) (db : DB) (id : String) (seenAt : Time)
    (getStateFails : Bool) :
    addedDeltas cfg db id seenAt getStateFails none =
      usageDeltas cfg (getState db id getStateFails) seenAt := rfl

theorem mem_addedDeltas {cfg : Config} {db : DB} {id : String} {seenAt : Time} {getStateFails : Bool}
    {fault : Option AddUsageFault} {d : UsageDelta}
    (h : d ∈ addedDeltas cfg db id seenAt getStateFails fault) :
    0 < d.seconds ∧ ∃ H l, d.key id = usageKey id H l := by
  rcases addedDeltas_cases cfg db id seenAt getStateFails fault with hnil | ⟨row, -, -, hadded⟩
  · rw [hnil] at h
    cases h
  · rw [hadded] at h
    exact mem_usageDeltas h id

theorem not_credits_of_lookup_none {cfg : Config} {db : DB} {id : String} {getStateFails : Bool}
    {row : StateRow} (h : getState db id getStateFails = .ok row)
    (hnone : db.deviceState.lookup id = none) (seenAt : Time) : ¬ Credits cfg row seenAt := by
  rcases getState_eq_ok.mp h with ⟨-, d, -, ⟨-, rfl⟩ | ⟨s, hs, -⟩⟩
  · rintro ⟨hzero, -⟩
    have hdefault : (default : Time).isZero = true := rfl
    rw [hdefault] at hzero
    cases hzero
  · rw [hnone] at hs
    cases hs

end Deltas

/-! ### Tables that count a timeline -/

/-- The rows of each hour add up to the number of its seconds in the timeline, label by label. -/
def Counts (id : String) (tl : Timeline Label) (table : KeyedTable UsageKey ℤ) : Prop :=
  ∀ H q, table.total (InHour id H q) = tl.count (H * 3600) 3600 q

/-- Every key of the device holds the number of seconds of its hour with its label. -/
theorem Counts.lookup {id : String} {tl : Timeline Label} {table : KeyedTable UsageKey ℤ}
    (h : Counts id tl table) (H : ℤ) (l : Label) :
    (table.lookup (usageKey id H l)).getD 0 = tl.count (H * 3600) 3600 (· == l) := by
  have hsingle : table.total (InHour id H (· == l)) = table.total (fun k => k = usageKey id H l) := by
    simp only [KeyedTable.total, KeyedTable.totalRows, inHour_eq]
  rw [← KeyedTable.total_single, ← hsingle, h H]

/-- The seconds of one hour never exceed 3600. -/
theorem Counts.hour_le {id : String} {tl : Timeline Label} {table : KeyedTable UsageKey ℤ}
    (h : Counts id tl table) (H : ℤ) : table.total (InHour id H fun _ => true) ≤ 3600 := by
  have hle := tl.count_le (H * 3600) 3600 fun _ => true
  rw [h H]
  omega

/-- The device's rows are keyed by whole hours and hold a positive number of seconds. -/
def WellKeyed (id : String) (table : KeyedTable UsageKey ℤ) : Prop :=
  ∀ k n, table.lookup k = some n → k.deviceID = id → 0 < n ∧ ∃ H l, k = usageKey id H l

/-- The deltas of another device leave the sums over the device's keys alone. -/
theorem total_foldl_addDelta_ne {id other : String} (hne : other ≠ id) (deltas : List UsageDelta)
    (table : KeyedTable UsageKey ℤ) (p : UsageKey → Prop) [DecidablePred p]
    (hp : ∀ k, p k → k.deviceID = id) :
    (deltas.foldl (addDelta other) table).total p = table.total p := by
  have hzero : (deltas.map fun d => if p (d.key other) then d.seconds else 0) =
      deltas.map fun _ => (0 : ℤ) := by
    apply List.map_congr_left
    intro d _
    rw [if_neg]
    exact fun hd => hne (hp _ hd)
  rw [total_foldl_addDelta, hzero]
  simp

theorem Counts.credit {cfg : Config} {row : StateRow} {seenAt : Time} {id : String}
    {tl : Timeline Label} {table : KeyedTable UsageKey ℤ} (h : Counts id tl table)
    (hfree : tl.FreeFrom row.lastSeenAt.seconds) (hc : Credits cfg row seenAt) :
    Counts id (tl.paint row.lastSeenAt.seconds seenAt.seconds (labelOf row.payload.activity))
      ((usageDeltas cfg (.ok row) seenAt).foldl (addDelta id) table) := by
  intro H q
  rw [total_foldl_addDelta, h H q, sum_usageDeltas_inHour, Timeline.count_paint _ _ _ _ hfree]
  congr 1
  by_cases hq : q (labelOf row.payload.activity) <;> simp [hc, hq]

/-- The timeline after a report that read `row` and whose usage was added. -/
def paintReport (cfg : Config) (tl : Timeline Label) (row : StateRow) (seenAt : Time) :
    Timeline Label :=
  if Credits cfg row seenAt then
    tl.paint row.lastSeenAt.seconds seenAt.seconds (labelOf row.payload.activity)
  else tl

theorem Counts.report {cfg : Config} {row : StateRow} {seenAt : Time} {id : String}
    {tl : Timeline Label} {table : KeyedTable UsageKey ℤ} (h : Counts id tl table)
    (hfree : tl.FreeFrom row.lastSeenAt.seconds) :
    Counts id (paintReport cfg tl row seenAt)
      ((usageDeltas cfg (.ok row) seenAt).foldl (addDelta id) table) := by
  rw [paintReport]
  split_ifs with hc
  · exact h.credit hfree hc
  · rw [usageDeltas_eq_nil.mpr hc]
    exact h

theorem Counts.other {id other : String} {tl : Timeline Label} {table : KeyedTable UsageKey ℤ}
    (h : Counts id tl table) (hne : other ≠ id) (deltas : List UsageDelta) :
    Counts id tl (deltas.foldl (addDelta other) table) := by
  intro H q
  rw [total_foldl_addDelta_ne hne _ _ _ fun _ hk => hk.1, h H q]

theorem WellKeyed.addDeltas {id other : String} {table : KeyedTable UsageKey ℤ}
    {deltas : List UsageDelta} (h : WellKeyed id table)
    (hdeltas : ∀ d ∈ deltas, 0 < d.seconds ∧ ∃ H l, d.key other = usageKey other H l) :
    WellKeyed id (deltas.foldl (addDelta other) table) := by
  induction deltas generalizing table with
  | nil => exact h
  | cons d ds ih =>
    refine ih ?_ fun d' hd' => hdeltas d' (List.mem_cons_of_mem d hd')
    intro k n hk hid
    rw [lookup_addDelta] at hk
    split_ifs at hk with hkey
    · obtain ⟨hpos, H, l, hHl⟩ := hdeltas d List.mem_cons_self
      rw [Option.some.injEq] at hk
      subst hkey
      have hother : other = id := hid
      subst hother
      refine ⟨?_, H, l, hHl⟩
      cases hold : table.lookup (d.key other) with
      | none =>
        rw [hold, Option.getD_none] at hk
        omega
      | some m =>
        have hm := (h _ m hold rfl).1
        rw [hold, Option.getD_some] at hk
        omega
    · exact h k n hk hid

end CyberstalkMe.Api
