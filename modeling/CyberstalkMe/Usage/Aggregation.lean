import CyberstalkMe.Usage.Ranking

/-! # What the response says of the rows

The rows count by the seconds that they hold for each bucket: neither their order
nor how the seconds of a bucket are spread over them matters.
-/
namespace CyberstalkMe.Usage

open Go Shared Foundations KeyedTable

/-! ### Slots -/

def hourRows (loc : Zone) (rows : List Row) (hour : ℕ) : List Row :=
  rows.filter fun r => r.state = .active && decide ((r.hourStart.inLoc loc).secondOfDay / 3600 = hour)

def dayRows (loc : Zone) (rows : List Row) (date : String) : List Row :=
  rows.filter fun r => r.state = .active && (r.hourStart.inLoc loc).dateText = date

theorem hourlySlots_eq (loc : Zone) (rows : List Row) :
    hourlySlots rows loc = (List.range 24).map fun (hour : ℕ) =>
      ⟨hour, (sumAndTop (addByApp (hourRows loc rows hour))).1, (sumAndTop (addByApp (hourRows loc rows hour))).2⟩ :=
  rfl

theorem daySlots_eq (loc : Zone) (rows : List Row) (start stop : Time) (fuel : ℕ) :
    daySlots rows start stop loc fuel =
      (dayStarts stop loc fuel (startOfDay start loc)).map fun starts => (starts.map Time.dateText).map fun date =>
        ⟨date, (sumAndTop (addByApp (dayRows loc rows date))).1, (sumAndTop (addByApp (dayRows loc rows date))).2⟩ := by
  simp only [List.map_map]
  rfl

/-! ### Rows for the same buckets -/

/-- The bucket that a row counts for. -/
def Row.bucket (r : Row) : Row := { r with seconds := 0 }

/-- The lists have the same buckets, and hold the same seconds for every set of them. -/
def SameBuckets (rows rows' : List Row) : Prop :=
  ∀ p : Row → Bool, secondsOf (rows.filter (p ·.bucket)) = secondsOf (rows'.filter (p ·.bucket)) ∧
    ((∃ r ∈ rows, p r.bucket) ↔ ∃ r ∈ rows', p r.bucket)

theorem secondsOf_append (rows rows' : List Row) : secondsOf (rows ++ rows') = secondsOf rows + secondsOf rows' := by
  simp [secondsOf]

theorem sameBuckets_of_perm {rows rows' : List Row} (h : rows.Perm rows') : SameBuckets rows rows' := by
  intro p
  constructor
  · exact ((h.filter _).map Row.seconds).sum_eq
  · simp only [h.mem_iff]

theorem sameBuckets_split {before parts after : List Row} {r : Row} (hne : parts ≠ [])
    (hparts : ∀ s ∈ parts, s.bucket = r.bucket) (hsum : secondsOf parts = r.seconds) :
    SameBuckets (before ++ parts ++ after) (before ++ r :: after) := by
  intro p
  have hall : ∀ s ∈ parts, p s.bucket = p r.bucket := fun s hs => congrArg p (hparts s hs)
  constructor
  · cases hp : p r.bucket with
    | true =>
      have hfilter : parts.filter (p ·.bucket) = parts := List.filter_eq_self.mpr fun s hs => (hall s hs).trans hp
      simp only [List.filter_append, List.filter_cons, hp, if_true, hfilter, secondsOf_append, hsum]
      simp only [secondsOf, List.map_cons, List.sum_cons]
      ring
    | false =>
      have hfilter : parts.filter (p ·.bucket) = [] := by
        rw [List.filter_eq_nil_iff]
        intro s hs
        rw [hall s hs, hp]
        exact Bool.false_ne_true
      simp only [List.filter_append, List.filter_cons, hp, Bool.false_eq_true, if_false, hfilter, List.append_nil]
  · obtain ⟨s, hs⟩ := List.exists_mem_of_ne_nil _ hne
    simp only [List.mem_append, List.mem_cons]
    constructor
    · rintro ⟨t, (ht | ht) | ht, hpt⟩
      · exact ⟨t, .inl ht, hpt⟩
      · exact ⟨r, .inr (.inl rfl), hall t ht ▸ hpt⟩
      · exact ⟨t, .inr (.inr ht), hpt⟩
    · rintro ⟨t, ht | rfl | ht, hpt⟩
      · exact ⟨t, .inl (.inl ht), hpt⟩
      · exact ⟨s, .inl (.inr hs), (hall s hs).symm ▸ hpt⟩
      · exact ⟨t, .inr ht, hpt⟩

/-- The totals are the sums of the states. -/
theorem foldl_addTotals (rows : List Row) :
    rows.foldl addTotals default =
      ⟨secondsOf (rows.filter (·.state = .active)), secondsOf (rows.filter (·.state = .idle)),
        secondsOf (rows.filter (·.state = .locked))⟩ := by
  induction rows using List.reverseRecOn with
  | nil => rfl
  | append_singleton rows r ih =>
    rw [List.foldl_concat, ih, addTotals]
    cases hr : r.state <;> simp [hr, secondsOf]

namespace SameBuckets
variable {rows rows' : List Row} (h : SameBuckets rows rows')
include h

theorem filter (p : Row → Bool) : SameBuckets (rows.filter (p ·.bucket)) (rows'.filter (p ·.bucket)) := by
  intro q
  have hboth := h fun r => q r && p r
  simp only [Bool.and_eq_true] at hboth
  simp only [List.filter_filter, List.mem_filter]
  refine ⟨hboth.1, ?_⟩
  simpa [and_assoc, and_comm] using hboth.2

theorem secondsOf_eq : secondsOf rows = secondsOf rows' := by
  simpa using (h fun _ => true).1

theorem mem_map_iff {key : Row → String} (hkey : ∀ r, key r.bucket = key r) {k : String} :
    k ∈ rows.map key ↔ k ∈ rows'.map key := by
  have hmem := (h fun r => key r = k).2
  simp only [hkey, decide_eq_true_eq] at hmem
  simpa only [List.mem_map] using hmem

theorem lookup_sumBy {key : Row → String} (hkey : ∀ r, key r.bucket = key r) (k : String) :
    (sumBy key Row.seconds rows).lookup k = (sumBy key Row.seconds rows').lookup k := by
  have hsum := (h fun r => key r = k).1
  simp only [hkey] at hsum
  rw [KeyedTable.lookup_sumBy, KeyedTable.lookup_sumBy]
  simp only [h.mem_map_iff hkey]
  split_ifs
  · exact congrArg some hsum
  · rfl

theorem sumAndTop_eq : sumAndTop (addByApp rows) = sumAndTop (addByApp rows') :=
  sumAndTop_congr (h.lookup_sumBy fun _ => rfl)

theorem rankApps_eq : rankApps (perApp rows) = rankApps (perApp rows') := by
  have hactive : SameBuckets (activeRows rows) (activeRows rows') := h.filter fun r => r.state = .active
  have happ : ∀ r : Row, r.bucket.app = r.app := fun _ => rfl
  apply rankApps_congr
  intro app
  rw [lookup_perApp, lookup_perApp]
  simp only [hactive.mem_map_iff happ]
  split_ifs
  · have hrows : SameBuckets (appRows (activeRows rows) app) (appRows (activeRows rows') app) :=
      hactive.filter fun r => r.app = app
    rw [Option.map_some, Option.map_some, appUsage_congr app (hrows.lookup_sumBy fun _ => rfl)]
  · rfl

theorem hourRows (loc : Zone) (hour : ℕ) :
    SameBuckets (Usage.hourRows loc rows hour) (Usage.hourRows loc rows' hour) :=
  h.filter fun r => r.state = .active && decide ((r.hourStart.inLoc loc).secondOfDay / 3600 = hour)

theorem dayRows (loc : Zone) (date : String) :
    SameBuckets (Usage.dayRows loc rows date) (Usage.dayRows loc rows' date) :=
  h.filter fun r => r.state = .active && (r.hourStart.inLoc loc).dateText = date

theorem totals_eq : rows.foldl addTotals default = rows'.foldl addTotals default := by
  have hstate (s : UsageState) : secondsOf (rows.filter (·.state = s)) = secondsOf (rows'.filter (·.state = s)) :=
    (h.filter fun r => r.state = s).secondsOf_eq
  rw [foldl_addTotals, foldl_addTotals, hstate, hstate, hstate]

theorem aggregateDevice_eq (d : Device) (w : String) (start stop : Time) (loc : Zone) (fuel : ℕ) :
    aggregateDevice d rows w start stop loc fuel = aggregateDevice d rows' w start stop loc fuel := by
  simp only [aggregateDevice, h.totals_eq, h.rankApps_eq, Usage.hourlySlots_eq, Usage.daySlots_eq,
    (h.hourRows loc _).sumAndTop_eq, (h.dayRows loc _).sumAndTop_eq]

theorem aggregate_eq (devices : List Device) (w : String) (start stop : Time) (loc : Zone) (fuel : ℕ) :
    aggregate devices rows w start stop loc fuel = aggregate devices rows' w start stop loc fuel := by
  have hdevice : ∀ d : Device, aggregateDevice d (rows.filter fun r => r.deviceID = d.deviceID) w start stop loc fuel =
      aggregateDevice d (rows'.filter fun r => r.deviceID = d.deviceID) w start stop loc fuel := fun d =>
    (h.filter fun r => r.deviceID = d.deviceID).aggregateDevice_eq d w start stop loc fuel
  simp only [aggregate, hdevice]

end SameBuckets

/-! ### The response -/

theorem mapM_eq_some {α β : Type} (f : α → Option β) {l : List α} {bs : List β} :
    l.mapM f = some bs ↔ l.map f = bs.map some := by
  induction l generalizing bs with
  | nil => cases bs <;> simp
  | cons a l ih =>
    rw [List.mapM_cons, List.map_cons]
    cases ha : f a with
    | none => cases bs <;> simp
    | some b =>
      cases hl : l.mapM f with
      | none =>
        have hnone : ∀ cs : List β, l.map f ≠ cs.map some := by
          intro cs hcs
          rw [← ih, hl] at hcs
          cases hcs
        cases bs <;> simp [hnone]
      | some cs =>
        rw [ih.mp hl, ← List.map_cons, (List.map_injective_iff.mpr (Option.some_injective β)).eq_iff]
        exact Option.some_inj

theorem mapM_congr {α β : Type} {f g : α → Option β} {l : List α} (h : ∀ a ∈ l, f a = g a) :
    l.mapM f = l.mapM g := by
  induction l with
  | nil => rfl
  | cons a l ih =>
    rw [List.mapM_cons, List.mapM_cons, h a List.mem_cons_self, ih fun b hb => h b (List.mem_cons_of_mem a hb)]

section Response
variable {devices : List Device} {rows : List Row} {w : String} {start stop : Time} {loc : Zone} {fuel : ℕ}

/-- The devices in the order of the response. -/
def sortDevices (devices : List Device) : List Device := devices.insertionSort fun a b => a.deviceID ≤ b.deviceID

theorem sortDevices_perm {devices' : List Device} (hids : (devices.map Device.deviceID).Nodup)
    (hperm : devices.Perm devices') : sortDevices devices = sortDevices devices' :=
  key_congr Device.deviceID hperm hids

theorem sortDevices_pairwise (hids : (devices.map Device.deviceID).Nodup) :
    (sortDevices devices).Pairwise fun a b => a.deviceID < b.deviceID :=
  pairwise_key_lt Device.deviceID hids

theorem aggregate_eq_some {r : UsageResponse} (h : aggregate devices rows w start stop loc fuel = some r) :
    ∃ usages, r.devices = .of usages ∧
      (sortDevices devices).map (fun d =>
        aggregateDevice d (rows.filter fun r => r.deviceID = d.deviceID) w start stop loc fuel) =
          usages.map some := by
  rw [aggregate, Option.bind_eq_bind, Option.bind_eq_some_iff] at h
  obtain ⟨usages, husages, hr⟩ := h
  cases hr
  exact ⟨usages, rfl, (mapM_eq_some _).mp husages⟩

theorem aggregate_filter (rows : List Row) :
    aggregate devices (rows.filter fun r => r.deviceID ∈ devices.map Device.deviceID) w start stop loc fuel =
      aggregate devices rows w start stop loc fuel := by
  have hdevice : ∀ d ∈ sortDevices devices,
      (rows.filter fun r => r.deviceID ∈ devices.map Device.deviceID).filter (fun r => r.deviceID = d.deviceID) =
        rows.filter fun r => r.deviceID = d.deviceID := by
    intro d hd
    rw [sortDevices, List.mem_insertionSort] at hd
    rw [List.filter_filter]
    apply List.filter_congr
    intro r _
    by_cases hr : r.deviceID = d.deviceID
    · have hin : r.deviceID ∈ devices.map Device.deviceID := hr ▸ List.mem_map_of_mem hd
      rw [decide_eq_true hr, decide_eq_true hin]
      rfl
    · rw [decide_eq_false hr]
      rfl
  have hmap := mapM_congr fun d hd =>
    congrArg (fun own => aggregateDevice d own w start stop loc fuel) (hdevice d hd)
  rw [aggregate, aggregate]
  exact congrArg (· >>= _) hmap

/-! ### The usage of a device -/

/-- The app of a slot: the first of those with the most seconds, and none without rows. -/
def SlotTop (rows : List Row) (top : String) : Prop := (rows = [] → top = "") ∧ (rows ≠ [] → IsTop rows top)

/-- What the response says of a device with its rows. -/
structure Accounts (loc : Zone) (rows : List Row) (u : DeviceUsage) : Prop where
  totals : u.totals = ⟨secondsOf (rows.filter (·.state = .active)), secondsOf (rows.filter (·.state = .idle)),
    secondsOf (rows.filter (·.state = .locked))⟩
  apps : ∃ apps, u.apps = .of apps ∧ Ranks AppUsage.app AppUsage.seconds Row.app (activeRows rows) apps ∧
    (apps.map AppUsage.seconds).sum = u.totals.activeSeconds ∧
    ∀ x ∈ apps, ∃ activities, x.activities = .of activities ∧
      x.seconds = (activities.map ActivityUsage.seconds).sum ∧
      Ranks ActivityUsage.description ActivityUsage.seconds Row.description (appRows (activeRows rows) x.app)
        activities
  hourly : ∀ slots, u.hourly = .of slots → ∀ s ∈ slots, ∃ hour : ℕ, s.hour = hour ∧
    s.seconds = secondsOf (hourRows loc rows hour) ∧ SlotTop (hourRows loc rows hour) s.topApp
  daily : ∀ slots, u.daily = .of slots → ∀ s ∈ slots,
    s.seconds = secondsOf (dayRows loc rows s.date) ∧ SlotTop (dayRows loc rows s.date) s.topApp

theorem aggregateDevice_eq_some {d : Device} {u : DeviceUsage}
    (h : aggregateDevice d rows w start stop loc fuel = some u) :
    (⟨u.deviceID, u.deviceName, u.deviceType⟩ : Device) = d ∧ u.totals = rows.foldl addTotals default ∧
      u.apps = .of (rankApps (perApp rows)) ∧
      if w = windowToday then u.hourly = .of (hourlySlots rows loc) ∧ u.daily = none
      else u.hourly = none ∧ ∃ slots, u.daily = .of slots ∧ daySlots rows start stop loc fuel = some slots := by
  rw [aggregateDevice] at h
  split_ifs at h ⊢
  · cases h
    exact ⟨rfl, rfl, rfl, rfl, rfl⟩
  · obtain ⟨slots, hslots, rfl⟩ := Option.map_eq_some_iff.mp h
    exact ⟨rfl, rfl, rfl, rfl, slots, rfl, hslots⟩

section Slots
variable (hpos : ∀ r ∈ rows, 0 < r.seconds)
include hpos

theorem slotTop_filter (p : Row → Bool) : SlotTop (rows.filter p) (sumAndTop (addByApp (rows.filter p))).2 :=
  sumAndTop_addByApp_snd fun r hr => hpos r (List.mem_filter.mp hr).1

theorem hourlySlots_spec {s : HourUsage} (hs : s ∈ hourlySlots rows loc) :
    ∃ hour : ℕ, s.hour = hour ∧ s.seconds = secondsOf (hourRows loc rows hour) ∧
      SlotTop (hourRows loc rows hour) s.topApp := by
  rw [hourlySlots_eq, List.mem_map] at hs
  obtain ⟨hour, -, rfl⟩ := hs
  exact ⟨hour, rfl, sumAndTop_addByApp_fst _, slotTop_filter hpos _⟩

theorem daySlots_spec {slots : List DayUsage} (h : daySlots rows start stop loc fuel = some slots) {s : DayUsage}
    (hs : s ∈ slots) : s.seconds = secondsOf (dayRows loc rows s.date) ∧ SlotTop (dayRows loc rows s.date) s.topApp := by
  rw [daySlots_eq, Option.map_eq_some_iff] at h
  obtain ⟨starts, -, rfl⟩ := h
  obtain ⟨date, -, rfl⟩ := List.mem_map.mp hs
  exact ⟨sumAndTop_addByApp_fst _, slotTop_filter hpos _⟩

theorem accounts_aggregateDevice {d : Device} {u : DeviceUsage}
    (h : aggregateDevice d rows w start stop loc fuel = some u) : Accounts loc rows u := by
  obtain ⟨-, htotals, happs, hslots⟩ := aggregateDevice_eq_some h
  have hranks := ranks_rankApps rows
  constructor
  · rw [htotals, foldl_addTotals]
  · refine ⟨_, happs, hranks, ?_, ?_⟩
    · rw [htotals, foldl_addTotals, hranks.sum]
      rfl
    · intro x hx
      obtain ⟨activities, hactivities, hbroken⟩ := ranks_appUsage x.app (appRows (activeRows rows) x.app)
      rw [← mem_rankApps hx] at hactivities
      exact ⟨activities, hactivities, by rw [hbroken.sum, hranks.seconds x hx]; rfl, hbroken⟩
  · intro slots hhourly s hs
    split_ifs at hslots with hw
    · rw [hslots.1] at hhourly
      cases hhourly
      exact hourlySlots_spec hpos hs
    · rw [hslots.1] at hhourly
      cases hhourly
  · intro slots hdaily s hs
    split_ifs at hslots with hw
    · rw [hslots.2] at hdaily
      cases hdaily
    · obtain ⟨-, slots', hdaily', hday⟩ := hslots
      rw [hdaily'] at hdaily
      cases hdaily
      exact daySlots_spec hpos hday hs

end Slots

/-- The device that an entry of the response is about. -/
def deviceOf (u : DeviceUsage) : Device := ⟨u.deviceID, u.deviceName, u.deviceType⟩

theorem map_deviceOf {l : List Device} {usages : List DeviceUsage} (h : l.map (fun d =>
      aggregateDevice d (rows.filter fun r => r.deviceID = d.deviceID) w start stop loc fuel) = usages.map some) :
    usages.map deviceOf = l := by
  apply List.map_injective_iff.mpr (Option.some_injective Device)
  rw [List.map_map, ← Option.map_comp_some, ← List.map_map, ← h, List.map_map]
  apply List.map_congr_left
  intro d hd
  have hmem := List.mem_map_of_mem (f := fun d =>
    aggregateDevice d (rows.filter fun r => r.deviceID = d.deviceID) w start stop loc fuel) hd
  rw [h, List.mem_map] at hmem
  obtain ⟨u, -, hu⟩ := hmem
  rw [Function.comp_apply, ← hu, Option.map_some, deviceOf, (aggregateDevice_eq_some hu.symm).1]

theorem aggregateDevice_of_mem {l : List Device} {usages : List DeviceUsage} (h : l.map (fun d =>
      aggregateDevice d (rows.filter fun r => r.deviceID = d.deviceID) w start stop loc fuel) = usages.map some)
    {u : DeviceUsage} (hu : u ∈ usages) :
    ∃ d, aggregateDevice d (rows.filter (·.deviceID = u.deviceID)) w start stop loc fuel = some u := by
  have hmem := List.mem_map_of_mem (f := some) hu
  rw [← h, List.mem_map] at hmem
  obtain ⟨d, -, hd⟩ := hmem
  have hdevice : u.deviceID = d.deviceID := congrArg Device.deviceID (aggregateDevice_eq_some hd).1
  exact ⟨d, hdevice ▸ hd⟩

/-- The entries of a response account for the rows of their devices, which stand in the order of their ids. -/
theorem aggregate_entries (hids : (devices.map Device.deviceID).Nodup) (hpos : ∀ r ∈ rows, 0 < r.seconds)
    {r : UsageResponse} (h : aggregate devices rows w start stop loc fuel = some r) :
    ∃ usages, r.devices = .of usages ∧ (usages.map deviceOf).Perm devices ∧
      usages.Pairwise (fun u v => u.deviceID < v.deviceID) ∧
      ∀ u ∈ usages, Accounts loc (rows.filter (·.deviceID = u.deviceID)) u := by
  obtain ⟨usages, hr, hall⟩ := aggregate_eq_some h
  have hmap := map_deviceOf hall
  refine ⟨usages, hr, ?_, ?_, ?_⟩
  · rw [hmap]
    exact List.perm_insertionSort _ devices
  · have hsorted := sortDevices_pairwise hids
    rwa [← hmap, List.pairwise_map] at hsorted
  · intro u hu
    obtain ⟨d, hd⟩ := aggregateDevice_of_mem hall hu
    exact accounts_aggregateDevice (fun r hr => hpos r (List.mem_filter.mp hr).1) hd

end Response

/-- `aggregate` is a ranking of sums: neither the order of the devices and rows nor the way in which the seconds of
a bucket are spread over rows matters, rows of other devices change nothing, and every device is accounted for. -/
theorem aggregate_accounts (devices : List Device) (rows : List Row) (w : String) (start stop : Time) (loc : Zone)
    (fuel : ℕ) (hids : (devices.map Device.deviceID).Nodup) (hpos : ∀ r ∈ rows, 0 < r.seconds) :
    (∀ devices' rows', devices.Perm devices' → rows.Perm rows' →
      aggregate devices' rows' w start stop loc fuel = aggregate devices rows w start stop loc fuel) ∧
    (∀ before r after parts, rows = before ++ r :: after → (∀ s ∈ parts, s.bucket = r.bucket ∧ 0 < s.seconds) →
      secondsOf parts = r.seconds →
      aggregate devices (before ++ parts ++ after) w start stop loc fuel =
        aggregate devices rows w start stop loc fuel) ∧
    (∀ rows', rows'.filter (fun r => r.deviceID ∈ devices.map Device.deviceID) =
        rows.filter (fun r => r.deviceID ∈ devices.map Device.deviceID) →
      aggregate devices rows' w start stop loc fuel = aggregate devices rows w start stop loc fuel) ∧
    ∀ r, aggregate devices rows w start stop loc fuel = some r →
      ∃ usages, r.devices = .of usages ∧ (usages.map deviceOf).Perm devices ∧
        usages.Pairwise (fun u v => u.deviceID < v.deviceID) ∧
        ∀ u ∈ usages, Accounts loc (rows.filter (·.deviceID = u.deviceID)) u := by
  refine ⟨?_, ?_, ?_, fun r => aggregate_entries hids hpos⟩
  · intro devices' rows' hdevices hrows
    rw [(sameBuckets_of_perm hrows).aggregate_eq]
    rw [aggregate, ← sortDevices, ← sortDevices_perm hids hdevices]
    rfl
  · rintro before r after parts rfl hparts hsum
    have hne : parts ≠ [] := by
      rintro rfl
      have hr := hpos r (by simp)
      simp only [secondsOf, List.map_nil, List.sum_nil] at hsum
      omega
    exact (sameBuckets_split hne (fun s hs => (hparts s hs).1) hsum).aggregate_eq devices w start stop loc fuel
  · intro rows' hrows
    rw [← aggregate_filter rows', hrows, aggregate_filter]

def desk : List Device := [⟨"d2", "Phone", "phone"⟩, ⟨"d1", "Desk", "pc"⟩]

def tiedHour : List Row :=
  [⟨"d1", .ofSeconds 0, .active, "Code", "Editing", 60⟩, ⟨"d1", .ofSeconds 0, .active, "Browser", "Reading", 60⟩,
    ⟨"d1", .ofSeconds 0, .idle, "Code", "Editing", 30⟩]

def london : Zone := ⟨"Europe/London", 0, []⟩

theorem aggregate_accounts_tiedHour :
    (desk.map Device.deviceID).Nodup ∧ (∀ r ∈ tiedHour, 0 < r.seconds) ∧
      aggregate desk.reverse tiedHour.reverse windowToday (.ofSeconds 0) (.ofSeconds 3600) london 0 =
        aggregate desk tiedHour windowToday (.ofSeconds 0) (.ofSeconds 3600) london 0 := by
  have hids : (desk.map Device.deviceID).Nodup := by decide
  have hpos : ∀ r ∈ tiedHour, 0 < r.seconds := by decide
  have haccounts := aggregate_accounts desk tiedHour windowToday (.ofSeconds 0) (.ofSeconds 3600)
    london 0 hids hpos
  exact ⟨hids, hpos, haccounts.1 _ _ desk.reverse_perm.symm tiedHour.reverse_perm.symm⟩

end CyberstalkMe.Usage
