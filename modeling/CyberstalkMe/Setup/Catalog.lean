import CyberstalkMe.Setup.Server
import CyberstalkMe.Foundations.Recency
import CyberstalkMe.Foundations.Sorting
import Mathlib.Data.PNat.Defs
import Mathlib.Data.String.Basic

/-! # The catalog of foreground windows

The applications seen in the foreground with the window titles seen for each, both
bounded. The catalog refines recency: it holds what was seen most recently.
-/
namespace CyberstalkMe.Setup

open Go Foundations

/-- One distinct window title observed for an application. -/
structure TitleSample where
  title : String
  firstSeen : Time
  lastSeen : Time
  count : ℕ
deriving DecidableEq, Repr

/-- An application that has been in the foreground. Its samples are most recent first. -/
structure App where
  process : String
  firstSeen : Time
  lastSeen : Time
  count : ℕ
  samples : List TitleSample
  configurable : Bool
deriving DecidableEq, Repr

structure CatalogSnapshot where
  apps : List App
  locked : Bool
  lockedSeen : ℕ
  observations : ℕ
deriving DecidableEq, Repr

structure Catalog where
  apps : KeyedTable String App
  maxSamples : ℕ+
  maxApps : ℕ+
  locked : Bool
  lockedSeen : ℕ
  observations : ℕ

def defaultMaxSamplesPerApp : ℕ+ := 20
def defaultMaxApps : ℕ+ := 256

structure CatalogOptions where
  maxSamplesPerApp : ℤ
  maxApps : ℤ

/-- A cap, or the default when it is not positive. -/
def capOr (default : ℕ+) (cap : ℤ) : ℕ+ := if h : 0 < cap then cap.toNat.toPNat (by omega) else default

def newCatalog (opts : CatalogOptions) : Catalog where
  apps := .empty
  maxSamples := capOr defaultMaxSamplesPerApp opts.maxSamplesPerApp
  maxApps := capOr defaultMaxApps opts.maxApps
  locked := false
  lockedSeen := 0
  observations := 0

/-- The order in which a `range` over a map visits its keys. -/
structure MapOrder where
  visit : List String → List String
  perm : ∀ keys, (visit keys).Perm keys

/-- A call of `Observe`, with the clock and the order of the map in it. -/
structure Observation where
  process : String
  title : String
  now : Time
  order : MapOrder

/-- Merge a title into the samples, keeping them most recent first and bounded. -/
def App.addSample (a : App) (title : String) (now : Time) (max : ℕ) : App :=
  match a.samples.find? (·.title = title) with
  | some s =>
    { a with samples := { s with lastSeen := now, count := s.count + 1 } ::
        a.samples.eraseP (·.title = title) }
  | none =>
    let samples := ⟨title, now, now, 1⟩ :: a.samples
    { a with samples := if max < samples.length then samples.take max else samples }

/-- One more sighting of an application. A window without a title adds no sample. -/
def App.sight (a : App) (title : String) (now : Time) (max : ℕ) : App :=
  let a := { a with lastSeen := now, count := a.count + 1 }
  if title ≠ "" then a.addSample title now max else a

namespace Catalog

/-- `c.apps[key].LastSeen`. -/
def lastSeen (c : Catalog) (key : String) : Time := ((c.apps.lookup key).map App.lastSeen).getD default

/-- Drop the least recently seen applications once the map is over its cap. -/
def evictApps (c : Catalog) (order : MapOrder) : Catalog :=
  if c.apps.keys.length ≤ c.maxApps then c
  else
    -- `sort.Slice` leaves ties in any order, as the order of the visit does
    let keys := (order.visit c.apps.keys).insertionSort fun a b => ¬ (c.lastSeen b).before (c.lastSeen a)
    { c with apps := (keys.take (c.apps.keys.length - c.maxApps)).foldl .erase c.apps }

/-- The application under a key with one more sighting. It is added if it is not known. -/
def sighted (c : Catalog) (key : String) (o : Observation) : App :=
  let app := (c.apps.lookup key).getD
    { process := key, firstSeen := o.now, lastSeen := default, count := 0, samples := [],
      configurable := isConfigurable key }
  app.sight o.title o.now c.maxSamples

/-- Record one foreground reading. An empty process is the lock screen. -/
def observe (lower : Char → Char) (c : Catalog) (o : Observation) : Catalog :=
  let key := toLower lower (trimSpace o.process)
  let c := { c with observations := c.observations + 1 }
  if key = "" then { c with locked := true, lockedSeen := c.lockedSeen + 1 }
  else
    let app := c.sighted key o
    let c := { c with locked := false, apps := c.apps.upsert key app fun _ => app }
    c.evictApps o.order

/-- The observations one after the other. -/
def run (lower : Char → Char) (c : Catalog) (calls : List Observation) : Catalog :=
  calls.foldl (observe lower) c

def listedBefore (a b : App) : Bool :=
  if a.lastSeen.nanos = b.lastSeen.nanos then a.process < b.process else a.lastSeen.after b.lastSeen

/-- A copy of the catalog, the most recently seen application first. -/
def snapshot (c : Catalog) (order : MapOrder) : CatalogSnapshot where
  apps := ((order.visit c.apps.keys).filterMap c.apps.lookup).insertionSort fun a b => ¬ listedBefore b a
  locked := c.locked
  lockedSeen := c.lockedSeen
  observations := c.observations

/-- The distinct titles recorded for a process, most recent first. -/
def titles (lower : Char → Char) (c : Catalog) (process : String) : List String :=
  match c.apps.lookup (toLower lower (trimSpace process)) with
  | none => []
  | some app => app.samples.map TitleSample.title

end Catalog

/-! ### What an observation sights -/

/-- The process that is sighted, trimmed and in lower case, unless it is blank. -/
def sightedProcess (lower : Char → Char) (o : Observation) : Option String :=
  let key := toLower lower (trimSpace o.process)
  if key = "" then none else some key

/-- The title that is sighted, unless it is empty. -/
def sightedTitle (o : Observation) : Option String := if o.title = "" then none else some o.title

structure Spans (sightings : List Observation) (firstSeen lastSeen : Time) (count : ℕ) : Prop where
  count : count = sightings.length
  first : sightings.getLast?.map Observation.now = some firstSeen
  last : sightings.head?.map Observation.now = some lastSeen

theorem spans_single (o : Observation) : Spans [o] o.now o.now 1 := ⟨rfl, rfl, rfl⟩

theorem Spans.cons {sightings : List Observation} {first last : Time} {count : ℕ}
    (h : Spans sightings first last count) (o : Observation) :
    Spans (o :: sightings) first o.now (count + 1) where
  count := by rw [h.count, List.length_cons]
  first := by
    obtain ⟨x, hx, hfirst⟩ := Option.map_eq_some_iff.mp h.first
    simp [List.getLast?_cons, hx, hfirst]
  last := rfl

/-- Under a clock that does not go back, a record is first seen before it is last seen. -/
theorem Spans.first_le_last {sightings : List Observation} {first last : Time} {count : ℕ}
    (h : Spans sightings first last count)
    (hclock : sightings.Pairwise fun later earlier => earlier.now.before later.now) :
    first.nanos ≤ last.nanos := by
  obtain ⟨x, hx, rfl⟩ := Option.map_eq_some_iff.mp h.first
  obtain ⟨y, hy, rfl⟩ := Option.map_eq_some_iff.mp h.last
  obtain ⟨rest, rfl⟩ := List.head?_eq_some_iff.mp hy
  have hmem : x ∈ y :: rest := List.mem_of_getLast? hx
  rcases List.mem_cons.mp hmem with rfl | hmem
  · exact le_rfl
  · have hlt := (List.pairwise_cons.mp hclock).1 x hmem
    simp only [Time.before, decide_eq_true_eq] at hlt
    exact hlt.le

/-! ### Samples -/

structure Samples (max : ℕ) (sightings : List Observation) (samples : List TitleSample) : Prop where
  titles : samples.map TitleSample.title = recent max (sightings.filterMap sightedTitle)
  spans : ∀ s ∈ samples, ∃ seen, SightedSince max sightedTitle s.title sightings seen ∧
    Spans seen s.firstSeen s.lastSeen s.count

namespace Samples
variable {max : ℕ} {sightings : List Observation} {samples : List TitleSample}

theorem nil (max : ℕ) : Samples max [] [] where
  titles := by simp [recent, distinct]
  spans s hs := by cases hs

theorem untitled (h : Samples max sightings samples) {o : Observation} (ho : o.title = "") :
    Samples max (o :: sightings) samples where
  titles := by rw [h.titles, List.filterMap_cons_none (by simp [sightedTitle, ho])]
  spans s hs := by
    obtain ⟨seen, hseen, hspans⟩ := h.spans s hs
    have hnone : sightedTitle o = none := by simp [sightedTitle, ho]
    have hmem : s.title ∈ recent max ((o :: sightings).filterMap sightedTitle) := by
      rw [List.filterMap_cons_none hnone, ← h.titles]
      exact List.mem_map_of_mem hs
    exact ⟨seen, hseen.other (by simp [hnone]) hmem, hspans⟩

theorem spans_other (h : Samples max sightings samples) {o : Observation} {s : TitleSample} (hs : s ∈ samples)
    (hne : sightedTitle o ≠ some s.title)
    (hmem : s.title ∈ recent max ((o :: sightings).filterMap sightedTitle)) :
    ∃ seen, SightedSince max sightedTitle s.title (o :: sightings) seen ∧
      Spans seen s.firstSeen s.lastSeen s.count := by
  obtain ⟨seen, hseen, hspans⟩ := h.spans s hs
  exact ⟨seen, hseen.other hne hmem, hspans⟩

theorem nodup_titles (h : Samples max sightings samples) : (samples.map TitleSample.title).Nodup := by
  rw [h.titles]
  exact nodup_recent max _

end Samples

theorem map_title_eraseP (samples : List TitleSample) (title : String) :
    (samples.eraseP (·.title = title)).map TitleSample.title = (samples.map TitleSample.title).erase title := by
  induction samples with
  | nil => rfl
  | cons s samples ih =>
    by_cases hs : s.title = title
    · simp [hs]
    · simp [hs, ih]

section AddSample
variable {max : ℕ} {sightings : List Observation} {samples : List TitleSample} {o : Observation}

theorem Samples.refresh (h : Samples max sightings samples) (hmax : 0 < max) {s : TitleSample} (hs : s ∈ samples)
    (ho : sightedTitle o = some s.title) :
    Samples max (o :: sightings) ({ s with lastSeen := o.now, count := s.count + 1 } ::
      samples.eraseP (·.title = s.title)) := by
  have hrecent : s.title ∈ recent max (sightings.filterMap sightedTitle) := by
    rw [← h.titles]
    exact List.mem_map_of_mem hs
  have htitles : s.title :: (samples.eraseP (·.title = s.title)).map TitleSample.title =
      recent max ((o :: sightings).filterMap sightedTitle) := by
    rw [List.filterMap_cons_some ho, recent_cons_of_mem hmax hrecent, ← h.titles, map_title_eraseP]
  constructor
  · exact htitles
  · intro t ht
    rcases List.mem_cons.mp ht with rfl | ht
    · obtain ⟨seen, hseen, hspans⟩ := h.spans s hs
      exact ⟨o :: seen, hseen.again hmax ho, hspans.cons o⟩
    · have hmem := List.mem_map_of_mem (f := TitleSample.title) ht
      have hne : t.title ≠ s.title := by
        rw [map_title_eraseP] at hmem
        exact (h.nodup_titles.mem_erase_iff.mp hmem).1
      apply h.spans_other (List.mem_of_mem_eraseP ht)
      · simp [ho, hne.symm]
      · rw [← htitles]
        exact List.mem_cons_of_mem _ hmem

/-- A title that is not among them is a new sample at the front, and what exceeds the cap goes. -/
theorem Samples.insert (h : Samples max sightings samples) (hmax : 0 < max) {title : String}
    (hnew : title ∉ samples.map TitleSample.title) (ho : sightedTitle o = some title) :
    Samples max (o :: sightings) ((⟨title, o.now, o.now, 1⟩ :: samples).take max) := by
  have hrecent : title ∉ recent max (sightings.filterMap sightedTitle) := h.titles ▸ hnew
  have htitles : ((⟨title, o.now, o.now, 1⟩ :: samples).take max).map TitleSample.title =
      recent max ((o :: sightings).filterMap sightedTitle) := by
    rw [List.filterMap_cons_some ho, recent_cons_of_not_mem hmax hrecent, ← h.titles, List.map_take]
    rfl
  constructor
  · exact htitles
  · intro t ht
    have hmem := List.mem_map_of_mem (f := TitleSample.title) ht
    rcases List.mem_cons.mp (List.mem_of_mem_take ht) with rfl | hold
    · exact ⟨[o], sightedSince_single hmax ho hrecent, spans_single o⟩
    · have hne : title ≠ t.title := by
        rintro rfl
        exact hnew (List.mem_map_of_mem hold)
      apply h.spans_other hold
      · simp [ho, hne]
      · exact htitles ▸ hmem

/-- `addSample` keeps the most recent titles. -/
theorem Samples.addSample {a : App} (h : Samples max sightings a.samples) (hmax : 0 < max) (ho : o.title ≠ "") :
    Samples max (o :: sightings) (a.addSample o.title o.now max).samples := by
  have hkey : sightedTitle o = some o.title := by simp [sightedTitle, ho]
  rw [App.addSample]
  cases hfind : a.samples.find? (·.title = o.title) with
  | some s =>
    have htitle : s.title = o.title := by simpa using List.find?_some hfind
    rw [← htitle] at hkey ⊢
    exact h.refresh hmax (List.mem_of_find?_eq_some hfind) hkey
  | none =>
    have hnew : o.title ∉ a.samples.map TitleSample.title := by simpa using hfind
    have hinsert := h.insert hmax hnew hkey
    dsimp only
    split_ifs with hlen
    · exact hinsert
    · rwa [List.take_of_length_le (not_lt.mp hlen)] at hinsert

end AddSample

/-! ### Applications -/

structure App.Tracks (max : ℕ) (key : String) (sightings : List Observation) (app : App) : Prop where
  process : app.process = key
  configurable : app.configurable = isConfigurable key
  spans : Spans sightings app.firstSeen app.lastSeen app.count
  samples : Samples max sightings app.samples

section AddSampleFields
variable (a : App) (title : String) (now : Time) (max : ℕ)

@[simp] theorem App.process_addSample : (a.addSample title now max).process = a.process := by
  rw [addSample]
  split <;> rfl

@[simp] theorem App.configurable_addSample : (a.addSample title now max).configurable = a.configurable := by
  rw [addSample]
  split <;> rfl

@[simp] theorem App.firstSeen_addSample : (a.addSample title now max).firstSeen = a.firstSeen := by
  rw [addSample]
  split <;> rfl

@[simp] theorem App.lastSeen_addSample : (a.addSample title now max).lastSeen = a.lastSeen := by
  rw [addSample]
  split <;> rfl

@[simp] theorem App.count_addSample : (a.addSample title now max).count = a.count := by
  rw [addSample]
  split <;> rfl

end AddSampleFields

/-- One more sighting, of an application that is known or one that is added. -/
theorem App.tracks_sight {max : ℕ} {key : String} {sightings : List Observation} {a : App} {o : Observation}
    (hmax : 0 < max) (hprocess : a.process = key) (hconf : a.configurable = isConfigurable key)
    (hspans : Spans (o :: sightings) a.firstSeen o.now (a.count + 1)) (hsamples : Samples max sightings a.samples) :
    (a.sight o.title o.now max).Tracks max key (o :: sightings) := by
  rw [sight]
  split_ifs with ho
  · exact ⟨by simpa using hprocess, by simpa using hconf, by simpa using hspans, .addSample hsamples hmax ho⟩
  · exact ⟨hprocess, hconf, hspans, hsamples.untitled (not_not.mp ho)⟩

namespace Catalog

/-! ### Eviction -/

section Evict
variable {c : Catalog} {order : MapOrder} {l : List String}

@[simp] theorem maxSamples_evictApps : (c.evictApps order).maxSamples = c.maxSamples := by
  rw [evictApps]
  split_ifs <;> rfl

@[simp] theorem maxApps_evictApps : (c.evictApps order).maxApps = c.maxApps := by
  rw [evictApps]
  split_ifs <;> rfl

@[simp] theorem locked_evictApps : (c.evictApps order).locked = c.locked := by
  rw [evictApps]
  split_ifs <;> rfl

@[simp] theorem lockedSeen_evictApps : (c.evictApps order).lockedSeen = c.lockedSeen := by
  rw [evictApps]
  split_ifs <;> rfl

@[simp] theorem observations_evictApps : (c.evictApps order).observations = c.observations := by
  rw [evictApps]
  split_ifs <;> rfl

/-- The keys by age, when no two were last seen at one time: every visit of the map sorts to it. -/
theorem keys_sorted (hperm : c.apps.keys.Perm l)
    (hlast : l.Pairwise fun a b => (c.lastSeen b).before (c.lastSeen a)) :
    (order.visit c.apps.keys).insertionSort (fun a b => ¬ (c.lastSeen b).before (c.lastSeen a)) = l.reverse := by
  have hle : (fun a b => ¬ (c.lastSeen b).before (c.lastSeen a) = true) =
      fun a b => (c.lastSeen a).nanos ≤ (c.lastSeen b).nanos := by
    ext a b
    simp [Time.before]
  have : Std.Total fun a b => ¬ (c.lastSeen b).before (c.lastSeen a) = true := hle ▸ total_key _
  have : IsTrans String fun a b => ¬ (c.lastSeen b).before (c.lastSeen a) = true := hle ▸ isTrans_key _
  apply insertionSort_eq_of_strict
  · exact (order.perm _).trans (hperm.trans l.reverse_perm.symm)
  · rw [List.pairwise_reverse]
    apply hlast.imp
    intro a b hab
    exact not_not.mpr hab

/-- Eviction leaves the first of the keys, in the order of recency. -/
theorem lookup_evictApps (hperm : c.apps.keys.Perm l)
    (hlast : l.Pairwise fun a b => (c.lastSeen b).before (c.lastSeen a)) (key : String) :
    (c.evictApps order).apps.lookup key = if key ∈ l.take c.maxApps then c.apps.lookup key else none := by
  have hmem : key ∈ l ↔ (c.apps.lookup key).isSome := hperm.mem_iff.symm.trans KeyedTable.mem_keys
  have hnone : key ∉ l → c.apps.lookup key = none := by
    intro h
    simpa using hmem.not.mp h
  rw [evictApps, hperm.length_eq]
  split_ifs with hcap hkey hkey
  · rfl
  · rw [List.take_of_length_le hcap] at hkey
    exact hnone hkey
  · have hnodup : (l.take c.maxApps ++ l.drop c.maxApps).Nodup := by
      rw [List.take_append_drop]
      exact hperm.nodup_iff.mp c.apps.nodup_keys
    have hkept : key ∉ l.drop c.maxApps := fun h => (List.nodup_append.mp hnodup).2.2 key hkey key h rfl
    simp only [keys_sorted hperm hlast, List.take_reverse, Nat.sub_sub_self (not_le.mp hcap).le,
      KeyedTable.lookup_foldl_erase, List.mem_reverse, if_neg hkept]
  · simp only [keys_sorted hperm hlast, List.take_reverse, Nat.sub_sub_self (not_le.mp hcap).le,
      KeyedTable.lookup_foldl_erase, List.mem_reverse, ite_eq_left_iff]
    intro hdrop
    apply hnone
    rw [← List.take_append_drop c.maxApps l, List.mem_append]
    exact not_or.mpr ⟨hkey, hdrop⟩

end Evict

/-! ### Runs -/

structure Refines (lower : Char → Char) (titleCap appCap : ℕ+) (history : List Observation) (c : Catalog) :
    Prop where
  maxSamples : c.maxSamples = titleCap
  maxApps : c.maxApps = appCap
  keys : ∀ key, (c.apps.lookup key).isSome ↔ key ∈ recent appCap (history.filterMap (sightedProcess lower))
  apps : ∀ key app, c.apps.lookup key = some app →
    ∃ sightings, SightedSince appCap (sightedProcess lower) key history sightings ∧
      app.Tracks titleCap key sightings
  observations : c.observations = history.length
  lockedSeen : c.lockedSeen = history.countP fun o => sightedProcess lower o = none
  locked : c.locked = history.head?.any fun o => sightedProcess lower o = none

theorem observe_blank {lower : Char → Char} {o : Observation} (ho : sightedProcess lower o = none) (c : Catalog) :
    c.observe lower o =
      { c with observations := c.observations + 1, locked := true, lockedSeen := c.lockedSeen + 1 } := by
  have hkey : toLower lower (trimSpace o.process) = "" := by simpa [sightedProcess] using ho
  rw [observe, hkey, if_pos rfl]

def record (c : Catalog) (key : String) (o : Observation) : Catalog :=
  { c with
    observations := c.observations + 1
    locked := false
    apps := c.apps.upsert key (c.sighted key o) fun _ => c.sighted key o }

theorem observe_sighted {lower : Char → Char} {o : Observation} {key : String}
    (ho : sightedProcess lower o = some key) (c : Catalog) :
    c.observe lower o = (c.record key o).evictApps o.order := by
  simp only [sightedProcess, ite_eq_iff, reduceCtorEq, and_false, false_or, Option.some.injEq] at ho
  obtain ⟨hne, rfl⟩ := ho
  rw [observe]
  exact if_neg hne

theorem lookup_record (c : Catalog) (key : String) (o : Observation) (j : String) :
    (c.record key o).apps.lookup j = if j = key then some (c.sighted key o) else c.apps.lookup j := by
  rw [record, KeyedTable.lookup_upsert]
  congr 2
  cases c.apps.lookup key <;> rfl

/-- Keys that were each last seen at their latest sighting stand in the order of recency by age. -/
theorem pairwise_lastSeen {lower : Char → Char} {history : List Observation} {c : Catalog} {l : List String}
    (hclock : history.Pairwise fun later earlier => earlier.now.before later.now)
    (hsub : l.Sublist (distinct (history.filterMap (sightedProcess lower))))
    (hlast : ∀ j ∈ l, ∃ x, history.find? (fun o => sightedProcess lower o = some j) = some x ∧
      x.now = c.lastSeen j) :
    l.Pairwise fun a b => (c.lastSeen b).before (c.lastSeen a) := by
  apply ((distinct_pairwise (sightedProcess lower) hclock).sublist hsub).imp_of_mem
  intro a b ha hb hab
  obtain ⟨x, hx, hxa⟩ := hlast a ha
  obtain ⟨y, hy, hyb⟩ := hlast b hb
  rw [← hxa, ← hyb]
  exact hab x y hx hy

namespace Refines
variable {lower : Char → Char} {titleCap appCap : ℕ+} {history : List Observation} {c : Catalog}
  {o : Observation} {key : String}

theorem lastSeen_eq (h : Refines lower titleCap appCap history c) {app : App}
    (happ : c.apps.lookup key = some app) :
    ∃ x, history.find? (fun o => sightedProcess lower o = some key) = some x ∧ x.now = app.lastSeen := by
  obtain ⟨sightings, hsince, htracks⟩ := h.apps key app happ
  have hlast := htracks.spans.last
  rw [hsince.head_eq] at hlast
  exact Option.map_eq_some_iff.mp hlast

theorem observe_blank (h : Refines lower titleCap appCap history c) (ho : sightedProcess lower o = none) :
    Refines lower titleCap appCap (o :: history) (c.observe lower o) := by
  have hhistory : (o :: history).filterMap (sightedProcess lower) = history.filterMap (sightedProcess lower) :=
    List.filterMap_cons_none ho
  rw [Catalog.observe_blank ho]
  constructor
  case maxSamples => exact h.maxSamples
  case maxApps => exact h.maxApps
  case keys =>
    rw [hhistory]
    exact h.keys
  case apps =>
    intro key app happ
    obtain ⟨sightings, hsince, htracks⟩ := h.apps key app happ
    have hmem : key ∈ recent appCap ((o :: history).filterMap (sightedProcess lower)) := by
      rw [hhistory, ← h.keys]
      exact Option.isSome_of_mem happ
    exact ⟨sightings, hsince.other (by simp [ho]) hmem, htracks⟩
  case observations => exact congrArg (· + 1) h.observations
  case lockedSeen =>
    rw [List.countP_cons_of_pos (by simp [ho]), ← h.lockedSeen]
  case locked => simp [ho]

section Sighted
variable (h : Refines lower titleCap appCap history c) (ho : sightedProcess lower o = some key)
include h ho

theorem tracks_sighted :
    ∃ sightings, SightedSince appCap (sightedProcess lower) key (o :: history) sightings ∧
      (c.sighted key o).Tracks titleCap key sightings := by
  rw [Catalog.sighted, h.maxSamples]
  cases happ : c.apps.lookup key with
  | some app =>
    obtain ⟨sightings, hsince, htracks⟩ := h.apps key app happ
    exact ⟨o :: sightings, hsince.again appCap.pos ho, App.tracks_sight titleCap.pos htracks.process
      htracks.configurable (htracks.spans.cons o) htracks.samples⟩
  | none =>
    have hnew : key ∉ recent appCap (history.filterMap (sightedProcess lower)) := by
      rw [← h.keys, happ]
      simp
    exact ⟨[o], sightedSince_single appCap.pos ho hnew, App.tracks_sight titleCap.pos rfl rfl (spans_single o)
      (.nil _)⟩

omit ho in
/-- The keys before the eviction, in the order of recency. -/
theorem record_keys_perm :
    (c.record key o).apps.keys.Perm
      (key :: (recent appCap (history.filterMap (sightedProcess lower))).erase key) := by
  have hnodup := nodup_recent appCap (history.filterMap (sightedProcess lower))
  rw [List.perm_ext_iff_of_nodup (KeyedTable.nodup_keys _)
    (List.nodup_cons.mpr ⟨hnodup.not_mem_erase, hnodup.erase key⟩)]
  intro j
  rw [KeyedTable.mem_keys, lookup_record]
  by_cases hj : j = key
  · simp [hj]
  · simp [hj, h.keys, List.mem_erase_of_ne]

theorem lastSeen_record {j : String} (hj : ((c.record key o).apps.lookup j).isSome) :
    ∃ x, (o :: history).find? (fun e => sightedProcess lower e = some j) = some x ∧
      x.now = (c.record key o).lastSeen j := by
  rw [Catalog.lastSeen]
  rw [lookup_record] at hj ⊢
  by_cases hjk : j = key
  · obtain ⟨sightings, hsince, htracks⟩ := h.tracks_sighted ho
    have hlast := htracks.spans.last
    rw [hsince.head_eq] at hlast
    rw [if_pos hjk, hjk]
    exact Option.map_eq_some_iff.mp hlast
  · rw [if_neg hjk] at hj ⊢
    obtain ⟨app, happ⟩ := Option.isSome_iff_exists.mp hj
    obtain ⟨x, hx, hnow⟩ := h.lastSeen_eq happ
    exact ⟨x, by simpa [ho, Ne.symm hjk] using hx, by simp [happ, hnow]⟩

theorem record_pairwise (hclock : (o :: history).Pairwise fun later earlier => earlier.now.before later.now) :
    (key :: (recent appCap (history.filterMap (sightedProcess lower))).erase key).Pairwise fun a b =>
      ((c.record key o).lastSeen b).before ((c.record key o).lastSeen a) := by
  apply pairwise_lastSeen hclock
  · rw [List.filterMap_cons_some ho]
    exact ((List.take_sublist _ _).erase key).cons_cons key
  · intro j hj
    rw [← h.record_keys_perm.mem_iff, KeyedTable.mem_keys] at hj
    exact h.lastSeen_record ho hj

theorem observe_sighted (hclock : (o :: history).Pairwise fun later earlier => earlier.now.before later.now) :
    Refines lower titleCap appCap (o :: history) (c.observe lower o) := by
  have hhistory : (o :: history).filterMap (sightedProcess lower) =
      key :: history.filterMap (sightedProcess lower) := List.filterMap_cons_some ho
  have hlookup : ∀ j, ((c.record key o).evictApps o.order).apps.lookup j =
      if j ∈ recent appCap ((o :: history).filterMap (sightedProcess lower)) then
        (c.record key o).apps.lookup j
      else none := by
    intro j
    have hcap : (c.record key o).maxApps = appCap := h.maxApps
    rw [lookup_evictApps h.record_keys_perm (h.record_pairwise ho hclock), hcap, hhistory, recent_cons appCap.pos]
  rw [Catalog.observe_sighted ho]
  constructor
  case maxSamples => exact maxSamples_evictApps.trans h.maxSamples
  case maxApps => exact maxApps_evictApps.trans h.maxApps
  case keys =>
    intro j
    rw [hlookup]
    split_ifs with hj
    · have hmem : j ∈ (c.record key o).apps.keys := by
        rw [h.record_keys_perm.mem_iff]
        rw [hhistory, recent_cons appCap.pos] at hj
        exact List.mem_of_mem_take hj
      simp [hj, KeyedTable.mem_keys.mp hmem]
    · simp [hj]
  case apps =>
    intro j app happ
    rw [hlookup, Option.ite_none_right_eq_some] at happ
    obtain ⟨hj, happ⟩ := happ
    rw [lookup_record] at happ
    by_cases hjk : j = key
    · rw [if_pos hjk, Option.some.injEq] at happ
      rw [hjk, ← happ]
      exact h.tracks_sighted ho
    · rw [if_neg hjk] at happ
      obtain ⟨sightings, hsince, htracks⟩ := h.apps j app happ
      exact ⟨sightings, hsince.other (by simp [ho, Ne.symm hjk]) hj, htracks⟩
  case observations => exact observations_evictApps.trans (congrArg (· + 1) h.observations)
  case lockedSeen =>
    rw [lockedSeen_evictApps, List.countP_cons_of_neg (by simp [ho]), ← h.lockedSeen]
    rfl
  case locked =>
    rw [locked_evictApps]
    simp [record, ho]

end Sighted

/-- One observation. -/
theorem observe (h : Refines lower titleCap appCap history c)
    (hclock : (o :: history).Pairwise fun later earlier => earlier.now.before later.now) :
    Refines lower titleCap appCap (o :: history) (c.observe lower o) := by
  cases ho : sightedProcess lower o with
  | none => exact h.observe_blank ho
  | some key => exact h.observe_sighted ho hclock

end Refines

@[simp] theorem capOr_cap (default cap : ℕ+) : capOr default cap = cap := by
  rw [capOr, dif_pos (by exact_mod_cast cap.pos)]
  apply PNat.eq
  simp only [Int.toNat_natCast]
  rfl

theorem refines_run (lower : Char → Char) (titleCap appCap : ℕ+) {calls : List Observation}
    (hclock : calls.Pairwise fun earlier later => earlier.now.before later.now) :
    Refines lower titleCap appCap calls.reverse ((newCatalog ⟨titleCap, appCap⟩).run lower calls) := by
  induction calls using List.reverseRecOn with
  | nil =>
    constructor
    case maxSamples => exact capOr_cap _ _
    case maxApps => exact capOr_cap _ _
    case keys => simp [run, newCatalog, recent, distinct]
    case apps => simp [run, newCatalog]
    all_goals rfl
  | append_singleton calls o ih =>
    rw [run, List.foldl_concat, List.reverse_concat]
    apply (ih (hclock.sublist (List.sublist_append_left calls [o]))).observe
    rwa [← List.reverse_concat, List.pairwise_reverse]

/-! ### Snapshots -/

section Snapshot
variable {lower : Char → Char} {titleCap appCap : ℕ+} {history : List Observation} {c : Catalog}

theorem Refines.pairwise (h : Refines lower titleCap appCap history c)
    (hclock : history.Pairwise fun later earlier => earlier.now.before later.now) :
    (recent appCap (history.filterMap (sightedProcess lower))).Pairwise fun a b =>
      (c.lastSeen b).before (c.lastSeen a) := by
  apply pairwise_lastSeen hclock (List.take_sublist _ _)
  intro j hj
  obtain ⟨app, happ⟩ := Option.isSome_iff_exists.mp ((h.keys j).mpr hj)
  obtain ⟨x, hx, hnow⟩ := h.lastSeen_eq happ
  exact ⟨x, hx, by simp [lastSeen, happ, hnow]⟩

theorem Refines.pairwise_listed (h : Refines lower titleCap appCap history c)
    (hclock : history.Pairwise fun later earlier => earlier.now.before later.now) :
    ((recent appCap (history.filterMap (sightedProcess lower))).filterMap c.apps.lookup).Pairwise fun a b =>
      b.lastSeen.before a.lastSeen := by
  apply (h.pairwise hclock).filterMap
  intro p q hpq a ha b hb
  simpa [lastSeen, ha, hb] using hpq

theorem not_listedBefore {a b : App} :
    ¬ listedBefore b a ↔
      b.lastSeen.nanos < a.lastSeen.nanos ∨ a.lastSeen.nanos = b.lastSeen.nanos ∧ a.process ≤ b.process := by
  rw [listedBefore]
  split_ifs with htie
  · simp only [decide_eq_true_eq, not_lt, htie, lt_irrefl, false_or, true_and]
  · simp only [Time.after, decide_eq_true_eq]
    omega

theorem listedBefore_eq : (fun a b : App => ¬ listedBefore b a = true) = fun a b =>
    b.lastSeen.nanos < a.lastSeen.nanos ∨ a.lastSeen.nanos = b.lastSeen.nanos ∧ a.process ≤ b.process := by
  ext a b
  exact not_listedBefore

instance : Std.Total fun a b : App => ¬ listedBefore b a = true := by
  rw [listedBefore_eq]
  exact total_rank (fun a : App => a.lastSeen.nanos) App.process

instance : IsTrans App fun a b : App => ¬ listedBefore b a = true := by
  rw [listedBefore_eq]
  exact isTrans_rank (fun a : App => a.lastSeen.nanos) App.process

theorem Refines.apps_snapshot (h : Refines lower titleCap appCap history c)
    (hclock : history.Pairwise fun later earlier => earlier.now.before later.now) (order : MapOrder) :
    (c.snapshot order).apps =
      (recent appCap (history.filterMap (sightedProcess lower))).filterMap c.apps.lookup := by
  have hperm : c.apps.keys.Perm (recent appCap (history.filterMap (sightedProcess lower))) := by
    rw [List.perm_ext_iff_of_nodup c.apps.nodup_keys (nodup_recent _ _)]
    intro key
    rw [KeyedTable.mem_keys, h.keys]
  rw [snapshot]
  apply insertionSort_eq_of_strict
  · exact ((order.perm _).trans hperm).filterMap _
  · apply (h.pairwise_listed hclock).imp
    intro a b hlast
    rw [not_listedBefore]
    simp only [Time.before, decide_eq_true_eq] at hlast
    omega

theorem Refines.held (h : Refines lower titleCap appCap history c)
    (hclock : history.Pairwise fun later earlier => earlier.now.before later.now)
    {key : String} {app : App} (happ : c.apps.lookup key = some app) :
    app.process = key ∧
    ∃ sightings, SightedSince appCap (sightedProcess lower) key history sightings ∧
      app.count = sightings.length ∧ app.firstSeen.nanos ≤ app.lastSeen.nanos ∧
      app.samples.map TitleSample.title = recent titleCap (sightings.filterMap sightedTitle) ∧
      (app.samples.map TitleSample.title).Nodup ∧
      ∀ s ∈ app.samples, ∃ seen, SightedSince titleCap sightedTitle s.title sightings seen ∧
        s.count = seen.length ∧ s.firstSeen.nanos ≤ s.lastSeen.nanos := by
  obtain ⟨sightings, hsince, htracks⟩ := h.apps key app happ
  have hsightings := hclock.sublist hsince.sublist
  refine ⟨htracks.process, sightings, hsince, htracks.spans.count, htracks.spans.first_le_last hsightings,
    htracks.samples.titles, htracks.samples.nodup_titles, ?_⟩
  intro s hs
  obtain ⟨seen, hseen, hspans⟩ := htracks.samples.spans s hs
  exact ⟨seen, hseen, hspans.count, hspans.first_le_last (hsightings.sublist hseen.sublist)⟩

/-- The keys and the rows of the catalog in one order. -/
theorem Refines.map_process (h : Refines lower titleCap appCap history c) {l : List String}
    (hl : ∀ key ∈ l, (c.apps.lookup key).isSome) :
    (l.filterMap c.apps.lookup).map App.process = l := by
  induction l with
  | nil => rfl
  | cons key l ih =>
    obtain ⟨app, happ⟩ := Option.isSome_iff_exists.mp (hl key List.mem_cons_self)
    obtain ⟨sightings, -, htracks⟩ := h.apps key app happ
    rw [List.filterMap_cons_some happ, List.map_cons, htracks.process,
      ih fun k hk => hl k (List.mem_cons_of_mem key hk)]

theorem latest_mem {o : Observation} {key : String} (ho : history.head? = some o)
    (hkey : sightedProcess lower o = some key) :
    key ∈ recent appCap (history.filterMap (sightedProcess lower)) := by
  obtain ⟨rest, rfl⟩ := List.head?_eq_some_iff.mp ho
  rw [List.filterMap_cons_some hkey]
  exact mem_recent_cons_self appCap.pos key _

end Snapshot

theorem sightedProcess_eq_none {lower : Char → Char} {o : Observation} :
    sightedProcess lower o = none ↔ trimSpace o.process = "" := by
  simp [sightedProcess, toLower, String.ofList_eq_empty_iff]

/-- The catalog is a bounded record of what was seen most recently: it holds the `appCap` most recent
processes, in the snapshot with the latest first, and each with its `titleCap` most recent titles since it came
in. The counts are those of the sightings since. -/
theorem run_recency (lower : Char → Char) (titleCap appCap : ℕ+) (calls : List Observation)
    (hclock : calls.Pairwise fun earlier later => earlier.now.before later.now) (order : MapOrder) :
    let c := (newCatalog ⟨titleCap, appCap⟩).run lower calls
    let processes := recent appCap (calls.reverse.filterMap (sightedProcess lower))
    (∀ key, (c.apps.lookup key).isSome ↔ key ∈ processes) ∧
    (∀ o ∈ calls.getLast?, ∀ key ∈ sightedProcess lower o, key ∈ processes) ∧
    (∀ key app, c.apps.lookup key = some app →
      app.process = key ∧
      ∃ sightings, SightedSince appCap (sightedProcess lower) key calls.reverse sightings ∧
        app.count = sightings.length ∧ app.firstSeen.nanos ≤ app.lastSeen.nanos ∧
        app.samples.map TitleSample.title = recent titleCap (sightings.filterMap sightedTitle) ∧
        (app.samples.map TitleSample.title).Nodup ∧
        ∀ s ∈ app.samples, ∃ seen, SightedSince titleCap sightedTitle s.title sightings seen ∧
          s.count = seen.length ∧ s.firstSeen.nanos ≤ s.lastSeen.nanos) ∧
    c.observations = calls.length ∧
    c.lockedSeen = calls.countP (fun o => trimSpace o.process = "") ∧
    c.locked = calls.getLast?.any (fun o => trimSpace o.process = "") ∧
    (c.snapshot order).apps = processes.filterMap c.apps.lookup ∧
    (c.snapshot order).apps.map App.process = processes ∧
    (c.snapshot order).apps.Pairwise fun a b => b.lastSeen.before a.lastSeen := by
  intro c processes
  have h : Refines lower titleCap appCap calls.reverse c := refines_run lower titleCap appCap hclock
  have hhistory : calls.reverse.Pairwise fun later earlier => earlier.now.before later.now :=
    List.pairwise_reverse.mpr hclock
  have hlisted := h.apps_snapshot hhistory order
  refine ⟨h.keys, ?_, fun key app => h.held hhistory, ?_, ?_, ?_, hlisted, ?_, ?_⟩
  · intro o ho key hkey
    rw [← List.head?_reverse] at ho
    exact latest_mem ho hkey
  · rw [h.observations, List.length_reverse]
  · simp [h.lockedSeen, sightedProcess_eq_none]
  · simp [h.locked, sightedProcess_eq_none]
  · rw [hlisted]
    exact h.map_process fun key hkey => (h.keys key).mpr hkey
  · rw [hlisted]
    exact h.pairwise_listed hhistory

def threeWindows : List Observation :=
  [⟨"old.exe", "t", ⟨1, 0⟩, ⟨id, List.Perm.refl⟩⟩, ⟨"mid.exe", "t", ⟨2, 0⟩, ⟨id, List.Perm.refl⟩⟩,
    ⟨" New.exe", "t", ⟨3, 0⟩, ⟨id, List.Perm.refl⟩⟩]

theorem run_recency_threeWindows :
    (((newCatalog ⟨(20 : ℕ+), (2 : ℕ+)⟩).run Char.toLower threeWindows).snapshot
      ⟨id, List.Perm.refl⟩).apps.map App.process = ["new.exe", "mid.exe"] := by
  have hclock : threeWindows.Pairwise fun earlier later => earlier.now.before later.now := by decide
  obtain ⟨-, -, -, -, -, -, -, hprocesses, -⟩ :=
    run_recency Char.toLower 20 2 threeWindows hclock ⟨id, List.Perm.refl⟩
  rw [hprocesses]
  decide +kernel

end Catalog

end CyberstalkMe.Setup
