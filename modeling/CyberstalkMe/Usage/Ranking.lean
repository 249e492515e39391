import CyberstalkMe.Usage.Aggregate
import CyberstalkMe.Foundations.Grouping
import CyberstalkMe.Foundations.Sorting
import Mathlib.Algebra.Order.BigOperators.Group.List

/-! # Sums and rankings of rows

What the tables of `aggregate` hold of a list of rows, and what is read from them.
-/
namespace CyberstalkMe.Usage

open Shared Foundations KeyedTable

def secondsOf (rows : List Row) : ℤ := (rows.map Row.seconds).sum

def activeRows (rows : List Row) : List Row := rows.filter (·.state = .active)

def appRows (rows : List Row) (app : String) : List Row := rows.filter (·.app = app)

/-- The app with the most of the rows' seconds; ties go to the first name. -/
def IsTop (rows : List Row) (top : String) : Prop :=
  top ∈ rows.map Row.app ∧ ∀ app ∈ rows.map Row.app,
    secondsOf (appRows rows app) < secondsOf (appRows rows top) ∨
      secondsOf (appRows rows app) = secondsOf (appRows rows top) ∧ top ≤ app

theorem secondsOf_pos {rows : List Row} (hpos : ∀ r ∈ rows, 0 < r.seconds) (hne : rows ≠ []) :
    0 < secondsOf rows := by
  apply List.sum_pos
  · simpa using hpos
  · simpa using hne

/-! ### The top of a slot -/

theorem lookup_addByApp (rows : List Row) (app : String) :
    (addByApp rows).lookup app =
      if app ∈ rows.map Row.app then some (secondsOf (appRows rows app)) else none :=
  lookup_sumBy Row.app Row.seconds rows app

/-- The loop over the sorted apps finds the total, and the first of the largest if it exceeds `best`. -/
theorem sumAndTopLoop_spec {l : List (String × ℤ)} (hsorted : l.Pairwise fun a b => a.1 ≤ b.1) (total best : ℤ)
    (top : String) :
    (sumAndTopLoop total best top l).1 = total + (l.map Prod.snd).sum ∧
      ((∀ x ∈ l, x.2 ≤ best) ∧ (sumAndTopLoop total best top l).2 = top ∨
        ∃ x ∈ l, (sumAndTopLoop total best top l).2 = x.1 ∧ best < x.2 ∧
          ∀ y ∈ l, y.2 < x.2 ∨ y.2 = x.2 ∧ x.1 ≤ y.1) := by
  induction l generalizing total best top with
  | nil => simp [sumAndTopLoop]
  | cons a l ih =>
    obtain ⟨hhead, htail⟩ := List.pairwise_cons.mp hsorted
    rw [sumAndTopLoop]
    split_ifs with hbest
    · obtain ⟨htotal, h⟩ := ih htail (total + a.2) a.2 a.1
      refine ⟨by rw [htotal, List.map_cons, List.sum_cons, add_assoc], .inr ?_⟩
      rcases h with ⟨hle, htop⟩ | ⟨x, hx, htop, hlt, hmax⟩
      · refine ⟨a, List.mem_cons_self, htop, hbest, ?_⟩
        intro y hy
        rcases List.mem_cons.mp hy with rfl | hy
        · exact .inr ⟨rfl, le_rfl⟩
        · exact (hle y hy).lt_or_eq.imp_right fun heq => ⟨heq, hhead y hy⟩
      · refine ⟨x, List.mem_cons_of_mem a hx, htop, hbest.trans hlt, ?_⟩
        intro y hy
        rcases List.mem_cons.mp hy with rfl | hy
        · exact .inl hlt
        · exact hmax y hy
    · obtain ⟨htotal, h⟩ := ih htail (total + a.2) best top
      refine ⟨by rw [htotal, List.map_cons, List.sum_cons, add_assoc], ?_⟩
      rcases h with ⟨hle, htop⟩ | ⟨x, hx, htop, hlt, hmax⟩
      · exact .inl ⟨List.forall_mem_cons.mpr ⟨not_lt.mp hbest, hle⟩, htop⟩
      · refine .inr ⟨x, List.mem_cons_of_mem a hx, htop, hlt, ?_⟩
        intro y hy
        rcases List.mem_cons.mp hy with rfl | hy
        · exact .inl ((not_lt.mp hbest).trans_lt hlt)
        · exact hmax y hy

section SumAndTop
variable {byApp : KeyedTable String ℤ}

theorem sumAndTop_congr {byApp' : KeyedTable String ℤ} (h : ∀ app, byApp.lookup app = byApp'.lookup app) :
    sumAndTop byApp = sumAndTop byApp' := by
  have hsort := key_congr Prod.fst (rows_perm h) byApp.nodup
  rw [sumAndTop, hsort, ← sumAndTop]

theorem sumAndTopLoop_rows (byApp : KeyedTable String ℤ) :
    let r := sumAndTopLoop 0 (-1) "" (byApp.rows.insertionSort fun a b => a.1 ≤ b.1)
    r.1 = (byApp.rows.map Prod.snd).sum ∧
      ((∀ x ∈ byApp.rows, x.2 ≤ -1) ∧ r.2 = "" ∨
        ∃ x ∈ byApp.rows, r.2 = x.1 ∧ -1 < x.2 ∧ ∀ y ∈ byApp.rows, y.2 < x.2 ∨ y.2 = x.2 ∧ x.1 ≤ y.1) := by
  have hperm := List.perm_insertionSort (fun a b : String × ℤ => a.1 ≤ b.1) byApp.rows
  obtain ⟨htotal, htop⟩ := sumAndTopLoop_spec (pairwise_key Prod.fst byApp.rows) 0 (-1) ""
  rw [zero_add, (hperm.map Prod.snd).sum_eq] at htotal
  simp only [hperm.mem_iff] at htop
  exact ⟨htotal, htop⟩

theorem sumAndTop_fst (byApp : KeyedTable String ℤ) : (sumAndTop byApp).1 = (byApp.rows.map Prod.snd).sum := by
  have htotal := (sumAndTopLoop_rows byApp).1
  rw [sumAndTop]
  split_ifs with hzero
  · rw [← htotal, hzero]
  · exact htotal

/-- Of positive values the top is the first of the largest. -/
theorem sumAndTop_snd (hpos : ∀ x ∈ byApp.rows, 0 < x.2) :
    (byApp.rows = [] → (sumAndTop byApp).2 = "") ∧
      (byApp.rows ≠ [] → ∃ x ∈ byApp.rows, (sumAndTop byApp).2 = x.1 ∧
        ∀ y ∈ byApp.rows, y.2 < x.2 ∨ y.2 = x.2 ∧ x.1 ≤ y.1) := by
  obtain ⟨htotal, htop⟩ := sumAndTopLoop_rows byApp
  rw [sumAndTop]
  constructor
  · intro hempty
    simp [hempty, sumAndTopLoop]
  · intro hne
    have hsum : 0 < (byApp.rows.map Prod.snd).sum :=
      List.sum_pos _ (List.forall_mem_map.mpr hpos) (by simpa using hne)
    rw [if_neg (by omega)]
    rcases htop with ⟨hle, -⟩ | ⟨x, hx, htop, -, hmax⟩
    · obtain ⟨x, hx⟩ := List.exists_mem_of_ne_nil _ hne
      have h := hle x hx
      have h' := hpos x hx
      omega
    · exact ⟨x, hx, htop, hmax⟩

end SumAndTop

theorem mem_addByApp {rows : List Row} {x : String × ℤ} :
    x ∈ (addByApp rows).rows ↔ x.1 ∈ rows.map Row.app ∧ x.2 = secondsOf (appRows rows x.1) := by
  rw [← lookup_eq_some (k := x.1), lookup_addByApp, Option.ite_none_right_eq_some, Option.some.injEq, eq_comm]

theorem appRows_ne_nil {rows : List Row} {app : String} (h : app ∈ rows.map Row.app) : appRows rows app ≠ [] := by
  obtain ⟨r, hr, rfl⟩ := List.mem_map.mp h
  exact List.ne_nil_of_mem (List.mem_filter.mpr ⟨hr, by simp⟩)

theorem sumAndTop_addByApp_fst (rows : List Row) : (sumAndTop (addByApp rows)).1 = secondsOf rows :=
  (sumAndTop_fst _).trans (sum_rows_sumBy _ _ rows)

theorem sumAndTop_addByApp_snd {rows : List Row} (hpos : ∀ r ∈ rows, 0 < r.seconds) :
    (rows = [] → (sumAndTop (addByApp rows)).2 = "") ∧
      (rows ≠ [] → IsTop rows (sumAndTop (addByApp rows)).2) := by
  have hvalues : ∀ x ∈ (addByApp rows).rows, 0 < x.2 := by
    intro x hx
    obtain ⟨happ, hx⟩ := mem_addByApp.mp hx
    rw [hx]
    exact secondsOf_pos (fun r hr => hpos r (List.mem_filter.mp hr).1) (appRows_ne_nil happ)
  obtain ⟨hempty, htop⟩ := sumAndTop_snd hvalues
  constructor
  · rintro rfl
    exact hempty rfl
  · intro hne
    obtain ⟨r, hr⟩ := List.exists_mem_of_ne_nil _ hne
    have hrow : (r.app, secondsOf (appRows rows r.app)) ∈ (addByApp rows).rows :=
      mem_addByApp.mpr ⟨List.mem_map_of_mem hr, rfl⟩
    obtain ⟨x, hx, hname, hmax⟩ := htop (List.ne_nil_of_mem hrow)
    obtain ⟨happ, hseconds⟩ := mem_addByApp.mp hx
    rw [hname]
    refine ⟨happ, ?_⟩
    intro app hin
    rw [← hseconds]
    exact hmax (app, secondsOf (appRows rows app)) (mem_addByApp.mpr ⟨hin, rfl⟩)

/-! ### The ranking of the apps -/

def appUsage (app : String) (byDesc : KeyedTable String ℤ) : AppUsage where
  app := app
  seconds := (byDesc.rows.map Prod.snd).sum
  activities := .of ((byDesc.rows.map fun r => (⟨r.1, r.2⟩ : ActivityUsage)).insertionSort fun a b =>
    b.seconds < a.seconds ∨ (a.seconds = b.seconds ∧ a.description ≤ b.description))

theorem rankApps_eq (perApp : KeyedTable String (KeyedTable String ℤ)) :
    rankApps perApp = ((perApp.mapValues appUsage).rows.map Prod.snd).insertionSort fun a b =>
      b.seconds < a.seconds ∨ (a.seconds = b.seconds ∧ a.app ≤ b.app) := by
  rw [mapValues, List.map_map]
  rfl

theorem appUsage_congr (app : String) {byDesc byDesc' : KeyedTable String ℤ}
    (h : ∀ d, byDesc.lookup d = byDesc'.lookup d) : appUsage app byDesc = appUsage app byDesc' := by
  have hperm := rows_perm h
  have hnodup : ((byDesc.rows.map fun r => (⟨r.1, r.2⟩ : ActivityUsage)).map ActivityUsage.description).Nodup := by
    rw [List.map_map]
    exact byDesc.nodup
  rw [appUsage, (hperm.map Prod.snd).sum_eq,
    rank_congr ActivityUsage.seconds ActivityUsage.description (hperm.map _) hnodup, ← appUsage]

theorem nodup_apps (perApp : KeyedTable String (KeyedTable String ℤ)) :
    (((perApp.mapValues appUsage).rows.map Prod.snd).map AppUsage.app).Nodup := by
  rw [mapValues, List.map_map, List.map_map]
  exact perApp.nodup

theorem rankApps_congr {perApp perApp' : KeyedTable String (KeyedTable String ℤ)}
    (h : ∀ app, (perApp.lookup app).map (appUsage app) = (perApp'.lookup app).map (appUsage app)) :
    rankApps perApp = rankApps perApp' := by
  have hperm : (perApp.mapValues appUsage).rows.Perm (perApp'.mapValues appUsage).rows := by
    apply rows_perm
    intro app
    rw [lookup_mapValues, lookup_mapValues, h]
  rw [rankApps_eq, rankApps_eq]
  exact rank_congr AppUsage.seconds AppUsage.app (hperm.map Prod.snd) (nodup_apps perApp)

/-- The maps are visited in any order and the sorts are not stable: the entries of the apps in any order without
an inversion are the ranking. -/
theorem rankApps_unique {perApp : KeyedTable String (KeyedTable String ℤ)} {apps : List AppUsage}
    (hperm : apps.Perm ((perApp.mapValues appUsage).rows.map Prod.snd))
    (hsorted : apps.Pairwise fun a b => ¬ (a.seconds < b.seconds ∨ a.seconds = b.seconds ∧ b.app < a.app)) :
    apps = rankApps perApp := by
  rw [rankApps_eq]
  exact eq_rank_of_sorted AppUsage.seconds AppUsage.app hperm (nodup_apps perApp) hsorted

theorem activities_unique {app : String} {byDesc : KeyedTable String ℤ} {activities : List ActivityUsage}
    (hperm : activities.Perm (byDesc.rows.map fun r => ⟨r.1, r.2⟩))
    (hsorted : activities.Pairwise fun a b =>
      ¬ (a.seconds < b.seconds ∨ a.seconds = b.seconds ∧ b.description < a.description)) :
    Slice.of activities = (appUsage app byDesc).activities := by
  apply congrArg Slice.of
  apply eq_rank_of_sorted ActivityUsage.seconds ActivityUsage.description hperm _ hsorted
  rw [List.map_map]
  exact byDesc.nodup

theorem perApp_eq (rows : List Row) :
    perApp rows = (activeRows rows).foldl (fun m r =>
      m.upsert r.app (upsert .empty r.description r.seconds (· + r.seconds)) fun byDesc =>
        byDesc.upsert r.description r.seconds (· + r.seconds)) .empty := by
  simp [perApp, activeRows, List.foldl_filter]

theorem lookup_perApp (rows : List Row) (app : String) :
    (perApp rows).lookup app =
      if app ∈ (activeRows rows).map Row.app then
        some (sumBy Row.description Row.seconds (appRows (activeRows rows) app))
      else none := by
  rw [perApp_eq]
  exact lookup_foldl_upsert Row.app (.empty : KeyedTable String ℤ) _
    (fun r byDesc => byDesc.upsert r.description r.seconds (· + r.seconds)) (fun r => rfl) (activeRows rows) app

/-! ### What a ranking lists -/

section Ranks
variable {α : Type} (name : α → String) (score : α → ℤ) (key : Row → String) (rows : List Row)

/-- The list has every key of the rows once, with the seconds of its rows, the largest first and ties by
name. -/
structure Ranks (l : List α) : Prop where
  nodup : (l.map name).Nodup
  mem_iff : ∀ k, k ∈ l.map name ↔ k ∈ rows.map key
  seconds : ∀ x ∈ l, score x = secondsOf (rows.filter (key · = name x))
  sum : (l.map score).sum = secondsOf rows
  ordered : l.Pairwise fun a b => score b < score a ∨ score a = score b ∧ name a < name b

variable {name score key rows} [DecidableRel fun a b => score b < score a ∨ score a = score b ∧ name a ≤ name b]

theorem ranks_insertionSort {l : List α}
    (h : (l.map fun x => (name x, score x)).Perm (sumBy key Row.seconds rows).rows) :
    Ranks name score key rows
      (l.insertionSort fun a b => score b < score a ∨ score a = score b ∧ name a ≤ name b) := by
  have hsort := List.perm_insertionSort (fun a b => score b < score a ∨ score a = score b ∧ name a ≤ name b) l
  have hname : (l.map name).Perm (sumBy key Row.seconds rows).keys := by
    have := h.map Prod.fst
    rwa [List.map_map] at this
  have hscore : (l.map score).Perm ((sumBy key Row.seconds rows).rows.map Prod.snd) := by
    have := h.map Prod.snd
    rwa [List.map_map] at this
  have hnodup : (l.map name).Nodup := hname.nodup_iff.mpr (nodup_keys _)
  constructor
  · exact (hsort.map name).nodup_iff.mpr hnodup
  · intro k
    rw [(hsort.map name).mem_iff, hname.mem_iff, mem_keys, lookup_sumBy]
    simp
  · intro x hx
    have hrow := h.subset (List.mem_map_of_mem (hsort.subset hx))
    rw [← lookup_eq_some, lookup_sumBy, Option.ite_none_right_eq_some, Option.some.injEq] at hrow
    exact hrow.2.symm
  · rw [(hsort.map score).sum_eq, hscore.sum_eq]
    exact sum_rows_sumBy key Row.seconds rows
  · exact pairwise_rank score name hnodup

end Ranks

theorem ranks_appUsage (app : String) (rows : List Row) :
    ∃ activities, (appUsage app (sumBy Row.description Row.seconds rows)).activities = .of activities ∧
      Ranks ActivityUsage.description ActivityUsage.seconds Row.description rows activities := by
  refine ⟨_, rfl, ranks_insertionSort ?_⟩
  rw [List.map_map]
  exact .of_eq (List.map_id _)

theorem ranks_rankApps (rows : List Row) :
    Ranks AppUsage.app AppUsage.seconds Row.app (activeRows rows) (rankApps (perApp rows)) := by
  rw [rankApps_eq]
  apply ranks_insertionSort
  have hperm : ((perApp rows).mapValues fun _ byDesc => (byDesc.rows.map Prod.snd).sum).rows.Perm
      (sumBy Row.app Row.seconds (activeRows rows)).rows := by
    apply rows_perm
    intro app
    rw [lookup_mapValues, lookup_perApp, lookup_sumBy]
    split_ifs
    · rw [Option.map_some, sum_rows_sumBy]
      rfl
    · rfl
  rw [mapValues, List.map_map, List.map_map]
  exact hperm

theorem mem_rankApps {rows : List Row} {x : AppUsage} (hx : x ∈ rankApps (perApp rows)) :
    x = appUsage x.app (sumBy Row.description Row.seconds (appRows (activeRows rows) x.app)) := by
  rw [rankApps_eq, List.mem_insertionSort, List.mem_map] at hx
  obtain ⟨r, hr, rfl⟩ := hx
  rw [← lookup_eq_some (k := r.1), lookup_mapValues, Option.map_eq_some_iff] at hr
  obtain ⟨byDesc, hbyDesc, hr⟩ := hr
  rw [lookup_perApp, Option.ite_none_right_eq_some, Option.some.injEq] at hbyDesc
  rw [← hr, ← hbyDesc.2]
  rfl

end CyberstalkMe.Usage
