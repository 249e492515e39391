import Mathlib.Data.List.Nodup
import Mathlib.Algebra.BigOperators.Group.List.Basic
import Mathlib.Tactic.Ring
import Mathlib.Algebra.Ring.Int.Defs

/-! # Tables with a primary key

The rows stand in insertion order, as a full scan returns them, and no key
occurs twice. The writes are the SQL upsert, where a row with the key is updated
in place and a missing one is appended, and the removal of a key.
-/
namespace CyberstalkMe.Foundations

structure KeyedTable (κ ρ : Type*) where
  rows : List (κ × ρ)
  nodup : (rows.map Prod.fst).Nodup

namespace KeyedTable

variable {κ ρ : Type*}

@[ext] theorem ext {t u : KeyedTable κ ρ} (h : t.rows = u.rows) : t = u := by
  cases t
  cases u
  cases h
  rfl

def empty : KeyedTable κ ρ := ⟨[], List.nodup_nil⟩

variable [DecidableEq κ]

def lookupRows (k : κ) : List (κ × ρ) → Option ρ
  | [] => none
  | r :: rest => if r.1 = k then some r.2 else lookupRows k rest

/-- The row stored under a key. -/
def lookup (t : KeyedTable κ ρ) (k : κ) : Option ρ := lookupRows k t.rows

def upsertRows (k : κ) (new : ρ) (update : ρ → ρ) : List (κ × ρ) → List (κ × ρ)
  | [] => [(k, new)]
  | r :: rest => if r.1 = k then (r.1, update r.2) :: rest else r :: upsertRows k new update rest

theorem map_fst_upsertRows (k : κ) (new : ρ) (update : ρ → ρ) (l : List (κ × ρ)) :
    (upsertRows k new update l).map Prod.fst =
      if k ∈ l.map Prod.fst then l.map Prod.fst else l.map Prod.fst ++ [k] := by
  induction l with
  | nil => simp [upsertRows]
  | cons r rest ih =>
    by_cases h : r.1 = k
    · simp [upsertRows, h]
    · have hk : k ≠ r.1 := Ne.symm h
      simp only [upsertRows, h, ite_false, List.map_cons, ih, List.mem_cons, hk, false_or]
      split_ifs <;> rfl

/-- `INSERT ... ON CONFLICT (key) DO UPDATE`. -/
def upsert (t : KeyedTable κ ρ) (k : κ) (new : ρ) (update : ρ → ρ) : KeyedTable κ ρ where
  rows := upsertRows k new update t.rows
  nodup := by
    rw [map_fst_upsertRows]
    split_ifs with h
    · exact t.nodup
    · exact List.nodup_append.mpr ⟨t.nodup, List.nodup_singleton k, by
        rintro a ha b hb rfl
        exact h (List.mem_singleton.mp hb ▸ ha)⟩

@[simp] theorem lookup_empty (k : κ) : (empty : KeyedTable κ ρ).lookup k = none := rfl

theorem lookupRows_eq_some {k : κ} {r : ρ} {l : List (κ × ρ)} (hl : (l.map Prod.fst).Nodup) :
    lookupRows k l = some r ↔ (k, r) ∈ l := by
  induction l with
  | nil => simp [lookupRows]
  | cons x rest ih =>
    obtain ⟨hx, hrest⟩ := List.nodup_cons.mp hl
    by_cases h : x.1 = k
    · have hmem : (k, r) ∉ rest := fun hm => hx (h ▸ List.mem_map_of_mem hm)
      simp [lookupRows, h, hmem, Prod.ext_iff, eq_comm]
    · simp [lookupRows, h, ih hrest, Prod.ext_iff, Ne.symm h]

/-- Looking a key up is being a row of the table. -/
theorem lookup_eq_some {t : KeyedTable κ ρ} {k : κ} {r : ρ} :
    t.lookup k = some r ↔ (k, r) ∈ t.rows := lookupRows_eq_some t.nodup

theorem lookupRows_upsertRows (j k : κ) (new : ρ) (update : ρ → ρ) (l : List (κ × ρ)) :
    lookupRows j (upsertRows k new update l) =
      if j = k then some ((lookupRows k l).elim new update) else lookupRows j l := by
  induction l with
  | nil => simp [upsertRows, lookupRows, eq_comm]
  | cons r rest ih =>
    by_cases h : r.1 = k
    · subst h
      by_cases hj : r.1 = j <;> simp [upsertRows, lookupRows, hj, Ne.symm]
    · simp only [upsertRows, h, ite_false, lookupRows, ih]
      by_cases hj : r.1 = j
      · subst hj
        simp [h]
      · simp [hj]

/-- The upsert lemma: the written key holds the new or the updated row, every other key is
as before. -/
theorem lookup_upsert (t : KeyedTable κ ρ) (j k : κ) (new : ρ) (update : ρ → ρ) :
    (t.upsert k new update).lookup j =
      if j = k then some ((t.lookup k).elim new update) else t.lookup j :=
  lookupRows_upsertRows j k new update t.rows

@[simp] theorem lookup_upsert_self (t : KeyedTable κ ρ) (k : κ) (new : ρ) (update : ρ → ρ) :
    (t.upsert k new update).lookup k = some ((t.lookup k).elim new update) := by
  rw [lookup_upsert, if_pos rfl]

theorem lookup_upsert_ne (t : KeyedTable κ ρ) {j k : κ} (h : j ≠ k) (new : ρ) (update : ρ → ρ) :
    (t.upsert k new update).lookup j = t.lookup j := by
  rw [lookup_upsert, if_neg h]

theorem lookup_upsert_isSome (t : KeyedTable κ ρ) (j k : κ) (new : ρ) (update : ρ → ρ)
    (h : (t.lookup j).isSome) : ((t.upsert k new update).lookup j).isSome := by
  rw [lookup_upsert]
  split_ifs
  · rfl
  · exact h

/-- What holds of every key still does when it holds of the written one. -/
theorem forall_upsert {t : KeyedTable κ ρ} {P : κ → Prop} (h : ∀ r ∈ t.rows, P r.1) {k : κ} (hk : P k) (new : ρ)
    (update : ρ → ρ) : ∀ r ∈ (t.upsert k new update).rows, P r.1 := by
  intro r hr
  have hkey : r.1 ∈ (t.upsert k new update).rows.map Prod.fst := List.mem_map_of_mem hr
  rw [upsert, map_fst_upsertRows] at hkey
  have hold : ∀ j ∈ t.rows.map Prod.fst, P j := by simpa using h
  split_ifs at hkey
  · exact hold _ hkey
  · rcases List.mem_append.mp hkey with hj | hj
    · exact hold _ hj
    · rwa [List.mem_singleton.mp hj]

/-! ### Removal -/

def keys (t : KeyedTable κ ρ) : List κ := t.rows.map Prod.fst

omit [DecidableEq κ] in
theorem nodup_keys (t : KeyedTable κ ρ) : t.keys.Nodup := t.nodup

theorem mem_keys {t : KeyedTable κ ρ} {k : κ} : k ∈ t.keys ↔ (t.lookup k).isSome := by
  simp [keys, Option.isSome_iff_exists, lookup_eq_some]

/-- `DELETE ... WHERE key = ?`. -/
def erase (t : KeyedTable κ ρ) (k : κ) : KeyedTable κ ρ where
  rows := t.rows.filter fun r => r.1 ≠ k
  nodup := t.nodup.sublist (List.filter_sublist.map Prod.fst)

@[simp] theorem lookup_erase (t : KeyedTable κ ρ) (j k : κ) :
    (t.erase k).lookup j = if j = k then none else t.lookup j := by
  apply Option.ext
  intro r
  by_cases h : j = k
  · simp [lookup_eq_some, erase, h]
  · simp [lookup_eq_some, erase, h]

/-- Several removals. -/
@[simp] theorem lookup_foldl_erase (ks : List κ) (t : KeyedTable κ ρ) (j : κ) :
    (ks.foldl erase t).lookup j = if j ∈ ks then none else t.lookup j := by
  induction ks generalizing t with
  | nil => simp
  | cons k ks ih =>
    rw [List.foldl_cons, ih, lookup_erase]
    by_cases hj : j = k
    · simp [hj]
    · simp [hj]

/-- `DELETE ... WHERE` on the key: the rows whose keys satisfy `p` stay. -/
def filterKeys (t : KeyedTable κ ρ) (p : κ → Bool) : KeyedTable κ ρ where
  rows := t.rows.filter fun r => p r.1
  nodup := t.nodup.sublist (List.filter_sublist.map Prod.fst)

omit [DecidableEq κ] in
@[simp] theorem rows_filterKeys (t : KeyedTable κ ρ) (p : κ → Bool) :
    (t.filterKeys p).rows = t.rows.filter fun r => p r.1 := rfl

omit [DecidableEq κ] in
/-- Deleting less before deleting more makes no difference. -/
theorem filterKeys_filterKeys (t : KeyedTable κ ρ) {p q : κ → Bool} (h : ∀ r ∈ t.rows, p r.1 → q r.1) :
    (t.filterKeys q).filterKeys p = t.filterKeys p := by
  ext1
  rw [rows_filterKeys, rows_filterKeys, rows_filterKeys, List.filter_filter]
  apply List.filter_congr
  intro r hr
  cases hp : p r.1 with
  | true => simp [h r hr hp]
  | false => rfl

theorem filter_upsertRows (p : κ → Bool) (k : κ) (new : ρ) (update : ρ → ρ) (l : List (κ × ρ)) :
    (upsertRows k new update l).filter (fun r => p r.1) =
      if p k then upsertRows k new update (l.filter fun r => p r.1) else l.filter fun r => p r.1 := by
  induction l with
  | nil => cases hk : p k <;> simp [upsertRows, hk]
  | cons r rest ih =>
    by_cases hr : r.1 = k
    · subst hr
      cases hk : p r.1 <;> simp [upsertRows, hk]
    · cases hrow : p r.1 <;> cases hk : p k <;> simp [upsertRows, hr, hrow, hk, ih]

/-- An upsert is seen through a deletion when its key stays. -/
theorem filterKeys_upsert (t : KeyedTable κ ρ) (p : κ → Bool) (k : κ) (new : ρ) (update : ρ → ρ) :
    (t.upsert k new update).filterKeys p =
      if p k then (t.filterKeys p).upsert k new update else t.filterKeys p := by
  ext1
  rw [rows_filterKeys, upsert, filter_upsertRows]
  split_ifs <;> rfl

/-! ### Columns read otherwise -/

section Map
variable {σ : Type*} (f : ρ → σ)

/-- The table with every row read by a function. -/
def map (t : KeyedTable κ ρ) : KeyedTable κ σ where
  rows := t.rows.map fun r => (r.1, f r.2)
  nodup := by
    rw [List.map_map]
    exact t.nodup

theorem map_upsertRows (k : κ) (new : ρ) (l : List (κ × ρ)) :
    (upsertRows k new (fun _ => new) l).map (fun r => (r.1, f r.2)) =
      upsertRows k (f new) (fun _ => f new) (l.map fun r => (r.1, f r.2)) := by
  induction l with
  | nil => rfl
  | cons r rest ih => by_cases h : r.1 = k <;> simp [upsertRows, h, ih]

/-- A row that is replaced is read like any other. -/
theorem map_upsert (t : KeyedTable κ ρ) (k : κ) (new : ρ) :
    (t.upsert k new fun _ => new).map f = (t.map f).upsert k (f new) fun _ => f new := by
  ext1
  exact map_upsertRows f k new t.rows

end Map

/-! ### Additive columns -/

section Additive
variable (t : KeyedTable κ ℤ) (p : κ → Prop) [DecidablePred p]

def totalRows (l : List (κ × ℤ)) : ℤ := (l.map fun r => if p r.1 then r.2 else 0).sum

/-- `SUM(column)` over the rows whose key satisfies `p`. -/
def total : ℤ := totalRows p t.rows

omit [DecidableEq κ] in
@[simp] theorem total_empty : (empty : KeyedTable κ ℤ).total p = 0 := rfl

theorem totalRows_upsertRows (k : κ) (x : ℤ) (l : List (κ × ℤ)) :
    totalRows p (upsertRows k x (· + x) l) = totalRows p l + if p k then x else 0 := by
  induction l with
  | nil => simp [upsertRows, totalRows]
  | cons r rest ih =>
    by_cases h : r.1 = k
    · subst h
      by_cases hp : p r.1
      · simp only [upsertRows, totalRows, ite_true, List.map_cons, List.sum_cons, hp]
        ring
      · simp [upsertRows, totalRows, hp]
    · have hc : totalRows p (r :: upsertRows k x (· + x) rest) =
          (if p r.1 then r.2 else 0) + totalRows p (upsertRows k x (· + x) rest) := rfl
      have hr : totalRows p (r :: rest) = (if p r.1 then r.2 else 0) + totalRows p rest := rfl
      rw [upsertRows, if_neg h, hc, ih, hr]
      ring

/-- `DO UPDATE SET seconds = seconds + excluded.seconds` adds to every sum that sees the key. -/
theorem total_upsert_add (k : κ) (x : ℤ) :
    (t.upsert k x (· + x)).total p = t.total p + if p k then x else 0 :=
  totalRows_upsertRows p k x t.rows

omit [DecidableEq κ] in
theorem totalRows_eq_zero {l : List (κ × ℤ)} (h : ∀ r ∈ l, ¬ p r.1) : totalRows p l = 0 := by
  induction l with
  | nil => rfl
  | cons r rest ih =>
    have hr : totalRows p (r :: rest) = (if p r.1 then r.2 else 0) + totalRows p rest := rfl
    rw [hr, if_neg (h r List.mem_cons_self), ih fun x hx => h x (List.mem_cons_of_mem r hx), add_zero]

theorem totalRows_single {l : List (κ × ℤ)} (hl : (l.map Prod.fst).Nodup) (k : κ) :
    totalRows (fun j => j = k) l = (lookupRows k l).getD 0 := by
  induction l with
  | nil => rfl
  | cons r rest ih =>
    obtain ⟨hx, hrest⟩ := List.nodup_cons.mp hl
    have hc : totalRows (fun j => j = k) (r :: rest) =
        (if r.1 = k then r.2 else 0) + totalRows (fun j => j = k) rest := rfl
    rw [hc]
    by_cases h : r.1 = k
    · rw [if_pos h, totalRows_eq_zero (fun j => j = k) fun x hm hk =>
        hx (h.trans hk.symm ▸ List.mem_map_of_mem hm)]
      simp [lookupRows, h]
    · rw [if_neg h, ih hrest]
      simp [lookupRows, h]

/-- The sum over one key is its stored value, and zero when it has no row. -/
theorem total_single (k : κ) : t.total (fun j => j = k) = (t.lookup k).getD 0 :=
  totalRows_single t.nodup k

end Additive

end KeyedTable

end CyberstalkMe.Foundations
