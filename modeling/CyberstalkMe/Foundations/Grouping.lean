import CyberstalkMe.Foundations.KeyedTable
import Mathlib.Algebra.BigOperators.Group.List.Lemmas
import Mathlib.Data.List.Perm.Basic

/-! # Grouping by a key

A loop that adds the elements of a list to the rows of a table, one row for each
key. The row of a key depends on its own elements only, and the order in which
the rows come does not matter to what is read from them.
-/
namespace CyberstalkMe.Foundations.KeyedTable

variable {κ ρ σ β : Type*} [DecidableEq κ]

/-- Two tables that answer alike have the same rows. -/
theorem rows_perm {t u : KeyedTable κ ρ} (h : ∀ k, t.lookup k = u.lookup k) : t.rows.Perm u.rows := by
  rw [List.perm_ext_iff_of_nodup (.of_map _ t.nodup) (.of_map _ u.nodup)]
  rintro ⟨k, r⟩
  rw [← lookup_eq_some, ← lookup_eq_some, h]

def mapValues (t : KeyedTable κ ρ) (f : κ → ρ → σ) : KeyedTable κ σ where
  rows := t.rows.map fun r => (r.1, f r.1 r.2)
  nodup := by
    rw [List.map_map]
    exact t.nodup

@[simp] theorem lookup_mapValues (t : KeyedTable κ ρ) (f : κ → ρ → σ) (k : κ) :
    (t.mapValues f).lookup k = (t.lookup k).map (f k) := by
  apply Option.ext
  intro s
  simp only [lookup_eq_some, mapValues, List.mem_map, Option.map_eq_some_iff, Prod.ext_iff, Prod.exists]
  constructor
  · rintro ⟨j, r, hr, rfl, rfl⟩
    exact ⟨r, hr, rfl⟩
  · rintro ⟨r, hr, rfl⟩
    exact ⟨k, r, hr, rfl, rfl⟩

/-! ### One row for each key -/

/-- Add the elements to the rows of their keys. A row starts from `zero`. -/
theorem lookup_foldl_upsert (key : β → κ) (zero : ρ) (new : β → ρ) (add : β → ρ → ρ)
    (hnew : ∀ b, new b = add b zero) (l : List β) (k : κ) :
    (l.foldl (fun t b => t.upsert (key b) (new b) (add b)) (empty : KeyedTable κ ρ)).lookup k =
      if k ∈ l.map key then some ((l.filter (key · = k)).foldl (fun v b => add b v) zero) else none := by
  induction l using List.reverseRecOn with
  | nil => rfl
  | append_singleton l b ih =>
    rw [List.foldl_concat, lookup_upsert]
    by_cases hb : key b = k
    · subst hb
      rw [ih]
      by_cases hl : key b ∈ l.map key
      · simp only [if_pos hl, List.filter_append]
        simp
      · have hnone : l.filter (fun c => key c = key b) = [] := by
          rw [List.filter_eq_nil_iff]
          intro c hc hkey
          exact hl (of_decide_eq_true hkey ▸ List.mem_map_of_mem hc)
        simp only [if_neg hl, List.filter_append, hnone]
        simp [hnew]
    · rw [ih]
      simp [hb, Ne.symm hb]

def sumBy (key : β → κ) (val : β → ℤ) (l : List β) : KeyedTable κ ℤ :=
  l.foldl (fun t b => t.upsert (key b) (val b) (· + val b)) empty

theorem lookup_sumBy (key : β → κ) (val : β → ℤ) (l : List β) (k : κ) :
    (sumBy key val l).lookup k =
      if k ∈ l.map key then some ((l.filter (key · = k)).map val).sum else none := by
  rw [sumBy, lookup_foldl_upsert key 0 val (fun b v => v + val b) (fun b => (zero_add _).symm), List.sum_eq_foldl,
    List.foldl_map]

/-- The column adds up to what was added. -/
theorem sum_rows_sumBy (key : β → κ) (val : β → ℤ) (l : List β) :
    ((sumBy key val l).rows.map Prod.snd).sum = (l.map val).sum := by
  induction l using List.reverseRecOn with
  | nil => rfl
  | append_singleton l b ih =>
    have htotal := total_upsert_add (sumBy key val l) (fun _ => True) (key b) (val b)
    simp only [total, totalRows, if_true] at htotal
    rw [sumBy, List.foldl_concat, ← sumBy]
    exact htotal.trans (by simp [ih])

/-- Over labels that hold every key once, what the elements of each label add up to adds up to what all do. -/
theorem sum_map_sum_filter (key : β → κ) (val : β → ℤ) {labels : List κ} (hnodup : labels.Nodup) {l : List β}
    (hcovers : ∀ b ∈ l, key b ∈ labels) :
    (labels.map fun k => ((l.filter (key · = k)).map val).sum).sum = (l.map val).sum := by
  induction l with
  | nil => simp
  | cons b l ih =>
    obtain ⟨hb, hl⟩ := List.forall_mem_cons.mp hcovers
    have hsplit : ∀ k, (((b :: l).filter (key · = k)).map val).sum =
        (if key b = k then val b else 0) + ((l.filter (key · = k)).map val).sum := by
      intro k
      by_cases hk : key b = k <;> simp [hk]
    have hone : (labels.map fun k => if key b = k then val b else 0).sum = val b := by
      rw [List.sum_map_eq_nsmul_single (key b) _ fun k hk _ => if_neg (Ne.symm hk),
        List.count_eq_one_of_mem hnodup hb, if_pos rfl, one_nsmul]
    simp only [hsplit]
    rw [List.sum_map_add, hone, ih hl, List.map_cons, List.sum_cons]

end CyberstalkMe.Foundations.KeyedTable
