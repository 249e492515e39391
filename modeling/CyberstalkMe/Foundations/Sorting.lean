import Mathlib.Data.List.Nodup
import Mathlib.Data.List.Pairwise
import Mathlib.Data.List.Sort

/-! # Sorting without ties

An unstable sort of a list that comes in any order has one result when no two of
its elements are tied.
-/
namespace CyberstalkMe.Foundations

variable {α : Type*}

section Ties
variable {r : α → α → Prop} [DecidableRel r] [Std.Total r] [IsTrans α r] {l m : List α}

theorem insertionSort_congr (hperm : l.Perm m) (hties : ∀ a ∈ l, ∀ b ∈ l, r a b → r b a → a = b) :
    l.insertionSort r = m.insertionSort r := by
  have hl := List.perm_insertionSort r l
  have hm := List.perm_insertionSort r m
  have hanti : ∀ a b, a ∈ l.insertionSort r → b ∈ m.insertionSort r → r a b → r b a → a = b := by
    intro a b ha hb
    exact hties a (hl.subset ha) b (hperm.symm.subset (hm.subset hb))
  exact List.Perm.eq_of_pairwise hanti (List.pairwise_insertionSort r l) (List.pairwise_insertionSort r m)
    (hl.trans (hperm.trans hm.symm))

theorem insertionSort_eq_of_strict (hperm : l.Perm m) (hm : m.Pairwise fun a b => ¬ r b a) :
    l.insertionSort r = m := by
  have hsym : Std.Symm fun a b : α => ¬ r a b ∨ ¬ r b a := ⟨fun a b => Or.symm⟩
  have hstrict : m.Pairwise fun a b => ¬ r a b ∨ ¬ r b a := hm.imp Or.inr
  have hsorted : m.insertionSort r = m :=
    (hm.imp fun {a b} h => (Std.Total.total a b).resolve_right h).insertionSort_eq
  rw [← hsorted]
  apply insertionSort_congr hperm
  intro a ha b hb hab hba
  by_contra hne
  rcases hstrict.forall (hperm.subset ha) (hperm.subset hb) hne with h | h
  · exact h hab
  · exact h hba

end Ties

/-! ### By a key -/

section Keys
variable {ν : Type*} [LinearOrder ν] (key : α → ν)

theorem total_key : Std.Total fun a b => key a ≤ key b := ⟨fun a b => le_total (key a) (key b)⟩

theorem isTrans_key : IsTrans α fun a b => key a ≤ key b := ⟨fun _ _ _ => le_trans⟩

variable [DecidableRel fun a b => key a ≤ key b] {l m : List α}

theorem pairwise_key (l : List α) : (l.insertionSort fun a b => key a ≤ key b).Pairwise fun a b => key a ≤ key b := by
  have := total_key key
  have := isTrans_key key
  exact List.pairwise_insertionSort (fun a b => key a ≤ key b) l

/-- With every key once the order is strict. -/
theorem pairwise_key_lt (hl : (l.map key).Nodup) :
    (l.insertionSort fun a b => key a ≤ key b).Pairwise fun a b => key a < key b := by
  have hkeys := ((List.perm_insertionSort (fun a b => key a ≤ key b) l).map key).nodup_iff.mpr hl
  exact ((pairwise_key key l).and (List.pairwise_map.mp hkeys)).imp fun h => h.1.lt_of_ne h.2

/-- The order in which the elements come does not matter. -/
theorem key_congr (hperm : l.Perm m) (hl : (l.map key).Nodup) :
    l.insertionSort (fun a b => key a ≤ key b) = m.insertionSort fun a b => key a ≤ key b := by
  have := total_key key
  have := isTrans_key key
  apply insertionSort_congr hperm
  intro a ha b hb hab hba
  exact List.inj_on_of_nodup_map hl ha hb (le_antisymm hab hba)

end Keys

/-! ### Rankings

By a score, the largest first; ties go by name.
-/

section Ranking
variable {ν : Type*} [LinearOrder ν] (score : α → ℤ) (name : α → ν)

theorem total_rank : Std.Total fun a b => score b < score a ∨ score a = score b ∧ name a ≤ name b := by
  constructor
  intro a b
  rcases lt_trichotomy (score a) (score b) with h | h | h
  · exact .inr (.inl h)
  · exact (le_total (name a) (name b)).imp (fun hn => .inr ⟨h, hn⟩) fun hn => .inr ⟨h.symm, hn⟩
  · exact .inl (.inl h)

theorem isTrans_rank : IsTrans α fun a b => score b < score a ∨ score a = score b ∧ name a ≤ name b := by
  constructor
  rintro a b c (hab | ⟨hab, hnab⟩) (hbc | ⟨hbc, hnbc⟩)
  · exact .inl (hbc.trans hab)
  · exact .inl (hbc ▸ hab)
  · exact .inl (hab ▸ hbc)
  · exact .inr ⟨hab.trans hbc, hnab.trans hnbc⟩

variable [DecidableRel fun a b => score b < score a ∨ score a = score b ∧ name a ≤ name b] {l m : List α}

theorem pairwise_rank (hl : (l.map name).Nodup) :
    (l.insertionSort fun a b => score b < score a ∨ score a = score b ∧ name a ≤ name b).Pairwise fun a b =>
      score b < score a ∨ score a = score b ∧ name a < name b := by
  have := total_rank score name
  have := isTrans_rank score name
  have hsorted := List.pairwise_insertionSort
    (fun a b => score b < score a ∨ score a = score b ∧ name a ≤ name b) l
  have hnames := ((List.perm_insertionSort
    (fun a b => score b < score a ∨ score a = score b ∧ name a ≤ name b) l).map name).nodup_iff.mpr hl
  apply (hsorted.and (List.pairwise_map.mp hnames)).imp
  rintro a b ⟨h | ⟨hscore, hname⟩, hne⟩
  · exact .inl h
  · exact .inr ⟨hscore, hname.lt_of_ne hne⟩

/-- The order in which the elements come does not matter. -/
theorem rank_congr (hperm : l.Perm m) (hl : (l.map name).Nodup) :
    l.insertionSort (fun a b => score b < score a ∨ score a = score b ∧ name a ≤ name b) =
      m.insertionSort fun a b => score b < score a ∨ score a = score b ∧ name a ≤ name b := by
  have := total_rank score name
  have := isTrans_rank score name
  apply insertionSort_congr hperm
  intro a ha b hb hab hba
  apply List.inj_on_of_nodup_map hl ha hb
  rcases hab with h | ⟨hscore, hle⟩
  · omega
  · rcases hba with h | ⟨-, hge⟩
    · omega
    · exact le_antisymm hle hge

/-- Any permutation without an inversion is the ranking. -/
theorem eq_rank_of_sorted (hperm : m.Perm l) (hl : (l.map name).Nodup)
    (hsorted : m.Pairwise fun a b => ¬ (score a < score b ∨ score a = score b ∧ name b < name a)) :
    m = l.insertionSort fun a b => score b < score a ∨ score a = score b ∧ name a ≤ name b := by
  have := total_rank score name
  have := isTrans_rank score name
  have hrank : m.Pairwise fun a b => score b < score a ∨ score a = score b ∧ name a ≤ name b := by
    apply hsorted.imp
    intro a b h
    obtain ⟨hscore, hname⟩ := not_or.mp h
    rcases (not_lt.mp hscore).lt_or_eq with hlt | heq
    · exact .inl hlt
    · exact .inr ⟨heq.symm, not_lt.mp fun hlt => hname ⟨heq.symm, hlt⟩⟩
  rw [← rank_congr score name hperm ((hperm.map name).nodup_iff.mpr hl), hrank.insertionSort_eq]

end Ranking

end CyberstalkMe.Foundations
