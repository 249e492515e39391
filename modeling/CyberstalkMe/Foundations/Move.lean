import Mathlib.Data.List.InsertIdx
import Mathlib.Data.List.Perm.Basic
import Mathlib.Data.List.Forall2

/-! # Moving an entry of a list

A move takes the entry at one index out and puts it back at another. The entry and the list without it
determine the result, so moves of one entry compose.
-/
namespace CyberstalkMe.Foundations

variable {α : Type*}

/-- Take the entry at `i` out and put it back at `j`. -/
def move (l : List α) (i j : ℕ) : List α :=
  match l[i]? with
  | none => l
  | some a => (l.eraseIdx i).insertIdx j a

theorem move_eq {l : List α} {i : ℕ} {a : α} (h : l[i]? = some a) (j : ℕ) :
    move l i j = (l.eraseIdx i).insertIdx j a := by
  rw [move, h]

theorem move_perm {l : List α} {i j : ℕ} (hi : i < l.length) (hj : j < l.length) : (move l i j).Perm l := by
  rw [move_eq (List.getElem?_eq_getElem hi)]
  have hlen := List.length_eraseIdx_of_lt hi
  exact (List.perm_insertIdx _ _ (by omega)).trans (List.getElem_cons_eraseIdx_perm hi)

@[simp] theorem length_move {l : List α} {i j : ℕ} (hi : i < l.length) (hj : j < l.length) :
    (move l i j).length = l.length := (move_perm hi hj).length_eq

/-- The entry is at the new index. -/
theorem getElem?_move {l : List α} {i j : ℕ} (hi : i < l.length) (hj : j < l.length) : (move l i j)[j]? = l[i]? := by
  have hlen := List.length_eraseIdx_of_lt hi
  rw [move_eq (List.getElem?_eq_getElem hi), List.getElem?_insertIdx_self, if_pos (by omega), List.getElem?_eq_getElem hi]

/-- The other entries are as they were. -/
theorem eraseIdx_move {l : List α} {i : ℕ} (hi : i < l.length) (j : ℕ) : (move l i j).eraseIdx j = l.eraseIdx i := by
  rw [move_eq (List.getElem?_eq_getElem hi), List.eraseIdx_insertIdx_self]

theorem move_self {l : List α} {i : ℕ} (hi : i < l.length) : move l i i = l := by
  rw [move_eq (List.getElem?_eq_getElem hi), List.insertIdx_eraseIdx_getElem]

/-- Moving an entry on. -/
theorem move_move {l : List α} {i j : ℕ} (hi : i < l.length) (hj : j < l.length) (k : ℕ) :
    move (move l i j) j k = move l i k := by
  have hentry := (getElem?_move hi hj).trans (List.getElem?_eq_getElem hi)
  rw [move_eq hentry, eraseIdx_move hi, move_eq (List.getElem?_eq_getElem hi)]

theorem move_back {l : List α} {i j : ℕ} (hi : i < l.length) (hj : j < l.length) : move (move l i j) j i = l := by
  rw [move_move hi hj, move_self hi]

/-- A list with one entry changed is related to itself when that entry is. -/
theorem forall₂_modify {R : α → α → Prop} (hrefl : ∀ a, R a a) {f : α → α} {l : List α} {i : ℕ} {a : α}
    (h : l[i]? = some a) (hf : R (f a) a) : List.Forall₂ R (l.modify i f) l := by
  induction l generalizing i with
  | nil =>
    rw [List.modify_nil]
    exact .nil
  | cons b l ih =>
    cases i with
    | zero =>
      cases h
      rw [List.modify_zero_cons]
      exact .cons hf (List.forall₂_same.mpr fun a _ => hrefl a)
    | succ i =>
      rw [List.modify_succ_cons]
      exact .cons (hrefl b) (ih h)

/-- The first entry that satisfies a predicate is the same in any order, when no two do. -/
theorem find?_eq_of_perm {l l' : List α} (h : l'.Perm l) {p : α → Bool} (hp : l.countP p ≤ 1) :
    l'.find? p = l.find? p := by
  rw [← List.head?_filter, ← List.head?_filter]
  have hperm : (l'.filter p).Perm (l.filter p) := h.filter p
  rw [List.countP_eq_length_filter] at hp
  cases hfilter : l.filter p with
  | nil =>
    rw [hfilter, List.perm_nil] at hperm
    rw [hperm]
  | cons a rest =>
    rw [hfilter, List.length_cons] at hp
    have hrest : rest = [] := List.length_eq_zero_iff.mp (by omega)
    rw [hfilter, hrest, List.perm_singleton] at hperm
    rw [hperm, hrest]

end CyberstalkMe.Foundations
