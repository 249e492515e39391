import Mathlib.Order.Interval.Finset.Basic
import Mathlib.Order.Interval.Finset.Nat

/-! # Timelines

A timeline gives each unit of time at most one label, so nothing in it is
counted twice. Painting a free interval adds its overlap with a window to the
count of the painted label in that window, and changes no other count.
-/
namespace CyberstalkMe.Foundations

/-- At most one label for each unit of time. -/
abbrev Timeline (κ : Type*) := ℤ → Option κ

/-- The length of the common part of `[a, b)` and `[lo, hi)`. -/
def overlap (a b lo hi : ℤ) : ℤ := max 0 (min b hi - max a lo)

theorem overlap_eq_zero_of_le {a b lo hi : ℤ} (h : b ≤ a) : overlap a b lo hi = 0 := by
  rw [overlap]
  omega

/-- Cutting an interval in two cuts its overlap in two. -/
theorem overlap_add {a b c : ℤ} (lo hi : ℤ) (hab : a ≤ b) (hbc : b ≤ c) :
    overlap a b lo hi + overlap b c lo hi = overlap a c lo hi := by
  simp only [overlap]
  omega

theorem overlap_of_subset {a b lo hi : ℤ} (hlo : lo ≤ a) (hab : a ≤ b) (hhi : b ≤ hi) :
    overlap a b lo hi = b - a := by
  rw [overlap]
  omega

theorem overlap_of_disjoint {a b lo hi : ℤ} (h : b ≤ lo ∨ hi ≤ a) : overlap a b lo hi = 0 := by
  rw [overlap]
  omega

namespace Timeline

variable {κ : Type*}

/-- Give every unit of `[a, b)` the label `k`. -/
def paint (tl : Timeline κ) (a b : ℤ) (k : κ) : Timeline κ :=
  fun s => if a ≤ s ∧ s < b then some k else tl s

/-- The number of units of the window of length `n` from `lo` whose label satisfies `p`. -/
def count (tl : Timeline κ) (lo : ℤ) (n : ℕ) (p : κ → Bool) : ℕ :=
  ((Finset.range n).filter fun i : ℕ => (tl (lo + i)).any p).card

/-- Nothing is painted from `a` on. -/
def FreeFrom (tl : Timeline κ) (a : ℤ) : Prop := ∀ s, a ≤ s → tl s = none

theorem FreeFrom.mono {tl : Timeline κ} {a b : ℤ} (h : tl.FreeFrom a) (hab : a ≤ b) :
    tl.FreeFrom b := fun s hs => h s (hab.trans hs)

theorem FreeFrom.paint {tl : Timeline κ} {a b : ℤ} (h : tl.FreeFrom a) (hab : a ≤ b) (k : κ) :
    (tl.paint a b k).FreeFrom b := fun s hs => by
  have hn : ¬ (a ≤ s ∧ s < b) := by omega
  rw [Timeline.paint, if_neg hn]
  exact h s (hab.trans hs)

theorem count_congr {tl tl' : Timeline κ} {lo : ℤ} {n : ℕ} {p q : κ → Bool}
    (h : ∀ s, (tl s).any p = (tl' s).any q) : tl.count lo n p = tl'.count lo n q := by
  simp only [count, h]

theorem count_none (lo : ℤ) (n : ℕ) (p : κ → Bool) :
    count (fun _ => none : Timeline κ) lo n p = 0 := by
  simp [count]

/-- A window holds no more labels than units. -/
theorem count_le (tl : Timeline κ) (lo : ℤ) (n : ℕ) (p : κ → Bool) : tl.count lo n p ≤ n := by
  have hc := Finset.card_filter_le (Finset.range n) fun i : ℕ => (tl (lo + i)).any p = true
  rwa [Finset.card_range] at hc

theorem card_filter_range (a b lo : ℤ) (n : ℕ) :
    (((Finset.range n).filter fun i : ℕ => a ≤ lo + i ∧ lo + i < b).card : ℤ) =
      overlap a b lo (lo + n) := by
  have heq : ((Finset.range n).filter fun i : ℕ => a ≤ lo + i ∧ lo + i < b) =
      Finset.Ico (max a lo - lo).toNat (min b (lo + n) - lo).toNat := by
    ext i
    simp only [Finset.mem_filter, Finset.mem_range, Finset.mem_Ico]
    omega
  rw [heq, Nat.card_Ico, overlap]
  omega

theorem count_paint {tl : Timeline κ} {a b : ℤ} (k : κ) (lo : ℤ) (n : ℕ) (p : κ → Bool)
    (hfree : tl.FreeFrom a) :
    ((tl.paint a b k).count lo n p : ℤ) =
      tl.count lo n p + if p k then overlap a b lo (lo + n) else 0 := by
  by_cases hp : p k
  · have hdisj : Disjoint ((Finset.range n).filter fun i : ℕ => (tl (lo + i)).any p = true)
        ((Finset.range n).filter fun i : ℕ => a ≤ lo + i ∧ lo + i < b) := by
      rw [Finset.disjoint_filter]
      intro i _ hi hab
      rw [hfree (lo + i) hab.1] at hi
      simp at hi
    have hunion : ((Finset.range n).filter fun i : ℕ => (tl.paint a b k (lo + i)).any p = true) =
        ((Finset.range n).filter fun i : ℕ => (tl (lo + i)).any p = true) ∪
          ((Finset.range n).filter fun i : ℕ => a ≤ lo + i ∧ lo + i < b) := by
      rw [← Finset.filter_or]
      apply Finset.filter_congr
      intro i _
      by_cases hi : a ≤ lo + i ∧ lo + i < b <;> simp [paint, hi, hp]
    rw [count, hunion, Finset.card_union_of_disjoint hdisj, Int.natCast_add, card_filter_range,
      if_pos hp, count]
  · have hsame : (tl.paint a b k).count lo n p = tl.count lo n p := by
      apply count_congr
      intro s
      by_cases hs : a ≤ s ∧ s < b
      · simp [paint, hs, hp, hfree s hs.1]
      · simp [paint, hs]
    rw [hsame, if_neg hp, add_zero]

end Timeline

/-! ### Consecutive pairs -/

/-- Each member of a list with the next one. -/
def consecutive {α : Type*} (l : List α) : List (α × α) := l.zip l.tail

theorem consecutive_concat {α : Type*} (l : List α) (x : α) :
    consecutive (l ++ [x]) = consecutive l ++ l.getLast?.toList.map fun y => (y, x) := by
  induction l with
  | nil => rfl
  | cons a l ih =>
    cases l with
    | nil => rfl
    | cons b l =>
      rw [List.getLast?_cons_cons]
      exact congrArg ((a, b) :: ·) ih

end CyberstalkMe.Foundations
