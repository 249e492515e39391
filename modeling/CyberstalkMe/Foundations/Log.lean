import Mathlib.Data.List.Pairwise

/-! # Append-only logs

A log is a list that grows at its end. `latest p` is the last entry that
satisfies `p`. In a log whose entries are ordered by `r`, the latest entry is one
that comes after every other.
-/
namespace CyberstalkMe.Foundations

variable {α : Type*} (p : α → Bool) (r : α → α → Prop)

/-- The last entry that satisfies `p`. -/
def latest (log : List α) : Option α := (log.filter p).getLast?

/-- The entries that satisfy `p` stand in the order `r`. -/
def Ordered (log : List α) : Prop := (log.filter p).Pairwise r

variable {p r}

@[simp] theorem latest_nil : latest p [] = none := rfl

theorem latest_append (log more : List α) : latest p (log ++ more) = (latest p more).or (latest p log) := by
  rw [latest, List.filter_append, List.getLast?_append]
  rfl

theorem latest_concat (log : List α) (a : α) :
    latest p (log ++ [a]) = if p a then some a else latest p log := by
  rw [latest_append, latest, List.filter_cons]
  cases p a <;> rfl

theorem latest_cons (a : α) (log : List α) :
    latest p (a :: log) = (latest p log).or (if p a then some a else none) := by
  rw [← List.singleton_append, latest_append, ← List.nil_append [a], latest_concat, latest_nil]

theorem latest_of_drop {log : List α} {n : ℕ} {a : α} (h : latest p (log.drop n) = some a) :
    latest p log = some a := by
  rw [← List.take_append_drop n log, latest_append, h]
  rfl

theorem latest_eq_none {log : List α} : latest p log = none ↔ ∀ a ∈ log, ¬ p a := by
  rw [latest, List.getLast?_eq_none_iff, List.filter_eq_nil_iff]

theorem mem_of_latest {log : List α} {a : α} (h : latest p log = some a) : a ∈ log ∧ p a :=
  List.mem_filter.mp (List.mem_of_getLast? h)

theorem ordered_nil : Ordered p r [] := List.Pairwise.nil

theorem ordered_concat {log : List α} {a : α} :
    Ordered p r (log ++ [a]) ↔ Ordered p r log ∧ (p a → ∀ b ∈ log, p b → r b a) := by
  rw [Ordered, List.filter_append, List.pairwise_append, List.filter_cons]
  cases hp : p a with
  | false => simp [Ordered]
  | true => simp [Ordered, List.mem_filter]

/-- Every entry is related to the latest one. -/
theorem Ordered.rel_latest {log : List α} (h : Ordered p r log) (hrefl : ∀ a, r a a) {a b : α}
    (ha : latest p log = some a) (hb : b ∈ log) (hp : p b) : r b a := by
  have hmem : b ∈ log.filter p := List.mem_filter.mpr ⟨hb, hp⟩
  have hlast := (List.getLast_eq_iff_getLast?_eq_some (List.ne_nil_of_mem hmem)).mpr ha
  have hinst : Std.Refl r := ⟨hrefl⟩
  rw [← hlast]
  exact List.Pairwise.rel_getLast h hmem

theorem Ordered.latest_rel_latest {log more : List α} (h : Ordered p r (log ++ more))
    (hrefl : ∀ a, r a a) {a b : α} (ha : latest p log = some a) (hb : latest p (log ++ more) = some b) :
    r a b := by
  obtain ⟨hmem, hp⟩ := mem_of_latest ha
  exact h.rel_latest hrefl hb (List.mem_append_left more hmem) hp

end CyberstalkMe.Foundations
