import Mathlib.Data.List.Nodup
import Mathlib.Data.List.Perm.Basic

/-! # Recency

The distinct values of a history with the most recent first, and the sightings of
a value since it last came among the `k` most recent. A history lists the latest
event first; an event sights the value of its key, if it has one.
-/
namespace CyberstalkMe.Foundations

variable {α β : Type*} [DecidableEq α]

def distinct : List α → List α
  | [] => []
  | a :: h => a :: (distinct h).erase a

/-- The `k` most recent of them. -/
def recent (k : ℕ) (h : List α) : List α := (distinct h).take k

theorem nodup_distinct (h : List α) : (distinct h).Nodup := by
  induction h with
  | nil => exact List.nodup_nil
  | cons a h ih => exact List.nodup_cons.mpr ⟨ih.not_mem_erase, ih.erase a⟩

theorem nodup_recent (k : ℕ) (h : List α) : (recent k h).Nodup := (nodup_distinct h).take

theorem length_recent_le (k : ℕ) (h : List α) : (recent k h).length ≤ k := List.length_take_le k _

theorem take_erase_take (l : List α) (a : α) (n : ℕ) :
    ((l.take (n + 1)).erase a).take n = (l.erase a).take n := by
  induction l generalizing n with
  | nil => rfl
  | cons b l ih =>
    by_cases hb : b = a
    · simp [hb, List.take_take]
    · cases n with
      | zero => simp
      | succ n => simp [hb, ih n]

/-- A sighting brings its value to the front. -/
theorem recent_cons {k : ℕ} (hk : 0 < k) (a : α) (h : List α) :
    recent k (a :: h) = (a :: (recent k h).erase a).take k := by
  obtain ⟨n, rfl⟩ := Nat.exists_eq_add_of_lt hk
  simp [recent, distinct, take_erase_take]

theorem recent_cons_of_mem {k : ℕ} (hk : 0 < k) {a : α} {h : List α} (ha : a ∈ recent k h) :
    recent k (a :: h) = a :: (recent k h).erase a := by
  have hlen := length_recent_le k h
  have herase := List.length_erase_of_mem ha
  rw [recent_cons hk]
  apply List.take_of_length_le
  simp
  omega

/-- A value that was not among them comes at the cost of the last, if they were `k`. -/
theorem recent_cons_of_not_mem {k : ℕ} (hk : 0 < k) {a : α} {h : List α} (ha : a ∉ recent k h) :
    recent k (a :: h) = (a :: recent k h).take k := by
  rw [recent_cons hk, List.erase_of_not_mem ha]

theorem mem_recent_cons_self {k : ℕ} (hk : 0 < k) (a : α) (h : List α) : a ∈ recent k (a :: h) := by
  obtain ⟨n, rfl⟩ := Nat.exists_eq_add_of_lt hk
  simp [recent, distinct]

/-! ### Sightings since the insertion -/

section Sightings
variable {k : ℕ} {key : β → Option α} {a : α} {h s : List β}

/-- `s` are the sightings of `a` since an event that put it among the `k` most recent, where it has been
since. -/
def SightedSince (k : ℕ) (key : β → Option α) (a : α) (h s : List β) : Prop :=
  ∃ since b before, h = since ++ b :: before ∧ key b = some a ∧ a ∉ recent k (before.filterMap key) ∧
    (∀ t, t <:+ since → a ∈ recent k ((t ++ b :: before).filterMap key)) ∧
    s = (since ++ [b]).filter fun e => key e = some a

theorem sightedSince_single (hk : 0 < k) {b : β} (hb : key b = some a)
    (ha : a ∉ recent k (h.filterMap key)) : SightedSince k key a (b :: h) [b] := by
  refine ⟨[], b, h, rfl, hb, ha, ?_, by simp [hb]⟩
  intro t ht
  rw [List.suffix_nil.mp ht, List.nil_append, List.filterMap_cons_some hb]
  exact mem_recent_cons_self hk a _

/-- An event extends the sightings as long as the value stays. -/
theorem SightedSince.cons (hs : SightedSince k key a h s) {b : β}
    (ha : a ∈ recent k ((b :: h).filterMap key)) :
    SightedSince k key a (b :: h) ([b].filter (fun e => key e = some a) ++ s) := by
  obtain ⟨since, c, before, rfl, hc, habsent, hstay, rfl⟩ := hs
  refine ⟨b :: since, c, before, rfl, hc, habsent, ?_, by rw [← List.filter_append]; rfl⟩
  intro t ht
  rcases List.suffix_cons_iff.mp ht with rfl | ht
  · exact ha
  · exact hstay t ht

theorem SightedSince.again (hs : SightedSince k key a h s) (hk : 0 < k) {b : β} (hb : key b = some a) :
    SightedSince k key a (b :: h) (b :: s) := by
  have hmem : a ∈ recent k ((b :: h).filterMap key) := by
    rw [List.filterMap_cons_some hb]
    exact mem_recent_cons_self hk a _
  simpa [hb] using hs.cons hmem

theorem SightedSince.other (hs : SightedSince k key a h s) {b : β} (hb : key b ≠ some a)
    (ha : a ∈ recent k ((b :: h).filterMap key)) : SightedSince k key a (b :: h) s := by
  simpa [hb] using hs.cons ha

theorem SightedSince.sublist (hs : SightedSince k key a h s) : s.Sublist h := by
  obtain ⟨since, b, before, rfl, -, -, -, rfl⟩ := hs
  apply List.filter_sublist.trans
  simp

/-- The first of them is the latest event that sights the value. -/
theorem SightedSince.head_eq (hs : SightedSince k key a h s) :
    s.head? = h.find? fun e => key e = some a := by
  obtain ⟨since, b, before, rfl, hb, -, -, rfl⟩ := hs
  simp [List.find?_append, hb]

end Sightings

/-- The most recent values are ordered by their latest sightings. -/
theorem distinct_pairwise {R : β → β → Prop} (key : β → Option α) {h : List β} (hR : h.Pairwise R) :
    (distinct (h.filterMap key)).Pairwise fun a b =>
      ∀ x y, h.find? (fun e => key e = some a) = some x → h.find? (fun e => key e = some b) = some y →
        R x y := by
  induction h with
  | nil => exact .nil
  | cons e h ih =>
    obtain ⟨hhead, htail⟩ := List.pairwise_cons.mp hR
    have hrest := ih htail
    cases hkey : key e with
    | none =>
      rw [List.filterMap_cons_none hkey]
      apply hrest.imp
      intro a b hab x y hx hy
      simp only [List.find?_cons, hkey, reduceCtorEq, decide_false] at hx hy
      exact hab x y hx hy
    | some c =>
      rw [List.filterMap_cons_some hkey, distinct]
      have hne : ∀ a ∈ (distinct (h.filterMap key)).erase c, c ≠ a := by
        rintro a ha rfl
        exact (nodup_distinct _).not_mem_erase ha
      have hold : ∀ a, c ≠ a → ((e :: h).find? fun e => key e = some a) = h.find? fun e => key e = some a := by
        intro a ha
        simp [hkey, ha]
      apply List.Pairwise.cons
      · intro b hb x y hx hy
        rw [hold b (hne b hb)] at hy
        obtain rfl : e = x := by simpa [hkey] using hx
        exact hhead y (List.mem_of_find?_eq_some hy)
      · apply (hrest.sublist List.erase_sublist).imp_of_mem
        intro a b ha hb hab x y hx hy
        rw [hold a (hne a ha)] at hx
        rw [hold b (hne b hb)] at hy
        exact hab x y hx hy

end CyberstalkMe.Foundations
