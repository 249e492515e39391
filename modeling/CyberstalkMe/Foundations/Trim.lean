import Mathlib.Data.List.DropRight

/-! # Trimming

Removing the elements with some property from the ends of a list.
-/
namespace CyberstalkMe.Foundations

variable {α : Type*} (p : α → Bool)

def trimEnds (l : List α) : List α := (l.dropWhile p).rdropWhile p

/-- Neither end has the property. -/
structure Trimmed (l : List α) : Prop where
  head : ∀ a ∈ l.head?, ¬ p a
  last : ∀ a ∈ l.getLast?, ¬ p a

theorem head?_dropWhile_not (l : List α) : ∀ a ∈ (l.dropWhile p).head?, ¬ p a := by
  intro a ha
  have h := List.head?_dropWhile_not p l
  rw [ha] at h
  simpa using h

theorem getLast?_rdropWhile_not (l : List α) : ∀ a ∈ (l.rdropWhile p).getLast?, ¬ p a := by
  intro a ha
  rw [List.rdropWhile, List.getLast?_reverse] at ha
  exact head?_dropWhile_not p l.reverse a ha

/-- What is removed at the end does not change the head, unless nothing is left. -/
theorem head?_rdropWhile {l : List α} {a : α} (h : (l.rdropWhile p).head? = some a) : l.head? = some a := by
  obtain ⟨t, ht⟩ := List.rdropWhile_prefix p l
  rw [← ht, List.head?_append, h]
  rfl

variable {p}

theorem dropWhile_of_head {l : List α} (h : ∀ a ∈ l.head?, ¬ p a) : l.dropWhile p = l := by
  cases l with
  | nil => rfl
  | cons a l => exact List.dropWhile_cons_of_neg (h a rfl)

theorem rdropWhile_of_last {l : List α} (h : ∀ a ∈ l.getLast?, ¬ p a) : l.rdropWhile p = l := by
  rw [List.rdropWhile, dropWhile_of_head, List.reverse_reverse]
  rwa [List.head?_reverse]

theorem Trimmed.trimEnds_eq {l : List α} (h : Trimmed p l) : trimEnds p l = l := by
  rw [trimEnds, dropWhile_of_head h.head, rdropWhile_of_last h.last]

/-- Removing other elements at the end keeps the head of a trimmed list. -/
theorem Trimmed.head_rdropWhile {l : List α} (h : Trimmed p l) (q : α → Bool) :
    ∀ a ∈ (l.rdropWhile q).head?, ¬ p a :=
  fun a ha => h.head a (head?_rdropWhile q ha)

/-- An element that stays protects what is in front of it. -/
theorem rdropWhile_append {xs : List α} (ys : List α) (h : ∀ a ∈ xs.getLast?, ¬ p a) :
    (xs ++ ys).rdropWhile p = xs ++ ys.rdropWhile p := by
  induction ys using List.reverseRecOn with
  | nil => rw [List.append_nil, rdropWhile_of_last h, List.rdropWhile_nil, List.append_nil]
  | append_singleton ys a ih =>
    rw [← List.append_assoc]
    by_cases ha : p a
    · rw [List.rdropWhile_concat_pos _ _ _ ha, List.rdropWhile_concat_pos _ _ _ ha, ih]
    · rw [List.rdropWhile_concat_neg _ _ _ ha, List.rdropWhile_concat_neg _ _ _ ha, List.append_assoc]

/-- It does not matter which end is trimmed first. -/
theorem dropWhile_rdropWhile (l : List α) : (l.rdropWhile p).dropWhile p = trimEnds p l := by
  have hsplit : l = l.takeWhile p ++ l.dropWhile p := List.takeWhile_append_dropWhile.symm
  have htake : ∀ a ∈ l.takeWhile p, p a := fun a ha => List.mem_takeWhile_imp ha
  cases hdrop : l.dropWhile p with
  | nil =>
    have hall : ∀ a ∈ l, p a := List.dropWhile_eq_nil_iff.mp hdrop
    rw [trimEnds, hdrop, List.rdropWhile_eq_nil_iff.mpr hall, List.dropWhile_nil, List.rdropWhile_nil]
  | cons b t =>
    have hb : ¬ p b := head?_dropWhile_not p l b (by rw [hdrop]; rfl)
    have hstay : (b :: t).rdropWhile p = b :: t.rdropWhile p := by
      rw [← List.singleton_append, rdropWhile_append t (by simpa using hb), List.singleton_append]
    have hlast : ∀ a ∈ (l.takeWhile p ++ [b]).getLast?, ¬ p a := by simpa using hb
    have hfull : l.rdropWhile p = l.takeWhile p ++ b :: t.rdropWhile p := by
      conv_lhs => rw [hsplit, hdrop, ← List.singleton_append, ← List.append_assoc, rdropWhile_append _ hlast]
      simp
    rw [trimEnds, hdrop, hstay, hfull, List.dropWhile_append_of_pos htake, List.dropWhile_cons_of_neg hb]

theorem trimEnds_cons {a : α} (h : p a) (l : List α) : trimEnds p (a :: l) = trimEnds p l := by
  rw [trimEnds, List.dropWhile_cons_of_pos h, ← trimEnds]

theorem trimEnds_concat {a : α} (h : p a) (l : List α) : trimEnds p (l ++ [a]) = trimEnds p l := by
  rw [← dropWhile_rdropWhile, List.rdropWhile_concat_pos _ _ _ h, dropWhile_rdropWhile]

theorem trimEnds_rdropWhile (l : List α) : trimEnds p (l.rdropWhile p) = trimEnds p l := by
  rw [← dropWhile_rdropWhile, List.rdropWhile_idempotent, dropWhile_rdropWhile]

theorem trimEnds_sublist (l : List α) : (trimEnds p l).Sublist l :=
  (List.rdropWhile_prefix p _).sublist.trans (List.dropWhile_sublist p)

theorem mem_of_mem_trimEnds {l : List α} {a : α} (h : a ∈ trimEnds p l) : a ∈ l :=
  (trimEnds_sublist l).subset h

/-- Whether a list is trimmed can be read off its ends. -/
theorem Trimmed.congr {l l' : List α} (hhead : l'.head?.map p = l.head?.map p)
    (hlast : l'.getLast?.map p = l.getLast?.map p) : Trimmed p l' ↔ Trimmed p l := by
  have hread : ∀ o o' : Option α, o'.map p = o.map p → ((∀ a ∈ o', ¬ p a) ↔ ∀ a ∈ o, ¬ p a) := by
    rintro (_ | a) (_ | b) h <;> simp_all
  constructor
  · intro h
    exact ⟨(hread _ _ hhead).mp h.head, (hread _ _ hlast).mp h.last⟩
  · intro h
    exact ⟨(hread _ _ hhead).mpr h.head, (hread _ _ hlast).mpr h.last⟩

variable (p)

theorem trimmed_trimEnds (l : List α) : Trimmed p (trimEnds p l) where
  head a ha := head?_dropWhile_not p l a (head?_rdropWhile p ha)
  last := getLast?_rdropWhile_not p _

theorem trimEnds_idem (l : List α) : trimEnds p (trimEnds p l) = trimEnds p l :=
  (trimmed_trimEnds p l).trimEnds_eq

theorem trimEnds_eq_self_iff {l : List α} : trimEnds p l = l ↔ Trimmed p l :=
  ⟨fun h => h ▸ trimmed_trimEnds p l, Trimmed.trimEnds_eq⟩

/-! ### Two trims of one list -/

variable {p} {q : α → Bool}

theorem dropWhile_dropWhile (h : ∀ a, q a → p a) (l : List α) : (l.dropWhile q).dropWhile p = l.dropWhile p := by
  induction l with
  | nil => rfl
  | cons a l ih =>
    by_cases ha : q a
    · rw [List.dropWhile_cons_of_pos ha, List.dropWhile_cons_of_pos (h a ha), ih]
    · rw [List.dropWhile_cons_of_neg ha]

theorem rdropWhile_rdropWhile (h : ∀ a, q a → p a) (l : List α) : (l.rdropWhile q).rdropWhile p = l.rdropWhile p := by
  rw [List.rdropWhile, List.rdropWhile, List.rdropWhile, List.reverse_reverse, dropWhile_dropWhile h]

/-- What a smaller set takes away first makes no difference. -/
theorem trimEnds_trimEnds (h : ∀ a, q a → p a) (l : List α) : trimEnds p (trimEnds q l) = trimEnds p l := by
  calc trimEnds p (trimEnds q l) = (((l.dropWhile q).rdropWhile q).rdropWhile p).dropWhile p := (dropWhile_rdropWhile _).symm
    _ = trimEnds p (l.dropWhile q) := by rw [rdropWhile_rdropWhile h, dropWhile_rdropWhile]
    _ = trimEnds p l := by rw [trimEnds, dropWhile_dropWhile h, ← trimEnds]

theorem trimEnds_reverse (l : List α) : trimEnds p l.reverse = (trimEnds p l).reverse := by
  rw [← dropWhile_rdropWhile, List.rdropWhile, trimEnds, List.rdropWhile, List.reverse_reverse, List.reverse_reverse]

theorem trimmed_reverse {l : List α} : Trimmed p l.reverse ↔ Trimmed p l := by
  rw [← trimEnds_eq_self_iff, ← trimEnds_eq_self_iff, trimEnds_reverse, List.reverse_inj]

theorem head?_trimEnds {l : List α} {a : α} (h : l.head? = some a) (ha : ¬ p a) : (trimEnds p l).head? = some a := by
  cases l with
  | nil => cases h
  | cons b l =>
    cases h
    have hlast : ∀ c ∈ [a].getLast?, ¬ p c := by simpa using ha
    rw [trimEnds, List.dropWhile_cons_of_neg ha, ← List.singleton_append, rdropWhile_append l hlast]
    rfl

/-- With nothing at the ends for one of them alone, both trims leave the same. -/
theorem trimEnds_eq_of_trimmed_or {l : List α} (h : Trimmed (fun a => p a || q a) (trimEnds (fun a => p a && q a) l)) :
    trimEnds p l = trimEnds (fun a => p a && q a) l ∧ trimEnds q l = trimEnds (fun a => p a && q a) l := by
  have hkeeps : ∀ r : α → Bool, (∀ a, r a → p a || q a) → (∀ a, p a && q a → r a) →
      trimEnds r l = trimEnds (fun a => p a && q a) l := by
    intro r hor hand
    have hr : Trimmed r (trimEnds (fun a => p a && q a) l) :=
      ⟨fun a ha hra => h.head a ha (hor a hra), fun a ha hra => h.last a ha (hor a hra)⟩
    rw [← trimEnds_trimEnds hand, hr.trimEnds_eq]
  constructor
  · apply hkeeps p <;> simp +contextual
  · apply hkeeps q <;> simp +contextual

theorem head_of_trimmed {l : List α} (hp : Trimmed q (trimEnds p l)) (hq : Trimmed p (trimEnds q l)) :
    ∀ a ∈ (trimEnds (fun a => p a && q a) l).head?, ¬ (p a || q a) := by
  intro a ha
  have hnot : ¬ (p a && q a) := (trimmed_trimEnds (fun a => p a && q a) l).head a ha
  -- the one that keeps the head shows it to the other
  have hleft : ¬ q a → ¬ p a := by
    intro hqa
    apply hq.head
    rw [← trimEnds_trimEnds (q := fun a => p a && q a) (by simp)]
    exact head?_trimEnds ha hqa
  have hright : ¬ p a → ¬ q a := by
    intro hpa
    apply hp.head
    rw [← trimEnds_trimEnds (q := fun a => p a && q a) (by simp +contextual)]
    exact head?_trimEnds ha hpa
  simp only [Bool.and_eq_true, Bool.or_eq_true] at hnot ⊢
  tauto

/-- Each trim leaves nothing for the other exactly when nothing at the ends is for one of them alone. -/
theorem trimmed_or_iff {l : List α} :
    Trimmed (fun a => p a || q a) (trimEnds (fun a => p a && q a) l) ↔
      Trimmed q (trimEnds p l) ∧ Trimmed p (trimEnds q l) := by
  constructor
  · intro h
    have heq : trimEnds p l = trimEnds q l :=
      (trimEnds_eq_of_trimmed_or h).1.trans (trimEnds_eq_of_trimmed_or h).2.symm
    constructor
    · rw [heq]
      exact trimmed_trimEnds q l
    · rw [← heq]
      exact trimmed_trimEnds p l
  · intro h
    constructor
    · exact head_of_trimmed h.1 h.2
    · intro a ha
      apply head_of_trimmed (l := l.reverse)
      · rw [trimEnds_reverse, trimmed_reverse]
        exact h.1
      · rw [trimEnds_reverse, trimmed_reverse]
        exact h.2
      · rwa [trimEnds_reverse, List.head?_reverse]

end CyberstalkMe.Foundations
