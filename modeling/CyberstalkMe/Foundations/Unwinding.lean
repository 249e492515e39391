import Mathlib.Data.List.Basic

/-! # What can be left out of a run

A machine answers every action it takes. When the actions of one kind change nothing that matters to the
others, they can be left out of a run, and no other action is answered differently.
-/
namespace CyberstalkMe.Foundations

variable {σ α ω : Type*} (step : σ → α → σ × ω)

/-- The state after some actions. -/
def stateAfter (s : σ) (as : List α) : σ := as.foldl (fun s a => (step s a).1) s

/-- The actions of a run with their answers. -/
def answers : σ → List α → List (α × ω)
  | _, [] => []
  | s, a :: as => (a, (step s a).2) :: answers (step s a).1 as

@[simp] theorem stateAfter_nil (s : σ) : stateAfter step s [] = s := rfl

@[simp] theorem stateAfter_cons (s : σ) (a : α) (as : List α) :
    stateAfter step s (a :: as) = stateAfter step (step s a).1 as := rfl

theorem stateAfter_append (s : σ) (as bs : List α) :
    stateAfter step s (as ++ bs) = stateAfter step (stateAfter step s as) bs := List.foldl_append

@[simp] theorem answers_nil (s : σ) : answers step s [] = [] := rfl

@[simp] theorem answers_cons (s : σ) (a : α) (as : List α) :
    answers step s (a :: as) = (a, (step s a).2) :: answers step (step s a).1 as := rfl

theorem answers_append (s : σ) (as bs : List α) :
    answers step s (as ++ bs) = answers step s as ++ answers step (stateAfter step s as) bs := by
  induction as generalizing s with
  | nil => rfl
  | cons a as ih => simp [ih]

/-- States that are alike to the actions that are kept. They stay alike when both take one, which gets the
same answer from both, and when one of them takes an action that is not kept. -/
structure Unwinds (R : σ → σ → Prop) (kept : α → Bool) : Prop where
  step_kept : ∀ s t a, kept a = true → R s t → R (step s a).1 (step t a).1 ∧ (step s a).2 = (step t a).2
  step_dropped : ∀ s t a, kept a = false → R s t → R (step s a).1 t

variable {step} {R : σ → σ → Prop} {kept : α → Bool}

theorem Unwinds.purge (h : Unwinds step R kept) {s t : σ} (hst : R s t) (as : List α) :
    (answers step s as).filter (fun p => kept p.1) = answers step t (as.filter kept) ∧
      R (stateAfter step s as) (stateAfter step t (as.filter kept)) := by
  induction as generalizing s t with
  | nil => exact ⟨rfl, hst⟩
  | cons a as ih =>
    cases ha : kept a with
    | true =>
      obtain ⟨hnext, hanswer⟩ := h.step_kept s t a ha hst
      obtain ⟨hanswers, hend⟩ := ih hnext
      constructor
      · simp [ha, hanswer, hanswers]
      · simpa [ha] using hend
    | false =>
      obtain ⟨hanswers, hend⟩ := ih (h.step_dropped s t a ha hst)
      constructor
      · simp [ha, hanswers]
      · simpa [ha] using hend

/-- The actions of a kind whose answers do not depend on the state. -/
theorem filter_answers_eq_map {known : α → Bool} {answer : α → ω}
    (hknown : ∀ s a, known a = true → (step s a).2 = answer a) (s : σ) (as : List α) :
    (answers step s as).filter (fun p => known p.1) = (as.filter known).map fun a => (a, answer a) := by
  induction as generalizing s with
  | nil => rfl
  | cons a as ih =>
    cases ha : known a with
    | true => simp [ha, ih, hknown s a ha]
    | false => simp [ha, ih]

/-! ### Projections -/

/-- A machine seen through a part of its state: an action is a call of the smaller machine, which gives its
answer, or it leaves that part alone. -/
structure Projects {τ β υ : Type*} (step : σ → α → σ × ω) (step' : τ → β → τ × υ) (part : σ → τ) (call : α → Option β)
    (answer : υ → ω) : Prop where
  step_call : ∀ s a b, call a = some b →
    part (step s a).1 = (step' (part s) b).1 ∧ (step s a).2 = answer (step' (part s) b).2
  step_other : ∀ s a, call a = none → part (step s a).1 = part s

theorem Projects.run {τ β υ : Type*} {step' : τ → β → τ × υ} {part : σ → τ} {call : α → Option β} {answer : υ → ω}
    (h : Projects step step' part call answer) (s : σ) (as : List α) :
    part (stateAfter step s as) = stateAfter step' (part s) (as.filterMap call) ∧
      (answers step s as).filterMap (fun p => (call p.1).map fun b => (b, p.2)) =
        (answers step' (part s) (as.filterMap call)).map fun p => (p.1, answer p.2) := by
  induction as generalizing s with
  | nil => exact ⟨rfl, rfl⟩
  | cons a as ih =>
    obtain ⟨hend, hanswers⟩ := ih (step s a).1
    cases ha : call a with
    | none =>
      rw [h.step_other s a ha] at hend hanswers
      constructor
      · simpa [ha] using hend
      · simpa [ha] using hanswers
    | some b =>
      obtain ⟨hpart, hanswer⟩ := h.step_call s a b ha
      rw [hpart] at hend hanswers
      constructor
      · simpa [ha] using hend
      · simpa [ha, hanswer] using hanswers

end CyberstalkMe.Foundations
