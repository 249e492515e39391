import Mathlib.Data.Option.Basic
import Mathlib.Data.List.Basic

/-! # Executions of a partial step function

A system is a step function `σ → α → Option σ`; `none` says that the action is
not enabled. A schedule is a list of actions, so a statement about every
schedule is a statement about every interleaving. `Meets` restricts a schedule
by a condition on the state before each of its actions.
-/
namespace CyberstalkMe.Foundations

variable {σ α : Type*} (step : σ → α → Option σ)

/-- Take the actions from left to right; one that is not enabled ends the execution. -/
def execute : σ → List α → Option σ
  | s, [] => some s
  | s, a :: as => (step s a).bind fun t => execute t as

@[simp] theorem execute_nil (s : σ) : execute step s [] = some s := rfl

theorem execute_cons {s u : σ} {a : α} {as : List α} :
    execute step s (a :: as) = some u ↔ ∃ t, step s a = some t ∧ execute step t as = some u := by
  simp [execute, Option.bind_eq_some_iff]

theorem execute_append (s : σ) (as bs : List α) :
    execute step s (as ++ bs) = (execute step s as).bind fun t => execute step t bs := by
  induction as generalizing s with
  | nil => rfl
  | cons a as ih =>
    simp only [List.cons_append, execute]
    cases step s a with
    | none => rfl
    | some t => exact ih t

/-- Every action of the schedule meets the condition in the state in which it is taken. -/
def Meets (guard : σ → α → Prop) : σ → List α → Prop
  | _, [] => True
  | s, a :: as => guard s a ∧ ∀ t, step s a = some t → Meets guard t as

variable {step} {guard : σ → α → Prop}

theorem meets_true (s : σ) (as : List α) : Meets step (fun _ _ => True) s as := by
  induction as generalizing s with
  | nil => trivial
  | cons a as ih => exact ⟨trivial, fun t _ => ih t⟩

theorem meets_cons {s t : σ} {a : α} {as : List α} (hstep : step s a = some t) (hg : guard s a)
    (h : Meets step guard t as) : Meets step guard s (a :: as) := by
  refine ⟨hg, fun t' ht' => ?_⟩
  cases hstep.symm.trans ht'
  exact h

theorem meets_of_forall {as : List α} (h : ∀ a ∈ as, ∀ s, guard s a) (s : σ) :
    Meets step guard s as := by
  induction as generalizing s with
  | nil => trivial
  | cons a as ih =>
    exact ⟨h a List.mem_cons_self s, fun t _ => ih (fun b hb => h b (List.mem_cons_of_mem a hb)) t⟩

theorem meets_and {guard' : σ → α → Prop} {s : σ} {as : List α} :
    Meets step (fun s a => guard s a ∧ guard' s a) s as ↔ Meets step guard s as ∧ Meets step guard' s as := by
  induction as generalizing s with
  | nil => simp [Meets]
  | cons a as ih =>
    simp only [Meets, ih, forall_and]
    exact and_and_and_comm

/-- In the states of an invariant one condition implies another. -/
theorem Meets.imp {guard' : σ → α → Prop} {I : σ → Prop}
    (hstep : ∀ s a t, I s → guard s a → step s a = some t → I t)
    (himp : ∀ s a, I s → guard s a → guard' s a) {s : σ} {as : List α} (hs : I s)
    (hm : Meets step guard s as) : Meets step guard' s as := by
  induction as generalizing s with
  | nil => trivial
  | cons a as ih => exact ⟨himp s a hs hm.1, fun t ht => ih (hstep s a t hs hm.1 ht) (hm.2 t ht)⟩

/-- A condition that can be decided on each step can be decided on a schedule. -/
instance Meets.decidable [∀ s a, Decidable (guard s a)] :
    ∀ (s : σ) (as : List α), Decidable (Meets step guard s as)
  | _, [] => isTrue trivial
  | s, a :: as =>
    match hstep : step s a with
    | none => decidable_of_iff (guard s a) (by simp [Meets, hstep])
    | some t =>
      have : Decidable (Meets step guard t as) := Meets.decidable t as
      decidable_of_iff (guard s a ∧ Meets step guard t as) (by simp [Meets, hstep])

/-- The invariant rule. A guarded step preserves `I`, so a guarded schedule does. -/
theorem execute_invariant {I : σ → Prop}
    (hstep : ∀ s a t, I s → guard s a → step s a = some t → I t)
    {s u : σ} {as : List α} (hs : I s) (hm : Meets step guard s as)
    (he : execute step s as = some u) : I u := by
  induction as generalizing s with
  | nil => exact Option.some.inj he ▸ hs
  | cons a as ih =>
    obtain ⟨t, ht, hu⟩ := (execute_cons step).mp he
    exact ih (hstep s a t hs hm.1 ht) (hm.2 t ht) hu

theorem execute_invariant_all {I : σ → Prop}
    (hstep : ∀ s a t, I s → step s a = some t → I t)
    {s u : σ} {as : List α} (hs : I s) (he : execute step s as = some u) : I u := by
  have hm : Meets step (fun _ _ => True) s as := meets_true s as
  exact execute_invariant (fun s a t hI _ => hstep s a t hI) hs hm he

/-- The rule for a relation between two moments of one run: reflexive, transitive and kept
by every guarded step from an invariant state. -/
theorem execute_relation {I : σ → Prop} {R : σ → σ → Prop}
    (hrefl : ∀ s, R s s) (htrans : ∀ s t u, R s t → R t u → R s u)
    (hstep : ∀ s a t, I s → guard s a → step s a = some t → I t ∧ R s t)
    {s u : σ} {as : List α} (hs : I s) (hm : Meets step guard s as)
    (he : execute step s as = some u) : R s u := by
  induction as generalizing s with
  | nil => exact Option.some.inj he ▸ hrefl s
  | cons a as ih =>
    obtain ⟨t, ht, hu⟩ := (execute_cons step).mp he
    obtain ⟨hI, hR⟩ := hstep s a t hs hm.1 ht
    exact htrans s t u hR (ih hI (hm.2 t ht) hu)

/-- The rule from the end of a run back: when a step that ends in `J` started in `J` and met its
condition, a run that ends in `J` met all of them. -/
theorem meets_of_execute {I J : σ → Prop}
    (hstep : ∀ s a t, I s → step s a = some t → I t)
    (hback : ∀ s a t, I s → step s a = some t → J t → J s ∧ guard s a)
    {s u : σ} {as : List α} (hs : I s) (he : execute step s as = some u) (hu : J u) :
    J s ∧ Meets step guard s as := by
  induction as generalizing s with
  | nil => exact ⟨Option.some.inj he ▸ hu, trivial⟩
  | cons a as ih =>
    obtain ⟨t, ht, he'⟩ := (execute_cons step).mp he
    obtain ⟨hJ, hm⟩ := ih (hstep s a t hs ht) he'
    obtain ⟨hJs, hg⟩ := hback s a t hs ht hJ
    exact ⟨hJs, meets_cons ht hg hm⟩

/-- When a step keeps `I` exactly under its condition, a run meets the conditions exactly when `I`
holds of every state it goes through. -/
theorem meets_iff_forall_reached {I : σ → Prop}
    (hstep : ∀ s a t, I s → step s a = some t → (I t ↔ guard s a))
    {s u : σ} {as : List α} (hs : I s) (he : execute step s as = some u) :
    Meets step guard s as ↔ ∀ bs cs t, as = bs ++ cs → execute step s bs = some t → I t := by
  constructor
  · rintro hm bs cs t rfl ht
    induction bs generalizing s with
    | nil => exact Option.some.inj ht ▸ hs
    | cons b bs ih =>
      obtain ⟨v, hv, ht'⟩ := (execute_cons step).mp ht
      obtain ⟨v', hv', hu⟩ := (execute_cons step).mp he
      rw [hv, Option.some.injEq] at hv'
      subst hv'
      exact ih ((hstep s b v hs hv).mpr hm.1) hu (hm.2 v hv) ht'
  · intro hall
    induction as generalizing s with
    | nil => trivial
    | cons a as ih =>
      obtain ⟨v, hv, hu⟩ := (execute_cons step).mp he
      have hI : I v := hall [a] as v rfl ((execute_cons step).mpr ⟨v, hv, rfl⟩)
      apply meets_cons hv ((hstep s a v hs hv).mp hI)
      apply ih hI hu
      rintro bs cs t rfl ht
      exact hall (a :: bs) cs t rfl ((execute_cons step).mpr ⟨v, hv, ht⟩)

/-! ### Reachability -/

variable (step) in
/-- A schedule of allowed actions leads from the one state to the other. -/
def Reaches (allowed : α → Prop) (s t : σ) : Prop :=
  ∃ as, (∀ a ∈ as, allowed a) ∧ execute step s as = some t

namespace Reaches
variable {allowed : α → Prop}

theorem refl (s : σ) : Reaches step allowed s s := ⟨[], List.forall_mem_nil _, rfl⟩

theorem trans {s t u : σ} (h : Reaches step allowed s t) (h' : Reaches step allowed t u) :
    Reaches step allowed s u := by
  obtain ⟨as, has, hst⟩ := h
  obtain ⟨bs, hbs, htu⟩ := h'
  refine ⟨as ++ bs, List.forall_mem_append.mpr ⟨has, hbs⟩, ?_⟩
  rw [execute_append, hst, Option.bind_some, htu]

theorem tail {s t u : σ} {a : α} (h : Reaches step allowed s t) (ha : allowed a)
    (hstep : step t a = some u) : Reaches step allowed s u := by
  have hone : Reaches step allowed t u :=
    ⟨[a], List.forall_mem_singleton.mpr ha, (execute_cons step).mpr ⟨u, hstep, rfl⟩⟩
  exact h.trans hone

theorem mono {allowed' : α → Prop} {s t : σ} (himp : ∀ a, allowed a → allowed' a)
    (h : Reaches step allowed s t) : Reaches step allowed' s t := by
  obtain ⟨as, has, hst⟩ := h
  exact ⟨as, fun a ha => himp a (has a ha), hst⟩

end Reaches

/-- The simulation rule. A relation under which another system matches each step by a schedule of its
own matches each execution. -/
theorem execute_simulation {τ β : Type*} {step' : τ → β → Option τ} {R : σ → τ → Prop}
    (hstep : ∀ s a t p, R s p → step s a = some t → ∃ q, Reaches step' (fun _ => True) p q ∧ R t q)
    {s u : σ} {p : τ} {as : List α} (hs : R s p) (he : execute step s as = some u) :
    ∃ q, Reaches step' (fun _ => True) p q ∧ R u q := by
  induction as generalizing s p with
  | nil => exact ⟨p, .refl p, Option.some.inj he ▸ hs⟩
  | cons a as ih =>
    obtain ⟨t, ht, hu⟩ := (execute_cons step).mp he
    obtain ⟨q, hpq, htq⟩ := hstep s a t p hs ht
    obtain ⟨r, hqr, hur⟩ := ih htq hu
    exact ⟨r, hpq.trans hqr, hur⟩

end CyberstalkMe.Foundations
