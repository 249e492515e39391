import Mathlib.Data.Int.Init
import Mathlib.Order.Monotone.Basic
import Mathlib.Order.SuccPred.IntervalSucc
import Mathlib.Algebra.Order.SuccPred
import Mathlib.Data.Int.SuccPred
import Mathlib.Tactic.Ring

/-! # Wall clocks with isolated offset changes

A clock shows the instant `t` as the reading `t + offset t`, in seconds. The
offset changes at most once in any two days. `resolve` is the common way to turn
a reading into an instant: guess the offset from the reading itself, then look
it up again.

A reading that the clock jumps over has no instant. When the jumps are of at most
half a day, `resolve` then answers with an instant on one side of the jump, and
on which side depends on the sign of the offset: the reading is `Lost` when the
answer shows an earlier one.
-/
namespace CyberstalkMe.Foundations

/-- A clock whose offset changes at isolated instants only. -/
structure Clock where
  offset : ℤ → ℤ
  bounded : ∀ t, -86400 ≤ offset t ∧ offset t ≤ 86400
  isolated : ∀ s, ∃ T a b, ∀ r, s ≤ r → r ≤ s + 172800 → offset r = if r < T then a else b

/-- A clock whose offset changes by at most half a day. -/
class Clock.Gradual (c : Clock) : Prop where
  isolated : ∀ s, ∃ T a b, (-43200 ≤ b - a ∧ b - a ≤ 43200) ∧
    ∀ r, s ≤ r → r ≤ s + 172800 → c.offset r = if r < T then a else b

namespace Clock
variable (c : Clock)

/-- What the clock shows at an instant. -/
def reading (t : ℤ) : ℤ := t + c.offset t

def day (t : ℤ) : ℤ := c.reading t / 86400

/-- An instant for a reading. -/
def resolve (u : ℤ) : ℤ := u - c.offset (u - c.offset u)

def midnight (D : ℤ) : ℤ := c.resolve (86400 * D)

/-- The clock jumps over the reading `u` at an instant later than `u` itself. -/
def Lost (u : ℤ) : Prop := ∃ T, c.reading (T - 1) < u ∧ u < c.reading T ∧ u < T

def startOfDay (t : ℤ) : ℤ := c.midnight (c.day t)

def nextDay (t : ℤ) : ℤ := c.startOfDay (c.resolve (c.reading t + 86400))

/-! ### Readings that are shown once -/

theorem window (u : ℤ) : ∃ T a b, ∀ r, u - 86400 ≤ r → r ≤ u + 86400 → c.offset r = if r < T then a else b := by
  obtain ⟨T, a, b, hw⟩ := c.isolated (u - 86400)
  exact ⟨T, a, b, fun r h1 h2 => hw r h1 (by omega)⟩

theorem resolve_of_window {u T a b : ℤ} (hw : ∀ r, u - 86400 ≤ r → r ≤ u + 86400 → c.offset r = if r < T then a else b) :
    ∃ o p q, (-86400 ≤ o ∧ o ≤ 86400) ∧ (-86400 ≤ p ∧ p ≤ 86400) ∧
      c.resolve u = u - p ∧ c.reading (c.resolve u) = u - p + q ∧
      (o = if u < T then a else b) ∧ (p = if u - o < T then a else b) ∧ (q = if u - p < T then a else b) := by
  have ho := c.bounded u
  have hp := c.bounded (u - c.offset u)
  exact ⟨c.offset u, c.offset (u - c.offset u), c.offset (c.resolve u), ho, hp, rfl, rfl,
    hw u (by omega) (by omega), hw _ (by omega) (by omega),
    hw _ (by unfold resolve; omega) (by unfold resolve; omega)⟩

/-- A reading that the clock shows is resolved to an instant that shows it. -/
theorem reading_resolve_of_reading {x u : ℤ} (hx : c.reading x = u) : c.reading (c.resolve u) = u := by
  obtain ⟨T, a, b, hw⟩ := c.window u
  obtain ⟨o, p, q, ho, hp, -, hread, h1, h2, h3⟩ := c.resolve_of_window hw
  have hb := c.bounded x
  unfold reading at hx
  have h4 := hw x (by omega) (by omega)
  rw [hread]
  split_ifs at h1 h2 h3 h4 <;> omega

/-- A reading that is shown once divides the instants: those from its own on show it or a later reading. -/
theorem resolve_le_iff_of_unique {u : ℤ} (h : ∃! x, c.reading x = u) (t : ℤ) : c.resolve u ≤ t ↔ u ≤ c.reading t := by
  obtain ⟨x, hx, huniq⟩ := h
  have hres : c.resolve u = x := huniq _ (c.reading_resolve_of_reading hx)
  rw [hres]
  obtain ⟨T, a, b, hw⟩ := c.window u
  have hxb := c.bounded x
  have htb := c.bounded t
  have hwx := hw x (by unfold reading at hx; omega) (by unfold reading at hx; omega)
  constructor
  · intro hle
    by_contra hlt
    have hwt := hw t (by unfold reading at *; omega) (by unfold reading at *; omega)
    -- the clock goes back between the two, and comes to the reading once more
    have hagain : c.reading (u - c.offset t) = u := by
      have hwz := hw (u - c.offset t) (by omega) (by omega)
      unfold reading at *
      split_ifs at hwx hwt hwz <;> omega
    have heq := huniq _ hagain
    unfold reading at *
    omega
  · intro hle
    by_contra hlt
    have hwt := hw t (by unfold reading at *; omega) (by unfold reading at *; omega)
    have hbefore : c.reading (u - c.offset t) = u := by
      have hwz := hw (u - c.offset t) (by omega) (by omega)
      unfold reading at *
      split_ifs at hwx hwt hwz <;> omega
    have heq := huniq _ hbefore
    unfold reading at *
    omega

theorem day_midnight_of_reading {D : ℤ} (h : c.reading (c.midnight D) = 86400 * D) : c.day (c.midnight D) = D := by
  unfold day
  omega

theorem resolve_next_of_reading {D : ℤ} (h : c.reading (c.midnight D) = 86400 * D) :
    c.resolve (c.reading (c.midnight D) + 86400) = c.midnight (D + 1) := by
  rw [h, midnight, mul_add, mul_one]

theorem nextDay_midnight_of_reading {D : ℤ} (h : c.reading (c.midnight D) = 86400 * D)
    (h' : c.day (c.midnight (D + 1)) = D + 1) : c.nextDay (c.midnight D) = c.midnight (D + 1) := by
  rw [nextDay, c.resolve_next_of_reading h, startOfDay, h']

/-! ### The walk over the days -/

/-- Step `n` times from the start of the day of an instant. -/
def walk (t : ℤ) (n : ℕ) : ℤ := c.nextDay^[n] (c.startOfDay t)

theorem walk_zero (t : ℤ) : c.walk t 0 = c.startOfDay t := rfl

theorem walk_succ (t : ℤ) (n : ℕ) : c.walk t (n + 1) = c.nextDay (c.walk t n) :=
  Function.iterate_succ_apply' _ _ _

/-- The walk climbs: it passes `stop` after finitely many steps, each of them forward, and no day is
visited twice before. -/
def Climbs (t stop : ℤ) : Prop :=
  ∃ n, stop ≤ c.walk t n ∧ (∀ k < n, c.walk t k < stop ∧ c.walk t k < c.walk t (k + 1)) ∧
    ∀ j < n, ∀ k < n, c.day (c.walk t j) = c.day (c.walk t k) → j = k

/-- No midnight is lost from the day of `t` to the first one that follows a midnight at or after
`stop`. -/
def Kept (t stop : ℤ) : Prop :=
  ∀ D, c.day t ≤ D → (D = c.day t ∨ c.midnight (D - 1) < stop) → ¬ c.Lost (86400 * D)

theorem walk_eq_of_next {t : ℤ} {n : ℕ}
    (h : ∀ k < n, c.nextDay (c.midnight (c.day t + (k : ℕ))) = c.midnight (c.day t + (k : ℕ) + 1)) :
    c.walk t n = c.midnight (c.day t + n) := by
  induction n with
  | zero => simp [walk_zero, startOfDay]
  | succ n ih =>
    have hcast : c.day t + ((n + 1 : ℕ) : ℤ) = c.day t + n + 1 := by omega
    rw [walk_succ, ih fun k hk => h k (Nat.lt_succ_of_lt hk), h n (Nat.lt_succ_self n), hcast]

/-- The clock shows the midnight of every day from `D` to `E` once. -/
def Once (D E : ℤ) : Prop := ∀ F, D ≤ F → F ≤ E → ∃! t, c.reading t = 86400 * F

theorem walk_of_once {t : ℤ} {n : ℕ} (h : c.Once (c.day t) (c.day t + n)) {k : ℕ} (hk : k ≤ n) :
    c.walk t k = c.midnight (c.day t + k) ∧ c.day (c.walk t k) = c.day t + k := by
  have hread : ∀ j : ℕ, j ≤ n → c.reading (c.midnight (c.day t + j)) = 86400 * (c.day t + j) := by
    intro j hj
    obtain ⟨x, hx, -⟩ := h (c.day t + j) (by omega) (by omega)
    exact c.reading_resolve_of_reading hx
  have hwalk : c.walk t k = c.midnight (c.day t + k) := by
    apply c.walk_eq_of_next
    intro j hj
    have hnext := hread (j + 1) (by omega)
    have hcast : c.day t + ((j + 1 : ℕ) : ℤ) = c.day t + j + 1 := by omega
    rw [hcast] at hnext
    exact c.nextDay_midnight_of_reading (hread j (by omega)) (c.day_midnight_of_reading hnext)
  exact ⟨hwalk, hwalk ▸ c.day_midnight_of_reading (hread k hk)⟩

theorem midnight_le_iff_of_unique {D : ℤ} (h : ∃! x, c.reading x = 86400 * D) (t : ℤ) :
    c.midnight D ≤ t ↔ D ≤ c.day t := by
  rw [midnight, c.resolve_le_iff_of_unique h]
  unfold day
  omega

theorem walk_lt_of_returns {t stop : ℤ} {n j : ℕ} (hj : j ≤ n) (hback : c.walk t (n + 1) = c.walk t j)
    (hbelow : ∀ k ≤ n, c.walk t k < stop) (k : ℕ) : c.walk t k < stop := by
  have hvisited : ∃ i ≤ n, c.walk t k = c.walk t i := by
    induction k with
    | zero => exact ⟨0, Nat.zero_le n, rfl⟩
    | succ k ih =>
      obtain ⟨i, hi, heq⟩ := ih
      have hnext : c.walk t (k + 1) = c.walk t (i + 1) := by rw [walk_succ, heq, walk_succ]
      rcases hi.lt_or_eq with hlt | rfl
      · exact ⟨i + 1, hlt, hnext⟩
      · exact ⟨j, hj, hnext.trans hback⟩
  obtain ⟨i, hi, heq⟩ := hvisited
  rw [heq]
  exact hbelow i hi

theorem passes_or_stays (t stop : ℤ) :
    (∃ n, stop ≤ c.walk t n ∧ ∀ k < n, c.walk t k < stop) ∨ ∀ k, c.walk t k < stop := by
  classical
  by_cases hpass : ∃ n, stop ≤ c.walk t n
  · exact Or.inl ⟨Nat.find hpass, Nat.find_spec hpass, fun k hk => not_le.mp (Nat.find_min hpass hk)⟩
  · right
    intro k
    by_contra hle
    exact hpass ⟨k, not_lt.mp hle⟩

theorem exists_first_lost {D E : ℤ} (hle : D ≤ E) (h : c.Lost (86400 * E)) :
    ∃ k : ℕ, D + k ≤ E ∧ c.Lost (86400 * (D + k)) ∧ ∀ j < k, ¬ c.Lost (86400 * (D + (j : ℕ))) := by
  classical
  have hE : D + ((E - D).toNat : ℤ) = E := by omega
  have hex : ∃ k : ℕ, c.Lost (86400 * (D + k)) := ⟨(E - D).toNat, by rwa [hE]⟩
  refine ⟨Nat.find hex, ?_, Nat.find_spec hex, fun j hj => Nat.find_min hex hj⟩
  have hmin := Nat.find_min' hex (by rwa [hE] : c.Lost (86400 * (D + ((E - D).toNat : ℤ))))
  omega

/-! ### Changes of the offset -/

/-- In a window the offset changes at one instant only. -/
theorem eq_of_change {u T a b : ℤ} (T' : ℤ)
    (hw : ∀ r, u - 86400 ≤ r → r ≤ u + 86400 → c.offset r = if r < T then a else b)
    (hlow : u - 86400 ≤ T' - 1) (hhigh : T' ≤ u + 86400) (hchange : c.offset (T' - 1) ≠ c.offset T') :
    T' = T ∧ c.offset (T' - 1) = a ∧ c.offset T' = b := by
  have hbefore := hw (T' - 1) hlow (by omega)
  have hat := hw T' (by omega) hhigh
  split_ifs at hbefore hat <;> omega

theorem offset_after {T r : ℤ} (hT : c.offset (T - 1) ≠ c.offset T) (h : T ≤ r) (h' : r < T + 172800) :
    c.offset r = c.offset T := by
  obtain ⟨T', a, b, hw⟩ := c.isolated (T - 1)
  rw [hw (T - 1) le_rfl (by omega), hw T (by omega) (by omega)] at hT
  rw [hw r (by omega) (by omega), hw T (by omega) (by omega)]
  split_ifs at hT ⊢ <;> omega

theorem offset_of_window {T a b lo hi : ℤ} (hw : ∀ r, lo ≤ r → r ≤ hi → c.offset r = if r < T then a else b)
    (hlo : lo ≤ T - 1) (hhi : T ≤ hi) : c.offset (T - 1) = a ∧ c.offset T = b := by
  have hbefore := hw (T - 1) hlo (by omega)
  have hat := hw T (by omega) hhi
  rw [if_pos (by omega)] at hbefore
  rw [if_neg (by omega)] at hat
  exact ⟨hbefore, hat⟩

section Gradual
variable [c.Gradual]

/-! ### Resolving a reading -/

/-- Between two instants at most two days apart the offset changes by at most half a day. -/
theorem offset_near {s t : ℤ} (hst : s ≤ t) (hts : t ≤ s + 172800) :
    -43200 ≤ c.offset t - c.offset s ∧ c.offset t - c.offset s ≤ 43200 := by
  obtain ⟨T, a, b, hab, hw⟩ := Gradual.isolated (c := c) s
  rw [hw s le_rfl (by omega), hw t hst hts]
  split_ifs <;> omega

/-- An instant more than half a day later has a later reading. -/
theorem reading_lt {s t : ℤ} (h : s + 43200 < t) : c.reading s < c.reading t := by
  unfold reading
  by_cases hnear : t ≤ s + 172800
  · have hoff := c.offset_near (by omega) hnear
    omega
  · have hs := c.bounded s
    have ht := c.bounded t
    omega

/-- The lookups of `resolve` next to a change of at most half a day. -/
theorem resolve_cases (u : ℤ) : ∃ T a b o p q, (-43200 ≤ b - a ∧ b - a ≤ 43200) ∧
    (-86400 ≤ o ∧ o ≤ 86400) ∧ (-86400 ≤ p ∧ p ≤ 86400) ∧
    c.resolve u = u - p ∧ c.reading (c.resolve u) = u - p + q ∧
    (o = if u < T then a else b) ∧ (p = if u - o < T then a else b) ∧ (q = if u - p < T then a else b) ∧
    ∀ r, u - 86400 ≤ r → r ≤ u + 86400 → c.offset r = if r < T then a else b := by
  obtain ⟨T, a, b, hab, hw⟩ := Gradual.isolated (c := c) (u - 86400)
  have hwindow : ∀ r, u - 86400 ≤ r → r ≤ u + 86400 → c.offset r = if r < T then a else b := fun r h1 h2 =>
    hw r h1 (by omega)
  obtain ⟨o, p, q, ho, hp, hres, hread, h1, h2, h3⟩ := c.resolve_of_window hwindow
  exact ⟨T, a, b, o, p, q, hab, ho, hp, hres, hread, h1, h2, h3, hwindow⟩

/-- The answer shows the reading to within half a day. -/
theorem reading_resolve_near (u : ℤ) :
    u - 43200 ≤ c.reading (c.resolve u) ∧ c.reading (c.resolve u) ≤ u + 43200 := by
  obtain ⟨T, a, b, o, p, q, hab, ho, hp, -, hread, h1, h2, h3, -⟩ := c.resolve_cases u
  rw [hread]
  split_ifs at h1 h2 h3 <;> omega

theorem lost_iff (u : ℤ) : c.Lost u ↔ c.reading (c.resolve u) < u := by
  obtain ⟨T, a, b, o, p, q, hab, ho, hp, -, hread, h1, h2, h3, hw⟩ := c.resolve_cases u
  rw [hread]
  constructor
  · rintro ⟨T', hbefore, hafter, hlate⟩
    have hb := c.bounded (T' - 1)
    have ha := c.bounded T'
    unfold reading at hbefore hafter
    have h4 := hw (T' - 1) (by omega) (by omega)
    have h5 := hw T' (by omega) (by omega)
    split_ifs at h1 h2 h3 h4 h5 <;> omega
  · intro hlt
    refine ⟨T, ?_⟩
    unfold reading
    by_cases hT : u - 86400 ≤ T - 1 ∧ T ≤ u + 86400
    · have h4 := hw (T - 1) hT.1 (by omega)
      have h5 := hw T (by omega) hT.2
      rw [h4, h5, if_pos (by omega), if_neg (by omega)]
      split_ifs at h1 h2 h3 <;> omega
    · split_ifs at h1 h2 h3 <;> omega

theorem le_reading_resolve {u : ℤ} (h : ¬ c.Lost u) : u ≤ c.reading (c.resolve u) := by
  rw [lost_iff] at h
  omega

/-! ### Midnights -/

theorem midnight_lt_succ (D : ℤ) : c.midnight D < c.midnight (D + 1) := by
  have hu := c.offset_near (s := 86400 * D) (t := 86400 * (D + 1)) (by omega) (by omega)
  have hv := c.offset_near (s := 86400 * D - c.offset (86400 * D))
    (t := 86400 * (D + 1) - c.offset (86400 * (D + 1))) (by omega) (by omega)
  unfold midnight resolve
  omega

/-- The midnights of later days lie at least as many seconds later. -/
theorem midnight_add_le (D : ℤ) (k : ℕ) : c.midnight D + k ≤ c.midnight (D + k) := by
  induction k with
  | zero => simp
  | succ k ih =>
    have h := c.midnight_lt_succ (D + k)
    have hcast : D + ((k + 1 : ℕ) : ℤ) = D + k + 1 := by omega
    rw [hcast]
    omega

theorem midnight_add_sub_le {D E : ℤ} (h : D ≤ E) : c.midnight D + (E - D) ≤ c.midnight E := by
  have hadd := c.midnight_add_le D (E - D).toNat
  have hend : D + ((E - D).toNat : ℤ) = E := by omega
  rw [hend] at hadd
  omega

theorem midnight_lt_iff {D E : ℤ} : c.midnight D < c.midnight E ↔ D < E := by
  constructor
  · intro h
    by_contra hle
    have := c.midnight_add_sub_le (not_lt.mp hle)
    omega
  · intro h
    have := c.midnight_add_sub_le h.le
    omega

theorem day_midnight {D : ℤ} (h : ¬ c.Lost (86400 * D)) : c.day (c.midnight D) = D := by
  have hle := c.le_reading_resolve h
  have hnear := c.reading_resolve_near (86400 * D)
  unfold day midnight
  omega

theorem day_midnight_of_lost {D : ℤ} (h : c.Lost (86400 * D)) : c.day (c.midnight D) = D - 1 := by
  have hlt := (c.lost_iff _).mp h
  have hnear := c.reading_resolve_near (86400 * D)
  unfold day midnight
  omega

/-! ### From midnight to midnight -/

/-- The reading that `resolve` answers with comes round again a day later: no other change is near
enough to skip it. -/
theorem exists_reading_next {u : ℤ} (h : c.reading (c.resolve u) ≠ u) :
    ∃ x, c.reading x = c.reading (c.resolve u) + 86400 := by
  obtain ⟨T, a, b, o, p, q, hab, ho, hp, -, hread, h1, h2, h3, hw⟩ := c.resolve_cases u
  rw [hread] at h
  have hnear : u - 86400 ≤ T - 1 ∧ T ≤ u + 86400 := by split_ifs at h1 h2 h3 <;> omega
  obtain ⟨hbefore, hat⟩ := c.offset_of_window hw hnear.1 hnear.2
  have hchange : c.offset (T - 1) ≠ c.offset T := by split_ifs at h1 h2 h3 <;> omega
  refine ⟨u - p + q + 86400 - b, ?_⟩
  have hafter := c.offset_after (r := u - p + q + 86400 - b) hchange
    (by split_ifs at h1 h2 h3 <;> omega) (by split_ifs at h1 h2 h3 <;> omega)
  rw [hread]
  unfold reading
  omega

theorem day_resolve_next {D : ℤ} (h : c.reading (c.midnight D) ≠ 86400 * D) :
    c.day (c.resolve (c.reading (c.midnight D) + 86400)) = c.day (c.midnight D) + 1 := by
  obtain ⟨x, hx⟩ := c.exists_reading_next h
  have hread := c.reading_resolve_of_reading hx
  unfold day
  unfold midnight at *
  omega

theorem not_lost_succ {D : ℤ} (h : 86400 * D < c.reading (c.midnight D)) :
    ¬ c.Lost (86400 * (D + 1)) := by
  obtain ⟨T, a, b, o, p, q, hab, ho, hp, -, hread, h1, h2, h3, hw⟩ := c.resolve_cases (86400 * D)
  unfold midnight at h
  rw [hread] at h
  have hnear : 86400 * D - 86400 ≤ T - 1 ∧ T ≤ 86400 * D + 86400 := by
    split_ifs at h1 h2 h3 <;> omega
  obtain ⟨hbefore, hat⟩ := c.offset_of_window hw hnear.1 hnear.2
  have hchange : c.offset (T - 1) ≠ c.offset T := by split_ifs at h1 h2 h3 <;> omega
  have hT : T ≤ 86400 * D ∧ 86400 * D - b < T := by split_ifs at h1 h2 h3 <;> omega
  rintro ⟨T', hbefore', hafter', hlate⟩
  unfold reading at hbefore' hafter'
  have hb := c.bounded (T' - 1)
  have ha := c.bounded T'
  by_cases hfar : T' < T + 172800
  · have e1 := c.offset_after (r := T' - 1) hchange (by omega) (by omega)
    have e2 := c.offset_after (r := T') hchange (by omega) hfar
    omega
  · have e1 := c.offset_after (r := T + 86400) hchange (by omega) (by omega)
    have e2 := c.offset_near (s := T + 86400) (t := T' - 1) (by omega) (by omega)
    omega

theorem nextDay_midnight {D : ℤ} (h : ¬ c.Lost (86400 * D)) (h' : ¬ c.Lost (86400 * (D + 1))) :
    c.nextDay (c.midnight D) = c.midnight (D + 1) := by
  by_cases hread : c.reading (c.midnight D) = 86400 * D
  · exact c.nextDay_midnight_of_reading hread (c.day_midnight h')
  · rw [nextDay, startOfDay, c.day_resolve_next hread, c.day_midnight h]

theorem nextDay_midnight_of_lost_succ {D : ℤ} (h : ¬ c.Lost (86400 * D))
    (h' : c.Lost (86400 * (D + 1))) : c.nextDay (c.midnight D) = c.midnight D := by
  have hle := c.le_reading_resolve h
  have hread : c.reading (c.midnight D) = 86400 * D := by
    by_contra hne
    exact c.not_lost_succ (lt_of_le_of_ne hle (Ne.symm hne)) h'
  rw [nextDay, c.resolve_next_of_reading hread, startOfDay, c.day_midnight_of_lost h', add_sub_cancel_right]

theorem nextDay_midnight_of_lost {D : ℤ} (h : c.Lost (86400 * D)) :
    c.nextDay (c.midnight D) = c.midnight D := by
  have hne := ((c.lost_iff _).mp h).ne
  rw [nextDay, startOfDay, c.day_resolve_next hne, c.day_midnight_of_lost h, sub_add_cancel]

theorem startOfDay_lt_of_lost {t : ℤ} (h : c.Lost (86400 * c.day t)) : c.startOfDay t < t := by
  have hlt := (c.lost_iff _).mp h
  obtain ⟨T, a, b, o, p, q, hab, ho, hp, hres, hread, h1, h2, h3, hw⟩ := c.resolve_cases (86400 * c.day t)
  rw [hread] at hlt
  have hday : 86400 * c.day t ≤ c.reading t := by
    unfold day
    omega
  by_contra hle
  rw [startOfDay, midnight, hres] at hle
  have hnear : 86400 * c.day t - p ≤ t + 43200 := by
    by_contra hfar
    have hmono := c.reading_lt (not_le.mp hfar)
    rw [← hres, hread] at hmono
    omega
  have ht := hw t (by split_ifs at h1 h2 h3 <;> omega) (by split_ifs at h1 h2 h3 <;> omega)
  unfold reading at hday
  split_ifs at h1 h2 h3 ht <;> omega

/-! ### Whether the walk passes an instant -/

theorem walk_eq {t : ℤ} {n : ℕ} (h : ∀ k ≤ n, ¬ c.Lost (86400 * (c.day t + (k : ℕ)))) :
    c.walk t n = c.midnight (c.day t + n) := by
  apply c.walk_eq_of_next
  intro k hk
  have hnext := h (k + 1) hk
  have hcast : c.day t + ((k + 1 : ℕ) : ℤ) = c.day t + k + 1 := by omega
  rw [hcast] at hnext
  exact c.nextDay_midnight (h k hk.le) hnext

theorem walk_lt_of_not_kept {t stop : ℤ} (hle : t ≤ stop) (h : ¬ c.Kept t stop) (k : ℕ) :
    c.walk t k < stop := by
  unfold Kept at h
  push Not at h
  obtain ⟨E, hE, hreach, hlost⟩ := h
  obtain ⟨n, hnE, hn, hmin⟩ := c.exists_first_lost hE hlost
  cases n with
  | zero =>
    simp only [Nat.cast_zero, add_zero] at hn
    have hfix : c.walk t (0 + 1) = c.walk t 0 := by
      rw [walk_succ, walk_zero, startOfDay, c.nextDay_midnight_of_lost hn]
    refine c.walk_lt_of_returns le_rfl hfix (fun j hj => ?_) k
    rw [Nat.le_zero.mp hj, walk_zero]
    exact (c.startOfDay_lt_of_lost hn).trans_le hle
  | succ n =>
    have hwalk : ∀ j ≤ n, c.walk t j = c.midnight (c.day t + j) := fun j hj =>
      c.walk_eq fun i hi => hmin i (by omega)
    have hcast : c.day t + ((n + 1 : ℕ) : ℤ) = c.day t + n + 1 := by omega
    rw [hcast] at hn hnE
    have hfix : c.walk t (n + 1) = c.walk t n := by
      rw [walk_succ, hwalk n le_rfl, c.nextDay_midnight_of_lost_succ (hmin n (Nat.lt_succ_self n)) hn]
    have hbelow : c.midnight (E - 1) < stop := hreach.resolve_left (by omega)
    refine c.walk_lt_of_returns le_rfl hfix (fun j hj => ?_) k
    rw [hwalk j hj]
    have hle := c.midnight_add_sub_le (show c.day t + j ≤ E - 1 by omega)
    omega

theorem exists_first_midnight (D stop : ℤ) :
    ∃ n : ℕ, stop ≤ c.midnight (D + n) ∧ ∀ k < n, c.midnight (D + (k : ℕ)) < stop := by
  classical
  have hex : ∃ n : ℕ, stop ≤ c.midnight (D + n) := by
    refine ⟨(stop - c.midnight D).toNat, ?_⟩
    have h := c.midnight_add_le D (stop - c.midnight D).toNat
    omega
  exact ⟨Nat.find hex, Nat.find_spec hex, fun k hk => not_le.mp (Nat.find_min hex hk)⟩

theorem walk_of_kept {t stop : ℤ} (h : c.Kept t stop) :
    ∃ n : ℕ, (stop ≤ c.walk t n ∧ ∀ k < n, c.walk t k < stop) ∧
      ∀ k ≤ n, c.walk t k = c.midnight (c.day t + k) ∧ c.day (c.walk t k) = c.day t + k := by
  obtain ⟨n, hn, hmin⟩ := c.exists_first_midnight (c.day t) stop
  have hkeep : ∀ k ≤ n, ¬ c.Lost (86400 * (c.day t + (k : ℕ))) := by
    intro k hk
    apply h _ (by omega)
    cases k with
    | zero => exact Or.inl (by simp)
    | succ k =>
      have hcast : c.day t + ((k + 1 : ℕ) : ℤ) - 1 = c.day t + k := by omega
      rw [hcast]
      exact Or.inr (hmin k (by omega))
  have hwalk : ∀ k ≤ n, c.walk t k = c.midnight (c.day t + k) := fun k hk =>
    c.walk_eq fun j hj => hkeep j (hj.trans hk)
  refine ⟨n, ⟨hwalk n le_rfl ▸ hn, fun k hk => ?_⟩, fun k hk => ⟨hwalk k hk, ?_⟩⟩
  · rw [hwalk k hk.le]
    exact hmin k hk
  · rw [hwalk k hk, c.day_midnight (hkeep k hk)]

/-- The walk from `t` passes `stop` exactly when no midnight on its way is lost. -/
theorem climbs_iff {t stop : ℤ} (hle : t ≤ stop) : c.Climbs t stop ↔ c.Kept t stop := by
  constructor
  · rintro ⟨n, hstop, -, -⟩
    by_contra hkept
    exact absurd (c.walk_lt_of_not_kept hle hkept n) (not_lt.mpr hstop)
  · intro hkept
    obtain ⟨n, ⟨hstop, hbelow⟩, hwalk⟩ := c.walk_of_kept hkept
    refine ⟨n, hstop, fun k hk => ⟨hbelow k hk, ?_⟩, fun j hj k hk hjk => ?_⟩
    · rw [(hwalk k hk.le).1, (hwalk (k + 1) hk).1]
      exact c.midnight_lt_iff.mpr (by omega)
    · rw [(hwalk j hj.le).2, (hwalk k hk.le).2] at hjk
      omega

end Gradual

end Clock

end CyberstalkMe.Foundations
