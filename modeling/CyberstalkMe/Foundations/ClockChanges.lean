import CyberstalkMe.Foundations.Clock

/-! # What a change of the offset does to readings and days

A change jumps over some readings or shows them twice. For these readings, and
for no others, `resolve` and the clock can disagree about what comes before
what: `displaced_iff` says which instants are affected. A day whose midnight is
jumped over can be moved to another day, and `walk_days_iff` says when the walk
over the days visits each of them once. Nothing here bounds the size of a change.
-/
namespace CyberstalkMe.Foundations.Clock
variable (c : Clock)

/-- At `T` the clock jumps over the reading `u`. -/
def Skips (T u : ℤ) : Prop := T + c.offset (T - 1) ≤ u ∧ u < T + c.offset T

/-- At `T` the clock goes back to `u` or before, having shown `u` already. -/
def Repeats (T u : ℤ) : Prop := T + c.offset T ≤ u ∧ u < T + c.offset (T - 1)

/-- The instant for `u` by the offset on the far side of `T`, seen from `u` itself. -/
def across (T u : ℤ) : ℤ := u - if u < T then c.offset T else c.offset (T - 1)

/-- The instant `h` lies between a change that skips or repeats `u` and the instant for `u` across
that change. -/
def Displaced (u h : ℤ) : Prop :=
  ∃ T, (c.Skips T u ∨ c.Repeats T u) ∧ min (c.across T u) T ≤ h ∧ h < max (c.across T u) T

/-- A change skips the midnight of the day `D`, later than that midnight itself or by a day or more. -/
def Moved (D : ℤ) : Prop :=
  ∃ T, c.Skips T (86400 * D) ∧ (86400 * D < T ∨ c.offset (T - 1) + 86400 ≤ c.offset T)

/-! ### Around one change -/

theorem window_of_change {T u : ℤ} (h : c.Skips T u ∨ c.Repeats T u) :
    ∀ r, u - 86400 ≤ r → r ≤ u + 86400 → c.offset r = if r < T then c.offset (T - 1) else c.offset T := by
  obtain ⟨T', a, b, hw⟩ := c.window u
  have hbefore := c.bounded (T - 1)
  have hat := c.bounded T
  unfold Skips Repeats at h
  obtain ⟨rfl, ha, hb⟩ := c.eq_of_change T hw (by omega) (by omega) (by omega)
  rw [ha, hb]
  exact hw

theorem resolve_of_skips {T u : ℤ} (h : c.Skips T u) : c.resolve u = c.across T u := by
  obtain ⟨o, p, q, ho, hp, hres, -, h1, h2, -⟩ := c.resolve_of_window (c.window_of_change (Or.inl h))
  rw [hres, across]
  unfold Skips at h
  split_ifs at h1 h2 ⊢ <;> omega

/-- A skipped reading is resolved to one that is off by the size of the jump. -/
theorem reading_of_skips {T u : ℤ} (h : c.Skips T u) : c.reading (c.resolve u) =
    if u < T then u - (c.offset T - c.offset (T - 1)) else u + (c.offset T - c.offset (T - 1)) := by
  obtain ⟨o, p, q, ho, hp, -, hread, h1, h2, h3⟩ := c.resolve_of_window (c.window_of_change (Or.inl h))
  rw [hread]
  unfold Skips at h
  split_ifs at h1 h2 h3 ⊢ <;> omega

/-- A reading is resolved to an instant that shows it, unless it is skipped. -/
theorem reading_resolve_or_skips (u : ℤ) : c.reading (c.resolve u) = u ∨ ∃ T, c.Skips T u := by
  obtain ⟨T, a, b, hw⟩ := c.window u
  obtain ⟨o, p, q, ho, hp, -, hread, h1, h2, h3⟩ := c.resolve_of_window hw
  by_cases hsame : p = q
  · left
    omega
  · right
    have hT : u - 86400 ≤ T - 1 ∧ T ≤ u + 86400 := by split_ifs at h1 h2 h3 <;> omega
    obtain ⟨ha, hb⟩ := c.offset_of_window hw hT.1 hT.2
    refine ⟨T, ?_⟩
    rw [Skips, ha, hb]
    split_ifs at h1 h2 h3 <;> omega

theorem displaced_iff (u h : ℤ) : c.Displaced u h ↔ ¬ (c.resolve u ≤ h ↔ u ≤ c.reading h) := by
  constructor
  · rintro ⟨T, hchange, hmin, hmax⟩
    have hw := c.window_of_change hchange
    obtain ⟨o, p, q, ho, hp, hres, -, h1, h2, -⟩ := c.resolve_of_window hw
    have hbefore := c.bounded (T - 1)
    have hat := c.bounded T
    unfold across at hmin hmax
    unfold Skips Repeats at hchange
    have hh := hw h (by split_ifs at hmin hmax <;> omega) (by split_ifs at hmin hmax <;> omega)
    rw [hres, reading]
    split_ifs at h1 h2 hh hmin hmax <;> omega
  · intro hside
    obtain ⟨T, a, b, hw⟩ := c.window u
    obtain ⟨o, p, q, ho, hp, hres, -, h1, h2, -⟩ := c.resolve_of_window hw
    have hbound := c.bounded h
    rw [hres, reading] at hside
    have hh := hw h (by omega) (by omega)
    have hT : u - 86400 ≤ T - 1 ∧ T ≤ u + 86400 := by split_ifs at h1 h2 hh <;> omega
    obtain ⟨ha, hb⟩ := c.offset_of_window hw hT.1 hT.2
    refine ⟨T, ?_⟩
    rw [Skips, Repeats, across, ha, hb]
    split_ifs at h1 h2 hh ⊢ <;> omega

/-! ### Days -/

theorem day_midnight_iff (D : ℤ) : c.day (c.midnight D) = D ↔ ¬ c.Moved D := by
  have hday : c.day (c.midnight D) = D ↔
      86400 * D ≤ c.reading (c.midnight D) ∧ c.reading (c.midnight D) < 86400 * D + 86400 := by
    unfold day
    omega
  rw [hday]
  constructor
  · rintro ⟨hle, hlt⟩ ⟨T, hskip, hfar⟩
    rw [midnight, c.reading_of_skips hskip] at hle hlt
    unfold Skips at hskip
    split_ifs at hle hlt <;> omega
  · intro hmoved
    obtain hread | ⟨T, hskip⟩ := c.reading_resolve_or_skips (86400 * D)
    · unfold midnight
      omega
    · have hnear : ¬ (86400 * D < T ∨ c.offset (T - 1) + 86400 ≤ c.offset T) := fun hfar =>
        hmoved ⟨T, hskip, hfar⟩
      rw [midnight, c.reading_of_skips hskip]
      unfold Skips at hskip
      split_ifs <;> omega

/-! ### Two changes -/

theorem Skips.change {T u : ℤ} (h : c.Skips T u) : c.offset (T - 1) ≠ c.offset T := by
  unfold Skips at h
  omega

theorem offset_before {T r : ℤ} (hT : c.offset (T - 1) ≠ c.offset T) (h : r < T) (h' : T - 172800 ≤ r) :
    c.offset r = c.offset (T - 1) := by
  obtain ⟨T', a, b, hw⟩ := c.isolated (T - 172800)
  rw [hw (T - 1) (by omega) (by omega), hw T (by omega) (by omega)] at hT
  rw [hw r h' (by omega), hw (T - 1) (by omega) (by omega)]
  split_ifs at hT ⊢ <;> omega

theorem change_spaced {T T' : ℤ} (hT : c.offset (T - 1) ≠ c.offset T) (hT' : c.offset (T' - 1) ≠ c.offset T')
    (h : T < T') : T + 172800 ≤ T' := by
  by_contra hnear
  have hbefore := c.offset_after (r := T' - 1) hT (by omega) (by omega)
  have hat := c.offset_after (r := T') hT (by omega) (by omega)
  omega

/-- The offset stays until the next change, when that comes before four days have passed. -/
theorem offset_between {T T' : ℤ} (hT : c.offset (T - 1) ≠ c.offset T) (hT' : c.offset (T' - 1) ≠ c.offset T')
    (h : T < T') (hnear : T' < T + 345600) : c.offset (T' - 1) = c.offset T := by
  have hspaced := c.change_spaced hT hT' h
  rw [← c.offset_after (r := T + 172799) hT (by omega) (by omega),
    c.offset_before (r := T + 172799) hT' (by omega) (by omega)]

theorem skips_lt {T T' u u' : ℤ} (h : c.Skips T u) (h' : c.Skips T' u') (hlt : T < T') : u < u' := by
  have hspaced := c.change_spaced h.change h'.change hlt
  have hbetween := c.offset_between h.change h'.change hlt
  have hT := c.bounded T
  have hT' := c.bounded (T' - 1)
  unfold Skips at h h'
  omega

theorem not_moved_day_midnight (F : ℤ) : ¬ c.Moved (c.day (c.midnight F)) := by
  obtain hread | ⟨T, hskip⟩ := c.reading_resolve_or_skips (86400 * F)
  · have hday := c.day_midnight_of_reading hread
    rw [hday, ← day_midnight_iff, hday]
  · rintro ⟨T', hskip', hfar'⟩
    have hread := c.reading_of_skips hskip
    have hday : 86400 * c.day (c.midnight F) ≤ c.reading (c.midnight F) ∧
        c.reading (c.midnight F) < 86400 * c.day (c.midnight F) + 86400 := by
      unfold day
      omega
    rw [midnight, hread] at hday
    change c.Skips T' (86400 * c.day (c.resolve (86400 * F))) at hskip'
    change 86400 * c.day (c.resolve (86400 * F)) < T' ∨ _ at hfar'
    generalize c.day (c.resolve (86400 * F)) = D at hday hskip' hfar'
    have hb := c.bounded T
    have hb' := c.bounded T'
    have ha := c.bounded (T - 1)
    have ha' := c.bounded (T' - 1)
    obtain hlt | rfl | hgt := lt_trichotomy T T'
    · have hspaced := c.change_spaced hskip.change hskip'.change hlt
      have hbetween := c.offset_between hskip.change hskip'.change hlt
      unfold Skips at hskip hskip'
      split_ifs at hday <;> omega
    · unfold Skips at hskip hskip'
      split_ifs at hday <;> omega
    · have hspaced := c.change_spaced hskip'.change hskip.change hgt
      have hbetween := c.offset_between hskip'.change hskip.change hgt
      unfold Skips at hskip hskip'
      split_ifs at hday <;> omega

/-! ### From midnight to midnight -/

theorem nextDay_midnight_of_not_moved {D : ℤ} (h : ¬ c.Moved D) :
    c.nextDay (c.midnight D) = c.midnight (c.day (c.midnight (D + 1))) := by
  obtain hread | ⟨T, hskip⟩ := c.reading_resolve_or_skips (86400 * D)
  · rw [nextDay, c.resolve_next_of_reading hread, startOfDay]
  · have hnear : ¬ (86400 * D < T ∨ c.offset (T - 1) + 86400 ≤ c.offset T) := fun hfar => h ⟨T, hskip, hfar⟩
    have hread := c.reading_of_skips hskip
    rw [if_neg (by omega)] at hread
    have hb := c.bounded T
    -- the time of day that the midnight is put off to comes round again
    have hagain : c.reading (c.reading (c.midnight D) + 86400 - c.offset T) =
        c.reading (c.midnight D) + 86400 := by
      have hstay := c.offset_after (r := c.reading (c.midnight D) + 86400 - c.offset T) hskip.change
      unfold midnight reading at *
      unfold Skips at hskip
      omega
    have hday : c.day (c.resolve (c.reading (c.midnight D) + 86400)) = D + 1 := by
      have hshown := c.reading_resolve_of_reading hagain
      unfold Skips at hskip
      unfold day
      unfold midnight at *
      omega
    have hnext : ¬ c.Moved (D + 1) := by
      rintro ⟨T', hskip', -⟩
      obtain hlt | rfl | hgt := lt_trichotomy T T'
      · have hspaced := c.change_spaced hskip.change hskip'.change hlt
        have hbetween := c.offset_between hskip.change hskip'.change hlt
        have ha' := c.bounded (T' - 1)
        unfold Skips at hskip hskip'
        omega
      · unfold Skips at hskip hskip'
        omega
      · have hless := c.skips_lt hskip' hskip hgt
        omega
    rw [nextDay, startOfDay, hday, (c.day_midnight_iff _).mpr hnext]

theorem nextDay_midnight_succ {D : ℤ} (h : ¬ c.Moved D) (h' : ¬ c.Moved (D + 1)) :
    c.nextDay (c.midnight D) = c.midnight (D + 1) := by
  rw [c.nextDay_midnight_of_not_moved h, (c.day_midnight_iff _).mpr h']

theorem midnight_lt_succ_of_not_moved {D : ℤ} (h : ¬ c.Moved D) (h' : ¬ c.Moved (D + 1)) :
    c.midnight D < c.midnight (D + 1) := by
  rw [← day_midnight_iff] at h h'
  obtain ⟨T, a, b, hw⟩ := c.window (86400 * D)
  obtain ⟨o, p, q, ho, hp, hres, hread, h1, h2, h3⟩ := c.resolve_of_window hw
  by_contra hle
  have hfar := c.bounded (86400 * (D + 1) - c.offset (86400 * (D + 1)))
  have hlater : c.midnight (D + 1) =
    86400 * (D + 1) - c.offset (86400 * (D + 1) - c.offset (86400 * (D + 1))) := rfl
  unfold day at h h'
  rw [midnight] at h hle
  rw [hread] at h
  rw [hres] at hle
  have hw' := hw (c.midnight (D + 1)) (by omega) (by omega)
  unfold reading at h'
  split_ifs at h1 h2 h3 hw' <;> omega

theorem nextDay_midnight_of_skips_later {D T : ℤ} (h : ¬ c.Moved D) (hskip : c.Skips T (86400 * (D + 1)))
    (hlate : 86400 * (D + 1) < T) :
    c.nextDay (c.midnight D) = c.midnight D ∨ c.nextDay (c.midnight D) = c.midnight (D - 1) := by
  have hread := c.reading_of_skips hskip
  rw [if_pos hlate] at hread
  have ha := c.bounded (T - 1)
  have hb := c.bounded T
  have hday : c.day (c.midnight (D + 1)) = D ∨ c.day (c.midnight (D + 1)) = D - 1 := by
    unfold day midnight
    unfold Skips at hskip
    omega
  rw [c.nextDay_midnight_of_not_moved h]
  exact hday.imp (congrArg _) (congrArg _)

/-- From a skipped reading on, the answers lie past the change, if the reading itself does. -/
theorem le_resolve_of_skips {T u u' : ℤ} (hskip : c.Skips T u) (hearly : T ≤ u) (h : u ≤ u') :
    T ≤ c.resolve u' := by
  by_cases hu' : u' < T + c.offset T
  · have hskip' : c.Skips T u' := ⟨hskip.1.trans h, hu'⟩
    rw [c.resolve_of_skips hskip', across, if_neg (by omega)]
    unfold Skips at hskip'
    omega
  · have hfar := c.bounded (u' - c.offset u')
    have hnear := c.offset_after (r := u') hskip.change (by omega)
    have hagain := c.offset_after (r := u' - c.offset T) hskip.change (by omega)
    have hb := c.bounded T
    rw [resolve] at *
    by_cases hclose : u' < T + 86400
    · rw [hnear (by omega), hagain (by omega)]
      omega
    · omega

theorem le_nextDay_of_skips {D T : ℤ} (h : ¬ c.Moved D) (hskip : c.Skips T (86400 * (D + 1)))
    (hearly : T ≤ 86400 * (D + 1)) : T ≤ c.nextDay (c.midnight D) := by
  have hread := c.reading_of_skips hskip
  rw [if_neg (by omega)] at hread
  have hchange : c.offset (T - 1) < c.offset T := by
    unfold Skips at hskip
    omega
  rw [c.nextDay_midnight_of_not_moved h]
  apply c.le_resolve_of_skips hskip hearly
  unfold day midnight
  omega

/-- An instant of the day before a skipped midnight lies before the change. -/
theorem lt_of_skips_next {s T : ℤ} (hskip : c.Skips T (86400 * (c.day s + 1)))
    (hearly : T ≤ 86400 * (c.day s + 1)) : s < T := by
  by_contra hle
  have hb := c.bounded T
  have hs := c.bounded s
  have hnear : s < T + 172800 → c.offset s = c.offset T := c.offset_after hskip.change (not_lt.mp hle)
  unfold Skips day reading at *
  omega

/-! ### The walk over the days -/

theorem walk_of_not_moved {D : ℤ} {n : ℕ} (h : ∀ j : ℕ, j ≤ n → ¬ c.Moved (D + j)) :
    c.walk (c.midnight D) n = c.midnight (D + n) := by
  have hday : c.day (c.midnight D) = D := (c.day_midnight_iff D).mpr (by simpa using h 0 (Nat.zero_le n))
  rw [c.walk_eq_of_next, hday]
  intro k hk
  have hnext := h (k + 1) hk
  rw [Nat.cast_succ, ← add_assoc] at hnext
  rw [hday]
  exact c.nextDay_midnight_succ (h k hk.le) hnext

theorem not_moved_walk (t : ℤ) (n : ℕ) : ¬ c.Moved (c.day (c.walk t n)) := by
  cases n with
  | zero => exact c.not_moved_day_midnight _
  | succ n =>
    rw [walk_succ]
    exact c.not_moved_day_midnight _

theorem midnight_lt_of_not_moved {D : ℤ} {n : ℕ} (h : ∀ j : ℕ, j ≤ n → ¬ c.Moved (D + j)) {k : ℕ} (hk : k < n) :
    c.midnight (D + k) < c.midnight (D + n) := by
  induction n with
  | zero => cases hk
  | succ n ih =>
    have hnext := h (n + 1) le_rfl
    rw [Nat.cast_succ, ← add_assoc] at hnext ⊢
    have hstep := c.midnight_lt_succ_of_not_moved (h n (Nat.le_succ n)) hnext
    rcases Nat.lt_succ_iff_lt_or_eq.mp hk with hlt | rfl
    · exact (ih (fun j hj => h j (hj.trans (Nat.le_succ n))) hlt).trans hstep
    · exact hstep

/-- Whether the step from the last day passes `stop` is decided by the midnight after it, or the step
returns to one of the last two days. -/
theorem stop_le_nextDay_iff {s stop : ℤ} (hstop : stop ≤ s + 1) (h : ¬ c.Moved (c.day s)) :
    (stop ≤ c.nextDay (c.midnight (c.day s)) ↔ stop ≤ c.midnight (c.day s + 1)) ∨
      c.nextDay (c.midnight (c.day s)) = c.midnight (c.day s) ∨
      c.nextDay (c.midnight (c.day s)) = c.midnight (c.day s - 1) := by
  by_cases hnext : c.Moved (c.day s + 1)
  · obtain ⟨T, hskip, -⟩ := hnext
    by_cases hlate : 86400 * (c.day s + 1) < T
    · exact Or.inr (c.nextDay_midnight_of_skips_later h hskip hlate)
    · left
      have hbefore := c.lt_of_skips_next hskip (not_lt.mp hlate)
      have hstep := c.le_nextDay_of_skips h hskip (not_lt.mp hlate)
      have hmid : T ≤ c.midnight (c.day s + 1) := c.le_resolve_of_skips hskip (not_lt.mp hlate) le_rfl
      omega
  · rw [c.nextDay_midnight_succ h hnext]
    exact Or.inl Iff.rfl

/-! ### Days that are all in their place -/

section Unmoved
variable {D s : ℤ} {m : ℕ} (hm : c.day s = D + (m + 1 : ℕ)) (hkept : ∀ F, D ≤ F → F ≤ c.day s → ¬ c.Moved F)
include hm hkept

theorem walk_midnight {k : ℕ} (hk : k ≤ m + 1) : c.walk (c.midnight D) k = c.midnight (D + k) :=
  c.walk_of_not_moved fun j hj => hkept (D + j) (by omega) (by omega)

theorem walk_before_last : c.walk (c.midnight D) m = c.midnight (c.day s - 1) := by
  have hbefore : D + (m : ℤ) = c.day s - 1 := by omega
  rw [c.walk_midnight hm hkept (Nat.le_succ m), hbefore]

theorem walk_last : c.walk (c.midnight D) (m + 1) = c.midnight (c.day s) := by
  rw [c.walk_midnight hm hkept le_rfl, ← hm]

theorem walk_after_last : c.walk (c.midnight D) (m + 2) = c.nextDay (c.midnight (c.day s)) := by
  have hstep := c.walk_succ (c.midnight D) (m + 1)
  rwa [c.walk_last hm hkept] at hstep

variable {stop : ℤ} (hlt : c.midnight (c.day s) < stop)
include hlt

theorem walk_midnight_lt {k : ℕ} (hk : k ≤ m + 1) : c.walk (c.midnight D) k < stop := by
  rcases hk.lt_or_eq with hk | rfl
  · have hgrow := c.midnight_lt_of_not_moved (n := m + 1) (fun j hj => hkept (D + j) (by omega) (by omega)) hk
    rw [← hm] at hgrow
    rw [c.walk_midnight hm hkept hk.le]
    exact hgrow.trans hlt
  · rwa [c.walk_last hm hkept]

/-- A walk that ends passes `stop` with the step from the last day: else that step returns to a day
that the walk has been to. -/
theorem le_walk_after_last (hstop : stop ≤ s + 1) (hle : stop ≤ c.midnight (c.day s + 1)) {n : ℕ}
    (hend : stop ≤ c.walk (c.midnight D) n) : stop ≤ c.walk (c.midnight D) (m + 2) := by
  have hclimb : ∀ k ≤ m + 1, c.walk (c.midnight D) k < stop := fun k => c.walk_midnight_lt hm hkept hlt
  have hmoved : ¬ c.Moved (c.day s) := hkept _ (by omega) le_rfl
  by_contra hnot
  rw [c.walk_after_last hm hkept] at hnot
  obtain hiff | hback | hback := c.stop_le_nextDay_iff hstop hmoved
  · exact hnot (hiff.mpr hle)
  · rw [← c.walk_after_last hm hkept, ← c.walk_last hm hkept] at hback
    exact absurd hend (not_le.mpr (c.walk_lt_of_returns le_rfl hback hclimb n))
  · rw [← c.walk_after_last hm hkept, ← c.walk_before_last hm hkept] at hback
    exact absurd hend (not_le.mpr (c.walk_lt_of_returns (Nat.le_succ m) hback hclimb n))

end Unmoved

/-- A walk that passes `stop`, just after `s`, visits the days from `D` to that of `s`, each of them
once, exactly when all of them are in their place and the last midnight before `stop` is that of the
day of `s`. -/
theorem walk_days_iff {D s stop : ℤ} (hlong : D < c.day s) (hstop : stop ≤ s + 1) {n : ℕ}
    (hend : stop ≤ c.walk (c.midnight D) n) (hbelow : ∀ k < n, c.walk (c.midnight D) k < stop) :
    (D + n = c.day s + 1 ∧ ∀ k : ℕ, k < n → c.day (c.walk (c.midnight D) k) = D + k) ↔
      (∀ F, D ≤ F → F ≤ c.day s → ¬ c.Moved F) ∧
        c.midnight (c.day s) < stop ∧ stop ≤ c.midnight (c.day s + 1) := by
  obtain ⟨m, hm⟩ : ∃ m : ℕ, c.day s = D + (m + 1 : ℕ) := ⟨(c.day s - D - 1).toNat, by omega⟩
  constructor
  · rintro ⟨hn, hdays⟩
    have hkept : ∀ F, D ≤ F → F ≤ c.day s → ¬ c.Moved F := by
      intro F hDF hFs
      obtain ⟨k, hk⟩ : ∃ k : ℕ, F = D + k := ⟨(F - D).toNat, by omega⟩
      rw [hk, ← hdays k (by omega)]
      exact c.not_moved_walk _ k
    have hnm : n = m + 2 := by omega
    have hlt := hbelow (m + 1) (by omega)
    have hlt' := hbelow m (by omega)
    rw [hnm, c.walk_after_last hm hkept] at hend
    rw [c.walk_last hm hkept] at hlt
    rw [c.walk_before_last hm hkept] at hlt'
    refine ⟨hkept, hlt, ?_⟩
    obtain hiff | hback | hback := c.stop_le_nextDay_iff hstop (hkept _ hlong.le le_rfl)
    · exact hiff.mp hend
    · omega
    · omega
  · rintro ⟨hkept, hlt, hle⟩
    have hpast := c.le_walk_after_last hm hkept hlt hstop hle hend
    have hn : n = m + 2 := by
      apply le_antisymm
      · by_contra hlong'
        exact absurd hpast (not_le.mpr (hbelow _ (not_le.mp hlong')))
      · by_contra hshort
        exact absurd hend (not_le.mpr (c.walk_midnight_lt hm hkept hlt (by omega)))
    refine ⟨by omega, fun k hk => ?_⟩
    rw [c.walk_midnight hm hkept (by omega), day_midnight_iff]
    exact hkept _ (by omega) (by omega)

end CyberstalkMe.Foundations.Clock
