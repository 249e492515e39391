import CyberstalkMe.Agent.Config

/-! # Durations written by hand

What `ParseDuration` makes of a spelling that `FormatDuration` chose, and of a
bare number of seconds.
-/
namespace CyberstalkMe.Agent

open Go

theorem formatDuration_injective : Function.Injective formatDuration := by
  intro d e h
  have hread := parse_formatDuration e
  rw [← h, parse_formatDuration] at hread
  exact Option.some.inj hread

/-- Every duration survives being formatted and parsed, so that no two share a spelling. -/
theorem duration_roundTrip :
    (∀ (lib : Mapping.Library) (d : Duration), parseDuration lib (formatDuration d) = .ok d) ∧
      Function.Injective formatDuration :=
  ⟨parseDuration_formatDuration, formatDuration_injective⟩

/-! ### Bare seconds -/

@[simp] theorem secondsDuration_nanos (n : ℤ) : (secondsDuration n).nanos = (n * 1000000000).bmod (2 ^ 64) := rfl

/-- The seconds whose nanoseconds fit 64 bits. -/
def FitsSeconds (n : ℤ) : Prop := -9223372036 ≤ n ∧ n ≤ 9223372036

instance (n : ℤ) : Decidable (FitsSeconds n) := inferInstanceAs (Decidable (_ ∧ _))

/-- The multiplication wraps exactly outside these bounds. -/
theorem secondsDuration_exact_iff (n : ℤ) : (secondsDuration n).nanos = n * 1000000000 ↔ FitsSeconds n := by
  rw [FitsSeconds]
  constructor
  · intro h
    have hlower := (secondsDuration n).lower
    have hupper := (secondsDuration n).upper
    omega
  · intro h
    rw [secondsDuration_nanos]
    exact Int.bmod_eq_of_le (by omega) (by omega)

/-- What a parser of durations may make of `n` seconds: an error, or that many nanoseconds. -/
def Honours (n : ℤ) (result : Except String Duration) : Prop :=
  ∀ d, result = .ok d → d.nanos = n * 1000000000

/-- Where the library reads no duration, a bare integer is taken as seconds. -/
theorem parse_or_seconds {s : String} {n : ℤ} (h : atoi s = some n) :
    (Duration.parse s).getD (secondsDuration n) = secondsDuration n := by
  cases hparse : Duration.parse s with
  | none => rfl
  | some d =>
    obtain ⟨hzero, rfl⟩ := Duration.parse_of_atoi h d hparse
    rw [Option.getD_some]
    ext
    rw [hzero]
    rfl

theorem parseDuration_of_atoi (lib : Mapping.Library) {s : String} {n : ℤ} (h : atoi (trimSpace s) = some n) :
    parseDuration lib s = .ok (secondsDuration n) := by
  rw [← parse_or_seconds h, parseDuration]
  cases Duration.parse (trimSpace s) with
  | none => simp [h]
  | some d => rfl

end CyberstalkMe.Agent
