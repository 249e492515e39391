import CyberstalkMe.Usage.Attribute
import CyberstalkMe.Go.Duration

/-! # The buckets of an interval

The buckets tile the interval: one for each hour that it meets, in order, with
the seconds of their overlap. Cutting the interval changes no hour's seconds.
-/
namespace CyberstalkMe.Usage

open Go Shared Foundations

/-- The hours that the seconds of `[a, b)` lie in, in order, none left out. -/
def hoursOf (a b : ℤ) : List ℤ := (List.range ((b - 1) / 3600 - a / 3600 + 1).toNat).map fun k : ℕ => a / 3600 + k

theorem hoursOf_cons {a b : ℤ} (h : a < b) :
    hoursOf a b = a / 3600 ::
      if b ≤ a / 3600 * 3600 + 3600 then [] else hoursOf (a / 3600 * 3600 + 3600) b := by
  have hlen : ((b - 1) / 3600 - a / 3600 + 1).toNat = ((b - 1) / 3600 - a / 3600).toNat + 1 := by omega
  rw [hoursOf, hlen, List.range_succ_eq_map, List.map_cons, List.map_map]
  congr 1
  · simp
  · split_ifs with hb
    · have hzero : ((b - 1) / 3600 - a / 3600).toNat = 0 := by omega
      rw [hzero]
      rfl
    · have hnext : (a / 3600 * 3600 + 3600) / 3600 = a / 3600 + 1 := by omega
      have hcount : ((b - 1) / 3600 - (a / 3600 + 1) + 1).toNat = ((b - 1) / 3600 - a / 3600).toNat := by omega
      rw [hoursOf, hnext, hcount]
      apply List.map_congr_left
      intro k _
      simp only [Function.comp_apply, Nat.cast_succ]
      ring

theorem mem_hoursOf {a b H : ℤ} (hab : a < b) : H ∈ hoursOf a b ↔ 0 < overlap a b (H * 3600) (H * 3600 + 3600) := by
  simp only [hoursOf, List.mem_map, List.mem_range, overlap]
  constructor
  · rintro ⟨k, hk, rfl⟩
    omega
  · intro h
    exact ⟨(H - a / 3600).toNat, by omega, by omega⟩

/-- The bucket of an hour of the interval. -/
def tile (observed : Activity) (a b H : ℤ) : Bucket :=
  ⟨Time.ofSeconds (H * 3600), stateOf observed, observed.app, observed.description,
    overlap a b (H * 3600) (H * 3600 + 3600)⟩

theorem attributeLoop_eq (observed : Activity) (a b : ℤ) (h : a < b) :
    attributeLoop observed (Time.ofSeconds a) (Time.ofSeconds b) = (hoursOf a b).map (tile observed a b) := by
  induction a using cut_induction b with
  | hend a hb => omega
  | hcut a hab ih =>
    have hfirst : bucketAt observed a (min b (a / 3600 * 3600 + 3600) - a) = tile observed a b (a / 3600) := by
      simp only [bucketAt, tile, overlap, Bucket.mk.injEq, true_and]
      omega
    rw [attributeLoop_cons observed hab, hoursOf_cons hab, List.map_cons, hfirst]
    congr 1
    split_ifs with hb
    · rw [min_eq_left hb, attributeLoop_nil observed le_rfl, List.map_nil]
    · have hnext : min b (a / 3600 * 3600 + 3600) = a / 3600 * 3600 + 3600 := by omega
      rw [hnext] at ih ⊢
      rw [ih (by omega)]
      apply List.map_congr_left
      intro H hH
      rw [mem_hoursOf (by omega)] at hH
      simp only [tile, overlap, Bucket.mk.injEq, true_and] at hH ⊢
      omega

/-- The length of an interval of whole seconds as `Sub` measures it, up to the longest duration. -/
def measured (start stop : Time) : ℤ := min maxDuration ((stop.seconds - start.seconds) * second)

theorem credited_iff {maxGap : ℤ} {start stop : Time} :
    Credited maxGap start stop ↔ start.seconds < stop.seconds ∧ measured start stop ≤ maxGap := by
  rw [Credited]
  apply and_congr_right
  intro h
  have hsub : (Time.ofSeconds stop.seconds).sub (Time.ofSeconds start.seconds) = measured start stop := by
    simp only [Time.sub, Time.ofSeconds_nanos, measured, maxDuration, minDuration, second]
    omega
  rw [hsub]

theorem attributeInterval_eq_nil_iff (observed : Activity) (start stop : Time) (maxGap : ℤ) :
    attributeInterval observed start stop maxGap = [] ↔
      stop.seconds ≤ start.seconds ∨ maxGap < measured start stop := by
  rw [attributeInterval_eq_nil, credited_iff, not_and_or, not_lt, not_le]

theorem attributeInterval_tiles {observed : Activity} {start stop : Time} {maxGap : ℤ}
    (h : Credited maxGap start stop) : attributeInterval observed start stop maxGap =
      (hoursOf start.seconds stop.seconds).map (tile observed start.seconds stop.seconds) := by
  rw [attributeInterval_of_credited observed h, attributeLoop_eq observed _ _ h.1]

theorem tile_seconds {observed : Activity} {a b H : ℤ} (hab : a < b) (hH : H ∈ hoursOf a b) :
    1 ≤ (tile observed a b H).seconds ∧ (tile observed a b H).seconds ≤ 3600 := by
  rw [mem_hoursOf hab] at hH
  simp only [tile, overlap] at hH ⊢
  omega

/-- Within the longest gap an interval credits an hour with their overlap, also when it is empty. -/
theorem secondsIn_of_measured {observed : Activity} {start stop : Time} {maxGap : ℤ}
    (hgap : measured start stop ≤ maxGap) (H : ℤ) :
    secondsIn (fun t => t = Time.ofSeconds (H * 3600)) (attributeInterval observed start stop maxGap) =
      overlap start.seconds stop.seconds (H * 3600) (H * 3600 + 3600) := by
  rw [secondsIn_attributeInterval_hour]
  split_ifs with h
  · rfl
  · rw [credited_iff] at h
    exact (overlap_eq_zero_of_le (by omega)).symm

theorem measured_le {start start' stop stop' : Time} (hstart : start.seconds ≤ start'.seconds)
    (hstop : stop'.seconds ≤ stop.seconds) : measured start' stop' ≤ measured start stop := by
  simp only [measured, second]
  omega

/-- An interval within the longest gap may be cut anywhere: no hour's seconds change. -/
theorem secondsIn_cut {observed : Activity} {start mid stop : Time} {maxGap : ℤ} (hstart : start.nanos ≤ mid.nanos)
    (hstop : mid.nanos ≤ stop.nanos) (hgap : measured start stop ≤ maxGap) (H : ℤ) :
    secondsIn (fun t => t = Time.ofSeconds (H * 3600)) (attributeInterval observed start mid maxGap) +
        secondsIn (fun t => t = Time.ofSeconds (H * 3600)) (attributeInterval observed mid stop maxGap) =
      secondsIn (fun t => t = Time.ofSeconds (H * 3600)) (attributeInterval observed start stop maxGap) := by
  have hstart := Time.seconds_mono hstart
  have hstop := Time.seconds_mono hstop
  rw [secondsIn_of_measured ((measured_le le_rfl hstop).trans hgap),
    secondsIn_of_measured ((measured_le hstart le_rfl).trans hgap), secondsIn_of_measured hgap,
    overlap_add _ _ hstart hstop]

/-- `Attribute` drops an empty or too long interval and tiles any other: a bucket for each hour it meets, in
order, with the activity and the seconds of the overlap. Cutting the interval changes no hour's seconds. -/
theorem attributeInterval_spec (observed : Activity) (start stop : Time) (maxGap : Duration) :
    (attributeInterval observed start stop maxGap.nanos = [] ↔
      stop.seconds ≤ start.seconds ∨ maxGap.nanos < measured start stop) ∧
    (attributeInterval observed start stop maxGap.nanos ≠ [] →
      attributeInterval observed start stop maxGap.nanos =
          (hoursOf start.seconds stop.seconds).map (tile observed start.seconds stop.seconds) ∧
        (∀ u ∈ attributeInterval observed start stop maxGap.nanos, 1 ≤ u.seconds ∧ u.seconds ≤ 3600) ∧
        ((attributeInterval observed start stop maxGap.nanos).map Bucket.seconds).sum =
          stop.seconds - start.seconds) ∧
    (∀ mid : Time, start.nanos ≤ mid.nanos → mid.nanos ≤ stop.nanos → measured start stop ≤ maxGap.nanos →
      ∀ H, secondsIn (fun t => t = Time.ofSeconds (H * 3600)) (attributeInterval observed start mid maxGap.nanos) +
          secondsIn (fun t => t = Time.ofSeconds (H * 3600)) (attributeInterval observed mid stop maxGap.nanos) =
        secondsIn (fun t => t = Time.ofSeconds (H * 3600))
          (attributeInterval observed start stop maxGap.nanos)) := by
  refine ⟨attributeInterval_eq_nil_iff observed start stop maxGap.nanos, ?_, ?_⟩
  · intro hne
    have hcredited : Credited maxGap.nanos start stop := by
      rw [Ne, attributeInterval_eq_nil, not_not] at hne
      exact hne
    refine ⟨attributeInterval_tiles hcredited, ?_, ?_⟩
    · rw [attributeInterval_tiles hcredited]
      intro u hu
      obtain ⟨H, hH, rfl⟩ := List.mem_map.mp hu
      exact tile_seconds hcredited.1 hH
    · have hsum := secondsIn_attributeInterval observed start stop maxGap.nanos
      rw [if_pos hcredited] at hsum
      exact hsum
  · intro mid hstart hstop hgap H
    exact secondsIn_cut hstart hstop hgap H

def longest : Duration := ⟨9223372036854775807, by decide, by decide⟩

/-- Three centuries are no longer than the longest duration, as `Sub` measures them. -/
theorem longest_gap_keeps_all :
    ¬ ∀ (observed : Activity) (start stop : Time) (maxGap : Duration),
      attributeInterval observed start stop maxGap.nanos = [] ↔
        stop.seconds ≤ start.seconds ∨ maxGap.nanos < (stop.seconds - start.seconds) * second := by
  intro h
  have hempty := h default (Time.ofSeconds 0) (Time.ofSeconds 9223372037) longest
  rw [attributeInterval_eq_nil_iff] at hempty
  revert hempty
  decide +kernel

end CyberstalkMe.Usage
