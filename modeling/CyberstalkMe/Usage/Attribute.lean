import CyberstalkMe.Shared.Contract
import CyberstalkMe.Foundations.Timeline
import Mathlib.Algebra.BigOperators.Group.List.Basic

/-! # Attribution of an interval to hourly buckets

`attributeInterval` (the package's `Attribute`) cuts the interval between two
reports at the UTC hours and credits each piece to the activity observed at its
start. Both ends are truncated to
seconds first, so on whole seconds the pieces tile the interval: an hour gets
exactly its overlap with it.
-/
namespace CyberstalkMe.Usage

open Go Shared Foundations

/-- One hour's increment for a single (state, app, description). -/
structure Bucket where
  hourStart : Time
  state : UsageState
  app : String
  description : String
  seconds : ℤ
deriving DecidableEq, Repr

/-- Locked before idle: a locked screen does not advance the input timer. -/
def stateOf (a : Activity) : UsageState :=
  if a.locked then .locked else if a.idle then .idle else .active

/-- The end of the piece that starts at `cur`: the next hour, or the end of the interval. -/
def nextCut (cur stop : Time) : Time :=
  let next := (cur.truncate hour).add hour
  if next.after stop then stop else next

theorem lt_nextCut {cur stop : Time} (h : cur.before stop) : cur.nanos < (nextCut cur stop).nanos := by
  have hd : ¬ hour ≤ 0 := by decide
  have hlt : cur.nanos < stop.nanos := of_decide_eq_true h
  dsimp only [nextCut]
  split_ifs
  · exact hlt
  · rw [Time.truncate, if_neg hd, Time.add]
    dsimp only
    unfold hour
    omega

theorem toNat_sub_nextCut_lt {cur stop : Time} (h : cur.before stop) :
    (stop.nanos - (nextCut cur stop).nanos).toNat < (stop.nanos - cur.nanos).toNat := by
  have hlt := lt_nextCut h
  have hb : cur.nanos < stop.nanos := of_decide_eq_true h
  omega

/-- The loop of `attributeInterval`. Every cut is later than the last, so it ends. -/
def attributeLoop (observed : Activity) (cur stop : Time) : List Bucket :=
  if _h : cur.before stop then
    let next := nextCut cur stop
    let seconds := (next.sub cur).tdiv second
    if 0 < seconds then
      ⟨cur.truncate hour, stateOf observed, observed.app, observed.description, seconds⟩ ::
        attributeLoop observed next stop
    else attributeLoop observed next stop
  else []
termination_by (stop.nanos - cur.nanos).toNat
decreasing_by all_goals exact toNat_sub_nextCut_lt _h

/-- Split the interval from `start` to `stop` across UTC hours and attribute it to the activity
that was observed at `start`. An interval longer than `maxGap` is dropped. -/
def attributeInterval (observed : Activity) (start stop : Time) (maxGap : ℤ) : List Bucket :=
  let start := start.utc.truncate second
  let stop := stop.utc.truncate second
  if !stop.after start then []
  else if maxGap < stop.sub start then []
  else attributeLoop observed start stop

/-! ### The loop on whole seconds -/

theorem nextCut_ofSeconds (a b : ℤ) :
    nextCut (Time.ofSeconds a) (Time.ofSeconds b) = Time.ofSeconds (min b (a / 3600 * 3600 + 3600)) := by
  simp only [nextCut, Time.truncate_hour_ofSeconds, Time.add_hour_ofSeconds, Time.after_ofSeconds,
    decide_eq_true_eq]
  split_ifs with h
  · rw [min_eq_left h.le]
  · rw [min_eq_right (not_lt.mp h)]

theorem sub_tdiv_ofSeconds {a b : ℤ} (h : a < b) (hb : b ≤ a + 3600) :
    ((Time.ofSeconds b).sub (Time.ofSeconds a)).tdiv second = b - a := by
  have hsub : (Time.ofSeconds b).sub (Time.ofSeconds a) = (b - a) * second := by
    simp only [Time.sub, Time.ofSeconds_nanos, maxDuration, minDuration, second]
    omega
  rw [hsub, Int.mul_tdiv_cancel _ (by decide)]

/-- The bucket of the hour that contains the second `a`. -/
def bucketAt (observed : Activity) (a seconds : ℤ) : Bucket :=
  ⟨Time.ofSeconds (a / 3600 * 3600), stateOf observed, observed.app, observed.description, seconds⟩

/-- One turn of the loop: the rest of the current hour, then the hours after it. -/
theorem attributeLoop_cons (observed : Activity) {a b : ℤ} (h : a < b) :
    attributeLoop observed (Time.ofSeconds a) (Time.ofSeconds b) =
      bucketAt observed a (min b (a / 3600 * 3600 + 3600) - a) ::
        attributeLoop observed (Time.ofSeconds (min b (a / 3600 * 3600 + 3600))) (Time.ofSeconds b) := by
  have hbefore : (Time.ofSeconds a).before (Time.ofSeconds b) := by
    rw [Time.before_ofSeconds]
    exact decide_eq_true h
  have hcut := sub_tdiv_ofSeconds (a := a) (b := min b (a / 3600 * 3600 + 3600)) (by omega) (by omega)
  have hpos : 0 < min b (a / 3600 * 3600 + 3600) - a := by omega
  rw [attributeLoop]
  simp only [hbefore, dite_true, nextCut_ofSeconds, hcut, hpos, ite_true, bucketAt,
    Time.truncate_hour_ofSeconds]

theorem attributeLoop_nil (observed : Activity) {a b : ℤ} (h : b ≤ a) :
    attributeLoop observed (Time.ofSeconds a) (Time.ofSeconds b) = [] := by
  have hbefore : ¬ (Time.ofSeconds a).before (Time.ofSeconds b) := by
    rw [Time.before_ofSeconds]
    simpa using h
  rw [attributeLoop, dif_neg hbefore]

theorem cut_induction {P : ℤ → Prop} (b : ℤ) (hend : ∀ a, b ≤ a → P a)
    (hcut : ∀ a, a < b → P (min b (a / 3600 * 3600 + 3600)) → P a) (a : ℤ) : P a := by
  by_cases h : b ≤ a
  · exact hend a h
  · exact hcut a (not_le.mp h) (cut_induction b hend hcut _)
termination_by (b - a).toNat
decreasing_by omega

/-- The seconds of a list of buckets whose hour satisfies `q`. -/
def secondsIn (q : Time → Bool) (buckets : List Bucket) : ℤ :=
  (buckets.map fun b => if q b.hourStart then b.seconds else 0).sum

@[simp] theorem secondsIn_nil (q : Time → Bool) : secondsIn q [] = 0 := rfl

@[simp] theorem secondsIn_cons (q : Time → Bool) (b : Bucket) (bs : List Bucket) :
    secondsIn q (b :: bs) = (if q b.hourStart then b.seconds else 0) + secondsIn q bs := rfl

theorem secondsIn_attributeLoop_hour (observed : Activity) (a b H : ℤ) :
    secondsIn (fun t => t = Time.ofSeconds (H * 3600))
      (attributeLoop observed (Time.ofSeconds a) (Time.ofSeconds b)) =
        overlap a b (H * 3600) (H * 3600 + 3600) := by
  induction a using cut_induction b with
  | hend a h => rw [attributeLoop_nil observed h, secondsIn_nil, overlap_eq_zero_of_le h]
  | hcut a h ih =>
    rw [attributeLoop_cons observed h, secondsIn_cons, ih,
      ← overlap_add (a := a) (b := min b (a / 3600 * 3600 + 3600)) (c := b) _ _ (by omega) (by omega)]
    congr 1
    by_cases hH : a / 3600 = H
    · rw [overlap_of_subset (by omega) (by omega) (by omega)]
      simp [bucketAt, hH]
    · have hne : ¬ a / 3600 * 3600 = H * 3600 := by omega
      rw [overlap_of_disjoint (by omega)]
      simp [bucketAt, Time.ofSeconds, second, hne]

theorem secondsIn_attributeLoop (observed : Activity) {a b : ℤ} (h : a ≤ b) :
    secondsIn (fun _ => true) (attributeLoop observed (Time.ofSeconds a) (Time.ofSeconds b)) = b - a := by
  induction a using cut_induction b with
  | hend a hb =>
    rw [attributeLoop_nil observed hb, secondsIn_nil]
    omega
  | hcut a hb ih =>
    rw [attributeLoop_cons observed hb, secondsIn_cons, ih (by omega)]
    simp only [bucketAt, ite_true]
    omega

/-- Every bucket carries the observed activity, a whole hour and a positive number of seconds. -/
theorem mem_attributeLoop {observed : Activity} {a b : ℤ} {u : Bucket}
    (h : u ∈ attributeLoop observed (Time.ofSeconds a) (Time.ofSeconds b)) :
    u.state = stateOf observed ∧ u.app = observed.app ∧ u.description = observed.description ∧
      0 < u.seconds ∧ ∃ H, u.hourStart = Time.ofSeconds (H * 3600) := by
  induction a using cut_induction b with
  | hend a hb =>
    rw [attributeLoop_nil observed hb] at h
    cases h
  | hcut a hb ih =>
    rw [attributeLoop_cons observed hb, List.mem_cons] at h
    rcases h with rfl | h
    · refine ⟨rfl, rfl, rfl, ?_, a / 3600, rfl⟩
      simp only [bucketAt]
      omega
    · exact ih h

/-! ### The interval between two reports -/

/-- The interval is credited: it holds a whole second, and `Sub` finds it within `maxGap`. -/
def Credited (maxGap : ℤ) (start stop : Time) : Prop :=
  start.seconds < stop.seconds ∧
    (Time.ofSeconds stop.seconds).sub (Time.ofSeconds start.seconds) ≤ maxGap

instance (maxGap : ℤ) (start stop : Time) : Decidable (Credited maxGap start stop) :=
  inferInstanceAs (Decidable (_ ∧ _))

theorem attributeInterval_of_credited (observed : Activity) {start stop : Time} {maxGap : ℤ}
    (h : Credited maxGap start stop) :
    attributeInterval observed start stop maxGap =
      attributeLoop observed (Time.ofSeconds start.seconds) (Time.ofSeconds stop.seconds) := by
  have hafter : (Time.ofSeconds stop.seconds).after (Time.ofSeconds start.seconds) := by
    rw [Time.after_ofSeconds]
    exact decide_eq_true h.1
  simp only [attributeInterval, Time.utc_truncate_second, hafter, Bool.not_true, Bool.false_eq_true,
    ite_false, not_lt.mpr h.2]

theorem attributeInterval_of_not_credited (observed : Activity) {start stop : Time} {maxGap : ℤ}
    (h : ¬ Credited maxGap start stop) : attributeInterval observed start stop maxGap = [] := by
  simp only [attributeInterval, Time.utc_truncate_second, Time.after_ofSeconds]
  split_ifs with h1 h2
  · rfl
  · rfl
  · exact absurd ⟨by simpa using h1, not_lt.mp h2⟩ h

theorem attributeInterval_eq_nil (observed : Activity) {start stop : Time} {maxGap : ℤ} :
    attributeInterval observed start stop maxGap = [] ↔ ¬ Credited maxGap start stop := by
  refine ⟨fun h hc => ?_, attributeInterval_of_not_credited observed⟩
  rw [attributeInterval_of_credited observed hc, attributeLoop_cons observed hc.1] at h
  cases h

theorem secondsIn_attributeInterval_hour (observed : Activity) (start stop : Time) (maxGap H : ℤ) :
    secondsIn (fun t => t = Time.ofSeconds (H * 3600)) (attributeInterval observed start stop maxGap) =
      if Credited maxGap start stop then
        overlap start.seconds stop.seconds (H * 3600) (H * 3600 + 3600)
      else 0 := by
  split_ifs with h
  · rw [attributeInterval_of_credited observed h, secondsIn_attributeLoop_hour]
  · rw [attributeInterval_of_not_credited observed h, secondsIn_nil]

theorem secondsIn_attributeInterval (observed : Activity) (start stop : Time) (maxGap : ℤ) :
    secondsIn (fun _ => true) (attributeInterval observed start stop maxGap) =
      if Credited maxGap start stop then stop.seconds - start.seconds else 0 := by
  split_ifs with h
  · rw [attributeInterval_of_credited observed h, secondsIn_attributeLoop observed h.1.le]
  · rw [attributeInterval_of_not_credited observed h, secondsIn_nil]

theorem mem_attributeInterval {observed : Activity} {start stop : Time} {maxGap : ℤ} {u : Bucket}
    (h : u ∈ attributeInterval observed start stop maxGap) :
    u.state = stateOf observed ∧ u.app = observed.app ∧ u.description = observed.description ∧
      0 < u.seconds ∧ ∃ H, u.hourStart = Time.ofSeconds (H * 3600) := by
  by_cases hc : Credited maxGap start stop
  · rw [attributeInterval_of_credited observed hc] at h
    exact mem_attributeLoop h
  · rw [attributeInterval_of_not_credited observed hc] at h
    cases h

end CyberstalkMe.Usage
