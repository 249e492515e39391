import Mathlib.Data.List.Basic
import Mathlib.Data.List.Infix

/-! # Frames that end with a blank line

A stream is a sequence of frames, each followed by two separators. A reader keeps what follows the last
complete frame and looks again when more arrives. It finds the frames that a reader of the whole finds,
however the stream is cut.
-/
namespace CyberstalkMe.Foundations

variable {α : Type*} [DecidableEq α]

/-- Split at the first two separators in a row. -/
def cutFrame (sep : α) : List α → Option (List α × List α)
  | a :: b :: rest =>
    if a = sep ∧ b = sep then some ([], rest)
    else (cutFrame sep (b :: rest)).map fun r => (a :: r.1, r.2)
  | _ => none

theorem length_of_cutFrame {sep : α} {l frame rest : List α} (h : cutFrame sep l = some (frame, rest)) :
    l.length = frame.length + 2 + rest.length := by
  induction l using cutFrame.induct sep generalizing frame with
  | case1 a b l hsep =>
    rw [cutFrame, if_pos hsep] at h
    cases h
    simp only [List.length_cons, List.length_nil]
    omega
  | case2 a b l hsep ih =>
    rw [cutFrame, if_neg hsep, Option.map_eq_some_iff] at h
    obtain ⟨r, hr, heq⟩ := h
    cases heq
    have := ih hr
    simp only [List.length_cons] at this ⊢
    omega
  | case3 l hl => simp [cutFrame] at h

/-- What follows does not move the first cut. -/
theorem cutFrame_append {sep : α} {l frame rest : List α} (h : cutFrame sep l = some (frame, rest)) (t : List α) :
    cutFrame sep (l ++ t) = some (frame, rest ++ t) := by
  induction l using cutFrame.induct sep generalizing frame with
  | case1 a b l hsep =>
    rw [cutFrame, if_pos hsep] at h
    cases h
    rw [List.cons_append, List.cons_append, cutFrame, if_pos hsep]
  | case2 a b l hsep ih =>
    rw [cutFrame, if_neg hsep, Option.map_eq_some_iff] at h
    obtain ⟨r, hr, heq⟩ := h
    cases heq
    have := ih hr
    rw [List.cons_append] at this
    rw [List.cons_append, List.cons_append, cutFrame, if_neg hsep, this]
    rfl
  | case3 l hl => simp [cutFrame] at h

theorem cutFrame_frame {sep : α} {frame : List α} (h : sep ∉ frame) (rest : List α) :
    cutFrame sep (frame ++ sep :: sep :: rest) = some (frame, rest) := by
  induction frame with
  | nil => rw [List.nil_append, cutFrame, if_pos ⟨rfl, rfl⟩]
  | cons a frame ih =>
    rw [List.mem_cons, not_or] at h
    have hcut := ih h.2
    cases frame with
    | nil =>
      rw [List.nil_append] at hcut
      rw [List.singleton_append, cutFrame, if_neg (fun hsep => h.1 hsep.1.symm), hcut]
      rfl
    | cons b frame =>
      rw [List.cons_append] at hcut
      rw [List.cons_append, List.cons_append, cutFrame, if_neg (fun hsep => h.1 hsep.1.symm), hcut]
      rfl

theorem cutFrame_eq_none {sep : α} {frame l : List α} (h : sep ∉ frame) (hl : l <+: frame ++ [sep]) :
    cutFrame sep l = none := by
  induction frame generalizing l with
  | nil =>
    have hlen := hl.length_le
    match l with
    | [] => rfl
    | [a] => rfl
    | a :: b :: l =>
      simp only [List.length_cons, List.length_nil, List.nil_append] at hlen
      omega
  | cons a frame ih =>
    rw [List.mem_cons, not_or] at h
    match l with
    | [] => rfl
    | [b] => rfl
    | b :: c :: l =>
      obtain ⟨hb, hrest⟩ := List.cons_prefix_cons.mp hl
      subst hb
      rw [cutFrame, if_neg (fun hsep => h.1 hsep.1.symm), ih h.2 hrest]
      rfl

/-! ### Draining a buffer -/

/-- The complete frames, and what follows them. -/
def drain (sep : α) (buffer : List α) : List (List α) × List α :=
  match h : cutFrame sep buffer with
  | none => ([], buffer)
  | some (frame, rest) =>
    have : rest.length < buffer.length := by
      rw [length_of_cutFrame h]
      omega
    let r := drain sep rest
    (frame :: r.1, r.2)
termination_by buffer.length

theorem drain_of_none {sep : α} {buffer : List α} (h : cutFrame sep buffer = none) : drain sep buffer = ([], buffer) := by
  rw [drain]
  split
  · rfl
  · rename_i hcut
    rw [h] at hcut
    cases hcut

theorem drain_of_some {sep : α} {buffer frame rest : List α} (h : cutFrame sep buffer = some (frame, rest)) :
    drain sep buffer = (frame :: (drain sep rest).1, (drain sep rest).2) := by
  rw [drain]
  split
  · rename_i hcut
    rw [h] at hcut
    cases hcut
  · rename_i frame' rest' hcut
    rw [h] at hcut
    cases hcut
    rfl

/-- What arrives later completes what the first frames left. -/
theorem drain_append (sep : α) (buffer t : List α) :
    drain sep (buffer ++ t) = ((drain sep buffer).1 ++ (drain sep ((drain sep buffer).2 ++ t)).1,
      (drain sep ((drain sep buffer).2 ++ t)).2) := by
  induction hlen : buffer.length using Nat.strong_induction_on generalizing buffer with
  | _ n ih =>
    cases hcut : cutFrame sep buffer with
    | none =>
      rw [drain_of_none hcut]
      rfl
    | some r =>
      obtain ⟨frame, rest⟩ := r
      have hlt := length_of_cutFrame hcut
      rw [drain_of_some hcut, drain_of_some (cutFrame_append hcut t), ih rest.length (by omega) rest rfl]
      rfl

/-! ### Frames on a stream -/

def framed (sep : α) (frames : List (List α)) : List α := frames.flatMap fun frame => frame ++ [sep, sep]

omit [DecidableEq α] in
theorem framed_cons (sep : α) (frame : List α) (frames : List (List α)) :
    framed sep (frame :: frames) = (frame ++ [sep, sep]) ++ framed sep frames := rfl

/-- What has arrived of a stream of frames is the complete ones and a part without a cut. A frame is
complete as soon as its last separator has arrived. -/
theorem framed_arrived {sep : α} {frames : List (List α)} (h : ∀ frame ∈ frames, sep ∉ frame) {tail : List α}
    (htail : sep ∉ tail) {arrived : List α} (harrived : arrived <+: framed sep frames ++ tail) :
    ∃ n ≤ frames.length, drain sep arrived = (frames.take n, (drain sep arrived).2) ∧
      ∀ k ≤ frames.length, k ≤ n ↔ (framed sep (frames.take k)).length ≤ arrived.length := by
  induction frames generalizing arrived with
  | nil =>
    have hnone : cutFrame sep arrived = none := cutFrame_eq_none htail (harrived.trans (List.prefix_append _ _))
    refine ⟨0, le_rfl, ?_, fun k hk => ?_⟩
    · rw [drain_of_none hnone]
      rfl
    · simp [Nat.le_zero.mp hk, framed]
  | cons frame frames ih =>
    rw [framed_cons, List.append_assoc] at harrived
    have hframe := h frame List.mem_cons_self
    by_cases hlen : (frame ++ [sep, sep]).length ≤ arrived.length
    · -- the first frame has arrived, and what follows it is a shorter stream
      obtain ⟨later, hlater⟩ := List.prefix_of_prefix_length_le (List.prefix_append _ _) harrived hlen
      have hrest : later <+: framed sep frames ++ tail := by
        rw [← hlater] at harrived
        exact (List.prefix_append_right_inj _).mp harrived
      obtain ⟨n, hn, hdrain, hcomplete⟩ := ih (fun f hf => h f (List.mem_cons_of_mem _ hf)) hrest
      have hcut : cutFrame sep arrived = some (frame, later) := by
        rw [← hlater, List.append_assoc]
        exact cutFrame_frame hframe later
      refine ⟨n + 1, Nat.succ_le_succ hn, ?_, fun k hk => ?_⟩
      · rw [drain_of_some hcut, hdrain]
        rfl
      · cases k with
        | zero => simp [framed]
        | succ k =>
          have hk' := hcomplete k (Nat.succ_le_succ_iff.mp hk)
          have hlength : arrived.length = (frame ++ [sep, sep]).length + later.length := by
            rw [← hlater, List.length_append]
          rw [List.take_succ_cons, framed_cons, List.length_append, hlength]
          omega
    · have hopen : frame ++ [sep] <+: (frame ++ [sep, sep]) ++ (framed sep frames ++ tail) :=
        ⟨sep :: (framed sep frames ++ tail), by simp⟩
      have hpart : arrived <+: frame ++ [sep] := by
        apply List.prefix_of_prefix_length_le harrived hopen
        simp only [List.length_append, List.length_cons, List.length_nil] at hlen ⊢
        omega
      refine ⟨0, Nat.zero_le _, ?_, fun k hk => ?_⟩
      · rw [drain_of_none (cutFrame_eq_none hframe hpart)]
        rfl
      · cases k with
        | zero => simp [framed]
        | succ k =>
          rw [List.take_succ_cons, framed_cons, List.length_append]
          omega

end CyberstalkMe.Foundations
