import CyberstalkMe.Webui.SavePage
import CyberstalkMe.Mapping.PatternOrder

/-! # Moving a title pattern

The agent takes the first pattern that matches, so the order of a rule's patterns is part of what it
means. A move changes that order and nothing else.
-/
namespace CyberstalkMe.Webui

open Foundations Go Mapping

/-- Both indices are of patterns, and different. -/
def Movable (count : ℕ) (start stop : ℤ) : Prop :=
  start ≠ stop ∧ 0 ≤ start ∧ 0 ≤ stop ∧ start < count ∧ stop < count

/-- What `n` presses of an arrow button do, beginning with the pattern at `start`. -/
def adjacentMoves (draft : Draft) (ruleIndex : ℕ) (start delta : ℤ) : ℕ → Draft
  | 0 => draft
  | n + 1 =>
    movePattern (adjacentMoves draft ruleIndex start delta n) ruleIndex (start + n * delta) (start + n * delta + delta)

/-- The rule's patterns are those of before, with the one at `start` moved to `stop`. -/
structure Moved (draft draft' : Draft) (ruleIndex : ℕ) (rule : Rule) (start stop : ℤ) : Prop where
  patterns : ∃ reordered, draft'.rules[ruleIndex]? = some { rule with titlePatterns := some reordered } ∧
    reordered.Perm (patternsOf rule) ∧ reordered[stop.toNat]? = (patternsOf rule)[start.toNat]? ∧
      reordered.eraseIdx stop.toNat = (patternsOf rule).eraseIdx start.toNat
  rules : ∀ i, i ≠ ruleIndex → draft'.rules[i]? = draft.rules[i]?
  fields : draft' = { draft with rules := draft'.rules }
  back : movePattern draft' ruleIndex stop start = draft
  adjacent : draft' = adjacentMoves draft ruleIndex start (stop - start).sign (stop - start).natAbs

/-- The agent accepts the one draft's rules with the other's, and resolves every title alike that at most
one of the rule's patterns matches. -/
def ResolvesAlike (draft draft' : Draft) (rule : Rule) : Prop :=
  ∀ (lib : Library) (opts : Options) (mapper : Mapper lib), opts.rules = draft.rules.map Rule.toAgent →
    Mapper.new lib opts = .ok mapper →
      ∃ mapper', Mapper.new lib { opts with rules := draft'.rules.map Rule.toAgent } = .ok mapper' ∧
        ∀ process title idleSeconds, (rule.toAgent.isFor lib process →
            (patternsOf rule).countP (TitlePattern.matches lib (title.getD "")) ≤ 1) →
          mapper'.resolveCounted process title idleSeconds = mapper.resolveCounted process title idleSeconds

/-! ### The patterns of one rule -/

def withPatterns (draft : Draft) (ruleIndex : ℕ) (patterns : List TitlePattern) : Draft :=
  updateRule draft ruleIndex { titlePatterns := some (some patterns) }

section Patterns
variable {draft : Draft} {ruleIndex : ℕ} {rule : Rule} (hrule : draft.rules[ruleIndex]? = some rule)

theorem rules_withPatterns (draft : Draft) (ruleIndex : ℕ) (patterns : List TitlePattern) :
    (withPatterns draft ruleIndex patterns).rules =
      draft.rules.modify ruleIndex fun r => { r with titlePatterns := some patterns } := rfl

theorem withPatterns_withPatterns (draft : Draft) (ruleIndex : ℕ) (ps qs : List TitlePattern) :
    withPatterns (withPatterns draft ruleIndex ps) ruleIndex qs = withPatterns draft ruleIndex qs := by
  have hrules : (withPatterns (withPatterns draft ruleIndex ps) ruleIndex qs).rules =
      (withPatterns draft ruleIndex qs).rules := by
    rw [rules_withPatterns, rules_withPatterns, rules_withPatterns, List.modify_modify_eq]
    rfl
  exact congrArg (fun rules => { draft with rules }) hrules

include hrule

theorem getElem?_withPatterns (patterns : List TitlePattern) :
    (withPatterns draft ruleIndex patterns).rules[ruleIndex]? = some { rule with titlePatterns := some patterns } := by
  rw [rules_withPatterns, List.getElem?_modify_eq, hrule]
  rfl

theorem withPatterns_self {patterns : List TitlePattern} (h : rule.titlePatterns = some patterns) :
    withPatterns draft ruleIndex patterns = draft := by
  have hrules : (withPatterns draft ruleIndex patterns).rules = draft.rules := by
    rw [rules_withPatterns]
    apply List.ext_getElem?
    intro i
    rw [List.getElem?_modify]
    split_ifs with hi
    · subst hi
      rw [hrule, ← h]
      rfl
    · exact congrFun Option.map_id _
  exact congrArg (fun rules => { draft with rules }) hrules

theorem movePattern_withPatterns {patterns : List TitlePattern} {start stop : ℤ}
    (h : Movable patterns.length start stop) :
    movePattern (withPatterns draft ruleIndex patterns) ruleIndex start stop =
      withPatterns draft ruleIndex (move patterns start.toNat stop.toNat) := by
  obtain ⟨hne, h0, h0', hlt, hlt'⟩ := h
  have hguard : ¬ (start = stop ∨ start < 0 ∨ stop < 0 ∨ (patterns.length : ℤ) ≤ start ∨
      (patterns.length : ℤ) ≤ stop) := by omega
  have hlt : start.toNat < patterns.length := by omega
  have hentry : patterns[start.toNat]? = some patterns[start.toNat] := List.getElem?_eq_getElem hlt
  rw [movePattern, getElem?_withPatterns hrule]
  simp only [patternsOf, Option.getD_some, if_neg hguard, hentry]
  rw [move_eq hentry]
  exact withPatterns_withPatterns draft ruleIndex patterns _

/-- The presses of a button carry the pattern on, one index at a time. -/
theorem adjacentMoves_withPatterns {patterns : List TitlePattern} {start delta : ℤ} (hdelta : delta = 1 ∨ delta = -1)
    (h0 : 0 ≤ start) (hlt : start < patterns.length) (n : ℕ) (hn0 : 0 ≤ start + n * delta)
    (hn : start + n * delta < patterns.length) :
    adjacentMoves (withPatterns draft ruleIndex patterns) ruleIndex start delta n =
      withPatterns draft ruleIndex (move patterns start.toNat (start + n * delta).toNat) := by
  induction n with
  | zero =>
    rw [adjacentMoves, Nat.cast_zero, zero_mul, add_zero, move_self (by omega)]
  | succ n ih =>
    have hnext : start + (n + 1 : ℕ) * delta = start + n * delta + delta := by
      push_cast
      ring
    have hprev : 0 ≤ start + n * delta ∧ start + n * delta < patterns.length := by
      rw [hnext] at hn0 hn
      rcases hdelta with rfl | rfl <;> omega
    rw [hnext] at hn0 hn ⊢
    have hlength := length_move (l := patterns) (i := start.toNat) (j := (start + n * delta).toNat) (by omega) (by omega)
    rw [adjacentMoves, ih hprev.1 hprev.2, movePattern_withPatterns hrule]
    · rw [move_move (by omega) (by omega)]
    · rw [hlength]
      refine ⟨?_, hprev.1, hn0, hprev.2, hn⟩
      rcases hdelta with rfl | rfl <;> omega

end Patterns

/-! ### The move of a rule's pattern -/

theorem titlePatterns_of_movable {rule : Rule} {start stop : ℤ} (h : Movable (patternsOf rule).length start stop) :
    rule.titlePatterns = some (patternsOf rule) := by
  cases hpatterns : rule.titlePatterns with
  | none =>
    obtain ⟨-, h0, -, hlt, -⟩ := h
    rw [patternsOf, hpatterns, Option.getD_none, List.length_nil] at hlt
    omega
  | some patterns =>
    rw [patternsOf, hpatterns]
    rfl

section Move
variable {draft : Draft} {ruleIndex : ℕ} {rule : Rule} (hrule : draft.rules[ruleIndex]? = some rule) {start stop : ℤ}
include hrule

theorem movePattern_of_not_movable (h : ¬ Movable (patternsOf rule).length start stop) :
    movePattern draft ruleIndex start stop = draft := by
  have hguard : start = stop ∨ start < 0 ∨ stop < 0 ∨ ((patternsOf rule).length : ℤ) ≤ start ∨
      ((patternsOf rule).length : ℤ) ≤ stop := by
    unfold Movable at h
    omega
  rw [movePattern, hrule]
  exact if_pos hguard

theorem movePattern_of_movable (h : Movable (patternsOf rule).length start stop) :
    movePattern draft ruleIndex start stop =
      withPatterns draft ruleIndex (move (patternsOf rule) start.toNat stop.toNat) := by
  have hself := withPatterns_self hrule (titlePatterns_of_movable h)
  have hmove := movePattern_withPatterns hrule h
  rwa [hself] at hmove

theorem moved (h : Movable (patternsOf rule).length start stop) :
    Moved draft (movePattern draft ruleIndex start stop) ruleIndex rule start stop := by
  have hself := withPatterns_self hrule (titlePatterns_of_movable h)
  obtain ⟨hne, h0, h0', hlt, hlt'⟩ := h
  have hi : start.toNat < (patternsOf rule).length := by omega
  have hj : stop.toNat < (patternsOf rule).length := by omega
  rw [movePattern_of_movable hrule ⟨hne, h0, h0', hlt, hlt'⟩]
  constructor
  · exact ⟨_, getElem?_withPatterns hrule _, move_perm hi hj, getElem?_move hi hj, eraseIdx_move hi _⟩
  · intro i hother
    rw [rules_withPatterns, List.getElem?_modify_ne _ _ hother.symm]
  · rfl
  · rw [movePattern_withPatterns hrule, move_back hi hj, hself]
    rw [length_move hi hj]
    exact ⟨hne.symm, h0', h0, hlt', hlt⟩
  · have hstop : start + ((stop - start).natAbs : ℤ) * (stop - start).sign = stop := by
      have hsign := Int.sign_mul_natAbs (stop - start)
      rw [mul_comm] at hsign
      omega
    have hdelta : (stop - start).sign = 1 ∨ (stop - start).sign = -1 := by
      rcases lt_or_gt_of_ne (sub_ne_zero.mpr hne.symm) with hneg | hpos
      · exact .inr (Int.sign_eq_neg_one_of_neg hneg)
      · exact .inl (Int.sign_eq_one_of_pos hpos)
    have hpresses := adjacentMoves_withPatterns hrule hdelta h0 hlt (stop - start).natAbs (by rwa [hstop])
      (by rwa [hstop])
    rw [hstop, hself] at hpresses
    exact hpresses.symm

theorem forall₂_toAgent (h : Movable (patternsOf rule).length start stop) :
    List.Forall₂ (fun r' r => r'.Reordered r ∧ (r' = r ∨ r = rule.toAgent))
      ((movePattern draft ruleIndex start stop).rules.map Rule.toAgent) (draft.rules.map Rule.toAgent) := by
  rw [movePattern_of_movable hrule h, rules_withPatterns, List.forall₂_map_left_iff, List.forall₂_map_right_iff]
  apply forall₂_modify _ hrule
  · obtain ⟨-, h0, h0', hlt, hlt'⟩ := h
    exact ⟨⟨rfl, rfl, rfl, move_perm (by omega) (by omega)⟩, .inr rfl⟩
  · exact fun r => ⟨.refl _, .inl rfl⟩

theorem resolvesAlike : ResolvesAlike draft (movePattern draft ruleIndex start stop) rule := by
  intro lib opts mapper hrules hnew
  by_cases h : Movable (patternsOf rule).length start stop
  · have hall := forall₂_toAgent hrule h
    rw [← hrules] at hall
    have hreordered : Options.Reordered
        { opts with rules := (movePattern draft ruleIndex start stop).rules.map Rule.toAgent } opts :=
      ⟨hall.imp fun _ _ hr => hr.1, rfl⟩
    generalize hopts : ({ opts with rules := (movePattern draft ruleIndex start stop).rules.map Rule.toAgent } :
      Options) = opts' at hreordered ⊢
    have hall' : List.Forall₂ (fun r' r => r'.Reordered r ∧ (r' = r ∨ r = rule.toAgent)) opts'.rules opts.rules := by
      rw [← hopts]
      exact hall
    obtain ⟨mapper', hnew'⟩ := Mapper.exists_new_reordered hreordered hnew
    refine ⟨mapper', hnew', fun process title idleSeconds hcount => ?_⟩
    apply resolveCounted_reordered hreordered (Mapper.of_new hnew') (Mapper.of_new hnew)
    intro r' r hr' hr
    have hsame : ∀ r' r : Mapping.Rule, r'.Reordered r ∧ (r' = r ∨ r = rule.toAgent) → r'.process = r.process :=
      fun _ _ hr => hr.1.process
    have hrel := ruleFor_rel lib hsame hall' process
    rw [hr', hr] at hrel
    cases hrel with
    | some hpair =>
      rcases hpair.2 with rfl | rfl
      · rfl
      · apply sameFirst_of_countP hpair.1
        have hfor := List.find?_some hr
        exact hcount (of_decide_eq_true hfor)
  · rw [movePattern_of_not_movable hrule h, ← hrules]
    exact ⟨mapper, hnew, fun _ _ _ _ => rfl⟩

end Move

/-- A move that has nowhere to go returns the draft, and any other only moves the pattern. The agent
resolves every title as before that at most one of the rule's patterns matches. -/
theorem movePattern_only_moves (draft : Draft) (ruleIndex : ℕ) (rule : Rule)
    (hrule : draft.rules[ruleIndex]? = some rule) (start stop : ℤ) :
    (¬ Movable (patternsOf rule).length start stop → movePattern draft ruleIndex start stop = draft) ∧
      (Movable (patternsOf rule).length start stop →
        Moved draft (movePattern draft ruleIndex start stop) ruleIndex rule start stop) ∧
      ResolvesAlike draft (movePattern draft ruleIndex start stop) rule :=
  ⟨movePattern_of_not_movable hrule, moved hrule, resolvesAlike hrule⟩

/-- A browser's rule with two patterns, and another rule. -/
def browserDraft : Draft :=
  { emptyDraft with
    rules := [⟨"code.exe", "VS Code", "Editing", none⟩,
      ⟨"chrome.exe", "Chrome", "Browsing", some [⟨"(?i)youtube", "Watching"⟩, ⟨"(?i)github", "Reading code"⟩]⟩] }

theorem movePattern_only_moves_browser :
    Moved browserDraft (movePattern browserDraft 1 0 1) 1
      ⟨"chrome.exe", "Chrome", "Browsing", some [⟨"(?i)youtube", "Watching"⟩, ⟨"(?i)github", "Reading code"⟩]⟩ 0 1 :=
  (movePattern_only_moves browserDraft 1 _ rfl 0 1).2.1 ⟨by decide, by decide, by decide, by decide, by decide⟩

end CyberstalkMe.Webui
