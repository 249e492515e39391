import CyberstalkMe.Mapping.Errors
import Mathlib.Data.List.Duplicate

/-! # Repeated names

`New` reports the first problem only. It is a repeated name exactly when some name is repeated and no
rule before that has a fault of its own.
-/
namespace CyberstalkMe.Mapping

open Go Shared Foundations

variable {lib : Library}

structure Rule.Sound (lib : Library) (r : Rule) : Prop where
  named : trimSpace r.process ≠ ""
  compiles : ∀ p ∈ r.titlePatterns, ∃ re, lib.compile p.matchExpr = .ok re

def names (lib : Library) (rs : List Rule) : List String := rs.map fun r => normalize lib r.process

/-- Two of the rules have the same name. -/
def Repeats (lib : Library) (rs : List Rule) : Prop := ∃ name ≠ "", List.Duplicate name (names lib rs)

/-- A rule with a fault of its own comes after the first repeated name, or is the one that repeats it. -/
def RepeatsFirst (lib : Library) (rs : List Rule) : Prop :=
  ∀ i r, rs[i]? = some r → ¬ r.Sound lib → Repeats lib (rs.take (i + 1))

def duplicateProcess (lib : Library) (i : ℕ) (r : Rule) : RuleError :=
  ⟨i, -1, false, r.process, "process", "duplicate process " ++ lib.quote r.process, none⟩

/-- `New` fails because of a repeated name. -/
def RejectsDuplicate (lib : Library) (opts : Options) : Prop :=
  ∃ i r, Mapper.new lib opts = .error (duplicateProcess lib i r)

theorem Repeats.mono {rs rs' : List Rule} (h : Repeats lib rs) (hsub : rs.Sublist rs') : Repeats lib rs' := by
  rcases h with ⟨name, hne, hdup⟩
  exact ⟨name, hne, hdup.mono_sublist (hsub.map _)⟩

theorem repeatsFirst_of_sound {rs : List Rule} (h : ∀ r ∈ rs, r.Sound lib) : RepeatsFirst lib rs :=
  fun _ r hr hfault => absurd (h r (List.mem_of_getElem? hr)) hfault

theorem repeats_concat {rs : List Rule} {r : Rule} : Repeats lib (rs ++ [r]) ↔
    Repeats lib rs ∨ normalize lib r.process ≠ "" ∧ normalize lib r.process ∈ names lib rs := by
  have hcount : ∀ name, List.Duplicate name (names lib (rs ++ [r])) ↔
      List.Duplicate name (names lib rs) ∨ normalize lib r.process = name ∧ name ∈ names lib rs := by
    intro name
    have hperm : (names lib (rs ++ [r])).Perm (normalize lib r.process :: names lib rs) := by
      simp [names]
    rw [List.duplicate_iff_two_le_count, hperm.count_eq, ← List.duplicate_iff_two_le_count,
      List.duplicate_cons_iff, or_comm]
  simp only [Repeats, hcount]
  constructor
  · rintro ⟨name, hne, hdup | ⟨rfl, hmem⟩⟩
    · exact .inl ⟨name, hne, hdup⟩
    · exact .inr ⟨hne, hmem⟩
  · rintro (⟨name, hne, hdup⟩ | ⟨hne, hmem⟩)
    · exact ⟨name, hne, .inl hdup⟩
    · exact ⟨_, hne, .inr ⟨rfl, hmem⟩⟩

theorem blank_ne_duplicate {i j : ℕ} {process : String} {r : Rule} :
    (⟨i, -1, false, process, "process", "process must not be empty", none⟩ : RuleError) ≠ duplicateProcess lib j r := by
  intro h
  have hmessage := congrArg (fun e => e.message.toList.head?) h
  have hhead : "duplicate process ".toList.head? = some 'd' := by decide
  simp only [duplicateProcess, String.toList_append, List.head?_append, hhead, Option.some_or] at hmessage
  exact absurd hmessage (by decide)

theorem compilePatterns_cases (lib : Library) (i j : ℕ) (process : String) (ps : List TitlePattern) :
    (∃ cps, compilePatterns lib i process j ps = .ok cps ∧ ∀ p ∈ ps, ∃ re, lib.compile p.matchExpr = .ok re) ∨
      ∃ e, compilePatterns lib i process j ps = .error e ∧ e.err ≠ none ∧
        ¬ ∀ p ∈ ps, ∃ re, lib.compile p.matchExpr = .ok re := by
  induction ps generalizing j with
  | nil => exact .inl ⟨[], rfl, List.forall_mem_nil _⟩
  | cons p ps ih =>
    simp only [compilePatterns, List.forall_mem_cons]
    cases hre : lib.compile p.matchExpr with
    | error err =>
      right
      exact ⟨_, rfl, Option.some_ne_none err, by simp⟩
    | ok re =>
      rcases ih (j + 1) with ⟨cps, hcps, hall⟩ | ⟨e, he, herr, hall⟩
      · left
        rw [hcps]
        exact ⟨_, rfl, ⟨re, rfl⟩, hall⟩
      · right
        rw [he]
        exact ⟨e, rfl, herr, fun h => hall h.2⟩

/-- The loop over the rules, when the table holds the names of those before, which have no fault. -/
theorem addRules_duplicate_iff {i : ℕ} {front rs : List Rule} {table : KeyedTable String (CompiledRule lib)}
    (hseen : ∀ name, (table.lookup name).isSome ↔ name ∈ names lib front) (hsound : ∀ r ∈ front, r.Sound lib)
    (hfresh : ¬ Repeats lib front) :
    (∃ j r, addRules lib i rs table = .error (duplicateProcess lib j r)) ↔
      Repeats lib (front ++ rs) ∧ RepeatsFirst lib (front ++ rs) := by
  induction rs generalizing i front table with
  | nil => simp [addRules, hfresh]
  | cons r rs ih =>
    have hhere : (front ++ r :: rs)[front.length]? = some r := by simp
    have htake : (front ++ r :: rs).take (front.length + 1) = front ++ [r] := by simp [List.take_append]
    rw [addRules]
    dsimp only
    split_ifs with hblank hdup
    · apply iff_of_false
      · rintro ⟨j, r', he⟩
        exact blank_ne_duplicate (Except.error.inj he)
      · intro h
        have hrepeats := h.2 _ r hhere fun hr => hr.named (normalize_eq_empty.mp hblank)
        rw [htake, repeats_concat] at hrepeats
        simp [hfresh, hblank] at hrepeats
    · have hrepeats : Repeats lib (front ++ [r]) := repeats_concat.mpr (.inr ⟨hblank, (hseen _).mp hdup⟩)
      have hfront : (front ++ [r]).Sublist (front ++ r :: rs) := by simp
      apply iff_of_true ⟨i, r, rfl⟩
      refine ⟨hrepeats.mono hfront, fun k r' hr' hfault => ?_⟩
      have hle : front.length ≤ k := by
        by_contra hlt
        rw [List.getElem?_append_left (not_le.mp hlt)] at hr'
        exact hfault (hsound r' (List.mem_of_getElem? hr'))
      rw [← htake] at hrepeats
      exact hrepeats.mono (List.take_sublist_take_left (Nat.succ_le_succ hle))
    · have hnew : normalize lib r.process ∉ names lib front := fun hmem => hdup ((hseen _).mpr hmem)
      have hnone : ¬ Repeats lib (front ++ [r]) := by
        rw [repeats_concat]
        simp [hfresh, hnew]
      rcases compilePatterns_cases lib i 0 r.process r.titlePatterns with
        ⟨cps, hcps, hall⟩ | ⟨e, he, herr, hall⟩
      · have happend : front ++ r :: rs = (front ++ [r]) ++ rs := by simp
        rw [hcps, happend]
        apply ih _ _ hnone
        · intro name
          by_cases hname : name = normalize lib r.process
          · subst hname
            simp [KeyedTable.lookup_upsert_self, names]
          · rw [KeyedTable.lookup_upsert_ne _ hname, hseen]
            simp [names, hname]
        · intro r' hr'
          rcases List.mem_append.mp hr' with hr' | hr'
          · exact hsound r' hr'
          · rw [List.mem_singleton.mp hr']
            exact ⟨mt normalize_eq_empty.mpr hblank, hall⟩
      · rw [he]
        apply iff_of_false
        · rintro ⟨j, r', heq⟩
          cases heq
          exact herr rfl
        · intro h
          apply hnone
          rw [← htake]
          exact h.2 _ r hhere fun hr => hall hr.compiles

theorem addExposed_error_exposeTitle {rules : KeyedTable String (CompiledRule lib)} {i : ℕ} {ps : List String}
    {start : Finset String} {e : RuleError} (h : addExposed lib rules i ps start = .error e) : e.exposeTitle = true := by
  induction ps generalizing i start with
  | nil => cases h
  | cons p ps ih =>
    rw [addExposed] at h
    split_ifs at h
    · cases h
      rfl
    · cases h
      rfl
    · exact ih h

/-- The rules decide whether the problem that `New` reports is a repeated name. -/
theorem rejectsDuplicate_iff {opts : Options} :
    RejectsDuplicate lib opts ↔ Repeats lib opts.rules ∧ RepeatsFirst lib opts.rules := by
  have hloop : (∃ i r, addRules lib 0 opts.rules .empty = .error (duplicateProcess lib i r)) ↔
      Repeats lib ([] ++ opts.rules) ∧ RepeatsFirst lib ([] ++ opts.rules) := by
    apply addRules_duplicate_iff
    · intro name
      exact iff_of_false Bool.false_ne_true (List.not_mem_nil)
    · exact List.forall_mem_nil _
    · rintro ⟨name, -, hdup⟩
      exact hdup.elim_nil
  rw [List.nil_append] at hloop
  rw [← hloop, RejectsDuplicate]
  simp only [Mapper.new]
  cases addRules lib 0 opts.rules .empty with
  | error e => simp only [bind, Except.bind, Except.error.injEq]
  | ok rules =>
    apply iff_of_false
    · rintro ⟨i, r, he⟩
      cases hexpose : addExposed lib rules 0 opts.exposeTitle ∅ with
      | error e =>
        have htitle := addExposed_error_exposeTitle hexpose
        simp only [hexpose, bind, Except.bind] at he
        cases he
        cases htitle
      | ok expose => simp [hexpose, bind, Except.bind] at he
    · rintro ⟨i, r, he⟩
      cases he

end CyberstalkMe.Mapping
