import CyberstalkMe.Mapping.Mapper
import Mathlib.Data.List.Basic

/-! # What a mapper holds

A mapper that `New` accepts holds, under the normalized name of every rule, that
rule with its patterns compiled, and exposes the normalized entries of
`expose_title`. What `Resolve` reads from it is stated in terms of the options.
-/
namespace CyberstalkMe.Mapping

open Go Shared Foundations

variable {lib : Library}

/-- The rule is one for the process. -/
def Rule.isFor (lib : Library) (r : Rule) (process : String) : Prop :=
  normalize lib r.process = normalize lib process

instance (lib : Library) (r : Rule) (process : String) : Decidable (r.isFor lib process) :=
  inferInstanceAs (Decidable (_ = _))

def Options.ruleFor (lib : Library) (opts : Options) (process : String) : Option Rule :=
  opts.rules.find? fun r => r.isFor lib process

/-- The process is one of the `expose_title` entries. -/
def Options.exposes (lib : Library) (opts : Options) (process : String) : Prop :=
  ∃ p ∈ opts.exposeTitle, normalize lib p = normalize lib process

instance (lib : Library) (opts : Options) (process : String) : Decidable (opts.exposes lib process) :=
  inferInstanceAs (Decidable (∃ p ∈ opts.exposeTitle, _))

def TitlePattern.matches (lib : Library) (title : String) (p : TitlePattern) : Bool :=
  match lib.compile p.matchExpr with
  | .ok re => lib.matchString re title
  | .error _ => false

def Rule.firstMatch (lib : Library) (r : Rule) (title : String) : Option TitlePattern :=
  r.titlePatterns.find? (TitlePattern.matches lib title)

def Rule.describe (lib : Library) (r : Rule) (title : String) : String :=
  ((r.firstMatch lib title).map TitlePattern.description).getD r.description

structure CompiledRule.Of (cr : CompiledRule lib) (r : Rule) : Prop where
  app : cr.app = r.app
  description : cr.description = r.description
  patterns : List.Forall₂ (fun cp p => lib.compile p.matchExpr = .ok cp.re ∧ cp.description = p.description)
    cr.patterns r.titlePatterns

theorem normalize_eq_empty {process : String} : normalize lib process = "" ↔ trimSpace process = "" := by
  rw [normalize, toLower, String.ofList_eq_empty_iff, List.map_eq_nil_iff, String.toList_eq_nil_iff]

theorem compilePatterns_eq_ok {i : ℕ} {process : String} {j : ℕ} {ps : List TitlePattern}
    {cps : List (CompiledPattern lib)} (h : compilePatterns lib i process j ps = .ok cps) :
    List.Forall₂ (fun cp p => lib.compile p.matchExpr = .ok cp.re ∧ cp.description = p.description)
      cps ps := by
  induction ps generalizing j cps with
  | nil =>
    cases h
    exact .nil
  | cons p ps ih =>
    rw [compilePatterns] at h
    cases hre : lib.compile p.matchExpr with
    | error err =>
      rw [hre] at h
      cases h
    | ok re =>
      rw [hre] at h
      cases hrest : compilePatterns lib i process (j + 1) ps with
      | error e => simp [hrest, bind, Except.bind] at h
      | ok rest =>
        simp only [hrest, bind, Except.bind, Except.ok.injEq] at h
        subst h
        exact .cons ⟨hre, rfl⟩ (ih hrest)

theorem addRules_cons {i : ℕ} {r : Rule} {rs : List Rule} {table rules : KeyedTable String (CompiledRule lib)}
    (h : addRules lib i (r :: rs) table = .ok rules) :
    normalize lib r.process ≠ "" ∧ table.lookup (normalize lib r.process) = none ∧
      ∃ cr : CompiledRule lib, cr.Of r ∧
        addRules lib (i + 1) rs (table.upsert (normalize lib r.process) cr fun _ => cr) = .ok rules := by
  rw [addRules] at h
  dsimp only at h
  split_ifs at h with hblank hdup
  cases hpatterns : compilePatterns lib i r.process 0 r.titlePatterns with
  | error e => simp [hpatterns, bind, Except.bind] at h
  | ok patterns =>
    simp only [hpatterns, bind, Except.bind] at h
    exact ⟨hblank, Option.not_isSome_iff_eq_none.mp hdup, _,
      ⟨rfl, rfl, compilePatterns_eq_ok hpatterns⟩, h⟩

theorem addRules_lookup {i : ℕ} {rs : List Rule} {table rules : KeyedTable String (CompiledRule lib)}
    (h : addRules lib i rs table = .ok rules) (key : String) :
    (∀ cr, table.lookup key = some cr → rules.lookup key = some cr) ∧
      (table.lookup key = none →
        match rs.find? fun r => normalize lib r.process = key with
        | none => rules.lookup key = none
        | some r => key ≠ "" ∧ ∃ cr : CompiledRule lib, rules.lookup key = some cr ∧ cr.Of r) := by
  induction rs generalizing i table with
  | nil =>
    cases h
    exact ⟨fun _ h => h, fun h => h⟩
  | cons r rs ih =>
    obtain ⟨hblank, hfresh, cr, hcr, hrest⟩ := addRules_cons h
    obtain ⟨hkeep, hadd⟩ := ih hrest
    by_cases hkey : normalize lib r.process = key
    · subst hkey
      constructor
      · intro cr' hcr'
        rw [hfresh] at hcr'
        cases hcr'
      · intro _
        rw [List.find?_cons_of_pos (by simp)]
        refine ⟨hblank, cr, hkeep cr ?_, hcr⟩
        rw [KeyedTable.lookup_upsert_self, hfresh]
        rfl
    · rw [KeyedTable.lookup_upsert_ne _ (Ne.symm hkey)] at hkeep hadd
      refine ⟨hkeep, fun hnone => ?_⟩
      rw [List.find?_cons_of_neg (by simp [hkey])]
      exact hadd hnone

/-- No two rules have the same name, and none has a name that is there already. -/
theorem addRules_distinct {i : ℕ} {rs : List Rule} {table rules : KeyedTable String (CompiledRule lib)}
    (h : addRules lib i rs table = .ok rules) :
    (∀ r ∈ rs, table.lookup (normalize lib r.process) = none) ∧
      rs.Pairwise fun r r' => normalize lib r.process ≠ normalize lib r'.process := by
  induction rs generalizing i table with
  | nil => exact ⟨List.forall_mem_nil _, List.Pairwise.nil⟩
  | cons r rs ih =>
    obtain ⟨-, hfresh, cr, -, hrest⟩ := addRules_cons h
    obtain ⟨hnone, hpairwise⟩ := ih hrest
    have hne : ∀ r' ∈ rs, normalize lib r'.process ≠ normalize lib r.process := by
      intro r' hr' heq
      have hlookup := hnone r' hr'
      rw [heq, KeyedTable.lookup_upsert_self] at hlookup
      cases hlookup
    constructor
    · rw [List.forall_mem_cons]
      refine ⟨hfresh, fun r' hr' => ?_⟩
      have hlookup := hnone r' hr'
      rwa [KeyedTable.lookup_upsert_ne _ (hne r' hr')] at hlookup
    · exact List.Pairwise.cons (fun r' hr' => (hne r' hr').symm) hpairwise

theorem mem_addExposed {rules : KeyedTable String (CompiledRule lib)} {i : ℕ} {ps : List String}
    {start expose : Finset String} (h : addExposed lib rules i ps start = .ok expose) (key : String) :
    key ∈ expose ↔ key ∈ start ∨ ∃ p ∈ ps, normalize lib p = key := by
  induction ps generalizing i start with
  | nil =>
    cases h
    simp
  | cons p ps ih =>
    rw [addExposed] at h
    split_ifs at h with hblank hrule
    rw [ih h, Finset.mem_insert, List.exists_mem_cons_iff, or_assoc, or_left_comm, eq_comm (a := key)]

/-- What `New` builds. -/
structure Mapper.Of (mapper : Mapper lib) (opts : Options) : Prop where
  rule : ∀ process, match opts.ruleFor lib process with
    | none => mapper.rules.lookup (normalize lib process) = none
    | some r => normalize lib process ≠ "" ∧
        ∃ cr, mapper.rules.lookup (normalize lib process) = some cr ∧ cr.Of r
  distinct : opts.rules.Pairwise fun r r' => normalize lib r.process ≠ normalize lib r'.process
  expose : ∀ process, normalize lib process ∈ mapper.expose ↔ opts.exposes lib process
  defaultApp : mapper.defaultApp = opts.defaultApp
  defaultDescription : mapper.defaultDescription = opts.defaultDescription
  lockedApp : mapper.lockedApp = opts.lockedApp
  lockedDescription : mapper.lockedDescription = opts.lockedDescription
  idleThreshold : mapper.idleThreshold = opts.idleThreshold

theorem Mapper.of_new {opts : Options} {mapper : Mapper lib} (h : Mapper.new lib opts = .ok mapper) :
    mapper.Of opts := by
  rw [Mapper.new] at h
  cases hrules : addRules lib 0 opts.rules .empty with
  | error e => simp [hrules, bind, Except.bind] at h
  | ok rules =>
    cases hexpose : addExposed lib rules 0 opts.exposeTitle ∅ with
    | error e => simp [hrules, hexpose, bind, Except.bind] at h
    | ok expose =>
      simp only [hrules, hexpose, bind, Except.bind, Except.ok.injEq] at h
      subst h
      refine ⟨fun process => ?_, (addRules_distinct hrules).2, fun process => ?_, rfl, rfl, rfl, rfl, rfl⟩
      · exact (addRules_lookup hrules (normalize lib process)).2 rfl
      · rw [mem_addExposed hexpose, Options.exposes]
        simp

theorem Mapper.Of.ruleFor_eq_some {opts : Options} {mapper : Mapper lib} (h : mapper.Of opts)
    {process : String} {r : Rule} :
    opts.ruleFor lib process = some r ↔ r ∈ opts.rules ∧ r.isFor lib process := by
  have hdistinct := h.distinct
  rw [Options.ruleFor]
  constructor
  · intro hfor
    have hname := List.find?_some hfor
    exact ⟨List.mem_of_find?_eq_some hfor, of_decide_eq_true hname⟩
  · rintro ⟨hr, hname⟩
    generalize opts.rules = rules at hr hdistinct ⊢
    induction rules with
    | nil => cases hr
    | cons r' rs ih =>
      obtain ⟨hne, hrest⟩ := List.pairwise_cons.mp hdistinct
      rcases List.mem_cons.mp hr with rfl | hmem
      · exact List.find?_cons_of_pos (decide_eq_true hname)
      · have hother : ¬ r'.isFor lib process := fun heq => hne r hmem (heq.trans hname.symm)
        rw [List.find?_cons_of_neg (by simp [hother])]
        exact ih hmem hrest

end CyberstalkMe.Mapping
