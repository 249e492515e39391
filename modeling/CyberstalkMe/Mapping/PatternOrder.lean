import CyberstalkMe.Mapping.Noninterference
import CyberstalkMe.Foundations.Move

/-! # The order of a rule's patterns

Rules that differ in the order of their patterns are accepted together, and resolve every title alike of
which no two patterns of a rule match.
-/
namespace CyberstalkMe.Mapping

open Go Shared Foundations

variable {lib : Library}

structure Rule.Reordered (r' r : Rule) : Prop where
  process : r'.process = r.process
  app : r'.app = r.app
  description : r'.description = r.description
  patterns : r'.titlePatterns.Perm r.titlePatterns

theorem Rule.Reordered.refl (r : Rule) : r.Reordered r := ⟨rfl, rfl, rfl, .refl _⟩

structure Options.Reordered (opts' opts : Options) : Prop where
  rules : List.Forall₂ Rule.Reordered opts'.rules opts.rules
  rest : opts' = { opts with rules := opts'.rules }

/-! ### Acceptance -/

theorem exists_compilePatterns {i : ℕ} {process : String} {j : ℕ} {ps : List TitlePattern}
    (h : ∀ p ∈ ps, ∃ re, lib.compile p.matchExpr = .ok re) : ∃ cps, compilePatterns lib i process j ps = .ok cps := by
  induction ps generalizing j with
  | nil => exact ⟨[], rfl⟩
  | cons p ps ih =>
    obtain ⟨re, hre⟩ := h p List.mem_cons_self
    obtain ⟨rest, hrest⟩ := ih (j := j + 1) fun q hq => h q (List.mem_cons_of_mem p hq)
    refine ⟨⟨re, p.description⟩ :: rest, ?_⟩
    rw [compilePatterns, hre, hrest]
    rfl

theorem compile_of_mem {r : Rule} {cr : CompiledRule lib} (h : cr.Of r) {p : TitlePattern}
    (hp : p ∈ r.titlePatterns) : ∃ re, lib.compile p.matchExpr = .ok re := by
  have hall := h.patterns
  generalize cr.patterns = cps at hall
  generalize r.titlePatterns = ps at hall hp
  induction hall with
  | nil => cases hp
  | cons hhead _ ih =>
    rcases List.mem_cons.mp hp with rfl | hp
    · exact ⟨_, hhead.1⟩
    · exact ih hp

/-- The loop over the rules ends well for the same rules in another order of patterns, and knows the same
names. -/
theorem addRules_reordered {rs' rs : List Rule} (hrs : List.Forall₂ Rule.Reordered rs' rs) {i : ℕ}
    {table' table rules : KeyedTable String (CompiledRule lib)}
    (hkeys : ∀ key, (table'.lookup key).isSome = (table.lookup key).isSome)
    (h : addRules lib i rs table = .ok rules) :
    ∃ rules', addRules lib i rs' table' = .ok rules' ∧
      ∀ key, (rules'.lookup key).isSome = (rules.lookup key).isSome := by
  induction hrs generalizing i table' table with
  | nil =>
    cases h
    exact ⟨table', rfl, hkeys⟩
  | @cons r' r rs' rs hr _ ih =>
    obtain ⟨hblank, hfresh, cr, hcr, hrest⟩ := addRules_cons h
    have hfresh' : (table'.lookup (normalize lib r.process)).isSome = false := by
      rw [hkeys, hfresh]
      rfl
    have hcompile : ∃ cps, compilePatterns lib i r.process 0 r'.titlePatterns = .ok cps :=
      exists_compilePatterns fun p hp => compile_of_mem hcr (hr.patterns.subset hp)
    obtain ⟨cps, hcps⟩ := hcompile
    have hkeys' (key : String) :
        ((table'.upsert (normalize lib r.process) (⟨r'.app, r'.description, cps⟩ : CompiledRule lib) fun _ =>
          ⟨r'.app, r'.description, cps⟩).lookup key).isSome =
          ((table.upsert (normalize lib r.process) cr fun _ => cr).lookup key).isSome := by
      rw [KeyedTable.lookup_upsert, KeyedTable.lookup_upsert]
      split_ifs
      · rfl
      · exact hkeys key
    obtain ⟨rules', hrules', hsame⟩ := ih hkeys' hrest
    refine ⟨rules', ?_, hsame⟩
    rw [addRules, hr.process]
    simp only [hblank, if_false, hfresh', Bool.false_eq_true, hcps]
    exact hrules'

theorem addExposed_congr {rules' rules : KeyedTable String (CompiledRule lib)}
    (hkeys : ∀ key, (rules'.lookup key).isSome = (rules.lookup key).isSome) (i : ℕ) (ps : List String)
    (expose : Finset String) : addExposed lib rules' i ps expose = addExposed lib rules i ps expose := by
  induction ps generalizing i expose with
  | nil => rfl
  | cons p ps ih =>
    have hnone : (rules'.lookup (normalize lib p)).isNone = (rules.lookup (normalize lib p)).isNone := by
      rw [← Option.not_isSome, ← Option.not_isSome, hkeys]
    rw [addExposed, addExposed, hnone, ih]

/-- Options that are accepted are accepted with their patterns in another order. -/
theorem Mapper.exists_new_reordered {opts' opts : Options} (h : opts'.Reordered opts) {mapper : Mapper lib}
    (hnew : Mapper.new lib opts = .ok mapper) : ∃ mapper', Mapper.new lib opts' = .ok mapper' := by
  rw [Mapper.new] at hnew
  cases hrules : addRules lib 0 opts.rules .empty with
  | error e => simp [hrules, bind, Except.bind] at hnew
  | ok rules =>
    cases hexpose : addExposed lib rules 0 opts.exposeTitle ∅ with
    | error e => simp [hrules, hexpose, bind, Except.bind] at hnew
    | ok expose =>
      obtain ⟨rules', hrules', hkeys⟩ := addRules_reordered h.rules (fun _ => rfl) hrules
      have hexpose' : addExposed lib rules' 0 opts'.exposeTitle ∅ = .ok expose := by
        rw [addExposed_congr hkeys, h.rest]
        exact hexpose
      rw [Mapper.new]
      simp only [hrules', hexpose', bind, Except.bind]
      exact ⟨_, rfl⟩

/-! ### What is resolved -/

/-- The first match is not moved: no two patterns of the rule match, or they stand in the same order. -/
def Rule.SameFirst (lib : Library) (title : String) (r' r : Rule) : Prop :=
  r'.firstMatch lib title = r.firstMatch lib title

theorem sameFirst_of_countP {r' r : Rule} (h : r'.Reordered r) {title : String}
    (hcount : r.titlePatterns.countP (TitlePattern.matches lib title) ≤ 1) : r'.SameFirst lib title r :=
  find?_eq_of_perm h.patterns hcount

/-- The rules of a process correspond, whatever relation between rules with the same process is asked. -/
theorem ruleFor_rel (lib : Library) {R : Rule → Rule → Prop} (hR : ∀ r' r, R r' r → r'.process = r.process) {opts' opts : Options}
    (h : List.Forall₂ R opts'.rules opts.rules) (process : String) :
    Option.Rel R (opts'.ruleFor lib process) (opts.ruleFor lib process) := by
  rw [Options.ruleFor, Options.ruleFor]
  generalize opts'.rules = rs' at h
  generalize opts.rules = rs at h
  induction h with
  | nil => exact .none
  | @cons r' r rs' rs hr _ ih =>
    have hiff : r'.isFor lib process ↔ r.isFor lib process := by
      rw [Rule.isFor, Rule.isFor, hR r' r hr]
    rw [List.find?_cons, List.find?_cons]
    by_cases hfor : r.isFor lib process
    · simp only [hfor, hiff.mpr hfor, decide_true]
      exact .some hr
    · simp only [hfor, mt hiff.mp hfor, decide_false]
      exact ih

theorem matchPatterns_reordered {r' r : Rule} {cr' cr : CompiledRule lib} (h : r'.Reordered r) (hcr' : cr'.Of r')
    (hcr : cr.Of r) {title : String} (hfirst : r'.SameFirst lib title r) :
    matchPatterns title cr'.description cr'.patterns = matchPatterns title cr.description cr.patterns := by
  have hfind : r'.titlePatterns.find? (TitlePattern.matches lib title) =
      r.titlePatterns.find? (TitlePattern.matches lib title) := hfirst
  rw [matchPatterns_eq hcr'.patterns, matchPatterns_eq hcr.patterns, hfind, hcr'.description, hcr.description,
    h.description]

/-- The getter is called once if there is one. -/
theorem readTitle_counted (title : Option String) (f : String → Activity) :
    (readTitle (title.map titleStub) >>= fun raw => pure (f raw) : StateM ℕ Activity) 0 =
      (f (title.getD ""), if title.isSome then 1 else 0) := by
  cases title <;> rfl

/-- A title is resolved alike when its first match is not moved. -/
theorem resolveCounted_reordered {opts' opts : Options} (h : opts'.Reordered opts) {mapper' mapper : Mapper lib}
    (hmapper' : mapper'.Of opts') (hmapper : mapper.Of opts) {process : String} {title : Option String}
    (hfirst : ∀ r' r, opts'.ruleFor lib process = some r' → opts.ruleFor lib process = some r →
      r'.SameFirst lib (title.getD "") r) (idleSeconds : ℤ) :
    mapper'.resolveCounted process title idleSeconds = mapper.resolveCounted process title idleSeconds := by
  have hexpose : normalize lib process ∈ mapper'.expose ↔ normalize lib process ∈ mapper.expose := by
    rw [hmapper'.expose, hmapper.expose, h.rest]
    rfl
  have hidle : mapper'.idleThreshold = mapper.idleThreshold := by
    rw [hmapper'.idleThreshold, hmapper.idleThreshold, h.rest]
  have hlocked : mapper'.lockedApp = mapper.lockedApp ∧ mapper'.lockedDescription = mapper.lockedDescription := by
    rw [hmapper'.lockedApp, hmapper.lockedApp, hmapper'.lockedDescription, hmapper.lockedDescription, h.rest]
    exact ⟨rfl, rfl⟩
  have hdefault : mapper'.defaultApp = mapper.defaultApp ∧
      mapper'.defaultDescription = mapper.defaultDescription := by
    rw [hmapper'.defaultApp, hmapper.defaultApp, hmapper'.defaultDescription, hmapper.defaultDescription, h.rest]
    exact ⟨rfl, rfl⟩
  have hrel : Option.Rel Rule.Reordered (opts'.ruleFor lib process) (opts.ruleFor lib process) :=
    ruleFor_rel lib (fun _ _ hr => hr.process) h.rules process
  have hrule' := hmapper'.rule process
  have hrule := hmapper.rule process
  unfold Mapper.resolveCounted Mapper.resolve
  simp only [hidle, hlocked, hdefault, hexpose]
  cases hr' : opts'.ruleFor lib process with
  | none =>
    cases hr : opts.ruleFor lib process with
    | none =>
      rw [hr'] at hrule'
      rw [hr] at hrule
      simp only [hrule', hrule]
    | some r =>
      rw [hr', hr] at hrel
      cases hrel
  | some r' =>
    cases hr : opts.ruleFor lib process with
    | none =>
      rw [hr', hr] at hrel
      cases hrel
    | some r =>
      rw [hr', hr] at hrel
      cases hrel with
      | some hreordered =>
        rw [hr'] at hrule'
        rw [hr] at hrule
        obtain ⟨hblank, cr', hlookup', hcr'⟩ := hrule'
        obtain ⟨-, cr, hlookup, hcr⟩ := hrule
        have happ : cr'.app = cr.app := by rw [hcr'.app, hcr.app, hreordered.app]
        have hdescription : cr'.description = cr.description := by
          rw [hcr'.description, hcr.description, hreordered.description]
        have hlength : cr'.patterns.length = cr.patterns.length := by
          rw [hcr'.patterns.length_eq, hcr.patterns.length_eq, hreordered.patterns.length_eq]
        have hmatch := matchPatterns_reordered hreordered hcr' hcr (hfirst r' r hr' hr)
        simp only [hblank, if_false, hlookup', hlookup, happ, hdescription, hlength]
        rw [hdescription] at hmatch
        generalize (if idleSeconds < 0 then 0 else idleSeconds) = idleSeconds
        split_ifs
        · rfl
        · rw [readTitle_counted, readTitle_counted, hmatch]
        · rfl

end CyberstalkMe.Mapping
