import CyberstalkMe.Mapping.Spec
import CyberstalkMe.Foundations.Fallible

/-! # Noninterference in the window title

For a process that is not exposed, `Resolve` is a fixed activity, or one call of
the getter followed by a function of the title that sees no more of it than which
of the rule's patterns is the first to match.
-/
namespace CyberstalkMe.Mapping

open Go Shared Foundations

variable {lib : Library}

/-- The activity that the options assign to a process and a title. Only the description looks at the
title. -/
def Options.activity (lib : Library) (opts : Options) (process : String) (idleSeconds : ℤ)
    (title : String) : Activity where
  app :=
    if normalize lib process = "" then opts.lockedApp
    else (opts.ruleFor lib process).elim opts.defaultApp fun r => r.app
  description :=
    if normalize lib process = "" then opts.lockedDescription
    else (opts.ruleFor lib process).elim opts.defaultDescription fun r => r.describe lib title
  idle := decide (opts.idleThreshold ≤ mulDuration (max idleSeconds 0) second)
  idleSeconds := max idleSeconds 0
  locked := decide (normalize lib process = "")

def Options.needsTitle (lib : Library) (opts : Options) (process : String) : Bool :=
  (opts.ruleFor lib process).any fun r => !r.titlePatterns.isEmpty

theorem matchPatterns_eq {raw description : String} {cps : List (CompiledPattern lib)}
    {ps : List TitlePattern}
    (h : List.Forall₂ (fun cp p => lib.compile p.matchExpr = .ok cp.re ∧ cp.description = p.description)
      cps ps) :
    matchPatterns raw description cps =
      ((ps.find? (TitlePattern.matches lib raw)).map TitlePattern.description).getD description := by
  induction h with
  | nil => rfl
  | @cons cp p cps ps hp _ ih =>
    have hmatches : TitlePattern.matches lib raw p = lib.matchString cp.re raw := by
      rw [TitlePattern.matches, hp.1]
    rw [matchPatterns, List.find?_cons, hmatches]
    cases lib.matchString cp.re raw with
    | false => exact ih
    | true => exact hp.2

theorem Rule.describe_of_isEmpty {r : Rule} (h : r.titlePatterns.isEmpty) (title : String) :
    r.describe lib title = r.description := by
  rw [Rule.describe, Rule.firstMatch, List.isEmpty_iff.mp h]
  rfl

/-- `Resolve` of a process that is not exposed: at most one call of the getter, and then the activity
of the options. -/
theorem resolve_eq {m : Type → Type} [Monad m] [LawfulMonad m] {opts : Options} {mapper : Mapper lib}
    (h : mapper.Of opts) {process : String} (hexposes : ¬ opts.exposes lib process)
    (title : Option (m String)) (idleSeconds : ℤ) :
    mapper.resolve process title idleSeconds =
      if opts.needsTitle lib process then
        opts.activity lib process idleSeconds <$> readTitle title
      else pure (opts.activity lib process idleSeconds "") := by
  have hidle : (if idleSeconds < 0 then 0 else idleSeconds) = max idleSeconds 0 := by
    split_ifs with hneg
    · rw [max_eq_right hneg.le]
    · rw [max_eq_left (not_lt.mp hneg)]
  have hrule := h.rule process
  rw [Mapper.resolve]
  simp only [hidle, h.idleThreshold, h.defaultApp, h.defaultDescription, h.lockedApp, h.lockedDescription]
  cases hfor : opts.ruleFor lib process with
  | none =>
    rw [hfor] at hrule
    have hneeds : ¬ opts.needsTitle lib process := by
      rw [Options.needsTitle, hfor]
      decide
    rw [if_neg hneeds, Options.activity, hfor]
    by_cases hblank : normalize lib process = ""
    · simp only [hblank, if_true, decide_true]
    · simp only [hblank, if_false, hrule, Option.elim_none, decide_false]
  | some r =>
    rw [hfor] at hrule
    obtain ⟨hblank, cr, hlookup, hcr⟩ := hrule
    have hactivity : ∀ raw, opts.activity lib process idleSeconds raw =
        ⟨r.app, r.describe lib raw, decide (opts.idleThreshold ≤ mulDuration (max idleSeconds 0) second),
          max idleSeconds 0, false⟩ := fun raw => by
      rw [Options.activity, if_neg hblank, if_neg hblank, hfor, decide_eq_false hblank]
      rfl
    have hneeds : opts.needsTitle lib process ↔ 0 < cr.patterns.length := by
      rw [Options.needsTitle, hfor, hcr.patterns.length_eq, List.length_pos_iff]
      simp
    rw [if_neg hblank, hlookup]
    simp only [if_neg (mt (h.expose process).mp hexposes), hneeds, hcr.app, hcr.description]
    generalize decide (opts.idleThreshold ≤ mulDuration (max idleSeconds 0) second) = idle at hactivity ⊢
    by_cases hpatterns : 0 < cr.patterns.length
    · rw [if_pos hpatterns, if_pos hpatterns, map_eq_pure_bind]
      simp only [hactivity, matchPatterns_eq hcr.patterns, Rule.describe, Rule.firstMatch]
    · rw [if_neg hpatterns, if_neg hpatterns, hactivity, Rule.describe_of_isEmpty]
      rw [hcr.patterns.length_eq] at hpatterns
      exact List.isEmpty_iff.mpr (List.length_eq_zero_iff.mp (Nat.le_zero.mp (not_lt.mp hpatterns)))

theorem activity_eq_of_firstMatch {opts : Options} {process : String} {idleSeconds : ℤ}
    {title title' : String}
    (h : ∀ r, opts.ruleFor lib process = some r → r.firstMatch lib title = r.firstMatch lib title') :
    opts.activity lib process idleSeconds title = opts.activity lib process idleSeconds title' := by
  cases hfor : opts.ruleFor lib process with
  | none => simp only [Options.activity, hfor, Option.elim_none]
  | some r =>
    have hdescribe : r.describe lib title = r.describe lib title' := by
      rw [Rule.describe, h r hfor, ← Rule.describe]
    simp only [Options.activity, hfor, Option.elim_some, hdescribe]

/-! ### Counted calls -/

def titleStub (title : String) : StateM ℕ String := fun calls => (title, calls + 1)

/-- The activity, and how often the getter was called. The title `none` is a missing getter. -/
def Mapper.resolveCounted (mapper : Mapper lib) (process : String) (title : Option String)
    (idleSeconds : ℤ) : Activity × ℕ :=
  (mapper.resolve process (title.map titleStub) idleSeconds : StateM ℕ Activity) 0

theorem resolveCounted_eq {opts : Options} {mapper : Mapper lib} (h : mapper.Of opts)
    {process : String} (hexposes : ¬ opts.exposes lib process) (title : Option String) (idleSeconds : ℤ) :
    mapper.resolveCounted process title idleSeconds =
      if opts.needsTitle lib process then
        (opts.activity lib process idleSeconds (title.getD ""), if title.isSome then 1 else 0)
      else (opts.activity lib process idleSeconds "", 0) := by
  rw [Mapper.resolveCounted, resolve_eq h hexposes]
  split_ifs with hneeds hsome
  · obtain ⟨raw, rfl⟩ := Option.isSome_iff_exists.mp hsome
    rfl
  · rw [Option.not_isSome_iff_eq_none] at hsome
    subst hsome
    rfl
  · rfl

theorem activity_of_not_needsTitle {opts : Options} {process : String} {idleSeconds : ℤ}
    (h : ¬ opts.needsTitle lib process) (title : String) :
    opts.activity lib process idleSeconds "" = opts.activity lib process idleSeconds title := by
  apply activity_eq_of_firstMatch
  intro r hfor
  have hempty : r.titlePatterns = [] := by
    rw [Options.needsTitle, hfor, Option.any_some, Bool.not_eq_true', Bool.not_eq_false,
      List.isEmpty_iff] at h
    exact h
  rw [Rule.firstMatch, hempty, Rule.firstMatch, hempty]
  rfl

theorem fst_resolveCounted {opts : Options} {mapper : Mapper lib} (h : mapper.Of opts)
    {process : String} (hexposes : ¬ opts.exposes lib process) (title : Option String) (idleSeconds : ℤ) :
    (mapper.resolveCounted process title idleSeconds).1 =
      opts.activity lib process idleSeconds (title.getD "") := by
  rw [resolveCounted_eq h hexposes]
  by_cases hneeds : opts.needsTitle lib process
  · rw [if_pos hneeds]
  · have hsame : opts.activity lib process idleSeconds "" =
        opts.activity lib process idleSeconds (title.getD "") := activity_of_not_needsTitle hneeds _
    rw [if_neg hneeds, hsame]

/-- The getter is called once when the title is needed and there is one, and otherwise not at all. -/
theorem snd_resolveCounted {opts : Options} {mapper : Mapper lib} (h : mapper.Of opts)
    {process : String} (hexposes : ¬ opts.exposes lib process) (title : Option String) (idleSeconds : ℤ) :
    (mapper.resolveCounted process title idleSeconds).2 =
      if opts.needsTitle lib process ∧ title.isSome then 1 else 0 := by
  rw [resolveCounted_eq h hexposes]
  by_cases hneeds : opts.needsTitle lib process
  · simp only [hneeds, if_true, true_and]
  · simp only [hneeds, Bool.false_eq_true, if_false, false_and]

def Options.Configured (lib : Library) (opts : Options) (process text : String) : Prop :=
  text = opts.lockedDescription ∨ text = opts.defaultDescription ∨
    ∃ r ∈ opts.rules, r.isFor lib process ∧
      (text = r.description ∨ ∃ p ∈ r.titlePatterns, text = p.description)

/-- What the outcomes of one process give away, for all titles and a missing getter. -/
structure Noninterfering (lib : Library) (opts : Options) (process : String)
    (out : Option String → Activity × ℕ) : Prop where
  calls_le : ∀ title, (out title).2 ≤ 1
  calls : ∀ title, (out title).2 ≠ 0 → ∃ r ∈ opts.rules, r.isFor lib process ∧ r.titlePatterns ≠ []
  agree : ∀ title title', (out title).1.app = (out title').1.app ∧
    (out title).1.idle = (out title').1.idle ∧
    (out title).1.idleSeconds = (out title').1.idleSeconds ∧
    (out title).1.locked = (out title').1.locked
  configured : ∀ title, opts.Configured lib process (out title).1.description
  first : ∀ title, ∀ r ∈ opts.rules, r.isFor lib process → ∀ p,
    r.firstMatch lib (title.getD "") = some p → (out title).1.description = p.description
  same : ∀ title title', (∀ r ∈ opts.rules, r.isFor lib process →
    r.firstMatch lib (title.getD "") = r.firstMatch lib (title'.getD "")) →
      (out title).1.description = (out title').1.description
  locked : ∀ title, (out title).1.locked = true ↔ trimSpace process = ""

section Activity
variable {opts : Options} {mapper : Mapper lib} {process : String}

theorem description_activity (h : mapper.Of opts) {r : Rule} (hr : r ∈ opts.rules)
    (hname : r.isFor lib process) (idleSeconds : ℤ) (title : String) :
    (opts.activity lib process idleSeconds title).description = r.describe lib title := by
  have hfor := h.ruleFor_eq_some.mpr ⟨hr, hname⟩
  have hrule := h.rule process
  rw [hfor] at hrule
  simp only [Options.activity, if_neg hrule.1, hfor, Option.elim_some]

theorem ruleFor_eq_none (h : ∀ r ∈ opts.rules, ¬ r.isFor lib process) : opts.ruleFor lib process = none := by
  rw [Options.ruleFor, List.find?_eq_none]
  exact fun r hr hname => h r hr (of_decide_eq_true hname)

theorem exists_of_needsTitle (h : mapper.Of opts) (hneeds : opts.needsTitle lib process) :
    ∃ r ∈ opts.rules, r.isFor lib process ∧ r.titlePatterns ≠ [] := by
  obtain ⟨r, hfor, hpatterns⟩ := (Option.any_eq_true _ _).mp hneeds
  obtain ⟨hr, hname⟩ := h.ruleFor_eq_some.mp hfor
  refine ⟨r, hr, hname, ?_⟩
  rintro hnil
  rw [hnil] at hpatterns
  cases hpatterns

theorem describe_configured {r : Rule} (hr : r ∈ opts.rules) (hname : r.isFor lib process)
    (title : String) : opts.Configured lib process (r.describe lib title) := by
  refine .inr (.inr ⟨r, hr, hname, ?_⟩)
  rw [Rule.describe]
  cases hfirst : r.firstMatch lib title with
  | none => exact .inl rfl
  | some p => exact .inr ⟨p, List.mem_of_find?_eq_some hfirst, rfl⟩

theorem activity_configured (h : mapper.Of opts) (idleSeconds : ℤ) (title : String) :
    opts.Configured lib process (opts.activity lib process idleSeconds title).description := by
  simp only [Options.activity]
  by_cases hblank : normalize lib process = ""
  · rw [if_pos hblank]
    exact .inl rfl
  · rw [if_neg hblank]
    cases hfor : opts.ruleFor lib process with
    | none => exact .inr (.inl rfl)
    | some r =>
      obtain ⟨hr, hname⟩ := h.ruleFor_eq_some.mp hfor
      exact describe_configured hr hname title

theorem locked_activity (opts : Options) (process : String) (idleSeconds : ℤ) (title : String) :
    (opts.activity lib process idleSeconds title).locked = true ↔ trimSpace process = "" := by
  simp only [Options.activity, decide_eq_true_eq, normalize_eq_empty]

theorem activity_of_ruleFor_none {process' : String} (h : opts.ruleFor lib process = none)
    (h' : opts.ruleFor lib process' = none)
    (hblank : trimSpace process = "" ↔ trimSpace process' = "") (idleSeconds : ℤ) (title title' : String) :
    opts.activity lib process idleSeconds title = opts.activity lib process' idleSeconds title' := by
  have hnormal : normalize lib process = "" ↔ normalize lib process' = "" :=
    normalize_eq_empty.trans (hblank.trans normalize_eq_empty.symm)
  simp only [Options.activity, h, h', Option.elim_none, hnormal]

end Activity

/-- A process that is not exposed gives nothing of its window title away but which configured
description applies, and a process without a rule nothing of its name either. -/
theorem resolve_noninterfering (lib : Library) (opts : Options) (mapper : Mapper lib)
    (h : Mapper.new lib opts = .ok mapper) (process : String) (hexposes : ¬ opts.exposes lib process)
    (idleSeconds : ℤ) :
    Noninterfering lib opts process (fun title => mapper.resolveCounted process title idleSeconds) ∧
      ((∀ r ∈ opts.rules, ¬ r.isFor lib process) → ∀ process', ¬ opts.exposes lib process' →
        (∀ r ∈ opts.rules, ¬ r.isFor lib process') → (trimSpace process = "" ↔ trimSpace process' = "") →
        ∀ title title', mapper.resolveCounted process title idleSeconds =
          mapper.resolveCounted process' title' idleSeconds) := by
  have hof := Mapper.of_new h
  constructor
  · constructor
    · intro title
      rw [snd_resolveCounted hof hexposes]
      split_ifs <;> decide
    · intro title hcalls
      rw [snd_resolveCounted hof hexposes] at hcalls
      have hneeds : opts.needsTitle lib process := by
        by_contra hnot
        exact hcalls (if_neg fun hboth => hnot hboth.1)
      exact exists_of_needsTitle hof hneeds
    · intro title title'
      simp only [fst_resolveCounted hof hexposes]
      exact ⟨rfl, rfl, rfl, rfl⟩
    · intro title
      rw [fst_resolveCounted hof hexposes]
      exact activity_configured hof idleSeconds _
    · intro title r hr hname p hp
      rw [fst_resolveCounted hof hexposes, description_activity hof hr hname, Rule.describe, hp]
      rfl
    · intro title title' hsame
      rw [fst_resolveCounted hof hexposes, fst_resolveCounted hof hexposes]
      rw [activity_eq_of_firstMatch]
      intro r hfor
      obtain ⟨hr, hname⟩ := hof.ruleFor_eq_some.mp hfor
      exact hsame r hr hname
    · intro title
      rw [fst_resolveCounted hof hexposes]
      exact locked_activity opts process idleSeconds _
  · intro hnone process' hexposes' hnone' hblank title title'
    have hfor := ruleFor_eq_none hnone
    have hfor' := ruleFor_eq_none hnone'
    have hneeds : ¬ opts.needsTitle lib process := by
      rw [Options.needsTitle, hfor]
      decide
    have hneeds' : ¬ opts.needsTitle lib process' := by
      rw [Options.needsTitle, hfor']
      decide
    rw [resolveCounted_eq hof hexposes, resolveCounted_eq hof hexposes', if_neg hneeds, if_neg hneeds',
      activity_of_ruleFor_none hfor hfor' hblank]

namespace Sample

def library : Library where
  lower := Char.toLower
  quote s := "\"" ++ s ++ "\""
  Regexp := List Char
  compile s := if s.toList.all Char.isAlpha then .ok s.toList else .error "unsupported pattern"
  matchString re title := title.toList.tails.any fun rest => re.isPrefixOf rest

def options : Options where
  rules := [⟨"code.exe", "VS Code", "coding", []⟩,
    ⟨"chrome.exe", "Chrome", "browsing", [⟨"YouTube", "watching"⟩, ⟨"GitHub", "reading code"⟩]⟩,
    ⟨"term.exe", "Terminal", "typing", []⟩]
  exposeTitle := ["term.exe"]
  defaultApp := "some app"
  defaultDescription := "in use"
  lockedApp := "locked"
  lockedDescription := "away"
  idleThreshold := 300 * second

/-- The mapper of the options. -/
def mapper : Option (Mapper library) := (Mapper.new library options).toOption

theorem exists_mapper : ∃ mapper, Mapper.new library options = .ok mapper := by
  apply exists_eq_ok
  decide +kernel

end Sample

open Sample in
theorem resolve_noninterfering_sample :
    ∃ mapper, Mapper.new library options = .ok mapper ∧
      Noninterfering library options "Chrome.EXE" fun title => mapper.resolveCounted "Chrome.EXE" title 42 := by
  obtain ⟨mapper, hnew⟩ := exists_mapper
  have hexposes : ¬ options.exposes library "Chrome.EXE" := by decide +kernel
  exact ⟨mapper, hnew, (resolve_noninterfering library options mapper hnew "Chrome.EXE" hexposes 42).1⟩

example : (Sample.mapper.map fun mapper =>
      mapper.resolveCounted "Chrome.EXE" (some "pull requests - GitHub") 42) =
    some (⟨"Chrome", "reading code", false, 42, false⟩, 1) := by
  decide +kernel

end CyberstalkMe.Mapping
