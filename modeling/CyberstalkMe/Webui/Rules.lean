import CyberstalkMe.Foundations.Execution
import CyberstalkMe.Mapping.Errors

/-! # The rule editor

Pure operations on a draft's rule list, and when they keep every process that
opted out of sanitization together with its rule.
-/
namespace CyberstalkMe.Webui

open Foundations Mapping

/-- A rule as the page holds it; the agent sends `null` for a list of patterns that is nil. -/
structure Rule where
  process : String
  app : String
  description : String
  titlePatterns : Option (List TitlePattern)
deriving DecidableEq, Repr

structure Draft where
  serverURL : String
  deviceID : String
  token : String
  interval : String
  deviceName : String
  idleThreshold : String
  defaultApp : String
  defaultDescription : String
  lockedApp : String
  lockedDescription : String
  rules : List Rule
  exposeTitle : List String
deriving DecidableEq, Repr

def emptyDraft : Draft := ⟨"", "", "", "", "", "", "", "", "", "", [], []⟩

/-- `Partial<Rule>`: the keys that are present replace those of the rule. -/
structure RulePatch where
  process : Option String := none
  app : Option String := none
  description : Option String := none
  titlePatterns : Option (Option (List TitlePattern)) := none
deriving DecidableEq, Repr

def RulePatch.apply (patch : RulePatch) (rule : Rule) : Rule where
  process := patch.process.getD rule.process
  app := patch.app.getD rule.app
  description := patch.description.getD rule.description
  titlePatterns := patch.titlePatterns.getD rule.titlePatterns

/-- `Partial<TitlePattern>`. -/
structure PatternPatch where
  matchExpr : Option String := none
  description : Option String := none
deriving DecidableEq, Repr

def PatternPatch.apply (patch : PatternPatch) (pattern : TitlePattern) : TitlePattern where
  matchExpr := patch.matchExpr.getD pattern.matchExpr
  description := patch.description.getD pattern.description

/-! ### Process names -/

/-- The characters that `String.prototype.trim` removes. -/
def isTrimmed (c : Char) : Bool :=
  c.toNat ∈ [0x09, 0x0a, 0x0b, 0x0c, 0x0d, 0x20, 0xa0, 0x1680, 0x2028, 0x2029, 0x202f, 0x205f, 0x3000,
    0xfeff] || (0x2000 ≤ c.toNat && c.toNat ≤ 0x200a)

def trim (s : String) : String :=
  String.ofList (((s.toList.dropWhile isTrimmed).reverse.dropWhile isTrimmed).reverse)

/-- `lower` is `String.prototype.toLowerCase`. -/
def normalizeProcess (lower : String → String) (process : String) : String := lower (trim process)

def sameProcess (lower : String → String) (a b : String) : Bool :=
  normalizeProcess lower a == normalizeProcess lower b

/-! ### The operations -/

def patternsOf (rule : Rule) : List TitlePattern := rule.titlePatterns.getD []

def newRule (process : String) (app : String := "") (description : String := "") : Rule :=
  ⟨process, app, description, some []⟩

def addRule (draft : Draft) (rule : Rule) : Draft := { draft with rules := draft.rules ++ [rule] }

def updateRule (draft : Draft) (index : ℕ) (patch : RulePatch) : Draft :=
  { draft with rules := draft.rules.modify index patch.apply }

/-- Drop a rule and every `expose_title` entry pointing at it. -/
def removeRule (lower : String → String) (draft : Draft) (index : ℕ) : Draft :=
  { draft with
    rules := draft.rules.eraseIdx index
    exposeTitle := match draft.rules[index]? with
      | some removed => draft.exposeTitle.filter fun p => !sameProcess lower p removed.process
      | none => draft.exposeTitle }

def addPattern (draft : Draft) (ruleIndex : ℕ) (pattern : TitlePattern) : Draft :=
  match draft.rules[ruleIndex]? with
  | none => draft
  | some rule => updateRule draft ruleIndex { titlePatterns := some (some (patternsOf rule ++ [pattern])) }

def updatePattern (draft : Draft) (ruleIndex patternIndex : ℕ) (patch : PatternPatch) : Draft :=
  match draft.rules[ruleIndex]? with
  | none => draft
  | some rule =>
    updateRule draft ruleIndex { titlePatterns := some (some ((patternsOf rule).modify patternIndex patch.apply)) }

def removePattern (draft : Draft) (ruleIndex patternIndex : ℕ) : Draft :=
  match draft.rules[ruleIndex]? with
  | none => draft
  | some rule =>
    updateRule draft ruleIndex { titlePatterns := some (some ((patternsOf rule).eraseIdx patternIndex)) }

/-- A move that would fall off either end does nothing. -/
def movePattern (draft : Draft) (ruleIndex : ℕ) (start stop : ℤ) : Draft :=
  match draft.rules[ruleIndex]? with
  | none => draft
  | some rule =>
    let patterns := patternsOf rule
    if start = stop ∨ start < 0 ∨ stop < 0 ∨ patterns.length ≤ start ∨ patterns.length ≤ stop then draft
    else match patterns[start.toNat]? with
      | none => draft
      | some moved =>
        updateRule draft ruleIndex
          { titlePatterns := some (some ((patterns.eraseIdx start.toNat).insertIdx stop.toNat moved)) }

def exposesTitle (lower : String → String) (draft : Draft) (process : String) : Bool :=
  draft.exposeTitle.any fun p => sameProcess lower p process

def setExposeTitle (lower : String → String) (draft : Draft) (process : String) (exposed : Bool) : Draft :=
  let without := draft.exposeTitle.filter fun p => !sameProcess lower p process
  { draft with exposeTitle := if exposed then without ++ [process] else without }

/-- The rules from here on, with the names that came up and those that came up again. -/
def markDuplicates (lower : String → String) : List Rule → Finset String → Finset String → Finset String
  | [], _, duplicates => duplicates
  | rule :: rules, seen, duplicates =>
    let key := normalizeProcess lower rule.process
    if key = "" then markDuplicates lower rules seen duplicates
    else markDuplicates lower rules (insert key seen) (if key ∈ seen then insert key duplicates else duplicates)

/-- The names that more than one rule claims. -/
def duplicateProcesses (lower : String → String) (draft : Draft) : Finset String :=
  markDuplicates lower draft.rules ∅ ∅

/-- What the editor can do to a draft. -/
inductive Edit
  | addRule (rule : Rule)
  | updateRule (index : ℕ) (patch : RulePatch)
  | removeRule (index : ℕ)
  | addPattern (ruleIndex : ℕ) (pattern : TitlePattern)
  | updatePattern (ruleIndex patternIndex : ℕ) (patch : PatternPatch)
  | removePattern (ruleIndex patternIndex : ℕ)
  | movePattern (ruleIndex : ℕ) (start stop : ℤ)
  | setExposeTitle (process : String) (exposed : Bool)
deriving DecidableEq, Repr

/-- Some rule is about this process. -/
def Draft.HasRule (lower : String → String) (draft : Draft) (process : String) : Prop :=
  ∃ rule ∈ draft.rules, sameProcess lower rule.process process

instance (lower : String → String) (draft : Draft) (process : String) :
    Decidable (draft.HasRule lower process) := by
  unfold Draft.HasRule
  infer_instance

/-- One operation. The page offers the opt-out for the process of a rule only. -/
def edit (lower : String → String) (draft : Draft) : Edit → Option Draft
  | .addRule rule => some (addRule draft rule)
  | .updateRule index patch => some (updateRule draft index patch)
  | .removeRule index => some (removeRule lower draft index)
  | .addPattern ruleIndex pattern => some (addPattern draft ruleIndex pattern)
  | .updatePattern ruleIndex patternIndex patch => some (updatePattern draft ruleIndex patternIndex patch)
  | .removePattern ruleIndex patternIndex => some (removePattern draft ruleIndex patternIndex)
  | .movePattern ruleIndex start stop => some (movePattern draft ruleIndex start stop)
  | .setExposeTitle process exposed =>
    if draft.HasRule lower process then some (setExposeTitle lower draft process exposed) else none

/-! ### Exposed processes and their rules -/

variable {lower : String → String} {draft draft' : Draft}

/-- Every process that reports its raw title has a rule. -/
def Draft.Ruled (lower : String → String) (draft : Draft) : Prop :=
  ∀ process ∈ draft.exposeTitle, draft.HasRule lower process

/-- The condition on a step: a rule that is given another process was not exposed, or another rule
has its old process. -/
def KeepsRuled (lower : String → String) (draft : Draft) : Edit → Prop
  | .updateRule index patch =>
    ∀ rule, draft.rules[index]? = some rule → ∀ process, patch.process = some process →
      exposesTitle lower draft rule.process → sameProcess lower process rule.process ∨
        ∃ other rule', other ≠ index ∧ draft.rules[other]? = some rule' ∧
          sameProcess lower rule'.process rule.process
  | _ => True

theorem sameProcess_iff {a b : String} :
    sameProcess lower a b ↔ normalizeProcess lower a = normalizeProcess lower b := by
  simp [sameProcess]

theorem exposesTitle_iff {process : String} :
    exposesTitle lower draft process ↔ ∃ p ∈ draft.exposeTitle, sameProcess lower p process := by
  simp [exposesTitle]

theorem hasRule_iff {process : String} :
    draft.HasRule lower process ↔
      ∃ name ∈ draft.rules.map Rule.process, sameProcess lower name process := by
  simp [Draft.HasRule]

theorem Draft.HasRule.congr (h : draft'.rules.map Rule.process = draft.rules.map Rule.process)
    {process : String} : draft'.HasRule lower process ↔ draft.HasRule lower process := by
  rw [hasRule_iff, hasRule_iff, h]

theorem Draft.Ruled.congr (h : draft'.rules.map Rule.process = draft.rules.map Rule.process)
    (hexpose : draft'.exposeTitle = draft.exposeTitle) : draft'.Ruled lower ↔ draft.Ruled lower := by
  simp only [Draft.Ruled, hexpose, Draft.HasRule.congr h]

theorem map_process_updateRule {index : ℕ} {patch : RulePatch} (h : patch.process = none) :
    (updateRule draft index patch).rules.map Rule.process = draft.rules.map Rule.process := by
  apply List.ext_getElem?
  intro i
  simp only [updateRule, List.getElem?_map, List.getElem?_modify]
  split_ifs with hi
  · cases draft.rules[i]? <;> simp [RulePatch.apply, h]
  · rw [id_map']

theorem ruled_updateRule_of_none {index : ℕ} {patch : RulePatch} (h : patch.process = none) :
    (updateRule draft index patch).Ruled lower ↔ draft.Ruled lower :=
  Draft.Ruled.congr (map_process_updateRule h) rfl

/-- Giving a rule another process keeps the exposed ones ruled exactly under the condition. -/
theorem ruled_updateRule_iff (h : draft.Ruled lower) {index : ℕ} {patch : RulePatch} :
    (updateRule draft index patch).Ruled lower ↔ KeepsRuled lower draft (.updateRule index patch) := by
  constructor
  · intro hruled rule hrule process hprocess hexposed
    obtain ⟨p, hp, hsame⟩ := exposesTitle_iff.mp hexposed
    obtain ⟨rule', hrule', hsame'⟩ := hruled p hp
    rw [sameProcess_iff] at hsame hsame'
    obtain ⟨other, hother⟩ := List.mem_iff_getElem?.mp hrule'
    rw [updateRule, List.getElem?_modify] at hother
    by_cases hi : index = other
    · subst hi
      simp only [if_true, hrule] at hother
      cases hother
      left
      rw [sameProcess_iff, ← hsame, ← hsame']
      simp [RulePatch.apply, hprocess]
    · simp only [if_neg hi, id_map'] at hother
      right
      refine ⟨other, rule', Ne.symm hi, hother, ?_⟩
      rw [sameProcess_iff, hsame', hsame]
  · intro hkeeps process hprocess
    obtain ⟨rule, hrule, hsame⟩ := h process hprocess
    obtain ⟨i, hi⟩ := List.mem_iff_getElem?.mp hrule
    have hmem : ∀ j r, draft.rules[j]? = some r →
        (if index = j then patch.apply r else r) ∈ (updateRule draft index patch).rules := by
      intro j r hr
      apply List.mem_iff_getElem?.mpr
      refine ⟨j, ?_⟩
      simp only [updateRule, List.getElem?_modify, hr]
      rfl
    by_cases hindex : index = i
    · subst hindex
      cases hpatch : patch.process with
      | none =>
        refine ⟨_, hmem index rule hi, ?_⟩
        simpa [RulePatch.apply, hpatch] using hsame
      | some process' =>
        have hexposed : exposesTitle lower draft rule.process := by
          rw [exposesTitle_iff]
          exact ⟨process, hprocess, sameProcess_iff.mpr (sameProcess_iff.mp hsame).symm⟩
        rcases hkeeps rule hi process' hpatch hexposed with hnew | ⟨other, rule', hne, hother, hsame'⟩
        · refine ⟨_, hmem index rule hi, ?_⟩
          rw [sameProcess_iff] at hsame hnew ⊢
          simpa [RulePatch.apply, hpatch] using hnew.trans hsame
        · refine ⟨_, hmem other rule' hother, ?_⟩
          rw [if_neg (Ne.symm hne)]
          rw [sameProcess_iff] at hsame hsame' ⊢
          exact hsame'.trans hsame
    · refine ⟨_, hmem i rule hi, ?_⟩
      rwa [if_neg hindex]

theorem ruled_patch (h : draft.Ruled lower) {index : ℕ} (patterns : Rule → List TitlePattern) :
    (match draft.rules[index]? with
      | none => draft
      | some rule => updateRule draft index { titlePatterns := some (some (patterns rule)) }).Ruled lower := by
  cases draft.rules[index]? with
  | none => exact h
  | some rule => exact (ruled_updateRule_of_none rfl).mpr h

theorem ruled_addRule (h : draft.Ruled lower) (rule : Rule) : (addRule draft rule).Ruled lower := by
  intro process hprocess
  obtain ⟨rule', hrule', hsame⟩ := h process hprocess
  exact ⟨rule', List.mem_append_left _ hrule', hsame⟩

/-- The rule that goes takes its entries along. -/
theorem ruled_removeRule (h : draft.Ruled lower) (index : ℕ) : (removeRule lower draft index).Ruled lower := by
  cases hremoved : draft.rules[index]? with
  | none =>
    have herase : draft.rules.eraseIdx index = draft.rules :=
      List.eraseIdx_of_length_le (List.getElem?_eq_none_iff.mp hremoved)
    simpa [removeRule, hremoved, herase] using h
  | some removed =>
    intro process hprocess
    simp only [removeRule, hremoved, List.mem_filter, Bool.not_eq_true', Bool.eq_false_iff, ne_eq,
      sameProcess_iff] at hprocess
    obtain ⟨rule, hrule, hsame⟩ := h process hprocess.1
    rw [sameProcess_iff] at hsame
    obtain ⟨i, hi⟩ := List.mem_iff_getElem?.mp hrule
    have hne : i ≠ index := by
      rintro rfl
      rw [hremoved] at hi
      cases hi
      exact hprocess.2 hsame.symm
    refine ⟨rule, List.mem_eraseIdx_iff_getElem?.mpr ⟨i, hne, hi⟩, sameProcess_iff.mpr hsame⟩

theorem ruled_setExposeTitle (h : draft.Ruled lower) {process : String} (hrule : draft.HasRule lower process)
    (exposed : Bool) : (setExposeTitle lower draft process exposed).Ruled lower := by
  intro p hp
  cases exposed with
  | false =>
    simp only [setExposeTitle, Bool.false_eq_true, if_false, List.mem_filter] at hp
    exact h p hp.1
  | true =>
    simp only [setExposeTitle, if_true, List.mem_append, List.mem_filter, List.mem_singleton] at hp
    rcases hp with hp | rfl
    · exact h p hp.1
    · exact hrule

theorem ruled_movePattern {ruleIndex : ℕ} {start stop : ℤ} :
    (movePattern draft ruleIndex start stop).Ruled lower ↔ draft.Ruled lower := by
  rw [movePattern]
  cases draft.rules[ruleIndex]? with
  | none => exact Iff.rfl
  | some rule =>
    dsimp only
    split_ifs
    · exact Iff.rfl
    · cases (patternsOf rule)[start.toNat]? with
      | none => exact Iff.rfl
      | some moved => exact ruled_updateRule_of_none rfl

/-- One operation keeps the exposed processes ruled exactly under the condition. -/
theorem edit_ruled_iff {e : Edit} (h : draft.Ruled lower) (hedit : edit lower draft e = some draft') :
    draft'.Ruled lower ↔ KeepsRuled lower draft e := by
  cases e with
  | addRule rule =>
    cases hedit
    exact iff_of_true (ruled_addRule h rule) trivial
  | updateRule index patch =>
    cases hedit
    exact ruled_updateRule_iff h
  | removeRule index =>
    cases hedit
    exact iff_of_true (ruled_removeRule h index) trivial
  | addPattern ruleIndex pattern =>
    cases hedit
    exact iff_of_true (ruled_patch h fun rule => patternsOf rule ++ [pattern]) trivial
  | updatePattern ruleIndex patternIndex patch =>
    cases hedit
    exact iff_of_true (ruled_patch h fun rule => (patternsOf rule).modify patternIndex patch.apply) trivial
  | removePattern ruleIndex patternIndex =>
    cases hedit
    exact iff_of_true (ruled_patch h fun rule => (patternsOf rule).eraseIdx patternIndex) trivial
  | movePattern ruleIndex start stop =>
    cases hedit
    exact iff_of_true (ruled_movePattern.mpr h) trivial
  | setExposeTitle process exposed =>
    rw [edit] at hedit
    split_ifs at hedit with hrule
    cases hedit
    exact iff_of_true (ruled_setExposeTitle h hrule exposed) trivial

/-! ### The names that come up -/

def Draft.processes (draft : Draft) : List String := draft.rules.map Rule.process ++ draft.exposeTitle

/-- The process names that an operation brings in. -/
def Edit.processes : Edit → List String
  | .addRule rule => [rule.process]
  | .updateRule _ patch => patch.process.toList
  | .setExposeTitle process _ => [process]
  | _ => []

/-- Names that the page takes for the same are the same for the agent. -/
def AgentAgrees (lower : String → String) (lib : Library) (names : List String) : Prop :=
  ∀ a ∈ names, ∀ b ∈ names, sameProcess lower a b → normalize lib a = normalize lib b

theorem processes_updateRule_of_none {index : ℕ} {patch : RulePatch} (h : patch.process = none) :
    (updateRule draft index patch).processes = draft.processes :=
  congrArg (· ++ draft.exposeTitle) (map_process_updateRule h)

theorem processes_updateRule (index : ℕ) (patch : RulePatch) :
    (updateRule draft index patch).processes ⊆ draft.processes ++ patch.process.toList := by
  cases hprocess : patch.process with
  | none =>
    rw [processes_updateRule_of_none hprocess]
    exact List.subset_append_left _ _
  | some process =>
    intro name hname
    rw [Option.toList_some, List.mem_append, List.mem_singleton]
    rw [Draft.processes, List.mem_append] at hname ⊢
    rcases hname with hname | hname
    · obtain ⟨rule, hrule, rfl⟩ := List.mem_map.mp hname
      obtain ⟨i, hi⟩ := List.mem_iff_getElem?.mp hrule
      rw [updateRule, List.getElem?_modify] at hi
      obtain ⟨old, hold, rfl⟩ := Option.map_eq_some_iff.mp hi
      split_ifs
      · exact .inr (by simp [RulePatch.apply, hprocess])
      · exact .inl (.inl (List.mem_map_of_mem (List.mem_of_getElem? hold)))
    · exact .inl (.inr hname)

theorem processes_patch (index : ℕ) (patterns : Rule → List TitlePattern) :
    (match draft.rules[index]? with
      | none => draft
      | some rule => updateRule draft index { titlePatterns := some (some (patterns rule)) }).processes = draft.processes := by
  cases draft.rules[index]? with
  | none => rfl
  | some rule => exact processes_updateRule_of_none rfl

theorem processes_movePattern (ruleIndex : ℕ) (start stop : ℤ) : (movePattern draft ruleIndex start stop).processes = draft.processes := by
  rw [movePattern]
  cases draft.rules[ruleIndex]? with
  | none => rfl
  | some rule =>
    dsimp only
    split_ifs
    · rfl
    · cases (patternsOf rule)[start.toNat]? with
      | none => rfl
      | some moved => exact processes_updateRule_of_none rfl

theorem processes_removeRule (index : ℕ) : (removeRule lower draft index).processes ⊆ draft.processes := by
  have hexpose : (removeRule lower draft index).exposeTitle ⊆ draft.exposeTitle := by
    rw [removeRule]
    split
    · exact List.filter_subset_self _
    · exact List.Subset.refl _
  have hrules : (draft.rules.eraseIdx index).map Rule.process ⊆ draft.rules.map Rule.process :=
    List.map_subset _ List.eraseIdx_subset
  intro name hname
  rw [Draft.processes, List.mem_append] at hname ⊢
  exact hname.imp (fun h => hrules h) fun h => hexpose h

theorem processes_setExposeTitle (process : String) (exposed : Bool) :
    (setExposeTitle lower draft process exposed).processes ⊆ draft.processes ++ [process] := by
  intro name hname
  simp only [Draft.processes, setExposeTitle, List.mem_append] at hname ⊢
  rcases hname with hname | hname
  · exact .inl (.inl hname)
  · cases exposed with
    | false => exact .inl (.inr (List.mem_of_mem_filter hname))
    | true => exact (List.mem_append.mp hname).imp (fun h => .inr (List.mem_of_mem_filter h)) id

theorem processes_edit {e : Edit} (hedit : edit lower draft e = some draft') : draft'.processes ⊆ draft.processes ++ e.processes := by
  cases e with
  | addRule rule =>
    cases hedit
    simp [Draft.processes, Edit.processes, addRule]
  | updateRule index patch =>
    cases hedit
    exact processes_updateRule index patch
  | removeRule index =>
    cases hedit
    exact List.subset_append_of_subset_left _ (processes_removeRule index)
  | addPattern ruleIndex pattern =>
    cases hedit
    rw [show (addPattern draft ruleIndex pattern).processes = draft.processes from processes_patch _ _]
    exact List.subset_append_left _ _
  | updatePattern ruleIndex patternIndex patch =>
    cases hedit
    rw [show (updatePattern draft ruleIndex patternIndex patch).processes = draft.processes from processes_patch _ _]
    exact List.subset_append_left _ _
  | removePattern ruleIndex patternIndex =>
    cases hedit
    rw [show (removePattern draft ruleIndex patternIndex).processes = draft.processes from processes_patch _ _]
    exact List.subset_append_left _ _
  | movePattern ruleIndex start stop =>
    cases hedit
    rw [processes_movePattern]
    exact List.subset_append_left _ _
  | setExposeTitle process exposed =>
    rw [edit] at hedit
    split_ifs at hedit
    cases hedit
    exact processes_setExposeTitle process exposed

/-- A session has no names but those it began with and those its operations brought in. -/
theorem processes_execute {es : List Edit} (he : execute (edit lower) draft es = some draft') :
    draft'.processes ⊆ draft.processes ++ es.flatMap Edit.processes := by
  induction es generalizing draft with
  | nil =>
    cases he
    simp
  | cons e es ih =>
    obtain ⟨next, hnext, hrest⟩ := (execute_cons _).mp he
    rw [List.flatMap_cons, ← List.append_assoc]
    intro name hname
    exact (List.mem_append.mp (ih hrest hname)).elim
      (fun h => List.mem_append_left _ (processes_edit hnext h)) (List.mem_append_right _)

/-! ### Editing sessions -/

theorem Draft.Ruled.exposesTitle_addRule (h : draft.Ruled lower) {rule : Rule}
    (hexposed : exposesTitle lower (addRule draft rule) rule.process) : draft.HasRule lower rule.process := by
  obtain ⟨p, hp, hsame⟩ := exposesTitle_iff.mp hexposed
  obtain ⟨rule', hrule', hsame'⟩ := h p hp
  rw [sameProcess_iff] at hsame hsame'
  exact ⟨rule', hrule', sameProcess_iff.mpr (hsame'.trans hsame)⟩

/-- The error of `New` for an exposed process without a rule. -/
def noRule (lib : Library) (i : ℕ) (p : String) : RuleError :=
  ⟨i, -1, true, p, "", "process " ++ lib.quote p ++ " has no rule; add a rule for it first", none⟩

theorem blank_message_ne (q : String) :
    "process must not be empty" ≠ "process " ++ q ++ " has no rule; add a rule for it first" := by
  intro h
  have hlast := congrArg (fun s => s.toList.getLast?) h
  simp only [String.toList_append, List.getLast?_append] at hlast
  have hend : " has no rule; add a rule for it first".toList.getLast? = some 't' := by decide
  rw [hend, Option.some_or] at hlast
  exact absurd hlast (by decide)

/-- The agent finds the rules of the exposed processes, when it takes for the same the names that the
page takes for the same. -/
theorem Draft.Ruled.new_ne_noRule (h : draft.Ruled lower) {lib : Library} {opts : Options}
    (hrules : opts.rules.map Mapping.Rule.process = draft.rules.map Rule.process)
    (hexpose : opts.exposeTitle = draft.exposeTitle)
    (hagree : AgentAgrees lower lib draft.processes) (i : ℕ) (p : String) :
    Mapper.new lib opts ≠ .error (noRule lib i p) := by
  intro herr
  have hof := Mapper.new_error herr
  generalize he : noRule lib i p = e at hof
  cases hof with
  | blankProcess hr hblank => simp [noRule] at he
  | duplicate hr hr' hlt hsame => simp [noRule] at he
  | pattern hr hp herr => simp [noRule] at he
  | blankExposed hp hblank =>
    simp only [noRule, RuleError.mk.injEq] at he
    exact blank_message_ne _ he.2.2.2.2.2.1.symm
  | unruled hp hnone =>
    have hmem := List.mem_of_getElem? hp
    rw [hexpose] at hmem
    obtain ⟨rule, hrule, hsame⟩ := h _ hmem
    have hname : rule.process ∈ opts.rules.map Mapping.Rule.process := by
      rw [hrules]
      exact List.mem_map_of_mem hrule
    obtain ⟨r, hr, hprocess⟩ := List.mem_map.mp hname
    apply hnone r hr
    rw [Mapping.Rule.isFor, hprocess]
    exact hagree _ (List.mem_append_left _ (List.mem_map_of_mem hrule)) _ (List.mem_append_right _ hmem) hsame

/-- Every exposed process has a rule, and a rule for another process would not be exposed. -/
def Draft.Guarded (lower : String → String) (draft : Draft) : Prop :=
  draft.Ruled lower ∧ ∀ rule, exposesTitle lower (addRule draft rule) rule.process → draft.HasRule lower rule.process

/-- The agent does not miss a rule for an exposed process of the draft. -/
def Draft.Accepted (lib : Library) (draft : Draft) : Prop :=
  ∀ opts : Options, opts.rules.map Mapping.Rule.process = draft.rules.map Rule.process →
    opts.exposeTitle = draft.exposeTitle → ∀ i p, Mapper.new lib opts ≠ .error (noRule lib i p)

/-- The drafts of an editing session are guarded exactly when no rule was renamed away from an exposed process;
and then the agent does not miss a rule either, when names that are the same on the page are the same to it. -/
theorem exposed_titles_ruled_iff {final : Draft} {es : List Edit} (h : draft.Ruled lower)
    (he : execute (edit lower) draft es = some final) :
    (Meets (edit lower) (KeepsRuled lower) draft es ↔
      ∀ as bs reached, es = as ++ bs → execute (edit lower) draft as = some reached → reached.Guarded lower) ∧
    ∀ lib, AgentAgrees lower lib (draft.processes ++ es.flatMap Edit.processes) →
      (Meets (edit lower) (KeepsRuled lower) draft es ↔
        ∀ as bs reached, es = as ++ bs → execute (edit lower) draft as = some reached →
          reached.Guarded lower ∧ reached.Accepted lib) := by
  have hiff : Meets (edit lower) (KeepsRuled lower) draft es ↔
      ∀ as bs reached, es = as ++ bs → execute (edit lower) draft as = some reached → reached.Guarded lower := by
    rw [meets_iff_forall_reached (fun _ _ _ => edit_ruled_iff) h he]
    constructor
    · intro hruled as bs reached has hreached
      have hreached' := hruled as bs reached has hreached
      exact ⟨hreached', fun rule => hreached'.exposesTitle_addRule⟩
    · intro hguarded as bs reached has hreached
      exact (hguarded as bs reached has hreached).1
  refine ⟨hiff, fun lib hagree => hiff.trans ⟨fun hguarded as bs reached has hreached => ?_, ?_⟩⟩
  · have hreached' := hguarded as bs reached has hreached
    refine ⟨hreached', fun opts hrules hexpose => hreached'.1.new_ne_noRule hrules hexpose fun a ha b hb => ?_⟩
    have hprocesses : reached.processes ⊆ draft.processes ++ es.flatMap Edit.processes := by
      rw [has, List.flatMap_append, ← List.append_assoc]
      exact List.subset_append_of_subset_left _ (processes_execute hreached)
    exact hagree a (hprocesses ha) b (hprocesses hb)
  · exact fun hboth as bs reached has hreached => (hboth as bs reached has hreached).1

def exposedDraft : Draft :=
  { emptyDraft with rules := [newRule "code.exe" "Code"], exposeTitle := ["code.exe"] }

def asciiLower (s : String) : String := String.ofList (s.toList.map Char.toLower)

theorem ruled_exposedDraft : exposedDraft.Ruled asciiLower := by
  intro process hprocess
  rw [exposedDraft, List.mem_singleton] at hprocess
  subst hprocess
  decide

/-- Case folding of ASCII letters on both sides. -/
def asciiLibrary : Library where
  lower := Char.toLower
  quote s := "\"" ++ s ++ "\""
  Regexp := String
  compile := .ok
  matchString re title := re == title

/-- The rule gets another app, and a rule for another process is added and exposed. -/
def sampleEdits : List Edit :=
  [.updateRule 0 { app := some "Editor" }, .addRule (newRule "Mail.exe" "Mail"), .setExposeTitle "mail.exe" true]

theorem exposed_titles_ruled_iff_sample :
    exposedDraft.Ruled asciiLower ∧
      (∃ final, execute (edit asciiLower) exposedDraft sampleEdits = some final) ∧
      ∀ as bs reached, sampleEdits = as ++ bs → execute (edit asciiLower) exposedDraft as = some reached →
        reached.Guarded asciiLower ∧ reached.Accepted asciiLibrary := by
  have hagree : AgentAgrees asciiLower asciiLibrary (exposedDraft.processes ++ sampleEdits.flatMap Edit.processes) := by
    unfold AgentAgrees
    decide +kernel
  obtain ⟨final, hfinal⟩ : ∃ final, execute (edit asciiLower) exposedDraft sampleEdits = some final :=
    Option.isSome_iff_exists.mp (by decide +kernel)
  refine ⟨ruled_exposedDraft, ⟨final, hfinal⟩, ((exposed_titles_ruled_iff ruled_exposedDraft hfinal).2 _ hagree).mp ?_⟩
  exact ⟨fun rule _ process hprocess => (by cases hprocess), fun _ _ => ⟨trivial, fun _ _ => ⟨trivial, fun _ _ => trivial⟩⟩⟩

/-- The rule gets another process and the entry stays behind: the agent refuses the draft, and a rule
for the old process would be exposed at once. -/
theorem renamed_rule_leaves_entry :
    exposedDraft.Ruled asciiLower ∧
      ∃ reached, execute (edit asciiLower) exposedDraft
          [.updateRule 0 { process := some "mail.exe" }] = some reached ∧
        ¬ reached.Ruled asciiLower ∧
        exposesTitle asciiLower (addRule reached (newRule "code.exe")) "code.exe" ∧
        ¬ reached.HasRule asciiLower "code.exe" := by
  have hnone : ¬ (updateRule exposedDraft 0 { process := some "mail.exe" }).HasRule asciiLower "code.exe" := by
    decide
  refine ⟨ruled_exposedDraft, _, rfl, fun hbad => ?_, by decide, hnone⟩
  exact hnone (hbad "code.exe" (by decide))

end CyberstalkMe.Webui
