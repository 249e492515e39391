import CyberstalkMe.Foundations.Casing
import CyberstalkMe.Mapping.Duplicates
import CyberstalkMe.Webui.SavePage

/-! # Names of processes

The page and the agent each trim a name and lower its case, with the functions of their languages. These
differ in a byte order mark and a next line character at the ends, in a capital I with a dot and in a sigma
that ends a word. Without them the two comparisons are the same.
-/
namespace CyberstalkMe.Webui

open Foundations Go Mapping

/-- Both languages use the same case tables, in which nothing leads to space or away from it. -/
structure SharedTables (u : Casing) (lib : Library) : Prop where
  lower : lib.lower = u.lower
  lawful : u.Lawful
  isTrimmed : ∀ c, isTrimmed (u.lower c) = isTrimmed c
  isSpace : ∀ c, isSpace (u.lower c) = isSpace c

/-- The name without the space that both sides take away. -/
def bareName (name : String) : List Char := trimEnds (fun c => isTrimmed c && isSpace c) name.toList

/-- The name has nothing that the two languages treat differently. -/
structure Plain (u : Casing) (name : String) : Prop where
  head : ∀ c ∈ (bareName name).head?, c ≠ '\ufeff' ∧ c ≠ '\u0085'
  last : ∀ c ∈ (bareName name).getLast?, c ≠ '\ufeff' ∧ c ≠ '\u0085'
  dotless : 'İ' ∉ bareName name
  sigma : ∀ front back, bareName name = front ++ 'Σ' :: back → ¬ u.finalSigma front.reverse back

/-- Both sides take two names for the same or for different, and for blank or not. -/
structure Agree (u : Casing) (lib : Library) (a b : String) : Prop where
  same : sameProcess u.toLowerCase a b ↔ normalize lib a = normalize lib b
  left : normalizeProcess u.toLowerCase a = "" ↔ normalize lib a = ""
  right : normalizeProcess u.toLowerCase b = "" ↔ normalize lib b = ""

/-- The entries of `expose_title` that the editor takes to be a rule's are those that the agent does. -/
structure SelectsAlike (lower : String → String) (lib : Library) (draft : Draft) : Prop where
  exposes : ∀ rule ∈ draft.rules, exposesTitle lower draft rule.process ↔
    ∃ p ∈ draft.exposeTitle, rule.toAgent.isFor lib p
  removed : ∀ i rule, draft.rules[i]? = some rule →
    (removeRule lower draft i).exposeTitle = draft.exposeTitle.filter fun p => ¬ rule.toAgent.isFor lib p
  set : ∀ rule ∈ draft.rules, ∀ exposed, (setExposeTitle lower draft rule.process exposed).exposeTitle =
    (draft.exposeTitle.filter fun p => ¬ rule.toAgent.isFor lib p) ++ if exposed then [rule.process] else []

/-- Every name in the draft is plain. -/
structure Draft.Plain (u : Casing) (draft : Draft) : Prop where
  rules : ∀ rule ∈ draft.rules, Webui.Plain u rule.process
  exposeTitle : ∀ p ∈ draft.exposeTitle, Webui.Plain u p

/-! ### Space -/

/-- The two kinds of space differ in two characters. -/
theorem isTrimmed_or_isSpace {c : Char} :
    (isTrimmed c || isSpace c) = true ↔ (isTrimmed c && isSpace c) = true ∨ c = '\ufeff' ∨ c = '\u0085' := by
  have hmark : c = '\ufeff' ↔ c.toNat = 0xfeff := by
    rw [← Char.toNat_inj]
    rfl
  have hline : c = '\u0085' ↔ c.toNat = 0x85 := by
    rw [← Char.toNat_inj]
    rfl
  simp only [isTrimmed, isSpace, hmark, hline, Bool.or_eq_true, Bool.and_eq_true, decide_eq_true_eq, List.mem_cons,
    List.not_mem_nil, or_false]
  omega

theorem trimmed_bareName_iff {name : String} :
    Trimmed (fun c => isTrimmed c || isSpace c) (bareName name) ↔
      (∀ c ∈ (bareName name).head?, c ≠ '\ufeff' ∧ c ≠ '\u0085') ∧
        ∀ c ∈ (bareName name).getLast?, c ≠ '\ufeff' ∧ c ≠ '\u0085' := by
  have hends := trimmed_trimEnds (fun c => isTrimmed c && isSpace c) name.toList
  have hread : ∀ o : Option Char, (∀ c ∈ o, ¬ (isTrimmed c && isSpace c)) →
      ((∀ c ∈ o, ¬ (isTrimmed c || isSpace c)) ↔ ∀ c ∈ o, c ≠ '\ufeff' ∧ c ≠ '\u0085') := by
    intro o ho
    apply forall₂_congr
    intro c hc
    rw [isTrimmed_or_isSpace, or_iff_right (ho c hc), not_or]
  rw [bareName, ← hread _ hends.head, ← hread _ hends.last]
  exact ⟨fun h => ⟨h.head, h.last⟩, fun h => ⟨h.1, h.2⟩⟩

theorem toList_trim (s : String) : (trim s).toList = trimEnds isTrimmed s.toList := by
  rw [trim, String.toList_ofList]
  rfl

section Names
variable {u : Casing} {lib : Library} {a b : String}

theorem toList_normalizeProcess :
    (normalizeProcess u.toLowerCase a).toList = u.lowerFrom [] (trimEnds isTrimmed a.toList) := by
  rw [normalizeProcess, Casing.toList_toLowerCase, toList_trim]

theorem toList_normalize : (normalize lib a).toList = (trimEnds isSpace a.toList).map lib.lower := by
  rw [Mapping.normalize, toLower, String.toList_ofList, toList_trimSpace]

theorem SharedTables.caseless_isTrimmed (h : SharedTables u lib) : u.Caseless Webui.isTrimmed :=
  ⟨h.isTrimmed, by decide, by decide, by decide, by decide⟩

theorem SharedTables.caseless_isSpace (h : SharedTables u lib) : u.Caseless Go.isSpace :=
  ⟨h.isSpace, by decide, by decide, by decide, by decide⟩

/-- A name in which none of the four characters occurs. -/
theorem Plain.of_forall (h : ∀ c ∈ a.toList, c ≠ '\ufeff' ∧ c ≠ '\u0085' ∧ c ≠ 'İ' ∧ c ≠ 'Σ') : Plain u a := by
  have hbare : ∀ c ∈ bareName a, c ≠ '\ufeff' ∧ c ≠ '\u0085' ∧ c ≠ 'İ' ∧ c ≠ 'Σ' :=
    fun c hc => h c (mem_of_mem_trimEnds hc)
  constructor
  · intro c hc
    exact ⟨(hbare c (List.mem_of_mem_head? hc)).1, (hbare c (List.mem_of_mem_head? hc)).2.1⟩
  · intro c hc
    exact ⟨(hbare c (List.mem_of_getLast? hc)).1, (hbare c (List.mem_of_getLast? hc)).2.1⟩
  · intro hmem
    exact (hbare _ hmem).2.2.1 rfl
  · intro front back heq
    exact absurd rfl (hbare 'Σ' (by simp [heq])).2.2.2

/-! ### The two normal forms -/

section Tables
variable (tables : SharedTables u lib)
include tables

/-- The two sides give a name the same normal form exactly if it is plain. -/
theorem normalizeProcess_eq_normalize_iff :
    normalizeProcess u.toLowerCase a = normalize lib a ↔ Plain u a := by
  rw [← String.toList_inj, toList_normalizeProcess, toList_normalize, tables.lower]
  constructor
  · intro heq
    have htrimmed : Trimmed (fun c => isTrimmed c || isSpace c) (bareName a) := by
      apply trimmed_or_iff.mpr
      constructor
      · have hform : Trimmed isSpace (u.lowerFrom [] (trimEnds isTrimmed a.toList)) := by
          rw [heq, tables.caseless_isSpace.trimmed_map]
          exact trimmed_trimEnds isSpace _
        exact (tables.caseless_isSpace.trimmed_lowerFrom tables.lawful).mp hform
      · rw [← tables.caseless_isTrimmed.trimmed_map, ← heq,
          tables.caseless_isTrimmed.trimmed_lowerFrom tables.lawful]
        exact trimmed_trimEnds isTrimmed _
    have hends := trimmed_bareName_iff.mp htrimmed
    rw [(trimEnds_eq_of_trimmed_or htrimmed).1, (trimEnds_eq_of_trimmed_or htrimmed).2, ← bareName,
      tables.lawful.lowerFrom_eq_map_iff] at heq
    simp only [List.append_nil] at heq
    exact ⟨hends.1, hends.2, heq.1, heq.2⟩
  · intro h
    have htrimmed := trimmed_bareName_iff.mpr ⟨h.head, h.last⟩
    rw [(trimEnds_eq_of_trimmed_or htrimmed).1, (trimEnds_eq_of_trimmed_or htrimmed).2, ← bareName,
      tables.lawful.lowerFrom_eq_map_iff]
    simp only [List.append_nil]
    exact ⟨h.dotless, h.sigma⟩

theorem toList_normalizeProcess_of_fixed (hfixed : ∀ c ∈ a.toList, u.lower c = c) :
    (normalizeProcess u.toLowerCase a).toList = trimEnds isTrimmed a.toList := by
  rw [toList_normalizeProcess]
  exact tables.lawful.lowerFrom_eq_self fun c hc => hfixed c (mem_of_mem_trimEnds hc)

theorem toList_normalize_of_fixed (hfixed : ∀ c ∈ a.toList, u.lower c = c) :
    (normalize lib a).toList = trimEnds isSpace a.toList := by
  rw [toList_normalize, tables.lower]
  exact (List.map_congr_left fun c hc => hfixed c (mem_of_mem_trimEnds hc)).trans (List.map_id' _)

theorem fixed_normalizeProcess : ∀ c ∈ (normalizeProcess u.toLowerCase a).toList, u.lower c = c := by
  intro c hc
  rw [toList_normalizeProcess] at hc
  exact tables.lawful.fixed_of_mem_lowerFrom hc

theorem fixed_normalize : ∀ c ∈ (normalize lib a).toList, u.lower c = c := by
  intro c hc
  rw [toList_normalize, tables.lower] at hc
  exact tables.lawful.fixed_of_mem_map hc

theorem normalizeProcess_normalizeProcess :
    normalizeProcess u.toLowerCase (normalizeProcess u.toLowerCase a) = normalizeProcess u.toLowerCase a := by
  rw [← String.toList_inj, toList_normalizeProcess_of_fixed tables (fixed_normalizeProcess tables)]
  apply Trimmed.trimEnds_eq
  rw [toList_normalizeProcess, tables.caseless_isTrimmed.trimmed_lowerFrom tables.lawful]
  exact trimmed_trimEnds isTrimmed _

theorem normalize_normalize : normalize lib (normalize lib a) = normalize lib a := by
  rw [← String.toList_inj, toList_normalize_of_fixed tables (fixed_normalize tables)]
  apply Trimmed.trimEnds_eq
  rw [toList_normalize, tables.lower, tables.caseless_isSpace.trimmed_map]
  exact trimmed_trimEnds isSpace _

/-! ### Agreement on names -/

theorem Plain.agree (ha : Plain u a) (hb : Plain u b) : Agree u lib a b := by
  have hforma := (normalizeProcess_eq_normalize_iff tables).mpr ha
  have hformb := (normalizeProcess_eq_normalize_iff tables).mpr hb
  constructor
  · rw [sameProcess_iff, hforma, hformb]
  · rw [hforma]
  · rw [hformb]

theorem Plain.normalizeProcess (ha : Plain u a) : Plain u (normalizeProcess u.toLowerCase a) := by
  rw [← normalizeProcess_eq_normalize_iff tables, normalizeProcess_normalizeProcess tables,
    (normalizeProcess_eq_normalize_iff tables).mpr ha, normalize_normalize tables]

/-- Sides that agree on a name and both its normal forms have one normal form for it. -/
theorem Plain.of_agree (hform : Agree u lib a (Webui.normalizeProcess u.toLowerCase a))
    (hagent : Agree u lib a (normalize lib a)) : Plain u a := by
  have hsame : normalize lib a = normalize lib (Webui.normalizeProcess u.toLowerCase a) := by
    rw [← hform.same, sameProcess_iff, normalizeProcess_normalizeProcess tables]
  have hsame' : Webui.normalizeProcess u.toLowerCase a = Webui.normalizeProcess u.toLowerCase (normalize lib a) := by
    rw [← sameProcess_iff, hagent.same, normalize_normalize tables]
  -- each normal form is what a trim leaves of the other
  have hle : (normalize lib a).toList.Sublist (Webui.normalizeProcess u.toLowerCase a).toList := by
    rw [hsame, toList_normalize_of_fixed tables (fixed_normalizeProcess tables)]
    exact trimEnds_sublist _
  have hge : (Webui.normalizeProcess u.toLowerCase a).toList.Sublist (normalize lib a).toList := by
    rw [hsame', toList_normalizeProcess_of_fixed tables (fixed_normalize tables)]
    exact trimEnds_sublist _
  rw [← normalizeProcess_eq_normalize_iff tables, ← String.toList_inj]
  exact hge.antisymm hle

theorem plain_iff_agree : Plain u a ↔
    Agree u lib a (normalizeProcess u.toLowerCase a) ∧ Agree u lib a (normalize lib a) := by
  constructor
  · intro ha
    rw [← (normalizeProcess_eq_normalize_iff tables).mpr ha, and_self]
    exact ha.agree tables (ha.normalizeProcess tables)
  · rintro ⟨hform, hagent⟩
    exact Plain.of_agree tables hform hagent

theorem Plain.sameProcess_eq (ha : Plain u a) (hb : Plain u b) :
    sameProcess u.toLowerCase a b = decide (normalize lib b = normalize lib a) := by
  rw [Bool.eq_iff_iff, (ha.agree tables hb).same, decide_eq_true_iff, eq_comm]

/-- The names of an editing session are the same to the agent when they are plain. -/
theorem agentAgrees_of_plain {processes : List String} (h : ∀ a ∈ processes, Plain u a) :
    AgentAgrees u.toLowerCase lib processes :=
  fun a ha b hb => ((h a ha).agree tables (h b hb)).same.mp

/-! ### Drafts of plain names -/

theorem Draft.Plain.selectsAlike {draft : Draft} (h : draft.Plain u) : SelectsAlike u.toLowerCase lib draft := by
  have hsame : ∀ rule ∈ draft.rules, ∀ p ∈ draft.exposeTitle,
      sameProcess u.toLowerCase p rule.process = decide (rule.toAgent.isFor lib p) := by
    intro rule hrule p hp
    exact (h.exposeTitle p hp).sameProcess_eq tables (h.rules rule hrule)
  have hfilter : ∀ rule ∈ draft.rules, (draft.exposeTitle.filter fun p => !sameProcess u.toLowerCase p rule.process) =
      draft.exposeTitle.filter fun p => ¬ rule.toAgent.isFor lib p := by
    intro rule hrule
    apply List.filter_congr
    intro p hp
    rw [hsame rule hrule p hp, decide_not]
  constructor
  · intro rule hrule
    rw [exposesTitle_iff]
    apply exists_congr
    intro p
    apply and_congr_right
    intro hp
    rw [hsame rule hrule p hp, decide_eq_true_iff]
  · intro i rule hrule
    simp only [removeRule, hrule]
    exact hfilter rule (List.mem_of_getElem? hrule)
  · intro rule hrule exposed
    rw [setExposeTitle, ← hfilter rule hrule]
    cases exposed <;> simp

omit tables in
theorem mem_markDuplicates {lower : String → String} {rules : List Rule} {seen duplicates : Finset String}
    {key : String} : key ∈ markDuplicates lower rules seen duplicates ↔ key ∈ duplicates ∨ key ≠ "" ∧
      (key ∈ seen ∧ key ∈ rules.map (fun rule => normalizeProcess lower rule.process) ∨
        List.Duplicate key (rules.map fun rule => normalizeProcess lower rule.process)) := by
  induction rules generalizing seen duplicates with
  | nil => simp [markDuplicates, List.not_duplicate_nil]
  | cons rule rules ih =>
    rw [markDuplicates, List.map_cons, List.mem_cons, List.duplicate_cons_iff]
    split_ifs with hblank hseen
    · rw [ih]
      grind
    · rw [ih]
      grind
    · rw [ih]
      grind

omit tables in
theorem duplicateProcesses_nonempty_iff {lower : String → String} {draft : Draft} :
    (duplicateProcesses lower draft).Nonempty ↔
      ∃ key ≠ "", List.Duplicate key (draft.rules.map fun rule => normalizeProcess lower rule.process) := by
  simp [Finset.Nonempty, duplicateProcesses, mem_markDuplicates]

theorem Draft.Plain.duplicateProcesses_nonempty_iff {draft : Draft} (h : draft.Plain u) {rules : List Mapping.Rule}
    (hrules : rules.map Mapping.Rule.process = draft.rules.map Rule.process) :
    (duplicateProcesses u.toLowerCase draft).Nonempty ↔ Repeats lib rules := by
  have hnames : (draft.rules.map fun rule => Webui.normalizeProcess u.toLowerCase rule.process) = names lib rules := by
    calc (draft.rules.map fun rule => Webui.normalizeProcess u.toLowerCase rule.process)
        = draft.rules.map fun rule => normalize lib rule.process := by
          apply List.map_congr_left
          intro rule hrule
          exact (normalizeProcess_eq_normalize_iff tables).mpr (h.rules rule hrule)
      _ = (rules.map Mapping.Rule.process).map (normalize lib) := by rw [hrules, List.map_map]; rfl
      _ = names lib rules := List.map_map
  rw [Webui.duplicateProcesses_nonempty_iff, hnames, Repeats]

end Tables
end Names

/-- The page's comparison of names is the agent's on plain names, and on a name that is not plain the two
sides differ already about its normal forms. -/
theorem process_names_agree_iff {u : Casing} {lib : Library} (tables : SharedTables u lib) :
    (∀ a b, Plain u a → Plain u b → Agree u lib a b) ∧
    (∀ a, Plain u a ↔ Agree u lib a (normalizeProcess u.toLowerCase a) ∧ Agree u lib a (normalize lib a)) ∧
    ∀ (draft : Draft) (opts : Options), draft.Plain u →
      opts.rules.map Mapping.Rule.process = draft.rules.map Rule.process →
      SelectsAlike u.toLowerCase lib draft ∧
        (((duplicateProcesses u.toLowerCase draft).Nonempty ↔ RejectsDuplicate lib opts) ↔
          (Repeats lib opts.rules → RepeatsFirst lib opts.rules)) := by
  refine ⟨fun a b ha hb => ha.agree tables hb, fun a => plain_iff_agree tables, ?_⟩
  intro draft opts h hrules
  refine ⟨h.selectsAlike tables, ?_⟩
  rw [h.duplicateProcesses_nonempty_iff tables hrules, rejectsDuplicate_iff]
  tauto

/-- The capital letters of ASCII, the capital I with a dot and the capital sigma, each with its lower case. -/
def capitals : List (Char × Char) :=
  ('İ', 'i') :: ('Σ', 'σ') :: "ABCDEFGHIJKLMNOPQRSTUVWXYZ".toList.zip "abcdefghijklmnopqrstuvwxyz".toList

def sampleTables : Casing where
  lower c := ((capitals.find? fun e => e.1 == c).map Prod.snd).getD c
  cased c := c.isAlpha || c ∈ ['İ', 'Σ', 'σ', 'ς']
  caseIgnorable c := c ∈ ['.', '\u0307', '\ufeff']

def tablesLibrary : Library := { Agent.plainLibrary.toLibrary with lower := sampleTables.lower }

theorem sampleTables_lower (c : Char) : sampleTables.lower c = c ∨ (c, sampleTables.lower c) ∈ capitals := by
  cases he : capitals.find? fun e => e.1 == c with
  | none =>
    left
    simp [sampleTables, he]
  | some e =>
    right
    have hkey : e.1 = c := by simpa using List.find?_some he
    have hlower : sampleTables.lower c = e.2 := by simp [sampleTables, he]
    rw [hlower, ← hkey]
    exact List.mem_of_find?_eq_some he

theorem sharedTables : SharedTables sampleTables tablesLibrary := by
  have hcapitals : capitals.all fun e => sampleTables.lower e.2 == e.2 && isTrimmed e.2 == isTrimmed e.1 &&
      isSpace e.2 == isSpace e.1 := by decide +kernel
  simp only [List.all_eq_true, Bool.and_eq_true, beq_iff_eq] at hcapitals
  have hcases : ∀ c, sampleTables.lower (sampleTables.lower c) = sampleTables.lower c ∧
      isTrimmed (sampleTables.lower c) = isTrimmed c ∧ isSpace (sampleTables.lower c) = isSpace c := by
    intro c
    rcases sampleTables_lower c with heq | hmem
    · simp [heq]
    · exact ⟨(hcapitals _ hmem).1.1, (hcapitals _ hmem).1.2, (hcapitals _ hmem).2⟩
  exact ⟨rfl, ⟨fun c => (hcases c).1, by decide +kernel, by decide +kernel, by decide +kernel, by decide +kernel⟩,
    fun c => (hcases c).2.1, fun c => (hcases c).2.2⟩

/-- Two rules for one process, which is exposed. -/
def pairDraft (first second : String) : Draft :=
  { emptyDraft with rules := [newRule first "App", newRule second "Other"], exposeTitle := [second] }

def pairOptions (first second : String) : Options :=
  { Agent.Config.empty.mapperOptions with
    rules := (pairDraft first second).rules.map Rule.toAgent
    exposeTitle := [second] }

theorem repeatsFirst_pairOptions {lib : Library} {first second : String} (hfirst : trimSpace first ≠ "")
    (hsecond : trimSpace second ≠ "") : RepeatsFirst lib (pairOptions first second).rules := by
  apply repeatsFirst_of_sound
  simp only [pairOptions, pairDraft, newRule, List.map_cons, List.map_nil, List.forall_mem_cons]
  exact ⟨⟨hfirst, List.forall_mem_nil _⟩, ⟨hsecond, List.forall_mem_nil _⟩, List.forall_mem_nil _⟩

theorem process_names_agree_iff_code :
    Agree sampleTables tablesLibrary "Code.exe" " code.EXE" ∧
      SelectsAlike sampleTables.toLowerCase tablesLibrary (pairDraft "Code.exe" " code.EXE") ∧
        ((duplicateProcesses sampleTables.toLowerCase (pairDraft "Code.exe" " code.EXE")).Nonempty ↔
          RejectsDuplicate tablesLibrary (pairOptions "Code.exe" " code.EXE")) := by
  have hletters : ("Code.exe".toList ++ " code.EXE".toList).all fun c =>
      c != '\ufeff' && c != '\u0085' && c != 'İ' && c != 'Σ' := by decide +kernel
  simp only [List.all_append, List.all_eq_true, Bool.and_eq_true, bne_iff_ne, and_assoc] at hletters
  have hfirst : Plain sampleTables "Code.exe" := Plain.of_forall hletters.1
  have hsecond : Plain sampleTables " code.EXE" := Plain.of_forall hletters.2
  have hdraft : (pairDraft "Code.exe" " code.EXE").Plain sampleTables := by
    constructor
    · simp [pairDraft, newRule, hfirst, hsecond]
    · simp [pairDraft, hsecond]
  have hfirsts : RepeatsFirst tablesLibrary (pairOptions "Code.exe" " code.EXE").rules :=
    repeatsFirst_pairOptions (by decide +kernel) (by decide +kernel)
  have hagree := process_names_agree_iff sharedTables
  have hlist := hagree.2.2 _ (pairOptions "Code.exe" " code.EXE") hdraft rfl
  exact ⟨hagree.1 _ _ hfirst hsecond, hlist.1, hlist.2.mpr fun _ => hfirsts⟩

/-- The agent takes a dotted capital I for an i and refuses the second rule, which the page does not mark,
and whose entry the page does not find from the first rule. A sigma that ends a word is the other way round,
and of the marks at the ends each side knows one. -/
theorem process_names_differ :
    SharedTables sampleTables tablesLibrary ∧
      ¬ Agree sampleTables tablesLibrary "İstanbul.exe" "istanbul.exe" ∧
      ¬ (duplicateProcesses sampleTables.toLowerCase (pairDraft "İstanbul.exe" "istanbul.exe")).Nonempty ∧
      RejectsDuplicate tablesLibrary (pairOptions "İstanbul.exe" "istanbul.exe") ∧
      ¬ SelectsAlike sampleTables.toLowerCase tablesLibrary (pairDraft "İstanbul.exe" "istanbul.exe") ∧
      ¬ Agree sampleTables tablesLibrary "AΣ" "Aς" ∧ ¬ Agree sampleTables tablesLibrary "\ufeff" "" ∧
      ¬ Agree sampleTables tablesLibrary "\u0085code.exe" "code.exe" := by
  have hpage : sameProcess sampleTables.toLowerCase "İstanbul.exe" "istanbul.exe" = false := by decide +kernel
  have hpage' : sameProcess sampleTables.toLowerCase "istanbul.exe" "İstanbul.exe" = false := by decide +kernel
  have hagent : normalize tablesLibrary "İstanbul.exe" = normalize tablesLibrary "istanbul.exe" := by decide +kernel
  refine ⟨sharedTables, ?_, ?_, ?_, ?_, ?_, ?_, ?_⟩
  · intro h
    exact Bool.false_ne_true (hpage ▸ h.same.mpr hagent)
  · decide +kernel
  · rw [rejectsDuplicate_iff]
    constructor
    · refine ⟨normalize tablesLibrary "istanbul.exe", by decide +kernel, ?_⟩
      rw [List.duplicate_iff_two_le_count]
      decide +kernel
    · exact repeatsFirst_pairOptions (by decide +kernel) (by decide +kernel)
  · intro h
    have hexposes := (h.exposes (newRule "İstanbul.exe" "App") (List.mem_cons_self ..)).mpr
      ⟨"istanbul.exe", List.mem_cons_self .., hagent⟩
    rw [exposesTitle_iff] at hexposes
    simp [pairDraft, newRule, hpage'] at hexposes
  · intro h
    have hsame : sameProcess sampleTables.toLowerCase "AΣ" "Aς" := by decide +kernel
    exact absurd (h.same.mp hsame) (by decide +kernel)
  · intro h
    have hblank : normalizeProcess sampleTables.toLowerCase "\ufeff" = "" := by decide +kernel
    exact absurd (h.left.mp hblank) (by decide +kernel)
  · intro h
    have hsame : normalize tablesLibrary "\u0085code.exe" = normalize tablesLibrary "code.exe" := by decide +kernel
    exact absurd (h.same.mpr hsame) (by decide +kernel)

end CyberstalkMe.Webui
