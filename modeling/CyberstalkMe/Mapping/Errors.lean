import CyberstalkMe.Mapping.Spec

/-! # Rule errors

`New` fails with the first problem of the options. The error locates it: the path
names the key at fault, and what the message says is true of the value there.
-/
namespace CyberstalkMe.Mapping

open Go Shared Foundations

namespace RuleError

def error (e : RuleError) : String :=
  if e.exposeTitle then "expose_title " ++ toString e.index ++ ": " ++ e.message
  else if 0 ≤ e.pattern then
    "rule " ++ toString e.index ++ " (" ++ e.process ++ ") title_pattern " ++ toString e.pattern ++ ": " ++
      e.message
  else "rule " ++ toString e.index ++ ": " ++ e.message

/-- The path of the offending key in the configuration as written. -/
def fieldPath (e : RuleError) : String :=
  if e.exposeTitle then "expose_title[" ++ toString e.index ++ "]"
  else if 0 ≤ e.pattern then
    "rules[" ++ toString e.index ++ "].title_patterns[" ++ toString e.pattern ++ "]." ++ e.field
  else if e.field = "" then "rules[" ++ toString e.index ++ "]"
  else "rules[" ++ toString e.index ++ "]." ++ e.field

inductive Of (lib : Library) (opts : Options) : RuleError → Prop
  | blankProcess {i : ℕ} {r : Rule} (hr : opts.rules[i]? = some r) (hblank : normalize lib r.process = "") :
      Of lib opts ⟨i, -1, false, "", "process", "process must not be empty", none⟩
  | duplicate {i j : ℕ} {r r' : Rule} (hr : opts.rules[i]? = some r) (hr' : opts.rules[j]? = some r')
      (hlt : j < i) (hsame : r'.isFor lib r.process) :
      Of lib opts ⟨i, -1, false, r.process, "process", "duplicate process " ++ lib.quote r.process, none⟩
  | pattern {i j : ℕ} {r : Rule} {p : TitlePattern} {err : String} (hr : opts.rules[i]? = some r)
      (hp : r.titlePatterns[j]? = some p) (herr : lib.compile p.matchExpr = .error err) :
      Of lib opts ⟨i, j, false, r.process, "match",
        "compile " ++ lib.quote p.matchExpr ++ ": " ++ err, some err⟩
  | blankExposed {i : ℕ} {p : String} (hp : opts.exposeTitle[i]? = some p) (hblank : normalize lib p = "") :
      Of lib opts ⟨i, -1, true, "", "", "process must not be empty", none⟩
  | unruled {i : ℕ} {p : String} (hp : opts.exposeTitle[i]? = some p)
      (hnone : ∀ r ∈ opts.rules, ¬ r.isFor lib p) :
      Of lib opts ⟨i, -1, true, p, "", "process " ++ lib.quote p ++ " has no rule; add a rule for it first",
        none⟩

/-- The path of a key that the options have and that the errors of `New` can name. -/
inductive KeyPath (opts : Options) : String → Prop
  | process {i : ℕ} (hi : i < opts.rules.length) : KeyPath opts ("rules[" ++ toString i ++ "].process")
  | patternMatch {i j : ℕ} {r : Rule} (hr : opts.rules[i]? = some r) (hj : j < r.titlePatterns.length) :
      KeyPath opts ("rules[" ++ toString i ++ "].title_patterns[" ++ toString j ++ "].match")
  | exposeTitle {i : ℕ} (hi : i < opts.exposeTitle.length) :
      KeyPath opts ("expose_title[" ++ toString i ++ "]")

end RuleError

variable {lib : Library} {opts : Options} {e : RuleError}

theorem RuleError.fieldPath_process (i : ℕ) (process message : String) :
    fieldPath ⟨i, -1, false, process, "process", message, none⟩ = "rules[" ++ toString i ++ "].process" := by
  have hpattern : ¬ (0 : ℤ) ≤ -1 := by decide
  have hfield : "process" ≠ "" := by decide
  have htext : "]." ++ "process" = "].process" := by decide
  rw [fieldPath, if_neg Bool.false_ne_true, if_neg hpattern, if_neg hfield, String.append_assoc, htext]

theorem RuleError.fieldPath_match (i j : ℕ) (process message : String) (err : Option String) :
    fieldPath ⟨i, j, false, process, "match", message, err⟩ =
      "rules[" ++ toString i ++ "].title_patterns[" ++ toString j ++ "].match" := by
  have hpattern : (0 : ℤ) ≤ j := Int.natCast_nonneg j
  have htext : "]." ++ "match" = "].match" := by decide
  rw [fieldPath, if_neg Bool.false_ne_true, if_pos hpattern, String.append_assoc, htext]
  rfl

theorem RuleError.Of.keyPath (h : e.Of lib opts) : RuleError.KeyPath opts e.fieldPath := by
  cases h with
  | blankProcess hr hblank =>
    rw [fieldPath_process]
    exact .process (List.getElem?_eq_some_iff.mp hr).1
  | duplicate hr hr' hlt hsame =>
    rw [fieldPath_process]
    exact .process (List.getElem?_eq_some_iff.mp hr).1
  | pattern hr hp herr =>
    rw [fieldPath_match]
    exact .patternMatch hr (List.getElem?_eq_some_iff.mp hp).1
  | blankExposed hp hblank => exact .exposeTitle (List.getElem?_eq_some_iff.mp hp).1
  | unruled hp hnone => exact .exposeTitle (List.getElem?_eq_some_iff.mp hp).1

theorem getElem?_of_drop {α : Type} {l rest : List α} {i : ℕ} {a : α} (h : l.drop i = a :: rest) :
    l[i]? = some a ∧ l.drop (i + 1) = rest := by
  constructor
  · rw [← Nat.add_zero i, ← List.getElem?_drop, h]
    rfl
  · rw [← List.drop_drop, h]
    rfl

theorem compilePatterns_error {i : ℕ} {r : Rule} (hr : opts.rules[i]? = some r) {j : ℕ}
    {ps : List TitlePattern} (hps : r.titlePatterns.drop j = ps)
    (h : compilePatterns lib i r.process j ps = .error e) : e.Of lib opts := by
  induction ps generalizing j with
  | nil => cases h
  | cons p ps ih =>
    obtain ⟨hp, hrest⟩ := getElem?_of_drop hps
    rw [compilePatterns] at h
    cases hre : lib.compile p.matchExpr with
    | error err =>
      rw [hre] at h
      cases h
      exact .pattern hr hp hre
    | ok re =>
      rw [hre] at h
      cases hpatterns : compilePatterns lib i r.process (j + 1) ps with
      | error e' =>
        simp only [hpatterns, bind, Except.bind] at h
        cases h
        exact ih hrest hpatterns
      | ok rest => simp [hpatterns, bind, Except.bind] at h

theorem addRules_error {i : ℕ} {rs : List Rule} {table : KeyedTable String (CompiledRule lib)}
    (hrs : opts.rules.drop i = rs)
    (htable : ∀ key, (table.lookup key).isSome →
      ∃ j r, opts.rules[j]? = some r ∧ j < i ∧ normalize lib r.process = key)
    (h : addRules lib i rs table = .error e) : e.Of lib opts := by
  induction rs generalizing i table with
  | nil => cases h
  | cons r rs ih =>
    obtain ⟨hr, hrest⟩ := getElem?_of_drop hrs
    rw [addRules] at h
    dsimp only at h
    split_ifs at h with hblank hdup
    · cases h
      exact .blankProcess hr hblank
    · cases h
      obtain ⟨j, r', hr', hlt, hsame⟩ := htable _ hdup
      exact .duplicate hr hr' hlt hsame
    · cases hpatterns : compilePatterns lib i r.process 0 r.titlePatterns with
      | error e' =>
        simp only [hpatterns, bind, Except.bind] at h
        cases h
        exact compilePatterns_error hr List.drop_zero hpatterns
      | ok patterns =>
        simp only [hpatterns, bind, Except.bind] at h
        refine ih hrest (fun key hkey => ?_) h
        by_cases hname : normalize lib r.process = key
        · exact ⟨i, r, hr, Nat.lt_succ_self i, hname⟩
        · rw [KeyedTable.lookup_upsert_ne _ (Ne.symm hname)] at hkey
          obtain ⟨j, r', hr', hlt, hsame⟩ := htable key hkey
          exact ⟨j, r', hr', Nat.lt_succ_of_lt hlt, hsame⟩

theorem addExposed_error {rules : KeyedTable String (CompiledRule lib)}
    (hrules : addRules lib 0 opts.rules .empty = .ok rules) {i : ℕ} {ps : List String} {start : Finset String}
    (hps : opts.exposeTitle.drop i = ps) (h : addExposed lib rules i ps start = .error e) :
    e.Of lib opts := by
  induction ps generalizing i start with
  | nil => cases h
  | cons p ps ih =>
    obtain ⟨hp, hrest⟩ := getElem?_of_drop hps
    rw [addExposed] at h
    split_ifs at h with hblank hrule
    · cases h
      exact .blankExposed hp hblank
    · cases h
      refine .unruled hp fun r hr hfor => ?_
      have hlookup := (addRules_lookup hrules (normalize lib p)).2 rfl
      cases hfind : opts.rules.find? fun r => normalize lib r.process = normalize lib p with
      | none => exact List.find?_eq_none.mp hfind r hr (decide_eq_true hfor)
      | some r' =>
        rw [hfind] at hlookup
        obtain ⟨-, cr, hcr, -⟩ := hlookup
        rw [hcr] at hrule
        cases hrule
    · exact ih hrest h

/-- An error of `New` is about an entry of the options, and says what is wrong with it. -/
theorem Mapper.new_error (h : Mapper.new lib opts = .error e) : e.Of lib opts := by
  rw [Mapper.new] at h
  cases hrules : addRules lib 0 opts.rules .empty with
  | error e' =>
    simp only [hrules, bind, Except.bind] at h
    cases h
    refine addRules_error List.drop_zero (fun key hkey => ?_) hrules
    cases hkey
  | ok rules =>
    cases hexpose : addExposed lib rules 0 opts.exposeTitle ∅ with
    | error e' =>
      simp only [hrules, hexpose, bind, Except.bind] at h
      cases h
      exact addExposed_error hrules List.drop_zero hexpose
    | ok expose => simp [hrules, hexpose, bind, Except.bind] at h

end CyberstalkMe.Mapping
