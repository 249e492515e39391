import CyberstalkMe.Shared.Contract
import CyberstalkMe.Foundations.KeyedTable
import CyberstalkMe.Go.Strings
import Mathlib.Data.Finset.Insert

/-! # The mapper

The agent's privacy boundary: a process name becomes the pair of texts that may
be reported. The raw window title comes in as a getter in some monad, so that
whether and how often it is called can be observed.
-/
namespace CyberstalkMe.Mapping

open Go Shared Foundations

/-- What the package takes from Go's library: the rune mapping of `strings.ToLower`, the quoting of
`%q`, and `regexp`. -/
structure Library where
  lower : Char → Char
  quote : String → String
  Regexp : Type
  compile : String → Except String Regexp
  matchString : Regexp → String → Bool

structure TitlePattern where
  matchExpr : String
  description : String
deriving DecidableEq, Repr

structure Rule where
  process : String
  app : String
  description : String
  titlePatterns : List TitlePattern
deriving DecidableEq, Repr

structure Options where
  rules : List Rule
  exposeTitle : List String
  defaultApp : String
  defaultDescription : String
  lockedApp : String
  lockedDescription : String
  idleThreshold : ℤ
deriving DecidableEq, Repr

/-- A rule-level configuration problem. `pattern` is -1 when it is not about a single pattern. -/
structure RuleError where
  index : ℕ
  pattern : ℤ
  exposeTitle : Bool
  process : String
  field : String
  message : String
  err : Option String
deriving DecidableEq, Repr

structure CompiledPattern (lib : Library) where
  re : lib.Regexp
  description : String

structure CompiledRule (lib : Library) where
  app : String
  description : String
  patterns : List (CompiledPattern lib)

structure Mapper (lib : Library) where
  rules : KeyedTable String (CompiledRule lib)
  expose : Finset String
  defaultApp : String
  defaultDescription : String
  lockedApp : String
  lockedDescription : String
  idleThreshold : ℤ

/-- Matching of process names ignores case and surrounding space. -/
def normalize (lib : Library) (process : String) : String := toLower lib.lower (trimSpace process)

/-- The patterns of rule `i`, from pattern `j` on. -/
def compilePatterns (lib : Library) (i : ℕ) (process : String) :
    ℕ → List TitlePattern → Except RuleError (List (CompiledPattern lib))
  | _, [] => .ok []
  | j, p :: ps =>
    match lib.compile p.matchExpr with
    | .error err =>
      .error ⟨i, j, false, process, "match", "compile " ++ lib.quote p.matchExpr ++ ": " ++ err, some err⟩
    | .ok re => do
      let rest ← compilePatterns lib i process (j + 1) ps
      .ok (⟨re, p.description⟩ :: rest)

/-- The rules from rule `i` on. -/
def addRules (lib : Library) :
    ℕ → List Rule → KeyedTable String (CompiledRule lib) →
      Except RuleError (KeyedTable String (CompiledRule lib))
  | _, [], rules => .ok rules
  | i, r :: rs, rules =>
    let key := normalize lib r.process
    if key = "" then .error ⟨i, -1, false, "", "process", "process must not be empty", none⟩
    else if (rules.lookup key).isSome then
      .error ⟨i, -1, false, r.process, "process", "duplicate process " ++ lib.quote r.process, none⟩
    else do
      let patterns ← compilePatterns lib i r.process 0 r.titlePatterns
      let cr : CompiledRule lib := ⟨r.app, r.description, patterns⟩
      addRules lib (i + 1) rs (rules.upsert key cr fun _ => cr)

/-- The exposed processes from entry `i` on. Each must have a rule. -/
def addExposed (lib : Library) (rules : KeyedTable String (CompiledRule lib)) :
    ℕ → List String → Finset String → Except RuleError (Finset String)
  | _, [], expose => .ok expose
  | i, p :: ps, expose =>
    let key := normalize lib p
    if key = "" then .error ⟨i, -1, true, "", "", "process must not be empty", none⟩
    else if (rules.lookup key).isNone then
      .error ⟨i, -1, true, p, "",
        "process " ++ lib.quote p ++ " has no rule; add a rule for it first", none⟩
    else addExposed lib rules (i + 1) ps (insert key expose)

/-- Compile the rules. A configuration error fails here and not in the report loop. -/
def Mapper.new (lib : Library) (opts : Options) : Except RuleError (Mapper lib) := do
  let rules ← addRules lib 0 opts.rules .empty
  let expose ← addExposed lib rules 0 opts.exposeTitle ∅
  .ok ⟨rules, expose, opts.defaultApp, opts.defaultDescription, opts.lockedApp,
    opts.lockedDescription, opts.idleThreshold⟩

/-- The product of two `time.Duration` values, which wraps at 64 bits. -/
def mulDuration (x y : ℤ) : ℤ := (x * y).bmod 18446744073709551616

/-- Call the getter; a missing one yields the empty title. -/
def readTitle {m : Type → Type} [Monad m] : Option (m String) → m String
  | none => pure ""
  | some title => title

def matchPatterns {lib : Library} (raw description : String) : List (CompiledPattern lib) → String
  | [] => description
  | p :: ps =>
    if lib.matchString p.re raw then p.description else matchPatterns raw description ps

/-- Map a foreground process to a sanitized activity. -/
def Mapper.resolve {lib : Library} {m : Type → Type} [Monad m] (mapper : Mapper lib)
    (process : String) (title : Option (m String)) (idleSeconds : ℤ) : m Activity :=
  let idleSeconds := if idleSeconds < 0 then 0 else idleSeconds
  let act : Activity :=
    { app := ""
      description := ""
      idle := decide (mapper.idleThreshold ≤ mulDuration idleSeconds second)
      idleSeconds
      locked := false }
  let key := normalize lib process
  if key = "" then
    pure { act with app := mapper.lockedApp, description := mapper.lockedDescription, locked := true }
  else match mapper.rules.lookup key with
    | none => pure { act with app := mapper.defaultApp, description := mapper.defaultDescription }
    | some rule =>
      let act := { act with app := rule.app, description := rule.description }
      if key ∈ mapper.expose then do
        let raw := trimSpace (← readTitle title)
        pure (if raw ≠ "" then { act with description := raw } else act)
      else if 0 < rule.patterns.length then do
        let raw ← readTitle title
        pure { act with description := matchPatterns raw act.description rule.patterns }
      else pure act

end CyberstalkMe.Mapping
