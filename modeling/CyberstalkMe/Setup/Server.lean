import CyberstalkMe.Setup.Draft

/-! # The setup server

The configuration interface owns the draft and the mapper of its live preview. Its
requests are handled one at a time; the disk is the one its saves write to.
-/
namespace CyberstalkMe.Setup

open Go Agent Shared

structure ValidationIssue where
  message : String
  fields : List String
deriving DecidableEq, Repr

/-- A validation error as the form needs it, without its source. -/
def issueOf (e : ValidationError) : ValidationIssue := ⟨e.message, e.fields⟩

/-- What the interface shows. -/
structure State where
  draft : Draft
  configPath : String
  backupPath : String
  notice : String
  defaults : Draft
  valid : Bool
  error : Option ValidationIssue
deriving DecidableEq, Repr

/-- What an empty form falls back to. -/
def defaultDraft : Draft := draftOf Config.empty.normalize

/-- A reading of the foreground window. The title is what its getter gives, if there is one. -/
structure Foreground where
  process : String
  title : Option String
  idleSeconds : ℤ
deriving DecidableEq, Repr

structure Preview where
  activity : Activity
  process : String
  configurable : Bool
deriving DecidableEq, Repr

/-- Whether a rule can be written for the process. -/
def isConfigurable (process : String) : Bool := process.toList.all fun c => c ∉ "?*<>|\"/\\".toList

/-- The path of the backup is empty when there was no file. -/
structure SaveResult where
  saved : Bool
  configPath : String
  backupPath : String
  error : Option ValidationIssue
deriving DecidableEq, Repr

structure SaveAnswer extends SaveResult where
  status : ℕ
deriving DecidableEq, Repr

/-- The errors of the file operations of a save request: those of `Save`, and that of the check beforehand
whether there is a file. -/
structure SaveFaults (yaml : Yaml) extends FileFaults yaml where
  fileExists : Option String

def SaveFaults.never {yaml : Yaml} : SaveFaults yaml := ⟨.never yaml, none⟩

structure Options where
  configPath : String
  notice : String

structure Server (yaml : Yaml) (lib : Library) where
  opts : Options
  draft : Config
  mapper : Mapping.Mapper lib.toLibrary
  disk : Disk yaml

variable {yaml : Yaml} {lib : Library}

/-- Build a server around an initial configuration, whose rules have to compile. -/
def Server.new (opts : Options) (initial : Config) (disk : Disk yaml) :
    Except Mapping.RuleError (Server yaml lib) := do
  let mapper ← Mapping.Mapper.new lib.toLibrary initial.mapperOptions
  .ok ⟨opts, initial, mapper, disk⟩

/-- The configuration of the file, or the built-in defaults. -/
def loadOrDefaults (yaml : Yaml) (lib : Library) (path : String) (disk : Disk yaml) : Config :=
  match load yaml lib path disk with
  | .ok c => c
  | .error _ => Config.empty.normalize

namespace Server

def stateWithIssue (s : Server yaml lib) (draft : Draft) (issue : Option ValidationError) : State where
  draft := draft
  configPath := s.opts.configPath
  backupPath := backupPath s.opts.configPath
  notice := s.opts.notice
  defaults := defaultDraft
  valid := issue.isNone
  error := issue.map issueOf

/-- Describe a draft, validating it on the way. -/
def state (s : Server yaml lib) (draft : Draft) : State :=
  match draft.config lib with
  | .error e => s.stateWithIssue draft (some e)
  | .ok c =>
    match c.validate lib draftSource with
    | .error e => s.stateWithIssue draft (some e)
    | .ok () => s.stateWithIssue draft none

def handleGetConfig (s : Server yaml lib) : State := s.state (draftOf s.draft)

/-- Replace the draft, valid or not. One whose durations cannot be read is reported and not kept, and
rules that do not compile leave the mapper as it is. -/
def handlePutConfig (s : Server yaml lib) (draft : Draft) : State × Server yaml lib :=
  match draft.config lib with
  | .error e => (s.stateWithIssue draft (some e), s)
  | .ok c =>
    let mapper := match Mapping.Mapper.new lib.toLibrary c.mapperOptions with
      | .ok mapper => mapper
      | .error _ => s.mapper
    let s := { s with draft := c, mapper }
    (s.state (draftOf c), s)

def handlePreview (s : Server yaml lib) (fg : Foreground) : Preview where
  activity := s.mapper.resolve (m := Id) fg.process fg.title fg.idleSeconds
  process := fg.process
  configurable := decide (fg.process ≠ "") && isConfigurable fg.process

/-- Write the draft, which the agent's own validation lets through or not. A file operation that fails is
not the user's mistake. -/
def handleSave (s : Server yaml lib) (faults : SaveFaults yaml) : SaveAnswer × Server yaml lib :=
  let path := s.opts.configPath
  let hadFile := faults.fileExists.isNone && (s.disk path).isSome
  let out := trySave yaml lib faults.toFileFaults path s.draft s.disk
  let answer : SaveAnswer :=
    match out.1 with
    | .error (.invalid e) => ⟨⟨false, path, "", some (issueOf e)⟩, 400⟩
    | .error (.operation message) => ⟨⟨false, path, "", some ⟨message, []⟩⟩, 500⟩
    | .ok () => ⟨⟨true, path, if hadFile then backupPath path else "", none⟩, 200⟩
  (answer, { s with disk := out.2 })

end Server

/-! ### Sessions -/

inductive Request (yaml : Yaml)
  | getConfig
  | putConfig (draft : Draft)
  | preview (fg : Foreground)
  | save (faults : SaveFaults yaml)

inductive Response
  | state (state : State)
  | preview (preview : Preview)
  | saved (answer : SaveAnswer)
deriving DecidableEq, Repr

def Server.handle (s : Server yaml lib) : Request yaml → Response × Server yaml lib
  | .getConfig => (.state s.handleGetConfig, s)
  | .putConfig draft => (.state (s.handlePutConfig draft).1, (s.handlePutConfig draft).2)
  | .preview fg => (.preview (s.handlePreview fg), s)
  | .save faults => (.saved (s.handleSave faults).1, (s.handleSave faults).2)

def Server.after (s : Server yaml lib) (requests : List (Request yaml)) : Server yaml lib :=
  requests.foldl (fun s r => (s.handle r).2) s

def Request.stores (lib : Library) : Request yaml → Option Config
  | .putConfig draft => (draft.config lib).toOption
  | _ => none

def stored (lib : Library) (requests : List (Request yaml)) : List Config :=
  requests.filterMap (Request.stores lib)

namespace Server

variable (s : Server yaml lib)

@[simp] theorem after_nil : s.after [] = s := rfl

@[simp] theorem after_cons (r : Request yaml) (rs : List (Request yaml)) : s.after (r :: rs) = (s.handle r).2.after rs := rfl

/-! ### What a request changes -/

theorem handlePutConfig_opts (draft : Draft) : (s.handlePutConfig draft).2.opts = s.opts := by
  rw [handlePutConfig]
  cases draft.config lib <;> rfl

@[simp] theorem stateWithIssue_valid (draft : Draft) (issue : Option ValidationError) :
    (s.stateWithIssue draft issue).valid = issue.isNone := rfl

theorem draft_state (draft : Draft) : (s.state draft).draft = draft := by
  rw [state]
  split
  · rfl
  · split <;> rfl

/-- The state of a form that is a configuration's says whether that one is usable once normalized. -/
theorem valid_state_draftOf (c : Config) : (s.state (draftOf c)).valid = true ↔ c.normalize.Valid lib := by
  rw [state, config_draftOf]
  simp only
  rw [← validate_eq_ok draftSource]
  cases c.normalize.validate lib draftSource with
  | error e => simp
  | ok _ => simp

theorem handlePutConfig_error {draft : Draft} {e : ValidationError} (h : draft.config lib = .error e) :
    s.handlePutConfig draft = (s.stateWithIssue draft (some e), s) := by
  rw [handlePutConfig, h]

/-- A draft that is a configuration is kept. -/
theorem handlePutConfig_ok {draft : Draft} {c : Config} (h : draft.config lib = .ok c) :
    (s.handlePutConfig draft).1.valid = (s.state (draftOf c)).valid ∧
      (s.handlePutConfig draft).2 = { s with draft := c, mapper :=
        (Mapping.Mapper.new lib.toLibrary c.mapperOptions).toOption.getD s.mapper } := by
  rw [handlePutConfig, h]
  constructor
  · rfl
  · cases hm : Mapping.Mapper.new lib.toLibrary c.mapperOptions with
    | error e => simp [hm, Except.toOption]
    | ok mapper => simp [hm, Except.toOption]

theorem handleSave_snd (faults : SaveFaults yaml) :
    (s.handleSave faults).2 = { s with disk := (s.handleSave faults).2.disk } := rfl

theorem handleSave_opts (faults : SaveFaults yaml) : (s.handleSave faults).2.opts = s.opts := rfl

theorem handleSave_invalid {e : ValidationError} (h : s.draft.validate lib s.opts.configPath = .error e)
    (faults : SaveFaults yaml) : (s.handleSave faults).1.saved = false ∧ (s.handleSave faults).2 = s := by
  rw [handleSave, trySave_of_error h]
  exact ⟨rfl, rfl⟩

/-- A usable draft is saved, or a file operation fails. Then the file is as it was, unless the second step of
`replaceFile` failed. -/
theorem handleSave_of_valid (h : s.draft.validate lib s.opts.configPath = .ok ()) (faults : SaveFaults yaml) :
    (s.handleSave faults).1.saved = true ∧
        save yaml lib s.opts.configPath s.draft s.disk = .ok (s.handleSave faults).2.disk ∨
      (s.handleSave faults).1.saved = false ∧ ((s.handleSave faults).2.disk s.opts.configPath = s.disk s.opts.configPath ∨
        (s.disk s.opts.configPath).isSome ∧ faults.losesFile yaml) := by
  rw [handleSave]
  rcases trySave_of_valid h faults.toFileFaults s.disk with ⟨hok, hsave⟩ | ⟨⟨message, herror⟩, hfile⟩
  · rw [hok]
    exact .inl ⟨rfl, hsave⟩
  · rw [herror]
    exact .inr ⟨rfl, hfile⟩

/-- With no operation failing, a usable draft is saved. -/
theorem handleSave_never (h : s.draft.validate lib s.opts.configPath = .ok ()) :
    (s.handleSave .never).1.saved = true := by
  have hok : (trySave yaml lib (.never yaml) s.opts.configPath s.draft s.disk).1 = .ok () := trySave_never h s.disk
  rw [handleSave]
  simp only [SaveFaults.never, hok]

theorem handle_opts (r : Request yaml) : (s.handle r).2.opts = s.opts := by
  cases r with
  | getConfig => rfl
  | putConfig draft => exact s.handlePutConfig_opts draft
  | preview fg => rfl
  | save faults => exact s.handleSave_opts faults

@[simp] theorem after_opts (rs : List (Request yaml)) : (s.after rs).opts = s.opts := by
  induction rs generalizing s with
  | nil => rfl
  | cons r rs ih => rw [after_cons, ih, handle_opts]

end Server

/-! ### A small session -/

def sampleServer : Server treeYaml plainLibrary where
  opts := ⟨"config.yaml", ""⟩
  draft := Config.empty.normalize
  mapper := ⟨.empty, ∅, Default.app, Default.description, Default.lockedApp, Default.lockedDesc, 300000000000⟩
  disk _ := none

example : Server.new ⟨"config.yaml", ""⟩ Config.empty.normalize (fun _ => none) = .ok sampleServer := rfl

def sampleDraft (serverURL : String) : Draft := draftOf (sampleConfig serverURL)

end CyberstalkMe.Setup
