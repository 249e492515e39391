import CyberstalkMe.Webui.UseDraft
import CyberstalkMe.Setup.Verdict

/-! # Saving from the page

The page, the requests on their way and the agent with its draft and its file. A page
that shows no unsaved change takes its draft for what the file holds.
-/
namespace CyberstalkMe.Webui

open Foundations Go Agent Setup

def Rule.toAgent (r : Rule) : Mapping.Rule := ⟨r.process, r.app, r.description, r.titlePatterns.getD []⟩

def Draft.toAgent (d : Draft) : Setup.Draft where
  serverURL := d.serverURL
  deviceID := d.deviceID
  token := d.token
  interval := d.interval
  deviceName := d.deviceName
  idleThreshold := d.idleThreshold
  defaultApp := d.defaultApp
  defaultDescription := d.defaultDescription
  lockedApp := d.lockedApp
  lockedDescription := d.lockedDescription
  rules := d.rules.map Rule.toAgent
  exposeTitle := d.exposeTitle

namespace SavePage

variable {yaml : Yaml} {lib : Library}

inductive Load
  | requested
  | answered (state : Setup.State)
  | done
deriving DecidableEq, Repr

/-- How far `handleSave` has come: it waits for its own push, then for the save. -/
inductive Saving
  | idle
  | pushing
  | requested
  | answered (saved : Bool)
deriving DecidableEq, Repr

structure State (yaml : Yaml) (lib : Library) where
  hook : UseDraft.State
  load : Load
  /-- The draft that the page takes to be on disk, if there is one. -/
  persisted : Option Draft
  dirty : Bool
  valid : Bool
  saving : Saving
  /-- Save requests under way that no page waits for. -/
  stray : ℕ
  agent : Server yaml lib

inductive Action (yaml : Yaml)
  | edit (change : Draft → Draft)
  | timer
  | process
  | vanish (i : ℕ)
  | respond (i : ℕ)
  | failQueued (i : ℕ)
  | failAnswered (i : ℕ)
  | save
  | processSave (faults : SaveFaults yaml)
  | processStray (faults : SaveFaults yaml)
  | vanishStray
  | finishSave
  | failSave
  | reload
  | processGet
  | load (draft : Draft)
  | failGet

/-- The browser opens the page of an agent. -/
def start (agent : Server yaml lib) : State yaml lib where
  hook := ⟨emptyDraft, none, false, [], [], none⟩
  load := .requested
  persisted := none
  dirty := false
  valid := false
  saving := .idle
  stray := 0
  agent := agent

/-- Whether the answer to a push of the draft says that it is valid. That does not depend on the draft
the agent has. -/
def State.verdict (s : State yaml lib) (draft : Draft) : Bool := (s.agent.handlePutConfig draft.toAgent).1.valid

/-- `handleSave` goes on when its own push is answered. -/
def State.afterPush (s : State yaml lib) (put : UseDraft.Put) (synced : Bool) : Saving :=
  if put.bySave then (if synced then .requested else .idle) else s.saving

def step (s : State yaml lib) : Action yaml → Option (State yaml lib)
  | .edit change =>
    if s.load = .done then
      some { s with hook := s.hook.edit change, dirty := decide (s.persisted ≠ some (change s.hook.current)) }
    else none
  | .timer => (UseDraft.step s.hook .timer).map fun hook => { s with hook }
  | .process => do
    let put ← s.hook.queue.head?
    let hook ← UseDraft.step s.hook .process
    some { s with hook, agent := (s.agent.handlePutConfig put.draft.toAgent).2 }
  | .vanish i => (UseDraft.step s.hook (.vanish i)).map fun hook => { s with hook }
  | .respond i => do
    let put ← s.hook.answers[i]?
    let hook ← UseDraft.step s.hook (.respond i)
    some { s with hook, valid := s.verdict put.draft, saving := s.afterPush put (s.verdict put.draft) }
  -- A push that fails is treated like one that was not needed.
  | .failQueued i => do
    let put ← s.hook.queue[i]?
    let hook ← UseDraft.step s.hook (.failQueued i)
    some { s with hook, saving := s.afterPush put true }
  | .failAnswered i => do
    let put ← s.hook.answers[i]?
    let hook ← UseDraft.step s.hook (.failAnswered i)
    some { s with hook, saving := s.afterPush put true }
  | .save =>
    if s.load = .done ∧ s.saving = .idle ∧ s.valid then
      some { s with hook := s.hook.flush true,
                    saving := if s.hook.pending = none then .requested else .pushing }
    else none
  | .processSave faults =>
    if s.saving = .requested then
      some { s with agent := (s.agent.handleSave faults).2
                    saving := .answered (s.agent.handleSave faults).1.saved }
    else none
  | .processStray faults =>
    if 0 < s.stray then some { s with agent := (s.agent.handleSave faults).2, stray := s.stray - 1 } else none
  | .vanishStray => if 0 < s.stray then some { s with stray := s.stray - 1 } else none
  | .finishSave =>
    match s.saving with
    -- What is on the page by now is taken to be on disk.
    | .answered true => some { s with persisted := some s.hook.current, dirty := false, saving := .idle }
    | .answered false => some { s with saving := .idle }
    | _ => none
  | .failSave =>
    match s.saving with
    | .requested => some { s with saving := .idle, stray := s.stray + 1 }
    | .answered _ => some { s with saving := .idle }
    | _ => none
  -- The agent keeps its draft, and requests may still reach it.
  | .reload =>
    some { start s.agent with
      hook := { (start s.agent).hook with
        queue := s.hook.queue.map fun put => { put with awaited := false }
        received := s.hook.received }
      stray := if s.saving = .requested then s.stray + 1 else s.stray }
  | .processGet => if s.load = .requested then some { s with load := .answered s.agent.handleGetConfig } else none
  | .load draft =>
    match s.load with
    | .answered state =>
      if draft.toAgent = state.draft then
        some { s with hook := { UseDraft.start draft with queue := s.hook.queue }
                      load := .done
                      persisted := some draft
                      dirty := false
                      valid := state.valid }
      else none
    | _ => none
  | .failGet => if s.load = .done then none else some { s with load := .done }

/-! ### What the file holds -/

def FileHolds (agent : Server yaml lib) (c : Config) : Prop :=
  ∃ document ∈ agent.disk agent.opts.configPath,
    ((yaml.decode document).bind (decodeConfig lib)).map Config.normalize = some c.normalize

/-- The file holds the configuration of the draft. -/
def OnDisk (agent : Server yaml lib) (draft : Draft) : Prop :=
  ∃ c, draft.toAgent.config lib = .ok c ∧ FileHolds agent c

def HasConfig (lib : Library) (draft : Draft) : Prop := ∃ c, draft.toAgent.config lib = .ok c

/-! ### Undisturbed saves -/

/-- A save does not lose the file: where it gets to `replaceFile`, the second step does not fail. -/
def KeepsFile (agent : Server yaml lib) (faults : SaveFaults yaml) : Prop :=
  (agent.draft.validate lib agent.opts.configPath).toBool = true → (agent.disk agent.opts.configPath).isSome = true →
    faults.losesFile yaml = false

/-- A save finds its draft with the agent, nothing interferes until it is answered, and the file is not lost
when it fails; a page is loaded when the agent's draft is what the file holds and no request is under way. -/
def Careful (s : State yaml lib) : Action yaml → Prop
  | .edit _ => s.saving = .idle
  | .failQueued i => ∀ put ∈ s.hook.queue[i]?, put.bySave = false
  | .failAnswered i => ∀ put ∈ s.hook.answers[i]?, put.bySave = true → HasConfig lib put.draft
  | .save =>
    s.hook.pending = some s.hook.current ∨
      s.hook.pending = none ∧ s.hook.queue = [] ∧ s.hook.received = some s.hook.current ∧
        HasConfig lib s.hook.current
  | .processSave faults => KeepsFile s.agent faults
  | .processStray _ => False
  | .failSave => s.saving ≠ .answered true
  | .processGet =>
    s.hook.queue = [] ∧ FileHolds s.agent s.agent.draft ∧ s.agent.draft.normalize = s.agent.draft
  | _ => True

end SavePage

end CyberstalkMe.Webui
