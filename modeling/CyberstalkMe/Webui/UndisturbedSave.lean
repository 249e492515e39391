import CyberstalkMe.Webui.SavePage

/-! # Undisturbed saves

The draft on the page, the one that is pending, the agent's and the file's: what links
them while a save waits for its own push, for the agent and for the answer.
-/
namespace CyberstalkMe.Webui.SavePage

open Foundations Go Agent Setup

variable {yaml : Yaml} {lib : Library}

/-! ### The requests of a save -/

variable {current : Draft} {received : Option Draft} {put : UseDraft.Put} {queue answers : List UseDraft.Put} {i : ℕ}

def Quiet (queue answers : List UseDraft.Put) : Prop :=
  (∀ put ∈ queue, put.awaited = true → put.bySave = false) ∧ ∀ put ∈ answers, put.bySave = false

/-- The save's own push is the last request, or the last answer. -/
def Pushing (current : Draft) (received : Option Draft) (queue answers : List UseDraft.Put) : Prop :=
  (∃ sent, queue = sent ++ [⟨current, true, true⟩] ∧ Quiet sent answers) ∨
    queue = [] ∧ received = some current ∧ ∃ front, answers = front ++ [⟨current, true, true⟩] ∧ Quiet [] front

theorem Quiet.process (h : Quiet (put :: queue) answers) :
    Quiet queue (if put.awaited then answers ++ [put] else answers) := by
  obtain ⟨hput, hqueue⟩ := List.forall_mem_cons.mp h.1
  refine ⟨hqueue, ?_⟩
  split_ifs with hawaited
  · rw [List.forall_mem_append]
    exact ⟨h.2, List.forall_mem_singleton.mpr (hput hawaited)⟩
  · exact h.2

theorem Quiet.vanish (h : Quiet queue answers) (i : ℕ) : Quiet (queue.eraseIdx i) answers :=
  ⟨fun put hput => h.1 put (List.mem_of_mem_eraseIdx hput), h.2⟩

theorem Quiet.failQueued (h : Quiet queue answers) (i : ℕ) (put : UseDraft.Put) :
    Quiet (queue.set i { put with awaited := false }) answers := by
  refine ⟨fun put' hput' => ?_, h.2⟩
  rcases List.mem_or_eq_of_mem_set hput' with hmem | rfl
  · exact h.1 put' hmem
  · rintro ⟨⟩

theorem Quiet.answer (h : Quiet queue answers) (i : ℕ) : Quiet queue (answers.eraseIdx i) :=
  ⟨h.1, fun put hput => h.2 put (List.mem_of_mem_eraseIdx hput)⟩

theorem Quiet.send (h : Quiet queue answers) (next : Draft) : Quiet (queue ++ [⟨next, true, false⟩]) answers := by
  refine ⟨?_, h.2⟩
  rw [List.forall_mem_append]
  exact ⟨h.1, List.forall_mem_singleton.mpr fun _ => rfl⟩

/-- A position in a list with something at its end. -/
theorem getElem?_concat {last : UseDraft.Put} (h : (queue ++ [last])[i]? = some put) :
    (i < queue.length ∧ put ∈ queue) ∨ (i = queue.length ∧ put = last) := by
  by_cases hlt : i < queue.length
  · rw [List.getElem?_append_left hlt] at h
    exact .inl ⟨hlt, List.mem_of_getElem? h⟩
  · rw [List.getElem?_append_right (Nat.not_lt.mp hlt), List.getElem?_singleton] at h
    split_ifs at h with hi
    exact .inr ⟨by omega, (Option.some.inj h).symm⟩

theorem Pushing.process (h : Pushing current received (put :: queue) answers) :
    Pushing current (some put.draft) queue (if put.awaited then answers ++ [put] else answers) := by
  rcases h with ⟨sent, hsent, hquiet⟩ | ⟨⟨⟩, -⟩
  cases sent with
  | nil =>
    rw [List.nil_append, List.cons.injEq] at hsent
    obtain ⟨rfl, rfl⟩ := hsent
    exact .inr ⟨rfl, rfl, answers, rfl, hquiet⟩
  | cons first sent =>
    rw [List.cons_append, List.cons.injEq] at hsent
    obtain ⟨rfl, rfl⟩ := hsent
    exact .inl ⟨sent, rfl, hquiet.process⟩

theorem Pushing.vanish (h : Pushing current received queue answers) (hput : queue[i]? = some put)
    (hgiven : ¬ put.awaited = true) : Pushing current received (queue.eraseIdx i) answers := by
  rcases h with ⟨sent, rfl, hquiet⟩ | ⟨rfl, hreceived, hanswers⟩
  · rcases getElem?_concat hput with ⟨hlt, -⟩ | ⟨-, rfl⟩
    · rw [List.eraseIdx_append_of_lt_length hlt]
      exact .inl ⟨_, rfl, hquiet.vanish i⟩
    · exact absurd rfl hgiven
  · exact .inr ⟨rfl, hreceived, hanswers⟩

theorem Pushing.failQueued (h : Pushing current received queue answers) (hput : queue[i]? = some put)
    (hother : put.bySave = false) :
    Pushing current received (queue.set i { put with awaited := false }) answers := by
  rcases h with ⟨sent, rfl, hquiet⟩ | ⟨rfl, hreceived, hanswers⟩
  · rcases getElem?_concat hput with ⟨hlt, -⟩ | ⟨-, rfl⟩
    · rw [List.set_append_left _ _ hlt]
      exact .inl ⟨_, rfl, hquiet.failQueued i put⟩
    · cases hother
  · exact .inr ⟨rfl, hreceived, hanswers⟩

/-- An answer arrives or is lost: that of an older push, or the one that the save waits for. -/
theorem Pushing.answer (h : Pushing current received queue answers) (hput : answers[i]? = some put) :
    (put.bySave = false ∧ Pushing current received queue (answers.eraseIdx i)) ∨
      (put = ⟨current, true, true⟩ ∧ queue = [] ∧ received = some current ∧ Quiet queue (answers.eraseIdx i)) := by
  rcases h with ⟨sent, rfl, hquiet⟩ | ⟨rfl, hreceived, front, rfl, hquiet⟩
  · exact .inl ⟨hquiet.2 put (List.mem_of_getElem? hput), .inl ⟨sent, rfl, hquiet.answer i⟩⟩
  · rcases getElem?_concat hput with ⟨hlt, hmem⟩ | ⟨rfl, rfl⟩
    · rw [List.eraseIdx_append_of_lt_length hlt]
      exact .inl ⟨hquiet.2 put hmem, .inr ⟨rfl, hreceived, _, rfl, hquiet.answer i⟩⟩
    · rw [List.eraseIdx_append_of_length_le le_rfl, Nat.sub_self, List.eraseIdx_cons_zero, List.append_nil]
      exact .inr ⟨rfl, rfl, hreceived, hquiet⟩

/-! ### The agent's side -/

variable {agent : Server yaml lib} {c : Config} {draft : Draft}

theorem fileHolds_handlePutConfig (d : Setup.Draft) : FileHolds (agent.handlePutConfig d).2 c ↔ FileHolds agent c := by
  rw [Server.handlePutConfig]
  cases d.config lib <;> rfl

theorem onDisk_handlePutConfig (d : Setup.Draft) : OnDisk (agent.handlePutConfig d).2 draft ↔ OnDisk agent draft := by
  simp only [OnDisk, fileHolds_handlePutConfig]

/-- Only a draft whose durations can be read is valid. -/
theorem hasConfig_of_verdict {s : State yaml lib} (h : s.verdict draft = true) : HasConfig lib draft := by
  rw [State.verdict] at h
  cases hc : draft.toAgent.config lib with
  | ok c => exact ⟨c, hc⟩
  | error e =>
    rw [Server.handlePutConfig_error _ hc] at h
    cases h

/-- A save that succeeds leaves the agent's draft in the file, and one that fails the file as it was, unless
it loses the file. -/
theorem handleSave_cases (hyaml : yaml.Undoes) (agent : Server yaml lib) {faults : SaveFaults yaml}
    (hkeeps : KeepsFile agent faults) :
    ((agent.handleSave faults).1.saved = false ∧
        (agent.handleSave faults).2.disk agent.opts.configPath = agent.disk agent.opts.configPath) ∨
      (agent.handleSave faults).1.saved = true ∧ FileHolds (agent.handleSave faults).2 agent.draft := by
  cases hsaved : (agent.handleSave faults).1.saved with
  | true =>
    refine .inr ⟨rfl, yaml.encode (marshal agent.draft), ?_, ?_⟩
    · rw [agent.handleSave_opts]
      exact agent.written_of_saved hsaved
    · rw [hyaml, Option.bind_some, decodeConfig_marshal, Option.map_some]
  | false =>
    refine .inl ⟨rfl, ?_⟩
    cases hvalid : agent.draft.validate lib agent.opts.configPath with
    | error e => rw [(agent.handleSave_invalid hvalid faults).2]
    | ok _ =>
      rcases agent.handleSave_of_valid hvalid faults with ⟨htrue, -⟩ | ⟨-, hsame | ⟨hfile, hloses⟩⟩
      · rw [hsaved] at htrue
        cases htrue
      · exact hsame
      · rw [hkeeps (by rw [hvalid]; rfl) hfile] at hloses
        cases hloses

theorem fileHolds_congr {other : Server yaml lib} (hopts : other.opts = agent.opts)
    (hdisk : other.disk agent.opts.configPath = agent.disk agent.opts.configPath) :
    FileHolds other c ↔ FileHolds agent c := by
  rw [FileHolds, FileHolds, hopts, hdisk]

/-! ### The invariant -/

/-- What holds of the requests and the file while a save is under way. -/
def Saving.Invariant (agent : Server yaml lib) (hook : UseDraft.State) : Saving → Prop
  | .idle => Quiet hook.queue hook.answers
  | .pushing => hook.timer = false ∧ Pushing hook.current hook.received hook.queue hook.answers
  | .requested =>
    hook.timer = false ∧ Quiet hook.queue hook.answers ∧ hook.queue = [] ∧
      hook.received = some hook.current ∧ HasConfig lib hook.current
  | .answered saved =>
    hook.timer = false ∧ Quiet hook.queue hook.answers ∧ (saved = true → OnDisk agent hook.current)

structure Invariant (s : State yaml lib) : Prop where
  /-- The agent keeps the draft it received last, unless its durations cannot be read. -/
  kept : ∀ draft ∈ s.hook.received, ∀ c, draft.toAgent.config lib = .ok c → s.agent.draft = c
  loading : s.load ≠ .done → s.hook.timer = false ∧ s.saving = .idle ∧ s.persisted = none
  loaded : ∀ state, s.load = .answered state → s.hook.queue = [] ∧ state.draft = draftOf s.agent.draft ∧
    FileHolds s.agent s.agent.draft ∧ s.agent.draft.normalize = s.agent.draft
  saving : s.saving.Invariant s.agent s.hook
  disk : ∀ draft ∈ s.persisted, s.saving ≠ .answered true → OnDisk s.agent draft
  clean : ∀ draft ∈ s.persisted, s.dirty = false → s.hook.current = draft

variable {s : State yaml lib}

/-- A page without unsaved changes shows what the file holds. -/
theorem Invariant.onDisk (h : Invariant s) (hpersisted : s.persisted = some draft) (hclean : s.dirty = false) :
    OnDisk s.agent s.hook.current := by
  by_cases hsaved : s.saving = .answered true
  · have hsaving := h.saving
    rw [hsaved] at hsaving
    exact hsaving.2.2 rfl
  · rw [h.clean draft hpersisted hclean]
    exact h.disk draft hpersisted hsaved

theorem invariant_start (agent : Server yaml lib) : Invariant (start agent) where
  kept _ h := by cases h
  loading _ := ⟨rfl, rfl, rfl⟩
  loaded _ h := by cases h
  saving := ⟨List.forall_mem_nil _, List.forall_mem_nil _⟩
  disk _ h := by cases h
  clean _ h := by cases h

/-- A step of the requests that leaves the drafts of page and agent alone. -/
theorem Invariant.requests (h : Invariant s) {hook : UseDraft.State} {saving : Saving} {valid : Bool}
    (hcurrent : hook.current = s.hook.current) (hreceived : hook.received = s.hook.received)
    (hload : s.load ≠ .done → hook.timer = false ∧ saving = .idle)
    (hqueue : s.load ≠ .done → s.hook.queue = [] → hook.queue = [])
    (hsaved : s.saving = .answered true → saving = .answered true)
    (hsaving : saving.Invariant s.agent hook) : Invariant { s with hook, valid, saving } where
  kept := hreceived ▸ h.kept
  loading hl := ⟨(hload hl).1, (hload hl).2, (h.loading hl).2.2⟩
  loaded state hl := by
    obtain ⟨hempty, hrest⟩ := h.loaded state hl
    exact ⟨hqueue (by rw [hl]; rintro ⟨⟩) hempty, hrest⟩
  saving := hsaving
  disk draft hp hs := h.disk draft hp (mt hsaved hs)
  clean draft hp hd := hcurrent.trans (h.clean draft hp hd)

/-- A step of the requests under way. -/
theorem Invariant.requeue (h : Invariant s) {queue answers : List UseDraft.Put} {pending : Option Draft}
    {saving : Saving} {valid : Bool} (hqueue : s.hook.queue = [] → queue = [])
    (hload : s.load ≠ .done → saving = .idle) (hsaved : s.saving = .answered true → saving = .answered true)
    (hsaving : saving.Invariant s.agent { s.hook with queue, answers, pending }) :
    Invariant { s with hook := { s.hook with queue, answers, pending }, valid, saving } := by
  apply h.requests
  · rfl
  · rfl
  · exact fun hl => ⟨(h.loading hl).1, hload hl⟩
  · exact fun _ => hqueue
  · exact hsaved
  · exact hsaving

/-! ### One step -/

theorem Invariant.idle_of_timer (h : Invariant s) (htimer : s.hook.timer = true) : s.load = .done ∧ s.saving = .idle := by
  constructor
  · by_contra hload
    rw [(h.loading hload).1] at htimer
    cases htimer
  · have hsaving := h.saving
    cases hs : s.saving with
    | idle => rfl
    | _ =>
      rw [hs] at hsaving
      rw [hsaving.1] at htimer
      cases htimer

theorem Invariant.edit (h : Invariant s) (change : Draft → Draft) (hload : s.load = .done) (hidle : s.saving = .idle) :
    Invariant { s with hook := s.hook.edit change, dirty := decide (s.persisted ≠ some (change s.hook.current)) } where
  kept := h.kept
  loading hl := absurd hload hl
  loaded state hl := by cases hl.symm.trans hload
  saving := by
    have hsaving := h.saving
    simp only [hidle] at hsaving ⊢
    exact hsaving
  disk := h.disk
  clean draft hp hd := by
    rw [decide_eq_false_iff_not, not_not, Option.mem_def.mp hp, Option.some.injEq] at hd
    exact hd.symm

theorem Invariant.timer (h : Invariant s) (htimer : s.hook.timer = true) :
    Invariant { s with hook := s.hook.flush false } := by
  obtain ⟨hload, hidle⟩ := h.idle_of_timer htimer
  have hsaving := h.saving
  rw [hidle] at hsaving
  apply h.requests (s.hook.flush_current false) (s.hook.flush_received false) (absurd hload) (absurd hload) id
  rw [hidle, Saving.Invariant, s.hook.flush_queue, s.hook.flush_answers]
  cases s.hook.pending with
  | none =>
    rw [Option.map_none, Option.toList_none, List.append_nil]
    exact hsaving
  | some next => exact hsaving.send next

theorem Invariant.vanish (h : Invariant s) {put : UseDraft.Put} {i : ℕ} (hput : s.hook.queue[i]? = some put)
    (hgiven : ¬ put.awaited = true) :
    Invariant { s with hook := { s.hook with queue := s.hook.queue.eraseIdx i } } := by
  have hsaving := h.saving
  apply h.requeue
  · intro hempty
    simp [hempty]
  · exact fun hl => (h.loading hl).2.1
  · exact id
  · cases hs : s.saving with
    | idle =>
      rw [hs] at hsaving
      exact hsaving.vanish i
    | pushing =>
      rw [hs] at hsaving
      exact ⟨hsaving.1, hsaving.2.vanish hput hgiven⟩
    | requested =>
      rw [hs] at hsaving
      simp [hsaving.2.2.1] at hput
    | answered saved =>
      rw [hs] at hsaving
      exact ⟨hsaving.1, hsaving.2.1.vanish i, hsaving.2.2⟩

theorem Invariant.failQueued (h : Invariant s) {put : UseDraft.Put} {i : ℕ} (hput : s.hook.queue[i]? = some put)
    (hother : put.bySave = false) (pending : Option Draft) :
    Invariant { s with
      hook := { s.hook with queue := s.hook.queue.set i { put with awaited := false }, pending } } := by
  have hsaving := h.saving
  apply h.requeue
  · intro hempty
    simp [hempty]
  · exact fun hl => (h.loading hl).2.1
  · exact id
  · cases hs : s.saving with
    | idle =>
      rw [hs] at hsaving
      exact hsaving.failQueued i put
    | pushing =>
      rw [hs] at hsaving
      exact ⟨hsaving.1, hsaving.2.failQueued hput hother⟩
    | requested =>
      rw [hs] at hsaving
      simp [hsaving.2.2.1] at hput
    | answered saved =>
      rw [hs] at hsaving
      exact ⟨hsaving.1, hsaving.2.1.failQueued i put, hsaving.2.2⟩

/-- The page learns the fate of a push that the agent has processed. When it is the save's own, the draft
with the agent is the current one, so that the save can be asked for. -/
theorem Invariant.answer (h : Invariant s) {put : UseDraft.Put} {i : ℕ} (hput : s.hook.answers[i]? = some put)
    {synced : Bool} (hsynced : put.bySave = true → synced = true → HasConfig lib put.draft)
    (pending : Option Draft) (valid : Bool) :
    Invariant { s with
      hook := { s.hook with answers := s.hook.answers.eraseIdx i, pending }
      valid
      saving := s.afterPush put synced } := by
  have hsaving := h.saving
  have hidle : s.load ≠ .done → s.saving = .idle := fun hl => (h.loading hl).2.1
  have hother : put.bySave = false → s.afterPush put synced = s.saving := fun hfalse => by
    simp [State.afterPush, hfalse]
  cases hs : s.saving with
  | pushing =>
    rw [hs] at hsaving
    obtain ⟨htimer, hpushing⟩ := hsaving
    have hdone : s.load = .done := by
      by_contra hl
      cases hs.symm.trans (hidle hl)
    rcases hpushing.answer hput with ⟨hfalse, hpushing⟩ | ⟨rfl, hqueue, hreceived, hquiet⟩
    · rw [hother hfalse]
      apply h.requeue id hidle id
      rw [hs]
      exact ⟨htimer, hpushing⟩
    · apply h.requeue id (absurd hdone)
      · intro hanswered
        cases hs.symm.trans hanswered
      · cases synced with
        | false => exact hquiet
        | true => exact ⟨htimer, hquiet, hqueue, hreceived, hsynced rfl rfl⟩
  | idle =>
    rw [hs] at hsaving
    rw [hother (hsaving.2 put (List.mem_of_getElem? hput))]
    apply h.requeue id hidle id
    rw [hs]
    exact hsaving.answer i
  | requested =>
    rw [hs] at hsaving
    rw [hother (hsaving.2.1.2 put (List.mem_of_getElem? hput))]
    apply h.requeue id hidle id
    rw [hs]
    exact ⟨hsaving.1, hsaving.2.1.answer i, hsaving.2.2⟩
  | answered saved =>
    rw [hs] at hsaving
    rw [hother (hsaving.2.1.2 put (List.mem_of_getElem? hput))]
    apply h.requeue id hidle id
    rw [hs]
    exact ⟨hsaving.1, hsaving.2.1.answer i, hsaving.2.2⟩

theorem Invariant.process (h : Invariant s) {put : UseDraft.Put} {queue : List UseDraft.Put}
    (hqueue : s.hook.queue = put :: queue) :
    Invariant { s with
      hook := { s.hook with
        queue
        received := some put.draft
        answers := if put.awaited then s.hook.answers ++ [put] else s.hook.answers }
      agent := (s.agent.handlePutConfig put.draft.toAgent).2 } where
  kept draft hdraft c hc := by
    cases hdraft
    rw [(s.agent.handlePutConfig_ok hc).2]
  loading := h.loading
  loaded state hl := by
    rw [(h.loaded state hl).1] at hqueue
    cases hqueue
  saving := by
    have hsaving := h.saving
    cases hs : s.saving with
    | idle =>
      rw [hs, Saving.Invariant, hqueue] at hsaving
      exact hsaving.process
    | pushing =>
      rw [hs, Saving.Invariant, hqueue] at hsaving
      exact ⟨hsaving.1, hsaving.2.process⟩
    | requested =>
      rw [hs] at hsaving
      cases hqueue.symm.trans hsaving.2.2.1
    | answered saved =>
      rw [hs, Saving.Invariant, hqueue] at hsaving
      exact ⟨hsaving.1, hsaving.2.1.process, fun hsaved => (onDisk_handlePutConfig _).mpr (hsaving.2.2 hsaved)⟩
  disk draft hp hs := (onDisk_handlePutConfig _).mpr (h.disk draft hp hs)
  clean := h.clean

theorem Invariant.save (h : Invariant s) (hload : s.load = .done) (hidle : s.saving = .idle)
    (hg : Careful s .save) :
    Invariant { s with
      hook := s.hook.flush true
      saving := if s.hook.pending = none then .requested else .pushing } := by
  have hsaving := h.saving
  rw [hidle] at hsaving
  apply h.requests (s.hook.flush_current true) (s.hook.flush_received true) (absurd hload) (absurd hload)
  · intro hs
    cases hidle.symm.trans hs
  · rcases hg with hpending | ⟨hpending, hqueue, hreceived, hconfig⟩
    · rw [if_neg (by simp [hpending]), Saving.Invariant, s.hook.flush_timer, s.hook.flush_current,
        s.hook.flush_received, s.hook.flush_answers, s.hook.flush_queue, hpending]
      exact ⟨rfl, .inl ⟨s.hook.queue, rfl, hsaving⟩⟩
    · rw [if_pos hpending, Saving.Invariant, s.hook.flush_timer, s.hook.flush_current, s.hook.flush_received,
        s.hook.flush_answers, s.hook.flush_queue, hpending, Option.map_none, Option.toList_none, List.append_nil]
      exact ⟨rfl, hsaving, hqueue, hreceived, hconfig⟩

/-- The agent carries a save out: its draft is the current one. -/
theorem Invariant.processSave (hyaml : yaml.Undoes) (h : Invariant s) (hrequested : s.saving = .requested)
    {faults : SaveFaults yaml} (hkeeps : KeepsFile s.agent faults) :
    Invariant { s with
      agent := (s.agent.handleSave faults).2
      saving := .answered (s.agent.handleSave faults).1.saved } := by
  have hsaving := h.saving
  rw [hrequested] at hsaving
  obtain ⟨htimer, hquiet, -, hreceived, c, hc⟩ := hsaving
  have hdraft : (s.agent.handleSave faults).2.draft = s.agent.draft := by rw [s.agent.handleSave_snd]
  have hdone : s.load = .done := by
    by_contra hl
    cases hrequested.symm.trans (h.loading hl).2.1
  refine ⟨fun draft hd c hc => hdraft.trans (h.kept draft hd c hc), absurd hdone, ?_, ⟨htimer, hquiet, ?_⟩, ?_, h.clean⟩
  · intro state hl
    cases hdone.symm.trans hl
  · intro hsaved
    rcases handleSave_cases hyaml s.agent hkeeps with ⟨hfalse, -⟩ | ⟨-, hfile⟩
    · cases hsaved.symm.trans hfalse
    · rw [h.kept s.hook.current hreceived c hc] at hfile
      exact ⟨c, hc, hfile⟩
  · intro draft hp hs
    rcases handleSave_cases hyaml s.agent hkeeps with ⟨-, hsame⟩ | ⟨htrue, -⟩
    · obtain ⟨c', hc', hfile⟩ := h.disk draft hp (by rw [hrequested]; rintro ⟨⟩)
      exact ⟨c', hc', (fileHolds_congr (s.agent.handleSave_opts faults) hsame).mpr hfile⟩
    · exact absurd (congrArg Saving.answered htrue) hs

theorem Invariant.finish (h : Invariant s) {saved : Bool} (hanswered : s.saving = .answered saved) :
    Invariant { s with
      persisted := if saved then some s.hook.current else s.persisted
      dirty := if saved then false else s.dirty
      saving := .idle } := by
  have hsaving := h.saving
  rw [hanswered] at hsaving
  obtain ⟨-, hquiet, hfile⟩ := hsaving
  have hdone : s.load = .done := by
    by_contra hl
    cases hanswered.symm.trans (h.loading hl).2.1
  refine ⟨h.kept, absurd hdone, h.loaded, hquiet, ?_, ?_⟩
  · intro draft hp _
    cases saved with
    | true =>
      cases hp
      exact hfile rfl
    | false => exact h.disk draft hp (by rw [hanswered]; rintro ⟨⟩)
  · intro draft hp hd
    cases saved with
    | true =>
      cases hp
      rfl
    | false => exact h.clean draft hp hd

/-- The page gives up on a save that has not been carried out. -/
theorem Invariant.giveUp (h : Invariant s) (hrequested : s.saving = .requested) (stray : ℕ) :
    Invariant { s with saving := .idle, stray } := by
  have hsaving := h.saving
  rw [hrequested] at hsaving
  have hdone : s.load = .done := by
    by_contra hl
    cases hrequested.symm.trans (h.loading hl).2.1
  refine ⟨h.kept, absurd hdone, h.loaded, hsaving.2.1, fun draft hp _ => h.disk draft hp ?_, h.clean⟩
  rw [hrequested]
  rintro ⟨⟩

theorem Invariant.reload (h : Invariant s) (stray : ℕ) :
    Invariant { start s.agent with
      hook := { (start s.agent).hook with
        queue := s.hook.queue.map fun put => { put with awaited := false }
        received := s.hook.received }
      stray } where
  kept := h.kept
  loading _ := ⟨rfl, rfl, rfl⟩
  loaded _ hl := by cases hl
  saving := by
    refine ⟨fun put hput => ?_, List.forall_mem_nil _⟩
    obtain ⟨put', -, rfl⟩ := List.mem_map.mp hput
    rintro ⟨⟩
  disk _ hp := by cases hp
  clean _ hp := by cases hp

theorem Invariant.processGet (h : Invariant s) (hrequested : s.load = .requested) (hg : Careful s .processGet) :
    Invariant { s with load := .answered s.agent.handleGetConfig } where
  kept := h.kept
  loading _ := h.loading (by rw [hrequested]; rintro ⟨⟩)
  loaded state hl := by
    cases hl
    exact ⟨hg.1, Server.draft_state _ _, hg.2⟩
  saving := h.saving
  disk := h.disk
  clean := h.clean

/-- The page adopts the agent's draft, which is what the file holds. -/
theorem Invariant.load (h : Invariant s) {state : Setup.State} (hanswered : s.load = .answered state)
    (hdraft : draft.toAgent = state.draft) :
    Invariant { s with
      hook := { UseDraft.start draft with queue := s.hook.queue }
      load := .done
      persisted := some draft
      dirty := false
      valid := state.valid } := by
  obtain ⟨hqueue, hstate, hfile, hfixed⟩ := h.loaded state hanswered
  have hidle : s.saving = .idle := (h.loading (by rw [hanswered]; rintro ⟨⟩)).2.1
  have hconfig : draft.toAgent.config lib = .ok s.agent.draft := by
    rw [hdraft, hstate, config_draftOf, hfixed]
  refine ⟨?_, absurd rfl, fun _ hl => (by cases hl), ?_, ?_, ?_⟩
  · rintro _ ⟨⟩ c hc
    rw [hconfig] at hc
    exact Except.ok.inj hc
  · rw [hidle]
    refine ⟨?_, List.forall_mem_nil _⟩
    rw [hqueue]
    exact List.forall_mem_nil _
  · rintro _ ⟨⟩ _
    exact ⟨s.agent.draft, hconfig, hfile⟩
  · rintro _ ⟨⟩ _
    rfl

theorem Invariant.step (hyaml : yaml.Undoes) {t : State yaml lib} {a : Action yaml} (h : Invariant s) (hg : Careful s a)
    (hs : step s a = some t) : Invariant t := by
  cases a with
  | edit change =>
    rw [SavePage.step] at hs
    split_ifs at hs with hload
    cases hs
    exact h.edit change hload hg
  | timer =>
    simp only [SavePage.step, UseDraft.step] at hs
    split_ifs at hs with htimer
    · cases hs
      exact h.timer htimer
    · cases hs
  | process =>
    cases hqueue : s.hook.queue with
    | nil => simp [SavePage.step, hqueue] at hs
    | cons put queue =>
      simp only [SavePage.step, UseDraft.step, hqueue, List.head?_cons, Option.bind_eq_bind, Option.bind_some,
        Option.some.injEq] at hs
      subst hs
      exact h.process hqueue
  | vanish i =>
    cases hput : s.hook.queue[i]? with
    | none => simp [SavePage.step, UseDraft.step, hput] at hs
    | some put =>
      simp only [SavePage.step, UseDraft.step, hput, Option.bind_eq_bind, Option.bind_some] at hs
      split_ifs at hs with hawaited
      · cases hs
      · cases hs
        exact h.vanish hput hawaited
  | respond i =>
    cases hput : s.hook.answers[i]? with
    | none => simp [SavePage.step, hput] at hs
    | some put =>
      simp only [SavePage.step, UseDraft.step, hput, Option.bind_eq_bind, Option.bind_some,
        if_pos (List.getElem?_eq_some_iff.mp hput).1, Option.some.injEq] at hs
      subst hs
      exact h.answer hput (fun _ => hasConfig_of_verdict) s.hook.pending _
  | failQueued i =>
    cases hput : s.hook.queue[i]? with
    | none => simp [SavePage.step, hput] at hs
    | some put =>
      simp only [SavePage.step, UseDraft.step, hput, Option.bind_eq_bind, Option.bind_some] at hs
      split_ifs at hs
      · cases hs
        have hother : put.bySave = false := hg put hput
        have hsaving : s.afterPush put true = s.saving := by simp [State.afterPush, hother]
        rw [hsaving]
        exact h.failQueued hput hother (some put.draft)
      · cases hs
  | failAnswered i =>
    cases hput : s.hook.answers[i]? with
    | none => simp [SavePage.step, hput] at hs
    | some put =>
      simp only [SavePage.step, UseDraft.step, hput, Option.bind_eq_bind, Option.bind_some, Option.some.injEq] at hs
      subst hs
      exact h.answer hput (fun hown _ => hg put hput hown) (some put.draft) s.valid
  | save =>
    rw [SavePage.step, Option.ite_none_right_eq_some, Option.some.injEq] at hs
    obtain ⟨hclick, rfl⟩ := hs
    exact h.save hclick.1 hclick.2.1 hg
  | processSave faults =>
    rw [SavePage.step] at hs
    split_ifs at hs with hrequested
    cases hs
    exact h.processSave hyaml hrequested hg
  | processStray faults => exact hg.elim
  | vanishStray =>
    rw [SavePage.step] at hs
    split_ifs at hs
    cases hs
    exact ⟨h.kept, h.loading, h.loaded, h.saving, h.disk, h.clean⟩
  | finishSave =>
    rw [SavePage.step] at hs
    split at hs
    · next hanswered =>
      cases hs
      exact h.finish hanswered
    · next hanswered =>
      cases hs
      exact h.finish hanswered
    · cases hs
  | failSave =>
    rw [SavePage.step] at hs
    split at hs
    · next hrequested =>
      cases hs
      exact h.giveUp hrequested _
    · next saved hanswered =>
      cases hs
      cases saved with
      | true => exact absurd hanswered hg
      | false => exact h.finish hanswered
    · cases hs
  | reload =>
    cases hs
    exact h.reload _
  | processGet =>
    rw [SavePage.step] at hs
    split_ifs at hs with hrequested
    cases hs
    exact h.processGet hrequested hg
  | load draft =>
    rw [SavePage.step] at hs
    split at hs
    · next state hanswered =>
      split_ifs at hs with hdraft
      cases hs
      exact h.load hanswered hdraft
    · cases hs
  | failGet =>
    rw [SavePage.step] at hs
    split_ifs at hs with hload
    cases hs
    refine ⟨h.kept, absurd rfl, fun _ hl => (by cases hl), h.saving, h.disk, h.clean⟩

/-- In every undisturbed session a loaded page without unsaved changes shows the draft of the
configuration that the file holds. -/
theorem clean_page_is_saved (hyaml : yaml.Undoes) {agent : Server yaml lib} {as : List (Action yaml)} {s : State yaml lib}
    (hm : Meets step Careful (start agent) as) (he : execute step (start agent) as = some s)
    (hloaded : s.persisted.isSome) (hclean : s.dirty = false) : OnDisk s.agent s.hook.current := by
  have h : Invariant s := execute_invariant (fun _ _ _ h hg hs => h.step hyaml hg hs) (invariant_start agent) hm he
  obtain ⟨draft, hdraft⟩ := Option.isSome_iff_exists.mp hloaded
  exact h.onDisk hdraft hclean

/-! ### A session -/

instance (draft : Draft) : Decidable (HasConfig lib draft) :=
  match h : draft.toAgent.config lib with
  | .ok c => isTrue ⟨c, h⟩
  | .error _ => isFalse fun ⟨_, hc⟩ => by cases h.symm.trans hc

instance (agent : Server yaml lib) (c : Config) : Decidable (FileHolds agent c) :=
  inferInstanceAs (Decidable (∃ document ∈ agent.disk agent.opts.configPath, _))

instance (agent : Server yaml lib) (draft : Draft) : Decidable (OnDisk agent draft) :=
  match h : draft.toAgent.config lib with
  | .ok c => decidable_of_iff (FileHolds agent c) (by simp [OnDisk, h])
  | .error _ => isFalse fun ⟨_, hc, _⟩ => by cases h.symm.trans hc

instance (s : State yaml lib) : (a : Action yaml) → Decidable (Careful s a)
  | .edit _ => inferInstanceAs (Decidable (s.saving = .idle))
  | .failQueued i => inferInstanceAs (Decidable (∀ put ∈ s.hook.queue[i]?, put.bySave = false))
  | .failAnswered i =>
    inferInstanceAs (Decidable (∀ put ∈ s.hook.answers[i]?, put.bySave = true → HasConfig lib put.draft))
  | .save => inferInstanceAs (Decidable (_ ∨ _ ∧ _ ∧ _ ∧ HasConfig lib s.hook.current))
  | .processSave faults => inferInstanceAs (Decidable (_ = true → _ = true → faults.losesFile yaml = false))
  | .processStray _ => inferInstanceAs (Decidable False)
  | .failSave => inferInstanceAs (Decidable (s.saving ≠ .answered true))
  | .processGet => inferInstanceAs (Decidable (_ ∧ FileHolds s.agent s.agent.draft ∧ _ = _))
  | .timer | .process | .vanish _ | .respond _ | .vanishStray | .finishSave | .reload | .load _
  | .failGet => inferInstanceAs (Decidable True)

/-- An agent that was started with the configuration that its file holds. -/
def startedAgent : Server treeYaml plainLibrary :=
  { sampleServer with
    draft := (sampleConfig "http://a").normalize
    disk := fun _ => some (marshal (sampleConfig "http://a").normalize) }

def loadedDraft : Draft where
  serverURL := "http://a"
  deviceID := "d1"
  token := "t"
  interval := "10s"
  deviceName := ""
  idleThreshold := "5m"
  defaultApp := Default.app
  defaultDescription := Default.description
  lockedApp := Default.lockedApp
  lockedDescription := Default.lockedDesc
  rules := []
  exposeTitle := []

/-- The page loads, and the device gets another id, which the agent receives. -/
def renamed : List (Action treeYaml) :=
  [.processGet, .load loadedDraft, .edit fun draft => { draft with deviceID := "d2" }, .timer, .process, .respond 0]

def failingWith (faults : FileFaults treeYaml) : SaveFaults treeYaml := ⟨faults, none⟩

/-- The device is renamed and saved; the first save finds the disk full. -/
def savedTwice : List (Action treeYaml) :=
  renamed ++ [.save, .processSave (failingWith { FileFaults.never treeYaml with write := some ("disk full", some .null) }),
    .finishSave, .save, .processSave .never, .finishSave]

theorem clean_page_is_saved_sample :
    ∃ s, execute step (start startedAgent) savedTwice = some s ∧ OnDisk s.agent s.hook.current := by
  have hclean : (execute step (start startedAgent) savedTwice).any
      (fun s => s.persisted.isSome && !s.dirty) = true := by decide +kernel
  have hm : Meets step Careful (start startedAgent) savedTwice := by decide +kernel
  obtain ⟨s, he, hs⟩ := Option.any_eq_true _ _ |>.mp hclean
  rw [Bool.and_eq_true, Bool.not_eq_true'] at hs
  exact ⟨s, he, clean_page_is_saved (fun _ => rfl) hm he hs.1 hs.2⟩

/-- The page loads, the device is renamed, and the page is reloaded before a save. -/
def reloaded : List (Action treeYaml) := renamed ++ [.reload, .processGet, .load { loadedDraft with deviceID := "d2" }]

/-- The page loads and saves, and the second step of `replaceFile` fails. -/
def lost : List (Action treeYaml) :=
  [.processGet, .load loadedDraft, .save,
    .processSave (failingWith { FileFaults.never treeYaml with move := some "access denied" }), .finishSave]

/-- After a reload the page shows the agent's unsaved draft as what is on disk; and after a save that fails
halfway a page without unsaved changes has no file behind it. -/
theorem reloaded_page_is_not_saved :
    (∃ s, execute step (start startedAgent) reloaded = some s ∧
      s.persisted.isSome ∧ s.dirty = false ∧ ¬ OnDisk s.agent s.hook.current) ∧
    ∃ s, execute step (start startedAgent) lost = some s ∧
      s.persisted.isSome ∧ s.dirty = false ∧ ¬ OnDisk s.agent s.hook.current := by
  have hreload : (execute step (start startedAgent) reloaded).any
      (fun s => s.persisted.isSome ∧ s.dirty = false ∧ ¬ OnDisk s.agent s.hook.current) = true := by decide +kernel
  have hlost : (execute step (start startedAgent) lost).any
      (fun s => s.persisted.isSome ∧ s.dirty = false ∧ ¬ OnDisk s.agent s.hook.current) = true := by decide +kernel
  obtain ⟨s, he, hs⟩ := Option.any_eq_true _ _ |>.mp hreload
  obtain ⟨t, ht, hd⟩ := Option.any_eq_true _ _ |>.mp hlost
  exact ⟨⟨s, he, of_decide_eq_true hs⟩, t, ht, of_decide_eq_true hd⟩

end CyberstalkMe.Webui.SavePage
