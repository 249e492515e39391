import CyberstalkMe.Webui.Rules

/-! # The draft between page and agent

The page edits its own copy and pushes it on a short debounce. An edit that is still to
be pushed sits in one slot, which the failure of an older push overwrites.
-/
namespace CyberstalkMe.Webui.UseDraft

open Foundations

/-- A PUT on its way to the agent. A request that the page has given up on may still arrive. -/
structure Put where
  draft : Draft
  awaited : Bool
  bySave : Bool
deriving DecidableEq, Repr

structure State where
  current : Draft
  pending : Option Draft
  timer : Bool
  /-- In the order in which they were sent. -/
  queue : List Put
  /-- Processed, with the answer on its way to the page. -/
  answers : List Put
  /-- The draft the agent received last, or gave to the page. -/
  received : Option Draft
deriving DecidableEq, Repr

inductive Action
  | edit (change : Draft → Draft)
  | timer
  | flush
  | process
  | vanish (i : ℕ)
  | respond (i : ℕ)
  | failQueued (i : ℕ)
  | failAnswered (i : ℕ)

/-- A page that has loaded the agent's draft. -/
def start (draft : Draft) : State := ⟨draft, none, false, [], [], some draft⟩

/-- Push the pending edit. The save button does this for itself and waits for the answer. -/
def State.flush (s : State) (bySave : Bool) : State :=
  match s.pending with
  | none => { s with timer := false }
  | some next => { s with timer := false, pending := none, queue := s.queue ++ [⟨next, true, bySave⟩] }

@[simp] theorem State.flush_current (s : State) (bySave : Bool) : (s.flush bySave).current = s.current := by
  rw [flush]
  cases s.pending <;> rfl

@[simp] theorem State.flush_received (s : State) (bySave : Bool) : (s.flush bySave).received = s.received := by
  rw [flush]
  cases s.pending <;> rfl

@[simp] theorem State.flush_timer (s : State) (bySave : Bool) : (s.flush bySave).timer = false := by
  rw [flush]
  cases s.pending <;> rfl

@[simp] theorem State.flush_answers (s : State) (bySave : Bool) : (s.flush bySave).answers = s.answers := by
  rw [flush]
  cases s.pending <;> rfl

theorem State.flush_queue (s : State) (bySave : Bool) :
    (s.flush bySave).queue = s.queue ++ (s.pending.map (⟨·, true, bySave⟩)).toList := by
  rw [flush]
  cases s.pending with
  | none => exact (List.append_nil _).symm
  | some next => rfl

def State.edit (s : State) (change : Draft → Draft) : State :=
  { s with current := change s.current, pending := some (change s.current), timer := true }

def step (s : State) : Action → Option State
  | .edit change => some (s.edit change)
  | .timer => if s.timer then some (s.flush false) else none
  | .flush => some (s.flush true)
  | .process =>
    match s.queue with
    | [] => none
    | put :: queue =>
      some { s with queue, received := some put.draft,
                    answers := if put.awaited then s.answers ++ [put] else s.answers }
  | .vanish i => do
    let put ← s.queue[i]?
    if put.awaited then none else some { s with queue := s.queue.eraseIdx i }
  | .respond i => if i < s.answers.length then some { s with answers := s.answers.eraseIdx i } else none
  -- The edit goes back into the slot, whatever has been put there since.
  | .failQueued i => do
    let put ← s.queue[i]?
    if put.awaited then
      some { s with queue := s.queue.set i { put with awaited := false }, pending := some put.draft }
    else none
  | .failAnswered i => do
    let put ← s.answers[i]?
    some { s with answers := s.answers.eraseIdx i, pending := some put.draft }

/-! ### When the current draft arrives -/

/-- A push sends nothing but the current draft. -/
def SendsCurrent (s : State) : Action → Prop
  | .timer => ∀ next ∈ s.pending, next = s.current
  | .flush => ∀ next ∈ s.pending, next = s.current
  | _ => True

instance (s : State) : (a : Action) → Decidable (SendsCurrent s a)
  | .timer | .flush => inferInstanceAs (Decidable (∀ next ∈ s.pending, next = s.current))
  | .edit _ | .process | .vanish _ | .respond _ | .failQueued _ | .failAnswered _ =>
    inferInstanceAs (Decidable True)

def State.Settled (s : State) : Prop := s.pending = none ∧ s.queue = [] ∧ s.answers = []

instance (s : State) : Decidable s.Settled := inferInstanceAs (Decidable (_ ∧ _ ∧ _))

/-- The draft that the agent will have received last once it has worked through its queue. -/
def State.latest (s : State) : Option Draft := (s.queue.getLast?.map Put.draft).or s.received

/-- Unless an edit waits, the page waits for the last request, -/
def Awaiting (s : State) : Prop := s.pending = none → ∀ put ∈ s.queue.getLast?, put.awaited = true

/-- and that is the one that brings the current draft. -/
def InSync (s : State) : Prop := s.pending = none → s.latest = some s.current

theorem latest_process {s : State} {put : Put} {queue answers : List Put} (h : s.queue = put :: queue) :
    State.latest { s with queue, answers, received := some put.draft } = s.latest := by
  cases hlast : queue.getLast? <;> simp [State.latest, h, List.getLast?_cons, hlast]

theorem getLast?_eraseIdx {s : State} {put : Put} {i : ℕ} (h : Awaiting s) (hpending : s.pending = none)
    (hput : s.queue[i]? = some put) (hgiven : ¬ put.awaited = true) :
    (s.queue.eraseIdx i).getLast? = s.queue.getLast? := by
  rcases s.queue.eq_nil_or_concat with hempty | ⟨sent, last, hsent⟩
  · simp [hempty] at hput
  · rw [List.concat_eq_append] at hsent
    have hawaited : last.awaited = true := h hpending last (by simp [hsent])
    have hlt : i < sent.length := by
      by_contra hge
      rw [hsent, List.getElem?_append_right (Nat.not_lt.mp hge)] at hput
      have hmem := List.mem_singleton.mp (List.mem_of_getElem? hput)
      exact hgiven (hmem ▸ hawaited)
    rw [hsent, List.eraseIdx_append_of_lt_length hlt, List.getLast?_concat, List.getLast?_concat]

theorem Awaiting.flush {s : State} (h : Awaiting s) (bySave : Bool) : Awaiting (s.flush bySave) := by
  rw [State.flush]
  cases hpending : s.pending with
  | none => exact fun _ => h hpending
  | some next =>
    intro _ put hput
    rw [List.getLast?_concat, Option.mem_some_iff] at hput
    rw [← hput]

/-- A push decides what is sent last. -/
theorem InSync.flush_iff {s : State} (h : InSync s) (bySave : Bool) :
    InSync (s.flush bySave) ↔ ∀ next ∈ s.pending, next = s.current := by
  rw [State.flush]
  cases hpending : s.pending with
  | none => exact iff_of_true (fun _ => h hpending) (by simp)
  | some next => simp [InSync, State.latest]

/-- One action. Whatever fails is pending again, so only pushes matter. -/
theorem step_inSync {s t : State} {a : Action} (h : Awaiting s) (hs : step s a = some t) :
    Awaiting t ∧ (InSync s → (InSync t ↔ SendsCurrent s a)) := by
  cases a with
  | edit change =>
    cases hs
    exact ⟨by rintro ⟨⟩, fun _ => iff_of_true (by rintro ⟨⟩) trivial⟩
  | timer =>
    rw [step] at hs
    split_ifs at hs
    cases hs
    exact ⟨h.flush false, fun hsync => hsync.flush_iff false⟩
  | flush =>
    cases hs
    exact ⟨h.flush true, fun hsync => hsync.flush_iff true⟩
  | process =>
    rw [step] at hs
    cases hqueue : s.queue with
    | nil => simp [hqueue] at hs
    | cons put queue =>
      simp only [hqueue, Option.some.injEq] at hs
      subst hs
      constructor
      · intro hpending last hlast
        apply h hpending
        rw [hqueue, List.getLast?_cons, Option.mem_def.mp hlast]
        rfl
      · exact fun hsync => iff_of_true (fun hpending => (latest_process hqueue).trans (hsync hpending)) trivial
  | vanish i =>
    simp only [step, Option.bind_eq_bind, Option.bind_eq_some_iff] at hs
    obtain ⟨put, hput, hs⟩ := hs
    split_ifs at hs with hgiven
    cases hs
    constructor
    · intro hpending
      rw [getLast?_eraseIdx h hpending hput hgiven]
      exact h hpending
    · refine fun hsync => iff_of_true (fun hpending => ?_) trivial
      rw [State.latest, getLast?_eraseIdx h hpending hput hgiven]
      exact hsync hpending
  | respond i =>
    rw [step] at hs
    split_ifs at hs
    cases hs
    exact ⟨h, fun hsync => iff_of_true hsync trivial⟩
  | failQueued i =>
    simp only [step, Option.bind_eq_bind, Option.bind_eq_some_iff] at hs
    obtain ⟨put, -, hs⟩ := hs
    split_ifs at hs
    cases hs
    exact ⟨by rintro ⟨⟩, fun _ => iff_of_true (by rintro ⟨⟩) trivial⟩
  | failAnswered i =>
    simp only [step, Option.bind_eq_bind, Option.bind_eq_some_iff] at hs
    obtain ⟨put, -, hs⟩ := hs
    cases hs
    exact ⟨by rintro ⟨⟩, fun _ => iff_of_true (by rintro ⟨⟩) trivial⟩

/-! ### What is left undisturbed -/

/-- The agent works through the requests and the page takes its answers. -/
def Delivers : Action → Prop
  | .process | .respond _ => True
  | _ => False

/-- When nothing more is edited and nothing fails, the page ends up agreeing with the agent. -/
def State.Arrives (s : State) : Prop :=
  ∀ t, Reaches step Delivers s t → t.Settled → t.received = some t.current

theorem latest_step {s t : State} {a : Action} (ha : Delivers a) (hs : step s a = some t) :
    t.latest = s.latest ∧ t.pending = s.pending ∧ t.current = s.current := by
  cases a with
  | process =>
    rw [step] at hs
    cases hqueue : s.queue with
    | nil => simp [hqueue] at hs
    | cons put queue =>
      simp only [hqueue, Option.some.injEq] at hs
      subst hs
      exact ⟨latest_process hqueue, rfl, rfl⟩
  | respond i =>
    rw [step] at hs
    split_ifs at hs
    cases hs
    exact ⟨rfl, rfl, rfl⟩
  | _ => exact ha.elim

theorem reaches_settled (s : State) :
    Reaches step Delivers s { s with queue := [], answers := [], received := s.latest } := by
  obtain ⟨current, pending, timer, queue, answers, received⟩ := s
  induction queue generalizing answers received with
  | nil =>
    induction answers with
    | nil => exact .refl _
    | cons put answers ih => exact ((Reaches.refl _).tail (a := .respond 0) trivial rfl).trans ih
  | cons put queue ih =>
    have hone : Reaches step Delivers ⟨current, pending, timer, put :: queue, answers, received⟩
        ⟨current, pending, timer, queue, if put.awaited then answers ++ [put] else answers, some put.draft⟩ :=
      (Reaches.refl _).tail (a := .process) trivial rfl
    have hrest := hone.trans (ih (if put.awaited then answers ++ [put] else answers) (some put.draft))
    have hlatest : State.latest ⟨current, pending, timer, queue, answers, some put.draft⟩ =
        State.latest ⟨current, pending, timer, put :: queue, answers, received⟩ :=
      latest_process (s := ⟨current, pending, timer, put :: queue, answers, received⟩) rfl
    rw [← hlatest]
    exact hrest

theorem arrives_iff {s : State} : s.Arrives ↔ InSync s := by
  constructor
  · intro h hpending
    exact h _ (reaches_settled s) ⟨hpending, rfl, rfl⟩
  · rintro h t ⟨as, has, he⟩ ⟨hpending, hqueue, -⟩
    have hm : Meets step (fun _ a => Delivers a) s as := meets_of_forall (fun a ha _ => has a ha) s
    obtain ⟨hlatest, hpending', hcurrent⟩ : t.latest = s.latest ∧ t.pending = s.pending ∧ t.current = s.current := by
      refine execute_invariant (I := fun u => u.latest = s.latest ∧ u.pending = s.pending ∧ u.current = s.current)
        (fun u a v hu ha hv => ?_) ⟨rfl, rfl, rfl⟩ hm he
      obtain ⟨h1, h2, h3⟩ := latest_step ha hv
      exact ⟨h1.trans hu.1, h2.trans hu.2.1, h3.trans hu.2.2⟩
    have hreceived : t.latest = t.received := by simp [State.latest, hqueue]
    rw [← hreceived, hlatest, hcurrent]
    exact h (hpending' ▸ hpending)

/-- The page and the agent agree whenever nothing is under way, after every stretch of a run that is left
undisturbed, exactly when each push of the run sends the current draft. -/
theorem settled_draft_received_iff {draft : Draft} {as : List Action} {s : State}
    (he : execute step (start draft) as = some s) :
    (Meets step SendsCurrent (start draft) as ↔
      ∀ bs cs t, as = bs ++ cs → execute step (start draft) bs = some t → t.Arrives) ∧
    (Meets step SendsCurrent (start draft) as → s.Settled → s.received = some s.current) := by
  have hstart : Awaiting (start draft) ∧ InSync (start draft) := ⟨fun _ _ h => (by cases h), fun _ => rfl⟩
  have hstep : ∀ s a t, Awaiting s ∧ InSync s → step s a = some t → (Awaiting t ∧ InSync t ↔ SendsCurrent s a) := by
    intro s a t h hs
    obtain ⟨hawaiting, hiff⟩ := step_inSync h.1 hs
    rw [← hiff h.2, and_iff_right hawaiting]
  have hiff := meets_iff_forall_reached hstep hstart he
  have hsync : Meets step SendsCurrent (start draft) as ↔
      ∀ bs cs t, as = bs ++ cs → execute step (start draft) bs = some t → t.Arrives := by
    rw [hiff]
    refine forall₃_congr fun bs cs t => forall₂_congr fun _ hbs => ?_
    have hawaiting : Awaiting t := execute_invariant_all (fun _ _ _ h hs => (step_inSync h hs).1) hstart.1 hbs
    rw [arrives_iff, and_iff_right hawaiting]
  refine ⟨hsync, fun hm hsettled => ?_⟩
  exact hsync.mp hm as [] s (List.append_nil as).symm he s (.refl s) hsettled

def typeDevice (deviceID : String) : Action := .edit fun draft => { draft with deviceID }

/-- A push fails before the agent has it and is sent once more. -/
def retried : List Action := [typeDevice "b", .timer, .failQueued 0, .vanish 0, .flush, .process, .respond 0]

theorem settled_draft_received_iff_sample :
    ∃ s, execute step (start emptyDraft) retried = some s ∧ s.received = some s.current :=
  ⟨_, rfl, (settled_draft_received_iff (rfl : execute step (start emptyDraft) retried = some _)).2 (by decide) (by decide)⟩

/-- The failed push takes the place of the edit made in the meantime, and the debounce sends it again. -/
theorem failed_put_replaces_edit :
    ∃ s, execute step (start emptyDraft) [typeDevice "b", .timer, typeDevice "c", .failQueued 0, .vanish 0,
        .timer, .process, .respond 0] = some s ∧ s.Settled ∧ s.received ≠ some s.current :=
  ⟨_, rfl, by decide, by decide⟩

end CyberstalkMe.Webui.UseDraft
