import CyberstalkMe.Web.Contract
import CyberstalkMe.Foundations.Execution

/-! # The usage tab

`useUsage` requests the statistics of a window and aborts the request when another window is
selected. Any number of aborted requests can still be on their way, at their fetch or at their body. React
runs the effect of a selection before it handles another event, and the state is that with all its updates.
-/
namespace CyberstalkMe.Web.UseUsage

open Foundations Contract

inductive UsageWindow
  | today
  | d7
  | d30
deriving DecidableEq, Repr

def UsageWindow.value : UsageWindow → String
  | .today => "today"
  | .d7 => "7d"
  | .d30 => "30d"

def windows : List UsageWindow := [.today, .d7, .d30]

/-- A value that is not one of a window is ignored. -/
def selectWindow (value : String) : Option UsageWindow := windows.find? fun w => w.value = value

/-- What the hook returns. -/
structure UsageState where
  data : Option (Json ℚ)
  loading : Bool
  error : Option String

/-- How far `load` has come. A finished one had a body, or its fetch or its body was rejected, or its status
was not a success. -/
inductive Progress
  | fetching
  | reading
  | finished (body : Option (Json ℚ))

/-- One run of the effect: the window it asks for, and its `cancelled`, which is set along with the abort. -/
structure Request where
  window : UsageWindow
  progress : Progress
  cancelled : Bool

structure State where
  usageWindow : UsageWindow
  state : UsageState
  /-- In the order in which they were started. -/
  requests : List Request

inductive Event
  | select (value : String)
  | respond (i : ℕ) (ok : Bool)
  | body (i : ℕ) (value : Json ℚ)
  | reject (i : ℕ)

/-- The state that a request which is not cancelled ends with. -/
def settle : Option (Json ℚ) → UsageState
  | none => ⟨none, false, some "拉取使用时间统计失败"⟩
  | some value =>
    match parseUsage value with
    | none => ⟨none, false, some "统计数据格式异常"⟩
    | some parsed => ⟨some parsed, false, none⟩

/-- The effect. The data of the previous window stays while the new one loads. -/
def State.effect (s : State) : State :=
  { s with
    state := ⟨s.state.data, true, none⟩
    requests := s.requests ++ [⟨s.usageWindow, .fetching, false⟩] }

def State.cleanup (s : State) : State :=
  { s with requests := s.requests.modify (s.requests.length - 1) fun r => { r with cancelled := true } }

/-- The rest of `load` once its outcome is known. A cancelled one leaves the state alone. -/
def State.finish (s : State) (i : ℕ) (r : Request) (body : Option (Json ℚ)) : State :=
  { s with
    state := if r.cancelled then s.state else settle body
    requests := s.requests.set i { r with progress := .finished body } }

/-- The tab is opened. -/
def start : State := State.effect ⟨.today, ⟨none, true, none⟩, []⟩

def step (s : State) : Event → Option State
  | .select value =>
    match selectWindow value with
    | none => some s
    | some next => if next = s.usageWindow then some s else some { s.cleanup with usageWindow := next }.effect
  | .respond i ok => do
    let r ← s.requests[i]?
    match r.progress with
    | .fetching =>
      if ok then some { s with requests := s.requests.set i { r with progress := .reading } }
      else some (s.finish i r none)
    | _ => none
  | .body i value => do
    let r ← s.requests[i]?
    match r.progress with
    | .reading => some (s.finish i r (some value))
    | _ => none
  -- The network fails, the body is no JSON, or the abort arrives.
  | .reject i => do
    let r ← s.requests[i]?
    match r.progress with
    | .finished _ => none
    | _ => some (s.finish i r none)

/-! ### What the state shows -/

def Shows (state : UsageState) : Progress → Prop
  | .finished body => state = settle body
  | _ => state.loading = true ∧ state.error = none

/-- Every request but the last is cancelled, and the state is that of the last, which asks for the selected
window. -/
def Current (s : State) (r : Request) : Prop :=
  ∃ old, s.requests = old ++ [r] ∧ (∀ q ∈ old, q.cancelled = true) ∧ r.cancelled = false ∧
    r.window = s.usageWindow ∧ Shows s.state r.progress

def Event.Selects (s : State) : Event → Prop
  | .select value => ∃ next, selectWindow value = some next ∧ next ≠ s.usageWindow
  | _ => False

theorem current_start : Current start ⟨.today, .fetching, false⟩ :=
  ⟨[], rfl, List.forall_mem_nil _, rfl, rfl, rfl, rfl⟩

/-- A request that goes on is a cancelled one, which leaves the state alone, or the last. -/
theorem update_current {s : State} {r q : Request} (h : Current s r) {i : ℕ} (hq : s.requests[i]? = some q)
    (hopen : ∀ body, q.progress ≠ .finished body) (progress : Progress) {state : UsageState}
    (hcancelled : q.cancelled = true → state = s.state) (hshows : q = r → Shows state progress) :
    ∃ r', Current { s with state, requests := s.requests.set i { q with progress } } r' ∧
      ∀ body, r.progress = .finished body → r' = r ∧ state = s.state := by
  obtain ⟨old, hrequests, hold, hr, hwindow, hstate⟩ := h
  rw [hrequests] at hq ⊢
  by_cases hi : i < old.length
  · -- an older request
    rw [List.getElem?_append_left hi] at hq
    have hqold := hold q (List.mem_of_getElem? hq)
    have hsame := hcancelled hqold
    refine ⟨r, ⟨old.set i { q with progress }, ?_, ?_, hr, hwindow, ?_⟩, fun _ _ => ⟨rfl, hsame⟩⟩
    · rw [List.set_append_left i _ hi]
    · intro q' hq'
      rcases List.mem_or_eq_of_mem_set hq' with hmem | rfl
      · exact hold q' hmem
      · exact hqold
    · rw [hsame]
      exact hstate
  · -- the last one
    obtain ⟨rfl, rfl⟩ : i = old.length ∧ q = r := by
      have hlt : i < (old ++ [r]).length := (List.getElem?_eq_some_iff.mp hq).1
      rw [List.length_append, List.length_singleton] at hlt
      obtain rfl : i = old.length := by omega
      rw [List.getElem?_concat_length, Option.some.injEq] at hq
      exact ⟨rfl, hq.symm⟩
    refine ⟨{ q with progress }, ⟨old, ?_, hold, hr, hwindow, hshows rfl⟩, fun body hbody => ?_⟩
    · rw [List.set_append_right _ _ le_rfl, Nat.sub_self]
      rfl
    · exact absurd hbody (hopen body)

theorem finish_current {s : State} {r q : Request} (h : Current s r) {i : ℕ} (hq : s.requests[i]? = some q)
    (hopen : ∀ body, q.progress ≠ .finished body) (body : Option (Json ℚ)) :
    ∃ r', Current (s.finish i q body) r' ∧
      ∀ b, r.progress = .finished b → r' = r ∧ (s.finish i q body).state = s.state := by
  apply update_current h hq hopen
  · intro hcancelled
    rw [if_pos hcancelled]
  · rintro rfl
    obtain ⟨-, -, -, hr, -⟩ := h
    rw [hr]
    rfl

theorem select_current {s : State} {r : Request} (h : Current s r) (next : UsageWindow) :
    Current { s.cleanup with usageWindow := next }.effect ⟨next, .fetching, false⟩ := by
  obtain ⟨old, hrequests, hold, -⟩ := h
  refine ⟨old ++ [{ r with cancelled := true }], ?_, ?_, rfl, rfl, rfl, rfl⟩
  · have hlength : s.requests.length - 1 = old.length := by rw [hrequests, List.length_append]; rfl
    rw [State.effect, State.cleanup]
    dsimp only
    rw [hlength, hrequests, List.modify_eq_take_cons_drop (by simp)]
    simp
  · intro q hq
    rcases List.mem_append.mp hq with hq | hq
    · exact hold q hq
    · rw [List.mem_singleton.mp hq]

/-- What an event can do: nothing, select another window, or move on a request that has not finished. -/
theorem step_cases {s t : State} {ev : Event} (h : step s ev = some t) :
    t = s ∨ (ev.Selects s ∧ ∃ next, t = { s.cleanup with usageWindow := next }.effect) ∨
      ∃ i q, s.requests[i]? = some q ∧ (∀ body, q.progress ≠ .finished body) ∧
        ((q.progress = .fetching ∧ t = { s with requests := s.requests.set i { q with progress := .reading } }) ∨
          ∃ body, t = s.finish i q body) := by
  cases ev with
  | select value =>
    rw [step] at h
    cases hvalue : selectWindow value with
    | none =>
      rw [hvalue, Option.some.injEq] at h
      exact .inl h.symm
    | some next =>
      simp only [hvalue] at h
      split_ifs at h with hsame
      · cases h
        exact .inl rfl
      · cases h
        exact .inr (.inl ⟨⟨next, hvalue, hsame⟩, next, rfl⟩)
  | respond i ok =>
    rw [step] at h
    obtain ⟨q, hq, h⟩ := Option.bind_eq_some_iff.mp h
    right; right
    refine ⟨i, q, hq, ?_⟩
    cases hprogress : q.progress with
    | fetching =>
      rw [hprogress] at h
      cases ok with
      | true =>
        cases h
        exact ⟨by simp, .inl ⟨rfl, rfl⟩⟩
      | false =>
        cases h
        exact ⟨by simp, .inr ⟨none, rfl⟩⟩
    | reading =>
      rw [hprogress] at h
      cases h
    | finished body =>
      rw [hprogress] at h
      cases h
  | body i value =>
    rw [step] at h
    obtain ⟨q, hq, h⟩ := Option.bind_eq_some_iff.mp h
    right; right
    refine ⟨i, q, hq, ?_⟩
    cases hprogress : q.progress with
    | reading =>
      rw [hprogress] at h
      cases h
      exact ⟨by simp, .inr ⟨some value, rfl⟩⟩
    | fetching =>
      rw [hprogress] at h
      cases h
    | finished body =>
      rw [hprogress] at h
      cases h
  | reject i =>
    rw [step] at h
    obtain ⟨q, hq, h⟩ := Option.bind_eq_some_iff.mp h
    right; right
    refine ⟨i, q, hq, ?_⟩
    cases hprogress : q.progress with
    | fetching =>
      rw [hprogress] at h
      cases h
      exact ⟨by simp, .inr ⟨none, rfl⟩⟩
    | reading =>
      rw [hprogress] at h
      cases h
      exact ⟨by simp, .inr ⟨none, rfl⟩⟩
    | finished body =>
      rw [hprogress] at h
      cases h

/-- One event. Without a selection, what a finished request has shown stays. -/
theorem step_current {s t : State} {r : Request} (h : Current s r) {ev : Event} (hstep : step s ev = some t) :
    ∃ r', Current t r' ∧ (¬ ev.Selects s → t.usageWindow = s.usageWindow ∧
      ∀ body, r.progress = .finished body → r' = r ∧ t.state = s.state) := by
  rcases step_cases hstep with rfl | ⟨hselects, next, rfl⟩ | ⟨i, q, hq, hopen, ⟨hfetching, rfl⟩ | ⟨body, rfl⟩⟩
  · exact ⟨r, h, fun _ => ⟨rfl, fun _ _ => ⟨rfl, rfl⟩⟩⟩
  · exact ⟨_, select_current h next, fun hnot => absurd hselects hnot⟩
  · have hshows : q = r → Shows s.state .reading := by
      rintro rfl
      obtain ⟨-, -, -, -, -, hstate⟩ := h
      rwa [hfetching] at hstate
    obtain ⟨r', hr', hkept⟩ := update_current h hq hopen .reading (fun _ => rfl) hshows
    exact ⟨r', hr', fun _ => ⟨rfl, hkept⟩⟩
  · obtain ⟨r', hr', hkept⟩ := finish_current h hq hopen body
    exact ⟨r', hr', fun _ => ⟨rfl, hkept⟩⟩

/-! ### Runs -/

/-- The events leave the selection as it is. -/
def Unselected : State → List Event → Prop := Meets step fun s ev => ¬ ev.Selects s

theorem exists_current {events : List Event} {s : State} (h : execute step start events = some s) :
    ∃ r, Current s r := by
  apply execute_invariant_all _ ⟨_, current_start⟩ h
  rintro s ev t ⟨r, hr⟩ hstep
  obtain ⟨r', hr', -⟩ := step_current hr hstep
  exact ⟨r', hr'⟩

theorem state_kept {s t : State} {r : Request} {body : Option (Json ℚ)} (h : Current s r)
    (hr : r.progress = .finished body) {later : List Event} (hlater : Unselected s later)
    (ht : execute step s later = some t) : t.usageWindow = s.usageWindow ∧ t.state = s.state := by
  have hkept : Current t r ∧ t.usageWindow = s.usageWindow ∧ t.state = s.state := by
    apply execute_invariant (I := fun u => Current u r ∧ u.usageWindow = s.usageWindow ∧ u.state = s.state) _
      ⟨h, rfl, rfl⟩ hlater ht
    rintro u ev v ⟨hu, hwindow, hstate⟩ hselects hstep
    obtain ⟨r', hr', hunselected⟩ := step_current hu hstep
    obtain ⟨hwindow', hfinished⟩ := hunselected hselects
    obtain ⟨rfl, hstate'⟩ := hfinished body hr
    exact ⟨hr', hwindow'.trans hwindow, hstate'.trans hstate⟩
  exact hkept.2

/-- The last request asks for the selected window and has finished with the body. -/
def FinishedFor (s : State) (body : Option (Json ℚ)) : Prop :=
  ∃ r, s.requests.getLast? = some r ∧ r.window = s.usageWindow ∧ r.progress = .finished body

/-- When the tab has stopped loading, its data is the response to the request for the selected window and
its error is that request's. Once that request has finished, the state stays until another window is
selected. -/
theorem usage_of_selected_window {events : List Event} {s : State} (h : execute step start events = some s) :
    (∀ data, s.state.loading = false → s.state.data = some data →
        ∃ body, FinishedFor s (some body) ∧ parseUsage body = some data) ∧
      (∀ error, s.state.loading = false → s.state.error = some error →
        ∃ body, FinishedFor s body ∧ s.state = settle body) ∧
      ∀ body later t, FinishedFor s body → Unselected s later → execute step s later = some t →
        t.usageWindow = s.usageWindow ∧ t.state = s.state := by
  obtain ⟨r, hr⟩ := exists_current h
  obtain ⟨old, hrequests, -, -, hwindow, hshows⟩ := id hr
  have hlast : s.requests.getLast? = some r := by rw [hrequests, List.getLast?_concat]
  have hfinished (hloading : s.state.loading = false) : ∃ body, FinishedFor s body ∧ s.state = settle body := by
    cases hprogress : r.progress with
    | finished body =>
      rw [hprogress] at hshows
      exact ⟨body, ⟨r, hlast, hwindow, hprogress⟩, hshows⟩
    | fetching | reading =>
      rw [hprogress] at hshows
      have hloading' := hshows.1
      rw [hloading] at hloading'
      cases hloading'
  refine ⟨fun data hloading hdata => ?_, fun error hloading _ => hfinished hloading, ?_⟩
  · obtain ⟨body, hbody, hstate⟩ := hfinished hloading
    rw [hstate] at hdata
    cases body with
    | none => cases hdata
    | some value =>
      refine ⟨value, hbody, ?_⟩
      rw [settle] at hdata
      cases hparsed : parseUsage value with
      | none =>
        rw [hparsed] at hdata
        cases hdata
      | some parsed =>
        rw [hparsed] at hdata
        exact hdata
  · rintro body later t ⟨r', hr', -, hbody⟩ hlater ht
    rw [hlast, Option.some.injEq] at hr'
    subst hr'
    exact state_kept hr hbody hlater ht

/-- Statistics without a device. -/
def noDevices : Json ℚ :=
  .object [("window", .string "7d"), ("timezone", .string "UTC"), ("from", .string "2026-01-01T00:00:00Z"),
    ("to", .string "2026-01-07T12:00:00Z"), ("devices", .array [])]

/-- The window is changed before the first response, whose body arrives last and is not a response at all. -/
def switched : List Event := [.select "7d", .respond 0 true, .respond 1 true, .body 1 noDevices, .body 0 .null]

def afterSwitch : State :=
  ⟨.d7, settle (some noDevices), [⟨.today, .finished (some .null), true⟩, ⟨.d7, .finished (some noDevices), false⟩]⟩

/-- The second request fails instead. -/
def failed : List Event := [.select "7d", .respond 0 true, .respond 1 false, .body 0 .null]

def afterFailure : State :=
  ⟨.d7, settle none, [⟨.today, .finished (some .null), true⟩, ⟨.d7, .finished none, false⟩]⟩

theorem usage_of_selected_window_switched :
    (∃ body, FinishedFor afterSwitch (some body) ∧ parseUsage body = some noDevices) ∧
      ∃ body, FinishedFor afterFailure body ∧ afterFailure.state = settle body :=
  ⟨(usage_of_selected_window (rfl : execute step start switched = some afterSwitch)).1 noDevices rfl rfl,
    (usage_of_selected_window (rfl : execute step start failed = some afterFailure)).2.1 _ rfl rfl⟩

end CyberstalkMe.Web.UseUsage
