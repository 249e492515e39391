import CyberstalkMe.Setup.Interface

/-! # Requests without the token

A request is admitted when the guard lets it through to the API. Those that are not admitted interfere
with nothing: they learn what is public, and no other request, no stream and no file would be different
without them.
-/
namespace CyberstalkMe.Setup

open Go Agent Foundations

variable {yaml : Yaml} {lib : Library}

/-- The request reaches a handler of the API. -/
def Site.admits (site : Site) (r : HTTPRequest) : Bool :=
  entryMux.route r.method r.path = .handler .api && site.access.originAllowed r && site.access.tokenAllowed r

/-- A site with the token `t0k`, and a request of its page. -/
def sampleSite : Site where
  access := ⟨"t0k", loopbackHosts "49152"⟩
  index := none
  assets := none
  bodies := ⟨fun _ => none, fun _ => none, some⟩

def sampleRequest (host authorization : String) : HTTPRequest :=
  ⟨"GET", "/api/config".toList, "/api/config".toList.map .rune, host, "http://localhost:49152", authorization, ""⟩

example : sampleSite.admits (sampleRequest "127.0.0.1:49152" "Bearer t0k") = true ∧
    sampleSite.admits (sampleRequest "rebound.example:49152" "Bearer t0k") = false ∧
    sampleSite.admits (sampleRequest "127.0.0.1:49152" "Bearer t0") = false := by
  decide

/-- What a request that is not admitted learns. -/
def Site.publicReply (site : Site) (r : HTTPRequest) : Reply :=
  answerRouted (entryMux.route r.method r.path) (fun reply => reply) fun
    | .api =>
      if !site.access.originAllowed r then writeError 403 "cross-origin request rejected"
      else writeError 401 "missing or invalid setup token"
    | .index =>
      if !site.access.hostAllowed r.host then writeError 403 "cross-origin request rejected" else site.indexReply r

def Event.admitted (site : Site) : Event yaml → Bool
  | .request r _ _ _ => site.admits r
  | .observe _ | .tick .. | .leave _ => true

def Event.publicAnswer (site : Site) : Event yaml → Output
  | .request r _ _ _ => .reply (site.publicReply r)
  | .observe _ | .tick .. | .leave _ => .nothing

namespace Session

/-- A session up to its idle countdown. -/
def untouched (s : Session yaml lib) : Session yaml lib := { s with touched := false }

variable {site : Site} {s t : Session yaml lib}

theorem eq_of_untouched (h : s.untouched = t.untouched) : t = { s with touched := t.touched } := by
  cases s
  cases t
  simp only [untouched, mk.injEq] at h ⊢
  simp [h]

/-! ### Requests that are not admitted -/

/-- A request that is not admitted can restart the countdown, and learns what is public. -/
theorem handleHTTP_of_not_admits {r : HTTPRequest} (h : site.admits r = false) (s : Session yaml lib) (fg : Foreground)
    (order : MapOrder) (faults : SaveFaults yaml) :
    (s.handleHTTP site r fg order faults).1.untouched = s.untouched ∧
      (s.handleHTTP site r fg order faults).2 = site.publicReply r := by
  rw [handleHTTP, Site.publicReply]
  cases hroute : entryMux.route r.method r.path with
  | redirect path => exact ⟨rfl, rfl⟩
  | methodNotAllowed allow => exact ⟨rfl, rfl⟩
  | notFound => exact ⟨rfl, rfl⟩
  | asterisk options => exact ⟨rfl, rfl⟩
  | handler entry =>
    cases entry with
    | api =>
      simp only [answerRouted, guarded]
      cases horigin : site.access.originAllowed r with
      | false => exact ⟨rfl, rfl⟩
      | true =>
        have htoken : site.access.tokenAllowed r = false := by simpa [Site.admits, hroute, horigin] using h
        rw [htoken]
        exact ⟨rfl, rfl⟩
    | index =>
      simp only [answerRouted, handleIndex]
      cases site.access.hostAllowed r.host <;> exact ⟨rfl, rfl⟩

/-! ### The countdown is read by nothing -/

section Touched
variable (site) (s : Session yaml lib) (b : Bool)

theorem touch_touched : ({ s with touched := b } : Session yaml lib).touch = s.touch := rfl

theorem handleHTTP_touched (r : HTTPRequest) (fg : Foreground) (order : MapOrder) (faults : SaveFaults yaml) :
    (({ s with touched := b } : Session yaml lib).handleHTTP site r fg order faults).1.untouched =
        (s.handleHTTP site r fg order faults).1.untouched ∧
      (({ s with touched := b } : Session yaml lib).handleHTTP site r fg order faults).2 =
        (s.handleHTTP site r fg order faults).2 := by
  rw [handleHTTP, handleHTTP]
  cases entryMux.route r.method r.path with
  | redirect path => exact ⟨rfl, rfl⟩
  | methodNotAllowed allow => exact ⟨rfl, rfl⟩
  | notFound => exact ⟨rfl, rfl⟩
  | asterisk options => exact ⟨rfl, rfl⟩
  | handler entry =>
    cases entry with
    | api =>
      simp only [answerRouted, guarded, touch_touched]
      split
      · exact ⟨rfl, rfl⟩
      · split <;> exact ⟨rfl, rfl⟩
    | index =>
      simp only [answerRouted, handleIndex]
      split <;> exact ⟨rfl, rfl⟩

theorem tick_touched (i : ℕ) (order : MapOrder) (writes : Bool) :
    (({ s with touched := b } : Session yaml lib).tick i order writes).1.untouched =
        (s.tick i order writes).1.untouched ∧
      (({ s with touched := b } : Session yaml lib).tick i order writes).2 = (s.tick i order writes).2 := by
  simp only [tick]
  split
  · split_ifs <;> exact ⟨rfl, rfl⟩
  · exact ⟨rfl, rfl⟩

theorem step_touched (e : Event yaml) :
    (step site { s with touched := b } e).1.untouched = (step site s e).1.untouched ∧
      (step site { s with touched := b } e).2 = (step site s e).2 := by
  cases e with
  | observe o => exact ⟨rfl, rfl⟩
  | request r fg order faults =>
    obtain ⟨hstate, hreply⟩ := handleHTTP_touched site s b r fg order faults
    exact ⟨hstate, congrArg Output.reply hreply⟩
  | tick i order writes => exact tick_touched s b i order writes
  | leave i => exact ⟨rfl, rfl⟩

end Touched

/-! ### Whole runs -/

theorem unwinds (site : Site) :
    Unwinds (step site) (fun s t : Session yaml lib => s.untouched = t.untouched) (Event.admitted site) where
  step_kept s t e _ hst := by
    obtain ⟨hstate, hanswer⟩ := step_touched site s t.touched e
    rw [← eq_of_untouched hst] at hstate hanswer
    exact ⟨hstate.symm, hanswer.symm⟩
  step_dropped s t e he hst := by
    cases e with
    | observe o => cases he
    | request r fg order faults => exact (handleHTTP_of_not_admits he s fg order faults).1.trans hst
    | tick i order writes => cases he
    | leave i => cases he

end Session

/-- The reply to a request that cannot reach the entry page does not depend on the token. -/
theorem Site.publicReply_token (site : Site) (token : String) {r : HTTPRequest}
    (h : site.access.hostAllowed r.host = false ∨ entryMux.route r.method r.path = .handler .api) :
    ({ site with access.token := token } : Site).publicReply r = site.publicReply r := by
  rw [publicReply, publicReply]
  cases hroute : entryMux.route r.method r.path with
  | redirect path => rfl
  | methodNotAllowed allow => rfl
  | notFound => rfl
  | asterisk options => rfl
  | handler entry =>
    cases entry with
    | api => rfl
    | index =>
      have hhost : site.access.hostAllowed r.host = false := by simpa [hroute] using h
      have hhost' : (Access.mk token site.access.allowedHosts).hostAllowed r.host = false := hhost
      simp only [answerRouted, hhost, hhost']
      rfl

/-- In every run of the interface, whatever else is observed, asked and streamed in between: the requests
that are not admitted change no other answer and no part of the session but its idle countdown, and each of
them gets an answer that is public. For a foreign host or a path of the API that answer says nothing about
the token. -/
theorem unadmitted_requests_interfere_with_nothing (site : Site) (s : Session yaml lib) (es : List (Event yaml)) :
    let step : Session yaml lib → Event yaml → Session yaml lib × Output := Session.step site
    (answers step s es).filter (fun p => p.1.admitted site) = answers step s (es.filter (Event.admitted site)) ∧
      (stateAfter step s es).untouched = (stateAfter step s (es.filter (Event.admitted site))).untouched ∧
      (answers step s es).filter (fun p => !p.1.admitted site) =
        (es.filter fun e => !e.admitted site).map (fun e => (e, e.publicAnswer site)) ∧
      ∀ token r, site.access.hostAllowed r.host = false ∨ entryMux.route r.method r.path = .handler .api →
        ({ site with access.token := token } : Site).publicReply r = site.publicReply r := by
  intro step
  obtain ⟨hanswers, hend⟩ := (Session.unwinds site).purge (rfl : s.untouched = s.untouched) es
  have hpublic (s : Session yaml lib) (e : Event yaml) (he : (!e.admitted site) = true) :
      (step s e).2 = e.publicAnswer site := by
    rw [Bool.not_eq_true'] at he
    cases e with
    | observe o => cases he
    | request r fg order faults => exact congrArg Output.reply (Session.handleHTTP_of_not_admits he s fg order faults).2
    | tick i order writes => cases he
    | leave i => cases he
  exact ⟨hanswers, hend, filter_answers_eq_map hpublic s es, fun token r => site.publicReply_token token⟩

/-! ### The requests of a session -/

/-- The request of the setup server that an event stands for. -/
def Event.call (site : Site) : Event yaml → Option (Request yaml)
  | .request r fg _ faults =>
    if site.admits r then
      match apiMux.route r.method r.path with
      | .handler .getConfig => some .getConfig
      | .handler .putConfig => (site.bodies.draft r.body).map .putConfig
      | .handler .preview => some (.preview fg)
      | .handler .save => some (.save faults)
      | _ => none
    else none
  | .observe _ | .tick .. | .leave _ => none

def Response.reply : Response → Reply
  | .state st => ⟨200, .state st⟩
  | .preview p => ⟨200, .preview p⟩
  | .saved answer => ⟨answer.status, .saved answer.toSaveResult⟩

def Server.answer (s : Server yaml lib) (r : Request yaml) : Server yaml lib × Response := ((s.handle r).2, (s.handle r).1)

namespace Session

theorem handleHTTP_of_admits {site : Site} {r : HTTPRequest} (h : site.admits r = true) (s : Session yaml lib)
    (fg : Foreground) (order : MapOrder) (faults : SaveFaults yaml) :
    s.handleHTTP site r fg order faults = answerRouted (apiMux.route r.method r.path)
      (fun reply => (s.touch, reply)) (s.touch.handleAPI site r fg order faults) := by
  simp only [Site.admits, Bool.and_eq_true, decide_eq_true_eq] at h
  obtain ⟨⟨hroute, horigin⟩, htoken⟩ := h
  rw [handleHTTP, hroute, answerRouted, guarded, horigin, htoken]
  rfl

theorem server_of_untouched {s t : Session yaml lib} (h : s.untouched = t.untouched) : s.server = t.server :=
  congrArg (fun s => s.server) h

/-- An admitted request is a call of the setup server, or does not reach it. -/
theorem handleHTTP_call {site : Site} {r : HTTPRequest} (h : site.admits r = true) (s : Session yaml lib)
    (fg : Foreground) (order : MapOrder) (faults : SaveFaults yaml) :
    match Event.call site (.request r fg order faults) with
    | some q => (s.handleHTTP site r fg order faults).1.server = (s.server.handle q).2 ∧
        (s.handleHTTP site r fg order faults).2 = (s.server.handle q).1.reply
    | none => (s.handleHTTP site r fg order faults).1.server = s.server := by
  rw [handleHTTP_of_admits h, Event.call, if_pos h]
  cases apiMux.route r.method r.path with
  | redirect path => rfl
  | methodNotAllowed allow => rfl
  | notFound => rfl
  | asterisk options => rfl
  | handler route =>
    cases route with
    | getConfig => exact ⟨rfl, rfl⟩
    | preview => exact ⟨rfl, rfl⟩
    | save => exact ⟨rfl, rfl⟩
    | catalog =>
      simp only [answerRouted, handleAPI, handleCatalog]
      split <;> rfl
    | quit => rfl
    | putConfig =>
      simp only [answerRouted, handleAPI, handlePutConfig]
      cases site.bodies.draft r.body with
      | none => rfl
      | some draft => exact ⟨rfl, rfl⟩
    | regexTest =>
      simp only [answerRouted, handleAPI, handleRegexTest]
      split <;> rfl
    | regexSuggest =>
      simp only [answerRouted, handleAPI, handleRegexSuggest]
      split <;> rfl

theorem tick_server (s : Session yaml lib) (i : ℕ) (order : MapOrder) (writes : Bool) :
    (s.tick i order writes).1.server = s.server := by
  simp only [tick]
  split
  · split_ifs <;> rfl
  · rfl

theorem projects (site : Site) :
    Projects (step site) Server.answer (Session.server : Session yaml lib → Server yaml lib) (Event.call site)
      (fun response => .reply response.reply) where
  step_call s e q hq := by
    cases e with
    | observe o => cases hq
    | tick i order writes => cases hq
    | leave i => cases hq
    | request r fg order faults =>
      have hadmits : site.admits r = true := by
        by_contra hnot
        rw [Event.call, if_neg hnot] at hq
        cases hq
      have hcall := handleHTTP_call hadmits s fg order faults
      rw [hq] at hcall
      exact ⟨hcall.1, congrArg Output.reply hcall.2⟩
  step_other s e hq := by
    cases e with
    | observe o => rw [step]
    | tick i order writes => rw [step, tick_server]
    | leave i => rw [step]
    | request r fg order faults =>
      rw [step]
      cases hadmits : site.admits r with
      | false => exact server_of_untouched (handleHTTP_of_not_admits hadmits s fg order faults).1
      | true =>
        have hcall := handleHTTP_call hadmits s fg order faults
        rw [hq] at hcall
        exact hcall

end Session

/-- The interface refines the setup server. In every run, whatever file operations fail, the draft, the mapper
and the disk are what a session of the admitted requests makes of them, one after the other, and these requests
get the responses of that session. -/
theorem interface_refines_server (site : Site) (s : Session yaml lib) (es : List (Event yaml)) :
    let step : Session yaml lib → Event yaml → Session yaml lib × Output := Session.step site
    (stateAfter step s es).server = s.server.after (es.filterMap (Event.call site)) ∧
      (answers step s es).filterMap (fun p => (p.1.call site).map fun q => (q, p.2)) =
        (answers Server.answer s.server (es.filterMap (Event.call site))).map fun p => (p.1, .reply p.2.reply) :=
  (Session.projects site).run s es

end CyberstalkMe.Setup
