import CyberstalkMe.Web.Session
import CyberstalkMe.Web.WireAgreement
import CyberstalkMe.Shared.Text
import CyberstalkMe.Foundations.EventStream

/-! # The session as text

The session with the bodies of its responses as texts: the stream handler writes server-sent events,
they arrive in pieces of any length, and the event source and the guards of the page read them. It
refines the session in which the page gets the server's records.
-/
namespace CyberstalkMe.Web

open Go Shared Store Foundations Api EventStream

/-! ### What the server writes -/

def helloText : List Char := "event: ready\ndata: {}\n\n".toList

/-- One event. One that cannot be encoded is left out. -/
def eventText (ev : Event) : List Char :=
  match marshalEvent ev with
  | none => []
  | some j => ['d', 'a', 't', 'a', ':', ' '] ++ text j ++ ['\n', '\n']

/-- The body of a snapshot, which is empty when it cannot be encoded. -/
def snapshotText (devices : List DeviceState) : List Char :=
  match marshalStates (.of devices) with
  | none => []
  | some j => text j ++ ['\n']

/-! ### What the page makes of it -/

/-- `parseStreamEvent`. -/
def parseStreamEventText (raw : List Char) : Option Contract.StreamEvent :=
  (parseJSON raw).bind fun data =>
    if !Contract.isRecord (some data) then none
    else if Json.readString (Json.field "type" (some data)) ≠ some "update" ∧
        Json.readString (Json.field "type" (some data)) ≠ some "offline" then none
    else if !Contract.isDeviceState (Json.field "device" (some data)) then none
    else Contract.StreamEvent.read (some data)

/-- `parseSnapshot` of the body of a response. -/
def parseSnapshotText (raw : List Char) : Option (Option (List Contract.DeviceState)) :=
  (parseJSON raw).map fun value =>
    (Contract.parseSnapshot value).bind fun value => Json.readArray Contract.DeviceState.read (some value)

/-- The hook's state, with the values of the page's own type. -/
structure TextPage where
  devices : List Contract.DeviceState
  connection : ConnectionState
  error : Option String
  connectedOnce : Bool

namespace TextPage

def initial : TextPage := ⟨[], .connecting, none, false⟩

variable (localeCompare : String → String → ℤ)

def sortDevices (devices : List Contract.DeviceState) : List Contract.DeviceState :=
  devices.insertionSort fun a b => localeCompare a.deviceID b.deviceID ≤ 0

def upsert (devices : List Contract.DeviceState) (next : Contract.DeviceState) : List Contract.DeviceState :=
  match devices.findIdx? fun ds => ds.deviceID = next.deviceID with
  | none => sortDevices localeCompare (devices ++ [next])
  | some index => devices.set index next

def onOpen (p : TextPage) : TextPage × Bool :=
  ({ p with connection := .live, error := none, connectedOnce := true }, p.connectedOnce)

/-- `source.onmessage`, which only the events without a name reach. -/
def onMessage (p : TextPage) (m : Message) : TextPage :=
  if m.event = defaultEvent then
    match parseStreamEventText m.data with
    | none => p
    | some ev => { p with devices := upsert localeCompare p.devices ev.device }
  else p

def onError (p : TextPage) : TextPage := { p with connection := .reconnecting }

/-- A response to the snapshot request. A body that is not JSON is an error, one that the guard rejects
changes nothing. -/
def onSnapshot (p : TextPage) (body : List Char) : TextPage :=
  match parseSnapshotText body with
  | none => { p with error := some "拉取设备快照失败" }
  | some none => p
  | some (some devices) => { p with devices := sortDevices localeCompare devices, error := none }

def onSnapshotError (p : TextPage) : TextPage := { p with error := some "拉取设备快照失败" }

end TextPage

/-- The session with what is written and has not arrived, and the event source. -/
structure TextSession where
  server : Concurrent.Process
  page : TextPage
  conn : Conn
  body : List Char
  reader : Reader
  fetches : List Fetch
  nextChan : ℕ

namespace TextSession

def hub (s : TextSession) : Hub := s.server.srv.hub

def setHub (s : TextSession) (hub : Hub) : TextSession :=
  { s with server := { s.server with srv := { s.server.srv with hub } } }

def start (db : DB) (clock : Time) : TextSession where
  server := .start db clock
  page := .initial
  conn := .closed
  body := []
  reader := .start
  fetches := [.requested]
  nextChan := 0

end TextSession

inductive TextAction where
  | server (a : Concurrent.Action)
  | connect
  | refuse
  | opens
  | forward
  | arrive (n : ℕ)
  | lose
  | leave (ch : ℕ)
  | answer (i : ℕ) (fails : Bool)
  | receive (i : ℕ)
  | reject (i : ℕ)

def textStep (cfg : Config) (localeCompare : String → String → ℤ) (s : TextSession) :
    TextAction → Option TextSession
  | .server a => (Concurrent.step cfg s.server a).map fun server => { s with server }
  | .connect =>
    match s.conn with
    | .closed =>
      let hub := (s.hub.makeChan s.nextChan 16).subscribe s.nextChan
      some { s.setHub hub with
        conn := .subscribed s.nextChan
        body := helloText
        reader := .start
        nextChan := s.nextChan + 1 }
    | _ => none
  | .refuse =>
    match s.conn with
    | .closed => some { s with page := s.page.onError }
    | _ => none
  | .opens =>
    match s.conn with
    | .subscribed ch =>
      let (page, reload) := s.page.onOpen
      some { s with
        page
        conn := .opened ch
        fetches := s.fetches ++ if reload then [.requested] else [] }
    | _ => none
  -- the stream handler takes an event from its channel and writes it
  | .forward =>
    s.conn.chan.bind fun ch => (s.hub.receive ch).map fun out =>
      { s.setHub out.2 with body := s.body ++ eventText out.1 }
  -- some characters arrive, and with them any number of messages
  | .arrive n =>
    match s.conn with
    | .opened _ =>
      let out := s.reader.read (s.body.take n)
      some { s with
        page := out.2.foldl (TextPage.onMessage localeCompare) s.page
        body := s.body.drop n
        reader := out.1 }
    | _ => none
  | .lose =>
    match s.conn with
    | .closed => none
    | _ => some { s with page := s.page.onError, conn := .closed, body := [], reader := .start }
  | .leave ch =>
    if s.conn.chan = some ch then none else some (s.setHub (s.hub.unsubscribe ch))
  | .answer i fails =>
    match s.fetches[i]? with
    | some .requested =>
      let response := snapshot cfg s.server.srv.db s.server.clock fails
      some { s with fetches := s.fetches.set i (.answered s.hub.history.length response) }
    | _ => none
  | .receive i =>
    match s.fetches[i]? with
    | some (.answered _ (.ok devices)) =>
      some { s with
        page := s.page.onSnapshot localeCompare (snapshotText devices)
        fetches := s.fetches.eraseIdx i }
    | some (.answered _ (.error _)) =>
      some { s with page := s.page.onSnapshotError, fetches := s.fetches.eraseIdx i }
    | _ => none
  | .reject i =>
    if i < s.fetches.length then
      some { s with page := s.page.onSnapshotError, fetches := s.fetches.eraseIdx i }
    else none

/-! ### Texts are read back -/

theorem parseStreamEventText_text (j : Json ℤ) :
    parseStreamEventText (text j) =
      (Contract.parseStreamEvent (some j)).bind fun value => Contract.StreamEvent.read (some value) := by
  rw [parseStreamEventText, parseJSON_text_self, Option.bind_some, ← Contract.parse, Contract.parseStreamEvent,
    Option.map_some]
  simp only
  split_ifs <;> rfl

/-- An event that can be encoded is read back. -/
theorem parseStreamEventText_of_marshals {ev : Event} {j : Json ℤ} (h : marshalEvent ev = some j) :
    parseStreamEventText (text j) = some (.of Contract.nearest ev) := by
  obtain ⟨value, hvalue, hread⟩ := Contract.event_agrees ev j h
  rw [parseStreamEventText_text, hvalue, Option.bind_some, hread]

theorem parseSnapshotText_of_marshals {devices : List DeviceState} (h : (marshalStates (.of devices)).isSome) :
    parseSnapshotText (snapshotText devices) = some (some (devices.map (.of Contract.nearest))) := by
  obtain ⟨j, hj⟩ := Option.isSome_iff_exists.mp h
  obtain ⟨value, hvalue, hread⟩ := Contract.snapshot_agrees devices j hj
  rw [parseSnapshotText, snapshotText, hj]
  simp only
  rw [parseJSON_text j (by decide), ← Contract.parse, Option.map_some, hvalue, Option.bind_some, hread]

theorem read_eventText {ev : Event} {j : Json ℤ} (h : marshalEvent ev = some j) :
    Reader.start.read (eventText ev) = (.start, [⟨defaultEvent, text j⟩]) := by
  have htext : eventText ev = ['d', 'a', 't', 'a', ':', ' '] ++ text j ++ ['\n', '\n'] := by
    delta eventText
    rw [h]
  rw [htext]
  exact Reader.read_data (newline_not_mem_text j).1 (newline_not_mem_text j).2

theorem read_helloText : Reader.start.read helloText = (.start, [⟨"ready".toList, "\x7b\x7d".toList⟩]) := by
  decide +kernel

/-! ### The page's values -/

/-- The page of the records as the page has them. -/
def TextPage.of (p : Page) : TextPage :=
  ⟨p.devices.map (.of Contract.nearest), p.connection, p.error, p.connectedOnce⟩

section Page
variable {localeCompare : String → String → ℤ}

theorem TextPage.sortDevices_map (devices : List DeviceState) :
    sortDevices localeCompare (devices.map (.of Contract.nearest)) =
      (Web.sortDevices localeCompare devices).map (.of Contract.nearest) := by
  symm
  apply List.map_insertionSort
  intro a _ b _
  rfl

theorem TextPage.upsert_map (devices : List DeviceState) (next : DeviceState) :
    upsert localeCompare (devices.map (.of Contract.nearest)) (.of Contract.nearest next) =
      (Web.upsert localeCompare devices next).map (.of Contract.nearest) := by
  have hfind : (devices.map (Contract.DeviceState.of Contract.nearest)).findIdx? (fun ds =>
      ds.deviceID = (Contract.DeviceState.of Contract.nearest next).deviceID) =
      devices.findIdx? fun ds => ds.deviceID = next.deviceID := List.findIdx?_map
  rw [upsert, hfind, Web.upsert]
  cases devices.findIdx? fun ds => ds.deviceID = next.deviceID with
  | none => exact (sortDevices_map (devices ++ [next])) ▸ by rw [List.map_append]; rfl
  | some index => exact List.map_set.symm

theorem TextPage.onMessage_of {ev : Event} {j : Json ℤ} (h : marshalEvent ev = some j) (p : Page) :
    (TextPage.of p).onMessage localeCompare ⟨defaultEvent, text j⟩ = .of (p.onMessage localeCompare ev) := by
  rw [onMessage, if_pos rfl, parseStreamEventText_of_marshals h]
  simp only [TextPage.of, Page.onMessage, ← upsert_map]
  rfl

theorem TextPage.onSnapshot_of {devices : List DeviceState} (h : (marshalStates (.of devices)).isSome) (p : Page) :
    (TextPage.of p).onSnapshot localeCompare (snapshotText devices) = .of (p.onSnapshot localeCompare devices) := by
  rw [onSnapshot, parseSnapshotText_of_marshals h]
  simp only [TextPage.of, Page.onSnapshot, ← sortDevices_map]

end Page

/-! ### What is on its way -/

def IsMessage (ev : Event) (m : Message) : Prop := ∃ j, marshalEvent ev = some j ∧ m = ⟨defaultEvent, text j⟩

/-- The messages that reach `onmessage` are those of the events. -/
def AreMessages (events : List Event) (msgs : List Message) : Prop :=
  List.Forall₂ IsMessage events (msgs.filter fun m => m.event = defaultEvent)

/-- The text on its way, to this reader, carries these events. -/
def Carries (r : Reader) (body : List Char) (wire : List Event) : Prop :=
  ∃ msgs, r.read body = (.start, msgs) ∧ AreMessages wire msgs

theorem carries_nil : Carries .start [] [] := ⟨[], rfl, .nil⟩

theorem carries_helloText : Carries .start helloText [] := by
  refine ⟨_, read_helloText, ?_⟩
  rw [AreMessages, List.filter_cons_of_neg (by decide), List.filter_nil]
  exact .nil

/-- An event is written behind what is on its way. -/
theorem Carries.append {r : Reader} {body : List Char} {wire : List Event} (h : Carries r body wire)
    {ev : Event} (hev : (marshalEvent ev).isSome) : Carries r (body ++ eventText ev) (wire ++ [ev]) := by
  obtain ⟨j, hj⟩ := Option.isSome_iff_exists.mp hev
  obtain ⟨msgs, hread, hmsgs⟩ := h
  refine ⟨msgs ++ [⟨defaultEvent, text j⟩], ?_, ?_⟩
  · rw [Reader.read_append, hread, read_eventText hj]
  · rw [AreMessages, List.filter_append]
    apply List.rel_append hmsgs
    rw [List.filter_cons_of_pos (by simp), List.filter_nil]
    exact .cons ⟨j, hj, rfl⟩ .nil

theorem Carries.split {r : Reader} {body : List Char} {wire : List Event} (h : Carries r body wire) (n : ℕ) :
    ∃ first others, wire = first ++ others ∧ Carries (r.read (body.take n)).1 (body.drop n) others ∧
      AreMessages first (r.read (body.take n)).2 := by
  obtain ⟨msgs, hread, hmsgs⟩ := h
  rw [← List.take_append_drop n body, Reader.read_append, Prod.mk.injEq] at hread
  obtain ⟨hend, rfl⟩ := hread
  rw [AreMessages, List.filter_append] at hmsgs
  have hfirst := List.forall₂_take_append _ _ _ hmsgs
  have hothers := List.forall₂_drop_append _ _ _ hmsgs
  exact ⟨_, _, (List.take_append_drop _ wire).symm, ⟨_, Prod.ext hend rfl, hothers⟩, hfirst⟩

theorem TextPage.foldl_onMessage {localeCompare : String → String → ℤ} {msgs : List Message} {events : List Event}
    (h : AreMessages events msgs) (p : Page) :
    msgs.foldl (onMessage localeCompare) (.of p) = .of (events.foldl (Page.onMessage localeCompare) p) := by
  induction msgs generalizing events p with
  | nil =>
    cases h
    rfl
  | cons m msgs ih =>
    by_cases hm : m.event = defaultEvent
    · rw [AreMessages, List.filter_cons_of_pos (by simpa using hm)] at h
      cases h with
      | cons hev hevs =>
        obtain ⟨j, hj, rfl⟩ := hev
        rw [List.foldl_cons, List.foldl_cons, onMessage_of hj, ih hevs]
    · rw [AreMessages, List.filter_cons_of_neg (by simpa using hm)] at h
      rw [List.foldl_cons, onMessage, if_neg hm, ih h]

/-! ### The text session refines the session -/

structure Refines (s : TextSession) (p : Session) : Prop where
  server : s.server = p.server
  page : s.page = .of p.page
  conn : s.conn = p.conn
  carries : Carries s.reader s.body p.wire
  idle : p.conn = .closed → p.wire = []
  fetches : s.fetches = p.fetches
  nextChan : s.nextChan = p.nextChan

theorem refines_start (db : DB) (clock : Time) : Refines (.start db clock) (.start db clock) where
  server := rfl
  page := rfl
  conn := rfl
  carries := carries_nil
  idle _ := rfl
  fetches := rfl
  nextChan := rfl

/-- The devices of a snapshot in flight. -/
def Fetch.devices : Fetch → Option (List DeviceState)
  | .answered _ (.ok devices) => some devices
  | _ => none

/-- What the server is about to write can be encoded. -/
def Encodes (s : TextSession) : TextAction → Prop
  | .forward => ∀ out ∈ s.conn.chan.bind s.hub.receive, (marshalEvent out.1).isSome
  | .receive i => ∀ devices ∈ s.fetches[i]?.bind Fetch.devices, (marshalStates (.of devices)).isSome
  | _ => True

instance (s : TextSession) : ∀ a, Decidable (Encodes s a)
  | .forward =>
    inferInstanceAs (Decidable (∀ out ∈ s.conn.chan.bind s.hub.receive, (marshalEvent out.1).isSome))
  | .receive i =>
    inferInstanceAs (Decidable (∀ devices ∈ s.fetches[i]?.bind Fetch.devices, (marshalStates (.of devices)).isSome))
  | .server _ | .connect | .refuse | .opens | .arrive _ | .lose | .leave _ | .answer _ _ | .reject _ =>
    isTrue trivial

section Run
variable {cfg : Config} {localeCompare : String → String → ℤ}

/-- Some of the messages that are on their way are delivered. -/
theorem reaches_deliver {p : Session} {ch : ℕ} (hconn : p.conn = .opened ch) {first others : List Event}
    (hwire : p.wire = first ++ others) :
    Reaches (step cfg localeCompare) (fun _ => True) p
      { p with
        page := first.foldl (Page.onMessage localeCompare) p.page
        wire := others
        seen := p.seen + first.length } := by
  induction first generalizing p with
  | nil =>
    obtain rfl : p.wire = others := hwire
    exact .refl p
  | cons ev first ih =>
    have hstep : step cfg localeCompare p .deliver = some
        { p with page := p.page.onMessage localeCompare ev, wire := first ++ others, seen := p.seen + 1 } := by
      rw [step, hconn, hwire]
      rfl
    have hrest := ih (p := { p with
      page := p.page.onMessage localeCompare ev, wire := first ++ others, seen := p.seen + 1 }) hconn rfl
    rw [List.foldl_cons, List.length_cons, Nat.add_comm first.length, ← Nat.add_assoc]
    exact ((Reaches.refl p).tail trivial hstep).trans hrest

theorem refines_step {s t : TextSession} {p : Session} {a : TextAction} (h : Refines s p) (henc : Encodes s a)
    (hstep : textStep cfg localeCompare s a = some t) :
    ∃ q, Reaches (step cfg localeCompare) (fun _ => True) p q ∧ Refines t q := by
  obtain ⟨server, page, conn, body, reader, fetches, nextChan⟩ := s
  obtain ⟨hserver, hpage, hconn, hcarries, hidle, hfetches, hnext⟩ := h
  simp only at hserver hpage hconn hcarries hfetches hnext
  subst hserver hpage hconn hfetches hnext
  have single {a : Action} {q : Session} (hq : step cfg localeCompare p a = some q) :
      Reaches (step cfg localeCompare) (fun _ => True) p q := (Reaches.refl p).tail trivial hq
  cases a with
  | server a =>
    rw [textStep, Option.map_eq_some_iff] at hstep
    obtain ⟨server, hstep, rfl⟩ := hstep
    refine ⟨{ p with server }, single (a := .server a) ?_, rfl, rfl, rfl, hcarries, hidle, rfl, rfl⟩
    rw [step, hstep, Option.map_some]
  | connect =>
    rw [textStep] at hstep
    split at hstep
    · rename_i hclosed
      cases hstep
      have hstep : step cfg localeCompare p .connect = some
          { p.setHub ((p.hub.makeChan p.nextChan 16).subscribe p.nextChan) with
            conn := .subscribed p.nextChan
            nextChan := p.nextChan + 1
            seen := p.history.length } := by
        simp only at hclosed
        rw [step, hclosed]
      refine ⟨_, single hstep, rfl, rfl, rfl, ?_, ?_, rfl, rfl⟩
      · exact (hidle hclosed).symm ▸ carries_helloText
      · intro hstill
        cases hstill
    · cases hstep
  | refuse =>
    rw [textStep] at hstep
    split at hstep
    · rename_i hclosed
      cases hstep
      have hstep : step cfg localeCompare p .refuse = some { p with page := p.page.onError } := by
        simp only at hclosed
        rw [step, hclosed]
      exact ⟨_, single hstep, rfl, rfl, rfl, hcarries, hidle, rfl, rfl⟩
    · cases hstep
  | opens =>
    rw [textStep] at hstep
    split at hstep
    · rename_i ch hconn
      cases hstep
      have hstep : step cfg localeCompare p .opens = some
          { p with
            page := p.page.onOpen.1
            conn := .opened ch
            fetches := p.fetches ++ if p.page.connectedOnce then [.requested] else [] } := by
        simp only at hconn
        rw [step, hconn]
        rfl
      refine ⟨_, single hstep, rfl, rfl, rfl, hcarries, ?_, rfl, rfl⟩
      intro hstill
      cases hstill
    · cases hstep
  | forward =>
    obtain ⟨ch, hconn, hrest⟩ := Option.bind_eq_some_iff.mp hstep
    obtain ⟨⟨ev, hub⟩, hreceive, rfl⟩ := Option.map_eq_some_iff.mp hrest
    have hstep : step cfg localeCompare p .forward = some { p.setHub hub with wire := p.wire ++ [ev] } := by
      rw [step, hconn, Option.bind_some]
      exact Option.map_eq_some_iff.mpr ⟨(ev, hub), hreceive, rfl⟩
    have hsent : (ev, hub) ∈ p.conn.chan.bind p.hub.receive := Option.bind_eq_some_iff.mpr ⟨ch, hconn, hreceive⟩
    refine ⟨_, single hstep, rfl, rfl, rfl, hcarries.append (henc (ev, hub) hsent), ?_, rfl, rfl⟩
    intro hclosed
    rw [show p.conn = .closed from hclosed] at hconn
    cases hconn
  | arrive n =>
    rw [textStep] at hstep
    split at hstep
    · rename_i ch hconn
      cases hstep
      obtain ⟨first, others, hwire, hothers, hfirst⟩ := hcarries.split n
      refine ⟨_, reaches_deliver hconn hwire, rfl, ?_, rfl, hothers, ?_, rfl, rfl⟩
      · exact TextPage.foldl_onMessage hfirst p.page
      · intro hclosed
        cases hconn.symm.trans hclosed
    · cases hstep
  | lose =>
    rw [textStep] at hstep
    split at hstep
    · cases hstep
    · rename_i hopen
      cases hstep
      have hstep : step cfg localeCompare p .lose = some
          { p with page := p.page.onError, conn := .closed, wire := [] } := by
        rw [step]
        split
        · exact absurd ‹_› hopen
        · rfl
      exact ⟨_, single hstep, rfl, rfl, rfl, carries_nil, fun _ => rfl, rfl, rfl⟩
  | leave ch =>
    rw [textStep] at hstep
    split_ifs at hstep with hchan
    cases hstep
    have hstep : step cfg localeCompare p (.leave ch) = some (p.setHub (p.hub.unsubscribe ch)) := by
      rw [step, if_neg hchan]
    exact ⟨_, single hstep, rfl, rfl, rfl, hcarries, hidle, rfl, rfl⟩
  | answer i fails =>
    rw [textStep] at hstep
    split at hstep
    · rename_i hfetch
      cases hstep
      have hstep : step cfg localeCompare p (.answer i fails) = some
          { p with fetches := p.fetches.set i (.answered p.history.length
              (snapshot cfg p.server.srv.db p.server.clock fails)) } := by
        simp only at hfetch
        rw [step, hfetch]
      exact ⟨_, single hstep, rfl, rfl, rfl, hcarries, hidle, rfl, rfl⟩
    · cases hstep
  | receive i =>
    rw [textStep] at hstep
    split at hstep
    · rename_i readAt devices hfetch
      cases hstep
      have hstep : step cfg localeCompare p (.receive i) = some
          { p with
            page := p.page.onSnapshot localeCompare devices
            fetches := p.fetches.eraseIdx i
            base := some (readAt, devices) } := by
        simp only at hfetch
        rw [step, hfetch]
      refine ⟨_, single hstep, rfl, ?_, rfl, hcarries, hidle, rfl, rfl⟩
      have hsent : devices ∈ p.fetches[i]?.bind Fetch.devices := Option.bind_eq_some_iff.mpr ⟨_, hfetch, rfl⟩
      exact TextPage.onSnapshot_of (henc devices hsent) p.page
    · rename_i readAt e hfetch
      cases hstep
      have hstep : step cfg localeCompare p (.receive i) = some
          { p with page := p.page.onSnapshotError, fetches := p.fetches.eraseIdx i } := by
        simp only at hfetch
        rw [step, hfetch]
      exact ⟨_, single hstep, rfl, rfl, rfl, hcarries, hidle, rfl, rfl⟩
    · cases hstep
  | reject i =>
    rw [textStep] at hstep
    split_ifs at hstep with hi
    cases hstep
    have hstep : step cfg localeCompare p (.reject i) = some
        { p with page := p.page.onSnapshotError, fetches := p.fetches.eraseIdx i } := by
      rw [step, if_pos hi]
    exact ⟨_, single hstep, rfl, rfl, rfl, hcarries, hidle, rfl, rfl⟩

theorem refines_execute {s t : TextSession} {p : Session} {as : List TextAction} (h : Refines s p)
    (henc : Meets (textStep cfg localeCompare) Encodes s as)
    (he : execute (textStep cfg localeCompare) s as = some t) :
    ∃ q, Reaches (step cfg localeCompare) (fun _ => True) p q ∧ Refines t q := by
  have hinvariant (s t : TextSession) (a : TextAction)
      (hs : ∃ q, Reaches (step cfg localeCompare) (fun _ => True) p q ∧ Refines s q) (henc : Encodes s a)
      (hstep : textStep cfg localeCompare s a = some t) :
      ∃ q, Reaches (step cfg localeCompare) (fun _ => True) p q ∧ Refines t q := by
    obtain ⟨q, hpq, hq⟩ := hs
    obtain ⟨r, hqr, hr⟩ := refines_step hq henc hstep
    exact ⟨r, hpq.trans hqr, hr⟩
  exact execute_invariant (fun s a t => hinvariant s t a) ⟨p, .refl p, h⟩ henc he

/-- The text session refines the session. What a page shows that reads the text of its responses, in
whatever pieces it arrives, is what a page shows that gets the server's records; and when the whole
text has arrived, all the events that were written have been delivered. -/
theorem text_session_refines (cfg : Config) (localeCompare : String → String → ℤ) (db : DB) (clock : Time)
    (as : List TextAction) (t : TextSession)
    (henc : Meets (textStep cfg localeCompare) Encodes (.start db clock) as)
    (he : execute (textStep cfg localeCompare) (.start db clock) as = some t) :
    ∃ bs q, execute (step cfg localeCompare) (.start db clock) bs = some q ∧
      t.server = q.server ∧ t.conn = q.conn ∧ t.fetches = q.fetches ∧ t.page = .of q.page ∧
      (t.body = [] → q.wire = []) := by
  obtain ⟨q, ⟨bs, -, hbs⟩, hq⟩ := refines_execute (refines_start db clock) henc he
  refine ⟨bs, q, hbs, hq.server, hq.conn, hq.fetches, hq.page, fun hbody => ?_⟩
  obtain ⟨msgs, hread, hmsgs⟩ := hq.carries
  rw [hbody, Reader.read_nil, Prod.mk.injEq] at hread
  rw [← hread.2, AreMessages, List.filter_nil] at hmsgs
  exact List.forall₂_nil_right_iff.mp hmsgs

end Run

namespace Sample
open Api.Sample Concurrent.Sample

def byCodePoint (a b : String) : ℤ := if a = b then 0 else if a < b then -1 else 1

/-- Two reports, the second while the stream is open; its event arrives in two pieces, and the snapshot
after it. -/
def inPieces : List TextAction :=
  (.tick (clock 0) :: arrive 0 "Code" "" ++ steps 0 5).map .server ++ [.connect, .opens] ++
    (.tick (clock 10) :: arrive 1 "Mail" "a \"b\" <c>" ++ steps 1 5).map .server ++
    [.forward, .arrive 30, .arrive 500, .answer 0 false, .receive 0]

end Sample

open Api.Sample Sample in
theorem text_session_refines_sample :
    ∃ t bs q, execute (textStep config byCodePoint) (.start db (clock 0)) inPieces = some t ∧
      execute (step config byCodePoint) (.start db (clock 0)) bs = some q ∧ t.page = .of q.page ∧
      q.wire = [] ∧ t.page.devices.map (fun d => (d.deviceID, d.activity.description)) = [("d1", "a \"b\" <c>")] := by
  have hrun : (execute (textStep config byCodePoint) (.start db (clock 0)) inPieces).any (fun t =>
      decide (t.body = [] ∧ t.page.devices.map (fun d => (d.deviceID, d.activity.description)) =
        [("d1", "a \"b\" <c>")])) = true := by
    decide +kernel
  obtain ⟨t, ht, hend⟩ := (Option.any_eq_true _ _).mp hrun
  obtain ⟨hbody, hshown⟩ := of_decide_eq_true hend
  obtain ⟨bs, q, hq, -, -, -, hpage, hwire⟩ :=
    text_session_refines config byCodePoint db (clock 0) inPieces t (by decide +kernel) ht
  exact ⟨t, bs, q, ht, hq, hpage, hwire hbody, hshown⟩

end CyberstalkMe.Web
