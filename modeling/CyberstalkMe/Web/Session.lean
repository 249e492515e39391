import CyberstalkMe.Web.Page
import CyberstalkMe.Api.Snapshot
import CyberstalkMe.Concurrent.Records

/-! # A page and its server

One page runs `useDeviceStream` against the process. Its stream is one channel of
the hub, the stream handler that empties it and the connection that carries the
messages in order. Snapshot requests travel apart from the stream, and each takes
as long as it takes.
-/
namespace CyberstalkMe.Web

open Go Shared Store Foundations Api

/-- The stream of the page. Its handler subscribes first; later the page sees it open. -/
inductive Conn where
  | closed
  | subscribed (ch : ℕ)
  | opened (ch : ℕ)
deriving DecidableEq, Repr

/-- The channel of the stream. -/
def Conn.chan : Conn → Option ℕ
  | .closed => none
  | .subscribed ch | .opened ch => some ch

/-- A snapshot request in flight. `readAt` counts the events broadcast before the store was read. -/
inductive Fetch where
  | requested
  | answered (readAt : ℕ) (response : Except StoreError (List DeviceState))

/-- The process, the page and what is between them: the messages of the stream handler that the page
has not seen, and the snapshot requests. Two records are read by no step: `seen` counts the events
broadcast before the next message of this connection, and `base` is the snapshot that was applied
last, with the events broadcast before its read. -/
structure Session where
  server : Concurrent.Process
  page : Page
  conn : Conn
  wire : List Event
  fetches : List Fetch
  nextChan : ℕ
  seen : ℕ
  base : Option (ℕ × List DeviceState)

def Session.hub (s : Session) : Hub := s.server.srv.hub

def Session.history (s : Session) : List Event := s.hub.history

def Session.setHub (s : Session) (hub : Hub) : Session :=
  { s with server := { s.server with srv := { s.server.srv with hub } } }

/-- The messages of the stream that the page has not seen. -/
def Session.pending (s : Session) (ch : ℕ) : List Event := s.wire ++ (s.hub.chans ch).buffer

/-- The page is mounted: the first snapshot is requested and the stream is not open. -/
def Session.start (db : DB) (clock : Time) : Session where
  server := .start db clock
  page := .initial
  conn := .closed
  wire := []
  fetches := [.requested]
  nextChan := 0
  seen := 0
  base := none

inductive Action where
  | server (a : Concurrent.Action)
  | connect
  | refuse
  | opens
  | forward
  | deliver
  | lose
  | leave (ch : ℕ)
  | answer (i : ℕ) (fails : Bool)
  | receive (i : ℕ)
  | reject (i : ℕ)
deriving DecidableEq, Repr

section Step
variable (cfg : Config) (localeCompare : String → String → ℤ)

def step (s : Session) : Action → Option Session
  | .server a => (Concurrent.step cfg s.server a).map fun server => { s with server }
  -- the stream handler makes its channel and subscribes
  | .connect =>
    match s.conn with
    | .closed =>
      let hub := (s.hub.makeChan s.nextChan 16).subscribe s.nextChan
      some { s.setHub hub with
        conn := .subscribed s.nextChan
        nextChan := s.nextChan + 1
        seen := s.history.length }
    | _ => none
  | .refuse =>
    match s.conn with
    | .closed => some { s with page := s.page.onError }
    | _ => none
  | .opens =>
    match s.conn with
    | .subscribed ch =>
      let (page, reload) := s.page.onOpen
      some { s with
        page
        conn := .opened ch
        fetches := s.fetches ++ if reload then [.requested] else [] }
    | _ => none
  -- the stream handler takes an event from its channel and writes it
  | .forward =>
    s.conn.chan.bind fun ch => (s.hub.receive ch).map fun out =>
      { s.setHub out.2 with wire := s.wire ++ [out.1] }
  | .deliver =>
    match s.conn, s.wire with
    | .opened _, ev :: wire =>
      some { s with page := s.page.onMessage localeCompare ev, wire, seen := s.seen + 1 }
    | _, _ => none
  | .lose =>
    match s.conn with
    | .closed => none
    | _ => some { s with page := s.page.onError, conn := .closed, wire := [] }
  -- the handler of a stream that is gone ends
  | .leave ch =>
    if s.conn.chan = some ch then none else some (s.setHub (s.hub.unsubscribe ch))
  | .answer i fails =>
    match s.fetches[i]? with
    | some .requested =>
      let response := snapshot cfg s.server.srv.db s.server.clock fails
      some { s with fetches := s.fetches.set i (.answered s.history.length response) }
    | _ => none
  | .receive i =>
    match s.fetches[i]? with
    | some (.answered readAt (.ok devices)) =>
      some { s with
        page := s.page.onSnapshot localeCompare devices
        fetches := s.fetches.eraseIdx i
        base := some (readAt, devices) }
    | some (.answered _ (.error _)) =>
      some { s with page := s.page.onSnapshotError, fetches := s.fetches.eraseIdx i }
    | _ => none
  -- the request fails on its way
  | .reject i =>
    if i < s.fetches.length then
      some { s with page := s.page.onSnapshotError, fetches := s.fetches.eraseIdx i }
    else none

end Step

/-! ### What one step can do -/

inductive Transition (cfg : Config) (localeCompare : String → String → ℤ) (s : Session) :
    Action → Session → Prop
  | server {a : Concurrent.Action} {server : Concurrent.Process}
      (hstep : Concurrent.step cfg s.server a = some server) :
      Transition cfg localeCompare s (.server a) { s with server }
  | connected (hconn : s.conn = .closed) :
      Transition cfg localeCompare s .connect
        { s.setHub ((s.hub.makeChan s.nextChan 16).subscribe s.nextChan) with
          conn := .subscribed s.nextChan
          nextChan := s.nextChan + 1
          seen := s.history.length }
  | refused (hconn : s.conn = .closed) :
      Transition cfg localeCompare s .refuse { s with page := s.page.onError }
  | opened {ch : ℕ} (hconn : s.conn = .subscribed ch) :
      Transition cfg localeCompare s .opens
        { s with
          page := s.page.onOpen.1
          conn := .opened ch
          fetches := s.fetches ++ if s.page.connectedOnce then [.requested] else [] }
  | forwarded {ch : ℕ} {ev : Event} {hub : Hub} (hconn : s.conn.chan = some ch)
      (hreceive : s.hub.receive ch = some (ev, hub)) :
      Transition cfg localeCompare s .forward { s.setHub hub with wire := s.wire ++ [ev] }
  | delivered {ch : ℕ} {ev : Event} {wire : List Event} (hconn : s.conn = .opened ch)
      (hwire : s.wire = ev :: wire) :
      Transition cfg localeCompare s .deliver
        { s with page := s.page.onMessage localeCompare ev, wire, seen := s.seen + 1 }
  | lost :
      Transition cfg localeCompare s .lose { s with page := s.page.onError, conn := .closed, wire := [] }
  | left {ch : ℕ} (hchan : s.conn.chan ≠ some ch) :
      Transition cfg localeCompare s (.leave ch) (s.setHub (s.hub.unsubscribe ch))
  | answered {i : ℕ} {fails : Bool} (hfetch : s.fetches[i]? = some .requested) :
      Transition cfg localeCompare s (.answer i fails)
        { s with fetches := s.fetches.set i (.answered s.history.length
            (snapshot cfg s.server.srv.db s.server.clock fails)) }
  | received {i readAt : ℕ} {devices : List DeviceState}
      (hfetch : s.fetches[i]? = some (.answered readAt (.ok devices))) :
      Transition cfg localeCompare s (.receive i)
        { s with
          page := s.page.onSnapshot localeCompare devices
          fetches := s.fetches.eraseIdx i
          base := some (readAt, devices) }
  | failed {i readAt : ℕ} {e : StoreError} (hfetch : s.fetches[i]? = some (.answered readAt (.error e))) :
      Transition cfg localeCompare s (.receive i)
        { s with page := s.page.onSnapshotError, fetches := s.fetches.eraseIdx i }
  | rejected {i : ℕ} (hi : i < s.fetches.length) :
      Transition cfg localeCompare s (.reject i)
        { s with page := s.page.onSnapshotError, fetches := s.fetches.eraseIdx i }

theorem transition_of_step {cfg : Config} {localeCompare : String → String → ℤ} {s t : Session}
    {a : Action} (h : step cfg localeCompare s a = some t) : Transition cfg localeCompare s a t := by
  cases a with
  | server a =>
    obtain ⟨server, hstep, rfl⟩ := Option.map_eq_some_iff.mp h
    exact .server hstep
  | connect =>
    rw [step] at h
    split at h
    · rename_i hconn
      cases h
      exact .connected hconn
    · cases h
  | refuse =>
    rw [step] at h
    split at h
    · rename_i hconn
      cases h
      exact .refused hconn
    · cases h
  | opens =>
    rw [step] at h
    split at h
    · rename_i ch hconn
      cases h
      exact .opened hconn
    · cases h
  | forward =>
    obtain ⟨ch, hconn, hrest⟩ := Option.bind_eq_some_iff.mp h
    obtain ⟨⟨ev, hub⟩, hreceive, rfl⟩ := Option.map_eq_some_iff.mp hrest
    exact .forwarded hconn hreceive
  | deliver =>
    rw [step] at h
    split at h
    · rename_i ch ev wire hconn hwire
      cases h
      exact .delivered hconn hwire
    · cases h
  | lose =>
    rw [step] at h
    split at h
    · cases h
    · cases h
      exact .lost
  | leave ch =>
    rw [step] at h
    split_ifs at h with hchan
    cases h
    exact .left hchan
  | answer i fails =>
    rw [step] at h
    split at h
    · rename_i hfetch
      cases h
      exact .answered hfetch
    · cases h
  | receive i =>
    rw [step] at h
    split at h
    · rename_i hfetch
      cases h
      exact .received hfetch
    · rename_i hfetch
      cases h
      exact .failed hfetch
    · cases h
  | reject i =>
    rw [step] at h
    split_ifs at h with hi
    cases h
    exact .rejected hi

end CyberstalkMe.Web
