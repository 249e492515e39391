import CyberstalkMe.Web.Session

/-! # What is in flight

The messages between the hub and the page are the events broadcast since the
page's last one, as long as the stream is not dropped. A snapshot in flight was
read at some moment of the history and lists each device once.
-/
namespace CyberstalkMe.Web

open Go Shared Store Foundations Api

def Session.unseen (s : Session) : List Event := s.history.drop s.seen

/-- The channel of the stream has room for every event that is broadcast. -/
def Undropped (s : Session) : Action → Prop
  | .server a => ∀ ch ∈ s.conn.chan, (s.server.broadcasts a).isSome → (s.hub.chans ch).ready
  | _ => True

instance (s : Session) : DecidablePred (Undropped s)
  | .server _ => inferInstanceAs (Decidable (∀ ch ∈ s.conn.chan, _))
  | .connect | .refuse | .opens | .forward | .deliver | .lose | .leave _ | .answer .. | .receive _
  | .reject _ => isTrue trivial

/-! ### The stream -/

structure Streaming (hub : Hub) (wire : List Event) (seen ch : ℕ) : Prop where
  sub : ch ∈ hub.subs
  pending : wire ++ (hub.chans ch).buffer = hub.history.drop seen
  seen_le : seen ≤ hub.history.length

namespace Streaming
variable {hub : Hub} {wire : List Event} {seen ch : ℕ}

/-- A new channel has no messages, and every event so far was broadcast before its first one. -/
theorem connect (hub : Hub) (ch capacity : ℕ) :
    Streaming ((hub.makeChan ch capacity).subscribe ch) [] hub.history.length ch where
  sub := Finset.mem_insert_self _ _
  pending := by
    have hbuffer : (((hub.makeChan ch capacity).subscribe ch).chans ch).buffer = [] := by
      simp only [Hub.subscribe, Hub.makeChan, Function.update_self]
    rw [hbuffer]
    exact List.drop_length.symm
  seen_le := le_refl _

theorem broadcast (hs : Streaming hub wire seen ch) (hready : (hub.chans ch).ready) (ev : Event) :
    Streaming (hub.broadcast ev) wire seen ch := by
  obtain ⟨hsub, hbuffer⟩ := Hub.broadcast_ready hs.sub hready ev
  constructor
  · exact hsub
  · rw [hbuffer, ← List.append_assoc, hs.pending, Hub.history_broadcast,
      List.drop_append_of_le_length hs.seen_le]
  · rw [Hub.history_broadcast, List.length_append]
    exact hs.seen_le.trans (Nat.le_add_right _ _)

theorem forward (hs : Streaming hub wire seen ch) {ev : Event} {hub' : Hub}
    (hreceive : hub.receive ch = some (ev, hub')) : Streaming hub' (wire ++ [ev]) seen ch := by
  obtain ⟨hbuffer, hsubs, hhistory⟩ := Hub.receive_eq_some hreceive
  constructor
  · rw [hsubs]
    exact hs.sub
  · rw [hhistory, ← hs.pending, hbuffer, List.append_assoc]
    rfl
  · rw [hhistory]
    exact hs.seen_le

/-- The page takes a message. -/
theorem deliver {ev : Event} (hs : Streaming hub (ev :: wire) seen ch) : Streaming hub wire (seen + 1) ch := by
  have hpending := hs.pending
  rw [List.cons_append] at hpending
  constructor
  · exact hs.sub
  · rw [← List.drop_drop, ← hpending]
    rfl
  · have hlength := congrArg List.length hpending
    rw [List.length_cons, List.length_drop] at hlength
    omega

/-- The next message is the next event. -/
theorem drop_eq_cons {ev : Event} (hs : Streaming hub (ev :: wire) seen ch) :
    hub.history.drop seen = ev :: hub.history.drop (seen + 1) := by
  rw [← hs.pending, ← hs.deliver.pending]
  rfl

/-- The handler of another channel ends. -/
theorem unsubscribe (hs : Streaming hub wire seen ch) {ch' : ℕ} (hne : ch ≠ ch') :
    Streaming (hub.unsubscribe ch') wire seen ch := by
  obtain ⟨hsub, hchan⟩ := Hub.unsubscribe_of_ne hne hs.sub
  constructor
  · exact hsub
  · rw [hchan, Hub.history_unsubscribe]
    exact hs.pending
  · rw [Hub.history_unsubscribe]
    exact hs.seen_le

end Streaming

/-- The stream of the session, when it has one; a closed one has no messages. -/
structure Streams (s : Session) : Prop where
  streaming : ∀ ch, s.conn.chan = some ch → Streaming s.hub s.wire s.seen ch
  closed : s.conn = .closed → s.wire = []

theorem streams_start (db : DB) (clock : Time) : Streams (.start db clock) where
  streaming _ h := by cases h
  closed _ := rfl

theorem history_server {cfg : Config} {s t : Concurrent.Process} {a : Concurrent.Action}
    (h : Concurrent.step cfg s a = some t) :
    t.srv.hub.history = s.srv.hub.history ++ (s.broadcasts a).toList := by
  rw [Concurrent.hub_of_step h]
  cases s.broadcasts a with
  | none => exact (List.append_nil _).symm
  | some ev => rfl

theorem streaming_server {cfg : Config} {s t : Concurrent.Process} {a : Concurrent.Action}
    {wire : List Event} {seen ch : ℕ} (hs : Streaming s.srv.hub wire seen ch)
    (hready : (s.broadcasts a).isSome → (s.srv.hub.chans ch).ready) (h : Concurrent.step cfg s a = some t) :
    Streaming t.srv.hub wire seen ch := by
  rw [Concurrent.hub_of_step h]
  cases hbroadcasts : s.broadcasts a with
  | none => exact hs
  | some ev => exact hs.broadcast (hready (hbroadcasts ▸ rfl)) ev

theorem Streams.step {cfg : Config} {localeCompare : String → String → ℤ} {s t : Session} {a : Action}
    (hs : Streams s) (hundropped : Undropped s a) (h : step cfg localeCompare s a = some t) : Streams t := by
  cases transition_of_step h with
  | server hstep =>
    exact ⟨fun ch hch => streaming_server (hs.streaming ch hch) (hundropped ch hch) hstep, hs.closed⟩
  | connected hconn =>
    refine ⟨fun ch hch => ?_, fun hclosed => by cases hclosed⟩
    cases hch
    change Streaming _ s.wire _ _
    rw [hs.closed hconn]
    exact Streaming.connect s.hub s.nextChan 16
  | refused | answered | received | failed | rejected => exact ⟨hs.streaming, hs.closed⟩
  | opened hconn =>
    refine ⟨fun ch hch => ?_, fun hclosed => by cases hclosed⟩
    cases hch
    exact hs.streaming _ (congrArg Conn.chan hconn)
  | forwarded hconn hreceive =>
    refine ⟨fun ch hch => ?_, fun hclosed => ?_⟩
    · cases hconn.symm.trans hch
      exact (hs.streaming _ hconn).forward hreceive
    · cases hconn.symm.trans (congrArg Conn.chan hclosed)
  | delivered hconn hwire =>
    refine ⟨fun ch hch => ?_, fun hclosed => ?_⟩
    · have hstreaming := hs.streaming ch hch
      rw [hwire] at hstreaming
      exact hstreaming.deliver
    · cases hconn.symm.trans hclosed
  | lost =>
    refine ⟨fun ch hch => ?_, fun _ => rfl⟩
    cases hch
  | left hchan =>
    refine ⟨fun ch hch => (hs.streaming ch hch).unsubscribe ?_, hs.closed⟩
    rintro rfl
    exact hchan hch

/-! ### The snapshots -/

theorem distinct_snapshot {cfg : Config} {db : DB} {now : Time} {fails : Bool} {devices : List DeviceState}
    (h : snapshot cfg db now fails = .ok devices) : Distinct devices := by
  rw [snapshot_eq] at h
  cases hlist : listDeviceStates db fails with
  | error e =>
    rw [hlist] at h
    cases h
  | ok states =>
    rw [hlist] at h
    cases h
    rw [Distinct, List.map_map]
    exact nodup_listDeviceStates hlist

structure Snapshots (s : Session) : Prop where
  once : ∀ ch, s.conn = .opened ch → s.page.connectedOnce = true
  distinct : Distinct s.page.devices
  read : ∀ readAt devices, .answered readAt (.ok devices) ∈ s.fetches →
    readAt ≤ s.history.length ∧ Distinct devices
  applied : ∀ base ∈ s.base, base.1 ≤ s.history.length
  unopened : s.page.connectedOnce = false → ∀ base ∈ s.base, ∀ d,
    entryOf d s.page.devices = entryOf d base.2

theorem snapshots_start (db : DB) (clock : Time) : Snapshots (.start db clock) where
  once _ h := by cases h
  distinct := List.nodup_nil
  read _ _ h := by
    rw [Session.start, List.mem_singleton] at h
    cases h
  applied _ h := by cases h
  unopened _ _ h := by cases h

namespace Snapshots
variable {s : Session}

theorem grow (hs : Snapshots s) {server : Concurrent.Process}
    (hgrow : s.history.length ≤ server.srv.hub.history.length) (wire : List Event) :
    Snapshots { s with server, wire } where
  once := hs.once
  distinct := hs.distinct
  read readAt devices h := ⟨(hs.read readAt devices h).1.trans hgrow, (hs.read readAt devices h).2⟩
  applied base h := (hs.applied base h).trans hgrow
  unopened := hs.unopened

/-- A request is gone. -/
theorem erase (hs : Snapshots s) (i : ℕ) {page : Page} (hdevices : page.devices = s.page.devices)
    (honce : page.connectedOnce = s.page.connectedOnce) :
    Snapshots { s with page, fetches := s.fetches.eraseIdx i } where
  once := by
    rw [honce]
    exact hs.once
  distinct := by
    rw [hdevices]
    exact hs.distinct
  read readAt devices h := hs.read readAt devices (List.mem_of_mem_eraseIdx h)
  applied := hs.applied
  unopened := by
    rw [hdevices, honce]
    exact hs.unopened

theorem apply (hs : Snapshots s) {localeCompare : String → String → ℤ} {i readAt : ℕ}
    {devices : List DeviceState} (hfetch : .answered readAt (.ok devices) ∈ s.fetches) :
    Snapshots { s with
      page := s.page.onSnapshot localeCompare devices
      fetches := s.fetches.eraseIdx i
      base := some (readAt, devices) } where
  once := hs.once
  distinct := (hs.read readAt devices hfetch).2.sortDevices
  read r ds h := hs.read r ds (List.mem_of_mem_eraseIdx h)
  applied base hbase := by
    cases hbase
    exact (hs.read readAt devices hfetch).1
  unopened _ base hbase d := by
    cases hbase
    exact entryOf_sortDevices (hs.read readAt devices hfetch).2 d

theorem step {cfg : Config} {localeCompare : String → String → ℤ} {t : Session} {a : Action}
    (hs : Snapshots s) (h : step cfg localeCompare s a = some t) : Snapshots t := by
  cases transition_of_step h with
  | server hstep =>
    refine hs.grow ?_ s.wire
    rw [history_server hstep, List.length_append]
    exact Nat.le_add_right _ _
  | connected | lost =>
    refine ⟨fun ch hch => ?_, hs.distinct, hs.read, hs.applied, hs.unopened⟩
    cases hch
  | refused => exact ⟨hs.once, hs.distinct, hs.read, hs.applied, hs.unopened⟩
  | opened hconn =>
    refine ⟨fun _ _ => rfl, hs.distinct, fun readAt devices hmem => ?_, hs.applied, fun honce => by cases honce⟩
    rcases List.mem_append.mp hmem with hold | hnew
    · exact hs.read readAt devices hold
    · split_ifs at hnew with honce
      · cases List.mem_singleton.mp hnew
      · cases hnew
  | forwarded hconn hreceive =>
    obtain ⟨-, -, hhistory⟩ := Hub.receive_eq_some hreceive
    refine hs.grow ?_ _
    exact (congrArg List.length hhistory).ge
  | delivered hconn hwire =>
    refine ⟨hs.once, (upsert_spec hs.distinct _).1, hs.read, hs.applied, fun honce => ?_⟩
    -- a page that takes a message has seen its stream open
    cases (hs.once _ hconn).symm.trans honce
  | left hchan =>
    refine hs.grow ?_ s.wire
    exact (congrArg List.length (Hub.history_unsubscribe _ _)).ge
  | answered hfetch =>
    refine ⟨hs.once, hs.distinct, fun readAt devices hmem => ?_, hs.applied, hs.unopened⟩
    rcases List.mem_or_eq_of_mem_set hmem with hold | hnew
    · exact hs.read readAt devices hold
    · obtain ⟨rfl, hresponse⟩ := Fetch.answered.inj hnew
      exact ⟨le_refl _, distinct_snapshot hresponse.symm⟩
  | received hfetch => exact hs.apply (List.mem_of_getElem? hfetch)
  | failed | rejected => exact hs.erase _ rfl rfl

end Snapshots

end CyberstalkMe.Web
