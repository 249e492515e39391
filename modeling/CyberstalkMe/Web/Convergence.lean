import CyberstalkMe.Web.Stream

/-! # Convergence of the page

The events of a device reach the page by its stream and in its snapshots, and
nothing on the page compares the two. When the messages on their way are delivered
and no snapshot request is in flight, the card of a device is that of its last
event, provided that the snapshot applied last was not out of date when it began
to count: at its arrival over an open stream, or at the first open after it.
-/
namespace CyberstalkMe.Web

open Go Shared Store Foundations Api

def eventOf (d : String) (ev : Event) : Bool := decide (ev.device.deviceID = d)

@[simp] theorem eventOf_iff {d : String} {ev : Event} : eventOf d ev ↔ ev.device.deviceID = d :=
  decide_eq_true_iff

/-- What the card of a device should show after a snapshot: the last event broadcast since its read;
if there is none, the snapshot's entry, or the last event, which then was broadcast before the read. -/
def Shows (history : List Event) (base : ℕ × List DeviceState) (d : String)
    (card : Option DeviceState) : Prop :=
  match latest (eventOf d) (history.drop base.1) with
  | some ev => card = some ev.device
  | none => card = entryOf d base.2 ∨ ∃ ev ∈ latest (eventOf d) history, card = some ev.device

/-- Every card shows what it should, once a snapshot was applied. -/
def UpToDate (s : Session) : Prop :=
  ∀ base ∈ s.base, ∀ d, Shows s.history base d (entryOf d s.page.devices)

/-- The stream is open and no message is in flight. -/
def Settled (s : Session) : Prop :=
  ∃ ch, s.conn = .opened ch ∧ s.pending ch = [] ∧ s.fetches = []

/-- Each device with an event broadcast since the read of the snapshot has one on its way on the
stream, or the snapshot has the state of the last. -/
def Covers (s : Session) (base : ℕ × List DeviceState) : Prop :=
  ∀ ev ∈ s.history.drop base.1,
    (∃ ev' ∈ s.unseen, ev'.device.deviceID = ev.device.deviceID) ∨
      entryOf ev.device.deviceID base.2 =
        (latest (eventOf ev.device.deviceID) (s.history.drop base.1)).map Event.device

def Conn.isOpen : Conn → Bool
  | .opened _ => true
  | .closed | .subscribed _ => false

/-- A snapshot request may fail: another one is in flight, the stream is not open, or no snapshot was
applied yet. -/
def Spare (s : Session) : Prop := 1 < s.fetches.length ∨ s.conn.isOpen = false ∨ s.base = none

/-- The condition on the arrival of a response. -/
def Fetch.Covered (s : Session) : Fetch → Prop
  | .requested => True
  | .answered readAt (.ok devices) => s.conn.isOpen → s.fetches.length = 1 → Covers s (readAt, devices)
  | .answered _ (.error _) => Spare s

/-- The condition on a step. A snapshot that arrives over an open stream as the last one in flight is
not out of date, and neither is the one that the page has at its first open when none is in flight. -/
def Covered (s : Session) : Action → Prop
  | .opens => s.page.connectedOnce = false → s.fetches = [] → ∀ base ∈ s.base, Covers s base
  | .receive i => ∀ fetch ∈ s.fetches[i]?, fetch.Covered s
  | .reject _ => Spare s
  | _ => True

section Decidable

instance (history : List Event) (base : ℕ × List DeviceState) (d : String) (card : Option DeviceState) :
    Decidable (Shows history base d card) :=
  match hlast : latest (eventOf d) (history.drop base.1) with
  | some ev => decidable_of_iff (card = some ev.device) (by rw [Shows, hlast])
  | none =>
    decidable_of_iff (card = entryOf d base.2 ∨ ∃ ev ∈ latest (eventOf d) history, card = some ev.device)
      (by rw [Shows, hlast])

variable (s : Session)

instance (base : ℕ × List DeviceState) : Decidable (Covers s base) :=
  inferInstanceAs (Decidable (∀ ev ∈ s.history.drop base.1, _))

instance : Decidable (Spare s) := inferInstanceAs (Decidable (_ ∨ _))

instance : DecidablePred (Fetch.Covered s)
  | .requested => isTrue trivial
  | .answered _ (.ok _) => inferInstanceAs (Decidable (_ → _ → _))
  | .answered _ (.error _) => inferInstanceAs (Decidable (Spare s))

instance : DecidablePred (Covered s)
  | .opens => inferInstanceAs (Decidable (_ → _ → ∀ base ∈ s.base, _))
  | .receive i => inferInstanceAs (Decidable (∀ fetch ∈ s.fetches[i]?, _))
  | .reject _ => inferInstanceAs (Decidable (Spare s))
  | .server _ | .connect | .refuse | .forward | .deliver | .lose | .leave _ | .answer .. => isTrue trivial

end Decidable

/-! ### The cards -/

def cardOf (unseen : List Event) (devices : List DeviceState) (d : String) : Option DeviceState :=
  ((latest (eventOf d) unseen).map Event.device).or (entryOf d devices)

theorem cardOf_concat (unseen : List Event) (ev : Event) (devices : List DeviceState) (d : String) :
    cardOf (unseen ++ [ev]) devices d =
      if eventOf d ev then some ev.device else cardOf unseen devices d := by
  rw [cardOf, latest_concat]
  split_ifs <;> rfl

theorem cardOf_cons (localeCompare : String → String → ℤ) {devices : List DeviceState}
    (hdistinct : Distinct devices) (unseen : List Event) (ev : Event) (d : String) :
    cardOf (ev :: unseen) devices d = cardOf unseen (upsert localeCompare devices ev.device) d := by
  rw [cardOf, cardOf, latest_cons, (upsert_spec hdistinct _).2]
  cases latest (eventOf d) unseen with
  | some ev' => rfl
  | none =>
    by_cases hd : ev.device.deviceID = d
    · rw [if_pos (eventOf_iff.mpr hd), if_pos hd]
      rfl
    · rw [if_neg (mt eventOf_iff.mp hd), if_neg hd]
      rfl

theorem cardOf_onSnapshot {localeCompare : String → String → ℤ} {devices : List DeviceState}
    (hdistinct : Distinct devices) (unseen : List Event) (page : Page) (d : String) :
    cardOf unseen (page.onSnapshot localeCompare devices).devices d = cardOf unseen devices d := by
  rw [cardOf, cardOf]
  exact congrArg _ (entryOf_sortDevices hdistinct d)

theorem Snapshots.cardOf_base {s : Session} (hs : Snapshots s) (honce : s.page.connectedOnce = false)
    {base : ℕ × List DeviceState} (hbase : base ∈ s.base) (unseen : List Event) (d : String) :
    cardOf unseen s.page.devices d = cardOf unseen base.2 d := by
  rw [cardOf, cardOf, hs.unopened honce base hbase d]

theorem Shows.broadcast {history : List Event} {base : ℕ × List DeviceState} {d : String}
    {card : Option DeviceState} (h : Shows history base d card) (hbase : base.1 ≤ history.length)
    (ev : Event) : Shows (history ++ [ev]) base d (if eventOf d ev then some ev.device else card) := by
  rw [Shows, List.drop_append_of_le_length hbase, latest_concat, latest_concat]
  by_cases hd : eventOf d ev
  · simp only [if_pos hd]
  · simp only [if_neg hd]
    exact h

theorem shows_of_covers {s : Session} {base : ℕ × List DeviceState} (hcovers : Covers s base) (d : String) :
    Shows s.history base d (cardOf s.unseen base.2 d) := by
  rw [Shows, cardOf]
  cases hunseen : latest (eventOf d) s.unseen with
  | some ev =>
    -- the last event of the device is on its way
    have hlast := latest_of_drop hunseen
    cases hread : latest (eventOf d) (s.history.drop base.1) with
    | none => exact .inr ⟨ev, hlast, rfl⟩
    | some ev' =>
      cases hlast.symm.trans (latest_of_drop hread)
      rfl
  | none =>
    cases hread : latest (eventOf d) (s.history.drop base.1) with
    | none => exact .inl rfl
    | some ev =>
      obtain ⟨hmem, hd⟩ := mem_of_latest hread
      rw [eventOf_iff] at hd
      subst hd
      rcases hcovers ev hmem with ⟨ev', hmem', hd'⟩ | hentry
      · exact absurd (eventOf_iff.mpr hd') (latest_eq_none.mp hunseen ev' hmem')
      · rw [hread] at hentry
        exact hentry

theorem covers_of_shows {s : Session} {base : ℕ × List DeviceState}
    (hshows : ∀ d, Shows s.history base d (cardOf s.unseen base.2 d)) : Covers s base := by
  intro ev hev
  have hd := hshows ev.device.deviceID
  rw [Shows] at hd
  cases hread : latest (eventOf ev.device.deviceID) (s.history.drop base.1) with
  | none => exact absurd (eventOf_iff.mpr rfl) (latest_eq_none.mp hread ev hev)
  | some last =>
    rw [hread, cardOf] at hd
    cases hunseen : latest (eventOf ev.device.deviceID) s.unseen with
    | some ev' =>
      obtain ⟨hmem, hid⟩ := mem_of_latest hunseen
      exact .inl ⟨ev', hmem, eventOf_iff.mp hid⟩
    | none =>
      rw [hunseen] at hd
      exact .inr hd

/-- With the messages on their way, an open page with no request in flight shows what it should. -/
def Converging (s : Session) : Prop :=
  s.conn.isOpen → s.fetches = [] → ∀ base ∈ s.base, ∀ d,
    Shows s.history base d (cardOf s.unseen s.page.devices d)

namespace Converging
variable {s : Session}

theorem server (hs : Converging s) (hseen : s.seen ≤ s.history.length)
    (happlied : ∀ base ∈ s.base, base.1 ≤ s.history.length) {cfg : Config} {a : Concurrent.Action}
    {server : Concurrent.Process} (h : Concurrent.step cfg s.server a = some server) :
    Converging { s with server } := by
  intro hopen hfetches base hbase d
  have hold := hs hopen hfetches base hbase d
  change Shows server.srv.hub.history base d (cardOf (server.srv.hub.history.drop s.seen) s.page.devices d)
  rw [history_server h]
  cases s.server.broadcasts a with
  | none =>
    rw [Option.toList_none, List.append_nil]
    exact hold
  | some ev =>
    change Shows (s.history ++ [ev]) base d (cardOf ((s.history ++ [ev]).drop s.seen) s.page.devices d)
    rw [List.drop_append_of_le_length hseen, cardOf_concat]
    exact hold.broadcast (happlied base hbase) ev

theorem sameHistory (hs : Converging s) {hub : Hub} (hhistory : hub.history = s.history) (wire : List Event) :
    Converging { s.setHub hub with wire } := by
  intro hopen hfetches base hbase d
  change Shows hub.history base d (cardOf (hub.history.drop s.seen) s.page.devices d)
  rw [hhistory]
  exact hs hopen hfetches base hbase d

theorem spare {i : ℕ} (hi : i < s.fetches.length) (hspare : Spare s) (page : Page) :
    Converging { s with page, fetches := s.fetches.eraseIdx i } := by
  intro hopen hfetches base hbase
  rcases hspare with hmore | hclosed | hnone
  · have hlength := congrArg List.length hfetches
    rw [List.length_eraseIdx_of_lt hi, List.length_nil] at hlength
    omega
  · cases hclosed.symm.trans hopen
  · cases hnone.symm.trans hbase

theorem step {cfg : Config} {localeCompare : String → String → ℤ} {t : Session} {a : Action}
    (hs : Converging s) (hstreams : Streams s) (hsnapshots : Snapshots s) (hcovered : Covered s a)
    (h : step cfg localeCompare s a = some t) : Converging t := by
  cases transition_of_step h with
  | server hstep =>
    intro hopen
    cases hconn : s.conn with
    | closed | subscribed ch =>
      rw [hconn] at hopen
      cases hopen
    | opened ch =>
      have hseen := (hstreams.streaming ch (congrArg Conn.chan hconn)).seen_le
      exact hs.server hseen hsnapshots.applied hstep hopen
  | connected | lost =>
    intro hopen
    cases hopen
  | refused hconn => exact hs
  | opened hconn =>
    intro _ hfetches base hbase d
    obtain ⟨hfetches, hreload⟩ := List.append_eq_nil_iff.mp hfetches
    cases honce : s.page.connectedOnce with
    | true =>
      -- an open after the first requests a snapshot
      rw [honce] at hreload
      cases hreload
    | false =>
      have hshows := shows_of_covers (hcovered honce hfetches base hbase) d
      rw [← hsnapshots.cardOf_base honce hbase] at hshows
      exact hshows
  | forwarded hconn hreceive => exact hs.sameHistory (Hub.receive_eq_some hreceive).2.2 _
  | delivered hconn hwire =>
    intro hopen hfetches base hbase d
    have hstreaming := hstreams.streaming _ (congrArg Conn.chan hconn)
    rw [hwire] at hstreaming
    have hshows := hs hopen hfetches base hbase d
    rw [Session.unseen, Session.history, hstreaming.drop_eq_cons,
      cardOf_cons localeCompare hsnapshots.distinct] at hshows
    exact hshows
  | left hchan => exact hs.sameHistory (Hub.history_unsubscribe _ _) s.wire
  | answered hfetch =>
    intro hopen hfetches
    rw [List.set_eq_nil_iff] at hfetches
    rw [hfetches] at hfetch
    cases hfetch
  | received hfetch =>
    rename_i i readAt devices
    intro hopen hfetches base hbase d
    cases hbase
    have hi := (List.getElem?_eq_some_iff.mp hfetch).1
    have hlength := congrArg List.length hfetches
    rw [List.length_eraseIdx_of_lt hi, List.length_nil] at hlength
    have hlast : s.fetches.length = 1 := by omega
    have hshows := shows_of_covers (hcovered _ hfetch hopen hlast) d
    have hdistinct := (hsnapshots.read readAt devices (List.mem_of_getElem? hfetch)).2
    rw [← cardOf_onSnapshot hdistinct s.unseen s.page] at hshows
    exact hshows
  | failed hfetch => exact spare (List.getElem?_eq_some_iff.mp hfetch).1 (hcovered _ hfetch) _
  | rejected hi => exact spare hi hcovered _

end Converging

theorem converging_start (db : DB) (clock : Time) : Converging (.start db clock) := by
  intro hopen
  cases hopen

/-- In a run that meets the conditions the cards are going to be right. -/
theorem converging_of_covered {cfg : Config} {localeCompare : String → String → ℤ} {db : DB} {clock : Time}
    {as : List Action} {s : Session} (hundropped : Meets (step cfg localeCompare) Undropped (.start db clock) as)
    (hcovered : Meets (step cfg localeCompare) Covered (.start db clock) as)
    (hs : execute (step cfg localeCompare) (.start db clock) as = some s) : Converging s := by
  have hinvariant : Streams s ∧ Snapshots s ∧ Converging s :=
    execute_invariant (I := fun s => Streams s ∧ Snapshots s ∧ Converging s)
      (fun s a t ⟨hstreams, hsnapshots, hconverging⟩ hguard hstep =>
        ⟨hstreams.step hguard.1 hstep, hsnapshots.step hstep,
          hconverging.step hstreams hsnapshots hguard.2 hstep⟩)
      ⟨streams_start db clock, snapshots_start db clock, converging_start db clock⟩
      (meets_and.mpr ⟨hundropped, hcovered⟩) hs
  exact hinvariant.2.2

theorem Converging.upToDate {s : Session} (hs : Converging s) (hstreams : Streams s) (hsettled : Settled s) :
    UpToDate s := by
  obtain ⟨ch, hconn, hpending, hfetches⟩ := hsettled
  have hopen : s.conn.isOpen := by
    rw [hconn]
    rfl
  have hunseen : s.unseen = [] :=
    (hstreams.streaming ch (congrArg Conn.chan hconn)).pending.symm.trans hpending
  intro base hbase d
  have hshows := hs hopen hfetches base hbase d
  rw [hunseen] at hshows
  exact hshows

/-! ### The condition is needed -/

/-- The action brings a message of the stream to the page. -/
def Action.delivers : Action → Prop
  | .forward | .deliver => True
  | .server _ | .connect | .refuse | .opens | .lose | .leave _ | .answer .. | .receive _ | .reject _ => False

section Delivery
variable (cfg : Config) (localeCompare : String → String → ℤ)

theorem exists_delivered {s : Session} {ch : ℕ} (hconn : s.conn = .opened ch) {ev : Event}
    {rest : List Event} (hpending : s.pending ch = ev :: rest) :
    ∃ server wire, Reaches (step cfg localeCompare) Action.delivers s
        { s with server, page := s.page.onMessage localeCompare ev, wire, seen := s.seen + 1 } ∧
      server.srv.hub.history = s.history ∧ wire ++ (server.srv.hub.chans ch).buffer = rest := by
  cases hwire : s.wire with
  | cons ev' wire =>
    rw [Session.pending, hwire] at hpending
    cases hpending
    have hstep : step cfg localeCompare s .deliver =
        some { s with page := s.page.onMessage localeCompare ev, wire, seen := s.seen + 1 } := by
      rw [step, hconn, hwire]
    exact ⟨s.server, wire, (Reaches.refl s).tail (a := .deliver) trivial hstep, rfl, rfl⟩
  | nil =>
    -- the stream handler has to write it first
    rw [Session.pending, hwire, List.nil_append] at hpending
    obtain ⟨hub, hreceive⟩ := Hub.exists_receive hpending
    obtain ⟨hbuffer, -, hhistory⟩ := Hub.receive_eq_some hreceive
    have hforward : step cfg localeCompare s .forward = some { s.setHub hub with wire := [ev] } := by
      rw [step, hconn, Conn.chan, Option.bind_some, hreceive, hwire]
      rfl
    have hdeliver : step cfg localeCompare { s.setHub hub with wire := [ev] } .deliver =
        some { s.setHub hub with
          page := s.page.onMessage localeCompare ev, wire := [], seen := s.seen + 1 } := by
      simp only [step, Session.setHub, hconn]
    have hwritten : Reaches (step cfg localeCompare) Action.delivers s { s.setHub hub with wire := [ev] } :=
      (Reaches.refl s).tail (a := .forward) trivial hforward
    rw [hpending] at hbuffer
    exact ⟨_, [], hwritten.tail (a := .deliver) trivial hdeliver, hhistory, (List.cons.inj hbuffer).2.symm⟩

/-- All messages can be delivered, and the cards are then as they were going to be. -/
theorem exists_settled {unseen : List Event} {s : Session} {ch : ℕ} (hconn : s.conn = .opened ch)
    (hfetches : s.fetches = []) (hdistinct : Distinct s.page.devices) (hpending : s.pending ch = unseen)
    (hunseen : s.unseen = unseen) :
    ∃ u, Reaches (step cfg localeCompare) Action.delivers s u ∧ Settled u ∧ u.history = s.history ∧ u.base = s.base ∧
      ∀ d, entryOf d u.page.devices = cardOf unseen s.page.devices d := by
  induction unseen generalizing s with
  | nil => exact ⟨s, .refl s, ⟨ch, hconn, hpending, hfetches⟩, rfl, rfl, fun _ => rfl⟩
  | cons ev rest ih =>
    obtain ⟨server, wire, hreach, hhistory, hrest⟩ := exists_delivered cfg localeCompare hconn hpending
    have hdistinct' : Distinct (s.page.onMessage localeCompare ev).devices := (upsert_spec hdistinct _).1
    have hunseen' : server.srv.hub.history.drop (s.seen + 1) = rest := by
      rw [hhistory, ← List.drop_drop]
      exact congrArg (List.drop 1) hunseen
    obtain ⟨u, hsettle, hsettled, hhistory', hbase, hcards⟩ :=
      ih (s := { s with server, page := s.page.onMessage localeCompare ev, wire, seen := s.seen + 1 })
        hconn hfetches hdistinct' hrest hunseen'
    refine ⟨u, hreach.trans hsettle, hsettled, hhistory'.trans hhistory, hbase, fun d => ?_⟩
    rw [hcards d, cardOf_cons localeCompare hdistinct]
    rfl

end Delivery

/-- A card that is not going to be what it should be stays wrong when everything is delivered. -/
theorem goes_stale {cfg : Config} {localeCompare : String → String → ℤ} {s : Session} (hstreams : Streams s)
    (hsnapshots : Snapshots s) (hconverging : ¬ Converging s) :
    ∃ u, Reaches (step cfg localeCompare) Action.delivers s u ∧ Settled u ∧ ¬ UpToDate u := by
  rw [Converging] at hconverging
  push Not at hconverging
  obtain ⟨hopen, hfetches, base, hbase, d, hstale⟩ := hconverging
  cases hconn : s.conn with
  | closed | subscribed ch =>
    rw [hconn] at hopen
    cases hopen
  | opened ch =>
    have hpending := (hstreams.streaming ch (congrArg Conn.chan hconn)).pending
    obtain ⟨u, hreach, hsettled, hhistory, hbase', hcards⟩ :=
      exists_settled cfg localeCompare hconn hfetches hsnapshots.distinct hpending rfl
    refine ⟨u, hreach, hsettled, fun hupToDate => hstale ?_⟩
    have hshows := hupToDate base (hbase' ▸ hbase) d
    rw [hhistory, hcards d] at hshows
    exact hshows

/-- A step after which the cards are going to be right, and which reports no error, met the condition. -/
theorem covered_of_converging {cfg : Config} {localeCompare : String → String → ℤ} {s t : Session} {a : Action}
    (hsnapshots : Snapshots s) (hconverging : Converging t) (herror : t.page.error = none)
    (h : step cfg localeCompare s a = some t) : Covered s a := by
  cases transition_of_step h with
  | server | connected | refused | forwarded | delivered | lost | left | answered => trivial
  | opened hconn =>
    intro honce hfetches base hbase
    have hnone : s.fetches ++ (if s.page.connectedOnce then [Fetch.requested] else []) = [] := by
      rw [hfetches, honce]
      rfl
    apply covers_of_shows
    intro d
    have hshows := hconverging rfl hnone base hbase d
    rw [← hsnapshots.cardOf_base honce hbase]
    exact hshows
  | received hfetch =>
    rename_i i readAt devices
    intro fetch hmem
    cases hfetch.symm.trans hmem
    intro hopen hlast
    have hnone : s.fetches.eraseIdx i = [] := by
      have hi := (List.getElem?_eq_some_iff.mp hfetch).1
      rw [← List.length_eq_zero_iff, List.length_eraseIdx_of_lt hi, hlast]
    apply covers_of_shows
    intro d
    have hshows := hconverging hopen hnone _ rfl d
    have hdistinct := (hsnapshots.read readAt devices (List.mem_of_getElem? hfetch)).2
    rw [← cardOf_onSnapshot hdistinct s.unseen s.page]
    exact hshows
  | failed | rejected => cases herror

/-! ### Every order of the steps -/

/-- Of every run in which the stream is not dropped. A settled page shows the last event of each device
when no snapshot was out of date as it began to count. A step at which one is leads on to a settled page
that is wrong, by the delivery of the messages on their way alone. -/
theorem page_converges (cfg : Config) (localeCompare : String → String → ℤ) (db : DB) (clock : Time)
    (as : List Action) (s : Session)
    (hundropped : Meets (step cfg localeCompare) Undropped (.start db clock) as)
    (hs : execute (step cfg localeCompare) (.start db clock) as = some s) :
    (Meets (step cfg localeCompare) Covered (.start db clock) as → Settled s → UpToDate s) ∧
      ∀ a t, Undropped s a → step cfg localeCompare s a = some t → t.page.error = none → ¬ Covered s a →
        ∃ u, Reaches (step cfg localeCompare) Action.delivers t u ∧ Settled u ∧ ¬ UpToDate u := by
  have hkept : Streams s ∧ Snapshots s :=
    execute_invariant (I := fun s => Streams s ∧ Snapshots s)
      (fun s a t hI hguard hstep => ⟨hI.1.step hguard hstep, hI.2.step hstep⟩)
      ⟨streams_start db clock, snapshots_start db clock⟩ hundropped hs
  obtain ⟨hstreams, hsnapshots⟩ := hkept
  constructor
  · intro hcovered hsettled
    exact (converging_of_covered hundropped hcovered hs).upToDate hstreams hsettled
  · intro a t hguard hstep herror huncovered
    have hconverging : ¬ Converging t := fun hconverging =>
      huncovered (covered_of_converging hsnapshots hconverging herror hstep)
    exact goes_stale (hstreams.step hguard hstep) (hsnapshots.step hstep) hconverging

namespace Sample
open Api.Sample Concurrent.Sample

def localeCompare (a b : String) : ℤ := if a = b then 0 else if a < b then -1 else 1

def start : Session := .start db (clock 0)

def report (i : ℕ) (seconds : ℤ) (app : String) : List Action :=
  (.tick (clock seconds) :: arrive i app "" ++ steps i 5).map .server

def reopened : List Action :=
  report 0 0 "Code" ++ [.refuse, .connect, .opens, .answer 0 false, .receive 0, .lose] ++
    report 1 10 "Mail" ++ [.connect, .opens, .leave 0] ++
    report 2 20 "Music" ++ [.answer 0 false, .forward, .deliver, .receive 0]

/-- The second report is broadcast between the snapshot and the first open. -/
def openedLate : List Action :=
  report 0 0 "Code" ++ [.refuse, .answer 0 false, .receive 0] ++ report 1 10 "Mail" ++ [.connect, .opens]

/-- The snapshot is read before the second report and arrives after its event. -/
def answeredLate : List Action :=
  report 0 0 "Code" ++ [.connect, .opens, .answer 0 false] ++ report 1 10 "Mail" ++
    [.forward, .deliver, .receive 0]

end Sample

open Api.Sample Sample in
theorem page_converges_sample :
    ∃ s, execute (step config localeCompare) start reopened = some s ∧ Settled s ∧ UpToDate s := by
  have hrun : (execute (step config localeCompare) start reopened).any (fun s =>
      decide (s.conn = .opened 1 ∧ s.pending 1 = [] ∧ s.fetches = [])) = true := by
    decide +kernel
  obtain ⟨s, hs, hend⟩ := (Option.any_eq_true _ _).mp hrun
  have hsettled : Settled s := ⟨1, of_decide_eq_true hend⟩
  have hconverges := page_converges config localeCompare db (clock 0) reopened s (by decide +kernel) hs
  exact ⟨s, hs, hsettled, hconverges.1 (by decide +kernel) hsettled⟩

open Api.Sample Sample in
theorem exists_stale {as : List Action}
    (hrun : (execute (step config localeCompare) start as).any (fun s =>
      decide (s.conn = .opened 0 ∧ s.pending 0 = [] ∧ s.fetches = [] ∧
        ∃ base ∈ s.base, ¬ Shows s.history base "d1" (entryOf "d1" s.page.devices))) = true) :
    ∃ s, execute (step config localeCompare) start as = some s ∧ Settled s ∧ ¬ UpToDate s := by
  obtain ⟨s, hs, hend⟩ := (Option.any_eq_true _ _).mp hrun
  obtain ⟨hconn, hpending, hfetches, base, hbase, hstale⟩ := of_decide_eq_true hend
  exact ⟨s, hs, ⟨0, hconn, hpending, hfetches⟩, fun hupToDate => hstale (hupToDate base hbase "d1")⟩

open Api.Sample Sample in
/-- A settled page keeps the first report although the second was broadcast: when the stream opens
first after that broadcast, and when the snapshot arrives after its event. -/
theorem settled_page_is_stale :
    (Meets (step config localeCompare) Undropped start openedLate ∧
      ∃ s, execute (step config localeCompare) start openedLate = some s ∧ Settled s ∧ ¬ UpToDate s) ∧
    Meets (step config localeCompare) Undropped start answeredLate ∧
      ∃ s, execute (step config localeCompare) start answeredLate = some s ∧ Settled s ∧ ¬ UpToDate s := by
  constructor
  · exact ⟨by decide +kernel, exists_stale (by decide +kernel)⟩
  · exact ⟨by decide +kernel, exists_stale (by decide +kernel)⟩

end CyberstalkMe.Web
