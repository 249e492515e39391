import CyberstalkMe.Setup.Admission
import CyberstalkMe.Webui.CatalogStream

/-! # The discovery list follows the catalog

A stream of the setup interface as the page reads it: the text of the frames, cut into any chunks, gives
back the snapshots, and after each tick the latest of them is the catalog as it is.
-/
namespace CyberstalkMe.Webui

open Go Agent Shared Foundations Setup Json

/-! ### The page's types -/

structure PageSample where
  title : String
  firstSeen : String
  lastSeen : String
  count : ℚ
deriving DecidableEq

structure PageApp where
  process : String
  firstSeen : String
  lastSeen : String
  count : ℚ
  samples : Option (List PageSample)
  configurable : Bool
deriving DecidableEq

structure PageSnapshot where
  apps : Option (List PageApp)
  locked : Bool
  lockedSeen : ℚ
  observations : ℚ
deriving DecidableEq

def PageSample.read : Option (Json ℚ) → Option PageSample :=
  readObject fun value => PageSample.mk <$> readString (field "title" value) <*>
    readString (field "first_seen" value) <*> readString (field "last_seen" value) <*>
    readNumber (field "count" value)

def PageApp.read : Option (Json ℚ) → Option PageApp :=
  readObject fun value => PageApp.mk <$> readString (field "process" value) <*>
    readString (field "first_seen" value) <*> readString (field "last_seen" value) <*>
    readNumber (field "count" value) <*> readNullable (readArray PageSample.read) (field "samples" value) <*>
    readBool (field "configurable" value)

def PageSnapshot.read : Option (Json ℚ) → Option PageSnapshot :=
  readObject fun value => PageSnapshot.mk <$> readNullable (readArray PageApp.read) (field "apps" value) <*>
    readBool (field "locked" value) <*> readNumber (field "locked_seen" value) <*>
    readNumber (field "observations" value)

/-! ### The values of a snapshot -/

def PageSample.of (s : TitleSample) : PageSample :=
  ⟨s.title, s.firstSeen.formatNano, s.lastSeen.formatNano, binary64 s.count⟩

def PageApp.of (a : App) : PageApp where
  process := a.process
  firstSeen := a.firstSeen.formatNano
  lastSeen := a.lastSeen.formatNano
  count := binary64 a.count
  samples := if a.samples = [] then none else some (a.samples.map .of)
  configurable := a.configurable

def PageSnapshot.of (snap : CatalogSnapshot) : PageSnapshot :=
  ⟨some (snap.apps.map .of), snap.locked, binary64 snap.lockedSeen, binary64 snap.observations⟩

theorem read_sample (s : TitleSample) :
    PageSample.read (some (mapNumber (fun n : ℤ => binary64 n) s.json)) = some (.of s) := by
  simp [PageSample.read, TitleSample.json, mapNumber, mapMembers, readObject, Json.field, member, readString,
    readNumber, ofTime, PageSample.of]

theorem readNullable_ofList {α β : Type} {encode : α → Json ℤ} {read : Option (Json ℚ) → Option β} {view : α → β}
    {f : ℤ → ℚ} (hread : ∀ a, read (some (mapNumber f (encode a))) = some (view a)) (l : List α) :
    readNullable (readArray read) (some (mapNumber f (ofList encode l))) = some (some (l.map view)) := by
  have hlist : readArray read (some (mapNumber f (ofList encode l))) = l.mapM fun a => some (view a) :=
    readArray_ofList hread l
  rw [mapM_some] at hlist
  rw [readNullable, hlist]
  · rfl
  · rintro ⟨⟩

theorem readNullable_samples (samples : List TitleSample) :
    readNullable (readArray PageSample.read) (some (mapNumber (fun n : ℤ => binary64 n)
      (if samples = [] then .null else .ofList TitleSample.json samples))) =
      some (if samples = [] then none else some (samples.map .of)) := by
  split
  · rfl
  · exact readNullable_ofList read_sample samples

theorem read_app (a : App) : PageApp.read (some (mapNumber (fun n : ℤ => binary64 n) a.json)) = some (.of a) := by
  simp [PageApp.read, App.json, mapNumber, mapMembers, readObject, Json.field, member, readString, readNumber,
    readBool, ofTime, readNullable_samples, PageApp.of]

theorem read_snapshot (snap : CatalogSnapshot) :
    PageSnapshot.read (some (mapNumber (fun n : ℤ => binary64 n) snap.json)) = some (.of snap) := by
  simp [PageSnapshot.read, CatalogSnapshot.json, mapNumber, mapMembers, readObject, Json.field, member, readNumber,
    readBool, readNullable_ofList read_app, PageSnapshot.of]

/-! ### The encoder and `JSON.parse` -/

def codec : SnapshotJSON (Json ℚ) where
  encode := CatalogSnapshot.encode
  parse := parseJSON
  value snap := snap.json.mapNumber fun n : ℤ => binary64 n

theorem codec_lawful : codec.Lawful where
  one_line snap line h := by
    simp only [codec, CatalogSnapshot.encode, Option.ite_none_right_eq_some] at h
    obtain ⟨-, h⟩ := h
    cases h
    exact (newline_not_mem_text _).1
  parse_encode snap line h := by
    simp only [codec, CatalogSnapshot.encode, Option.ite_none_right_eq_some] at h
    obtain ⟨-, h⟩ := h
    cases h
    exact parseJSON_text_self _
  parse_empty := by decide

theorem isSome_encode {snap : CatalogSnapshot} : (codec.encode snap).isSome = snap.marshals := by
  simp only [codec, CatalogSnapshot.encode]
  cases snap.marshals <;> rfl

/-! ### A stream of the interface -/

variable {yaml : Yaml} {lib : Library}

/-- The frames of a stream among the answers of a run. -/
def framesOf (i : ℕ) (outs : List (Setup.Event yaml × Output)) : List CatalogSnapshot :=
  outs.filterMap fun out =>
    match out with
    | (.tick j _ _, .frame snap) => if j = i then some snap else none
    | _ => none

/-- The latest frame of a stream, against the catalog. -/
structure UpTo (i : ℕ) (last : CatalogSnapshot) (s : Session yaml lib) : Prop where
  opened : i < s.streams.length
  seen : ∀ n, s.streams[i]? = some (some n) → n = last.observations
  behind : last.observations ≤ s.catalog.observations
  current : last.observations = s.catalog.observations → ∃ order, last = s.catalog.snapshot order

theorem observations_observe (lower : Char → Char) (c : Catalog) (o : Setup.Observation) :
    (c.observe lower o).observations = c.observations + 1 := by
  cases ho : sightedProcess lower o with
  | none => rw [Catalog.observe_blank ho]
  | some key =>
    rw [Catalog.observe_sighted ho, Catalog.observations_evictApps]
    rfl

/-- A request leaves the catalog and the open streams as they are, and may open another one. -/
theorem handleHTTP_streams (site : Site) (s : Session yaml lib) (r : HTTPRequest) (fg : Foreground) (order : MapOrder)
    (faults : SaveFaults yaml) : (s.handleHTTP site r fg order faults).1.catalog = s.catalog ∧
      s.streams <+: (s.handleHTTP site r fg order faults).1.streams := by
  cases hadmits : site.admits r with
  | false =>
    have hsame := (Session.handleHTTP_of_not_admits hadmits s fg order faults).1
    have hcatalog := congrArg Session.catalog hsame
    have hstreams := congrArg Session.streams hsame
    exact ⟨hcatalog, hstreams ▸ List.prefix_rfl⟩
  | true =>
    rw [Session.handleHTTP_of_admits hadmits]
    cases apiMux.route r.method r.path with
    | redirect path => exact ⟨rfl, List.prefix_rfl⟩
    | methodNotAllowed allow => exact ⟨rfl, List.prefix_rfl⟩
    | notFound => exact ⟨rfl, List.prefix_rfl⟩
    | asterisk options => exact ⟨rfl, List.prefix_rfl⟩
    | handler route =>
      rw [answerRouted]
      cases route with
      | getConfig | preview | save | quit => exact ⟨rfl, List.prefix_rfl⟩
      | catalog =>
        simp only [Session.handleAPI, Session.handleCatalog]
        split
        · exact ⟨rfl, List.prefix_append _ _⟩
        · exact ⟨rfl, List.prefix_rfl⟩
      | putConfig =>
        simp only [Session.handleAPI, Session.handlePutConfig]
        split <;> exact ⟨rfl, List.prefix_rfl⟩
      | regexTest =>
        simp only [Session.handleAPI, Session.handleRegexTest]
        split <;> exact ⟨rfl, List.prefix_rfl⟩
      | regexSuggest =>
        simp only [Session.handleAPI, Session.handleRegexSuggest]
        split <;> exact ⟨rfl, List.prefix_rfl⟩

theorem tick_cases (s : Session yaml lib) (j : ℕ) (order : MapOrder) (writes : Bool) :
    (s.tick j order writes = (s, .nothing) ∧ ∀ n, s.streams[j]? = some (some n) → n = s.catalog.observations) ∨
      s.tick j order writes = ({ s with streams := s.streams.set j none }, .nothing) ∨
      (∃ seen, s.streams[j]? = some (some seen) ∧ s.catalog.observations ≠ seen) ∧
        (s.catalog.snapshot order).marshals = true ∧ s.tick j order writes =
          ({ s.touch with streams := s.streams.set j (some s.catalog.observations) },
            .frame (s.catalog.snapshot order)) := by
  simp only [Session.tick]
  split
  · rename_i seen hseen
    split_ifs with hsame hwrites
    · refine .inl ⟨rfl, fun n hn => ?_⟩
      rw [hseen] at hn
      cases hn
      exact hsame.symm
    · rw [Bool.and_eq_true] at hwrites
      exact .inr (.inr ⟨⟨seen, hseen, hsame⟩, hwrites.1, rfl⟩)
    · exact .inr (.inl rfl)
  · rename_i hclosed
    exact .inl ⟨rfl, fun n hn => absurd hn (hclosed n)⟩

section Stream
variable {i : ℕ} {last : CatalogSnapshot} {s : Session yaml lib}

/-- Another stream has moved. -/
theorem UpTo.set_ne (h : UpTo i last s) {j : ℕ} (hj : j ≠ i) (stream : Option ℕ) (touched : Bool) :
    UpTo i last { s with streams := s.streams.set j stream, touched } where
  opened := by simpa using h.opened
  seen n hn := h.seen n (by simpa [List.getElem?_set_ne hj] using hn)
  behind := h.behind
  current := h.current

theorem UpTo.close (h : UpTo i last s) : UpTo i last { s with streams := s.streams.set i none } where
  opened := by simpa using h.opened
  seen n hn := by simp [h.opened] at hn
  behind := h.behind
  current := h.current

theorem UpTo.sent (h : UpTo i last s) (order : MapOrder) :
    UpTo i (s.catalog.snapshot order) { s.touch with streams := s.streams.set i (some s.catalog.observations) } where
  opened := by simpa using h.opened
  seen n hn := by
    rw [List.getElem?_set_self h.opened] at hn
    cases hn
    rfl
  behind := le_rfl
  current _ := ⟨order, rfl⟩

theorem UpTo.counted (h : UpTo i last s) {c : Catalog} (hc : c.observations = s.catalog.observations + 1) :
    UpTo i last { s with catalog := c } where
  opened := h.opened
  seen := h.seen
  behind := by
    rw [hc]
    exact h.behind.trans (Nat.le_succ _)
  current heq := by
    have hbehind := h.behind
    rw [hc] at heq
    omega

theorem UpTo.of_isPrefix (h : UpTo i last s) {t : Session yaml lib} (hcatalog : t.catalog = s.catalog)
    (hstreams : s.streams <+: t.streams) : UpTo i last t where
  opened := h.opened.trans_le hstreams.length_le
  seen n hn := by
    obtain ⟨more, hmore⟩ := hstreams
    rw [← hmore, List.getElem?_append_left h.opened] at hn
    exact h.seen n hn
  behind := by
    rw [hcatalog]
    exact h.behind
  current := by
    rw [hcatalog]
    exact h.current

@[simp] theorem framesOf_nil (i : ℕ) : framesOf i ([] : List (Setup.Event yaml × Output)) = [] := rfl

@[simp] theorem framesOf_nothing (i : ℕ) (e : Setup.Event yaml) : framesOf i [(e, .nothing)] = [] := by cases e <;> rfl

@[simp] theorem framesOf_reply (i : ℕ) (e : Setup.Event yaml) (reply : Reply) : framesOf i [(e, .reply reply)] = [] := by
  cases e <;> rfl

@[simp] theorem framesOf_frame (i j : ℕ) (order : MapOrder) (writes : Bool) (snap : CatalogSnapshot) :
    framesOf i [((.tick j order writes : Setup.Event yaml), .frame snap)] = if j = i then [snap] else [] := by
  by_cases h : j = i <;> simp [framesOf, h]

theorem framesOf_append (i : ℕ) (outs outs' : List (Setup.Event yaml × Output)) :
    framesOf i (outs ++ outs') = framesOf i outs ++ framesOf i outs' := List.filterMap_append

theorem framesOf_cons (i : ℕ) (out : Setup.Event yaml × Output) (outs : List (Setup.Event yaml × Output)) :
    framesOf i (out :: outs) = framesOf i [out] ++ framesOf i outs := framesOf_append i [out] outs

/-- A step of the session sends the stream nothing, or a frame that has counted more than the last one. -/
theorem UpTo.step (h : UpTo i last s) (site : Site) (e : Setup.Event yaml) :
    framesOf i [(e, (Session.step site s e).2)] = [] ∧ UpTo i last (Session.step site s e).1 ∨
      ∃ snap, framesOf i [(e, (Session.step site s e).2)] = [snap] ∧ snap.marshals = true ∧
        last.observations < snap.observations ∧ UpTo i snap (Session.step site s e).1 := by
  cases e with
  | observe o =>
    rw [Session.step, framesOf_nothing]
    exact .inl ⟨rfl, h.counted (observations_observe lib.lower s.catalog o)⟩
  | request r fg order faults =>
    obtain ⟨hcatalog, hstreams⟩ := handleHTTP_streams site s r fg order faults
    rw [Session.step, framesOf_reply]
    exact .inl ⟨rfl, h.of_isPrefix hcatalog hstreams⟩
  | leave j =>
    rw [Session.step, framesOf_nothing]
    by_cases hj : j = i
    · subst hj
      exact .inl ⟨rfl, h.close⟩
    · exact .inl ⟨rfl, h.set_ne hj none s.touched⟩
  | tick j order writes =>
    rw [Session.step]
    rcases tick_cases s j order writes with ⟨hquiet, -⟩ | hend | ⟨⟨seen, hseen, hchanged⟩, hmarshals, hframe⟩
    · rw [hquiet, framesOf_nothing]
      exact .inl ⟨rfl, h⟩
    · rw [hend, framesOf_nothing]
      by_cases hj : j = i
      · subst hj
        exact .inl ⟨rfl, h.close⟩
      · exact .inl ⟨rfl, h.set_ne hj none s.touched⟩
    · rw [hframe, framesOf_frame]
      by_cases hj : j = i
      · subst hj
        rw [if_pos rfl]
        have hless : last.observations < s.catalog.observations :=
          lt_of_le_of_ne h.behind fun heq => hchanged (heq ▸ (h.seen seen hseen).symm)
        exact .inr ⟨_, rfl, hmarshals, hless, h.sent order⟩
      · rw [if_neg hj]
        exact .inl ⟨rfl, h.set_ne hj (some s.catalog.observations) true⟩

/-- What a stream has sent after a run. -/
theorem UpTo.run (h : UpTo i last s) (site : Site) (es : List (Setup.Event yaml)) :
    (last :: framesOf i (answers (Session.step site) s es)).IsChain (fun a b => a.observations < b.observations) ∧
      (∀ snap ∈ framesOf i (answers (Session.step site) s es), snap.marshals = true) ∧
      UpTo i ((framesOf i (answers (Session.step site) s es)).getLastD last) (stateAfter (Session.step site) s es) := by
  induction es generalizing s last with
  | nil => exact ⟨.singleton _, fun snap hsnap => absurd hsnap List.not_mem_nil, h⟩
  | cons e es ih =>
    rw [answers_cons, stateAfter_cons, framesOf_cons]
    rcases h.step site e with ⟨hnone, hnext⟩ | ⟨snap, hsnap, hmarshals, hless, hnext⟩
    · rw [hnone, List.nil_append]
      exact ih hnext
    · obtain ⟨hchain, hall, hend⟩ := ih hnext
      rw [hsnap, List.singleton_append]
      refine ⟨.cons_cons hless hchain, ?_, ?_⟩
      · rw [List.forall_mem_cons]
        exact ⟨hmarshals, hall⟩
      · rw [List.getLastD_cons]
        exact hend

/-- After a tick that leaves the stream open, its last frame shows the catalog as it is. -/
theorem UpTo.tick (h : UpTo i last s) {order : MapOrder} {writes : Bool} {n : ℕ}
    (hopen : (s.tick i order writes).1.streams[i]? = some (some n)) :
    ∃ order', (framesOf i [((.tick i order writes : Setup.Event yaml), (s.tick i order writes).2)]).getLastD last =
      (s.tick i order writes).1.catalog.snapshot order' := by
  rcases tick_cases s i order writes with ⟨hquiet, hseen⟩ | hend | ⟨-, -, hframe⟩
  · rw [hquiet] at hopen ⊢
    rw [framesOf_nothing]
    exact h.current (by rw [← h.seen n hopen, hseen n hopen])
  · rw [hend] at hopen
    simp [h.opened] at hopen
  · rw [hframe, framesOf_frame, if_pos rfl]
    exact ⟨order, rfl⟩

end Stream

/-- A request for the catalog opens a stream with the snapshot of the moment. -/
theorem handleHTTP_catalog {site : Site} {s : Session yaml lib} {r : HTTPRequest} {fg : Foreground} {order : MapOrder}
    {faults : SaveFaults yaml} (hadmits : site.admits r = true) (hroute : apiMux.route r.method r.path = .handler .catalog)
    (hfirst : (s.catalog.snapshot order).marshals = true) :
    s.handleHTTP site r fg order faults =
      ({ s.touch with streams := s.streams ++ [some (s.catalog.snapshot order).observations] },
        ⟨200, .stream (some (s.catalog.snapshot order))⟩) := by
  have hsame : s.touch.catalog.snapshot order = s.catalog.snapshot order := rfl
  rw [Session.handleHTTP_of_admits hadmits, hroute, answerRouted, Session.handleAPI, Session.handleCatalog, hsame]
  dsimp only
  rw [if_pos hfirst]
  rfl

theorem UpTo.opening (s : Session yaml lib) (order : MapOrder) :
    UpTo s.streams.length (s.catalog.snapshot order)
      { s.touch with streams := s.streams ++ [some (s.catalog.snapshot order).observations] } where
  opened := by simp
  seen n hn := by simpa using hn.symm
  behind := le_rfl
  current _ := ⟨order, rfl⟩

theorem getLast?_framesOf (step : Session yaml lib → Setup.Event yaml → Session yaml lib × Output) (i : ℕ)
    (first : CatalogSnapshot) (s : Session yaml lib) (es : List (Setup.Event yaml)) (e : Setup.Event yaml) :
    (first :: framesOf i (answers step s (es ++ [e]))).getLast? =
      some ((framesOf i [(e, (step (stateAfter step s es) e).2)]).getLastD
        ((framesOf i (answers step s es)).getLastD first)) := by
  simp only [answers_append, answers_cons, answers_nil, framesOf_append, List.getLast?_cons, List.getLast?_append,
    List.getLastD_eq_getLast?]
  cases (framesOf i [(e, (step (stateAfter step s es) e).2)]).getLast? <;> rfl

/-- However a stream of the interface is interleaved with observations, requests, other streams and its own
ticks, and however its text is cut into chunks: the page is called with what it reads of the frames that have
arrived, in order and once each; every frame has counted more observations than the one before; and after a
tick that leaves the stream open, the last frame shows the catalog as it is. -/
theorem catalog_stream_follows (site : Site) (s : Session yaml lib) {r : HTTPRequest} (fg : Foreground)
    (order : MapOrder) (faults : SaveFaults yaml) (hadmits : site.admits r = true)
    (hroute : apiMux.route r.method r.path = .handler .catalog)
    (hfirst : (s.catalog.snapshot order).marshals = true) (es : List (Setup.Event yaml)) :
    let step : Session yaml lib → Setup.Event yaml → Session yaml lib × Output := Session.step site
    let i := s.streams.length
    let opened := (s.handleHTTP site r fg order faults).1
    let frames := s.catalog.snapshot order :: framesOf i (answers step opened es)
    (s.handleHTTP site r fg order faults).2 = ⟨200, .stream (some (s.catalog.snapshot order))⟩ ∧
      (∀ chunks : List (List Char), chunks.flatten <+: written codec frames →
        ∃ n ≤ frames.length,
          (streamCatalog codec chunks).calls.map (fun value => PageSnapshot.read (some value)) =
            (frames.take n).map (fun snap => some (.of snap)) ∧
          ∀ k ≤ frames.length, k ≤ n ↔ (written codec (frames.take k)).length ≤ chunks.flatten.length) ∧
      frames.IsChain (fun a b => a.observations < b.observations) ∧
      ∀ es' order' writes n, es = es' ++ [.tick i order' writes] →
        (stateAfter step opened es).streams[i]? = some (some n) →
        ∃ order'', frames.getLast? = some ((stateAfter step opened es).catalog.snapshot order'') := by
  intro step i opened frames
  have hreply : s.handleHTTP site r fg order faults = _ := handleHTTP_catalog hadmits hroute hfirst
  have hopened : UpTo i (s.catalog.snapshot order) opened := by
    simp only [opened, hreply]
    exact UpTo.opening s order
  obtain ⟨hchain, hall, -⟩ := hopened.run site es
  refine ⟨by rw [hreply], fun chunks hchunks => ?_, hchain, ?_⟩
  · have hsome : ∀ snap ∈ frames, (codec.encode snap).isSome := by
      simp only [frames, List.forall_mem_cons, isSome_encode]
      exact ⟨hfirst, hall⟩
    rw [← List.append_nil (written codec frames)] at hchunks
    obtain ⟨n, hn, hcalls, harrived⟩ := streamCatalog_calls codec_lawful hsome List.not_mem_nil hchunks
    refine ⟨n, hn, ?_, harrived⟩
    rw [hcalls, List.map_map]
    exact List.map_congr_left fun snap _ => read_snapshot snap
  · rintro es' order' writes n rfl hopen
    obtain ⟨-, -, hbefore⟩ := hopened.run site es'
    rw [stateAfter_append] at hopen ⊢
    obtain ⟨order'', hlast⟩ := hbefore.tick hopen
    refine ⟨order'', ?_⟩
    rw [getLast?_framesOf]
    exact congrArg some hlast

/-! ### A stream that sees the screen locked -/

namespace FeedSample

def order : MapOrder := ⟨id, List.Perm.refl⟩

def session : Session treeYaml plainLibrary := ⟨sampleServer, newCatalog ⟨20, 256⟩, [], false, false⟩

def request : HTTPRequest :=
  { sampleRequest "127.0.0.1:49152" "Bearer t0k" with
    path := "/api/catalog".toList, urlPath := "/api/catalog".toList.map .rune }

def opened : Session treeYaml plainLibrary := (session.handleHTTP sampleSite request ⟨"", none, 0⟩ order .never).1

def events : List (Setup.Event treeYaml) := [.observe ⟨"", "", ⟨1, 0⟩, order⟩, .tick 0 order true]

def frames : List CatalogSnapshot :=
  session.catalog.snapshot order :: framesOf 0 (answers (Session.step sampleSite) opened events)

theorem catalog_stream_follows_locked :
    (streamCatalog codec [written codec frames]).calls.map (fun value => PageSnapshot.read (some value)) =
        frames.map (fun snap => some (.of snap)) ∧
      ∃ order', frames.getLast? =
        some ((stateAfter (Session.step sampleSite) opened events).catalog.snapshot order') := by
  have hadmits : sampleSite.admits request = true := by decide
  have hroute : apiMux.route request.method request.path = .handler .catalog := by decide
  obtain ⟨-, hdecodes, -, hcurrent⟩ :=
    catalog_stream_follows sampleSite session ⟨"", none, 0⟩ order .never hadmits hroute rfl events
  constructor
  · have hbody : [written codec frames].flatten = written codec frames := List.flatten_singleton
    obtain ⟨n, -, hcalls, harrived⟩ := hdecodes [written codec frames] ⟨[], by rw [hbody, List.append_nil]; rfl⟩
    change _ = (frames.take n).map _ at hcalls
    have hn : frames.length ≤ n := by
      apply (harrived frames.length le_rfl).mpr
      rw [hbody]
      exact le_of_eq (congrArg (fun snaps => (written codec snaps).length) List.take_length)
    rwa [List.take_of_length_le hn] at hcalls
  · exact hcurrent [.observe ⟨"", "", ⟨1, 0⟩, order⟩] order true 1 rfl (by decide)

end FeedSample

end CyberstalkMe.Webui
