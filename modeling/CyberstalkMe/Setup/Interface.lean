import CyberstalkMe.Setup.Server
import CyberstalkMe.Setup.CatalogJSON
import CyberstalkMe.Setup.Guard
import CyberstalkMe.Setup.Suggest
import CyberstalkMe.Foundations.Unwinding

/-! # The setup interface over HTTP

The route table in front of the handlers. Requests to the API pass the guard, and the entry page and the
assets need only a host. The catalog is observed and streamed while requests come in, in any order.
-/
namespace CyberstalkMe.Setup

open Go Agent Foundations

/-! ### Routes -/

inductive Route
  | catalog
  | getConfig
  | putConfig
  | preview
  | regexTest
  | regexSuggest
  | save
  | quit
deriving DecidableEq, Repr

def apiMux : ServeMux Route := [
  (⟨some "GET", ["api", "catalog"], false⟩, .catalog),
  (⟨some "GET", ["api", "config"], false⟩, .getConfig),
  (⟨some "PUT", ["api", "config"], false⟩, .putConfig),
  (⟨some "GET", ["api", "preview"], false⟩, .preview),
  (⟨some "POST", ["api", "regex", "test"], false⟩, .regexTest),
  (⟨some "POST", ["api", "regex", "suggest"], false⟩, .regexSuggest),
  (⟨some "POST", ["api", "save"], false⟩, .save),
  (⟨some "POST", ["api", "quit"], false⟩, .quit)]

inductive Entry
  | api
  | index
deriving DecidableEq, Repr

def entryMux : ServeMux Entry := [(⟨none, ["api"], true⟩, .api), (⟨none, [], true⟩, .index)]

/-! ### Replies -/

structure RegexTestResult where
  test : PatternTest
  titles : List String
deriving DecidableEq, Repr

inductive Content
  | error (message : String)
  | text (text : String)
  | redirect (path : List Char)
  | methodNotAllowed (allow : List String)
  | page (html : String)
  | file (content : String)
  | state (state : State)
  | preview (preview : Preview)
  | tested (result : RegexTestResult)
  | pattern (pattern : String)
  | saved (result : SaveResult)
  | stopping
  | stream (first : Option CatalogSnapshot)

structure Reply where
  status : ℕ
  content : Content

def writeError (status : ℕ) (message : String) : Reply := ⟨status, .error message⟩

/-- What `http.ServeMux` makes of a request, with the handlers' part as a function. -/
def answerRouted {Handler : Type} {β : Type} (routed : Routed Handler) (other : Reply → β) (handle : Handler → β) : β :=
  match routed with
  | .handler h => handle h
  | .redirect path => other ⟨307, .redirect path⟩
  | .methodNotAllowed allow => other ⟨405, .methodNotAllowed allow⟩
  | .notFound => other ⟨404, .text "404 page not found"⟩
  | .asterisk options => other ⟨if options then 200 else 400, .text ""⟩

/-- The files of the bundle, and how a file server answers a request for one of them. -/
structure Assets where
  opens : List Octet → Bool
  serve : HTTPRequest → Reply

/-- `encoding/json` for the bodies of requests. -/
structure Bodies where
  draft : String → Option Draft
  regexTest : String → Option (String × String)
  suggest : String → Option String

/-- What stays the same during a session, and what every request may learn. -/
structure Site where
  access : Access
  index : Option (String → Option String)
  assets : Option Assets
  bodies : Bodies

/-- The bundle, when it has the file that a request names. -/
def Site.assetsFor (site : Site) (r : HTTPRequest) : Option Assets :=
  let name := match r.urlPath with
    | .rune '/' :: name => name
    | name => name
  site.assets.filter fun assets => r.urlPath ≠ [.rune '/'] && assets.opens name

/-- The entry page or an asset, for a request whose host is allowed. -/
def Site.indexReply (site : Site) (r : HTTPRequest) : Reply :=
  match site.assetsFor r with
  | some assets => assets.serve r
  | none =>
    match site.index with
    | none => ⟨404, .text "404 page not found"⟩
    | some render =>
      match render site.access.token with
      | none => writeError 500 "internal error"
      | some page => ⟨200, .page page⟩

/-! ### The session -/

variable {yaml : Yaml} {lib : Library}

/-- The server, the catalog and its open streams, each with the observations its last frame counted.
`touched` says that the idle countdown is to be restarted. -/
structure Session (yaml : Yaml) (lib : Library) where
  server : Server yaml lib
  catalog : Catalog
  streams : List (Option ℕ)
  touched : Bool
  quitting : Bool

/-- The tick of a stream and the end of one carry its number; the foreground window, the order of the
catalog's map and the file operations that fail are those at the time. -/
inductive Event (yaml : Yaml)
  | observe (o : Observation)
  | request (r : HTTPRequest) (fg : Foreground) (order : MapOrder) (faults : SaveFaults yaml)
  | tick (i : ℕ) (order : MapOrder) (writes : Bool)
  | leave (i : ℕ)

inductive Output
  | nothing
  | reply (reply : Reply)
  | frame (snapshot : CatalogSnapshot)

namespace Session

variable (s : Session yaml lib)

def touch : Session yaml lib := { s with touched := true }

def stop : Session yaml lib := { s with quitting := true }

/-! The handlers of the API. -/

/-- Open a stream with the first frame. One that cannot be encoded ends it. -/
def handleCatalog (order : MapOrder) : Session yaml lib × Reply :=
  let snap := s.catalog.snapshot order
  if snap.marshals then ({ s with streams := s.streams ++ [some snap.observations] }, ⟨200, .stream (some snap)⟩)
  else (s, ⟨200, .stream none⟩)

def handlePutConfig (site : Site) (r : HTTPRequest) : Session yaml lib × Reply :=
  match site.bodies.draft r.body with
  | none => (s, writeError 400 "malformed request body")
  | some draft =>
    let out := s.server.handlePutConfig draft
    ({ s with server := out.2 }, ⟨200, .state out.1⟩)

def handleRegexTest (site : Site) (r : HTTPRequest) (order : MapOrder) : Session yaml lib × Reply :=
  match site.bodies.regexTest r.body with
  | none => (s, writeError 400 "malformed request body")
  | some (pattern, process) =>
    let titles :=
      if process = "" then (s.catalog.snapshot order).apps.flatMap fun app => app.samples.map TitleSample.title
      else s.catalog.titles lib.lower process
    (s, ⟨200, .tested ⟨testPattern lib.toLibrary pattern titles, titles⟩⟩)

def handleRegexSuggest (site : Site) (r : HTTPRequest) : Session yaml lib × Reply :=
  match site.bodies.suggest r.body with
  | none => (s, writeError 400 "malformed request body")
  | some title => (s, ⟨200, .pattern (suggestPattern title)⟩)

def handleSave (faults : SaveFaults yaml) : Session yaml lib × Reply :=
  let out := s.server.handleSave faults
  ({ s with server := out.2 }, ⟨out.1.status, .saved out.1.toSaveResult⟩)

def handleAPI (site : Site) (r : HTTPRequest) (fg : Foreground) (order : MapOrder) (faults : SaveFaults yaml) :
    Route → Session yaml lib × Reply
  | .catalog => s.handleCatalog order
  | .getConfig => (s, ⟨200, .state s.server.handleGetConfig⟩)
  | .putConfig => s.handlePutConfig site r
  | .preview => (s, ⟨200, .preview (s.server.handlePreview fg)⟩)
  | .regexTest => s.handleRegexTest site r order
  | .regexSuggest => s.handleRegexSuggest site r
  | .save => s.handleSave faults
  | .quit => (s.stop, ⟨200, .stopping⟩)

def guarded (site : Site) (r : HTTPRequest) (fg : Foreground) (order : MapOrder) (faults : SaveFaults yaml) :
    Session yaml lib × Reply :=
  if !site.access.originAllowed r then (s, writeError 403 "cross-origin request rejected")
  else if !site.access.tokenAllowed r then (s, writeError 401 "missing or invalid setup token")
  else answerRouted (apiMux.route r.method r.path) (fun reply => (s.touch, reply))
    (s.touch.handleAPI site r fg order faults)

def handleIndex (site : Site) (r : HTTPRequest) : Session yaml lib × Reply :=
  if !site.access.hostAllowed r.host then (s, writeError 403 "cross-origin request rejected")
  else (s.touch, site.indexReply r)

def handleHTTP (site : Site) (r : HTTPRequest) (fg : Foreground) (order : MapOrder) (faults : SaveFaults yaml) :
    Session yaml lib × Reply :=
  answerRouted (entryMux.route r.method r.path) (fun reply => (s, reply)) fun
    | .api => s.guarded site r fg order faults
    | .index => s.handleIndex site r

/-- The ticker of a stream. A frame is sent when there were observations since the last one, and a frame
that cannot be encoded or written ends the stream. -/
def tick (i : ℕ) (order : MapOrder) (writes : Bool) : Session yaml lib × Output :=
  match s.streams[i]? with
  | some (some seen) =>
    let snap := s.catalog.snapshot order
    if snap.observations = seen then (s, .nothing)
    else if snap.marshals && writes then ({ s.touch with streams := s.streams.set i (some snap.observations) }, .frame snap)
    else ({ s with streams := s.streams.set i none }, .nothing)
  | _ => (s, .nothing)

def step (site : Site) (s : Session yaml lib) : Event yaml → Session yaml lib × Output
  | .observe o => ({ s with catalog := s.catalog.observe lib.lower o }, .nothing)
  | .request r fg order faults =>
    let out := s.handleHTTP site r fg order faults
    (out.1, .reply out.2)
  | .tick i order writes => s.tick i order writes
  -- the client of a stream is gone, or the stream has seen the session end
  | .leave i => ({ s with streams := s.streams.set i none }, .nothing)

end Session

end CyberstalkMe.Setup
