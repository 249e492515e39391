import CyberstalkMe.Go.URL
import Mathlib.Data.List.Sort

/-! # Routing

`http.ServeMux` for patterns without wildcards: a path is compared segment by segment after its escapes
are decoded, and a pattern that ends in a slash takes every path below it. The path of a CONNECT is empty or
taken as it is, and a request for `*` reaches no handler.
-/
namespace CyberstalkMe.Go

/-- A pattern, `GET /a/b` or `/a/b/`. -/
structure Pattern where
  method : Option String
  path : List String
  subtree : Bool
deriving DecidableEq, Repr

def segments (path : List Char) : List (List Char) := (path.drop 1).splitOn '/'

/-- A segment with its escapes decoded. One that cannot be decoded stands for itself. -/
def pathUnescape (segment : List Char) : List Octet :=
  (URL.unescape .path segment).getD (segment.map .rune)

/-- The segments of a rooted path without empty and dot segments, the last one first. -/
def cleanSegments : List (List Char) → List (List Char) → List (List Char)
  | kept, [] => kept
  | kept, segment :: rest =>
    if segment = [] ∨ segment = ['.'] then cleanSegments kept rest
    else if segment = ['.', '.'] then cleanSegments kept.tail rest
    else cleanSegments (segment :: kept) rest

/-- `cleanPath`: the path without empty and dot segments, with its last slash. -/
def cleanPath (path : List Char) : List Char :=
  let path := if path.head? = some '/' then path else '/' :: path
  let clean := ((cleanSegments [] (segments path)).reverse.map fun segment => '/' :: segment).flatten
  if path.getLast? = some '/' ∨ clean = [] then clean ++ ['/'] else clean

namespace Pattern

def matchesMethod (p : Pattern) (method : String) : Bool :=
  p.method.all fun m => m = method || (m = "GET" && method = "HEAD")

def matchesPath (p : Pattern) (path : List Char) : Bool :=
  let given := (segments path).map pathUnescape
  let literal := p.path.map fun segment => segment.toList.map Octet.rune
  path ≠ [] && if p.subtree then literal.isPrefixOf given && literal.length < given.length else given = literal

/-- The pattern takes this path and not what is below it. -/
def isExact (p : Pattern) (path : List Char) : Bool :=
  !p.subtree || (path.getLast? = some '/' && p.path.length + 1 = path.count '/')

end Pattern

/-- Patterns with their handlers. Two of the same path differ in the method. -/
abbrev ServeMux (Handler : Type) := List (Pattern × Handler)

inductive Routed (Handler : Type)
  | handler (h : Handler)
  | redirect (path : List Char)
  | methodNotAllowed (allow : List String)
  | notFound
  /-- A request for `*`: the server itself answers its OPTIONS, and the mux rejects the others. -/
  | asterisk (options : Bool)
deriving DecidableEq, Repr

namespace ServeMux

variable {Handler : Type} (mux : ServeMux Handler)

/-- The more specific of the patterns that match: one without a subtree, and else the longest. -/
def find (method : String) (path : List Char) : Option (Pattern × Handler) :=
  let found := mux.filter fun p => p.1.matchesMethod method && p.1.matchesPath path
  match found.find? fun p => !p.1.subtree with
  | some p => some p
  | none => found.foldl (fun best p =>
      if best.all fun b => b.1.path.length < p.1.path.length then some p else best) none

def matchingMethods (path : List Char) : List String :=
  let methods := (mux.filter fun p => p.1.matchesPath path).filterMap fun p => p.1.method
  ((if "GET" ∈ methods then ["HEAD"] else []) ++ methods).dedup.insertionSort (· ≤ ·)

/-- `findHandler`. The path of a redirect is the one that is looked up next. -/
def route (method : String) (escapedPath : List Char) : Routed Handler :=
  let path := if method = "CONNECT" then escapedPath else cleanPath escapedPath
  let found := mux.find method path
  if escapedPath = ['*'] then .asterisk (method = "OPTIONS")
  else if !found.any (fun p => p.1.isExact path) && path ≠ [] && path.getLast? ≠ some '/' &&
      (mux.find method (path ++ ['/'])).any fun p => p.1.isExact (path ++ ['/']) then
    .redirect (cleanPath path ++ ['/'])
  else if path ≠ escapedPath then .redirect path
  else match found with
    | some p => .handler p.2
    | none =>
      match mux.matchingMethods path with
      | [] => .notFound
      | methods => .methodNotAllowed methods

end ServeMux

end CyberstalkMe.Go
