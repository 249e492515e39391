import CyberstalkMe.Go.ServeMux

/-! # Who may use the setup interface

The API answers a request only when its host and origin are the server's own and it carries the token of
the session.
-/
namespace CyberstalkMe.Setup

open Go

/-- What the server looks at of a request. An absent header is the empty text; `path` is the path as it
was sent, and `urlPath` the decoded one. -/
structure HTTPRequest where
  method : String
  path : List Char
  urlPath : List Octet
  host : String
  origin : String
  authorization : String
  body : String
deriving DecidableEq, Repr

/-- `foldRune` for decoded octets, of which only two sequences of bytes fold to a letter. -/
def foldOctets : List Octet → Option (List Char)
  | [] => some []
  | .rune c :: rest => (foldOctets rest).map fun cs => foldRune c :: cs
  | .byte 0xc5 :: .byte 0xbf :: rest => (foldOctets rest).map fun cs => 's' :: cs
  | .byte 0xe2 :: .byte 0x84 :: .byte 0xaa :: rest => (foldOctets rest).map fun cs => 'k' :: cs
  | .byte _ :: _ => none

/-- Every spelling of this server for a URL with the port. -/
def loopbackHosts (port : String) : List String := ["127.0.0.1:" ++ port, "localhost:" ++ port, "[::1]:" ++ port]

structure Access where
  token : String
  allowedHosts : List String
deriving DecidableEq, Repr

namespace Access

variable (access : Access)

def hostAllowed (host : String) : Bool :=
  access.allowedHosts.any fun allowed => host.toList.map foldRune = allowed.toList.map foldRune

def urlHostAllowed (host : List Octet) : Bool :=
  access.allowedHosts.any fun allowed => foldOctets host = some (allowed.toList.map foldRune)

/-- A request without an origin is let through. -/
def originAllowed (r : HTTPRequest) : Bool :=
  access.hostAllowed r.host &&
    (r.origin = "" ||
      match URL.parse r.origin with
      | none => false
      | some u => u.scheme = "http".toList && access.urlHostAllowed u.host)

def tokenAllowed (r : HTTPRequest) : Bool :=
  let bearer := "Bearer ".toList
  bearer.isPrefixOf r.authorization.toList &&
    trimRunes (r.authorization.toList.drop bearer.length) = access.token.toList

end Access

end CyberstalkMe.Setup
