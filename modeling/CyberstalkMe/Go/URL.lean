import CyberstalkMe.Go.Strings
import Mathlib.Tactic.Common

/-! # URLs

What `url.Parse` of Go 1.26 accepts and how it splits a URL. An escape for a byte
that is not ASCII stays a byte, since a decoded text need not be valid UTF-8.
-/
namespace CyberstalkMe.Go

/-- A character of a decoded text, or a byte of 0x80 or more that came from an escape. -/
inductive Octet
  | rune (c : Char)
  | byte (b : ℕ)
deriving DecidableEq, Repr

structure Userinfo where
  username : List Octet
  password : Option (List Octet)
deriving DecidableEq, Repr

structure URL where
  scheme : List Char := []
  opaquePart : List Char := []
  user : Option Userinfo := none
  host : List Octet := []
  path : List Octet := []
  rawQuery : List Char := []
  fragment : List Octet := []
deriving DecidableEq, Repr

namespace URL

/-- Where an escape or a character stands. -/
inductive Encoding
  | path
  | host
  | zone
  | userPassword
  | fragment
deriving DecidableEq, Repr

def isAlphanumeric (c : Char) : Bool := c.isAlpha || c.isDigit

def unhex (c : Char) : Option ℕ :=
  if c.isDigit then some (c.toNat - '0'.toNat)
  else if 'a' ≤ c ∧ c ≤ 'f' then some (c.toNat - 'a'.toNat + 10)
  else if 'A' ≤ c ∧ c ≤ 'F' then some (c.toNat - 'A'.toNat + 10)
  else none

/-- The ASCII characters that a host or a zone may not contain. -/
def shouldEscapeInHost (c : Char) : Bool :=
  !(isAlphanumeric c || c ∈ ("!$&'()*+,;=:[]<>\"-_.~".toList))

/-- Decode the escapes of a part of a URL, in the cases in which they are allowed there. -/
def unescape (mode : Encoding) : List Char → Option (List Octet)
  | [] => some []
  | '%' :: c :: d :: rest =>
    match unhex c, unhex d with
    | some hi, some lo =>
      let v := hi * 16 + lo
      let percent := c = '2' ∧ d = '5'
      if mode = .host ∧ hi < 8 ∧ ¬ percent then none
      else if mode = .zone ∧ ¬ percent ∧ v ≠ 0x20 ∧ (v < 0x80 → shouldEscapeInHost (Char.ofNat v)) then none
      else (unescape mode rest).map fun octets =>
        (if v < 0x80 then .rune (Char.ofNat v) else .byte v) :: octets
    | _, _ => none
  | '%' :: _ => none
  | c :: rest =>
    if (mode = .host ∨ mode = .zone) ∧ c.toNat < 0x80 ∧ shouldEscapeInHost c then none
    else (unescape mode rest).map fun octets => .rune c :: octets

/-- The scheme and what follows it; no scheme when the text before the colon is not one. -/
def getScheme (rawURL : List Char) : Option (List Char × List Char) :=
  let scheme := rawURL.takeWhile fun c => isAlphanumeric c || c ∈ ['+', '-', '.']
  match rawURL.drop scheme.length with
  | ':' :: rest =>
    match scheme with
    | [] => none
    | c :: _ => some (if c.isAlpha then (scheme, rest) else ([], rawURL))
  | _ => some ([], rawURL)

def validOptionalPort : List Char → Bool
  | [] => true
  | ':' :: port => port.all Char.isDigit
  | _ => false

def isHexDigit (c : Char) : Bool := (unhex c).isSome

/-- One field of an IPv4 address: a number up to 255 without leading zeros. -/
def isIPv4Field (field : List Char) : Bool :=
  field ≠ [] && field.all Char.isDigit && (field.head? ≠ some '0' || field.length = 1) &&
    Nat.ofDigitChars 10 field 0 ≤ 255

def isIPv4 (s : List Char) : Bool := (s.splitOn '.').length = 4 && (s.splitOn '.').all isIPv4Field

/-- The loop over the groups of an IPv6 address: the bytes filled, the place of the ellipsis and what
is left of the text. -/
def ipv6Loop : ℕ → ℕ → Option ℕ → List Char → Option (ℕ × Option ℕ × List Char)
  | 0, i, ellipsis, s => some (i, ellipsis, s)
  | n + 1, i, ellipsis, s =>
    let group := s.takeWhile isHexDigit
    if 4 < group.length ∨ group = [] then none
    else match s.drop group.length with
      | '.' :: _ =>
        if ellipsis = none ∧ i ≠ 12 ∨ 16 < i + 4 then none
        else if isIPv4 s then some (i + 4, ellipsis, []) else none
      | [] => some (i + 2, ellipsis, [])
      | [':'] => none
      | [':', ':'] => if ellipsis.isSome then none else some (i + 2, some (i + 2), [])
      | ':' :: ':' :: rest => if ellipsis.isSome then none else ipv6Loop n (i + 2) (some (i + 2)) rest
      | ':' :: rest => ipv6Loop n (i + 2) ellipsis rest
      | _ => none

/-- What `netip.ParseAddr` takes for an IPv6 address, without its zone. -/
def isIPv6 (s : List Char) : Bool :=
  s.find? (fun c => c = '.' || c = ':') = some ':' &&
    match s with
    | [':', ':'] => true
    | ':' :: ':' :: rest => accepts (ipv6Loop 8 0 (some 0) rest)
    | s => accepts (ipv6Loop 8 0 none s)
where
  /-- The address is as long as the fields, or shorter with an ellipsis. -/
  accepts : Option (ℕ × Option ℕ × List Char) → Bool
    | some (i, ellipsis, s) => s = [] && (if i < 16 then ellipsis.isSome else ellipsis.isNone)
    | none => false

/-- The characters of a decoded text that has no other bytes. -/
def runes? : List Octet → Option (List Char)
  | [] => some []
  | .rune c :: octets => (runes? octets).map fun cs => c :: cs
  | .byte _ :: _ => none

/-- Split at the first place where `sep` starts. -/
def cut (sep : List Char) : List Char → Option (List Char × List Char)
  | [] => none
  | c :: cs =>
    if sep.isPrefixOf (c :: cs) then some ([], c :: cs)
    else (cut sep cs).map fun p => (c :: p.1, p.2)

def parseIPLiteral (hostname : List Char) : Option (List Octet) :=
  match cut ['%', '2', '5'] hostname with
  | some (address, zone) => do
    let address ← unescape .host address
    let zone ← unescape .zone zone
    let cs ← runes? address
    if isIPv6 cs ∧ 1 < zone.length then some (address ++ zone) else none
  | none => do
    let address ← unescape .host hostname
    let cs ← runes? address
    if isIPv6 cs then some address else none

def parseHost (host : List Char) : Option (List Octet) :=
  match host with
  | '[' :: inner =>
    if '[' ∈ inner then none
    else
      let port := (inner.reverse.takeWhile (· ≠ ']')).reverse
      match (inner.reverse.dropWhile (· ≠ ']')).reverse with
      | [] => none
      | bracketed =>
        if validOptionalPort port then do
          let port ← unescape .host port
          let address ← parseIPLiteral bracketed.dropLast
          some (.rune '[' :: address ++ .rune ']' :: port)
        else none
  | host =>
    if '[' ∈ host then none
    else if validOptionalPort (host.dropWhile (· ≠ ':')) then unescape .host host
    else none

def validUserinfo (s : List Char) : Bool :=
  s.all fun c => isAlphanumeric c || c ∈ ("-._:~!$&'()*+,;=%@".toList)

def parseUser (userinfo : List Char) : Option Userinfo :=
  if validUserinfo userinfo then
    match userinfo.dropWhile (· ≠ ':') with
    | [] => (unescape .userPassword userinfo).map fun username => ⟨username, none⟩
    | _ :: password => do
      let username ← unescape .userPassword (userinfo.takeWhile (· ≠ ':'))
      let password ← unescape .userPassword password
      some ⟨username, some password⟩
  else none

def parseAuthority (authority : List Char) : Option (Option Userinfo × List Octet) :=
  let host := (authority.reverse.takeWhile (· ≠ '@')).reverse
  match (authority.reverse.dropWhile (· ≠ '@')).reverse with
  | [] => (parseHost host).map fun host => (none, host)
  | userinfo => do
    let host ← parseHost host
    let user ← parseUser userinfo.dropLast
    some (some user, host)

def parseBeforeFragment (rawURL : List Char) : Option URL :=
  if rawURL.any fun c => c.toNat < 0x20 || c.toNat = 0x7f then none
  else if rawURL = ['*'] then some { path := [.rune '*'] }
  else do
    let (scheme, rest) ← getScheme rawURL
    let scheme := scheme.map Char.toLower
    let rawQuery := (rest.dropWhile (· ≠ '?')).drop 1
    let rest := rest.takeWhile (· ≠ '?')
    if rest.head? ≠ some '/' ∧ scheme ≠ [] then some { scheme, rawQuery, opaquePart := rest }
    else if rest.head? ≠ some '/' ∧ ':' ∈ rest.takeWhile (· ≠ '/') then none
    else if (scheme ≠ [] ∨ ¬ ['/', '/', '/'].isPrefixOf rest) ∧ ['/', '/'].isPrefixOf rest then do
      let authority := (rest.drop 2).takeWhile (· ≠ '/')
      let (user, host) ← parseAuthority authority
      let path ← unescape .path ((rest.drop 2).dropWhile (· ≠ '/'))
      some { scheme, user, host, path, rawQuery }
    else do
      let path ← unescape .path rest
      some { scheme, path, rawQuery }

/-- `url.Parse`. -/
def parse (rawURL : String) : Option URL := do
  let url ← parseBeforeFragment (rawURL.toList.takeWhile (· ≠ '#'))
  let fragment ← unescape .fragment ((rawURL.toList.dropWhile (· ≠ '#')).drop 1)
  some { url with fragment }

end URL

end CyberstalkMe.Go
