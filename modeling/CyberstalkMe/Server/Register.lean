import CyberstalkMe.Agent.Valid
import CyberstalkMe.Store.Tables
import CyberstalkMe.Webui.Snippet

/-! # Registering a device

`register-device` stores the hash of a new token and prints the token once,
together with the lines of a client configuration. The setup page reads these
lines back.
-/
namespace CyberstalkMe.Server

open Foundations Go Store Webui

/-- What the command takes from outside: its environment, the database, random bytes, the clock, the hash
of a token and the spelling of `%q`. -/
structure Host where
  getenv : String → String
  openDB : String → Except String DB
  newStore : DB → Except String DB
  randomBytes : Except String (Vector UInt8 32)
  registerErr : Option String
  now : Time
  hashToken : String → String
  quote : String → String

def usage : String := "usage: register-device <id> <name> <type> [--server-url URL] [--sqlite-path PATH]"

structure Arguments where
  serverURL : String
  sqlitePath : String
  positional : List String

/-- Flags may stand before or after the positional arguments. -/
def readArguments : Arguments → List String → Except String Arguments
  | parsed, [] => .ok parsed
  | parsed, a :: args =>
    if a = "--server-url" then
      match args with
      | [] => .error "--server-url requires a value"
      | v :: args => readArguments { parsed with serverURL := v } args
    else if a = "--sqlite-path" then
      match args with
      | [] => .error "--sqlite-path requires a value"
      | v :: args => readArguments { parsed with sqlitePath := v } args
    else if a = "-h" ∨ a = "--help" then .error usage
    else readArguments { parsed with positional := parsed.positional ++ [a] } args

def hexDigit (n : ℕ) : Char := Nat.digitChar n

/-- `hex.EncodeToString`. -/
def encodeHex (bytes : List UInt8) : List Char :=
  bytes.flatMap fun b => [hexDigit (b.toNat / 16), hexDigit (b.toNat % 16)]

def generateToken (host : Host) : Except String String :=
  match host.randomBytes with
  | .ok bytes => .ok (String.ofList (encodeHex bytes.toList))
  | .error err => .error err

/-- What is printed for the user. -/
def registration (serverURL id token : String) : String :=
  "Device registered. This token is shown ONCE — copy it now:\n\n" ++
    "  token: " ++ token ++ "\n\n" ++
    "Client config (config.yaml):\n\n" ++
    "  server_url: " ++ serverURL ++ "\n  device_id: " ++ id ++ "\n  token: " ++ token ++ "\n  interval: 10s\n"

/-- What a successful run leaves, and the values that its text is about. -/
structure Registered where
  db : DB
  serverURL : String
  id : String
  token : String
  printed : String

/-- An error with what was being done in front of it. -/
def wrap {α : Type} (context : String) : Except String α → Except String α
  | .ok a => .ok a
  | .error err => .error (context ++ ": " ++ err)

def runRegister (host : Host) (args : List String) : Except String Registered := do
  let sqlitePath := if host.getenv "SQLITE_PATH" = "" then "cyberstalk.db" else host.getenv "SQLITE_PATH"
  let parsed ← readArguments ⟨"http://localhost:8080", sqlitePath, []⟩ args
  match parsed.positional with
  | [id, name, deviceType] =>
    if deviceType ≠ "windows" ∧ deviceType ≠ "android" then
      .error ("type must be windows or android, got " ++ host.quote deviceType)
    else
      let db ← wrap "open db" (host.openDB parsed.sqlitePath)
      let db ← wrap "init store" (host.newStore db)
      let token ← wrap "generate token" (generateToken host)
      match host.registerErr with
      | some err => .error ("register device: register device " ++ id ++ ": " ++ err)
      | none =>
        .ok { db := registerDevice db id name deviceType (host.hashToken token) host.now.utc
              serverURL := parsed.serverURL
              id
              token
              printed := registration parsed.serverURL id token }
  | _ => .error usage

/-! ### The printed lines -/

def registrationLines (serverURL id token : List Char) : List (List Char) :=
  ["Device registered. This token is shown ONCE — copy it now:".toList, [], "  token: ".toList ++ token, [],
    "Client config (config.yaml):".toList, [], "  server_url: ".toList ++ serverURL, "  device_id: ".toList ++ id,
    "  token: ".toList ++ token, "  interval: ".toList ++ "10s".toList]

theorem registration_toList (serverURL id token : String) :
    (registration serverURL id token).toList =
      (registrationLines serverURL.toList id.toList token.toList).flatMap fun line => line ++ ['\n'] := by
  have hfirst : "Device registered. This token is shown ONCE — copy it now:\n\n".toList =
      "Device registered. This token is shown ONCE — copy it now:".toList ++ ['\n', '\n'] := by decide +kernel
  have hblank : "\n\n".toList = ['\n', '\n'] := by decide
  have hclient : "Client config (config.yaml):\n\n".toList =
      "Client config (config.yaml):".toList ++ ['\n', '\n'] := by decide +kernel
  have hid : "\n  device_id: ".toList = '\n' :: "  device_id: ".toList := by decide +kernel
  have htoken : "\n  token: ".toList = '\n' :: "  token: ".toList := by decide +kernel
  have hinterval : "\n  interval: 10s\n".toList = '\n' :: "  interval: ".toList ++ "10s".toList ++ ['\n'] := by
    decide +kernel
  delta registration registrationLines
  simp only [String.toList_append, hfirst, hblank, hclient, hid, htoken, hinterval]
  -- The literals are opaque from here on.
  generalize "Device registered. This token is shown ONCE — copy it now:".toList = first
  generalize "Client config (config.yaml):".toList = client
  generalize "  token: ".toList = tokenKey
  generalize "  server_url: ".toList = urlKey
  generalize "  device_id: ".toList = idKey
  generalize "  interval: ".toList = intervalKey
  generalize "10s".toList = interval
  simp

theorem registrationLines_oneLine {serverURL id token : List Char} (hurl : '\n' ∉ serverURL) (hid : '\n' ∉ id)
    (htoken : '\n' ∉ token) : ∀ line ∈ registrationLines serverURL id token, '\n' ∉ line := by
  delta registrationLines
  simp [hurl, hid, htoken]

/-- `toLowerCase` on a text of ASCII characters and dashes. -/
structure LowerCase (lower : String → String) : Prop where
  ascii : ∀ s, (s.toList.all fun c => c.toNat < 0x80 || c = '—') → lower s = String.ofList (s.toList.map Char.toLower)

/-- What the form reads from a value behind its key. -/
def readBack (value : List Char) : Option String :=
  if unquote (trimEnds isTrimmed value) = [] then none else some (String.ofList (unquote (trimEnds isTrimmed value)))

section Lines
variable {lower : String → String} (hlower : LowerCase lower) (found : ParsedConnection)

theorem readLine_prose {line : List Char} (hline : trimEnds isTrimmed line = line)
    (hkey : lower (String.ofList (trimEnds isTrimmed (line.takeWhile (· ≠ ':')))) ∉ connectionKeys) :
    readLine lower found line = found := by
  simp only [readLine, hline, if_pos hkey, ite_self]

include hlower

theorem readLine_registered :
    readLine lower found "Device registered. This token is shown ONCE — copy it now:".toList = found := by
  apply readLine_prose
  · decide +kernel
  · rw [hlower.ascii _ (by decide +kernel)]
    decide +kernel

theorem readLine_client : readLine lower found "Client config (config.yaml):".toList = found := by
  apply readLine_prose
  · decide +kernel
  · rw [hlower.ascii _ (by decide +kernel)]
    decide +kernel

theorem readLine_key (key start : String) (hkey : key ∈ connectionKeys)
    (hstart : start.toList = ' ' :: ' ' :: key.toList ++ [':', ' ']) (v : List Char) :
    readLine lower found (start.toList ++ v) = ((readBack v).map fun value => found.set key value).getD found := by
  have hkeys : ∀ key ∈ connectionKeys, ':' ∉ key.toList ∧ trimEnds isTrimmed key.toList = key.toList ∧
      key.toList.head? ≠ some '#' ∧ key.toList ≠ [] ∧ (key.toList.all fun c => c.toNat < 0x80 || c = '—') ∧
      String.ofList (key.toList.map Char.toLower) = key := by decide +kernel
  obtain ⟨hcolon, htrimmed, hcomment, hne, hascii, hfold⟩ := hkeys key hkey
  have hlowered : lower (String.ofList key.toList) = key := by
    rw [String.ofList_toList, hlower.ascii key hascii, hfold]
  have hline : start.toList ++ v = ' ' :: ' ' :: key.toList ++ ':' :: ' ' :: v := by
    rw [hstart]
    simp
  rw [hline, readLine_entry hcolon ((trimEnds_eq_self_iff isTrimmed).mp htrimmed) hcomment (by rwa [hlowered]) hne,
    hlowered, readBack]
  dsimp only
  split_ifs <;> rfl

end Lines

theorem readBack_eq_iff {value : String} (h : '\n' ∉ value.toList) :
    readBack value.toList = some value ↔ PlainValue value.toList := by
  rw [plainValue_iff h, readBack]
  split_ifs with hempty
  · rw [hempty]
    simp only [false_iff, not_and]
    exact fun hne hvalue => hne hvalue.symm
  · rw [Option.some_inj, ← String.toList_inj, String.toList_ofList]
    constructor
    · intro hvalue
      exact ⟨hvalue ▸ hempty, hvalue⟩
    · exact And.right

theorem foldl_registrationLines {lower : String → String} (hlower : LowerCase lower) (serverURL id : List Char)
    {token : String} (htoken : readBack token.toList = some token) :
    (registrationLines serverURL id token.toList).foldl (readLine lower) {} =
      { serverURL := readBack serverURL, deviceID := readBack id, token := some token, interval := some "10s" } := by
  have hinterval : readBack "10s".toList = some "10s" := by decide +kernel
  delta registrationLines
  simp only [List.foldl_cons, List.foldl_nil, readLine_registered hlower, readLine_client hlower, readLine_nil]
  rw [readLine_key hlower _ "token" "  token: " (by decide) (by decide +kernel),
    readLine_key hlower _ "server_url" "  server_url: " (by decide) (by decide +kernel),
    readLine_key hlower _ "device_id" "  device_id: " (by decide) (by decide +kernel),
    readLine_key hlower _ "token" "  token: " (by decide) (by decide +kernel),
    readLine_key hlower _ "interval" "  interval: " (by decide) (by decide +kernel), htoken, hinterval]
  cases readBack serverURL <;> cases readBack id <;> rfl

/-! ### Tokens -/

theorem hexDigit_plain : ∀ n < 16, isTrimmed (hexDigit n) = false ∧ isQuote (hexDigit n) = false ∧
    hexDigit n ≠ '#' ∧ hexDigit n ≠ '\n' := by decide +kernel

theorem encodeHex_plain {bytes : List UInt8} {c : Char} (h : c ∈ encodeHex bytes) :
    isTrimmed c = false ∧ isQuote c = false ∧ c ≠ '#' ∧ c ≠ '\n' := by
  rw [encodeHex, List.mem_flatMap] at h
  obtain ⟨b, -, hc⟩ := h
  have hb := b.toNat_lt
  simp only [List.mem_cons, List.not_mem_nil, or_false] at hc
  rcases hc with rfl | rfl
  · exact hexDigit_plain _ (by omega)
  · exact hexDigit_plain _ (by omega)

/-- A token is 64 hexadecimal digits, which are read back as they are. -/
theorem generateToken_plain {host : Host} {token : String} (h : generateToken host = .ok token) :
    token.toList.length = 64 ∧ PlainValue token.toList := by
  rw [generateToken] at h
  split at h
  · rename_i bytes hbytes
    cases h
    have hlength : (encodeHex bytes.toList).length = 64 := by
      simp [encodeHex]
    rw [String.toList_ofList]
    refine ⟨hlength, plainValue_of_forall (List.ne_nil_of_length_pos (by omega)) fun c hc => encodeHex_plain hc⟩
  · cases h

/-! ### The form reads the registration back -/

theorem runRegister_spec {host : Host} {args : List String} {r : Registered} (h : runRegister host args = .ok r) :
    r.printed = registration r.serverURL r.id r.token ∧ generateToken host = .ok r.token := by
  rw [runRegister] at h
  obtain ⟨parsed, -, h⟩ := bind_eq_ok.mp h
  split at h
  · split at h
    · cases h
    · obtain ⟨db, -, h⟩ := bind_eq_ok.mp h
      obtain ⟨db', -, h⟩ := bind_eq_ok.mp h
      obtain ⟨token, htoken, h⟩ := bind_eq_ok.mp h
      split at h
      · cases h
      · cases h
        refine ⟨rfl, ?_⟩
        cases hgenerated : generateToken host with
        | ok token' => simpa [hgenerated, wrap] using htoken
        | error err => simp [hgenerated, wrap] at htoken
  · cases h

def Registered.connection (r : Registered) : ParsedConnection where
  serverURL := some r.serverURL
  deviceID := some r.id
  token := some r.token
  interval := some "10s"

theorem parseRegisterSnippet_printed {host : Host} {args : List String} {r : Registered} {lower : String → String}
    (hlower : LowerCase lower) (h : runRegister host args = .ok r) (hurl : '\n' ∉ r.serverURL.toList)
    (hid : '\n' ∉ r.id.toList) :
    parseRegisterSnippet lower r.printed =
      some { r.connection with serverURL := readBack r.serverURL.toList, deviceID := readBack r.id.toList } := by
  obtain ⟨hprinted, htoken⟩ := runRegister_spec h
  obtain ⟨-, hplain⟩ := generateToken_plain htoken
  rw [parseRegisterSnippet, hprinted, registration_toList,
    foldl_splitLines (registrationLines_oneLine hurl hid hplain.oneLine),
    foldl_registrationLines hlower _ _ ((readBack_eq_iff hplain.oneLine).mpr hplain)]
  simp [Registered.connection]

/-- What the command prints is read back exactly when the server URL and the device id are plain values. -/
theorem parseRegisterSnippet_iff (host : Host) (args : List String) (r : Registered) (lower : String → String)
    (hlower : LowerCase lower) (h : runRegister host args = .ok r) :
    parseRegisterSnippet lower r.printed = some r.connection ↔
      PlainValue r.serverURL.toList ∧ PlainValue r.id.toList := by
  by_cases hlines : '\n' ∉ r.serverURL.toList ∧ '\n' ∉ r.id.toList
  · rw [parseRegisterSnippet_printed hlower h hlines.1 hlines.2, ← readBack_eq_iff hlines.1,
      ← readBack_eq_iff hlines.2]
    simp [Registered.connection]
  · constructor
    · intro hparse
      have honeLine := oneLine_parseRegisterSnippet hparse
      simp only [ParsedConnection.OneLine, Registered.connection, List.forall_mem_cons] at honeLine
      exact absurd ⟨honeLine.1 _ rfl, honeLine.2.1 _ rfl⟩ hlines
    · rintro ⟨hurl, hid⟩
      exact absurd ⟨hurl.oneLine, hid.oneLine⟩ hlines

/-- A machine with a new database, whose random bytes are all zero. -/
def sampleHost : Host where
  getenv _ := ""
  openDB _ := .ok .empty
  newStore := .ok
  randomBytes := .ok (Vector.replicate 32 0)
  registerErr := none
  now := Time.ofSeconds 0
  hashToken token := "hash of " ++ token
  quote s := "\"" ++ s ++ "\""

def asciiLower (s : String) : String := String.ofList (s.toList.map Char.toLower)

theorem lowerCase_asciiLower : LowerCase asciiLower := ⟨fun _ _ => rfl⟩

theorem parseRegisterSnippet_sample :
    ∃ r, runRegister sampleHost ["win-desktop", "PC", "windows"] = .ok r ∧
      parseRegisterSnippet asciiLower r.printed = some r.connection := by
  refine ⟨_, rfl, (parseRegisterSnippet_iff sampleHost ["win-desktop", "PC", "windows"] _ asciiLower
    lowerCase_asciiLower rfl).mpr ⟨?_, ?_⟩⟩
  · rw [plainValue_iff (by decide +kernel)]
    decide +kernel
  · rw [plainValue_iff (by decide +kernel)]
    decide +kernel

/-- A number sign behind a space is printed bare, so the rest of the id is read as a comment. -/
theorem numbered_device_truncated :
    ¬ ∀ (host : Host) (args : List String) (r : Registered) (lower : String → String), LowerCase lower →
      runRegister host args = .ok r → parseRegisterSnippet lower r.printed = some r.connection := by
  intro h
  have hrun : runRegister sampleHost ["pc #2", "PC", "windows"] = .ok _ := rfl
  have hread := h _ _ _ asciiLower lowerCase_asciiLower hrun
  rw [parseRegisterSnippet_printed lowerCase_asciiLower hrun (by decide +kernel) (by decide +kernel),
    Option.some_inj] at hread
  have hid : readBack "pc #2".toList = some "pc #2" := congrArg ParsedConnection.deviceID hread
  revert hid
  decide +kernel

end CyberstalkMe.Server
