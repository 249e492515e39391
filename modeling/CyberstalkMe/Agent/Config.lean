import CyberstalkMe.Go.Duration
import CyberstalkMe.Go.URL
import CyberstalkMe.Mapping.Errors

/-! # The agent's configuration

Normalization and validation have one implementation, which the loader of the
file and the setup interface share.
-/
namespace CyberstalkMe.Agent

open Go Foundations

/-- What the package takes from Go's library besides what `mapping` takes: the text of an error of
`url.Parse`. -/
structure Library extends Mapping.Library where
  urlError : String → String

structure Config where
  serverURL : String
  deviceID : String
  token : String
  interval : Duration
  deviceName : String
  idleThreshold : Duration
  defaultApp : String
  defaultDescription : String
  lockedApp : String
  lockedDescription : String
  rules : List Mapping.Rule
  exposeTitle : List String
deriving DecidableEq, Repr

/-! The values of keys that are absent. -/

def Default.interval : Duration := ⟨10000000000, by decide, by decide⟩
def Default.idleThreshold : Duration := ⟨300000000000, by decide, by decide⟩
def Default.app : String := "某个应用"
def Default.description : String := "使用中"
def Default.lockedApp : String := "已锁屏"
def Default.lockedDesc : String := "人不在"

/-- The zero value of the type. -/
def Config.empty : Config := ⟨"", "", "", .zero, "", .zero, "", "", "", "", [], []⟩

/-- Project the configuration onto the options of the mapper. -/
def Config.mapperOptions (c : Config) : Mapping.Options where
  rules := c.rules
  exposeTitle := c.exposeTitle
  defaultApp := c.defaultApp
  defaultDescription := c.defaultDescription
  lockedApp := c.lockedApp
  lockedDescription := c.lockedDescription
  idleThreshold := c.idleThreshold.nanos

/-! ### Durations -/

/-- `time.Duration(secs) * time.Second`, which wraps. -/
def secondsDuration (secs : ℤ) : Duration where
  nanos := (secs * 1000000000).bmod (2 ^ 64)
  lower := by
    have := Int.le_bmod (x := secs * 1000000000) (m := 2 ^ 64) (by decide)
    omega
  upper := by
    have := Int.bmod_lt (x := secs * 1000000000) (m := 2 ^ 64) (by decide)
    omega

/-- A Go duration, or a bare integer read as seconds. -/
def parseDuration (lib : Mapping.Library) (s : String) : Except String Duration :=
  let s := trimSpace s
  match Duration.parse s with
  | some d => .ok d
  | none =>
    match atoi s with
    | some secs => .ok (secondsDuration secs)
    | none => .error ("invalid duration " ++ lib.quote s ++ " (examples: 10s, 1m30s, or bare seconds 10)")

/-- The shortest exact unit, as a hand-written file has it. -/
def formatDuration (d : Duration) : String :=
  if d.nanos ≤ 0 then d.toText
  else if d.nanos % 3600000000000 = 0 then
    String.ofList (Duration.fmtInt (d.nanos / 3600000000000).toNat ++ ['h'])
  else if d.nanos % 60000000000 = 0 then
    String.ofList (Duration.fmtInt (d.nanos / 60000000000).toNat ++ ['m'])
  else if d.nanos % 1000000000 = 0 then
    String.ofList (Duration.fmtInt (d.nanos / 1000000000).toNat ++ ['s'])
  else d.toText

/-! ### Normalization -/

def orDefault (v default : String) : String :=
  if trimSpace v = "" then default else trimSpace v

/-- Zero means absent; a negative value is left to be rejected. -/
def durationOrDefault (d default : Duration) : Duration := if d = .zero then default else d

/-- The base URL without space around it and without slashes at its end. -/
def normalizeURL (s : String) : String := trimRight (trimSpace s) '/'

def withDescription (description : String) (r : Mapping.Rule) : Mapping.Rule :=
  if trimSpace r.description = "" then { r with description } else r

/-- Trim the scalar fields and fill in the defaults of those left empty. -/
def Config.normalize (c : Config) : Config :=
  let description := orDefault c.defaultDescription Default.description
  { serverURL := normalizeURL c.serverURL
    deviceID := trimSpace c.deviceID
    token := trimSpace c.token
    interval := durationOrDefault c.interval Default.interval
    deviceName := trimSpace c.deviceName
    idleThreshold := durationOrDefault c.idleThreshold Default.idleThreshold
    defaultApp := orDefault c.defaultApp Default.app
    defaultDescription := description
    lockedApp := orDefault c.lockedApp Default.lockedApp
    lockedDescription := orDefault c.lockedDescription Default.lockedDesc
    rules := c.rules.map (withDescription description)
    exposeTitle := c.exposeTitle }

@[simp] theorem serverURL_normalize (c : Config) : c.normalize.serverURL = normalizeURL c.serverURL := rfl

/-! ### Validation -/

/-- Why a configuration is not usable, with the YAML paths of the keys at fault. -/
structure ValidationError where
  source : String
  fields : List String
  message : String
deriving DecidableEq, Repr

def ValidationError.error (e : ValidationError) : String :=
  if e.source = "" then e.message else "config " ++ e.source ++ ": " ++ e.message

def ruleField (i : ℕ) (key : String) : String := "rules[" ++ toString i ++ "]." ++ key

def joinFields (paths : List String) : String := String.intercalate ", " paths

/-- The first rule, from rule `i` on, without a process or an app. -/
def validateRules (source : String) : ℕ → List Mapping.Rule → Except ValidationError Unit
  | _, [] => .ok ()
  | i, r :: rs =>
    if trimSpace r.process = "" then
      .error ⟨source, [ruleField i "process"], "rules[" ++ toString i ++ "].process must not be empty"⟩
    else if trimSpace r.app = "" then
      .error ⟨source, [ruleField i "app"],
        "rules[" ++ toString i ++ "] (" ++ r.process ++ "): app must not be empty"⟩
    else validateRules source (i + 1) rs

def validateRequired (source : String) (c : Config) : Except ValidationError Unit :=
  let missing := (if c.serverURL = "" then ["server_url"] else []) ++
    (if c.deviceID = "" then ["device_id"] else []) ++ (if c.token = "" then ["token"] else [])
  if missing ≠ [] then
    .error ⟨source, missing, joinFields missing ++
      " must not be empty (run `server register-device` and paste its snippet)"⟩
  else .ok ()

def validateURL (lib : Library) (source : String) (serverURL : String) : Except ValidationError Unit :=
  match URL.parse serverURL with
  | none =>
    .error ⟨source, ["server_url"],
      "server_url " ++ lib.quote serverURL ++ " is not a valid URL: " ++ lib.urlError serverURL⟩
  | some u =>
    if u.scheme ≠ "http".toList ∧ u.scheme ≠ "https".toList ∨ u.host = [] then
      .error ⟨source, ["server_url"],
        "server_url " ++ lib.quote serverURL ++ " must be http(s)://host[:port] with no path"⟩
    else .ok ()

def validateDurations (source : String) (c : Config) : Except ValidationError Unit :=
  if c.interval.nanos ≤ 0 then
    .error ⟨source, ["interval"], "interval must be positive, got " ++ c.interval.toText⟩
  else if c.idleThreshold.nanos ≤ 0 then
    .error ⟨source, ["idle_threshold"], "idle_threshold must be positive, got " ++ c.idleThreshold.toText⟩
  else .ok ()

/-- Building the mapper checks keys, duplicates, regular expressions and `expose_title`. -/
def validateMapper (lib : Library) (source : String) (c : Config) : Except ValidationError Unit :=
  match Mapping.Mapper.new lib.toLibrary c.mapperOptions with
  | .ok _ => .ok ()
  | .error e => .error ⟨source, [e.fieldPath], e.error⟩

/-- Whether the configuration is usable, with the first problem found. -/
def Config.validate (lib : Library) (source : String) (c : Config) : Except ValidationError Unit := do
  validateRequired source c
  validateURL lib source c.serverURL
  validateDurations source c
  validateRules source 0 c.rules
  validateMapper lib source c

/-! ### Durations read back -/

/-- A spelling that `FormatDuration` chooses starts with a digit or a sign and ends in a unit. -/
theorem formatDuration_shape (d : Duration) :
    ∃ c cs u, formatDuration d = String.ofList (c :: cs ++ [u]) ∧ (c.isDigit ∨ c = '-') ∧ u ∈ ['s', 'm', 'h'] := by
  have htext : ∃ c cs u, d.toText = String.ofList (c :: cs ++ [u]) ∧ (c.isDigit ∨ c = '-') ∧
      u ∈ ['s', 'm', 'h'] := by
    obtain ⟨c, cs, hshape, hc⟩ := d.toText_shape
    exact ⟨c, cs, 's', hshape, hc, by decide⟩
  have hwhole : ∀ v u, u ∈ ['s', 'm', 'h'] → ∃ c cs u', String.ofList (Duration.fmtInt v ++ [u]) =
      String.ofList (c :: cs ++ [u']) ∧ (c.isDigit ∨ c = '-') ∧ u' ∈ ['s', 'm', 'h'] := fun v u hu => by
    obtain ⟨c, cs, hcs⟩ := List.exists_cons_of_ne_nil (Duration.fmtInt_ne_nil v)
    exact ⟨c, cs, u, by rw [hcs], .inl (Duration.isDigit_fmtInt (hcs ▸ List.mem_cons_self)), hu⟩
  rw [formatDuration]
  split_ifs
  · exact htext
  · exact hwhole _ _ (by decide)
  · exact hwhole _ _ (by decide)
  · exact hwhole _ _ (by decide)
  · exact htext

theorem trimSpace_formatDuration (d : Duration) : trimSpace (formatDuration d) = formatDuration d := by
  obtain ⟨c, cs, u, hshape, hc, hu⟩ := formatDuration_shape d
  rw [hshape]
  apply trimSpace_of_trimmed
  rw [String.toList_ofList]
  constructor
  · rintro a ⟨⟩
    rcases hc with hc | rfl
    · simp [isSpace_of_isDigit hc]
    · decide
  · rw [List.getLast?_append]
    rintro a ⟨⟩
    simp only [List.mem_cons, List.not_mem_nil, or_false] at hu
    rcases hu with rfl | rfl | rfl <;> decide

theorem parse_wholeUnits {d : Duration} {unit : ℕ} {u : Char} (hunit : Duration.unitMap [u] = some unit)
    (hd : 0 < d.nanos) (hmod : d.nanos % unit = 0) :
    Duration.parse (String.ofList (Duration.fmtInt (d.nanos / unit).toNat ++ [u])) = some d := by
  have hnat : ((d.nanos / unit).toNat * unit : ℕ) = d.nanos := by
    have hdiv := Int.ediv_mul_cancel_of_emod_eq_zero hmod
    have hnonneg : 0 ≤ d.nanos / unit := Int.ediv_nonneg hd.le (Int.natCast_nonneg _)
    rw [Nat.cast_mul, Int.toNat_of_nonneg hnonneg, hdiv]
  have hbound := d.natAbs_le
  rw [Duration.parse_whole hunit (by omega), hnat, Duration.ofInt?_nanos]

theorem parse_formatDuration (d : Duration) : Duration.parse (formatDuration d) = some d := by
  rw [formatDuration]
  split_ifs with hsign hhours hminutes hseconds
  · exact d.parse_toText
  · exact parse_wholeUnits rfl (by omega) hhours
  · exact parse_wholeUnits rfl (by omega) hminutes
  · exact parse_wholeUnits rfl (by omega) hseconds
  · exact d.parse_toText

/-- `ParseDuration` is the inverse of `FormatDuration`. -/
theorem parseDuration_formatDuration (lib : Mapping.Library) (d : Duration) :
    parseDuration lib (formatDuration d) = .ok d := by
  rw [parseDuration, trimSpace_formatDuration, parse_formatDuration]

end CyberstalkMe.Agent
