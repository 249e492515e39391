import CyberstalkMe.Agent.Durations
import CyberstalkMe.Agent.RoundTrip
import CyberstalkMe.Go.Location

/-! # The server's configuration

It comes from the environment. A value that is present must be usable; one that
is unset or blank has a default.
-/
namespace CyberstalkMe.Server

open Go Agent Foundations

/-- `os.LookupEnv`. -/
abbrev Environment := String → Option String

/-- What the package takes from Go's library: the spelling of `%q` and `time.LoadLocation`. -/
structure Library where
  quote : String → String
  loadLocation : String → Except String Zone

structure Config where
  addr : String
  sqlitePath : String
  offlineThreshold : Duration
  scanInterval : Duration
  usageRetentionDays : ℤ
  usagePruneInterval : Duration
  usageMaxGap : Duration
  displayTimezone : String
  location : Zone

/-! The values of variables that are unset. -/

def Default.offlineThreshold : Duration := ⟨60000000000, by decide, by decide⟩
def Default.scanInterval : Duration := ⟨5000000000, by decide, by decide⟩
def Default.usagePruneInterval : Duration := ⟨3600000000000, by decide, by decide⟩
def Default.usageRetentionDays : ℤ := 365

def getEnv (env : Environment) (key default : String) : String := (env key).getD default

/-- A variable that is neither unset nor blank. -/
def present (env : Environment) (key : String) : Option String := (env key).filter fun v => trimSpace v ≠ ""

def getEnvDuration (lib : Library) (env : Environment) (key : String) (default : Duration) :
    Except String Duration :=
  match present env key with
  | none => .ok default
  | some v =>
    match Duration.parse (trimSpace v) with
    | some d => .ok d
    | none =>
      match atoi (trimSpace v) with
      | some secs => .ok (secondsDuration secs)
      | none =>
        .error (key ++ ": invalid duration " ++ lib.quote v ++ " (examples: 90s, 1m30s, or bare seconds 90)")

def getEnvInt (lib : Library) (env : Environment) (key : String) (default : ℤ) : Except String ℤ :=
  match present env key with
  | none => .ok default
  | some v =>
    match atoi (trimSpace v) with
    | some n => .ok n
    | none => .error (key ++ ": invalid integer " ++ lib.quote v)

def loadLocation (lib : Library) (displayTimezone : String) : Except String Zone :=
  match lib.loadLocation displayTimezone with
  | .ok location => .ok location
  | .error err =>
    .error ("DISPLAY_TIMEZONE: invalid IANA timezone " ++ lib.quote displayTimezone ++ ": " ++ err)

/-! ### Checks -/

def checkText (key v : String) : Except String Unit :=
  if trimSpace v = "" then .error (key ++ " must not be empty") else .ok ()

/-- A number must be positive; the error has it as `text`. -/
def checkPositive (key : String) (v : ℤ) (text : String) : Except String Unit :=
  if v ≤ 0 then .error (key ++ " must be positive, got " ++ text) else .ok ()

def checkDuration (key : String) (d : Duration) : Except String Unit := checkPositive key d.nanos d.toText

def Config.check (cfg : Config) : Except String Unit := do
  checkText "ADDR" cfg.addr
  checkText "SQLITE_PATH" cfg.sqlitePath
  checkDuration "OFFLINE_THRESHOLD" cfg.offlineThreshold
  checkDuration "SCAN_INTERVAL" cfg.scanInterval
  checkPositive "USAGE_RETENTION_DAYS" cfg.usageRetentionDays (toString cfg.usageRetentionDays)
  checkDuration "USAGE_PRUNE_INTERVAL" cfg.usagePruneInterval
  checkDuration "USAGE_MAX_GAP" cfg.usageMaxGap

/-- The configuration the process starts with. The longest gap defaults to the offline threshold as read. -/
def load (lib : Library) (env : Environment) : Except String Config := do
  let offlineThreshold ← getEnvDuration lib env "OFFLINE_THRESHOLD" Default.offlineThreshold
  let scanInterval ← getEnvDuration lib env "SCAN_INTERVAL" Default.scanInterval
  let usageMaxGap ← getEnvDuration lib env "USAGE_MAX_GAP" offlineThreshold
  let usagePruneInterval ← getEnvDuration lib env "USAGE_PRUNE_INTERVAL" Default.usagePruneInterval
  let usageRetentionDays ← getEnvInt lib env "USAGE_RETENTION_DAYS" Default.usageRetentionDays
  let displayTimezone := getEnv env "DISPLAY_TIMEZONE" "Asia/Shanghai"
  let location ← loadLocation lib displayTimezone
  let cfg : Config :=
    { addr := getEnv env "ADDR" ":8080"
      sqlitePath := getEnv env "SQLITE_PATH" "cyberstalk.db"
      offlineThreshold, scanInterval, usageRetentionDays, usagePruneInterval, usageMaxGap, displayTimezone,
      location }
  cfg.check
  pure cfg

/-! ### What a loaded configuration has -/

variable {lib : Library} {env : Environment} {cfg : Config}

@[simp] theorem checkText_eq_ok {key v : String} : checkText key v = .ok () ↔ trimSpace v ≠ "" := by
  simp only [checkText]
  split_ifs with h <;> simp [h]

@[simp] theorem checkPositive_eq_ok {key text : String} {v : ℤ} : checkPositive key v text = .ok () ↔ 0 < v := by
  simp only [checkPositive]
  split_ifs with h <;> simp <;> omega

@[simp] theorem checkDuration_eq_ok {key : String} {d : Duration} :
    checkDuration key d = .ok () ↔ 0 < d.nanos := checkPositive_eq_ok

/-- A configuration that the server starts with. -/
structure Config.Usable (cfg : Config) : Prop where
  addr : trimSpace cfg.addr ≠ ""
  sqlitePath : trimSpace cfg.sqlitePath ≠ ""
  offlineThreshold : 0 < cfg.offlineThreshold.nanos
  scanInterval : 0 < cfg.scanInterval.nanos
  usageRetentionDays : 0 < cfg.usageRetentionDays
  usagePruneInterval : 0 < cfg.usagePruneInterval.nanos
  usageMaxGap : 0 < cfg.usageMaxGap.nanos

theorem check_eq_ok : cfg.check = .ok () ↔ cfg.Usable := by
  simp only [Config.check, bind_eq_ok, Unique.exists_iff, PUnit.default_eq_unit, checkText_eq_ok,
    checkDuration_eq_ok, checkPositive_eq_ok]
  constructor
  · rintro ⟨haddr, hpath, hoffline, hscan, hdays, hprune, hgap⟩
    exact ⟨haddr, hpath, hoffline, hscan, hdays, hprune, hgap⟩
  · intro h
    exact ⟨h.addr, h.sqlitePath, h.offlineThreshold, h.scanInterval, h.usageRetentionDays, h.usagePruneInterval,
      h.usageMaxGap⟩

/-- The variables that hold a duration, and what they set. -/
def durationSettings : List (String × (Config → Duration)) :=
  [("OFFLINE_THRESHOLD", Config.offlineThreshold), ("SCAN_INTERVAL", Config.scanInterval),
    ("USAGE_MAX_GAP", Config.usageMaxGap), ("USAGE_PRUNE_INTERVAL", Config.usagePruneInterval)]

/-- Each duration was read by `getEnvDuration`, and everything passed its check. -/
theorem load_spec (h : load lib env = .ok cfg) :
    (∀ setting ∈ durationSettings, ∃ default,
      getEnvDuration lib env setting.1 default = .ok (setting.2 cfg)) ∧ cfg.Usable := by
  simp only [load, bind_eq_ok] at h
  obtain ⟨offline, hoffline, scan, hscan, gap, hgap, prune, hprune, days, -, location, -, ⟨⟩, hcheck, hcfg⟩ := h
  rw [check_eq_ok] at hcheck
  cases hcfg
  simp only [durationSettings, List.forall_mem_cons, List.not_mem_nil, false_imp_iff, implies_true, and_true]
  exact ⟨⟨⟨_, hoffline⟩, ⟨_, hscan⟩, ⟨_, hgap⟩, ⟨_, hprune⟩⟩, hcheck⟩

/-! ### Bare seconds -/

theorem getEnvDuration_of_atoi {key s : String} {n : ℤ} (default : Duration) (henv : env key = some s)
    (h : atoi (trimSpace s) = some n) : getEnvDuration lib env key default = .ok (secondsDuration n) := by
  have hpresent : present env key = some s := by
    have hblank : trimSpace s ≠ "" := by
      intro hblank
      simp [hblank, atoi, atoi.number] at h
    rw [present, henv, Option.filter_some, if_pos (decide_eq_true hblank)]
  rw [← parse_or_seconds h, getEnvDuration, hpresent]
  dsimp only
  cases Duration.parse (trimSpace s) with
  | none => simp [h]
  | some d => rfl

theorem honours_ok_iff {n : ℤ} {d : Duration} : Honours n (.ok d) ↔ d.nanos = n * 1000000000 := by
  simp [Honours]

/-- A bare number of seconds is honoured, by both programs and by the settings of a server that starts,
exactly when its nanoseconds fit 64 bits. -/
theorem bareSeconds_honoured_iff (mapping : Mapping.Library) (lib : Library) (env : Environment)
    (key : String) (default : Duration) {s : String} {n : ℤ} (henv : env key = some s) (h : atoi (trimSpace s) = some n) :
    (Honours n (parseDuration mapping s) ↔ FitsSeconds n) ∧
      (Honours n (getEnvDuration lib env key default) ↔ FitsSeconds n) ∧
      ∀ setting ∈ durationSettings, setting.1 = key → ∀ cfg, load lib env = .ok cfg →
        ((setting.2 cfg).nanos = n * 1000000000 ↔ FitsSeconds n) := by
  rw [parseDuration_of_atoi mapping h, getEnvDuration_of_atoi default henv h, honours_ok_iff,
    secondsDuration_exact_iff]
  refine ⟨Iff.rfl, Iff.rfl, ?_⟩
  rintro setting hsetting rfl cfg hload
  obtain ⟨default', hread⟩ := (load_spec hload).1 setting hsetting
  rw [getEnvDuration_of_atoi default' henv h] at hread
  rw [← Except.ok.inj hread, secondsDuration_exact_iff]

/-- Shanghai without its summer times of the last century. -/
def shanghai : Zone := ⟨"Asia/Shanghai", 28800, []⟩

def sampleLibrary : Library where
  quote s := "\"" ++ s ++ "\""
  loadLocation name := if name = shanghai.name then .ok shanghai else .error ("unknown time zone " ++ name)

theorem bareSeconds_honoured_ninety :
    Honours 90 (parseDuration plainLibrary.toLibrary " 90") ∧
      Honours 90 (getEnvDuration sampleLibrary (fun _ => some " 90") "SCAN_INTERVAL" Default.scanInterval) := by
  have h : atoi (trimSpace " 90") = some 90 := by decide +kernel
  have hfits : FitsSeconds 90 := by decide
  have hseconds := bareSeconds_honoured_iff plainLibrary.toLibrary sampleLibrary
    (fun _ => some " 90") "SCAN_INTERVAL" Default.scanInterval rfl h
  exact ⟨hseconds.1.mpr hfits, hseconds.2.1.mpr hfits⟩

/-- 584 years and some seconds wrap to 290 milliseconds, with which the server starts. -/
theorem wrapped_seconds :
    (load sampleLibrary fun key => if key = "OFFLINE_THRESHOLD" then some "18446744074" else none).map
        (fun cfg => cfg.offlineThreshold.nanos) = .ok 290448384 ∧
    ¬ ∀ (mapping : Mapping.Library) (lib : Library) (env : Environment) (key s : String) (default : Duration) (n : ℤ),
      env key = some s → atoi (trimSpace s) = some n →
        Honours n (parseDuration mapping s) ∧ Honours n (getEnvDuration lib env key default) := by
  have hatoi : atoi (trimSpace "18446744074") = some 18446744074 := by decide +kernel
  constructor
  · decide +kernel
  · intro h
    have hparse := (h plainLibrary.toLibrary sampleLibrary (fun _ => some "18446744074") "SCAN_INTERVAL" _
      Default.scanInterval _ rfl hatoi).1
    rw [parseDuration_of_atoi _ hatoi, honours_ok_iff, secondsDuration_exact_iff] at hparse
    revert hparse
    decide

end CyberstalkMe.Server
