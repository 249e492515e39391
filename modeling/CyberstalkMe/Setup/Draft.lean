import CyberstalkMe.Agent.RoundTrip

/-! # Drafts of the setup interface

A draft is a configuration as the form has it: its durations are texts. Only they can
fail to become a configuration; whether it is usable is left to the agent's validation.
-/
namespace CyberstalkMe.Setup

open Go Agent Foundations

/-- What a validation error names in place of a file. -/
def draftSource : String := "draft"

structure Draft where
  serverURL : String
  deviceID : String
  token : String
  interval : String
  deviceName : String
  idleThreshold : String
  defaultApp : String
  defaultDescription : String
  lockedApp : String
  lockedDescription : String
  rules : List Mapping.Rule
  exposeTitle : List String
deriving DecidableEq, Repr

/-- `DraftOf`. An absent list is the empty one. -/
def draftOf (c : Config) : Draft where
  serverURL := c.serverURL
  deviceID := c.deviceID
  token := c.token
  interval := formatDuration c.interval
  deviceName := c.deviceName
  idleThreshold := formatDuration c.idleThreshold
  defaultApp := c.defaultApp
  defaultDescription := c.defaultDescription
  lockedApp := c.lockedApp
  lockedDescription := c.lockedDescription
  rules := c.rules
  exposeTitle := c.exposeTitle

variable (lib : Library)

/-- An empty text stays zero, so that normalization fills in the default. -/
def parseDraftDuration (s field : String) : Except ValidationError Duration :=
  if trimSpace s = "" then .ok .zero
  else match parseDuration lib.toLibrary s with
    | .ok d => .ok d
    | .error message => .error ⟨draftSource, [field], message⟩

def Draft.withDurations (d : Draft) (interval idleThreshold : Duration) : Config where
  serverURL := d.serverURL
  deviceID := d.deviceID
  token := d.token
  interval := interval
  deviceName := d.deviceName
  idleThreshold := idleThreshold
  defaultApp := d.defaultApp
  defaultDescription := d.defaultDescription
  lockedApp := d.lockedApp
  lockedDescription := d.lockedDescription
  rules := d.rules
  exposeTitle := d.exposeTitle

/-- The configuration of a draft. -/
def Draft.config (d : Draft) : Except ValidationError Config := do
  let interval ← parseDraftDuration lib d.interval "interval"
  let idleThreshold ← parseDraftDuration lib d.idleThreshold "idle_threshold"
  .ok (d.withDurations interval idleThreshold).normalize

/-! ### There and back -/

variable {lib}

theorem formatDuration_ne_empty (d : Duration) : formatDuration d ≠ "" := by
  obtain ⟨c, cs, u, hshape, -⟩ := formatDuration_shape d
  rw [hshape]
  intro h
  simpa using congrArg String.toList h

/-- A duration that the form shows is read back. -/
theorem parseDraftDuration_formatDuration (d : Duration) (field : String) :
    parseDraftDuration lib (formatDuration d) field = .ok d := by
  rw [parseDraftDuration, trimSpace_formatDuration, if_neg (formatDuration_ne_empty d),
    parseDuration_formatDuration]

theorem Draft.config_eq_ok {d : Draft} {c : Config} :
    d.config lib = .ok c ↔ ∃ interval, parseDraftDuration lib d.interval "interval" = .ok interval ∧
      ∃ idle, parseDraftDuration lib d.idleThreshold "idle_threshold" = .ok idle ∧
        (d.withDurations interval idle).normalize = c := by
  simp only [config, bind_eq_ok, Except.ok.injEq]

theorem Draft.normalized_of_config {d : Draft} {c : Config} (h : d.config lib = .ok c) : c.Normalized := by
  obtain ⟨interval, -, idle, -, hc⟩ := config_eq_ok.mp h
  exact ⟨_, hc⟩

/-- The form of a configuration gives its normalization back. -/
theorem config_draftOf (c : Config) : (draftOf c).config lib = .ok c.normalize := by
  rw [Draft.config_eq_ok]
  exact ⟨c.interval, parseDraftDuration_formatDuration _ _, c.idleThreshold,
    parseDraftDuration_formatDuration _ _, rfl⟩

end CyberstalkMe.Setup
