import CyberstalkMe.Agent.Config
import CyberstalkMe.Foundations.Fallible

/-! # Usable configurations

What the checks of `Validate` amount to. The name of the source is in the errors only.
-/
namespace CyberstalkMe.Agent

open Go Foundations

/-- A base URL that the agent starts with: of the web, with a host. -/
def AcceptedURL (serverURL : String) : Prop :=
  ∃ u ∈ URL.parse serverURL, (u.scheme = "http".toList ∨ u.scheme = "https".toList) ∧ u.host ≠ []

instance (serverURL : String) : Decidable (AcceptedURL serverURL) :=
  inferInstanceAs (Decidable (∃ u ∈ URL.parse serverURL, _))

theorem AcceptedURL.ne_empty {serverURL : String} (h : AcceptedURL serverURL) : serverURL ≠ "" := by
  rintro rfl
  revert h
  decide +kernel

/-! ### The checks -/

variable {lib : Library} {source : String} {c : Config}

theorem validateRequired_eq_ok :
    validateRequired source c = .ok () ↔ c.serverURL ≠ "" ∧ c.deviceID ≠ "" ∧ c.token ≠ "" := by
  simp only [validateRequired]
  split_ifs with h1 h2 h3 h2 h3 <;> simp_all

theorem validateURL_eq_ok {serverURL : String} :
    validateURL lib source serverURL = .ok () ↔ AcceptedURL serverURL := by
  simp only [validateURL, AcceptedURL]
  cases URL.parse serverURL with
  | none => simp
  | some u =>
    simp only [Option.mem_some_iff, exists_eq_left']
    split_ifs with h
    · simp only [false_iff]
      tauto
    · simp only [true_iff]
      tauto

theorem validateDurations_eq_ok :
    validateDurations source c = .ok () ↔ 0 < c.interval.nanos ∧ 0 < c.idleThreshold.nanos := by
  simp only [validateDurations]
  split_ifs with h h'
  · simp only [false_iff]; omega
  · simp only [false_iff]; omega
  · simp only [true_iff]; omega

theorem validateRules_eq_ok {i : ℕ} {rs : List Mapping.Rule} :
    validateRules source i rs = .ok () ↔ ∀ r ∈ rs, trimSpace r.process ≠ "" ∧ trimSpace r.app ≠ "" := by
  induction rs generalizing i with
  | nil => simp [validateRules]
  | cons r rs ih =>
    simp only [validateRules, List.forall_mem_cons]
    split_ifs with hprocess happ
    · simp [hprocess]
    · simp [happ]
    · simp [hprocess, happ, ih]

theorem validateMapper_eq_ok :
    validateMapper lib source c = .ok () ↔ ∃ m, Mapping.Mapper.new lib.toLibrary c.mapperOptions = .ok m := by
  simp only [validateMapper]
  cases Mapping.Mapper.new lib.toLibrary c.mapperOptions with
  | error e => simp
  | ok m => simp

/-- A usable configuration, whatever its source is called. -/
structure Config.Valid (lib : Library) (c : Config) : Prop where
  url : AcceptedURL c.serverURL
  deviceID : c.deviceID ≠ ""
  token : c.token ≠ ""
  interval : 0 < c.interval.nanos
  idleThreshold : 0 < c.idleThreshold.nanos
  rules : ∀ r ∈ c.rules, trimSpace r.process ≠ "" ∧ trimSpace r.app ≠ ""
  mapper : ∃ m, Mapping.Mapper.new lib.toLibrary c.mapperOptions = .ok m

theorem validate_eq_ok (source : String) : c.validate lib source = .ok () ↔ c.Valid lib := by
  simp only [Config.validate, bind_eq_ok, Unique.exists_iff, PUnit.default_eq_unit, validateRequired_eq_ok,
    validateURL_eq_ok, validateDurations_eq_ok, validateRules_eq_ok, validateMapper_eq_ok]
  constructor
  · rintro ⟨⟨-, hdevice, htoken⟩, hurl, ⟨hinterval, hidle⟩, hrules, hmapper⟩
    exact ⟨hurl, hdevice, htoken, hinterval, hidle, hrules, hmapper⟩
  · intro h
    exact ⟨⟨h.url.ne_empty, h.deviceID, h.token⟩, h.url, ⟨h.interval, h.idleThreshold⟩, h.rules, h.mapper⟩

/-- The base URL is checked apart from the rest. -/
theorem valid_withURL {serverURL : String} (h : c.Valid lib) :
    Config.Valid lib { c with serverURL } ↔ AcceptedURL serverURL := by
  constructor
  · intro h'
    exact h'.url
  · intro hurl
    exact ⟨hurl, h.deviceID, h.token, h.interval, h.idleThreshold, h.rules, h.mapper⟩

theorem valid_of_withURL {serverURL : String} (h : Config.Valid lib { c with serverURL })
    (hurl : AcceptedURL c.serverURL) : c.Valid lib :=
  ⟨hurl, h.deviceID, h.token, h.interval, h.idleThreshold, h.rules, h.mapper⟩

end CyberstalkMe.Agent
