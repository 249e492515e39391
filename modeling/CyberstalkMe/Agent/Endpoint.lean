import CyberstalkMe.Go.WebURL
import CyberstalkMe.Agent.RoundTrip

/-! # The report endpoint

The endpoint is the base URL with a path appended as text. Validation looks at
the scheme and the host of the base URL only.
-/
namespace CyberstalkMe.Agent

open Go

def reportPath : String := "/api/v1/report"

def Config.reportURL (c : Config) : String := c.serverURL ++ reportPath

/-- The endpoint has the scheme and the host of the base URL, and nothing but its path besides. -/
def Config.YieldsEndpoint (c : Config) : Prop :=
  ∃ u ∈ URL.parse c.serverURL,
    URL.parse c.reportURL = some { scheme := u.scheme, host := u.host, path := reportPath.toList.map .rune }

/-- The text after `scheme://`. -/
def afterScheme (serverURL : String) : List Char := (serverURL.toList.dropWhile (· ≠ ':')).drop 3

/-- The base URL is `scheme://host[:port]`. -/
def BareHost (serverURL : String) : Prop := ∀ c ∈ URL.delimiters, c ∉ afterScheme serverURL

instance (serverURL : String) : Decidable (BareHost serverURL) :=
  decidable_of_iff (URL.delimiters.all fun c => c ∉ afterScheme serverURL) (by simp [BareHost])

theorem isPath_reportPath : URL.IsPath reportPath.toList where
  head := ⟨"api/v1/report".toList, by decide⟩
  noQuery := by decide
  noFragment := by decide

theorem unescape_reportPath : URL.unescape .path reportPath.toList = some (reportPath.toList.map .rune) := by
  decide +kernel

theorem afterScheme_ofList {scheme rest : List Char} (h : URL.IsScheme scheme) :
    afterScheme (String.ofList (scheme ++ ':' :: '/' :: '/' :: rest)) = rest := by
  rw [afterScheme, String.toList_ofList, List.dropWhile_append_of_pos, List.dropWhile_cons_of_neg (by decide)]
  · rfl
  · exact fun c hc => decide_eq_true (URL.mem_scheme_ne h (by decide) c hc)

/-- The control characters of a URL stand before its fragment, where a path adds none. -/
theorem noControl_append {rest : List Char} (h : ∀ c ∈ URL.beforeFragment rest, ¬ URL.isControl c) :
    ∀ c ∈ URL.beforeFragment (rest ++ reportPath.toList), ¬ URL.isControl c := by
  intro c hc
  rw [URL.beforeFragment, List.takeWhile_append] at hc
  split_ifs at hc with hall
  · rcases List.mem_append.mp hc with hc | hc
    · apply h
      rw [URL.beforeFragment, (List.takeWhile_prefix _).eq_of_length hall]
      exact hc
    · have hpath : reportPath.toList.all fun c => !URL.isControl c := by decide +kernel
      simpa using List.all_eq_true.mp hpath c ((List.takeWhile_prefix _).subset hc)
  · exact h c hc

theorem yieldsEndpoint_iff {c : Config} (h : AcceptedURL c.serverURL) :
    c.YieldsEndpoint ↔ BareHost c.serverURL := by
  obtain ⟨u, hparse, hweb, hhost⟩ := h
  have hscheme : u.scheme ≠ [] := by
    rcases hweb with hweb | hweb <;> simp [hweb]
  obtain ⟨scheme, rest, htext, hisScheme, hcontrol⟩ := URL.exists_rest hparse hscheme hhost
  have hreport : c.reportURL = String.ofList (scheme ++ ':' :: '/' :: '/' :: (rest ++ reportPath.toList)) := by
    rw [Config.reportURL, htext, ← String.toList_inj]
    simp
  have hrest : URL.ofRest scheme rest = some u := by
    rw [← URL.parse_ofRest hisScheme hcontrol, ← htext]
    exact hparse
  rw [BareHost, Config.YieldsEndpoint, hreport, URL.parse_ofRest hisScheme (noControl_append hcontrol),
    htext, afterScheme_ofList hisScheme, URL.parse_ofRest hisScheme hcontrol, hrest,
    ← URL.ofRest_append_iff isPath_reportPath unescape_reportPath hrest]
  simp

/-- A usable configuration reports to the endpoint of its server exactly when its base URL is no more than
a scheme and a host. -/
theorem reportURL_endpoint_iff (lib : Library) (source : String) (raw : Config)
    (h : raw.normalize.validate lib source = .ok ()) :
    raw.normalize.YieldsEndpoint ↔ BareHost raw.normalize.serverURL :=
  yieldsEndpoint_iff ((validate_eq_ok source).mp h).url

theorem reportURL_endpoint_sample : (sampleConfig "http://a/").normalize.YieldsEndpoint :=
  (reportURL_endpoint_iff plainLibrary "config.yaml" (sampleConfig "http://a/") sampleConfig_valid).mpr
    (by decide +kernel)

/-- A base URL with a path is accepted, and reports go below that path. -/
theorem accepted_path_misses_endpoint :
    ¬ ∀ (lib : Library) (source : String) (raw : Config), raw.normalize.validate lib source = .ok () →
      raw.normalize.YieldsEndpoint := by
  intro h
  have hvalid : (sampleConfig "http://a/blog").normalize.validate plainLibrary "config.yaml" = .ok () := by
    decide +kernel
  have hbare := (yieldsEndpoint_iff ((validate_eq_ok _).mp hvalid).url).mp (h _ _ _ hvalid)
  revert hbare
  decide +kernel

end CyberstalkMe.Agent
