import CyberstalkMe.Setup.Server

/-! # The verdict of a PUT and the outcome of a save

A PUT answers whether its draft is usable after one more normalization; a save checks
the draft that is stored. What lies between the two leaves that draft alone.
-/
namespace CyberstalkMe.Setup

open Go Agent

variable {yaml : Yaml} {lib : Library} (s : Server yaml lib)

namespace Server

/-! ### The stored draft -/

theorem handle_of_not_stores {r : Request yaml} (h : r.stores lib = none) :
    ∃ disk, (s.handle r).2 = { s with disk } := by
  cases r with
  | getConfig => exact ⟨s.disk, rfl⟩
  | preview fg => exact ⟨s.disk, rfl⟩
  | putConfig draft =>
    cases hd : draft.config lib with
    | error e => exact ⟨s.disk, congrArg Prod.snd (s.handlePutConfig_error hd)⟩
    | ok c => simp [Request.stores, hd, Except.toOption] at h
  | save faults => exact ⟨_, s.handleSave_snd faults⟩

theorem after_of_not_stores {rs : List (Request yaml)} (h : stored lib rs = []) :
    ∃ disk, s.after rs = { s with disk } := by
  induction rs generalizing s with
  | nil => exact ⟨s.disk, rfl⟩
  | cons r rs ih =>
    cases hr : r.stores lib with
    | some c => simp [stored, hr] at h
    | none =>
      obtain ⟨disk, hdisk⟩ := s.handle_of_not_stores hr
      rw [stored, List.filterMap_cons_none hr] at h
      obtain ⟨disk', hdisk'⟩ := ih (s.handle r).2 h
      rw [after_cons, hdisk', hdisk]
      exact ⟨disk', rfl⟩

/-! ### The outcome of a save -/

theorem valid_of_saved {faults : SaveFaults yaml} (h : (s.handleSave faults).1.saved = true) : s.draft.Valid lib := by
  rw [← validate_eq_ok s.opts.configPath]
  cases hv : s.draft.validate lib s.opts.configPath with
  | error e =>
    rw [(s.handleSave_invalid hv faults).1] at h
    cases h
  | ok _ => rfl

theorem saved_iff : (s.handleSave .never).1.saved = true ↔ s.draft.Valid lib :=
  ⟨s.valid_of_saved, fun h => s.handleSave_never ((validate_eq_ok s.opts.configPath).mpr h)⟩

/-- A save that succeeds leaves the document of the stored draft in the file. -/
theorem written_of_saved {faults : SaveFaults yaml} (h : (s.handleSave faults).1.saved = true) :
    (s.handleSave faults).2.disk s.opts.configPath = some (yaml.encode (marshal s.draft)) := by
  have hvalid := (validate_eq_ok s.opts.configPath).mpr (s.valid_of_saved h)
  rcases s.handleSave_of_valid hvalid faults with ⟨-, hsave⟩ | ⟨hfailed, -⟩
  · obtain ⟨disk, hdisk, hwritten⟩ := save_of_valid hvalid s.disk
    rw [hsave, Except.ok.injEq] at hdisk
    rw [hdisk]
    exact hwritten
  · rw [h] at hfailed
    cases hfailed

end Server

/-- The last PUT that stores a draft says whether a save will succeed, when one more normalization
makes no difference to its base URL's being accepted; the save writes that draft. The others are
answered as not valid and change nothing. -/
theorem save_iff_last_stored_valid (before later : List (Request yaml)) (d : Draft) (c : Config)
    (hd : d.config lib = .ok c) (hlater : stored lib later = [])
    (hurl : AcceptedURL c.serverURL ↔ AcceptedURL (normalizeURL c.serverURL)) :
    let put := (s.after before).handlePutConfig d
    let t := put.2.after later
    ((t.handleSave .never).1.saved = true ↔ put.1.valid = true) ∧
      (∀ faults, (t.handleSave faults).1.saved = true →
        (t.handleSave faults).2.disk s.opts.configPath = some (yaml.encode (marshal c))) ∧
      ∀ d' e, d'.config lib = .error e → (t.handlePutConfig d').1.valid = false ∧ (t.handlePutConfig d').2 = t := by
  intro put t
  have hnormalized := Draft.normalized_of_config hd
  obtain ⟨hvalid, hput⟩ := (s.after before).handlePutConfig_ok hd
  obtain ⟨disk, ht⟩ := put.2.after_of_not_stores hlater
  have hdraft : t.draft = c := by
    simp only [t, ht, put, hput]
  have hopts : t.opts = s.opts := by
    simp only [t, put, Server.after_opts, Server.handlePutConfig_opts]
  refine ⟨?_, ?_, ?_⟩
  · rw [Server.saved_iff, hdraft, hvalid, Server.valid_state_draftOf]
    constructor
    · intro h
      exact (hnormalized.valid_normalize_iff h).mpr (hurl.mp h.url)
    · intro h
      have hagain : AcceptedURL (normalizeURL c.serverURL) := h.url
      exact hnormalized.valid_of_normalize h (hurl.mpr hagain)
  · intro faults h
    rw [← hopts, t.written_of_saved h, hdraft]
  · intro d' e he
    rw [t.handlePutConfig_error he]
    exact ⟨rfl, rfl⟩

theorem save_iff_last_stored_valid_sample :
    let put := sampleServer.handlePutConfig (sampleDraft "http://a")
    let t := put.2.after [.getConfig, .save .never]
    ((t.handleSave .never).1.saved = true ↔ put.1.valid = true) ∧
      (∀ faults, (t.handleSave faults).1.saved = true →
        (t.handleSave faults).2.disk "config.yaml" = some (treeYaml.encode (marshal (sampleConfig "http://a").normalize))) ∧
      ∀ d' e, d'.config plainLibrary = .error e →
        (t.handlePutConfig d').1.valid = false ∧ (t.handlePutConfig d').2 = t := by
  have hurl : AcceptedURL (sampleConfig "http://a").normalize.serverURL ↔
      AcceptedURL (normalizeURL (sampleConfig "http://a").normalize.serverURL) := by decide +kernel
  exact save_iff_last_stored_valid sampleServer [] [.getConfig, .save .never] (sampleDraft "http://a") _
    (config_draftOf _) rfl hurl

/-- The draft before one whose durations cannot be read is still saved; and a base URL may be usable only
once it is normalized again. -/
theorem verdict_differs_from_save :
    (let put := (sampleServer.after [.putConfig (sampleDraft "http://a")]).handlePutConfig
        { sampleDraft "http://a" with interval := "soon" };
      put.1.valid = false ∧ (put.2.handleSave .never).1.saved = true) ∧
    (let put := sampleServer.handlePutConfig (sampleDraft "http://a /");
      put.1.valid = true ∧ (put.2.handleSave .never).1.saved = false) := by
  decide +kernel

end CyberstalkMe.Setup
