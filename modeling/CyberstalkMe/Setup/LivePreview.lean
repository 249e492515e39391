import CyberstalkMe.Setup.Verdict

/-! # The live preview and the agent

The mapper of the preview is that of the last stored draft whose rules compile. A draft
that is saved compiles, and an agent started from the file normalizes it once more.
-/
namespace CyberstalkMe.Setup

open Go Agent Shared Foundations

variable {yaml : Yaml} {lib : Library}

/-! ### The session's start -/

/-- The initial configuration of a session is normalized, and its rules compile. -/
theorem loadOrDefaults_spec (yaml : Yaml) (lib : Library) (path : String) (disk : Disk yaml) :
    (loadOrDefaults yaml lib path disk).Normalized ∧
      ∃ m, Mapping.Mapper.new lib.toLibrary (loadOrDefaults yaml lib path disk).mapperOptions = .ok m := by
  rw [loadOrDefaults]
  cases hload : load yaml lib path disk with
  | error e => exact ⟨⟨Config.empty, rfl⟩, _, rfl⟩
  | ok c =>
    obtain ⟨hnormalized, hvalid⟩ := load_eq_ok hload
    exact ⟨hnormalized, hvalid.mapper⟩

theorem Server.new_eq_ok {opts : Options} {initial : Config} {disk : Disk yaml} {s : Server yaml lib} :
    Server.new opts initial disk = .ok s ↔
      ∃ m, Mapping.Mapper.new lib.toLibrary initial.mapperOptions = .ok m ∧ s = ⟨opts, initial, m, disk⟩ := by
  simp only [Server.new, bind_eq_ok, Except.ok.injEq, eq_comm (a := s)]

/-! ### The mapper of the preview -/

/-- Of a list of configurations the mapper is that of the last one whose rules compile. -/
def LastCompiled (lib : Library) (cs : List Config) (m : Mapping.Mapper lib.toLibrary) : Prop :=
  ∃ before c after, cs = before ++ c :: after ∧ Mapping.Mapper.new lib.toLibrary c.mapperOptions = .ok m ∧
    ∀ c' ∈ after, ∃ e, Mapping.Mapper.new lib.toLibrary c'.mapperOptions = .error e

/-- Storing one more configuration keeps the mapper unless its rules compile. -/
theorem LastCompiled.concat {cs : List Config} {m : Mapping.Mapper lib.toLibrary} (h : LastCompiled lib cs m)
    (c : Config) :
    LastCompiled lib (cs ++ [c]) ((Mapping.Mapper.new lib.toLibrary c.mapperOptions).toOption.getD m) := by
  cases hc : Mapping.Mapper.new lib.toLibrary c.mapperOptions with
  | ok m' => exact ⟨cs, c, [], rfl, hc, List.forall_mem_nil _⟩
  | error e =>
    obtain ⟨before, c', after, rfl, hm, hafter⟩ := h
    refine ⟨before, c', after ++ [c], by simp, hm, ?_⟩
    rw [List.forall_mem_append]
    exact ⟨hafter, List.forall_mem_singleton.mpr ⟨e, hc⟩⟩

namespace Server

structure Follows (s : Server yaml lib) (cs : List Config) : Prop where
  draft : cs.getLast? = some s.draft
  mapper : LastCompiled lib cs s.mapper
  normalized : ∀ c ∈ cs, c.Normalized

variable {s : Server yaml lib} {cs : List Config}

theorem Follows.handle (h : s.Follows cs) (r : Request yaml) :
    (s.handle r).2.Follows (cs ++ (r.stores lib).toList) := by
  cases hr : r.stores lib with
  | none =>
    obtain ⟨disk, hdisk⟩ := s.handle_of_not_stores hr
    rw [hdisk, Option.toList_none, List.append_nil]
    exact ⟨h.draft, h.mapper, h.normalized⟩
  | some c =>
    cases r with
    | getConfig => cases hr
    | preview fg => cases hr
    | save faults => cases hr
    | putConfig draft =>
      have hc : draft.config lib = .ok c := by
        cases hd : draft.config lib with
        | error e => simp [Request.stores, hd, Except.toOption] at hr
        | ok c' => simpa [Request.stores, hd, Except.toOption] using hr
      rw [Server.handle, (s.handlePutConfig_ok hc).2, Option.toList_some]
      refine ⟨by simp, h.mapper.concat c, ?_⟩
      rw [List.forall_mem_append]
      exact ⟨h.normalized, List.forall_mem_singleton.mpr (Draft.normalized_of_config hc)⟩

theorem Follows.after (h : s.Follows cs) (rs : List (Request yaml)) : (s.after rs).Follows (cs ++ stored lib rs) := by
  induction rs generalizing s cs with
  | nil => simpa [stored] using h
  | cons r rs ih =>
    have hrest := ih (h.handle r)
    have hstored : (r.stores lib).toList ++ stored lib rs = stored lib (r :: rs) := by
      simp only [stored, List.filterMap_cons]
      cases r.stores lib <;> rfl
    rw [after_cons, ← hstored, ← List.append_assoc]
    exact hrest

theorem Follows.normalized_draft (h : s.Follows cs) : s.draft.Normalized :=
  h.normalized _ (List.mem_of_getLast? h.draft)

theorem Follows.mapper_eq (h : s.Follows cs) {m : Mapping.Mapper lib.toLibrary}
    (hm : Mapping.Mapper.new lib.toLibrary s.draft.mapperOptions = .ok m) : s.mapper = m := by
  obtain ⟨before, c, after, hcs, hc, hafter⟩ := h.mapper
  have hlast := h.draft
  rcases after.eq_nil_or_concat with rfl | ⟨after', c', rfl⟩
  · rw [hcs, List.getLast?_concat, Option.some.injEq] at hlast
    rw [hlast, hm] at hc
    exact (Except.ok.inj hc).symm
  · have hend : cs = (before ++ c :: after') ++ [c'] := by simp [hcs]
    have hc' : c' = s.draft := by simpa only [hend, List.getLast?_concat, Option.some.injEq] using hlast
    obtain ⟨e, he⟩ := hafter c' (by simp)
    rw [hc', hm] at he
    cases he

/-- An agent that is started from the file reports what the preview shows, whatever is in the foreground. -/
def PreviewsAgent (s : Server yaml lib) : Prop :=
  ∃ c m, load yaml lib s.opts.configPath s.disk = .ok c ∧ Mapping.Mapper.new lib.toLibrary c.mapperOptions = .ok m ∧
    ∀ fg, (s.handlePreview fg).activity = m.resolve (m := Id) fg.process fg.title fg.idleSeconds

/-- The file is loaded after a save when its base URL is still accepted, and then nothing else differs. -/
theorem Follows.previewsAgent_iff (hyaml : yaml.Undoes) (h : s.Follows cs) {faults : SaveFaults yaml}
    (hsaved : (s.handleSave faults).1.saved = true) :
    (s.handleSave faults).2.PreviewsAgent ↔ AcceptedURL (normalizeURL s.draft.serverURL) := by
  have hvalid := s.valid_of_saved hsaved
  obtain ⟨m, hm⟩ := hvalid.mapper
  have hmapper : (s.handleSave faults).2.mapper = m := by
    rw [s.handleSave_snd]
    exact h.mapper_eq hm
  have hoptions := h.normalized_draft.mapperOptions_normalize
  rw [← h.normalized_draft.valid_normalize_iff hvalid, PreviewsAgent, s.handleSave_opts]
  simp only [load_of_saved_eq_ok hyaml (s.written_of_saved hsaved)]
  constructor
  · rintro ⟨c, m', ⟨hagain, -⟩, -⟩
    exact hagain
  · intro hagain
    refine ⟨s.draft.normalize, m, ⟨hagain, rfl⟩, by rw [hoptions, hm], fun fg => ?_⟩
    rw [handlePreview, hmapper]

end Server

/-- In every session the preview's mapper is that of the last stored draft whose rules compile; and after a
save the agent agrees with it exactly when it still accepts the stored base URL once it has normalized it. -/
theorem preview_is_agent_iff (hyaml : yaml.Undoes) {opts : Options} {initial : Config} {disk : Disk yaml}
    {s : Server yaml lib} (hinitial : initial.Normalized) (hnew : Server.new opts initial disk = .ok s)
    (rs : List (Request yaml)) :
    LastCompiled lib (initial :: stored lib rs) (s.after rs).mapper ∧
      ∀ faults, ((s.after rs).handleSave faults).1.saved = true →
        (((s.after rs).handleSave faults).2.PreviewsAgent ↔
          AcceptedURL (normalizeURL (s.after rs).draft.serverURL)) := by
  obtain ⟨m, hm, rfl⟩ := Server.new_eq_ok.mp hnew
  have hstart : (Server.mk opts initial m disk).Follows [initial] := by
    refine ⟨rfl, ⟨[], initial, [], rfl, hm, List.forall_mem_nil _⟩, ?_⟩
    exact List.forall_mem_singleton.mpr hinitial
  have h := hstart.after rs
  exact ⟨h.mapper, fun faults => h.previewsAgent_iff hyaml⟩

theorem preview_is_agent_iff_sample :
    LastCompiled plainLibrary [Config.empty.normalize, (sampleConfig "http://a").normalize]
        (sampleServer.after [.putConfig (sampleDraft "http://a")]).mapper ∧
      ∀ faults, ((sampleServer.after [.putConfig (sampleDraft "http://a")]).handleSave faults).1.saved = true →
        (((sampleServer.after [.putConfig (sampleDraft "http://a")]).handleSave faults).2.PreviewsAgent ↔
          AcceptedURL (normalizeURL
            (sampleServer.after [.putConfig (sampleDraft "http://a")]).draft.serverURL)) :=
  preview_is_agent_iff (fun _ => rfl) ⟨Config.empty, rfl⟩ rfl [.putConfig (sampleDraft "http://a")]

/-- A host that is one no-break space is saved, and gone when the file is loaded. -/
theorem saved_and_not_loaded :
    let s := sampleServer.after [.putConfig (sampleDraft "http://\u00a0/")]
    (s.handleSave .never).1.saved = true ∧ ¬ (s.handleSave .never).2.PreviewsAgent := by
  intro s
  have hsaved : (s.handleSave .never).1.saved = true := by decide +kernel
  have hload : (load treeYaml plainLibrary "config.yaml" (s.handleSave .never).2.disk).toOption = none := by decide +kernel
  refine ⟨hsaved, ?_⟩
  rintro ⟨c, m, hc, -⟩
  rw [Server.handleSave_opts, Server.after_opts] at hc
  rw [← show sampleServer.opts.configPath = "config.yaml" from rfl, hc] at hload
  cases hload

end CyberstalkMe.Setup
