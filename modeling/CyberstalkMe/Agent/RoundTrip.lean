import CyberstalkMe.Agent.File
import CyberstalkMe.Agent.Valid

/-! # Saving and loading

A configuration that `Save` has written is what `Load` reads, once it is normalized
again. Normalization reaches its fixed point at once in every key but `server_url`:
removing the slashes can uncover space that only a second pass removes.
-/
namespace CyberstalkMe.Agent

open Go Foundations

/-! ### Normalization twice -/

theorem toList_normalizeURL (s : String) :
    (normalizeURL s).toList = (trimEnds isSpace s.toList).rdropWhile (· == '/') := by
  rw [normalizeURL, trimRight, String.toList_ofList, toList_trimSpace]

/-- A base URL is normalized for good exactly when no space stands at its end. -/
theorem normalizeURL_normalizeURL_iff (s : String) :
    normalizeURL (normalizeURL s) = normalizeURL s ↔
      ∀ c ∈ (normalizeURL s).toList.getLast?, ¬ isSpace c := by
  have hhead : ∀ c ∈ (normalizeURL s).toList.head?, ¬ isSpace c := by
    rw [toList_normalizeURL]
    exact (trimmed_trimEnds isSpace s.toList).head_rdropWhile _
  have hslash : ∀ c ∈ (normalizeURL s).toList.getLast?, ¬ (c == '/') := by
    rw [toList_normalizeURL]
    exact getLast?_rdropWhile_not _ _
  constructor
  · intro h
    have hlength : (normalizeURL s).toList.length ≤ (trimEnds isSpace (normalizeURL s).toList).length := by
      conv_lhs => rw [← h, toList_normalizeURL]
      exact (List.rdropWhile_prefix _ _).length_le
    have hsame : trimEnds isSpace (normalizeURL s).toList = (normalizeURL s).toList := by
      rw [trimEnds, dropWhile_of_head hhead] at hlength ⊢
      exact (List.rdropWhile_prefix _ _).eq_of_length_le hlength
    exact ((trimEnds_eq_self_iff isSpace).mp hsame).last
  · intro h
    have htrim : trimSpace (normalizeURL s) = normalizeURL s := trimSpace_of_trimmed ⟨hhead, h⟩
    rw [normalizeURL, htrim, trimRight, rdropWhile_of_last hslash]
    exact String.ofList_toList

/-- A default that is neither blank nor padded. -/
theorem orDefault_orDefault {default : String} (hblank : default ≠ "") (htrim : trimSpace default = default)
    (v : String) : orDefault (orDefault v default) default = orDefault v default := by
  by_cases h : trimSpace v = ""
  · simp [orDefault, h, hblank, htrim]
  · simp [orDefault, h]

theorem trimSpace_orDefault_ne {default : String} (hblank : default ≠ "") (htrim : trimSpace default = default)
    (v : String) : trimSpace (orDefault v default) ≠ "" := by
  by_cases h : trimSpace v = ""
  · simp [orDefault, h, htrim, hblank]
  · simp [orDefault, h]

theorem defaults_trimmed :
    ∀ d ∈ [Default.app, Default.description, Default.lockedApp, Default.lockedDesc], d ≠ "" ∧ trimSpace d = d := by
  decide +kernel

theorem durationOrDefault_twice {default : Duration} (h : default ≠ .zero) (d : Duration) :
    durationOrDefault (durationOrDefault d default) default = durationOrDefault d default := by
  by_cases hd : d = .zero
  · simp [durationOrDefault, hd, h]
  · simp [durationOrDefault, hd]

theorem withDescription_twice {description : String} (h : trimSpace description ≠ "") (d : String)
    (r : Mapping.Rule) : withDescription d (withDescription description r) = withDescription description r := by
  apply if_neg
  rw [withDescription]
  split_ifs with hblank
  · exact h
  · exact hblank

/-- A second normalization can only change the base URL. -/
theorem normalize_normalize (c : Config) :
    c.normalize.normalize = { c.normalize with serverURL := normalizeURL c.normalize.serverURL } := by
  have happ := defaults_trimmed Default.app (by simp)
  have hdescription := defaults_trimmed Default.description (by simp)
  have hlocked := defaults_trimmed Default.lockedApp (by simp)
  have hlockedDesc := defaults_trimmed Default.lockedDesc (by simp)
  have hinterval : Default.interval ≠ .zero := by decide
  have hidle : Default.idleThreshold ≠ .zero := by decide
  have hrules : ∀ d, (c.rules.map (withDescription (orDefault c.defaultDescription Default.description))).map
      (withDescription d) = c.rules.map (withDescription (orDefault c.defaultDescription Default.description)) := by
    intro d
    rw [List.map_map]
    apply List.map_congr_left
    intro r _
    rw [Function.comp_apply]
    exact withDescription_twice (trimSpace_orDefault_ne hdescription.1 hdescription.2 _) d r
  simp only [Config.normalize, trimSpace_trimSpace, durationOrDefault_twice hinterval, durationOrDefault_twice hidle,
    orDefault_orDefault happ.1 happ.2, orDefault_orDefault hdescription.1 hdescription.2,
    orDefault_orDefault hlocked.1 hlocked.2, orDefault_orDefault hlockedDesc.1 hlockedDesc.2, hrules]

def Config.Normalized (c : Config) : Prop := ∃ raw : Config, raw.normalize = c

theorem Config.Normalized.normalize_eq {c : Config} (h : c.Normalized) :
    c.normalize = { c with serverURL := normalizeURL c.serverURL } := by
  obtain ⟨raw, rfl⟩ := h
  exact normalize_normalize raw

theorem Config.Normalized.mapperOptions_normalize {c : Config} (h : c.Normalized) :
    c.normalize.mapperOptions = c.mapperOptions := by
  rw [h.normalize_eq]
  simp only [Config.mapperOptions]

/-- Normalizing again leaves a usable configuration usable exactly when it leaves the base URL accepted. -/
theorem Config.Normalized.valid_normalize_iff {lib : Library} {c : Config} (h : c.Normalized)
    (hvalid : c.Valid lib) : c.normalize.Valid lib ↔ AcceptedURL (normalizeURL c.serverURL) := by
  rw [h.normalize_eq]
  exact valid_withURL hvalid

/-- Normalizing again makes no configuration usable other than through its base URL. -/
theorem Config.Normalized.valid_of_normalize {lib : Library} {c : Config} (h : c.Normalized)
    (hvalid : c.normalize.Valid lib) (hurl : AcceptedURL c.serverURL) : c.Valid lib := by
  rw [h.normalize_eq] at hvalid
  exact valid_of_withURL hvalid hurl

/-! ### Written and read -/

variable {yaml : Yaml} {lib : Library} {path : String} {c : Config}

theorem tempPath_ne (path : String) : tempPath path ≠ path := by
  intro h
  have hlength := congrArg String.length h
  simp [tempPath, String.length_append] at hlength

theorem tempPath_ne_backupPath (path : String) : tempPath path ≠ backupPath path := by
  intro h
  have hlist := congrArg String.toList h
  simp [tempPath, backupPath] at hlist

/-- A save that passes validation leaves the document of the configuration at the path. -/
theorem save_of_valid (h : c.validate lib path = .ok ()) (disk : Disk yaml) :
    ∃ disk', save yaml lib path c disk = .ok disk' ∧ disk' path = some (yaml.encode (marshal c)) := by
  have hne := (tempPath_ne path).symm
  have hwritten : disk.write yaml (tempPath path) (yaml.encode (marshal c)) (tempPath path) =
      some (yaml.encode (marshal c)) := Function.update_self _ _ _
  rw [save, h]
  dsimp only
  cases hold : disk.write yaml (tempPath path) (yaml.encode (marshal c)) path with
  | none =>
    refine ⟨_, rfl, ?_⟩
    rw [Disk.rename, Function.update_of_ne hne, Function.update_self, hwritten]
  | some old =>
    refine ⟨_, rfl, ?_⟩
    rw [Disk.replaceFile, Disk.rename, Function.update_of_ne hne, Function.update_self, Disk.rename,
      Function.update_of_ne (tempPath_ne path), Function.update_of_ne (tempPath_ne_backupPath path), hwritten]

/-! ### A save whose file operations may fail -/

theorem trySave_of_error {e : ValidationError} (h : c.validate lib path = .error e) (faults : FileFaults yaml)
    (disk : Disk yaml) : trySave yaml lib faults path c disk = (.error (.invalid e), disk) := by
  rw [trySave, h]

theorem trySave_never (h : c.validate lib path = .ok ()) (disk : Disk yaml) :
    (trySave yaml lib (.never yaml) path c disk).1 = .ok () := by
  rw [trySave, h]
  simp only [FileFaults.never]
  split <;> rfl

/-- A usable configuration is saved, or a file operation fails. Then the file is as it was, unless the second
step of `replaceFile` failed. -/
theorem trySave_of_valid (h : c.validate lib path = .ok ()) (faults : FileFaults yaml) (disk : Disk yaml) :
    (trySave yaml lib faults path c disk).1 = .ok () ∧
        save yaml lib path c disk = .ok (trySave yaml lib faults path c disk).2 ∨
      (∃ message, (trySave yaml lib faults path c disk).1 = .error (.operation message)) ∧
        ((trySave yaml lib faults path c disk).2 path = disk path ∨ (disk path).isSome ∧ faults.losesFile yaml) := by
  have hne := (tempPath_ne path).symm
  have hkept (document : yaml.Document) : disk.write yaml (tempPath path) document path = disk path :=
    Function.update_of_ne hne _ _
  have hremoved : (disk.write yaml (tempPath path) (yaml.encode (marshal c))).remove yaml (tempPath path) path =
      disk path := (Function.update_of_ne hne _ _).trans (hkept _)
  rw [trySave, save, h, FileFaults.losesFile]
  cases faults.write with
  | some fault =>
    obtain ⟨err, left⟩ := fault
    refine .inr ⟨⟨_, rfl⟩, .inl ?_⟩
    cases left with
    | none => rfl
    | some document => exact hkept document
  | none =>
    cases faults.stat with
    | some err => exact .inr ⟨⟨_, rfl⟩, .inl hremoved⟩
    | none =>
      dsimp only
      rw [hkept]
      cases hold : disk path with
      | none =>
        cases faults.create with
        | some err => exact .inr ⟨⟨_, rfl⟩, .inl (hremoved.trans hold)⟩
        | none => exact .inl ⟨rfl, rfl⟩
      | some old =>
        cases faults.backUp with
        | some err => exact .inr ⟨⟨_, rfl⟩, .inl (hremoved.trans hold)⟩
        | none =>
          cases faults.move with
          | some err => exact .inr ⟨⟨_, rfl⟩, .inr ⟨rfl, rfl⟩⟩
          | none => exact .inl ⟨rfl, rfl⟩

/-- Loading what was saved normalizes and validates the configuration once more. -/
theorem load_of_saved (hyaml : yaml.Undoes) {disk : Disk yaml} (h : disk path = some (yaml.encode (marshal c))) :
    load yaml lib path disk =
      match c.normalize.validate lib path with
      | .error e => .error (.invalid e)
      | .ok () => .ok c.normalize := by
  have hread : (yaml.decode (yaml.encode (marshal c))).bind (decodeConfig lib) = some c := by
    rw [hyaml, Option.bind_some, decodeConfig_marshal]
  cases hvalid : c.normalize.validate lib path with
  | error e => simp [load, h, hread, hvalid]
  | ok _ => simp [load, h, hread, hvalid]

theorem load_of_saved_eq_ok (hyaml : yaml.Undoes) {disk : Disk yaml}
    (h : disk path = some (yaml.encode (marshal c))) {c' : Config} :
    load yaml lib path disk = .ok c' ↔ c.normalize.Valid lib ∧ c.normalize = c' := by
  rw [load_of_saved hyaml h, ← validate_eq_ok path]
  cases c.normalize.validate lib path with
  | error e => simp
  | ok _ => simp

theorem load_eq_ok {disk : Disk yaml} (h : load yaml lib path disk = .ok c) : c.Normalized ∧ c.Valid lib := by
  rw [load] at h
  split at h
  · cases h
  · split at h
    · cases h
    · next raw _ =>
      split at h
      · cases h
      · next hvalid =>
        rw [Except.ok.injEq] at h
        exact ⟨⟨raw, h⟩, h ▸ (validate_eq_ok path).mp hvalid⟩

/-- Saving succeeds, loading the file gives the configuration back, and saving that writes the document
that is already there. -/
def Lossless (yaml : Yaml) (lib : Library) (path : String) (c : Config) (disk : Disk yaml) : Prop :=
  ∃ disk', save yaml lib path c disk = .ok disk' ∧ ∃ c', load yaml lib path disk' = .ok c' ∧ c' = c ∧
    ∃ disk'', save yaml lib path c' disk' = .ok disk'' ∧ disk'' path = disk' path

theorem Lossless.serverURL_fixed (hyaml : yaml.Undoes) {raw : Config}
    (hvalid : raw.normalize.validate lib path = .ok ()) {disk : Disk yaml}
    (h : Lossless yaml lib path raw.normalize disk) :
    normalizeURL (normalizeURL raw.serverURL) = normalizeURL raw.serverURL := by
  obtain ⟨disk', hsave, c', hload, rfl, -⟩ := h
  obtain ⟨disk'', hsave', hdisk⟩ := save_of_valid hvalid disk
  rw [hsave, Except.ok.injEq] at hsave'
  rw [load_of_saved hyaml (hsave' ▸ hdisk)] at hload
  split at hload
  · cases hload
  · rw [Except.ok.injEq, normalize_normalize] at hload
    have hurl := congrArg Config.serverURL hload
    simpa only [serverURL_normalize] using hurl

/-- A normalized configuration that is valid survives the file exactly when its base URL does not end
in space. -/
theorem lossless_iff (hyaml : yaml.Undoes) (raw : Config) (hvalid : raw.normalize.validate lib path = .ok ())
    (disk : Disk yaml) :
    Lossless yaml lib path raw.normalize disk ↔
      ∀ a ∈ (normalizeURL raw.serverURL).toList.getLast?, ¬ isSpace a := by
  rw [← normalizeURL_normalizeURL_iff]
  constructor
  · intro h
    exact h.serverURL_fixed hyaml hvalid
  · intro hurl
    have hfixed : raw.normalize.normalize = raw.normalize := by
      rw [normalize_normalize, serverURL_normalize, hurl, ← serverURL_normalize]
    obtain ⟨disk', hsave, hdisk⟩ := save_of_valid hvalid disk
    obtain ⟨disk'', hsave', hdisk'⟩ := save_of_valid hvalid disk'
    refine ⟨disk', hsave, _, ?_, rfl, disk'', hsave', hdisk'.trans hdisk.symm⟩
    rw [load_of_saved hyaml hdisk, hfixed, hvalid]

/-! ### A small configuration -/

/-- Documents that are the trees themselves. -/
def treeYaml : Yaml := ⟨Node, id, some⟩

/-- Regular expressions are texts that match the titles they are part of. -/
def plainLibrary : Library where
  lower := Char.toLower
  quote s := "\"" ++ s ++ "\""
  Regexp := String
  compile := .ok
  matchString re title := decide (re.toList <:+: title.toList)
  urlError _ := "parse error"

def sampleConfig (serverURL : String) : Config := { Config.empty with serverURL, deviceID := "d1", token := "t" }

theorem sampleConfig_valid :
    (sampleConfig "http://a/").normalize.validate plainLibrary "config.yaml" = .ok () := by
  decide +kernel

theorem lossless_iff_sample :
    Lossless treeYaml plainLibrary "config.yaml" (sampleConfig "http://a/").normalize (fun _ => none) := by
  have hlast : (normalizeURL "http://a/").toList.getLast? = some 'a' := by decide +kernel
  apply (lossless_iff (fun _ => rfl) _ sampleConfig_valid _).mpr
  intro c hc
  cases hlast.symm.trans hc
  decide

/-- The slash in front of which the space stood is gone, so the next normalization takes the space too. -/
theorem spaced_url_changes :
    ¬ (∀ raw : Config, raw.normalize.validate plainLibrary "config.yaml" = .ok () →
      Lossless treeYaml plainLibrary "config.yaml" raw.normalize (fun _ => none)) := by
  intro h
  have hvalid : (sampleConfig "http://a/ /").normalize.validate plainLibrary "config.yaml" = .ok () := by
    decide +kernel
  have hyaml : treeYaml.Undoes := fun _ => rfl
  have hurl := (h _ hvalid).serverURL_fixed hyaml hvalid
  revert hurl
  decide +kernel

end CyberstalkMe.Agent
