import CyberstalkMe.Agent.RoundTrip

/-! # Saving when file operations fail

`Save` once more, with files that hold bytes and with every file operation free
to fail. A single rename or removal happens or does not, and clean-up removals
succeed.
-/
namespace CyberstalkMe.Agent

open Go

abbrev Files := String → Option (List UInt8)

def Files.write (files : Files) (name : String) (data : List UInt8) : Files := Function.update files name (some data)

def Files.remove (files : Files) (name : String) : Files := Function.update files name none

def Files.rename (files : Files) (src dst : String) : Files :=
  Function.update (Function.update files dst (files src)) src none

def utf8 (s : String) : List UInt8 := s.toUTF8.data.toList

/-- The encoder of the YAML package: the text of a tree, or an error. -/
abbrev Encoder := Node → Except String (List UInt8)

/-! ### Faults -/

/-- How writing a file fails: before the file is opened, or after some bytes are in it. -/
inductive WriteFault
  | notOpened (err : String)
  | interrupted (written : ℕ) (err : String)
deriving DecidableEq, Repr

def WriteFault.err : WriteFault → String
  | .notOpened err => err
  | .interrupted _ err => err

def WriteFault.leave (files : Files) (name : String) (data : List UInt8) : WriteFault → Files
  | .notOpened _ => files
  | .interrupted written _ => files.write name (data.take written)

/-- The errors of the file operations of one call, where they fail. `backUp` and `move` are the two steps of
`replaceFile`; `ReplaceFileW` documents a failure that leaves both files as they are and one that leaves the
old file at the backup path. -/
structure Faults where
  write : Option WriteFault
  stat : Option String
  create : Option String
  backUp : Option String
  move : Option String
deriving DecidableEq, Repr

def Faults.never : Faults := ⟨none, none, none, none, none⟩

inductive Platform
  | windows
  | other
deriving DecidableEq, Repr

/-! ### Saving -/

/-- The first of the paths, with what it is called in the error, that `UTF16PtrFromString` rejects. -/
def invalidPath (paths : List (String × String)) : Option String :=
  (paths.find? fun p => Char.ofNat 0 ∈ p.2.toList).map fun p => p.1 ++ " " ++ p.2 ++ ": invalid argument"

def replaceFile (platform : Platform) (faults : Faults) (dst tmp bak : String) (files : Files) :
    Except String Unit × Files :=
  match platform with
  | .windows =>
    match invalidPath [("config path", dst), ("temp path", tmp), ("backup path", bak)] with
    | some err => (.error err, files)
    | none =>
      match faults.backUp, faults.move with
      | some err, _ => (.error ("ReplaceFileW: " ++ err), files)
      | none, some err => (.error ("ReplaceFileW: " ++ err), files.rename dst bak)
      | none, none => (.ok (), (files.rename dst bak).rename tmp dst)
  | .other =>
    match faults.backUp with
    | some err => (.error ("back up " ++ dst ++ ": " ++ err), files)
    | none =>
      match faults.move with
      | some err => (.error ("move " ++ tmp ++ " into place: " ++ err), files.rename dst bak)
      | none => (.ok (), (files.rename dst bak).rename tmp dst)

variable (platform : Platform) (lib : Library) (encode : Encoder)

/-- `Save`, with the files it leaves. -/
def saveUnder (faults : Faults) (path : String) (c : Config) (files : Files) : Except String Unit × Files :=
  match c.validate lib path with
  | .error e => (.error e.error, files)
  | .ok () =>
    match encode (marshal c) with
    | .error err => (.error ("encode config: " ++ err), files)
    | .ok data =>
      let tmp := tempPath path
      match faults.write with
      | some fault => (.error ("write " ++ tmp ++ ": " ++ fault.err), fault.leave files tmp data)
      | none =>
        let files := files.write tmp data
        match faults.stat with
        | some err => (.error ("stat config " ++ path ++ ": " ++ err), files.remove tmp)
        | none =>
          match files path with
          | none =>
            match faults.create with
            | some err => (.error ("create config " ++ path ++ ": " ++ err), files.remove tmp)
            | none => (.ok (), files.rename tmp path)
          | some _ =>
            match replaceFile platform faults path tmp (backupPath path) files with
            | (.error err, files) => (.error ("replace config " ++ path ++ ": " ++ err), files.remove tmp)
            | (.ok (), files) => (.ok (), files)

/-! ### What a failure leaves -/

/-- The files before the call: a configuration and a backup, each of which may be absent. -/
def initialFiles (path : String) (contents backup : Option (List UInt8)) : Files :=
  Function.update (Function.update (fun _ => none) (backupPath path) backup) path contents

/-- A failed call leaves the configuration as it was, and no temporary file with the token. -/
def Unharmed (path : String) (c : Config) (contents : Option (List UInt8)) (outcome : Except String Unit × Files) : Prop :=
  ∀ err, outcome.1 = .error err →
    outcome.2 path = contents ∧ ∀ data ∈ outcome.2 (tempPath path), ¬ utf8 c.token <:+: data

/-- The write of the temporary file does not fail with the token on disk. -/
def Faults.KeepsTokenOff (faults : Faults) (c : Config) (data : List UInt8) : Prop :=
  ∀ written err, faults.write = some (.interrupted written err) → ¬ utf8 c.token <:+: data.take written

/-- The first step of `replaceFile` fails, or a path is not one. -/
def Blocked (faults : Faults) (path : String) : Prop :=
  faults.backUp ≠ none ∨ platform = .windows ∧ Char.ofNat 0 ∈ path.toList

/-- The second step of `replaceFile` does not fail after the first. -/
def KeepsFile (faults : Faults) (path : String) (contents : Option (List UInt8)) : Prop :=
  contents ≠ none → faults.write = none → faults.stat = none → ¬ Blocked platform faults path → faults.move = none

variable {platform lib encode}

theorem invalidPath_eq_none (path : String) :
    invalidPath [("config path", path), ("temp path", tempPath path), ("backup path", backupPath path)] = none ↔
      Char.ofNat 0 ∉ path.toList := by
  simp [invalidPath, tempPath, backupPath]

section Replace
variable {faults : Faults} {path : String} (files : Files)

theorem replaceFile_blocked (h : Blocked platform faults path) :
    ∃ err, replaceFile platform faults path (tempPath path) (backupPath path) files = (.error err, files) := by
  cases platform with
  | windows =>
    simp only [replaceFile]
    cases hinvalid : invalidPath [("config path", path), ("temp path", tempPath path), ("backup path", backupPath path)] with
    | some err => exact ⟨err, rfl⟩
    | none =>
      rw [invalidPath_eq_none] at hinvalid
      obtain ⟨err, herr⟩ := Option.ne_none_iff_exists'.mp (h.resolve_right fun hnul => hinvalid hnul.2)
      exact ⟨_, by rw [herr]⟩
  | other =>
    obtain ⟨err, herr⟩ := Option.ne_none_iff_exists'.mp (h.resolve_right fun hnul => nomatch hnul.1)
    exact ⟨_, by rw [replaceFile, herr]⟩

theorem replaceFile_moveFails (h : ¬ Blocked platform faults path) {err : String} (hmove : faults.move = some err) :
    ∃ text, replaceFile platform faults path (tempPath path) (backupPath path) files =
      (.error text, files.rename path (backupPath path)) := by
  rw [Blocked, not_or, not_not, not_and] at h
  cases platform with
  | windows =>
    have hinvalid := (invalidPath_eq_none path).mpr (h.2 rfl)
    exact ⟨_, by rw [replaceFile, hinvalid, h.1, hmove]⟩
  | other => exact ⟨_, by rw [replaceFile, h.1, hmove]⟩

theorem replaceFile_ok (h : ¬ Blocked platform faults path) (hmove : faults.move = none) :
    replaceFile platform faults path (tempPath path) (backupPath path) files =
      (.ok (), (files.rename path (backupPath path)).rename (tempPath path) path) := by
  rw [Blocked, not_or, not_not, not_and] at h
  cases platform with
  | windows =>
    have hinvalid := (invalidPath_eq_none path).mpr (h.2 rfl)
    rw [replaceFile, hinvalid, h.1, hmove]
  | other => rw [replaceFile, h.1, hmove]

end Replace

/-- When nothing fails, this is the saving of whole documents. -/
theorem saveUnder_never (encode : Node → List UInt8) (decode : List UInt8 → Option Node) (path : String) (c : Config)
    (files : Files) (hpath : platform = .windows → Char.ofNat 0 ∉ path.toList) :
    saveUnder platform lib (fun n => .ok (encode n)) .never path c files =
      match save ⟨List UInt8, encode, decode⟩ lib path c files with
      | .error e => (.error e.error, files)
      | .ok disk => (.ok (), disk) := by
  have hfree : ¬ Blocked platform .never path := by
    rintro (h | ⟨hwindows, hnul⟩)
    · exact h rfl
    · exact hpath hwindows hnul
  rw [saveUnder, save]
  cases c.validate lib path with
  | error e => rfl
  | ok u =>
    simp only [Faults.never, Files.write, Disk.write]
    cases Function.update files (tempPath path) (some (encode (marshal c))) path with
    | none => rfl
    | some old =>
      simp only
      rw [← Faults.never, replaceFile_ok _ hfree rfl]
      rfl

/-! ### Every failure -/

section Outcome
variable {path : String} {c : Config} {contents backup : Option (List UInt8)} {files : Files}

theorem unharmed_ok : Unharmed path c contents (.ok (), files) := fun _ h => nomatch h

/-- Removing the temporary file is all the cleaning up there is. -/
theorem unharmed_removed (err : String) (h : files path = contents) :
    Unharmed path c contents (.error err, files.remove (tempPath path)) := by
  intro _ _
  dsimp only
  rw [Files.remove, Function.update_of_ne (tempPath_ne path).symm, h, Function.update_self]
  exact ⟨rfl, by simp⟩

theorem initialFiles_self : initialFiles path contents backup path = contents := Function.update_self _ _ _

theorem initialFiles_tempPath : initialFiles path contents backup (tempPath path) = none := by
  rw [initialFiles, Function.update_of_ne (tempPath_ne path), Function.update_of_ne (tempPath_ne_backupPath path)]

theorem write_tempPath_self (path : String) (files : Files) (data : List UInt8) : files.write (tempPath path) data path = files path :=
  Function.update_of_ne (tempPath_ne path).symm _ _

theorem unharmed_untouched (err : String) :
    Unharmed path c contents (.error err, initialFiles path contents backup) := by
  intro _ _
  dsimp only
  rw [initialFiles_self, initialFiles_tempPath]
  exact ⟨rfl, by simp⟩

theorem unharmed_write_iff (fault : WriteFault) (err : String) (data : List UInt8) :
    Unharmed path c contents (.error err, fault.leave (initialFiles path contents backup) (tempPath path) data) ↔
      ∀ written err, fault = .interrupted written err → ¬ utf8 c.token <:+: data.take written := by
  cases fault with
  | notOpened _ => exact iff_of_true (unharmed_untouched err) (by simp)
  | interrupted written text =>
    have hpath := write_tempPath_self path (initialFiles path contents backup) (data.take written)
    rw [initialFiles_self] at hpath
    rw [Files.write] at hpath
    simp [Unharmed, WriteFault.leave, Files.write, hpath]

theorem harmed_by_move (err : String) {old : List UInt8} (h : contents = some old) :
    ¬ Unharmed path c contents
      (.error err, (files.rename path (backupPath path)).remove (tempPath path)) := by
  intro hunharmed
  have hpath := (hunharmed err rfl).1
  dsimp only at hpath
  rw [Files.remove, Function.update_of_ne (tempPath_ne path).symm, Files.rename, Function.update_self, h] at hpath
  cases hpath

end Outcome

/-- A failed save leaves the disk as it was exactly when no write fails with the token on disk and the second
step of `replaceFile` does not fail. -/
theorem unharmed_iff (platform : Platform) (lib : Library) (encode : Encoder) (faults : Faults) (path : String)
    (c : Config) (contents backup : Option (List UInt8)) :
    Unharmed path c contents
        (saveUnder platform lib encode faults path c (initialFiles path contents backup)) ↔
      ∀ data, c.validate lib path = .ok () → encode (marshal c) = .ok data →
        faults.KeepsTokenOff c data ∧ KeepsFile platform faults path contents := by
  rw [saveUnder]
  cases hvalid : c.validate lib path with
  | error e => exact iff_of_true (unharmed_untouched _) fun _ h => nomatch h
  | ok u =>
    cases hencode : encode (marshal c) with
    | error err => exact iff_of_true (unharmed_untouched _) fun _ _ h => nomatch h
    | ok data =>
      simp only [Except.ok.injEq, forall_const, forall_eq']
      cases hwrite : faults.write with
      | some fault =>
        simp only [unharmed_write_iff, Faults.KeepsTokenOff, KeepsFile, hwrite]
        simp
      | none =>
        have htoken : faults.KeepsTokenOff c data := by simp [Faults.KeepsTokenOff, hwrite]
        simp only [htoken, true_and]
        have hwritten := write_tempPath_self path (initialFiles path contents backup) data
        rw [initialFiles_self] at hwritten
        cases hstat : faults.stat with
        | some err =>
          exact iff_of_true (unharmed_removed _ hwritten) (by simp [KeepsFile, hstat])
        | none =>
          dsimp only
          cases contents with
          | none =>
            rw [hwritten]
            cases faults.create with
            | some err => exact iff_of_true (unharmed_removed _ hwritten) (by simp [KeepsFile])
            | none => exact iff_of_true unharmed_ok (by simp [KeepsFile])
          | some old =>
            rw [hwritten]
            by_cases hblocked : Blocked platform faults path
            · obtain ⟨err, herr⟩ := replaceFile_blocked ((initialFiles path (some old) backup).write (tempPath path) data) hblocked
              simp only [herr]
              exact iff_of_true (unharmed_removed _ hwritten) (by simp [KeepsFile, hblocked])
            · cases hmove : faults.move with
              | some err =>
                obtain ⟨text, htext⟩ := replaceFile_moveFails ((initialFiles path (some old) backup).write (tempPath path) data)
                  hblocked hmove
                simp only [htext]
                exact iff_of_false (harmed_by_move _ rfl) (by simp [KeepsFile, hwrite, hstat, hblocked, hmove])
              | none =>
                simp only [replaceFile_ok _ hblocked hmove]
                exact iff_of_true unharmed_ok (by simp [KeepsFile, hmove])

/-- Save a valid configuration over an old file, or none. -/
def sampleSave (faults : Faults) (contents : Option (List UInt8)) : Except String Unit × Files :=
  saveUnder .other plainLibrary (fun _ => .ok (utf8 "token: t\n")) faults "config.yaml" (sampleConfig "http://a").normalize
    (initialFiles "config.yaml" contents none)

/-- A short write leaves the token in the temporary file, and a move that fails after the backup leaves no
configuration. -/
theorem failed_save_harms :
    ¬ Unharmed "config.yaml" (sampleConfig "http://a").normalize none
        (sampleSave { Faults.never with write := some (.interrupted 8 "no space left on device") } none) ∧
      ¬ Unharmed "config.yaml" (sampleConfig "http://a").normalize (some (utf8 "token: s\n"))
        (sampleSave { Faults.never with move := some "access denied" } (some (utf8 "token: s\n"))) := by
  constructor
  · intro h
    have herr : (sampleSave { Faults.never with write := some (.interrupted 8 "no space left on device") } none).1 =
        .error "write config.yaml.tmp: no space left on device" := by decide +kernel
    have hleft : (sampleSave { Faults.never with write := some (.interrupted 8 "no space left on device") } none).2
        (tempPath "config.yaml") = some (utf8 "token: t") := by decide +kernel
    have htoken : utf8 (sampleConfig "http://a").normalize.token <:+: utf8 "token: t" := by decide +kernel
    exact (h _ herr).2 _ hleft htoken
  · intro h
    have herr : (sampleSave { Faults.never with move := some "access denied" } (some (utf8 "token: s\n"))).1 =
        .error "replace config config.yaml: move config.yaml.tmp into place: access denied" := by decide +kernel
    have hlost : (sampleSave { Faults.never with move := some "access denied" } (some (utf8 "token: s\n"))).2
        "config.yaml" = none := by decide +kernel
    cases hlost.symm.trans (h _ herr).1

end CyberstalkMe.Agent
