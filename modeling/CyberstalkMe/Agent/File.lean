import CyberstalkMe.Agent.Config

/-! # The configuration file

How a configuration becomes a YAML tree and a tree a configuration. The text of a
document and its syntax belong to the YAML package; the regenerated comments are
the same for every configuration and are left out of the tree.
-/
namespace CyberstalkMe.Agent

open Go

/-- A YAML tree. A scalar is the text that decoding into a string gives. -/
inductive Node
  | null
  | scalar (value : String)
  | mapping (entries : List (String × Node))
  | sequence (items : List Node)

/-- The YAML package: a document for every tree, and the tree of a document, unless its syntax is wrong. -/
structure Yaml where
  Document : Type
  encode : Node → Document
  decode : Document → Option Node

/-- Decoding undoes encoding. -/
def Yaml.Undoes (yaml : Yaml) : Prop := ∀ n, yaml.decode (yaml.encode n) = some n

/-! ### Writing -/

def patternNode (p : Mapping.TitlePattern) : Node :=
  .mapping (("match", .scalar p.matchExpr) ::
    if p.description ≠ "" then [("description", .scalar p.description)] else [])

def ruleEntries (r : Mapping.Rule) : List (String × Node) :=
  [("process", .scalar r.process), ("app", .scalar r.app)] ++
  (if r.description ≠ "" then [("description", .scalar r.description)] else []) ++
  (if 0 < r.titlePatterns.length then [("title_patterns", .sequence (r.titlePatterns.map patternNode))] else [])

def ruleNode (r : Mapping.Rule) : Node := .mapping (ruleEntries r)

def marshalEntries (c : Config) : List (String × Node) :=
  [("server_url", .scalar c.serverURL), ("device_id", .scalar c.deviceID), ("token", .scalar c.token),
    ("interval", .scalar (formatDuration c.interval))] ++
  (if c.deviceName ≠ "" then [("device_name", .scalar c.deviceName)] else []) ++
  [("idle_threshold", .scalar (formatDuration c.idleThreshold)), ("default_app", .scalar c.defaultApp),
    ("default_description", .scalar c.defaultDescription), ("locked_app", .scalar c.lockedApp),
    ("locked_description", .scalar c.lockedDescription), ("rules", .sequence (c.rules.map ruleNode)),
    ("expose_title", .sequence (c.exposeTitle.map .scalar))]

/-- The tree that `Save` writes. -/
def marshal (c : Config) : Node := .mapping (marshalEntries c)

/-! ### Reading -/

def decodeString : Node → Option String
  | .null => some ""
  | .scalar v => some v
  | _ => none

def decodeSequence {α : Type} (decode : Node → Option α) : Node → Option (List α)
  | .null => some []
  | .sequence items => items.mapM decode
  | _ => none

def decodeDuration (lib : Library) : Node → Option Duration
  | .null => some .zero
  | .scalar v => (parseDuration lib.toLibrary v).toOption
  | _ => none

/-- The entries of a mapping. With `KnownFields` a key that is unknown is an error, as is one that
comes twice. -/
def knownFields (keys : List String) : Node → Option (List (String × Node))
  | .null => some []
  | .mapping entries =>
    if (entries.map Prod.fst).Nodup ∧ ∀ key ∈ entries.map Prod.fst, key ∈ keys then some entries else none
  | _ => none

/-- The value of a key; an absent one keeps its zero value. -/
def field {α : Type} (decode : Node → Option α) (zero : α) (entries : List (String × Node)) (key : String) :
    Option α :=
  match entries.lookup key with
  | some n => decode n
  | none => some zero

def decodePattern (n : Node) : Option Mapping.TitlePattern := do
  let entries ← knownFields ["match", "description"] n
  let matchExpr ← field decodeString "" entries "match"
  let description ← field decodeString "" entries "description"
  some { matchExpr, description }

def ruleKeys : List String := ["process", "app", "description", "title_patterns"]

def decodeRule (n : Node) : Option Mapping.Rule := do
  let entries ← knownFields ruleKeys n
  let process ← field decodeString "" entries "process"
  let app ← field decodeString "" entries "app"
  let description ← field decodeString "" entries "description"
  let titlePatterns ← field (decodeSequence decodePattern) [] entries "title_patterns"
  some { process, app, description, titlePatterns }

def configKeys : List String :=
  ["server_url", "device_id", "token", "interval", "device_name", "idle_threshold", "default_app",
    "default_description", "locked_app", "locked_description", "rules", "expose_title"]

/-- `fileConfig`, whose fields are those of the configuration before normalization. -/
def decodeConfig (lib : Library) (n : Node) : Option Config := do
  let entries ← knownFields configKeys n
  let serverURL ← field decodeString "" entries "server_url"
  let deviceID ← field decodeString "" entries "device_id"
  let token ← field decodeString "" entries "token"
  let interval ← field (decodeDuration lib) .zero entries "interval"
  let deviceName ← field decodeString "" entries "device_name"
  let idleThreshold ← field (decodeDuration lib) .zero entries "idle_threshold"
  let defaultApp ← field decodeString "" entries "default_app"
  let defaultDescription ← field decodeString "" entries "default_description"
  let lockedApp ← field decodeString "" entries "locked_app"
  let lockedDescription ← field decodeString "" entries "locked_description"
  let rules ← field (decodeSequence decodeRule) [] entries "rules"
  let exposeTitle ← field (decodeSequence decodeString) [] entries "expose_title"
  some { serverURL, deviceID, token, interval, deviceName, idleThreshold, defaultApp, defaultDescription,
         lockedApp, lockedDescription, rules, exposeTitle }

/-! ### The disk -/

/-- The documents by path. -/
abbrev Disk (yaml : Yaml) : Type := String → Option yaml.Document

inductive LoadError
  | read
  | parse
  | invalid (e : ValidationError)
deriving DecidableEq, Repr

variable (yaml : Yaml) (lib : Library)

/-- Read, parse, normalize and validate the file at `path`. -/
def load (path : String) (disk : Disk yaml) : Except LoadError Config :=
  match disk path with
  | none => .error .read
  | some document =>
    match (yaml.decode document).bind (decodeConfig lib) with
    | none => .error .parse
    | some c =>
      match c.normalize.validate lib path with
      | .error e => .error (.invalid e)
      | .ok () => .ok c.normalize

def backupPath (path : String) : String := path ++ ".bak"

def tempPath (path : String) : String := path ++ ".tmp"

def Disk.write (disk : Disk yaml) (path : String) (document : yaml.Document) : Disk yaml :=
  Function.update disk path (some document)

def Disk.rename (disk : Disk yaml) (src dst : String) : Disk yaml :=
  Function.update (Function.update disk dst (disk src)) src none

/-- `dst` gets the document of `tmp` and `bak` that of `dst`. -/
def Disk.replaceFile (disk : Disk yaml) (dst tmp bak : String) : Disk yaml :=
  (disk.rename yaml dst bak).rename yaml tmp dst

/-- Validate the configuration and write it, when no file operation fails. -/
def save (path : String) (c : Config) (disk : Disk yaml) : Except ValidationError (Disk yaml) :=
  match c.validate lib path with
  | .error e => .error e
  | .ok () =>
    let disk := disk.write yaml (tempPath path) (yaml.encode (marshal c))
    match disk path with
    | none => .ok (disk.rename yaml (tempPath path) path)
    | some _ => .ok (disk.replaceFile yaml path (tempPath path) (backupPath path))

/-! ### When file operations fail -/

/-- The errors of the file operations of one save, where they fail. A write that fails leaves the temporary
file as it was or some document in it. `backUp` and `move` are the two steps of `replaceFile`. -/
structure FileFaults where
  write : Option (String × Option yaml.Document)
  stat : Option String
  create : Option String
  backUp : Option String
  move : Option String

def FileFaults.never : FileFaults yaml := ⟨none, none, none, none, none⟩

/-- The first operation that fails is the second step of `replaceFile`, if there is a file to replace. -/
def FileFaults.losesFile (faults : FileFaults yaml) : Bool :=
  faults.write.isNone && faults.stat.isNone && faults.backUp.isNone && faults.move.isSome

inductive SaveError
  | invalid (e : ValidationError)
  | operation (message : String)

def Disk.remove (disk : Disk yaml) (path : String) : Disk yaml := Function.update disk path none

/-- `save`, and the disk that it leaves, when file operations may fail. -/
def trySave (faults : FileFaults yaml) (path : String) (c : Config) (disk : Disk yaml) :
    Except SaveError Unit × Disk yaml :=
  match c.validate lib path with
  | .error e => (.error (.invalid e), disk)
  | .ok () =>
    let tmp := tempPath path
    match faults.write with
    | some (err, left) =>
      (.error (.operation ("write " ++ tmp ++ ": " ++ err)), left.elim disk (disk.write yaml tmp))
    | none =>
      let disk := disk.write yaml tmp (yaml.encode (marshal c))
      match faults.stat with
      | some err => (.error (.operation ("stat config " ++ path ++ ": " ++ err)), disk.remove yaml tmp)
      | none =>
        match disk path with
        | none =>
          match faults.create with
          | some err => (.error (.operation ("create config " ++ path ++ ": " ++ err)), disk.remove yaml tmp)
          | none => (.ok (), disk.rename yaml tmp path)
        | some _ =>
          match faults.backUp, faults.move with
          | some err, _ => (.error (.operation ("replace config " ++ path ++ ": " ++ err)), disk.remove yaml tmp)
          | none, some err =>
            (.error (.operation ("replace config " ++ path ++ ": " ++ err)),
              (disk.rename yaml path (backupPath path)).remove yaml tmp)
          | none, none => (.ok (), disk.replaceFile yaml path tmp (backupPath path))

/-! ### A configuration read back -/

variable {yaml lib}

theorem mapM_map {α β : Type} {f : β → Option α} {g : α → β} (h : ∀ a, f (g a) = some a) (l : List α) :
    (l.map g).mapM f = some l := by
  induction l with
  | nil => rfl
  | cons a l ih => simp [h, ih]

theorem decodePattern_patternNode (p : Mapping.TitlePattern) : decodePattern (patternNode p) = some p := by
  obtain ⟨matchExpr, description⟩ := p
  by_cases hd : description = ""
  · subst hd
    simp [decodePattern, patternNode, knownFields, field, decodeString, List.lookup_cons]
  · simp [decodePattern, patternNode, knownFields, field, decodeString, hd, List.lookup_cons]

theorem decodeSequence_map {α : Type} {decode : Node → Option α} {node : α → Node}
    (h : ∀ a, decode (node a) = some a) (l : List α) :
    decodeSequence decode (.sequence (l.map node)) = some l := mapM_map h l

theorem field_of_lookup {α : Type} {decode : Node → Option α} {zero a : α} {entries : List (String × Node)}
    {key : String} {n : Node} (h : entries.lookup key = some n) (hn : decode n = some a) :
    field decode zero entries key = some a := by
  rw [field, h]
  exact hn

theorem knownFields_ruleNode (r : Mapping.Rule) : knownFields ruleKeys (ruleNode r) = some (ruleEntries r) := by
  have hkeys : (ruleEntries r).map Prod.fst ∈
      [ruleKeys, ["process", "app", "description"], ["process", "app", "title_patterns"], ["process", "app"]] := by
    rw [ruleEntries]
    split_ifs
    · exact .head _
    · exact .tail _ (.head _)
    · exact .tail _ (.tail _ (.head _))
    · exact .tail _ (.tail _ (.tail _ (.head _)))
  have hall : ∀ keys ∈ [ruleKeys, ["process", "app", "description"], ["process", "app", "title_patterns"],
      ["process", "app"]], keys.Nodup ∧ ∀ key ∈ keys, key ∈ ruleKeys := by decide
  exact if_pos (hall _ hkeys)

/-- What is omitted from a rule is read back as empty. -/
theorem field_ruleEntries (r : Mapping.Rule) :
    field decodeString "" (ruleEntries r) "process" = some r.process ∧
      field decodeString "" (ruleEntries r) "app" = some r.app ∧
      field decodeString "" (ruleEntries r) "description" = some r.description ∧
      field (decodeSequence decodePattern) [] (ruleEntries r) "title_patterns" = some r.titlePatterns := by
  have hpatterns := decodeSequence_map decodePattern_patternNode r.titlePatterns
  rw [ruleEntries]
  split_ifs with hdescription hlength hlength
  · exact ⟨rfl, rfl, rfl, hpatterns⟩
  · rw [Nat.not_lt, Nat.le_zero, List.length_eq_zero_iff] at hlength
    exact ⟨rfl, rfl, rfl, hlength.symm ▸ rfl⟩
  · rw [not_not] at hdescription
    exact ⟨rfl, rfl, hdescription.symm ▸ rfl, hpatterns⟩
  · rw [not_not] at hdescription
    rw [Nat.not_lt, Nat.le_zero, List.length_eq_zero_iff] at hlength
    exact ⟨rfl, rfl, hdescription.symm ▸ rfl, hlength.symm ▸ rfl⟩

theorem decodeRule_ruleNode (r : Mapping.Rule) : decodeRule (ruleNode r) = some r := by
  obtain ⟨hprocess, happ, hdescription, hpatterns⟩ := field_ruleEntries r
  rw [decodeRule, knownFields_ruleNode]
  simp only [Option.bind_eq_bind, Option.bind_some, hprocess, happ, hdescription, hpatterns]

theorem decodeDuration_formatDuration (d : Duration) :
    decodeDuration lib (.scalar (formatDuration d)) = some d := by
  rw [decodeDuration, parseDuration_formatDuration]
  rfl

theorem knownFields_marshal (c : Config) : knownFields configKeys (marshal c) = some (marshalEntries c) := by
  have hkeys : (marshalEntries c).map Prod.fst = configKeys ∨
      (marshalEntries c).map Prod.fst = configKeys.erase "device_name" := by
    rw [marshalEntries]
    split_ifs
    · exact .inl rfl
    · exact .inr rfl
  apply if_pos
  rcases hkeys with hkeys | hkeys
  · rw [hkeys]
    decide
  · rw [hkeys]
    decide

/-- The values of the keys that are written. -/
theorem lookup_marshalEntries (c : Config) :
    (marshalEntries c).lookup "server_url" = some (.scalar c.serverURL) ∧
      (marshalEntries c).lookup "device_id" = some (.scalar c.deviceID) ∧
      (marshalEntries c).lookup "token" = some (.scalar c.token) ∧
      (marshalEntries c).lookup "interval" = some (.scalar (formatDuration c.interval)) ∧
      (marshalEntries c).lookup "idle_threshold" = some (.scalar (formatDuration c.idleThreshold)) ∧
      (marshalEntries c).lookup "default_app" = some (.scalar c.defaultApp) ∧
      (marshalEntries c).lookup "default_description" = some (.scalar c.defaultDescription) ∧
      (marshalEntries c).lookup "locked_app" = some (.scalar c.lockedApp) ∧
      (marshalEntries c).lookup "locked_description" = some (.scalar c.lockedDescription) ∧
      (marshalEntries c).lookup "rules" = some (.sequence (c.rules.map ruleNode)) ∧
      (marshalEntries c).lookup "expose_title" = some (.sequence (c.exposeTitle.map .scalar)) := by
  rw [marshalEntries]
  split_ifs
  · exact ⟨rfl, rfl, rfl, rfl, rfl, rfl, rfl, rfl, rfl, rfl, rfl⟩
  · exact ⟨rfl, rfl, rfl, rfl, rfl, rfl, rfl, rfl, rfl, rfl, rfl⟩

/-- A name that is empty is not written, and an absent one is read as empty. -/
theorem field_deviceName (c : Config) :
    field decodeString "" (marshalEntries c) "device_name" = some c.deviceName := by
  rw [marshalEntries]
  split_ifs with hname
  · rfl
  · rw [not_not] at hname
    rw [hname]
    rfl

/-- What `Save` writes is decoded as it was. -/
theorem decodeConfig_marshal (c : Config) : decodeConfig lib (marshal c) = some c := by
  obtain ⟨hserver, hdevice, htoken, hinterval, hidle, happ, hdescription, hlocked, hlockedDescription, hrules,
    hexpose⟩ := lookup_marshalEntries c
  have hstring : ∀ v, decodeString (.scalar v) = some v := fun _ => rfl
  have hsome : ∀ {α β : Type} (a : α) (f : α → Option β), (some a >>= f) = f a := fun _ _ => rfl
  rw [decodeConfig, knownFields_marshal, hsome, field_of_lookup hserver (hstring _), hsome,
    field_of_lookup hdevice (hstring _), hsome, field_of_lookup htoken (hstring _), hsome,
    field_of_lookup hinterval (decodeDuration_formatDuration _), hsome, field_deviceName, hsome,
    field_of_lookup hidle (decodeDuration_formatDuration _), hsome, field_of_lookup happ (hstring _), hsome,
    field_of_lookup hdescription (hstring _), hsome, field_of_lookup hlocked (hstring _), hsome,
    field_of_lookup hlockedDescription (hstring _), hsome,
    field_of_lookup hrules (decodeSequence_map decodeRule_ruleNode _), hsome,
    field_of_lookup hexpose (decodeSequence_map hstring _), hsome]

end CyberstalkMe.Agent
