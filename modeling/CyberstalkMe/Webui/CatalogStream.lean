import CyberstalkMe.Setup.Catalog
import CyberstalkMe.Foundations.Frames

/-! # The catalog stream

`handleCatalog` writes a frame for every snapshot that has changed, and `streamCatalog` reads the frames
off the chunks in which they arrive.
-/
namespace CyberstalkMe.Webui

open Foundations Setup

/-- `encoding/json` for snapshots and `JSON.parse`. The encoder fails on a time of another year than RFC 3339
has. -/
structure SnapshotJSON (Value : Type) where
  encode : CatalogSnapshot → Option (List Char)
  parse : List Char → Option Value
  value : CatalogSnapshot → Value

/-- What the two are documented to do. -/
structure SnapshotJSON.Lawful {Value : Type} (json : SnapshotJSON Value) : Prop where
  one_line : ∀ snap line, json.encode snap = some line → '\n' ∉ line
  parse_encode : ∀ snap line, json.encode snap = some line → json.parse line = some (json.value snap)
  parse_empty : json.parse [] = none

variable {Value : Type} (json : SnapshotJSON Value)

/-! ### What the agent writes -/

def dataField : List Char := "data: ".toList

/-- Write one frame. The stream ends when the encoder fails. -/
def send (snap : CatalogSnapshot) : List Char × Bool :=
  match json.encode snap with
  | none => (dataField, false)
  | some line => (dataField ++ (line ++ ['\n']) ++ ['\n'], true)

/-- The ticks, with the snapshot taken at each. One without a new observation is left out. -/
def tickLoop (seen : ℕ) : List CatalogSnapshot → List Char
  | [] => []
  | snap :: ticks =>
    if snap.observations = seen then tickLoop seen ticks
    else match send json snap with
      | (text, false) => text
      | (text, true) => text ++ tickLoop snap.observations ticks

/-- The body of the response up to some tick. -/
def handleCatalog (first : CatalogSnapshot) (ticks : List CatalogSnapshot) : List Char :=
  match send json first with
  | (text, false) => text
  | (text, true) => text ++ tickLoop json first.observations ticks

/-! ### What the page reads -/

/-- The state of `streamCatalog`: what it has not used yet, and the calls of `onSnapshot` so far. -/
structure StreamCatalog (Value : Type) where
  buffer : List Char
  calls : List Value

def StreamCatalog.start : StreamCatalog Value := ⟨[], []⟩

def callOf (frame : List Char) : Option Value :=
  let payload := if dataField.isPrefixOf frame then frame.drop dataField.length else []
  if payload ≠ [] then json.parse payload else none

/-- The inner loop: every blank line in the buffer ends a frame. -/
def takeFrames (s : StreamCatalog Value) : StreamCatalog Value :=
  match h : cutFrame '\n' s.buffer with
  | none => s
  | some (frame, rest) =>
    have : rest.length < s.buffer.length := by
      rw [length_of_cutFrame h]
      omega
    takeFrames ⟨rest, s.calls ++ (callOf json frame).toList⟩
termination_by s.buffer.length

/-- One `reader.read`, decoded. -/
def readChunk (s : StreamCatalog Value) (chunk : List Char) : StreamCatalog Value :=
  takeFrames json { s with buffer := s.buffer ++ chunk }

def streamCatalog (chunks : List (List Char)) : StreamCatalog Value := chunks.foldl (readChunk json) .start

/-! ### The page's loop drains the buffer -/

theorem takeFrames_eq (s : StreamCatalog Value) :
    takeFrames json s =
      ⟨(drain '\n' s.buffer).2, s.calls ++ (drain '\n' s.buffer).1.filterMap (callOf json)⟩ := by
  induction hlen : s.buffer.length using Nat.strong_induction_on generalizing s with
  | _ n ih =>
    rw [takeFrames]
    split
    · rename_i hcut
      rw [drain_of_none hcut, List.filterMap_nil, List.append_nil]
    · rename_i frame rest hcut
      have hlt := length_of_cutFrame hcut
      rw [ih rest.length (by omega) _ rfl, drain_of_some hcut]
      cases hcall : callOf json frame <;> simp [hcall]

/-- The chunks make no difference: what arrived is drained as a whole. -/
theorem streamCatalog_eq (chunks : List (List Char)) :
    streamCatalog json chunks =
      ⟨(drain '\n' chunks.flatten).2, (drain '\n' chunks.flatten).1.filterMap (callOf json)⟩ := by
  induction chunks using List.reverseRecOn with
  | nil =>
    have hnone : drain '\n' [] = ([], []) := drain_of_none rfl
    rw [List.flatten_nil, hnone]
    rfl
  | append_singleton chunks chunk ih =>
    rw [streamCatalog, List.foldl_append, ← streamCatalog, ih, List.foldl_cons, List.foldl_nil, readChunk,
      takeFrames_eq, List.flatten_concat, drain_append '\n' chunks.flatten chunk, List.filterMap_append]

/-! ### The frames of the snapshots -/

def sentTicks (seen : ℕ) : List CatalogSnapshot → List CatalogSnapshot
  | [] => []
  | snap :: ticks =>
    if snap.observations = seen then sentTicks seen ticks
    else if (json.encode snap).isSome then snap :: sentTicks snap.observations ticks else []

/-- The snapshots that the agent writes in full. -/
def sent (first : CatalogSnapshot) (ticks : List CatalogSnapshot) : List CatalogSnapshot :=
  if (json.encode first).isSome then first :: sentTicks json first.observations ticks else []

def frameOf (snap : CatalogSnapshot) : List Char := dataField ++ (json.encode snap).getD []

/-- The text of complete frames. -/
def written (snaps : List CatalogSnapshot) : List Char := framed '\n' (snaps.map (frameOf json))

theorem written_cons {snap : CatalogSnapshot} {line : List Char} (h : json.encode snap = some line)
    (snaps : List CatalogSnapshot) :
    written json (snap :: snaps) = dataField ++ (line ++ ['\n']) ++ ['\n'] ++ written json snaps := by
  simp [written, framed, frameOf, h]

theorem tickLoop_eq (seen : ℕ) (ticks : List CatalogSnapshot) :
    ∃ tail, '\n' ∉ tail ∧ tickLoop json seen ticks = written json (sentTicks json seen ticks) ++ tail := by
  induction ticks generalizing seen with
  | nil => exact ⟨[], List.not_mem_nil, rfl⟩
  | cons snap ticks ih =>
    rw [tickLoop, sentTicks]
    split_ifs with hseen hsome
    · exact ih seen
    · obtain ⟨line, hline⟩ := Option.isSome_iff_exists.mp hsome
      obtain ⟨tail, htail, hrest⟩ := ih snap.observations
      refine ⟨tail, htail, ?_⟩
      rw [written_cons json hline, send, hline, List.append_assoc, ← hrest]
    · rw [Option.not_isSome_iff_eq_none] at hsome
      exact ⟨dataField, by decide, by rw [send, hsome]; rfl⟩

/-- The response is the frames of some snapshots, and what a failing encoder leaves of another. -/
theorem handleCatalog_eq (first : CatalogSnapshot) (ticks : List CatalogSnapshot) :
    ∃ tail, '\n' ∉ tail ∧ handleCatalog json first ticks = written json (sent json first ticks) ++ tail := by
  rw [handleCatalog, sent]
  split_ifs with hsome
  · obtain ⟨line, hline⟩ := Option.isSome_iff_exists.mp hsome
    obtain ⟨tail, htail, hrest⟩ := tickLoop_eq json first.observations ticks
    refine ⟨tail, htail, ?_⟩
    rw [written_cons json hline, send, hline, List.append_assoc, ← hrest]
  · rw [Option.not_isSome_iff_eq_none] at hsome
    exact ⟨dataField, by decide, by rw [send, hsome]; rfl⟩

theorem isSome_of_mem_sentTicks {seen : ℕ} {ticks : List CatalogSnapshot} {snap : CatalogSnapshot}
    (h : snap ∈ sentTicks json seen ticks) : (json.encode snap).isSome := by
  induction ticks generalizing seen with
  | nil => cases h
  | cons s ticks ih =>
    rw [sentTicks] at h
    split_ifs at h with hseen hsome
    · exact ih h
    · rcases List.mem_cons.mp h with rfl | h
      · exact hsome
      · exact ih h
    · cases h

theorem isSome_of_mem_sent {first : CatalogSnapshot} {ticks : List CatalogSnapshot} {snap : CatalogSnapshot}
    (h : snap ∈ sent json first ticks) : (json.encode snap).isSome := by
  rw [sent] at h
  split_ifs at h with hsome
  · rcases List.mem_cons.mp h with rfl | h
    · exact hsome
    · exact isSome_of_mem_sentTicks json h
  · cases h

section Lawful
variable {json} (hjson : json.Lawful) {snap : CatalogSnapshot} (h : (json.encode snap).isSome)
include hjson h

theorem newline_not_mem_frameOf : '\n' ∉ frameOf json snap := by
  obtain ⟨line, hline⟩ := Option.isSome_iff_exists.mp h
  have hdata : '\n' ∉ dataField := by decide
  rw [frameOf, hline, Option.getD_some, List.mem_append, not_or]
  exact ⟨hdata, hjson.one_line snap line hline⟩

theorem callOf_frameOf : callOf json (frameOf json snap) = some (json.value snap) := by
  obtain ⟨line, hline⟩ := Option.isSome_iff_exists.mp h
  have hparse := hjson.parse_encode snap line hline
  have hne : line ≠ [] := by
    rintro rfl
    rw [hjson.parse_empty] at hparse
    cases hparse
  have hdata : dataField.isPrefixOf (frameOf json snap) := List.isPrefixOf_iff_prefix.mpr (List.prefix_append _ _)
  have hpayload : (frameOf json snap).drop dataField.length = line := by
    rw [frameOf, hline, Option.getD_some, List.drop_left]
  rw [callOf]
  simp only [hdata, if_true, hpayload]
  rw [if_pos hne, hparse]

end Lawful

theorem filterMap_callOf {json : SnapshotJSON Value} (hjson : json.Lawful) {snaps : List CatalogSnapshot}
    (h : ∀ snap ∈ snaps, (json.encode snap).isSome) :
    (snaps.map (frameOf json)).filterMap (callOf json) = snaps.map json.value := by
  induction snaps with
  | nil => rfl
  | cons snap snaps ih =>
    have hcall := callOf_frameOf hjson (h snap List.mem_cons_self)
    rw [List.map_cons, List.filterMap_cons_some hcall, List.map_cons, ih fun s hs => h s (List.mem_cons_of_mem _ hs)]

/-- Of encoded snapshots, `onSnapshot` is called with those whose frames have arrived to the final newline. -/
theorem streamCatalog_calls {json : SnapshotJSON Value} (hjson : json.Lawful) {snaps : List CatalogSnapshot}
    (hsome : ∀ snap ∈ snaps, (json.encode snap).isSome) {tail : List Char} (htail : '\n' ∉ tail)
    {chunks : List (List Char)} (hchunks : chunks.flatten <+: written json snaps ++ tail) :
    ∃ n ≤ snaps.length, (streamCatalog json chunks).calls = (snaps.take n).map json.value ∧
      ∀ k ≤ snaps.length, k ≤ n ↔ (written json (snaps.take k)).length ≤ chunks.flatten.length := by
  have hlines : ∀ frame ∈ snaps.map (frameOf json), '\n' ∉ frame := by
    intro frame hframe
    obtain ⟨snap, hsnap, rfl⟩ := List.mem_map.mp hframe
    exact newline_not_mem_frameOf hjson (hsome snap hsnap)
  obtain ⟨n, hn, hdrain, hcomplete⟩ := framed_arrived hlines htail hchunks
  rw [List.length_map] at hn hcomplete
  refine ⟨n, hn, ?_, fun k hk => ?_⟩
  · have hframes : (drain '\n' chunks.flatten).1 = (snaps.take n).map (frameOf json) := by
      rw [hdrain, List.map_take]
    rw [streamCatalog_eq]
    dsimp only
    rw [hframes, filterMap_callOf hjson fun snap hsnap => hsome snap (List.mem_of_mem_take hsnap)]
  · rw [hcomplete k hk, written, List.map_take]

/-- However the stream is cut into chunks, `onSnapshot` has been called with the snapshots whose frames have
arrived to their final newline, in order and once each. -/
theorem catalog_stream_decodes (hjson : json.Lawful) (first : CatalogSnapshot) (ticks : List CatalogSnapshot)
    (chunks : List (List Char)) (hchunks : chunks.flatten <+: handleCatalog json first ticks) :
    ∃ n ≤ (sent json first ticks).length,
      (streamCatalog json chunks).calls = ((sent json first ticks).take n).map json.value ∧
        ∀ k ≤ (sent json first ticks).length, k ≤ n ↔
          (written json ((sent json first ticks).take k)).length ≤ chunks.flatten.length := by
  obtain ⟨tail, htail, hbody⟩ := handleCatalog_eq json first ticks
  rw [hbody] at hchunks
  exact streamCatalog_calls hjson (fun _ => isSome_of_mem_sent json) htail hchunks

/-! ### Two snapshots in three chunks -/

namespace CatalogSample

def empty : CatalogSnapshot := ⟨[], false, 0, 0⟩

def locked : CatalogSnapshot := ⟨[], true, 1, 1⟩

def emptyLine : List Char := "\x7b\"apps\":[],\"locked\":false,\"locked_seen\":0,\"observations\":0\x7d".toList

def lockedLine : List Char := "\x7b\"apps\":[],\"locked\":true,\"locked_seen\":1,\"observations\":1\x7d".toList

/-- The two texts that come up here; other snapshots are not encoded. -/
def codec : SnapshotJSON CatalogSnapshot where
  encode snap := if snap = empty then some emptyLine else if snap = locked then some lockedLine else none
  parse line := if line = emptyLine then some empty else if line = lockedLine then some locked else none
  value := id

theorem lawful : codec.Lawful where
  one_line snap line h := by
    simp only [codec] at h
    split_ifs at h <;> (cases h; decide +kernel)
  parse_encode snap line h := by
    have hne : lockedLine ≠ emptyLine := by decide +kernel
    simp only [codec] at h
    split_ifs at h with hempty hlocked
    · cases h
      rw [hempty]
      simp [codec]
    · cases h
      rw [hlocked]
      simp [codec, hne]
  parse_empty := by decide +kernel

/-- The first cut is inside a field name, the second one between the two newlines. -/
def chunks : List (List Char) :=
  ["da".toList, "ta: ".toList ++ emptyLine ++ "\n".toList, "\n".toList ++ "data: ".toList ++ lockedLine]

theorem catalog_stream_decodes_chunks : ∃ n ≤ (sent codec empty [locked]).length,
    (streamCatalog codec chunks).calls = ((sent codec empty [locked]).take n).map codec.value ∧
      ∀ k ≤ (sent codec empty [locked]).length, k ≤ n ↔
        (written codec ((sent codec empty [locked]).take k)).length ≤ chunks.flatten.length :=
  catalog_stream_decodes codec lawful empty [locked] chunks ⟨"\n\n".toList, by decide +kernel⟩

end CatalogSample

end CyberstalkMe.Webui
