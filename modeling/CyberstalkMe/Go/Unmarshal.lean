import CyberstalkMe.Foundations.JsonRoundTrip
import CyberstalkMe.Go.Strings
import CyberstalkMe.Go.Time

/-! # Decoding JSON

A text is decoded into a value that is there already: `null` leaves it alone unless it is a pointer, a
member that comes twice is decoded twice, and one without a field is skipped. Strings are kept as they are
written, because a timestamp is parsed from its text and not from what the text stands for.
-/
namespace CyberstalkMe.Foundations

namespace Json

mutual

/-- How deep arrays and objects are nested. -/
def depth {ν : Type} : Json ν → ℕ
  | .array elems => depthElems elems + 1
  | .object members => depthMembers members + 1
  | .null | .bool _ | .number _ | .string _ => 0

def depthElems {ν : Type} : List (Json ν) → ℕ
  | [] => 0
  | value :: rest => max (depth value) (depthElems rest)

def depthMembers {ν : Type} : List (String × Json ν) → ℕ
  | [] => 0
  | (_, value) :: rest => max (depth value) (depthMembers rest)

end

end Json

end CyberstalkMe.Foundations

namespace CyberstalkMe.Go

open Foundations Json JsonText

abbrev Decoder (α : Type) := Json Numeral → α → Option α

/-- Decode a part of a value. -/
def Decoder.into {α β : Type} (decode : Decoder β) (get : α → β) (set : α → β → α) : Decoder α := fun j a =>
  (decode j (get a)).map (set a)

def intoString : Decoder String
  | .null, s => some s
  | .string body, _ => unquote body.toList
  | _, _ => none

def intoBool : Decoder Bool
  | .null, b => some b
  | .bool b, _ => some b
  | _, _ => none

/-- The integers of 64 bits. -/
def isInt64 (n : ℤ) : Bool := -9223372036854775808 ≤ n && n < 9223372036854775808

def intoInt : Decoder ℤ
  | .null, n => some n
  | .number m, _ => m.int.filter isInt64
  | _, _ => none

def intoTime : Decoder Time
  | .null, t => some t
  | .string body, _ => Time.parse body
  | _, _ => none

/-- A pointer is allocated when it is nil. -/
def intoPointer {α : Type} (zero : α) (decode : Decoder α) : Decoder (Option α)
  | .null, _ => some none
  | j, a => (decode j (a.getD zero)).map some

section Struct
variable {α : Type}

def foldName (name : String) : List Char := name.toList.map foldRune

/-- The field with a name, or else the first whose name differs only in case. -/
def fieldOf (fields : List (String × Decoder α)) (name : String) : Option (Decoder α) :=
  match fields.find? (·.1 = name) with
  | some field => some field.2
  | none => (fields.find? fun field => foldName field.1 = foldName name).map Prod.snd

def intoMember (fields : List (String × Decoder α)) (a : α) (m : String × Json Numeral) : Option α :=
  (unquote m.1.toList).bind fun name =>
    match fieldOf fields name with
    | some decode => decode m.2 a
    | none => some a

def intoStruct (fields : List (String × Decoder α)) : Decoder α
  | .null, a => some a
  | .object members, a => members.foldlM (intoMember fields) a
  | _, _ => none

def maxNestingDepth : ℕ := 10000

/-- `json.NewDecoder(r).Decode` of the first value of a text. What follows it is not looked at. -/
def decodeFirst (decode : Decoder α) (zero : α) (text : List Char) : Option α :=
  (readFirst rawBody text).bind fun r => if r.1.depth ≤ maxNestingDepth then decode r.1 zero else none

/-- `json.Unmarshal` of a whole text. -/
def unmarshalText (decode : Decoder α) (zero : α) (text : List Char) : Option α :=
  (read rawBody text).bind fun j => if j.depth ≤ maxNestingDepth then decode j zero else none

end Struct

/-! ### What decoding preserves -/

theorem isInt64_of_intoInt (j : Json Numeral) (n n' : ℤ) (hn : isInt64 n) (h : intoInt j n = some n') : isInt64 n' := by
  cases j with
  | null =>
    cases h
    exact hn
  | number m => exact (Option.filter_eq_some_iff.mp h).2
  | bool b => cases h
  | string s => cases h
  | array elems => cases h
  | object members => cases h

section Preserve
variable {α β : Type} {P : α → Prop}

/-- A part that holds `Q` is decoded to one that holds `Q`, and nothing else changes. -/
theorem into_preserves {Q : β → Prop} {decode : Decoder β} {get : α → β} {set : α → β → α}
    (hdecode : ∀ j b b', Q b → decode j b = some b' → Q b') (hget : ∀ a, P a → Q (get a))
    (hset : ∀ a b, P a → Q b → P (set a b)) (j : Json Numeral) (a a' : α) (ha : P a)
    (h : decode.into get set j a = some a') : P a' := by
  obtain ⟨b, hb, rfl⟩ := Option.map_eq_some_iff.mp h
  exact hset a b ha (hdecode j (get a) b (hget a ha) hb)

/-- A part that does not matter. -/
theorem into_preserves_of_set {decode : Decoder β} {get : α → β} {set : α → β → α} (hset : ∀ a b, P a → P (set a b))
    (j : Json Numeral) (a a' : α) (ha : P a) (h : decode.into get set j a = some a') : P a' :=
  into_preserves (fun _ _ _ _ _ => trivial) (fun _ _ => trivial) (fun a b ha _ => hset a b ha) j a a' ha h

theorem intoPointer_preserves {zero : α} {decode : Decoder α} (hzero : P zero)
    (hdecode : ∀ j a a', P a → decode j a = some a' → P a') (j : Json Numeral) (a a' : Option α)
    (ha : ∀ x ∈ a, P x) (h : intoPointer zero decode j a = some a') : ∀ x ∈ a', P x := by
  have hstart : P (a.getD zero) := by
    cases a with
    | none => exact hzero
    | some x => exact ha x rfl
  have hsome (hj : (decode j (a.getD zero)).map some = some a') : ∀ x ∈ a', P x := by
    obtain ⟨x, hx, rfl⟩ := Option.map_eq_some_iff.mp hj
    rintro y ⟨⟩
    exact hdecode j _ x hstart hx
  cases j with
  | null =>
    cases h
    rintro x ⟨⟩
  | number m => exact hsome h
  | bool b => exact hsome h
  | string s => exact hsome h
  | array elems => exact hsome h
  | object members => exact hsome h

theorem intoStruct_preserves {fields : List (String × Decoder α)}
    (hfields : ∀ field ∈ fields, ∀ j a a', P a → field.2 j a = some a' → P a') (j : Json Numeral) (a a' : α) (ha : P a)
    (h : intoStruct fields j a = some a') : P a' := by
  have hmember : ∀ m a a', P a → intoMember fields a m = some a' → P a' := by
    intro m a a' ha h
    obtain ⟨name, -, h⟩ := Option.bind_eq_some_iff.mp h
    split at h
    · rename_i decode hfield
      rw [fieldOf] at hfield
      split at hfield
      · rename_i field hfind
        cases hfield
        exact hfields field (List.mem_of_find?_eq_some hfind) m.2 a a' ha h
      · obtain ⟨field, hfind, rfl⟩ := Option.map_eq_some_iff.mp hfield
        exact hfields field (List.mem_of_find?_eq_some hfind) m.2 a a' ha h
    · cases h
      exact ha
  cases j with
  | null =>
    cases h
    exact ha
  | object members =>
    rw [intoStruct] at h
    induction members generalizing a with
    | nil =>
      cases h
      exact ha
    | cons m members ih =>
      rw [List.foldlM_cons] at h
      obtain ⟨b, hb, h⟩ := Option.bind_eq_some_iff.mp h
      exact ih b (hmember m a b ha hb) h
  | number m => cases h
  | bool b => cases h
  | string s => cases h
  | array elems => cases h

end Preserve

end CyberstalkMe.Go
