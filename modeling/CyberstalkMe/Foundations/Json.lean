import Mathlib.Data.List.Basic
import Mathlib.Data.Option.Basic

/-! # JSON values

A JSON value over a type of numbers, and reading typed values off it. A property
that is absent is `none`.
-/
namespace CyberstalkMe.Foundations

inductive Json (ν : Type) where
  | null
  | bool (b : Bool)
  | number (n : ν)
  | string (s : String)
  | array (elems : List (Json ν))
  | object (members : List (String × Json ν))

namespace Json

variable {ν μ α β : Type}

/-- The value of a member. The last one counts when a name is repeated. -/
def member (name : String) : List (String × Json ν) → Option (Json ν)
  | [] => none
  | (key, value) :: rest => (member name rest).or (if key = name then some value else none)

/-- The property of an object. -/
def field (name : String) : Option (Json ν) → Option (Json ν)
  | some (.object members) => member name members
  | _ => none

mutual

def mapNumber (f : ν → μ) : Json ν → Json μ
  | .null => .null
  | .bool b => .bool b
  | .number n => .number (f n)
  | .string s => .string s
  | .array elems => .array (mapElems f elems)
  | .object members => .object (mapMembers f members)

def mapElems (f : ν → μ) : List (Json ν) → List (Json μ)
  | [] => []
  | value :: rest => mapNumber f value :: mapElems f rest

def mapMembers (f : ν → μ) : List (String × Json ν) → List (String × Json μ)
  | [] => []
  | (key, value) :: rest => (key, mapNumber f value) :: mapMembers f rest

end

@[simp] theorem mapElems_eq_map (f : ν → μ) (elems : List (Json ν)) :
    mapElems f elems = elems.map (mapNumber f) := by
  induction elems with
  | nil => rfl
  | cons value rest ih => rw [mapElems, ih, List.map_cons]

@[simp] theorem member_mapMembers (f : ν → μ) (name : String) (members : List (String × Json ν)) :
    member name (mapMembers f members) = (member name members).map (mapNumber f) := by
  induction members with
  | nil => rfl
  | cons m rest ih =>
    obtain ⟨key, value⟩ := m
    by_cases h : key = name <;> cases hm : member name rest <;> simp [mapMembers, member, ih, h, hm]

/-! ### Reading typed values -/

def readBool : Option (Json ν) → Option Bool
  | some (.bool b) => some b
  | _ => none

def readNumber : Option (Json ν) → Option ν
  | some (.number n) => some n
  | _ => none

def readString : Option (Json ν) → Option String
  | some (.string s) => some s
  | _ => none

def readArray (read : Option (Json ν) → Option α) : Option (Json ν) → Option (List α)
  | some (.array elems) => elems.mapM fun value => read (some value)
  | _ => none

/-- `null`, or a value that can be read. -/
def readNullable (read : Option (Json ν) → Option α) : Option (Json ν) → Option (Option α)
  | some .null => some none
  | value => (read value).map some

/-- An absent property, or one that can be read. -/
def readOptional (read : Option (Json ν) → Option α) : Option (Json ν) → Option (Option α)
  | none => some none
  | value => (read value).map some

def readObject (read : Option (Json ν) → Option α) : Option (Json ν) → Option α
  | some (.object members) => read (some (.object members))
  | _ => none

theorem isSome_mapM (read : α → Option β) (l : List α) :
    (l.mapM read).isSome = l.all fun a => (read a).isSome := by
  induction l with
  | nil => rfl
  | cons a l ih =>
    rw [List.mapM_cons, List.all_cons, ← ih]
    cases read a <;> cases l.mapM read <;> rfl

theorem isSome_seq (f : Option (α → β)) (x : Option α) : (f <*> x).isSome = (f.isSome && x.isSome) := by
  cases f <;> cases x <;> rfl

@[simp] theorem seq_none (f : Option (α → β)) : f <*> none = none := by cases f <;> rfl

@[simp] theorem none_seq (x : Option α) : (none : Option (α → β)) <*> x = none := rfl

theorem mapM_some (view : α → β) (l : List α) : (l.mapM fun a => some (view a)) = some (l.map view) := by
  induction l with
  | nil => rfl
  | cons a l ih => simp [List.mapM_cons, ih]

/-- What every element can be mapped to, all of them can. -/
theorem exists_mapM {read : α → Option β} {next : β → Option μ} {P : μ → Prop} {l : List α} {bs : List β}
    (hl : l.mapM read = some bs) (h : ∀ a b, read a = some b → ∃ c, next b = some c ∧ P c) :
    ∃ cs, bs.mapM next = some cs ∧ ∀ c ∈ cs, P c := by
  induction l generalizing bs with
  | nil =>
    cases hl
    exact ⟨[], rfl, List.forall_mem_nil _⟩
  | cons a l ih =>
    rw [List.mapM_cons] at hl
    obtain ⟨b, hb, hl⟩ := Option.bind_eq_some_iff.mp hl
    obtain ⟨rest, hrest, hl⟩ := Option.bind_eq_some_iff.mp hl
    cases hl
    obtain ⟨c, hc, hP⟩ := h a b hb
    obtain ⟨cs, hcs, hall⟩ := ih hrest
    refine ⟨c :: cs, ?_, List.forall_mem_cons.mpr ⟨hP, hall⟩⟩
    simp [List.mapM_cons, hc, hcs]

/-! ### Values that may be missing -/

/-- `null`, or an encoded value. -/
def ofOption (encode : α → Json ν) : Option α → Json ν
  | none => .null
  | some a => encode a

def ofList (encode : α → Json ν) (l : List α) : Json ν := .array (l.map encode)

theorem readNullable_ofOption {f : ν → μ} {encode : α → Json ν} {read : Option (Json μ) → Option β}
    {view : α → β} (hnull : read (some .null) = none)
    (hread : ∀ a, read (some (mapNumber f (encode a))) = some (view a)) (x : Option α) :
    readNullable read (some (mapNumber f (ofOption encode x))) = some (x.map view) := by
  cases x with
  | none => rfl
  | some a =>
    have h := hread a
    rw [ofOption]
    cases hvalue : mapNumber f (encode a) with
    | null =>
      rw [hvalue, hnull] at h
      cases h
    | _ =>
      rw [hvalue] at h
      rw [readNullable, h]
      · rfl
      · rintro ⟨⟩

theorem readArray_ofList {f : ν → μ} {encode : α → Json ν} {read : Option (Json μ) → Option β}
    {view : α → Option β} (hread : ∀ a, read (some (mapNumber f (encode a))) = view a) (l : List α) :
    readArray read (some (mapNumber f (ofList encode l))) = l.mapM view := by
  rw [ofList, mapNumber, mapElems_eq_map, List.map_map, readArray, List.mapM_map]
  congr 1
  funext a
  exact hread a

end Json

end CyberstalkMe.Foundations
