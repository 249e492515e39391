import CyberstalkMe.Foundations.Trim
import Mathlib.Data.List.Basic

/-! # Lower case in full

The full lower case of a text differs from the lower case of its characters one by one in two
places: a capital I with a dot becomes two characters, and a sigma that ends a word has a form of
its own.
-/
namespace CyberstalkMe.Foundations

/-- The case tables: the lower case of a single character, and the two classes that decide whether a
sigma ends a word. -/
structure Casing where
  lower : Char → Char
  cased : Char → Bool
  caseIgnorable : Char → Bool

namespace Casing
variable (u : Casing)

def startsCased : List Char → Bool
  | [] => false
  | c :: cs => u.cased c || (u.caseIgnorable c && startsCased cs)

/-- The context of a sigma that ends a word. What comes before is read backwards. -/
def finalSigma (before after : List Char) : Bool := u.startsCased before && !u.startsCased after

/-- The lower case of a character between `before` and `after`. -/
def lowerIn (before : List Char) (c : Char) (after : List Char) : List Char :=
  if c = 'İ' then ['i', '\u0307']
  else if c = 'Σ' then (if u.finalSigma before after then ['ς'] else ['σ'])
  else [u.lower c]

def lowerFrom (before : List Char) : List Char → List Char
  | [] => []
  | c :: cs => u.lowerIn before c cs ++ lowerFrom (c :: before) cs

def toLowerCase (s : String) : String := String.ofList (u.lowerFrom [] s.toList)

/-- What the tables of Unicode have in common. -/
structure Lawful : Prop where
  lower_lower : ∀ c, u.lower (u.lower c) = u.lower c
  dottedCapital : u.lower 'İ' = 'i'
  dot : u.lower '\u0307' = '\u0307'
  sigma : u.lower 'Σ' = 'σ'
  finalSigma : u.lower 'ς' = 'ς'

/-- A class of characters that no case mapping enters or leaves. -/
structure Caseless (p : Char → Bool) : Prop where
  lower : ∀ c, p (u.lower c) = p c
  dottedCapital : p 'İ' = false
  dot : p '\u0307' = false
  sigma : p 'Σ' = false
  finalSigma : p 'ς' = false

variable {u} {before t : List Char} {p : Char → Bool}

theorem toList_toLowerCase (s : String) : (u.toLowerCase s).toList = u.lowerFrom [] s.toList := by
  rw [toLowerCase, String.toList_ofList]

theorem lowerIn_ne_nil (c : Char) (after : List Char) : u.lowerIn before c after ≠ [] := by
  rw [lowerIn]
  split_ifs <;> simp

theorem length_le_length_lowerFrom : t.length ≤ (u.lowerFrom before t).length := by
  induction t generalizing before with
  | nil => simp
  | cons c cs ih =>
    have hpos : 0 < (u.lowerIn before c cs).length := List.length_pos_iff.mpr (lowerIn_ne_nil c cs)
    have hrest : cs.length ≤ (u.lowerFrom (c :: before) cs).length := ih
    rw [lowerFrom, List.length_append, List.length_cons]
    omega

section Laws
variable (h : u.Lawful)
include h

theorem Lawful.lower_i : u.lower 'i' = 'i' := by
  rw [← h.dottedCapital, h.lower_lower]

theorem Lawful.lower_sigma : u.lower 'σ' = 'σ' := by
  rw [← h.sigma, h.lower_lower]

/-- A character that is its own lower case is neither of the two that full lower case treats apart. -/
theorem Lawful.plain_of_fixed {c : Char} (hc : u.lower c = c) : c ≠ 'İ' ∧ c ≠ 'Σ' := by
  constructor
  · rintro rfl
    rw [h.dottedCapital] at hc
    exact absurd hc (by decide)
  · rintro rfl
    rw [h.sigma] at hc
    exact absurd hc (by decide)

theorem Lawful.fixed_of_mem_lowerIn {c d : Char} {after : List Char} (hd : d ∈ u.lowerIn before c after) :
    u.lower d = d := by
  rw [lowerIn] at hd
  split_ifs at hd <;> simp only [List.mem_cons, List.not_mem_nil, or_false] at hd
  · rcases hd with rfl | rfl
    · exact h.lower_i
    · exact h.dot
  · rw [hd, h.finalSigma]
  · rw [hd, h.lower_sigma]
  · rw [hd, h.lower_lower]

/-- Full lower case leaves nothing to do for either mapping. -/
theorem Lawful.fixed_of_mem_lowerFrom {d : Char} (hd : d ∈ u.lowerFrom before t) : u.lower d = d := by
  induction t generalizing before with
  | nil => cases hd
  | cons c cs ih =>
    rw [lowerFrom, List.mem_append] at hd
    rcases hd with hd | hd
    · exact h.fixed_of_mem_lowerIn hd
    · exact ih hd

theorem Lawful.fixed_of_mem_map {d : Char} (hd : d ∈ t.map u.lower) : u.lower d = d := by
  simp only [List.mem_map] at hd
  rcases hd with ⟨c, -, rfl⟩
  exact h.lower_lower c

/-- Both mappings do the same to a text exactly when it has no dotted capital I and no sigma that ends a
word. -/
theorem Lawful.lowerFrom_eq_map_iff : u.lowerFrom before t = t.map u.lower ↔
    'İ' ∉ t ∧ ∀ front back, t = front ++ 'Σ' :: back → ¬ u.finalSigma (front.reverse ++ before) back := by
  induction t generalizing before with
  | nil => simp [lowerFrom]
  | cons c cs ih =>
    have hsplit : (∀ front back, c :: cs = front ++ 'Σ' :: back → ¬ u.finalSigma (front.reverse ++ before) back) ↔
        (c = 'Σ' → ¬ u.finalSigma before cs) ∧
          ∀ front back, cs = front ++ 'Σ' :: back → ¬ u.finalSigma (front.reverse ++ (c :: before)) back := by
      constructor
      · intro hall
        constructor
        · rintro rfl
          exact hall [] cs rfl
        · rintro front back rfl
          simpa using hall (c :: front) back rfl
      · rintro ⟨hhead, htail⟩ front back heq
        cases front with
        | nil =>
          cases heq
          exact hhead rfl
        | cons d front =>
          cases heq
          simpa using htail front back rfl
    rw [hsplit, List.mem_cons, not_or, lowerFrom, List.map_cons, lowerIn]
    split_ifs with hdotted hsigma hfinal
    · have hlength : cs.length ≤ (u.lowerFrom (c :: before) cs).length := length_le_length_lowerFrom
      have hne : ['i', '\u0307'] ++ u.lowerFrom (c :: before) cs ≠ u.lower c :: cs.map u.lower := by
        intro heq
        have hsame := congrArg List.length heq
        simp only [List.length_append, List.length_cons, List.length_nil, List.length_map] at hsame
        omega
      exact iff_of_false hne fun hright => hright.1.1 hdotted.symm
    · have hne : 'ς' ≠ 'σ' := by decide
      simp [hsigma, hfinal, h.sigma, hne]
    · have hne : 'İ' ≠ 'Σ' := by decide
      simp [hsigma, hfinal, h.sigma, hne, ih]
    · simp [hsigma, Ne.symm hdotted, ih]

/-- On a text in lower case, full lower case is the identity. -/
theorem Lawful.lowerFrom_eq_self (ht : ∀ c ∈ t, u.lower c = c) : u.lowerFrom before t = t := by
  have hmap : u.lowerFrom before t = t.map u.lower := by
    rw [h.lowerFrom_eq_map_iff]
    constructor
    · intro hmem
      exact (h.plain_of_fixed (ht _ hmem)).1 rfl
    · rintro front back rfl
      exact absurd rfl (h.plain_of_fixed (ht 'Σ' (by simp))).2
  rw [hmap]
  exact (List.map_congr_left ht).trans (List.map_id' t)

end Laws

/-! ### Where a text begins and ends -/

section Ends
variable (h : u.Lawful) (hp : u.Caseless p)
include h hp

theorem Caseless.of_mem_lowerIn {c d : Char} {after : List Char} (hd : d ∈ u.lowerIn before c after) : p d = p c := by
  have hi : p 'i' = false := by rw [← h.dottedCapital, hp.lower, hp.dottedCapital]
  have hsigma : p 'σ' = false := by rw [← h.sigma, hp.lower, hp.sigma]
  rw [lowerIn] at hd
  split_ifs at hd with hdotted hcapital hfinal <;> simp only [List.mem_cons, List.not_mem_nil, or_false] at hd
  · rcases hd with rfl | rfl
    · rw [hdotted, hi, hp.dottedCapital]
    · rw [hdotted, hp.dot, hp.dottedCapital]
  · rw [hd, hcapital, hp.finalSigma, hp.sigma]
  · rw [hd, hcapital, hsigma, hp.sigma]
  · rw [hd, hp.lower]

theorem Caseless.head?_lowerFrom : (u.lowerFrom before t).head?.map p = t.head?.map p := by
  cases t with
  | nil => rfl
  | cons c cs =>
    cases hlower : u.lowerIn before c cs with
    | nil => exact absurd hlower (lowerIn_ne_nil c cs)
    | cons d ds =>
      have hd : d ∈ u.lowerIn before c cs := by simp [hlower]
      simp [lowerFrom, hlower, hp.of_mem_lowerIn h hd]

theorem Caseless.getLast?_lowerFrom : (u.lowerFrom before t).getLast?.map p = t.getLast?.map p := by
  induction t generalizing before with
  | nil => rfl
  | cons c cs ih =>
    rw [lowerFrom, List.getLast?_append, List.getLast?_cons]
    cases hrest : cs.getLast? with
    | none =>
      have hnil : cs = [] := List.getLast?_eq_none_iff.mp hrest
      subst hnil
      cases hlast : (u.lowerIn before c []).getLast? with
      | none => exact absurd (List.getLast?_eq_none_iff.mp hlast) (lowerIn_ne_nil c [])
      | some d => simp [lowerFrom, hp.of_mem_lowerIn h (List.mem_of_getLast? hlast)]
    | some d =>
      have hmap : (u.lowerFrom (c :: before) cs).getLast?.map p = cs.getLast?.map p := ih
      rw [hrest] at hmap
      cases hlast : (u.lowerFrom (c :: before) cs).getLast? with
      | none => simp [hlast] at hmap
      | some e => simpa [hlast] using hmap

theorem Caseless.trimmed_lowerFrom : Trimmed p (u.lowerFrom before t) ↔ Trimmed p t :=
  Trimmed.congr (hp.head?_lowerFrom h) (hp.getLast?_lowerFrom h)

end Ends

theorem Caseless.trimmed_map (hp : u.Caseless p) : Trimmed p (t.map u.lower) ↔ Trimmed p t := by
  apply Trimmed.congr
  · rw [List.head?_map, Option.map_map]
    exact congrArg (t.head?.map ·) (funext hp.lower)
  · rw [List.getLast?_map, Option.map_map]
    exact congrArg (t.getLast?.map ·) (funext hp.lower)

end Casing
end CyberstalkMe.Foundations
