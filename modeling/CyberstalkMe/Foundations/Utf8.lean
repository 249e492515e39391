import Mathlib.Data.String.Basic
import Mathlib.Data.List.Basic
import Mathlib.Tactic.SplitIfs

/-! # The order of texts as bytes

UTF-8 keeps the order of code points, so comparing two texts by their bytes is
comparing them by their characters.
-/
namespace CyberstalkMe.Foundations

/-- The bytes of a text in UTF-8. -/
def utf8Bytes (s : String) : List UInt8 := s.toUTF8.data.toList

theorem utf8Bytes_eq (s : String) : utf8Bytes s = s.toList.flatMap String.utf8EncodeChar := by
  rw [utf8Bytes, String.toUTF8, ← String.utf8Encode_toList, List.utf8Encode]
  simp

theorem utf8Bytes_inj {s t : String} : utf8Bytes s = utf8Bytes t ↔ s = t := by
  rw [utf8Bytes, utf8Bytes, Array.toList_inj, ← ByteArray.ext_iff, String.toUTF8, String.toUTF8, String.toByteArray_inj]

/-- Four bytes hold the groups of six bits of a code point, the highest first. -/
theorem fourBytes_lt {m n : ℕ} (h : m < n) (hn : n < 1114112) :
    m / 262144 % 8 < n / 262144 % 8 ∨ m / 262144 % 8 = n / 262144 % 8 ∧
      (m / 4096 % 64 < n / 4096 % 64 ∨ m / 4096 % 64 = n / 4096 % 64 ∧
        (m / 64 % 64 < n / 64 % 64 ∨ m / 64 % 64 = n / 64 % 64 ∧ m % 64 < n % 64)) := by
  rcases Nat.lt_trichotomy (m / 262144) (n / 262144) with h3 | h3 | h3
  · left; omega
  · right; refine ⟨by omega, ?_⟩
    rcases Nat.lt_trichotomy (m / 4096) (n / 4096) with h2 | h2 | h2
    · left; omega
    · right; refine ⟨by omega, ?_⟩
      rcases Nat.lt_trichotomy (m / 64) (n / 64) with h1 | h1 | h1
      · left; omega
      · right; refine ⟨by omega, by omega⟩
      · omega
    · omega
  · omega

/-- A smaller character has smaller bytes, whatever comes behind. -/
theorem utf8EncodeChar_lt {c d : Char} (h : c < d) (x y : List UInt8) :
    String.utf8EncodeChar c ++ x < String.utf8EncodeChar d ++ y := by
  have hlt : c.val.toNat < d.val.toNat := h
  have hd : d.val.toNat < 1114112 := by
    rcases d.valid with h | h
    · exact h.trans (by decide)
    · exact h.2
  have hlead (m n : ℕ) (hm : m < 256) (hn : n < 256) : UInt8.ofNat m < UInt8.ofNat n ↔ m < n := by
    rw [UInt8.lt_iff_toNat_lt, UInt8.toNat_ofNat', UInt8.toNat_ofNat', Nat.mod_eq_of_lt hm, Nat.mod_eq_of_lt hn]
  have hsame (m n : ℕ) (hm : m < 256) (hn : n < 256) : UInt8.ofNat m = UInt8.ofNat n ↔ m = n := by
    rw [← UInt8.toNat_inj, UInt8.toNat_ofNat', UInt8.toNat_ofNat', Nat.mod_eq_of_lt hm, Nat.mod_eq_of_lt hn]
  unfold String.utf8EncodeChar
  dsimp only
  split_ifs <;> simp (disch := omega) only [List.cons_append, List.nil_append, List.cons_lt_cons_iff, hlead, hsame,
    Nat.add_lt_add_iff_right, Nat.add_right_cancel_iff]
  -- the last of the sixteen: both characters take four bytes
  on_goal 16 =>
    rcases fourBytes_lt hlt hd with h | ⟨h3, h | ⟨h2, h | ⟨h1, h⟩⟩⟩
    · exact .inl h
    · exact .inr ⟨h3, .inl h⟩
    · exact .inr ⟨h3, .inr ⟨h2, .inl h⟩⟩
    · exact .inr ⟨h3, .inr ⟨h2, .inr ⟨h1, .inl h⟩⟩⟩
  all_goals omega

theorem flatMap_utf8EncodeChar_lt {s t : List Char} (h : s < t) :
    s.flatMap String.utf8EncodeChar < t.flatMap String.utf8EncodeChar := by
  induction s generalizing t with
  | nil =>
    cases t with
    | nil => exact absurd h (List.lt_irrefl [])
    | cons d t =>
      have hne : String.utf8EncodeChar d ≠ [] := by
        unfold String.utf8EncodeChar
        dsimp only
        split_ifs <;> simp
      rw [List.flatMap_nil, List.flatMap_cons]
      cases hd : String.utf8EncodeChar d with
      | nil => exact absurd hd hne
      | cons b bs => exact List.nil_lt_cons _ _
  | cons c s ih =>
    cases t with
    | nil => exact absurd h (List.not_lt_nil _)
    | cons d t =>
      rw [List.flatMap_cons, List.flatMap_cons]
      rcases List.cons_lt_cons_iff.mp h with hlt | ⟨rfl, hrest⟩
      · exact utf8EncodeChar_lt hlt _ _
      · exact (List.append_left_lt (ih hrest))

theorem utf8Bytes_lt_iff {s t : String} : utf8Bytes s < utf8Bytes t ↔ s < t := by
  rw [utf8Bytes_eq, utf8Bytes_eq, String.lt_iff_toList_lt]
  constructor
  · intro h
    rcases lt_trichotomy s.toList t.toList with hlt | heq | hgt
    · exact hlt
    · rw [heq] at h
      exact absurd h (List.lt_irrefl _)
    · exact absurd (flatMap_utf8EncodeChar_lt hgt) (List.lt_asymm h)
  · exact flatMap_utf8EncodeChar_lt

end CyberstalkMe.Foundations
