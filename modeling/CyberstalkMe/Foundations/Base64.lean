import Mathlib.Data.List.Basic
import Mathlib.Logic.Function.Basic

/-! # Base64

The unpadded encoding with the alphabet for URLs. Three bytes are four characters of six bits each.
-/
namespace CyberstalkMe.Foundations.Base64

def alphabet : List Char := "ABCDEFGHIJKLMNOPQRSTUVWXYZabcdefghijklmnopqrstuvwxyz0123456789-_".toList

def sextet (n : ℕ) : Char := (alphabet[n]?).getD '='

def encode : List UInt8 → List Char
  | a :: b :: c :: rest =>
    sextet (a.toNat / 4) :: sextet (a.toNat % 4 * 16 + b.toNat / 16) ::
      sextet (b.toNat % 16 * 4 + c.toNat / 64) :: sextet (c.toNat % 64) :: encode rest
  | [a, b] => [sextet (a.toNat / 4), sextet (a.toNat % 4 * 16 + b.toNat / 16), sextet (b.toNat % 16 * 4)]
  | [a] => [sextet (a.toNat / 4), sextet (a.toNat % 4 * 16)]
  | [] => []

def value (c : Char) : ℕ := alphabet.idxOf c

def decode : List Char → List UInt8
  | w :: x :: y :: z :: rest =>
    .ofNat (value w * 4 + value x / 16) :: .ofNat (value x % 16 * 16 + value y / 4) ::
      .ofNat (value y % 4 * 64 + value z) :: decode rest
  | [w, x, y] => [.ofNat (value w * 4 + value x / 16), .ofNat (value x % 16 * 16 + value y / 4)]
  | [w, x] => [.ofNat (value w * 4 + value x / 16)]
  | _ => []

theorem value_sextet : ∀ n < 64, value (sextet n) = n := by decide

theorem sextet_mem : ∀ n < 64, sextet n ∈ alphabet := by decide

theorem ofNat_of_eq {a : UInt8} {n : ℕ} (h : n = a.toNat) : UInt8.ofNat n = a := by
  rw [h, UInt8.ofNat_toNat]

/-- The bytes are read back. -/
theorem decode_encode (bytes : List UInt8) : decode (encode bytes) = bytes := by
  fun_induction encode bytes with
  | case1 a b c rest ih =>
    have ha := a.toNat_lt
    have hb := b.toNat_lt
    have hc := c.toNat_lt
    rw [decode, value_sextet _ (by omega), value_sextet _ (by omega), value_sextet _ (by omega),
      value_sextet _ (by omega), ih, ofNat_of_eq (a := a) (by omega), ofNat_of_eq (a := b) (by omega),
      ofNat_of_eq (a := c) (by omega)]
  | case2 a b =>
    have ha := a.toNat_lt
    have hb := b.toNat_lt
    rw [decode, value_sextet _ (by omega), value_sextet _ (by omega), value_sextet _ (by omega),
      ofNat_of_eq (a := a) (by omega), ofNat_of_eq (a := b) (by omega)]
  | case3 a =>
    have ha := a.toNat_lt
    rw [decode, value_sextet _ (by omega), value_sextet _ (by omega), ofNat_of_eq (a := a) (by omega)]
  | case4 => rfl

theorem encode_injective : Function.Injective encode := Function.LeftInverse.injective decode_encode

theorem length_encode (bytes : List UInt8) : (encode bytes).length = (bytes.length * 4 + 2) / 3 := by
  fun_induction encode bytes with
  | case1 a b c rest ih =>
    simp only [List.length_cons, ih]
    omega
  | case2 a b => simp
  | case3 a => simp
  | case4 => rfl

theorem mem_alphabet_of_mem_encode {bytes : List UInt8} {c : Char} (h : c ∈ encode bytes) : c ∈ alphabet := by
  fun_induction encode bytes with
  | case1 a b d rest ih =>
    have ha := a.toNat_lt
    have hb := b.toNat_lt
    have hd := d.toNat_lt
    simp only [List.mem_cons] at h
    rcases h with rfl | rfl | rfl | rfl | h
    · exact sextet_mem _ (by omega)
    · exact sextet_mem _ (by omega)
    · exact sextet_mem _ (by omega)
    · exact sextet_mem _ (by omega)
    · exact ih h
  | case2 a b =>
    have ha := a.toNat_lt
    have hb := b.toNat_lt
    simp only [List.mem_cons, List.not_mem_nil, or_false] at h
    rcases h with rfl | rfl | rfl
    · exact sextet_mem _ (by omega)
    · exact sextet_mem _ (by omega)
    · exact sextet_mem _ (by omega)
  | case3 a =>
    have ha := a.toNat_lt
    simp only [List.mem_cons, List.not_mem_nil, or_false] at h
    rcases h with rfl | rfl
    · exact sextet_mem _ (by omega)
    · exact sextet_mem _ (by omega)
  | case4 => cases h

end CyberstalkMe.Foundations.Base64
