import CyberstalkMe.Foundations.JsonText
import Mathlib.Data.List.TakeWhile

/-! # Reading back what was written

A written value is read back, whatever the writer escaped, and its text is one line. The fuel of the
reader does not matter.
-/
namespace CyberstalkMe.Foundations.JsonText

open Json

/-! ### Values are read back -/

theorem skipSpace_cons {c : Char} (h : isSpace c = false) (cs : List Char) : skipSpace (c :: cs) = c :: cs := by
  simp [skipSpace, h]

theorem ends_cons {c : Char} (h : c.isDigit = false) (hc : c ∉ ['.', 'e', 'E']) (cs : List Char) : Ends (c :: cs) := by
  intro d hd
  cases hd
  exact ⟨by simp [h], hc⟩

theorem ends_writeElems (also : Char → Bool) (elems : List (Json ℤ)) (rest : List Char) :
    Ends (writeElems also elems ++ rest) := by
  cases elems with
  | nil => exact ends_cons (by rfl) (by decide) _
  | cons v vs => exact ends_cons (by rfl) (by decide) _

theorem ends_writeMembers (also : Char → Bool) (members : List (String × Json ℤ)) (rest : List Char) :
    Ends (writeMembers also members ++ rest) := by
  cases members with
  | nil => exact ends_cons (by rfl) (by decide) _
  | cons m ms => exact ends_cons (by rfl) (by decide) _

/-- A number starts with a digit or a sign. -/
theorem writeInt_head (n : ℤ) : ∃ c cs, writeInt n = c :: cs ∧ (c.isDigit ∨ c = '-') := by
  by_cases hneg : n < 0
  · exact ⟨'-', Nat.toDigits 10 n.natAbs, by simp [writeInt, hneg], .inr rfl⟩
  · obtain ⟨c, cs, h⟩ := List.exists_cons_of_ne_nil (Nat.toDigits_ne_nil (n := n.natAbs) (b := 10))
    have hc : c ∈ Nat.toDigits 10 n.natAbs := h ▸ List.mem_cons_self
    exact ⟨c, cs, by simp [writeInt, hneg, h], .inl (Nat.isDigit_of_mem_toDigits (by decide) (by decide) hc)⟩

/-- A value does not start with a space or a closing bracket. -/
theorem write_head (also : Char → Bool) (v : Json ℤ) :
    ∃ c cs, write also v = c :: cs ∧ isSpace c = false ∧ c ≠ ']' ∧ c ≠ '\x7d' := by
  cases v with
  | null => exact ⟨_, _, rfl, by decide⟩
  | bool b => cases b <;> exact ⟨_, _, rfl, by decide⟩
  | number n =>
    obtain ⟨c, cs, h, hc⟩ := writeInt_head n
    refine ⟨c, cs, by rw [write, h], ?_⟩
    rcases hc with hc | rfl
    · refine ⟨?_, ?_, ?_⟩
      · cases hspace : isSpace c with
        | false => rfl
        | true =>
          simp only [isSpace, Bool.or_eq_true, decide_eq_true_eq] at hspace
          rcases hspace with ((rfl | rfl) | rfl) | rfl <;> exact absurd hc (by decide)
      · rintro rfl
        exact absurd hc (by decide)
      · rintro rfl
        exact absurd hc (by decide)
    · decide
  | string s => exact ⟨_, _, rfl, by decide⟩
  | array elems => cases elems <;> exact ⟨_, _, rfl, by decide⟩
  | object members =>
    cases members with
    | nil => exact ⟨_, _, rfl, by decide⟩
    | cons m ms => exact ⟨_, _, rfl, by decide⟩

theorem skipSpace_write (also : Char → Bool) (v : Json ℤ) (rest : List Char) :
    skipSpace (write also v ++ rest) = write also v ++ rest := by
  obtain ⟨c, cs, h, hspace, -, -⟩ := write_head also v
  rw [h, List.cons_append, skipSpace_cons hspace]

section ReadBack
variable {also : Char → Bool} {str : List Char → Option String} {f : String → String}
  (hstr : ∀ s, str (writeChars also s) = some (f s))
include hstr

theorem readString_writeString (s : String) (rest : List Char) :
    readString str (writeChars also s ++ '"' :: rest) = some (f s, rest) := by
  simp [readString, cutString_writeChars, hstr]

theorem readKey_writeString (s : String) (rest : List Char) :
    readKey str (writeString also s ++ ':' :: rest) = some (f s, rest) := by
  have hquote (cs : List Char) : skipSpace ('"' :: cs) = '"' :: cs := skipSpace_cons rfl cs
  have hcolon : skipSpace (':' :: rest) = ':' :: rest := skipSpace_cons rfl rest
  simp [readKey, writeString, hquote, readString_writeString hstr, hcolon]

omit hstr in
theorem readValue_number (n : ℕ) (m : ℤ) {rest : List Char} (h : Ends rest) :
    readValue str (n + 1) (writeInt m ++ rest) = some (.number (Numeral.ofInt m), rest) := by
  have hskip := skipSpace_write (fun _ => false) (.number m) rest
  obtain ⟨c, cs, hhead, hc⟩ := writeInt_head m
  have hother : ∀ d, d ∈ ['"', '[', '\x7b', 'n', 't', 'f'] → c ≠ d := by
    rintro d hd rfl
    rcases hc with hc | rfl
    · simp only [List.mem_cons, List.not_mem_nil, or_false] at hd
      rcases hd with rfl | rfl | rfl | rfl | rfl | rfl <;> exact absurd hc (by decide)
    · exact absurd hd (by decide)
  have hnumeral := readNumeral_writeInt m h
  rw [write, hhead, List.cons_append] at hskip
  rw [hhead, List.cons_append] at hnumeral ⊢
  simp [readValue, hskip, hnumeral, hother]

omit hstr in
theorem readValue_array (str : List Char → Option String) (n : ℕ) {cs : List Char} (hskip : skipSpace cs = cs) (hhead : cs.head? ≠ some ']') :
    readValue str (n + 1) ('[' :: cs) = (readValue str n cs).bind fun r =>
      (readElems str n r.2).map fun r' => (.array (r.1 :: r'.1), r'.2) := by
  have hopen : skipSpace ('[' :: cs) = '[' :: cs := skipSpace_cons rfl cs
  cases cs with
  | nil => simp [readValue, hopen, hskip]
  | cons c cs =>
    have hc : c ≠ ']' := by simpa using hhead
    simp [readValue, hopen, hskip, hc]

omit hstr in
theorem readValue_object (str : List Char → Option String) (n : ℕ) {cs : List Char} (hskip : skipSpace cs = cs) (hhead : cs.head? ≠ some '\x7d') :
    readValue str (n + 1) ('\x7b' :: cs) = (readKey str cs).bind fun k => (readValue str n k.2).bind fun r =>
      (readMembers str n r.2).map fun r' => (.object ((k.1, r.1) :: r'.1), r'.2) := by
  have hopen : skipSpace ('\x7b' :: cs) = '\x7b' :: cs := skipSpace_cons rfl cs
  cases cs with
  | nil => simp [readValue, hopen, hskip]
  | cons c cs =>
    have hc : c ≠ '\x7d' := by simpa using hhead
    simp [readValue, hopen, hskip, hc]

end ReadBack

mutual

theorem readValue_write {also : Char → Bool} {str : List Char → Option String} {f : String → String}
    (hstr : ∀ s, str (writeChars also s) = some (f s)) (v : Json ℤ) (n : ℕ) (rest : List Char)
    (hn : (write also v).length < n) (hrest : Ends rest) :
    readValue str n (write also v ++ rest) = some (v.mapText f Numeral.ofInt, rest) := by
  obtain ⟨n, rfl⟩ := Nat.exists_eq_succ_of_ne_zero (Nat.ne_zero_of_lt hn)
  match v with
  | .null => simp [write, readValue, skipSpace, isSpace, readWord, mapText]
  | .bool true => simp [write, readValue, skipSpace, isSpace, readWord, mapText]
  | .bool false => simp [write, readValue, skipSpace, isSpace, readWord, mapText]
  | .number m => exact readValue_number n m hrest
  | .string s =>
    have hquote (cs : List Char) : skipSpace ('"' :: cs) = '"' :: cs := skipSpace_cons rfl cs
    simp [write, readValue, hquote, writeString, readString_writeString hstr, mapText]
  | .array [] => simp [write, readValue, skipSpace, isSpace, mapText, mapTextElems]
  | .array (w :: ws) =>
    rw [write, List.length_cons, List.length_append] at hn
    have hvalue := readValue_write hstr w n (writeElems also ws ++ rest) (by omega) (ends_writeElems _ _ _)
    have hwrest := readElems_write hstr ws n rest (by omega)
    obtain ⟨c, cs, hhead, -, hc, -⟩ := write_head also w
    have hopen := readValue_array str n (skipSpace_write also w (writeElems also ws ++ rest))
      (by simpa [hhead] using hc)
    simp [write, hopen, hvalue, hwrest, mapText, mapTextElems]
  | .object [] => simp [write, readValue, skipSpace, isSpace, mapText, mapTextMembers]
  | .object ((key, w) :: ms) =>
    rw [write, List.length_cons, List.length_append, List.length_cons, List.length_append] at hn
    have hvalue := readValue_write hstr w n (writeMembers also ms ++ rest) (by omega) (ends_writeMembers _ _ _)
    have hwrest := readMembers_write hstr ms n rest (by omega)
    have hopen := readValue_object str n (skipSpace_cons (c := '"') rfl
      (writeChars also key ++ '"' :: ':' :: (write also w ++ (writeMembers also ms ++ rest)))) (by simp)
    have hkey := readKey_writeString hstr key (write also w ++ (writeMembers also ms ++ rest))
    simp only [writeString, List.cons_append, List.append_assoc, List.nil_append] at hkey
    simp [write, writeString, hopen, hkey, hvalue, hwrest, mapText, mapTextMembers]

theorem readElems_write {also : Char → Bool} {str : List Char → Option String} {f : String → String}
    (hstr : ∀ s, str (writeChars also s) = some (f s)) (vs : List (Json ℤ)) (n : ℕ) (rest : List Char)
    (hn : (writeElems also vs).length < n) :
    readElems str n (writeElems also vs ++ rest) = some (mapTextElems f Numeral.ofInt vs, rest) := by
  obtain ⟨n, rfl⟩ := Nat.exists_eq_succ_of_ne_zero (Nat.ne_zero_of_lt hn)
  match vs with
  | [] => simp [writeElems, readElems, skipSpace, isSpace, mapTextElems]
  | w :: ws =>
    rw [writeElems, List.length_cons, List.length_append] at hn
    have hvalue := readValue_write hstr w n (writeElems also ws ++ rest) (by omega) (ends_writeElems _ _ _)
    have hwrest := readElems_write hstr ws n rest (by omega)
    have hskip (cs : List Char) : skipSpace (',' :: cs) = ',' :: cs := skipSpace_cons rfl cs
    simp [writeElems, readElems, hskip, hvalue, hwrest, mapTextElems]

theorem readMembers_write {also : Char → Bool} {str : List Char → Option String} {f : String → String}
    (hstr : ∀ s, str (writeChars also s) = some (f s)) (ms : List (String × Json ℤ)) (n : ℕ) (rest : List Char)
    (hn : (writeMembers also ms).length < n) :
    readMembers str n (writeMembers also ms ++ rest) = some (mapTextMembers f Numeral.ofInt ms, rest) := by
  obtain ⟨n, rfl⟩ := Nat.exists_eq_succ_of_ne_zero (Nat.ne_zero_of_lt hn)
  match ms with
  | [] => simp [writeMembers, readMembers, skipSpace, isSpace, mapTextMembers]
  | (key, w) :: ms =>
    rw [writeMembers, List.length_cons, List.length_append, List.length_cons, List.length_append] at hn
    have hvalue := readValue_write hstr w n (writeMembers also ms ++ rest) (by omega) (ends_writeMembers _ _ _)
    have hwrest := readMembers_write hstr ms n rest (by omega)
    have hkey := readKey_writeString hstr key (write also w ++ (writeMembers also ms ++ rest))
    have hskip (cs : List Char) : skipSpace (',' :: cs) = ',' :: cs := skipSpace_cons rfl cs
    simp [writeMembers, readMembers, hskip, hkey, hvalue, hwrest, mapTextMembers]

end

/-! ### The fuel is enough -/

theorem length_skipSpace (cs : List Char) : (skipSpace cs).length ≤ cs.length :=
  (List.dropWhile_suffix _).length_le

theorem length_of_cutString {cs : List Char} {r : List Char × List Char} (h : cutString cs = some r) :
    r.2.length < cs.length := by
  induction cs using cutString.induct generalizing r with
  | case1 => cases h
  | case2 cs =>
    rw [cutString_quote] at h
    cases h
    exact Nat.lt_succ_self _
  | case3 h1 => simp [cutString] at h
  | case4 e cs _ ih =>
    rw [cutString_escape] at h
    obtain ⟨r', hr, rfl⟩ := Option.map_eq_some_iff.mp h
    have := ih hr
    simp only [List.length_cons]
    omega
  | case5 c cs hquote hslash ih =>
    rw [cutString_char hquote hslash] at h
    obtain ⟨r', hr, rfl⟩ := Option.map_eq_some_iff.mp h
    have := ih hr
    simp only [List.length_cons]
    omega

theorem length_of_readDigits {cs : List Char} {r : List Char × List Char} (h : readDigits cs = some r) :
    r.2.length < cs.length := by
  simp only [readDigits] at h
  split_ifs at h with hne
  cases h
  have hpos := List.length_pos_of_ne_nil hne
  have hsplit := congrArg List.length (List.takeWhile_append_dropWhile (p := Char.isDigit) (l := cs))
  rw [List.length_append] at hsplit
  simp only
  omega

theorem length_of_readFraction {cs : List Char} {r : List Char × List Char} (h : readFraction cs = some r) :
    r.2.length ≤ cs.length := by
  rw [readFraction.eq_def] at h
  split at h
  · have := length_of_readDigits h
    simp only [List.length_cons]
    omega
  · cases h
    exact le_rfl

theorem length_of_readExponent {cs : List Char} {r : Option ℤ × List Char} (h : readExponent cs = some r) :
    r.2.length ≤ cs.length := by
  cases cs with
  | nil =>
    cases h
    exact le_rfl
  | cons c cs =>
    by_cases he : c = 'e' ∨ c = 'E'
    · rw [readExponent, if_pos he] at h
      obtain ⟨r', hr, rfl⟩ := Option.map_eq_some_iff.mp h
      have hlength := length_of_readDigits hr
      have htail : (if cs.head? = some '+' ∨ cs.head? = some '-' then cs.tail else cs).length ≤ cs.length := by
        split_ifs
        · simp
        · exact le_rfl
      simp only [List.length_cons]
      omega
    · rw [readExponent, if_neg he] at h
      cases h
      exact le_rfl

theorem length_of_readNumeral {cs : List Char} {r : Numeral × List Char} (h : readNumeral cs = some r) :
    r.2.length < cs.length := by
  rw [readNumeral] at h
  obtain ⟨whole, hwhole, h⟩ := Option.bind_eq_some_iff.mp h
  have hlength : whole.2.length < cs.length := by
    have := length_of_readDigits hwhole
    split_ifs at this
    · rw [List.length_tail] at this
      omega
    · exact this
  dsimp only at h
  split_ifs at h
  obtain ⟨fraction, hfraction, h⟩ := Option.bind_eq_some_iff.mp h
  obtain ⟨exponent, hexponent, h⟩ := Option.bind_eq_some_iff.mp h
  cases h
  have := length_of_readFraction hfraction
  have := length_of_readExponent hexponent
  simp only
  omega

section Fuel
variable {str : List Char → Option String}

theorem length_of_readString {cs : List Char} {r : String × List Char} (h : readString str cs = some r) :
    r.2.length < cs.length := by
  obtain ⟨r', hcut, h⟩ := Option.bind_eq_some_iff.mp h
  obtain ⟨s, -, rfl⟩ := Option.map_eq_some_iff.mp h
  exact length_of_cutString hcut

theorem length_of_readKey {cs : List Char} {r : String × List Char} (h : readKey str cs = some r) :
    r.2.length < cs.length := by
  have hskip := length_skipSpace cs
  rw [readKey] at h
  split at h
  · rename_i cs' hcs
    obtain ⟨r', hstring, h⟩ := Option.bind_eq_some_iff.mp h
    have hlength := length_of_readString hstring
    have hskip' := length_skipSpace r'.2
    split at h
    · rename_i rest hrest
      cases h
      rw [hcs, List.length_cons] at hskip
      rw [hrest, List.length_cons] at hskip'
      simp only
      omega
    · cases h
  · cases h

theorem length_of_readWord {word cs rest : List Char} (h : readWord word cs = some rest) :
    rest.length ≤ cs.length := by
  simp only [readWord] at h
  split_ifs at h
  cases h
  rw [List.length_drop]
  omega

/-- A reading ends inside the text, and any fuel above the length of the text gives it too. -/
def Enough {α : Type} (reader : ℕ → List Char → Option (α × List Char)) (cs : List Char) (r : α × List Char) : Prop :=
  r.2.length < cs.length ∧ ∀ n, cs.length < n → reader n cs = some r

theorem enough_readValue {m : ℕ}
    (hvalue : ∀ cs r, readValue str m cs = some r → Enough (readValue str) cs r)
    (helems : ∀ cs r, readElems str m cs = some r → Enough (readElems str) cs r)
    (hmembers : ∀ cs r, readMembers str m cs = some r → Enough (readMembers str) cs r)
    {cs : List Char} {r : Json Numeral × List Char} (h : readValue str (m + 1) cs = some r) :
    Enough (readValue str) cs r := by
  have hlength := length_skipSpace cs
  cases hskip : skipSpace cs with
  | nil => simp [readValue, hskip] at h
  | cons c rest =>
    rw [hskip, List.length_cons] at hlength
    have hrest := length_skipSpace rest
    by_cases hquote : c = '"'
    · simp only [readValue, hskip, if_pos hquote] at h
      obtain ⟨r', hr, rfl⟩ := Option.map_eq_some_iff.mp h
      have := length_of_readString hr
      refine ⟨by dsimp only; omega, fun n hn => ?_⟩
      obtain ⟨n, rfl⟩ := Nat.exists_eq_succ_of_ne_zero (Nat.ne_zero_of_lt hn)
      simp only [readValue, hskip, if_pos hquote, hr, Option.map_some]
    by_cases hbracket : c = '['
    · simp only [readValue, hskip, if_neg hquote, if_pos hbracket] at h
      split at h
      · rename_i rest' hclose
        cases h
        rw [hclose, List.length_cons] at hrest
        refine ⟨by dsimp only; omega, fun n hn => ?_⟩
        obtain ⟨n, rfl⟩ := Nat.exists_eq_succ_of_ne_zero (Nat.ne_zero_of_lt hn)
        simp only [readValue, hskip, if_neg hquote, if_pos hbracket, hclose]
      · rename_i hopen
        obtain ⟨v, hv, h⟩ := Option.bind_eq_some_iff.mp h
        obtain ⟨vs, hvs, rfl⟩ := Option.map_eq_some_iff.mp h
        obtain ⟨hvlength, hvagain⟩ := hvalue _ _ hv
        obtain ⟨hvslength, hvsagain⟩ := helems _ _ hvs
        refine ⟨by dsimp only; omega, fun n hn => ?_⟩
        obtain ⟨n, rfl⟩ := Nat.exists_eq_succ_of_ne_zero (Nat.ne_zero_of_lt hn)
        simp only [readValue, hskip, if_neg hquote, if_pos hbracket]
        rw [hvagain n (by omega), Option.bind_some, hvsagain n (by omega), Option.map_some]
    by_cases hbrace : c = '\x7b'
    · simp only [readValue, hskip, if_neg hquote, if_neg hbracket, if_pos hbrace] at h
      split at h
      · rename_i rest' hclose
        cases h
        rw [hclose, List.length_cons] at hrest
        refine ⟨by dsimp only; omega, fun n hn => ?_⟩
        obtain ⟨n, rfl⟩ := Nat.exists_eq_succ_of_ne_zero (Nat.ne_zero_of_lt hn)
        simp only [readValue, hskip, if_neg hquote, if_neg hbracket, if_pos hbrace, hclose]
      · rename_i hopen
        obtain ⟨k, hk, h⟩ := Option.bind_eq_some_iff.mp h
        obtain ⟨v, hv, h⟩ := Option.bind_eq_some_iff.mp h
        obtain ⟨ms, hms, rfl⟩ := Option.map_eq_some_iff.mp h
        have hklength := length_of_readKey hk
        obtain ⟨hvlength, hvagain⟩ := hvalue _ _ hv
        obtain ⟨hmslength, hmsagain⟩ := hmembers _ _ hms
        refine ⟨by dsimp only; omega, fun n hn => ?_⟩
        obtain ⟨n, rfl⟩ := Nat.exists_eq_succ_of_ne_zero (Nat.ne_zero_of_lt hn)
        simp only [readValue, hskip, if_neg hquote, if_neg hbracket, if_pos hbrace]
        rw [hk, Option.bind_some, hvagain n (by omega), Option.bind_some, hmsagain n (by omega), Option.map_some]
    -- what is left reads no other value
    have hsame : ∀ n, readValue str (n + 1) cs = some r := by
      intro n
      rw [← h]
      simp only [readValue, hskip, if_neg hquote, if_neg hbracket, if_neg hbrace]
    refine ⟨?_, fun n hn => ?_⟩
    · simp only [readValue, hskip, if_neg hquote, if_neg hbracket, if_neg hbrace] at h
      split_ifs at h
      · obtain ⟨r', hr, rfl⟩ := Option.map_eq_some_iff.mp h
        have := length_of_readWord hr
        dsimp only
        omega
      · obtain ⟨r', hr, rfl⟩ := Option.map_eq_some_iff.mp h
        have := length_of_readWord hr
        dsimp only
        omega
      · obtain ⟨r', hr, rfl⟩ := Option.map_eq_some_iff.mp h
        have := length_of_readWord hr
        dsimp only
        omega
      · obtain ⟨r', hr, rfl⟩ := Option.map_eq_some_iff.mp h
        have := length_of_readNumeral hr
        rw [List.length_cons] at this
        dsimp only
        omega
    · obtain ⟨n, rfl⟩ := Nat.exists_eq_succ_of_ne_zero (Nat.ne_zero_of_lt hn)
      exact hsame n

theorem enough (m : ℕ) :
    (∀ cs r, readValue str m cs = some r → Enough (readValue str) cs r) ∧
      (∀ cs r, readElems str m cs = some r → Enough (readElems str) cs r) ∧
      ∀ cs r, readMembers str m cs = some r → Enough (readMembers str) cs r := by
  induction m with
  | zero =>
    refine ⟨?_, ?_, ?_⟩
    all_goals
      intro cs r h
      cases h
  | succ m ih =>
    obtain ⟨hvalue, helems, hmembers⟩ := ih
    refine ⟨fun cs r h => enough_readValue hvalue helems hmembers h, ?_, ?_⟩
    · intro cs r h
      have hlength := length_skipSpace cs
      simp only [readElems] at h
      split at h
      · rename_i rest hskip
        cases h
        rw [hskip, List.length_cons] at hlength
        refine ⟨by dsimp only; omega, fun n hn => ?_⟩
        obtain ⟨n, rfl⟩ := Nat.exists_eq_succ_of_ne_zero (Nat.ne_zero_of_lt hn)
        simp only [readElems, hskip]
      · rename_i rest hskip
        obtain ⟨v, hv, h⟩ := Option.bind_eq_some_iff.mp h
        obtain ⟨vs, hvs, rfl⟩ := Option.map_eq_some_iff.mp h
        obtain ⟨hvlength, hvagain⟩ := hvalue _ _ hv
        obtain ⟨hvslength, hvsagain⟩ := helems _ _ hvs
        rw [hskip, List.length_cons] at hlength
        refine ⟨by dsimp only; omega, fun n hn => ?_⟩
        obtain ⟨n, rfl⟩ := Nat.exists_eq_succ_of_ne_zero (Nat.ne_zero_of_lt hn)
        simp only [readElems, hskip]
        rw [hvagain n (by omega), Option.bind_some, hvsagain n (by omega), Option.map_some]
      · cases h
    · intro cs r h
      have hlength := length_skipSpace cs
      simp only [readMembers] at h
      split at h
      · rename_i rest hskip
        cases h
        rw [hskip, List.length_cons] at hlength
        refine ⟨by dsimp only; omega, fun n hn => ?_⟩
        obtain ⟨n, rfl⟩ := Nat.exists_eq_succ_of_ne_zero (Nat.ne_zero_of_lt hn)
        simp only [readMembers, hskip]
      · rename_i rest hskip
        obtain ⟨k, hk, h⟩ := Option.bind_eq_some_iff.mp h
        obtain ⟨v, hv, h⟩ := Option.bind_eq_some_iff.mp h
        obtain ⟨ms, hms, rfl⟩ := Option.map_eq_some_iff.mp h
        have hklength := length_of_readKey hk
        obtain ⟨hvlength, hvagain⟩ := hvalue _ _ hv
        obtain ⟨hmslength, hmsagain⟩ := hmembers _ _ hms
        rw [hskip, List.length_cons] at hlength
        refine ⟨by dsimp only; omega, fun n hn => ?_⟩
        obtain ⟨n, rfl⟩ := Nat.exists_eq_succ_of_ne_zero (Nat.ne_zero_of_lt hn)
        simp only [readMembers, hskip]
        rw [hk, Option.bind_some, hvagain n (by omega), Option.bind_some, hmsagain n (by omega), Option.map_some]
      · cases h

/-- The fuel of `readFirst` is enough: what any fuel reads, it reads. -/
theorem readFirst_of_readValue {m : ℕ} {cs : List Char} {r : Json Numeral × List Char}
    (h : readValue str m cs = some r) : readFirst str cs = some r :=
  ((enough m).1 cs r h).2 _ (Nat.lt_succ_self _)

end Fuel

/-! ### A written text is read back -/

theorem ends_of_skipSpace {rest : List Char} (h : skipSpace rest = []) : Ends rest := by
  intro c hc
  have hspace : isSpace c := List.dropWhile_eq_nil_iff.mp h c (List.mem_of_head? hc)
  simp only [isSpace, Bool.or_eq_true, decide_eq_true_eq] at hspace
  rcases hspace with ((rfl | rfl) | rfl) | rfl <;> exact ⟨by decide, by decide⟩

theorem readFirst_write {also : Char → Bool} {str : List Char → Option String} {f : String → String}
    (hstr : ∀ s, str (writeChars also s) = some (f s)) (v : Json ℤ) {rest : List Char} (hrest : Ends rest) :
    readFirst str (write also v ++ rest) = some (v.mapText f Numeral.ofInt, rest) :=
  readFirst_of_readValue (readValue_write hstr v _ rest (Nat.lt_succ_self _) hrest)

/-- The value of a written text is the value that was written, also with space behind it. -/
theorem read_write_append {also : Char → Bool} {str : List Char → Option String} {f : String → String}
    (hstr : ∀ s, str (writeChars also s) = some (f s)) (v : Json ℤ) {rest : List Char} (hrest : skipSpace rest = []) :
    read str (write also v ++ rest) = some (v.mapText f Numeral.ofInt) := by
  rw [read, readFirst_write hstr v (ends_of_skipSpace hrest), Option.bind_some, if_pos hrest]

mutual

theorem mapText_id {ν μ : Type} (g : ν → μ) (v : Json ν) : v.mapText (fun s => s) g = v.mapNumber g := by
  match v with
  | .null | .bool b | .number n | .string s => rfl
  | .array elems => rw [mapText, mapNumber, mapTextElems_id]
  | .object members => rw [mapText, mapNumber, mapTextMembers_id]

theorem mapTextElems_id {ν μ : Type} (g : ν → μ) (vs : List (Json ν)) :
    mapTextElems (fun s => s) g vs = mapElems g vs := by
  match vs with
  | [] => rfl
  | v :: vs => rw [mapTextElems, mapElems, mapText_id, mapTextElems_id]

theorem mapTextMembers_id {ν μ : Type} (g : ν → μ) (ms : List (String × Json ν)) :
    mapTextMembers (fun s => s) g ms = mapMembers g ms := by
  match ms with
  | [] => rfl
  | (key, v) :: ms => rw [mapTextMembers, mapMembers, mapText_id, mapTextMembers_id]

end

mutual

theorem mapNumber_mapNumber {ν μ κ : Type} (g : μ → κ) (f : ν → μ) (v : Json ν) :
    (v.mapNumber f).mapNumber g = v.mapNumber fun n => g (f n) := by
  match v with
  | .null | .bool b | .number n | .string s => rfl
  | .array elems => rw [mapNumber, mapNumber, mapNumber, mapElems_mapElems]
  | .object members => rw [mapNumber, mapNumber, mapNumber, mapMembers_mapMembers]

theorem mapElems_mapElems {ν μ κ : Type} (g : μ → κ) (f : ν → μ) (vs : List (Json ν)) :
    mapElems g (mapElems f vs) = mapElems (fun n => g (f n)) vs := by
  match vs with
  | [] => rfl
  | v :: vs => rw [mapElems, mapElems, mapElems, mapNumber_mapNumber, mapElems_mapElems]

theorem mapMembers_mapMembers {ν μ κ : Type} (g : μ → κ) (f : ν → μ) (ms : List (String × Json ν)) :
    mapMembers g (mapMembers f ms) = mapMembers (fun n => g (f n)) ms := by
  match ms with
  | [] => rfl
  | (key, v) :: ms => rw [mapMembers, mapMembers, mapMembers, mapNumber_mapNumber, mapMembers_mapMembers]

end

/-- What a reader of texts sees does not depend on the escapes. -/
theorem read_unquote_write {also : Char → Bool} (halso : ∀ c, also c → c.toNat < 0x10000) (v : Json ℤ)
    {rest : List Char} (hrest : skipSpace rest = []) :
    read unquote (write also v ++ rest) = some (v.mapNumber Numeral.ofInt) := by
  rw [read_write_append (unquote_writeChars halso) v hrest, mapText_id]

/-! ### One line -/

theorem writeChar_graphic (also : Char → Bool) {c d : Char} (h : d ∈ writeChar also c) : 0x20 ≤ d.toNat := by
  have hshort : ∀ p ∈ shortEscapes, 0x20 ≤ p.2.toNat := by decide
  have hhex : ∀ n < 16, 0x20 ≤ (Nat.digitChar n).toNat := by decide
  rcases writeChar_cases also c with ⟨e, he, hc⟩ | ⟨-, hc⟩ | ⟨⟨-, -, hlow⟩, hc⟩
  · rw [hc] at h
    rcases List.mem_pair.mp h with rfl | rfl
    · decide
    · exact hshort _ he
  · rw [hc, hex4] at h
    simp only [List.map_cons, List.map_nil, List.mem_cons, List.not_mem_nil, or_false] at h
    rcases h with rfl | rfl | rfl | rfl | rfl | rfl
    · decide
    · decide
    all_goals exact hhex _ (Nat.mod_lt _ (by decide))
  · rw [hc, List.mem_singleton] at h
    rwa [h]

theorem writeString_graphic (also : Char → Bool) {s : String} {d : Char} (h : d ∈ writeString also s) :
    0x20 ≤ d.toNat := by
  rw [writeString, List.mem_cons, List.mem_append, List.mem_singleton] at h
  rcases h with rfl | h | rfl
  · decide
  · obtain ⟨c, -, hd⟩ := List.mem_flatMap.mp h
    exact writeChar_graphic also hd
  · decide

theorem writeInt_graphic {n : ℤ} {d : Char} (h : d ∈ writeInt n) : 0x20 ≤ d.toNat := by
  rw [writeInt, List.mem_append] at h
  rcases h with h | h
  · split_ifs at h
    · rw [List.mem_singleton.mp h]
      decide
    · cases h
  · have hdigit := Nat.isDigit_of_mem_toDigits (by decide) (by decide) h
    simp only [Char.isDigit, Bool.and_eq_true, decide_eq_true_eq, UInt32.le_iff_toNat_le] at hdigit
    have hlow : 48 ≤ d.toNat := hdigit.1
    omega

mutual

/-- A text has no control character, so it is one line. -/
theorem write_graphic (also : Char → Bool) (v : Json ℤ) : ∀ c ∈ write also v, 0x20 ≤ c.toNat := by
  match v with
  | .null => simp [write]
  | .bool true => simp [write]
  | .bool false => simp [write]
  | .number n => exact fun c hc => writeInt_graphic hc
  | .string s => exact fun c hc => writeString_graphic also hc
  | .array [] => simp [write]
  | .array (w :: ws) =>
    rw [write, List.forall_mem_cons, List.forall_mem_append]
    exact ⟨by decide, write_graphic also w, writeElems_graphic also ws⟩
  | .object [] => simp [write]
  | .object ((key, w) :: ms) =>
    rw [write, List.forall_mem_cons, List.forall_mem_append, List.forall_mem_cons, List.forall_mem_append]
    exact ⟨by decide, fun c hc => writeString_graphic also hc, by decide, write_graphic also w,
      writeMembers_graphic also ms⟩

theorem writeElems_graphic (also : Char → Bool) (vs : List (Json ℤ)) : ∀ c ∈ writeElems also vs, 0x20 ≤ c.toNat := by
  match vs with
  | [] => simp [writeElems]
  | w :: ws =>
    rw [writeElems, List.forall_mem_cons, List.forall_mem_append]
    exact ⟨by decide, write_graphic also w, writeElems_graphic also ws⟩

theorem writeMembers_graphic (also : Char → Bool) (ms : List (String × Json ℤ)) :
    ∀ c ∈ writeMembers also ms, 0x20 ≤ c.toNat := by
  match ms with
  | [] => simp [writeMembers]
  | (key, w) :: ms =>
    rw [writeMembers, List.forall_mem_cons, List.forall_mem_append, List.forall_mem_cons, List.forall_mem_append]
    exact ⟨by decide, fun c hc => writeString_graphic also hc, by decide, write_graphic also w,
      writeMembers_graphic also ms⟩

end

theorem newline_not_mem_write (also : Char → Bool) (v : Json ℤ) : '\n' ∉ write also v ∧ '\r' ∉ write also v := by
  constructor
  all_goals
    intro h
    exact absurd (write_graphic also v _ h) (by decide)

end CyberstalkMe.Foundations.JsonText
