import CyberstalkMe.Foundations.Binary64
import CyberstalkMe.Go.Strings

/-! # Durations

`time.Duration` with its spelling and the parser of that spelling. Fractions go
through float64, as in the library.
-/
namespace CyberstalkMe.Go

open Foundations

/-- A signed 64-bit count of nanoseconds. -/
structure Duration where
  nanos : ℤ
  lower : -2 ^ 63 ≤ nanos
  upper : nanos < 2 ^ 63
deriving DecidableEq, Repr

namespace Duration

@[ext] theorem ext {d e : Duration} (h : d.nanos = e.nanos) : d = e := by
  cases d
  cases e
  cases h
  rfl

def ofInt? (n : ℤ) : Option Duration :=
  if h : -2 ^ 63 ≤ n ∧ n < 2 ^ 63 then some ⟨n, h.1, h.2⟩ else none

theorem ofInt?_nanos (d : Duration) : ofInt? d.nanos = some d := dif_pos ⟨d.lower, d.upper⟩

def zero : Duration := ⟨0, by decide, by decide⟩

/-! ### Spelling -/

/-- The loop of `fmtFrac`: `n` digits of `v` go in front of `tail`, without trailing zeros. The result
is the text and the digits that remain. -/
def fmtFracLoop : ℕ → Bool → ℕ → List Char → List Char × ℕ
  | 0, print, v, tail => (if print then '.' :: tail else tail, v)
  | n + 1, print, v, tail =>
    let digit := v % 10
    let print := print || digit ≠ 0
    fmtFracLoop n print (v / 10) (if print then Nat.digitChar digit :: tail else tail)

/-- The fraction `v / 10 ^ prec` and the integer part. -/
def fmtFrac (v prec : ℕ) : List Char × ℕ := fmtFracLoop prec false v []

def fmtInt (v : ℕ) : List Char := Nat.toDigits 10 v

def fmtUnit (v prec : ℕ) (unit : List Char) : List Char :=
  let (frac, v) := fmtFrac v prec
  fmtInt v ++ frac ++ unit

/-- The spelling of the absolute value. -/
def format (u : ℕ) : List Char :=
  if u < 1000000000 then
    if u = 0 then ['0', 's']
    else if u < 1000 then fmtUnit u 0 ['n', 's']
    else if u < 1000000 then fmtUnit u 3 ['µ', 's']
    else fmtUnit u 6 ['m', 's']
  else
    let (frac, u) := fmtFrac u 9
    let seconds := fmtInt (u % 60) ++ frac ++ ['s']
    let u := u / 60
    if 0 < u then
      let minutes := fmtInt (u % 60) ++ ['m'] ++ seconds
      let u := u / 60
      if 0 < u then fmtInt u ++ ['h'] ++ minutes else minutes
    else seconds

/-- `Duration.String`. -/
def toText (d : Duration) : String :=
  String.ofList (if d.nanos < 0 then '-' :: format d.nanos.natAbs else format d.nanos.natAbs)

/-! ### Parsing -/

/-- The digits at the front, as a number of at most `1 << 63`. -/
def leadingInt : List Char → ℕ → Option (ℕ × List Char)
  | [], x => some (x, [])
  | c :: cs, x =>
    if c.isDigit then
      if 2 ^ 63 / 10 < x then none
      else
        let x := x * 10 + (c.toNat - '0'.toNat)
        if 2 ^ 63 < x then none else leadingInt cs x
    else some (x, c :: cs)

/-- The digits at the front and the power of ten they are a fraction of. Digits beyond 64 bits are
skipped. -/
def leadingFraction : List Char → ℕ → ℚ → Bool → ℕ × ℚ × List Char
  | [], x, scale, _ => (x, scale, [])
  | c :: cs, x, scale, overflow =>
    if c.isDigit then
      if overflow || (2 ^ 63 - 1) / 10 < x then leadingFraction cs x scale true
      else
        let y := x * 10 + (c.toNat - '0'.toNat)
        if 2 ^ 63 < y then leadingFraction cs x scale true
        else leadingFraction cs y (binary64 (scale * 10)) false
    else (x, scale, c :: cs)

def unitMap (u : List Char) : Option ℕ :=
  if u = ['n', 's'] then some 1
  else if u = ['u', 's'] ∨ u = ['µ', 's'] ∨ u = ['μ', 's'] then some 1000
  else if u = ['m', 's'] then some 1000000
  else if u = ['s'] then some 1000000000
  else if u = ['m'] then some 60000000000
  else if u = ['h'] then some 3600000000000
  else none

def isUnitChar (c : Char) : Bool := !(c == '.' || c.isDigit)

/-- The optional fraction: its digits, their scale, what follows, and whether there was a digit. -/
def parseFraction : List Char → ℕ × ℚ × List Char × Bool
  | '.' :: cs =>
    let (f, scale, rest) := leadingFraction cs 0 1 false
    (f, scale, rest, rest.length ≠ cs.length)
  | cs => (0, 1, cs, false)

/-- `uint64(float64(f) * (float64(unit) / scale))`. -/
def fractionValue (f unit : ℕ) (scale : ℚ) : ℕ :=
  ⌊binary64 (binary64 f * binary64 (binary64 unit / scale))⌋.toNat

/-- A number: its integer part, its fraction with the scale, and what follows. There must be a digit. -/
def parseNumber (s : List Char) : Option (ℕ × ℕ × ℚ × List Char) :=
  match leadingInt s 0 with
  | none => none
  | some (v, afterInt) =>
    let (f, scale, rest, post) := parseFraction afterInt
    if afterInt.length = s.length ∧ post = false then none else some (v, f, scale, rest)

/-- A number in a unit, as nanoseconds of at most `1 << 63`. -/
def scaleUnit (v f unit : ℕ) (scale : ℚ) : Option ℕ :=
  if 2 ^ 63 / unit < v then none
  else if 0 < f then
    let v := v * unit + fractionValue f unit scale
    if 2 ^ 63 < v then none else some v
  else some (v * unit)

/-- One number with its unit, as nanoseconds, and what follows. -/
def parseComponent (s : List Char) : Option (ℕ × List Char) :=
  if s.head?.any fun c => c == '.' || c.isDigit then
    match parseNumber s with
    | none => none
    | some (v, f, scale, rest) =>
      match unitMap (rest.takeWhile isUnitChar) with
      | none => none
      | some unit => (scaleUnit v f unit scale).map fun v => (v, rest.dropWhile isUnitChar)
  else none

/-- The loop over the components. Each consumes a character, so fuel beyond the length of the text is
never used. -/
def parseLoop : ℕ → List Char → ℕ → Option ℕ
  | _, [], d => some d
  | 0, _ :: _, _ => none
  | fuel + 1, c :: cs, d => do
    let (v, rest) ← parseComponent (c :: cs)
    let d := (d + v) % 2 ^ 64
    if 2 ^ 63 < d then none
    parseLoop fuel rest d

/-- The unsigned part of `time.ParseDuration`. -/
def parseUnsigned (s : List Char) : Option ℕ :=
  if s = ['0'] then some 0 else if s = [] then none else parseLoop (s.length + 1) s 0

/-- `time.ParseDuration`. -/
def parse (s : String) : Option Duration :=
  match s.toList with
  | '-' :: cs => do
    let d ← parseUnsigned cs
    ofInt? (-d)
  | '+' :: cs => do
    let d ← parseUnsigned cs
    ofInt? d
  | cs => do
    let d ← parseUnsigned cs
    ofInt? d

/-! ### Reading a spelling back -/

theorem le_ofDigitChars (ds : List Char) (x : ℕ) : x ≤ Nat.ofDigitChars 10 ds x := by
  rw [Nat.ofDigitChars_eq_ofDigitChars_zero]
  have : 1 ≤ 10 ^ ds.length := Nat.one_le_pow _ _ (by decide)
  nlinarith

/-- Digits followed by something else are read as a number, if it fits. -/
theorem leadingInt_append {ds : List Char} (rest : List Char) (hds : ∀ c ∈ ds, c.isDigit)
    (hrest : ∀ c ∈ rest.head?, ¬ c.isDigit) {x : ℕ} (hx : Nat.ofDigitChars 10 ds x ≤ 2 ^ 63) :
    leadingInt (ds ++ rest) x = some (Nat.ofDigitChars 10 ds x, rest) := by
  induction ds generalizing x with
  | nil =>
    rw [List.nil_append, Nat.ofDigitChars_nil]
    cases rest with
    | nil => rfl
    | cons c cs => rw [leadingInt, if_neg (hrest c rfl)]
  | cons c ds ih =>
    rw [Nat.ofDigitChars_cons] at hx ⊢
    have hle := (le_ofDigitChars ds _).trans hx
    have hcomm : x * 10 + (c.toNat - '0'.toNat) = 10 * x + (c.toNat - '0'.toNat) := by ring
    rw [List.cons_append, leadingInt, if_pos (hds c List.mem_cons_self), if_neg (by omega)]
    dsimp only
    rw [hcomm, if_neg (by omega)]
    exact ih (fun d hd => hds d (List.mem_cons_of_mem _ hd)) hx

/-- Up to nine digits of a fraction are read exactly, and so is their scale. -/
theorem leadingFraction_append {ds rest : List Char} (hds : ∀ c ∈ ds, c.isDigit)
    (hrest : ∀ c ∈ rest.head?, ¬ c.isDigit) {x k : ℕ} (hk : k + ds.length ≤ 9)
    (hx : Nat.ofDigitChars 10 ds x < 10 ^ 9) :
    leadingFraction (ds ++ rest) x (10 ^ k) false =
      (Nat.ofDigitChars 10 ds x, 10 ^ (k + ds.length), rest) := by
  induction ds generalizing x k with
  | nil =>
    rw [List.nil_append, Nat.ofDigitChars_nil]
    cases rest with
    | nil => rfl
    | cons c cs =>
      rw [leadingFraction, if_neg (hrest c rfl)]
      rfl
  | cons c ds ih =>
    rw [Nat.ofDigitChars_cons] at hx ⊢
    have hle := (le_ofDigitChars ds _).trans_lt hx
    rw [List.length_cons] at hk ⊢
    have hcomm : x * 10 + (c.toNat - '0'.toNat) = 10 * x + (c.toNat - '0'.toNat) := by ring
    have hscale : binary64 ((10 : ℚ) ^ k * 10) = 10 ^ (k + 1) := by
      have hsmall : 10 ^ (k + 1) ≤ 2 ^ 53 :=
        (Nat.pow_le_pow_right (by decide) (show k + 1 ≤ 9 by omega)).trans (by decide)
      have hexact := binary64_natCast hsmall
      push_cast at hexact
      rw [← pow_succ]
      exact hexact
    have hroom : (false || decide ((2 ^ 63 - 1) / 10 < x)) = false := by
      rw [Bool.false_or, decide_eq_false_iff_not]
      omega
    rw [List.cons_append, leadingFraction, if_pos (hds c List.mem_cons_self), hroom]
    rw [if_neg Bool.false_ne_true]
    dsimp only
    rw [hcomm, if_neg (by omega), hscale, ih (fun d hd => hds d (List.mem_cons_of_mem _ hd)) (by omega) hx]
    congr 3
    omega

/-- A fraction with no more digits than the unit has zeros is exact. -/
theorem fractionValue_eq {f p k : ℕ} (hf : f < 10 ^ k) (hk : k ≤ p) (hp : p ≤ 9) :
    fractionValue f (10 ^ p) (10 ^ k) = f * 10 ^ (p - k) := by
  have hpow : ∀ {m : ℕ}, m ≤ 9 → 10 ^ m ≤ 2 ^ 53 := fun hm =>
    (Nat.pow_le_pow_right (by decide) hm).trans (by decide)
  have hdiv : ((10 ^ p : ℕ) : ℚ) / 10 ^ k = (10 ^ (p - k) : ℕ) := by
    rw [div_eq_iff (by positivity)]
    push_cast
    rw [← pow_add, Nat.sub_add_cancel hk]
  have hproduct : f * 10 ^ (p - k) ≤ 2 ^ 53 := by
    have hle : f * 10 ^ (p - k) ≤ 10 ^ k * 10 ^ (p - k) := Nat.mul_le_mul_right _ hf.le
    rw [← pow_add, Nat.add_sub_cancel' hk] at hle
    exact hle.trans (hpow hp)
  rw [fractionValue, binary64_natCast (hpow hp), hdiv, binary64_natCast (hpow (by omega)),
    binary64_natCast (hf.le.trans (hpow (by omega))), ← Nat.cast_mul, binary64_natCast hproduct,
    Int.floor_natCast, Int.toNat_natCast]

/-- The text spells `r / 10 ^ prec`: nothing, or a point and some digits. -/
def SpellsFraction (prec r : ℕ) (text : List Char) : Prop :=
  (text = [] ∧ r = 0) ∨
    ∃ ds, text = '.' :: ds ∧ ds ≠ [] ∧ (∀ c ∈ ds, c.isDigit) ∧ ds.length ≤ prec ∧
      0 < Nat.ofDigitChars 10 ds 0 ∧ Nat.ofDigitChars 10 ds 0 * 10 ^ (prec - ds.length) = r

theorem fmtFracLoop_spec {v prec n m : ℕ} (hm : n + m = prec) (tail : List Char)
    (hdigits : ∀ c ∈ tail, c.isDigit) (hlength : tail.length ≤ m)
    (hpos : tail ≠ [] → 0 < Nat.ofDigitChars 10 tail 0)
    (hvalue : Nat.ofDigitChars 10 tail 0 * 10 ^ (m - tail.length) = v % 10 ^ m) :
    ∃ text, fmtFracLoop n (tail ≠ []) (v / 10 ^ m) tail = (text, v / 10 ^ prec) ∧
      SpellsFraction prec (v % 10 ^ prec) text := by
  induction n generalizing m tail with
  | zero =>
    rw [Nat.zero_add] at hm
    subst hm
    cases tail with
    | nil =>
      refine ⟨[], rfl, .inl ⟨rfl, ?_⟩⟩
      rw [← hvalue]
      simp
    | cons c cs => exact ⟨_, rfl, .inr ⟨_, rfl, List.cons_ne_nil _ _, hdigits, hlength, hpos (List.cons_ne_nil _ _), hvalue⟩⟩
  | succ n ih =>
    have hdiv : v / 10 ^ m / 10 = v / 10 ^ (m + 1) := by rw [Nat.div_div_eq_div_mul, pow_succ]
    have hmod : v % 10 ^ (m + 1) = v / 10 ^ m % 10 * 10 ^ m + v % 10 ^ m := by
      rw [pow_succ, Nat.mod_mul]
      ring
    have hdigit : v / 10 ^ m % 10 < 10 := Nat.mod_lt _ (by decide)
    rw [fmtFracLoop, hdiv]
    by_cases hprint : tail ≠ [] ∨ v / 10 ^ m % 10 ≠ 0
    · have hcons : (decide (tail ≠ []) || decide (v / 10 ^ m % 10 ≠ 0)) = true := by simpa using hprint
      have hread : Nat.ofDigitChars 10 ((v / 10 ^ m % 10).digitChar :: tail) 0 =
          10 ^ tail.length * (v / 10 ^ m % 10) + Nat.ofDigitChars 10 tail 0 := by
        rw [Nat.ofDigitChars_cons_digitChar_of_lt_ten hdigit, Nat.mul_zero, Nat.zero_add,
          Nat.ofDigitChars_eq_ofDigitChars_zero]
      rw [hcons, if_pos rfl]
      have hnext := ih (m := m + 1) (by omega) ((v / 10 ^ m % 10).digitChar :: tail) ?_ ?_ ?_ ?_
      · simpa using hnext
      · intro c hc
        rcases List.mem_cons.mp hc with rfl | hc
        · rw [Nat.isDigit_digitChar]
          exact decide_eq_true hdigit
        · exact hdigits c hc
      · simp only [List.length_cons]
        omega
      · intro _
        rw [hread]
        rcases hprint with htail | hne
        · exact Nat.add_pos_right _ (hpos htail)
        · have := Nat.pos_of_ne_zero hne
          positivity
      · rw [hread, hmod, ← hvalue, List.length_cons, Nat.add_sub_add_right, Nat.add_mul]
        congr 1
        have hsplit : 10 ^ m = 10 ^ tail.length * 10 ^ (m - tail.length) := by
          rw [← pow_add, Nat.add_sub_cancel' hlength]
        rw [hsplit]
        ring
    · push Not at hprint
      obtain ⟨rfl, hzero⟩ := hprint
      have hnone : (decide (([] : List Char) ≠ []) || decide (v / 10 ^ m % 10 ≠ 0)) = false := by simp [hzero]
      rw [hnone, if_neg Bool.false_ne_true]
      have hnext := ih (m := m + 1) (by omega) [] hdigits (Nat.zero_le _) hpos (by
        rw [hmod, hzero, ← hvalue]
        simp)
      simpa using hnext

theorem fmtFrac_spec (v prec : ℕ) :
    ∃ text, fmtFrac v prec = (text, v / 10 ^ prec) ∧ SpellsFraction prec (v % 10 ^ prec) text := by
  have h := fmtFracLoop_spec (v := v) (n := prec) (m := 0) rfl []
    (List.forall_mem_nil _) le_rfl (absurd rfl) (by simp [Nat.mod_one])
  simpa [fmtFrac] using h

theorem not_isDigit_of_isUnitChar {c : Char} (h : isUnitChar c) : ¬ c.isDigit := by
  simp only [isUnitChar, Bool.not_eq_true', Bool.or_eq_false_iff] at h
  simp [h.2]

theorem isDigit_fmtInt {v : ℕ} {c : Char} (h : c ∈ fmtInt v) : c.isDigit :=
  Nat.isDigit_of_mem_toDigits (by decide) (by decide) h

theorem fmtInt_ne_nil (v : ℕ) : fmtInt v ≠ [] := by
  rw [fmtInt]
  exact Nat.toDigits_ne_nil

/-- The unit is read up to the next number. -/
theorem span_unit {u rest : List Char} (hu : ∀ c ∈ u, isUnitChar c)
    (hrest : ∀ c ∈ rest.head?, ¬ isUnitChar c) :
    (u ++ rest).takeWhile isUnitChar = u ∧ (u ++ rest).dropWhile isUnitChar = rest := by
  have hstop : rest.takeWhile isUnitChar = [] ∧ rest.dropWhile isUnitChar = rest := by
    cases rest with
    | nil => exact ⟨rfl, rfl⟩
    | cons c cs =>
      have hc : isUnitChar c = false := by simpa using hrest c rfl
      exact ⟨List.takeWhile_cons_of_neg (by simp [hc]), List.dropWhile_cons_of_neg (by simp [hc])⟩
  rw [List.takeWhile_append_of_pos hu, List.dropWhile_append_of_pos hu, hstop.1, hstop.2, List.append_nil]
  exact ⟨rfl, rfl⟩

theorem parseFraction_of_spelling {prec r : ℕ} {text rest : List Char} (hprec : prec ≤ 9)
    (htext : SpellsFraction prec r text) (hr : r < 10 ^ prec) (hrest : ∀ c ∈ rest.head?, isUnitChar c) :
    ∃ f scale post, parseFraction (text ++ rest) = (f, scale, rest, post) ∧ (0 < f ↔ 0 < r) ∧
      (0 < r → fractionValue f (10 ^ prec) scale = r) := by
  rcases htext with ⟨rfl, rfl⟩ | ⟨ds, rfl, hne, hds, hlen, hpos, hvalue⟩
  · refine ⟨0, 1, false, ?_, Iff.rfl, fun h => absurd h (Nat.lt_irrefl 0)⟩
    cases rest with
    | nil => rfl
    | cons c cs =>
      have hc : c ≠ '.' := by
        rintro rfl
        exact absurd (hrest '.' rfl) (by decide)
      rw [List.nil_append, parseFraction]
      exact fun cs' h => hc (List.cons.inj h).1
  · have hlt : Nat.ofDigitChars 10 ds 0 < 10 ^ ds.length := by
      have hsplit : 10 ^ prec = 10 ^ ds.length * 10 ^ (prec - ds.length) := by
        rw [← pow_add, Nat.add_sub_cancel' hlen]
      rw [hsplit, ← hvalue] at hr
      exact lt_of_mul_lt_mul_right hr (Nat.zero_le _)
    have hsmall : Nat.ofDigitChars 10 ds 0 < 10 ^ 9 :=
      hlt.trans_le (Nat.pow_le_pow_right (by decide) (hlen.trans hprec))
    have hread := leadingFraction_append (k := 0) (x := 0) hds
      (fun c hc => not_isDigit_of_isUnitChar (hrest c hc)) (by omega) hsmall
    rw [pow_zero, Nat.zero_add] at hread
    refine ⟨Nat.ofDigitChars 10 ds 0, 10 ^ ds.length, decide (rest.length ≠ (ds ++ rest).length), ?_, ?_,
      fun _ => ?_⟩
    · rw [List.cons_append, parseFraction, hread]
    · rw [← hvalue]
      exact iff_of_true hpos (Nat.mul_pos hpos (by positivity))
    · rw [fractionValue_eq hlt hlen hprec, hvalue]

/-- A unit is a number of nanoseconds, spelled without digits and points. -/
theorem unitMap_spec {u : List Char} {unit : ℕ} (h : unitMap u = some unit) :
    u ≠ [] ∧ (∀ c ∈ u, isUnitChar c) ∧ 0 < unit := by
  rw [unitMap] at h
  split_ifs at h with hns hus hms hs hm hh
  · cases h; simp [hns, isUnitChar]
  · cases h; rcases hus with rfl | rfl | rfl <;> simp [isUnitChar]
  · cases h; simp [hms, isUnitChar]
  · cases h; simp [hs, isUnitChar]
  · cases h; simp [hm, isUnitChar]
  · cases h; simp [hh, isUnitChar]

theorem parseComponent_spelling (v : ℕ) {prec r unit : ℕ} {text u rest : List Char} (hprec : prec ≤ 9)
    (htext : SpellsFraction prec r text) (hr : r < 10 ^ prec) (hunit : unitMap u = some unit)
    (hzeros : 0 < r → unit = 10 ^ prec) (hrest : ∀ c ∈ rest.head?, ¬ isUnitChar c)
    (hbound : v * unit + r ≤ 2 ^ 63) :
    parseComponent (fmtInt v ++ text ++ u ++ rest) = some (v * unit + r, rest) := by
  obtain ⟨hu, huc, hpos⟩ := unitMap_spec hunit
  obtain ⟨c, ds, hcd⟩ := List.exists_cons_of_ne_nil (fmtInt_ne_nil v)
  obtain ⟨c', u', hcu⟩ := List.exists_cons_of_ne_nil hu
  have hunitHead : ∀ d ∈ (u ++ rest).head?, isUnitChar d := by
    rw [hcu]
    rintro d ⟨⟩
    exact huc _ (hcu ▸ List.mem_cons_self)
  have hv : v ≤ 2 ^ 63 / unit := by
    rw [Nat.le_div_iff_mul_le hpos]
    omega
  have hvbound : Nat.ofDigitChars 10 (fmtInt v) 0 ≤ 2 ^ 63 := by
    rw [fmtInt, Nat.ofDigitChars_ten_toDigits]
    exact hv.trans (Nat.div_le_self _ _)
  have hhead : (fmtInt v ++ text ++ u ++ rest).head?.any (fun c => c == '.' || c.isDigit) = true := by
    have hdigit : c.isDigit := isDigit_fmtInt (hcd ▸ List.mem_cons_self)
    simp [hcd, hdigit]
  have hint : leadingInt (fmtInt v ++ text ++ u ++ rest) 0 = some (v, text ++ (u ++ rest)) := by
    have h := leadingInt_append (text ++ (u ++ rest)) (fun _ => isDigit_fmtInt) ?_ hvbound
    · rw [fmtInt, Nat.ofDigitChars_ten_toDigits, ← fmtInt] at h
      simpa using h
    · rcases htext with ⟨rfl, -⟩ | ⟨ds, rfl, -⟩
      · intro d hd
        exact not_isDigit_of_isUnitChar (hunitHead d hd)
      · rintro d ⟨⟩
        decide
  obtain ⟨f, scale, post, hfraction, hf, hfvalue⟩ := parseFraction_of_spelling hprec htext hr hunitHead
  have hnumber : parseNumber (fmtInt v ++ text ++ u ++ rest) = some (v, f, scale, u ++ rest) := by
    have hpre : ¬ (text ++ (u ++ rest)).length = (fmtInt v ++ text ++ u ++ rest).length := by
      simp only [hcd, List.length_append, List.length_cons]
      omega
    rw [parseNumber, hint]
    dsimp only
    rw [hfraction]
    dsimp only
    rw [if_neg fun h => hpre h.1]
  have hscale : scaleUnit v f unit scale = some (v * unit + r) := by
    rw [scaleUnit, if_neg (Nat.not_lt.mpr hv)]
    by_cases hzero : 0 < r
    · rw [if_pos (hf.mpr hzero), hzeros hzero, hfvalue hzero]
      rw [hzeros hzero] at hbound
      rw [if_neg (Nat.not_lt.mpr hbound)]
    · rw [if_neg (mt hf.mp hzero), Nat.eq_zero_of_not_pos hzero, Nat.add_zero]
  obtain ⟨hspan, hdrop⟩ := span_unit huc hrest
  rw [parseComponent, if_pos hhead, hnumber]
  dsimp only
  rw [hspan, hunit]
  dsimp only
  rw [hscale, hdrop]
  rfl

theorem parseLoop_of_component {fuel d v : ℕ} {s rest : List Char} (hs : s ≠ [])
    (h : parseComponent s = some (v, rest)) (hbound : d + v ≤ 2 ^ 63) :
    parseLoop (fuel + 1) s d = parseLoop fuel rest (d + v) := by
  cases s with
  | nil => exact absurd rfl hs
  | cons c cs =>
    have hmod : (d + v) % 2 ^ 64 = d + v := Nat.mod_eq_of_lt (by omega)
    rw [parseLoop, h]
    simp only [Option.bind_eq_bind, Option.bind_some]
    rw [hmod, if_neg (Nat.not_lt.mpr hbound)]

theorem parseLoop_nil (fuel d : ℕ) : parseLoop fuel [] d = some d := by
  cases fuel <;> rfl

/-- A spelling of one component. -/
theorem parseLoop_fmtUnit (fuel d u prec : ℕ) {text : List Char} (hprec : prec ≤ 9)
    (hunit : unitMap text = some (10 ^ prec)) (hbound : d + u ≤ 2 ^ 63) : parseLoop (fuel + 1) (fmtUnit u prec text) d = some (d + u) := by
  obtain ⟨frac, hfrac, hspells⟩ := fmtFrac_spec u prec
  have hmod : u % 10 ^ prec < 10 ^ prec := Nat.mod_lt _ (by positivity)
  have hdivmod : u / 10 ^ prec * 10 ^ prec + u % 10 ^ prec = u := Nat.div_add_mod' u _
  have hend : ∀ c ∈ ([] : List Char).head?, ¬ isUnitChar c := by simp
  have hread := parseComponent_spelling (u / 10 ^ prec) hprec hspells hmod hunit (fun _ => rfl) hend
    (by omega)
  rw [hdivmod, List.append_nil] at hread
  have hne : fmtInt (u / 10 ^ prec) ++ frac ++ text ≠ [] := by simp [fmtInt_ne_nil]
  rw [fmtUnit, hfrac]
  dsimp only
  rw [parseLoop_of_component hne hread hbound, parseLoop_nil]

theorem parseLoop_whole (fuel d v : ℕ) {unit : ℕ} {u rest : List Char} (hunit : unitMap u = some unit)
    (hrest : ∀ c ∈ rest.head?, ¬ isUnitChar c) (hbound : d + v * unit ≤ 2 ^ 63) :
    parseLoop (fuel + 1) (fmtInt v ++ u ++ rest) d = parseLoop fuel rest (d + v * unit) := by
  have hspells : SpellsFraction 0 0 [] := .inl ⟨rfl, rfl⟩
  have hread := parseComponent_spelling v (by decide) hspells (by decide) hunit (absurd · (Nat.lt_irrefl 0))
    hrest (by omega)
  rw [List.append_nil] at hread
  exact parseLoop_of_component (by simp [fmtInt_ne_nil]) hread hbound

theorem not_isUnitChar_fmtInt (v : ℕ) (rest : List Char) :
    ∀ c ∈ (fmtInt v ++ rest).head?, ¬ isUnitChar c := by
  obtain ⟨c, cs, hc⟩ := List.exists_cons_of_ne_nil (fmtInt_ne_nil v)
  rw [hc]
  rintro d ⟨⟩ hunit
  exact not_isDigit_of_isUnitChar hunit (isDigit_fmtInt (hc ▸ List.mem_cons_self))

theorem parseLoop_seconds (fuel d v : ℕ) {r : ℕ} {frac : List Char} (hspells : SpellsFraction 9 r frac)
    (hr : r < 10 ^ 9) (hbound : d + (v * 10 ^ 9 + r) ≤ 2 ^ 63) :
    parseLoop (fuel + 1) (fmtInt v ++ frac ++ ['s']) d = some (d + (v * 10 ^ 9 + r)) := by
  have hend : ∀ c ∈ ([] : List Char).head?, ¬ isUnitChar c := by simp
  have hunit : unitMap ['s'] = some (10 ^ 9) := rfl
  have hread := parseComponent_spelling v le_rfl hspells hr hunit (fun _ => rfl) hend (by omega)
  rw [List.append_nil] at hread
  rw [parseLoop_of_component (by simp) hread hbound, parseLoop_nil]

/-- Three components are enough to read any spelling back. -/
theorem parseLoop_format (fuel : ℕ) {u : ℕ} (h : u ≤ 2 ^ 63) : parseLoop (fuel + 3) (format u) 0 = some u := by
  rw [format]
  split_ifs with hsmall hzero hnanos hmicros
  · subst hzero
    exact parseLoop_fmtUnit (fuel + 2) 0 0 9 le_rfl rfl (by decide)
  · rw [parseLoop_fmtUnit (fuel + 2) 0 u 0 (by decide) rfl (by omega), Nat.zero_add]
  · rw [parseLoop_fmtUnit (fuel + 2) 0 u 3 (by decide) rfl (by omega), Nat.zero_add]
  · rw [parseLoop_fmtUnit (fuel + 2) 0 u 6 (by decide) rfl (by omega), Nat.zero_add]
  · obtain ⟨frac, hfrac, hspells⟩ := fmtFrac_spec u 9
    have hmod : u % 10 ^ 9 < 10 ^ 9 := Nat.mod_lt _ (by positivity)
    have hdigit : ∀ v (rest : List Char), ∀ c ∈ (fmtInt v ++ ['m'] ++ rest).head?, ¬ isUnitChar c := fun v rest => by
      rw [List.append_assoc]
      exact not_isUnitChar_fmtInt _ _
    have hdigit' : ∀ v, ∀ c ∈ (fmtInt v ++ frac ++ ['s']).head?, ¬ isUnitChar c := fun v => by
      rw [List.append_assoc]
      exact not_isUnitChar_fmtInt _ _
    rw [hfrac]
    dsimp only
    split_ifs with hminutes hhours
    · rw [parseLoop_whole (fuel + 2) 0 (u / 10 ^ 9 / 60 / 60) rfl (hdigit _ _) (by omega),
        parseLoop_whole (fuel + 1) _ (u / 10 ^ 9 / 60 % 60) rfl (hdigit' _) (by omega),
        parseLoop_seconds fuel _ _ hspells hmod (by omega), Option.some.injEq]
      omega
    · rw [parseLoop_whole (fuel + 2) _ (u / 10 ^ 9 / 60 % 60) rfl (hdigit' _) (by omega),
        parseLoop_seconds (fuel + 1) _ _ hspells hmod (by omega), Option.some.injEq]
      omega
    · rw [parseLoop_seconds (fuel + 2) _ _ hspells hmod (by omega), Option.some.injEq]
      omega

/-- A spelling starts with a digit and ends in the letter s. -/
theorem format_shape (u : ℕ) :
    ∃ front, format u = front ++ ['s'] ∧ ∃ c cs, front = c :: cs ∧ c.isDigit := by
  have hdigit : ∀ v (rest : List Char), ∃ c cs, fmtInt v ++ rest = c :: cs ∧ c.isDigit := fun v rest => by
    obtain ⟨c, cs, hc⟩ := List.exists_cons_of_ne_nil (fmtInt_ne_nil v)
    exact ⟨c, cs ++ rest, by rw [hc]; rfl, isDigit_fmtInt (hc ▸ List.mem_cons_self)⟩
  have hunit : ∀ v prec (unit : List Char), ∃ front, fmtUnit v prec (unit ++ ['s']) = front ++ ['s'] ∧
      ∃ c cs, front = c :: cs ∧ c.isDigit := fun v prec unit => by
    obtain ⟨frac, hfrac, -⟩ := fmtFrac_spec v prec
    refine ⟨fmtInt (v / 10 ^ prec) ++ (frac ++ unit), ?_, hdigit _ _⟩
    rw [fmtUnit, hfrac]
    simp
  rw [format]
  split_ifs with hsmall hzero hnanos hmicros
  · exact ⟨['0'], rfl, '0', [], rfl, by decide⟩
  · exact hunit u 0 ['n']
  · exact hunit u 3 ['µ']
  · exact hunit u 6 ['m']
  · obtain ⟨frac, hfrac, -⟩ := fmtFrac_spec u 9
    rw [hfrac]
    dsimp only
    split_ifs with hminutes hhours
    · refine ⟨fmtInt (u / 10 ^ 9 / 60 / 60) ++
        (['h'] ++ (fmtInt (u / 10 ^ 9 / 60 % 60) ++ ['m'] ++ (fmtInt (u / 10 ^ 9 % 60) ++ frac))), ?_, hdigit _ _⟩
      simp
    · refine ⟨fmtInt (u / 10 ^ 9 / 60 % 60) ++ (['m'] ++ (fmtInt (u / 10 ^ 9 % 60) ++ frac)), ?_, hdigit _ _⟩
      simp
    · exact ⟨_, rfl, hdigit _ _⟩

theorem parseUnsigned_format {u : ℕ} (h : u ≤ 2 ^ 63) : parseUnsigned (format u) = some u := by
  obtain ⟨front, hshape, c, cs, hfront, -⟩ := format_shape u
  have hlength : (format u).length + 1 = cs.length + 3 := by
    rw [hshape, hfront]
    simp
  have hnot : format u ≠ ['0'] ∧ format u ≠ [] := by
    rw [hshape, hfront]
    simp
  rw [parseUnsigned, if_neg hnot.1, if_neg hnot.2, hlength, parseLoop_format cs.length h]

theorem natAbs_le (d : Duration) : d.nanos.natAbs ≤ 2 ^ 63 := by
  have := d.lower
  have := d.upper
  omega

/-- A text that starts with a digit has no sign. -/
theorem parse_of_isDigit {c : Char} (hc : c.isDigit) {cs : List Char} {n : ℕ}
    (h : parseUnsigned (c :: cs) = some n) : parse (String.ofList (c :: cs)) = ofInt? n := by
  rw [parse, String.toList_ofList]
  split
  · rename_i heq
    cases heq
    exact absurd hc (by decide)
  · rename_i heq
    cases heq
    exact absurd hc (by decide)
  · rw [h, Option.bind_eq_bind, Option.bind_some]

theorem parse_whole {v unit : ℕ} {u : List Char} (hunit : unitMap u = some unit) (h : v * unit ≤ 2 ^ 63) :
    parse (String.ofList (fmtInt v ++ u)) = ofInt? (v * unit : ℕ) := by
  obtain ⟨c, cs, hcs⟩ := List.exists_cons_of_ne_nil (fmtInt_ne_nil v)
  have hc : c.isDigit := isDigit_fmtInt (hcs ▸ List.mem_cons_self)
  have hend : ∀ c ∈ ([] : List Char).head?, ¬ isUnitChar c := by simp
  have hloop := parseLoop_whole (fmtInt v ++ u).length 0 v hunit hend (by omega)
  rw [List.append_nil, parseLoop_nil, Nat.zero_add] at hloop
  have hunsigned : parseUnsigned (fmtInt v ++ u) = some (v * unit) := by
    have hnot : fmtInt v ++ u ≠ ['0'] ∧ fmtInt v ++ u ≠ [] := by
      simp [hcs, (unitMap_spec hunit).1]
    rw [parseUnsigned, if_neg hnot.1, if_neg hnot.2, hloop]
  rw [hcs, List.cons_append] at hunsigned ⊢
  exact parse_of_isDigit hc hunsigned

theorem toText_shape (d : Duration) :
    ∃ c cs, d.toText = String.ofList (c :: cs ++ ['s']) ∧ (c.isDigit ∨ c = '-') := by
  obtain ⟨front, hshape, c, cs, hfront, hc⟩ := format_shape d.nanos.natAbs
  rw [toText, hshape]
  split_ifs
  · exact ⟨'-', front, rfl, .inr rfl⟩
  · exact ⟨c, cs, by rw [hfront], .inl hc⟩

/-- The spelling of a duration is read back as the duration. -/
theorem parse_toText (d : Duration) : parse d.toText = some d := by
  have hread := parseUnsigned_format (natAbs_le d)
  rw [toText]
  split_ifs with hneg
  · have habs : -(d.nanos.natAbs : ℤ) = d.nanos := by omega
    rw [parse, String.toList_ofList]
    change ((parseUnsigned (format d.nanos.natAbs)).bind fun u => ofInt? (-(u : ℤ))) = some d
    rw [hread, Option.bind_some, habs, ofInt?_nanos]
  · have habs : (d.nanos.natAbs : ℤ) = d.nanos := by omega
    obtain ⟨front, hshape, c, cs, hfront, hc⟩ := format_shape d.nanos.natAbs
    rw [hshape, hfront, List.cons_append] at hread ⊢
    rw [parse_of_isDigit hc hread, habs, ofInt?_nanos]

/-! ### Bare numbers -/

theorem leadingInt_digits {ds : List Char} (hds : ∀ c ∈ ds, c.isDigit) (x : ℕ) :
    ∀ r ∈ leadingInt ds x, r.2 = [] := by
  induction ds generalizing x with
  | nil => simp [leadingInt]
  | cons c ds ih =>
    rw [List.forall_mem_cons] at hds
    rw [leadingInt, if_pos hds.1]
    split
    · simp
    · dsimp only
      split
      · simp
      · exact ih hds.2 _

theorem parseComponent_digits {ds : List Char} (hds : ∀ c ∈ ds, c.isDigit) : parseComponent ds = none := by
  have hread := leadingInt_digits hds 0
  have hunit : unitMap (List.takeWhile isUnitChar []) = none := by decide
  rw [parseComponent, parseNumber]
  cases hlead : leadingInt ds 0 with
  | none => simp
  | some r =>
    obtain ⟨v, rest⟩ := r
    obtain rfl : rest = [] := hread _ hlead
    dsimp only [parseFraction]
    split_ifs
    · rfl
    · simp only [hunit]
    · rfl

/-- Only zero may lack a unit. -/
theorem parseUnsigned_digits {ds : List Char} (hds : ∀ c ∈ ds, c.isDigit) :
    parseUnsigned ds = if ds = ['0'] then some 0 else none := by
  rw [parseUnsigned]
  split_ifs with hzero hnil
  · rfl
  · rfl
  · cases ds with
    | nil => exact absurd rfl hnil
    | cons c cs => simp [parseLoop, parseComponent_digits hds]

theorem atoi_number {ds : List Char} {sign : ℤ → ℤ} {n : ℤ} (h : atoi.number ds sign = some n) :
    (∀ c ∈ ds, c.isDigit) ∧ n = sign (Nat.ofDigitChars 10 ds 0 : ℕ) := by
  rw [atoi.number] at h
  split_ifs at h with hn
  exact ⟨List.all_eq_true.mp hn.2.1, (Option.some.inj h).symm⟩

theorem nanos_of_ofInt? {m : ℤ} {d : Duration} (h : ofInt? m = some d) : d.nanos = m := by
  rw [ofInt?] at h
  split_ifs at h
  cases h
  rfl

theorem nanos_of_digits {ds : List Char} (sign : ℤ → ℤ) {n : ℤ} {d : Duration} (hsign : sign 0 = 0)
    (h : atoi.number ds sign = some n) (hd : ((parseUnsigned ds).bind fun u => ofInt? (sign u)) = some d) :
    d.nanos = 0 ∧ n = 0 := by
  obtain ⟨hds, rfl⟩ := atoi_number h
  rw [parseUnsigned_digits hds] at hd
  split_ifs at hd with hzero
  · rw [Option.bind_some, Nat.cast_zero, hsign] at hd
    rw [hzero, nanos_of_ofInt? hd]
    exact ⟨rfl, hsign⟩
  · cases hd

/-- A decimal integer is no duration, unless it is zero. -/
theorem parse_of_atoi {s : String} {n : ℤ} (h : atoi s = some n) : ∀ d ∈ parse s, d.nanos = 0 ∧ n = 0 := by
  intro d hd
  rw [Option.mem_def, parse] at hd
  rw [atoi] at h
  split at h
  · rename_i heq
    rw [heq] at hd
    exact nanos_of_digits (fun n => -n) neg_zero h hd
  · rename_i heq
    rw [heq] at hd
    exact nanos_of_digits id rfl h hd
  · rename_i hminus hplus
    split at hd
    · rename_i heq
      exact absurd heq (hminus _)
    · rename_i heq
      exact absurd heq (hplus _)
    · exact nanos_of_digits id rfl h hd

end Duration

end CyberstalkMe.Go
