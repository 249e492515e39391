import CyberstalkMe.Webui.Rules
import CyberstalkMe.Foundations.Trim

/-! # Pasted connection settings

`parseRegisterSnippet` takes the connection keys out of the text that
`register-device` prints.
-/
namespace CyberstalkMe.Webui

open Foundations

/-- The connection keys a pasted snippet can carry. -/
structure ParsedConnection where
  serverURL : Option String := none
  deviceID : Option String := none
  token : Option String := none
  interval : Option String := none
deriving DecidableEq, Repr

def connectionKeys : List String := ["server_url", "device_id", "token", "interval"]

/-- `found[key] = value`. -/
def ParsedConnection.set (found : ParsedConnection) (key value : String) : ParsedConnection :=
  if key = "server_url" then { found with serverURL := some value }
  else if key = "device_id" then { found with deviceID := some value }
  else if key = "token" then { found with token := some value }
  else { found with interval := some value }

/-- `text.split(/\r?\n/)`. -/
def splitLines : List Char → List (List Char)
  | [] => [[]]
  | '\r' :: '\n' :: cs => [] :: splitLines cs
  | '\n' :: cs => [] :: splitLines cs
  | c :: cs =>
    match splitLines cs with
    | [] => [[c]]
    | line :: lines => (c :: line) :: lines

/-- The characters that `.` does not match. -/
def isLineTerminator (c : Char) : Bool := c.toNat ∈ [0x0a, 0x0d, 0x2028, 0x2029]

def isQuote (c : Char) : Bool := c ∈ "\"'".toList

/-- The group of `/^(["'])(.*)\1$/`. -/
def quoted? : List Char → Option (List Char)
  | [] => none
  | q :: rest =>
    if isQuote q ∧ rest.getLast? = some q ∧ ¬ rest.dropLast.any isLineTerminator then some rest.dropLast
    else none

/-- The text in front of the first match of `/\s#/`, or all of it. `\s` is what `trim` removes. -/
def beforeComment : List Char → List Char
  | [] => []
  | [c] => [c]
  | c :: d :: cs => if isTrimmed c ∧ d = '#' then [] else c :: beforeComment (d :: cs)

/-- Remove the quotes around a value, or a comment behind it. -/
def unquote (value : List Char) : List Char :=
  match quoted? value with
  | some inner => inner
  | none => trimEnds isTrimmed (beforeComment value)

/-- One turn of the loop over the lines. -/
def readLine (lower : String → String) (found : ParsedConnection) (rawLine : List Char) : ParsedConnection :=
  let line := trimEnds isTrimmed rawLine
  if line = [] ∨ line.head? = some '#' then found
  else if ':' ∉ line then found
  else
    let key := lower (String.ofList (trimEnds isTrimmed (line.takeWhile (· ≠ ':'))))
    if key ∉ connectionKeys then found
    else
      let value := unquote (trimEnds isTrimmed ((line.dropWhile (· ≠ ':')).drop 1))
      if value = [] then found else found.set key (String.ofList value)

/-- `lower` is `String.prototype.toLowerCase`. -/
def parseRegisterSnippet (lower : String → String) (text : String) : Option ParsedConnection :=
  let found := (splitLines text.toList).foldl (readLine lower) {}
  if found = {} then none else some found

/-! ### Lines -/

/-- A character that starts no line break starts a line. -/
theorem splitLines_cons {c : Char} {cs : List Char} (hnewline : c ≠ '\n') (hreturn : c = '\r' → cs.head? ≠ some '\n') :
    splitLines (c :: cs) = (c :: (splitLines cs).headD []) :: (splitLines cs).tail := by
  rw [splitLines]
  · cases splitLines cs with
    | nil => rfl
    | cons line lines => rfl
  · rintro cs' rfl rfl
    exact hreturn rfl rfl
  · exact hnewline

theorem splitLines_noNewline (text : List Char) : ∀ line ∈ splitLines text, '\n' ∉ line := by
  fun_induction splitLines text with
  | case1 => simp
  | case2 cs ih => simpa using ih
  | case3 cs ih => simpa using ih
  | case4 c cs hreturn hnewline hnil ih => simpa using fun h => hnewline h.symm
  | case5 c cs hreturn hnewline line lines hlines ih =>
    rw [hlines, List.forall_mem_cons] at ih
    rw [List.forall_mem_cons, List.mem_cons, not_or]
    exact ⟨⟨fun h => hnewline h.symm, ih.1⟩, ih.2⟩

/-- A carriage return at the end of a line belongs to the line break. -/
def stripReturn (line : List Char) : List Char :=
  if line.getLast? = some '\r' then line.dropLast else line

theorem stripReturn_cons {c : Char} {cs : List Char} (h : c ≠ '\r' ∨ cs ≠ []) :
    stripReturn (c :: cs) = c :: stripReturn cs := by
  cases cs with
  | nil => simp_all [stripReturn]
  | cons d cs =>
    simp only [stripReturn, List.getLast?_cons_cons, List.dropLast_cons_cons]
    split_ifs <;> rfl

theorem splitLines_append {line : List Char} (h : '\n' ∉ line) (rest : List Char) :
    splitLines (line ++ '\n' :: rest) = stripReturn line :: splitLines rest := by
  induction line with
  | nil => simp [splitLines, stripReturn]
  | cons c cs ih =>
    rw [List.mem_cons, not_or] at h
    by_cases hreturn : c ≠ '\r' ∨ cs ≠ []
    · rw [List.cons_append, splitLines_cons (Ne.symm h.1), ih h.2, stripReturn_cons hreturn]
      · rfl
      · rintro rfl hhead
        cases cs with
        | nil => simp at hreturn
        | cons d cs =>
          cases hhead
          simp at h
    · simp only [not_or, not_not] at hreturn
      obtain ⟨rfl, rfl⟩ := hreturn
      simp [splitLines, stripReturn]

theorem trimEnds_stripReturn (line : List Char) : trimEnds isTrimmed (stripReturn line) = trimEnds isTrimmed line := by
  rw [stripReturn]
  split_ifs with h
  · obtain ⟨init, rfl⟩ := List.getLast?_eq_some_iff.mp h
    rw [List.dropLast_concat, trimEnds_concat (by decide)]
  · rfl

theorem readLine_stripReturn (lower : String → String) (found : ParsedConnection) (line : List Char) :
    readLine lower found (stripReturn line) = readLine lower found line := by
  simp only [readLine, trimEnds_stripReturn]

theorem readLine_nil (lower : String → String) (found : ParsedConnection) : readLine lower found [] = found := rfl

theorem foldl_splitLines {lines : List (List Char)} (h : ∀ line ∈ lines, '\n' ∉ line) (lower : String → String)
    (found : ParsedConnection) :
    (splitLines (lines.flatMap fun line => line ++ ['\n'])).foldl (readLine lower) found =
      lines.foldl (readLine lower) found := by
  induction lines generalizing found with
  | nil => rfl
  | cons line lines ih =>
    rw [List.forall_mem_cons] at h
    rw [List.flatMap_cons, List.append_assoc, List.singleton_append, splitLines_append h.1, List.foldl_cons,
      List.foldl_cons, readLine_stripReturn, ih h.2]

/-! ### Values -/

theorem mem_of_mem_quoted? {value inner : List Char} (h : quoted? value = some inner) {c : Char} (hc : c ∈ inner) :
    c ∈ value := by
  cases value with
  | nil => cases h
  | cons q rest =>
    rw [quoted?] at h
    split_ifs at h
    cases h
    exact List.mem_cons_of_mem q (List.dropLast_subset rest hc)

theorem beforeComment_initial (value : List Char) : beforeComment value <+: value := by
  fun_induction beforeComment value with
  | case1 => exact List.prefix_rfl
  | case2 c => exact List.prefix_rfl
  | case3 c d cs h => exact List.nil_prefix
  | case4 c d cs h ih => exact List.cons_prefix_cons.mpr ⟨rfl, ih⟩

theorem mem_of_mem_unquote {value : List Char} {c : Char} (h : c ∈ unquote value) : c ∈ value := by
  rw [unquote] at h
  split at h
  · rename_i inner hinner
    exact mem_of_mem_quoted? hinner h
  · exact (beforeComment_initial value).subset (mem_of_mem_trimEnds h)

theorem length_of_quoted? {value inner : List Char} (h : quoted? value = some inner) :
    inner.length + 2 = value.length := by
  cases value with
  | nil => cases h
  | cons q rest =>
    rw [quoted?] at h
    split_ifs at h with hquoted
    cases h
    obtain ⟨init, rfl⟩ := List.getLast?_eq_some_iff.mp hquoted.2.1
    simp

/-- A value that no pair of quotes is taken from. -/
def Unquoted (value : List Char) : Prop :=
  ∀ q inner, isQuote q → value = q :: (inner ++ [q]) → ∃ c ∈ inner, isLineTerminator c

/-- A value that no comment is taken from. -/
def Uncommented (value : List Char) : Prop :=
  ∀ init c rest, value = init ++ c :: '#' :: rest → ¬ isTrimmed c

theorem quoted?_eq_none_iff {value : List Char} : quoted? value = none ↔ Unquoted value := by
  cases value with
  | nil => simp [quoted?, Unquoted]
  | cons q rest =>
    rw [quoted?, Unquoted]
    constructor
    · rintro h q' inner hq hvalue
      obtain ⟨rfl, rfl⟩ := List.cons.inj hvalue
      by_contra hnone
      rw [if_pos] at h
      · cases h
      · refine ⟨hq, by simp, ?_⟩
        rw [List.dropLast_concat, List.any_eq_true]
        exact hnone
    · intro h
      rw [if_neg]
      rintro ⟨hq, hlast, hinner⟩
      obtain ⟨init, rfl⟩ := List.getLast?_eq_some_iff.mp hlast
      rw [List.dropLast_concat, List.any_eq_true] at hinner
      exact hinner (h q init hq rfl)

theorem uncommented_cons_cons {c d : Char} {cs : List Char} :
    Uncommented (c :: d :: cs) ↔ ¬ (isTrimmed c ∧ d = '#') ∧ Uncommented (d :: cs) := by
  constructor
  · intro h
    constructor
    · rintro ⟨hc, rfl⟩
      exact h [] c cs rfl hc
    · intro init c' rest hvalue
      exact h (c :: init) c' rest (by rw [hvalue]; rfl)
  · rintro ⟨hfirst, h⟩ init c' rest hvalue hc'
    cases init with
    | nil =>
      cases hvalue
      exact hfirst ⟨hc', rfl⟩
    | cons a init =>
      rw [List.cons_append, List.cons.injEq] at hvalue
      exact h init c' rest hvalue.2 hc'

theorem beforeComment_eq_self_iff {value : List Char} : beforeComment value = value ↔ Uncommented value := by
  fun_induction beforeComment value with
  | case1 => simp [Uncommented]
  | case2 c =>
    refine iff_of_true rfl ?_
    intro init c' rest hvalue
    have hlength := congrArg List.length hvalue
    simp at hlength
    omega
  | case3 c d cs h =>
    rw [uncommented_cons_cons]
    simp [h]
  | case4 c d cs h ih =>
    rw [uncommented_cons_cons, List.cons_inj_right, ih]
    exact (and_iff_right h).symm

theorem unquote_trimEnds_eq_self_iff {value : List Char} :
    unquote (trimEnds isTrimmed value) = value ↔
      Trimmed isTrimmed value ∧ Unquoted value ∧ Uncommented value := by
  rw [← quoted?_eq_none_iff, ← beforeComment_eq_self_iff]
  have hle : (trimEnds isTrimmed value).length ≤ value.length :=
    ((List.rdropWhile_prefix _ _).length_le).trans (List.dropWhile_sublist _).length_le
  constructor
  · intro h
    rw [unquote] at h
    split at h
    · rename_i inner hquoted
      have := length_of_quoted? hquoted
      rw [h] at this
      omega
    · rename_i hquoted
      have htrimmed : Trimmed isTrimmed value := h ▸ trimmed_trimEnds isTrimmed _
      rw [htrimmed.trimEnds_eq] at h hquoted
      refine ⟨htrimmed, hquoted, (beforeComment_initial value).eq_of_length_le ?_⟩
      calc value.length = (trimEnds isTrimmed (beforeComment value)).length := by rw [h]
        _ ≤ (beforeComment value).length :=
          ((List.rdropWhile_prefix _ _).length_le).trans (List.dropWhile_sublist _).length_le
  · rintro ⟨htrimmed, hquoted, hcomment⟩
    rw [htrimmed.trimEnds_eq, unquote, hquoted]
    dsimp only
    rw [hcomment, htrimmed.trimEnds_eq]

/-- A value that is read back from behind its key. -/
structure PlainValue (value : List Char) : Prop where
  ne_nil : value ≠ []
  oneLine : '\n' ∉ value
  trimmed : Trimmed isTrimmed value
  unquoted : Unquoted value
  uncommented : Uncommented value

theorem plainValue_of_forall {value : List Char} (hne : value ≠ [])
    (h : ∀ c ∈ value, isTrimmed c = false ∧ isQuote c = false ∧ c ≠ '#' ∧ c ≠ '\n') : PlainValue value where
  ne_nil := hne
  oneLine hmem := (h _ hmem).2.2.2 rfl
  trimmed := by
    constructor
    · intro c hc
      simp [(h c (List.mem_of_head? hc)).1]
    · intro c hc
      simp [(h c (List.mem_of_getLast? hc)).1]
  unquoted := by
    rintro q inner hq rfl
    simp [(h q List.mem_cons_self).2.1] at hq
  uncommented := by
    rintro init c rest rfl
    exact absurd rfl (h '#' (by simp)).2.2.1

theorem plainValue_iff {value : List Char} (h : '\n' ∉ value) :
    PlainValue value ↔ value ≠ [] ∧ unquote (trimEnds isTrimmed value) = value := by
  rw [unquote_trimEnds_eq_self_iff]
  constructor
  · intro hplain
    exact ⟨hplain.ne_nil, hplain.trimmed, hplain.unquoted, hplain.uncommented⟩
  · rintro ⟨hne, htrimmed, hunquoted, huncommented⟩
    exact ⟨hne, h, htrimmed, hunquoted, huncommented⟩

def ParsedConnection.OneLine (found : ParsedConnection) : Prop :=
  ∀ value ∈ [found.serverURL, found.deviceID, found.token, found.interval], ∀ v ∈ value, '\n' ∉ v.toList

theorem oneLine_set {found : ParsedConnection} (h : found.OneLine) (key : String) {value : String}
    (hvalue : '\n' ∉ value.toList) : (found.set key value).OneLine := by
  simp only [ParsedConnection.OneLine, List.forall_mem_cons] at h ⊢
  simp only [ParsedConnection.set]
  split_ifs <;> simp_all

theorem oneLine_readLine (lower : String → String) {found : ParsedConnection} (h : found.OneLine) {line : List Char}
    (hline : '\n' ∉ line) : (readLine lower found line).OneLine := by
  have hvalue : '\n' ∉ unquote (trimEnds isTrimmed (((trimEnds isTrimmed line).dropWhile (· ≠ ':')).drop 1)) := by
    intro hmem
    have hmem := List.mem_of_mem_drop (mem_of_mem_trimEnds (mem_of_mem_unquote hmem))
    exact hline (mem_of_mem_trimEnds ((List.dropWhile_sublist _).subset hmem))
  rw [readLine]
  split
  · exact h
  · split
    · exact h
    · dsimp only
      split
      · exact h
      · split
        · exact h
        · exact oneLine_set h _ (by rwa [String.toList_ofList])

theorem oneLine_parseRegisterSnippet {lower : String → String} {text : String} {found : ParsedConnection}
    (h : parseRegisterSnippet lower text = some found) : found.OneLine := by
  have hfold : ∀ (lines : List (List Char)) (start : ParsedConnection), start.OneLine →
      (∀ line ∈ lines, '\n' ∉ line) → (lines.foldl (readLine lower) start).OneLine := by
    intro lines
    induction lines with
    | nil => exact fun start hstart _ => hstart
    | cons line lines ih =>
      intro start hstart hlines
      rw [List.forall_mem_cons] at hlines
      exact ih _ (oneLine_readLine lower hstart hlines.1) hlines.2
  rw [parseRegisterSnippet] at h
  split_ifs at h
  cases h
  exact hfold _ {} (by simp [ParsedConnection.OneLine]) (splitLines_noNewline _)

/-- A key in front of a value is recognized, whatever the value is. -/
theorem readLine_entry {lower : String → String} {key : List Char} (hcolon : ':' ∉ key) (htrimmed : Trimmed isTrimmed key)
    (hcomment : key.head? ≠ some '#') (hkey : lower (String.ofList key) ∈ connectionKeys) (hne : key ≠ [])
    (found : ParsedConnection) (v : List Char) :
    readLine lower found (' ' :: ' ' :: key ++ ':' :: ' ' :: v) =
      let value := unquote (trimEnds isTrimmed v)
      if value = [] then found else found.set (lower (String.ofList key)) (String.ofList value) := by
  have hchars : ∀ c ∈ key, decide (c ≠ ':') = true := fun c hc => decide_eq_true (ne_of_mem_of_not_mem hc hcolon)
  have hhead : ∀ rest, (key ++ rest).head? = key.head? := fun rest => List.head?_append_of_ne_nil key hne
  have hline : trimEnds isTrimmed (' ' :: ' ' :: key ++ ':' :: ' ' :: v) =
      key ++ ':' :: (' ' :: v).rdropWhile isTrimmed := by
    rw [List.cons_append, List.cons_append, trimEnds_cons (by decide), trimEnds_cons (by decide), trimEnds,
      dropWhile_of_head (by rw [hhead]; exact htrimmed.head), ← List.singleton_append, ← List.append_assoc,
      rdropWhile_append _, List.append_assoc, List.singleton_append]
    intro c hc
    rw [List.getLast?_concat] at hc
    cases hc
    decide
  have htake : (key ++ ':' :: (' ' :: v).rdropWhile isTrimmed).takeWhile (· ≠ ':') = key := by
    rw [List.takeWhile_append_of_pos hchars, List.takeWhile_cons_of_neg (by decide), List.append_nil]
  have hdrop : (key ++ ':' :: (' ' :: v).rdropWhile isTrimmed).dropWhile (· ≠ ':') =
      ':' :: (' ' :: v).rdropWhile isTrimmed := by
    rw [List.dropWhile_append_of_pos hchars, List.dropWhile_cons_of_neg (by decide)]
  have hvalue : trimEnds isTrimmed ((' ' :: v).rdropWhile isTrimmed) = trimEnds isTrimmed v := by
    rw [trimEnds_rdropWhile, trimEnds_cons (by decide)]
  rw [readLine, hline]
  simp only [htake, hdrop, htrimmed.trimEnds_eq, List.drop_one, List.tail_cons, hvalue]
  rw [if_neg, if_neg (by simp), if_neg (not_not.mpr hkey)]
  rw [hhead]
  simp [hne, hcomment]

end CyberstalkMe.Webui
