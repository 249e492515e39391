import CyberstalkMe.Go.URL

/-! # URLs with an authority

How `url.Parse` splits a text of the form `scheme://rest`, and what a path that
is appended to the text changes.
-/
namespace CyberstalkMe.Go.URL

def isSchemeChar (c : Char) : Bool := isAlphanumeric c || c ∈ ['+', '-', '.']

structure IsScheme (scheme : List Char) : Prop where
  head : ∃ c cs, scheme = c :: cs ∧ c.isAlpha
  chars : ∀ c ∈ scheme, isSchemeChar c

def isControl (c : Char) : Bool := c.toNat < 0x20 || c.toNat = 0x7f

/-! ### The parts of what follows `scheme://` -/

def beforeFragment (rest : List Char) : List Char := rest.takeWhile (· ≠ '#')
def fragmentText (rest : List Char) : List Char := (rest.dropWhile (· ≠ '#')).drop 1
def beforeQuery (rest : List Char) : List Char := (beforeFragment rest).takeWhile (· ≠ '?')
def queryText (rest : List Char) : List Char := ((beforeFragment rest).dropWhile (· ≠ '?')).drop 1
def authorityText (rest : List Char) : List Char := (beforeQuery rest).takeWhile (· ≠ '/')
def pathText (rest : List Char) : List Char := (beforeQuery rest).dropWhile (· ≠ '/')

/-- The URL `scheme://rest`. -/
def ofRest (scheme rest : List Char) : Option URL := do
  let (user, host) ← parseAuthority (authorityText rest)
  let path ← unescape .path (pathText rest)
  let fragment ← unescape .fragment (fragmentText rest)
  some { scheme := scheme.map Char.toLower, user, host, path, rawQuery := queryText rest, fragment }

theorem mem_scheme_ne {scheme : List Char} (h : IsScheme scheme) {c : Char} (hc : isSchemeChar c = false) :
    ∀ x ∈ scheme, x ≠ c := by
  rintro x hx rfl
  have := h.chars x hx
  rw [hc] at this
  cases this

theorem isControl_scheme {scheme : List Char} (h : IsScheme scheme) : ∀ c ∈ scheme, ¬ isControl c := by
  have hlow : ∀ n < 0x80, isControl (Char.ofNat n) → isSchemeChar (Char.ofNat n) = false := by decide +kernel
  intro c hc hcontrol
  have hsmall : c.toNat < 0x80 := by
    simp only [isControl, Bool.or_eq_true, decide_eq_true_eq] at hcontrol
    omega
  have hnot := hlow c.toNat hsmall
  rw [Char.ofNat_toNat, h.chars c hc] at hnot
  cases hnot hcontrol

/-- The text is split where the characters of a scheme end. -/
theorem getScheme_eq (rawURL : List Char) :
    getScheme rawURL = match rawURL.dropWhile isSchemeChar with
      | ':' :: rest =>
        match rawURL.takeWhile isSchemeChar with
        | [] => none
        | c :: cs => some (if c.isAlpha then (c :: cs, rest) else ([], rawURL))
      | _ => some ([], rawURL) := by
  have hdrop : rawURL.drop (rawURL.takeWhile isSchemeChar).length = rawURL.dropWhile isSchemeChar :=
    calc rawURL.drop (rawURL.takeWhile isSchemeChar).length
        = (rawURL.takeWhile isSchemeChar ++ rawURL.dropWhile isSchemeChar).drop
            (rawURL.takeWhile isSchemeChar).length := by rw [List.takeWhile_append_dropWhile]
      _ = rawURL.dropWhile isSchemeChar := List.drop_left
  rw [← hdrop]
  change (match rawURL.drop (rawURL.takeWhile isSchemeChar).length with
    | ':' :: rest => (match rawURL.takeWhile isSchemeChar with
      | [] => none
      | c :: _ => some (if c.isAlpha then (rawURL.takeWhile isSchemeChar, rest) else ([], rawURL)))
    | _ => some ([], rawURL)) = _
  cases rawURL.takeWhile isSchemeChar with
  | nil => rfl
  | cons c cs => rfl

theorem getScheme_append {scheme rest : List Char} (h : IsScheme scheme) :
    getScheme (scheme ++ ':' :: rest) = some (scheme, rest) := by
  obtain ⟨c, cs, hcs, hc⟩ := h.head
  have htake : (scheme ++ ':' :: rest).takeWhile isSchemeChar = scheme := by
    rw [List.takeWhile_append_of_pos h.chars, List.takeWhile_cons_of_neg (by decide), List.append_nil]
  have hdrop : (scheme ++ ':' :: rest).dropWhile isSchemeChar = ':' :: rest := by
    rw [List.dropWhile_append_of_pos h.chars, List.dropWhile_cons_of_neg (by decide)]
  rw [getScheme_eq, htake, hdrop, hcs]
  simp [hc]

theorem getScheme_spec {rawURL scheme rest : List Char} (h : getScheme rawURL = some (scheme, rest))
    (hne : scheme ≠ []) : IsScheme scheme ∧ rawURL = scheme ++ ':' :: rest := by
  have hsplit : rawURL = rawURL.takeWhile isSchemeChar ++ rawURL.dropWhile isSchemeChar :=
    List.takeWhile_append_dropWhile.symm
  have hchars : ∀ c ∈ rawURL.takeWhile isSchemeChar, isSchemeChar c := fun c hc => List.mem_takeWhile_imp hc
  rw [getScheme_eq] at h
  split at h
  · rename_i rest' hrest
    split at h
    · cases h
    · rename_i c cs htake
      split_ifs at h with halpha
      · cases h
        rw [htake] at hsplit hchars
        rw [hrest] at hsplit
        exact ⟨⟨⟨c, cs, rfl, halpha⟩, hchars⟩, hsplit⟩
      · cases h
        exact absurd rfl hne
  · cases h
    exact absurd rfl hne

theorem parseBeforeFragment_append {scheme front : List Char} (hscheme : IsScheme scheme)
    (hcontrol : ∀ c ∈ front, ¬ isControl c) :
    parseBeforeFragment (scheme ++ ':' :: '/' :: '/' :: front) = (do
      let (user, host) ← parseAuthority ((front.takeWhile (· ≠ '?')).takeWhile (· ≠ '/'))
      let path ← unescape .path ((front.takeWhile (· ≠ '?')).dropWhile (· ≠ '/'))
      some { scheme := scheme.map Char.toLower, user, host, path,
             rawQuery := (front.dropWhile (· ≠ '?')).drop 1 }) := by
  have hany : ¬ (scheme ++ ':' :: '/' :: '/' :: front).any (fun c => c.toNat < 0x20 || c.toNat = 0x7f) := by
    rw [List.any_append, Bool.or_eq_true, List.any_eq_true, List.any_eq_true]
    rintro (⟨c, hc, hcontrolled⟩ | ⟨c, hc, hcontrolled⟩)
    · exact isControl_scheme hscheme c hc hcontrolled
    · simp only [List.mem_cons] at hc
      rcases hc with rfl | rfl | rfl | hc
      · revert hcontrolled
        decide
      · revert hcontrolled
        decide
      · revert hcontrolled
        decide
      · exact hcontrol c hc hcontrolled
  have hstar : scheme ++ ':' :: '/' :: '/' :: front ≠ ['*'] := by
    obtain ⟨c, cs, rfl, -⟩ := hscheme.head
    simp
  have hne : scheme ≠ [] := by
    obtain ⟨c, cs, rfl, -⟩ := hscheme.head
    simp
  rw [parseBeforeFragment, if_neg hany, if_neg hstar, getScheme_append hscheme]
  simp [hne]

theorem takeWhile_fragment {scheme : List Char} (h : IsScheme scheme) (rest : List Char) :
    (scheme ++ ':' :: '/' :: '/' :: rest).takeWhile (· ≠ '#') =
      scheme ++ ':' :: '/' :: '/' :: beforeFragment rest := by
  rw [List.takeWhile_append_of_pos fun c hc => decide_eq_true (mem_scheme_ne h (by decide) c hc)]
  simp [beforeFragment]

theorem dropWhile_fragment {scheme : List Char} (h : IsScheme scheme) (rest : List Char) :
    ((scheme ++ ':' :: '/' :: '/' :: rest).dropWhile (· ≠ '#')).drop 1 = fragmentText rest := by
  rw [List.dropWhile_append_of_pos fun c hc => decide_eq_true (mem_scheme_ne h (by decide) c hc)]
  simp [fragmentText]

theorem parse_ofRest {scheme rest : List Char} (hscheme : IsScheme scheme)
    (hcontrol : ∀ c ∈ beforeFragment rest, ¬ isControl c) :
    parse (String.ofList (scheme ++ ':' :: '/' :: '/' :: rest)) = ofRest scheme rest := by
  rw [parse, String.toList_ofList, takeWhile_fragment hscheme, dropWhile_fragment hscheme,
    parseBeforeFragment_append hscheme hcontrol, ofRest]
  simp only [authorityText, pathText, beforeQuery, queryText]
  cases parseAuthority (((beforeFragment rest).takeWhile (· ≠ '?')).takeWhile (· ≠ '/')) with
  | none => rfl
  | some authority =>
    cases unescape .path (((beforeFragment rest).takeWhile (· ≠ '?')).dropWhile (· ≠ '/')) with
    | none => rfl
    | some path => rfl

theorem exists_rest {s : String} {u : URL} (h : parse s = some u) (hscheme : u.scheme ≠ []) (hhost : u.host ≠ []) :
    ∃ scheme rest, s = String.ofList (scheme ++ ':' :: '/' :: '/' :: rest) ∧ IsScheme scheme ∧
      ∀ c ∈ beforeFragment rest, ¬ isControl c := by
  rw [parse] at h
  obtain ⟨url, hurl, h⟩ := Option.bind_eq_some_iff.mp h
  obtain ⟨fragment, -, h⟩ := Option.bind_eq_some_iff.mp h
  cases h
  dsimp only at hscheme hhost
  rw [parseBeforeFragment] at hurl
  split_ifs at hurl with hcontrol hstar
  · cases hurl
    exact absurd rfl hscheme
  · obtain ⟨⟨scheme, rest⟩, hget, hurl⟩ := Option.bind_eq_some_iff.mp hurl
    dsimp only at hurl
    split_ifs at hurl with hopaque hcolon hslashes
    · cases hurl
      exact absurd rfl hhost
    · have hne : scheme ≠ [] := by
        rintro rfl
        obtain ⟨authority, -, hurl⟩ := Option.bind_eq_some_iff.mp hurl
        obtain ⟨path, -, hurl⟩ := Option.bind_eq_some_iff.mp hurl
        cases hurl
        exact hscheme rfl
      obtain ⟨hisScheme, hfront⟩ := getScheme_spec hget hne
      obtain ⟨front, rfl⟩ : ['/', '/'] <+: rest :=
        (List.isPrefixOf_iff_prefix.mp hslashes.2).trans (List.takeWhile_prefix _)
      have htext : s.toList = scheme ++ ':' :: '/' :: '/' :: (front ++ s.toList.dropWhile (· ≠ '#')) := by
        conv_lhs => rw [← List.takeWhile_append_dropWhile (p := (· ≠ '#')) (l := s.toList), hfront]
        simp
      have hbefore : beforeFragment (front ++ s.toList.dropWhile (· ≠ '#')) = front := by
        rw [htext, takeWhile_fragment hisScheme] at hfront
        simpa using hfront
      refine ⟨scheme, front ++ s.toList.dropWhile (· ≠ '#'), ?_, hisScheme, ?_⟩
      · rw [← htext, String.ofList_toList]
      · rw [hbefore]
        intro c hc hcontrolled
        apply hcontrol
        rw [hfront, List.any_eq_true]
        exact ⟨c, by simp [hc], hcontrolled⟩
    · obtain ⟨path, -, hurl⟩ := Option.bind_eq_some_iff.mp hurl
      cases hurl
      exact absurd rfl hhost

/-! ### A path at the end -/

/-- What follows a complete text is decoded on its own. -/
theorem unescape_append {mode : Encoding} {p : List Char} {x : List Octet} (h : unescape mode p = some x)
    (q : List Char) : unescape mode (p ++ q) = (unescape mode q).map (x ++ ·) := by
  fun_induction unescape mode p generalizing x with
  | case1 =>
    cases h
    simp
  | case2 => cases h
  | case3 => cases h
  | case4 c d rest hi lo hlo hhi v percent hhost hzone =>
    rename_i ih
    obtain ⟨octets, hrest, rfl⟩ := Option.map_eq_some_iff.mp h
    simp only [List.cons_append, unescape, hhi, hlo]
    rw [if_neg hhost, if_neg hzone, ih hrest, Option.map_map]
    rfl
  | case5 => cases h
  | case6 => cases h
  | case7 => cases h
  | case8 c rest _ hpercent hescape ih =>
    obtain ⟨octets, hrest, rfl⟩ := Option.map_eq_some_iff.mp h
    rw [List.cons_append, unescape]
    · rw [if_neg hescape, ih hrest, Option.map_map]
      rfl
    · rintro _ _ _ rfl
      exact absurd rfl hpercent
    · rintro rfl
      exact absurd rfl hpercent

theorem unescape_ne_nil {mode : Encoding} {p : List Char} {x : List Octet} (h : unescape mode p = some x)
    (hp : p ≠ []) : x ≠ [] := by
  rintro rfl
  fun_cases unescape mode p <;> simp_all [unescape]

/-- There is user information exactly when there is an at sign. -/
theorem parseAuthority_user {authority : List Char} {user : Option Userinfo} {host : List Octet}
    (h : parseAuthority authority = some (user, host)) : user = none ↔ '@' ∉ authority := by
  simp only [parseAuthority] at h
  have hsplit : (authority.reverse.dropWhile (· ≠ '@')).reverse = [] ↔ '@' ∉ authority := by
    simp only [List.reverse_eq_nil_iff, List.dropWhile_eq_nil_iff, List.mem_reverse, decide_eq_true_eq]
    constructor
    · intro hall hmem
      exact hall _ hmem rfl
    · rintro hmem c hc rfl
      exact hmem hc
  rw [← hsplit]
  split at h
  · rename_i hnil
    obtain ⟨host', -, heq⟩ := Option.map_eq_some_iff.mp h
    cases heq
    exact iff_of_true rfl hnil
  · rename_i hne
    obtain ⟨host', -, h⟩ := Option.bind_eq_some_iff.mp h
    obtain ⟨user', -, h⟩ := Option.bind_eq_some_iff.mp h
    cases h
    exact iff_of_false (by simp) hne

theorem ofRest_spec {scheme rest : List Char} {u : URL} (h : ofRest scheme rest = some u) :
    u.scheme = scheme.map Char.toLower ∧ parseAuthority (authorityText rest) = some (u.user, u.host) ∧
      unescape .path (pathText rest) = some u.path ∧ u.rawQuery = queryText rest ∧
      unescape .fragment (fragmentText rest) = some u.fragment := by
  obtain ⟨⟨user, host⟩, hauthority, h⟩ := Option.bind_eq_some_iff.mp h
  obtain ⟨path, hpath, h⟩ := Option.bind_eq_some_iff.mp h
  obtain ⟨fragment, hfragment, h⟩ := Option.bind_eq_some_iff.mp h
  cases h
  exact ⟨rfl, hauthority, hpath, rfl, hfragment⟩

theorem takeWhile_ne {c : Char} {cs : List Char} (h : c ∉ cs) : cs.takeWhile (· ≠ c) = cs := by
  rw [List.takeWhile_eq_self_iff]
  intro x hx
  exact decide_eq_true (ne_of_mem_of_not_mem hx h)

theorem dropWhile_ne {c : Char} {cs : List Char} (h : c ∉ cs) : cs.dropWhile (· ≠ c) = [] := by
  rw [List.dropWhile_eq_nil_iff]
  intro x hx
  exact decide_eq_true (ne_of_mem_of_not_mem hx h)

theorem dropWhile_ne_nil {c : Char} {cs : List Char} (h : c ∈ cs) : cs.dropWhile (· ≠ c) ≠ [] := by
  rw [Ne, List.dropWhile_eq_nil_iff]
  intro hall
  exact absurd rfl (of_decide_eq_true (hall c h))

theorem dropWhile_ne_append {c : Char} {cs : List Char} (h : c ∈ cs) (ds : List Char) :
    (cs ++ ds).dropWhile (· ≠ c) = cs.dropWhile (· ≠ c) ++ ds := by
  rw [List.dropWhile_append, if_neg]
  simpa using dropWhile_ne_nil h

/-- A path that a text may end in without becoming a part of its authority. -/
structure IsPath (path : List Char) : Prop where
  head : ∃ tail, path = '/' :: tail
  noQuery : '?' ∉ path
  noFragment : '#' ∉ path

/-- The characters that end the authority of a URL, or set off its user information. -/
def delimiters : List Char := ['/', '?', '#', '@']

section Append
variable {scheme rest path : List Char} {u r : URL}

theorem fragment_append (h : '#' ∈ rest) (hpath : IsPath path) (hr : ofRest scheme (rest ++ path) = some r) :
    r.fragment ≠ [] := by
  obtain ⟨-, -, -, -, hfragment⟩ := ofRest_spec hr
  apply unescape_ne_nil hfragment
  rw [fragmentText, dropWhile_ne_append h, List.drop_append_of_le_length (List.length_pos_iff.mpr (dropWhile_ne_nil h))]
  obtain ⟨tail, rfl⟩ := hpath.head
  simp

theorem query_append (hfragment : '#' ∉ rest) (h : '?' ∈ rest) (hpath : IsPath path)
    (hr : ofRest scheme (rest ++ path) = some r) : r.rawQuery ≠ [] := by
  obtain ⟨-, -, -, hquery, -⟩ := ofRest_spec hr
  have hbefore : beforeFragment (rest ++ path) = rest ++ path :=
    takeWhile_ne (by simp [hfragment, hpath.noFragment])
  rw [hquery, queryText, hbefore, dropWhile_ne_append h,
    List.drop_append_of_le_length (List.length_pos_iff.mpr (dropWhile_ne_nil h))]
  obtain ⟨tail, rfl⟩ := hpath.head
  simp

theorem beforeQuery_eq (hfragment : '#' ∉ rest) (hquery : '?' ∉ rest) : beforeQuery rest = rest := by
  rw [beforeQuery, beforeFragment, takeWhile_ne hfragment, takeWhile_ne hquery]

theorem beforeQuery_append (hfragment : '#' ∉ rest) (hquery : '?' ∉ rest) (hpath : IsPath path) :
    beforeQuery (rest ++ path) = rest ++ path :=
  beforeQuery_eq (by simp [hfragment, hpath.noFragment]) (by simp [hquery, hpath.noQuery])

theorem path_append (hfragment : '#' ∉ rest) (hquery : '?' ∉ rest) (h : '/' ∈ rest) (hpath : IsPath path)
    (hu : ofRest scheme rest = some u) (hr : ofRest scheme (rest ++ path) = some r) :
    unescape .path path ≠ some r.path := by
  obtain ⟨-, -, hpathU, -, -⟩ := ofRest_spec hu
  obtain ⟨-, -, hpathR, -, -⟩ := ofRest_spec hr
  rw [pathText, beforeQuery_eq hfragment hquery] at hpathU
  rw [pathText, beforeQuery_append hfragment hquery hpath, dropWhile_ne_append h, unescape_append hpathU] at hpathR
  intro hoctets
  rw [hoctets, Option.map_some, Option.some_inj] at hpathR
  exact unescape_ne_nil hpathU (dropWhile_ne_nil h) (List.append_left_eq_self.mp hpathR)

theorem authority_append (hslash : '/' ∉ rest) (hquery : '?' ∉ rest) (hfragment : '#' ∉ rest)
    (hpath : IsPath path) : authorityText (rest ++ path) = rest ∧ pathText (rest ++ path) = path := by
  have hrest : ∀ c ∈ rest, decide (c ≠ '/') = true := fun c hc => decide_eq_true (ne_of_mem_of_not_mem hc hslash)
  obtain ⟨tail, htail⟩ := hpath.head
  rw [authorityText, pathText, beforeQuery_append hfragment hquery hpath, List.takeWhile_append_of_pos hrest,
    List.dropWhile_append_of_pos hrest, htail]
  simp

/-- Without the delimiters the text is an authority, which the path leaves as it is. -/
theorem ofRest_append (h : ∀ c ∈ delimiters, c ∉ rest) (hpath : IsPath path) {octets : List Octet}
    (hoctets : unescape .path path = some octets) (hu : ofRest scheme rest = some u) :
    ofRest scheme (rest ++ path) = some { scheme := u.scheme, host := u.host, path := octets } := by
  obtain ⟨hslash, hquery, hfragment, hat⟩ : '/' ∉ rest ∧ '?' ∉ rest ∧ '#' ∉ rest ∧ '@' ∉ rest := by
    simpa [delimiters] using h
  obtain ⟨hscheme, hauthority, -, -, -⟩ := ofRest_spec hu
  rw [authorityText, beforeQuery_eq hfragment hquery, takeWhile_ne hslash] at hauthority
  obtain ⟨hauthority', hpath'⟩ := authority_append hslash hquery hfragment hpath
  have hfragment' : '#' ∉ rest ++ path := by simp [hfragment, hpath.noFragment]
  have hquery' : '?' ∉ rest ++ path := by simp [hquery, hpath.noQuery]
  have hqueryText : queryText (rest ++ path) = [] := by
    rw [queryText, beforeFragment, takeWhile_ne hfragment', dropWhile_ne hquery', List.drop_nil]
  have hfragmentText : fragmentText (rest ++ path) = [] := by
    rw [fragmentText, dropWhile_ne hfragment', List.drop_nil]
  have huser := (parseAuthority_user hauthority).mpr hat
  rw [ofRest, hauthority', hpath', hqueryText, hfragmentText, hauthority, hoctets, hscheme, huser]
  rfl

/-- A path is the whole path of the URL that it is appended to, and nothing else is in that URL, exactly
when the URL has nothing after its host and no user information. -/
theorem ofRest_append_iff (hpath : IsPath path) {octets : List Octet} (hoctets : unescape .path path = some octets)
    (hu : ofRest scheme rest = some u) :
    ofRest scheme (rest ++ path) = some { scheme := u.scheme, host := u.host, path := octets } ↔
      ∀ c ∈ delimiters, c ∉ rest := by
  constructor
  · intro hr
    have hfragment : '#' ∉ rest := fun h => fragment_append h hpath hr rfl
    have hquery : '?' ∉ rest := fun h => query_append hfragment h hpath hr rfl
    have hslash : '/' ∉ rest := fun h => path_append hfragment hquery h hpath hu hr hoctets
    have hat : '@' ∉ rest := by
      obtain ⟨-, hauthority, -, -, -⟩ := ofRest_spec hr
      rw [(authority_append hslash hquery hfragment hpath).1] at hauthority
      exact (parseAuthority_user hauthority).mp rfl
    simp [delimiters, hslash, hquery, hfragment, hat]
  · intro h
    exact ofRest_append h hpath hoctets hu

end Append

end CyberstalkMe.Go.URL
