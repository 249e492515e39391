import CyberstalkMe.Setup.Admission
import CyberstalkMe.Go.WebURL
import CyberstalkMe.Shared.Text
import CyberstalkMe.Foundations.Base64

/-! # The page that carries the token

The agent writes the token of its session into the entry page, and the page sends it with every request.
-/
namespace CyberstalkMe.Setup

open Go Shared Foundations

/-! ### The token -/

/-- `newToken` from the bytes of the random source. -/
def newToken (bytes : Vector UInt8 32) : String := String.ofList (Base64.encode bytes.toList)

/-- What the built page carries in place of the token, with its quotes. -/
def tokenPlaceholder : List Char := "\"__SETUP_TOKEN_PLACEHOLDER__\"".toList

/-- `bytes.Replace` for the first place. -/
def replaceFirst (old new cs : List Char) : List Char :=
  match URL.cut old cs with
  | none => cs
  | some (front, back) => front ++ new ++ back.drop old.length

def setupIndex (page : List Char) (token : String) : Except String (List Char) :=
  let injected := replaceFirst tokenPlaceholder (text (.string token)) page
  if injected = page then
    .error ("embedded index.html has no " ++ String.ofList tokenPlaceholder ++ " to replace; rebuild webui")
  else .ok injected

/-- `setupIndex` as the option of the session. -/
def entryPage (page : List Char) (token : String) : Option String :=
  match setupIndex page token with
  | .ok html => some (String.ofList html)
  | .error _ => none

/-! ### The page -/

def assignment : List Char := "window.__SETUP_TOKEN__ = ".toList

/-- `window.__SETUP_TOKEN__` once the script of the page has run. -/
def embedded (html : List Char) : Option String :=
  (URL.cut (assignment ++ ['"']) html).bind fun parts =>
    (JsonText.cutString (parts.2.drop (assignment.length + 1))).bind fun literal => JsonText.unquote literal.1

/-- `sessionToken` in a production build. -/
def sessionToken (embedded : Option String) : String :=
  match embedded with
  | some token => if token ≠ "" && !"__SETUP_TOKEN".toList.isPrefixOf token.toList then token else ""
  | none => ""

/-- The requests of `api` and of `streamCatalog`. -/
def calls : List (String × String) := [
  ("GET", "/api/config"), ("PUT", "/api/config"), ("GET", "/api/preview"), ("POST", "/api/regex/test"),
  ("POST", "/api/regex/suggest"), ("POST", "/api/save"), ("POST", "/api/quit"), ("GET", "/api/catalog")]

/-- A request of the page that was loaded from this port. A browser sends no origin with a GET. -/
def pageRequest (port : String) (html : List Char) (call : String × String) (body : String) : HTTPRequest where
  method := call.1
  path := call.2.toList
  urlPath := call.2.toList.map .rune
  host := "127.0.0.1:" ++ port
  origin := if call.1 = "GET" then "" else "http://127.0.0.1:" ++ port
  authorization := "Bearer " ++ sessionToken (embedded html)
  body := body

def loadRequest (port : String) : HTTPRequest where
  method := "GET"
  path := ['/']
  urlPath := [.rune '/']
  host := "127.0.0.1:" ++ port
  origin := ""
  authorization := ""
  body := ""

/-- The request is for the entry page: it names this server and no file of the bundle. -/
def Site.enters (site : Site) (r : HTTPRequest) : Bool :=
  entryMux.route r.method r.path = .handler .index && site.access.hostAllowed r.host && (site.assetsFor r).isNone

/-- A page with one place for the token, in the assignment of its script. -/
structure IsEntryPage (page front back : List Char) : Prop where
  placeholder : URL.cut tokenPlaceholder page = some (front ++ assignment, tokenPlaceholder ++ back)
  assigned : URL.cut (assignment ++ ['"']) page = some (front, assignment ++ tokenPlaceholder ++ back)

/-! ### Cutting a text -/

theorem cut_spec {sep cs front back : List Char} (h : URL.cut sep cs = some (front, back)) : cs = front ++ back := by
  induction cs generalizing front with
  | nil => cases h
  | cons c cs ih =>
    rw [URL.cut] at h
    split_ifs at h
    · cases h
      rfl
    · obtain ⟨⟨front', back'⟩, hcut, heq⟩ := Option.map_eq_some_iff.mp h
      cases heq
      rw [ih hcut, List.cons_append]

/-- The text is cut in front of `back`, checked place by place. -/
def cutsAt (sep : List Char) : List Char → List Char → Bool
  | [], back => sep.isPrefixOf back
  | c :: front, back => !sep.isPrefixOf (c :: (front ++ back)) && cutsAt sep front back

theorem cut_of_cutsAt {sep front back : List Char} (hsep : sep ≠ []) (h : cutsAt sep front back = true) :
    URL.cut sep (front ++ back) = some (front, back) := by
  induction front with
  | nil =>
    cases back with
    | nil => exact absurd (List.prefix_nil.mp (List.isPrefixOf_iff_prefix.mp h)) hsep
    | cons c cs =>
      rw [cutsAt] at h
      rw [List.nil_append, URL.cut, if_pos h]
  | cons c front ih =>
    rw [cutsAt, Bool.and_eq_true, Bool.not_eq_true'] at h
    rw [List.cons_append, URL.cut, h.1, if_neg Bool.false_ne_true, ih h.2]
    rfl

/-- Whether a text starts with another does not depend on what comes behind the length of that. -/
theorem isPrefixOf_append_congr {sep xs : List Char} (ys zs : List Char) (h : sep.length ≤ xs.length) :
    sep.isPrefixOf (xs ++ ys) = sep.isPrefixOf (xs ++ zs) := by
  have hfront (ys : List Char) : sep <+: xs ++ ys ↔ sep <+: xs :=
    ⟨fun hsep => List.prefix_of_prefix_length_le hsep (List.prefix_append xs ys) h, List.prefix_append_of_prefix⟩
  rw [Bool.eq_iff_iff, List.isPrefixOf_iff_prefix, List.isPrefixOf_iff_prefix, hfront, hfront]

/-- What comes behind the place of the cut does not matter. -/
theorem cut_congr {sep xs ys front back : List Char} (hsep : sep ≠ [])
    (h : URL.cut sep (xs ++ ys) = some (front, back)) (hlen : front.length + sep.length ≤ xs.length)
    (zs : List Char) : URL.cut sep (xs ++ zs) = some (front, xs.drop front.length ++ zs) := by
  have hpos := List.length_pos_of_ne_nil hsep
  induction xs generalizing front with
  | nil =>
    rw [List.length_nil] at hlen
    omega
  | cons x xs ih =>
    have hprefix := isPrefixOf_append_congr ys zs (show sep.length ≤ (x :: xs).length by omega)
    rw [List.cons_append, List.cons_append] at hprefix
    rw [List.cons_append, URL.cut] at h ⊢
    rw [← hprefix]
    split_ifs at h ⊢ with hhere
    · cases h
      rfl
    · obtain ⟨⟨front', back'⟩, hcut, heq⟩ := Option.map_eq_some_iff.mp h
      cases heq
      simp only [List.length_cons] at hlen
      rw [ih hcut (by omega)]
      rfl

/-! ### The token is read back -/

theorem injected_eq {page front back : List Char} (h : IsEntryPage page front back) (token : String) :
    replaceFirst tokenPlaceholder (text (.string token)) page = front ++ assignment ++ text (.string token) ++ back := by
  rw [replaceFirst, h.placeholder]
  simp

theorem text_string (token : String) :
    text (.string token) = '"' :: (JsonText.writeChars escapeHTML token ++ ['"']) := rfl

theorem setupIndex_eq_ok {page front back : List Char} (h : IsEntryPage page front back) {token : String}
    (htoken : text (.string token) ≠ tokenPlaceholder) :
    setupIndex page token = .ok (front ++ assignment ++ text (.string token) ++ back) := by
  have hpage : page = front ++ assignment ++ tokenPlaceholder ++ back := by
    rw [cut_spec h.placeholder, ← List.append_assoc]
  rw [setupIndex, injected_eq h, if_neg]
  rw [hpage, List.append_left_inj, List.append_right_inj]
  exact htoken

theorem tokenPlaceholder_eq : tokenPlaceholder = '"' :: tokenPlaceholder.tail := by decide

/-- The script reads the token that was written. -/
theorem embedded_injected {page front back : List Char} (h : IsEntryPage page front back) (token : String) :
    embedded (front ++ assignment ++ text (.string token) ++ back) = some token := by
  have hpage : page = front ++ (assignment ++ ['"']) ++ (tokenPlaceholder.tail ++ back) := by
    rw [cut_spec h.assigned, tokenPlaceholder_eq]
    simp only [List.append_assoc, List.cons_append, List.nil_append, List.tail_cons]
  have hassigned := h.assigned
  rw [hpage] at hassigned
  have hlen : front.length + (assignment ++ ['"']).length ≤ (front ++ (assignment ++ ['"'])).length :=
    List.length_append.ge
  have hcut := cut_congr (List.append_ne_nil_of_right_ne_nil _ (List.cons_ne_nil _ _)) hassigned hlen
    (JsonText.writeChars escapeHTML token ++ '"' :: back)
  have hhtml : front ++ assignment ++ text (.string token) ++ back =
      front ++ (assignment ++ ['"']) ++ (JsonText.writeChars escapeHTML token ++ '"' :: back) := by
    simp only [text_string, List.append_assoc, List.cons_append, List.nil_append]
  have hdrop : ((assignment ++ ['"']) ++ (JsonText.writeChars escapeHTML token ++ '"' :: back)).drop
      (assignment.length + 1) = JsonText.writeChars escapeHTML token ++ '"' :: back :=
    List.drop_left' (by rw [List.length_append, List.length_singleton])
  rw [embedded, hhtml, hcut, Option.bind_some, List.drop_left]
  simp only
  rw [hdrop, JsonText.cutString_writeChars, Option.bind_some]
  exact JsonText.unquote_writeChars (fun _ => escapeHTML_lt) token

/-! ### The guard and the page -/

def IsPort (port : String) : Prop := ∀ c ∈ port.toList, c.isDigit

def isAddressChar (c : Char) : Bool := c.isDigit || c = '.' || c = ':'

theorem addressChar_plain {c : Char} (h : isAddressChar c = true) :
    foldRune c = c ∧ ¬ URL.isControl c ∧ ¬ URL.shouldEscapeInHost c ∧ c ∉ ['/', '?', '#', '@', '[', '%'] := by
  have hascii : ∀ n < 0x80, isAddressChar (Char.ofNat n) = true → foldRune (Char.ofNat n) = Char.ofNat n ∧
      ¬ URL.isControl (Char.ofNat n) ∧ ¬ URL.shouldEscapeInHost (Char.ofNat n) ∧
        Char.ofNat n ∉ ['/', '?', '#', '@', '[', '%'] := by decide
  have hsmall : c.toNat < 0x80 := by
    simp only [isAddressChar, Bool.or_eq_true, decide_eq_true_eq, Char.isDigit_iff_toNat] at h
    rcases h with (⟨-, hle⟩ | rfl) | rfl
    · exact hle.trans_lt (by decide)
    · decide
    · decide
  have hplain := hascii c.toNat hsmall
  rw [Char.ofNat_toNat] at hplain
  exact hplain h

theorem isAddressChar_address {port : String} (h : IsPort port) :
    ∀ c ∈ ("127.0.0.1:" ++ port).toList, isAddressChar c = true := by
  intro c hc
  rw [String.toList_append, List.mem_append] at hc
  rcases hc with hc | hc
  · have hall : ∀ c ∈ "127.0.0.1:".toList, isAddressChar c = true :=
      List.all_eq_true.mp (by decide)
    exact hall c hc
  · simp [isAddressChar, h c hc]

theorem map_foldRune_address {cs : List Char} (h : ∀ c ∈ cs, isAddressChar c = true) : cs.map foldRune = cs := by
  conv_rhs => rw [← List.map_id cs]
  exact List.map_congr_left fun c hc => (addressChar_plain (h c hc)).1

theorem foldOctets_rune (cs : List Char) : foldOctets (cs.map .rune) = some (cs.map foldRune) := by
  induction cs with
  | nil => rfl
  | cons c cs ih => simp [foldOctets, ih]

theorem urlHostAllowed_rune (access : Access) (host : String) :
    access.urlHostAllowed (host.toList.map .rune) = access.hostAllowed host := by
  simp [Access.urlHostAllowed, Access.hostAllowed, foldOctets_rune]

theorem hostAllowed_iff {port port' : String} (h : IsPort port) (h' : IsPort port') (token : String) :
    (Access.mk token (loopbackHosts port')).hostAllowed ("127.0.0.1:" ++ port) = true ↔ port = port' := by
  have hhead {c : Char} {cs : List Char} (hc : cs.head? = some c) (ds : List Char) : (cs ++ ds).head? = some c := by
    rw [List.head?_append, hc]
    rfl
  have hother {cs : List Char} {c : Char} (hc : cs.head? = some c) (hne : c ≠ '1') (ds : List Char) :
      "127.0.0.1:".toList ++ port.toList ≠ cs ++ ds := by
    intro heq
    have hheads := congrArg List.head? heq
    rw [hhead (c := '1') (by decide), hhead hc, Option.some.injEq] at hheads
    exact hne hheads.symm
  simp only [Access.hostAllowed, loopbackHosts, List.any_cons, List.any_nil, Bool.or_false, Bool.or_eq_true,
    decide_eq_true_eq, map_foldRune_address (isAddressChar_address h),
    map_foldRune_address (isAddressChar_address h')]
  simp only [String.toList_append, List.map_append]
  constructor
  · rintro (hfirst | hlocalhost | hbracket)
    · rw [List.append_right_inj, String.toList_inj] at hfirst
      exact hfirst
    · exact absurd hlocalhost (hother (c := 'l') (by decide) (by decide) _)
    · exact absurd hbracket (hother (c := '[') (by decide) (by decide) _)
  · rintro rfl
    exact .inl rfl

theorem unescape_plain (mode : URL.Encoding) {cs : List Char} (h : ∀ c ∈ cs, isAddressChar c = true) :
    URL.unescape mode cs = some (cs.map .rune) := by
  induction cs with
  | nil => rfl
  | cons c cs ih =>
    obtain ⟨-, -, hescape, hdelimiter⟩ := addressChar_plain (h c List.mem_cons_self)
    have hpercent : c ≠ '%' := by
      rintro rfl
      exact hdelimiter (by decide)
    rw [URL.unescape]
    · rw [if_neg fun hmode => hescape hmode.2.2, ih fun c hc => h c (List.mem_cons_of_mem _ hc)]
      rfl
    · rintro _ _ _ rfl
      exact absurd rfl hpercent
    · rintro rfl
      exact absurd rfl hpercent

theorem takeWhile_address {cs : List Char} (h : ∀ c ∈ cs, isAddressChar c = true) {d : Char}
    (hd : d ∈ ['/', '?', '#', '@', '[', '%']) : cs.takeWhile (· ≠ d) = cs ∧ cs.dropWhile (· ≠ d) = [] := by
  have hnot : d ∉ cs := fun hmem => (addressChar_plain (h d hmem)).2.2.2 hd
  exact ⟨URL.takeWhile_ne hnot, URL.dropWhile_ne hnot⟩

theorem parseAuthority_address {port : String} (h : IsPort port) :
    URL.parseAuthority ("127.0.0.1:" ++ port).toList = some (none, ("127.0.0.1:" ++ port).toList.map .rune) := by
  have hchars := isAddressChar_address h
  have hreverse : ∀ c ∈ ("127.0.0.1:" ++ port).toList.reverse, isAddressChar c = true :=
    fun c hc => hchars c (List.mem_reverse.mp hc)
  obtain ⟨htake, hdrop⟩ := takeWhile_address hreverse (d := '@') (by decide)
  have hport : URL.validOptionalPort (("127.0.0.1:" ++ port).toList.dropWhile (· ≠ ':')) = true := by
    have hlist : ("127.0.0.1:" ++ port).toList = "127.0.0.1".toList ++ ':' :: port.toList := by
      rw [String.toList_append]
      rfl
    rw [hlist, List.dropWhile_append_of_pos (List.all_eq_true.mp (by decide)),
      List.dropWhile_cons_of_neg (by decide)]
    simpa [URL.validOptionalPort, IsPort] using h
  have hbracket : '[' ∉ ("127.0.0.1:" ++ port).toList := fun hmem => (addressChar_plain (hchars _ hmem)).2.2.2 (by decide)
  have hhost : URL.parseHost ("127.0.0.1:" ++ port).toList = some (("127.0.0.1:" ++ port).toList.map .rune) := by
    rw [URL.parseHost]
    · rw [if_neg hbracket, if_pos hport, unescape_plain .host hchars]
    · intro inner hinner
      exact hbracket (hinner ▸ List.mem_cons_self)
  rw [URL.parseAuthority]
  simp only [htake, hdrop, List.reverse_reverse, List.reverse_nil, hhost, Option.map_some]

theorem parse_origin {port : String} (h : IsPort port) :
    URL.parse ("http://127.0.0.1:" ++ port) =
      some { scheme := "http".toList, host := ("127.0.0.1:" ++ port).toList.map .rune } := by
  have hchars := isAddressChar_address h
  obtain ⟨hfragment, hfragment'⟩ := takeWhile_address hchars (d := '#') (by decide)
  obtain ⟨hquery, hquery'⟩ := takeWhile_address hchars (d := '?') (by decide)
  obtain ⟨hpath, hpath'⟩ := takeWhile_address hchars (d := '/') (by decide)
  have hscheme : URL.IsScheme "http".toList :=
    ⟨⟨'h', "ttp".toList, by decide, by decide⟩, List.all_eq_true.mp (by decide)⟩
  have hrest : "http://127.0.0.1:" ++ port =
      String.ofList ("http".toList ++ ':' :: '/' :: '/' :: ("127.0.0.1:" ++ port).toList) := by
    rw [← String.toList_inj, String.toList_ofList, String.toList_append, String.toList_append]
    rfl
  rw [hrest, URL.parse_ofRest hscheme]
  · simp only [URL.ofRest, URL.authorityText, URL.pathText, URL.queryText, URL.fragmentText, URL.beforeQuery,
      URL.beforeFragment, hfragment, hfragment', hquery, hquery', hpath, hpath', parseAuthority_address h]
    have hlower : "http".toList.map Char.toLower = "http".toList := by decide
    rw [hlower]
    rfl
  · intro c hc
    rw [URL.beforeFragment, hfragment] at hc
    exact (addressChar_plain (hchars c hc)).2.1

theorem originAllowed_iff {port port' : String} (h : IsPort port) (h' : IsPort port') (token : String)
    (html : List Char) (call : String × String) (body : String) :
    (Access.mk token (loopbackHosts port')).originAllowed (pageRequest port html call body) = true ↔ port = port' := by
  rw [Access.originAllowed, Bool.and_eq_true, pageRequest, hostAllowed_iff h h']
  constructor
  · exact And.left
  · intro hport
    refine ⟨hport, ?_⟩
    by_cases hget : call.1 = "GET"
    · simp [hget]
    · simp only [if_neg hget, parse_origin h, urlHostAllowed_rune, Bool.or_eq_true, Bool.and_eq_true]
      exact .inr ⟨by simp, (hostAllowed_iff h h' token).mpr hport⟩

/-! ### Tokens -/

theorem newToken_toList (bytes : Vector UInt8 32) : (newToken bytes).toList = Base64.encode bytes.toList :=
  String.toList_ofList

theorem newToken_inj {own other : Vector UInt8 32} : newToken own = newToken other ↔ own = other := by
  rw [← String.toList_inj, newToken_toList, newToken_toList, Base64.encode_injective.eq_iff]
  exact Vector.toList_inj

theorem length_newToken (bytes : Vector UInt8 32) : (newToken bytes).toList.length = 43 := by
  rw [newToken_toList, Base64.length_encode]
  simp

theorem newToken_ne_empty (bytes : Vector UInt8 32) : newToken bytes ≠ "" := by
  intro h
  have hlength := length_newToken bytes
  rw [h] at hlength
  cases hlength

theorem trimRunes_newToken (bytes : Vector UInt8 32) : trimRunes (newToken bytes).toList = (newToken bytes).toList := by
  have halphabet : ∀ c ∈ Base64.alphabet, isSpace c = false := by
    have hall : Base64.alphabet.all (fun c => !isSpace c) = true := by decide
    simpa using hall
  have hplain (c : Char) (hc : c ∈ (newToken bytes).toList) : ¬ isSpace c := by
    rw [newToken_toList] at hc
    simp [halphabet c (Base64.mem_alphabet_of_mem_encode hc)]
  rw [trimRunes_eq]
  apply Trimmed.trimEnds_eq
  exact ⟨fun c hc => hplain c (List.mem_of_head? hc), fun c hc => hplain c (List.mem_of_getLast? hc)⟩

theorem tokenAllowed_iff {access : Access} {r : HTTPRequest} {token : String}
    (h : r.authorization = "Bearer " ++ token) :
    access.tokenAllowed r = true ↔ trimRunes token.toList = access.token.toList := by
  rw [Access.tokenAllowed, h, String.toList_append]
  simp only [Bool.and_eq_true, decide_eq_true_eq, List.drop_left, List.isPrefixOf_iff_prefix, List.prefix_append,
    true_and]

/-- The token that the page sends is accepted by its own session, unless the page takes it for the
placeholder. -/
theorem tokenAllowed_page {own other : Vector UInt8 32} {html : List Char}
    (hhtml : embedded html = some (newToken own)) (port : String) (call : String × String) (body : String)
    (hosts : List String) :
    (Access.mk (newToken other) hosts).tokenAllowed (pageRequest port html call body) = true ↔
      own = other ∧ ¬ "__SETUP_TOKEN".toList <+: (newToken own).toList := by
  have hsent : (pageRequest port html call body).authorization = "Bearer " ++ sessionToken (some (newToken own)) := by
    rw [pageRequest, hhtml]
  rw [tokenAllowed_iff hsent, sessionToken]
  simp only [newToken_ne_empty, ne_eq, not_false_eq_true, decide_true, Bool.true_and, Bool.not_eq_true',
    ← Bool.not_eq_true, List.isPrefixOf_iff_prefix]
  by_cases hprefix : "__SETUP_TOKEN".toList <+: (newToken own).toList
  · rw [if_neg (not_not.mpr hprefix)]
    constructor
    · intro hempty
      have hnothing : trimRunes "".toList = "".toList := by decide
      rw [hnothing] at hempty
      exact absurd (String.toList_inj.mp hempty).symm (newToken_ne_empty other)
    · rintro ⟨-, hnot⟩
      exact absurd hprefix hnot
  · rw [if_pos hprefix, trimRunes_newToken, String.toList_inj, newToken_inj]
    exact (and_iff_left hprefix).symm

theorem entryMux_calls : ∀ call ∈ calls, entryMux.route call.1 call.2.toList = .handler .api := by decide +kernel

/-! ### A page -/

def joinLines (lines : List String) : List Char := lines.flatMap fun line => line.toList ++ ['\n']

/-- The lines of `webui/index.html` around the script, up to its assignment. -/
def indexFront : List Char := joinLines [
  "<!doctype html>",
  "<html lang=\"zh-CN\">",
  "  <head>",
  "    <script>"] ++ "      ".toList

/-- What follows the placeholder. -/
def indexBack : List Char := joinLines [
  ";",
  "    </script>",
  "  </head>",
  "</html>"]

theorem cutsAt_index :
    cutsAt tokenPlaceholder (indexFront ++ assignment) (tokenPlaceholder ++ indexBack) = true ∧
      cutsAt (assignment ++ ['"']) indexFront (assignment ++ tokenPlaceholder ++ indexBack) = true := by
  decide +kernel

theorem isEntryPage_index :
    IsEntryPage (indexFront ++ assignment ++ tokenPlaceholder ++ indexBack) indexFront indexBack := by
  have hplaceholder : tokenPlaceholder ≠ [] := tokenPlaceholder_eq ▸ List.cons_ne_nil _ _
  constructor
  · rw [List.append_assoc]
    exact cut_of_cutsAt hplaceholder cutsAt_index.1
  · rw [List.append_assoc, List.append_assoc, ← List.append_assoc assignment]
    exact cut_of_cutsAt (List.append_ne_nil_of_right_ne_nil _ (List.cons_ne_nil _ _)) cutsAt_index.2

theorem enters_loadRequest {site : Site} {token port : String}
    (haccess : site.access = ⟨token, loopbackHosts port⟩) : site.enters (loadRequest port) = true := by
  have hroute : entryMux.route "GET" ['/'] = .handler .index := by decide
  have hhost : site.access.hostAllowed ("127.0.0.1:" ++ port) = true := by
    rw [haccess]
    simp [Access.hostAllowed, loopbackHosts]
  have hassets : site.assetsFor (loadRequest port) = none := by
    cases hassets : site.assets <;> simp [Site.assetsFor, loadRequest, hassets]
  rw [Site.enters, hassets]
  simp [loadRequest, hroute, hhost]

theorem handleHTTP_of_enters {site : Site} {r : HTTPRequest} (h : site.enters r = true)
    {render : String → Option String} (hindex : site.index = some render) {html : String}
    (hhtml : render site.access.token = some html) (s : Session yaml lib) (fg : Foreground) (order : MapOrder)
    (faults : SaveFaults yaml) : (s.handleHTTP site r fg order faults).2 = ⟨200, .page html⟩ := by
  simp only [Site.enters, Bool.and_eq_true, decide_eq_true_eq, Option.isNone_iff_eq_none] at h
  obtain ⟨⟨hroute, hhost⟩, hassets⟩ := h
  simp only [Session.handleHTTP, hroute, answerRouted, Session.handleIndex, hhost, Site.indexReply, hassets, hindex, hhtml]
  rfl

theorem text_newToken_ne (own : Vector UInt8 32) : text (.string (newToken own)) ≠ tokenPlaceholder := by
  intro heq
  have hread : JsonText.cutString (tokenPlaceholder.drop 1) =
      some (JsonText.writeChars escapeHTML (newToken own), []) := by
    rw [← heq, text_string]
    exact JsonText.cutString_writeChars _ _ []
  have hname : (JsonText.cutString (tokenPlaceholder.drop 1)).bind (fun literal => JsonText.unquote literal.1) =
      some "__SETUP_TOKEN_PLACEHOLDER__" := by decide +kernel
  rw [hread, Option.bind_some, JsonText.unquote_writeChars (fun _ => escapeHTML_lt), Option.some.injEq] at hname
  have hlength := length_newToken own
  rw [hname] at hlength
  cases hlength

/-- Every request for the entry page of a session, that of the browser among them, is answered with one
page. It carries the session's token, and each of its own requests is admitted by the session with the same
random bytes and port, unless the token starts like the placeholder, and by no other. -/
theorem served_page_is_admitted_iff {page front back : List Char} (hpage : IsEntryPage page front back)
    {port port' : String} (hport : IsPort port) (hport' : IsPort port') (own other : Vector UInt8 32)
    (site site' : Site) (haccess : site.access = ⟨newToken own, loopbackHosts port⟩)
    (hindex : site.index = some (entryPage page)) (haccess' : site'.access = ⟨newToken other, loopbackHosts port'⟩) :
    site.enters (loadRequest port) = true ∧ ∃ html,
      (∀ (s : Session yaml lib) (r : HTTPRequest) (fg : Foreground) (order : MapOrder) (faults : SaveFaults yaml),
        site.enters r = true → (s.handleHTTP site r fg order faults).2 = ⟨200, .page html⟩) ∧
      embedded html.toList = some (newToken own) ∧
      ∀ call ∈ calls, ∀ body,
        (site'.admits (pageRequest port html.toList call body) = true ↔
          own = other ∧ port = port' ∧ ¬ "__SETUP_TOKEN".toList <+: (newToken own).toList) := by
  have hrender : entryPage page site.access.token =
      some (String.ofList (front ++ assignment ++ text (.string (newToken own)) ++ back)) := by
    rw [haccess, entryPage, setupIndex_eq_ok hpage (text_newToken_ne own)]
  refine ⟨enters_loadRequest haccess, _, fun s r fg order faults h => handleHTTP_of_enters h hindex hrender s fg order faults, ?_⟩
  rw [String.toList_ofList]
  refine ⟨embedded_injected hpage _, fun call hcall body => ?_⟩
  have hroute := entryMux_calls call hcall
  simp only [Site.admits, Bool.and_eq_true, decide_eq_true_eq, haccess', originAllowed_iff hport hport',
    tokenAllowed_page (embedded_injected hpage (newToken own))]
  rw [pageRequest]
  simp only [hroute, true_and]
  tauto

def servedSite (bytes : Vector UInt8 32) : Site where
  access := ⟨newToken bytes, loopbackHosts "49152"⟩
  index := some (entryPage (indexFront ++ assignment ++ tokenPlaceholder ++ indexBack))
  assets := none
  bodies := sampleSite.bodies

/-- The page of a token of zeros, loaded from a new session and used with others. -/
theorem served_page_is_admitted_iff_sample :
    let session : Session Agent.treeYaml Agent.plainLibrary := ⟨sampleServer, newCatalog ⟨20, 256⟩, [], false, false⟩
    ∃ html, (session.handleHTTP (servedSite (.replicate 32 0)) (loadRequest "49152") ⟨"", none, 0⟩
        ⟨id, List.Perm.refl⟩ .never).2 = ⟨200, .page html⟩ ∧
      ∀ other, (servedSite other).admits (pageRequest "49152" html.toList ("PUT", "/api/config") "") = true ↔
        .replicate 32 0 = other := by
  intro session
  have hport : IsPort "49152" := by
    intro c hc
    have hall : "49152".toList.all Char.isDigit = true := by decide
    exact List.all_eq_true.mp hall c hc
  have hserved (other : Vector UInt8 32) := @served_page_is_admitted_iff Agent.treeYaml Agent.plainLibrary
    _ _ _ isEntryPage_index _ _ hport hport (.replicate 32 0) other (servedSite (.replicate 32 0)) (servedSite other)
    rfl rfl rfl
  obtain ⟨henters, html, hpage, -, -⟩ := hserved (.replicate 32 0)
  refine ⟨html, hpage session _ _ _ _ henters, fun other => ?_⟩
  obtain ⟨-, html', hpage', -, hadmits⟩ := hserved other
  have hsame := (hpage session _ ⟨"", none, 0⟩ ⟨id, List.Perm.refl⟩ .never henters).symm.trans
    (hpage' session _ _ _ _ henters)
  simp only [Reply.mk.injEq, Content.page.injEq, true_and] at hsame
  rw [hsame, hadmits _ (by decide)]
  have hplain : ¬ "__SETUP_TOKEN".toList <+: (newToken (.replicate 32 0)).toList := by decide +kernel
  exact ⟨And.left, fun hother => ⟨hother, rfl, hplain⟩⟩

end CyberstalkMe.Setup
