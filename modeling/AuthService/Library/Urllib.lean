import Mathlib

/-!
# URLs as Python's `urllib.parse` reads and writes them

Texts are lists of characters. `urlparse` cuts a URL into its six parts, `urlunparse` puts six parts together, `parseQsl`
and `urlencode` read and write a query. What the standard library decides by tables that play no part here is a parameter
(`Python`): which authorities `urlsplit` refuses, and how `str.lower` maps characters.
-/

/-! Comparing texts, as characters or as code points, decides equality. -/

instance instLawfulBEqCharacters : LawfulBEq (List Char) := inferInstance

instance instLawfulBEqCodePoints : LawfulBEq (List Nat) := inferInstance

namespace Urllib

/-- What the functions below take from the Python runtime. -/
structure Python where
  /-- The authorities `urlsplit` refuses with `ValueError`: unbalanced brackets, brackets around something that is not an
  address, characters that Unicode normalisation turns into delimiters. -/
  rejectsNetloc : List Char → Bool
  rejectsNetloc_nil : rejectsNetloc [] = false
  /-- `str.lower`. -/
  lower : List Char → List Char
  lower_nil : lower [] = []
  lower_slash : ∀ s, lower ('/' :: s) = '/' :: lower s

/-- Texts of ASCII letters: an authority with one bracket is refused, letters are lowered one by one. -/
def Python.ascii : Python where
  rejectsNetloc netloc := decide ('[' ∈ netloc) != decide (']' ∈ netloc)
  rejectsNetloc_nil := rfl
  lower := List.map Char.toLower
  lower_nil := rfl
  lower_slash _ := rfl

/-- The exception `urlsplit` raises. -/
inductive UrlError where
  | valueError
  deriving DecidableEq, Repr

/-- The parts `urlparse` returns. -/
structure ParseResult where
  scheme : List Char
  netloc : List Char
  path : List Char
  params : List Char
  query : List Char
  fragment : List Char
  deriving DecidableEq, Repr

/-! ## Taking a URL apart -/

/-- The text before the first `c`, and the text after it when `c` occurs (`str.split(c, 1)`, `str.partition`). -/
def partition (c : Char) (s : List Char) : List Char × List Char :=
  (s.takeWhile (· ≠ c), (s.dropWhile (· ≠ c)).tail)

/-- The characters of a scheme. -/
def isSchemeChar (c : Char) : Bool := c.isAlphanum || c == '+' || c == '-' || c == '.'

/-- What `urlsplit` removes before it looks: leading C0 controls and spaces, and every tab and line break. -/
def clean (url : List Char) : List Char :=
  (url.dropWhile (fun c => c.toNat ≤ 0x20)).filter (fun c => c ≠ '\t' && c ≠ '\r' && c ≠ '\n')

/-- The scheme of a URL and what follows it; the scheme is empty when there is none. -/
def splitScheme (url : List Char) : List Char × List Char :=
  let before := url.takeWhile (· ≠ ':')
  if ':' ∈ url ∧ before.head?.any Char.isAlpha ∧ before.all isSchemeChar then
    (before.map Char.toLower, (partition ':' url).2)
  else ([], url)

/-- A character that ends an authority. -/
def endsNetloc (c : Char) : Bool := c == '/' || c == '?' || c == '#'

/-- The authority of what follows the scheme (the text between a leading `//` and the next `/`, `?` or `#`) and the rest. -/
def splitNetloc : List Char → List Char × List Char
  | '/' :: '/' :: rest => (rest.takeWhile (fun c => !endsNetloc c), rest.dropWhile (fun c => !endsNetloc c))
  | url => ([], url)

/-- The path of `url` without the parameters of its last segment (`_splitparams`): the cut is at the first `;` after the
last `/`. -/
def splitParams (url : List Char) : List Char × List Char :=
  let lastSegment := (url.reverse.takeWhile (· ≠ '/')).reverse
  let before := url.take (url.length - lastSegment.length)
  (before ++ (partition ';' lastSegment).1, (partition ';' lastSegment).2)

/-- The schemes whose last path segment may carry parameters (`uses_params`). -/
def usesParams : List (List Char) :=
  ["", "ftp", "hdl", "prospero", "http", "imap", "https", "shttp", "rtsp", "rtsps", "rtspu", "sip", "sips", "mms", "sftp",
    "tel"].map String.toList

/-- `urllib.parse.urlparse`. -/
def urlparse (P : Python) (url : List Char) : Except UrlError ParseResult :=
  let (scheme, afterScheme) := splitScheme (clean url)
  let (netloc, afterNetloc) := splitNetloc afterScheme
  if P.rejectsNetloc netloc then .error .valueError
  else
    let (beforeFragment, fragment) := partition '#' afterNetloc
    let (wholePath, query) := partition '?' beforeFragment
    let (path, params) := if scheme ∈ usesParams then splitParams wholePath else (wholePath, [])
    .ok { scheme, netloc, path, params, query, fragment }

/-! ## Putting a URL together -/

/-- `urllib.parse.urlunparse` of parts with neither scheme nor authority nor parameters. A path that starts with `//`
gets an empty authority in front. -/
def urlunparse (path query fragment : List Char) : List Char :=
  (if ['/', '/'] <+: path then ['/', '/'] ++ path else path) ++
    (if query = [] then [] else '?' :: query) ++ (if fragment = [] then [] else '#' :: fragment)

/-! ## Queries -/

/-- The value of a hexadecimal digit. -/
def hexValue (c : Char) : Option Nat :=
  if '0' ≤ c ∧ c ≤ '9' then some (c.toNat - 48)
  else if 'a' ≤ c ∧ c ≤ 'f' then some (c.toNat - 87)
  else if 'A' ≤ c ∧ c ≤ 'F' then some (c.toNat - 55)
  else none

/-- The bytes of an ASCII text with its `%xx` escapes replaced; an escape that is not one stays as it is. -/
def unquoteToBytes : List Char → List Nat
  | '%' :: a :: b :: rest =>
    match hexValue a, hexValue b with
    | some x, some y => (16 * x + y) :: unquoteToBytes rest
    | _, _ => '%'.toNat :: unquoteToBytes (a :: b :: rest)
  | c :: rest => c.toNat :: unquoteToBytes rest
  | [] => []

/-- The placeholder of a byte sequence that is not UTF-8. -/
def replacement : Char := Char.ofNat 0xFFFD

/-- A continuation byte of UTF-8. -/
def isContinuation (b : Nat) : Bool := 0x80 ≤ b && b < 0xC0

/-- The second bytes that may follow the first byte of a sequence of three or four bytes. -/
def secondOk (b c : Nat) : Bool :=
  if b = 0xE0 then 0xA0 ≤ c && c < 0xC0
  else if b = 0xED then 0x80 ≤ c && c < 0xA0
  else if b = 0xF0 then 0x90 ≤ c && c < 0xC0
  else if b = 0xF4 then 0x80 ≤ c && c < 0x90
  else isContinuation c

/-- `bytes.decode("utf-8", "replace")`: a maximal piece of a broken sequence becomes one placeholder. The fuel is the number
of bytes. -/
def decodeUtf8 : Nat → List Nat → List Char
  | _, [] => []
  | 0, _ => []
  | fuel + 1, b :: bs =>
    if b < 0x80 then Char.ofNat b :: decodeUtf8 fuel bs
    else if 0xC2 ≤ b ∧ b < 0xE0 then
      match bs with
      | c :: cs =>
        if isContinuation c then Char.ofNat ((b - 0xC0) * 64 + (c - 0x80)) :: decodeUtf8 fuel cs
        else replacement :: decodeUtf8 fuel bs
      | [] => [replacement]
    else if 0xE0 ≤ b ∧ b < 0xF0 then
      match bs with
      | c :: cs =>
        if secondOk b c then
          match cs with
          | d :: ds =>
            if isContinuation d then
              Char.ofNat ((b - 0xE0) * 4096 + (c - 0x80) * 64 + (d - 0x80)) :: decodeUtf8 fuel ds
            else replacement :: decodeUtf8 fuel cs
          | [] => [replacement]
        else replacement :: decodeUtf8 fuel bs
      | [] => [replacement]
    else if 0xF0 ≤ b ∧ b < 0xF5 then
      match bs with
      | c :: cs =>
        if secondOk b c then
          match cs with
          | d :: ds =>
            if isContinuation d then
              match ds with
              | e :: es =>
                if isContinuation e then
                  Char.ofNat ((b - 0xF0) * 262144 + (c - 0x80) * 4096 + (d - 0x80) * 64 + (e - 0x80)) ::
                    decodeUtf8 fuel es
                else replacement :: decodeUtf8 fuel ds
              | [] => [replacement]
            else replacement :: decodeUtf8 fuel cs
          | [] => [replacement]
        else replacement :: decodeUtf8 fuel bs
      | [] => [replacement]
    else replacement :: decodeUtf8 fuel bs

/-- An ASCII character. -/
def isAscii (c : Char) : Bool := c.toNat < 0x80

/-- `urllib.parse.unquote`: the escapes of each run of ASCII characters are decoded together, other characters stay. -/
def unquote (s : List Char) : List Char :=
  if '%' ∈ s then
    (s.splitBy (fun a b => isAscii a == isAscii b)).flatMap
      (fun run => if run.all isAscii then decodeUtf8 (unquoteToBytes run).length (unquoteToBytes run) else run)
  else s

/-- `unquote_plus`: a `+` is a space. -/
def unquotePlus (s : List Char) : List Char := unquote (s.map (fun c => if c = '+' then ' ' else c))

/-- `str.split(c)`. -/
def splitOn (c : Char) (s : List Char) : List (List Char) := s.splitOn c

/-- `parse_qsl(query, keep_blank_values=True)`. -/
def parseQsl (query : List Char) : List (List Char × List Char) :=
  ((splitOn '&' query).filter (· ≠ [])).map
    (fun nameValue => (unquotePlus (partition '=' nameValue).1, unquotePlus (partition '=' nameValue).2))

/-- The characters `quote` never escapes. -/
def alwaysSafe (c : Char) : Bool := c.isAlphanum || c == '_' || c == '.' || c == '-' || c == '~'

/-- A hexadecimal digit, in capitals. -/
def hexDigit (n : Nat) : Char := Char.ofNat (if n < 10 then 48 + n else 55 + n)

/-- The escape of a byte. -/
def percentByte (b : UInt8) : List Char := ['%', hexDigit (b.toNat / 16), hexDigit (b.toNat % 16)]

/-- `quote_plus` of one character. -/
def quotePlusChar (c : Char) : List Char :=
  if c = ' ' then ['+']
  else if alwaysSafe c then [c]
  else (String.utf8EncodeChar c).flatMap percentByte

/-- `quote_plus`. -/
def quotePlus (s : List Char) : List Char := s.flatMap quotePlusChar

/-- `urlencode` of a mapping, in its order. -/
def urlencode (items : List (List Char × List Char)) : List Char :=
  ['&'].intercalate (items.map (fun kv => quotePlus kv.1 ++ '=' :: quotePlus kv.2))

/-! ## The parts of a URL come from the URL -/

/-- The part before a separator starts the text. -/
theorem partition_fst_prefixOf (c : Char) (s : List Char) : (partition c s).1 <+: s :=
  List.takeWhile_prefix _

/-- The part before a separator is made of the text's characters. -/
theorem partition_fst_subset (c : Char) (s : List Char) : (partition c s).1 ⊆ s :=
  (partition_fst_prefixOf c s).subset

/-- The part after a separator is made of the text's characters. -/
theorem partition_snd_subset (c : Char) (s : List Char) : (partition c s).2 ⊆ s :=
  fun _ hx => (List.dropWhile_suffix _).subset (List.mem_of_mem_tail hx)

/-- A slash in front stays in front of the path: the parameters are cut off after the last slash. -/
theorem splitParams_slash (u : List Char) : (splitParams ('/' :: u)).1 = '/' :: (splitParams u).1 := by
  have hlast : (('/' :: u).reverse.takeWhile (· ≠ '/')).reverse = (u.reverse.takeWhile (· ≠ '/')).reverse := by
    rw [List.reverse_cons, List.takeWhile_append]
    split
    · rename_i hall
      rw [(List.takeWhile_prefix _).eq_of_length hall]
      simp
    · rfl
  have hle : (u.reverse.takeWhile (· ≠ '/')).reverse.length ≤ u.length := by
    have := (List.takeWhile_prefix (· ≠ '/') (l := u.reverse)).length_le
    simpa using this
  simp only [splitParams, hlast, List.length_cons]
  rw [Nat.succ_sub hle, List.take_succ_cons, List.cons_append]

/-- A path without its parameters starts the path. -/
theorem splitParams_prefixOf (u : List Char) : (splitParams u).1 <+: u := by
  have hsuf : (u.reverse.takeWhile (· ≠ '/')).reverse <:+ u := by
    have h := List.reverse_suffix.2 (List.takeWhile_prefix (· ≠ '/') (l := u.reverse))
    rwa [List.reverse_reverse] at h
  obtain ⟨before, hb⟩ := hsuf
  generalize hl : (u.reverse.takeWhile (· ≠ '/')).reverse = last at hb
  have htake : u.take (u.length - last.length) = before := by
    rw [← hb]
    simp
  simp only [splitParams, hl]
  rw [htake, ← hb]
  exact (List.prefix_append_right_inj _).2 (partition_fst_prefixOf ';' last)

/-- The path of what follows the authority, without query, fragment and parameters. -/
def pathOf (rest : List Char) : List Char := (splitParams (partition '?' (partition '#' rest).1).1).1

/-- The path starts what follows the network location. -/
theorem pathOf_prefixOf (rest : List Char) : pathOf rest <+: rest :=
  (splitParams_prefixOf _).trans ((partition_fst_prefixOf _ _).trans (partition_fst_prefixOf _ _))

/-- A slash in front of what follows the authority stays in front of the path. -/
theorem pathOf_slash (rest : List Char) : pathOf ('/' :: rest) = '/' :: pathOf rest := by
  have h : ∀ c, c ≠ '/' → ∀ s, (partition c ('/' :: s)).1 = '/' :: (partition c s).1 := by
    intro c hc s
    simp [partition, hc.symm]
  simp only [pathOf]
  rw [h '#' (by decide), h '?' (by decide), splitParams_slash]

/-- A URL that starts with a slash and holds no control character has no scheme: only the authority, when the text starts
with two slashes, can be refused. -/
theorem urlparse_slash (P : Python) (t : List Char) (hc : ∀ c ∈ t, 0x20 ≤ c.toNat) :
    urlparse P ('/' :: t) =
      if P.rejectsNetloc (splitNetloc ('/' :: t)).1 then .error .valueError
      else .ok { scheme := [], netloc := (splitNetloc ('/' :: t)).1, path := pathOf (splitNetloc ('/' :: t)).2,
                 params := (splitParams (partition '?' (partition '#' (splitNetloc ('/' :: t)).2).1).1).2,
                 query := (partition '?' (partition '#' (splitNetloc ('/' :: t)).2).1).2,
                 fragment := (partition '#' (splitNetloc ('/' :: t)).2).2 } := by
  have hclean : clean ('/' :: t) = '/' :: t := by
    have hfilter : ∀ c ∈ '/' :: t, (c ≠ '\t' && c ≠ '\r' && c ≠ '\n') = true := by
      intro c hm
      have hge : 0x20 ≤ c.toNat := by
        rcases List.mem_cons.1 hm with rfl | hm
        · decide
        · exact hc c hm
      have hne : ∀ d : Char, d.toNat < 0x20 → c ≠ d := fun d hd he => by
        subst he
        omega
      simp [hne '\t' (by decide), hne '\r' (by decide), hne '\n' (by decide)]
    rw [clean, List.dropWhile_cons_of_neg (by decide), List.filter_eq_self.2 hfilter]
  have hscheme : splitScheme ('/' :: t) = ([], '/' :: t) := by
    simp only [splitScheme]
    rw [if_neg]
    rintro ⟨-, halpha, -⟩
    rw [List.takeWhile_cons_of_pos (by decide)] at halpha
    exact Bool.false_ne_true halpha
  have hnil : ([] : List Char) ∈ usesParams := by decide
  simp only [urlparse, hclean, hscheme, hnil, if_true]
  rfl

/-! ## What a query is written with -/

/-- A character `urlencode` writes: a letter, a digit or one of a few marks. -/
def isQueryChar (c : Char) : Bool := alwaysSafe c || c == '+' || c == '%' || c == '=' || c == '&'

/-- A hexadecimal digit may occur in an encoded query. -/
theorem isQueryChar_hexDigit (n : Nat) (h : n < 16) : isQueryChar (hexDigit n) = true := by
  have : ∀ k : Fin 16, isQueryChar (hexDigit k) = true := by decide
  exact this ⟨n, h⟩

/-- `quote_plus` writes characters of an encoded query only. -/
theorem isQueryChar_quotePlus (s : List Char) : ∀ c ∈ quotePlus s, isQueryChar c = true := by
  intro c hc
  obtain ⟨d, -, hd⟩ := List.mem_flatMap.1 hc
  unfold quotePlusChar at hd
  split at hd
  · rw [List.mem_singleton.1 hd]
    decide
  · split at hd
    · rename_i hsafe
      rw [List.mem_singleton.1 hd]
      simp [isQueryChar, hsafe]
    · obtain ⟨b, -, hb⟩ := List.mem_flatMap.1 hd
      have hlt := b.toNat_lt
      simp only [percentByte, List.mem_cons, List.not_mem_nil, or_false] at hb
      rcases hb with rfl | rfl | rfl
      · decide
      · exact isQueryChar_hexDigit _ (by omega)
      · exact isQueryChar_hexDigit _ (by omega)

/-- `urlencode` writes characters of an encoded query only. -/
theorem isQueryChar_urlencode (items : List (List Char × List Char)) : ∀ c ∈ urlencode items, isQueryChar c = true := by
  have hitem : ∀ kv : List Char × List Char, ∀ c ∈ quotePlus kv.1 ++ '=' :: quotePlus kv.2, isQueryChar c = true := by
    intro kv c hc
    rcases List.mem_append.1 hc with hc | hc
    · exact isQueryChar_quotePlus _ c hc
    · rcases List.mem_cons.1 hc with rfl | hc
      · decide
      · exact isQueryChar_quotePlus _ c hc
  intro c hm
  obtain ⟨part, hpart, hc⟩ := List.mem_flatten.1 hm
  clear hm
  induction items with
  | nil => simp at hpart
  | cons kv rest ih =>
    cases rest with
    | nil =>
      simp only [List.map_cons, List.map_nil, List.intersperse_singleton, List.mem_singleton] at hpart
      exact hitem kv c (hpart ▸ hc)
    | cons kv' rest =>
      simp only [List.map_cons, List.intersperse_cons_cons, List.mem_cons] at hpart ih
      rcases hpart with rfl | rfl | hpart
      · exact hitem kv c hc
      · rw [List.mem_singleton.1 hc]
        decide
      · exact ih hpart

end Urllib
