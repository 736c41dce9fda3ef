import AuthService.Library.QueryRoundTrip

/-!
# URLs as browsers read them

The URL parser of the web, against a base that is an origin of `http` or `https`. Texts are lists of characters. How a host is
read is a parameter. A URL of another scheme than `http`, `https` and `blob` has an origin that no such page has: it counts as one
that does not parse.
-/

namespace Whatwg

open Urllib (partition isSchemeChar percentByte)

/-- The schemes of pages. -/
inductive Scheme where
  | http | https
  deriving DecidableEq, Repr

def Scheme.text : Scheme → List Char
  | .http => "http".toList
  | .https => "https".toList

def Scheme.defaultPort : Scheme → Nat
  | .http => 80
  | .https => 443

/-- The scheme of this name. -/
def Scheme.ofText (text : List Char) : Option Scheme :=
  if text = "http".toList then some .http else if text = "https".toList then some .https else none

/-- A tuple origin. The port is absent when it is the default of the scheme. -/
structure Origin (H : Type) where
  scheme : Scheme
  host : H
  port : Option Nat
  deriving DecidableEq, Repr

/-- A parsed URL: its origin, and what the interface `URL` shows of it. -/
structure Url (H : Type) where
  origin : Origin H
  isBlob : Bool
  pathname : List Char
  search : List Char
  hash : List Char
  deriving DecidableEq, Repr

/-- The serialisation after the origin. -/
def Url.href {H : Type} (url : Url H) : List Char := url.pathname ++ url.search ++ url.hash

/-! ## Percent-encoding -/

/-- The C0 control percent-encode set. -/
def c0Set (c : Char) : Bool := c.toNat < 0x20 || 0x7E < c.toNat

/-- The fragment percent-encode set. -/
def fragmentSet (c : Char) : Bool := c0Set c || c ∈ " \"<>`".toList

/-- The query percent-encode set. -/
def querySet (c : Char) : Bool := c0Set c || c ∈ " \"#<>".toList

/-- The special-query percent-encode set. -/
def specialQuerySet (c : Char) : Bool := querySet c || c ∈ "'".toList

/-- The path percent-encode set. -/
def pathSet (c : Char) : Bool := querySet c || c ∈ "?^`{}".toList

/-- A character of the set becomes the escapes of its bytes. -/
def encodeChar (set : Char → Bool) (c : Char) : List Char :=
  if set c then (String.utf8EncodeChar c).flatMap percentByte else [c]

def encode (set : Char → Bool) (s : List Char) : List Char := s.flatMap (encodeChar set)

/-! ## Paths -/

def isSlash (c : Char) : Bool := c == '/' || c == '\\'

/-- A segment `.`. -/
def isSingleDot (segment : List Char) : Bool := segment.map Char.toLower ∈ [".", "%2e"].map String.toList

/-- A segment `..`. -/
def isDoubleDot (segment : List Char) : Bool :=
  segment.map Char.toLower ∈ ["..", ".%2e", "%2e.", "%2e%2e"].map String.toList

/-- The path after some segments: `..` takes one off, `.` adds none. At the end both leave an empty segment. -/
def walk : List (List Char) → List (List Char) → List (List Char)
  | path, [] => path
  | path, [last] =>
    if isDoubleDot last then path.dropLast ++ [[]] else if isSingleDot last then path ++ [[]] else path ++ [last]
  | path, segment :: segments =>
    walk (if isDoubleDot segment then path.dropLast else if isSingleDot segment then path else path ++ [segment]) segments

/-- The segments of a path text. A backslash is a slash. -/
def segmentsOf (text : List Char) : List (List Char) := (text.map fun c => if c = '\\' then '/' else c).splitOn '/'

/-- The URL path serialiser. -/
def serialize (path : List (List Char)) : List Char := path.flatMap fun segment => '/' :: segment

/-- The path of what follows the origin, which may start with a slash. -/
def pathOf (text : List Char) : List Char :=
  serialize (walk [] ((segmentsOf (if text.head?.any isSlash then text.tail else text)).map (encode pathSet)))

/-! ## The parser -/

/-- Leading and trailing C0 controls and spaces are removed, and every tab and line break. -/
def clean (input : List Char) : List Char :=
  ((input.dropWhile fun c => c.toNat ≤ 0x20).reverse.dropWhile fun c => c.toNat ≤ 0x20).reverse.filter fun c =>
    c ≠ '\t' && c ≠ '\r' && c ≠ '\n'

/-- The scheme and what follows it. -/
def splitScheme (input : List Char) : Option (List Char × List Char) :=
  let before := input.takeWhile (· ≠ ':')
  if ':' ∈ input ∧ before.head?.any Char.isAlpha ∧ before.all isSchemeChar then
    some (before.map Char.toLower, (partition ':' input).2)
  else none

/-- `?` and a query that is not empty. -/
def searchOf (set : Char → Bool) (query : List Char) : List Char := if query = [] then [] else '?' :: encode set query

/-- `#` and a fragment that is not empty. -/
def hashOf (fragment : List Char) : List Char := if fragment = [] then [] else '#' :: encode fragmentSet fragment

variable {H : Type} (parseHost : List Char → Option H)

/-- A URL of an origin, from the path, the query and the fragment that follow. -/
def afterOrigin (origin : Origin H) (rest : List Char) : Url H where
  origin
  isBlob := false
  pathname := pathOf (partition '?' (partition '#' rest).1).1
  search := searchOf specialQuerySet (partition '?' (partition '#' rest).1).2
  hash := hashOf (partition '#' rest).2

/-- The host before the first `:` that stands outside of brackets, and what follows this `:`. -/
def splitHost : Bool → List Char → List Char × Option (List Char)
  | _, [] => ([], none)
  | inside, c :: rest =>
    if c = ':' ∧ !inside then ([], some rest)
    else
      let (host, port) := splitHost (if c = '[' then true else if c = ']' then false else inside) rest
      (c :: host, port)

/-- A port: digits, at most 65535. -/
def parsePort (scheme : Scheme) : Option (List Char) → Option (Option Nat)
  | none => some none
  | some digits =>
    if digits = [] then some none
    else if digits.all Char.isDigit then
      let port := digits.foldl (fun n c => 10 * n + (c.toNat - '0'.toNat)) 0
      if 65535 < port then none else if port = scheme.defaultPort then some none else some (some port)
    else none

/-- A character that ends an authority. -/
def endsAuthority (c : Char) : Bool := isSlash c || c == '?' || c == '#'

/-- A URL whose authority comes next. What stands before the last `@` are credentials. -/
def authority (scheme : Scheme) (rest : List Char) : Option (Url H) := do
  let text := rest.takeWhile fun c => !endsAuthority c
  let (host, port) := splitHost false (text.reverse.takeWhile (· ≠ '@')).reverse
  if host = [] then none
  else
    let host ← parseHost host
    let port ← parsePort scheme port
    return afterOrigin ⟨scheme, host, port⟩ (rest.dropWhile fun c => !endsAuthority c)

/-- A URL without a scheme of its own: two slashes introduce an authority. -/
def relative (base : Origin H) (input : List Char) : Option (Url H) :=
  match input with
  | c :: d :: _ =>
    if isSlash c && isSlash d then authority parseHost base.scheme (input.dropWhile isSlash) else some (afterOrigin base input)
  | _ => some (afterOrigin base input)

/-- The opaque path of a URL. A space before the query or the fragment is escaped. -/
def opaquePath (text : List Char) : List Char :=
  if text.getLast? = some ' ' then encode c0Set text.dropLast ++ "%20".toList else encode c0Set text

/-- A URL without a base. -/
def parseAbsolute (input : List Char) : Option (Url H) := do
  let (scheme, rest) ← splitScheme (clean input)
  authority parseHost (← Scheme.ofText scheme) (rest.dropWhile isSlash)

/-- A `blob` URL has the origin of the URL that is its path. -/
def blob (rest : List Char) : Option (Url H) :=
  if rest.head? = some '/' then none
  else do
    let pathname := opaquePath (partition '?' (partition '#' rest).1).1
    let inner ← parseAbsolute parseHost pathname
    return ⟨inner.origin, true, pathname, searchOf querySet (partition '?' (partition '#' rest).1).2, hashOf (partition '#' rest).2⟩

/-- The URL parser, against the origin of a page. -/
def parse (base : Origin H) (input : List Char) : Option (Url H) :=
  match splitScheme (clean input) with
  | none => relative parseHost base (clean input)
  | some (scheme, rest) =>
    if scheme = base.scheme.text then relative parseHost base rest
    else match Scheme.ofText scheme with
      | some scheme => authority parseHost scheme (rest.dropWhile isSlash)
      | none => if scheme = "blob".toList then blob parseHost rest else none

end Whatwg
