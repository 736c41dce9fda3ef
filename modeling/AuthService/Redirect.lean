import AuthService.Library.Urllib

/-!
# Redirect targets of the OIDC flow

`_normalize_redirect_path` (usecases/oauth_oidc_usecase.py) decides which redirect target a start stores, and
`merge_redirect_query` (controllers/auth_controller.py) builds from it the `Location` of the callback's answer.
-/

namespace AuthService

open Urllib

/-! ## The target a start stores -/

/-- `AUTH_REDIRECT_PATHS`. -/
def authRedirectPaths : List (List Char) := ["/login".toList, "/register".toList]

/-- `DEFAULT_REDIRECT_PATH`. -/
def defaultRedirectPath : List Char := "/app".toList

/-- An ASCII control character. -/
def isAsciiControl (c : Char) : Bool := c.toNat ≤ 0x1F || c.toNat == 0x7F

/-- `_has_ascii_control`. -/
def hasAsciiControl (value : List Char) : Bool := value.any isAsciiControl

/-- `str.rstrip("/")`. -/
def rstripSlash (s : List Char) : List Char := (s.reverse.dropWhile (· = '/')).reverse

/-- A path (`/` when it is empty) with the query and the fragment that are not empty. -/
def targetOf (path query fragment : List Char) : List Char :=
  (if path = [] then ['/'] else path) ++ (if query = [] then [] else '?' :: query) ++
    (if fragment = [] then [] else '#' :: fragment)

/-- The path leads to a page of the login flow, whatever its letters' case and its trailing slashes. -/
def isAuthPage (P : Python) (path : List Char) : Bool :=
  P.lower (if rstripSlash path = [] then ['/'] else rstripSlash path) ∈ authRedirectPaths

/-- `_normalize_redirect_path`: the path, query and fragment of an acceptable value, and the default for any other. -/
def normalizeRedirectPath (P : Python) (value : Option (List Char)) : Except UrlError (List Char) :=
  match value with
  | none => .ok defaultRedirectPath
  | some value =>
    if value = [] then .ok defaultRedirectPath
    else if 2048 < value.length then .ok defaultRedirectPath
    else if value.head? ≠ some '/' then .ok defaultRedirectPath
    else if '\\' ∈ value ∨ hasAsciiControl value then .ok defaultRedirectPath
    else do
      let parsed ← urlparse P value
      if parsed.scheme ≠ [] ∨ parsed.netloc ≠ [] then return defaultRedirectPath
      if isAuthPage P parsed.path then return defaultRedirectPath
      let normalized := targetOf parsed.path parsed.query parsed.fragment
      if 2048 < normalized.length then return defaultRedirectPath
      return normalized

/-! ## The answer of a callback -/

/-- Assignment to a key of a Python dictionary: an existing key keeps its place. -/
def dictSet (items : List (List Char × List Char)) (key value : List Char) : List (List Char × List Char) :=
  if items.any (fun kv => kv.1 = key) then items.map (fun kv => if kv.1 = key then (key, value) else kv)
  else items ++ [(key, value)]

/-- `dict(pairs)`. -/
def dictOf (pairs : List (List Char × List Char)) : List (List Char × List Char) :=
  pairs.foldl (fun items kv => dictSet items kv.1 kv.2) []

/-- One keyword of `merge_redirect_query`: `None` drops the parameter, a text sets it. -/
def applyUpdate (items : List (List Char × List Char)) (update : List Char × Option (List Char)) :
    List (List Char × List Char) :=
  match update.2 with
  | none => items.filter (fun kv => kv.1 ≠ update.1)
  | some value => dictSet items update.1 value

/-- `merge_redirect_query`. -/
def mergeRedirectQuery (P : Python) (redirectPath : List Char) (updates : List (List Char × Option (List Char))) :
    Except UrlError (List Char) := do
  let parsed ← urlparse P redirectPath
  let queryItems := updates.foldl applyUpdate (dictOf (parseQsl parsed.query))
  return urlunparse (if parsed.path = [] then ['/'] else parsed.path) (urlencode queryItems) parsed.fragment

/-- The ways a callback answers with a redirect built from the stored target. -/
inductive CallbackAnswer where
  | loginSuccess
  | reauthSuccess
  | reauthFailure (code : List Char)
  deriving DecidableEq, Repr

/-- The query updates of an answer (`complete_oidc_callback`, `oidc_callback_failure_redirect`). -/
def CallbackAnswer.updates : CallbackAnswer → List (List Char × Option (List Char))
  | .loginSuccess => [("oidc_error".toList, none), ("oidc_reauth".toList, none)]
  | .reauthSuccess => [("oidc_error".toList, none), ("oidc_reauth".toList, some "success".toList)]
  | .reauthFailure code => [("oidc_error".toList, some code), ("oidc_reauth".toList, none)]

/-- The `Location` of an answer, from the stored target. -/
def callbackLocation (P : Python) (redirectPath : List Char) (answer : CallbackAnswer) : Except UrlError (List Char) :=
  mergeRedirectQuery P redirectPath answer.updates

/-! ## What a browser resolves on the same origin -/

/-- A target that begins with exactly one `/` and holds neither a backslash nor a control character. -/
structure SameOrigin (location : List Char) : Prop where
  absolute : ['/'] <+: location
  notAuthority : ¬['/', '/'] <+: location
  notBackslashAuthority : ¬['/', '\\'] <+: location
  noBackslash : '\\' ∉ location
  noControl : hasAsciiControl location = false

/-- A redirect parameter is safe: the target stored for it, and every answer built from that target, stay on the origin. -/
def RedirectSafe (P : Python) (value : List Char) : Prop :=
  ∀ stored, normalizeRedirectPath P (some value) = .ok stored →
    SameOrigin stored ∧ ∀ answer location, callbackLocation P stored answer = .ok location → SameOrigin location

/-- A value that passes every check on the raw text and starts with four slashes. -/
def HidesAuthority (value : List Char) : Prop :=
  ['/', '/', '/', '/'] <+: value ∧ value.length ≤ 2048 ∧ '\\' ∉ value ∧ hasAsciiControl value = false

end AuthService
