import AuthService.Redirect
import AuthService.Library.Whatwg

/-!
# Redirect targets in the browser

`normalizeRedirectHref` (frontend, lib/authRedirect.ts), which the login page applies to the `redirect` of its search.
-/

namespace AuthService.Frontend

open Whatwg

/-- A JavaScript value: a string, or something that is none. A lone surrogate of a string counts as U+FFFD, which the URL parser
makes of it. -/
inductive JsValue where
  | string (s : List Char)
  | other
  deriving DecidableEq, Repr

/-- `authPagePaths`. -/
def authPagePaths : List (List Char) := ["/login".toList, "/register".toList]

/-- The default of `fallback`. -/
def defaultFallback : List Char := "/app".toList

/-- `normalizePathname`. -/
def normalizePathname (pathname : List Char) : List Char :=
  (if rstripSlash pathname = [] then ['/'] else rstripSlash pathname).map Char.toLower

variable {H : Type} [DecidableEq H] (parseHost : List Char → Option H)

/-- `normalizeRedirectHref`, on a page of an origin. -/
def normalizeRedirectHref (origin : Origin H) (value : JsValue) (fallback : List Char) : List Char :=
  match value with
  | .other => fallback
  | .string value =>
    if value = [] then fallback
    else if '\\' ∈ value ∨ hasAsciiControl value then fallback
    else match parse parseHost origin value with
      | none => fallback
      | some url =>
        if url.origin ≠ origin then fallback
        else if normalizePathname url.pathname ∈ authPagePaths then fallback
        else url.href

end AuthService.Frontend
