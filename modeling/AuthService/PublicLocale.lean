import AuthService.Entities

/-!
# Locales in public paths

`localeFromPathname`, `stripLocaleFromPathname` and `withLocaleInPath` (frontend, lib/i18n/publicLocale.ts), with
`isLanguageCode` (lib/i18n/languages.ts).
-/

namespace AuthService

/-- The value of a `LanguageCode`. -/
def LanguageCode.text : LanguageCode → List Char
  | .en => "en".toList
  | .ja => "ja".toList

end AuthService

namespace AuthService.Frontend

/-- `supportedLanguages`. -/
def supportedLanguages : List LanguageCode := [.en, .ja]

/-- `isLanguageCode`, with the language of the value. -/
def isLanguageCode (value : List Char) : Option LanguageCode := supportedLanguages.find? (·.text = value)

/-- `pathname.split('/').filter(Boolean)`. -/
def segments (pathname : List Char) : List (List Char) := (pathname.splitOn '/').filter (· ≠ [])

/-- `localeFromPathname`. -/
def localeFromPathname (pathname : List Char) : Option LanguageCode := (segments pathname).head?.bind isLanguageCode

/-- `stripLocaleFromPathname`. -/
def stripLocaleFromPathname (pathname : List Char) : List Char :=
  match localeFromPathname pathname with
  | none => pathname
  | some locale =>
    let stripped := pathname.drop (locale.text.length + 1)
    if ['/'] <+: stripped then (if stripped = [] then ['/'] else stripped) else '/' :: stripped

/-- `withLocaleInPath`. -/
def withLocaleInPath (pathname : List Char) (language : LanguageCode) : List Char :=
  let stripped := stripLocaleFromPathname pathname
  if stripped = ['/'] then '/' :: language.text ++ ['/'] else '/' :: language.text ++ stripped

end AuthService.Frontend
