import AuthService.Library.Environment
import AuthService.Library.Replace
import AuthService.Entities
import AuthService.Redirect

/-!
# OIDC settings

`get_oidc_settings` (config/oidc.py), which reads the settings of the providers and the global ones from the environment.
-/

namespace AuthService.Config

open Urllib Replace

/-! ## Failures -/

/-- The message of a `ValueError`. -/
inductive Message where
  | text (message : Text)
  | urlparse (error : UrlError)
  | intLiteral (value : Text)
  deriving DecidableEq, Repr

/-- A `ValueError`, or the `ValidationError` of a model with the fields that failed. -/
inductive ConfigError where
  | valueError (message : Message)
  | validationError (errors : List (String × Message))
  deriving DecidableEq, Repr

/-- `raise ValueError(message)`. -/
def fail {α : Type} (message : Text) : Except Message α := .error (.text message)

/-- A field's entry of a `ValidationError`. -/
def fieldErrors {α : Type} (field : String) : Except Message α → List (String × Message)
  | .ok _ => []
  | .error message => [(field, message)]

/-- The methods of Python's `str` and `int`. -/
structure StrMethods where
  python : Python
  strip : Text → Text
  split : Text → List Text
  upper : Text → Text
  int : Text → Option Int

variable (M : StrMethods)

/-! ## Checks of the models -/

/-- `_PROVIDER_ID_PATTERN.fullmatch`. -/
def isProviderId : Text → Bool
  | [] => false
  | c :: s => isIdStart c && s.all fun c => isIdStart c || c == '_' || c == '-'
where
  isIdStart (c : Char) : Bool := ('a' ≤ c && c ≤ 'z') || ('0' ≤ c && c ≤ '9')

/-- `_validate_absolute_url`. -/
def validateAbsoluteUrl (value label : Text) : Except Message Unit :=
  match urlparse M.python value with
  | .error error => .error (.urlparse error)
  | .ok parsed =>
    if parsed.scheme ∉ ["https".toList, "http".toList] ∨ parsed.netloc = [] then
      fail (label ++ " must be an absolute URL".toList)
    else .ok ()

/-- `_validate_provider_id`. -/
def validateProviderId (value : Text) : Except Message Text :=
  if isProviderId value then .ok value
  else fail "provider_id must be lowercase alphanumeric, dash, or underscore".toList

/-- `_validate_issuer`. -/
def validateIssuer (value : Text) : Except Message Text := do
  validateAbsoluteUrl M value "issuer".toList
  return rstripSlash value

/-- `_validate_non_empty`. -/
def validateNonEmpty (value : Text) : Except Message Text :=
  if M.strip value = [] then fail "value must not be empty".toList else .ok value

/-- `_validate_callback_path`. -/
def validateCallbackPath (value : Text) : Except Message Text :=
  if ['/'] <+: value then .ok value else fail "callback_path must be an absolute path".toList

/-- `_validate_positive_int`. -/
def validatePositiveInt (value : Int) : Except Message Int :=
  if value < 1 then fail "value must be at least 1".toList else .ok value

/-- `_validate_redirect_base_url`. -/
def validateRedirectBaseUrl : Option Text → Except Message (Option Text)
  | none => .ok none
  | some value => do
    validateAbsoluteUrl M value "AUTH_OIDC_REDIRECT_BASE_URL".toList
    return some (rstripSlash value)

/-- `OidcProviderSettings`. -/
structure OidcProviderSettings where
  providerId : Text
  displayName : Text
  issuer : Text
  clientId : Text
  clientSecret : Text
  scope : List Text
  trustVerifiedEmail : Bool
  autoProvision : AutoProvisionMode
  linkMode : LinkMode
  callbackPath : Text
  claimsAllowlist : List Text
  deriving DecidableEq, Repr

/-- The validators of `OidcProviderSettings`. -/
def OidcProviderSettings.validate (p : OidcProviderSettings) : Except ConfigError OidcProviderSettings :=
  match validateProviderId p.providerId, validateNonEmpty M p.displayName, validateIssuer M p.issuer,
    validateNonEmpty M p.clientId, validateNonEmpty M p.clientSecret, validateCallbackPath p.callbackPath with
  | .ok providerId, .ok displayName, .ok issuer, .ok clientId, .ok clientSecret, .ok callbackPath =>
    .ok { p with providerId, displayName, issuer, clientId, clientSecret, callbackPath }
  | providerId, displayName, issuer, clientId, clientSecret, callbackPath =>
    .error (.validationError (fieldErrors "provider_id" providerId ++ fieldErrors "display_name" displayName ++
      fieldErrors "issuer" issuer ++ fieldErrors "client_id" clientId ++ fieldErrors "client_secret" clientSecret ++
      fieldErrors "callback_path" callbackPath))

/-- `OidcSettings`. -/
structure OidcSettings where
  providers : List OidcProviderSettings
  redirectBaseUrl : Option Text
  reauthFreshnessSeconds : Int
  authorizationStartsPerIp : Int
  stateTtlSeconds : Int
  authTimeFutureLeewaySeconds : Int := 60
  deriving DecidableEq, Repr

/-- The validators of `OidcSettings`. -/
def OidcSettings.validate (s : OidcSettings) : Except ConfigError OidcSettings :=
  match validateRedirectBaseUrl M s.redirectBaseUrl, validatePositiveInt s.reauthFreshnessSeconds,
    validatePositiveInt s.authorizationStartsPerIp, validatePositiveInt s.stateTtlSeconds with
  | .ok redirectBaseUrl, .ok reauthFreshnessSeconds, .ok authorizationStartsPerIp, .ok stateTtlSeconds =>
    -- `_validate_redirect_base_url_required_for_providers`
    if s.providers ≠ [] ∧ redirectBaseUrl = none then
      .error (.validationError
        [("", .text "AUTH_OIDC_REDIRECT_BASE_URL is required when OIDC providers are enabled".toList)])
    else .ok { s with redirectBaseUrl, reauthFreshnessSeconds, authorizationStartsPerIp, stateTtlSeconds }
  | redirectBaseUrl, reauthFreshnessSeconds, authorizationStartsPerIp, stateTtlSeconds =>
    .error (.validationError (fieldErrors "AUTH_OIDC_REDIRECT_BASE_URL" redirectBaseUrl ++
      fieldErrors "AUTH_OIDC_REAUTH_FRESHNESS_SECONDS" reauthFreshnessSeconds ++
      fieldErrors "AUTH_OIDC_AUTHORIZATION_STARTS_PER_IP" authorizationStartsPerIp ++
      fieldErrors "AUTH_OIDC_STATE_TTL_SECONDS" stateTtlSeconds))

/-- `get_provider`. -/
def OidcSettings.getProvider (s : OidcSettings) (providerId : Text) : Option OidcProviderSettings :=
  s.providers.find? (·.providerId = providerId)

/-! ## Reading -/

/-- The environment: the value of each variable that is set. -/
abbrev Environ := Text → Option Text

/-- A computation that reads variables of the environment. -/
abbrev Reader (α : Type) := Prog Text (fun _ => Option Text) ConfigError α

/-- `env.get`. -/
def get (name : Text) : Reader (Option Text) := Prog.perform name

/-- A check without reading. -/
def check {α : Type} : Except Message α → Reader α
  | .ok a => Prog.done (.ok a)
  | .error message => Prog.throw (.valueError message)

/-- `_required`. -/
def required (key : Text) : Reader Text := do
  match ← get key with
  | none => check (fail (key ++ " is required".toList))
  | some value => if M.strip value = [] then check (fail (key ++ " is required".toList)) else return value

/-- `_read_int`. -/
def readInt (key : Text) (default : Int) : Reader Int := do
  match ← get key with
  | none => return default
  | some raw =>
    if raw = [] then return default
    else match M.int raw with
      | none => check (.error (.intLiteral raw))
      | some value => return value

/-- `_read_bool`. -/
def readBool (value : Text) : Except Message Bool :=
  let normalized := M.python.lower (M.strip value)
  if normalized ∈ ["true".toList, "1".toList, "yes".toList] then .ok true
  else if normalized ∈ ["false".toList, "0".toList, "no".toList] then .ok false
  else fail "boolean value must be true or false".toList

/-- `_read_literal`, with what the allowed values stand for. -/
def readLiteral {α : Type} (value : Text) (allowed : List (Text × α)) (key : Text) : Except Message α :=
  match allowed.lookup value with
  | none => fail (key ++ " must be one of: ".toList ++ ", ".toList.intercalate (allowed.map Prod.fst))
  | some literal => .ok literal

/-- The values of `AutoProvisionMode`, sorted. -/
def autoProvisionModes : List (Text × AutoProvisionMode) := [("enabled".toList, .enabled), ("link-only".toList, .linkOnly)]

/-- The values of `LinkMode`, sorted. -/
def linkModes : List (Text × LinkMode) := [("auto".toList, .auto), ("disabled".toList, .disabled), ("manual".toList, .manual)]

/-- `_split_csv`. -/
def splitCsv (value : Text) : List Text := ((value.splitOn ',').filter fun part => M.strip part ≠ []).map M.strip

/-- `_split_csv_or_space`. -/
def splitCsvOrSpace (value : Text) : List Text :=
  if ',' ∈ value then splitCsv M value else ((M.split value).filter fun part => M.strip part ≠ []).map M.strip

/-- `_validate_unique`, with the values seen. -/
def validateUnique (label : Text) (seen : List Text) : List Text → Except Message Unit
  | [] => .ok ()
  | value :: values =>
    if value ∈ seen then fail (label ++ " contains duplicates".toList) else validateUnique label (value :: seen) values

/-- `_provider_env_suffix`. -/
def providerEnvSuffix (providerId : Text) : Text := M.upper (replace ['-'] ['_'] providerId)

/-- `_empty_to_none`. -/
def emptyToNone : Option Text → Option Text
  | none => none
  | some value => if value = [] then none else some value

/-- What the variables of the providers start with. -/
def providerVariables : Text := "AUTH_OIDC_PROVIDER_".toList

/-- The variable of a provider's field. -/
def providerVariable (providerId : Text) (field : String) : Text :=
  providerVariables ++ providerEnvSuffix M providerId ++ '_' :: field.toList

/-- `_read_provider`. -/
def readProvider (providerId : Text) : Reader OidcProviderSettings := do
  if isProviderId providerId = false then
    check (fail "AUTH_OIDC_ENABLED_PROVIDERS must contain lowercase provider ids".toList)
  else
    let key := providerVariable M providerId
    let callbackPath ← get (key "CALLBACK_PATH")
    let displayName ← required M (key "DISPLAY_NAME")
    let issuer ← required M (key "ISSUER")
    let clientId ← required M (key "CLIENT_ID")
    let clientSecret ← required M (key "CLIENT_SECRET")
    let scope ← get (key "SCOPE")
    let trustVerifiedEmail ← get (key "TRUST_VERIFIED_EMAIL")
    let trustVerifiedEmail ← check (readBool M (trustVerifiedEmail.getD "false".toList))
    let autoProvision ← get (key "AUTO_PROVISION")
    let autoProvision ←
      check (readLiteral (autoProvision.getD "link-only".toList) autoProvisionModes (key "AUTO_PROVISION"))
    let linkMode ← get (key "LINK_MODE")
    let linkMode ← check (readLiteral (linkMode.getD "manual".toList) linkModes (key "LINK_MODE"))
    let claimsAllowlist ← get (key "CLAIMS_ALLOWLIST")
    Prog.done (OidcProviderSettings.validate M {
      providerId, displayName, issuer, clientId, clientSecret
      scope := splitCsvOrSpace M (scope.getD "openid email profile".toList)
      trustVerifiedEmail, autoProvision, linkMode
      callbackPath := callbackPath.getD ("/api/auth/oidc/".toList ++ providerId ++ "/callback".toList)
      claimsAllowlist := splitCsv M (claimsAllowlist.getD []) })

/-- `_read_provider` for each id. -/
def readProviders : List Text → Reader (List OidcProviderSettings)
  | [] => return []
  | providerId :: providerIds => do
    let provider ← readProvider M providerId
    let providers ← readProviders providerIds
    return provider :: providers

def enabledProviders : Text := "AUTH_OIDC_ENABLED_PROVIDERS".toList

/-- `get_oidc_settings`. -/
def getOidcSettings : Reader OidcSettings := do
  let enabled ← get enabledProviders
  let providerIds := splitCsv M (enabled.getD [])
  check (validateUnique enabledProviders [] providerIds)
  check (validateUnique (enabledProviders ++ " env suffix".toList) [] (providerIds.map (providerEnvSuffix M)))
  let providers ← readProviders M providerIds
  let redirectBaseUrl ← get "AUTH_OIDC_REDIRECT_BASE_URL".toList
  let reauthFreshnessSeconds ← readInt M "AUTH_OIDC_REAUTH_FRESHNESS_SECONDS".toList 300
  let authorizationStartsPerIp ← readInt M "AUTH_OIDC_AUTHORIZATION_STARTS_PER_IP".toList 20
  let stateTtlSeconds ← readInt M "AUTH_OIDC_STATE_TTL_SECONDS".toList 300
  Prog.done (OidcSettings.validate M {
    providers, redirectBaseUrl := emptyToNone redirectBaseUrl, reauthFreshnessSeconds, authorizationStartsPerIp
    stateTtlSeconds })

end AuthService.Config
