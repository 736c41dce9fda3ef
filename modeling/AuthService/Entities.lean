import AuthService.Redirect
import AuthService.RateLimiter

/-!
# Rows, settings and errors

The tables of the service (models/), its settings (config/) and the exceptions of its use cases. Times are microseconds since
the epoch, and the timestamp columns keep whole milliseconds. The columns `created_at`, `updated_at` and `claims_json` are left
out: nothing reads them.
-/

namespace AuthService

abbrev Text := List Char

abbrev Uuid := Nat

/-- A time in microseconds since the epoch. -/
abbrev DateTime := Int

/-- `timedelta(seconds=n)`. -/
def seconds (n : Int) : Int := n * 1000000

/-- `UnixTimestampMillis`: a column keeps the whole milliseconds of a time. -/
def toMillis (t : DateTime) : DateTime := t / 1000 * 1000

theorem toMillis_le (t : DateTime) : toMillis t ≤ t := Int.ediv_mul_le t (by decide)

/-- Rounding down loses less than a millisecond. -/
theorem lt_toMillis_add (t : Int) : t < toMillis t + 1000 := by
  have h : t < t / 1000 * 1000 + 1000 := by omega
  exact h

/-- A rounded time is rounded to itself. -/
theorem toMillis_toMillis (t : Int) : toMillis (toMillis t) = toMillis t := by
  have h : t / 1000 * 1000 / 1000 * 1000 = t / 1000 * 1000 := by omega
  exact h

/-- Rounding down keeps the order of times. -/
theorem toMillis_mono {t t' : DateTime} (h : t ≤ t') : toMillis t ≤ toMillis t' :=
  Int.mul_le_mul_of_nonneg_right (Int.ediv_le_ediv (by decide) h) (by decide)

/-- Whole seconds pass through rounding. -/
theorem toMillis_add_seconds (t n : Int) : toMillis (t + seconds n) = toMillis t + seconds n := by
  have h : (t + n * 1000000) / 1000 * 1000 = t / 1000 * 1000 + n * 1000000 := by omega
  exact h

/-- The earlier of two rounded times is the rounded earlier time. -/
theorem toMillis_min (t t' : DateTime) : toMillis (min t t') = min (toMillis t) (toMillis t') := by
  rcases le_total t t' with h | h
  · rw [min_eq_left h, min_eq_left (toMillis_mono h)]
  · rw [min_eq_right h, min_eq_right (toMillis_mono h)]

/-! ## Enumerations -/

/-- `LanguageCode`. -/
inductive LanguageCode where
  | en | ja
  deriving DecidableEq, Repr

/-- `OidcAuthorizationPurpose`. -/
inductive OidcAuthorizationPurpose where
  | login | accountDeletionReauth
  deriving DecidableEq, Repr

/-- `AuthEventType`. -/
inductive AuthEventType where
  | registerSuccess | registerFailed | loginSuccess | loginFailed | logout | sessionRejected | userMarkedDeleted
  | accountDeletionReauthFailed | sessionRevokedDeletedUser | sessionRevokedInactiveUser
  | oidcLoginSuccess | oidcLoginFailed | oidcIdentityLinked | oidcUserProvisioned | oidcReauthSuccess | oidcReauthFailed
  | roleGranted | roleRevoked | userCreatedByAdmin | userUpdatedByAdmin | userDeletedByAdmin
  deriving DecidableEq, Repr

/-- `SessionCsrfStatus`. -/
inductive SessionCsrfStatus where
  | noSession | valid | mismatch
  deriving DecidableEq, Repr

/-- The fields of `AdminUserUpdateChanges` that a request may set. -/
inductive AdminField where
  | email | password | isActive | roles
  deriving DecidableEq, Repr

/-! ## Rows -/

/-- `users`. -/
structure User where
  id : Uuid
  email : Text
  passwordHash : Option Text
  isActive : Bool
  languageCode : LanguageCode
  registeredAt : DateTime
  modifiedAt : DateTime
  lastLoggedInAt : Option DateTime
  deletedAt : Option DateTime
  deriving DecidableEq, Repr

/-- `auth_sessions`. -/
structure AuthSession where
  id : Uuid
  userId : Uuid
  sessionTokenHash : Text
  csrfTokenHash : Text
  issuedAt : DateTime
  lastSeenAt : DateTime
  expiresAt : DateTime
  revokedAt : Option DateTime
  lastOidcAuthenticatedAt : Option DateTime
  ipAddress : Option Text
  userAgent : Option Text
  deriving DecidableEq, Repr

/-- `auth_identities`. -/
structure AuthIdentity where
  id : Uuid
  userId : Uuid
  providerId : Text
  providerSubject : Text
  email : Option Text
  isEmailVerified : Bool
  linkedAt : DateTime
  lastLoggedInAt : Option DateTime
  deriving DecidableEq, Repr

/-- `user_roles`. -/
structure UserRole where
  id : Uuid
  userId : Uuid
  roleCode : Text
  assignedAt : DateTime
  assignedByUserId : Option Uuid
  deriving DecidableEq, Repr

/-- `sample_items`. -/
structure SampleItem where
  id : Uuid
  ownerUserId : Uuid
  title : Text
  description : Option Text
  isCompleted : Bool
  registeredAt : DateTime
  modifiedAt : DateTime
  deriving DecidableEq, Repr

/-- `auth_oidc_authorization_states`. -/
structure AuthOidcState where
  id : Uuid
  stateHash : Text
  browserBindingHash : Text
  nonceHash : Text
  pkceVerifier : Text
  providerId : Text
  purpose : OidcAuthorizationPurpose
  expectedUserId : Option Uuid
  expectedSessionId : Option Uuid
  redirectPath : Text
  loginHint : Option Text
  languageCode : Option LanguageCode
  expiresAt : DateTime
  consumedAt : Option DateTime
  deriving DecidableEq, Repr

/-- The summary `_replay_detail_json` keeps of the replays of a session. -/
structure ReplayDetail where
  distinctIpCount : Nat
  lastIpAddress : Option Text
  lastUserAgent : Option Text
  lastReplayedAt : DateTime
  recentIpAddresses : List Text
  replayCount : Nat
  windowSeconds : Int
  deriving DecidableEq, Repr

/-- The shapes of `detail_json`. -/
inductive AuditDetail where
  | oidc (providerId : Text) (purpose : OidcAuthorizationPurpose)
  | oidcFailure (providerId : Text) (purpose : OidcAuthorizationPurpose) (error : String)
  | admin (actorUserId targetUserId : Uuid) (changedFields : Option (List AdminField))
  | role (source : Option String) (actorUserId : Option Uuid) (targetUserId : Uuid) (roleCode : Text)
      (resultingRoles : Option (List Text))
  | replay (detail : ReplayDetail)
  deriving DecidableEq, Repr

/-- `auth_audit_logs`. -/
structure AuthAuditLog where
  id : Uuid
  userId : Option Uuid
  sessionId : Option Uuid
  eventType : AuthEventType
  ipAddress : Option Text
  userAgent : Option Text
  detailJson : Option AuditDetail
  occurredAt : DateTime
  deriving DecidableEq, Repr

/-! ## Columns that an `UPDATE` assigns -/

/-- Columns of `users`. -/
structure UserPatch where
  email : Option Text := none
  passwordHash : Option Text := none
  isActive : Option Bool := none
  languageCode : Option LanguageCode := none
  modifiedAt : Option DateTime := none
  lastLoggedInAt : Option DateTime := none
  deletedAt : Option (Option DateTime) := none
  deriving DecidableEq, Repr

/-- Columns of `auth_sessions`. -/
structure SessionPatch where
  csrfTokenHash : Option Text := none
  lastSeenAt : Option DateTime := none
  expiresAt : Option DateTime := none
  revokedAt : Option (Option DateTime) := none
  lastOidcAuthenticatedAt : Option DateTime := none
  deriving DecidableEq, Repr

def User.patch (u : User) (p : UserPatch) : User :=
  { u with
    email := p.email.getD u.email
    passwordHash := p.passwordHash.or u.passwordHash
    isActive := p.isActive.getD u.isActive
    languageCode := p.languageCode.getD u.languageCode
    modifiedAt := (p.modifiedAt.map toMillis).getD u.modifiedAt
    lastLoggedInAt := (p.lastLoggedInAt.map toMillis).or u.lastLoggedInAt
    deletedAt := (p.deletedAt.map (Option.map toMillis)).getD u.deletedAt }

def AuthSession.patch (s : AuthSession) (p : SessionPatch) : AuthSession :=
  { s with
    csrfTokenHash := p.csrfTokenHash.getD s.csrfTokenHash
    lastSeenAt := (p.lastSeenAt.map toMillis).getD s.lastSeenAt
    expiresAt := (p.expiresAt.map toMillis).getD s.expiresAt
    revokedAt := (p.revokedAt.map (Option.map toMillis)).getD s.revokedAt
    lastOidcAuthenticatedAt := (p.lastOidcAuthenticatedAt.map toMillis).or s.lastOidcAuthenticatedAt }

/-! ## Values as a column keeps them -/

def User.bind (u : User) : User :=
  { u with
    registeredAt := toMillis u.registeredAt
    modifiedAt := toMillis u.modifiedAt
    lastLoggedInAt := u.lastLoggedInAt.map toMillis
    deletedAt := u.deletedAt.map toMillis }

def AuthSession.bind (s : AuthSession) : AuthSession :=
  { s with
    issuedAt := toMillis s.issuedAt
    lastSeenAt := toMillis s.lastSeenAt
    expiresAt := toMillis s.expiresAt
    revokedAt := s.revokedAt.map toMillis
    lastOidcAuthenticatedAt := s.lastOidcAuthenticatedAt.map toMillis }

def AuthIdentity.bind (x : AuthIdentity) : AuthIdentity :=
  { x with linkedAt := toMillis x.linkedAt, lastLoggedInAt := x.lastLoggedInAt.map toMillis }

def UserRole.bind (r : UserRole) : UserRole := { r with assignedAt := toMillis r.assignedAt }

def SampleItem.bind (x : SampleItem) : SampleItem :=
  { x with registeredAt := toMillis x.registeredAt, modifiedAt := toMillis x.modifiedAt }

def AuthOidcState.bind (s : AuthOidcState) : AuthOidcState :=
  { s with expiresAt := toMillis s.expiresAt, consumedAt := s.consumedAt.map toMillis }

def AuthAuditLog.bind (l : AuthAuditLog) : AuthAuditLog := { l with occurredAt := toMillis l.occurredAt }

/-! ## Errors -/

/-- The exceptions of the use cases, of the database and of the provider client. -/
inductive AuthError where
  | emailAlreadyRegistered
  | invalidCredentials
  | rateLimitExceeded (retryAfterSeconds : Int)
  | weakPassword (message : String)
  | accountDeletionConfirmationMismatch
  | accountDeletionReauthRequired
  | accountDeletionInvalidPassword
  | accountDeletionOidcReauthRequired (linkedProviders : List (Text × Text))
  | userNotFound (userId : Uuid)
  | authSessionNotFound (sessionId : Uuid)
  | roleNotFound (roleCodes : List Text)
  | authorizationUserNotFound (userId : Uuid)
  | valueError (message : String)
  | oidcProviderNotConfigured (providerId : Text)
  | oidcProviderUnavailable
  | oidcProviderMetadata
  | oidcStateMismatch
  | oidcBrowserBindingMismatch
  | oidcTokenExchange
  | oidcProviderAccessDenied
  | oidcClaimsValidation (message : String)
  | oidcEmailNotVerified
  | oidcProvisioningDisabled
  | oidcIdentityLinkRequired
  | oidcIdentityLinkDisabled
  | oidcIdentityUnavailable
  | oidcAuthorizationRateLimited
  | oidcReauthSubjectMismatch
  | oidcReauthAuthenticationRequired (message : String)
  | oidcReauthAuthTimeRequired
  | oidcReauthStale
  | oidcCallbackFlow (error : AuthError) (purpose : OidcAuthorizationPurpose) (redirectPath : Text)
  | exit (code : Nat)
  | integrity
  | staleData
  | multipleResultsFound
  | overflow
  | database
  deriving DecidableEq, Repr

/-- `type(error).__name__`. -/
def AuthError.typeName : AuthError → String
  | .emailAlreadyRegistered => "EmailAlreadyRegisteredError"
  | .invalidCredentials => "InvalidCredentialsError"
  | .rateLimitExceeded _ => "RateLimitExceededError"
  | .weakPassword _ => "WeakPasswordError"
  | .accountDeletionConfirmationMismatch => "AccountDeletionConfirmationMismatchError"
  | .accountDeletionReauthRequired => "AccountDeletionReauthRequiredError"
  | .accountDeletionInvalidPassword => "AccountDeletionInvalidPasswordError"
  | .accountDeletionOidcReauthRequired _ => "AccountDeletionOidcReauthRequiredError"
  | .userNotFound _ => "UserNotFoundError"
  | .authSessionNotFound _ => "AuthSessionNotFoundError"
  | .roleNotFound _ => "RoleNotFoundError"
  | .authorizationUserNotFound _ => "AuthorizationUserNotFoundError"
  | .valueError _ => "ValueError"
  | .oidcProviderNotConfigured _ => "OidcProviderNotConfiguredError"
  | .oidcProviderUnavailable => "OidcProviderUnavailableError"
  | .oidcProviderMetadata => "OidcProviderMetadataError"
  | .oidcStateMismatch => "OidcStateMismatchError"
  | .oidcBrowserBindingMismatch => "OidcBrowserBindingMismatchError"
  | .oidcTokenExchange => "OidcTokenExchangeError"
  | .oidcProviderAccessDenied => "OidcProviderAccessDeniedError"
  | .oidcClaimsValidation _ => "OidcClaimsValidationError"
  | .oidcEmailNotVerified => "OidcEmailNotVerifiedError"
  | .oidcProvisioningDisabled => "OidcProvisioningDisabledError"
  | .oidcIdentityLinkRequired => "OidcIdentityLinkRequiredError"
  | .oidcIdentityLinkDisabled => "OidcIdentityLinkDisabledError"
  | .oidcIdentityUnavailable => "OidcIdentityUnavailableError"
  | .oidcAuthorizationRateLimited => "OidcAuthorizationRateLimitedError"
  | .oidcReauthSubjectMismatch => "OidcReauthSubjectMismatchError"
  | .oidcReauthAuthenticationRequired _ => "OidcReauthAuthenticationRequiredError"
  | .oidcReauthAuthTimeRequired => "OidcReauthAuthTimeRequiredError"
  | .oidcReauthStale => "OidcReauthStaleError"
  | .oidcCallbackFlow .. => "OidcCallbackFlowError"
  | .exit _ => "Exit"
  | .integrity => "IntegrityError"
  | .staleData => "StaleDataError"
  | .multipleResultsFound => "MultipleResultsFound"
  | .overflow => "OverflowError"
  | .database => "DBAPIError"

/-! ## Settings and the world around the service -/

/-- The settings of `AuthSettings` that the use cases read. -/
structure AuthSettings where
  absoluteTtlSeconds : Int
  idleTtlSeconds : Int
  touchIntervalSeconds : Int
  rateLimitWindowSeconds : Int
  registrationWindowSeconds : Int
  deriving DecidableEq, Repr

/-- `effective_session_touch_interval_seconds`. -/
def AuthSettings.effectiveTouchIntervalSeconds (S : AuthSettings) : Int :=
  if S.touchIntervalSeconds ≤ 0 then S.touchIntervalSeconds
  else
    let maxInterval := S.idleTtlSeconds / 2
    if maxInterval ≤ S.touchIntervalSeconds then maxInterval else S.touchIntervalSeconds

/-- `AutoProvisionMode`. -/
inductive AutoProvisionMode where
  | enabled | linkOnly
  deriving DecidableEq, Repr

/-- `LinkMode`. -/
inductive LinkMode where
  | auto | manual | disabled
  deriving DecidableEq, Repr

/-- The settings of a provider that the use cases and the token validation read. -/
structure OidcProviderSettings where
  providerId : Text
  displayName : Text
  issuer : Text
  clientId : Text
  trustVerifiedEmail : Bool
  autoProvision : AutoProvisionMode
  linkMode : LinkMode
  deriving DecidableEq, Repr

def OidcProviderSettings.allowsAutoProvision (p : OidcProviderSettings) : Bool :=
  p.trustVerifiedEmail && p.autoProvision == .enabled

/-- `OidcSettings`. -/
structure OidcSettings where
  providers : List OidcProviderSettings
  reauthFreshnessSeconds : Int
  stateTtlSeconds : Int
  authTimeFutureLeewaySeconds : Int
  deriving DecidableEq, Repr

/-- `get_provider`. -/
def OidcSettings.getProvider (S : OidcSettings) (providerId : Text) : Option OidcProviderSettings :=
  S.providers.find? fun p => p.providerId = providerId

/-- A claim of a decoded token: the JSON values that the validation tells apart. -/
inductive ClaimValue where
  | null
  | bool (b : Bool)
  | int (n : Int)
  | text (s : Text)
  | texts (items : List Text)
  | other
  deriving DecidableEq, Repr

/-- The claims of a decoded token. An absent claim is `null`. -/
structure IdTokenClaims where
  iss : ClaimValue
  aud : ClaimValue
  sub : ClaimValue
  nonce : ClaimValue
  exp : ClaimValue
  iat : ClaimValue
  authTime : ClaimValue
  email : ClaimValue
  emailVerified : ClaimValue
  deriving DecidableEq, Repr

/-- What the service is built with and what the outside answers: Python's string methods, hashes and random values,
PostgreSQL's `lower`, the settings, the role catalog, and the answers of the limiter and of the identity providers, by the
number of the call. -/
structure Ctx where
  python : Urllib.Python
  strip : Text → Text
  lower : Text → Text
  sqlLower : Text → Text
  hashToken : Text → Text
  hashToken_injective : Function.Injective hashToken
  token : Nat → Text
  token_injective : Function.Injective token
  token_ne_nil : ∀ n, token n ≠ []
  hashPassword : Text → Nat → Text
  verifyPassword : Text → Text → Bool
  verify_hash : ∀ password salt, verifyPassword password (hashPassword password salt) = true
  dummyPasswordHash : Text
  auth : AuthSettings
  oidc : OidcSettings
  roleCatalog : List (Text × List Text)
  limiter : Nat → LimiterOp → Bool
  authorizationUrl : Nat → Except AuthError Text
  idToken : Nat → Except AuthError Text
  claims : Nat → Except AuthError IdTokenClaims

/-- `value.strip().lower()`. -/
def Ctx.normalizeEmail (Γ : Ctx) (value : Text) : Text := Γ.lower (Γ.strip value)

/-- The defaults of the settings. -/
def AuthSettings.default : AuthSettings := ⟨604800, 86400, 300, 900, 3600⟩

/-- The defaults of the settings, with some providers. -/
def OidcSettings.default (providers : List OidcProviderSettings) : OidcSettings := ⟨providers, 300, 300, 60⟩

/-- A service with the default settings, readable hashes and tokens, a limiter that allows everything, and given claims in the
tokens of its providers. -/
def Ctx.readable (providers : List OidcProviderSettings) (claims : Nat → Except AuthError IdTokenClaims) : Ctx where
  python := Urllib.Python.ascii
  strip := fun s => ((s.dropWhile (· = ' ')).reverse.dropWhile (· = ' ')).reverse
  lower := List.map Char.toLower
  sqlLower := List.map Char.toLower
  hashToken := fun t => '#' :: t
  hashToken_injective := fun _ _ h => (List.cons.inj h).2
  token := fun n => List.replicate (n + 1) 't'
  token_injective := fun m n h => by simpa using congrArg List.length h
  token_ne_nil := fun n => by simp
  hashPassword := fun password _ => '$' :: password
  verifyPassword := fun password hash => decide (hash = '$' :: password)
  verify_hash := fun _ _ => by simp
  dummyPasswordHash := "dummy".toList
  auth := AuthSettings.default
  oidc := OidcSettings.default providers
  roleCatalog := [("admin".toList, ["admin:access".toList])]
  limiter := fun _ _ => true
  authorizationUrl := fun _ => .ok "https://provider.example/authorize".toList
  idToken := fun _ => .ok "id-token".toList
  claims := claims

/-- `AuthenticatedSessionContext`. -/
structure AuthenticatedSessionContext where
  user : User
  session : AuthSession
  roles : List Text
  permissions : List Text
  deriving DecidableEq, Repr

/-- `IssuedAuthSession`. -/
structure IssuedAuthSession where
  user : User
  session : AuthSession
  sessionToken : Text
  csrfToken : Text
  roles : List Text
  permissions : List Text
  deriving DecidableEq, Repr

end AuthService
