import AuthService.UseCases.Sessions

/-!
# OpenID Connect flows

`OAuthOidcUsecase` (usecases/oauth_oidc_usecase.py) and the claim checks of `OidcProviderClient.validate_id_token`
(services/oidc_provider_client.py). Fetching the provider's metadata and keys and decoding the token are calls to the outside.
-/

namespace AuthService

variable {Γ : Ctx}

/-! ## Validation of an ID token -/

/-- `OidcVerifiedClaims`. -/
structure OidcVerifiedClaims where
  providerId : Text
  issuer : Text
  audience : Text
  subject : Text
  email : Option Text
  emailVerified : Bool
  issuedAt : DateTime
  expiresAt : DateTime
  authTime : Option DateTime
  deriving DecidableEq, Repr

/-- `_required_str`. -/
def requiredStr (value : ClaimValue) (key : String) : Except AuthError Text :=
  match value with
  | .text [] => .error (.oidcClaimsValidation ("OIDC required claim or metadata is missing: " ++ key))
  | .text s => .ok s
  | _ => .error (.oidcClaimsValidation ("OIDC required claim or metadata is missing: " ++ key))

/-- `_audience_contains`. -/
def audienceContains (audience : ClaimValue) (clientId : Text) : Bool :=
  match audience with
  | .text s => s = clientId
  | .texts items => clientId ∈ items
  | _ => false

/-- `datetime.fromtimestamp(value, UTC)`: the years 1 to 9999. -/
def fromTimestamp (value : Int) : Except AuthError DateTime :=
  if -62135596800 ≤ value ∧ value ≤ 253402300799 then .ok (seconds value) else .error .overflow

/-- `_datetime_claim`. -/
def datetimeClaim (value : ClaimValue) (key : String) : Except AuthError DateTime :=
  match value with
  | .int n => fromTimestamp n
  | _ => .error (.oidcClaimsValidation ("ID token " ++ key ++ " claim is missing or invalid"))

/-- `_optional_datetime_claim`. -/
def optionalDatetimeClaim (value : ClaimValue) (key : String) : Except AuthError (Option DateTime) :=
  match value with
  | .null => .ok none
  | .int n => (fromTimestamp n).map some
  | _ => .error (.oidcClaimsValidation ("ID token " ++ key ++ " claim is invalid"))

/-- `_optional_normalized_email`. -/
def optionalNormalizedEmail (Γ : Ctx) (value : ClaimValue) : Option Text :=
  match value with
  | .text s => (some (Γ.normalizeEmail s)).filter (· ≠ [])
  | _ => none

/-- The check of a claim. -/
def check (condition : Bool) (error : AuthError) : Except AuthError Unit := if condition then .ok () else .error error

/-- The claim checks of `validate_id_token` at a time. -/
def verifyClaims (Γ : Ctx) (provider : OidcProviderSettings) (claims : IdTokenClaims) (expectedNonceHash : Text)
    (requireAuthTime : Bool) (now : DateTime) : Except AuthError OidcVerifiedClaims := do
  let leeway := seconds Γ.oidc.authTimeFutureLeewaySeconds
  let issuer ← requiredStr claims.iss "iss"
  check (issuer = provider.issuer) (.oidcClaimsValidation "ID token issuer mismatch")
  check (audienceContains claims.aud provider.clientId) (.oidcClaimsValidation "ID token audience mismatch")
  let rawSubject ← requiredStr claims.sub "sub"
  let subject := Γ.strip rawSubject
  check (subject ≠ []) (.oidcClaimsValidation "ID token subject is empty")
  let nonce ← requiredStr claims.nonce "nonce"
  check (Γ.hashToken nonce = expectedNonceHash) (.oidcClaimsValidation "ID token nonce mismatch")
  let expiresAt ← datetimeClaim claims.exp "exp"
  check (now < expiresAt) (.oidcClaimsValidation "ID token is expired")
  let issuedAt ← datetimeClaim claims.iat "iat"
  check (issuedAt ≤ now + leeway) (.oidcClaimsValidation "ID token issued_at is in the future")
  let authTime ← optionalDatetimeClaim claims.authTime "auth_time"
  check (!(requireAuthTime && authTime.isNone)) .oidcReauthAuthTimeRequired
  check (!(requireAuthTime && authTime.any fun t => now + leeway < t)) .oidcReauthStale
  return ⟨provider.providerId, issuer, provider.clientId, subject, optionalNormalizedEmail Γ claims.email,
    claims.emailVerified = .bool true, issuedAt, expiresAt, authTime⟩

/-- `validate_id_token`. -/
def validateIdToken (provider : OidcProviderSettings) (idToken expectedNonceHash : Text) (requireAuthTime : Bool) :
    Service Γ OidcVerifiedClaims := do
  let claims ← call (.decodeIdToken provider.providerId idToken)
  let now ← utcnow
  ofExcept (verifyClaims Γ provider claims expectedNonceHash requireAuthTime now)

/-! ## Start -/

/-- `OidcAuthorizationStartResult`. -/
structure OidcAuthorizationStartResult where
  providerId : Text
  authorizationUrl : Text
  browserBindingCookieName : Text
  browserBindingCookieValue : Text
  browserBindingCookieMaxAge : Int
  deriving DecidableEq, Repr

/-- The row of `create_oidc_authorization_state`, in its transaction. -/
def createState (provider : OidcProviderSettings) (state browserBinding nonce pkceVerifier : Text) (redirectPath : Option Text)
    (purpose : OidcAuthorizationPurpose) (currentSession : Option AuthenticatedSessionContext)
    (languageCode : Option LanguageCode) (now : DateTime) (ip : Text) : Service Γ Unit :=
  transaction do
    let id ← newId
    match normalizeRedirectPath Γ.python redirectPath with
    | .error _ => Prog.throw (.valueError "Invalid URL")
    | .ok redirectPath =>
      let _ ← createOidcAuthorizationState
        { id := id
          stateHash := Γ.hashToken state
          browserBindingHash := Γ.hashToken browserBinding
          nonceHash := Γ.hashToken nonce
          pkceVerifier := pkceVerifier
          providerId := provider.providerId
          purpose := purpose
          expectedUserId := currentSession.map fun c => c.user.id
          expectedSessionId := currentSession.map fun c => c.session.id
          redirectPath := redirectPath
          loginHint := if purpose = .accountDeletionReauth then currentSession.map fun c => Γ.normalizeEmail c.user.email
            else none
          languageCode := if purpose = .login then languageCode else none
          expiresAt := now + seconds Γ.oidc.stateTtlSeconds
          consumedAt := none }
      let _ ← limiter (.recordOidcAuthorization ip)

/-- `start_authorization`. -/
def startAuthorization (providerId : Text) (redirectPath : Option Text) (purpose : OidcAuthorizationPurpose)
    (currentSession : Option AuthenticatedSessionContext) (ipAddress : Option Text) (languageCode : Option LanguageCode) :
    Service Γ OidcAuthorizationStartResult :=
  match Γ.oidc.getProvider providerId with
  | none => Prog.throw (.oidcProviderNotConfigured providerId)
  | some provider => do
    let reauth := purpose == .accountDeletionReauth
    require (!(reauth && currentSession.isNone))
      (.oidcReauthAuthenticationRequired "Current session is required for OIDC reauth")
    let ip := rateLimitIp ipAddress
    require (← limiter (.isOidcAuthorizationAllowed ip)) .oidcAuthorizationRateLimited
    let state ← generateToken
    let browserBinding ← generateToken
    let nonce ← generateToken
    let pkceVerifier ← generateToken
    let now ← utcnow
    let url ← call (.buildAuthorizationUrl provider.providerId state nonce pkceVerifier reauth
      (if reauth then currentSession.map fun c => Γ.normalizeEmail c.user.email else none))
    createState provider state browserBinding nonce pkceVerifier redirectPath purpose currentSession languageCode now ip
    return ⟨provider.providerId, url, "oidc_binding_".toList ++ (Γ.hashToken state).take 16, browserBinding,
      Γ.oidc.stateTtlSeconds⟩

/-! ## Callback -/

/-- `OidcCallbackResult`. -/
structure OidcCallbackResult where
  redirectPath : Text
  issuedSession : Option IssuedAuthSession
  reauthenticatedContext : Option AuthenticatedSessionContext
  deriving DecidableEq, Repr

/-- `_consume_callback_state`. -/
def consumeCallbackState (provider : OidcProviderSettings) (state : Text) (browserBinding : Option Text) :
    Service Γ AuthOidcState :=
  match browserBinding with
  | none => Prog.throw .oidcBrowserBindingMismatch
  | some binding => do
    let consumedAt ← utcnow
    match ← transaction (consumeOidcAuthorizationState (Γ.hashToken state) (Γ.hashToken binding) consumedAt) with
    | .stateMismatch => Prog.throw .oidcStateMismatch
    | .expired _ => Prog.throw .oidcStateMismatch
    | .alreadyConsumed _ => Prog.throw .oidcStateMismatch
    | .browserBindingMismatch _ => Prog.throw .oidcBrowserBindingMismatch
    | .consumed oidcState =>
      require (oidcState.providerId = provider.providerId) .oidcStateMismatch
      return oidcState

/-- `_audit_oidc_failure`. -/
def auditOidcFailure (eventType : AuthEventType) (providerId : Text) (purpose : OidcAuthorizationPurpose) (error : AuthError)
    (ipAddress userAgent : Option Text) (userId sessionId : Option Uuid) : Service Γ Unit :=
  createAuditLog false
    { userId := userId
      sessionId := sessionId
      eventType := eventType
      ipAddress := ipAddress
      userAgent := userAgent
      detailJson := some (.oidcFailure providerId purpose error.typeName) }

/-- The audit log of a callback that fails after its state was consumed. -/
def auditCallbackFailure (provider : OidcProviderSettings) (oidcState : AuthOidcState) (error : AuthError)
    (currentSession : Option AuthenticatedSessionContext) (ipAddress userAgent : Option Text) : Service Γ Unit :=
  match oidcState.purpose with
  | .accountDeletionReauth =>
    auditOidcFailure .oidcReauthFailed provider.providerId .accountDeletionReauth error ipAddress userAgent
      ((currentSession.map fun c => c.user.id).or oidcState.expectedUserId)
      ((currentSession.map fun c => c.session.id).or oidcState.expectedSessionId)
  | .login =>
    auditOidcFailure .oidcLoginFailed provider.providerId .login error ipAddress userAgent none none

/-- `_audit_log`. -/
def oidcAudit (eventType : AuthEventType) (userId sessionId : Uuid) (providerId : Text) (purpose : OidcAuthorizationPurpose)
    (ipAddress userAgent : Option Text) : AuditEntry :=
  { userId := some userId
    sessionId := some sessionId
    eventType := eventType
    ipAddress := ipAddress
    userAgent := userAgent
    detailJson := some (.oidc providerId purpose) }

/-- `_trusted_verified_email`. -/
def trustedVerifiedEmail (Γ : Ctx) (provider : OidcProviderSettings) (claims : OidcVerifiedClaims) : Except AuthError Text :=
  match claims.email with
  | none => .error .oidcEmailNotVerified
  | some email =>
    if !provider.trustVerifiedEmail || !claims.emailVerified then .error .oidcEmailNotVerified
    else if Γ.normalizeEmail email = [] then .error .oidcEmailNotVerified
    else .ok (Γ.normalizeEmail email)

/-- The row of `_identity_for_claims`. -/
def createIdentityForClaims (provider : OidcProviderSettings) (claims : OidcVerifiedClaims) (userId : Uuid) :
    Service Γ AuthIdentity := do
  let id ← newId
  let linkedAt ← utcnow
  createAuthIdentity
    { id := id
      userId := userId
      providerId := provider.providerId
      providerSubject := claims.subject
      email := claims.email.map Γ.normalizeEmail
      isEmailVerified := claims.emailVerified
      linkedAt := linkedAt
      lastLoggedInAt := none }

/-- `_resolve_login_user_and_identity`. -/
def resolveLoginUserAndIdentity (provider : OidcProviderSettings) (claims : OidcVerifiedClaims)
    (languageCode : Option LanguageCode) : Service Γ (User × AuthIdentity × List AuthEventType) := do
  match ← findIdentityByProviderSubject provider.providerId claims.subject with
  | some identity =>
    match ← findUserByIdForAuthentication identity.userId with
    | none => Prog.throw .oidcIdentityUnavailable
    | some user =>
      require (user.deletedAt.isNone && user.isActive) .oidcIdentityUnavailable
      return (user, identity, [])
  | none =>
    let normalizedEmail ← ofExcept (trustedVerifiedEmail Γ provider claims)
    match ← findUserByVerifiedEmailForOidcLink normalizedEmail with
    | some linkedUser =>
      require (provider.linkMode != .disabled) .oidcIdentityLinkDisabled
      require (provider.linkMode == .auto) .oidcIdentityLinkRequired
      let identity ← createIdentityForClaims provider claims linkedUser.id
      return (linkedUser, identity, [.oidcIdentityLinked])
    | none =>
      match ← findUserByEmailForOidcCollision normalizedEmail with
      | some _ => Prog.throw .oidcIdentityUnavailable
      | none =>
        require provider.allowsAutoProvision .oidcProvisioningDisabled
        match ← (createUser true normalizedEmail none true (languageCode.getD .ja)).attempt with
        | .error .emailAlreadyRegistered => Prog.throw .oidcIdentityUnavailable
        | .error e => Prog.throw e
        | .ok user =>
          let identity ← createIdentityForClaims provider claims user.id
          return (user, identity, [.oidcUserProvisioned])

/-- The transaction of `_complete_login_callback`. -/
def loginCallbackTransaction (provider : OidcProviderSettings) (oidcState : AuthOidcState) (claims : OidcVerifiedClaims)
    (currentSessionToken ipAddress userAgent : Option Text) : Service Γ (User × AuthSession × Text × Text) :=
  transaction do
    let (user, identity, setupAudits) ← resolveLoginUserAndIdentity provider claims oidcState.languageCode
    let loginAt ← utcnow
    let user ← recordUserLogin (some user) user.id loginAt
    let (session, sessionToken, csrfToken) ← replaceAuthSession user currentSessionToken ipAddress userAgent
    recordOidcLogin (some user) (some session) user.id identity.id session.id loginAt claims.authTime
    Prog.each (fun eventType => createAuditLog true
      (oidcAudit eventType user.id session.id provider.providerId oidcState.purpose ipAddress userAgent)) setupAudits
    createAuditLog true
      (oidcAudit .oidcLoginSuccess user.id session.id provider.providerId oidcState.purpose ipAddress userAgent)
    return (user, session, sessionToken, csrfToken)

/-- `_complete_login_callback`. -/
def completeLoginCallback (provider : OidcProviderSettings) (oidcState : AuthOidcState) (claims : OidcVerifiedClaims)
    (currentSessionToken ipAddress userAgent : Option Text) : Service Γ OidcCallbackResult := do
  let (user, session, sessionToken, csrfToken) ←
    loginCallbackTransaction provider oidcState claims currentSessionToken ipAddress userAgent
  let (roles, permissions) ← authorizationForExistingUser user.id
  return ⟨oidcState.redirectPath, some ⟨user, session, sessionToken, csrfToken, roles, permissions⟩, none⟩

/-- `_complete_reauth_callback`. -/
def completeReauthCallback (provider : OidcProviderSettings) (oidcState : AuthOidcState) (claims : OidcVerifiedClaims)
    (currentSession : Option AuthenticatedSessionContext) (ipAddress userAgent : Option Text) :
    Service Γ OidcCallbackResult :=
  match currentSession with
  | none => Prog.throw (.oidcReauthAuthenticationRequired "Current session is required")
  | some context => do
    require (oidcState.expectedUserId = some context.user.id && oidcState.expectedSessionId = some context.session.id)
      .oidcReauthSubjectMismatch
    match ← findIdentityByProviderSubject provider.providerId claims.subject with
    | none => Prog.throw .oidcReauthSubjectMismatch
    | some identity =>
      require (identity.userId = context.user.id) .oidcReauthSubjectMismatch
      match claims.authTime with
      | none => Prog.throw .oidcReauthAuthTimeRequired
      | some authTime =>
        let now ← utcnow
        require (now - authTime ≤ seconds Γ.oidc.reauthFreshnessSeconds) .oidcReauthStale
        let _reauthenticatedAt ← utcnow
        transaction do
          recordOidcReauth none context.session.id authTime
          createAuditLog true (oidcAudit .oidcReauthSuccess context.user.id context.session.id provider.providerId
            oidcState.purpose ipAddress userAgent)
        return ⟨oidcState.redirectPath, none, some context⟩

/-- What a callback does after its state was consumed. -/
def finishCallback (provider : OidcProviderSettings) (oidcState : AuthOidcState) (code : Text)
    (currentSession : Option AuthenticatedSessionContext) (currentSessionToken ipAddress userAgent : Option Text) :
    Service Γ OidcCallbackResult := do
  let reauth := oidcState.purpose == .accountDeletionReauth
  let idToken ← call (.exchangeCode provider.providerId code oidcState.pkceVerifier)
  let claims ← validateIdToken provider idToken oidcState.nonceHash reauth
  if reauth then completeReauthCallback provider oidcState claims currentSession ipAddress userAgent
  else completeLoginCallback provider oidcState claims currentSessionToken ipAddress userAgent

/-- `complete_callback`. -/
def completeCallback (providerId state code : Text) (browserBinding : Option Text)
    (currentSession : Option AuthenticatedSessionContext) (currentSessionToken ipAddress userAgent : Option Text) :
    Service Γ OidcCallbackResult :=
  match Γ.oidc.getProvider providerId with
  | none => Prog.throw (.oidcProviderNotConfigured providerId)
  | some provider => do
    let oidcState ← consumeCallbackState provider state browserBinding
    match ← (finishCallback provider oidcState code currentSession currentSessionToken ipAddress userAgent).attempt with
    | .ok result => return result
    | .error e =>
      auditCallbackFailure provider oidcState e currentSession ipAddress userAgent
      Prog.throw (.oidcCallbackFlow e oidcState.purpose oidcState.redirectPath)

/-- `complete_error_callback`. -/
def completeErrorCallback (providerId state : Text) (browserBinding : Option Text) (providerError : AuthError)
    (currentSession : Option AuthenticatedSessionContext) (ipAddress userAgent : Option Text) : Service Γ Unit :=
  match Γ.oidc.getProvider providerId with
  | none => Prog.throw (.oidcProviderNotConfigured providerId)
  | some provider => do
    let oidcState ← consumeCallbackState provider state browserBinding
    auditCallbackFailure provider oidcState providerError currentSession ipAddress userAgent
    Prog.throw (.oidcCallbackFlow providerError oidcState.purpose oidcState.redirectPath)

end AuthService
