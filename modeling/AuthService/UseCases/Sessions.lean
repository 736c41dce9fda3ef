import AuthService.Repositories

/-!
# Registration, login and sessions

`AuthUsecase` (usecases/auth_usecase.py) and the session issuer (libraries/auth_session_issuer.py).
-/

namespace AuthService

variable {Γ : Ctx}

/-! ## Roles of a user -/

/-- `resolve_user_authorization`: the known roles and their permissions. Unknown codes are logged and ignored. -/
def resolveUserAuthorization (Γ : Ctx) (roleCodes : List Text) : List Text × List Text :=
  let known := (fromKeys roleCodes).filter fun c => c ∈ Γ.roleCatalog.map Prod.fst
  (known, ((Γ.roleCatalog.filter fun r => r.1 ∈ known).flatMap Prod.snd).dedup)

/-- `_authorization_for_existing_user`. -/
def authorizationForExistingUser (userId : Uuid) : Service Γ (List Text × List Text) := do
  return resolveUserAuthorization Γ (← getUserRoleCodes userId)

/-! ## Issuing a session -/

/-- `calculate_session_expiry`. -/
def calculateSessionExpiry (Γ : Ctx) (issuedAt lastSeenAt : DateTime) : DateTime :=
  min (issuedAt + seconds Γ.auth.absoluteTtlSeconds) (lastSeenAt + seconds Γ.auth.idleTtlSeconds)

/-- The current session is revoked when it is active. -/
def rotateSession (currentSessionToken : Option Text) : Service Γ Unit :=
  match currentSessionToken.filter (· ≠ []) with
  | none => pure ()
  | some token => do
    match ← findActiveSessionByTokenHash (Γ.hashToken token) with
    | none => pure ()
    | some session => revokeSession (some session) session.id

/-- `replace_auth_session`: the session, its token and its CSRF token. -/
def replaceAuthSession (user : User) (currentSessionToken ipAddress userAgent : Option Text) :
    Service Γ (AuthSession × Text × Text) := do
  rotateSession currentSessionToken
  let sessionToken ← generateToken
  let csrfToken ← generateToken
  let issuedAt ← utcnow
  let session ← createSession user.id (Γ.hashToken sessionToken) (Γ.hashToken csrfToken) issuedAt issuedAt
    (calculateSessionExpiry Γ issuedAt issuedAt) ipAddress userAgent
  return (session, sessionToken, csrfToken)

/-! ## Registration and login -/

/-- `ip_address or "unknown"`. -/
def rateLimitIp (ipAddress : Option Text) : Text := (ipAddress.filter (· ≠ [])).getD "unknown".toList

/-- `validate_password_policy`. -/
def validatePasswordPolicy (password : Text) : Option String :=
  if password.length < 12 then some "Password must be at least 12 characters long"
  else if 128 < password.length then some "Password must be 128 characters or fewer"
  else none

/-- The transaction of `register`. -/
def registerTransaction (normalizedEmail password : Text) (languageCode : LanguageCode)
    (currentSessionToken ipAddress userAgent : Option Text) : Service Γ (User × AuthSession × Text × Text) :=
  transaction do
    let passwordHash ← call (.hashPassword password)
    let user ← createUser true normalizedEmail (some passwordHash) true languageCode
    let loginAt ← utcnow
    let user ← recordUserLogin (some user) user.id loginAt
    let (session, sessionToken, csrfToken) ← replaceAuthSession user currentSessionToken ipAddress userAgent
    createAuditLog true
      { userId := some user.id
        sessionId := some session.id
        eventType := .registerSuccess
        ipAddress := ipAddress
        userAgent := userAgent }
    return (user, session, sessionToken, csrfToken)

/-- A registration that fails for its email. -/
def registerFailed (userId : Option Uuid) (ip normalizedEmail : Text) (ipAddress userAgent : Option Text) :
    Service Γ Unit := do
  let _ ← limiter (.recordFailure ip normalizedEmail false)
  createAuditLog false
    { userId := userId
      sessionId := none
      eventType := .registerFailed
      ipAddress := ipAddress
      userAgent := userAgent }

/-- `register`. -/
def register (email password : Text) (languageCode : LanguageCode) (currentSessionToken ipAddress userAgent : Option Text) :
    Service Γ IssuedAuthSession := do
  let normalizedEmail := Γ.normalizeEmail email
  let ip := rateLimitIp ipAddress
  require (← limiter (.isAllowed ip normalizedEmail)) (.rateLimitExceeded Γ.auth.rateLimitWindowSeconds)
  require (← limiter (.isRegistrationAllowed ip)) (.rateLimitExceeded Γ.auth.registrationWindowSeconds)
  match validatePasswordPolicy password with
  | some message =>
    let _ ← limiter (.recordFailure ip normalizedEmail false)
    Prog.throw (.weakPassword message)
  | none =>
    match ← findUserByEmail normalizedEmail with
    | some existingUser =>
      registerFailed (some existingUser.id) ip normalizedEmail ipAddress userAgent
      Prog.throw .emailAlreadyRegistered
    | none =>
      match ← (registerTransaction normalizedEmail password languageCode currentSessionToken ipAddress userAgent).attempt with
      | .error .emailAlreadyRegistered =>
        registerFailed none ip normalizedEmail ipAddress userAgent
        Prog.throw .emailAlreadyRegistered
      | .error e => Prog.throw e
      | .ok (user, session, sessionToken, csrfToken) =>
        let _ ← limiter (.recordRegistration ip)
        return ⟨user, session, sessionToken, csrfToken, [], []⟩

/-- The transaction of `login`. -/
def loginTransaction (userId : Uuid) (currentSessionToken ipAddress userAgent : Option Text) :
    Service Γ (User × AuthSession × Text × Text) :=
  transaction do
    let loginAt ← utcnow
    let user ← recordUserLogin none userId loginAt
    let (session, sessionToken, csrfToken) ← replaceAuthSession user currentSessionToken ipAddress userAgent
    createAuditLog true
      { userId := some user.id
        sessionId := some session.id
        eventType := .loginSuccess
        ipAddress := ipAddress
        userAgent := userAgent }
    return (user, session, sessionToken, csrfToken)

/-- The user of a login whose credentials are accepted. -/
def acceptedUser (user : Option User) (passwordMatches : Bool) : Option User :=
  user.filter fun u => u.isActive && u.passwordHash.isSome && passwordMatches

/-- `login`. -/
def login (email password : Text) (currentSessionToken ipAddress userAgent : Option Text) : Service Γ IssuedAuthSession := do
  let normalizedEmail := Γ.normalizeEmail email
  let ip := rateLimitIp ipAddress
  require (← limiter (.isAllowed ip normalizedEmail)) (.rateLimitExceeded Γ.auth.rateLimitWindowSeconds)
  let user ← findUserByEmail normalizedEmail
  let passwordHash := (user.bind User.passwordHash).getD Γ.dummyPasswordHash
  let passwordMatches ← call (.verifyPassword password passwordHash)
  match acceptedUser user passwordMatches with
  | none =>
    let _ ← limiter (.recordFailure ip normalizedEmail true)
    createAuditLog false
      { userId := user.map User.id
        sessionId := none
        eventType := .loginFailed
        ipAddress := ipAddress
        userAgent := userAgent }
    Prog.throw .invalidCredentials
  | some user =>
    let (user, session, sessionToken, csrfToken) ← loginTransaction user.id currentSessionToken ipAddress userAgent
    let _ ← limiter (.recordSuccess ip normalizedEmail)
    let (roles, permissions) ← authorizationForExistingUser user.id
    return ⟨user, session, sessionToken, csrfToken, roles, permissions⟩

/-! ## Sessions -/

/-- `SESSION_REJECTED_AUDIT_WINDOW_SECONDS`. -/
def sessionRejectedAuditWindowSeconds : Int := 300

/-- `_audit_known_rejected_session`. -/
def auditKnownRejectedSession (inTransaction : Bool) (tokenHash : Text) (ipAddress userAgent : Option Text) :
    Service Γ Unit := do
  match ← findSessionByTokenHash tokenHash with
  | none => pure ()
  | some session =>
    let replayedAt ← utcnow
    recordRejectedSessionReplay inTransaction session ipAddress userAgent replayedAt sessionRejectedAuditWindowSeconds

/-- `issue_csrf_token`. -/
def issueCsrfToken (sessionToken : Option Text) : Service Γ Text := do
  let csrfToken ← generateToken
  match sessionToken.filter (· ≠ []) with
  | none => return csrfToken
  | some token =>
    match ← findActiveSessionByTokenHash (Γ.hashToken token) with
    | none => return csrfToken
    | some session =>
      let _ ← updateSessionCsrfTokenHash false none session.id (Γ.hashToken csrfToken)
      return csrfToken

/-- `validate_session_csrf`. -/
def validateSessionCsrf (sessionToken csrfToken : Text) (ipAddress userAgent : Option Text) :
    Service Γ SessionCsrfStatus := do
  let tokenHash := Γ.hashToken sessionToken
  match ← findActiveSessionByTokenHash tokenHash with
  | none =>
    auditKnownRejectedSession false tokenHash ipAddress userAgent
    return .noSession
  | some session =>
    if session.csrfTokenHash = Γ.hashToken csrfToken then return .valid else return .mismatch

/-- `_reject_session`. -/
def rejectSession (session : AuthSession) (eventType : AuthEventType) (userId : Option Uuid)
    (ipAddress userAgent : Option Text) : Service Γ Unit := do
  revokeSession (some session) session.id
  createAuditLog true
    { userId := userId
      sessionId := some session.id
      eventType := eventType
      ipAddress := ipAddress
      userAgent := userAgent }

/-- `_reject_user_sessions`. -/
def rejectUserSessions (session : AuthSession) (eventType : AuthEventType) (userId : Uuid)
    (ipAddress userAgent : Option Text) : Service Γ Unit := do
  let revokedAt ← utcnow
  let _ ← revokeSessionsForUser userId revokedAt
  createAuditLog true
    { userId := some userId
      sessionId := some session.id
      eventType := eventType
      ipAddress := ipAddress
      userAgent := userAgent
      occurredAt := some revokedAt }

/-- The session is touched when the touch interval has passed since it was last seen. -/
def refreshSession (session : AuthSession) : Service Γ AuthSession := do
  let now ← utcnow
  let interval := Γ.auth.effectiveTouchIntervalSeconds
  if interval ≤ 0 ∨ seconds interval ≤ now - session.lastSeenAt then
    touchSession (some session) session.id now (calculateSessionExpiry Γ session.issuedAt now)
  else return session

/-- The context of a session that was found, when its user may use it. -/
def contextOfFound (tokenHash : Text) (ipAddress userAgent : Option Text) (found : Option AuthSession) :
    Service Γ (Option AuthenticatedSessionContext) :=
  match found with
  | none => do
    auditKnownRejectedSession true tokenHash ipAddress userAgent
    return none
  | some session => do
    match ← findUserByIdForAuthentication session.userId with
    | none =>
      rejectSession session .sessionRejected none ipAddress userAgent
      return none
    | some user =>
      if user.deletedAt.isSome then
        rejectUserSessions session .sessionRevokedDeletedUser user.id ipAddress userAgent
        return none
      else if !user.isActive then
        rejectUserSessions session .sessionRevokedInactiveUser user.id ipAddress userAgent
        return none
      else
        let refreshedSession ← refreshSession session
        let (roles, permissions) ← authorizationForExistingUser user.id
        return some ⟨user, refreshedSession, roles, permissions⟩

/-- The transaction of `authenticate_session`. -/
def authenticateTransaction (tokenHash : Text) (ipAddress userAgent : Option Text) :
    Service Γ (Option AuthenticatedSessionContext) :=
  transaction do
    contextOfFound tokenHash ipAddress userAgent (← findActiveSessionByTokenHash tokenHash)

/-- `authenticate_session`. -/
def authenticateSession (sessionToken ipAddress userAgent : Option Text) : Service Γ (Option AuthenticatedSessionContext) :=
  match sessionToken.filter (· ≠ []) with
  | none => pure none
  | some token => authenticateTransaction (Γ.hashToken token) ipAddress userAgent

/-- `logout`. -/
def logout (sessionToken ipAddress userAgent : Option Text) : Service Γ Unit :=
  match sessionToken.filter (· ≠ []) with
  | none => pure ()
  | some token => do
    match ← findActiveSessionByTokenHash (Γ.hashToken token) with
    | none => pure ()
    | some session =>
      transaction do
        revokeSession none session.id
        createAuditLog true
          { userId := some session.userId
            sessionId := some session.id
            eventType := .logout
            ipAddress := ipAddress
            userAgent := userAgent }

/-- `update_current_user`: the language of the user. -/
def updateCurrentUser (context : AuthenticatedSessionContext) (languageCode : Option LanguageCode) :
    Service Γ AuthenticatedSessionContext :=
  match languageCode with
  | none => pure context
  | some code => do
    let user ← transaction do
      let modifiedAt ← utcnow
      updateUserLanguage context.user.id code modifiedAt
    return { context with user := user }

end AuthService
