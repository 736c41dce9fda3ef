import AuthService.UseCases.Oidc
import AuthService.UseCases.Admin

/-!
# The operations of the service

Every request and command as one type, with a program for each and a common type of answers. A request that needs a session
runs `authenticate_session` first, in a transaction of its own (controllers/dependencies).
-/

namespace AuthService

/-- What a client, an administrator or a command can ask for. -/
inductive Op where
  | register (email password : Text) (languageCode : LanguageCode) (currentSessionToken ipAddress userAgent : Option Text)
  | login (email password : Text) (currentSessionToken ipAddress userAgent : Option Text)
  | startAuthorization (providerId : Text) (redirectPath : Option Text) (purpose : OidcAuthorizationPurpose)
      (currentSession : Option AuthenticatedSessionContext) (ipAddress : Option Text) (languageCode : Option LanguageCode)
  | completeCallback (providerId state code : Text) (browserBinding : Option Text)
      (currentSession : Option AuthenticatedSessionContext) (currentSessionToken ipAddress userAgent : Option Text)
  | completeErrorCallback (providerId state : Text) (browserBinding : Option Text) (providerError : AuthError)
      (currentSession : Option AuthenticatedSessionContext) (ipAddress userAgent : Option Text)
  | authenticateSession (sessionToken ipAddress userAgent : Option Text)
  | issueCsrfToken (sessionToken : Option Text)
  | validateSessionCsrf (sessionToken csrfToken : Text) (ipAddress userAgent : Option Text)
  | logout (sessionToken ipAddress userAgent : Option Text)
  | updateCurrentUser (context : AuthenticatedSessionContext) (languageCode : Option LanguageCode)
  | adminCreateUser (actor : AuthenticatedSessionContext) (email password : Text) (isActive : Bool) (roles : List Text)
      (ipAddress userAgent : Option Text)
  | adminUpdateUser (actor : AuthenticatedSessionContext) (userId : Uuid) (changes : AdminUserUpdateChanges)
      (ipAddress userAgent : Option Text)
  | adminDeleteUser (actor : AuthenticatedSessionContext) (userId : Uuid) (ipAddress userAgent : Option Text)
  | replaceUserRoles (actor : AuthenticatedSessionContext) (userId : Uuid) (roles : List Text)
      (ipAddress userAgent : Option Text)
  | deleteAccount (context : AuthenticatedSessionContext) (confirmEmail : Text) (password ipAddress userAgent : Option Text)
  | createItem (sessionToken ipAddress userAgent : Option Text) (title : Text) (description : Option Text)
  | authzGrantRole (email role : Text)
  | authzPruneUnknownRoleAssignments
  | seedAdmin
  | deleteSessionsExpiredBefore (expiredBefore : DateTime)
  | deleteOidcStatesExpiredBefore (expiredBefore : DateTime)
  deriving DecidableEq, Repr

/-- The answers of the operations. -/
inductive Outcome where
  | issued (session : IssuedAuthSession)
  | started (result : OidcAuthorizationStartResult)
  | callback (result : OidcCallbackResult)
  | context (context : Option AuthenticatedSessionContext)
  | csrfToken (token : Text)
  | csrfStatus (status : SessionCsrfStatus)
  | detail (user : AdminUserDetail)
  | roles (result : UserRoleReplacementResult)
  | item (item : SampleItem)
  | unauthorized
  | count (n : Nat)
  | done
  deriving DecidableEq, Repr

variable {Γ : Ctx}

/-- A request for a new item: the session is authenticated, then the item is created. -/
def createItemRequest (sessionToken ipAddress userAgent : Option Text) (title : Text) (description : Option Text) :
    Service Γ Outcome := do
  match ← authenticateSession sessionToken ipAddress userAgent with
  | none => return .unauthorized
  | some context => return .item (← createItem context.user.id title description)

variable (Γ) in
/-- The program of an operation. -/
def program : Op → Service Γ Outcome
  | .register email password languageCode token ip agent => do
    return .issued (← register email password languageCode token ip agent)
  | .login email password token ip agent => do return .issued (← login email password token ip agent)
  | .startAuthorization providerId redirectPath purpose session ip languageCode => do
    return .started (← startAuthorization providerId redirectPath purpose session ip languageCode)
  | .completeCallback providerId state code binding session token ip agent => do
    return .callback (← completeCallback providerId state code binding session token ip agent)
  | .completeErrorCallback providerId state binding error session ip agent => do
    completeErrorCallback providerId state binding error session ip agent
    return .done
  | .authenticateSession token ip agent => do return .context (← authenticateSession token ip agent)
  | .issueCsrfToken token => do return .csrfToken (← issueCsrfToken token)
  | .validateSessionCsrf token csrfToken ip agent => do return .csrfStatus (← validateSessionCsrf token csrfToken ip agent)
  | .logout token ip agent => do
    logout token ip agent
    return .done
  | .updateCurrentUser context languageCode => do return .context (some (← updateCurrentUser context languageCode))
  | .adminCreateUser actor email password isActive roles ip agent => do
    return .detail (← adminCreateUser actor email password isActive roles ip agent)
  | .adminUpdateUser actor userId changes ip agent => do return .detail (← adminUpdateUser actor userId changes ip agent)
  | .adminDeleteUser actor userId ip agent => do
    adminDeleteUser actor userId ip agent
    return .done
  | .replaceUserRoles actor userId roles ip agent => do return .roles (← replaceUserRoles actor userId roles ip agent)
  | .deleteAccount context confirmEmail password ip agent => do
    deleteAccount context confirmEmail password ip agent
    return .done
  | .createItem token ip agent title description => createItemRequest token ip agent title description
  | .authzGrantRole email role => do
    authzGrantRole email role
    return .done
  | .authzPruneUnknownRoleAssignments => do return .count (← authzPruneUnknownRoleAssignments)
  | .seedAdmin => do
    seedAdmin
    return .done
  | .deleteSessionsExpiredBefore t => do return .count (← deleteSessionsExpiredBefore false t)
  | .deleteOidcStatesExpiredBefore t => do return .count (← deleteOidcStatesExpiredBefore false t)

end AuthService
