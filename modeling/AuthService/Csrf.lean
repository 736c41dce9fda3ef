import AuthService.UseCases.Sessions
import AuthService.ClientIp

/-!
# The CSRF middleware

`CSRFMiddleware` (bootstrap/csrf.py) and `require_current_session` (controllers/auth_dependencies.py). The application behind
the middleware is a program.
-/

namespace AuthService

variable {Γ : Ctx} {α : Type}

/-- The settings of `AuthSettings` that are read. -/
structure CsrfSettings where
  sessionCookiePrefix : Text
  csrfExemptPaths : Text
  trustedProxyIps : Text
  deriving DecidableEq, Repr

/-- A request: the `type`, `method`, `path` and `root_path` of its scope, the path of its URL, its cookies and headers. -/
structure HttpRequest where
  type : Text
  method : Text
  path : Text
  rootPath : Text
  urlPath : Text
  cookies : Text → Option Text
  csrfTokenHeader : Option Text
  userAgentHeader : Option Text
  forwarded : ForwardedRequest

/-- A response of the middleware. -/
structure ProblemResponse where
  statusCode : Nat
  code : String
  detail : String
  requestPath : Text
  deriving DecidableEq, Repr

/-- The middleware answers, or the application does. -/
inductive HttpAnswer (α : Type) where
  | problem (response : ProblemResponse)
  | app (result : α)

/-! ## Which requests are checked -/

/-- `UNSAFE_METHODS`. -/
def unsafeMethods : List Text := ["POST".toList, "PUT".toList, "PATCH".toList, "DELETE".toList]

/-- `csrf_cookie_name`. -/
def csrfCookieName : Text := "csrf_token".toList

/-- `session_cookie_name`. -/
def CsrfSettings.sessionCookieName (settings : CsrfSettings) : Text := settings.sessionCookiePrefix ++ "session_token".toList

/-- `_csrf_exempt_paths`. -/
def csrfExemptPaths (Γ : Ctx) (rawPaths : Text) : List Text := ((rawPaths.splitOn ',').map Γ.strip).filter (· ≠ [])

/-- `_route_path`. -/
def HttpRequest.routePath (request : HttpRequest) : Text :=
  if request.rootPath = [] then request.path
  else if request.path = request.rootPath then []
  else if (request.rootPath ++ ['/']).isPrefixOf request.path then request.path.drop request.rootPath.length
  else request.path

/-- The path is `/api` or under it. -/
def isApiPath (path : Text) : Bool := path = "/api".toList || "/api/".toList.isPrefixOf path

/-- `_requires_csrf`. Methods are ASCII. -/
def requiresCsrf (Γ : Ctx) (settings : CsrfSettings) (request : HttpRequest) : Bool :=
  if request.method.map Char.toUpper ∉ unsafeMethods then false
  else if !isApiPath request.routePath then false
  else request.routePath ∉ csrfExemptPaths Γ settings.csrfExemptPaths

/-! ## The check -/

/-- `get_user_agent`. -/
def HttpRequest.userAgent (request : HttpRequest) : Option Text :=
  (request.userAgentHeader.filter (· ≠ [])).map fun userAgent => userAgent.take 512

/-- `resolve_client_ip`, which may raise. -/
def clientIp (L : IpAddresses) (settings : CsrfSettings) (request : HttpRequest) : Service Γ (Option Text) :=
  match resolveClientIp L request.forwarded settings.trustedProxyIps with
  | none => Prog.throw (.valueError "trusted proxy")
  | some ipAddress => pure ipAddress

/-- `_csrf_error_response`. -/
def csrfErrorResponse (requestPath : Text) : ProblemResponse :=
  ⟨403, "csrf_validation_failed", "CSRF validation failed", requestPath⟩

/-- `_validate`. -/
def validate (L : IpAddresses) (settings : CsrfSettings) (request : HttpRequest) : Service Γ (Option ProblemResponse) :=
  match (request.cookies csrfCookieName).filter (· ≠ []), request.csrfTokenHeader.filter (· ≠ []) with
  | some cookieToken, some headerToken =>
    if cookieToken ≠ headerToken then pure (some (csrfErrorResponse request.urlPath))
    else
      match (request.cookies settings.sessionCookieName).filter (· ≠ []) with
      | none => pure none
      | some sessionToken => do
        let ipAddress ← clientIp L settings request
        match ← validateSessionCsrf sessionToken headerToken ipAddress request.userAgent with
        | .mismatch => return some (csrfErrorResponse request.urlPath)
        | .valid | .noSession => return none
  | _, _ => pure (some (csrfErrorResponse request.urlPath))

/-- The application answers. -/
def runApp (app : Service Γ α) : Service Γ (HttpAnswer α) := do return .app (← app)

/-- `CSRFMiddleware.__call__`. -/
def csrfMiddleware (L : IpAddresses) (settings : CsrfSettings) (request : HttpRequest) (app : Service Γ α) :
    Service Γ (HttpAnswer α) :=
  if request.type ≠ "http".toList ∨ !requiresCsrf Γ settings request then runApp app
  else do
    match ← (validate L settings request).attempt with
    | .error _ => return .problem ⟨500, "internal_server_error", "Internal server error", request.urlPath⟩
    | .ok (some response) => return .problem response
    | .ok none => runApp app

/-- `require_current_session`: the context, or none for 401. -/
def requireCurrentSession (L : IpAddresses) (settings : CsrfSettings) (request : HttpRequest) :
    Service Γ (Option AuthenticatedSessionContext) := do
  authenticateSession (request.cookies settings.sessionCookieName) (← clientIp L settings request) request.userAgent

end AuthService
