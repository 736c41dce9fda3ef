import AuthService.SerialRuns

/-!
# What leaves the roles alone

Programs that touch neither the roles of users nor the audit logs about them. Only the administration of roles, the commands
for roles and the deletions do.
-/

namespace AuthService

open ReadCommitted

/-- The audit log is about a change of roles, or about the deletion that ends all roles of a user. -/
def AuthEventType.isAboutRoles : AuthEventType → Bool
  | .roleGranted | .roleRevoked | .userMarkedDeleted => true
  | _ => false

variable {Γ : Ctx} {α β : Type} {b l : Bool}

/-- The action leaves the roles and the audit logs about them alone. It leaves the transaction open unless brackets are
allowed, and does not read the roles of a user unless lookups are. -/
def Apart (brackets lookups : Bool) : Act (database Γ) → Prop
  | .begin | .commit | .rollback => brackets = true
  | .query q => match (q : Query) with
    | .roleCodes _ => lookups = true
    | _ => True
  | .insert w => match (w : Write) with
    | .insertUser _ | .insertSession _ | .insertIdentity _ | .insertItem _ | .insertState _ => True
    | .insertAudit row => row.eventType.isAboutRoles = false
    | _ => False
  | .finish s _ => match (s : Stmt) with
    | .patchAudit _ _ | .deleteAuditLogsOccurredBefore _ | .deleteRolesForUser _ | .deleteRoleCodes _ _
    | .deleteUnknownRoles _ => False
    | _ => True
  | _ => True

/-- The program leaves the roles and the audit logs about them alone. -/
abbrev Plain (brackets lookups : Bool) (p : Service Γ α) : Prop := p.Emits (Apart brackets lookups)

namespace PlainAux

/-- A program and what follows it. -/
theorem plain_bind {p : Service Γ α} {f : α → Service Γ β} (h : Plain b l p) (hf : ∀ a, Plain b l (f a)) : Plain b l (p >>= f) :=
  Prog.Emits.bind h hf

/-! ## Statements -/

theorem plain_pure (a : α) : Plain b l (pure a : Service Γ α) := trivial

theorem plain_throw (e : AuthError) : Plain b l (Prog.throw e : Service Γ α) := trivial

/-- A query, if it may read the roles or reads something else. -/
theorem plain_query {q : Query} (h : Apart (Γ := Γ) b l (.query q)) : Plain b l (query q : Service Γ _) :=
  Prog.emits_perform.2 h

theorem plain_call (x : Ext) : Plain b l (call x : Service Γ _) := Prog.emits_perform.2 trivial

theorem plain_utcnow : Plain b l (utcnow : Service Γ _) := plain_call _

theorem plain_limiter (op : LimiterOp) : Plain b l (limiter op : Service Γ _) := plain_call _

/-- An insert of another row. -/
theorem plain_insert {w : Write} (h : Apart (Γ := Γ) b l (.insert w)) : Plain b l (insert w : Service Γ Unit) :=
  Prog.emits_perform.2 h

/-- A statement about other rows, whatever it has found. -/
theorem plain_modify {s : Stmt} (h : ∀ found, Apart (Γ := Γ) b l (.finish s found)) : Plain b l (modify s : Service Γ (List Key)) :=
  plain_bind (Prog.emits_perform.2 trivial) fun found => Prog.emits_perform.2 (h found)

/-- A check leaves all alone. -/
theorem plain_require (c : Bool) (e : AuthError) : Plain b l (require c e : Service Γ Unit) := by
  unfold require
  split <;> trivial

theorem plain_oneOrNone (xs : List α) : Plain b l (oneOrNone xs : Service Γ (Option α)) := by
  rcases xs with _ | ⟨x, _ | ⟨y, ys⟩⟩ <;> trivial

theorem plain_refreshed (xs : List α) : Plain b l (refreshed xs : Service Γ α) := by
  rcases xs with _ | ⟨x, _ | ⟨y, ys⟩⟩ <;> trivial

theorem plain_ofExcept (r : Except AuthError α) : Plain b l (ofExcept r : Service Γ α) := by
  cases r <;> trivial

/-- The `UPDATE` of one other row. -/
theorem plain_updateRow {s : Stmt} (h : ∀ found, Apart (Γ := Γ) b l (.finish s found)) :
    Plain b l (updateRow s : Service Γ Unit) := by
  refine (plain_modify h).bind fun rows => ?_
  split <;> trivial

/-- One row is looked up. -/
theorem plain_find {q : Query} {f : q.Answer → List α} (h : Apart (Γ := Γ) b l (.query q)) :
    Plain b l (do oneOrNone (f (← query q)) : Service Γ (Option α)) :=
  (plain_query h).bind fun _ => plain_oneOrNone _

/-- One row is read back. -/
theorem plain_readBack {q : Query} {f : q.Answer → List α} (h : Apart (Γ := Γ) b l (.query q)) :
    Plain b l (do refreshed (f (← query q)) : Service Γ α) :=
  (plain_query h).bind fun _ => plain_refreshed _

/-- A transaction is plain where brackets are allowed. -/
theorem plain_transaction {body : Service Γ α} (h : Plain true l body) : Plain true l (transaction body) := by
  refine plain_bind (Prog.emits_perform.2 rfl) fun _ => (Prog.Emits.attempt h).bind fun r => ?_
  cases r with
  | ok a => exact plain_bind (Prog.emits_perform.2 rfl) fun _ => plain_pure a
  | error e => exact plain_bind (Prog.emits_perform.2 rfl) fun _ => plain_throw e

/-- A scope is plain inside a transaction, or where brackets are allowed. -/
theorem plain_sessionScope {inTransaction : Bool} {body : Service Γ α} (hb : inTransaction = true ∨ b = true)
    (h : Plain b l body) : Plain b l (sessionScope inTransaction body) := by
  unfold sessionScope
  split
  · exact h
  · rename_i hno
    have hb := hb.resolve_left hno
    exact plain_bind (Prog.emits_perform.2 hb) fun _ => (Prog.Emits.attempt h).bind fun r =>
      plain_bind (Prog.emits_perform.2 hb) fun _ => plain_ofExcept r

/-- Persisting is plain inside a transaction, or where brackets are allowed. -/
theorem plain_persist {inTransaction : Bool} (hb : inTransaction = true ∨ b = true) :
    Plain b l (persist inTransaction : Service Γ Unit) := by
  cases inTransaction with
  | true => trivial
  | false => exact Prog.emits_perform.2 (hb.resolve_left nofun)

/-! ## Repositories -/

/-- A user is read. -/
theorem plain_getUserById (loaded : Option User) (id : Uuid) : Plain b l (getUserById loaded id : Service Γ (Option User)) := by
  cases loaded with
  | some user => exact plain_pure _
  | none => exact plain_find (by trivial)

/-- A session is read. -/
theorem plain_getSessionById (loaded : Option AuthSession) (id : Uuid) :
    Plain b l (getSessionById loaded id : Service Γ (Option AuthSession)) := by
  cases loaded with
  | some session => exact plain_pure _
  | none => exact plain_find (by trivial)

/-- An active session is looked up. -/
theorem plain_findActiveSession (hash : Text) : Plain b l (findActiveSessionByTokenHash hash : Service Γ (Option AuthSession)) :=
  plain_utcnow.bind fun _ => plain_find (by trivial)

/-- A new user has no roles yet. -/
theorem plain_createUser {inTransaction : Bool} {email : Text} {passwordHash : Option Text} {isActive : Bool}
    {languageCode : LanguageCode} (hb : inTransaction = true ∨ b = true) :
    Plain b l (createUser inTransaction email passwordHash isActive languageCode : Service Γ User) := by
  refine plain_sessionScope hb ((plain_call .newId).bind fun id => plain_utcnow.bind fun _ => plain_utcnow.bind fun _ =>
    (Prog.Emits.attempt (plain_insert (by trivial))).bind fun r => ?_)
  split
  · exact plain_throw _
  · exact plain_throw _
  · exact (plain_persist hb).bind fun _ => plain_readBack (by trivial)

/-- The time of a login is written to the user. -/
theorem plain_recordUserLogin {loaded : Option User} {userId : Uuid} {loginAt : DateTime} :
    Plain b l (recordUserLogin loaded userId loginAt : Service Γ User) := by
  refine (plain_getUserById loaded userId).bind fun user => ?_
  cases user with
  | none => exact plain_throw _
  | some user => exact (plain_require _ _).bind fun _ => (plain_updateRow fun _ => by trivial).bind fun _ => plain_readBack (by trivial)

/-- The language is written to the user. -/
theorem plain_updateUserLanguage {userId : Uuid} {languageCode : LanguageCode} {modifiedAt : DateTime} :
    Plain b l (updateUserLanguage userId languageCode modifiedAt : Service Γ User) := by
  refine (plain_getUserById none userId).bind fun user => ?_
  cases user with
  | none => exact plain_throw _
  | some user => exact (plain_require _ _).bind fun _ => (plain_updateRow fun _ => by trivial).bind fun _ => plain_readBack (by trivial)

/-- An update of the user's row is not one of the roles. -/
theorem plain_updateUserRow {userId : Uuid} {changes : AdminUserUpdateChanges} {passwordHash : Option Text} :
    Plain b l (updateUserRow userId changes passwordHash : Service Γ User) := by
  refine (plain_query (by trivial)).bind fun rows => (plain_oneOrNone _).bind fun user => ?_
  cases user with
  | none => exact plain_throw _
  | some user =>
    refine (plain_require _ _).bind fun _ => (plain_require _ _).bind fun _ => (plain_require _ _).bind fun _ =>
      plain_utcnow.bind fun _ => (Prog.Emits.attempt (plain_updateRow fun _ => by trivial)).bind fun r => ?_
    split
    · exact plain_throw _
    · exact plain_throw _
    · exact plain_readBack (by trivial)

/-- A session is inserted. -/
theorem plain_createSession {userId : Uuid} {tokenHash csrfHash : Text} {issuedAt lastSeenAt expiresAt : DateTime}
    {ipAddress userAgent : Option Text} :
    Plain b l (createSession userId tokenHash csrfHash issuedAt lastSeenAt expiresAt ipAddress userAgent : Service Γ AuthSession) :=
  (plain_call .newId).bind fun _ => (plain_insert (by trivial)).bind fun _ => plain_readBack (by trivial)

/-- A session is revoked. -/
theorem plain_revokeSession {loaded : Option AuthSession} {sessionId : Uuid} :
    Plain b l (revokeSession loaded sessionId : Service Γ Unit) := by
  refine (plain_getSessionById loaded sessionId).bind fun session => ?_
  cases session with
  | none => exact plain_pure _
  | some session => exact plain_utcnow.bind fun _ => plain_updateRow fun _ => by trivial

/-- A session is touched. -/
theorem plain_touchSession {loaded : Option AuthSession} {sessionId : Uuid} {lastSeenAt expiresAt : DateTime} :
    Plain b l (touchSession loaded sessionId lastSeenAt expiresAt : Service Γ AuthSession) := by
  refine (plain_getSessionById loaded sessionId).bind fun session => ?_
  cases session with
  | none => exact plain_throw _
  | some session => exact (plain_updateRow fun _ => by trivial).bind fun _ => plain_pure _

/-- The token of a session is written. -/
theorem plain_updateSessionCsrfTokenHash {inTransaction : Bool} {loaded : Option AuthSession} {sessionId : Uuid}
    {csrfHash : Text} (hb : inTransaction = true ∨ b = true) :
    Plain b l (updateSessionCsrfTokenHash inTransaction loaded sessionId csrfHash : Service Γ AuthSession) := by
  refine plain_sessionScope hb ((plain_getSessionById loaded sessionId).bind fun session => ?_)
  cases session with
  | none => exact plain_throw _
  | some session =>
    exact (plain_updateRow fun _ => by trivial).bind fun _ => (plain_persist hb).bind fun _ => plain_readBack (by trivial)

/-- A login at a provider is recorded. -/
theorem plain_recordOidcLogin {loadedUser : Option User} {loadedSession : Option AuthSession}
    {userId identityId sessionId : Uuid} {loginAt : DateTime} {authTime : Option DateTime} :
    Plain b l (recordOidcLogin loadedUser loadedSession userId identityId sessionId loginAt authTime : Service Γ Unit) := by
  refine (plain_getUserById loadedUser userId).bind fun user => ?_
  cases user with
  | none => exact plain_throw _
  | some user =>
    refine (plain_require _ _).bind fun _ => (plain_getSessionById loadedSession sessionId).bind fun session => ?_
    cases session with
    | none => exact plain_throw _
    | some session =>
      refine (plain_updateRow fun _ => by trivial).bind fun _ => (plain_modify fun _ => by trivial).bind fun _ => ?_
      cases authTime with
      | none => exact plain_pure _
      | some t => exact plain_updateRow fun _ => by trivial

/-- A reauthentication is recorded. -/
theorem plain_recordOidcReauth {loaded : Option AuthSession} {sessionId : Uuid} {authTime : DateTime} :
    Plain b l (recordOidcReauth loaded sessionId authTime : Service Γ Unit) := by
  refine (plain_getSessionById loaded sessionId).bind fun session => ?_
  cases session with
  | none => exact plain_throw _
  | some session => exact plain_updateRow fun _ => by trivial

/-- The sessions of a user are revoked. -/
theorem plain_revokeSessionsForUser (userId : Uuid) (revokedAt : DateTime) :
    Plain b l (revokeSessionsForUser userId revokedAt : Service Γ Nat) :=
  (plain_modify fun _ => by trivial).bind fun _ => plain_pure _

/-- An audit log about something else. -/
theorem plain_insertAudit {entry : AuditEntry} (h : entry.eventType.isAboutRoles = false) :
    Plain b l (insertAudit entry : Service Γ Unit) :=
  (plain_call .newId).bind fun _ => plain_utcnow.bind fun _ => plain_insert h

/-- An audit log about something else, in a scope of its own or not. -/
theorem plain_createAuditLog {inTransaction : Bool} {entry : AuditEntry} (hb : inTransaction = true ∨ b = true)
    (h : entry.eventType.isAboutRoles = false) :
    Plain b l (createAuditLog inTransaction entry : Service Γ Unit) :=
  plain_sessionScope hb ((plain_insertAudit h).bind fun _ => plain_persist hb)

/-- A state is consumed. -/
theorem plain_consumeState {stateHash bindingHash : Text} {consumedAt : DateTime} :
    Plain b l (consumeOidcAuthorizationState stateHash bindingHash consumedAt : Service Γ ConsumeResult) := by
  refine (plain_modify fun _ => by trivial).bind fun locked => ?_
  split
  · exact plain_pure _
  · refine (plain_query (by trivial)).bind fun rows => (plain_oneOrNone _).bind fun state => ?_
    cases state with
    | none => exact plain_pure _
    | some state =>
      dsimp only
      split
      · exact plain_pure _
      split
      · exact plain_pure _
      split
      · exact plain_pure _
      exact (plain_updateRow fun _ => by trivial).bind fun _ => (plain_query (by trivial)).bind fun _ =>
        (plain_refreshed _).bind fun _ => plain_pure _

/-! ## Sessions -/

/-- The roles of a user are read where that is allowed. -/
theorem plain_authorization (userId : Uuid) :
    Plain b true (authorizationForExistingUser userId : Service Γ (List Text × List Text)) :=
  (plain_query (q := .roleCodes userId) rfl).bind fun _ => plain_pure _

/-- A session is replaced. -/
theorem plain_replaceAuthSession {user : User} {token ipAddress userAgent : Option Text} :
    Plain b l (replaceAuthSession user token ipAddress userAgent : Service Γ (AuthSession × Text × Text)) := by
  refine plain_bind ?_ fun _ => (plain_call .generateToken).bind fun _ => (plain_call .generateToken).bind fun _ =>
    plain_utcnow.bind fun _ => plain_createSession.bind fun _ => plain_pure _
  unfold rotateSession
  split
  · exact plain_pure _
  · refine (plain_findActiveSession _).bind fun session => ?_
    cases session with
    | none => exact plain_pure _
    | some session => exact plain_revokeSession

/-- A failed registration is logged. -/
theorem plain_registerFailed {userId : Option Uuid} {ip email : Text} {ipAddress userAgent : Option Text} :
    Plain true l (registerFailed userId ip email ipAddress userAgent : Service Γ Unit) :=
  (plain_limiter _).bind fun _ => plain_createAuditLog (by simp) rfl

/-- A registration leaves the roles alone. -/
theorem plain_register {email password : Text} {languageCode : LanguageCode} {token ipAddress userAgent : Option Text} :
    Plain true l (register email password languageCode token ipAddress userAgent : Service Γ IssuedAuthSession) := by
  refine (plain_limiter _).bind fun _ => (plain_require _ _).bind fun _ => (plain_limiter _).bind fun _ =>
    (plain_require _ _).bind fun _ => ?_
  split
  · exact (plain_limiter _).bind fun _ => plain_throw _
  · refine (plain_find (by trivial)).bind fun existing => ?_
    cases existing with
    | some existing => exact plain_registerFailed.bind fun _ => plain_throw _
    | none =>
      refine (Prog.Emits.attempt (plain_transaction ((plain_call _).bind fun _ => (plain_createUser (Or.inl rfl)).bind fun _ =>
        plain_utcnow.bind fun _ => plain_recordUserLogin.bind fun _ => plain_replaceAuthSession.bind fun _ =>
          (plain_createAuditLog (by simp) rfl).bind fun _ => plain_pure _))).bind fun r => ?_
      split
      · exact plain_registerFailed.bind fun _ => plain_throw _
      · exact plain_throw _
      · exact (plain_limiter _).bind fun _ => plain_pure _

/-- A login reads the roles after its transaction and leaves them alone. -/
theorem plain_login {email password : Text} {token ipAddress userAgent : Option Text} :
    Plain true true (login email password token ipAddress userAgent : Service Γ IssuedAuthSession) := by
  refine (plain_limiter _).bind fun _ => (plain_require _ _).bind fun _ => (plain_find (by trivial)).bind fun user =>
    (plain_call _).bind fun passwordMatches => ?_
  split
  · exact (plain_limiter _).bind fun _ => (plain_createAuditLog (by simp) rfl).bind fun _ => plain_throw _
  · refine plain_bind (plain_transaction (plain_utcnow.bind fun _ => plain_recordUserLogin.bind fun _ =>
      plain_replaceAuthSession.bind fun _ => (plain_createAuditLog (by simp) rfl).bind fun _ => plain_pure _)) fun _ => ?_
    exact (plain_limiter _).bind fun _ => (plain_authorization _).bind fun _ => plain_pure _

/-- A session is rejected. -/
theorem plain_rejectSession {session : AuthSession} {eventType : AuthEventType} {userId : Option Uuid}
    {ipAddress userAgent : Option Text} (h : eventType.isAboutRoles = false) :
    Plain b l (rejectSession session eventType userId ipAddress userAgent : Service Γ Unit) :=
  plain_revokeSession.bind fun _ => plain_createAuditLog (Or.inl rfl) h

/-- All sessions of a user are rejected. -/
theorem plain_rejectUserSessions {session : AuthSession} {eventType : AuthEventType} {userId : Uuid}
    {ipAddress userAgent : Option Text} (h : eventType.isAboutRoles = false) :
    Plain b l (rejectUserSessions session eventType userId ipAddress userAgent : Service Γ Unit) :=
  plain_utcnow.bind fun _ => (plain_revokeSessionsForUser _ _).bind fun _ => plain_createAuditLog (Or.inl rfl) h

/-- A session is refreshed. -/
theorem plain_refreshSession (session : AuthSession) : Plain b l (refreshSession session : Service Γ AuthSession) := by
  refine plain_utcnow.bind fun now => ?_
  dsimp only
  split
  · exact plain_touchSession
  · exact plain_pure _

/-- The context of a session that was found. -/
theorem plain_contextOfSession {tokenHash : Text} {ipAddress userAgent : Option Text} (session : AuthSession) :
    Plain b true (contextOfFound tokenHash ipAddress userAgent (some session) : Service Γ (Option AuthenticatedSessionContext)) := by
  refine (plain_find (by trivial)).bind fun user => ?_
  cases user with
  | none => exact (plain_rejectSession rfl).bind fun _ => plain_pure _
  | some user =>
    dsimp only
    split
    · exact (plain_rejectUserSessions rfl).bind fun _ => plain_pure _
    split
    · exact (plain_rejectUserSessions rfl).bind fun _ => plain_pure _
    exact (plain_refreshSession _).bind fun _ => (plain_authorization _).bind fun _ => plain_pure _

/-- A token is issued. -/
theorem plain_issueCsrfToken (token : Option Text) : Plain true l (issueCsrfToken token : Service Γ Text) := by
  refine (plain_call .generateToken).bind fun csrfToken => ?_
  split
  · exact plain_pure _
  · refine (plain_findActiveSession _).bind fun session => ?_
    cases session with
    | none => exact plain_pure _
    | some session => exact (plain_updateSessionCsrfTokenHash (by simp)).bind fun _ => plain_pure _

/-- A logout leaves the roles alone. -/
theorem plain_logout {token ipAddress userAgent : Option Text} :
    Plain true l (logout token ipAddress userAgent : Service Γ Unit) := by
  unfold logout
  split
  · exact plain_pure _
  · refine (plain_findActiveSession _).bind fun session => ?_
    cases session with
    | none => exact plain_pure _
    | some session => exact plain_transaction (plain_revokeSession.bind fun _ => plain_createAuditLog (by simp) rfl)

/-- The user's own settings are no roles. -/
theorem plain_updateCurrentUser {context : AuthenticatedSessionContext} {languageCode : Option LanguageCode} :
    Plain true l (updateCurrentUser context languageCode : Service Γ AuthenticatedSessionContext) := by
  cases languageCode with
  | none => exact plain_pure _
  | some code =>
    exact (plain_transaction (plain_utcnow.bind fun _ => plain_updateUserLanguage)).bind fun _ => plain_pure _

/-! ## OpenID Connect -/

/-- An identity is linked. -/
theorem plain_createIdentityForClaims {provider : OidcProviderSettings} {claims : OidcVerifiedClaims} {userId : Uuid} :
    Plain b l (createIdentityForClaims provider claims userId : Service Γ AuthIdentity) :=
  (plain_call .newId).bind fun _ => plain_utcnow.bind fun _ => (plain_insert (by trivial)).bind fun _ => plain_readBack (by trivial)

/-- The audit logs of the setup of a login are about identities. -/
def PlainTo (b l : Bool) (Q : α → Prop) (p : Service Γ α) : Prop :=
  p.Always (fun _ _ => True) (Apart b l) fun r => ∀ a, r = .ok a → Q a

theorem plainTo_bind {p : Service Γ α} {f : α → Service Γ β} {Q : β → Prop} (h : Plain b l p) (hf : ∀ a, PlainTo b l Q (f a)) :
    PlainTo b l Q (p >>= f) := Prog.Always.bind h (fun a _ => hf a) fun _ _ => nofun

/-- What follows may use what is known of the result. -/
theorem plain_bindTo {p : Service Γ α} {f : α → Service Γ β} {Q : α → Prop} (h : PlainTo b l Q p)
    (hf : ∀ a, Q a → Plain b l (f a)) : Plain b l (p >>= f) :=
  Prog.Always.bind h (fun a ha => hf a (ha a rfl)) fun _ _ => trivial

/-- The result that is returned meets the predicate. -/
theorem plainTo_pure {Q : α → Prop} {a : α} (h : Q a) : PlainTo b l Q (pure a : Service Γ α) := by
  intro b hb
  exact Except.ok.inj hb ▸ h

theorem plainTo_throw {Q : α → Prop} (e : AuthError) : PlainTo b l Q (Prog.throw e : Service Γ α) := nofun

/-- The resolution of a login asks for audit logs about other things only. -/
theorem plain_resolve {provider : OidcProviderSettings} {claims : OidcVerifiedClaims} {languageCode : Option LanguageCode} :
    PlainTo b l (fun x => ∀ e ∈ x.2.2, AuthEventType.isAboutRoles e = false)
      (resolveLoginUserAndIdentity provider claims languageCode : Service Γ (User × AuthIdentity × List AuthEventType)) := by
  refine plainTo_bind (plain_find (by trivial)) fun identity => ?_
  cases identity with
  | some identity =>
    refine plainTo_bind (plain_find (by trivial)) fun user => ?_
    cases user with
    | none => exact plainTo_throw _
    | some user => exact plainTo_bind (plain_require _ _) fun _ => plainTo_pure (by simp)
  | none =>
    refine plainTo_bind (plain_ofExcept _) fun email => plainTo_bind (plain_find (by trivial)) fun linked => ?_
    cases linked with
    | some linked =>
      exact plainTo_bind (plain_require _ _) fun _ => plainTo_bind (plain_require _ _) fun _ =>
        plainTo_bind plain_createIdentityForClaims fun _ => plainTo_pure (by simp [AuthEventType.isAboutRoles])
    | none =>
      refine plainTo_bind (plain_find (by trivial)) fun collision => ?_
      cases collision with
      | some _ => exact plainTo_throw _
      | none =>
        refine plainTo_bind (plain_require _ _) fun _ => plainTo_bind (Prog.Emits.attempt (plain_createUser (Or.inl rfl)))
          fun r => ?_
        split
        · exact plainTo_throw _
        · exact plainTo_throw _
        · exact plainTo_bind plain_createIdentityForClaims fun _ => plainTo_pure (by simp [AuthEventType.isAboutRoles])

/-- Audit logs about other things, one after the other. -/
theorem plain_eachAudit {entry : β → AuditEntry} {xs : List β} (h : ∀ x ∈ xs, (entry x).eventType.isAboutRoles = false) :
    Plain b l (Prog.each (fun x => createAuditLog true (entry x)) xs : Service Γ Unit) := by
  induction xs with
  | nil => exact plain_pure ()
  | cons x xs ih =>
    exact (plain_createAuditLog (Or.inl rfl) (h x List.mem_cons_self)).bind fun _ =>
      ih fun y hy => h y (List.mem_cons_of_mem _ hy)

/-- The transaction of a login callback. -/
theorem plain_loginCallbackTransaction {provider : OidcProviderSettings} {oidcState : AuthOidcState}
    {claims : OidcVerifiedClaims} {token ipAddress userAgent : Option Text} :
    Plain true l (loginCallbackTransaction provider oidcState claims token ipAddress userAgent :
      Service Γ (User × AuthSession × Text × Text)) := by
  refine plain_transaction (plain_bindTo plain_resolve fun x hx => ?_)
  exact plain_utcnow.bind fun _ => plain_recordUserLogin.bind fun _ => plain_replaceAuthSession.bind fun _ =>
    plain_recordOidcLogin.bind fun _ => (plain_eachAudit hx).bind fun _ => (plain_createAuditLog (by simp) rfl).bind
      fun _ => plain_pure _

/-- The audit of a failed callback. -/
theorem plain_auditCallbackFailure {provider : OidcProviderSettings} {oidcState : AuthOidcState} {error : AuthError}
    {session : Option AuthenticatedSessionContext} {ipAddress userAgent : Option Text} :
    Plain true l (auditCallbackFailure provider oidcState error session ipAddress userAgent : Service Γ Unit) := by
  unfold auditCallbackFailure
  split
  · exact plain_createAuditLog (by simp) rfl
  · exact plain_createAuditLog (by simp) rfl

/-- A reauthentication leaves the roles alone. -/
theorem plain_completeReauthCallback {provider : OidcProviderSettings} {oidcState : AuthOidcState}
    {claims : OidcVerifiedClaims} {session : Option AuthenticatedSessionContext} {ipAddress userAgent : Option Text} :
    Plain true l (completeReauthCallback provider oidcState claims session ipAddress userAgent : Service Γ OidcCallbackResult) := by
  cases session with
  | none => exact plain_throw _
  | some context =>
    refine (plain_require _ _).bind fun _ => (plain_find (by trivial)).bind fun identity => ?_
    cases identity with
    | none => exact plain_throw _
    | some identity =>
      refine (plain_require _ _).bind fun _ => ?_
      split
      · exact plain_throw _
      · exact plain_utcnow.bind fun _ => (plain_require _ _).bind fun _ => plain_utcnow.bind fun _ =>
          (plain_transaction (plain_recordOidcReauth.bind fun _ => plain_createAuditLog (by simp) rfl)).bind fun _ => plain_pure _

/-- The first transaction of a callback. -/
theorem plain_consumeCallbackState {provider : OidcProviderSettings} {state : Text} {binding : Option Text} :
    Plain true l (consumeCallbackState provider state binding : Service Γ AuthOidcState) := by
  cases binding with
  | none => exact plain_throw _
  | some binding =>
    refine plain_utcnow.bind fun _ => (plain_transaction plain_consumeState).bind fun r => ?_
    cases r with
    | consumed oidcState => exact (plain_require _ _).bind fun _ => plain_pure _
    | _ => exact plain_throw _

/-- What a callback does once its state is consumed. -/
theorem plain_finishCallback {provider : OidcProviderSettings} {oidcState : AuthOidcState} {code : Text}
    {session : Option AuthenticatedSessionContext} {token ipAddress userAgent : Option Text} :
    Plain true true (finishCallback provider oidcState code session token ipAddress userAgent : Service Γ OidcCallbackResult) := by
  refine (plain_call _).bind fun idToken => plain_bind ((plain_call _).bind fun _ => plain_utcnow.bind fun _ =>
    plain_ofExcept _) fun claims => ?_
  split
  · exact plain_completeReauthCallback
  · exact plain_loginCallbackTransaction.bind fun _ => (plain_authorization _).bind fun _ => plain_pure _

/-- A callback leaves the roles alone. -/
theorem plain_completeCallback {providerId state code : Text} {binding : Option Text}
    {session : Option AuthenticatedSessionContext} {token ipAddress userAgent : Option Text} :
    Plain true true (completeCallback providerId state code binding session token ipAddress userAgent : Service Γ OidcCallbackResult) := by
  unfold completeCallback
  split
  · exact plain_throw _
  · refine plain_consumeCallbackState.bind fun oidcState => (Prog.Emits.attempt plain_finishCallback).bind fun r => ?_
    cases r with
    | ok result => exact plain_pure _
    | error e => exact plain_auditCallbackFailure.bind fun _ => plain_throw _

/-- An error callback leaves the roles alone. -/
theorem plain_completeErrorCallback {providerId state : Text} {binding : Option Text} {error : AuthError}
    {session : Option AuthenticatedSessionContext} {ipAddress userAgent : Option Text} :
    Plain true l (completeErrorCallback providerId state binding error session ipAddress userAgent : Service Γ Unit) := by
  unfold completeErrorCallback
  split
  · exact plain_throw _
  · exact plain_consumeCallbackState.bind fun _ => plain_auditCallbackFailure.bind fun _ => plain_throw _

/-- The start of an authorization leaves the roles alone. -/
theorem plain_startAuthorization {providerId : Text} {redirectPath : Option Text} {purpose : OidcAuthorizationPurpose}
    {session : Option AuthenticatedSessionContext} {ipAddress : Option Text} {languageCode : Option LanguageCode} :
    Plain true l (startAuthorization providerId redirectPath purpose session ipAddress languageCode :
      Service Γ OidcAuthorizationStartResult) := by
  unfold startAuthorization
  split
  · exact plain_throw _
  · refine (plain_require _ _).bind fun _ => (plain_limiter _).bind fun _ => (plain_require _ _).bind fun _ =>
      (plain_call .generateToken).bind fun _ => (plain_call .generateToken).bind fun _ =>
      (plain_call .generateToken).bind fun _ => (plain_call .generateToken).bind fun _ => plain_utcnow.bind fun _ =>
      (plain_call _).bind fun _ => plain_bind (plain_transaction ((plain_call .newId).bind fun id => ?_)) fun _ => plain_pure _
    split
    · exact plain_throw _
    · exact plain_bind ((plain_insert (by trivial)).bind fun _ => plain_readBack (by trivial)) fun _ => (plain_limiter _).bind
        fun _ => plain_pure _

/-! ## Administration and account deletion -/

/-- The detail of a user has the roles that are read. -/
theorem plain_detailForUser (user : User) : Plain b true (detailForUser user : Service Γ AdminUserDetail) :=
  (plain_authorization _).bind fun _ => plain_pure _

/-- Hashing a password leaves all alone. -/
theorem plain_hashValidPassword (password : Text) : Plain b l (hashValidPassword password : Service Γ Text) := by
  unfold hashValidPassword
  split
  · exact plain_throw _
  · exact plain_call _

/-- The hash of a changed password leaves all alone. -/
theorem plain_changedPasswordHash (changes : AdminUserUpdateChanges) :
    Plain b l (changedPasswordHash changes : Service Γ (Option Text)) := by
  unfold changedPasswordHash
  split
  · split
    · exact plain_throw _
    · exact (plain_hashValidPassword _).bind fun _ => plain_pure _
  · exact plain_pure _

/-- An administrator reads a user. -/
theorem plain_adminGetUser (userId : Uuid) : Plain b true (adminGetUser userId : Service Γ AdminUserDetail) := by
  refine (plain_find (by trivial)).bind fun user => ?_
  cases user with
  | none => exact plain_throw _
  | some user => exact plain_detailForUser user

/-- The check before a deletion leaves the roles alone. -/
theorem plain_requireReauth {context : AuthenticatedSessionContext} {email : Text} {password ipAddress userAgent : Option Text} :
    Plain true l (requireReauth context email password ipAddress userAgent : Service Γ Unit) := by
  have hproviders : Plain true l (linkedProviderDetails context.user.id : Service Γ (List (Text × Text))) :=
    (plain_query (by trivial)).bind fun _ => plain_pure _
  unfold requireReauth
  split
  · refine (plain_limiter _).bind fun _ => (plain_require _ _).bind fun _ => ?_
    split
    · exact plain_throw _
    · refine (plain_call _).bind fun (passwordMatches : Bool) => ?_
      cases passwordMatches with
      | true => exact plain_pure _
      | false => exact (plain_limiter _).bind fun _ => (plain_createAuditLog (by simp) rfl).bind fun _ => plain_throw _
  · unfold requireFreshOidcReauth
    split
    · exact hproviders.bind fun _ => plain_throw _
    · refine plain_utcnow.bind fun now => ?_
      split
      · exact hproviders.bind fun _ => plain_throw _
      · exact plain_pure _

end PlainAux

end AuthService
