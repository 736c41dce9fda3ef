import AuthService.Tables

/-!
# The repositories

The repository methods (services/) as programs of statements. A method called inside `unit_of_work.transaction()` joins its
transaction and flushes; outside it has a transaction of its own and commits (`_persist`). `loaded` is the instance that the
session already holds: `session.get` returns it without a statement. An `UPDATE` of a loaded row assigns the columns that were
set since it was loaded, and fails when the row is gone.
-/

namespace AuthService

open ReadCommitted

variable {Γ : Ctx}

/-- Programs on the database of the service. -/
abbrev Service (Γ : Ctx) := Program (database Γ)

/-! ## Statements -/

def query (q : Query) : Service Γ q.Answer := Prog.perform (A := Act (database Γ)) (.query q)

def insert (w : Write) : Service Γ Unit := Prog.perform (A := Act (database Γ)) (.insert w)

/-- An `UPDATE` or `DELETE` statement, or `SELECT ... FOR UPDATE`: the keys of its rows. -/
def modify (s : Stmt) : Service Γ (List Key) := do
  let found ← (Prog.perform (A := Act (database Γ)) (.start s) : Service Γ (List Key))
  Prog.perform (A := Act (database Γ)) (.finish s found)

/-- The `UPDATE` of one loaded row. -/
def updateRow (s : Stmt) : Service Γ Unit := do
  let rows ← modify s
  if rows.length = 1 then pure () else Prog.throw .staleData

def tryLock (k : Key) : Service Γ Bool := Prog.perform (A := Act (database Γ)) (.tryLock k)

def begin : Service Γ Unit := Prog.perform (A := Act (database Γ)) .begin

def commit : Service Γ Unit := Prog.perform (A := Act (database Γ)) .commit

def rollback : Service Γ Unit := Prog.perform (A := Act (database Γ)) .rollback

def call (x : Ext) : Service Γ x.Reply := Prog.perform (A := Act (database Γ)) (.ext x)

def utcnow : Service Γ DateTime := call .utcnow

def generateToken : Service Γ Text := call .generateToken

def newId : Service Γ Uuid := call .newId

def limiter (op : LimiterOp) : Service Γ Bool := call (.limiter op)

/-- The program fails unless a condition holds. -/
def require (condition : Bool) (error : AuthError) : Service Γ Unit := if condition then pure () else Prog.throw error

/-- The program runs when a condition holds. -/
def whenever (condition : Bool) (body : Service Γ Unit) : Service Γ Unit := if condition then body else pure ()

/-- `result.one_or_none()`. -/
def oneOrNone {α : Type} : List α → Service Γ (Option α)
  | [] => pure none
  | [x] => pure (some x)
  | _ => Prog.throw .multipleResultsFound

/-- The row of a value that must be there (`session.refresh`). -/
def refreshed {α : Type} : List α → Service Γ α
  | [x] => pure x
  | _ => Prog.throw .database

/-- A value or an error. -/
def ofExcept {α : Type} : Except AuthError α → Service Γ α
  | .ok a => pure a
  | .error e => Prog.throw e

/-- The end of a transaction: a commit after the body, a rollback when it raised. -/
def conclude {α : Type} : Except AuthError α → Service Γ α
  | .ok a => do
    commit
    pure a
  | .error e => do
    rollback
    Prog.throw e

/-- `unit_of_work.transaction()`. -/
def transaction {α : Type} (body : Service Γ α) : Service Γ α := do
  begin
  conclude (← body.attempt)

/-- `unit_of_work.session_scope()`: the session of the open transaction, or one of its own that is closed at the end. -/
def sessionScope {α : Type} (inTransaction : Bool) (body : Service Γ α) : Service Γ α :=
  if inTransaction then body
  else do
    begin
    let result ← body.attempt
    rollback
    ofExcept result

/-- `_persist`. -/
def persist (inTransaction : Bool) : Service Γ Unit := if inTransaction then pure () else commit

/-! ## Users -/

/-- `session.get(User, id)`. -/
def getUserById (loaded : Option User) (id : Uuid) : Service Γ (Option User) :=
  match loaded with
  | some user => pure (some user)
  | none => do oneOrNone (← query (.userById id))

/-- `AuthRepository.create_user` and `AdminUserRepository.create_user`. -/
def createUser (inTransaction : Bool) (email : Text) (passwordHash : Option Text) (isActive : Bool)
    (languageCode : LanguageCode) : Service Γ User :=
  sessionScope inTransaction do
    let id ← newId
    let registeredAt ← utcnow
    let modifiedAt ← utcnow
    let user : User := ⟨id, email, passwordHash, isActive, languageCode, registeredAt, modifiedAt, none, none⟩
    match ← (insert (.insertUser user.bind)).attempt with
    | .error .integrity => Prog.throw .emailAlreadyRegistered
    | .error e => Prog.throw e
    | .ok () =>
      persist inTransaction
      refreshed (← query (.userById id))

/-- `update_user_language`. -/
def updateUserLanguage (userId : Uuid) (languageCode : LanguageCode) (modifiedAt : DateTime) : Service Γ User := do
  match ← getUserById none userId with
  | none => Prog.throw (.userNotFound userId)
  | some user =>
    require user.deletedAt.isNone (.userNotFound userId)
    updateRow (.patchUser userId { languageCode := some languageCode, modifiedAt := some modifiedAt })
    refreshed (← query (.userById userId))

/-- `find_user_by_email`. -/
def findUserByEmail (normalizedEmail : Text) : Service Γ (Option User) := do
  oneOrNone (← query (.userByEmail normalizedEmail))

/-- `find_user_by_verified_email_for_oidc_link`. -/
def findUserByVerifiedEmailForOidcLink (email : Text) : Service Γ (Option User) := do
  oneOrNone (← query (.activeUserByEmail (Γ.normalizeEmail email)))

/-- `find_user_by_email_for_oidc_collision`. -/
def findUserByEmailForOidcCollision (email : Text) : Service Γ (Option User) := do
  oneOrNone (← query (.userByEmail (Γ.normalizeEmail email)))

/-- `find_user_by_id_for_authentication`. -/
def findUserByIdForAuthentication (userId : Uuid) : Service Γ (Option User) := do
  oneOrNone (← query (.userById userId))

/-- `AdminUserRepository.get_user`. -/
def getUser (userId : Uuid) : Service Γ (Option User) := do
  oneOrNone (← query (.liveUserById userId))

/-- `record_user_login`, in a transaction. -/
def recordUserLogin (loaded : Option User) (userId : Uuid) (loginAt : DateTime) : Service Γ User := do
  match ← getUserById loaded userId with
  | none => Prog.throw (.userNotFound userId)
  | some user =>
    require user.deletedAt.isNone (.userNotFound userId)
    updateRow (.patchUser userId { lastLoggedInAt := some loginAt })
    refreshed (← query (.userById userId))

/-- `AdminUserUpdateChanges`. -/
structure AdminUserUpdateChanges where
  email : Option Text
  password : Option Text
  isActive : Option Bool
  roles : Option (List Text)
  fieldsSet : List AdminField
  deriving DecidableEq, Repr

/-- `AdminUserRepository.update_user`, in a transaction. -/
def updateUserRow (userId : Uuid) (changes : AdminUserUpdateChanges) (passwordHash : Option Text) : Service Γ User := do
  match ← oneOrNone (← query (.liveUserById userId)) with
  | none => Prog.throw (.userNotFound userId)
  | some _ =>
    require (!(.email ∈ changes.fieldsSet && changes.email.isNone))
      (.valueError "email cannot be None when included in fields_set")
    require (!(.password ∈ changes.fieldsSet && passwordHash.isNone))
      (.valueError "password_hash cannot be None when password is included")
    require (!(.isActive ∈ changes.fieldsSet && changes.isActive.isNone))
      (.valueError "is_active cannot be None when included in fields_set")
    let modifiedAt ← utcnow
    let patch : UserPatch :=
      { email := if .email ∈ changes.fieldsSet then changes.email else none
        passwordHash := if .password ∈ changes.fieldsSet then passwordHash else none
        isActive := if .isActive ∈ changes.fieldsSet then changes.isActive else none
        modifiedAt := some modifiedAt }
    match ← (updateRow (.patchUser userId patch)).attempt with
    | .error .integrity => Prog.throw .emailAlreadyRegistered
    | .error e => Prog.throw e
    | .ok () => refreshed (← query (.userById userId))

/-! ## Identities -/

/-- `find_identity_by_provider_subject`. -/
def findIdentityByProviderSubject (providerId providerSubject : Text) : Service Γ (Option AuthIdentity) := do
  oneOrNone (← query (.identityByProviderSubject providerId providerSubject))

/-- `find_identities_by_user_id`. -/
def findIdentitiesByUserId (userId : Uuid) : Service Γ (List AuthIdentity) := query (.identitiesByUserId userId)

/-- `create_auth_identity`, in a transaction. -/
def createAuthIdentity (identity : AuthIdentity) : Service Γ AuthIdentity := do
  insert (.insertIdentity identity.bind)
  refreshed (← query (.identityByProviderSubject identity.providerId identity.providerSubject))

/-- `delete_auth_identities_for_user`, in a transaction. -/
def deleteAuthIdentitiesForUser (userId : Uuid) : Service Γ Nat := do
  return (← modify (.deleteIdentitiesForUser userId)).length

/-! ## Sessions -/

/-- `session.get(AuthSession, id)`. -/
def getSessionById (loaded : Option AuthSession) (id : Uuid) : Service Γ (Option AuthSession) :=
  match loaded with
  | some session => pure (some session)
  | none => do oneOrNone (← query (.sessionById id))

/-- `create_session`, in a transaction. -/
def createSession (userId : Uuid) (sessionTokenHash csrfTokenHash : Text) (issuedAt lastSeenAt expiresAt : DateTime)
    (ipAddress userAgent : Option Text) : Service Γ AuthSession := do
  let id ← newId
  let session : AuthSession :=
    ⟨id, userId, sessionTokenHash, csrfTokenHash, issuedAt, lastSeenAt, expiresAt, none, none, ipAddress, userAgent⟩
  insert (.insertSession session.bind)
  refreshed (← query (.sessionById id))

/-- `find_active_session_by_token_hash`. -/
def findActiveSessionByTokenHash (tokenHash : Text) : Service Γ (Option AuthSession) := do
  let now ← utcnow
  oneOrNone (← query (.activeSession tokenHash now))

/-- `find_session_by_token_hash`. -/
def findSessionByTokenHash (tokenHash : Text) : Service Γ (Option AuthSession) := do
  oneOrNone (← query (.sessionByTokenHash tokenHash))

/-- `update_session_csrf_token_hash`. -/
def updateSessionCsrfTokenHash (inTransaction : Bool) (loaded : Option AuthSession) (sessionId : Uuid)
    (csrfTokenHash : Text) : Service Γ AuthSession :=
  sessionScope inTransaction do
    match ← getSessionById loaded sessionId with
    | none => Prog.throw (.authSessionNotFound sessionId)
    | some _ =>
      updateRow (.patchSession sessionId { csrfTokenHash := some csrfTokenHash })
      persist inTransaction
      refreshed (← query (.sessionById sessionId))

/-- `revoke_session`, in a transaction. -/
def revokeSession (loaded : Option AuthSession) (sessionId : Uuid) : Service Γ Unit := do
  match ← getSessionById loaded sessionId with
  | none => pure ()
  | some _ =>
    let revokedAt ← utcnow
    updateRow (.patchSession sessionId { revokedAt := some (some revokedAt) })

/-- `touch_session`, in a transaction. -/
def touchSession (loaded : Option AuthSession) (sessionId : Uuid) (lastSeenAt expiresAt : DateTime) :
    Service Γ AuthSession := do
  match ← getSessionById loaded sessionId with
  | none => Prog.throw (.authSessionNotFound sessionId)
  | some session =>
    updateRow (.patchSession sessionId { lastSeenAt := some lastSeenAt, expiresAt := some expiresAt })
    return { session with lastSeenAt := lastSeenAt, expiresAt := expiresAt }

/-- `record_oidc_login`, in a transaction. -/
def recordOidcLogin (loadedUser : Option User) (loadedSession : Option AuthSession) (userId identityId sessionId : Uuid)
    (loginAt : DateTime) (providerAuthTime : Option DateTime) : Service Γ Unit := do
  match ← getUserById loadedUser userId with
  | none => Prog.throw (.userNotFound userId)
  | some user =>
    require user.deletedAt.isNone (.userNotFound userId)
    match ← getSessionById loadedSession sessionId with
    | none => Prog.throw (.authSessionNotFound sessionId)
    | some _ =>
      updateRow (.patchUser userId { lastLoggedInAt := some loginAt })
      let _ ← modify (.updateIdentityLogin identityId userId loginAt)
      match providerAuthTime with
      | none => pure ()
      | some authTime => updateRow (.patchSession sessionId { lastOidcAuthenticatedAt := some authTime })

/-- `record_oidc_reauth`, in a transaction. -/
def recordOidcReauth (loaded : Option AuthSession) (sessionId : Uuid) (authTime : DateTime) : Service Γ Unit := do
  match ← getSessionById loaded sessionId with
  | none => Prog.throw (.authSessionNotFound sessionId)
  | some _ => updateRow (.patchSession sessionId { lastOidcAuthenticatedAt := some authTime })

/-- `revoke_sessions_for_user`, in a transaction. -/
def revokeSessionsForUser (userId : Uuid) (revokedAt : DateTime) : Service Γ Nat := do
  return (← modify (.revokeSessionsForUser userId revokedAt)).length

/-- `delete_sessions_expired_before`. -/
def deleteSessionsExpiredBefore (inTransaction : Bool) (expiredBefore : DateTime) : Service Γ Nat :=
  sessionScope inTransaction do
    let rows ← modify (.deleteSessionsExpiredBefore expiredBefore)
    persist inTransaction
    return rows.length

/-! ## Audit logs -/

/-- A new audit log. -/
structure AuditEntry where
  userId : Option Uuid
  sessionId : Option Uuid
  eventType : AuthEventType
  ipAddress : Option Text
  userAgent : Option Text
  detailJson : Option AuditDetail := none
  occurredAt : Option DateTime := none
  deriving DecidableEq, Repr

/-- The `INSERT` of an audit log. `occurred_at` is the current time by default. -/
def insertAudit (entry : AuditEntry) : Service Γ Unit := do
  let id ← newId
  let now ← utcnow
  let log : AuthAuditLog := ⟨id, entry.userId, entry.sessionId, entry.eventType, entry.ipAddress, entry.userAgent,
    entry.detailJson, entry.occurredAt.getD now⟩
  insert (.insertAudit log.bind)

/-- `create_audit_log`. -/
def createAuditLog (inTransaction : Bool) (entry : AuditEntry) : Service Γ Unit :=
  sessionScope inTransaction do
    insertAudit entry
    persist inTransaction

/-- `delete_audit_logs_occurred_before`. -/
def deleteAuditLogsOccurredBefore (inTransaction : Bool) (occurredBefore : DateTime) : Service Γ Nat :=
  sessionScope inTransaction do
    let rows ← modify (.deleteAuditLogsOccurredBefore occurredBefore)
    persist inTransaction
    return rows.length

/-- `RECENT_REPLAY_IP_LIMIT`. -/
def recentReplayIpLimit : Nat := 10

/-- `_replay_detail_json`. -/
def replayDetail (detail : Option ReplayDetail) (ipAddress userAgent : Option Text) (replayedAt : DateTime)
    (windowSeconds : Int) : ReplayDetail :=
  let recent := (detail.map ReplayDetail.recentIpAddresses).getD []
  let distinct := max ((detail.map ReplayDetail.distinctIpCount).getD recent.length) recent.length
  let count := (detail.map ReplayDetail.replayCount).getD 0
  let isNew := ipAddress.filter fun ip => ip ∉ recent
  { distinctIpCount := distinct + isNew.toList.length
    lastIpAddress := ipAddress
    lastUserAgent := userAgent
    lastReplayedAt := replayedAt
    recentIpAddresses := match isNew with
      | none => recent
      | some ip => (recent ++ [ip]).drop (recent.length + 1 - recentReplayIpLimit)
    replayCount := count + 1
    windowSeconds := windowSeconds }

/-- `REJECTED_SESSION_REPLAY_LOCK_CLASS_ID`. -/
def rejectedSessionReplayLockClassId : Nat := 0x41555253

/-- `_rejected_session_replay_lock_object_id`. -/
def rejectedSessionReplayLockObjectId (sessionId : Uuid) : Nat := sessionId % 2 ^ 31

/-- `record_rejected_session_replay`. -/
def recordRejectedSessionReplay (inTransaction : Bool) (session : AuthSession) (ipAddress userAgent : Option Text)
    (replayedAt : DateTime) (windowSeconds : Int) : Service Γ Unit :=
  sessionScope inTransaction do
    let locked ← tryLock (.advisory rejectedSessionReplayLockClassId (rejectedSessionReplayLockObjectId session.id))
    if locked then
      match ← oneOrNone (← query (.recentReplay session.id (replayedAt - seconds windowSeconds))) with
      | none =>
        insertAudit
          { userId := some session.userId
            sessionId := some session.id
            eventType := .sessionRejected
            ipAddress := ipAddress
            userAgent := userAgent
            detailJson := some (.replay (replayDetail none ipAddress userAgent replayedAt windowSeconds))
            occurredAt := some replayedAt }
        persist inTransaction
      | some log =>
        let detail := match log.detailJson with
          | some (.replay detail) => some detail
          | _ => none
        updateRow (.patchAudit log.id (.replay (replayDetail detail ipAddress userAgent replayedAt windowSeconds)))
        persist inTransaction
    else pure ()

/-- `mark_user_deleted`, in a transaction: a user is marked once, with one audit log. -/
def markUserDeleted (userId : Uuid) (deletedAt : DateTime) (sessionId : Option Uuid) (ipAddress : Option Text) :
    Service Γ User := do
  let rows ← modify (.markUserDeleted userId deletedAt)
  if rows = [] then
    match ← getUserById none userId with
    | none => Prog.throw (.userNotFound userId)
    | some user => pure user
  else
    insertAudit
      { userId := some userId
        sessionId := sessionId
        eventType := .userMarkedDeleted
        ipAddress := ipAddress
        userAgent := none
        occurredAt := some deletedAt }
    match ← getUserById none userId with
    | none => Prog.throw (.userNotFound userId)
    | some user => pure user

/-! ## Authorization states -/

/-- `create_oidc_authorization_state`, in a transaction. -/
def createOidcAuthorizationState (state : AuthOidcState) : Service Γ AuthOidcState := do
  insert (.insertState state.bind)
  refreshed (← query (.stateByHash state.stateHash))

/-- `AuthOidcStateConsumeResult`. -/
inductive ConsumeResult where
  | stateMismatch
  | alreadyConsumed (state : AuthOidcState)
  | expired (state : AuthOidcState)
  | browserBindingMismatch (state : AuthOidcState)
  | consumed (state : AuthOidcState)
  deriving DecidableEq, Repr

/-- `consume_oidc_authorization_state`, in a transaction. -/
def consumeOidcAuthorizationState (stateHash browserBindingHash : Text) (consumedAt : DateTime) :
    Service Γ ConsumeResult := do
  let locked ← modify (.lockState stateHash)
  if locked = [] then return .stateMismatch
  else
    match ← oneOrNone (← query (.stateByHash stateHash)) with
    | none => return .stateMismatch
    | some state =>
      if state.consumedAt.isSome then return .alreadyConsumed state
      else if state.expiresAt ≤ consumedAt then return .expired state
      else if state.browserBindingHash ≠ browserBindingHash then return .browserBindingMismatch state
      else
        updateRow (.patchState state.id consumedAt)
        let state ← refreshed (← query (.stateByHash stateHash))
        return .consumed state

/-- `delete_oidc_states_expired_before`. -/
def deleteOidcStatesExpiredBefore (inTransaction : Bool) (expiredBefore : DateTime) : Service Γ Nat :=
  sessionScope inTransaction do
    let rows ← modify (.deleteOidcStatesExpiredBefore expiredBefore)
    persist inTransaction
    return rows.length

/-! ## Roles and items -/

/-- `get_user_role_codes`. -/
def getUserRoleCodes (userId : Uuid) : Service Γ (List Text) := query (.roleCodes userId)

/-- `list_unknown_role_assignments`. -/
def listUnknownRoleAssignments (known : List Text) : Service Γ (List (Uuid × Text)) := query (.unknownRoles known)

/-- `delete_unknown_role_assignments`, in a transaction. -/
def deleteUnknownRoleAssignments (known : List Text) : Service Γ Nat := do
  require (known ≠ []) (.valueError "known_role_codes must not be empty")
  return (← modify (.deleteUnknownRoles known)).length

/-- `tuple(dict.fromkeys(codes))`: each code once, where it comes first. -/
def fromKeys (codes : List Text) : List Text := codes.reverse.dedup.reverse

theorem mem_fromKeys {xs : List Text} {c : Text} : c ∈ fromKeys xs ↔ c ∈ xs := by simp [fromKeys]

theorem nodup_fromKeys (xs : List Text) : (fromKeys xs).Nodup := List.nodup_reverse.2 (List.nodup_dedup _)

/-- `UserRoleReplacementResult`. -/
structure UserRoleReplacementResult where
  userId : Uuid
  grantedRoleCodes : List Text
  revokedRoleCodes : List Text
  currentRoleCodes : List Text
  deriving DecidableEq, Repr

/-- The `INSERT` of a role assignment. -/
def insertRole (userId : Uuid) (assignedAt : DateTime) (assignedBy : Option Uuid) (code : Text) : Service Γ Unit := do
  let id ← newId
  insert (.insertRole (UserRole.bind ⟨id, userId, code, assignedAt, assignedBy⟩))

/-- `AuthorizationRepository.replace_user_roles`, in a transaction. -/
def replaceUserRoleRows (userId : Uuid) (roleCodes : List Text) (assignedBy : Option Uuid) :
    Service Γ UserRoleReplacementResult := do
  let target := fromKeys roleCodes
  let existing ← getUserRoleCodes userId
  let revoked := sortTexts (existing.dedup.filter fun c => c ∉ target)
  let granted := sortTexts (target.filter fun c => c ∉ existing)
  let changedAt ← utcnow
  whenever (revoked ≠ []) do
    let _ ← modify (.deleteRoleCodes userId revoked)
  Prog.each (insertRole userId changedAt assignedBy) granted
  whenever (granted ≠ [] ∨ revoked ≠ []) do
    let _ ← modify (.modifyUser userId changedAt)
  return ⟨userId, granted, revoked, sortTexts target⟩

/-- `delete_roles_for_user`, in a transaction. -/
def deleteRolesForUser (userId : Uuid) : Service Γ Nat := do
  return (← modify (.deleteRolesForUser userId)).length

/-- `SampleItemRepository.create`. -/
def createItemRow (inTransaction : Bool) (item : SampleItem) : Service Γ SampleItem :=
  sessionScope inTransaction do
    insert (.insertItem item.bind)
    persist inTransaction
    return item

/-- `delete_all_for_owner`, in a transaction. -/
def deleteAllForOwner (ownerUserId : Uuid) : Service Γ Unit := do
  let _ ← modify (.deleteItemsForOwner ownerUserId)

end AuthService
