import AuthService.UseCases.Sessions

/-!
# Administration, roles, account deletion and items

`AdminUserUsecase`, `AuthorizationUsecase`, `AccountDeletionUsecase` and `SampleItemUsecase.create_item` (usecases/), and the
commands of the CLI that change roles (manage.py).
-/

namespace AuthService

variable {Γ : Ctx}

/-! ## Roles -/

/-- `_normalize_and_validate_roles`. -/
def normalizeAndValidateRoles (Γ : Ctx) (roleCodes : List Text) : Except AuthError (List Text) :=
  let normalized := fromKeys roleCodes
  let missing := normalized.filter fun c => c ∉ Γ.roleCatalog.map Prod.fst
  if missing = [] then .ok normalized else .error (.roleNotFound missing)

/-- `role_audit_detail`. -/
def roleAuditDetail (source : Option String) (actorUserId : Option Uuid) (targetUserId : Uuid) (resultingRoles : List Text)
    (roleCode : Text) : AuditDetail :=
  .role source actorUserId targetUserId roleCode (some resultingRoles)

/-- The audit logs of a change of roles by an administrator. -/
def auditRoles (actor : AuthenticatedSessionContext) (result : UserRoleReplacementResult) (eventType : AuthEventType)
    (codes : List Text) (ipAddress userAgent : Option Text) : Service Γ Unit :=
  Prog.each (fun code => createAuditLog true
    { userId := some actor.user.id
      sessionId := some actor.session.id
      eventType := eventType
      ipAddress := ipAddress
      userAgent := userAgent
      detailJson := some (roleAuditDetail none (some actor.user.id) result.userId result.currentRoleCodes code) }) codes

/-- `_replace_roles_with_audit`. -/
def replaceRolesWithAudit (actor : AuthenticatedSessionContext) (targetUserId : Uuid) (roleCodes : List Text)
    (ipAddress userAgent : Option Text) : Service Γ UserRoleReplacementResult := do
  let result ← replaceUserRoleRows targetUserId roleCodes (some actor.user.id)
  auditRoles actor result .roleGranted result.grantedRoleCodes ipAddress userAgent
  auditRoles actor result .roleRevoked result.revokedRoleCodes ipAddress userAgent
  return result

/-- `AuthorizationUsecase.replace_user_roles`. -/
def replaceUserRoles (actor : AuthenticatedSessionContext) (targetUserId : Uuid) (roleCodes : List Text)
    (ipAddress userAgent : Option Text) : Service Γ UserRoleReplacementResult := do
  let roles ← ofExcept (normalizeAndValidateRoles Γ roleCodes)
  transaction do
    match ← findUserByIdForAuthentication targetUserId with
    | none => Prog.throw (.authorizationUserNotFound targetUserId)
    | some user =>
      require user.deletedAt.isNone (.authorizationUserNotFound targetUserId)
      replaceRolesWithAudit actor targetUserId roles ipAddress userAgent

/-! ## Administration of users -/

/-- `AdminUserDetail`. -/
structure AdminUserDetail where
  user : User
  roles : List Text
  permissions : List Text
  deriving DecidableEq, Repr

/-- `_detail_for_user`. -/
def detailForUser (user : User) : Service Γ AdminUserDetail := do
  let (roles, permissions) ← authorizationForExistingUser user.id
  return ⟨user, sortTexts roles, sortTexts permissions⟩

/-- `_hash_valid_password`. -/
def hashValidPassword (password : Text) : Service Γ Text :=
  match validatePasswordPolicy password with
  | some message => Prog.throw (.weakPassword message)
  | none => call (.hashPassword password)

/-- The audit log of an administrator's change. -/
def adminAudit (actor : AuthenticatedSessionContext) (targetUserId : Uuid) (eventType : AuthEventType)
    (changedFields : Option (List AdminField)) (ipAddress userAgent : Option Text) : AuditEntry :=
  { userId := some actor.user.id
    sessionId := some actor.session.id
    eventType := eventType
    ipAddress := ipAddress
    userAgent := userAgent
    detailJson := some (.admin actor.user.id targetUserId changedFields) }

/-- `AdminUserUsecase.create_user`. -/
def adminCreateUser (actor : AuthenticatedSessionContext) (email password : Text) (isActive : Bool) (roles : List Text)
    (ipAddress userAgent : Option Text) : Service Γ AdminUserDetail := do
  let normalizedEmail := Γ.normalizeEmail email
  let normalizedRoles ← ofExcept (normalizeAndValidateRoles Γ roles)
  let passwordHash ← hashValidPassword password
  transaction do
    let user ← createUser true normalizedEmail (some passwordHash) isActive .ja
    createAuditLog true (adminAudit actor user.id .userCreatedByAdmin
      (some [.email, .password, .isActive, .roles]) ipAddress userAgent)
    let _ ← replaceRolesWithAudit actor user.id normalizedRoles ipAddress userAgent
    detailForUser user

/-- `AdminUserUsecase.get_user`. -/
def adminGetUser (userId : Uuid) : Service Γ AdminUserDetail := do
  match ← getUser userId with
  | none => Prog.throw (.userNotFound userId)
  | some user => detailForUser user

/-- The roles of the changes, when they are among the fields of the request. -/
def changedRoles (Γ : Ctx) (changes : AdminUserUpdateChanges) : Except AuthError (Option (List Text)) :=
  if .roles ∈ changes.fieldsSet then
    match changes.roles with
    | none => .error (.valueError "roles cannot be None when included in fields_set")
    | some roles => (normalizeAndValidateRoles Γ roles).map some
  else .ok none

/-- The hash of the new password, when it is among the fields of the request. -/
def changedPasswordHash (changes : AdminUserUpdateChanges) : Service Γ (Option Text) :=
  if .password ∈ changes.fieldsSet then
    match changes.password with
    | none => Prog.throw (.valueError "password cannot be None when included in fields_set")
    | some password => do return some (← hashValidPassword password)
  else pure none

/-- The password changes or the user is deactivated: the sessions of the user are revoked. -/
def AdminUserUpdateChanges.revokesSessions (changes : AdminUserUpdateChanges) : Bool :=
  .password ∈ changes.fieldsSet || .isActive ∈ changes.fieldsSet && changes.isActive = some false

/-- `_audit_fields`. -/
def auditFields (fieldsSet : List AdminField) : List AdminField :=
  [AdminField.email, .password, .isActive, .roles].filter fun f => f ∈ fieldsSet

/-- The roles are replaced when they are among the fields of the request. -/
def replaceChangedRoles (actor : AuthenticatedSessionContext) (userId : Uuid) (roles : Option (List Text))
    (ipAddress userAgent : Option Text) : Service Γ Unit :=
  match roles with
  | none => pure ()
  | some roles => do let _ ← replaceRolesWithAudit actor userId roles ipAddress userAgent

/-- The transaction of `AdminUserUsecase.update_user`. -/
def updateUserTransaction (actor : AuthenticatedSessionContext) (userId : Uuid) (changes : AdminUserUpdateChanges)
    (roles : Option (List Text)) (passwordHash : Option Text) (revokedAt : DateTime) (ipAddress userAgent : Option Text) :
    Service Γ AdminUserDetail :=
  transaction do
    let user ← updateUserRow userId { changes with email := changes.email.map Γ.normalizeEmail, roles := roles } passwordHash
    replaceChangedRoles actor user.id roles ipAddress userAgent
    whenever changes.revokesSessions do
      let _ ← revokeSessionsForUser user.id revokedAt
    createAuditLog true (adminAudit actor user.id .userUpdatedByAdmin (some (auditFields changes.fieldsSet))
      ipAddress userAgent)
    detailForUser user

/-- `AdminUserUsecase.update_user`. -/
def adminUpdateUser (actor : AuthenticatedSessionContext) (userId : Uuid) (changes : AdminUserUpdateChanges)
    (ipAddress userAgent : Option Text) : Service Γ AdminUserDetail :=
  if changes.fieldsSet = [] then adminGetUser userId
  else do
    let roles ← ofExcept (changedRoles Γ changes)
    let passwordHash ← changedPasswordHash changes
    let revokedAt ← utcnow
    updateUserTransaction actor userId changes roles passwordHash revokedAt ipAddress userAgent

/-- What both deletions do to the user's rows. -/
def wipeUser (userId : Uuid) (deletedAt : DateTime) (sessionId : Uuid) (ipAddress : Option Text) : Service Γ Unit := do
  deleteAllForOwner userId
  let _ ← deleteRolesForUser userId
  let _ ← deleteAuthIdentitiesForUser userId
  let _ ← markUserDeleted userId deletedAt (some sessionId) ipAddress
  let _ ← revokeSessionsForUser userId deletedAt

/-- `AdminUserUsecase.delete_user`. -/
def adminDeleteUser (actor : AuthenticatedSessionContext) (userId : Uuid) (ipAddress userAgent : Option Text) :
    Service Γ Unit := do
  match ← getUser userId with
  | none => Prog.throw (.userNotFound userId)
  | some user =>
    let deletedAt ← utcnow
    transaction do
      wipeUser user.id deletedAt actor.session.id ipAddress
      createAuditLog true (adminAudit actor user.id .userDeletedByAdmin none ipAddress userAgent)

/-! ## Account deletion -/

/-- `_linked_provider_details`. -/
def linkedProviderDetails (userId : Uuid) : Service Γ (List (Text × Text)) := do
  let identities ← findIdentitiesByUserId userId
  return (fromKeys (identities.map AuthIdentity.providerId)).filterMap fun providerId =>
    ((Γ.oidc.providers.reverse.find? fun p => p.providerId = providerId).map fun p => (p.providerId, p.displayName))

/-- `_require_fresh_oidc_reauth`. -/
def requireFreshOidcReauth (context : AuthenticatedSessionContext) : Service Γ Unit :=
  match context.session.lastOidcAuthenticatedAt with
  | none => do Prog.throw (.accountDeletionOidcReauthRequired (← linkedProviderDetails context.user.id))
  | some authTime => do
    let now ← utcnow
    if seconds Γ.oidc.reauthFreshnessSeconds < now - authTime then
      Prog.throw (.accountDeletionOidcReauthRequired (← linkedProviderDetails context.user.id))
    else pure ()

/-- The password check of `delete_account`. -/
def requirePassword (context : AuthenticatedSessionContext) (normalizedEmail passwordHash : Text)
    (password ipAddress userAgent : Option Text) : Service Γ Unit := do
  let ip := rateLimitIp ipAddress
  require (← limiter (.isAccountDeletionReauthAllowed ip normalizedEmail))
    (.rateLimitExceeded Γ.auth.rateLimitWindowSeconds)
  match password.filter (· ≠ []) with
  | none => Prog.throw .accountDeletionReauthRequired
  | some password =>
    let passwordMatches : Bool ← call (.verifyPassword password passwordHash)
    if passwordMatches then pure ()
    else
      let _ ← limiter (.recordFailure ip normalizedEmail false)
      createAuditLog false
        { userId := some context.user.id
          sessionId := some context.session.id
          eventType := .accountDeletionReauthFailed
          ipAddress := ipAddress
          userAgent := userAgent }
      Prog.throw .accountDeletionInvalidPassword

/-- The user proves to be present: by the password, or by a recent login at a provider. -/
def requireReauth (context : AuthenticatedSessionContext) (normalizedEmail : Text) (password ipAddress userAgent : Option Text) :
    Service Γ Unit :=
  match context.user.passwordHash with
  | some passwordHash => requirePassword context normalizedEmail passwordHash password ipAddress userAgent
  | none => requireFreshOidcReauth context

/-- `delete_account`. -/
def deleteAccount (context : AuthenticatedSessionContext) (confirmEmail : Text) (password ipAddress userAgent : Option Text) :
    Service Γ Unit := do
  let normalizedEmail := Γ.normalizeEmail context.user.email
  require (normalizedEmail = Γ.normalizeEmail confirmEmail) .accountDeletionConfirmationMismatch
  requireReauth context normalizedEmail password ipAddress userAgent
  let deletedAt ← utcnow
  transaction (wipeUser context.user.id deletedAt context.session.id ipAddress)

/-! ## Items -/

/-- `create_item`. -/
def createItem (ownerUserId : Uuid) (title : Text) (description : Option Text) : Service Γ SampleItem := do
  let id ← newId
  let registeredAt ← utcnow
  let modifiedAt ← utcnow
  createItemRow false ⟨id, ownerUserId, title, description, false, registeredAt, modifiedAt⟩

/-! ## Commands -/

/-- The audit logs of roles granted by a command. -/
def auditGrantedByCommand (source : String) (result : UserRoleReplacementResult) : Service Γ Unit :=
  Prog.each (fun code => createAuditLog true
    { userId := none
      sessionId := none
      eventType := .roleGranted
      ipAddress := none
      userAgent := none
      detailJson := some (roleAuditDetail (some source) none result.userId result.currentRoleCodes code) })
    result.grantedRoleCodes

/-- The role is added to those of the user. -/
def grantRole (source : String) (userId : Uuid) (role : Text) : Service Γ Unit := do
  let existing ← getUserRoleCodes userId
  let result ← replaceUserRoleRows userId (sortTexts (existing ++ [role]).dedup) none
  auditGrantedByCommand source result

/-- `authz-grant-role`. -/
def authzGrantRole (email role : Text) : Service Γ Unit :=
  if role ∉ Γ.roleCatalog.map Prod.fst then Prog.throw (.exit 1)
  else
    transaction do
      match ← findUserByEmail (Γ.normalizeEmail email) with
      | none => Prog.throw (.exit 1)
      | some user => grantRole "cli" user.id role

/-- `authz-prune-unknown-role-assignments --yes`. -/
def authzPruneUnknownRoleAssignments : Service Γ Nat :=
  transaction do
    let known := Γ.roleCatalog.map Prod.fst
    let assignments ← listUnknownRoleAssignments known
    let deletedCount ← deleteUnknownRoleAssignments known
    Prog.each (fun assignment : Uuid × Text => createAuditLog true
      { userId := none
        sessionId := none
        eventType := .roleRevoked
        ipAddress := none
        userAgent := none
        detailJson := some (.role (some "cli-prune") none assignment.1 assignment.2 none) }) assignments
    return deletedCount

/-- `seed-admin`, in a local or development environment. -/
def seedAdmin : Service Γ Unit := do
  let email := "admin@example.com".toList
  let passwordHash ← call (.hashPassword "Password@123!".toList)
  transaction do
    let user ← (do
      match ← findUserByEmail email with
      | none => createUser true email (some passwordHash) true .ja
      | some user => updateUserRow user.id ⟨none, none, some true, none, [.password, .isActive]⟩ (some passwordHash))
    grantRole "cli-seed-admin" user.id "admin".toList

end AuthService
