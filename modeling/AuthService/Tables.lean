import AuthService.Entities
import AuthService.Library.ReadCommitted

/-!
# The tables and the statements on them

The store holds the seven tables. The queries and the statements with a condition are those of the repositories, and the
constraints are the primary keys, unique indexes and foreign keys of the schema. The world outside gives the time, random
values, password hashes, and the answers of the limiter and of the identity providers.
-/

namespace AuthService

/-- The tables. -/
structure Store where
  users : List User
  sessions : List AuthSession
  identities : List AuthIdentity
  roles : List UserRole
  items : List SampleItem
  states : List AuthOidcState
  audits : List AuthAuditLog
  deriving DecidableEq, Repr

/-- Tables without rows. -/
def Store.empty : Store := ⟨[], [], [], [], [], [], []⟩

/-- A row, an entry of a unique index, or an advisory lock. -/
inductive Key where
  | user (id : Uuid)
  | session (id : Uuid)
  | identity (id : Uuid)
  | role (id : Uuid)
  | item (id : Uuid)
  | state (id : Uuid)
  | audit (id : Uuid)
  | userEmail (email : Text)
  | sessionTokenHash (hash : Text)
  | providerSubject (providerId providerSubject : Text)
  | userRole (userId : Uuid) (roleCode : Text)
  | stateHash (hash : Text)
  | advisory (classId objectId : Nat)
  deriving DecidableEq, Repr

/-! ## Writes -/

/-- A change of one row. -/
inductive Write where
  | insertUser (row : User)
  | patchUser (id : Uuid) (patch : UserPatch)
  | insertSession (row : AuthSession)
  | patchSession (id : Uuid) (patch : SessionPatch)
  | deleteSession (id : Uuid)
  | insertIdentity (row : AuthIdentity)
  | patchIdentity (id : Uuid) (lastLoggedInAt : DateTime)
  | deleteIdentity (id : Uuid)
  | insertRole (row : UserRole)
  | deleteRole (id : Uuid)
  | insertItem (row : SampleItem)
  | deleteItem (id : Uuid)
  | insertState (row : AuthOidcState)
  | patchState (id : Uuid) (consumedAt : DateTime)
  | deleteState (id : Uuid)
  | insertAudit (row : AuthAuditLog)
  | patchAudit (id : Uuid) (detailJson : AuditDetail)
  | deleteAudit (id : Uuid)
  deriving DecidableEq, Repr

/-- A table with some of its rows changed. -/
def modifyAt {α : Type} (rows : List α) (p : α → Bool) (f : α → α) : List α := rows.map fun x => if p x then f x else x

/-- The tables after a write. A deleted session leaves its audit logs without a session (`ON DELETE SET NULL`). -/
def Write.apply (w : Write) (S : Store) : Store :=
  match w with
  | .insertUser row => { S with users := S.users ++ [row] }
  | .patchUser id patch => { S with users := modifyAt S.users (fun u => u.id = id) fun u => u.patch patch }
  | .insertSession row => { S with sessions := S.sessions ++ [row] }
  | .patchSession id patch => { S with sessions := modifyAt S.sessions (fun s => s.id = id) fun s => s.patch patch }
  | .deleteSession id =>
    { S with
      sessions := S.sessions.filter fun s => s.id ≠ id
      audits := modifyAt S.audits (fun l => l.sessionId = some id) fun l => { l with sessionId := none } }
  | .insertIdentity row => { S with identities := S.identities ++ [row] }
  | .patchIdentity id lastLoggedInAt =>
    { S with identities := modifyAt S.identities (fun x => x.id = id) fun x =>
        { x with lastLoggedInAt := some (toMillis lastLoggedInAt) } }
  | .deleteIdentity id => { S with identities := S.identities.filter fun x => x.id ≠ id }
  | .insertRole row => { S with roles := S.roles ++ [row] }
  | .deleteRole id => { S with roles := S.roles.filter fun r => r.id ≠ id }
  | .insertItem row => { S with items := S.items ++ [row] }
  | .deleteItem id => { S with items := S.items.filter fun x => x.id ≠ id }
  | .insertState row => { S with states := S.states ++ [row] }
  | .patchState id consumedAt =>
    { S with states := modifyAt S.states (fun s => s.id = id) fun s => { s with consumedAt := some (toMillis consumedAt) } }
  | .deleteState id => { S with states := S.states.filter fun s => s.id ≠ id }
  | .insertAudit row => { S with audits := S.audits ++ [row] }
  | .patchAudit id detailJson =>
    { S with audits := modifyAt S.audits (fun l => l.id = id) fun l => { l with detailJson := some detailJson } }
  | .deleteAudit id => { S with audits := S.audits.filter fun l => l.id ≠ id }

variable (Γ : Ctx)

/-- The row and the index entries that a write locks. -/
def Write.keys : Write → List Key
  | .insertUser row => [.user row.id, .userEmail (Γ.sqlLower row.email)]
  | .patchUser id patch => .user id :: (patch.email.map fun e => Key.userEmail (Γ.sqlLower e)).toList
  | .insertSession row => [.session row.id, .sessionTokenHash row.sessionTokenHash]
  | .patchSession id _ => [.session id]
  | .deleteSession id => [.session id]
  | .insertIdentity row => [.identity row.id, .providerSubject row.providerId row.providerSubject]
  | .patchIdentity id _ => [.identity id]
  | .deleteIdentity id => [.identity id]
  | .insertRole row => [.role row.id, .userRole row.userId row.roleCode]
  | .deleteRole id => [.role id]
  | .insertItem row => [.item row.id]
  | .deleteItem id => [.item id]
  | .insertState row => [.state row.id, .stateHash row.stateHash]
  | .patchState id _ => [.state id]
  | .deleteState id => [.state id]
  | .insertAudit row => [.audit row.id]
  | .patchAudit id _ => [.audit id]
  | .deleteAudit id => [.audit id]

/-- Another user that is not deleted has the email. -/
def emailTaken (S : Store) (id : Uuid) (email : Text) : Bool :=
  S.users.any fun u => u.id ≠ id && u.deletedAt.isNone && Γ.sqlLower u.email = Γ.sqlLower email

def hasUser (S : Store) (id : Uuid) : Bool := S.users.any fun u => u.id = id

def hasSession (S : Store) (id : Uuid) : Bool := S.sessions.any fun s => s.id = id

/-- The write breaks a primary key, a unique index or a foreign key. -/
def Write.violates (S : Store) : Write → Bool
  | .insertUser row => hasUser S row.id || row.deletedAt.isNone && emailTaken Γ S row.id row.email
  | .patchUser id patch =>
    S.users.any fun u => u.id = id && (u.patch patch).deletedAt.isNone && emailTaken Γ S id (u.patch patch).email
  | .insertSession row =>
    S.sessions.any (fun s => s.id = row.id || s.sessionTokenHash = row.sessionTokenHash) || !hasUser S row.userId
  | .insertIdentity row =>
    S.identities.any (fun x => x.id = row.id ||
      x.providerId = row.providerId && x.providerSubject = row.providerSubject) || !hasUser S row.userId
  | .insertRole row =>
    S.roles.any (fun r => r.id = row.id || r.userId = row.userId && r.roleCode = row.roleCode) ||
      !hasUser S row.userId || row.assignedByUserId.any fun u => !hasUser S u
  | .insertItem row => S.items.any (fun x => x.id = row.id) || !hasUser S row.ownerUserId
  | .insertState row => S.states.any fun s => s.id = row.id || s.stateHash = row.stateHash
  | .insertAudit row =>
    S.audits.any (fun l => l.id = row.id) || row.userId.any (fun u => !hasUser S u) ||
      row.sessionId.any fun s => !hasSession S s
  | _ => false

/-! ## Queries -/

/-- The `SELECT` statements. -/
inductive Query where
  | userByEmail (normalizedEmail : Text)
  | activeUserByEmail (normalizedEmail : Text)
  | userById (id : Uuid)
  | liveUserById (id : Uuid)
  | identityByProviderSubject (providerId providerSubject : Text)
  | identitiesByUserId (userId : Uuid)
  | activeSession (tokenHash : Text) (now : DateTime)
  | sessionByTokenHash (tokenHash : Text)
  | sessionById (id : Uuid)
  | roleCodes (userId : Uuid)
  | unknownRoles (known : List Text)
  | stateByHash (stateHash : Text)
  | recentReplay (sessionId : Uuid) (since : DateTime)
  deriving DecidableEq, Repr

/-- The rows of a query. -/
def Query.Answer : Query → Type
  | .userByEmail _ | .activeUserByEmail _ | .userById _ | .liveUserById _ => List User
  | .identityByProviderSubject _ _ | .identitiesByUserId _ => List AuthIdentity
  | .activeSession _ _ | .sessionByTokenHash _ | .sessionById _ => List AuthSession
  | .roleCodes _ => List Text
  | .unknownRoles _ => List (Uuid × Text)
  | .stateByHash _ => List AuthOidcState
  | .recentReplay _ _ => List AuthAuditLog

/-- Texts in order. -/
def sortTexts (xs : List Text) : List Text := xs.insertionSort (· ≤ ·)

theorem mem_sortTexts {xs : List Text} {c : Text} : c ∈ sortTexts xs ↔ c ∈ xs := (List.perm_insertionSort _ _).mem_iff

theorem nodup_sortTexts {xs : List Text} (h : xs.Nodup) : (sortTexts xs).Nodup := (List.perm_insertionSort _ _).nodup_iff.2 h

/-- A session row that `find_active_session_by_token_hash` accepts. -/
def AuthSession.isActive (s : AuthSession) (tokenHash : Text) (now : DateTime) : Bool :=
  s.sessionTokenHash = tokenHash && s.revokedAt.isNone && toMillis now < s.expiresAt

def Query.answer (S : Store) : (q : Query) → q.Answer
  | .userByEmail email => S.users.filter fun u => Γ.sqlLower u.email = email && u.deletedAt.isNone
  | .activeUserByEmail email =>
    S.users.filter fun u => Γ.sqlLower u.email = email && u.deletedAt.isNone && u.isActive
  | .userById id => S.users.filter fun u => u.id = id
  | .liveUserById id => S.users.filter fun u => u.id = id && u.deletedAt.isNone
  | .identityByProviderSubject providerId subject =>
    S.identities.filter fun x => x.providerId = providerId && x.providerSubject = subject
  | .identitiesByUserId userId =>
    (S.identities.filter fun x => x.userId = userId && S.users.any fun u => u.id = userId && u.deletedAt.isNone).insertionSort
      fun x y => x.linkedAt < y.linkedAt ∨ x.linkedAt = y.linkedAt ∧ x.id ≤ y.id
  | .activeSession tokenHash now => S.sessions.filter fun s => s.isActive tokenHash now
  | .sessionByTokenHash tokenHash => S.sessions.filter fun s => s.sessionTokenHash = tokenHash
  | .sessionById id => S.sessions.filter fun s => s.id = id
  | .roleCodes userId => sortTexts ((S.roles.filter fun r => r.userId = userId).map UserRole.roleCode)
  | .unknownRoles known =>
    ((S.roles.filter fun r => r.roleCode ∉ known).map fun r => (r.userId, r.roleCode)).insertionSort
      fun x y => x.2 < y.2 ∨ x.2 = y.2 ∧ x.1 ≤ y.1
  | .stateByHash stateHash => S.states.filter fun s => s.stateHash = stateHash
  | .recentReplay sessionId since =>
    ((S.audits.filter fun l => l.sessionId = some sessionId && l.eventType == .sessionRejected && toMillis since ≤ l.occurredAt &&
      (match l.detailJson with | some (.replay _) => true | _ => false)).insertionSort
      fun x y => y.occurredAt < x.occurredAt ∨ x.occurredAt = y.occurredAt ∧ y.id ≤ x.id).take 1

/-! ## Statements with a condition -/

/-- The `UPDATE` and `DELETE` statements, and the `SELECT ... FOR UPDATE`. -/
inductive Stmt where
  | patchUser (id : Uuid) (patch : UserPatch)
  | patchSession (id : Uuid) (patch : SessionPatch)
  | patchState (id : Uuid) (consumedAt : DateTime)
  | patchAudit (id : Uuid) (detailJson : AuditDetail)
  | updateIdentityLogin (id userId : Uuid) (loginAt : DateTime)
  | markUserDeleted (id : Uuid) (deletedAt : DateTime)
  | modifyUser (id : Uuid) (modifiedAt : DateTime)
  | revokeSessionsForUser (userId : Uuid) (revokedAt : DateTime)
  | deleteIdentitiesForUser (userId : Uuid)
  | deleteItemsForOwner (userId : Uuid)
  | deleteRolesForUser (userId : Uuid)
  | deleteRoleCodes (userId : Uuid) (codes : List Text)
  | deleteUnknownRoles (known : List Text)
  | deleteSessionsExpiredBefore (t : DateTime)
  | deleteAuditLogsOccurredBefore (t : DateTime)
  | deleteOidcStatesExpiredBefore (t : DateTime)
  | lockState (stateHash : Text)
  deriving DecidableEq, Repr

/-- The rows that meet the condition. -/
def Stmt.rows (s : Stmt) (S : Store) : List Key :=
  match s with
  | .patchUser id _ => (S.users.filter fun u => u.id = id).map fun u => .user u.id
  | .patchSession id _ => (S.sessions.filter fun s => s.id = id).map fun s => .session s.id
  | .patchState id _ => (S.states.filter fun s => s.id = id).map fun s => .state s.id
  | .patchAudit id _ => (S.audits.filter fun l => l.id = id).map fun l => .audit l.id
  | .updateIdentityLogin id userId _ =>
    (S.identities.filter fun x => x.id = id && x.userId = userId).map fun x => .identity x.id
  | .markUserDeleted id _ => (S.users.filter fun u => u.id = id && u.deletedAt.isNone).map fun u => .user u.id
  | .modifyUser id _ => (S.users.filter fun u => u.id = id).map fun u => .user u.id
  | .revokeSessionsForUser userId _ =>
    (S.sessions.filter fun s => s.userId = userId && s.revokedAt.isNone).map fun s => .session s.id
  | .deleteIdentitiesForUser userId => (S.identities.filter fun x => x.userId = userId).map fun x => .identity x.id
  | .deleteItemsForOwner userId => (S.items.filter fun x => x.ownerUserId = userId).map fun x => .item x.id
  | .deleteRolesForUser userId => (S.roles.filter fun r => r.userId = userId).map fun r => .role r.id
  | .deleteRoleCodes userId codes =>
    (S.roles.filter fun r => r.userId = userId && r.roleCode ∈ codes).map fun r => .role r.id
  | .deleteUnknownRoles known => (S.roles.filter fun r => r.roleCode ∉ known).map fun r => .role r.id
  | .deleteSessionsExpiredBefore t => (S.sessions.filter fun s => s.expiresAt < toMillis t).map fun s => .session s.id
  | .deleteAuditLogsOccurredBefore t => (S.audits.filter fun l => l.occurredAt < toMillis t).map fun l => .audit l.id
  | .deleteOidcStatesExpiredBefore t =>
    (S.states.filter fun s => s.expiresAt < toMillis t || s.consumedAt.any fun c => c < toMillis t).map fun s => .state s.id
  | .lockState stateHash => (S.states.filter fun s => s.stateHash = stateHash).map fun s => .state s.id

/-- What the statement does with a row. -/
def Stmt.change : Stmt → Key → Option Write
  | .patchUser _ patch, .user id => some (.patchUser id patch)
  | .patchSession _ patch, .session id => some (.patchSession id patch)
  | .patchState _ consumedAt, .state id => some (.patchState id consumedAt)
  | .patchAudit _ detailJson, .audit id => some (.patchAudit id detailJson)
  | .updateIdentityLogin _ _ loginAt, .identity id => some (.patchIdentity id loginAt)
  | .markUserDeleted _ deletedAt, .user id =>
    some (.patchUser id { deletedAt := some (some deletedAt), modifiedAt := some deletedAt })
  | .modifyUser _ modifiedAt, .user id => some (.patchUser id { modifiedAt := some modifiedAt })
  | .revokeSessionsForUser _ revokedAt, .session id => some (.patchSession id { revokedAt := some (some revokedAt) })
  | .deleteIdentitiesForUser _, .identity id => some (.deleteIdentity id)
  | .deleteItemsForOwner _, .item id => some (.deleteItem id)
  | .deleteRolesForUser _, .role id => some (.deleteRole id)
  | .deleteRoleCodes _ _, .role id => some (.deleteRole id)
  | .deleteUnknownRoles _, .role id => some (.deleteRole id)
  | .deleteSessionsExpiredBefore _, .session id => some (.deleteSession id)
  | .deleteAuditLogsOccurredBefore _, .audit id => some (.deleteAudit id)
  | .deleteOidcStatesExpiredBefore _, .state id => some (.deleteState id)
  | _, _ => none

/-! ## The world outside -/

/-- Calls to the clock, the random source, the password hasher, the limiter and the provider client. -/
inductive Ext where
  | utcnow
  | generateToken
  | newId
  | hashPassword (password : Text)
  | verifyPassword (password passwordHash : Text)
  | limiter (op : LimiterOp)
  | buildAuthorizationUrl (providerId state nonce pkceVerifier : Text) (reauth : Bool) (loginHint : Option Text)
  | exchangeCode (providerId code codeVerifier : Text)
  | decodeIdToken (providerId idToken : Text)
  deriving DecidableEq, Repr

def Ext.Reply : Ext → Type
  | .utcnow => DateTime
  | .generateToken => Text
  | .newId => Uuid
  | .hashPassword _ => Text
  | .verifyPassword _ _ => Bool
  | .limiter _ => Bool
  | .buildAuthorizationUrl .. => Text
  | .exchangeCode .. => Text
  | .decodeIdToken _ _ => IdTokenClaims

/-- The time, the threads that drew the tokens so far, and the numbers of the other draws and calls. -/
structure Env where
  now : DateTime
  tokens : List Nat
  ids : Nat
  salts : Nat
  limiterCalls : Nat
  providerCalls : Nat
  deriving DecidableEq, Repr

def Ext.reply (i : Nat) (x : Ext) (env : Env) : Except AuthError x.Reply × Env :=
  match x with
  | .utcnow => (.ok env.now, env)
  | .generateToken => (.ok (Γ.token env.tokens.length), { env with tokens := env.tokens ++ [i] })
  | .newId => (.ok env.ids, { env with ids := env.ids + 1 })
  | .hashPassword password => (.ok (Γ.hashPassword password env.salts), { env with salts := env.salts + 1 })
  | .verifyPassword password passwordHash => (.ok (Γ.verifyPassword password passwordHash), env)
  | .limiter op => (.ok (Γ.limiter env.limiterCalls op), { env with limiterCalls := env.limiterCalls + 1 })
  | .buildAuthorizationUrl .. =>
    (Γ.authorizationUrl env.providerCalls, { env with providerCalls := env.providerCalls + 1 })
  | .exchangeCode .. => (Γ.idToken env.providerCalls, { env with providerCalls := env.providerCalls + 1 })
  | .decodeIdToken _ _ => (Γ.claims env.providerCalls, { env with providerCalls := env.providerCalls + 1 })

/-- Time does not go back, and draws stay drawn. -/
structure Env.Later (env env' : Env) : Prop where
  now : env.now ≤ env'.now
  tokens : env.tokens <+: env'.tokens
  ids : env.ids ≤ env'.ids

theorem Env.Later.refl (env : Env) : env.Later env := ⟨le_refl _, List.prefix_refl _, le_refl _⟩

/-- Later than a later environment is later. -/
theorem Env.Later.trans {a b c : Env} (h : a.Later b) (h' : b.Later c) : a.Later c :=
  ⟨h.now.trans h'.now, h.tokens.trans h'.tokens, h.ids.trans h'.ids⟩

/-- A call outside moves the environment on, if at all. -/
theorem Ext.reply_later (i : Nat) (x : Ext) (env : Env) : env.Later (x.reply Γ i env).2 := by
  cases x with
  | generateToken => exact ⟨le_refl _, List.prefix_append _ _, le_refl _⟩
  | newId => exact ⟨le_refl _, List.prefix_refl _, Nat.le_succ _⟩
  | _ => exact ⟨le_refl _, List.prefix_refl _, le_refl _⟩

/-- The database of the service. -/
abbrev database : Database where
  Store := Store
  Write := Write
  Key := Key
  Query := Query
  Stmt := Stmt
  Ext := Ext
  Env := Env
  Err := AuthError
  Answer := Query.Answer
  Reply := Ext.Reply
  decKey := inferInstance
  apply := Write.apply
  keys := Write.keys Γ
  answer q S := q.answer Γ S
  rows := Stmt.rows
  change := Stmt.change
  violation w S := if w.violates Γ S then some .integrity else none
  reply i x env := x.reply Γ i env
  advance n env := { env with now := env.now + n }
  later := Env.Later
  later_refl := Env.Later.refl
  later_trans := Env.Later.trans
  reply_later := Ext.reply_later Γ
  advance_later n env := ⟨by simp, List.prefix_refl _, le_refl _⟩

variable {Γ} in
theorem violates_of_violation {w : Write} {S : Store} (h : (database Γ).violation w S = none) : w.violates Γ S = false := by
  simpa [database] using h

end AuthService
