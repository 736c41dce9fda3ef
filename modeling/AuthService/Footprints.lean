import AuthService.Operations

/-!
# Footprints

What kinds of actions each operation performs, on all its paths and whatever the database and the outside answer. The later
proofs about runs and interleavings go by kind and look into a program only where an order of actions matters.
-/

namespace AuthService

open ReadCommitted

/-- The kinds of actions. -/
inductive Kind where
  /-- queries but one, locks, calls to the outside but one, audit logs but one, removal and update of what a user owns -/
  | neutral
  /-- the lookup of an active session -/
  | lookup
  /-- `begin`, `commit` and `rollback` -/
  | bracket
  /-- the exchange of a code -/
  | exchange
  | userInsert
  /-- an update of `users` that leaves `password_hash`, `is_active` and `deleted_at` alone -/
  | userEdit
  /-- an update of `users` that changes `password_hash` or `is_active` -/
  | userCredential
  | userDelete
  /-- the audit log of `mark_user_deleted` -/
  | auditDeletion
  | sessionInsert (userId : Uuid)
  | sessionRevoke
  | sessionTouch
  | sessionCsrf
  | sessionOidc
  | sessionPrune
  /-- a new identity, role or item of a user -/
  | owned (userId : Uuid)
  | state
  /-- what no operation does -/
  | rogue
  deriving DecidableEq, Repr

def UserPatch.kind (p : UserPatch) : Kind :=
  if p.deletedAt ≠ none then .rogue else if p.passwordHash = none ∧ p.isActive = none then .userEdit else .userCredential

def SessionPatch.kind (p : SessionPatch) : Kind :=
  match p with
  | ⟨some _, none, none, none, none⟩ => .sessionCsrf
  | ⟨none, some _, some _, none, none⟩ => .sessionTouch
  | ⟨none, none, none, some (some _), none⟩ => .sessionRevoke
  | ⟨none, none, none, none, some _⟩ => .sessionOidc
  | _ => .rogue

/-- The updates of a session that the operations make. -/
theorem SessionPatch.kind_cases {p : SessionPatch} (h : p.kind ≠ .rogue) :
    (p.kind = .sessionCsrf ∧ ∃ hash, p = { csrfTokenHash := some hash }) ∨
    (p.kind = .sessionTouch ∧ ∃ seen expires, p = { lastSeenAt := some seen, expiresAt := some expires }) ∨
    (p.kind = .sessionRevoke ∧ ∃ t, p = { revokedAt := some (some t) }) ∨
    (p.kind = .sessionOidc ∧ ∃ t, p = { lastOidcAuthenticatedAt := some t }) := by
  revert h
  unfold SessionPatch.kind
  split <;> intro h
  · exact Or.inl ⟨rfl, _, rfl⟩
  · exact Or.inr (Or.inl ⟨rfl, _, _, rfl⟩)
  · exact Or.inr (Or.inr (Or.inl ⟨rfl, _, rfl⟩))
  · exact Or.inr (Or.inr (Or.inr ⟨rfl, _, rfl⟩))
  · exact absurd rfl h

/-- The kinds of the rows that are inserted. -/
def Write.kind : Write → Kind
  | .insertUser row => if row.deletedAt = none then .userInsert else .rogue
  | .insertSession row =>
    if row.revokedAt = none ∧ row.lastOidcAuthenticatedAt = none then .sessionInsert row.userId else .rogue
  | .insertIdentity row => .owned row.userId
  | .insertRole row => .owned row.userId
  | .insertItem row => .owned row.ownerUserId
  | .insertState row => if row.consumedAt = none then .state else .rogue
  | .insertAudit row => if row.eventType = .userMarkedDeleted then .auditDeletion else .neutral
  | _ => .rogue

def Stmt.kind : Stmt → Kind
  | .patchUser _ patch => patch.kind
  | .patchSession _ patch => patch.kind
  | .patchState _ _ | .lockState _ | .deleteOidcStatesExpiredBefore _ => .state
  | .patchAudit _ _ | .updateIdentityLogin _ _ _ | .deleteIdentitiesForUser _ | .deleteItemsForOwner _
  | .deleteRolesForUser _ | .deleteRoleCodes _ _ | .deleteUnknownRoles _ => .neutral
  | .modifyUser _ _ => .userEdit
  | .markUserDeleted _ _ => .userDelete
  | .revokeSessionsForUser _ _ => .sessionRevoke
  | .deleteSessionsExpiredBefore _ => .sessionPrune
  | .deleteAuditLogsOccurredBefore _ => .rogue

def Query.kind : Query → Kind
  | .activeSession _ _ => .lookup
  | _ => .neutral

def Ext.kind : Ext → Kind
  | .exchangeCode .. => .exchange
  | _ => .neutral

variable {Γ : Ctx}

def kind : Act (database Γ) → Kind
  | .query q => Query.kind q
  | .insert w => Write.kind w
  | .start s => Stmt.kind s
  | .finish s _ => Stmt.kind s
  | .tryLock _ => .neutral
  | .begin => .bracket
  | .commit => .bracket
  | .rollback => .bracket
  | .ext x => Ext.kind x

theorem isBracket_of_kind {a : Act (database Γ)} (h : kind a ≠ .bracket) : a.isBracket = false := by
  cases a <;> first | rfl | exact absurd rfl h

/-- The actions of the program are neutral or of the given kinds. -/
def Within (ks : Set Kind) {α : Type} (p : Service Γ α) : Prop := p.Emits fun a => kind a = .neutral ∨ kind a ∈ ks

variable {α β : Type} {ks ks' : Set Kind}

/-- More kinds may be allowed. -/
theorem Within.mono {p : Service Γ α} (h : Within ks p) (hks : ks ⊆ ks') : Within ks' p :=
  Prog.Emits.mono h fun _ ha => ha.imp_right fun hk => hks hk

theorem Within.bind {p : Service Γ α} {f : α → Service Γ β} (h : Within ks p) (hf : ∀ a, Within ks (f a)) :
    Within ks (p >>= f) := Prog.Emits.bind h hf

theorem Within.attempt {p : Service Γ α} (h : Within ks p) : Within ks p.attempt := Prog.Emits.attempt h

@[simp] theorem within_done (r : Except AuthError α) : Within ks (.done r : Service Γ α) := trivial

@[simp] theorem within_pure (a : α) : Within ks (pure a : Service Γ α) := trivial

@[simp] theorem within_throw (e : AuthError) : Within ks (Prog.throw e : Service Γ α) := trivial

/-- The actions are of the given kinds, and a result meets a predicate. -/
def WithinTo (ks : Set Kind) (Q : α → Prop) (p : Service Γ α) : Prop :=
  p.Always (fun _ _ => True) (fun a => kind a = .neutral ∨ kind a ∈ ks) fun r => ∀ a, r = .ok a → Q a

/-- A program followed by one whose result is known. -/
theorem Within.bindTo {p : Service Γ α} {f : α → Service Γ β} {Q : β → Prop} (h : Within ks p)
    (hf : ∀ a, WithinTo ks Q (f a)) : WithinTo ks Q (p >>= f) :=
  Prog.Always.bind h (fun a _ => hf a) fun _ _ => nofun

/-- What follows may use what is known of the result. -/
theorem WithinTo.bind {p : Service Γ α} {f : α → Service Γ β} {Q : α → Prop} (h : WithinTo ks Q p)
    (hf : ∀ a, Q a → Within ks (f a)) : Within ks (p >>= f) :=
  Prog.Always.bind h (fun a ha => hf a (ha a rfl)) fun _ _ => trivial

/-- What is known of one result serves to know the next. -/
theorem WithinTo.bindTo {p : Service Γ α} {f : α → Service Γ β} {Q : α → Prop} {S : β → Prop} (h : WithinTo ks Q p)
    (hf : ∀ a, Q a → WithinTo ks S (f a)) : WithinTo ks S (p >>= f) :=
  Prog.Always.bind h (fun a ha => hf a (ha a rfl)) fun _ _ => nofun

/-- The result that is returned meets the predicate. -/
theorem withinTo_pure {Q : α → Prop} {a : α} (h : Q a) : WithinTo ks Q (pure a : Service Γ α) := by
  intro b hb
  exact Except.ok.inj hb ▸ h

theorem withinTo_throw {Q : α → Prop} (e : AuthError) : WithinTo ks Q (Prog.throw e : Service Γ α) := nofun

/-! ## Statements -/

/-- A query of neutral kind. -/
theorem within_query {q : Query} (h : q.kind = .neutral) : Within ks (query q : Service Γ _) :=
  Prog.emits_perform.2 (Or.inl h)

/-- An insert counts by its row. -/
theorem within_insert {w : Write} (h : w.kind = .neutral ∨ w.kind ∈ ks) : Within ks (insert w : Service Γ Unit) :=
  Prog.emits_perform.2 h

/-- A statement counts twice, when it starts and when it finishes, with one kind. -/
theorem within_modify {s : Stmt} (h : s.kind = .neutral ∨ s.kind ∈ ks) : Within ks (modify s : Service Γ (List Key)) :=
  Within.bind (Prog.emits_perform.2 h) fun _ => Prog.emits_perform.2 h

/-- A check does nothing. -/
@[simp] theorem within_require (c : Bool) (e : AuthError) : Within ks (require c e : Service Γ Unit) := by
  unfold require
  split <;> trivial

/-- A branch that may be skipped does what its body does. -/
theorem within_whenever {c : Bool} {body : Service Γ Unit} (h : Within ks body) : Within ks (whenever c body) := by
  unfold whenever
  split
  · exact h
  · trivial

@[simp] theorem within_oneOrNone (xs : List α) : Within ks (oneOrNone xs : Service Γ (Option α)) := by
  rcases xs with _ | ⟨x, _ | ⟨y, ys⟩⟩ <;> trivial

@[simp] theorem within_refreshed (xs : List α) : Within ks (refreshed xs : Service Γ α) := by
  rcases xs with _ | ⟨x, _ | ⟨y, ys⟩⟩ <;> trivial

@[simp] theorem within_ofExcept (r : Except AuthError α) : Within ks (ofExcept r : Service Γ α) := by
  cases r <;> trivial

/-- The `UPDATE` of one row is of the kind of its statement. -/
theorem within_updateRow {s : Stmt} (h : s.kind = .neutral ∨ s.kind ∈ ks) : Within ks (updateRow s : Service Γ Unit) := by
  refine (within_modify h).bind fun rows => ?_
  split <;> trivial

@[simp] theorem within_tryLock (k : Key) : Within ks (tryLock k : Service Γ Bool) := Prog.emits_perform.2 (Or.inl rfl)

theorem within_call {x : Ext} (h : x.kind = .neutral) : Within ks (call x : Service Γ _) := Prog.emits_perform.2 (Or.inl h)

@[simp] theorem within_utcnow : Within ks (utcnow : Service Γ _) := within_call rfl

@[simp] theorem within_generateToken : Within ks (generateToken : Service Γ _) := within_call rfl

@[simp] theorem within_newId : Within ks (newId : Service Γ _) := within_call rfl

@[simp] theorem within_limiter (op : LimiterOp) : Within ks (limiter op : Service Γ _) := within_call rfl

section Bracket

variable (hb : .bracket ∈ ks)
include hb

theorem within_begin : Within ks (begin : Service Γ Unit) := Prog.emits_perform.2 (Or.inr hb)

theorem within_commit : Within ks (commit : Service Γ Unit) := Prog.emits_perform.2 (Or.inr hb)

theorem within_rollback : Within ks (rollback : Service Γ Unit) := Prog.emits_perform.2 (Or.inr hb)

/-- The end of a transaction is a commit or a rollback. -/
theorem within_conclude (r : Except AuthError α) : Within ks (conclude r : Service Γ α) := by
  cases r with
  | ok a => exact (within_commit hb).bind fun _ => trivial
  | error e => exact (within_rollback hb).bind fun _ => trivial

/-- A transaction does what its body does, between two brackets. -/
theorem within_transaction {body : Service Γ α} (h : Within ks body) : Within ks (transaction body) :=
  (within_begin hb).bind fun _ => h.attempt.bind fun r => within_conclude hb r

/-- A body that is concluded keeps what is known of its result. -/
theorem WithinTo.conclude {body : Service Γ α} {Q : α → Prop} (h : WithinTo ks Q body) :
    WithinTo ks Q (body.attempt >>= AuthService.conclude) := by
  refine Prog.Always.bind (Prog.Always.attempt h) (fun r hr => ?_) fun _ _ => nofun
  obtain ⟨r', hr', hQ⟩ := hr
  obtain rfl := Except.ok.inj hr'
  cases r with
  | ok a => exact (within_commit hb).bindTo fun _ => withinTo_pure (hQ a rfl)
  | error e => exact (within_rollback hb).bindTo fun _ => withinTo_throw e

end Bracket

/-- A method joins the transaction, or has brackets of its own. -/
abbrev Scoped (inTransaction : Bool) (ks : Set Kind) : Prop := inTransaction = true ∨ .bracket ∈ ks

/-- A scope inside a transaction adds nothing, one outside is a transaction of its own. -/
theorem within_sessionScope {inTransaction : Bool} {body : Service Γ α} (hb : Scoped inTransaction ks) (h : Within ks body) :
    Within ks (sessionScope inTransaction body) := by
  unfold sessionScope
  split
  · exact h
  · rename_i hno
    have hb := hb.resolve_left hno
    exact (within_begin hb).bind fun _ => h.attempt.bind fun r => (within_rollback hb).bind fun _ => within_ofExcept r

/-- Persisting is a flush inside a transaction and a commit outside. -/
theorem within_persist {inTransaction : Bool} (hb : Scoped inTransaction ks) :
    Within ks (persist inTransaction : Service Γ Unit) := by
  unfold persist
  split
  · trivial
  · rename_i hno
    exact within_commit (hb.resolve_left hno)

/-! ## Repositories -/

/-- `get_by_id` of users asks only when the row is not loaded. -/
@[simp] theorem within_getUserById (loaded : Option User) (id : Uuid) :
    Within ks (getUserById loaded id : Service Γ (Option User)) := by
  cases loaded with
  | some user => trivial
  | none => exact (within_query rfl).bind fun xs => within_oneOrNone xs

/-- The session is asked for only when it is not loaded. -/
@[simp] theorem within_getSessionById (loaded : Option AuthSession) (id : Uuid) :
    Within ks (getSessionById loaded id : Service Γ (Option AuthSession)) := by
  cases loaded with
  | some session => trivial
  | none => exact (within_query rfl).bind fun xs => within_oneOrNone xs

/-- `find_user_by_email` reads only. -/
@[simp] theorem within_findUserByEmail (email : Text) : Within ks (findUserByEmail email : Service Γ (Option User)) :=
  (within_query rfl).bind fun xs => within_oneOrNone xs

/-- The search for an account to link reads only. -/
@[simp] theorem within_findUserByVerifiedEmailForOidcLink (email : Text) :
    Within ks (findUserByVerifiedEmailForOidcLink email : Service Γ (Option User)) :=
  (within_query rfl).bind fun xs => within_oneOrNone xs

/-- The search for a colliding email reads only. -/
@[simp] theorem within_findUserByEmailForOidcCollision (email : Text) :
    Within ks (findUserByEmailForOidcCollision email : Service Γ (Option User)) :=
  (within_query rfl).bind fun xs => within_oneOrNone xs

/-- The user of a session is only read. -/
@[simp] theorem within_findUserByIdForAuthentication (id : Uuid) :
    Within ks (findUserByIdForAuthentication id : Service Γ (Option User)) :=
  (within_query rfl).bind fun xs => within_oneOrNone xs

/-- `get_user` reads only. -/
@[simp] theorem within_getUser (id : Uuid) : Within ks (getUser id : Service Γ (Option User)) :=
  (within_query rfl).bind fun xs => within_oneOrNone xs

/-- The search for an identity reads only. -/
@[simp] theorem within_findIdentityByProviderSubject (providerId subject : Text) :
    Within ks (findIdentityByProviderSubject providerId subject : Service Γ (Option AuthIdentity)) :=
  (within_query rfl).bind fun xs => within_oneOrNone xs

/-- The search for an active session is the one query that counts. -/
theorem within_findActiveSessionByTokenHash {hash : Text} (h : .lookup ∈ ks) :
    Within ks (findActiveSessionByTokenHash hash : Service Γ (Option AuthSession)) :=
  within_utcnow.bind fun _ => Within.bind (Prog.emits_perform.2 (Or.inr h)) fun xs => within_oneOrNone xs

/-- The search for any session of a token hash reads only. -/
@[simp] theorem within_findSessionByTokenHash (hash : Text) :
    Within ks (findSessionByTokenHash hash : Service Γ (Option AuthSession)) :=
  (within_query rfl).bind fun xs => within_oneOrNone xs

/-- `create_user` inserts a user. -/
theorem within_createUser {inTransaction : Bool} {email : Text} {passwordHash : Option Text} {isActive : Bool}
    {languageCode : LanguageCode} (hb : Scoped inTransaction ks) (h : .userInsert ∈ ks) :
    Within ks (createUser inTransaction email passwordHash isActive languageCode : Service Γ User) := by
  refine within_sessionScope hb (within_newId.bind fun id => within_utcnow.bind fun _ => within_utcnow.bind fun _ =>
    (within_insert (Or.inr h)).attempt.bind fun r => ?_)
  split
  · trivial
  · trivial
  · exact (within_persist hb).bind fun _ => (within_query rfl).bind fun xs => within_refreshed xs

/-- `record_login` edits the user without touching the credentials. -/
theorem within_recordUserLogin {loaded : Option User} {userId : Uuid} {loginAt : DateTime} (h : .userEdit ∈ ks) :
    Within ks (recordUserLogin loaded userId loginAt : Service Γ User) := by
  refine (within_getUserById loaded userId).bind fun user => ?_
  cases user with
  | none => trivial
  | some user =>
    exact (within_require _ _).bind fun _ => (within_updateRow (Or.inr h)).bind fun _ =>
      (within_query rfl).bind fun xs => within_refreshed xs

/-- A change of the language edits the user without touching the credentials. -/
theorem within_updateUserLanguage {userId : Uuid} {languageCode : LanguageCode} {modifiedAt : DateTime}
    (h : .userEdit ∈ ks) : Within ks (updateUserLanguage userId languageCode modifiedAt : Service Γ User) := by
  refine (within_getUserById none userId).bind fun user => ?_
  cases user with
  | none => trivial
  | some user =>
    exact (within_require _ _).bind fun _ => (within_updateRow (Or.inr h)).bind fun _ =>
      (within_query rfl).bind fun xs => within_refreshed xs

/-- `update_user` edits the user, the credentials among the rest. -/
theorem within_updateUserRow {userId : Uuid} {changes : AdminUserUpdateChanges} {passwordHash : Option Text}
    (h : .userEdit ∈ ks) (hc : .userCredential ∈ ks) :
    Within ks (updateUserRow userId changes passwordHash : Service Γ User) := by
  have hkind : ∀ patch : UserPatch, patch.deletedAt = none → patch.kind ∈ ks := by
    intro patch hp
    unfold UserPatch.kind
    rw [if_neg (not_not.2 hp)]
    split
    · exact h
    · exact hc
  refine (within_query rfl).bind fun xs => (within_oneOrNone xs).bind fun user => ?_
  cases user with
  | none => trivial
  | some user =>
    refine (within_require _ _).bind fun _ => (within_require _ _).bind fun _ => (within_require _ _).bind fun _ =>
      within_utcnow.bind fun modifiedAt => (within_updateRow (Or.inr (hkind _ rfl))).attempt.bind fun r => ?_
    split
    · trivial
    · trivial
    · exact (within_query rfl).bind fun xs => within_refreshed xs

/-- A new identity is owned by its user. -/
theorem within_createAuthIdentity {identity : AuthIdentity} (h : .owned identity.userId ∈ ks) :
    Within ks (createAuthIdentity identity : Service Γ AuthIdentity) :=
  (within_insert (Or.inr h)).bind fun _ => (within_query rfl).bind fun xs => within_refreshed xs

/-- Removing the identities of a user is neutral. -/
@[simp] theorem within_deleteAuthIdentitiesForUser (userId : Uuid) :
    Within ks (deleteAuthIdentitiesForUser userId : Service Γ Nat) :=
  (within_modify (Or.inl rfl)).bind fun _ => trivial

/-- `create_session` inserts a session of its user. -/
theorem within_createSession {userId : Uuid} {tokenHash csrfHash : Text} {issuedAt lastSeenAt expiresAt : DateTime}
    {ipAddress userAgent : Option Text} (h : .sessionInsert userId ∈ ks) :
    Within ks (createSession userId tokenHash csrfHash issuedAt lastSeenAt expiresAt ipAddress userAgent :
      Service Γ AuthSession) :=
  within_newId.bind fun _ => (within_insert (Or.inr h)).bind fun _ => (within_query rfl).bind fun xs => within_refreshed xs

/-- A new CSRF token is written to the session and nowhere else. -/
theorem within_updateSessionCsrfTokenHash {inTransaction : Bool} {loaded : Option AuthSession} {sessionId : Uuid}
    {csrfHash : Text} (hb : Scoped inTransaction ks) (h : .sessionCsrf ∈ ks) :
    Within ks (updateSessionCsrfTokenHash inTransaction loaded sessionId csrfHash : Service Γ AuthSession) := by
  refine within_sessionScope hb ((within_getSessionById loaded sessionId).bind fun session => ?_)
  cases session with
  | none => trivial
  | some session =>
    exact (within_updateRow (Or.inr h)).bind fun _ => (within_persist hb).bind fun _ =>
      (within_query rfl).bind fun xs => within_refreshed xs

/-- `revoke_session` marks the session as revoked. -/
theorem within_revokeSession {loaded : Option AuthSession} {sessionId : Uuid} (h : .sessionRevoke ∈ ks) :
    Within ks (revokeSession loaded sessionId : Service Γ Unit) := by
  refine (within_getSessionById loaded sessionId).bind fun session => ?_
  cases session with
  | none => trivial
  | some session => exact within_utcnow.bind fun _ => within_updateRow (Or.inr h)

/-- `touch_session` moves the times of the session. -/
theorem within_touchSession {loaded : Option AuthSession} {sessionId : Uuid} {lastSeenAt expiresAt : DateTime}
    (h : .sessionTouch ∈ ks) : Within ks (touchSession loaded sessionId lastSeenAt expiresAt : Service Γ AuthSession) := by
  refine (within_getSessionById loaded sessionId).bind fun session => ?_
  cases session with
  | none => trivial
  | some session => exact (within_updateRow (Or.inr h)).bind fun _ => trivial

/-- `record_oidc_login` edits the user and stamps the session. -/
theorem within_recordOidcLogin {loadedUser : Option User} {loadedSession : Option AuthSession}
    {userId identityId sessionId : Uuid} {loginAt : DateTime} {authTime : Option DateTime} (hu : .userEdit ∈ ks)
    (hs : .sessionOidc ∈ ks) :
    Within ks (recordOidcLogin loadedUser loadedSession userId identityId sessionId loginAt authTime : Service Γ Unit) := by
  refine (within_getUserById loadedUser userId).bind fun user => ?_
  cases user with
  | none => trivial
  | some user =>
    refine (within_require _ _).bind fun _ => (within_getSessionById loadedSession sessionId).bind fun session => ?_
    cases session with
    | none => trivial
    | some session =>
      refine (within_updateRow (Or.inr hu)).bind fun _ => (within_modify (Or.inl rfl)).bind fun _ => ?_
      cases authTime with
      | none => trivial
      | some t => exact within_updateRow (Or.inr hs)

/-- `record_oidc_reauth` stamps the session. -/
theorem within_recordOidcReauth {loaded : Option AuthSession} {sessionId : Uuid} {authTime : DateTime}
    (h : .sessionOidc ∈ ks) : Within ks (recordOidcReauth loaded sessionId authTime : Service Γ Unit) := by
  refine (within_getSessionById loaded sessionId).bind fun session => ?_
  cases session with
  | none => trivial
  | some session => exact within_updateRow (Or.inr h)

/-- All open sessions of a user are revoked by one statement. -/
theorem within_revokeSessionsForUser {userId : Uuid} {revokedAt : DateTime} (h : .sessionRevoke ∈ ks) :
    Within ks (revokeSessionsForUser userId revokedAt : Service Γ Nat) :=
  (within_modify (Or.inr h)).bind fun _ => trivial

/-- An audit log is neutral, unless it is the one of `mark_user_deleted`. -/
theorem within_insertAudit {entry : AuditEntry} (h : entry.eventType ≠ .userMarkedDeleted ∨ .auditDeletion ∈ ks) :
    Within ks (insertAudit entry : Service Γ Unit) := by
  refine within_newId.bind fun id => within_utcnow.bind fun now => within_insert ?_
  by_cases he : entry.eventType = .userMarkedDeleted
  · exact Or.inr (by simpa [Write.kind, AuthAuditLog.bind, he] using h.resolve_left (absurd he))
  · exact Or.inl (by simp [Write.kind, AuthAuditLog.bind, he])

/-- The audit logs that callers name are neutral. -/
theorem within_createAuditLog {inTransaction : Bool} {entry : AuditEntry} (hb : Scoped inTransaction ks)
    (h : entry.eventType ≠ .userMarkedDeleted) : Within ks (createAuditLog inTransaction entry : Service Γ Unit) :=
  within_sessionScope hb ((within_insertAudit (Or.inl h)).bind fun _ => within_persist hb)

/-- The summary of replays writes audit logs only. -/
theorem within_recordRejectedSessionReplay {inTransaction : Bool} {session : AuthSession} {ipAddress userAgent : Option Text}
    {replayedAt : DateTime} {windowSeconds : Int} (hb : Scoped inTransaction ks) :
    Within ks (recordRejectedSessionReplay inTransaction session ipAddress userAgent replayedAt windowSeconds :
      Service Γ Unit) := by
  refine within_sessionScope hb ((within_tryLock _).bind fun locked => ?_)
  split
  · refine (within_query rfl).bind fun xs => (within_oneOrNone xs).bind fun log => ?_
    cases log with
    | none => exact (within_insertAudit (Or.inl (by simp))).bind fun _ => within_persist hb
    | some log => exact (within_updateRow (Or.inl rfl)).bind fun _ => within_persist hb
  · trivial

/-- The user `markUserDeleted` answers with. -/
def markedUser (userId : Uuid) : Service Γ User := do
  match ← getUserById none userId with
  | none => Prog.throw (.userNotFound userId)
  | some user => pure user

/-- The user that was marked is only read. -/
theorem within_markedUser {userId : Uuid} : Within ks (markedUser userId : Service Γ User) := by
  refine (within_getUserById none userId).bind fun user => ?_
  cases user <;> trivial

/-- `mark_user_deleted` deletes the user and writes its audit log. -/
theorem within_markUserDeleted {userId : Uuid} {deletedAt : DateTime} {sessionId : Option Uuid} {ipAddress : Option Text}
    (h : .userDelete ∈ ks) (ha : .auditDeletion ∈ ks) :
    Within ks (markUserDeleted userId deletedAt sessionId ipAddress : Service Γ User) := by
  have hget : Within ks (markedUser userId : Service Γ User) := within_markedUser
  refine (within_modify (Or.inr h)).bind fun rows => ?_
  split
  · exact hget
  · exact (within_insertAudit (Or.inr ha)).bind fun _ => hget

/-- A new authorization state is not consumed. -/
theorem within_createOidcAuthorizationState {state : AuthOidcState} (hs : state.consumedAt = none) (h : .state ∈ ks) :
    Within ks (createOidcAuthorizationState state : Service Γ AuthOidcState) := by
  refine (within_insert (Or.inr ?_)).bind fun _ => (within_query rfl).bind fun xs => within_refreshed xs
  simpa [Write.kind, AuthOidcState.bind, hs] using h

/-- Consuming a state writes to states only. -/
theorem within_consumeOidcAuthorizationState {stateHash bindingHash : Text} {consumedAt : DateTime} (h : .state ∈ ks) :
    Within ks (consumeOidcAuthorizationState stateHash bindingHash consumedAt : Service Γ ConsumeResult) := by
  refine (within_modify (Or.inr h)).bind fun locked => ?_
  split
  · trivial
  · refine (within_query rfl).bind fun xs => (within_oneOrNone xs).bind fun state => ?_
    cases state with
    | none => trivial
    | some state =>
      dsimp only
      split
      · trivial
      split
      · trivial
      split
      · trivial
      exact (within_updateRow (Or.inr h)).bind fun _ => (within_query rfl).bind fun xs =>
        (within_refreshed xs).bind fun _ => trivial

/-- A new role is owned by its user. -/
theorem within_insertRole {userId : Uuid} {assignedAt : DateTime} {assignedBy : Option Uuid} {code : Text}
    (h : .owned userId ∈ ks) : Within ks (insertRole userId assignedAt assignedBy code : Service Γ Unit) :=
  within_newId.bind fun _ => within_insert (Or.inr h)

/-- Replacing roles inserts roles of the user and edits the user. -/
theorem within_replaceUserRoleRows {userId : Uuid} {codes : List Text} {assignedBy : Option Uuid} (h : .owned userId ∈ ks)
    (hu : .userEdit ∈ ks) : Within ks (replaceUserRoleRows userId codes assignedBy : Service Γ UserRoleReplacementResult) := by
  refine (within_query rfl).bind fun existing => within_utcnow.bind fun changedAt => ?_
  refine (within_whenever ((within_modify (Or.inl rfl)).bind fun _ => within_pure ())).bind fun _ => ?_
  refine Within.bind (Prog.Emits.each (fun _ => within_insertRole h) _) fun _ => ?_
  exact (within_whenever ((within_modify (Or.inr hu)).bind fun _ => within_pure ())).bind fun _ => trivial

/-- Removing the roles of a user is neutral. -/
@[simp] theorem within_deleteRolesForUser (userId : Uuid) : Within ks (deleteRolesForUser userId : Service Γ Nat) :=
  (within_modify (Or.inl rfl)).bind fun _ => trivial

/-- Removing the items of a user is neutral. -/
@[simp] theorem within_deleteAllForOwner (userId : Uuid) : Within ks (deleteAllForOwner userId : Service Γ Unit) :=
  (within_modify (Or.inl rfl)).bind fun _ => trivial

/-- Pruning unknown roles is neutral. -/
@[simp] theorem within_deleteUnknownRoleAssignments (known : List Text) :
    Within ks (deleteUnknownRoleAssignments known : Service Γ Nat) :=
  (within_require _ _).bind fun _ => (within_modify (Or.inl rfl)).bind fun _ => trivial

/-- A new item is owned by its owner. -/
theorem within_createItemRow {inTransaction : Bool} {item : SampleItem} (hb : Scoped inTransaction ks)
    (h : .owned item.ownerUserId ∈ ks) : Within ks (createItemRow inTransaction item : Service Γ SampleItem) :=
  within_sessionScope hb ((within_insert (Or.inr h)).bind fun _ => (within_persist hb).bind fun _ => trivial)

/-! ## Sessions -/

/-- The roles and permissions of a user are only read. -/
@[simp] theorem within_authorizationForExistingUser (userId : Uuid) :
    Within ks (authorizationForExistingUser userId : Service Γ (List Text × List Text)) :=
  (within_query rfl).bind fun _ => within_pure _

/-- Rotation looks for the presented session and revokes it. -/
theorem within_rotateSession {token : Option Text} (hl : .lookup ∈ ks) (h : .sessionRevoke ∈ ks) :
    Within ks (rotateSession token : Service Γ Unit) := by
  unfold rotateSession
  split
  · trivial
  · refine (within_findActiveSessionByTokenHash hl).bind fun session => ?_
    cases session with
    | none => trivial
    | some session => exact within_revokeSession h

/-- `replace_auth_session` revokes the presented session and inserts one of the user. -/
theorem within_replaceAuthSession {user : User} {token ipAddress userAgent : Option Text} (hl : .lookup ∈ ks)
    (h : .sessionRevoke ∈ ks) (hi : .sessionInsert user.id ∈ ks) :
    Within ks (replaceAuthSession user token ipAddress userAgent : Service Γ (AuthSession × Text × Text)) :=
  (within_rotateSession hl h).bind fun _ => within_generateToken.bind fun _ => within_generateToken.bind fun _ =>
    within_utcnow.bind fun _ => (within_createSession hi).bind fun _ => within_pure _

/-- A rejected session is revoked. -/
theorem within_rejectSession {session : AuthSession} {eventType : AuthEventType} {userId : Option Uuid}
    {ipAddress userAgent : Option Text} (he : eventType ≠ .userMarkedDeleted) (h : .sessionRevoke ∈ ks) :
    Within ks (rejectSession session eventType userId ipAddress userAgent : Service Γ Unit) :=
  (within_revokeSession h).bind fun _ => within_createAuditLog (Or.inl rfl) he

/-- A rejected user's sessions are revoked. -/
theorem within_rejectUserSessions {session : AuthSession} {eventType : AuthEventType} {userId : Uuid}
    {ipAddress userAgent : Option Text} (he : eventType ≠ .userMarkedDeleted) (h : .sessionRevoke ∈ ks) :
    Within ks (rejectUserSessions session eventType userId ipAddress userAgent : Service Γ Unit) :=
  within_utcnow.bind fun _ => (within_revokeSessionsForUser h).bind fun _ => within_createAuditLog (Or.inl rfl) he

/-- A session is touched when it is due. -/
theorem within_refreshSession {session : AuthSession} (h : .sessionTouch ∈ ks) :
    Within ks (refreshSession session : Service Γ AuthSession) := by
  refine within_utcnow.bind fun now => ?_
  dsimp only
  split
  · exact within_touchSession h
  · trivial

/-- The audit of a rejected token reads and logs only. -/
theorem within_auditKnownRejectedSession {inTransaction : Bool} {tokenHash : Text} {ipAddress userAgent : Option Text}
    (hb : Scoped inTransaction ks) :
    Within ks (auditKnownRejectedSession inTransaction tokenHash ipAddress userAgent : Service Γ Unit) := by
  refine (within_findSessionByTokenHash _).bind fun session => ?_
  cases session with
  | none => trivial
  | some session => exact within_utcnow.bind fun _ => within_recordRejectedSessionReplay hb

section Sessions

variable (hb : .bracket ∈ ks) (hl : .lookup ∈ ks)
include hb

include hl in
/-- The transaction of a registration. -/
theorem within_registerTransaction {email password : Text} {languageCode : LanguageCode}
    {token ipAddress userAgent : Option Text} (hu : .userInsert ∈ ks) (he : .userEdit ∈ ks) (hr : .sessionRevoke ∈ ks)
    (hi : ∀ u, .sessionInsert u ∈ ks) :
    Within ks (registerTransaction email password languageCode token ipAddress userAgent :
      Service Γ (User × AuthSession × Text × Text)) :=
  within_transaction hb ((within_call rfl).bind fun _ => (within_createUser (Or.inl rfl) hu).bind fun _ =>
    within_utcnow.bind fun _ => (within_recordUserLogin he).bind fun _ => (within_replaceAuthSession hl hr (hi _)).bind fun _ =>
      (within_createAuditLog (Or.inl rfl) (by simp)).bind fun _ => within_pure _)

/-- A failed registration tells the limiter and logs. -/
theorem within_registerFailed {userId : Option Uuid} {ip email : Text} {ipAddress userAgent : Option Text} :
    Within ks (registerFailed userId ip email ipAddress userAgent : Service Γ Unit) :=
  (within_limiter _).bind fun _ => within_createAuditLog (Or.inr hb) (by simp)

include hl in
/-- `register` inserts a user, edits it, and issues a session in place of the presented one. -/
theorem within_register {email password : Text} {languageCode : LanguageCode} {token ipAddress userAgent : Option Text}
    (hu : .userInsert ∈ ks) (he : .userEdit ∈ ks) (hr : .sessionRevoke ∈ ks) (hi : ∀ u, .sessionInsert u ∈ ks) :
    Within ks (register email password languageCode token ipAddress userAgent : Service Γ IssuedAuthSession) := by
  refine (within_limiter _).bind fun _ => (within_require _ _).bind fun _ => (within_limiter _).bind fun _ =>
    (within_require _ _).bind fun _ => ?_
  split
  · exact (within_limiter _).bind fun _ => within_throw _
  · refine (within_findUserByEmail _).bind fun existingUser => ?_
    cases existingUser with
    | some existingUser => exact (within_registerFailed hb).bind fun _ => within_throw _
    | none =>
      refine (within_registerTransaction hb hl hu he hr hi).attempt.bind fun r => ?_
      split
      · exact (within_registerFailed hb).bind fun _ => within_throw _
      · trivial
      · exact (within_limiter _).bind fun _ => within_pure _

include hl in
/-- The transaction of a login. -/
theorem within_loginTransaction {userId : Uuid} {token ipAddress userAgent : Option Text} (he : .userEdit ∈ ks)
    (hr : .sessionRevoke ∈ ks) (hi : ∀ u, .sessionInsert u ∈ ks) :
    Within ks (loginTransaction userId token ipAddress userAgent : Service Γ (User × AuthSession × Text × Text)) :=
  within_transaction hb (within_utcnow.bind fun _ => (within_recordUserLogin he).bind fun _ =>
    (within_replaceAuthSession hl hr (hi _)).bind fun _ =>
      (within_createAuditLog (Or.inl rfl) (by simp)).bind fun _ => within_pure _)

include hl in
/-- `login` edits the user and issues a session in place of the presented one. -/
theorem within_login {email password : Text} {token ipAddress userAgent : Option Text} (he : .userEdit ∈ ks)
    (hr : .sessionRevoke ∈ ks) (hi : ∀ u, .sessionInsert u ∈ ks) :
    Within ks (login email password token ipAddress userAgent : Service Γ IssuedAuthSession) := by
  refine (within_limiter _).bind fun _ => (within_require _ _).bind fun _ => (within_findUserByEmail _).bind fun user =>
    (within_call rfl).bind fun passwordMatches => ?_
  split
  · exact (within_limiter _).bind fun _ => (within_createAuditLog (Or.inr hb) (by simp)).bind fun _ => within_throw _
  · exact (within_loginTransaction hb hl he hr hi).bind fun _ => (within_limiter _).bind fun _ =>
      (within_authorizationForExistingUser _).bind fun _ => within_pure _

omit hb in
/-- What is done with the session that was found: it is rejected or touched. -/
theorem within_contextOfFound {tokenHash : Text} {ipAddress userAgent : Option Text} {found : Option AuthSession}
    (hr : .sessionRevoke ∈ ks) (ht : .sessionTouch ∈ ks) :
    Within ks (contextOfFound tokenHash ipAddress userAgent found : Service Γ (Option AuthenticatedSessionContext)) := by
  cases found with
  | none => exact (within_auditKnownRejectedSession (Or.inl rfl)).bind fun _ => within_pure _
  | some session =>
    refine (within_findUserByIdForAuthentication _).bind fun user => ?_
    cases user with
    | none => exact (within_rejectSession (by simp) hr).bind fun _ => within_pure _
    | some user =>
      dsimp only
      split
      · exact (within_rejectUserSessions (by simp) hr).bind fun _ => within_pure _
      split
      · exact (within_rejectUserSessions (by simp) hr).bind fun _ => within_pure _
      exact (within_refreshSession ht).bind fun _ => (within_authorizationForExistingUser _).bind fun _ => within_pure _

include hl in
/-- The transaction of an authentication. -/
theorem within_authenticateTransaction {tokenHash : Text} {ipAddress userAgent : Option Text} (hr : .sessionRevoke ∈ ks)
    (ht : .sessionTouch ∈ ks) :
    Within ks (authenticateTransaction tokenHash ipAddress userAgent : Service Γ (Option AuthenticatedSessionContext)) :=
  within_transaction hb ((within_findActiveSessionByTokenHash hl).bind fun _ => within_contextOfFound hr ht)

include hl in
/-- `authenticate_session` looks a session up, and revokes or touches it. -/
theorem within_authenticateSession {token ipAddress userAgent : Option Text} (hr : .sessionRevoke ∈ ks)
    (ht : .sessionTouch ∈ ks) :
    Within ks (authenticateSession token ipAddress userAgent : Service Γ (Option AuthenticatedSessionContext)) := by
  unfold authenticateSession
  split
  · trivial
  · exact within_authenticateTransaction hb hl hr ht

include hl in
/-- `issue_csrf_token` writes a new token at most. -/
theorem within_issueCsrfToken {token : Option Text} (hc : .sessionCsrf ∈ ks) :
    Within ks (issueCsrfToken token : Service Γ Text) := by
  refine within_generateToken.bind fun csrfToken => ?_
  split
  · trivial
  · refine (within_findActiveSessionByTokenHash hl).bind fun session => ?_
    cases session with
    | none => trivial
    | some session => exact (within_updateSessionCsrfTokenHash (Or.inr hb) hc).bind fun _ => within_pure _

include hl in
/-- `validate_session_csrf` writes nothing that counts. -/
theorem within_validateSessionCsrf {token csrfToken : Text} {ipAddress userAgent : Option Text} :
    Within ks (validateSessionCsrf token csrfToken ipAddress userAgent : Service Γ SessionCsrfStatus) := by
  refine (within_findActiveSessionByTokenHash hl).bind fun session => ?_
  cases session with
  | none => exact (within_auditKnownRejectedSession (Or.inr hb)).bind fun _ => within_pure _
  | some session =>
    dsimp only
    split <;> trivial

include hl in
/-- `logout` revokes the session. -/
theorem within_logout {token ipAddress userAgent : Option Text} (hr : .sessionRevoke ∈ ks) :
    Within ks (logout token ipAddress userAgent : Service Γ Unit) := by
  unfold logout
  split
  · trivial
  · refine (within_findActiveSessionByTokenHash hl).bind fun session => ?_
    cases session with
    | none => trivial
    | some session =>
      exact within_transaction hb ((within_revokeSession hr).bind fun _ => within_createAuditLog (Or.inl rfl) (by simp))

/-- `update_current_user` edits the user. -/
theorem within_updateCurrentUser {context : AuthenticatedSessionContext} {languageCode : Option LanguageCode}
    (he : .userEdit ∈ ks) : Within ks (updateCurrentUser context languageCode : Service Γ AuthenticatedSessionContext) := by
  cases languageCode with
  | none => trivial
  | some code =>
    exact (within_transaction hb (within_utcnow.bind fun _ => within_updateUserLanguage he)).bind fun _ => within_pure _

end Sessions

/-! ## OpenID Connect -/

/-- The validation of a token writes nothing. -/
@[simp] theorem within_validateIdToken (provider : OidcProviderSettings) (idToken nonceHash : Text) (requireAuthTime : Bool) :
    Within ks (validateIdToken provider idToken nonceHash requireAuthTime : Service Γ OidcVerifiedClaims) :=
  (within_call rfl).bind fun _ => within_utcnow.bind fun _ => within_ofExcept _

/-- The identity that is linked is owned by the user. -/
theorem within_createIdentityForClaims {provider : OidcProviderSettings} {claims : OidcVerifiedClaims} {userId : Uuid}
    (h : .owned userId ∈ ks) : Within ks (createIdentityForClaims provider claims userId : Service Γ AuthIdentity) :=
  within_newId.bind fun _ => within_utcnow.bind fun _ => within_createAuthIdentity h

/-- The resolution of a login inserts a user or an identity at most, and asks for no audit log of a deletion. -/
theorem within_resolveLoginUserAndIdentity {provider : OidcProviderSettings} {claims : OidcVerifiedClaims}
    {languageCode : Option LanguageCode} (hu : .userInsert ∈ ks) (ho : ∀ u, .owned u ∈ ks) :
    WithinTo ks (fun x => AuthEventType.userMarkedDeleted ∉ x.2.2)
      (resolveLoginUserAndIdentity provider claims languageCode : Service Γ (User × AuthIdentity × List AuthEventType)) := by
  refine (within_findIdentityByProviderSubject _ _).bindTo fun identity => ?_
  cases identity with
  | some identity =>
    refine (within_findUserByIdForAuthentication _).bindTo fun user => ?_
    cases user with
    | none => exact withinTo_throw _
    | some user => exact (within_require _ _).bindTo fun _ => withinTo_pure (by simp)
  | none =>
    refine (within_ofExcept _).bindTo fun email => (within_findUserByVerifiedEmailForOidcLink _).bindTo fun linkedUser => ?_
    cases linkedUser with
    | some linkedUser =>
      exact (within_require _ _).bindTo fun _ => (within_require _ _).bindTo fun _ =>
        (within_createIdentityForClaims (ho _)).bindTo fun _ => withinTo_pure (by simp)
    | none =>
      refine (within_findUserByEmailForOidcCollision _).bindTo fun user => ?_
      cases user with
      | some user => exact withinTo_throw _
      | none =>
        refine (within_require _ _).bindTo fun _ => (within_createUser (Or.inl rfl) hu).attempt.bindTo fun r => ?_
        split
        · exact withinTo_throw _
        · exact withinTo_throw _
        · exact (within_createIdentityForClaims (ho _)).bindTo fun _ => withinTo_pure (by simp)

/-- The audit logs of an operation, each with an event that is not the deletion's. -/
theorem within_eachAudit {entry : β → AuditEntry} {xs : List β} (h : ∀ x ∈ xs, (entry x).eventType ≠ .userMarkedDeleted) :
    Within ks (Prog.each (fun x => createAuditLog true (entry x)) xs : Service Γ Unit) := by
  induction xs with
  | nil => trivial
  | cons x xs ih =>
    exact (within_createAuditLog (Or.inl rfl) (h x List.mem_cons_self)).bind fun _ =>
      ih fun y hy => h y (List.mem_cons_of_mem _ hy)

section Oidc

variable (hb : .bracket ∈ ks) (hl : .lookup ∈ ks)
include hb

include hl in
/-- The transaction of a login callback. -/
theorem within_loginCallbackTransaction {provider : OidcProviderSettings} {oidcState : AuthOidcState}
    {claims : OidcVerifiedClaims} {token ipAddress userAgent : Option Text} (hu : .userInsert ∈ ks) (he : .userEdit ∈ ks)
    (hr : .sessionRevoke ∈ ks) (hi : ∀ u, .sessionInsert u ∈ ks) (hs : .sessionOidc ∈ ks) (ho : ∀ u, .owned u ∈ ks) :
    Within ks (loginCallbackTransaction provider oidcState claims token ipAddress userAgent :
      Service Γ (User × AuthSession × Text × Text)) := by
  refine within_transaction hb ((within_resolveLoginUserAndIdentity hu ho).bind fun x hx => ?_)
  refine within_utcnow.bind fun _ => (within_recordUserLogin he).bind fun _ =>
    (within_replaceAuthSession hl hr (hi _)).bind fun _ => (within_recordOidcLogin he hs).bind fun _ =>
      (within_eachAudit fun e hmem heq => hx ?_).bind fun _ =>
        (within_createAuditLog (Or.inl rfl) (by simp [oidcAudit])).bind fun _ => within_pure _
  exact heq ▸ hmem

/-- The audit of a failed callback is neutral. -/
theorem within_auditCallbackFailure {provider : OidcProviderSettings} {oidcState : AuthOidcState} {error : AuthError}
    {session : Option AuthenticatedSessionContext} {ipAddress userAgent : Option Text} :
    Within ks (auditCallbackFailure provider oidcState error session ipAddress userAgent : Service Γ Unit) := by
  unfold auditCallbackFailure
  split
  · exact within_createAuditLog (Or.inr hb) (by simp)
  · exact within_createAuditLog (Or.inr hb) (by simp)

/-- A reauthentication stamps the session. -/
theorem within_completeReauthCallback {provider : OidcProviderSettings} {oidcState : AuthOidcState}
    {claims : OidcVerifiedClaims} {session : Option AuthenticatedSessionContext} {ipAddress userAgent : Option Text}
    (hs : .sessionOidc ∈ ks) :
    Within ks (completeReauthCallback provider oidcState claims session ipAddress userAgent :
      Service Γ OidcCallbackResult) := by
  cases session with
  | none => trivial
  | some context =>
    refine (within_require _ _).bind fun _ => (within_findIdentityByProviderSubject _ _).bind fun identity => ?_
    cases identity with
    | none => trivial
    | some identity =>
      refine (within_require _ _).bind fun _ => ?_
      split
      · trivial
      · exact within_utcnow.bind fun _ => (within_require _ _).bind fun _ => within_utcnow.bind fun _ =>
          (within_transaction hb ((within_recordOidcReauth hs).bind fun _ =>
            within_createAuditLog (Or.inl rfl) (by simp [oidcAudit]))).bind fun _ => within_pure _

/-- The first transaction of a callback writes to states only. -/
theorem within_consumeCallbackState {provider : OidcProviderSettings} {state : Text} {binding : Option Text}
    (h : .state ∈ ks) : Within ks (consumeCallbackState provider state binding : Service Γ AuthOidcState) := by
  cases binding with
  | none => trivial
  | some binding =>
    refine within_utcnow.bind fun _ =>
      (within_transaction hb (within_consumeOidcAuthorizationState h)).bind fun r => ?_
    cases r with
    | consumed oidcState => exact (within_require _ _).bind fun _ => within_pure _
    | _ => trivial

include hl in
/-- What a callback does once its state is consumed. -/
theorem within_finishCallback {provider : OidcProviderSettings} {oidcState : AuthOidcState} {code : Text}
    {session : Option AuthenticatedSessionContext} {token ipAddress userAgent : Option Text} (hx : .exchange ∈ ks)
    (hu : .userInsert ∈ ks) (he : .userEdit ∈ ks) (hr : .sessionRevoke ∈ ks) (hi : ∀ u, .sessionInsert u ∈ ks)
    (hs : .sessionOidc ∈ ks) (ho : ∀ u, .owned u ∈ ks) :
    Within ks (finishCallback provider oidcState code session token ipAddress userAgent :
      Service Γ OidcCallbackResult) := by
  refine Within.bind (Prog.emits_perform.2 (Or.inr hx)) fun idToken => (within_validateIdToken _ _ _ _).bind fun claims => ?_
  split
  · exact within_completeReauthCallback hb hs
  · exact (within_loginCallbackTransaction hb hl hu he hr hi hs ho).bind fun _ =>
      (within_authorizationForExistingUser _).bind fun _ => within_pure _

include hl in
/-- `complete_callback` consumes a state, exchanges a code, and logs in or reauthenticates. -/
theorem within_completeCallback {providerId state code : Text} {binding : Option Text}
    {session : Option AuthenticatedSessionContext} {token ipAddress userAgent : Option Text} (ht : .state ∈ ks)
    (hx : .exchange ∈ ks) (hu : .userInsert ∈ ks) (he : .userEdit ∈ ks) (hr : .sessionRevoke ∈ ks)
    (hi : ∀ u, .sessionInsert u ∈ ks) (hs : .sessionOidc ∈ ks) (ho : ∀ u, .owned u ∈ ks) :
    Within ks (completeCallback providerId state code binding session token ipAddress userAgent :
      Service Γ OidcCallbackResult) := by
  unfold completeCallback
  split
  · trivial
  · refine (within_consumeCallbackState hb ht).bind fun oidcState =>
      (within_finishCallback hb hl hx hu he hr hi hs ho).attempt.bind fun r => ?_
    cases r with
    | ok result => trivial
    | error e => exact (within_auditCallbackFailure hb).bind fun _ => within_throw _

/-- `complete_error_callback` consumes a state and logs. -/
theorem within_completeErrorCallback {providerId state : Text} {binding : Option Text} {error : AuthError}
    {session : Option AuthenticatedSessionContext} {ipAddress userAgent : Option Text} (ht : .state ∈ ks) :
    Within ks (completeErrorCallback providerId state binding error session ipAddress userAgent : Service Γ Unit) := by
  unfold completeErrorCallback
  split
  · trivial
  · exact (within_consumeCallbackState hb ht).bind fun _ => (within_auditCallbackFailure hb).bind fun _ => within_throw _

/-- The row of a new authorization. -/
theorem within_createState {provider : OidcProviderSettings} {state binding nonce pkceVerifier : Text}
    {redirectPath : Option Text} {purpose : OidcAuthorizationPurpose} {session : Option AuthenticatedSessionContext}
    {languageCode : Option LanguageCode} {now : DateTime} {ip : Text} (ht : .state ∈ ks) :
    Within ks (createState provider state binding nonce pkceVerifier redirectPath purpose session languageCode now ip :
      Service Γ Unit) := by
  refine within_transaction hb (within_newId.bind fun id => ?_)
  split
  · trivial
  · exact (within_createOidcAuthorizationState rfl ht).bind fun _ => (within_limiter _).bind fun _ => within_pure _

/-- `start_authorization` writes a state. -/
theorem within_startAuthorization {providerId : Text} {redirectPath : Option Text} {purpose : OidcAuthorizationPurpose}
    {session : Option AuthenticatedSessionContext} {ipAddress : Option Text} {languageCode : Option LanguageCode}
    (ht : .state ∈ ks) :
    Within ks (startAuthorization providerId redirectPath purpose session ipAddress languageCode :
      Service Γ OidcAuthorizationStartResult) := by
  unfold startAuthorization
  split
  · trivial
  · exact (within_require _ _).bind fun _ => (within_limiter _).bind fun _ => (within_require _ _).bind fun _ =>
      within_generateToken.bind fun _ => within_generateToken.bind fun _ => within_generateToken.bind fun _ =>
        within_generateToken.bind fun _ => within_utcnow.bind fun _ => (within_call rfl).bind fun _ =>
          (within_createState hb ht).bind fun _ => within_pure _

end Oidc

/-! ## Administration, account deletion, items and commands -/

/-- A replacement of roles with its audit logs. -/
theorem within_replaceRolesWithAudit {actor : AuthenticatedSessionContext} {userId : Uuid} {codes : List Text}
    {ipAddress userAgent : Option Text} (h : .owned userId ∈ ks) (hu : .userEdit ∈ ks) :
    Within ks (replaceRolesWithAudit actor userId codes ipAddress userAgent : Service Γ UserRoleReplacementResult) :=
  (within_replaceUserRoleRows h hu).bind fun _ => (within_eachAudit fun _ _ => by simp).bind fun _ =>
    (within_eachAudit fun _ _ => by simp).bind fun _ => within_pure _

/-- The detail of a user is read. -/
@[simp] theorem within_detailForUser (user : User) : Within ks (detailForUser user : Service Γ AdminUserDetail) :=
  (within_authorizationForExistingUser _).bind fun _ => within_pure _

/-- Hashing a password writes nothing. -/
@[simp] theorem within_hashValidPassword (password : Text) : Within ks (hashValidPassword password : Service Γ Text) := by
  unfold hashValidPassword
  split
  · trivial
  · exact within_call rfl

/-- `get_user` of an administrator reads only. -/
@[simp] theorem within_adminGetUser (userId : Uuid) : Within ks (adminGetUser userId : Service Γ AdminUserDetail) := by
  refine (within_getUser _).bind fun user => ?_
  cases user with
  | none => trivial
  | some user => exact within_detailForUser user

/-- The hash of a changed password writes nothing. -/
@[simp] theorem within_changedPasswordHash (changes : AdminUserUpdateChanges) :
    Within ks (changedPasswordHash changes : Service Γ (Option Text)) := by
  unfold changedPasswordHash
  split
  · split
    · trivial
    · exact (within_hashValidPassword _).bind fun _ => within_pure _
  · trivial

/-- The wipe of a user deletes the user, logs it and revokes the sessions. -/
theorem within_wipeUser {userId : Uuid} {deletedAt : DateTime} {sessionId : Uuid} {ipAddress : Option Text}
    (hd : .userDelete ∈ ks) (ha : .auditDeletion ∈ ks) (hr : .sessionRevoke ∈ ks) :
    Within ks (wipeUser userId deletedAt sessionId ipAddress : Service Γ Unit) :=
  (within_deleteAllForOwner _).bind fun _ => (within_deleteRolesForUser _).bind fun _ =>
    (within_deleteAuthIdentitiesForUser _).bind fun _ => (within_markUserDeleted hd ha).bind fun _ =>
      (within_revokeSessionsForUser hr).bind fun _ => within_pure _

/-- The linked providers are read. -/
@[simp] theorem within_linkedProviderDetails (userId : Uuid) :
    Within ks (linkedProviderDetails userId : Service Γ (List (Text × Text))) :=
  (within_query rfl).bind fun _ => within_pure _

/-- The check of a reauthentication reads the clock only. -/
@[simp] theorem within_requireFreshOidcReauth (context : AuthenticatedSessionContext) :
    Within ks (requireFreshOidcReauth context : Service Γ Unit) := by
  unfold requireFreshOidcReauth
  split
  · exact (within_linkedProviderDetails _).bind fun _ => within_throw _
  · refine within_utcnow.bind fun now => ?_
    split
    · exact (within_linkedProviderDetails _).bind fun _ => within_throw _
    · trivial

/-- A granted role is owned by its user. -/
theorem within_grantRole {source : String} {userId : Uuid} {role : Text} (h : .owned userId ∈ ks) (hu : .userEdit ∈ ks) :
    Within ks (grantRole source userId role : Service Γ Unit) :=
  (within_query rfl).bind fun _ => (within_replaceUserRoleRows h hu).bind fun _ => within_eachAudit fun _ _ => by simp

section Admin

variable (hb : .bracket ∈ ks)
include hb

/-- `replace_user_roles` inserts roles of the user and edits the user. -/
theorem within_replaceUserRoles {actor : AuthenticatedSessionContext} {userId : Uuid} {codes : List Text}
    {ipAddress userAgent : Option Text} (h : .owned userId ∈ ks) (hu : .userEdit ∈ ks) :
    Within ks (replaceUserRoles actor userId codes ipAddress userAgent : Service Γ UserRoleReplacementResult) := by
  refine (within_ofExcept _).bind fun roles => within_transaction hb
    ((within_findUserByIdForAuthentication _).bind fun user => ?_)
  cases user with
  | none => trivial
  | some user => exact (within_require _ _).bind fun _ => within_replaceRolesWithAudit h hu

/-- `create_user` of an administrator inserts a user with roles. -/
theorem within_adminCreateUser {actor : AuthenticatedSessionContext} {email password : Text} {isActive : Bool}
    {roles : List Text} {ipAddress userAgent : Option Text} (hi : .userInsert ∈ ks) (hu : .userEdit ∈ ks)
    (ho : ∀ u, .owned u ∈ ks) :
    Within ks (adminCreateUser actor email password isActive roles ipAddress userAgent : Service Γ AdminUserDetail) :=
  (within_ofExcept _).bind fun _ => (within_hashValidPassword _).bind fun _ => within_transaction hb
    ((within_createUser (Or.inl rfl) hi).bind fun _ => (within_createAuditLog (Or.inl rfl) (by simp [adminAudit])).bind fun _ =>
      (within_replaceRolesWithAudit (ho _) hu).bind fun _ => within_detailForUser _)

/-- The transaction of an update by an administrator. -/
theorem within_updateUserTransaction {actor : AuthenticatedSessionContext} {userId : Uuid} {changes : AdminUserUpdateChanges}
    {roles : Option (List Text)} {passwordHash : Option Text} {revokedAt : DateTime} {ipAddress userAgent : Option Text}
    (hu : .userEdit ∈ ks) (hc : .userCredential ∈ ks) (hr : .sessionRevoke ∈ ks) (ho : ∀ u, .owned u ∈ ks) :
    Within ks (updateUserTransaction actor userId changes roles passwordHash revokedAt ipAddress userAgent :
      Service Γ AdminUserDetail) := by
  refine within_transaction hb ((within_updateUserRow hu hc).bind fun user => Within.bind ?_ fun _ =>
    (within_whenever ((within_revokeSessionsForUser hr).bind fun _ => within_pure _)).bind fun _ =>
      (within_createAuditLog (Or.inl rfl) (by simp [adminAudit])).bind fun _ => within_detailForUser _)
  cases roles with
  | none => trivial
  | some roles => exact (within_replaceRolesWithAudit (ho _) hu).bind fun _ => within_pure _

/-- `update_user` edits the user with the credentials, replaces roles and revokes sessions. -/
theorem within_adminUpdateUser {actor : AuthenticatedSessionContext} {userId : Uuid} {changes : AdminUserUpdateChanges}
    {ipAddress userAgent : Option Text} (hu : .userEdit ∈ ks) (hc : .userCredential ∈ ks) (hr : .sessionRevoke ∈ ks) (ho : ∀ u, .owned u ∈ ks) :
    Within ks (adminUpdateUser actor userId changes ipAddress userAgent : Service Γ AdminUserDetail) := by
  unfold adminUpdateUser
  split
  · exact within_adminGetUser userId
  · exact (within_ofExcept _).bind fun _ => (within_changedPasswordHash _).bind fun _ => within_utcnow.bind fun _ =>
      within_updateUserTransaction hb hu hc hr ho

/-- `delete_user` deletes the user, logs it and revokes the sessions. -/
theorem within_adminDeleteUser {actor : AuthenticatedSessionContext} {userId : Uuid} {ipAddress userAgent : Option Text}
    (hd : .userDelete ∈ ks) (ha : .auditDeletion ∈ ks) (hr : .sessionRevoke ∈ ks) :
    Within ks (adminDeleteUser actor userId ipAddress userAgent : Service Γ Unit) := by
  refine (within_getUser _).bind fun user => ?_
  cases user with
  | none => trivial
  | some user =>
    exact within_utcnow.bind fun _ => within_transaction hb ((within_wipeUser hd ha hr).bind fun _ =>
      within_createAuditLog (Or.inl rfl) (by simp [adminAudit]))

/-- The check of a password tells the limiter and logs. -/
theorem within_requirePassword {context : AuthenticatedSessionContext} {email passwordHash : Text}
    {password ipAddress userAgent : Option Text} :
    Within ks (requirePassword context email passwordHash password ipAddress userAgent : Service Γ Unit) := by
  refine (within_limiter _).bind fun _ => (within_require _ _).bind fun _ => ?_
  split
  · trivial
  · refine (within_call rfl).bind fun (passwordMatches : Bool) => ?_
    cases passwordMatches with
    | true => trivial
    | false =>
      exact (within_limiter _).bind fun _ => (within_createAuditLog (Or.inr hb) (by simp)).bind fun _ => within_throw _

/-- The check before a deletion writes nothing that counts. -/
theorem within_requireReauth {context : AuthenticatedSessionContext} {email : Text}
    {password ipAddress userAgent : Option Text} :
    Within ks (requireReauth context email password ipAddress userAgent : Service Γ Unit) := by
  unfold requireReauth
  split
  · exact within_requirePassword hb
  · exact within_requireFreshOidcReauth context

/-- `delete_account` deletes the user, logs it and revokes the sessions. -/
theorem within_deleteAccount {context : AuthenticatedSessionContext} {confirmEmail : Text}
    {password ipAddress userAgent : Option Text} (hd : .userDelete ∈ ks) (ha : .auditDeletion ∈ ks) (hr : .sessionRevoke ∈ ks) :
    Within ks (deleteAccount context confirmEmail password ipAddress userAgent : Service Γ Unit) :=
  (within_require _ _).bind fun _ => (within_requireReauth hb).bind fun _ => within_utcnow.bind fun _ =>
    within_transaction hb (within_wipeUser hd ha hr)

/-- `create_item` inserts an item of the user. -/
theorem within_createItem {userId : Uuid} {title : Text} {description : Option Text} (h : .owned userId ∈ ks) :
    Within ks (createItem userId title description : Service Γ SampleItem) :=
  within_newId.bind fun _ => within_utcnow.bind fun _ => within_utcnow.bind fun _ => within_createItemRow (Or.inr hb) h

/-- A request for an item authenticates and then inserts an item of its user. -/
theorem within_createItemRequest {token ipAddress userAgent : Option Text} {title : Text} {description : Option Text}
    (hl : .lookup ∈ ks) (hr : .sessionRevoke ∈ ks) (ht : .sessionTouch ∈ ks) (ho : ∀ u, .owned u ∈ ks) :
    Within ks (createItemRequest token ipAddress userAgent title description : Service Γ Outcome) := by
  refine (within_authenticateSession hb hl hr ht).bind fun context => ?_
  cases context with
  | none => trivial
  | some context => exact (within_createItem hb (ho _)).bind fun _ => within_pure _

/-- The command `grant-role` inserts a role and edits the user. -/
theorem within_authzGrantRole {email role : Text} (hu : .userEdit ∈ ks) (ho : ∀ u, .owned u ∈ ks) :
    Within ks (authzGrantRole email role : Service Γ Unit) := by
  unfold authzGrantRole
  split
  · trivial
  · refine within_transaction hb ((within_findUserByEmail _).bind fun user => ?_)
    cases user with
    | none => trivial
    | some user => exact within_grantRole (ho _) hu

/-- The command that prunes unknown roles inserts nothing. -/
theorem within_authzPruneUnknownRoleAssignments :
    Within ks (authzPruneUnknownRoleAssignments : Service Γ Nat) :=
  within_transaction hb ((within_query rfl).bind fun _ => (within_deleteUnknownRoleAssignments _).bind fun _ =>
    (within_eachAudit fun _ _ => by simp).bind fun _ => within_pure _)

/-- `seed_admin` inserts or edits the administrator and grants the role. -/
theorem within_seedAdmin (hi : .userInsert ∈ ks) (hu : .userEdit ∈ ks) (hc : .userCredential ∈ ks) (ho : ∀ u, .owned u ∈ ks) :
    Within ks (seedAdmin : Service Γ Unit) := by
  refine (within_call rfl).bind fun passwordHash => within_transaction hb (Within.bind ?_ fun user => within_grantRole (ho _) hu)
  refine (within_findUserByEmail _).bind fun user => ?_
  cases user with
  | none => exact within_createUser (Or.inl rfl) hi
  | some user => exact within_updateUserRow hu hc

end Admin

/-! ## Operations -/

/-- What a login of either kind does to users and sessions. -/
def issuing : Set Kind :=
  { k | match k with
    | .bracket | .lookup | .userInsert | .userEdit | .sessionRevoke | .sessionInsert _ => True
    | _ => False }

/-- What a change of a user and of its roles does. -/
def editing : Set Kind :=
  { k | match k with
    | .bracket | .userInsert | .userEdit | .owned _ => True
    | _ => False }

/-- The kinds of the actions of an operation. -/
def Op.kinds : Op → Set Kind
  | .register .. | .login .. => issuing
  | .startAuthorization .. | .completeErrorCallback .. | .deleteOidcStatesExpiredBefore _ => {.bracket, .state}
  | .completeCallback .. => { k | k ∈ issuing ∨ k ∈ editing ∨ k = .sessionOidc ∨ k = .state ∨ k = .exchange }
  | .authenticateSession .. => {.bracket, .lookup, .sessionRevoke, .sessionTouch}
  | .issueCsrfToken _ => {.bracket, .lookup, .sessionCsrf}
  | .validateSessionCsrf .. => {.bracket, .lookup}
  | .authzPruneUnknownRoleAssignments => {.bracket}
  | .logout .. => {.bracket, .lookup, .sessionRevoke}
  | .updateCurrentUser .. => {.bracket, .userEdit}
  | .adminCreateUser .. | .replaceUserRoles .. | .authzGrantRole .. => editing
  | .seedAdmin => { k | k ∈ editing ∨ k = .userCredential }
  | .adminUpdateUser .. => { k | k ∈ editing ∨ k = .userCredential ∨ k = .sessionRevoke }
  | .adminDeleteUser .. | .deleteAccount .. => {.bracket, .userDelete, .auditDeletion, .sessionRevoke}
  | .createItem .. => { k | k ∈ editing ∨ k = .lookup ∨ k = .sessionRevoke ∨ k = .sessionTouch }
  | .deleteSessionsExpiredBefore _ => {.bracket, .sessionPrune}

/-- Every operation keeps to the kinds that are listed for it. -/
theorem within_program (op : Op) : Within op.kinds (program Γ op) := by
  cases op with
  | register => exact (within_register (by trivial) (by trivial) (by trivial) (by trivial) (by trivial) fun _ => by trivial).bind fun _ => within_pure _
  | login => exact (within_login (by trivial) (by trivial) (by trivial) (by trivial) fun _ => by trivial).bind fun _ => within_pure _
  | startAuthorization => exact (within_startAuthorization (by simp [Op.kinds]) (by simp [Op.kinds])).bind fun _ => within_pure _
  | completeCallback =>
    exact (within_completeCallback (Or.inl (by trivial)) (Or.inl (by trivial)) (Or.inr (Or.inr (Or.inr (Or.inl rfl))))
      (Or.inr (Or.inr (Or.inr (Or.inr rfl)))) (Or.inl (by trivial)) (Or.inl (by trivial)) (Or.inl (by trivial))
      (fun _ => Or.inl (by trivial)) (Or.inr (Or.inr (Or.inl rfl))) fun _ => Or.inr (Or.inl (by trivial))).bind
      fun _ => within_pure _
  | completeErrorCallback =>
    exact (within_completeErrorCallback (by simp [Op.kinds]) (by simp [Op.kinds])).bind fun _ => within_pure _
  | authenticateSession =>
    exact (within_authenticateSession (by simp [Op.kinds]) (by simp [Op.kinds]) (by simp [Op.kinds]) (by simp [Op.kinds])).bind fun _ => within_pure _
  | issueCsrfToken => exact (within_issueCsrfToken (by simp [Op.kinds]) (by simp [Op.kinds]) (by simp [Op.kinds])).bind fun _ => within_pure _
  | validateSessionCsrf => exact (within_validateSessionCsrf (by simp [Op.kinds]) (by simp [Op.kinds])).bind fun _ => within_pure _
  | logout => exact (within_logout (by simp [Op.kinds]) (by simp [Op.kinds]) (by simp [Op.kinds])).bind fun _ => within_pure _
  | updateCurrentUser => exact (within_updateCurrentUser (by simp [Op.kinds]) (by simp [Op.kinds])).bind fun _ => within_pure _
  | adminCreateUser => exact (within_adminCreateUser (by trivial) (by trivial) (by trivial) fun _ => by trivial).bind fun _ => within_pure _
  | adminUpdateUser =>
    exact (within_adminUpdateUser (Or.inl trivial) (Or.inl trivial) (Or.inr (Or.inl rfl)) (Or.inr (Or.inr rfl))
      fun _ => Or.inl trivial).bind fun _ =>
      within_pure _
  | adminDeleteUser =>
    exact (within_adminDeleteUser (by simp [Op.kinds]) (by simp [Op.kinds]) (by simp [Op.kinds]) (by simp [Op.kinds])).bind
      fun _ => within_pure _
  | replaceUserRoles => exact (within_replaceUserRoles (by trivial) (by trivial) (by trivial)).bind fun _ => within_pure _
  | deleteAccount =>
    exact (within_deleteAccount (by simp [Op.kinds]) (by simp [Op.kinds]) (by simp [Op.kinds]) (by simp [Op.kinds])).bind
      fun _ => within_pure _
  | createItem =>
    exact within_createItemRequest (Or.inl trivial) (Or.inr (Or.inl rfl)) (Or.inr (Or.inr (Or.inl rfl)))
      (Or.inr (Or.inr (Or.inr rfl))) fun _ => Or.inl trivial
  | authzGrantRole => exact (within_authzGrantRole (by trivial) (by trivial) fun _ => by trivial).bind fun _ => within_pure _
  | authzPruneUnknownRoleAssignments =>
    exact (within_authzPruneUnknownRoleAssignments (by simp [Op.kinds])).bind fun _ => within_pure _
  | seedAdmin =>
    exact (within_seedAdmin (Or.inl (by trivial)) (Or.inl (by trivial)) (Or.inl (by trivial)) (Or.inr rfl)
      fun _ => Or.inl (by trivial)).bind fun _ => within_pure _
  | deleteSessionsExpiredBefore =>
    exact (within_sessionScope (Or.inr (by simp [Op.kinds])) ((within_modify (Or.inr (by simp [Op.kinds, Stmt.kind]))).bind
      fun _ => (within_persist (Or.inr (by simp [Op.kinds]))).bind fun _ => within_pure _)).bind fun _ => within_pure _
  | deleteOidcStatesExpiredBefore =>
    exact (within_sessionScope (Or.inr (by simp [Op.kinds])) ((within_modify (Or.inr (by simp [Op.kinds, Stmt.kind]))).bind
      fun _ => (within_persist (Or.inr (by simp [Op.kinds]))).bind fun _ => within_pure _)).bind fun _ => within_pure _

end AuthService
