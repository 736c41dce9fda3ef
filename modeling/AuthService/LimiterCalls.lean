import AuthService.Operations

/-!
# Calls of the rate limiter

Which operations of the limiter a use case calls, on all its paths. The repositories call none.
-/

namespace AuthService

open ReadCommitted

variable {Γ : Ctx} {α β : Type}

/-- The operation of the limiter that an action calls. -/
def limiterOp : Act (database Γ) → Option LimiterOp
  | .ext x => match (x : Ext) with
    | .limiter op => some op
    | _ => none
  | _ => none

/-- The operations of the limiter that the program calls meet a predicate. -/
def Calls (P : LimiterOp → Prop) (p : Service Γ α) : Prop := p.Emits fun a => ∀ op ∈ limiterOp a, P op

/-- The program calls the operation on some path. -/
def MayCall (op : LimiterOp) (p : Service Γ α) : Prop := ¬Calls (fun op' => op' ≠ op) p

/-- A call that a program may make is one that it is allowed. -/
theorem MayCall.of_calls {op : LimiterOp} {p : Service Γ α} {P : LimiterOp → Prop} (h : MayCall op p) (hp : Calls P p) : P op := by
  by_contra hop
  exact h (Prog.Emits.mono hp fun _ ha op' hop' heq => hop (heq ▸ ha op' hop'))

namespace CallsAux

variable {P : LimiterOp → Prop}

/-- A program and what follows it. -/
theorem calls_bind {p : Service Γ α} {f : α → Service Γ β} (h : Calls P p) (hf : ∀ a, Calls P (f a)) : Calls P (p >>= f) :=
  Prog.Emits.bind h hf

/-! ## Statements -/

theorem calls_pure (a : α) : Calls P (pure a : Service Γ α) := trivial

theorem calls_throw (e : AuthError) : Calls P (Prog.throw e : Service Γ α) := trivial

/-- A call of the limiter that is allowed. -/
theorem calls_limiter {op : LimiterOp} (h : P op) : Calls P (limiter op : Service Γ Bool) :=
  Prog.emits_perform.2 fun _ hop => Option.some.inj hop ▸ h

theorem calls_query (q : Query) : Calls P (query q : Service Γ _) := Prog.emits_perform.2 nofun

/-- Another call to the outside is none of the limiter. -/
theorem calls_call {x : Ext} (h : limiterOp (Γ := Γ) (.ext x) = none) : Calls P (call x : Service Γ _) :=
  Prog.emits_perform.2 fun op hop => by rw [h] at hop; cases hop

theorem calls_utcnow : Calls P (utcnow : Service Γ _) := calls_call rfl

theorem calls_insert (w : Write) : Calls P (insert w : Service Γ Unit) := Prog.emits_perform.2 nofun

/-- A statement is no call of the limiter. -/
theorem calls_modify (s : Stmt) : Calls P (modify s : Service Γ (List Key)) :=
  calls_bind (Prog.emits_perform.2 nofun) fun _ => Prog.emits_perform.2 nofun

/-- A check calls nothing. -/
theorem calls_require (c : Bool) (e : AuthError) : Calls P (require c e : Service Γ Unit) := by
  unfold require
  split <;> trivial

theorem calls_oneOrNone (xs : List α) : Calls P (oneOrNone xs : Service Γ (Option α)) := by
  rcases xs with _ | ⟨x, _ | ⟨y, ys⟩⟩ <;> trivial

theorem calls_refreshed (xs : List α) : Calls P (refreshed xs : Service Γ α) := by
  rcases xs with _ | ⟨x, _ | ⟨y, ys⟩⟩ <;> trivial

/-- The `UPDATE` of one row calls nothing. -/
theorem calls_updateRow (s : Stmt) : Calls P (updateRow s : Service Γ Unit) := by
  refine calls_bind (calls_modify s) fun rows => ?_
  split <;> trivial

/-- One row is looked up. -/
theorem calls_find (q : Query) (f : q.Answer → List α) : Calls P (do oneOrNone (f (← query q)) : Service Γ (Option α)) :=
  calls_bind (calls_query q) fun _ => calls_oneOrNone _

/-- One row is read back. -/
theorem calls_readBack (q : Query) (f : q.Answer → List α) : Calls P (do refreshed (f (← query q)) : Service Γ α) :=
  calls_bind (calls_query q) fun _ => calls_refreshed _

/-- A transaction makes the calls of its body. -/
theorem calls_transaction {body : Service Γ α} (h : Calls P body) : Calls P (transaction body) := by
  refine calls_bind (Prog.emits_perform.2 nofun) fun _ => calls_bind (Prog.Emits.attempt h) fun r => ?_
  cases r with
  | ok a => exact calls_bind (Prog.emits_perform.2 nofun) fun _ => calls_pure a
  | error e => exact calls_bind (Prog.emits_perform.2 nofun) fun _ => calls_throw e

/-- A scope makes the calls of its body. -/
theorem calls_sessionScope {body : Service Γ α} (inTransaction : Bool) (h : Calls P body) :
    Calls P (sessionScope inTransaction body) := by
  unfold sessionScope
  split
  · exact h
  · refine calls_bind (Prog.emits_perform.2 nofun) fun _ => calls_bind (Prog.Emits.attempt h) fun r =>
      calls_bind (Prog.emits_perform.2 nofun) fun _ => ?_
    cases r <;> trivial

/-- Persisting calls nothing. -/
theorem calls_persist (inTransaction : Bool) : Calls P (persist inTransaction : Service Γ Unit) := by
  cases inTransaction with
  | true => trivial
  | false => exact Prog.emits_perform.2 nofun

/-! ## Repositories -/

/-- A user is read without the limiter. -/
theorem calls_getUserById (loaded : Option User) (id : Uuid) : Calls P (getUserById loaded id : Service Γ (Option User)) := by
  cases loaded with
  | some user => trivial
  | none => exact calls_find _ _

/-- A session is read without the limiter. -/
theorem calls_getSessionById (loaded : Option AuthSession) (id : Uuid) :
    Calls P (getSessionById loaded id : Service Γ (Option AuthSession)) := by
  cases loaded with
  | some session => trivial
  | none => exact calls_find _ _

/-- A user is created without the limiter. -/
theorem calls_createUser (inTransaction : Bool) (email : Text) (passwordHash : Option Text) (isActive : Bool)
    (languageCode : LanguageCode) :
    Calls P (createUser inTransaction email passwordHash isActive languageCode : Service Γ User) := by
  refine calls_sessionScope _ (calls_bind (calls_call rfl) fun id => calls_bind calls_utcnow fun _ =>
    calls_bind calls_utcnow fun _ => calls_bind (Prog.Emits.attempt (calls_insert _)) fun r => ?_)
  split
  · trivial
  · trivial
  · exact calls_bind (calls_persist _) fun _ => calls_readBack _ _

/-- A login is recorded without the limiter. -/
theorem calls_recordUserLogin (loaded : Option User) (userId : Uuid) (loginAt : DateTime) :
    Calls P (recordUserLogin loaded userId loginAt : Service Γ User) := by
  refine calls_bind (calls_getUserById loaded userId) fun user => ?_
  cases user with
  | none => trivial
  | some user =>
    exact calls_bind (calls_require _ _) fun _ => calls_bind (calls_updateRow _) fun _ => calls_readBack _ _

/-- An active session is looked up without the limiter. -/
theorem calls_findActiveSession (hash : Text) :
    Calls P (findActiveSessionByTokenHash hash : Service Γ (Option AuthSession)) :=
  calls_bind calls_utcnow fun _ => calls_find _ _

/-- A session is revoked without the limiter. -/
theorem calls_revokeSession (loaded : Option AuthSession) (id : Uuid) : Calls P (revokeSession loaded id : Service Γ Unit) := by
  refine calls_bind (calls_getSessionById loaded id) fun session => ?_
  cases session with
  | none => trivial
  | some session => exact calls_bind calls_utcnow fun _ => calls_updateRow _

/-- An audit log is inserted without the limiter. -/
theorem calls_insertAudit (entry : AuditEntry) : Calls P (insertAudit entry : Service Γ Unit) :=
  calls_bind (calls_call rfl) fun _ => calls_bind calls_utcnow fun _ => calls_insert _

/-- An audit log is written without the limiter. -/
theorem calls_createAuditLog (inTransaction : Bool) (entry : AuditEntry) :
    Calls P (createAuditLog inTransaction entry : Service Γ Unit) :=
  calls_sessionScope _ (calls_bind (calls_insertAudit entry) fun _ => calls_persist _)

/-! ## Sessions -/

/-- Rotation does not ask the limiter. -/
theorem calls_rotateSession (token : Option Text) : Calls P (rotateSession token : Service Γ Unit) := by
  unfold rotateSession
  split
  · trivial
  · refine calls_bind (calls_findActiveSession _) fun session => ?_
    cases session with
    | none => trivial
    | some session => exact calls_revokeSession _ _

/-- A session is replaced without the limiter. -/
theorem calls_replaceAuthSession (user : User) (token ipAddress userAgent : Option Text) :
    Calls P (replaceAuthSession user token ipAddress userAgent : Service Γ (AuthSession × Text × Text)) :=
  calls_bind (calls_rotateSession token) fun _ => calls_bind (calls_call rfl) fun _ => calls_bind (calls_call rfl) fun _ =>
    calls_bind calls_utcnow fun _ => calls_bind
      (calls_bind (calls_call rfl) fun _ => calls_bind (calls_insert _) fun _ => calls_readBack _ _) fun _ => calls_pure _

/-- The transaction of a registration does not ask the limiter. -/
theorem calls_registerTransaction (normalizedEmail password : Text) (languageCode : LanguageCode)
    (token ipAddress userAgent : Option Text) :
    Calls P (registerTransaction normalizedEmail password languageCode token ipAddress userAgent : Service Γ _) :=
  calls_transaction (calls_bind (calls_call rfl) fun _ => calls_bind (calls_createUser ..) fun _ =>
    calls_bind calls_utcnow fun _ => calls_bind (calls_recordUserLogin ..) fun _ =>
      calls_bind (calls_replaceAuthSession ..) fun _ => calls_bind (calls_createAuditLog ..) fun _ => calls_pure _)

/-- The transaction of a login does not ask the limiter. -/
theorem calls_loginTransaction (userId : Uuid) (token ipAddress userAgent : Option Text) :
    Calls P (loginTransaction userId token ipAddress userAgent : Service Γ (User × AuthSession × Text × Text)) :=
  calls_transaction (calls_bind calls_utcnow fun _ => calls_bind (calls_recordUserLogin ..) fun _ =>
    calls_bind (calls_replaceAuthSession ..) fun _ => calls_bind (calls_createAuditLog ..) fun _ => calls_pure _)

/-! ## Account deletion -/

/-- The wipe of a user does not ask the limiter. -/
theorem calls_wipeUser (userId : Uuid) (deletedAt : DateTime) (sessionId : Uuid) (ipAddress : Option Text) :
    Calls P (wipeUser userId deletedAt sessionId ipAddress : Service Γ Unit) := by
  refine calls_bind (calls_bind (calls_modify _) fun _ => calls_pure _) fun _ =>
    calls_bind (calls_bind (calls_modify _) fun _ => calls_pure _) fun _ =>
      calls_bind (calls_bind (calls_modify _) fun _ => calls_pure _) fun _ => calls_bind ?_ fun _ =>
        calls_bind (calls_bind (calls_modify _) fun _ => calls_pure _) fun _ => calls_pure _
  refine calls_bind (calls_modify _) fun rows => ?_
  split
  · refine calls_bind (calls_getUserById _ _) fun user => ?_
    cases user <;> trivial
  · refine calls_bind (calls_insertAudit _) fun _ => calls_bind (calls_getUserById _ _) fun user => ?_
    cases user <;> trivial

/-- The linked providers are read without the limiter. -/
theorem calls_linkedProviderDetails (userId : Uuid) :
    Calls P (linkedProviderDetails userId : Service Γ (List (Text × Text))) :=
  calls_bind (calls_query _) fun _ => calls_pure _

/-- The check of a reauthentication does not ask the limiter. -/
theorem calls_requireFreshOidcReauth (context : AuthenticatedSessionContext) :
    Calls P (requireFreshOidcReauth context : Service Γ Unit) := by
  unfold requireFreshOidcReauth
  split
  · exact calls_bind (calls_linkedProviderDetails _) fun _ => calls_throw _
  · refine calls_bind calls_utcnow fun now => ?_
    split
    · exact calls_bind (calls_linkedProviderDetails _) fun _ => calls_throw _
    · exact calls_pure _

end CallsAux

open CallsAux

variable {P : LimiterOp → Prop}

/-! ## Use cases -/

/-- What `register` calls. -/
theorem calls_register {email password : Text} {languageCode : LanguageCode} {token ipAddress userAgent : Option Text}
    (hallowed : P (.isAllowed (rateLimitIp ipAddress) (Γ.normalizeEmail email)))
    (hregistration : P (.isRegistrationAllowed (rateLimitIp ipAddress)))
    (hfailure : P (.recordFailure (rateLimitIp ipAddress) (Γ.normalizeEmail email) false))
    (hrecord : P (.recordRegistration (rateLimitIp ipAddress))) :
    Calls P (register email password languageCode token ipAddress userAgent : Service Γ IssuedAuthSession) := by
  have hfailed : ∀ userId, Calls P
      (registerFailed userId (rateLimitIp ipAddress) (Γ.normalizeEmail email) ipAddress userAgent : Service Γ Unit) :=
    fun _ => calls_bind (calls_limiter hfailure) fun _ => calls_createAuditLog _ _
  unfold register
  refine calls_bind (calls_limiter hallowed) fun _ => calls_bind (calls_require _ _) fun _ => ?_
  refine calls_bind (calls_limiter hregistration) fun _ => calls_bind (calls_require _ _) fun _ => ?_
  split
  · exact calls_bind (calls_limiter hfailure) fun _ => calls_throw _
  · refine calls_bind (calls_find _ _) fun user => ?_
    cases user with
    | some user => exact calls_bind (hfailed _) fun _ => calls_throw _
    | none =>
      refine calls_bind (Prog.Emits.attempt (calls_registerTransaction ..)) fun r => ?_
      split
      · exact calls_bind (hfailed _) fun _ => calls_throw _
      · exact calls_throw _
      · exact calls_bind (calls_limiter hrecord) fun _ => calls_pure _

/-- What `delete_account` calls. -/
theorem calls_deleteAccount {context : AuthenticatedSessionContext} {confirmEmail : Text}
    {password ipAddress userAgent : Option Text}
    (hallowed : P (.isAccountDeletionReauthAllowed (rateLimitIp ipAddress) (Γ.normalizeEmail context.user.email)))
    (hfailure : P (.recordFailure (rateLimitIp ipAddress) (Γ.normalizeEmail context.user.email) false)) :
    Calls P (deleteAccount context confirmEmail password ipAddress userAgent : Service Γ Unit) := by
  unfold deleteAccount
  refine calls_bind (calls_require _ _) fun _ => calls_bind ?_ fun _ =>
    calls_bind calls_utcnow fun _ => calls_transaction (calls_wipeUser ..)
  unfold requireReauth
  split
  · unfold requirePassword
    refine calls_bind (calls_limiter hallowed) fun _ => calls_bind (calls_require _ _) fun _ => ?_
    split
    · exact calls_throw _
    · refine calls_bind (calls_call rfl) fun (passwordMatches : Bool) => ?_
      cases passwordMatches with
      | true => exact calls_pure _
      | false =>
        exact calls_bind (calls_limiter hfailure) fun _ => calls_bind (calls_createAuditLog ..) fun _ => calls_throw _
  · exact calls_requireFreshOidcReauth _

end AuthService
