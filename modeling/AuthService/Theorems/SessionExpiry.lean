import AuthService.SerialRuns
import AuthService.Undisturbed

/-!
# Sessions that are in use do not end early

A session is issued, and its token is presented again and again. Each visit comes soon after the one before. The session is
touched only now and then, and its times are kept in whole milliseconds.
-/

namespace AuthService

open ReadCommitted RelyGuarantee Serial SerialAux SoloAux

/-- The stored expiry is the earlier of the absolute and the idle one. -/
def AuthSession.isTight (Γ : Ctx) (s : AuthSession) : Prop :=
  s.expiresAt = min (s.issuedAt + seconds Γ.auth.absoluteTtlSeconds) (s.lastSeenAt + seconds Γ.auth.idleTtlSeconds)

/-- The user is there, active and not deleted. -/
def ActiveUser (userId : Uuid) (S : Store) : Prop :=
  ∃ u, S.users.filter (fun x => x.id = userId) = [u] ∧ u.isActive = true ∧ u.deletedAt = none

/-- The row is the session with the token hash, it is not revoked, and its user is active. -/
structure Usable (tokenHash : Text) (s : AuthSession) (S : Store) : Prop where
  byHash : S.sessions.filter (fun r => r.sessionTokenHash = tokenHash) = [s]
  byId : S.sessions.filter (fun r => r.id = s.id) = [s]
  unrevoked : s.revokedAt = none
  user : ActiveUser s.userId S

/-- The rest of the service goes on. It leaves the session usable, and its times alone. -/
def Elsewhere (tokenHash : Text) (S S' : Store) : Prop :=
  ∀ s, Usable tokenHash s S → ∃ s', Usable tokenHash s' S' ∧ s'.issuedAt = s.issuedAt ∧ s'.lastSeenAt = s.lastSeenAt ∧
    s'.expiresAt = s.expiresAt

/-- A request with the token of a session. The clock is read once. -/
structure Visit where
  thread : Nat
  env : Env
  ipAddress : Option Text
  userAgent : Option Text

/-- The answer of `authenticate_session`, and the tables after it. -/
def authenticateAt (Γ : Ctx) (token : Text) (v : Visit) (S : Store) :
    Option (Except AuthError (Option AuthenticatedSessionContext) × Store) :=
  (Serial.run v.thread (authenticateSession (some token) v.ipAddress v.userAgent) (atRest Γ S v.env)).map fun p => (p.1, p.2.store)

/-- How much of the idle time a gap between two visits must leave: a millisecond, or the touch interval. -/
def AuthSettings.slack (A : AuthSettings) : Int := max 1000 (seconds A.effectiveTouchIntervalSeconds)

/-- A visit at `t'` comes soon after `t`, and before the absolute end of the session. -/
structure Timely (Γ : Ctx) (token : Text) (S : Store) (t t' : DateTime) : Prop where
  after : t ≤ t'
  gap : t' - t ≤ seconds Γ.auth.idleTtlSeconds - Γ.auth.slack
  absolute : ∀ s ∈ S.sessions, s.sessionTokenHash = Γ.hashToken token → t' < s.issuedAt + seconds Γ.auth.absoluteTtlSeconds

/-- The life of a session with timely visits: the time of the issue or of the last visit, and the tables since then. -/
inductive Life (Γ : Ctx) (token : Text) : DateTime → Store → Prop
  | issue {me : Nat} {user : User} {currentToken ipAddress userAgent : Option Text} {db db' : Db (database Γ)}
      {session : AuthSession} {csrfToken : Text} : (∀ k i, db.owner k = some i → i = me) →
      Serial.run me (replaceAuthSession user currentToken ipAddress userAgent) db = some (.ok (session, token, csrfToken), db') →
      ActiveUser user.id (db'.view me) →
      Life Γ token db.env.now (db'.view me)
  | elsewhere {t : DateTime} {S S' : Store} : Life Γ token t S → Elsewhere (Γ.hashToken token) S S' → Life Γ token t S'
  | visit {t : DateTime} {S S' : Store} {v : Visit} {r : Except AuthError (Option AuthenticatedSessionContext)} :
      Life Γ token t S → Timely Γ token S t v.env.now → authenticateAt Γ token v S = some (r, S') →
      Life Γ token v.env.now S'

namespace ExpiryAux

variable {Γ : Ctx}

/-! ## The stored times -/

/-- The stored expiry is that of the stored times. -/
theorem toMillis_expiry (issuedAt lastSeenAt : DateTime) :
    toMillis (calculateSessionExpiry Γ issuedAt lastSeenAt) =
      min (toMillis issuedAt + seconds Γ.auth.absoluteTtlSeconds) (toMillis lastSeenAt + seconds Γ.auth.idleTtlSeconds) := by
  rw [calculateSessionExpiry, toMillis_min, toMillis_add_seconds, toMillis_add_seconds]

/-! ## The row of a session -/

/-- A change that does not matter to a filter commutes with it. -/
theorem filter_modifyAt {α : Type} {rows : List α} {p q : α → Bool} {f : α → α} (h : ∀ x, p (f x) = p x) :
    (modifyAt rows q f).filter p = modifyAt (rows.filter p) q f := by
  induction rows with
  | nil => rfl
  | cons x rows ih =>
    have hhead : p (if q x then f x else x) = p x := by
      split
      · exact h x
      · rfl
    simp only [modifyAt, List.map_cons, List.filter_cons, hhead] at ih ⊢
    split
    · rw [List.map_cons, ih]
    · exact ih

/-- What a session is worth at a time: it is usable, its expiry is tight, and it was last seen not long before. -/
structure Fresh (Γ : Ctx) (tokenHash : Text) (t : DateTime) (s : AuthSession) (S : Store) : Prop where
  usable : Usable tokenHash s S
  tight : s.isTight Γ
  stored : toMillis s.issuedAt = s.issuedAt
  seen : t < s.lastSeenAt + Γ.auth.slack

/-- The tables after a touch. -/
def touched (Γ : Ctx) (s : AuthSession) (now : DateTime) (S : Store) : Store :=
  (Write.patchSession s.id
    { lastSeenAt := some now, expiresAt := some (calculateSessionExpiry Γ s.issuedAt now) }).apply S

/-- A touched session is found in its new form. -/
theorem filter_touched {p : AuthSession → Bool} {s : AuthSession} {S : Store} {patch : SessionPatch}
    (h : ∀ r, p (AuthSession.patch r patch) = p r) (hs : S.sessions.filter p = [s]) :
    ((Write.patchSession s.id patch).apply S).sessions.filter p = [s.patch patch] := by
  have hfilter : (modifyAt S.sessions (fun r => r.id = s.id) fun r => r.patch patch).filter p = _ := filter_modifyAt h
  rw [hs] at hfilter
  refine hfilter.trans ?_
  simp [modifyAt]

/-- A touched session stays usable. -/
theorem usable_touched {tokenHash : Text} {s : AuthSession} {S : Store} (h : Usable tokenHash s S) (now : DateTime) :
    Usable tokenHash (s.patch { lastSeenAt := some now, expiresAt := some (calculateSessionExpiry Γ s.issuedAt now) })
      (touched Γ s now S) := by
  refine ⟨?_, ?_, h.unrevoked, h.user⟩
  · exact filter_touched (fun _ => rfl) h.byHash
  · exact filter_touched (fun _ => rfl) h.byId

/-- A touched session is fresh again. -/
theorem fresh_touched {tokenHash : Text} {s : AuthSession} {S : Store} {t : DateTime} (h : Fresh Γ tokenHash t s S)
    (now : DateTime) :
    Fresh Γ tokenHash now (s.patch { lastSeenAt := some now, expiresAt := some (calculateSessionExpiry Γ s.issuedAt now) })
      (touched Γ s now S) := by
  refine ⟨usable_touched h.usable now, ?_, h.stored, ?_⟩
  · show toMillis (calculateSessionExpiry Γ s.issuedAt now) = _
    rw [toMillis_expiry, h.stored]
    rfl
  · have hfloor := lt_toMillis_add now
    have hslack : 1000 ≤ Γ.auth.slack := le_max_left _ _
    show now < toMillis now + Γ.auth.slack
    linarith

/-- A timely visit finds the session. -/
theorem Fresh.active {token : Text} {s : AuthSession} {S : Store} {t t' : DateTime} (h : Fresh Γ (Γ.hashToken token) t s S)
    (ht : Timely Γ token S t t') : S.sessions.filter (fun r => r.isActive (Γ.hashToken token) t') = [s] := by
  have hmem : s ∈ S.sessions.filter fun r => r.sessionTokenHash = Γ.hashToken token := by
    rw [h.usable.byHash]
    exact List.mem_singleton_self s
  have hhash := of_decide_eq_true (List.mem_filter.1 hmem).2
  have hidle : t' < s.lastSeenAt + seconds Γ.auth.idleTtlSeconds := by
    have hgap := ht.gap
    have hseen := h.seen
    linarith
  have hlive : toMillis t' < s.expiresAt := by
    rw [h.tight, lt_min_iff]
    have hfloor := toMillis_le t'
    exact ⟨lt_of_le_of_lt hfloor (ht.absolute s (List.mem_of_mem_filter hmem) hhash), lt_of_le_of_lt hfloor hidle⟩
  have hactive : s.isActive (Γ.hashToken token) t' = true := by
    simp [AuthSession.isActive, hhash, h.usable.unrevoked, hlive]
  have hsplit : S.sessions.filter (fun r => r.isActive (Γ.hashToken token) t') =
      (S.sessions.filter fun r => r.sessionTokenHash = Γ.hashToken token).filter fun r => r.isActive (Γ.hashToken token) t' := by
    rw [List.filter_filter]
    refine List.filter_congr fun r _ => ?_
    simp only [AuthSession.isActive]
    by_cases hr : r.sessionTokenHash = Γ.hashToken token <;> simp [hr]
  rw [hsplit, h.usable.byHash]
  simp [hactive]

/-! ## A visit -/

/-- The scene of a request on the tables. -/
abbrev sceneOf (S : Store) (env : Env) : Scene (database Γ) := ⟨S, S, env⟩

/-- A database at rest is seen as its committed tables. -/
theorem sees_atRest (me : Nat) (S : Store) (env : Env) : Sees me (sceneOf S env) (atRest Γ S env) :=
  ⟨rfl, view_atRest S env me, rfl, nofun⟩

/-- When the visit ends, it has the context of the session, and the session is fresh. -/
def Welcomed (Γ : Ctx) (tokenHash : Text) (t : DateTime) (r : Except AuthError (Option AuthenticatedSessionContext))
    (σ : Scene (database Γ)) : Prop :=
  (∃ context, r = .ok (some context)) ∧ ∃ s, Fresh Γ tokenHash t s σ.view

variable {me : Nat} {ipAddress userAgent : Option Text}

/-- The session is fresh after it was refreshed, touched or not. -/
theorem surely_refresh {tokenHash : Text} {s : AuthSession} {t : DateTime} {σ : Scene (database Γ)}
    (h : Fresh Γ tokenHash t s σ.view) :
    Surely Passing.stopped me (fun r σ' => (∃ s', r = .ok s') ∧ ∃ s', Fresh Γ tokenHash σ.env.now s' σ'.view)
      (refreshSession s : Service Γ AuthSession) σ := by
  refine surely_bind (surely_utcnow ?_)
  rintro env rfl
  dsimp only
  split
  · -- the touch interval has passed
    have hrow : (Stmt.patchSession s.id
        { lastSeenAt := some σ.env.now, expiresAt := some (calculateSessionExpiry Γ s.issuedAt σ.env.now) }).rows σ.view =
        [.session s.id] := by
      rw [Stmt.rows, h.usable.byId]
      rfl
    refine surely_bind (p := getSessionById (some s) s.id) (surely_bind (surely_updateRow hrow rfl rfl ?_))
    rintro env rfl
    exact ⟨⟨_, rfl⟩, _, fresh_touched h σ.env.now⟩
  · rename_i hrecent
    refine ⟨⟨s, rfl⟩, s, h.usable, h.tight, h.stored, ?_⟩
    rw [not_or, not_le, not_le] at hrecent
    have hslack : seconds Γ.auth.effectiveTouchIntervalSeconds ≤ Γ.auth.slack := le_max_right _ _
    linarith [hrecent.2]

/-- Run alone, a request with a fresh session in time is welcomed and the session is kept fresh. -/
theorem surely_authenticate {token : Text} (htoken : token ≠ []) {s : AuthSession} {S : Store} {t : DateTime} {env : Env}
    (h : Fresh Γ (Γ.hashToken token) t s S) (ht : Timely Γ token S t env.now) :
    Surely Passing.stopped me (fun r σ => σ.store = σ.view ∧ Welcomed Γ (Γ.hashToken token) env.now r σ)
      (authenticateSession (some token) ipAddress userAgent) (sceneOf S env) := by
  have hsome : (some token).filter (fun x => decide (x ≠ [])) = some token := by
    rw [Option.filter_some, if_pos (decide_eq_true htoken)]
  obtain ⟨u, huser, huactive, hulive⟩ := h.usable.user
  unfold authenticateSession
  simp only [hsome]
  refine surely_transaction ?_
  rintro _ rfl
  refine surely_bind (surely_bind (surely_utcnow ?_))
  rintro _ rfl
  refine surely_bind (surely_query _ ?_)
  rintro _ rfl
  rw [show Query.answer Γ S (.activeSession (Γ.hashToken token) env.now) = [s] from h.active ht]
  refine surely_bind (surely_bind (surely_query _ ?_))
  rintro _ rfl
  rw [show Query.answer Γ S (.userById s.userId) = [u] from huser]
  show Surely _ _ _ (if u.deletedAt.isSome = true then _ else if (!u.isActive) = true then _ else _) _
  rw [hulive, huactive, if_neg (by simp), if_neg (by simp)]
  refine surely_bind ((surely_refresh h).mono ?_)
  rintro r σ ⟨⟨s', rfl⟩, s'', hfresh⟩
  refine surely_bind (surely_bind (p := getUserRoleCodes u.id) (surely_query (.roleCodes u.id) ?_))
  rintro _ rfl
  rintro _ rfl
  exact ⟨rfl, ⟨_, rfl⟩, s'', hfresh⟩

/-- A timely visit is answered with a context, and leaves the session fresh. -/
theorem authenticateAt_fresh {token : Text} (htoken : token ≠ []) {s : AuthSession} {S : Store} {t : DateTime} {v : Visit}
    (h : Fresh Γ (Γ.hashToken token) t s S) (ht : Timely Γ token S t v.env.now) :
    ∃ context S' s', authenticateAt Γ token v S = some (.ok (some context), S') ∧
      Fresh Γ (Γ.hashToken token) v.env.now s' S' := by
  have hsurely : Surely Passing.stopped v.thread _ (authenticateSession (some token) v.ipAddress v.userAgent) _ :=
    surely_authenticate htoken h ht
  obtain ⟨r, db, σ, hrun, hsees, hstore, ⟨context, rfl⟩, s', hfresh⟩ := hsurely.run (sees_atRest v.thread S v.env)
  refine ⟨context, db.store, s', ?_, ?_⟩
  · rw [authenticateAt, hrun]
    rfl
  · rw [hsees.store, hstore]
    exact hfresh

/-! ## The issue -/

/-- The row of a new session. -/
def newRow (Γ : Ctx) (id : Uuid) (user : User) (token csrfToken : Text) (issuedAt : DateTime) (ipAddress userAgent : Option Text) :
    AuthSession :=
  AuthSession.bind ⟨id, user.id, Γ.hashToken token, Γ.hashToken csrfToken, issuedAt, issuedAt,
    calculateSessionExpiry Γ issuedAt issuedAt, none, none, ipAddress, userAgent⟩

/-- A new row is found by its key if no other row has it. -/
theorem filter_insert {p : AuthSession → Bool} {row : AuthSession} {rows : List AuthSession} (hrow : p row = true)
    (hrows : ∀ r ∈ rows, p r = false) : (rows ++ [row]).filter p = [row] := by
  have hnone : rows.filter p = [] := by
    rw [List.filter_eq_nil_iff]
    intro r hr
    rw [hrows r hr]
    exact Bool.false_ne_true
  rw [List.filter_append, hnone, List.nil_append, List.filter_cons_of_pos hrow, List.filter_nil]

/-- A session that may be inserted has an id and a token hash of its own. -/
theorem filters_insertSession {row : AuthSession} {S : Store} (h : (Write.insertSession row).violates Γ S = false) :
    ((Write.insertSession row).apply S).sessions.filter (fun r => r.sessionTokenHash = row.sessionTokenHash) = [row] ∧
      ((Write.insertSession row).apply S).sessions.filter (fun r => r.id = row.id) = [row] := by
  simp only [Write.violates, Bool.or_eq_false_iff, List.any_eq_false, Bool.or_eq_true, decide_eq_true_eq, not_or] at h
  refine ⟨filter_insert (by simp) fun r hr => ?_, filter_insert (by simp) fun r hr => ?_⟩
  · exact decide_eq_false (h.1 r hr).2
  · exact decide_eq_false (h.1 r hr).1

theorem newRow_tight (id : Uuid) (user : User) (token csrfToken : Text) (issuedAt : DateTime) (ipAddress userAgent : Option Text) :
    (newRow Γ id user token csrfToken issuedAt ipAddress userAgent).isTight Γ := toMillis_expiry issuedAt issuedAt

/-- When a session was issued and its user is active, it is fresh. -/
def Issued (Γ : Ctx) (userId : Uuid) (token : Text) (t : DateTime) (r : Except AuthError AuthSession)
    (σ : Scene (database Γ)) : Prop :=
  (∃ session, r = .ok session) → ActiveUser userId σ.view → ∃ s, Fresh Γ (Γ.hashToken token) t s σ.view

/-- Run alone, a session is issued with the expiry of its time of issue. -/
theorem surely_createSession {user : User} {token csrfToken : Text} {issuedAt : DateTime} {σ : Scene (database Γ)} :
    Surely Passing.stopped me (Issued Γ user.id token issuedAt)
      (createSession user.id (Γ.hashToken token) (Γ.hashToken csrfToken) issuedAt issuedAt
        (calculateSessionExpiry Γ issuedAt issuedAt) ipAddress userAgent) σ := by
  refine surely_bind (surely_newId ?_)
  rintro _ rfl
  refine surely_bind (surely_insert (fun hok => ?_) fun _ => ?_)
  · rintro _ rfl
    refine surely_bind (surely_query _ ?_)
    rintro _ rfl
    obtain ⟨hhash, hid⟩ := filters_insertSession hok
    refine surely_refreshed (fun row _ _ huser => ?_) nofun
    refine ⟨_, ⟨hhash, hid, rfl, huser⟩, toMillis_expiry _ _, toMillis_toMillis _, ?_⟩
    have hfloor := lt_toMillis_add issuedAt
    have hslack : 1000 ≤ Γ.auth.slack := le_max_left _ _
    show issuedAt < toMillis issuedAt + Γ.auth.slack
    linarith
  · rintro _ rfl
    nofun

/-- While time stands still, a session is issued at that time. -/
theorem surely_issue {user : User} {currentToken : Option Text} {σ : Scene (database Γ)} :
    Surely Passing.stopped me (fun r σ' => ∀ session token csrfToken, r = .ok (session, token, csrfToken) →
      token ≠ [] ∧ Issued Γ user.id token σ.env.now (.ok session) σ')
      (replaceAuthSession user currentToken ipAddress userAgent) σ := by
  refine surely_bind ((surely_now _).mono fun r σ1 hnow => ?_)
  cases r with
  | error e => nofun
  | ok _ =>
    refine surely_bind (surely_call .generateToken ?_)
    rintro _ rfl
    refine surely_bind (surely_call .generateToken ?_)
    rintro _ rfl
    refine surely_bind (surely_utcnow ?_)
    rintro _ rfl
    refine surely_bind (surely_createSession.mono fun r σ2 hissued => ?_)
    cases r with
    | error e => nofun
    | ok row =>
      intro session token csrfToken heq
      cases heq
      rw [← hnow]
      exact ⟨Γ.token_ne_nil _, hissued⟩

/-- A session is fresh all its life. -/
theorem fresh_of_life {token : Text} {t : DateTime} {S : Store} (h : Life Γ token t S) :
    token ≠ [] ∧ ∃ s, Fresh Γ (Γ.hashToken token) t s S := by
  induction h with
  | @issue me user currentToken ipAddress userAgent db db' session csrfToken howner hrun huser =>
    have hsurely : Surely Passing.stopped me _ (replaceAuthSession user currentToken ipAddress userAgent)
      ⟨db.store, db.view me, db.env⟩ := surely_issue
    obtain ⟨r, db1, σ, hrun', hsees, hissue⟩ := hsurely.run ⟨rfl, rfl, rfl, howner⟩
    rw [hrun'] at hrun
    obtain ⟨rfl, rfl⟩ := Prod.mk.inj (Option.some.inj hrun)
    rw [hsees.view] at huser ⊢
    obtain ⟨htoken, hfresh⟩ := hissue _ _ _ rfl
    exact ⟨htoken, hfresh ⟨_, rfl⟩ huser⟩
  | elsewhere _ helsewhere ih =>
    obtain ⟨htoken, s, hfresh⟩ := ih
    obtain ⟨s', husable, hissued, hseen, hexpires⟩ := helsewhere s hfresh.usable
    refine ⟨htoken, s', husable, ?_, ?_, ?_⟩
    · rw [AuthSession.isTight, hissued, hseen, hexpires]
      exact hfresh.tight
    · rw [hissued]
      exact hfresh.stored
    · rw [hseen]
      exact hfresh.seen
  | visit _ ht hvisit ih =>
    obtain ⟨htoken, s, hfresh⟩ := ih
    obtain ⟨context, S', s', hvisit', hfresh'⟩ := authenticateAt_fresh htoken hfresh ht
    rw [hvisit'] at hvisit
    obtain ⟨rfl, rfl⟩ := Prod.mk.inj (Option.some.inj hvisit)
    exact ⟨htoken, s', hfresh'⟩

/-! ## Creates and touches at any time -/

variable {S0 : Store}

/-- Statements of any kinds without brackets are allowed where nothing is promised. -/
theorem leads_anything {α : Type} (ks : Set Kind) {p : Service Γ α} (h : Within ks p) (hb : .bracket ∉ ks) :
    Ensures (unbound Γ) me S0 (fun _ _ _ => True) p fun _ _ _ _ => True :=
  leads_within h ⟨fun _ _ _ => trivial, fun _ _ _ => trivial⟩ hb

/-- The rows with an id are tight. -/
def TightRow (Γ : Ctx) (id : Uuid) (V : Store) : Prop := ∀ s ∈ V.sessions, s.id = id → s.isTight Γ

/-- A tight session found by its id is the tight row of that id. -/
theorem tightRow_of_filter {id : Uuid} {V : Store} {s : AuthSession} (hs : V.sessions.filter (fun r => r.id = id) = [s])
    (htight : s.isTight Γ) : TightRow Γ id V := by
  intro r hr hid
  have hmem : r ∈ V.sessions.filter fun r => r.id = id := List.mem_filter.2 ⟨hr, decide_eq_true hid⟩
  rw [hs] at hmem
  rw [List.mem_singleton.1 hmem]
  exact htight

variable (S0) in
/-- Replacing a session leaves the new one tight. -/
theorem leads_create {user : User} {currentToken : Option Text} :
    Ensures (unbound Γ) me S0 (fun _ _ _ => True) (replaceAuthSession user currentToken ipAddress userAgent)
      fun r _ V _ => TightRow Γ r.1.id V := by
  refine leads_bind (leads_anything {.lookup, .sessionRevoke} (within_rotateSession (by simp) (by simp)) (by simp))
    fun _ => ?_
  refine leads_bind (leads_anything ∅ within_generateToken (by simp)) fun token => ?_
  refine leads_bind (leads_anything ∅ within_generateToken (by simp)) fun csrfToken => ?_
  refine leads_bind (leads_anything ∅ within_utcnow (by simp)) fun issuedAt => ?_
  refine leads_bind (Q := fun row => On me fun _ V _ => TightRow Γ row.id V) ?_ fun row => by exact leads_done fun _ _ _ h => h
  refine leads_bind (leads_anything ∅ within_newId (by simp)) fun id => ?_
  refine leads_bind (Q := fun _ => On me fun _ (V : Store) _ => V.sessions.filter (fun r => r.id = id) =
    [newRow Γ id user token csrfToken issuedAt ipAddress userAgent]) ?_ fun _ => ?_
  · exact leads_insertRow fun S V e _ hok => (filters_insertSession hok).2
  · refine leads_bind (leads_select (.sessionById id) (Q := fun rows _ V _ => rows = V.sessions.filter (fun r => r.id = id) ∧
      V.sessions.filter (fun r => r.id = id) = [newRow Γ id user token csrfToken issuedAt ipAddress userAgent])
      fun S V e h => ⟨rfl, h⟩) fun rows => ?_
    refine leads_refreshed fun row S V e hV hrow => ?_
    obtain ⟨hrows, hone⟩ := hV
    have hrow : row = newRow Γ id user token csrfToken issuedAt ipAddress userAgent := by
      rw [hrow, hone] at hrows
      exact (List.cons.inj hrows).1
    have hid : row.id = id := by
      rw [hrow]
      rfl
    rw [hid]
    exact tightRow_of_filter hone (newRow_tight _ _ _ _ _ _ _)

/-- The loaded row is the one with its id. -/
def Loaded (session : AuthSession) (V : Store) : Prop := V.sessions.filter (fun r => r.id = session.id) = [session]

variable (S0) in
/-- A refresh leaves the tables alone or the session tight. -/
theorem leads_refresh {session : AuthSession} (hwhole : toMillis session.issuedAt = session.issuedAt) {V0 : Store} :
    Ensures (unbound Γ) me S0 (fun _ V _ => V = V0 ∧ Loaded session V) (refreshSession session)
      fun _ _ V _ => V = V0 ∨ TightRow Γ session.id V := by
  refine leads_bind (leads_reply (x := .utcnow) (Q := fun _ _ V _ => V = V0 ∧ Loaded session V)
    fun S V e e' y hV _ _ => hV) fun now => ?_
  dsimp only
  split
  · have hchange : ∀ V, Loaded session V → applyAll (D := database Γ) (((Stmt.patchSession session.id
        { lastSeenAt := some now, expiresAt := some (calculateSessionExpiry Γ session.issuedAt now) }).rows V).filterMap
        (Stmt.change (.patchSession session.id
          { lastSeenAt := some now, expiresAt := some (calculateSessionExpiry Γ session.issuedAt now) }))) V =
        touched Γ session now V := by
      intro V hV
      rw [Stmt.rows, hV]
      rfl
    refine leads_weaken (Q := fun _ _ V _ => TightRow Γ session.id V) ?_ fun _ _ _ _ h => Or.inr h
    refine leads_bind (p := updateRow _) (Q := fun _ => On me fun _ V _ => TightRow Γ session.id V) ?_ fun _ => by
      exact leads_done fun _ _ _ h => h
    refine leads_bind (leads_statement (Q := fun _ _ V _ => TightRow Γ session.id V) fun S V e hV => ?_) fun rows => ?_
    · rw [hchange V hV.2]
      refine tightRow_of_filter (filter_touched (fun _ => rfl) hV.2) ?_
      show toMillis (calculateSessionExpiry Γ session.issuedAt now) = _
      rw [toMillis_expiry, hwhole]
      rfl
    · split
      · exact leads_done fun _ _ _ h => h
      · exact leads_throw _
  · exact leads_done fun S V e hV => Or.inl hV.1

/-- A service without providers, with the default settings. -/
def Γ₁ : Ctx := Ctx.readable [] fun _ => .error .oidcProviderUnavailable

def alice : User := ⟨0, "alice".toList, none, true, .ja, 0, 0, none, none⟩

/-- A database with one user, at a time between two milliseconds. -/
def db₁ : Db (database Γ₁) := atRest Γ₁ { Store.empty with users := [alice] } ⟨1000000500, [], 0, 0, 0, 0⟩

/-- The session that is issued to the user then. -/
def row₁ : AuthSession := newRow Γ₁ 0 alice (Γ₁.token 0) (Γ₁.token 1) 1000000500 none none

/-- A visit a day after the issue, less the touch interval. -/
def lateVisit : Visit := ⟨1, ⟨1000000500 + seconds 86100, [0, 0], 1, 0, 0, 0⟩, none, none⟩

/-- The database at that visit. -/
def dbVisited : Db (database Γ₁) :=
  atRest Γ₁ { Store.empty with users := [alice], sessions := [row₁] } lateVisit.env

end ExpiryAux

open ExpiryAux

/-- A session of an active user that is visited in time never ends early: every visit gets a context, and the stored expiry is
always tight. And whenever any session is created or touched, whatever fails around it and however long it takes, its stored
expiry is the earlier of the absolute and the idle one, for the stored times. -/
theorem active_session_lasts (Γ : Ctx) :
    (∀ {token : Text} {t : DateTime} {S : Store}, Life Γ token t S →
      (∀ s ∈ S.sessions, s.sessionTokenHash = Γ.hashToken token → s.isTight Γ) ∧
      ∀ v : Visit, Timely Γ token S t v.env.now →
        ∃ context S', authenticateAt Γ token v S = some (.ok (some context), S')) ∧
    (∀ {me : Nat} {user : User} {currentToken ipAddress userAgent : Option Text} {db db' : Db (database Γ)}
      {failed : List (Act (database Γ))} {r : AuthSession × Text × Text},
      Runs me (replaceAuthSession user currentToken ipAddress userAgent) db failed (.ok r) db' →
      ∀ s ∈ (db'.view me).sessions, s.id = r.1.id → s.isTight Γ) ∧
    ∀ {me : Nat} {session session' : AuthSession} {db db' : Db (database Γ)} {failed : List (Act (database Γ))},
      Runs me (refreshSession session) db failed (.ok session') db' →
      (db.view me).sessions.filter (fun r => r.id = session.id) = [session] → toMillis session.issuedAt = session.issuedAt →
      db'.view me = db.view me ∨ ∀ s ∈ (db'.view me).sessions, s.id = session.id → s.isTight Γ := by
  refine ⟨fun {token t S} hlife => ?_, fun hrun => ?_, fun hrun hloaded hwhole => ?_⟩
  · obtain ⟨htoken, s, hfresh⟩ := fresh_of_life hlife
    refine ⟨fun r hr hhash => ?_, fun v ht => ?_⟩
    · have hmem : r ∈ S.sessions.filter fun r => r.sessionTokenHash = Γ.hashToken token :=
        List.mem_filter.2 ⟨hr, decide_eq_true hhash⟩
      rw [hfresh.usable.byHash] at hmem
      rw [List.mem_singleton.1 hmem]
      exact hfresh.tight
    · obtain ⟨context, S', _, hvisit, _⟩ := authenticateAt_fresh htoken hfresh ht
      exact ⟨context, S', hvisit⟩
  · obtain ⟨_, _, htight⟩ := hrun.leads (leads_create Store.empty) (fun _ _ => trivial) ⟨trivial, trivial⟩
      ⟨_, Env.Later.refl _, trivial⟩
    exact htight
  · obtain ⟨_, _, htight⟩ := hrun.leads (leads_refresh Store.empty hwhole) (fun _ _ => trivial) ⟨trivial, trivial⟩
      ⟨_, Env.Later.refl _, rfl, hloaded⟩
    exact htight

/-- A session that is issued to an active user and visited as late as it may be, and the touch of that visit. -/
theorem active_session_lasts_a_day :
    (∃ S, Life Γ₁ (Γ₁.token 0) 1000000500 S ∧ (∀ s ∈ S.sessions, s.sessionTokenHash = Γ₁.hashToken (Γ₁.token 0) → s.isTight Γ₁) ∧
      ∃ context S', authenticateAt Γ₁ (Γ₁.token 0) lateVisit S = some (.ok (some context), S')) ∧
    (∃ db' r, Runs 0 (replaceAuthSession alice none none none) db₁ [] (.ok r) db' ∧
      ∀ s ∈ (db'.view 0).sessions, s.id = r.1.id → s.isTight Γ₁) ∧
    ∃ db' s', Runs 0 (refreshSession row₁) dbVisited [] (.ok s') db' ∧
      (db'.view 0 = dbVisited.view 0 ∨ ∀ s ∈ (db'.view 0).sessions, s.id = row₁.id → s.isTight Γ₁) := by
  have hissue : (Serial.run 0 (replaceAuthSession alice none none none) db₁).map (fun x => (x.1, (x.2.view 0 : Store))) =
      some (.ok (row₁, Γ₁.token 0, Γ₁.token 1), { Store.empty with users := [alice], sessions := [row₁] }) := by
    decide
  have htouch : (Serial.run 0 (refreshSession row₁) dbVisited).map (fun x => x.1) =
      some (.ok { row₁ with lastSeenAt := dbVisited.env.now, expiresAt := dbVisited.env.now + seconds 86400 }) := by
    decide
  obtain ⟨⟨r, db'⟩, hrun, heq⟩ := Option.map_eq_some_iff.1 hissue
  obtain ⟨rfl, hview⟩ := Prod.mk.inj heq
  obtain ⟨⟨r', db''⟩, hrun', rfl⟩ := Option.map_eq_some_iff.1 htouch
  have hlife : Life Γ₁ (Γ₁.token 0) 1000000500 (db'.view 0) := Life.issue (fun _ _ howner => by cases howner) hrun ⟨alice, by
    rw [hview]
    decide⟩
  have htimely : Timely Γ₁ (Γ₁.token 0) (db'.view 0) 1000000500 lateVisit.env.now := by
    refine ⟨by decide, by decide, ?_⟩
    rw [hview]
    decide
  obtain ⟨htight, hvisits⟩ := (active_session_lasts Γ₁).1 hlife
  exact ⟨⟨_, hlife, htight, hvisits lateVisit htimely⟩,
    ⟨db', _, runs_of_run hrun, (active_session_lasts Γ₁).2.1 (runs_of_run hrun)⟩,
    db'', _, runs_of_run hrun', (active_session_lasts Γ₁).2.2 (runs_of_run hrun') (by decide) (by decide)⟩

end AuthService
