import AuthService.Csrf
import AuthService.SerialRuns
import AuthService.Library.BigStep

/-!
# Unsafe requests carry the token of their session

The middleware looks the session up, and the handler looks it up again. What the first lookup did not find active, the second
does not find active either: nothing but time passes in between.
-/

namespace AuthService

open ReadCommitted RelyGuarantee Serial SerialAux

variable {Γ : Ctx}

/-- A request that is to be checked: unsafe, to the API, and not exempt. -/
structure IsChecked (Γ : Ctx) (settings : CsrfSettings) (request : HttpRequest) : Prop where
  type : request.type = "http".toList
  method : request.method ∈ unsafeMethods
  path : request.routePath = "/api".toList ∨ "/api/".toList <+: request.routePath
  notExempt : request.routePath ∉ csrfExemptPaths Γ settings.csrfExemptPaths

/-- The cookie and the header are the token of the session. -/
def Carries (Γ : Ctx) (request : HttpRequest) (session : AuthSession) : Prop :=
  ∃ token, token ≠ [] ∧ request.cookies csrfCookieName = some token ∧ request.csrfTokenHeader = some token ∧
    session.csrfTokenHash = Γ.hashToken token

namespace CsrfProtectionAux

variable {me : Nat} {S0 : Store} {L : IpAddresses} {settings : CsrfSettings} {request : HttpRequest}
  {db db' : Db (database Γ)} {failed : List (Act (database Γ))}

/-- Every session with the token hash that is active from now on has the CSRF token hash. -/
def Guards (tokenHash csrfHash : Text) (S : Store) (e : Env) : Prop :=
  ∀ s ∈ S.sessions, s.isActive tokenHash e.now = true → s.csrfTokenHash = csrfHash

/-- An active session was active at every earlier time. -/
theorem isActive_earlier {s : AuthSession} {tokenHash : Text} {t t' : DateTime} (h : s.isActive tokenHash t' = true)
    (hle : t ≤ t') : s.isActive tokenHash t = true := by
  simp only [AuthSession.isActive, Bool.and_eq_true, decide_eq_true_eq] at h ⊢
  exact ⟨h.1, lt_of_le_of_lt (toMillis_mono hle) h.2⟩

/-- A guarded session stays guarded as the environment moves on. -/
theorem Guards.later {tokenHash csrfHash : Text} {S : Store} {e e' : Env} (h : Guards tokenHash csrfHash S e)
    (hlater : e.Later e') : Guards tokenHash csrfHash S e' :=
  fun s hs hactive => h s hs (isActive_earlier hactive hlater.now)

/-! ## The lookup -/

/-- The lookup of a token finds at most one active session at some later time. -/
theorem leads_findActive {T : Promise (database Γ)} {P : Assertion (database Γ)} {Q : Option AuthSession → Assertion (database Γ)}
    (tokenHash : Text) (hP : ∀ S V (e e' : Env), P S V e → e.Later e' → P S V e')
    (h : ∀ S (V : Store) (e e' : Env) found, P S V e → e.Later e' →
      V.sessions.filter (fun s => s.isActive tokenHash e.now) = found.toList → Q found S V e') :
    Ensures T me S0 P (findActiveSessionByTokenHash tokenHash) Q := by
  refine leads_bind (Q := fun now => On me fun S V (e' : Env) => ∃ e : Env, P S V e ∧ e.Later e' ∧ e.now = now) ?_ fun now => ?_
  · refine leads_reply fun S V e e' now hp hlater hnow => ?_
    exact ⟨e', hP S V e e' hp hlater, Env.Later.refl _, Except.ok.inj hnow⟩
  refine leads_bind (Q := fun rows => On me fun S (V : Store) (e' : Env) =>
    ∃ e : Env, P S V e ∧ e.Later e' ∧ V.sessions.filter (fun s => s.isActive tokenHash e.now) = rows) ?_ fun rows => ?_
  · refine leads_select _ ?_
    rintro S V e' ⟨e, hp, hlater, rfl⟩
    exact ⟨e, hp, hlater, rfl⟩
  · refine leads_oneOrNone ?_ ?_
    · rintro S V e' ⟨e, hp, hlater, hrows⟩ rfl
      exact h S V e e' none hp hlater hrows
    · rintro s S V e' ⟨e, hp, hlater, hrows⟩ rfl
      exact h S V e e' (some s) hp hlater hrows

/-- After a lookup in the committed store, what it found says which sessions are guarded. -/
theorem leads_findGuarded {T : Promise (database Γ)} (tokenHash csrfHash : Text) :
    Ensures T me S0 (fun S V _ => V = S) (findActiveSessionByTokenHash tokenHash) fun found S V e =>
      V = S ∧ ((∀ s ∈ found, s.csrfTokenHash = csrfHash) → Guards tokenHash csrfHash S e) := by
  refine leads_findActive tokenHash (fun _ _ _ _ h _ => h) ?_
  rintro S V e e' found rfl hlater hfound
  refine ⟨rfl, fun hcsrf s hs hactive => ?_⟩
  have hmem : s ∈ V.sessions.filter fun s => s.isActive tokenHash e.now :=
    List.mem_filter.2 ⟨hs, isActive_earlier hactive hlater.now⟩
  rw [hfound, Option.mem_toList] at hmem
  exact hcsrf s hmem

/-! ## What leaves the sessions alone -/

/-- An INSERT of a neutral kind leaves the sessions alone. -/
theorem sessions_insert {w : Write} (h : w.kind = .neutral) (S : Store) : (w.apply S).sessions = S.sessions := by
  cases w with
  | insertSession row =>
    unfold Write.kind at h
    dsimp only at h
    split at h <;> cases h
  | patchSession id patch => cases h
  | deleteSession id => cases h
  | _ => rfl

/-- A statement of a neutral kind leaves the sessions alone. -/
theorem sessions_change {s : Stmt} (h : s.kind = .neutral) {k : Key} {w : Write} (hw : s.change k = some w) (S : Store) :
    (w.apply S).sessions = S.sessions := by
  cases s <;> cases k <;> simp only [Stmt.change, Option.some.injEq, reduceCtorEq] at hw <;> subst hw
  case patchSession.session id patch _ =>
    have hkind : patch.kind = .neutral := h
    rcases SessionPatch.kind_cases (p := patch) (by simp [hkind]) with ⟨h', -⟩ | ⟨h', -⟩ | ⟨h', -⟩ | ⟨h', -⟩ <;>
      cases hkind.symm.trans h'
  case revokeSessionsForUser.session => cases h
  case deleteSessionsExpiredBefore.session => cases h
  all_goals rfl

/-- No INSERT is a bracket of a transaction. -/
theorem insert_ne_bracket (w : Write) : w.kind ≠ .bracket := by
  cases w <;> unfold Write.kind <;> dsimp only <;> try split
  all_goals nofun

/-- No statement is a bracket of a transaction. -/
theorem stmt_ne_bracket (s : Stmt) : s.kind ≠ .bracket := by
  cases s with
  | patchUser id patch =>
    show UserPatch.kind patch ≠ .bracket
    unfold UserPatch.kind
    split
    · nofun
    · split <;> nofun
  | patchSession id patch =>
    show SessionPatch.kind patch ≠ .bracket
    unfold SessionPatch.kind
    split <;> nofun
  | _ => nofun

/-- Nothing but time changes what the sessions guard. -/
def guarding (Γ : Ctx) (tokenHash csrfHash : Text) : Promise (database Γ) where
  known _ _ := True
  inv := Guards tokenHash csrfHash
  rel _ _ := True
  inv_later := Guards.later
  rel_refl _ := trivial
  rel_trans _ _ := trivial

/-- Other transactions keep the guard of the session. -/
theorem kept_guarding (tokenHash csrfHash : Text) : Closed Γ {.bracket} (Sound (guarding Γ tokenHash csrfHash)) where
  insert := by
    rintro w S V e hk ⟨hguards, -⟩ _
    refine ⟨?_, trivial⟩
    intro s hs
    rw [sessions_insert (hk.resolve_right (insert_ne_bracket w))] at hs
    exact hguards s hs
  change := by
    rintro s found key w S V e hk hw ⟨hguards, -⟩
    refine ⟨?_, trivial⟩
    intro s' hs
    rw [sessions_change (hk.resolve_right (stmt_ne_bracket s)) hw] at hs
    exact hguards s' hs

/-- A program of neutral actions and brackets keeps the guard. -/
theorem runs_guarding {α : Type} {tokenHash csrfHash : Text} {p : Service Γ α} {r : Except AuthError α}
    (h : Runs me p db failed r db') (hp : Within {.bracket} p) (hview : db.view me = db.store)
    (hguards : Guards tokenHash csrfHash db.store db.env) : Guards tokenHash csrfHash db'.store db'.env := by
  have htriple : Triple (contract (guarding Γ tokenHash csrfHash) me db.store) me (On me (Sound (guarding Γ tokenHash csrfHash))) p
      fun _ => On me (Sound (guarding Γ tokenHash csrfHash)) := triple_calm hp (kept_guarding tokenHash csrfHash)
  have hstart : On me (Sound (guarding Γ tokenHash csrfHash)) db :=
    ⟨db.env, Env.Later.refl _, hview ▸ hguards, trivial⟩
  exact (h.sat (htriple db hstart) (fun _ _ => trivial) ⟨hguards, trivial⟩).1.1

/-! ## The handler -/

/-- The row of a session is there, with the CSRF token hash. -/
def Stamped (session : AuthSession) (csrfHash : Text) (V : Store) : Prop :=
  ∃ s ∈ V.sessions, s.id = session.id ∧ s.csrfTokenHash = csrfHash

/-- The kinds of what an authentication does to the sessions. -/
def authenticating : Set Kind := {.sessionRevoke, .sessionTouch}

/-- A write that does not touch the CSRF hash keeps the session stamped. -/
theorem stamped_apply {session : AuthSession} {csrfHash : Text} {w : Write} {V : Store} (h : Stamped session csrfHash V)
    (hw : ∀ id, w ≠ .deleteSession id) (hpatch : ∀ id patch, w = .patchSession id patch → patch.csrfTokenHash = none) :
    Stamped session csrfHash (w.apply V) := by
  obtain ⟨s, hs, hid, hcsrf⟩ := h
  cases w with
  | insertSession row => exact ⟨s, List.mem_append_left _ hs, hid, hcsrf⟩
  | patchSession id patch =>
    refine ⟨if s.id = id then s.patch patch else s, ?_, ?_, ?_⟩
    · simp only [Write.apply, modifyAt, decide_eq_true_eq, List.mem_map]
      exact ⟨s, hs, rfl⟩
    · split
      · exact hid
      · exact hid
    · split
      · simpa [AuthSession.patch, hpatch id patch rfl] using hcsrf
      · exact hcsrf
  | deleteSession id => exact absurd rfl (hw id)
  | _ => exact ⟨s, hs, hid, hcsrf⟩

/-- Authentication keeps the session stamped. -/
theorem kept_stamped (session : AuthSession) (csrfHash : Text) :
    Closed Γ authenticating fun _ V _ => Stamped session csrfHash V where
  insert := by
    intro w S V e hk h _
    refine stamped_apply h ?_ ?_
    · rintro id rfl
      rcases hk with hk | hk | hk <;> cases hk
    · rintro id patch rfl
      rcases hk with hk | hk | hk <;> cases hk
  change := by
    intro s found key w S V e hk hw h
    cases s <;> cases key <;> simp only [Stmt.change, Option.some.injEq, reduceCtorEq] at hw <;> subst hw
    case patchSession.session id patch _ =>
      refine stamped_apply h (by simp) ?_
      rintro id' patch' heq
      obtain ⟨-, rfl⟩ := Write.patchSession.inj heq
      have hkind : patch.kind = .neutral ∨ patch.kind = .sessionRevoke ∨ patch.kind = .sessionTouch := hk
      rcases SessionPatch.kind_cases (p := patch) (by rcases hkind with h | h | h <;> simp [h]) with
        ⟨hcsrf, -⟩ | ⟨-, _, _, rfl⟩ | ⟨-, _, rfl⟩ | ⟨-, _, rfl⟩
      · rw [hcsrf] at hkind
        rcases hkind with h | h | h <;> cases h
      · rfl
      · rfl
      · rfl
    case deleteSessionsExpiredBefore.session => rcases hk with hk | hk | hk <;> cases hk
    case revokeSessionsForUser.session =>
      refine stamped_apply h (by simp) ?_
      rintro id patch heq
      obtain ⟨-, rfl⟩ := Write.patchSession.inj heq
      rfl
    all_goals exact stamped_apply h (by simp) (by simp)

/-- What a context says of its session, whose row is there. -/
def Vouched (csrfHash : Text) (context : Option AuthenticatedSessionContext) (V : Store) : Prop :=
  ∀ c ∈ context, c.session.csrfTokenHash = csrfHash ∧ Stamped c.session csrfHash V

/-- Without a context there is nothing to vouch for. -/
theorem vouched_none (csrfHash : Text) (V : Store) : Vouched csrfHash none V := by
  intro c hc
  cases hc

/-- A session that is not let through. -/
theorem leads_refused {T : Promise (database Γ)} {csrfHash : Text} {P : Assertion (database Γ)} {p : Service Γ Unit}
    (h : Ensures T me S0 P p fun _ _ _ _ => True) :
    Ensures T me S0 P (p >>= fun _ => (pure none : Service Γ (Option AuthenticatedSessionContext)))
      fun context _ V _ => Vouched csrfHash context V :=
  leads_bind h fun _ => leads_done fun _ V _ _ => vouched_none csrfHash V

/-- The session that goes on is the one that was found. -/
theorem leads_refreshSession {T : Promise (database Γ)} {csrfHash : Text} {session : AuthSession}
    (hcsrf : session.csrfTokenHash = csrfHash) :
    Ensures T me S0 (fun _ V _ => Stamped session csrfHash V) (refreshSession session) fun s _ V _ =>
      s.csrfTokenHash = csrfHash ∧ Stamped s csrfHash V := by
  refine leads_bind (Q := fun _ => On me fun _ V _ => Stamped session csrfHash V) (leads_reply fun _ _ _ _ _ h _ _ => h) fun now => ?_
  dsimp only
  split
  · refine leads_bind (Q := fun (_ : Unit) => On me fun _ V _ => Stamped session csrfHash V) ?_ fun _ => ?_
    · exact leads_within (within_updateRow (Or.inr (Or.inr rfl))) (kept_stamped session csrfHash) (by simp [authenticating])
    · exact leads_done fun _ _ _ h => ⟨hcsrf, h⟩
  · exact leads_done fun _ _ _ h => ⟨hcsrf, h⟩

/-- The context of a found session carries its CSRF hash. -/
theorem leads_contextOfFound {T : Promise (database Γ)} {tokenHash csrfHash : Text} {ipAddress userAgent : Option Text}
    (found : Option AuthSession) (hcsrf : ∀ s ∈ found, s.csrfTokenHash = csrfHash) :
    Ensures T me S0 (fun _ V _ => ∀ s ∈ found, Stamped s csrfHash V) (contextOfFound tokenHash ipAddress userAgent found)
      fun context _ V _ => Vouched csrfHash context V := by
  have hkept : ∀ {P : Assertion (database Γ)} {p : Service Γ Unit}, Closed Γ authenticating P → Within authenticating p →
      Ensures T me S0 P p fun _ _ _ _ => True := fun hP hp =>
    leads_weaken (leads_within hp hP (by simp [authenticating])) fun _ _ _ _ _ => trivial
  cases found with
  | none =>
    have haudit : Ensures T me S0 (fun _ _ _ => True) (auditKnownRejectedSession true tokenHash ipAddress userAgent)
        fun _ _ _ _ => True :=
      hkept ⟨fun _ _ _ => trivial, fun _ _ _ => trivial⟩ (within_auditKnownRejectedSession (Or.inl rfl))
    exact leads_refused (leads_strengthen haudit fun _ _ _ _ => trivial)
  | some session =>
    refine leads_strengthen (P := fun _ V _ => Stamped session csrfHash V) ?_ fun _ _ _ h => h session rfl
    refine leads_bind (Q := fun _ => On me fun _ V _ => Stamped session csrfHash V) ?_ fun user => ?_
    · exact leads_within (within_findUserByIdForAuthentication _) (kept_stamped session csrfHash) (by simp [authenticating])
    cases user with
    | none => exact leads_refused (hkept (kept_stamped session csrfHash) (within_rejectSession (by simp) (Or.inl rfl)))
    | some user =>
      dsimp only
      split
      · exact leads_refused (hkept (kept_stamped session csrfHash) (within_rejectUserSessions (by simp) (Or.inl rfl)))
      split
      · exact leads_refused (hkept (kept_stamped session csrfHash) (within_rejectUserSessions (by simp) (Or.inl rfl)))
      refine leads_bind (leads_refreshSession (hcsrf session rfl)) fun s => leads_given fun hs => ?_
      refine leads_bind (Q := fun _ => On me fun _ V _ => Stamped s csrfHash V) ?_ fun _ => leads_done fun _ V _ h => ?_
      · exact leads_within (within_authorizationForExistingUser _) (kept_stamped s csrfHash) (by simp [authenticating])
      · rintro c ⟨⟩
        exact ⟨hs, h⟩

/-- While the sessions are guarded, an authentication vouches for the CSRF token hash. -/
theorem leads_authenticateTransaction {tokenHash csrfHash : Text} {ipAddress userAgent : Option Text} :
    Leads (contract (unbound Γ) me S0) me (fun db => Guards tokenHash csrfHash db.store db.env)
      (authenticateTransaction tokenHash ipAddress userAgent) fun context => On me fun S _ _ => Vouched csrfHash context S := by
  have hstable : Stable (contract (unbound Γ) me S0) me fun db => Guards tokenHash csrfHash db.store db.env := by
    intro db db' h hr
    obtain ⟨env, hlater, rfl⟩ := hr rfl
    exact h.later hlater
  refine transaction_leads (B := fun _ V e => Guards tokenHash csrfHash V e) hstable (fun _ h _ _ _ => h)
    (leads_bind (Q := fun found => On me fun _ V _ => ∀ s ∈ found, s.csrfTokenHash = csrfHash ∧ Stamped s csrfHash V) ?_ fun found => ?_)
    fun context _ V _ _ h _ _ _ => ⟨trivial, trivial, h⟩
  · refine leads_findActive tokenHash (fun _ _ _ _ h hlater => h.later hlater) ?_
    intro S V e e' found hguards _ hfound s hs
    have hmem : s ∈ V.sessions.filter fun s => s.isActive tokenHash e.now := by
      rw [hfound, Option.mem_toList]
      exact hs
    obtain ⟨hrow, hactive⟩ := List.mem_filter.1 hmem
    exact ⟨hguards s hrow hactive, s, hrow, rfl, hguards s hrow hactive⟩
  · intro db hdb
    have hcsrf : ∀ s ∈ found, s.csrfTokenHash = csrfHash := by
      obtain ⟨e, -, h⟩ := hdb
      exact fun s hs => (h s hs).1
    exact leads_contextOfFound found hcsrf db (hdb.mono fun _ _ _ h s hs => (h s hs).2)

/-! ## The middleware -/

/-- A checked request requires a CSRF token. -/
theorem requires_of_checked (h : IsChecked Γ settings request) : requiresCsrf Γ settings request = true := by
  have hupper : request.method.map Char.toUpper = request.method := by
    have hall : ∀ m ∈ unsafeMethods, m.map Char.toUpper = m := by decide
    exact hall _ h.method
  have hpath : isApiPath request.routePath = true := by
    rw [isApiPath, Bool.or_eq_true, decide_eq_true_eq, List.isPrefixOf_iff_prefix]
    exact h.path
  unfold requiresCsrf
  rw [if_neg (by rw [hupper, not_not]; exact h.method), hpath]
  simpa using h.notExempt

/-- The run of a request through the middleware: the validation refuses it, or passes it on. -/
theorem runs_middleware {α : Type} {app : Service Γ α} {r : Except AuthError (HttpAnswer α)}
    (hchecked : IsChecked Γ settings request) (h : Runs me (csrfMiddleware L settings request app) db failed r db') :
    (∃ r' response, r' ≠ .ok none ∧ Runs me (validate L settings request) db failed r' db' ∧ r = .ok (.problem response)) ∨
    ∃ failed1 failed2 db1, failed = failed1 ++ failed2 ∧ Runs me (validate L settings request) db failed1 (.ok none) db1 ∧
      Runs me (runApp app) db1 failed2 r db' := by
  unfold csrfMiddleware at h
  rw [if_neg (by simp [hchecked.type, requires_of_checked hchecked])] at h
  rcases runs_bind h with ⟨e, -, hattempt⟩ | ⟨r', failed1, failed2, db1, rfl, hattempt, hrest⟩
  · obtain ⟨r', hr', -⟩ := runs_attempt hattempt
    cases hr'
  obtain ⟨r'', hr'', hvalidate⟩ := runs_attempt hattempt
  obtain rfl := Except.ok.inj hr''
  have hdone : ∀ {response}, Runs me (.done (.ok (.problem response)) : Service Γ (HttpAnswer α)) db1 failed2 r db' →
      r' ≠ .ok none → (∃ r' response, r' ≠ .ok none ∧ Runs me (validate L settings request) db (failed1 ++ failed2) r' db' ∧
        r = .ok (.problem response)) := by
    intro response hrun hne
    obtain ⟨rfl, rfl, rfl⟩ := runs_done.1 hrun
    rw [List.append_nil]
    exact ⟨r', response, hne, hvalidate, rfl⟩
  rcases r' with e | _ | response
  · exact Or.inl (hdone hrest nofun)
  · exact Or.inr ⟨failed1, failed2, db1, rfl, hvalidate, hrest⟩
  · exact Or.inl (hdone hrest nofun)

/-- A status that lets the request pass leaves the sessions guarded. -/
theorem runs_validateSessionCsrf {token csrfToken : Text} {ipAddress userAgent : Option Text} {status : SessionCsrfStatus}
    (h : Runs me (validateSessionCsrf token csrfToken ipAddress userAgent : Service Γ _) db failed (.ok status) db')
    (hview : db.view me = db.store) (hstatus : status ≠ .mismatch) :
    Guards (Γ.hashToken token) (Γ.hashToken csrfToken) db'.store db'.env := by
  rcases runs_bind h with ⟨e, he, -⟩ | ⟨found, failed1, failed2, db1, rfl, hfind, hrest⟩
  · cases he
  have hstart : On me (fun S V _ => V = S) db := ⟨db.env, Env.Later.refl _, hview⟩
  have hlookup : Ensures (unbound Γ) me db.store (fun S V _ => V = S) (findActiveSessionByTokenHash (Γ.hashToken token)) _ :=
    leads_findGuarded (Γ.hashToken token) (Γ.hashToken csrfToken)
  obtain ⟨e, hlater, hview1, hguards⟩ := hfind.leads hlookup (fun _ _ => trivial) ⟨trivial, trivial⟩ hstart
  cases found with
  | none =>
    rcases runs_bind hrest with ⟨e, he, -⟩ | ⟨_, failed3, failed4, db2, -, haudit, hpure⟩
    · cases he
    obtain ⟨-, -, rfl⟩ := runs_done.1 hpure
    exact runs_guarding haudit (within_auditKnownRejectedSession (Or.inr rfl)) hview1 ((hguards nofun).later hlater)
  | some session =>
    dsimp only at hrest
    split at hrest
    · rename_i hcsrf
      obtain ⟨-, -, rfl⟩ := runs_done.1 hrest
      refine (hguards ?_).later hlater
      rintro s ⟨⟩
      exact hcsrf
    · obtain ⟨-, hr, -⟩ := runs_done.1 hrest
      exact absurd (Except.ok.inj hr) hstatus

/-- Resolving the client address leaves the database alone. -/
theorem runs_clientIp {ipAddress : Option Text}
    (h : Runs me (clientIp L settings request : Service Γ _) db failed (.ok ipAddress) db') : db' = db := by
  unfold clientIp at h
  split at h
  · exact (runs_done.1 h).2.2
  · exact (runs_done.1 h).2.2

/-- What a request that passes the validation carries, and what the sessions guard from then on. -/
theorem runs_validate (h : Runs me (validate L settings request : Service Γ _) db failed (.ok none) db')
    (hview : db.view me = db.store) :
    ∃ token, token ≠ [] ∧ request.cookies csrfCookieName = some token ∧ request.csrfTokenHeader = some token ∧
      ∀ sessionToken, (request.cookies settings.sessionCookieName).filter (· ≠ []) = some sessionToken →
        Guards (Γ.hashToken sessionToken) (Γ.hashToken token) db'.store db'.env := by
  unfold validate at h
  split at h
  · rename_i cookieToken headerToken hcookie hheader
    split at h
    · obtain ⟨-, hr, -⟩ := runs_done.1 h
      cases hr
    rename_i heq
    rw [ne_eq, not_not] at heq
    subst heq
    obtain ⟨hcookie, hne⟩ := Option.filter_eq_some_iff.1 hcookie
    obtain ⟨hheader, -⟩ := Option.filter_eq_some_iff.1 hheader
    refine ⟨cookieToken, of_decide_eq_true hne, hcookie, hheader, ?_⟩
    intro sessionToken hsession
    simp only [hsession] at h
    rcases runs_bind h with ⟨e, he, -⟩ | ⟨ipAddress, failed1, failed2, db1, -, hip, hrest⟩
    · cases he
    obtain rfl := runs_clientIp hip
    rcases runs_bind hrest with ⟨e, he, -⟩ | ⟨status, failed3, failed4, db2, -, hstatus, hpure⟩
    · cases he
    cases status with
    | mismatch =>
      obtain ⟨-, hr, -⟩ := runs_done.1 hpure
      cases hr
    | valid =>
      obtain ⟨-, -, rfl⟩ := runs_done.1 hpure
      exact runs_validateSessionCsrf hstatus hview nofun
    | noSession =>
      obtain ⟨-, -, rfl⟩ := runs_done.1 hpure
      exact runs_validateSessionCsrf hstatus hview nofun
  · obtain ⟨-, hr, -⟩ := runs_done.1 h
    cases hr

/-- A context of the handler behind a request that passed carries the token. -/
theorem runs_requireCurrentSession {csrfHash : Text} {context : AuthenticatedSessionContext}
    (h : Runs me (requireCurrentSession L settings request : Service Γ _) db failed (.ok (some context)) db')
    (hguards : ∀ sessionToken, (request.cookies settings.sessionCookieName).filter (· ≠ []) = some sessionToken →
      Guards (Γ.hashToken sessionToken) csrfHash db.store db.env) :
    context.session.csrfTokenHash = csrfHash ∧ Stamped context.session csrfHash db'.store := by
  rcases runs_bind h with ⟨e, he, -⟩ | ⟨ipAddress, failed1, failed2, db1, -, hip, hrest⟩
  · cases he
  obtain rfl := runs_clientIp hip
  unfold authenticateSession at hrest
  split at hrest
  · obtain ⟨-, hr, -⟩ := runs_done.1 hrest
    cases hr
  · rename_i token htoken
    have hauthenticate : Leads (contract (unbound Γ) me db1.store) me
        (fun db => Guards (Γ.hashToken token) csrfHash db.store db.env)
        (authenticateTransaction (Γ.hashToken token) ipAddress request.userAgent)
        fun context => On me fun S _ _ => Vouched csrfHash context S :=
      leads_authenticateTransaction
    obtain ⟨e, -, hvouched⟩ := hrest.leads hauthenticate (fun _ _ => trivial) ⟨trivial, trivial⟩ (hguards token htoken)
    exact hvouched context rfl

end CsrfProtectionAux

open CsrfProtectionAux

/-- A request that is checked reaches the handler only when its validation passes. A session that the handler then
authenticates is the one whose token the cookie and the header are. -/
theorem csrf_protected {L : IpAddresses} {settings : CsrfSettings} {request : HttpRequest}
    (hchecked : IsChecked Γ settings request) (S : Store) (env : Env) (me : Nat) :
    (∀ failed context db', Runs me (csrfMiddleware L settings request (requireCurrentSession L settings request))
        (atRest Γ S env) failed (.ok (.app (some context))) db' →
      Carries Γ request context.session ∧ ∃ s ∈ db'.store.sessions, s.id = context.session.id ∧ Carries Γ request s) ∧
    ∀ (α : Type) (app : Service Γ α) failed r db', Runs me (csrfMiddleware L settings request app) (atRest Γ S env) failed r db' →
      (∃ r' response, r' ≠ .ok none ∧ Runs me (validate L settings request) (atRest Γ S env) failed r' db' ∧
        r = .ok (.problem response)) ∨
      ∃ failed1 failed2 db1, failed = failed1 ++ failed2 ∧
        Runs me (validate L settings request) (atRest Γ S env) failed1 (.ok none) db1 ∧ Runs me (runApp app) db1 failed2 r db' := by
  refine ⟨fun failed context db' h => ?_, fun α app failed r db' h => runs_middleware hchecked h⟩
  rcases runs_middleware hchecked h with ⟨r', response, -, -, hr⟩ | ⟨failed1, failed2, db1, -, hvalidate, happ⟩
  · cases hr
  obtain ⟨token, hne, hcookie, hheader, hguards⟩ := runs_validate hvalidate (view_atRest ..)
  rcases runs_bind happ with ⟨e, he, -⟩ | ⟨context', failed3, failed4, db2, -, hrequire, hpure⟩
  · cases he
  obtain ⟨-, hr, rfl⟩ := runs_done.1 hpure
  cases hr
  obtain ⟨hcsrf, s, hs, hid, hrow⟩ := runs_requireCurrentSession hrequire hguards
  exact ⟨⟨token, hne, hcookie, hheader, hcsrf⟩, s, hs, hid, token, hne, hcookie, hheader, hrow⟩

namespace ProtectedPost

/-- No address is read. -/
def addresses : IpAddresses where
  Address := Unit
  Network := Unit
  ipAddress _ := none
  ipNetwork _ := none
  ipv4Mapped _ := none
  str _ := []
  contains _ _ := false
  strip := id
  strip_nil := rfl
  isDigit _ := false

def Γ₃ : Ctx := Ctx.readable [] fun _ => .error .overflow

def settings : CsrfSettings := ⟨[], [], []⟩

def ann : User := ⟨1, ['a'], none, true, .en, 0, 0, none, none⟩

def session : AuthSession := ⟨7, 1, ['#', 's'], ['#', 'c'], 0, 0, seconds 86400, none, none, none, none⟩

def post : HttpRequest where
  type := "http".toList
  method := "POST".toList
  path := "/app/api/items".toList
  rootPath := "/app".toList
  urlPath := "/app/api/items".toList
  cookies name := if name = csrfCookieName then some ['c'] else some ['s']
  csrfTokenHeader := some ['c']
  userAgentHeader := none
  forwarded := ⟨none, []⟩

def store : Store := { Store.empty with users := [ann], sessions := [session] }

def env : Env := ⟨seconds 5, [], 10, 0, 0, 0⟩

/-- The context of an answer of the handler. -/
def answered : Except AuthError (HttpAnswer (Option AuthenticatedSessionContext)) → Option AuthenticatedSessionContext
  | .ok (.app context) => context
  | _ => none

end ProtectedPost

open ProtectedPost in
/-- A post behind a root path, with the token of its session. -/
theorem csrf_protected_post : ∃ failed context db',
    Runs 0 (csrfMiddleware addresses settings post (requireCurrentSession addresses settings post)) (atRest Γ₃ store env) failed
      (.ok (.app (some context))) db' ∧ Carries Γ₃ post context.session := by
  have hchecked : IsChecked Γ₃ settings post := by
    have hroute : post.routePath = "/api/items".toList := by decide +kernel
    refine ⟨rfl, by decide +kernel, Or.inr ?_, ?_⟩
    · rw [hroute]
      decide +kernel
    · rw [hroute]
      decide +kernel
  have hrun : ((Serial.run 0 (csrfMiddleware addresses settings post (requireCurrentSession addresses settings post))
      (atRest Γ₃ store env)).bind fun x => answered x.1).isSome = true := by decide +kernel
  obtain ⟨context, hcontext⟩ := Option.isSome_iff_exists.1 hrun
  obtain ⟨⟨r, db'⟩, hrun, hr⟩ := Option.bind_eq_some_iff.1 hcontext
  rcases r with e | response | found
  · cases hr
  · cases hr
  · obtain rfl : found = some context := hr
    exact ⟨_, context, db', runs_of_run hrun, ((csrf_protected hchecked store env 0).1 _ context db' (runs_of_run hrun)).1⟩

end AuthService
