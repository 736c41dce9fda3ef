import AuthService.Interleavings

/-!
# Logins against changes of credentials

A login reads the user and verifies the password before the transaction that creates the session. An administrator's change of
the password, or a deactivation, can commit in between. It revokes the sessions that are there, and the login then creates one
on the old credentials. The change wins in the runs in which each login's update of the user finds the credentials still
accepted.
-/

namespace AuthService

open ReadCommitted RelyGuarantee

variable {Γ : Ctx}

/-- The user may sign in with the password. -/
def Accepts (Γ : Ctx) (password : Text) (user : User) : Prop :=
  user.isActive = true ∧ ∃ hash, user.passwordHash = some hash ∧ Γ.verifyPassword password hash = true

/-- The operation is a login with the password. -/
def Op.logsInWith : Op → Text → Prop
  | .login _ password .., p => p = password
  | _, _ => False

/-- Logins, changes of users by administrators, and requests that neither sign in nor change users. -/
def Op.KeepsCredentials : Op → Prop
  | .login .. | .adminUpdateUser .. | .authenticateSession .. | .issueCsrfToken _ | .validateSessionCsrf .. | .logout .. => True
  | _ => False

/-- A login with the password created the session, in the run or before it. -/
def CreatedWith (ops : Nat → Op) (before : Uuid → Text → Prop) (db : Db (database Γ)) (session : Uuid) (password : Text) : Prop :=
  before session password ∨
    ∃ i row, (ops i).logsInWith password ∧ (i, Write.insertSession row) ∈ db.journal ∧ row.id = session

/-- Every unrevoked session was created by a login whose password the user of the session accepts. -/
def Authorised (ops : Nat → Op) (before : Uuid → Text → Prop) (db : Db (database Γ)) : Prop :=
  ∀ s ∈ db.store.sessions, s.revokedAt = none → ∀ user ∈ db.store.users, user.id = s.userId →
    ∃ password, CreatedWith ops before db s.id password ∧ Accepts Γ password user

/-- When a login updates its user (`record_user_login`), the stored row accepts the password of the login. -/
def StillAccepted (ops : Nat → Op) (i : Nat) (a : Act (database Γ)) (db : Db (database Γ)) : Prop :=
  ∀ password, (ops i).logsInWith password → ∀ id patch found, a = .finish (.patchUser id patch) found →
    ∀ user ∈ db.store.users, user.id = id → Accepts Γ password user

variable (Γ) in
/-- Runs in which every login's update of its user finds the credentials still accepted. -/
abbrev ReachesAccepted (ops : Nat → Op) : Configuration Γ → Configuration Γ → Prop :=
  RelyGuarantee.Reaches ((system (database Γ)).restrict (StillAccepted ops))

namespace CredentialAux

/-! ## Writes -/

/-- The patch changes the password or deactivates the user. -/
def Harmful (patch : UserPatch) : Prop := patch.passwordHash ≠ none ∨ patch.isActive = some false

/-- The write adds no user, removes no session and revives none. -/
def Tame : Write → Prop
  | .insertUser _ => False
  | .deleteSession _ => False
  | .patchSession _ patch => patch.revokedAt ≠ some none
  | _ => True

/-- The unrevoked sessions of the user. -/
def openKeys (u : Uuid) (S : Store) : List Key := (Stmt.revokeSessionsForUser u 0).rows S

/-- The keys of the unrevoked sessions of a user. -/
theorem mem_openKeys {u : Uuid} {S : Store} {k : Key} :
    k ∈ openKeys u S ↔ ∃ s ∈ S.sessions, s.userId = u ∧ s.revokedAt = none ∧ k = .session s.id := by
  constructor
  · intro hk
    obtain ⟨s, hs, rfl⟩ := List.mem_map.1 hk
    obtain ⟨hs, hcond⟩ := List.mem_filter.1 hs
    simp only [Bool.and_eq_true, decide_eq_true_eq, Option.isNone_iff_eq_none] at hcond
    exact ⟨s, hs, hcond.1, hcond.2, rfl⟩
  · rintro ⟨s, hs, hu, hr, rfl⟩
    exact List.mem_map.2 ⟨s, List.mem_filter.2 ⟨hs, by simp [hu, hr]⟩, rfl⟩

/-- An unrevoked session after a write is one from before it that the write does not revoke, or the one it inserts. -/
theorem mem_sessions_apply {w : Write} (h : Tame w) {S : Store} {s : AuthSession} (hs : s ∈ (w.apply S).sessions)
    (hr : s.revokedAt = none) :
    (∃ s0 ∈ S.sessions, s0.id = s.id ∧ s0.userId = s.userId ∧ s0.revokedAt = none ∧
      ∀ patch, w = .patchSession s.id patch → patch.revokedAt = none) ∨ w = .insertSession s := by
  cases w with
  | insertSession row =>
    rcases List.mem_append.1 hs with hs | hs
    · exact Or.inl ⟨s, hs, rfl, rfl, hr, nofun⟩
    · exact Or.inr (by rw [List.mem_singleton.1 hs])
  | patchSession id patch =>
    simp only [Write.apply, modifyAt, decide_eq_true_eq, List.mem_map] at hs
    obtain ⟨s0, hs0, rfl⟩ := hs
    refine Or.inl ⟨s0, hs0, ?_, ?_, ?_, ?_⟩
    · split <;> rfl
    · split <;> rfl
    · split at hr
      · rcases hp : patch.revokedAt with _ | _ | t
        · simpa [AuthSession.patch, hp] using hr
        · exact absurd hp h
        · simp [AuthSession.patch, hp] at hr
      · exact hr
    · rintro patch' he
      obtain ⟨hid, rfl⟩ := Write.patchSession.inj he
      rcases hp : patch.revokedAt with _ | _ | t
      · rfl
      · exact absurd hp h
      · split at hr
        · simp [AuthSession.patch, hp] at hr
        · rename_i hne
          rw [if_neg hne] at hid
          exact absurd hid.symm hne
  | deleteSession id => cases h
  | insertUser row => cases h
  | _ => exact Or.inl ⟨s, hs, rfl, rfl, hr, nofun⟩

/-- A tame write keeps fewer sessions fewer. -/
theorem openKeys_apply_mono {u : Uuid} {S S' : Store} {w : Write} (hw : Tame w) (h : openKeys u S' ⊆ openKeys u S) :
    openKeys u (w.apply S') ⊆ openKeys u (w.apply S) := by
  intro k hk
  obtain ⟨s, hs, hu, hr, rfl⟩ := mem_openKeys.1 hk
  rcases mem_sessions_apply hw hs hr with ⟨s0, hs0, hid, hu0, hr0, hpatch⟩ | rfl
  · obtain ⟨t, ht, htu, htr, hk⟩ := mem_openKeys.1 (h (mem_openKeys.2 ⟨s0, hs0, hu0.trans hu, hr0, rfl⟩))
    have htid : t.id = s.id := (Key.session.inj hk).symm.trans hid
    refine mem_openKeys.2 ?_
    cases w with
    | insertSession row => exact ⟨t, List.mem_append_left _ ht, htu, htr, by rw [htid]⟩
    | patchSession id patch =>
      refine ⟨if t.id = id then t.patch patch else t, ?_, ?_, ?_, ?_⟩
      · simp only [Write.apply, modifyAt, decide_eq_true_eq, List.mem_map]
        exact ⟨t, ht, rfl⟩
      · split <;> exact htu
      · split
        · rename_i hid'
          have hp := hpatch patch (by rw [← htid, hid'])
          simpa [AuthSession.patch, hp] using htr
        · exact htr
      · split <;> exact congrArg Key.session htid.symm
    | deleteSession id => cases hw
    | insertUser row => cases hw
    | _ => exact ⟨t, ht, htu, htr, by rw [htid]⟩
  · exact mem_openKeys.2 ⟨s, List.mem_append_right _ (List.mem_singleton_self _), hu, hr, rfl⟩

/-- A tame write that inserts no session of the user opens none. -/
theorem openKeys_apply {u : Uuid} {w : Write} (hw : Tame w) (hno : ∀ row, w = .insertSession row → row.userId ≠ u) (S : Store) :
    openKeys u (w.apply S) ⊆ openKeys u S := by
  intro k hk
  obtain ⟨s, hs, hu, hr, rfl⟩ := mem_openKeys.1 hk
  rcases mem_sessions_apply hw hs hr with ⟨s0, hs0, hid, hu0, hr0, -⟩ | rfl
  · exact mem_openKeys.2 ⟨s0, hs0, hu0.trans hu, hr0, by rw [hid]⟩
  · exact absurd hu (hno s rfl)

/-- Tame writes keep fewer sessions fewer. -/
theorem openKeys_applyAll_mono {u : Uuid} {S S' : Store} {ws : List Write} (hw : ∀ w ∈ ws, Tame w)
    (h : openKeys u S' ⊆ openKeys u S) :
    openKeys u (applyAll (D := database Γ) ws S') ⊆ openKeys u (applyAll (D := database Γ) ws S) := by
  induction ws generalizing S S' with
  | nil => exact h
  | cons w ws ih =>
    exact ih (fun w' hw' => hw w' (List.mem_cons_of_mem _ hw')) (openKeys_apply_mono (hw w List.mem_cons_self) h)

/-- Tame writes that insert no session of the user open none. -/
theorem openKeys_applyAll {u : Uuid} {ws : List Write} (hw : ∀ w ∈ ws, Tame w)
    (hno : ∀ row, Write.insertSession row ∈ ws → row.userId ≠ u) (S : Store) :
    openKeys u (applyAll (D := database Γ) ws S) ⊆ openKeys u S :=
  applyAll_induct (D := database Γ) (P := fun S' => openKeys u S' ⊆ openKeys u S) (List.Subset.refl _) fun w hmem S' hS' =>
    List.Subset.trans (openKeys_apply (hw w hmem) (fun row hrow => hno row (hrow ▸ hmem)) S') hS'

/-- An unrevoked session after some writes was there before, and none of them revokes it, or one of them inserted it. -/
theorem mem_sessions_applyAll {ws : List Write} (hw : ∀ w ∈ ws, Tame w) {S : Store} {s : AuthSession}
    (hs : s ∈ (applyAll (D := database Γ) ws S).sessions) (hr : s.revokedAt = none) :
    (∃ s0 ∈ S.sessions, s0.id = s.id ∧ s0.userId = s.userId ∧ s0.revokedAt = none ∧
      ∀ patch, Write.patchSession s.id patch ∈ ws → patch.revokedAt = none) ∨
      ∃ row, Write.insertSession row ∈ ws ∧ row.id = s.id ∧ row.userId = s.userId := by
  induction ws generalizing S with
  | nil => exact Or.inl ⟨s, hs, rfl, rfl, hr, fun _ hno => absurd hno List.not_mem_nil⟩
  | cons w ws ih =>
    rcases ih (fun w' hw' => hw w' (List.mem_cons_of_mem _ hw')) hs with ⟨s1, hs1, hid, hu, hr1, hpatch⟩ | ⟨row, hrow, hid, hu⟩
    · rcases mem_sessions_apply (hw w List.mem_cons_self) hs1 hr1 with ⟨s0, hs0, hid0, hu0, hr0, hpatch0⟩ | rfl
      · refine Or.inl ⟨s0, hs0, hid0.trans hid, hu0.trans hu, hr0, fun patch hmem => ?_⟩
        rcases List.mem_cons.1 hmem with heq | hmem
        · exact hpatch0 patch (by rw [← heq, hid])
        · exact hpatch patch hmem
      · exact Or.inr ⟨s1, List.mem_cons_self, hid, hu⟩
    · exact Or.inr ⟨row, List.mem_cons_of_mem _ hrow, hid, hu⟩

/-- A patch that is not harmful leaves the password accepted. -/
theorem accepts_patch {password : Text} {user : User} {patch : UserPatch} (hp : ¬Harmful patch) (h : Accepts Γ password user) :
    Accepts Γ password (user.patch patch) := by
  have hhash : patch.passwordHash = none := not_not.1 fun hno => hp (Or.inl hno)
  refine ⟨?_, ?_⟩
  · have hactive : patch.isActive ≠ some false := fun hno => hp (Or.inr hno)
    rcases ha : patch.isActive with _ | _ | _
    · simpa [User.patch, ha] using h.1
    · exact absurd ha hactive
    · simp [User.patch, ha]
  · simpa [User.patch, hhash] using h.2

/-- A user after some writes was there before. Without a harmful patch it accepts what it accepted. -/
theorem mem_users_applyAll {ws : List Write} (hw : ∀ w ∈ ws, Tame w) {S : Store} {user : User}
    (hu : user ∈ (applyAll (D := database Γ) ws S).users) :
    ∃ old ∈ S.users, old.id = user.id ∧
      ((∀ patch, Write.patchUser user.id patch ∈ ws → ¬Harmful patch) →
        ∀ password, Accepts Γ password old → Accepts Γ password user) ∧
      ((∀ patch, Write.patchUser user.id patch ∉ ws) → old = user) := by
  induction ws generalizing S with
  | nil => exact ⟨user, hu, rfl, fun _ _ h => h, fun _ => rfl⟩
  | cons w ws ih =>
    obtain ⟨mid, hmid, hid, hacc, hsame⟩ := ih (fun w' hw' => hw w' (List.mem_cons_of_mem _ hw')) hu
    have htame := hw w List.mem_cons_self
    cases w with
    | insertUser row => cases htame
    | patchUser id patch =>
      have hmid : mid ∈ (Write.apply (.patchUser id patch) S).users := hmid
      simp only [Write.apply, modifyAt, decide_eq_true_eq, List.mem_map] at hmid
      obtain ⟨old, hold, heq⟩ := hmid
      have holdid : old.id = user.id := by
        rw [← hid, ← heq]
        split <;> rfl
      refine ⟨old, hold, holdid, fun hno password h => hacc (fun p hp => hno p (List.mem_cons_of_mem _ hp)) password ?_,
        fun hno => ?_⟩
      · rw [← heq]
        split
        · rename_i hid'
          refine accepts_patch (hno patch ?_) h
          rw [← holdid, hid']
          exact List.mem_cons_self
        · exact h
      · rw [← hsame fun p hp => hno p (List.mem_cons_of_mem _ hp), ← heq, if_neg]
        intro hid'
        refine hno patch ?_
        rw [← holdid, hid']
        exact List.mem_cons_self
    | _ =>
      exact ⟨mid, hmid, hid, fun hno => hacc fun p hp => hno p (List.mem_cons_of_mem _ hp),
        fun hno => hsame fun p hp => hno p (List.mem_cons_of_mem _ hp)⟩

/-! ## What the threads keep -/

variable {ops : Nat → Op} {before : Uuid → Text → Prop}

/-- A thread that has inserted a session is a login that holds the lock of its user, and the user accepts the password. -/
def Pending (ops : Nat → Op) (i : Nat) (db : Db (database Γ)) : Prop :=
  ∀ row, Write.insertSession row ∈ db.log i → ∃ password, (ops i).logsInWith password ∧
    db.owner (.user row.userId) = some i ∧ ∀ user ∈ db.store.users, user.id = row.userId → Accepts Γ password user

/-- A thread that changes the credentials of a user has revoked the user's sessions. -/
def Ready (i : Nat) (db : Db (database Γ)) : Prop :=
  ∀ u patch, Write.patchUser u patch ∈ db.log i → Harmful patch → openKeys u (db.view i) = []

variable (ops before) in
structure Inv (db : Db (database Γ)) : Prop where
  guarded : Guarded db
  tame : ∀ i, ∀ w ∈ db.log i, Tame w
  pending : ∀ i, Pending ops i db
  authorised : Authorised ops before db

/-- What thread `i` relies on: a user whose lock it holds stays as it is and gets no sessions. -/
structure Rely (i : Nat) (db db' : Db (database Γ)) : Prop where
  frame : Frame i db db'
  users : ∀ u, db.owner (.user u) = some i → ∀ user ∈ db'.store.users, user.id = u → user ∈ db.store.users
  keys : ∀ u, db.owner (.user u) = some i → openKeys u db'.store ⊆ openKeys u db.store

/-- Nothing has happened yet. -/
theorem Rely.refl (i : Nat) (db : Db (database Γ)) : Rely i db db :=
  ⟨Frame.refl i db, fun _ _ _ h _ => h, fun _ _ => List.Subset.refl _⟩

/-- One period after another. -/
theorem Rely.trans {i : Nat} {db db' db'' : Db (database Γ)} (h : Rely i db db') (h' : Rely i db' db'') : Rely i db db'' := by
  refine ⟨h.frame.trans h'.frame, fun u hown user huser hid => ?_, fun u hown => ?_⟩
  · exact h.users u hown user (h'.users u ((h.frame.owner _).2 hown) user huser hid) hid
  · exact List.Subset.trans (h'.keys u ((h.frame.owner _).2 hown)) (h.keys u hown)

/-- The session that is pending stays authorised while its thread holds the lock of the user. -/
theorem Pending.rely {i : Nat} {db db' : Db (database Γ)} (h : Pending ops i db) (hr : Rely i db db') : Pending ops i db' := by
  intro row hrow
  rw [hr.frame.log] at hrow
  obtain ⟨password, hop, hown, hacc⟩ := h row hrow
  exact ⟨password, hop, (hr.frame.owner _).2 hown, fun user huser hid => hacc user (hr.users _ hown user huser hid) hid⟩

/-- A commit that is ready keeps every unrevoked session authorised. -/
theorem authorised_commit {db db' : Db (database Γ)} (h : Inv ops before db) {j : Nat} (hready : Ready j db)
    (hstore : db'.store = db.view j) (hjournal : db'.journal = db.journal ++ (db.log j).map fun w => (j, w)) :
    Authorised ops before db' := by
  intro s hs hr user huser hid
  rw [hstore] at hs huser
  obtain ⟨old, hold, holdid, hacc, -⟩ := mem_users_applyAll (h.tame j) huser
  -- the session is unrevoked, so the commit changes no credentials of its user
  have hharmless : ∀ patch, Write.patchUser user.id patch ∈ db.log j → ¬Harmful patch := by
    intro patch hpatch hharm
    have hnil := hready user.id patch hpatch hharm
    have hmem := mem_openKeys.2 ⟨s, hs, hid.symm, hr, rfl⟩
    rw [hnil] at hmem
    exact absurd hmem List.not_mem_nil
  rcases mem_sessions_applyAll (h.tame j) hs hr with ⟨s0, hs0, hid0, hu0, hr0, -⟩ | ⟨row, hrow, hrowid, hrowu⟩
  · obtain ⟨password, hcreated, haccepts⟩ := h.authorised s0 hs0 hr0 old hold (by rw [holdid, hid, hu0])
    refine ⟨password, ?_, hacc hharmless password haccepts⟩
    rw [hid0] at hcreated
    refine hcreated.imp_right fun ⟨i, row, hop, hmem, hrow⟩ => ⟨i, row, hop, ?_, hrow⟩
    rw [hjournal]
    exact List.mem_append_left _ hmem
  · obtain ⟨password, hop, -, haccepts⟩ := h.pending j row hrow
    refine ⟨password, Or.inr ⟨j, row, hop, ?_, hrowid⟩, hacc hharmless password (haccepts old hold (by rw [holdid, hid, hrowu]))⟩
    rw [hjournal]
    exact List.mem_append_right _ (List.mem_map.2 ⟨_, hrow, rfl⟩)

/-- Every action keeps the invariant and what the others rely on, if its own transaction stays in order. -/
theorem inv_effect {db db' : Db (database Γ)} (h : Inv ops before db) {j : Nat} {a : Act (database Γ)}
    {r : Except AuthError (Result (database Γ) a)} (he : Effect j db a r db')
    (htame : ∀ ws, Writes j db a ws → ∀ w ∈ ws, Tame w) (hpending : Pending ops j db') (hready : a = .commit → Ready j db) :
    Inv ops before db' ∧ ∀ i, i ≠ j → Rely i db db' := by
  have hg := h.guarded.effect he
  have hrely : ∀ i, i ≠ j → Rely i db db' := by
    intro i hij
    have hframe := Frame.effect hij h.guarded he
    have hquiet : db'.store = db.store → Rely i db db' :=
      fun hstore => ⟨hframe, fun _ _ _ hu _ => hstore ▸ hu, fun _ _ => hstore ▸ List.Subset.refl _⟩
    rcases he.evolves with ⟨_, _, hstore, -, -⟩ | ⟨hstore, -, -⟩ | ⟨-, hstore, -, -⟩
    · exact hquiet hstore
    · exact hquiet hstore
    · refine ⟨hframe, fun u hown user huser hid => ?_, fun u hown => ?_⟩
      · rw [hstore] at huser
        obtain ⟨old, hold, -, -, hsame⟩ := mem_users_applyAll (h.tame j) huser
        rw [← hsame fun patch hpatch => ?_]
        · exact hold
        · have hkey := h.guarded j _ hpatch (.user user.id) List.mem_cons_self
          rw [hid, hown] at hkey
          exact hij (Option.some.inj hkey)
      · rw [hstore]
        refine openKeys_applyAll (h.tame j) (fun row hrow hu => ?_) _
        obtain ⟨_, -, hkey, -⟩ := h.pending j row hrow
        rw [hu, hown] at hkey
        exact hij (Option.some.inj hkey)
  have htames : ∀ i, ∀ w ∈ db'.log i, Tame w := by
    intro i w hw
    by_cases hij : i = j
    · subst hij
      rcases he.mem_log hw with hw | ⟨ws, hws, hw⟩
      · exact h.tame i w hw
      · exact htame ws hws w hw
    · rw [(hrely i hij).frame.log] at hw
      exact h.tame i w hw
  have hpendings : ∀ i, Pending ops i db' := by
    intro i
    by_cases hij : i = j
    · exact hij ▸ hpending
    · exact (h.pending i).rely (hrely i hij)
  refine ⟨⟨hg, htames, hpendings, ?_⟩, hrely⟩
  have hquiet : db'.store = db.store → db'.journal = db.journal → Authorised ops before db' := by
    intro hstore hjournal s hs hr user huser hid
    rw [hstore] at hs huser
    have hcreated := h.authorised s hs hr user huser hid
    simpa only [CreatedWith, hjournal] using hcreated
  rcases he.evolves with ⟨_, _, hstore, hjournal, -⟩ | ⟨hstore, hjournal, -⟩ | ⟨ha, hstore, hjournal, -⟩
  · exact hquiet hstore hjournal
  · exact hquiet hstore hjournal
  · exact authorised_commit h (hready ha) hstore hjournal

variable (Γ ops before) in
def contract : Contract ((system (database Γ)).restrict (StillAccepted ops)) where
  inv := Inv ops before
  rely := Rely
  guar j db db' := ∀ i, i ≠ j → Rely i db db'
  rely_refl := Rely.refl
  rely_trans := Rely.trans
  guar_rely hij _ _ hg := hg _ hij
  drift_inv := by
    rintro db _ h ⟨n, rfl⟩
    exact ⟨h.guarded, h.tame, h.pending, h.authorised⟩
  drift_rely := by
    rintro i db _ _ ⟨n, rfl⟩
    exact ⟨Frame.drift ⟨n, rfl⟩, fun _ _ _ h _ => h, fun _ _ => List.Subset.refl _⟩

/-! ## Threads that change no credentials and insert no sessions -/

/-- The kinds that leave credentials alone and add no sessions and no users. -/
def quiet : Set Kind := { k | k ≠ .rogue ∧ k ≠ .userInsert ∧ k ≠ .userCredential ∧ k ≠ .sessionPrune ∧ ∀ u, k ≠ .sessionInsert u }

/-- What a write of a kind does. -/
structure Mild (k : Kind) (w : Write) : Prop where
  tame : k ≠ .userInsert → k ≠ .sessionPrune → Tame w
  patch : k ≠ .userCredential → ∀ u patch, w = .patchUser u patch → ¬Harmful patch
  insert : ∀ row, w = .insertSession row → k = .sessionInsert row.userId

/-- The change of a statement is mild. -/
theorem mild_change {s : Stmt} (hs : s.kind ≠ .rogue) {key : Key} {w : Write} (hw : s.change key = some w) : Mild s.kind w := by
  refine ⟨fun hi hp => ?_, fun hc u patch he => ?_, fun row he => ?_⟩
  · cases s <;> cases key <;> simp only [Stmt.change, Option.some.injEq, reduceCtorEq] at hw <;> subst hw
    case patchSession.session id patch _ =>
      rcases SessionPatch.kind_cases hs with ⟨-, _, rfl⟩ | ⟨-, _, _, rfl⟩ | ⟨-, _, rfl⟩ | ⟨-, _, rfl⟩ <;> simp [Tame]
    case deleteSessionsExpiredBefore.session => exact absurd rfl hp
    case revokeSessionsForUser.session => simp [Tame]
    all_goals trivial
  · subst he
    cases s <;> cases key <;> simp only [Stmt.change, Option.some.injEq, reduceCtorEq, Write.patchUser.injEq] at hw
    case patchUser.user id patch' _ =>
      obtain ⟨-, rfl⟩ := hw
      simp only [Stmt.kind, UserPatch.kind] at hs hc
      rintro (hhash | hactive)
      · split at hs
        · exact hs rfl
        · rw [if_neg ‹_›, if_neg fun hno => hhash hno.1] at hc
          exact hc rfl
      · split at hs
        · exact hs rfl
        · rw [if_neg ‹_›, if_neg fun hno => by rw [hno.2] at hactive; cases hactive] at hc
          exact hc rfl
    case markUserDeleted.user =>
      obtain ⟨-, rfl⟩ := hw
      simp [Harmful]
    case modifyUser.user =>
      obtain ⟨-, rfl⟩ := hw
      simp [Harmful]
  · subst he
    cases s <;> cases key <;> simp only [Stmt.change, Option.some.injEq, reduceCtorEq] at hw

/-- An insert is mild. -/
theorem mild_insert {w : Write} (hw : w.kind ≠ .rogue) : Mild w.kind w := by
  cases w with
  | insertUser row =>
    refine ⟨fun hi => absurd ?_ hi, by simp, by simp⟩
    by_contra hd
    simp only [Write.kind] at hw hd
    split at hd
    · exact hd rfl
    · rename_i hno
      exact hw (if_neg hno)
  | insertSession row =>
    refine ⟨fun _ _ => trivial, by simp, fun row' he => ?_⟩
    obtain rfl := Write.insertSession.inj he
    simp only [Write.kind] at hw ⊢
    split
    · rfl
    · rename_i hno
      exact absurd (if_neg hno) hw
  | patchUser => exact absurd rfl hw
  | patchSession => exact absurd rfl hw
  | deleteSession => exact absurd rfl hw
  | _ => exact ⟨fun _ _ => trivial, by simp, by simp⟩

/-- The writes of an action are mild. -/
theorem writes_mild {i : Nat} {db : Db (database Γ)} {a : Act (database Γ)} {ws : List Write} (h : Writes i db a ws)
    (ha : kind a ≠ .rogue) : ∀ w ∈ ws, Mild (kind a) w := by
  intro w hw
  cases h with
  | none => exact absurd hw List.not_mem_nil
  | insert v _ _ =>
    rw [List.mem_singleton.1 hw]
    exact mild_insert ha
  | finish s found _ =>
    obtain ⟨k, -, hk⟩ := List.mem_filterMap.1 hw
    exact mild_change ha hk

/-- A new write of the acting thread is mild. -/
theorem mild_log {i : Nat} {db db' : Db (database Γ)} {a : Act (database Γ)} {r : Except AuthError (Result (database Γ) a)}
    (he : Effect i db a r db') (ha : kind a ≠ .rogue) {w : Write} (hw : w ∈ db'.log i) : w ∈ db.log i ∨ Mild (kind a) w :=
  (he.mem_log hw).imp_right fun ⟨_, hws, hmem⟩ => writes_mild hws ha w hmem

/-- Writes of most kinds are tame. -/
theorem tame_writes {i : Nat} {db : Db (database Γ)} {a : Act (database Γ)} (ha : kind a ≠ .rogue) (hi : kind a ≠ .userInsert)
    (hp : kind a ≠ .sessionPrune) : ∀ ws, Writes i db a ws → ∀ w ∈ ws, Tame w :=
  fun _ hws w hw => (writes_mild hws ha w hw).tame hi hp

/-- Brackets write nothing. -/
theorem tame_bracket {i : Nat} {db : Db (database Γ)} {a : Act (database Γ)} (ha : kind a = .bracket) :
    ∀ ws, Writes i db a ws → ∀ w ∈ ws, Tame w :=
  tame_writes (by simp [ha]) (by simp [ha]) (by simp [ha])

variable {i : Nat}

/-- The transaction of thread `i` changes no credentials. -/
def Harmless (i : Nat) (db : Db (database Γ)) : Prop := ∀ u patch, Write.patchUser u patch ∈ db.log i → ¬Harmful patch

/-- The sessions that the transaction of thread `i` inserts are those of user `u`. -/
def InsertsFor (i : Nat) (us : Set Uuid) (db : Db (database Γ)) : Prop := ∀ row, Write.insertSession row ∈ db.log i → row.userId ∈ us

/-- A transaction that changes no credentials may commit. -/
theorem Harmless.ready {db : Db (database Γ)} (h : Harmless i db) : Ready i db :=
  fun u patch hmem hharm => absurd hharm (h u patch hmem)

/-- A transaction that inserts no sessions has none pending. -/
theorem InsertsFor.pending {db : Db (database Γ)} (h : InsertsFor i ∅ db) : Pending ops i db :=
  fun row hrow => absurd (h row hrow) (Set.notMem_empty _)

/-- The others change no credentials in this transaction. -/
theorem Harmless.rely {db db' : Db (database Γ)} (h : Harmless i db) (hr : Rely i db db') : Harmless i db' := by
  intro u patch hmem
  rw [hr.frame.log] at hmem
  exact h u patch hmem

/-- The others insert no sessions in this transaction. -/
theorem InsertsFor.rely {us : Set Uuid} {db db' : Db (database Γ)} (h : InsertsFor i us db) (hr : Rely i db db') :
    InsertsFor i us db' := by
  intro row hrow
  rw [hr.frame.log] at hrow
  exact h row hrow

/-- An action of another kind changes no credentials. -/
theorem Harmless.effect {db db' : Db (database Γ)} {a : Act (database Γ)} {r : Except AuthError (Result (database Γ) a)}
    (h : Harmless i db) (he : Effect i db a r db') (ha : kind a ≠ .rogue) (hc : kind a ≠ .userCredential) : Harmless i db' :=
  fun u patch hmem => (mild_log he ha hmem).elim (h u patch) fun hm => hm.patch hc u patch rfl

/-- An action inserts sessions of the users that it may. -/
theorem InsertsFor.effect {us : Set Uuid} {db db' : Db (database Γ)} {a : Act (database Γ)}
    {r : Except AuthError (Result (database Γ) a)} (h : InsertsFor i us db) (he : Effect i db a r db') (ha : kind a ≠ .rogue)
    (hs : ∀ u, kind a = .sessionInsert u → u ∈ us) : InsertsFor i us db' :=
  fun row hrow => (mild_log he ha hrow).elim (h row) fun hm => hs _ (hm.insert row rfl)

/-- The thread has done nothing that matters. -/
def Idle (i : Nat) (db : Db (database Γ)) : Prop := Harmless i db ∧ InsertsFor i ∅ db

theorem stable_idle : Stable (contract Γ ops before) i (Idle i) := fun h hr => ⟨h.1.rely hr, h.2.rely hr⟩

/-- What a quiet kind is not. -/
theorem quiet_cases {k : Kind} (h : k = .neutral ∨ k ∈ quiet) :
    k ≠ .rogue ∧ k ≠ .userInsert ∧ k ≠ .userCredential ∧ k ≠ .sessionPrune ∧ ∀ u, k ≠ .sessionInsert u := by
  rcases h with rfl | h
  · exact ⟨nofun, nofun, nofun, nofun, nofun⟩
  · exact h

/-- A quiet action leaves its thread idle. -/
theorem idle_exec {db db' : Db (database Γ)} {a : Act (database Γ)} {r : Except AuthError (Result (database Γ) a)}
    (ha : kind a = .neutral ∨ kind a ∈ quiet) (h : Idle i db) (hinv : Inv ops before db)
    (he : ((system (database Γ)).restrict (StillAccepted ops)).exec i a db r db') :
    Inv ops before db' ∧ (∀ j, j ≠ i → Rely j db db') ∧ Idle i db' := by
  obtain ⟨hr, hi, hc, hp, hs⟩ := quiet_cases ha
  have hidle : Idle i db' := ⟨h.1.effect he.2 hr hc, h.2.effect he.2 hr fun u hu => absurd hu (hs u)⟩
  obtain ⟨hinv', hg⟩ := inv_effect hinv he.2 (tame_writes hr hi hp) hidle.2.pending fun _ => h.1.ready
  exact ⟨hinv', hg, hidle⟩

/-- A quiet program leaves its thread idle. -/
theorem leads_idle {α : Type} {p : Service Γ α} (h : Within quiet p) :
    Leads (contract Γ ops before) i (Idle i) p fun _ => Idle i :=
  triple_conseq (triple_of_emits stable_idle idle_exec h) (fun _ hs => hs) fun _ _ hs _ _ => hs

/-! ## Logins -/

/-- The thread holds the lock of the user, who accepts the password, and the sessions it inserts are the user's. -/
structure Held (i : Nat) (u : Uuid) (password : Text) (db : Db (database Γ)) : Prop where
  harmless : Harmless i db
  inserts : InsertsFor i {u} db
  owner : db.owner (.user u) = some i
  accepts : ∀ user ∈ db.store.users, user.id = u → Accepts Γ password user

/-- The lock of the user is held until the transaction ends. -/
theorem stable_held {u : Uuid} {password : Text} : Stable (contract Γ ops before) i (Held i u password) :=
  fun h hr => ⟨h.harmless.rely hr, h.inserts.rely hr, (hr.frame.owner _).2 h.owner,
    fun user huser hid => h.accepts user (hr.users u h.owner user huser hid) hid⟩

/-- The sessions of a login that holds the lock are pending rightly. -/
theorem Held.pending {u : Uuid} {password : Text} {db : Db (database Γ)} (h : Held i u password db)
    (hop : (ops i).logsInWith password) : Pending ops i db := by
  intro row hrow
  obtain hu : row.userId = u := h.inserts row hrow
  exact ⟨password, hop, hu ▸ h.owner, hu ▸ h.accepts⟩

/-- The kinds of a login's transaction after the update of its user. -/
def issuingFor (u : Uuid) : Set Kind := {.lookup, .sessionRevoke, .sessionInsert u}

/-- An action of a login after the update of its user. -/
theorem held_exec {u : Uuid} {password : Text} (hop : (ops i).logsInWith password) {db db' : Db (database Γ)}
    {a : Act (database Γ)} {r : Except AuthError (Result (database Γ) a)} (ha : kind a = .neutral ∨ kind a ∈ issuingFor u)
    (h : Held i u password db) (hinv : Inv ops before db)
    (he : ((system (database Γ)).restrict (StillAccepted ops)).exec i a db r db') :
    Inv ops before db' ∧ (∀ j, j ≠ i → Rely j db db') ∧ Held i u password db' := by
  have hk : kind a ≠ .rogue ∧ kind a ≠ .userInsert ∧ kind a ≠ .userCredential ∧ kind a ≠ .sessionPrune ∧ kind a ≠ .bracket ∧
      ∀ v, kind a = .sessionInsert v → v = u := by
    rcases ha with ha | ha | ha | (ha : kind a = _) <;> simp [ha, @eq_comm _ u]
  obtain ⟨hrogue, hi, hc, hp, hb, hs⟩ := hk
  have hbracket := isBracket_of_kind hb
  have hheld : Held i u password db' := by
    refine ⟨h.harmless.effect he.2 hrogue hc, h.inserts.effect he.2 hrogue hs, he.2.owner_inside hbracket h.owner, ?_⟩
    rw [(he.2.inside hbracket).1]
    exact h.accepts
  obtain ⟨hinv', hg⟩ := inv_effect hinv he.2 (tame_writes hrogue hi hp) (hheld.pending hop) fun _ => h.harmless.ready
  exact ⟨hinv', hg, hheld⟩

/-- A login after the update of its user. -/
theorem leads_held {u : Uuid} {password : Text} (hop : (ops i).logsInWith password) {α : Type} {p : Service Γ α}
    (h : Within (issuingFor u) p) :
    Leads (contract Γ ops before) i (Held i u password) p fun _ => Held i u password :=
  triple_conseq (triple_of_emits stable_held (held_exec hop) h) (fun _ hs => hs) fun _ _ hs _ _ => hs

/-- The rows of an `UPDATE` of one user. -/
theorem user_mem_stillThere {u : Uuid} {patch : UserPatch} {found : List Key} {db : Db (database Γ)}
    (h : (stillThere db i (.patchUser u patch) found).length = 1) :
    Key.user u ∈ stillThere db i (.patchUser u patch) found := by
  obtain ⟨k, hk⟩ := List.length_eq_one_iff.1 h
  have hmem : k ∈ stillThere db i (.patchUser u patch) found := by
    rw [hk]
    exact List.mem_singleton_self k
  obtain ⟨user, huser, rfl⟩ := List.mem_map.1 (mem_of_mem_stillThere hmem).2
  obtain rfl : user.id = u := of_decide_eq_true (List.mem_filter.1 huser).2
  exact hmem

/-- What a write locks is locked. -/
theorem owner_write_locked {db : Db (database Γ)} {ws : List Write} {locked : List Key} {k : Key} (h : k ∈ locked) :
    (db.write i ws locked).owner k = some i :=
  if_pos (List.mem_append_left _ h)

/-- The update of its user gives a login the lock of a user who accepts the password. -/
theorem leads_loginUpdate {password : Text} (hop : (ops i).logsInWith password) (u : Uuid) (t : DateTime) :
    Leads (contract Γ ops before) i (Idle i) (updateRow (.patchUser u { lastLoggedInAt := some t }))
      fun _ => Held i u password := by
  have hkind : (Stmt.patchUser u { lastLoggedInAt := some t }).kind = .userEdit := rfl
  refine leads_bind (Q := fun (rows : List Key) db => rows.length = 1 → Held i u password db) ?_ fun rows => ?_
  · refine leads_bind (leads_idle (Prog.emits_perform.2 (Or.inr ?_))) fun found => ?_
    · simp [kind, hkind, quiet]
    · refine leads_perform stable_idle (fun rows _ _ h hr hlen => stable_held (h hlen) hr) fun {db r db'} h hinv he => ?_
      obtain ⟨hinv', hg, hidle⟩ := idle_exec (a := .finish (.patchUser u { lastLoggedInAt := some t }) found)
        (Or.inr (by simp [kind, hkind, quiet])) h hinv he
      refine ⟨hinv', hg, fun rows hr hlen => ?_⟩
      have haccepts := he.1 password hop u _ found rfl
      have hinserts : InsertsFor i {u} db' := fun row hrow => absurd (hidle.2 row hrow) (Set.notMem_empty _)
      cases he.2 with
      | finish s found hfree hv =>
        obtain rfl := Except.ok.inj hr
        exact ⟨hidle.1, hinserts, owner_write_locked (user_mem_stillThere hlen), haccepts⟩
      | fault a e => cases hr
  · split
    · rename_i hlen
      exact leads_conseq (leads_pure stable_held fun _ h => h) (fun _ h => h hlen) fun _ _ h => h
    · exact leads_throw _

/-- The user that is read after its update. -/
theorem leads_refreshedUser {P : Db (database Γ) → Prop} (hP : Stable (contract Γ ops before) i P) {u : Uuid}
    (hquery : Leads (contract Γ ops before) i P (query (.userById u) : Service Γ (List User)) fun _ => P) :
    Leads (contract Γ ops before) i P (do refreshed (← (query (.userById u) : Service Γ (List User))) : Service Γ User)
      fun user db => P db ∧ user.id = u := by
  have hread : Leads (contract Γ ops before) i P (query (.userById u) : Service Γ (List User))
      fun (xs : List User) db => P db ∧ ∀ user ∈ xs, user.id = u := by
    intro db hdb s' hr hinv r s'' he
    obtain ⟨hinv', hg, hnext⟩ := hquery db hdb s' hr hinv r s'' he
    refine ⟨hinv', hg, fun s3 hr3 xs hxs => ⟨hnext s3 hr3 xs hxs, fun user huser => ?_⟩⟩
    cases he.2 with
    | query q =>
      obtain rfl := Except.ok.inj hxs
      exact of_decide_eq_true (List.mem_filter.1 huser).2
    | fault a e => cases hxs
  refine leads_bind hread fun xs => ?_
  rcases xs with _ | ⟨x, _ | ⟨y, ys⟩⟩
  · exact leads_throw _
  · exact leads_pure (fun h hr => ⟨hP h.1 hr, h.2⟩) fun _ h => ⟨h.1, h.2 x List.mem_cons_self⟩
  · exact leads_throw _

/-- `record_user_login` takes the lock of the user, who still accepts the password. -/
theorem leads_recordUserLogin {password : Text} (hop : (ops i).logsInWith password) (u : Uuid) (t : DateTime) :
    Leads (contract Γ ops before) i (Idle i) (recordUserLogin none u t)
      fun user db => Held i u password db ∧ user.id = u := by
  refine leads_bind (leads_idle (within_getUserById none u)) fun found => ?_
  cases found with
  | none => exact leads_throw _
  | some user =>
    exact leads_bind (leads_idle (within_require _ _)) fun _ => leads_bind (leads_loginUpdate hop u t) fun _ =>
      leads_refreshedUser stable_held (leads_held hop (within_query rfl))

/-- A transaction that is ready leaves its thread idle. -/
theorem leads_commit {P : Db (database Γ) → Prop} (hP : Stable (contract Γ ops before) i P)
    (hready : ∀ db, P db → Ready i db) :
    Leads (contract Γ ops before) i P (commit : Service Γ Unit) fun _ => Idle i := by
  refine leads_perform hP (fun _ => stable_idle) fun {db r db'} h hinv he => ?_
  have hidle : Idle i db' := by
    constructor
    all_goals
      cases he.2 with
      | commit => intro; simp
      | fault a e => intro; simp [Db.abort]
  obtain ⟨hinv', hg⟩ := inv_effect hinv he.2 (tame_bracket rfl) hidle.2.pending fun _ => hready db h
  exact ⟨hinv', hg, fun _ _ => hidle⟩

/-- After an error of the body only the rollback is left. -/
theorem leads_rollback : Leads (contract Γ ops before) i (fun _ => True) (rollback : Service Γ Unit) fun _ _ => True := by
  refine leads_perform (fun _ _ => trivial) (fun _ _ _ _ _ => trivial) fun {db r db'} _ hinv he => ?_
  have hlog : InsertsFor i ∅ db' := by
    cases he.2 with
    | rollback => intro; simp
    | fault a e => intro; simp [Db.abort]
  obtain ⟨hinv', hg⟩ := inv_effect hinv he.2 (tame_bracket rfl) hlog.pending fun hc => by cases hc
  exact ⟨hinv', hg, fun _ _ => trivial⟩

/-- A transaction that is ready at its end leaves its thread idle. -/
theorem leads_idleTransaction {α : Type} {body : Service Γ α} {Q : α → Db (database Γ) → Prop}
    (hbody : Leads (contract Γ ops before) i (Idle i) body Q) (hQ : ∀ a, Stable (contract Γ ops before) i (Q a))
    (hready : ∀ a db, Q a db → Ready i db) :
    Leads (contract Γ ops before) i (Idle i) (transaction body) fun _ => Idle i :=
  leads_transaction (leads_idle (within_begin (by simp [quiet]))) hbody (fun a => leads_commit (hQ a) (hready a))
    (fun _ => stable_idle) leads_rollback

/-- A login keeps the contract. -/
theorem leads_login {password : Text} {email : Text} {token ip agent : Option Text}
    (hop : (ops i).logsInWith password) :
    Leads (contract Γ ops before) i (Idle i) (login email password token ip agent) fun _ => Idle i := by
  have hq : ∀ k : Kind, k = .bracket → k ∈ quiet := by
    rintro _ rfl
    simp [quiet]
  refine leads_bind (leads_idle (within_limiter _)) fun allowed => leads_bind (leads_idle (within_require _ _)) fun _ =>
    leads_bind (leads_idle (within_findUserByEmail _)) fun user => leads_bind (leads_idle (within_call rfl)) fun (ok : Bool) => ?_
  cases acceptedUser user ok with
  | none =>
    exact leads_bind (leads_idle (within_limiter _)) fun _ =>
      leads_bind (leads_idle (within_createAuditLog (Or.inr (hq _ rfl)) (by simp))) fun _ => leads_throw _
  | some user =>
    refine leads_bind (Q := fun _ => Idle i) ?_ fun issued => ?_
    · refine leads_idleTransaction (Q := fun _ => Held i user.id password)
        (leads_bind (leads_idle within_utcnow) fun loginAt => leads_bind (leads_recordUserLogin hop user.id loginAt) fun u => ?_)
        (fun _ => stable_held) fun _ _ h => h.harmless.ready
      intro db hdb
      obtain ⟨hheld, hid⟩ := hdb
      refine leads_bind (leads_held hop ?_) (fun _ => leads_bind (leads_held hop ?_) fun _ => ?_) db hheld
      · exact within_replaceAuthSession (by simp [issuingFor]) (by simp [issuingFor]) (by simp [issuingFor, hid])
      · exact within_createAuditLog (Or.inl rfl) (by simp)
      · exact leads_pure stable_held fun _ h => h
    · exact leads_bind (leads_idle (within_limiter _)) fun _ =>
        leads_bind (leads_idle (within_authorizationForExistingUser _)) fun _ => leads_pure stable_idle fun _ h => h

/-! ## Changes of users by administrators -/

/-- The transaction has locked the user and changes the credentials of no other; it inserts no sessions. -/
structure Changing (i : Nat) (u : Uuid) (revokes : Bool) (db : Db (database Γ)) : Prop where
  tame : ∀ w ∈ db.log i, Tame w
  inserts : InsertsFor i ∅ db
  owner : db.owner (.user u) = some i
  only : ∀ v patch, Write.patchUser v patch ∈ db.log i → Harmful patch → v = u ∧ revokes = true

/-- As `Changing`, and the sessions of the user that have to be revoked are among those found. -/
def Finding (i : Nat) (u : Uuid) (revokes : Bool) (found : List Key) (db : Db (database Γ)) : Prop :=
  Changing i u revokes db ∧ (revokes = true → openKeys u (db.view i) ⊆ found)

variable {u : Uuid} {revokes : Bool}

/-- The lock of the user stays with the transaction that changes it. -/
theorem stable_changing : Stable (contract Γ ops before) i (Changing i u revokes) := by
  intro db db' h hr
  refine ⟨?_, h.inserts.rely hr, (hr.frame.owner _).2 h.owner, ?_⟩
  · rw [hr.frame.log]
    exact h.tame
  · rw [hr.frame.log]
    exact h.only

/-- The sessions that are found are those that may be open. -/
theorem stable_finding (found : List Key) : Stable (contract Γ ops before) i (Finding i u revokes found) := by
  intro db db' h hr
  refine ⟨stable_changing h.1 hr, fun hrevokes => ?_⟩
  rw [Db.view, hr.frame.log]
  exact List.Subset.trans (openKeys_applyAll_mono h.1.tame (hr.keys u h.1.owner)) (h.2 hrevokes)

/-- The sessions of the user are revoked, if they have to be. -/
abbrev Settled (i : Nat) (u : Uuid) (revokes : Bool) : Db (database Γ) → Prop := Finding i u revokes []

/-- When the sessions are revoked the change may commit. -/
theorem Settled.ready {db : Db (database Γ)} (h : Settled i u revokes db) : Ready i db := by
  intro v patch hmem hharm
  obtain ⟨rfl, hrevokes⟩ := h.1.only v patch hmem hharm
  exact List.eq_nil_of_subset_nil (h.2 hrevokes)

/-- The kinds of an administrator's transaction after the update of the user. -/
def aftermath : Set Kind := { k | k = .userEdit ∨ k = .sessionRevoke ∨ ∃ u, k = .owned u }

/-- What a kind after the update of the user is not. -/
theorem aftermath_cases {k : Kind} (h : k = .neutral ∨ k ∈ aftermath) :
    k ≠ .rogue ∧ k ≠ .userInsert ∧ k ≠ .userCredential ∧ k ≠ .sessionPrune ∧ k ≠ .bracket ∧ ∀ v, k ≠ .sessionInsert v := by
  rcases h with rfl | rfl | rfl | ⟨_, rfl⟩ <;> exact ⟨nofun, nofun, nofun, nofun, nofun, nofun⟩

/-- An action after the update of the user opens no session of it. -/
theorem finding_exec {found : List Key} {db db' : Db (database Γ)} {a : Act (database Γ)}
    {r : Except AuthError (Result (database Γ) a)} (ha : kind a = .neutral ∨ kind a ∈ aftermath)
    (h : Finding i u revokes found db) (hinv : Inv ops before db)
    (he : ((system (database Γ)).restrict (StillAccepted ops)).exec i a db r db') :
    Inv ops before db' ∧ (∀ j, j ≠ i → Rely j db db') ∧ Finding i u revokes found db' := by
  obtain ⟨hrogue, hi, hc, hp, hb, hs⟩ := aftermath_cases ha
  obtain ⟨hstore, -, ⟨ws, hws, hlog⟩, -⟩ := he.2.inside (isBracket_of_kind hb)
  have htame := tame_writes hrogue hi hp ws hws
  have hchanging : Changing i u revokes db' := by
    refine ⟨fun w hw => ?_, h.1.inserts.effect he.2 hrogue fun v hv => absurd hv (hs v),
      he.2.owner_inside (isBracket_of_kind hb) h.1.owner, fun v patch hmem hharm => ?_⟩
    · rw [hlog, List.mem_append] at hw
      exact hw.elim (h.1.tame w) (htame w)
    · exact (mild_log he.2 hrogue hmem).elim (fun hold => h.1.only v patch hold hharm)
        fun hm => absurd hharm (hm.patch hc v patch rfl)
  have hfinding : Finding i u revokes found db' := by
    refine ⟨hchanging, fun hrevokes => List.Subset.trans ?_ (h.2 hrevokes)⟩
    rw [Db.view, hlog, hstore, applyAll_append]
    refine openKeys_applyAll htame (fun row hrow => ?_) _
    exact absurd ((writes_mild hws hrogue _ hrow).insert row rfl) (hs _)
  obtain ⟨hinv', hg⟩ := inv_effect hinv he.2 (tame_writes hrogue hi hp) hchanging.inserts.pending
    fun ha' => absurd (congrArg kind ha') hb
  exact ⟨hinv', hg, hfinding⟩

/-- A program after the update of the user opens no session of it. -/
theorem leads_finding {found : List Key} {α : Type} {p : Service Γ α} (h : Within aftermath p) :
    Leads (contract Γ ops before) i (Finding i u revokes found) p fun _ => Finding i u revokes found :=
  triple_conseq (triple_of_emits (stable_finding found) finding_exec h) (fun _ hs => hs) fun _ _ hs _ _ => hs

/-- To have found all open sessions is to have found what is to be revoked. -/
theorem changing_iff {db : Db (database Γ)} :
    Changing i u revokes db ↔ Finding i u revokes (openKeys u (db.view i)) db :=
  ⟨fun h => ⟨h, fun _ => List.Subset.refl _⟩, fun h => h.1⟩

/-- A program after the update of the user keeps what is still to be revoked. -/
theorem leads_changing {α : Type} {p : Service Γ α} (h : Within aftermath p) :
    Leads (contract Γ ops before) i (Changing i u revokes) p fun _ => Changing i u revokes := by
  intro db hdb
  exact (leads_finding h db (changing_iff.1 hdb)).conseq fun _ _ hs a ha => (hs a ha).1

/-- The `UPDATE` that found all unrevoked sessions of the user leaves none. -/
theorem openKeys_changes {t : DateTime} {found : List Key} {db : Db (database Γ)} (h : openKeys u (db.view i) ⊆ found) :
    openKeys u (applyAll (D := database Γ) (changes db i (.revokeSessionsForUser u t) found) (db.view i)) = [] := by
  have htame : ∀ w ∈ changes db i (.revokeSessionsForUser u t) found, Mild .sessionRevoke w := by
    intro w hw
    obtain ⟨k, -, hk⟩ := List.mem_filterMap.1 hw
    exact mild_change (s := .revokeSessionsForUser u t) nofun hk
  refine List.eq_nil_iff_forall_not_mem.2 fun k hk => ?_
  obtain ⟨s, hs, hu, hr, rfl⟩ := mem_openKeys.1 hk
  rcases mem_sessions_applyAll (fun w hw => (htame w hw).tame nofun nofun) hs hr with
    ⟨s0, hs0, hid0, hu0, hr0, hpatch⟩ | ⟨row, hrow, -, -⟩
  · have hmem : Key.session s.id ∈ openKeys u (db.view i) := mem_openKeys.2 ⟨s0, hs0, hu0.trans hu, hr0, by rw [hid0]⟩
    have hrevoked : Write.patchSession s.id { revokedAt := some (some t) } ∈
        changes db i (.revokeSessionsForUser u t) found :=
      List.mem_filterMap.2 ⟨_, List.mem_filter.2 ⟨h hmem, decide_eq_true hmem⟩, rfl⟩
    cases hpatch _ hrevoked
  · cases (htame _ hrow).insert row rfl

/-- The revocation closes the sessions of the user, if they have to be closed. -/
theorem leads_revoke (t : DateTime) :
    Leads (contract Γ ops before) i (Changing i u revokes)
      (whenever revokes (do let _ ← revokeSessionsForUser u t) : Service Γ Unit) fun _ => Settled i u revokes := by
  unfold whenever
  split
  · refine leads_bind (Q := fun _ => Settled i u revokes) ?_ fun _ => leads_pure (stable_finding _) fun _ h => h
    refine leads_bind (Q := fun _ => Settled i u revokes) ?_ fun _ => leads_pure (stable_finding _) fun _ h => h
    refine leads_bind (Q := fun found => Finding i u revokes found) ?_ fun found => ?_
    · refine leads_perform stable_changing (fun found => stable_finding found) fun {db r db'} h hinv he => ?_
      obtain ⟨hinv', hg, hfinding⟩ := finding_exec (a := .start (.revokeSessionsForUser u t)) (Or.inr (Or.inr (Or.inl rfl)))
        (changing_iff.1 h) hinv he
      refine ⟨hinv', hg, fun found hr => ?_⟩
      cases he.2 with
      | start s =>
        obtain rfl := Except.ok.inj hr
        exact hfinding
      | fault a e => cases hr
    · refine leads_perform (stable_finding found) (fun _ => stable_finding []) fun {db r db'} h hinv he => ?_
      obtain ⟨hinv', hg, hfinding⟩ := finding_exec (a := .finish (.revokeSessionsForUser u t) found)
        (Or.inr (Or.inr (Or.inl rfl))) h hinv he
      refine ⟨hinv', hg, fun rows hr => ⟨hfinding.1, fun hrevokes => ?_⟩⟩
      cases he.2 with
      | finish s found hfree hv =>
        rw [Db.view_write, openKeys_changes (h.2 hrevokes)]
        exact List.Subset.refl _
      | fault a e => cases hr
  · rename_i hno
    exact leads_pure (stable_finding _) fun _ h => ⟨h, fun hrevokes => absurd hrevokes hno⟩

/-- The update of the user gives the transaction the user's lock. -/
theorem leads_adminUpdate {patch : UserPatch} (hdeleted : patch.deletedAt = none) (hharm : Harmful patch → revokes = true) :
    Leads (contract Γ ops before) i (Idle i) (updateRow (.patchUser u patch)) fun _ => Changing i u revokes := by
  have hkind : (Stmt.patchUser u patch).kind ≠ .rogue ∧ (Stmt.patchUser u patch).kind ≠ .userInsert ∧
      (Stmt.patchUser u patch).kind ≠ .sessionPrune ∧ ∀ v, (Stmt.patchUser u patch).kind ≠ .sessionInsert v := by
    simp only [Stmt.kind, UserPatch.kind, hdeleted]
    split
    · rename_i hno
      exact absurd rfl hno
    · split <;> simp
  obtain ⟨hrogue, hi, hp, hs⟩ := hkind
  refine leads_bind (Q := fun (rows : List Key) db => rows.length = 1 → Changing i u revokes db) ?_ fun rows => ?_
  · refine leads_bind (Q := fun _ => Idle i) ?_ fun found => ?_
    · refine leads_perform stable_idle (fun _ => stable_idle) fun {db r db'} h hinv he => ?_
      have hlog : db'.log i = db.log i := by
        cases he.2 with
        | start s => simp
        | fault a e => rfl
      have hidle : Idle i db' := by
        refine ⟨?_, ?_⟩
        · rw [Harmless, hlog]
          exact h.1
        · rw [InsertsFor, hlog]
          exact h.2
      obtain ⟨hinv', hg⟩ := inv_effect hinv he.2 (tame_writes hrogue hi hp) hidle.2.pending fun hc => by cases hc
      exact ⟨hinv', hg, fun _ _ => hidle⟩
    · refine leads_perform stable_idle (fun rows _ _ h hr hlen => stable_changing (h hlen) hr) fun {db r db'} h hinv he => ?_
      have hinserts : InsertsFor i ∅ db' := h.2.effect he.2 hrogue fun v hv => absurd hv (hs v)
      obtain ⟨hinv', hg⟩ := inv_effect hinv he.2 (tame_writes hrogue hi hp) hinserts.pending fun hc => by cases hc
      refine ⟨hinv', hg, fun rows hr hlen => ?_⟩
      cases he.2 with
      | finish s found hfree hv =>
        obtain rfl := Except.ok.inj hr
        refine ⟨hinv'.tame i, hinserts, owner_write_locked (user_mem_stillThere hlen), fun v patch' hmem hharm' => ?_⟩
        rw [Db.log_write, List.mem_append] at hmem
        rcases hmem with hmem | hmem
        · exact absurd hharm' (h.1 v patch' hmem)
        · obtain ⟨k, hk, hkw⟩ := List.mem_filterMap.1 hmem
          obtain ⟨user, huser, rfl⟩ := List.mem_map.1 (mem_of_mem_stillThere hk).2
          obtain ⟨rfl, rfl⟩ := Write.patchUser.inj (Option.some.inj hkw)
          exact ⟨of_decide_eq_true (List.mem_filter.1 huser).2, hharm hharm'⟩
      | fault a e => cases hr
  · split
    · rename_i hlen
      exact leads_conseq (leads_pure stable_changing fun _ h => h) (fun _ h => h hlen) fun _ _ h => h
    · exact leads_throw _

/-- The update of the user takes its lock. -/
theorem leads_updateUserRow {changes : AdminUserUpdateChanges} {passwordHash : Option Text} :
    Leads (contract Γ ops before) i (Idle i) (updateUserRow u changes passwordHash)
      fun user db => Changing i u changes.revokesSessions db ∧ user.id = u := by
  refine leads_bind (leads_idle (within_query rfl)) fun xs => leads_bind (leads_idle (within_oneOrNone xs)) fun user => ?_
  cases user with
  | none => exact leads_throw _
  | some user =>
    refine leads_bind (leads_idle (within_require _ _)) fun _ => leads_bind (leads_idle (within_require _ _)) fun _ =>
      leads_bind (leads_idle (within_require _ _)) fun _ => leads_bind (leads_idle within_utcnow) fun modifiedAt =>
        leads_attempt_bind (Q := fun _ => Changing i u changes.revokesSessions) (leads_adminUpdate rfl fun hharm => ?_)
          (fun _ => ?_) fun e => ?_
    · simp only [AdminUserUpdateChanges.revokesSessions, Bool.or_eq_true, Bool.and_eq_true, decide_eq_true_eq]
      rcases hharm with hhash | hactive
      · exact Or.inl (by_contra fun hno => hhash (if_neg hno))
      · by_cases hmem : AdminField.isActive ∈ changes.fieldsSet
        · rw [if_pos hmem] at hactive
          exact Or.inr ⟨hmem, hactive⟩
        · rw [if_neg hmem] at hactive
          cases hactive
    · exact leads_refreshedUser stable_changing (leads_changing (within_query rfl))
    · intro db _
      split
      · exact leads_throw (P := fun _ => True) _ db trivial
      · exact leads_throw (P := fun _ => True) _ db trivial
      · rename_i hok
        cases hok

/-- The transaction of an update revokes the sessions when the credentials change. -/
theorem leads_updateUserTransaction {actor : AuthenticatedSessionContext} {changes : AdminUserUpdateChanges}
    {roles : Option (List Text)} {passwordHash : Option Text} {revokedAt : DateTime} {ip agent : Option Text} :
    Leads (contract Γ ops before) i (Idle i) (updateUserTransaction actor u changes roles passwordHash revokedAt ip agent)
      fun _ => Idle i := by
  refine leads_idleTransaction (Q := fun _ => Settled i u changes.revokesSessions)
    (leads_bind leads_updateUserRow fun user => ?_) (fun _ => stable_finding _) fun _ _ h => h.ready
  intro db hdb
  obtain ⟨hchanging, rfl⟩ := hdb
  refine leads_bind (leads_changing ?_) (fun _ => leads_bind (leads_revoke revokedAt) fun _ => ?_) db hchanging
  · cases roles with
    | none => trivial
    | some roles =>
      exact (within_replaceRolesWithAudit (Or.inr (Or.inr ⟨_, rfl⟩)) (Or.inl rfl)).bind fun _ => within_pure _
  · exact leads_bind (leads_finding (within_createAuditLog (Or.inl rfl) (by simp [adminAudit]))) fun _ =>
      leads_finding (within_detailForUser _)

/-- `update_user` keeps the contract. -/
theorem leads_adminUpdateUser {actor : AuthenticatedSessionContext} {changes : AdminUserUpdateChanges} {ip agent : Option Text} :
    Leads (contract Γ ops before) i (Idle i) (adminUpdateUser actor u changes ip agent) fun _ => Idle i := by
  unfold adminUpdateUser
  split
  · exact leads_idle (within_adminGetUser u)
  · exact leads_bind (leads_idle (within_ofExcept _)) fun _ => leads_bind (leads_idle (within_changedPasswordHash _)) fun _ =>
      leads_bind (leads_idle within_utcnow) fun _ => leads_updateUserTransaction

/-- The requests that neither sign in nor change users are quiet. -/
theorem kinds_subset_quiet {op : Op} (h : op.KeepsCredentials) (hlogin : ∀ password, ¬op.logsInWith password)
    (hadmin : ∀ actor u changes ip agent, op ≠ .adminUpdateUser actor u changes ip agent) : op.kinds ⊆ quiet := by
  intro k hk
  cases op with
  | login email password => exact absurd rfl (hlogin password)
  | adminUpdateUser actor u changes ip agent => exact absurd rfl (hadmin actor u changes ip agent)
  | authenticateSession => rcases hk with rfl | rfl | rfl | rfl <;> exact ⟨nofun, nofun, nofun, nofun, nofun⟩
  | issueCsrfToken => rcases hk with rfl | rfl | rfl <;> exact ⟨nofun, nofun, nofun, nofun, nofun⟩
  | validateSessionCsrf => rcases hk with rfl | rfl <;> exact ⟨nofun, nofun, nofun, nofun, nofun⟩
  | logout => rcases hk with rfl | rfl | rfl <;> exact ⟨nofun, nofun, nofun, nofun, nofun⟩
  | _ => exact absurd h id

/-- Every thread keeps the contract. -/
theorem leads_program (hops : (ops i).KeepsCredentials) :
    Leads (contract Γ ops before) i (Idle i) (program Γ (ops i)) fun _ => Idle i := by
  cases hop : ops i with
  | login email password token ip agent =>
    have hlogin : (ops i).logsInWith password := by
      rw [hop]
      exact rfl
    exact leads_bind (leads_login hlogin) fun _ => leads_pure stable_idle fun _ h => h
  | adminUpdateUser actor u changes ip agent =>
    exact leads_bind leads_adminUpdateUser fun _ => leads_pure stable_idle fun _ h => h
  | _ =>
    rw [hop] at hops
    exact leads_idle ((within_program _).mono (kinds_subset_quiet hops (fun _ => id) fun _ _ _ _ _ => nofun))

end CredentialAux

open CredentialAux

/-- In every run in which each login's update of its user finds the credentials still accepted, every unrevoked session was
created by a login whose password its user accepts, and a deactivated user has none. -/
theorem credential_change_wins (ops : Nat → Op) (hops : ∀ i, (ops i).KeepsCredentials) (before : Uuid → Text → Prop)
    (store : Store) (env : Env) (hstore : Authorised ops before (atRest Γ store env)) {c : Configuration Γ}
    (h : ReachesAccepted Γ ops (start Γ ops store env) c) :
    Authorised ops before c.state ∧ ∀ user ∈ c.state.store.users, user.isActive = false →
      ∀ s ∈ c.state.store.sessions, s.userId = user.id → s.revokedAt ≠ none := by
  have hinv0 : Inv ops before (atRest Γ store env) :=
    ⟨guarded_atRest store env, fun _ => List.forall_mem_nil _, fun _ _ hrow => absurd hrow List.not_mem_nil, hstore⟩
  have hidle : ∀ i, Idle i (atRest Γ store env) :=
    fun _ => ⟨fun _ _ hmem => absurd hmem List.not_mem_nil, fun _ hmem => absurd hmem List.not_mem_nil⟩
  obtain ⟨hinv, -⟩ := sat_of_reaches (c := start Γ ops store env) hinv0
    (fun i => leads_program (hops i) (atRest Γ store env) (hidle i)) h
  refine ⟨hinv.authorised, fun user huser hactive s hs hid hr => ?_⟩
  obtain ⟨_, -, haccepts⟩ := hinv.authorised s hs hr user huser hid.symm
  rw [haccepts.1] at hactive
  cases hactive

namespace StaleLogin

def Γ₀ : Ctx := Ctx.readable [] fun _ => .error .oidcTokenExchange

def admin : User := ⟨1, "root@example.com".toList, some "$topsecret".toList, true, .en, 0, 0, none, none⟩

def user : User := ⟨2, "ann@example.com".toList, some "$secret".toList, true, .en, 0, 0, none, none⟩

def session : AuthSession := ⟨3, 1, "#s".toList, "#c".toList, 0, 0, 1000000, none, none, none, none⟩

def actor : AuthenticatedSessionContext := ⟨admin, session, ["admin".toList], []⟩

def store : Store := { Store.empty with users := [admin, user], sessions := [session] }

def env : Env := ⟨5000, [], 4, 0, 0, 0⟩

/-- The administrator has logged in before. -/
def before (session : Uuid) (password : Text) : Prop := session = 3 ∧ password = "topsecret".toList

/-- A login and a change of the user's password. -/
def ops : Nat → Op
  | 0 => .login "ann@example.com".toList "secret".toList none none none
  | 1 => .adminUpdateUser actor 2 ⟨none, some "new-password-1".toList, none, none, [.password]⟩ none none
  | _ => .logout none none none

/-- The login has verified the old password when the whole change runs. -/
def schedule : List (Move (database Γ₀)) :=
  List.replicate 3 (.run 0) ++ List.replicate 15 (.run 1) ++ List.replicate 18 (.run 0)

end StaleLogin

open StaleLogin in
/-- A login verifies the old password, the administrator's change of the password commits and revokes the user's sessions, and
then the login creates a session: all have finished, and no login with the new password created it. -/
theorem credential_change_stale_login_false :
    ¬∀ c, Reaches Γ₀ (start Γ₀ ops store env) c → (∀ i, ∃ r, c.threads i = .done r) → Authorised ops before c.state := by
  intro hclaim
  obtain ⟨c, hc⟩ := Option.isSome_iff_exists.1 (show (play schedule (start Γ₀ ops store env)).isSome = true by decide)
  have hsession : (play schedule (start Γ₀ ops store env)).map
      (fun c => c.state.store.sessions.any fun s => s.id = 5 && s.userId = 2 && s.revokedAt.isNone) = some true := by decide
  have huser : (play schedule (start Γ₀ ops store env)).map
      (fun c => c.state.store.users.any fun u => u.id = 2 && u.passwordHash = some "$new-password-1".toList) = some true := by
    decide
  have h0 : ∃ r, (play schedule (start Γ₀ ops store env)).map (fun c => c.threads 0) = some (.done r) := ⟨_, rfl⟩
  have h1 : ∃ r, (play schedule (start Γ₀ ops store env)).map (fun c => c.threads 1) = some (.done r) := ⟨_, rfl⟩
  obtain ⟨r0, h0⟩ := h0
  obtain ⟨r1, h1⟩ := h1
  rw [hc] at hsession huser h0 h1
  have hreach := reaches_of_play hc
  have hdone : ∀ i, ∃ r, c.threads i = .done r := by
    intro i
    match i with
    | 0 => exact ⟨r0, Option.some.inj h0⟩
    | 1 => exact ⟨r1, Option.some.inj h1⟩
    | n + 2 => exact ⟨_, done_of_reaches (c := start Γ₀ ops store env) rfl hreach⟩
  obtain ⟨s, hs, hopen⟩ := List.any_eq_true.1 (Option.some.inj hsession)
  obtain ⟨u, hu, hhash⟩ := List.any_eq_true.1 (Option.some.inj huser)
  simp only [Bool.and_eq_true, decide_eq_true_eq, Option.isNone_iff_eq_none] at hopen hhash
  obtain ⟨password, hcreated, -, hash, hpassword, hverify⟩ := hclaim c hreach hdone s hs hopen.2 u hu (by rw [hhash.1, hopen.1.2])
  rw [hhash.2] at hpassword
  obtain rfl := Option.some.inj hpassword
  rcases hcreated with ⟨hid, -⟩ | ⟨i, row, hop, -, -⟩
  · rw [hopen.1.1] at hid
    cases hid
  · match i with
    | 0 =>
      obtain rfl : password = "secret".toList := hop
      revert hverify
      decide
    | 1 => exact hop
    | n + 2 => exact hop

namespace StaleLogin

/-- After the change the user logs in again. -/
def opsAgain : Nat → Op
  | 2 => .login "ann@example.com".toList "new-password-1".toList none none none
  | i => ops i

def scheduleAgain : List (Move (database Γ₀)) :=
  List.replicate 21 (.run 0) ++ List.replicate 15 (.run 1) ++ List.replicate 21 (.run 2)

/-- The password of a login is the one stored when it updates its user. -/
def stillStored (i : Nat) (a : Act (database Γ₀)) (db : Db (database Γ₀)) : Bool :=
  match opsAgain i, a with
  | .login _ password .., .finish (.patchUser id _) _ =>
    db.store.users.all fun u => u.id ≠ id || u.isActive && u.passwordHash = some ('$' :: password)
  | _, _ => true

/-- The check tells that the password of a login is still accepted. -/
theorem stillAccepted_of_stillStored (i : Nat) (a : Act (database Γ₀)) (db : Db (database Γ₀)) (h : stillStored i a db = true) :
    StillAccepted opsAgain i a db := by
  rintro password hop id patch found rfl user huser hid
  unfold stillStored at h
  cases hi : opsAgain i with
  | login email password' token ip agent =>
    rw [hi] at h hop
    obtain rfl : password = password' := hop
    have hstored := List.all_eq_true.1 h user huser
    simp only [hid, ne_eq, not_true_eq_false, decide_false, Bool.false_or, Bool.and_eq_true, decide_eq_true_eq] at hstored
    exact ⟨hstored.1, _, hstored.2, decide_eq_true rfl⟩
  | _ =>
    rw [hi] at hop
    cases hop

/-- The second login and the change are among the operations. -/
theorem opsAgain_keeps (i : Nat) : (opsAgain i).KeepsCredentials := by
  match i with
  | 0 => trivial
  | 1 => trivial
  | 2 => trivial
  | n + 3 => trivial

/-- The session of the administrator was created by a login. -/
theorem authorised_before : Authorised opsAgain before (atRest Γ₀ store env) := by
  intro s hs _ user huser hid
  obtain rfl := List.mem_singleton.1 hs
  refine ⟨"topsecret".toList, Or.inl ⟨rfl, rfl⟩, ?_⟩
  rcases List.mem_cons.1 huser with rfl | huser
  · exact ⟨rfl, _, rfl, by decide⟩
  · obtain rfl := List.mem_singleton.1 huser
    cases hid

end StaleLogin

open StaleLogin in
/-- The change revokes the session of a login that was earlier, and the next login has the new password. -/
theorem credential_change_wins_over_earlier_login :
    ∃ c, playIf stillStored scheduleAgain (start Γ₀ opsAgain store env) = some c ∧ Authorised opsAgain before c.state := by
  obtain ⟨c, hc⟩ := Option.isSome_iff_exists.1
    (show (playIf stillStored scheduleAgain (start Γ₀ opsAgain store env)).isSome = true by decide)
  exact ⟨c, hc, (credential_change_wins opsAgain opsAgain_keeps before store env authorised_before
    (reaches_of_playIf stillAccepted_of_stillStored hc)).1⟩

end AuthService
