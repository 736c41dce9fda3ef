import AuthService.SerialRuns

/-!
# Deleted users in serial runs

A user that is marked as deleted owns no roles, identities and items, has no open sessions, and has one audit log of its
deletion. Every operation checks that a user is not deleted, in the transaction that gives it something, and both deletions
wipe the user in the transaction that marks it.
-/

namespace AuthService

open ReadCommitted RelyGuarantee Serial

variable {Γ : Ctx}

/-- The user is deleted. -/
def isDeleted (S : Store) (u : Uuid) : Bool := S.users.any fun x => x.id = u && x.deletedAt.isSome

/-- The audit log says that the user was deleted. -/
def AuthAuditLog.marks (u : Uuid) (l : AuthAuditLog) : Bool := l.eventType == .userMarkedDeleted && l.userId == some u

namespace DeletedAux

open SerialAux

/-- Deleted users own nothing and are marked once. A user whose deletion is about to revoke its sessions may have open ones. -/
structure Wiped (exempt : Option Uuid) (S : Store) : Prop where
  ids : (S.users.map User.id).Nodup
  roles : ∀ r ∈ S.roles, isDeleted S r.userId = false
  identities : ∀ x ∈ S.identities, isDeleted S x.userId = false
  items : ∀ x ∈ S.items, isDeleted S x.ownerUserId = false
  sessions : ∀ s ∈ S.sessions, isDeleted S s.userId = true → some s.userId ≠ exempt → s.revokedAt ≠ none
  marks : ∀ u, S.audits.countP (AuthAuditLog.marks u) = if isDeleted S u then 1 else 0

/-- Deleted users stay deleted, from the same time on. -/
def Kept (S V : Store) : Prop := ∀ x ∈ S.users, ∀ t, x.deletedAt = some t → ∃ y ∈ V.users, y.id = x.id ∧ y.deletedAt = some t

theorem Kept.refl (S : Store) : Kept S S := fun x hx _ ht => ⟨x, hx, rfl, ht⟩

/-- One period after another. -/
theorem Kept.trans {S S' S'' : Store} (h : Kept S S') (h' : Kept S' S'') : Kept S S'' := by
  intro x hx t ht
  obtain ⟨y, hy, hid, hty⟩ := h x hx t ht
  obtain ⟨z, hz, hid', htz⟩ := h' y hy t hty
  exact ⟨z, hz, hid'.trans hid, htz⟩

variable (Γ) in
/-- What every commit of a serial run promises. -/
def promise : Promise (database Γ) where
  known _ _ := True
  inv S _ := Wiped none S
  rel := Kept
  inv_later h _ := h
  rel_refl := Kept.refl
  rel_trans := Kept.trans

/-- The view keeps the promise, and some users are not deleted in it. -/
def Tidy (us : Set Uuid) (S V : Store) (_ : Env) : Prop := Wiped none V ∧ Kept S V ∧ ∀ u ∈ us, isDeleted V u = false

theorem sound_iff {S V : Store} {e : Env} : Sound (promise Γ) S V e ↔ Tidy ∅ S V e := by
  simp [Sound, Tidy, promise]

/-! ## Writes -/

/-- A write that keeps deleted users wiped. -/
def Gentle (us : Set Uuid) (V : Store) : Write → Prop
  | .insertUser row => row.deletedAt = none ∧ hasUser V row.id = false
  | .patchUser _ patch => patch.deletedAt = none
  | .insertSession row => row.userId ∈ us
  | .patchSession _ patch => patch.revokedAt ≠ some none
  | .insertIdentity row => row.userId ∈ us
  | .insertRole row => row.userId ∈ us
  | .insertItem row => row.ownerUserId ∈ us
  | .insertAudit row => row.eventType ≠ .userMarkedDeleted
  | .deleteAudit _ => False
  | _ => True

theorem deletedAt_patch {x : User} {patch : UserPatch} (h : patch.deletedAt = none) : (x.patch patch).deletedAt = x.deletedAt := by
  simp [User.patch, h]

/-- The users after a patch. -/
theorem mem_users_patch {V : Store} {id : Uuid} {patch : UserPatch} {x : User} :
    x ∈ (Write.patchUser id patch |>.apply V).users ↔ ∃ y ∈ V.users, x = if y.id = id then y.patch patch else y := by
  simp [Write.apply, modifyAt, eq_comm]

theorem isDeleted_iff {S : Store} {u : Uuid} : isDeleted S u = true ↔ ∃ x ∈ S.users, x.id = u ∧ x.deletedAt ≠ none := by
  simp [isDeleted, Option.isSome_iff_ne_none]

/-- A gentle write deletes nobody and brings nobody back. -/
theorem isDeleted_apply {us : Set Uuid} {V : Store} {w : Write} (h : Gentle us V w) (u : Uuid) :
    isDeleted (w.apply V) u = isDeleted V u := by
  cases w with
  | insertUser row => simp [isDeleted, Write.apply, show row.deletedAt = none from h.1]
  | patchUser id patch =>
    simp only [isDeleted, Write.apply, modifyAt, List.any_map]
    congr 1
    funext x
    simp only [Function.comp]
    split
    · rw [deletedAt_patch h]
      rfl
    · rfl
  | _ => rfl

/-- A patched session keeps its user and stays revoked. -/
theorem mem_sessions_patch {V : Store} {id : Uuid} {patch : SessionPatch} {s : AuthSession}
    (hs : s ∈ (Write.patchSession id patch |>.apply V).sessions) (hpatch : patch.revokedAt ≠ some none) :
    ∃ s0 ∈ V.sessions, s.userId = s0.userId ∧ (s0.revokedAt ≠ none → s.revokedAt ≠ none) := by
  simp only [Write.apply, modifyAt, List.mem_map] at hs
  obtain ⟨s0, hs0, rfl⟩ := hs
  refine ⟨s0, hs0, ?_, ?_⟩
  · split <;> rfl
  · intro hrev
    split
    · simp only [AuthSession.patch]
      cases hp : patch.revokedAt with
      | none => simpa using hrev
      | some r =>
        cases r with
        | none => exact absurd hp hpatch
        | some t => simp
    · exact hrev

/-- A gentle write keeps deleted users deleted. -/
theorem kept_apply {us : Set Uuid} {S V : Store} {w : Write} (h : Gentle us V w) (hkept : Kept S V) : Kept S (w.apply V) := by
  refine hkept.trans ?_
  intro x hx t ht
  cases w with
  | insertUser row => exact ⟨x, List.mem_append_left _ hx, rfl, ht⟩
  | patchUser id patch =>
    refine ⟨_, mem_users_patch.2 ⟨x, hx, rfl⟩, ?_⟩
    split
    · exact ⟨rfl, (deletedAt_patch h).trans ht⟩
    · exact ⟨rfl, ht⟩
  | _ => exact ⟨x, hx, rfl, ht⟩

/-- A gentle write keeps the ids of users different. -/
theorem ids_apply {us : Set Uuid} {V : Store} {w : Write} (h : Gentle us V w) (hids : (V.users.map User.id).Nodup) :
    ((w.apply V).users.map User.id).Nodup := by
  cases w with
  | insertUser row =>
    have hnew : ∀ x ∈ V.users, x.id ≠ row.id := by
      have h2 := h.2
      simpa [hasUser] using h2
    simp only [Write.apply, List.map_append, List.map_cons, List.map_nil, List.nodup_append, List.nodup_singleton, true_and]
    refine ⟨hids, ?_⟩
    intro id hid id' hid' heq
    obtain ⟨x, hx, rfl⟩ := List.mem_map.1 hid
    obtain rfl := List.mem_singleton.1 hid'
    exact hnew x hx heq
  | patchUser id patch =>
    have hmap : (Write.apply (.patchUser id patch) V).users.map User.id = V.users.map User.id := by
      simp only [Write.apply, modifyAt, List.map_map]
      refine List.map_congr_left ?_
      intro x _
      simp only [Function.comp]
      split <;> rfl
    rw [hmap]
    exact hids
  | _ => exact hids

/-- A gentle write adds no audit log of a deletion. -/
theorem marks_apply {us : Set Uuid} {V : Store} {w : Write} (h : Gentle us V w) (u : Uuid) :
    (w.apply V).audits.countP (AuthAuditLog.marks u) = V.audits.countP (AuthAuditLog.marks u) := by
  have hmap : ∀ (p : AuthAuditLog → Bool) (f : AuthAuditLog → AuthAuditLog), (∀ l, (f l).marks u = l.marks u) →
      (modifyAt V.audits p f).countP (AuthAuditLog.marks u) = V.audits.countP (AuthAuditLog.marks u) := by
    intro p f hf
    rw [modifyAt, List.countP_map]
    congr 1
    funext l
    simp only [Function.comp]
    split
    · exact hf l
    · rfl
  cases w with
  | insertAudit row =>
    have hrow : row.marks u = false := by
      simp [AuthAuditLog.marks, show row.eventType ≠ .userMarkedDeleted from h]
    simp [Write.apply, hrow]
  | deleteSession id => exact hmap _ _ fun _ => rfl
  | patchAudit id detail => exact hmap _ _ fun _ => rfl
  | deleteAudit id => cases h
  | _ => rfl

/-- A gentle write gives nothing to a deleted user. -/
theorem wiped_apply {us : Set Uuid} {V : Store} {w : Write} {exempt : Option Uuid} (h : Gentle us V w) (hV : Wiped exempt V)
    (hus : ∀ u ∈ us, isDeleted V u = false) : Wiped exempt (w.apply V) := by
  refine ⟨ids_apply h hV.ids, ?_, ?_, ?_, ?_, ?_⟩
  · intro r hr
    rw [isDeleted_apply h]
    cases w with
    | insertRole row =>
      rcases List.mem_append.1 hr with hr | hr
      · exact hV.roles r hr
      · rw [List.mem_singleton.1 hr]
        exact hus _ h
    | deleteRole id => exact hV.roles r (List.mem_of_mem_filter hr)
    | _ => exact hV.roles r hr
  · intro x hx
    rw [isDeleted_apply h]
    cases w with
    | insertIdentity row =>
      rcases List.mem_append.1 hx with hx | hx
      · exact hV.identities x hx
      · rw [List.mem_singleton.1 hx]
        exact hus _ h
    | patchIdentity id t =>
      simp only [Write.apply, modifyAt, List.mem_map] at hx
      obtain ⟨y, hy, rfl⟩ := hx
      split
      · exact hV.identities y hy
      · exact hV.identities y hy
    | deleteIdentity id => exact hV.identities x (List.mem_of_mem_filter hx)
    | _ => exact hV.identities x hx
  · intro x hx
    rw [isDeleted_apply h]
    cases w with
    | insertItem row =>
      rcases List.mem_append.1 hx with hx | hx
      · exact hV.items x hx
      · rw [List.mem_singleton.1 hx]
        exact hus _ h
    | deleteItem id => exact hV.items x (List.mem_of_mem_filter hx)
    | _ => exact hV.items x hx
  · intro s hs hdel hne
    rw [isDeleted_apply h] at hdel
    cases w with
    | insertSession row =>
      rcases List.mem_append.1 hs with hs | hs
      · exact hV.sessions s hs hdel hne
      · rw [List.mem_singleton.1 hs, hus _ h] at hdel
        cases hdel
    | patchSession id patch =>
      obtain ⟨s0, hs0, huser, hrev⟩ := mem_sessions_patch hs h
      rw [huser] at hdel hne
      exact hrev (hV.sessions s0 hs0 hdel hne)
    | deleteSession id => exact hV.sessions s (List.mem_of_mem_filter hs) hdel hne
    | _ => exact hV.sessions s hs hdel hne
  · intro u
    rw [marks_apply h, isDeleted_apply h]
    exact hV.marks u

/-- A gentle write keeps the view tidy. -/
theorem tidy_apply {us : Set Uuid} {S V : Store} {e : Env} {w : Write} (h : Gentle us V w) (ht : Tidy us S V e) :
    Tidy us S (w.apply V) e := by
  refine ⟨wiped_apply h ht.1 ht.2.2, kept_apply h ht.2.1, ?_⟩
  intro u hu
  rw [isDeleted_apply h]
  exact ht.2.2 u hu

/-- The kinds that keep deleted users wiped: they may give something to some users only. -/
def gentle (us : Set Uuid) : Set Kind :=
  { k | match k with
    | .rogue | .userDelete | .auditDeletion => False
    | .sessionInsert u => u ∈ us
    | .owned u => u ∈ us
    | _ => True }

/-- An insert of the kinds that are allowed is gentle. -/
theorem gentle_insert {us : Set Uuid} {V : Store} {w : Write} (hk : w.kind = .neutral ∨ w.kind ∈ gentle us)
    (hv : w.violates Γ V = false) : Gentle us V w := by
  cases w with
  | insertUser row =>
    simp only [Write.violates, Bool.or_eq_false_iff] at hv
    refine ⟨?_, hv.1⟩
    by_contra hd
    simp [Write.kind, hd, gentle] at hk
  | insertSession row =>
    simp only [Write.kind] at hk
    split at hk
    · exact hk.resolve_left fun h => by cases h
    · simp [gentle] at hk
  | insertIdentity row => exact hk.resolve_left fun h => by cases h
  | insertRole row => exact hk.resolve_left fun h => by cases h
  | insertItem row => exact hk.resolve_left fun h => by cases h
  | insertState row => trivial
  | insertAudit row =>
    intro he
    simp [Write.kind, he, gentle] at hk
  | _ => simp [Write.kind, gentle] at hk

/-- The change of a row of the kinds that are allowed is gentle. -/
theorem gentle_change {us : Set Uuid} {V : Store} {s : Stmt} {key : Key} {w : Write}
    (hk : s.kind = .neutral ∨ s.kind ∈ gentle us) (hw : s.change key = some w) : Gentle us V w := by
  cases s <;> cases key <;> simp only [Stmt.change, Option.some.injEq, reduceCtorEq] at hw <;> subst hw
  case patchUser.user id patch _ =>
    show patch.deletedAt = none
    by_contra hd
    simp [Stmt.kind, UserPatch.kind, hd, gentle] at hk
  case patchSession.session id patch _ =>
    show patch.revokedAt ≠ some none
    intro hp
    have hne : patch.kind ≠ .rogue := by
      intro hrogue
      simp [Stmt.kind, hrogue, gentle] at hk
    rcases SessionPatch.kind_cases hne with ⟨_, _, rfl⟩ | ⟨_, _, _, rfl⟩ | ⟨_, _, rfl⟩ | ⟨_, _, rfl⟩ <;> simp at hp
  case markUserDeleted.user => simp [Stmt.kind, gentle] at hk
  case revokeSessionsForUser.session => simp [Gentle]
  case deleteAuditLogsOccurredBefore.audit => simp [Stmt.kind, gentle] at hk
  case modifyUser.user => rfl
  all_goals trivial

/-- Actions of the kinds that are allowed keep the view tidy. -/
theorem closed_tidy (us : Set Uuid) : Closed Γ (gentle us) (Tidy us) where
  insert hk ht hv := tidy_apply (gentle_insert hk hv) ht
  change hk hw ht := tidy_apply (gentle_change hk hw) ht

/-- Actions that need no live user keep the promise. -/
theorem closed_sound : Closed Γ (gentle ∅) (Sound (promise Γ)) where
  insert hk ht hv := sound_iff.2 ((closed_tidy ∅).insert hk (sound_iff.1 ht) hv)
  change hk hw ht := sound_iff.2 ((closed_tidy (Γ := Γ) ∅).change hk hw (sound_iff.1 ht))

/-! ## Users that are not deleted -/

/-- The kinds inside a transaction. -/
def inner (us : Set Uuid) : Set Kind := gentle us \ {.bracket}

/-- A patch that deletes nobody is allowed inside a transaction. -/
theorem kind_inner {us : Set Uuid} {patch : UserPatch} (h : patch.deletedAt = none) : patch.kind ∈ inner us := by
  unfold UserPatch.kind
  rw [if_neg (not_not.2 h)]
  split
  · exact ⟨trivial, nofun⟩
  · exact ⟨trivial, nofun⟩

variable {me : Nat} {S0 : Store} {α : Type}

/-- A program of the kinds that are allowed keeps the view tidy. -/
theorem leads_inner {us : Set Uuid} {p : Service Γ α} (h : Within (inner us) p) :
    Ensures (promise Γ) me S0 (Tidy us) p fun _ => Tidy us :=
  leads_within h ⟨fun hk => (closed_tidy us).insert (hk.imp_right fun hk => hk.1),
    fun hk => (closed_tidy (Γ := Γ) us).change (hk.imp_right fun hk => hk.1)⟩ fun hk => hk.2 rfl

theorem leads_outer {p : Service Γ α} (h : Within (gentle ∅) p) :
    Ensures (promise Γ) me S0 (Sound (promise Γ)) p fun _ => Sound (promise Γ) := leads_calm h closed_sound

/-- A row of a user that is not deleted: the user is not deleted. -/
theorem Tidy.live {S V : Store} {e : Env} (h : Tidy ∅ S V e) {x : User} (hx : x ∈ V.users) (hd : x.deletedAt = none) :
    Tidy {x.id} S V e := by
  refine ⟨h.1, h.2.1, ?_⟩
  rintro u rfl
  by_contra hdel
  rw [Bool.not_eq_false] at hdel
  obtain ⟨y, hy, hid, hdy⟩ := isDeleted_iff.1 hdel
  rw [List.inj_on_of_nodup_map h.1.ids hy hx hid] at hdy
  exact hdy hd

/-- What a lookup of a user finds. -/
def Found (c : User → Prop) (r : Option User) : Assertion (database Γ) :=
  fun S V e => Tidy ∅ S V e ∧ ∀ x ∈ r, x ∈ V.users ∧ c x

/-- What is known of the rows is known of the only one. -/
theorem leads_findUser {c : User → Prop} {rows : List User} :
    Ensures (promise Γ) me S0 (fun S V e => Tidy ∅ S V e ∧ ∀ x ∈ rows, x ∈ V.users ∧ c x) (oneOrNone rows) (Found c) := by
  refine leads_oneOrNone ?_ ?_
  · intro S V e hp _
    exact ⟨hp.1, nofun⟩
  · rintro x S V e hp rfl
    refine ⟨hp.1, ?_⟩
    intro y hy
    rw [← Option.some.inj hy]
    exact hp.2 x (List.mem_singleton_self x)

/-- The user with an id, if there is one. -/
theorem leads_userById (u : Uuid) : Ensures (promise Γ) me S0 (Tidy ∅) (getUserById none u) (Found fun x => x.id = u) := by
  refine leads_bind (leads_select (.userById u) (Q := fun (rows : List User) (S V : Store) e => Tidy ∅ S V e ∧ ∀ x ∈ rows, x ∈ V.users ∧ x.id = u) ?_)
    fun rows => leads_findUser
  intro S V e hp
  exact ⟨hp, fun x hx => by simpa [database, Query.answer] using hx⟩

theorem leads_authenticated (u : Uuid) :
    Ensures (promise Γ) me S0 (Tidy ∅) (findUserByIdForAuthentication u) (Found fun x => x.id = u) := leads_userById u

/-- The live user with an email, if there is one. -/
theorem leads_userByEmail (email : Text) :
    Ensures (promise Γ) me S0 (Tidy ∅) (findUserByEmail email) (Found fun x => x.deletedAt = none) := by
  refine leads_bind (leads_select (.userByEmail email) (Q := fun (rows : List User) (S V : Store) e => Tidy ∅ S V e ∧
    ∀ x ∈ rows, x ∈ V.users ∧ x.deletedAt = none) ?_) fun rows => leads_findUser
  intro S V e hp
  refine ⟨hp, ?_⟩
  intro x hx
  have hx : x ∈ V.users.filter fun u => Γ.sqlLower u.email = email && u.deletedAt.isNone := hx
  simp only [List.mem_filter, Bool.and_eq_true, Option.isNone_iff_eq_none] at hx
  exact ⟨hx.1, hx.2.2⟩

/-- The live user that an identity may be linked to, if there is one. -/
theorem leads_linkedUser (email : Text) :
    Ensures (promise Γ) me S0 (Tidy ∅) (findUserByVerifiedEmailForOidcLink email) (Found fun x => x.deletedAt = none) := by
  refine leads_bind (leads_select (.activeUserByEmail (Γ.normalizeEmail email)) (Q := fun (rows : List User) (S V : Store) e => Tidy ∅ S V e ∧
    ∀ x ∈ rows, x ∈ V.users ∧ x.deletedAt = none) ?_) fun rows => leads_findUser
  intro S V e hp
  refine ⟨hp, ?_⟩
  intro x hx
  have hx : x ∈ V.users.filter fun u => Γ.sqlLower u.email = Γ.normalizeEmail email && u.deletedAt.isNone && u.isActive := hx
  simp only [List.mem_filter, Bool.and_eq_true, Option.isNone_iff_eq_none] at hx
  exact ⟨hx.1, hx.2.1.2⟩

/-- The row of a user that is read back. -/
theorem leads_refreshedUser {us : Set Uuid} (u : Uuid) :
    Ensures (promise Γ) me S0 (Tidy us) (query (.userById u) >>= refreshed) fun (x : User) S V e => Tidy us S V e ∧ x.id = u := by
  refine leads_bind (leads_select (.userById u) (Q := fun (rows : List User) (S V : Store) e => Tidy us S V e ∧ ∀ x ∈ rows, x.id = u) ?_) fun rows => ?_
  · intro S V e hp
    refine ⟨hp, ?_⟩
    intro x hx
    have hx : x ∈ V.users.filter fun x => x.id = u := hx
    simpa using (List.mem_filter.1 hx).2
  · refine leads_refreshed ?_
    rintro x S V e hp rfl
    exact ⟨hp.1, hp.2 x (List.mem_singleton_self x)⟩

/-- The row of a user that is not deleted, read back. -/
theorem leads_refreshedLive (u : Uuid) :
    Ensures (promise Γ) me S0 (Tidy {u}) (query (.userById u) >>= refreshed) fun (x : User) => Tidy {x.id} := by
  refine leads_weaken (leads_refreshedUser u) ?_
  rintro x S V e ⟨htidy, rfl⟩
  exact htidy

/-- A user that is created is not deleted. -/
theorem leads_createUser (email : Text) (passwordHash : Option Text) (isActive : Bool) (languageCode : LanguageCode) :
    Ensures (promise Γ) me S0 (Tidy ∅) (createUser true email passwordHash isActive languageCode) fun user => Tidy {user.id} := by
  refine leads_bind (leads_inner within_newId) fun (id : Uuid) => ?_
  refine leads_bind (leads_inner within_utcnow) fun registeredAt => ?_
  refine leads_bind (leads_inner within_utcnow) fun modifiedAt => ?_
  refine leads_attempt_bind (Q := fun _ => On me (Tidy {id})) (leads_insertRow ?_) (fun _ => ?_) fun error => ?_
  · intro S V e ht hv
    have hgentle : Gentle ∅ V (.insertUser (User.bind ⟨id, email, passwordHash, isActive, languageCode, registeredAt, modifiedAt,
        none, none⟩)) := by
      refine ⟨rfl, ?_⟩
      simp only [Write.violates, Bool.or_eq_false_iff] at hv
      exact hv.1
    have ht' := tidy_apply hgentle ht
    refine ⟨ht'.1, ht'.2.1, ?_⟩
    rintro u rfl
    rw [isDeleted_apply hgentle]
    have hnew := hgentle.2
    simp only [hasUser, List.any_eq_false] at hnew
    simp only [isDeleted, List.any_eq_false, Bool.and_eq_true, not_and]
    intro x hx hid
    exact absurd hid (hnew x hx)
  · exact leads_refreshedLive id
  · cases error <;> exact leads_throw _

/-- The user that a login is recorded for is still not deleted. -/
theorem leads_recordUserLogin {loaded : Option User} {u : Uuid} {t : DateTime} :
    Ensures (promise Γ) me S0 (Tidy {u}) (recordUserLogin loaded u t) fun x => Tidy {x.id} := by
  refine leads_bind (leads_inner (within_getUserById loaded u)) fun user => ?_
  cases user with
  | none => exact leads_throw _
  | some user =>
    refine leads_bind (leads_inner (within_require _ _)) fun _ => ?_
    refine leads_bind (leads_inner (within_updateRow (Or.inr (kind_inner rfl)))) fun _ => ?_
    exact leads_refreshedLive u

/-- A login is recorded of a user that is not deleted. -/
theorem leads_recordLogin (u : Uuid) (t : DateTime) :
    Ensures (promise Γ) me S0 (Tidy ∅) (recordUserLogin none u t) fun x => Tidy {x.id} := by
  refine leads_bind (leads_userById u) fun user => ?_
  cases user with
  | none => exact leads_throw _
  | some user =>
    refine leads_bind leads_require fun _ => ?_
    refine leads_bind (Q := fun _ => On me (Tidy {u})) ?_ fun _ => ?_
    · refine leads_strengthen (leads_inner (within_updateRow (Or.inr (kind_inner rfl)))) ?_
      rintro S V e ⟨hlive, htidy, hfound⟩
      obtain ⟨hmem, hid⟩ := hfound user rfl
      rw [← hid]
      exact htidy.live hmem (by simpa using hlive)
    · exact leads_refreshedLive u

/-- The session of a user that is not deleted. -/
theorem leads_issue {user : User} (token ipAddress userAgent : Option Text) :
    Ensures (promise Γ) me S0 (Tidy {user.id}) (replaceAuthSession user token ipAddress userAgent) fun _ => Tidy {user.id} :=
  leads_inner (within_replaceAuthSession (by simp [inner, gentle]) (by simp [inner, gentle]) (by simp [inner, gentle]))

/-- An audit log about something else. -/
theorem leads_audit {us : Set Uuid} {entry : AuditEntry} (h : entry.eventType ≠ .userMarkedDeleted) :
    Ensures (promise Γ) me S0 (Tidy us) (createAuditLog true entry) fun _ => Tidy us :=
  leads_inner (within_createAuditLog (Or.inl rfl) h)

theorem tidy_empty {us : Set Uuid} {S V : Store} {e : Env} (h : Tidy us S V e) : Tidy ∅ S V e := ⟨h.1, h.2.1, nofun⟩

/-- A transaction whose body keeps deleted users wiped. -/
theorem leads_liveTransaction {P : Assertion (database Γ)} {body : Service Γ α} {us : α → Set Uuid}
    (hbody : Ensures (promise Γ) me S0 (Tidy ∅) body fun a => Tidy (us a)) :
    Ensures (promise Γ) me S0 P (transaction body) fun a S V e =>
      Sound (promise Γ) S V e ∧ ∀ u ∈ us a, isDeleted S u = false := by
  refine transaction_leads stable_on ?_ hbody ?_
  · intro db _ _ hinv _
    exact ⟨hinv, Kept.refl _, nofun⟩
  · intro a S V e e' ht _ _ _
    exact ⟨ht.1, ht.2.1, ⟨ht.1, Kept.refl _⟩, ht.2.2⟩

/-- A transaction whose body keeps the view tidy keeps the promise. -/
theorem leads_tidyTransaction {P : Assertion (database Γ)} {body : Service Γ α} (us : α → Set Uuid)
    (hbody : Ensures (promise Γ) me S0 (Tidy ∅) body fun a => Tidy (us a)) :
    Ensures (promise Γ) me S0 P (transaction body) fun _ => Sound (promise Γ) :=
  leads_weaken (leads_liveTransaction hbody) fun _ _ _ _ h => h.1

/-- An audit log of its own, whatever went before. -/
theorem leads_auditAnyhow {entry : AuditEntry} (h : entry.eventType ≠ .userMarkedDeleted) :
    Leads (contract (promise Γ) me S0) me (fun _ => True) (createAuditLog false entry) fun _ _ => True := by
  refine leads_true (sessionScope_leads (B := Tidy ∅) (Q := fun _ => Sound (promise Γ)) (R := fun _ _ _ _ => True) stable_true
    ?_ ?_ fun _ _ _ _ _ _ _ _ _ => trivial)
  · intro db _ _ hinv _
    exact ⟨hinv, Kept.refl _, nofun⟩
  · refine leads_bind (leads_inner (within_insertAudit (Or.inl h))) fun _ => leads_commit ?_
    intro S V e e' ht _ _ _
    exact ⟨ht.1, ht.2.1, ht.1, Kept.refl _⟩

/-! ## The operations -/

/-- A failed registration may end in any state. -/
theorem leads_registerFailedAnyhow (userId : Option Uuid) (ip email : Text) (ipAddress userAgent : Option Text) :
    Leads (contract (promise Γ) me S0) me (fun _ => True) (registerFailed userId ip email ipAddress userAgent)
      fun _ _ => True :=
  leads_bind (leads_callAnyhow _) fun _ => leads_auditAnyhow (by simp)

/-- The transaction of a registration. -/
theorem leads_registerTransaction {P : Assertion (database Γ)} (email password : Text) (languageCode : LanguageCode)
    (token ipAddress userAgent : Option Text) :
    Ensures (promise Γ) me S0 P (registerTransaction email password languageCode token ipAddress userAgent)
      fun _ => Sound (promise Γ) := by
  refine leads_tidyTransaction (fun x => {x.1.id}) ?_
  refine leads_bind (leads_inner (within_call rfl)) fun passwordHash => leads_bind (leads_createUser _ _ _ _) fun user => ?_
  refine leads_bind (leads_inner within_utcnow) fun loginAt => leads_bind leads_recordUserLogin fun user => ?_
  refine leads_bind (leads_issue _ _ _) fun issued => leads_bind (leads_audit (by simp)) fun _ => ?_
  exact leads_done fun _ _ _ ht => ht

/-- A registration keeps the promise. -/
theorem leads_register (email password : Text) (languageCode : LanguageCode) (token ipAddress userAgent : Option Text) :
    Leads (contract (promise Γ) me S0) me (On me (Sound (promise Γ)))
      (register email password languageCode token ipAddress userAgent) fun _ _ => True := by
  refine leads_bind (leads_outer (within_limiter _)) fun _ => leads_bind (leads_outer (within_require _ _)) fun _ => ?_
  refine leads_bind (leads_outer (within_limiter _)) fun _ => leads_bind (leads_outer (within_require _ _)) fun _ => ?_
  split
  · exact leads_bind (leads_outer (within_limiter _)) fun _ => leads_throw _
  · refine leads_bind (leads_outer (within_findUserByEmail _)) fun existing => ?_
    cases existing with
    | some existing =>
      exact leads_bind (leads_outer (within_registerFailed (by simp [gentle]))) fun _ => leads_throw _
    | none =>
      refine leads_attempt_bind (leads_registerTransaction _ _ _ _ _ _) (fun issued => ?_) fun error => ?_
      · exact leads_bind (leads_outer (within_limiter _)) fun _ => leads_end
      · cases error with
        | emailAlreadyRegistered => exact leads_bind (leads_registerFailedAnyhow _ _ _ _ _) fun _ => leads_throw _
        | _ => exact leads_throw _

/-- A login keeps the promise. -/
theorem leads_login (email password : Text) (token ipAddress userAgent : Option Text) :
    Leads (contract (promise Γ) me S0) me (On me (Sound (promise Γ)))
      (login email password token ipAddress userAgent) fun _ _ => True := by
  refine leads_bind (leads_outer (within_limiter _)) fun _ => leads_bind (leads_outer (within_require _ _)) fun _ => ?_
  refine leads_bind (leads_outer (within_findUserByEmail _)) fun user => ?_
  refine leads_bind (leads_outer (within_call rfl)) fun passwordMatches => ?_
  split
  · refine leads_bind (leads_outer (within_limiter _)) fun _ => ?_
    exact leads_bind (leads_outer (within_createAuditLog (Or.inr (by simp [gentle])) (by simp))) fun _ => leads_throw _
  · refine leads_bind (Q := fun _ => On me (Sound (promise Γ))) ?_ fun issued => ?_
    · refine leads_tidyTransaction (fun x => {x.1.id}) ?_
      refine leads_bind (leads_inner within_utcnow) fun loginAt => leads_bind (leads_recordLogin _ _) fun user => ?_
      refine leads_bind (leads_issue _ _ _) fun issued => leads_bind (leads_audit (by simp)) fun _ => ?_
      exact leads_done fun _ _ _ ht => ht
    · refine leads_bind (leads_outer (within_limiter _)) fun _ => ?_
      refine leads_bind (leads_outer (within_authorizationForExistingUser _)) fun authorization => ?_
      exact leads_end

/-- An identity is given to a user that is not deleted. -/
theorem leads_createIdentity {provider : OidcProviderSettings} {claims : OidcVerifiedClaims} {u : Uuid} :
    Ensures (promise Γ) me S0 (Tidy {u}) (createIdentityForClaims provider claims u) fun _ => Tidy {u} :=
  leads_inner (within_createIdentityForClaims (by simp [inner, gentle]))

/-- The user of a login at a provider is not deleted. -/
theorem leads_resolve (provider : OidcProviderSettings) (claims : OidcVerifiedClaims) (languageCode : Option LanguageCode) :
    Ensures (promise Γ) me S0 (Tidy ∅) (resolveLoginUserAndIdentity provider claims languageCode)
      fun x S V e => Tidy {x.1.id} S V e ∧ AuthEventType.userMarkedDeleted ∉ x.2.2 := by
  refine leads_bind (leads_inner (within_findIdentityByProviderSubject _ _)) fun identity => ?_
  cases identity with
  | some identity =>
    refine leads_bind (leads_authenticated _) fun user => ?_
    cases user with
    | none => exact leads_throw _
    | some user =>
      refine leads_bind leads_require fun _ => leads_done ?_
      rintro S V e ⟨hlive, htidy, hfound⟩
      simp only [Bool.and_eq_true, Option.isNone_iff_eq_none] at hlive
      exact ⟨htidy.live (hfound user rfl).1 hlive.1, nofun⟩
  | none =>
    refine leads_bind (leads_inner (within_ofExcept _)) fun email => ?_
    refine leads_bind (leads_linkedUser _) fun linked => ?_
    cases linked with
    | some linked =>
      refine leads_strengthen (P := Tidy {linked.id}) ?_ ?_
      · refine leads_bind (leads_inner (within_require _ _)) fun _ => leads_bind (leads_inner (within_require _ _)) fun _ => ?_
        exact leads_bind leads_createIdentity fun identity => leads_done fun _ _ _ ht => ⟨ht, by simp⟩
      · rintro S V e ⟨htidy, hfound⟩
        exact htidy.live (hfound linked rfl).1 (hfound linked rfl).2
    | none =>
      refine leads_strengthen (P := Tidy ∅) ?_ fun S V e h => h.1
      refine leads_bind (leads_inner (within_findUserByEmailForOidcCollision _)) fun collision => ?_
      cases collision with
      | some _ => exact leads_throw _
      | none =>
        refine leads_bind (leads_inner (within_require _ _)) fun _ => ?_
        refine leads_attempt_bind (leads_createUser _ _ _ _) (fun user => ?_) fun error => ?_
        · exact leads_bind leads_createIdentity fun identity => leads_done fun _ _ _ ht => ⟨ht, by simp⟩
        · cases error <;> exact leads_throw _

/-- The login of a callback keeps the promise. -/
theorem leads_loginCallback (provider : OidcProviderSettings) (oidcState : AuthOidcState) (claims : OidcVerifiedClaims)
    (token ipAddress userAgent : Option Text) :
    Leads (contract (promise Γ) me S0) me (On me (Sound (promise Γ)))
      (completeLoginCallback provider oidcState claims token ipAddress userAgent) fun _ _ => True := by
  refine leads_bind (Q := fun _ => On me (Sound (promise Γ))) ?_ fun issued => ?_
  · refine leads_tidyTransaction (fun x => {x.1.id}) ?_
    refine leads_bind (leads_resolve _ _ _) fun resolved => ?_
    obtain ⟨user, identity, setupAudits⟩ := resolved
    by_cases hset : AuthEventType.userMarkedDeleted ∈ setupAudits
    · intro db hdb
      obtain ⟨_, _, _, hno⟩ := hdb
      exact absurd hset hno
    · refine leads_strengthen (P := Tidy {user.id}) ?_ fun S V e h => h.1
      refine leads_bind (leads_inner within_utcnow) fun loginAt => leads_bind leads_recordUserLogin fun user => ?_
      refine leads_bind (leads_issue _ _ _) fun issued => ?_
      refine leads_bind (leads_inner (within_recordOidcLogin (by simp [inner, gentle]) (by simp [inner, gentle]))) fun _ => ?_
      refine leads_bind (leads_inner (within_eachAudit ?_)) fun _ => ?_
      · intro eventType hevent heq
        have heq : eventType = .userMarkedDeleted := heq
        rw [heq] at hevent
        exact hset hevent
      · refine leads_bind (leads_audit (by simp [oidcAudit])) fun _ => leads_done fun _ _ _ ht => ht
  · exact leads_bind (leads_outer (within_authorizationForExistingUser _)) fun _ => leads_end

/-- The audit of a failed callback may end in any state. -/
theorem leads_auditCallbackFailure (provider : OidcProviderSettings) (oidcState : AuthOidcState) (error : AuthError)
    (session : Option AuthenticatedSessionContext) (ipAddress userAgent : Option Text) :
    Leads (contract (promise Γ) me S0) me (fun _ => True)
      (auditCallbackFailure provider oidcState error session ipAddress userAgent) fun _ _ => True := by
  unfold auditCallbackFailure
  split
  · exact leads_auditAnyhow (by simp)
  · exact leads_auditAnyhow (by simp)

/-- A callback keeps the promise. -/
theorem leads_completeCallback (providerId state code : Text) (binding : Option Text)
    (session : Option AuthenticatedSessionContext) (token ipAddress userAgent : Option Text) :
    Leads (contract (promise Γ) me S0) me (On me (Sound (promise Γ)))
      (completeCallback providerId state code binding session token ipAddress userAgent) fun _ _ => True := by
  unfold completeCallback
  split
  · exact leads_throw _
  · rename_i provider _
    refine leads_bind (leads_outer (within_consumeCallbackState (by simp [gentle]) (by simp [gentle]))) fun oidcState => ?_
    refine leads_attempt_bind (Q := fun _ _ => True) ?_ (fun result => ?_) fun error => ?_
    · refine leads_bind (leads_outer ?_) fun idToken => leads_bind (leads_outer (within_validateIdToken _ _ _ _)) fun claims => ?_
      · exact Prog.emits_perform.2 (Or.inr (by simp [gentle, kind, Ext.kind]))
      · split
        · exact leads_true (leads_outer (within_completeReauthCallback (by simp [gentle]) (by simp [gentle])))
        · exact leads_loginCallback _ _ _ _ _ _
    · exact leads_end
    · exact leads_bind (leads_auditCallbackFailure _ _ _ _ _ _) fun _ => leads_throw _

/-- Roles are given to a user that is not deleted. -/
theorem leads_replaceRoles {actor : AuthenticatedSessionContext} {u : Uuid} {codes : List Text}
    {ipAddress userAgent : Option Text} :
    Ensures (promise Γ) me S0 (Tidy {u}) (replaceRolesWithAudit actor u codes ipAddress userAgent) fun _ => Tidy {u} :=
  leads_inner (within_replaceRolesWithAudit (by simp [inner, gentle]) (by simp [inner, gentle]))

/-- An administrator's new user keeps the promise. -/
theorem leads_adminCreateUser (actor : AuthenticatedSessionContext) (email password : Text) (isActive : Bool)
    (roles : List Text) (ipAddress userAgent : Option Text) :
    Leads (contract (promise Γ) me S0) me (On me (Sound (promise Γ)))
      (adminCreateUser actor email password isActive roles ipAddress userAgent) fun _ _ => True := by
  refine leads_bind (leads_outer (within_ofExcept _)) fun roles => ?_
  refine leads_bind (leads_outer (within_hashValidPassword _)) fun passwordHash => ?_
  refine leads_true (leads_tidyTransaction (fun _ => ∅) ?_)
  refine leads_bind (leads_createUser _ _ _ _) fun user => leads_bind (leads_audit (by simp [adminAudit])) fun _ => ?_
  refine leads_bind leads_replaceRoles fun _ => ?_
  exact leads_weaken (leads_inner (within_detailForUser _)) fun _ _ _ _ ht => tidy_empty ht

/-- The user of an update is not deleted. -/
theorem leads_updateUserRow (u : Uuid) (changes : AdminUserUpdateChanges) (passwordHash : Option Text) :
    Ensures (promise Γ) me S0 (Tidy ∅) (updateUserRow u changes passwordHash) fun x => Tidy {x.id} := by
  refine leads_bind (leads_select (.liveUserById u) (Q := fun (rows : List User) (S V : Store) e => Tidy ∅ S V e ∧
    ∀ x ∈ rows, x ∈ V.users ∧ x.id = u ∧ x.deletedAt = none) ?_) fun rows => leads_bind leads_findUser fun user => ?_
  · intro S V e hp
    refine ⟨hp, ?_⟩
    intro x hx
    have hx : x ∈ V.users.filter fun x => x.id = u && x.deletedAt.isNone := hx
    simpa using hx
  · cases user with
    | none => exact leads_throw _
    | some user =>
      refine leads_strengthen (P := Tidy {u}) ?_ ?_
      · refine leads_bind (leads_inner (within_require _ _)) fun _ => leads_bind (leads_inner (within_require _ _)) fun _ => ?_
        refine leads_bind (leads_inner (within_require _ _)) fun _ => leads_bind (leads_inner within_utcnow) fun modifiedAt => ?_
        refine leads_attempt_bind (leads_inner (within_updateRow (Or.inr (kind_inner rfl)))) (fun _ => ?_) fun error => ?_
        · exact leads_refreshedLive u
        · cases error <;> exact leads_throw _
      · rintro S V e ⟨htidy, hfound⟩
        obtain ⟨hmem, hid, hlive⟩ := hfound user rfl
        rw [← hid]
        exact htidy.live hmem hlive

/-- An administrator's update keeps the promise: roles are given only to a live user. -/
theorem leads_adminUpdateUser (actor : AuthenticatedSessionContext) (u : Uuid) (changes : AdminUserUpdateChanges)
    (ipAddress userAgent : Option Text) :
    Leads (contract (promise Γ) me S0) me (On me (Sound (promise Γ)))
      (adminUpdateUser actor u changes ipAddress userAgent) fun _ _ => True := by
  unfold adminUpdateUser
  split
  · exact leads_true (leads_outer (within_adminGetUser u))
  · refine leads_bind (leads_outer (within_ofExcept _)) fun roles => ?_
    refine leads_bind (leads_outer (within_changedPasswordHash _)) fun passwordHash => ?_
    refine leads_bind (leads_outer within_utcnow) fun revokedAt => leads_true (leads_tidyTransaction (fun _ => ∅) ?_)
    refine leads_bind (leads_updateUserRow _ _ _) fun user => ?_
    refine leads_bind (Q := fun _ => On me (Tidy {user.id})) ?_ fun _ => ?_
    · unfold replaceChangedRoles
      split
      · exact leads_done fun _ _ _ ht => ht
      · exact leads_bind leads_replaceRoles fun _ => leads_done fun _ _ _ ht => ht
    · refine leads_bind (leads_inner (within_whenever
        ((within_revokeSessionsForUser (by simp [inner, gentle])).bind fun _ => within_pure _))) fun _ => ?_
      refine leads_bind (leads_audit (by simp [adminAudit])) fun _ => ?_
      exact leads_weaken (leads_inner (within_detailForUser _)) fun _ _ _ _ ht => tidy_empty ht

/-- A replacement of roles keeps the promise. -/
theorem leads_replaceUserRoles (actor : AuthenticatedSessionContext) (u : Uuid) (codes : List Text)
    (ipAddress userAgent : Option Text) :
    Leads (contract (promise Γ) me S0) me (On me (Sound (promise Γ)))
      (replaceUserRoles actor u codes ipAddress userAgent) fun _ _ => True := by
  refine leads_bind (leads_outer (within_ofExcept _)) fun roles => leads_true (leads_tidyTransaction (fun _ => {u}) ?_)
  refine leads_bind (leads_authenticated u) fun user => ?_
  cases user with
  | none => exact leads_throw _
  | some user =>
    refine leads_bind leads_require fun _ => leads_strengthen leads_replaceRoles ?_
    rintro S V e ⟨hlive, htidy, hfound⟩
    obtain ⟨hmem, hid⟩ := hfound user rfl
    rw [← hid]
    exact htidy.live hmem (by simpa using hlive)

/-- A granted role is given to a user that is not deleted. -/
theorem leads_grantRole {source : String} {u : Uuid} {role : Text} :
    Ensures (promise Γ) me S0 (Tidy {u}) (grantRole source u role) fun _ => Tidy {u} :=
  leads_inner (within_grantRole (by simp [inner, gentle]) (by simp [inner, gentle]))

/-- The command `grant-role` keeps the promise. -/
theorem leads_authzGrantRole (email role : Text) :
    Leads (contract (promise Γ) me S0) me (On me (Sound (promise Γ))) (authzGrantRole email role) fun _ _ => True := by
  unfold authzGrantRole
  split
  · exact leads_throw _
  · refine leads_true (leads_tidyTransaction (fun _ => ∅) ?_)
    refine leads_bind (leads_userByEmail _) fun user => ?_
    cases user with
    | none => exact leads_throw _
    | some user =>
      refine leads_weaken (leads_strengthen leads_grantRole ?_) fun _ _ _ _ ht => tidy_empty ht
      rintro S V e ⟨htidy, hfound⟩
      exact htidy.live (hfound user rfl).1 (hfound user rfl).2

/-- `seed_admin` keeps the promise. -/
theorem leads_seedAdmin : Leads (contract (promise Γ) me S0) me (On me (Sound (promise Γ))) seedAdmin fun _ _ => True := by
  refine leads_bind (leads_outer (within_call rfl)) fun passwordHash => leads_true (leads_tidyTransaction (fun _ => ∅) ?_)
  refine leads_bind (Q := fun user : User => On me (Tidy {user.id})) ?_ fun user => ?_
  · refine leads_bind (leads_userByEmail _) fun user => ?_
    cases user with
    | none => exact leads_strengthen (leads_createUser _ _ _ _) fun _ _ _ h => h.1
    | some user => exact leads_strengthen (leads_updateUserRow _ _ _) fun _ _ _ h => h.1
  · exact leads_weaken leads_grantRole fun _ _ _ _ ht => tidy_empty ht

/-! ## Authenticated items -/

/-- The users of a context. -/
def usersOf (context : Option AuthenticatedSessionContext) : Set Uuid := { u | ∃ c ∈ context, c.user.id = u }

/-- The user of a context is not deleted when the context is made. -/
theorem leads_contextOfFound (tokenHash : Text) (ipAddress userAgent : Option Text) (found : Option AuthSession) :
    Ensures (promise Γ) me S0 (Tidy ∅) (contextOfFound tokenHash ipAddress userAgent found) fun r => Tidy (usersOf r) := by
  have hnone : usersOf none = ∅ := by simp [usersOf]
  cases found with
  | none =>
    refine leads_bind (leads_inner (within_auditKnownRejectedSession (Or.inl rfl))) fun _ => leads_done ?_
    intro S V e ht
    rw [hnone]
    exact ht
  | some session =>
    refine leads_bind (leads_authenticated _) fun user => ?_
    cases user with
    | none =>
      refine leads_strengthen (P := Tidy ∅) ?_ fun _ _ _ h => h.1
      refine leads_bind (leads_inner (within_rejectSession (by simp) (by simp [inner, gentle]))) fun _ => leads_done ?_
      intro S V e ht
      rw [hnone]
      exact ht
    | some user =>
      have hreject : ∀ eventType, eventType ≠ .userMarkedDeleted →
          Ensures (promise Γ) me S0 (Tidy ∅) (rejectUserSessions session eventType user.id ipAddress userAgent >>= fun _ =>
            (pure none : Service Γ (Option AuthenticatedSessionContext))) fun r => Tidy (usersOf r) := by
        intro eventType hne
        refine leads_bind (leads_inner (within_rejectUserSessions hne (by simp [inner, gentle]))) fun _ => leads_done ?_
        intro S V e ht
        rw [hnone]
        exact ht
      show Ensures (promise Γ) me S0 _ (if user.deletedAt.isSome then _ else _) _
      split
      · exact leads_strengthen (hreject _ (by simp)) fun _ _ _ h => h.1
      · rename_i hlive
        split
        · exact leads_strengthen (hreject _ (by simp)) fun _ _ _ h => h.1
        · refine leads_strengthen (P := Tidy {user.id}) ?_ ?_
          · refine leads_bind (leads_inner (within_refreshSession (by simp [inner, gentle]))) fun session => ?_
            refine leads_bind (leads_inner (within_authorizationForExistingUser _)) fun authorization => leads_done ?_
            intro S V e ht
            have hone : usersOf (some ⟨user, session, authorization.1, authorization.2⟩) = {user.id} := by
              ext u
              simp [usersOf, eq_comm]
            rw [hone]
            exact ht
          · rintro S V e ⟨htidy, hfound⟩
            exact htidy.live (hfound user rfl).1 (by simpa using hlive)

/-- The user of a context is not deleted when the authentication commits. -/
theorem leads_authenticateSession (token ipAddress userAgent : Option Text) :
    Ensures (promise Γ) me S0 (Sound (promise Γ)) (authenticateSession token ipAddress userAgent) fun r S V e =>
      Sound (promise Γ) S V e ∧ ∀ u ∈ usersOf r, isDeleted S u = false := by
  unfold authenticateSession
  split
  · refine leads_done fun S V e h => ⟨h, ?_⟩
    rintro u ⟨c, hc, _⟩
    cases hc
  · refine leads_liveTransaction (leads_bind (leads_inner (within_findActiveSessionByTokenHash (by simp [inner, gentle])))
      fun found => leads_contextOfFound _ _ _ _)

/-- A request for an item gives it to the user that it has authenticated. -/
theorem leads_createItem (token ipAddress userAgent : Option Text) (title : Text) (description : Option Text) :
    Leads (contract (promise Γ) me S0) me (On me (Sound (promise Γ)))
      (createItemRequest token ipAddress userAgent title description) fun _ _ => True := by
  refine leads_bind (leads_authenticateSession _ _ _) fun context => ?_
  cases context with
  | none => exact leads_end
  | some context =>
    refine leads_bind (Q := fun _ _ => True) ?_ fun _ => leads_end
    have hkeeps : ∀ {β : Type} {p : Service Γ β}, Within (inner ∅) p →
        Ensures (promise Γ) me S0 (fun S _ _ => isDeleted S context.user.id = false) p
          fun _ S _ _ => isDeleted S context.user.id = false :=
      fun h => leads_within h ⟨fun _ hp _ => hp, fun _ _ hp => hp⟩ fun hk => hk.2 rfl
    refine leads_strengthen (P := fun S _ _ => isDeleted S context.user.id = false) ?_ ?_
    · refine leads_bind (hkeeps within_newId) fun id => leads_bind (hkeeps within_utcnow) fun registeredAt => ?_
      refine leads_bind (hkeeps within_utcnow) fun modifiedAt => ?_
      refine leads_true (sessionScope_leads (B := Tidy {context.user.id}) (Q := fun _ => Sound (promise Γ))
        (R := fun _ _ _ _ => True) stable_on ?_ ?_ fun _ _ _ _ _ _ _ _ _ => trivial)
      · rintro db ⟨e, _, hlive⟩ _ hinv _
        refine ⟨hinv, Kept.refl _, ?_⟩
        rintro u rfl
        exact hlive
      · refine leads_bind (leads_inner (within_insert (Or.inr (by simp [inner, gentle, Write.kind, SampleItem.bind])))) fun _ => ?_
        refine leads_bind (leads_commit (Q := fun _ => Sound (promise Γ)) ?_) fun _ => leads_done fun _ _ _ h => h
        intro S V e e' ht _ _ _
        exact ⟨ht.1, ht.2.1, ht.1, Kept.refl _⟩
    · rintro S V e ⟨_, hlive⟩
      exact hlive context.user.id ⟨context, rfl, rfl⟩

/-! ## Deletions -/

/-- A statement of the kinds that are allowed keeps the view tidy, whatever rows it found. -/
theorem tidy_statement {us : Set Uuid} {S V V' : Store} {e : Env} {s : Stmt} (hs : s.kind = .neutral ∨ s.kind ∈ gentle us)
    (ht : Tidy us S V e) : Tidy us S (applyAll (D := database Γ) ((s.rows V').filterMap s.change) V) e := by
  refine applyAll_induct (D := database Γ) (P := fun V : Store => Tidy us S V e) ht ?_
  intro w hw V hV
  obtain ⟨key, _, hchange⟩ := List.mem_filterMap.1 hw
  exact tidy_apply (gentle_change hs hchange) hV

/-- The user owns no items, roles and identities. -/
structure Stripped (u : Uuid) (V : Store) : Prop where
  items : ∀ x ∈ V.items, x.ownerUserId ≠ u
  roles : ∀ r ∈ V.roles, r.userId ≠ u
  identities : ∀ x ∈ V.identities, x.userId ≠ u

/-- The rows of a table without those of a user. -/
theorem not_owned {β : Type} {rows : List β} {id owner : β → Uuid} {u : Uuid} {x : β}
    (hx : x ∈ rows.filter fun x => id x ∉ (rows.filter fun x => owner x = u).map id) : x ∈ rows ∧ owner x ≠ u := by
  obtain ⟨hx, hid⟩ := List.mem_filter.1 hx
  refine ⟨hx, ?_⟩
  intro howner
  have hid := of_decide_eq_true hid
  exact hid (List.mem_map_of_mem (List.mem_filter.2 ⟨hx, decide_eq_true howner⟩))

/-- A deletion first removes what the user owns. -/
theorem leads_strip (u : Uuid) {f : Service Γ α} {Q : α → Assertion (database Γ)}
    (hf : Ensures (promise Γ) me S0 (fun S V e => Tidy ∅ S V e ∧ Stripped u V) f Q) :
    Ensures (promise Γ) me S0 (Tidy ∅) (do
      deleteAllForOwner u
      let _ ← deleteRolesForUser u
      let _ ← deleteAuthIdentitiesForUser u
      f) Q := by
  refine leads_bind (Q := fun _ => On me fun (S V : Store) e => Tidy ∅ S V e ∧ ∀ x ∈ V.items, x.ownerUserId ≠ u) ?_ fun _ => ?_
  · refine leads_bind (leads_statement ?_) fun _ => leads_done fun _ _ _ h => h
    intro S V e ht
    refine ⟨tidy_statement (Or.inl rfl) ht, ?_⟩
    rw [changes_deleteItemsForOwner, applyAll_deleteItems]
    intro x hx
    exact (not_owned hx).2
  refine leads_bind (Q := fun _ => On me fun (S V : Store) e => Tidy ∅ S V e ∧ (∀ x ∈ V.items, x.ownerUserId ≠ u) ∧
    ∀ r ∈ V.roles, r.userId ≠ u) ?_ fun _ => ?_
  · refine leads_bind (leads_statement (Q := fun _ (S V : Store) e => Tidy ∅ S V e ∧ (∀ x ∈ V.items, x.ownerUserId ≠ u) ∧
      ∀ r ∈ V.roles, r.userId ≠ u) ?_) fun _ => leads_done fun _ _ _ h => h
    rintro S V e ⟨ht, hitems⟩
    refine ⟨tidy_statement (Or.inl rfl) ht, ?_⟩
    rw [changes_deleteRolesForUser, applyAll_deleteRoles]
    exact ⟨hitems, fun r hr => (not_owned hr).2⟩
  refine leads_bind (Q := fun _ => On me fun (S V : Store) e => Tidy ∅ S V e ∧ Stripped u V) ?_ fun _ => hf
  refine leads_bind (leads_statement (Q := fun _ (S V : Store) e => Tidy ∅ S V e ∧ Stripped u V) ?_) fun _ => leads_done fun _ _ _ h => h
  rintro S V e ⟨ht, hitems, hroles⟩
  refine ⟨tidy_statement (Or.inl rfl) ht, ?_⟩
  rw [changes_deleteIdentitiesForUser, applyAll_deleteIdentities]
  exact ⟨hitems, hroles, fun x hx => (not_owned hx).2⟩

/-- The view keeps the promise but for the sessions of a user that was marked. -/
def Closing (u : Uuid) (S V : Store) (_ : Env) : Prop := Wiped (some u) V ∧ Kept S V

theorem Tidy.closing {us : Set Uuid} {S V : Store} {e : Env} (h : Tidy us S V e) (u : Uuid) : Closing u S V e :=
  ⟨{ h.1 with sessions := fun s hs hd _ => h.1.sessions s hs hd nofun }, h.2.1⟩

/-- The update that marks a user. -/
def markPatch (t : DateTime) : UserPatch := { deletedAt := some (some t), modifiedAt := some t }

/-- Marking a user changes one row, which was not deleted. -/
theorem changes_markUserDeleted {V : Store} (hids : (V.users.map User.id).Nodup) {u : Uuid} {t : DateTime}
    (hrows : (Stmt.markUserDeleted u t).rows V ≠ []) :
    ((Stmt.markUserDeleted u t).rows V).filterMap (Stmt.change (.markUserDeleted u t)) = [.patchUser u (markPatch t)] ∧
      ∃ x ∈ V.users, x.id = u ∧ x.deletedAt = none := by
  have hfilter : ∀ x ∈ V.users.filter fun x => x.id = u && x.deletedAt.isNone, x ∈ V.users ∧ x.id = u ∧ x.deletedAt = none := by
    intro x hx
    simpa using hx
  simp only [Stmt.rows, List.filterMap_map]
  rcases hcases : V.users.filter fun x => x.id = u && x.deletedAt.isNone with _ | ⟨x, _ | ⟨y, rest⟩⟩
  · simp only [Stmt.rows] at hrows
    rw [hcases] at hrows
    exact absurd rfl hrows
  · obtain ⟨hmem, hid, hlive⟩ := hfilter x (by rw [hcases]; exact List.mem_singleton_self x)
    refine ⟨?_, x, hmem, hid, hlive⟩
    rw [hcases, ← hid]
    rfl
  · obtain ⟨hx, hidx, _⟩ := hfilter x (by rw [hcases]; simp)
    obtain ⟨hy, hidy, _⟩ := hfilter y (by rw [hcases]; simp)
    have hnodup : ((V.users.filter fun x => x.id = u && x.deletedAt.isNone).map User.id).Nodup :=
      hids.sublist (List.filter_sublist.map _)
    rw [hcases] at hnodup
    simp [hidx, hidy] at hnodup

/-- The user is marked and its deletion has no audit log yet. -/
def Marked (u : Uuid) (S V : Store) (e : Env) : Prop :=
  ∃ V0 t, Tidy ∅ S V0 e ∧ Stripped u V0 ∧ (∃ x ∈ V0.users, x.id = u ∧ x.deletedAt = none) ∧
    V = (Write.patchUser u (markPatch t)).apply V0

/-- After the mark that user is deleted, and the others are as before. -/
theorem isDeleted_mark {V : Store} {u : Uuid} {t : DateTime} (hu : ∃ x ∈ V.users, x.id = u) (v : Uuid) :
    isDeleted ((Write.patchUser u (markPatch t)).apply V) v = (isDeleted V v || decide (v = u)) := by
  rw [Bool.eq_iff_iff, Bool.or_eq_true, decide_eq_true_eq, isDeleted_iff, isDeleted_iff]
  constructor
  · rintro ⟨x, hx, hid, hd⟩
    obtain ⟨y, hy, rfl⟩ := mem_users_patch.1 hx
    by_cases hyu : y.id = u
    · right
      rw [if_pos hyu] at hid
      exact hid.symm.trans hyu
    · left
      rw [if_neg hyu] at hid hd
      exact ⟨y, hy, hid, hd⟩
  · rintro (⟨x, hx, hid, hd⟩ | rfl)
    · refine ⟨_, mem_users_patch.2 ⟨x, hx, rfl⟩, ?_⟩
      split
      · exact ⟨hid, by simp [User.patch, markPatch]⟩
      · exact ⟨hid, hd⟩
    · obtain ⟨x, hx, hid⟩ := hu
      refine ⟨_, mem_users_patch.2 ⟨x, hx, rfl⟩, ?_⟩
      rw [if_pos hid]
      exact ⟨hid, by simp [User.patch, markPatch]⟩

/-- The audit log of a deletion completes it, but for the sessions. -/
theorem closing_of_marked {u : Uuid} {S V : Store} {e : Env} (h : Marked u S V e) {row : AuthAuditLog}
    (hevent : row.eventType = .userMarkedDeleted) (huser : row.userId = some u) :
    Closing u S ((Write.insertAudit row).apply V) e := by
  obtain ⟨V0, t, htidy, hstripped, ⟨x, hx, hid, hlive⟩, rfl⟩ := h
  have hdel : ∀ v, isDeleted ((Write.insertAudit row).apply ((Write.patchUser u (markPatch t)).apply V0)) v =
      (isDeleted V0 v || decide (v = u)) := isDeleted_mark ⟨x, hx, hid⟩
  have hnot : isDeleted V0 u = false := by
    rw [← hid]
    exact (htidy.live hx hlive).2.2 _ rfl
  have hfree : ∀ v, isDeleted V0 v = false → v ≠ u →
      isDeleted ((Write.insertAudit row).apply ((Write.patchUser u (markPatch t)).apply V0)) v = false := by
    intro v hv hne
    rw [hdel, hv, decide_eq_false hne]
    rfl
  refine ⟨⟨?_, ?_, ?_, ?_, ?_, ?_⟩, ?_⟩
  · have hmap : ((Write.insertAudit row).apply ((Write.patchUser u (markPatch t)).apply V0)).users.map User.id =
        V0.users.map User.id := by
      simp only [Write.apply, modifyAt, List.map_map]
      refine List.map_congr_left ?_
      intro y _
      simp only [Function.comp]
      split <;> rfl
    rw [hmap]
    exact htidy.1.ids
  · intro r hr
    exact hfree _ (htidy.1.roles r hr) (hstripped.roles r hr)
  · intro y hy
    exact hfree _ (htidy.1.identities y hy) (hstripped.identities y hy)
  · intro y hy
    exact hfree _ (htidy.1.items y hy) (hstripped.items y hy)
  · intro s hs hd hne
    have hsu : s.userId ≠ u := fun heq => hne (congrArg some heq)
    rw [hdel, decide_eq_false hsu, Bool.or_false] at hd
    exact htidy.1.sessions s hs hd fun hno => by cases hno
  · intro v
    have hcount : ((Write.insertAudit row).apply ((Write.patchUser u (markPatch t)).apply V0)).audits.countP
        (AuthAuditLog.marks v) = V0.audits.countP (AuthAuditLog.marks v) + if row.marks v then 1 else 0 := by
      simp [Write.apply, List.countP_append, List.countP_singleton]
    have hrow : row.marks v = decide (v = u) := by
      rw [Bool.eq_iff_iff]
      simp only [AuthAuditLog.marks, hevent, huser, beq_self_eq_true, Bool.true_and, beq_iff_eq, Option.some.injEq,
        decide_eq_true_eq]
      exact eq_comm
    rw [hcount, htidy.1.marks v, hdel, hrow]
    by_cases hvu : v = u
    · subst hvu
      simp [hnot]
    · simp [hvu]
  · refine htidy.2.1.trans ?_
    intro y hy t' ht'
    refine ⟨y, mem_users_patch.2 ⟨y, hy, ?_⟩, rfl, ht'⟩
    have hne : y.id ≠ u := by
      intro heq
      rw [List.inj_on_of_nodup_map htidy.1.ids hy hx (heq.trans hid.symm), hlive] at ht'
      cases ht'
    rw [if_neg hne]

/-- Sessions that are revoked. -/
theorem mem_sessions_revoke {ids : List Uuid} {t : DateTime} {V : Store} {s : AuthSession}
    (hs : s ∈ (applyAll (D := database Γ) (ids.map fun id => Write.patchSession id { revokedAt := some (some t) }) V).sessions) :
    ∃ s0 ∈ V.sessions, s.id = s0.id ∧ s.userId = s0.userId ∧ (s0.revokedAt ≠ none ∨ s0.id ∈ ids → s.revokedAt ≠ none) := by
  induction ids generalizing V with
  | nil => exact ⟨s, hs, rfl, rfl, fun h => h.resolve_right List.not_mem_nil⟩
  | cons id ids ih =>
    rw [List.map_cons, applyAll_cons] at hs
    obtain ⟨s1, hs1, hid, huser, hrev⟩ := ih hs
    simp only [Write.apply, modifyAt, List.mem_map] at hs1
    obtain ⟨s0, hs0, rfl⟩ := hs1
    refine ⟨s0, hs0, ?_, ?_, ?_⟩
    · rw [hid]
      split <;> rfl
    · rw [huser]
      split <;> rfl
    · intro h
      refine hrev ?_
      by_cases h0 : s0.id = id
      · left
        rw [if_pos (decide_eq_true h0)]
        simp [AuthSession.patch]
      · rw [if_neg (by simpa using h0)]
        exact h.imp_right fun hmem => (List.mem_cons.1 hmem).resolve_left h0

/-- Revoking the sessions of a user revokes the open ones. -/
theorem changes_revokeSessionsForUser {V : Store} (u : Uuid) (t : DateTime) :
    ((Stmt.revokeSessionsForUser u t).rows V).filterMap (Stmt.change (.revokeSessionsForUser u t)) =
      ((V.sessions.filter fun s => s.userId = u && s.revokedAt.isNone).map AuthSession.id).map
        fun id => Write.patchSession id { revokedAt := some (some t) } := by
  simp [Stmt.rows, List.filterMap_map, Function.comp_def, Stmt.change]

/-- The sessions of the user are revoked: the deletion is complete. -/
theorem tidy_of_closing {u : Uuid} {t : DateTime} {S V : Store} {e : Env} (h : Closing u S V e) :
    Tidy ∅ S (applyAll (D := database Γ)
      (((Stmt.revokeSessionsForUser u t).rows V).filterMap (Stmt.change (.revokeSessionsForUser u t))) V) e := by
  have hclosing : Wiped (some u) (applyAll (D := database Γ)
      (((Stmt.revokeSessionsForUser u t).rows V).filterMap (Stmt.change (.revokeSessionsForUser u t))) V) ∧
      Kept S (applyAll (D := database Γ)
        (((Stmt.revokeSessionsForUser u t).rows V).filterMap (Stmt.change (.revokeSessionsForUser u t))) V) ∧
      ∀ v, isDeleted (applyAll (D := database Γ)
        (((Stmt.revokeSessionsForUser u t).rows V).filterMap (Stmt.change (.revokeSessionsForUser u t))) V) v =
          isDeleted V v := by
    refine applyAll_induct (D := database Γ) (P := fun V' : Store => Wiped (some u) V' ∧ Kept S V' ∧ ∀ v, isDeleted V' v = isDeleted V v)
      ⟨h.1, h.2, fun _ => rfl⟩ ?_
    rintro w hw V' ⟨hwiped, hkept, hdel⟩
    obtain ⟨key, _, hchange⟩ := List.mem_filterMap.1 hw
    have hgentle : Gentle ∅ V' w := gentle_change (s := .revokeSessionsForUser u t) (Or.inr trivial) hchange
    exact ⟨wiped_apply hgentle hwiped nofun, kept_apply hgentle hkept, fun v => (isDeleted_apply hgentle v).trans (hdel v)⟩
  obtain ⟨hwiped, hkept, hdel⟩ := hclosing
  refine ⟨{ hwiped with sessions := ?_ }, hkept, nofun⟩
  intro s hs hd _
  by_cases hsu : s.userId = u
  · rw [changes_revokeSessionsForUser] at hs
    obtain ⟨s0, hs0, _, huser, hrev⟩ := mem_sessions_revoke hs
    refine hrev ?_
    by_cases hopen : s0.revokedAt = none
    · right
      refine List.mem_map_of_mem (List.mem_filter.2 ⟨hs0, ?_⟩)
      rw [hopen, ← huser, hsu]
      simp
    · exact Or.inl hopen
  · exact hwiped.sessions s hs hd fun heq => hsu (Option.some.inj heq)

/-- Neutral actions keep the view while the sessions are about to be closed. -/
theorem closed_closing (u : Uuid) : Closed Γ ∅ (Closing u) where
  insert hk hc hv := by
    have hgentle : Gentle ∅ _ _ := gentle_insert (hk.imp_right fun hk => absurd hk (Set.notMem_empty _)) hv
    exact ⟨wiped_apply hgentle hc.1 nofun, kept_apply hgentle hc.2⟩
  change hk hw hc := by
    have hgentle : ∀ V, Gentle ∅ V _ := fun _ => gentle_change (hk.imp_right fun hk => absurd hk (Set.notMem_empty _)) hw
    exact ⟨wiped_apply (hgentle _) hc.1 nofun, kept_apply (hgentle _) hc.2⟩

/-- The user that is stripped is marked, and its sessions are still to be revoked. -/
theorem leads_markUserDeleted (u : Uuid) (t : DateTime) (sessionId : Option Uuid) (ipAddress : Option Text) :
    Ensures (promise Γ) me S0 (fun S V e => Tidy ∅ S V e ∧ Stripped u V) (markUserDeleted u t sessionId ipAddress)
      fun _ => Closing u := by
  have hget : Ensures (promise Γ) me S0 (Closing u) (markedUser u) fun _ => Closing u := by
    refine leads_bind (leads_within (within_getUserById none u) (closed_closing u) (Set.notMem_empty _)) fun user => ?_
    cases user with
    | none => exact leads_throw _
    | some user => exact leads_done fun _ _ _ h => h
  refine leads_bind (leads_statement (Q := fun rows S V e => (rows = [] → Tidy ∅ S V e) ∧ (rows ≠ [] → Marked u S V e)) ?_)
    fun rows => ?_
  · rintro S V e ⟨htidy, hstripped⟩
    refine ⟨fun hnil => ?_, fun hrows => ?_⟩
    · rw [hnil]
      exact htidy
    · obtain ⟨hchanges, hlive⟩ := changes_markUserDeleted htidy.1.ids hrows
      rw [hchanges]
      exact ⟨V, t, htidy, hstripped, hlive, rfl⟩
  · show Ensures (promise Γ) me S0 _ (if rows = [] then _ else _) _
    split
    case isTrue hnil => exact leads_strengthen hget fun S V e h => (h.1 hnil).closing u
    case isFalse hrows =>
      refine leads_strengthen (P := Marked u) ?_ fun S V e h => h.2 hrows
      refine leads_bind (Q := fun _ => On me (Closing u)) ?_ fun _ => hget
      refine leads_bind (leads_reply (x := .newId) (Q := fun _ => Marked u) fun S V e e' y h _ _ => h) fun id => ?_
      refine leads_bind (leads_reply (x := .utcnow) (Q := fun _ => Marked u) fun S V e e' y h _ _ => h) fun now => ?_
      exact leads_insertRow fun S V e h _ => closing_of_marked h rfl rfl

/-- The wipe of a user leaves the view tidy. -/
theorem leads_wipeUser (u : Uuid) (t : DateTime) (sessionId : Uuid) (ipAddress : Option Text) :
    Ensures (promise Γ) me S0 (Tidy ∅) (wipeUser u t sessionId ipAddress) fun _ => Tidy ∅ := by
  refine leads_strip u (leads_bind (leads_markUserDeleted _ _ _ _) fun _ => ?_)
  refine leads_bind (leads_bind (leads_statement (Q := fun _ => Tidy ∅) ?_) fun _ => leads_done fun _ _ _ h => h)
    fun _ => leads_done fun _ _ _ h => h
  intro S V e h
  exact tidy_of_closing h

/-- The deletion by an administrator keeps the promise. -/
theorem leads_adminDeleteUser (actor : AuthenticatedSessionContext) (u : Uuid) (ipAddress userAgent : Option Text) :
    Leads (contract (promise Γ) me S0) me (On me (Sound (promise Γ)))
      (adminDeleteUser actor u ipAddress userAgent) fun _ _ => True := by
  refine leads_bind (leads_outer (within_getUser _)) fun user => ?_
  cases user with
  | none => exact leads_throw _
  | some user =>
    refine leads_bind (leads_outer within_utcnow) fun deletedAt => leads_true (leads_tidyTransaction (fun _ => ∅) ?_)
    exact leads_bind (leads_wipeUser _ _ _ _) fun _ => leads_audit (by simp [adminAudit])

/-- The deletion of an account by its user keeps the promise. -/
theorem leads_deleteAccount (context : AuthenticatedSessionContext) (confirmEmail : Text)
    (password ipAddress userAgent : Option Text) :
    Leads (contract (promise Γ) me S0) me (On me (Sound (promise Γ)))
      (deleteAccount context confirmEmail password ipAddress userAgent) fun _ _ => True := by
  refine leads_bind (leads_outer (within_require _ _)) fun _ => ?_
  refine leads_bind (leads_outer (within_requireReauth (by simp [gentle]))) fun _ => ?_
  refine leads_bind (leads_outer within_utcnow) fun deletedAt => ?_
  exact leads_true (leads_tidyTransaction (fun _ => ∅) (leads_wipeUser _ _ _ _))

/-- Every operation keeps the promise. -/
theorem leads_program (op : Op) :
    Leads (contract (promise Γ) me S0) me (On me (Sound (promise Γ))) (program Γ op) fun _ _ => True := by
  have hcalm : op.kinds ⊆ gentle ∅ →
      Leads (contract (promise Γ) me S0) me (On me (Sound (promise Γ))) (program Γ op) fun _ _ => True :=
    fun hks => leads_true (leads_outer ((within_program op).mono hks))
  cases op with
  | register => exact leads_bind (leads_register _ _ _ _ _ _) fun _ => leads_end
  | login => exact leads_bind (leads_login _ _ _ _ _) fun _ => leads_end
  | completeCallback => exact leads_bind (leads_completeCallback _ _ _ _ _ _ _ _) fun _ => leads_end
  | adminCreateUser => exact leads_bind (leads_adminCreateUser _ _ _ _ _ _ _) fun _ => leads_end
  | adminUpdateUser => exact leads_bind (leads_adminUpdateUser _ _ _ _ _) fun _ => leads_end
  | adminDeleteUser => exact leads_bind (leads_adminDeleteUser _ _ _ _) fun _ => leads_end
  | replaceUserRoles => exact leads_bind (leads_replaceUserRoles _ _ _ _ _) fun _ => leads_end
  | deleteAccount => exact leads_bind (leads_deleteAccount _ _ _ _ _) fun _ => leads_end
  | createItem => exact leads_createItem _ _ _ _ _
  | authzGrantRole => exact leads_bind (leads_authzGrantRole _ _) fun _ => leads_end
  | seedAdmin => exact leads_bind leads_seedAdmin fun _ => leads_end
  | _ => exact hcalm (by simp [Op.kinds, gentle, Set.subset_def])

/-- Empty tables have no deleted user. -/
theorem wiped_empty : Wiped none Store.empty :=
  ⟨List.nodup_nil, nofun, nofun, nofun, nofun, fun _ => rfl⟩

/-- Deleted users are wiped whenever an operation has committed something, and stay deleted. -/
theorem wiped_inside {s : Store × Env} (hwiped : Wiped none s.1) {op : Op} {c : Configuration Γ}
    (h : Reaches Γ ⟨atRest Γ s.1 s.2, alone me .done (program Γ op)⟩ c) :
    Wiped none c.state.store ∧ Kept s.1 c.state.store := by
  have hop : Ensures (promise Γ) me s.1 (fun S V _ => V = S ∧ Wiped none S) (program Γ op) fun _ _ _ _ => True := by
    refine leads_conseq (leads_strengthen (leads_program op) ?_) (fun _ h => h) fun _ db _ => ⟨db.env, Env.Later.refl _, trivial⟩
    rintro S V e ⟨rfl, hS⟩
    exact ⟨hS, Kept.refl _⟩
  obtain ⟨hwiped', hkept, _⟩ := alone_keeps hop (log_atRest _ _ _) (fun _ _ => trivial) hwiped h
  exact ⟨hwiped', hkept⟩

/-- Every serial run keeps deleted users wiped and deleted. -/
theorem wiped_of_run {s s' : Store × Env} (hwiped : Wiped none s.1) (h : SerialRun Γ Set.univ s s') :
    Wiped none s'.1 ∧ Kept s.1 s'.1 := by
  refine h.keeps (fun S _ => Wiped none S) Kept.refl Kept.trans ?_ hwiped
  rintro roleCatalog me op r s s' _ ⟨c, hreach, _, rfl⟩ hinv
  exact wiped_inside hinv hreach

end DeletedAux

open DeletedAux

/-- In every state of a serial run from empty tables, a deleted user has no roles, identities and items, and no session that is
not revoked. Each deleted user has one audit log that marks it, and no other id has one. From any such state on, a user that is
deleted stays so, from the same time on. -/
theorem deleted_users_stay_wiped (Γ : Ctx) (env : Env) {s s' : Store × Env} (h : SerialRun Γ Set.univ (Store.empty, env) s)
    (h' : SerialRun Γ Set.univ s s') :
    (∀ user ∈ s.1.users, user.deletedAt ≠ none →
      (∀ role ∈ s.1.roles, role.userId ≠ user.id) ∧ (∀ identity ∈ s.1.identities, identity.userId ≠ user.id) ∧
      (∀ item ∈ s.1.items, item.ownerUserId ≠ user.id) ∧
      ∀ session ∈ s.1.sessions, session.userId = user.id → session.revokedAt ≠ none) ∧
    (∀ u, s.1.audits.countP (AuthAuditLog.marks u) = if ∃ user ∈ s.1.users, user.id = u ∧ user.deletedAt ≠ none then 1 else 0) ∧
    ∀ user ∈ s.1.users, ∀ t, user.deletedAt = some t →
      (∃ user' ∈ s'.1.users, user'.id = user.id) ∧ ∀ user' ∈ s'.1.users, user'.id = user.id → user'.deletedAt = some t := by
  obtain ⟨hwiped, _⟩ := wiped_of_run wiped_empty h
  obtain ⟨hwiped', hkept⟩ := wiped_of_run hwiped h'
  refine ⟨?_, ?_, ?_⟩
  · intro user huser hdel
    have hdeleted : isDeleted s.1 user.id = true := isDeleted_iff.2 ⟨user, huser, rfl, hdel⟩
    have hne : ∀ {v}, isDeleted s.1 v = false → v ≠ user.id := by
      rintro v hv rfl
      rw [hdeleted] at hv
      cases hv
    refine ⟨fun r hr => hne (hwiped.roles r hr), fun x hx => hne (hwiped.identities x hx),
      fun x hx => hne (hwiped.items x hx), ?_⟩
    intro session hs hid
    exact hwiped.sessions session hs (by rw [hid]; exact hdeleted) nofun
  · intro u
    rw [hwiped.marks u]
    simp only [isDeleted_iff]
  · intro user huser t ht
    obtain ⟨user', huser', hid, ht'⟩ := hkept user huser t ht
    refine ⟨⟨user', huser', hid⟩, ?_⟩
    intro other hother hoid
    rw [List.inj_on_of_nodup_map hwiped'.ids hother huser' (hoid.trans hid.symm)]
    exact ht'

/-! ## A run -/

namespace DeletedRun

def Γ₁ : Ctx := Ctx.readable [] fun _ => .error .oidcProviderUnavailable

def env : Env := ⟨seconds 100, [], 0, 0, 0, 0⟩

def user : User :=
  ⟨0, "ann@example.com".toList, some "$correct horse".toList, true, .en, seconds 100, seconds 100, some (seconds 100), none⟩

def context : AuthenticatedSessionContext :=
  ⟨user, ⟨1, 0, "#t".toList, "#tt".toList, 0, 0, 0, none, none, none, none⟩, [], []⟩

/-- A user registers, creates an item and deletes the account. -/
def ops : List Op :=
  [.register "Ann@example.com".toList "correct horse".toList .en none none none,
    .createItem (some "t".toList) none none "note".toList none,
    .deleteAccount context "ann@example.com".toList (some "correct horse".toList) none none]

end DeletedRun

open DeletedRun in
/-- A user registers and deletes the account: the row is there, the items are gone, and there is one audit log of it. -/
theorem deleted_users_stay_wiped_after_deletion : ∃ s, SerialRun Γ₁ Set.univ (Store.empty, env) s ∧
    (∃ user ∈ s.1.users, user.id = 0 ∧ user.deletedAt ≠ none) ∧ s.1.items = [] ∧
    s.1.audits.countP (AuthAuditLog.marks 0) = 1 := by
  obtain ⟨s, hs⟩ := Option.isSome_iff_exists.1 (show (performAll Γ₁ 0 ops (Store.empty, env)).isSome = true by decide)
  have hdel : (performAll Γ₁ 0 ops (Store.empty, env)).map (fun s => s.1.users.map fun u => (u.id, u.deletedAt)) =
      some [(0, some (seconds 100))] := by decide
  have hitems : (performAll Γ₁ 0 ops (Store.empty, env)).map (fun s => s.1.items) = some [] := by decide
  rw [hs] at hdel hitems
  have hrun : SerialRun Γ₁ Set.univ (Store.empty, env) s := (serialRun_of_performAll hs).mono (Set.subset_univ _)
  have huser : ∃ user ∈ s.1.users, user.id = 0 ∧ user.deletedAt ≠ none := by
    have hmem : (0, some (seconds 100)) ∈ s.1.users.map fun u => (u.id, u.deletedAt) := by
      have husers : s.1.users.map (fun u => (u.id, u.deletedAt)) = [(0, some (seconds 100))] := Option.some.inj hdel
      rw [husers]
      exact List.mem_singleton_self _
    obtain ⟨user, huser, heq⟩ := List.mem_map.1 hmem
    obtain ⟨hid, hd⟩ := Prod.mk.inj heq
    exact ⟨user, huser, hid, by rw [hd]; exact nofun⟩
  refine ⟨s, hrun, huser, Option.some.inj hitems, ?_⟩
  rw [(deleted_users_stay_wiped Γ₁ env hrun Relation.ReflTransGen.refl).2.1 0, if_pos huser]

end AuthService
