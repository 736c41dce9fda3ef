import AuthService.Interleavings
import AuthService.Undisturbed

/-!
# Who an identity token logs in

The login callback resolves verified claims to a user and an identity. An identity that is there decides. Otherwise a trusted and
verified email links the identity to an active user, or a user is provisioned, as the provider is configured.
-/

namespace AuthService

open ReadCommitted Serial SoloAux

/-- The identity is for the subject of the claims at the provider. -/
def AuthIdentity.isFor (provider : OidcProviderSettings) (claims : OidcVerifiedClaims) (x : AuthIdentity) : Bool :=
  x.providerId = provider.providerId && x.providerSubject = claims.subject

/-- The user is not deleted and is found by the email. -/
def User.isFoundBy (Γ : Ctx) (email : Text) (u : User) : Bool := Γ.sqlLower u.email = Γ.normalizeEmail email && u.deletedAt.isNone

/-- The normalised email of the claims, which the provider is trusted to have verified. -/
def TrustedEmail (Γ : Ctx) (provider : OidcProviderSettings) (claims : OidcVerifiedClaims) (email : Text) : Prop :=
  provider.trustVerifiedEmail = true ∧ claims.emailVerified = true ∧ email ≠ [] ∧
    ∃ value, claims.email = some value ∧ email = Γ.normalizeEmail value

/-- No user that is not deleted has the email, in a lookup or in the unique index. -/
def EmailFree (Γ : Ctx) (email : Text) (V : Store) : Prop :=
  ∀ u ∈ V.users, u.deletedAt = none → Γ.sqlLower u.email ≠ Γ.normalizeEmail email ∧ Γ.sqlLower u.email ≠ Γ.sqlLower email

/-- The tables as their unique indexes keep them. Ids that are drawn later are not in use. -/
structure WellKept (Γ : Ctx) (V : Store) (env : Env) : Prop where
  ids : (V.users.map User.id).Nodup
  emails : ((V.users.filter fun u => u.deletedAt.isNone).map fun u => Γ.sqlLower u.email).Nodup
  subjects : (V.identities.map fun x => (x.providerId, x.providerSubject)).Nodup
  newUsers : ∀ u ∈ V.users, u.id < env.ids
  newIdentities : ∀ x ∈ V.identities, x.id < env.ids

/-- The result of `_resolve_login_user_and_identity`. -/
abbrev Resolved := Except AuthError (User × AuthIdentity × List AuthEventType)

/-- An identity is linked to a user that is there. -/
def Links (V : Store) (r : Resolved) (V' : Store) : Prop :=
  ∃ user ∈ V.users, ∃ identity, r = .ok (user, identity, [.oidcIdentityLinked]) ∧
    V' = { V with identities := V.identities ++ [identity] }

/-- A user without a password is created, and an identity for it. -/
def Provisions (V : Store) (r : Resolved) (V' : Store) : Prop :=
  ∃ user identity, r = .ok (user, identity, [.oidcUserProvisioned]) ∧ user.passwordHash = none ∧
    V' = { V with users := V.users ++ [user], identities := V.identities ++ [identity] }

/-- The error of the first condition that fails. -/
def firstFailure (Γ : Ctx) (provider : OidcProviderSettings) (claims : OidcVerifiedClaims) (V : Store) : Option AuthError :=
  match V.identities.find? (AuthIdentity.isFor provider claims) with
  | some identity =>
    if V.users.any fun u => u.id = identity.userId && u.isActive && u.deletedAt.isNone then none else some .oidcIdentityUnavailable
  | none =>
    match trustedVerifiedEmail Γ provider claims with
    | .error e => some e
    | .ok email =>
      if V.users.any fun u => u.isFoundBy Γ email && u.isActive then
        match provider.linkMode with
        | .auto => none
        | .manual => some .oidcIdentityLinkRequired
        | .disabled => some .oidcIdentityLinkDisabled
      else if V.users.any fun u => u.isFoundBy Γ email then some .oidcIdentityUnavailable
      else if !provider.allowsAutoProvision then some .oidcProvisioningDisabled
      else if V.users.any fun u => Γ.sqlLower u.email = Γ.sqlLower email && u.deletedAt.isNone then some .oidcIdentityUnavailable
      else none

/-- What the claims resolve to in the tables `V`, and the tables after it. -/
structure Decides (Γ : Ctx) (provider : OidcProviderSettings) (claims : OidcVerifiedClaims) (V : Store) (r : Resolved)
    (V' : Store) : Prop where
  returned : ∀ {user identity audits}, r = .ok (user, identity, audits) → user ∈ V'.users ∧ user.isActive = true ∧
    user.deletedAt = none ∧ identity ∈ V'.identities ∧ identity.isFor provider claims = true ∧ identity.userId = user.id
  known : ∀ x ∈ V.identities, x.isFor provider claims = true → V' = V ∧
    (r = .error .oidcIdentityUnavailable ∨ ∃ user, r = .ok (user, x, []))
  links : Links V r V' ↔ (∀ x ∈ V.identities, x.isFor provider claims = false) ∧ provider.linkMode = .auto ∧
    ∃ email, TrustedEmail Γ provider claims email ∧ ∃ u ∈ V.users, u.isFoundBy Γ email = true ∧ u.isActive = true
  provisions : Provisions V r V' ↔ (∀ x ∈ V.identities, x.isFor provider claims = false) ∧ provider.autoProvision = .enabled ∧
    ∃ email, TrustedEmail Γ provider claims email ∧ EmailFree Γ email V
  refused : ∀ e, r = .error e ↔ firstFailure Γ provider claims V = some e
  unchanged : ∀ e, r = .error e → V' = V

namespace ResolutionAux

variable {Γ : Ctx} {provider : OidcProviderSettings} {claims : OidcVerifiedClaims} {V : Store}

/-! ## Rows with a key of their own -/

/-- Where a key is unique, a filter on that key keeps no row or one. -/
theorem filter_cases {α β : Type} [DecidableEq β] {rows : List α} {key : α → β} (h : (rows.map key).Nodup) {p : α → Bool}
    (hp : ∀ x y, p x = true → p y = true → key x = key y) : rows.filter p = [] ∨ ∃ x, rows.filter p = [x] := by
  have hnodup : ((rows.filter p).map key).Nodup := h.sublist (List.filter_sublist.map key)
  rcases hrows : rows.filter p with _ | ⟨x, _ | ⟨y, ys⟩⟩
  · exact Or.inl rfl
  · exact Or.inr ⟨x, rfl⟩
  · have hx : p x = true := (List.mem_filter.1 (by rw [hrows]; exact List.mem_cons_self)).2
    have hy : p y = true := (List.mem_filter.1 (by rw [hrows]; exact List.mem_cons_of_mem _ List.mem_cons_self)).2
    rw [hrows] at hnodup
    simp [hp x y hx hy] at hnodup

/-- Drawing more ids from the environment keeps the tables well kept. -/
theorem wellKept_later {env env' : Env} (h : WellKept Γ V env) (hlater : env.Later env') : WellKept Γ V env' :=
  ⟨h.ids, h.emails, h.subjects, fun u hu => lt_of_lt_of_le (h.newUsers u hu) hlater.ids,
    fun x hx => lt_of_lt_of_le (h.newIdentities x hx) hlater.ids⟩

variable (provider claims) in
/-- At most one identity row belongs to a provider's subject. -/
theorem identity_cases {env : Env} (h : WellKept Γ V env) :
    V.identities.filter (AuthIdentity.isFor provider claims) = [] ∨
      ∃ x, V.identities.filter (AuthIdentity.isFor provider claims) = [x] := by
  refine filter_cases h.subjects fun x y hx hy => ?_
  simp only [AuthIdentity.isFor, Bool.and_eq_true, decide_eq_true_eq] at hx hy
  rw [hx.1, hx.2, hy.1, hy.2]

/-- At most one user has a given id. -/
theorem user_cases {env : Env} (h : WellKept Γ V env) (id : Uuid) :
    V.users.filter (fun u => u.id = id) = [] ∨ ∃ u, V.users.filter (fun u => u.id = id) = [u] := by
  refine filter_cases h.ids fun x y hx hy => ?_
  rw [of_decide_eq_true hx, of_decide_eq_true hy]

/-- At most one user with a given email passes a further test. -/
theorem email_cases {env : Env} (h : WellKept Γ V env) (email : Text) (p : User → Bool) :
    V.users.filter (fun u => u.isFoundBy Γ email && p u) = [] ∨
      ∃ u, V.users.filter (fun u => u.isFoundBy Γ email && p u) = [u] := by
  have hlive : V.users.filter (fun u => u.isFoundBy Γ email && p u) =
      (V.users.filter fun u => u.deletedAt.isNone).filter fun u => u.isFoundBy Γ email && p u := by
    rw [List.filter_filter]
    refine List.filter_congr fun u _ => ?_
    simp only [User.isFoundBy]
    cases u.deletedAt <;> simp
  rw [hlive]
  refine filter_cases h.emails fun x y hx hy => ?_
  simp only [User.isFoundBy, Bool.and_eq_true, decide_eq_true_eq] at hx hy
  rw [hx.1.1, hy.1.1]

/-! ## The cases -/

variable (Γ provider claims V) in
/-- How the claims may resolve, with what is known of the tables in each case. -/
inductive Resolution : Resolved → Store → Prop
  | known {x : AuthIdentity} {u : User} : V.identities.filter (AuthIdentity.isFor provider claims) = [x] →
      V.users.filter (fun u => u.id = x.userId) = [u] → u.isActive = true → u.deletedAt = none →
      Resolution (.ok (u, x, [])) V
  | unavailable {x : AuthIdentity} : V.identities.filter (AuthIdentity.isFor provider claims) = [x] →
      (V.users.any fun u => u.id = x.userId && u.isActive && u.deletedAt.isNone) = false →
      Resolution (.error .oidcIdentityUnavailable) V
  | untrusted {e : AuthError} : V.identities.filter (AuthIdentity.isFor provider claims) = [] →
      trustedVerifiedEmail Γ provider claims = .error e → Resolution (.error e) V
  | linked {email : Text} {u : User} {x : AuthIdentity} : V.identities.filter (AuthIdentity.isFor provider claims) = [] →
      trustedVerifiedEmail Γ provider claims = .ok email → V.users.filter (fun u => u.isFoundBy Γ email && u.isActive) = [u] →
      provider.linkMode = .auto → x.isFor provider claims = true → x.userId = u.id →
      Resolution (.ok (u, x, [.oidcIdentityLinked])) { V with identities := V.identities ++ [x] }
  | notLinked {email : Text} {u : User} {e : AuthError} : V.identities.filter (AuthIdentity.isFor provider claims) = [] →
      trustedVerifiedEmail Γ provider claims = .ok email → V.users.filter (fun u => u.isFoundBy Γ email && u.isActive) = [u] →
      (provider.linkMode = .manual ∧ e = .oidcIdentityLinkRequired ∨
        provider.linkMode = .disabled ∧ e = .oidcIdentityLinkDisabled) → Resolution (.error e) V
  | collides {email : Text} : V.identities.filter (AuthIdentity.isFor provider claims) = [] →
      trustedVerifiedEmail Γ provider claims = .ok email → V.users.filter (fun u => u.isFoundBy Γ email && u.isActive) = [] →
      (V.users.any fun u => u.isFoundBy Γ email) = true → Resolution (.error .oidcIdentityUnavailable) V
  | notProvisioned {email : Text} : V.identities.filter (AuthIdentity.isFor provider claims) = [] →
      trustedVerifiedEmail Γ provider claims = .ok email → (V.users.any fun u => u.isFoundBy Γ email) = false →
      provider.allowsAutoProvision = false → Resolution (.error .oidcProvisioningDisabled) V
  | taken {email : Text} : V.identities.filter (AuthIdentity.isFor provider claims) = [] →
      trustedVerifiedEmail Γ provider claims = .ok email → (V.users.any fun u => u.isFoundBy Γ email) = false →
      provider.allowsAutoProvision = true →
      (V.users.any fun u => Γ.sqlLower u.email = Γ.sqlLower email && u.deletedAt.isNone) = true →
      Resolution (.error .oidcIdentityUnavailable) V
  | provisioned {email : Text} {u : User} {x : AuthIdentity} : V.identities.filter (AuthIdentity.isFor provider claims) = [] →
      trustedVerifiedEmail Γ provider claims = .ok email → (V.users.any fun u => u.isFoundBy Γ email) = false →
      provider.allowsAutoProvision = true →
      (V.users.any fun u => Γ.sqlLower u.email = Γ.sqlLower email && u.deletedAt.isNone) = false →
      u.passwordHash = none → u.isActive = true → u.deletedAt = none → x.isFor provider claims = true → x.userId = u.id →
      Resolution (.ok (u, x, [.oidcUserProvisioned]))
        { V with users := V.users ++ [u], identities := V.identities ++ [x] }

/-! ## The rows that are created -/

variable {me : Nat} {σ : Scene (database Γ)}

/-- The identity of the claims is created when there is none, for a user that is there. -/
theorem surely_createIdentity {userId : Uuid} (hnone : σ.view.identities.filter (AuthIdentity.isFor provider claims) = [])
    (hnew : ∀ x ∈ σ.view.identities, x.id < Env.ids σ.env) (huser : hasUser σ.view userId = true) :
    Surely Passing.running me (fun r σ' => ∃ x : AuthIdentity, r = .ok x ∧ x.isFor provider claims = true ∧
        x.userId = userId ∧ σ'.store = σ.store ∧
        σ'.view = { σ.view with identities := σ.view.identities ++ [x] })
      (createIdentityForClaims provider claims userId) σ := by
  refine surely_bind (surely_newId fun env hpass => ?_)
  refine surely_bind (surely_utcnow fun env' hpass' => ?_)
  have hids : ∀ x ∈ σ.view.identities, x.id ≠ env.ids := fun x hx => Nat.ne_of_lt (lt_of_lt_of_le (hnew x hx) hpass.ids)
  have hfor : ∀ x ∈ σ.view.identities, ¬(x.providerId = provider.providerId ∧ x.providerSubject = claims.subject) := by
    intro x hx hfor
    have hmem : x ∈ σ.view.identities.filter (AuthIdentity.isFor provider claims) :=
      List.mem_filter.2 ⟨hx, by simp [AuthIdentity.isFor, hfor]⟩
    rw [hnone] at hmem
    cases hmem
  refine surely_bind (surely_insert (fun _ _ _ => ?_) fun hbad => ?_)
  · refine surely_bind (surely_query _ fun _ _ => ?_)
    refine surely_refreshedOne (x := AuthIdentity.bind ⟨env.ids, userId, provider.providerId, claims.subject,
      claims.email.map Γ.normalizeEmail, claims.emailVerified, env'.now, none⟩) ?_ ⟨_, rfl, by simp [AuthIdentity.isFor,
      AuthIdentity.bind], rfl, rfl, rfl⟩
    have hrows : σ.view.identities.filter (fun x => x.providerId = provider.providerId && x.providerSubject = claims.subject) =
        [] := hnone
    show (σ.view.identities ++ [_]).filter _ = _
    rw [List.filter_append, hrows, List.nil_append]
    simp [AuthIdentity.bind]
  · exfalso
    simp only [Write.violates, AuthIdentity.bind, Bool.or_eq_true, List.any_eq_true, Bool.and_eq_true, huser,
      Bool.not_true, Bool.false_eq_true, or_false] at hbad
    obtain ⟨x, hx, hid | hsubject⟩ := hbad
    · exact hids x hx (of_decide_eq_true hid)
    · exact hfor x hx ⟨of_decide_eq_true hsubject.1, of_decide_eq_true hsubject.2⟩

/-- The unique index has the email. -/
def isTaken (Γ : Ctx) (email : Text) (V : Store) : Bool :=
  V.users.any fun u => Γ.sqlLower u.email = Γ.sqlLower email && u.deletedAt.isNone

/-- A user was created for the email, without a password, or the unique index has it. -/
def Created (Γ : Ctx) (email : Text) (σ : Scene (database Γ)) (r : Except AuthError User) (σ' : Scene (database Γ)) : Prop :=
  σ'.store = σ.store ∧ (isTaken Γ email σ.view = true ∧ r = .error .emailAlreadyRegistered ∧ σ'.view = σ.view ∨
    isTaken Γ email σ.view = false ∧ ∃ u : User, r = .ok u ∧ u.passwordHash = none ∧ u.isActive = true ∧ u.deletedAt = none ∧
      σ'.view = { σ.view with users := σ.view.users ++ [u] } ∧ σ.env.Later σ'.env)

/-- With a fresh id a user is created for the email, unless the unique index has it. -/
theorem surely_createUser {email : Text} {languageCode : LanguageCode} (hnew : ∀ u ∈ σ.view.users, u.id < Env.ids σ.env) :
    Surely Passing.running me (Created Γ email σ) (createUser true email none true languageCode) σ := by
  refine surely_bind (surely_newId fun env hpass => ?_)
  refine surely_bind (surely_utcnow fun env1 hpass1 => ?_)
  refine surely_bind (surely_utcnow fun env2 hpass2 => ?_)
  have hids : ∀ u ∈ σ.view.users, u.id ≠ env.ids := fun u hu => Nat.ne_of_lt (lt_of_lt_of_le (hnew u hu) hpass.ids)
  have huser : hasUser σ.view env.ids = false := by
    simp only [hasUser, List.any_eq_false, decide_eq_true_eq]
    exact hids
  have htaken : emailTaken Γ σ.view env.ids email = isTaken Γ email σ.view := by
    rw [Bool.eq_iff_iff, emailTaken, isTaken, List.any_eq_true, List.any_eq_true]
    refine exists_congr fun u => and_congr_right fun hu => ?_
    simp [hids u hu, and_comm]
  refine surely_bind (surely_attempt (surely_insert (fun hok env3 hpass3 => ?_) fun hbad env3 hpass3 => ?_))
  · have hfree : isTaken Γ email σ.view = false := by
      rw [← htaken]
      simpa [Write.violates, User.bind, huser] using hok
    refine surely_bind (p := persist true) (surely_bind (surely_query _ fun env4 hpass4 => ?_))
    refine surely_refreshedOne (x := User.bind ⟨env.ids, email, none, true, languageCode, env1.now, env2.now, none, none⟩) ?_
      ⟨rfl, Or.inr ⟨hfree, _, rfl, rfl, rfl, rfl, rfl, ?_⟩⟩
    · have hrows : σ.view.users.filter (fun u => u.id = env.ids) = [] := by
        rw [List.filter_eq_nil_iff]
        exact fun u hu => by simpa using hids u hu
      show (σ.view.users ++ [_]).filter _ = _
      rw [List.filter_append, hrows, List.nil_append]
      simp [User.bind]
    · have hdrawn : env.Later { env with ids := env.ids + 1 } := ⟨le_refl _, List.prefix_refl _, Nat.le_succ _⟩
      exact ((((Env.Later.trans hpass hdrawn).trans hpass1).trans hpass2).trans hpass3).trans hpass4
  · have htrue : isTaken Γ email σ.view = true := by
      rw [← htaken]
      simpa [Write.violates, User.bind, huser] using hbad
    exact ⟨rfl, Or.inl ⟨htrue, rfl, rfl⟩⟩

/-! ## The run -/

/-- The claims are resolved, and nothing is committed. -/
def Settled (Γ : Ctx) (provider : OidcProviderSettings) (claims : OidcVerifiedClaims) (σ : Scene (database Γ)) (r : Resolved)
    (σ' : Scene (database Γ)) : Prop :=
  σ'.store = σ.store ∧ Resolution Γ provider claims σ.view r σ'.view

/-- A user found by any filter exists under their id. -/
theorem hasUser_of_filter {p : User → Bool} {u : User} (h : V.users.filter p = [u]) : hasUser V u.id = true := by
  have hmem : u ∈ V.users.filter p := by
    rw [h]
    exact List.mem_singleton_self u
  exact List.any_eq_true.2 ⟨u, List.mem_of_mem_filter hmem, by simp⟩

theorem any_of_filter {p : User → Bool} : (V.users.any p) = false ↔ V.users.filter p = [] := by
  rw [List.any_eq_false, List.filter_eq_nil_iff]

/-- An identity that is there: its user may be used or not. -/
theorem surely_known {x : AuthIdentity} {found : List User}
    (hx : σ.view.identities.filter (AuthIdentity.isFor provider claims) = [x])
    (hfound : σ.view.users.filter (fun u => u.id = x.userId) = found) (hcases : found = [] ∨ ∃ u, found = [u]) :
    Surely Passing.running me (Settled Γ provider claims σ) (do
      match ← oneOrNone found with
      | none => Prog.throw .oidcIdentityUnavailable
      | some user =>
        require (user.deletedAt.isNone && user.isActive) .oidcIdentityUnavailable
        return (user, x, [])) σ := by
  have hunusable : ∀ {p : User → Bool}, (∀ u ∈ found, p u = false) →
      (σ.view.users.any fun u => u.id = x.userId && p u) = false := by
    intro p hp
    rw [List.any_eq_false]
    intro u hu
    rw [Bool.and_eq_true, not_and, Bool.not_eq_true]
    intro hid
    exact hp u (hfound ▸ List.mem_filter.2 ⟨hu, hid⟩)
  rcases hcases with rfl | ⟨u, rfl⟩
  · refine ⟨rfl, .unavailable hx ?_⟩
    simp only [Bool.and_assoc]
    exact hunusable nofun
  · refine surely_bind (p := oneOrNone [u]) (surely_bind (surely_require (fun hok => ?_) fun hbad => ?_))
    · rw [Bool.and_eq_true, Option.isNone_iff_eq_none] at hok
      exact ⟨rfl, .known hx hfound hok.2 hok.1⟩
    · refine ⟨rfl, .unavailable hx ?_⟩
      simp only [Bool.and_assoc]
      refine hunusable fun u' hu' => ?_
      rw [List.mem_singleton.1 hu', Bool.and_comm]
      exact hbad

/-- An active user has the email: the identity is linked when the provider is configured so. -/
theorem surely_link {email : Text} {u : User} (hkept : WellKept Γ σ.view σ.env)
    (hnone : σ.view.identities.filter (AuthIdentity.isFor provider claims) = [])
    (htrusted : trustedVerifiedEmail Γ provider claims = .ok email)
    (hu : σ.view.users.filter (fun u => u.isFoundBy Γ email && u.isActive) = [u]) :
    Surely Passing.running me (Settled Γ provider claims σ) (do
      require (provider.linkMode != .disabled) .oidcIdentityLinkDisabled
      require (provider.linkMode == .auto) .oidcIdentityLinkRequired
      let identity ← createIdentityForClaims provider claims u.id
      return (u, identity, [.oidcIdentityLinked])) σ := by
  cases hmode : provider.linkMode with
  | disabled => exact ⟨rfl, .notLinked hnone htrusted hu (Or.inr ⟨hmode, rfl⟩)⟩
  | manual => exact ⟨rfl, .notLinked hnone htrusted hu (Or.inl ⟨hmode, rfl⟩)⟩
  | auto =>
    refine surely_bind (p := require _ _) (surely_bind (p := require _ _) (surely_bind
      ((surely_createIdentity hnone hkept.newIdentities (hasUser_of_filter hu)).mono ?_)))
    rintro r σ' ⟨x, rfl, hfor, huser, hstore, hview⟩
    refine ⟨hstore, ?_⟩
    rw [hview]
    exact .linked hnone htrusted hu hmode hfor huser

/-- No user has the email: one is provisioned when the provider is configured so. -/
theorem surely_provision {email : Text} {languageCode : LanguageCode} (hkept : WellKept Γ σ.view σ.env)
    (hnone : σ.view.identities.filter (AuthIdentity.isFor provider claims) = [])
    (htrusted : trustedVerifiedEmail Γ provider claims = .ok email)
    (hu : (σ.view.users.any fun u => u.isFoundBy Γ email) = false) :
    Surely Passing.running me (Settled Γ provider claims σ) (do
      require provider.allowsAutoProvision .oidcProvisioningDisabled
      match ← (createUser true email none true languageCode).attempt with
      | .error .emailAlreadyRegistered => Prog.throw .oidcIdentityUnavailable
      | .error e => Prog.throw e
      | .ok user =>
        let identity ← createIdentityForClaims provider claims user.id
        return (user, identity, [.oidcUserProvisioned])) σ := by
  refine surely_bind (surely_require (fun hallowed => ?_) fun hforbidden => ?_)
  · refine surely_bind (surely_attempt ((surely_createUser hkept.newUsers).mono ?_))
    rintro r σ' ⟨hstore, ⟨htaken, rfl, hview⟩ | ⟨hfree, u, rfl, hpassword, hactive, hlive, hview, hlater⟩⟩
    · refine ⟨hstore, ?_⟩
      rw [hview]
      exact .taken hnone htrusted hu hallowed htaken
    · have hidentities : σ'.view.identities = σ.view.identities := by rw [hview]
      refine surely_bind ((surely_createIdentity ?_ ?_ ?_).mono ?_)
      · rw [hidentities]
        exact hnone
      · rw [hidentities]
        exact fun x hx => lt_of_lt_of_le (hkept.newIdentities x hx) hlater.ids
      · rw [hview]
        exact List.any_eq_true.2 ⟨u, List.mem_append_right _ (List.mem_singleton_self u), by simp⟩
      · rintro r σ'' ⟨x, rfl, hfor, huser, hstore', hview'⟩
        refine ⟨hstore'.trans hstore, ?_⟩
        rw [hview', hview]
        exact .provisioned hnone htrusted hu hallowed hfree hpassword hactive hlive hfor huser
  · exact ⟨rfl, .notProvisioned hnone htrusted hu hforbidden⟩

/-- Run alone over well kept tables, the resolution settles the identity as the tables before it decide. -/
theorem surely_resolve {languageCode : Option LanguageCode} (hkept : WellKept Γ σ.view σ.env) :
    Surely Passing.running me (Settled Γ provider claims σ) (resolveLoginUserAndIdentity provider claims languageCode) σ := by
  refine surely_bind (surely_bind (surely_query _ fun env hpass => ?_))
  rcases identity_cases provider claims hkept with hnone | ⟨x, hx⟩
  · rw [show Query.answer Γ σ.view (.identityByProviderSubject provider.providerId claims.subject) = [] from hnone]
    cases htrusted : trustedVerifiedEmail Γ provider claims with
    | error e => exact ⟨rfl, .untrusted hnone htrusted⟩
    | ok email =>
      refine surely_bind (p := findUserByVerifiedEmailForOidcLink email) (surely_bind (surely_query _ fun env2 hpass2 => ?_))
      have hkept2 := wellKept_later hkept (Env.Later.trans hpass hpass2)
      rcases email_cases hkept email User.isActive with hinactive | ⟨u, hu⟩
      · rw [show Query.answer Γ σ.view (.activeUserByEmail (Γ.normalizeEmail email)) = [] from hinactive]
        refine surely_bind (p := findUserByEmailForOidcCollision email) (surely_bind (surely_query _ fun env3 hpass3 => ?_))
        have hall : Query.answer Γ σ.view (.userByEmail (Γ.normalizeEmail email)) = σ.view.users.filter (User.isFoundBy Γ email) :=
          rfl
        cases hany : σ.view.users.any (User.isFoundBy Γ email) with
        | false =>
          rw [hall, any_of_filter.1 hany]
          exact surely_provision (σ := ⟨σ.store, σ.view, env3⟩) (wellKept_later hkept2 hpass3) hnone htrusted hany
        | true =>
          have hone := email_cases hkept email fun _ => true
          simp only [Bool.and_true] at hone
          rcases hone with hnobody | ⟨u, hu⟩
          · rw [any_of_filter.2 hnobody] at hany
            cases hany
          · rw [hall, show σ.view.users.filter (User.isFoundBy Γ email) = [u] from hu]
            exact ⟨rfl, .collides hnone htrusted hinactive hany⟩
      · rw [show Query.answer Γ σ.view (.activeUserByEmail (Γ.normalizeEmail email)) = [u] from hu]
        exact surely_link (σ := ⟨σ.store, σ.view, env2⟩) hkept2 hnone htrusted hu
  · rw [show Query.answer Γ σ.view (.identityByProviderSubject provider.providerId claims.subject) = [x] from hx]
    refine surely_bind (p := findUserByIdForAuthentication x.userId) (surely_bind (surely_query _ fun env2 hpass2 => ?_))
    exact surely_bind_iff.1 (surely_known (σ := ⟨σ.store, σ.view, env2⟩) hx rfl (user_cases hkept x.userId))

/-! ## What the cases mean -/

/-- The trusted email is the verified one of a provider configured to be trusted. -/
theorem trusted_iff {email : Text} : trustedVerifiedEmail Γ provider claims = .ok email ↔ TrustedEmail Γ provider claims email := by
  unfold trustedVerifiedEmail TrustedEmail
  cases hemail : claims.email with
  | none => simp
  | some value =>
    cases provider.trustVerifiedEmail <;> cases claims.emailVerified <;> simp
    by_cases hempty : Γ.normalizeEmail value = []
    · simp only [hempty, if_true, reduceCtorEq, false_iff, not_and]
      rintro hne rfl
      exact hne rfl
    · rw [if_neg hempty, Except.ok.injEq]
      constructor
      · rintro rfl
        exact ⟨hempty, rfl⟩
      · exact fun h => h.2.symm

/-- An email is free when no user is found by it and the unique index does not hold it. -/
theorem emailFree_iff {email : Text} :
    EmailFree Γ email V ↔ (V.users.any fun u => u.isFoundBy Γ email) = false ∧ isTaken Γ email V = false := by
  simp only [EmailFree, isTaken, User.isFoundBy, List.any_eq_false, Bool.and_eq_true, decide_eq_true_eq, not_and,
    Option.isNone_iff_eq_none]
  constructor
  · intro h
    exact ⟨fun u hu heq hlive => (h u hu hlive).1 heq, fun u hu heq hlive => (h u hu hlive).2 heq⟩
  · rintro ⟨hfound, htaken⟩ u hu hlive
    exact ⟨fun heq => hfound u hu heq hlive, fun heq => htaken u hu heq hlive⟩

/-- `find?` returns the first of the identities the filter keeps. -/
theorem find_of_filter {found : List AuthIdentity} (h : V.identities.filter (AuthIdentity.isFor provider claims) = found) :
    V.identities.find? (AuthIdentity.isFor provider claims) = found.head? := by
  rw [← List.head?_filter, h]

/-- The filter is empty when no identity is the subject's. -/
theorem filter_of_none (h : ∀ x ∈ V.identities, x.isFor provider claims = false) :
    V.identities.filter (AuthIdentity.isFor provider claims) = [] := by
  rw [List.filter_eq_nil_iff]
  intro x hx
  rw [h x hx]
  exact Bool.false_ne_true

/-- No identity is the subject's when the filter is empty. -/
theorem none_of_filter (h : V.identities.filter (AuthIdentity.isFor provider claims) = []) :
    ∀ x ∈ V.identities, x.isFor provider claims = false := by
  rw [List.filter_eq_nil_iff] at h
  exact fun x hx => Bool.eq_false_of_not_eq_true (h x hx)

/-- What `firstFailure` says when there is no identity and the email is trusted. -/
theorem failure_trusted {email : Text} (hnone : V.identities.filter (AuthIdentity.isFor provider claims) = [])
    (htrusted : trustedVerifiedEmail Γ provider claims = .ok email) : firstFailure Γ provider claims V =
      if V.users.any fun u => u.isFoundBy Γ email && u.isActive then
        match provider.linkMode with
        | .auto => none
        | .manual => some .oidcIdentityLinkRequired
        | .disabled => some .oidcIdentityLinkDisabled
      else if V.users.any fun u => u.isFoundBy Γ email then some .oidcIdentityUnavailable
      else if !provider.allowsAutoProvision then some .oidcProvisioningDisabled
      else if isTaken Γ email V then some .oidcIdentityUnavailable
      else none := by
  rw [firstFailure, find_of_filter hnone]
  simp only [List.head?_nil, htrusted]
  rfl

/-- Some row passes a test whose filter keeps one row. -/
theorem any_of_filter_one {p : User → Bool} {u : User} (h : V.users.filter p = [u]) : V.users.any p = true := by
  have hmem : u ∈ V.users.filter p := by
    rw [h]
    exact List.mem_singleton_self u
  exact List.any_eq_true.2 ⟨u, (List.mem_filter.1 hmem).1, (List.mem_filter.1 hmem).2⟩

/-- No active user is found by an email no user is found by. -/
theorem inactive_of_notFound {email : Text} (h : (V.users.any fun u => u.isFoundBy Γ email) = false) :
    (V.users.any fun u => u.isFoundBy Γ email && u.isActive) = false := by
  rw [List.any_eq_false] at h ⊢
  exact fun u hu hfound => h u hu (Bool.and_eq_true _ _ ▸ hfound).1

/-- The error, if there is one. -/
def errorOf : Resolved → Option AuthError
  | .ok _ => none
  | .error e => some e

/-- The first failure is the error. -/
theorem failure_of_resolution {r : Resolved} {V' : Store} (h : Resolution Γ provider claims V r V') :
    firstFailure Γ provider claims V = errorOf r := by
  cases h with
  | @known x u hx hu hactive hlive =>
    have hmem : u ∈ V.users.filter fun u => u.id = x.userId := by
      rw [hu]
      exact List.mem_singleton_self u
    rw [firstFailure, find_of_filter hx]
    refine if_pos (List.any_eq_true.2 ⟨u, List.mem_of_mem_filter hmem, ?_⟩)
    rw [(List.mem_filter.1 hmem).2, hactive, hlive]
    rfl
  | unavailable hx husers =>
    rw [firstFailure, find_of_filter hx]
    exact if_neg (by rw [husers]; exact Bool.false_ne_true)
  | untrusted hnone htrusted =>
    rw [firstFailure, find_of_filter hnone]
    simp only [List.head?_nil, htrusted]
    rfl
  | linked hnone htrusted hu hmode =>
    rw [failure_trusted hnone htrusted, any_of_filter_one hu, hmode]
    rfl
  | notLinked hnone htrusted hu hmode =>
    rw [failure_trusted hnone htrusted, any_of_filter_one hu]
    rcases hmode with ⟨hmode, rfl⟩ | ⟨hmode, rfl⟩ <;> rw [hmode] <;> rfl
  | collides hnone htrusted hinactive hany =>
    rw [failure_trusted hnone htrusted, any_of_filter.2 hinactive, hany]
    rfl
  | notProvisioned hnone htrusted hfree hforbidden =>
    rw [failure_trusted hnone htrusted, inactive_of_notFound hfree, hfree, hforbidden]
    rfl
  | taken hnone htrusted hfree hallowed htaken =>
    rw [failure_trusted hnone htrusted, inactive_of_notFound hfree, hfree, hallowed, isTaken, htaken]
    rfl
  | provisioned hnone htrusted hfree hallowed htaken =>
    rw [failure_trusted hnone htrusted, inactive_of_notFound hfree, hfree, hallowed, isTaken, htaken]
    rfl

/-- When the conditions for a link hold, nothing fails. -/
theorem failure_of_linkable {email : Text} {u : User} (hnone : ∀ x ∈ V.identities, x.isFor provider claims = false)
    (hmode : provider.linkMode = .auto) (htrusted : TrustedEmail Γ provider claims email) (hu : u ∈ V.users)
    (hfound : u.isFoundBy Γ email = true) (hactive : u.isActive = true) : firstFailure Γ provider claims V = none := by
  have hany : (V.users.any fun u => u.isFoundBy Γ email && u.isActive) = true :=
    List.any_eq_true.2 ⟨u, hu, by rw [hfound, hactive]; rfl⟩
  rw [failure_trusted (filter_of_none hnone) (trusted_iff.2 htrusted), hany, hmode]
  rfl

/-- When the conditions for a new user hold, nothing fails. -/
theorem failure_of_provisionable {email : Text} (hnone : ∀ x ∈ V.identities, x.isFor provider claims = false)
    (hmode : provider.autoProvision = .enabled) (htrusted : TrustedEmail Γ provider claims email) (hfree : EmailFree Γ email V) :
    firstFailure Γ provider claims V = none := by
  obtain ⟨hfound, htaken⟩ := emailFree_iff.1 hfree
  have hallowed : provider.allowsAutoProvision = true := by
    rw [OidcProviderSettings.allowsAutoProvision, htrusted.1, hmode]
    rfl
  rw [failure_trusted (filter_of_none hnone) (trusted_iff.2 htrusted), inactive_of_notFound hfound, hfound, hallowed, htaken]
  rfl

/-- When there is an identity, only its user can fail. -/
theorem failure_of_known {x : AuthIdentity} (hx : x ∈ V.identities) (hfor : x.isFor provider claims = true) :
    firstFailure Γ provider claims V = none ∨ firstFailure Γ provider claims V = some .oidcIdentityUnavailable := by
  obtain ⟨y, hy⟩ := Option.isSome_iff_exists.1 (List.find?_isSome.2 ⟨x, hx, hfor⟩)
  rw [firstFailure, hy]
  dsimp only
  split
  · exact Or.inl rfl
  · exact Or.inr rfl

/-- An error is never the outcome of linking an existing user. -/
theorem not_links_error {e : AuthError} {V' : Store} : ¬ Links V (.error e) V' := by
  rintro ⟨_, _, _, h, _⟩
  cases h

/-- An error is never the outcome of provisioning a new user. -/
theorem not_provisions_error {e : AuthError} {V' : Store} : ¬ Provisions V (.error e) V' := by
  rintro ⟨_, _, h, _⟩
  cases h

/-- A failure decides as it should. -/
theorem decides_error {e : AuthError} (h : firstFailure Γ provider claims V = some e) :
    Decides Γ provider claims V (.error e) V where
  returned := nofun
  known x hx hfor := by
    refine ⟨rfl, Or.inl ?_⟩
    rcases failure_of_known hx hfor with hnone | hsome
    · rw [h] at hnone
      cases hnone
    · rw [h] at hsome
      rw [Option.some.inj hsome]
  links := by
    refine iff_of_false not_links_error ?_
    rintro ⟨hnone, hmode, email, htrusted, u, hu, hfound, hactive⟩
    rw [failure_of_linkable hnone hmode htrusted hu hfound hactive] at h
    cases h
  provisions := by
    refine iff_of_false not_provisions_error ?_
    rintro ⟨hnone, hmode, email, htrusted, hfree⟩
    rw [failure_of_provisionable hnone hmode htrusted hfree] at h
    cases h
  refused e' := by
    rw [h, Except.error.injEq, Option.some.injEq]
  unchanged _ _ := rfl

/-- Where no check fails, an accepted login is no refusal. -/
theorem refused_ok {r : User × AuthIdentity × List AuthEventType} (h : firstFailure Γ provider claims V = none) (e : AuthError) :
    (.ok r : Resolved) = .error e ↔ firstFailure Γ provider claims V = some e := by
  rw [h]
  exact iff_of_false nofun nofun

/-- A trusted email is the one the source's check returns. -/
theorem trusted_unique {email email' : Text} (h : trustedVerifiedEmail Γ provider claims = .ok email)
    (h' : TrustedEmail Γ provider claims email') : email' = email := by
  rw [trusted_iff.2 h'] at h
  exact Except.ok.inj h

/-- What the resolution does in every branch is what the decision table allows. -/
theorem decides_of_resolution {r : Resolved} {V' : Store} (h : Resolution Γ provider claims V r V') :
    Decides Γ provider claims V r V' := by
  have hfailure := failure_of_resolution h
  cases h with
  | unavailable _ _ => exact decides_error hfailure
  | untrusted _ _ => exact decides_error hfailure
  | notLinked _ _ _ _ => exact decides_error hfailure
  | collides _ _ _ _ => exact decides_error hfailure
  | notProvisioned _ _ _ _ => exact decides_error hfailure
  | taken _ _ _ _ _ => exact decides_error hfailure
  | @known x u hx hu hactive hlive =>
    have hmem : u ∈ V.users.filter fun u => u.id = x.userId := by
      rw [hu]
      exact List.mem_singleton_self u
    have hxmem : x ∈ V.identities.filter (AuthIdentity.isFor provider claims) := by
      rw [hx]
      exact List.mem_singleton_self x
    have hxfor := (List.mem_filter.1 hxmem).2
    have hsome : ¬ ∀ y ∈ V.identities, y.isFor provider claims = false := by
      intro hnone
      rw [hnone x (List.mem_of_mem_filter hxmem)] at hxfor
      cases hxfor
    refine ⟨?_, ?_, ?_, ?_, refused_ok hfailure, nofun⟩
    · rintro user identity audits heq
      cases heq
      exact ⟨List.mem_of_mem_filter hmem, hactive, hlive, List.mem_of_mem_filter hxmem, hxfor,
        (of_decide_eq_true (List.mem_filter.1 hmem).2).symm⟩
    · intro y hy hfor
      have hymem : y ∈ V.identities.filter (AuthIdentity.isFor provider claims) := List.mem_filter.2 ⟨hy, hfor⟩
      rw [hx, List.mem_singleton] at hymem
      rw [hymem]
      exact ⟨rfl, Or.inr ⟨u, rfl⟩⟩
    · refine iff_of_false ?_ fun h => hsome h.1
      rintro ⟨_, _, _, heq, _⟩
      cases heq
    · refine iff_of_false ?_ fun h => hsome h.1
      rintro ⟨_, _, heq, _⟩
      cases heq
  | @linked email u x hnone htrusted hu hmode hfor huser =>
    have hmem : u ∈ V.users.filter fun u => u.isFoundBy Γ email && u.isActive := by
      rw [hu]
      exact List.mem_singleton_self u
    have hactive := (List.mem_filter.1 hmem).2
    rw [Bool.and_eq_true] at hactive
    have hlive := hactive.1
    rw [User.isFoundBy, Bool.and_eq_true, Option.isNone_iff_eq_none] at hlive
    refine ⟨?_, ?_, ?_, ?_, refused_ok hfailure, nofun⟩
    · rintro user identity audits heq
      cases heq
      exact ⟨List.mem_of_mem_filter hmem, hactive.2, hlive.2, List.mem_append_right _ (List.mem_singleton_self x), hfor, huser⟩
    · intro y hy hyfor
      rw [none_of_filter hnone y hy] at hyfor
      cases hyfor
    · exact iff_of_true ⟨u, List.mem_of_mem_filter hmem, x, rfl, rfl⟩
        ⟨none_of_filter hnone, hmode, email, trusted_iff.1 htrusted, u, List.mem_of_mem_filter hmem, hactive⟩
    · refine iff_of_false ?_ ?_
      · rintro ⟨_, _, heq, _⟩
        cases heq
      · rintro ⟨_, _, email', htrusted', hfree⟩
        rw [trusted_unique htrusted htrusted'] at hfree
        have hfound := (emailFree_iff.1 hfree).1
        rw [List.any_eq_false] at hfound
        exact hfound u (List.mem_of_mem_filter hmem) hactive.1
  | @provisioned email u x hnone htrusted hfound hallowed htaken hpassword hactive hlive hfor huser =>
    have hmode : provider.autoProvision = .enabled := by
      rw [OidcProviderSettings.allowsAutoProvision, Bool.and_eq_true, beq_iff_eq] at hallowed
      exact hallowed.2
    refine ⟨?_, ?_, ?_, ?_, refused_ok hfailure, nofun⟩
    · rintro user identity audits heq
      cases heq
      exact ⟨List.mem_append_right _ (List.mem_singleton_self u), hactive, hlive,
        List.mem_append_right _ (List.mem_singleton_self x), hfor, huser⟩
    · intro y hy hyfor
      rw [none_of_filter hnone y hy] at hyfor
      cases hyfor
    · refine iff_of_false ?_ ?_
      · rintro ⟨_, _, _, heq, _⟩
        cases heq
      · rintro ⟨_, _, email', htrusted', u', hu', hfound', _⟩
        rw [trusted_unique htrusted htrusted'] at hfound'
        rw [List.any_eq_false] at hfound
        exact hfound u' hu' hfound'
    · exact iff_of_true ⟨u, x, rfl, hpassword, rfl⟩
        ⟨none_of_filter hnone, hmode, email, trusted_iff.1 htrusted, emailFree_iff.2 ⟨hfound, htaken⟩⟩

/-- A provider that links by email. -/
def google : OidcProviderSettings :=
  ⟨"google".toList, "Google".toList, "https://accounts.google.com".toList, "client".toList, true, .linkOnly, .auto⟩

def claims₁ : OidcVerifiedClaims :=
  ⟨"google".toList, "https://accounts.google.com".toList, "client".toList, "sub".toList, some "alice".toList, true, 0, 0, none⟩

def alice : User := ⟨0, "alice".toList, none, true, .ja, 0, 0, none, none⟩

def Γ₁ : Ctx := Ctx.readable [google] fun _ => .error .oidcProviderUnavailable

/-- An active user, and a deleted one with the same email. -/
def S₁ : Store := { Store.empty with users := [alice, { alice with id := 1, deletedAt := some 0 }] }

end ResolutionAux

open ResolutionAux

/-- The claims of an identity token are resolved as the provider is configured, whatever the tables. A run that nothing disturbs
ends, and it ends with a decision. -/
theorem identity_resolution {Γ : Ctx} {provider : OidcProviderSettings} {claims : OidcVerifiedClaims}
    {languageCode : Option LanguageCode} {me : Nat} {db : Db (database Γ)} (hkept : WellKept Γ (db.view me) db.env)
    (halone : ∀ k i, db.owner k = some i → i = me) :
    (∃ r db', Runs me (resolveLoginUserAndIdentity provider claims languageCode) db [] r db') ∧
    ∀ r db', Runs me (resolveLoginUserAndIdentity provider claims languageCode) db [] r db' →
      db'.store = db.store ∧ Decides Γ provider claims (db.view me) r (db'.view me) := by
  have hsees : Sees me ⟨db.store, db.view me, db.env⟩ db := ⟨rfl, rfl, rfl, halone⟩
  have hsurely : Surely Passing.running me _ (resolveLoginUserAndIdentity provider claims languageCode)
    ⟨db.store, db.view me, db.env⟩ := surely_resolve hkept
  refine ⟨?_, fun r db' hrun => ?_⟩
  · obtain ⟨r, db', _, hrun, _⟩ := hsurely.stop.run hsees
    exact ⟨r, db', runs_of_run hrun⟩
  · obtain ⟨σ', hsees', hstore, hresolution⟩ := hsurely.runs hsees hrun
    rw [hsees'.store, hsees'.view]
    exact ⟨hstore, decides_of_resolution hresolution⟩

/-- The identity is linked to the active user with the email. -/
theorem identity_resolution_links : ∃ r db', Runs 0 (resolveLoginUserAndIdentity google claims₁ none)
    (atRest Γ₁ S₁ ⟨0, [], 2, 0, 0, 0⟩) [] r db' ∧ Links S₁ r (db'.view 0) := by
  have hview : (atRest Γ₁ S₁ ⟨0, [], 2, 0, 0, 0⟩).view 0 = S₁ := view_atRest _ _ _
  have hkept : WellKept Γ₁ ((atRest Γ₁ S₁ ⟨0, [], 2, 0, 0, 0⟩).view 0) ⟨0, [], 2, 0, 0, 0⟩ := by
    rw [hview]
    exact ⟨by decide, by decide, by decide, by decide, by decide⟩
  obtain ⟨⟨r, db', hrun⟩, hdecides⟩ : (∃ r db', Runs 0 (resolveLoginUserAndIdentity google claims₁ none) _ [] r db') ∧ _ :=
    identity_resolution hkept fun _ _ howner => by cases howner
  have hlinks := (hdecides r db' hrun).2.links
  rw [hview] at hlinks
  exact ⟨r, db', hrun, hlinks.2 ⟨by decide, rfl, "alice".toList, ⟨rfl, rfl, by decide, _, rfl, rfl⟩, alice, by decide, by decide,
    rfl⟩⟩

end AuthService
