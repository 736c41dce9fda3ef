import AuthService.Interleavings
import AuthService.Library.History

/-!
# Two replacements of the roles of a user

`replace_user_roles` reads the roles, and deletes and inserts what differs. It does not lock the user first, so two replacements
may read the same roles.
-/

namespace AuthService

open ReadCommitted RelyGuarantee

variable {Γ : Ctx}

/-- The roles of a user. -/
def rolesOf (u : Uuid) (S : Store) : Finset Text := ((S.roles.filter fun r => r.userId = u).map UserRole.roleCode).toFinset

/-- A request to replace the roles of a user. -/
structure Replacement where
  actor : AuthenticatedSessionContext
  roles : List Text
  ipAddress : Option Text
  userAgent : Option Text

/-- The request for a user. -/
def Replacement.op (x : Replacement) (u : Uuid) : Op := .replaceUserRoles x.actor u x.roles x.ipAddress x.userAgent

variable (Γ) in
/-- Two requests for a user are about to start. -/
def twoReplacements (u : Uuid) (x y : Replacement) (S : Store) (env : Env) : Configuration Γ :=
  ⟨atRest Γ S env, fun
    | 0 => program Γ (x.op u)
    | 1 => program Γ (y.op u)
    | _ => .done (.ok .done)⟩

/-- The thread has committed, and reports a result. -/
def Reports (c : Configuration Γ) (i : Nat) (result : UserRoleReplacementResult) : Prop :=
  c.threads i = .done (.ok (.roles result))

/-- At the end the user has the roles of one request, and had what each request reports at some time after its commit. -/
def Serialises (u : Uuid) (x y : Replacement) (run : Nat → Configuration Γ) (n : Nat) : Prop :=
  (rolesOf u (run n).state.store = x.roles.toFinset ∨ rolesOf u (run n).state.store = y.roles.toFinset) ∧
    ∀ i result, Reports (run n) i result →
      ∃ k ≤ n, Reports (run k) i result ∧ rolesOf u (run k).state.store = result.currentRoleCodes.toFinset

/-- What comes of two targets when both requests have read the same roles. -/
def merged (E A B : Finset Text) : Finset Text := E ∩ A ∩ B ∪ (A ∪ B) \ E

namespace ReplacementAux

/-- The roles of a user are the codes of its rows. -/
theorem mem_rolesOf {u : Uuid} {S : Store} {c : Text} :
    c ∈ rolesOf u S ↔ ∃ r ∈ S.roles, r.userId = u ∧ r.roleCode = c := by
  simp [rolesOf, and_assoc]

/-! ## The contract -/

/-- The database with the commits so far. -/
abbrev Committed (Γ : Ctx) := Db (database Γ) × List (Nat × Store)

section Contract

variable (u : Uuid) (T : Nat → Finset Text) (S0 : Store)

/-- What a thread leaves: its target, or what comes of both targets when both threads have read the first roles. -/
def Outcome (i : Nat) (S : Store) : Prop :=
  rolesOf u S = T i ∨ rolesOf u S = merged (rolesOf u S0) (T 0) (T 1) ∧ T 0 ∩ T 1 ⊆ rolesOf u S0

/-- Each of the two threads commits once, and the first leaves its target. What is left of the old roles is left
in their rows. -/
structure Orderly (s : Committed Γ) : Prop where
  guarded : Guarded s.1
  ids : (s.1.store.roles.map UserRole.id).Nodup
  two : ∀ e ∈ s.2, e.1 < 2
  once : (s.2.map Prod.fst).Nodup
  outcome : ∀ e ∈ s.2, Outcome u T S0 e.1 e.2
  target : ∀ e, s.2.head? = some e → rolesOf u e.2 = T e.1
  last : ∀ e, s.2.getLast? = some e → e.2 = s.1.store
  first : s.2 = [] → s.1.store = S0
  kept : ∀ e, s.2 = [e] → ∀ r ∈ s.1.store.roles, r.userId = u → r.roleCode ∈ rolesOf u S0 → r ∈ S0.roles

/-- What a thread relies on: its locks, and that only commits of others change the store. -/
structure Relies (i : Nat) (s s' : Committed Γ) : Prop where
  frame : Frame i s.1 s'.1
  ends : ∃ l, s'.2 = s.2 ++ l ∧ ∀ e ∈ l, e.1 ≠ i
  still : s'.2 = s.2 → s'.1.store = s.1.store
  orderly : Orderly u T S0 s → Orderly u T S0 s'

/-- Nothing has happened yet. -/
theorem relies_refl (i : Nat) (s : Committed Γ) : Relies u T S0 i s s :=
  ⟨Frame.refl i s.1, ⟨[], (List.append_nil _).symm, nofun⟩, fun _ => rfl, id⟩

variable {u T S0}

/-- One period after another. -/
theorem Relies.trans {i : Nat} {s s' s'' : Committed Γ} (h : Relies u T S0 i s s') (h' : Relies u T S0 i s' s'') :
    Relies u T S0 i s s'' := by
  obtain ⟨l, hl, hother⟩ := h.ends
  obtain ⟨l', hl', hother'⟩ := h'.ends
  refine ⟨h.frame.trans h'.frame, ⟨l ++ l', by rw [hl', hl, List.append_assoc], fun e he => ?_⟩, fun hsame => ?_,
    fun ho => h'.orderly (h.orderly ho)⟩
  · exact (List.mem_append.1 he).elim (hother e) (hother' e)
  · rw [hl', hl, List.append_assoc, List.append_right_eq_self, List.append_eq_nil_iff] at hsame
    obtain ⟨rfl, rfl⟩ := hsame
    rw [List.append_nil] at hl hl'
    exact (h'.still hl').trans (h.still hl)

/-- Time that passes ends no transaction. -/
theorem Orderly.drift {s s' : Committed Γ} (h : Orderly u T S0 s) (hdrift : (committing (database Γ)).drift s s') :
    Orderly u T S0 s' := by
  obtain ⟨db, ends⟩ := s
  obtain ⟨db', ends'⟩ := s'
  obtain ⟨⟨m, rfl⟩, hends⟩ := hdrift
  obtain rfl : ends' = ends := hends
  exact ⟨h.guarded, h.ids, h.two, h.once, h.outcome, h.target, h.last, h.first, h.kept⟩

/-- Time that passes changes no row. -/
theorem relies_of_drift {i : Nat} {s s' : Committed Γ} (hdrift : (committing (database Γ)).drift s s') :
    Relies u T S0 i s s' := by
  have horderly : Orderly u T S0 s → Orderly u T S0 s' := fun h => h.drift hdrift
  have hframe := Frame.drift (i := i) hdrift.1
  obtain ⟨db, ends⟩ := s
  obtain ⟨db', ends'⟩ := s'
  obtain ⟨⟨m, rfl⟩, hends⟩ := hdrift
  obtain rfl : ends' = ends := hends
  exact ⟨hframe, ⟨[], (List.append_nil _).symm, nofun⟩, fun _ => rfl, horderly⟩

variable (Γ u T S0) in
/-- Every action of a thread keeps what the others rely on. -/
def replacing : Contract (committing (database Γ)) where
  inv := Orderly u T S0
  rely := Relies u T S0
  guar i s s' := ∀ j, j ≠ i → Relies u T S0 j s s'
  rely_refl := relies_refl u T S0
  rely_trans := Relies.trans
  guar_rely hij _ _ hguar := hguar _ hij
  drift_inv := Orderly.drift
  drift_rely _ hdrift := relies_of_drift hdrift

/-! ## Actions that commit nothing -/

variable {i : Nat} {s s' : Committed Γ} {a : Act (database Γ)} {r : Except AuthError (Result (database Γ) a)}

/-- Only the end of a transaction changes the committed store. -/
theorem store_of_not_ends {db db' : Db (database Γ)} (h : Effect i db a r db') (ha : a.ends r = false) :
    db'.store = db.store := by
  cases h with
  | commit => cases ha
  | fault a e => cases a <;> rfl
  | _ => rfl

/-- An action that commits nothing. -/
theorem Orderly.quiet (h : Orderly u T S0 s) (hexec : (committing (database Γ)).exec i a s r s') (ha : a.ends r = false) :
    s'.2 = s.2 ∧ s'.1.store = s.1.store ∧ Orderly u T S0 s' ∧ ∀ j, j ≠ i → Relies u T S0 j s s' := by
  obtain ⟨db, ends⟩ := s
  obtain ⟨db', ends'⟩ := s'
  obtain ⟨heffect, hends⟩ := hexec
  rw [ha, if_neg Bool.false_ne_true] at hends
  obtain rfl : ends' = ends := hends
  have hstore : db'.store = db.store := store_of_not_ends heffect ha
  have horderly : Orderly u T S0 (db', ends') := by
    obtain ⟨hguarded, hids, htwo, honce, houtcome, htarget, hlast, hfirst, hkept⟩ := h
    refine ⟨hguarded.effect heffect, ?_, htwo, honce, houtcome, htarget, ?_, ?_, ?_⟩
    · show (db'.store.roles.map _).Nodup
      rw [hstore]
      exact hids
    · show ∀ e : Nat × Store, _ → e.2 = db'.store
      rw [hstore]
      exact hlast
    · show _ → db'.store = S0
      rw [hstore]
      exact hfirst
    · show ∀ e, _ → ∀ r ∈ db'.store.roles, _
      rw [hstore]
      exact hkept
  exact ⟨rfl, hstore, horderly, fun j hj => ⟨Frame.effect hj h.guarded heffect, ⟨[], (List.append_nil _).symm, nofun⟩,
    fun _ => hstore, fun _ => horderly⟩⟩

/-! ## What a replacement knows -/

variable (u T S0) in
/-- The thread has not committed yet. -/
def Open (i : Nat) (s : Committed Γ) : Prop := Orderly u T S0 s ∧ ∀ e ∈ s.2, e.1 ≠ i

variable (u S0) in
/-- The thread has read these roles: the first ones, or the ones that the other thread left. -/
def HasRead (X : Finset Text) (s : Committed Γ) : Prop := X = rolesOf u S0 ∨ s.2 ≠ [] ∧ rolesOf u s.1.store = X

/-- A thread that has not committed has not done so later. -/
theorem Open.rely (h : Open u T S0 i s) (hrely : Relies u T S0 i s s') : Open u T S0 i s' := by
  obtain ⟨l, hl, hother⟩ := hrely.ends
  refine ⟨hrely.orderly h.1, fun e he => ?_⟩
  rw [hl] at he
  exact (List.mem_append.1 he).elim (h.2 e) (hother e)

theorem stable_open : Stable (replacing Γ u T S0) i (Open u T S0 i) := fun h hrely => h.rely hrely

/-- After the other thread has committed, nothing changes. -/
theorem Open.frozen (hi : i < 2) (h : Open u T S0 i s) (hrely : Relies u T S0 i s s') (hends : s.2 ≠ []) : s'.2 = s.2 := by
  have h' := h.rely hrely
  obtain ⟨l, hl, hother⟩ := hrely.ends
  cases l with
  | nil => rw [hl, List.append_nil]
  | cons e' l =>
    exfalso
    obtain ⟨e, he⟩ := List.exists_mem_of_ne_nil _ hends
    have honce := h'.1.once
    rw [hl, List.map_append, List.nodup_append] at honce
    have hmem' : e' ∈ s'.2 := hl ▸ List.mem_append_right _ (List.mem_cons_self ..)
    have htwo := h.1.two e he
    have htwo' := h'.1.two e' hmem'
    have hne := h.2 e he
    have hne' := h'.2 e' hmem'
    exact honce.2.2 e.1 (List.mem_map_of_mem he) e'.1 (List.mem_map_of_mem (List.mem_cons_self ..)) (by omega)

/-- Only one other thread can have committed. -/
theorem Open.single (hi : i < 2) (h : Open u T S0 i s) (hends : s.2 ≠ []) : ∃ e, s.2 = [e] := by
  obtain ⟨e, l, hl⟩ := List.exists_cons_of_ne_nil hends
  cases l with
  | nil => exact ⟨e, hl⟩
  | cons e' l =>
    exfalso
    have honce := h.1.once
    rw [hl, List.map_cons, List.nodup_cons] at honce
    have hmem : e ∈ s.2 := hl ▸ List.mem_cons_self ..
    have hmem' : e' ∈ s.2 := hl ▸ List.mem_cons_of_mem _ (List.mem_cons_self ..)
    have htwo := h.1.two e hmem
    have htwo' := h.1.two e' hmem'
    have hne := h.2 e hmem
    have hne' := h.2 e' hmem'
    refine honce.1 ?_
    have heq : e.1 = e'.1 := by omega
    rw [heq]
    exact List.mem_map_of_mem (List.mem_cons_self ..)

/-- The roles that were read are the first ones, or those that the other thread left. -/
theorem HasRead.rely {X : Finset Text} (hi : i < 2) (h : Open u T S0 i s) (hread : HasRead u S0 X s)
    (hrely : Relies u T S0 i s s') : HasRead u S0 X s' := by
  rcases hread with hX | ⟨hends, hX⟩
  · exact Or.inl hX
  · have hsame := h.frozen hi hrely hends
    exact Or.inr ⟨by rwa [hsame], by rwa [hrely.still hsame]⟩

/-- The rows of roles that were read are old. -/
theorem HasRead.old {X : Finset Text} (hi : i < 2) (h : Open u T S0 i s) (hread : HasRead u S0 X s)
    (hrely : Relies u T S0 i s s') {row : UserRole} (hrow : row ∈ s'.1.store.roles) (hu : row.userId = u)
    (hX : row.roleCode ∈ X) : row ∈ s.1.store.roles := by
  by_cases hsame : s'.2 = s.2
  · rwa [hrely.still hsame] at hrow
  · have hnone : s.2 = [] := by
      by_contra hends
      exact hsame (h.frozen hi hrely hends)
    have hX0 : X = rolesOf u S0 := hread.resolve_right fun hr => hr.1 hnone
    have h' := h.rely hrely
    obtain ⟨e, he⟩ := h'.single hi fun hnil => hsame (hnil.trans hnone.symm)
    rw [h.1.first hnone]
    exact h'.1.kept e he row hrow hu (hX0 ▸ hX)

/-! ## The writes of a replacement -/

/-- Rows with a locked key come from no commit of another thread. -/
theorem mem_of_frame {db db' : Db (database Γ)} (h : Frame i db db') {row : UserRole} (hrow : row ∈ db'.store.roles)
    (hown : db.owner (Key.role row.id) = some i ∨ db.owner (Key.userRole row.userId row.roleCode) = some i) :
    row ∈ db.store.roles := by
  obtain ⟨js, -, hstore, hkeys⟩ := h.commits
  rw [hstore] at hrow
  by_contra hnot
  refine applyAll_induct (D := database Γ) (P := fun S : Store => row ∉ S.roles) hnot (fun w hw S hS hmem => ?_) hrow
  obtain ⟨j, hj, rfl⟩ := List.mem_map.1 hw
  have hlocked := (hkeys j hj).2
  generalize j.2 = w at hlocked hmem
  cases (w : Write) with
  | insertRole row' =>
    rcases List.mem_append.1 hmem with hmem | hmem
    · exact hS hmem
    · obtain rfl := List.mem_singleton.1 hmem
      rcases hown with hown | hown
      · exact hlocked _ (List.mem_cons_self ..) hown
      · exact hlocked _ (List.mem_cons_of_mem _ (List.mem_cons_self ..)) hown
  | deleteRole id => exact hS (List.mem_of_mem_filter hmem)
  | _ => exact hS hmem

variable (u T) in
/-- The log deletes the rows `D` and adds the rows `R`. -/
structure Draft (i : Nat) (X : Finset Text) (D : List Uuid) (R : List UserRole) (s : Committed Γ) : Prop where
  roles : ∀ S : Store, (applyAll (D := database Γ) (s.1.log i) S).roles = S.roles.filter (fun r => r.id ∉ D) ++ R
  revoked : ∀ id ∈ D, s.1.owner (Key.role id) = some i
  old : ∀ row ∈ s.1.store.roles, row.id ∈ D → row.userId = u ∧ row.roleCode ∈ X ∧ row.roleCode ∉ T i
  granted : ∀ row ∈ R, s.1.owner (Key.role row.id) = some i ∧ s.1.owner (Key.userRole u row.roleCode) = some i
  target : ∀ row ∈ R, row.userId = u ∧ row.roleCode ∈ T i ∧ row.roleCode ∉ X
  new : ∀ row ∈ R, ∀ row' ∈ s.1.store.roles, row'.id ∉ D →
    row'.id ≠ row.id ∧ ¬(row'.userId = u ∧ row'.roleCode = row.roleCode)
  ids : (R.map UserRole.id).Nodup

/-- The draft of a thread stays its own. -/
theorem Draft.rely {X : Finset Text} {D : List Uuid} {R : List UserRole} (h : Draft u T i X D R s)
    (hrely : Relies u T S0 i s s') : Draft u T i X D R s' where
  roles := by
    rw [hrely.frame.log]
    exact h.roles
  revoked id hid := (hrely.frame.owner _).2 (h.revoked id hid)
  old row hrow hid := h.old row (mem_of_frame hrely.frame hrow (.inl (h.revoked _ hid))) hid
  granted row hrow := ⟨(hrely.frame.owner _).2 (h.granted row hrow).1, (hrely.frame.owner _).2 (h.granted row hrow).2⟩
  target := h.target
  new row hrow row' hrow' hid := by
    obtain ⟨hown, hownCode⟩ := h.granted row hrow
    constructor
    · intro heq
      exact (h.new row hrow row' (mem_of_frame hrely.frame hrow' (.inl (heq ▸ hown))) hid).1 heq
    · rintro ⟨hu, hcode⟩
      refine (h.new row hrow row' (mem_of_frame hrely.frame hrow' (.inr ?_)) hid).2 ⟨hu, hcode⟩
      rw [hu, hcode]
      exact hownCode
  ids := h.ids

/-- What is known of a draft and of the store: rows that were read stay known. -/
def Lasting (u : Uuid) (X : Finset Text) (φ : List Uuid → List UserRole → Store → Prop) : Prop :=
  ∀ D R (S S' : Store), (∀ row ∈ S'.roles, row.userId = u → row.roleCode ∈ X → row ∈ S.roles) → φ D R S → φ D R S'

variable (u T S0) in
/-- A replacement that has read the roles `X`, with a draft. -/
def Edits (i : Nat) (X : Finset Text) (φ : List Uuid → List UserRole → Store → Prop) (s : Committed Γ) : Prop :=
  Open u T S0 i s ∧ HasRead u S0 X s ∧ ∃ D R, Draft u T i X D R s ∧ φ D R s.1.store

variable {X : Finset Text} {D : List Uuid} {R : List UserRole} {φ : List Uuid → List UserRole → Store → Prop}

/-- What is known of a draft stays so while the others act. -/
theorem stable_edits (hi : i < 2) (hφ : Lasting u X φ) : Stable (replacing Γ u T S0) i (Edits u T S0 i X φ) := by
  rintro s s' ⟨hopen, hread, D, R, hdraft, hknown⟩ hrely
  refine ⟨hopen.rely hrely, hread.rely hi hopen hrely, D, R, hdraft.rely hrely, hφ D R _ _ ?_ hknown⟩
  exact fun row hrow hu hX => hread.old hi hopen hrely hrow hu hX

/-- Nothing is written. -/
def untouched (D : List Uuid) (R : List UserRole) (_ : Store) : Prop := D = [] ∧ R = []

variable (u T) in
/-- What is revoked has been found. -/
def found (i : Nat) (X : Finset Text) (keys : List Key) (D : List Uuid) (R : List UserRole) (S : Store) : Prop :=
  untouched D R S ∧ ∀ row ∈ S.roles, row.userId = u → row.roleCode ∈ X → row.roleCode ∉ T i → Key.role row.id ∈ keys

variable (u T) in
/-- What is revoked is deleted, and these roles are added. -/
def added (i : Nat) (X G : Finset Text) (D : List Uuid) (R : List UserRole) (S : Store) : Prop :=
  (∀ row ∈ S.roles, row.userId = u → row.roleCode ∈ X → row.roleCode ∉ T i → row.id ∈ D) ∧
    (R.map UserRole.roleCode).toFinset = G

theorem lasting_untouched : Lasting u X untouched := fun _ _ _ _ _ h => h

theorem lasting_found {keys : List Key} : Lasting u X (found u T i X keys) := fun _ _ _ _ hold h =>
  ⟨h.1, fun row hrow hu hX hT => h.2 row (hold row hrow hu hX) hu hX hT⟩

theorem lasting_added {G : Finset Text} : Lasting u X (added u T i X G) := fun _ _ _ _ hold h =>
  ⟨fun row hrow hu hX hT => h.1 row (hold row hrow hu hX) hu hX hT, h.2⟩

/-! ## Actions that leave the roles alone -/

/-- The action leaves the roles alone, and the transaction open. -/
def LeavesRoles : Act (database Γ) → Prop
  | .insert w => ∀ S : Store, (Write.apply w S).roles = S.roles
  | .finish s _ => ∀ k w, Stmt.change s k = some w → ∀ S : Store, (Write.apply w S).roles = S.roles
  | .begin | .commit | .rollback => False
  | _ => True

theorem LeavesRoles.not_bracket (h : LeavesRoles a) : a.isBracket = false := by
  cases a <;> first | rfl | exact h.elim

theorem LeavesRoles.not_ends (h : LeavesRoles a) (r : Except AuthError (Result (database Γ) a)) : a.ends r = false := by
  cases a <;> first | rfl | exact h.elim

/-- The writes of an action that leaves the roles alone. -/
theorem roles_of_leaves {db : Db (database Γ)} {ws : List Write} (h : LeavesRoles a) (hws : Writes i db a ws) (S : Store) :
    (applyAll (D := database Γ) ws S).roles = S.roles := by
  refine applyAll_induct (D := database Γ) (P := fun V : Store => V.roles = S.roles) rfl fun w hw V hV => ?_
  refine Eq.trans ?_ hV
  cases hws with
  | none _ => cases hw
  | insert w' _ _ =>
    rw [List.mem_singleton.1 hw]
    exact h V
  | finish stmt found _ =>
    obtain ⟨k, -, hchange⟩ := List.mem_filterMap.1 hw
    exact h k w hchange V

/-- What a thread knows, it knows after an action that leaves the roles alone. -/
theorem Open.leaves (h : Open u T S0 i s) (ha : LeavesRoles a) (hexec : (committing (database Γ)).exec i a s r s') :
    Open u T S0 i s' ∧ (∀ j, j ≠ i → Relies u T S0 j s s') ∧ s'.2 = s.2 ∧ s'.1.store = s.1.store ∧
      (∀ S : Store, (applyAll (D := database Γ) (s'.1.log i) S).roles = (applyAll (D := database Γ) (s.1.log i) S).roles) ∧
      ∀ k, s.1.owner k = some i → s'.1.owner k = some i := by
  obtain ⟨hends, hstore, horderly, hothers⟩ := h.1.quiet hexec (ha.not_ends r)
  obtain ⟨-, -, ⟨ws, hws, hlog⟩, -⟩ := hexec.1.inside ha.not_bracket
  refine ⟨⟨horderly, hends ▸ h.2⟩, hothers, hends, hstore, fun S => ?_, fun k hk => hexec.1.owner_inside ha.not_bracket hk⟩
  rw [hlog, applyAll_append]
  exact roles_of_leaves ha hws _

/-- A draft, after an action that leaves the roles alone. -/
theorem Edits.leaves (h : Edits u T S0 i X φ s) (ha : LeavesRoles a) (hexec : (committing (database Γ)).exec i a s r s') :
    Orderly u T S0 s' ∧ (∀ j, j ≠ i → Relies u T S0 j s s') ∧ Edits u T S0 i X φ s' := by
  obtain ⟨hopen, hread, D, R, hdraft, hknown⟩ := h
  obtain ⟨hopen', hothers, hends, hstore, hroles, howner⟩ := hopen.leaves ha hexec
  refine ⟨hopen'.1, hothers, hopen', ?_, D, R, ?_, ?_⟩
  · unfold HasRead
    rw [hends, hstore]
    exact hread
  · exact
      { roles := fun S => (hroles S).trans (hdraft.roles S)
        revoked := fun id hid => howner _ (hdraft.revoked id hid)
        old := by
          rw [hstore]
          exact hdraft.old
        granted := fun row hrow => ⟨howner _ (hdraft.granted row hrow).1, howner _ (hdraft.granted row hrow).2⟩
        target := hdraft.target
        new := by
          rw [hstore]
          exact hdraft.new
        ids := hdraft.ids }
  · rw [hstore]
    exact hknown

/-- A program that leaves the roles alone. -/
theorem leads_leaves {α : Type} (hi : i < 2) (hφ : Lasting u X φ) {p : Service Γ α} (hp : p.Emits LeavesRoles) :
    Leads (replacing Γ u T S0) i (Edits u T S0 i X φ) p fun _ => Edits u T S0 i X φ :=
  triple_conseq (triple_of_emits (stable_edits hi hφ) (fun ha h _ hexec => h.leaves ha hexec) hp) (fun _ h => h)
    fun _ _ h _ _ => h

variable (u T S0) in
/-- A transaction that has written no roles. -/
def Blank (i : Nat) (s : Committed Γ) : Prop :=
  Open u T S0 i s ∧ ∀ S : Store, (applyAll (D := database Γ) (s.1.log i) S).roles = S.roles

/-- A transaction that has written no roles has written none later. -/
theorem stable_blank : Stable (replacing Γ u T S0) i (Blank u T S0 i) := by
  rintro s s' ⟨hopen, hroles⟩ hrely
  refine ⟨hopen.rely hrely, ?_⟩
  rw [hrely.frame.log]
  exact hroles

/-- A program that leaves the roles alone writes no draft. -/
theorem leads_blank {α : Type} {p : Service Γ α} (hp : p.Emits LeavesRoles) :
    Leads (replacing Γ u T S0) i (Blank u T S0 i) p fun _ => Blank u T S0 i := by
  refine triple_conseq (triple_of_emits stable_blank (fun ha h _ hexec => ?_) hp) (fun _ h => h) fun _ _ h _ _ => h
  obtain ⟨hopen', hothers, -, -, hroles, -⟩ := h.1.leaves ha hexec
  exact ⟨hopen'.1, hothers, hopen', fun S => (hroles S).trans (h.2 S)⟩

/-! ## The statements of a replacement -/

/-- The rows that a thread with a draft sees. -/
theorem mem_view {D : List Uuid} {R : List UserRole} (h : Draft u T i X D R s) {row : UserRole} :
    row ∈ (s.1.view i).roles ↔ row ∈ s.1.store.roles ∧ row.id ∉ D ∨ row ∈ R := by
  rw [Db.view, h.roles, List.mem_append, List.mem_filter, decide_eq_true_eq]

/-- The query for the role codes gives the roles of the user. -/
theorem roles_answer {S : Store} {codes : List Text} (h : codes = Query.answer Γ S (.roleCodes u)) :
    codes.toFinset = rolesOf u S := by
  subst h
  show (sortTexts _).toFinset = _
  ext c
  rw [List.mem_toFinset, mem_sortTexts, rolesOf, List.mem_toFinset]

/-- The roles are read. -/
theorem leads_getUserRoleCodes (hi : i < 2) : Leads (replacing Γ u T S0) i (Blank u T S0 i) (getUserRoleCodes u)
    fun codes => Edits u T S0 i codes.toFinset untouched := by
  refine leads_perform stable_blank (fun _ => stable_edits hi lasting_untouched) ?_
  intro s r s' hblank _ hexec
  have hleaves : LeavesRoles (Γ := Γ) (.query (.roleCodes u)) := trivial
  obtain ⟨hopen', hothers, hends, hstore, hroles, -⟩ := hblank.1.leaves hleaves hexec
  refine ⟨hopen'.1, hothers, fun codes hcodes => ?_⟩
  subst hcodes
  have hread : List.toFinset (α := Text) codes = rolesOf u s'.1.store := by
    have hview : (s.1.view i).roles = s.1.store.roles := hblank.2 _
    refine (roles_answer (Γ := Γ) hexec.1.answer).trans ?_
    rw [rolesOf, hview, ← hstore]
    rfl
  refine ⟨hopen', ?_, [], [], ?_, rfl, rfl⟩
  · by_cases hnone : s'.2 = []
    · refine Or.inl (hread.trans ?_)
      rw [hopen'.1.first hnone]
    · exact Or.inr ⟨hnone, hread.symm⟩
  · exact
      { roles := fun S => by simp [(hroles S).trans (hblank.2 S)]
        revoked := nofun
        old := nofun
        granted := nofun
        target := nofun
        new := nofun
        ids := List.nodup_nil }

/-- The rows that are left after deletions. -/
theorem roles_deleted (D : List Uuid) (S : Store) :
    (applyAll (D := database Γ) (D.map Write.deleteRole) S).roles = S.roles.filter fun r => r.id ∉ D := by
  induction D generalizing S with
  | nil => exact (List.filter_eq_self.2 fun r _ => by simp).symm
  | cons id D ih =>
    rw [List.map_cons, applyAll_cons, ih]
    show (S.roles.filter _).filter _ = _
    rw [List.filter_filter]
    refine List.filter_congr fun r _ => ?_
    simp [List.mem_cons, not_or, Bool.and_comm]

/-- The id in the key of a role. -/
def roleId : Key → Option Uuid
  | .role id => some id
  | _ => none

/-- The ids in the keys of roles. -/
theorem mem_roleIds {id : Uuid} {keys : List Key} : id ∈ keys.filterMap roleId ↔ Key.role id ∈ keys := by
  rw [List.mem_filterMap]
  constructor
  · rintro ⟨k, hk, hid⟩
    cases k with
    | role id' =>
      obtain rfl := Option.some.inj hid
      exact hk
    | _ => cases hid
  · exact fun hk => ⟨_, hk, rfl⟩

/-- What the deletion of role codes changes. -/
theorem changes_deleteRoleCodes (codes : List Text) (keys : List Key) :
    keys.filterMap (Stmt.change (.deleteRoleCodes u codes)) = (keys.filterMap roleId).map Write.deleteRole := by
  rw [List.map_filterMap]
  refine List.filterMap_congr fun k _ => ?_
  cases k <;> rfl

/-- What a deletion of roles deletes was found, and is still there. -/
theorem deleted_effect {db db' : Db (database Γ)} {codes : List Text} {keys still : List Key}
    (h : Effect (D := database Γ) i db (.finish (.deleteRoleCodes u codes) keys) (.ok still) db') :
    (∀ k, k ∈ still ↔ k ∈ keys ∧ k ∈ (Stmt.deleteRoleCodes u codes).rows (db.view i)) ∧
      (db'.log i : List Write) = db.log i ++ (still.filterMap roleId).map Write.deleteRole ∧ ∀ k ∈ still, db'.owner k = some i := by
  obtain ⟨hstill, rfl⟩ := h.finished
  refine ⟨fun k => ?_, ?_, fun k hk => if_pos (List.mem_append_left _ hk)⟩
  · rw [show still = List.filter (fun k => k ∈ (Stmt.deleteRoleCodes u codes).rows (db.view i)) keys from hstill,
      List.mem_filter, decide_eq_true_eq]
  · rw [Db.log_write, ← changes_deleteRoleCodes codes, show changes db i (.deleteRoleCodes u codes) keys =
      still.filterMap (Stmt.change (.deleteRoleCodes u codes)) from congrArg _ hstill.symm]

/-- What is revoked is deleted. -/
theorem leads_deleteRoleCodes (hi : i < 2) {codes : List Text} (hcodes : ∀ c, c ∈ codes ↔ c ∈ X ∧ c ∉ T i) :
    Leads (replacing Γ u T S0) i (Edits u T S0 i X untouched) (modify (.deleteRoleCodes u codes))
      fun _ => Edits u T S0 i X (added u T i X ∅) := by
  have hstmt : ∀ {S : Store} {k : Key}, k ∈ (Stmt.deleteRoleCodes u codes).rows S ↔
      ∃ row ∈ S.roles, row.userId = u ∧ (row.roleCode ∈ X ∧ row.roleCode ∉ T i) ∧ k = .role row.id := by
    intro S k
    simp only [Stmt.rows, List.mem_map, List.mem_filter, Bool.and_eq_true, decide_eq_true_eq, hcodes]
    constructor
    · rintro ⟨row, ⟨hrow, hu, hc⟩, hk⟩
      exact ⟨row, hrow, hu, hc, hk.symm⟩
    · rintro ⟨row, hrow, hu, hc, hk⟩
      exact ⟨row, ⟨hrow, hu, hc⟩, hk.symm⟩
  refine leads_bind (Q := fun keys => Edits u T S0 i X (found u T i X keys)) ?_ fun keys => ?_
  · refine leads_perform (stable_edits hi lasting_untouched) (fun _ => stable_edits hi lasting_found) ?_
    intro s r s' hedits _ hexec
    have hleaves : LeavesRoles (Γ := Γ) (.start (.deleteRoleCodes u codes)) := trivial
    obtain ⟨horderly, hothers, hopen, hread, D, R, hdraft, rfl, rfl⟩ := hedits.leaves hleaves hexec
    refine ⟨horderly, hothers, fun keys hkeys => ⟨hopen, hread, [], [], hdraft, ⟨rfl, rfl⟩, fun row hrow hu hX hT => ?_⟩⟩
    obtain ⟨hopen', -, D, R, hdraft', rfl, rfl⟩ := hedits
    have hstore := (hopen'.1.quiet hexec rfl).2.1
    subst hkeys
    rw [hexec.1.started.1]
    exact hstmt.2 ⟨row, (mem_view hdraft').2 (.inl ⟨hstore ▸ hrow, List.not_mem_nil⟩), hu, ⟨hX, hT⟩, rfl⟩
  · refine leads_perform (stable_edits hi lasting_found) (fun _ => stable_edits hi lasting_added) ?_
    intro s r s' hedits _ hexec
    obtain ⟨hopen, hread, D, R, hdraft, ⟨rfl, rfl⟩, hfound⟩ := hedits
    obtain ⟨hends, hstore, horderly, hothers⟩ := hopen.1.quiet hexec rfl
    refine ⟨horderly, hothers, fun (still : List Key) hstill => ?_⟩
    subst hstill
    obtain ⟨hkeys, hlog, howner⟩ := deleted_effect hexec.1
    have hread' : HasRead u S0 X s' := by
      unfold HasRead
      rw [hends, hstore]
      exact hread
    -- what is deleted is what was found and is still there
    have hmem : ∀ {id : Uuid}, id ∈ List.filterMap roleId still ↔
        Key.role id ∈ keys ∧ Key.role id ∈ (Stmt.deleteRoleCodes u codes).rows (s.1.view i) := by
      intro id
      rw [mem_roleIds, hkeys]
    have hold : ∀ row ∈ s.1.store.roles, row.id ∈ List.filterMap roleId still →
        row.userId = u ∧ row.roleCode ∈ X ∧ row.roleCode ∉ T i := by
      intro row hrow hid
      obtain ⟨row', hrow', hu, hc, hk⟩ := hstmt.1 (hmem.1 hid).2
      have hstored := ((mem_view hdraft).1 hrow').resolve_right List.not_mem_nil
      obtain rfl := List.inj_on_of_nodup_map hopen.1.ids hrow hstored.1 (Key.role.inj hk)
      exact ⟨hu, hc⟩
    refine ⟨⟨horderly, hends ▸ hopen.2⟩, hread', List.filterMap roleId still, [], ?_, ?_, rfl⟩
    · exact
        { roles := fun S => by
            rw [hlog, applyAll_append, roles_deleted, hdraft.roles]
            simp
          revoked := fun id hid => howner _ (mem_roleIds.1 hid)
          old := by
            rw [hstore]
            exact hold
          granted := by simp
          target := by simp
          new := by simp
          ids := List.nodup_nil }
    · rw [hstore]
      intro row hrow hu hX hT
      exact hmem.2 ⟨hfound row hrow hu hX hT,
        hstmt.2 ⟨row, (mem_view hdraft).2 (.inl ⟨hrow, List.not_mem_nil⟩), hu, ⟨hX, hT⟩, rfl⟩⟩

/-- A role is added. -/
theorem leads_insertRole (hi : i < 2) {code : Text} (hT : code ∈ T i) (hX : code ∉ X) {G : Finset Text} (assignedAt : DateTime)
    (assignedBy : Option Uuid) : Leads (replacing Γ u T S0) i (Edits u T S0 i X (added u T i X G))
      (insertRole u assignedAt assignedBy code) fun _ => Edits u T S0 i X (added u T i X (G ∪ {code})) := by
  refine leads_bind (leads_leaves hi lasting_added (Prog.emits_perform.2 trivial)) fun id => ?_
  refine leads_perform (stable_edits hi lasting_added) (fun _ => stable_edits hi lasting_added) ?_
  intro s r s' hedits _ hexec
  obtain ⟨hopen, hread, D, R, hdraft, hdeleted, hadded⟩ := hedits
  obtain ⟨hends, hstore, horderly, hothers⟩ := hopen.1.quiet hexec rfl
  refine ⟨horderly, hothers, fun x hx => ?_⟩
  subst hx
  obtain ⟨hviolation, hdb⟩ := hexec.1.inserted
  have hread' : HasRead u S0 X s' := by
    unfold HasRead
    rw [hends, hstore]
    exact hread
  generalize hrow : UserRole.bind ⟨id, u, code, assignedAt, assignedBy⟩ = row at hviolation hdb
  have hu : row.userId = u := by
    rw [← hrow]
    rfl
  have hcode : row.roleCode = code := by
    rw [← hrow]
    rfl
  have hfresh : ∀ row' ∈ (s.1.view i).roles, row'.id ≠ row.id ∧ ¬(row'.userId = u ∧ row'.roleCode = row.roleCode) := by
    intro row' hrow'
    have hnone := violates_of_violation hviolation
    simp only [Write.violates, Bool.or_eq_false_iff, List.any_eq_false] at hnone
    have hthis := hnone.1.1 row' hrow'
    simp only [Bool.or_eq_true, Bool.and_eq_true, decide_eq_true_eq, not_or, hu] at hthis
    exact hthis
  have howner : ∀ k, s.1.owner k = some i → s'.1.owner k = some i := fun k hk => hexec.1.owner_inside rfl hk
  have hlocked : ∀ k ∈ Write.keys Γ (.insertRole row), s'.1.owner k = some i := by
    intro k hk
    rw [hdb]
    exact if_pos (List.mem_append_right _ (List.mem_flatMap.2 ⟨_, List.mem_singleton_self _, hk⟩))
  refine ⟨⟨horderly, hends ▸ hopen.2⟩, hread', D, R ++ [row], ?_, ?_, ?_⟩
  · exact
      { roles := fun S => by
          rw [hdb, Db.log_write, applyAll_append, ← List.append_assoc, ← hdraft.roles]
          rfl
        revoked := fun id hid => howner _ (hdraft.revoked id hid)
        old := by
          rw [hstore]
          exact hdraft.old
        granted := fun row' hrow' => by
          rcases List.mem_append.1 hrow' with hrow' | hrow'
          · exact ⟨howner _ (hdraft.granted row' hrow').1, howner _ (hdraft.granted row' hrow').2⟩
          · rw [List.mem_singleton.1 hrow']
            refine ⟨hlocked _ (List.mem_cons_self ..), hlocked _ (List.mem_cons_of_mem _ ?_)⟩
            rw [hu]
            exact List.mem_cons_self ..
        target := fun row' hrow' => by
          rcases List.mem_append.1 hrow' with hrow' | hrow'
          · exact hdraft.target row' hrow'
          · rw [List.mem_singleton.1 hrow', hcode]
            exact ⟨hu, hT, hX⟩
        new := by
          rw [hstore]
          intro row' hrow' old hold hid
          rcases List.mem_append.1 hrow' with hrow' | hrow'
          · exact hdraft.new row' hrow' old hold hid
          · rw [List.mem_singleton.1 hrow']
            exact hfresh old ((mem_view hdraft).2 (.inl ⟨hold, hid⟩))
        ids := by
          rw [List.map_append, List.nodup_append]
          refine ⟨hdraft.ids, List.nodup_singleton _, fun a ha b hb => ?_⟩
          obtain ⟨row', hrow', rfl⟩ := List.mem_map.1 ha
          rw [List.mem_singleton.1 hb]
          exact (hfresh row' ((mem_view hdraft).2 (.inr hrow'))).1 }
  · rw [hstore]
    exact hdeleted
  · rw [List.map_append, List.map_singleton, List.toFinset_append, hadded, hcode]
    rfl

/-- Roles are added. -/
theorem leads_insertRoles (hi : i < 2) {codes : List Text} (hcodes : ∀ c ∈ codes, c ∈ T i ∧ c ∉ X) {G : Finset Text}
    (assignedAt : DateTime) (assignedBy : Option Uuid) : Leads (replacing Γ u T S0) i (Edits u T S0 i X (added u T i X G))
      (Prog.each (insertRole u assignedAt assignedBy) codes)
      fun _ => Edits u T S0 i X (added u T i X (G ∪ codes.toFinset)) := by
  induction codes generalizing G with
  | nil =>
    refine leads_pure (stable_edits hi lasting_added) fun s h => ?_
    rwa [List.toFinset_nil, Finset.union_empty]
  | cons c codes ih =>
    obtain ⟨hT, hX⟩ := hcodes c (List.mem_cons_self ..)
    refine leads_bind (leads_insertRole hi hT hX assignedAt assignedBy) fun _ => ?_
    refine leads_conseq (ih fun c' hc' => hcodes c' (List.mem_cons_of_mem _ hc')) (fun _ h => h) fun _ s h => ?_
    rwa [List.toFinset_cons, Finset.insert_eq, ← Finset.union_assoc]

/-! ## The commit of a replacement -/

/-- What the store gets from a draft that is ready. -/
theorem roles_view (h : Draft u T i X D R s) (hadded : added u T i X (T i \ X) D R s.1.store) :
    rolesOf u (s.1.view i) = (rolesOf u s.1.store \ (X \ T i)) ∪ (T i \ X) := by
  ext c
  simp only [Finset.mem_union, Finset.mem_sdiff, not_and, not_not, mem_rolesOf]
  rw [← Finset.mem_sdiff, ← hadded.2, List.mem_toFinset, List.mem_map]
  constructor
  · rintro ⟨row, hrow, hu, rfl⟩
    rcases (mem_view h).1 hrow with ⟨hstored, hid⟩ | hnew
    · refine Or.inl ⟨⟨row, hstored, hu, rfl⟩, fun hX => ?_⟩
      by_contra hT
      exact hid (hadded.1 row hstored hu hX hT)
    · exact Or.inr ⟨row, hnew, rfl⟩
  · rintro (⟨⟨row, hstored, hu, rfl⟩, hkept⟩ | ⟨row, hnew, rfl⟩)
    · refine ⟨row, (mem_view h).2 (.inl ⟨hstored, fun hid => ?_⟩), hu, rfl⟩
      obtain ⟨-, hX, hT⟩ := h.old row hstored hid
      exact hT (hkept hX)
    · exact ⟨row, (mem_view h).2 (.inr hnew), (h.target row hnew).1, rfl⟩

/-- What a draft adds is not in the store. -/
theorem not_mem_of_added (h : Draft u T i X D R s) (hadded : added u T i X (T i \ X) D R s.1.store) {c : Text} (hT : c ∈ T i)
    (hX : c ∉ X) : c ∉ rolesOf u s.1.store := by
  intro hc
  obtain ⟨row, hrow, hu, rfl⟩ := mem_rolesOf.1 hc
  have hin : row.roleCode ∈ (R.map UserRole.roleCode).toFinset := hadded.2 ▸ Finset.mem_sdiff.2 ⟨hT, hX⟩
  obtain ⟨row', hrow', hcode⟩ := List.mem_map.1 (List.mem_toFinset.1 hin)
  refine (h.new row' hrow' row hrow fun hid => ?_).2 ⟨hu, hcode.symm⟩
  exact (h.old row hrow hid).2.2 hT

/-- A replacement leaves its target, unless the other thread has committed since it read the first roles. -/
theorem Edits.outcome (hi : i < 2) (h : Edits u T S0 i X (added u T i X (T i \ X)) s) :
    Outcome u T S0 i (s.1.view i) ∧ (s.2 = [] → rolesOf u (s.1.view i) = T i) := by
  obtain ⟨hopen, hread, D, R, hdraft, hadded⟩ := h
  rw [Outcome, roles_view hdraft hadded]
  have hsame : rolesOf u s.1.store = X → rolesOf u s.1.store \ (X \ T i) ∪ T i \ X = T i := by
    rintro rfl
    ext c
    simp only [Finset.mem_union, Finset.mem_sdiff]
    tauto
  rcases hread with hX | ⟨hends, hX⟩
  · by_cases hnone : s.2 = []
    · have htarget := hsame (by rw [hopen.1.first hnone, hX])
      exact ⟨Or.inl htarget, fun _ => htarget⟩
    · refine ⟨Or.inr ?_, fun hnil => absurd hnil hnone⟩
      obtain ⟨e, he⟩ := hopen.single hi hnone
      have hmem : e ∈ s.2 := he ▸ List.mem_singleton_self e
      have hstore : rolesOf u s.1.store = T e.1 := by
        rw [← hopen.1.last e (by rw [he]; rfl)]
        exact hopen.1.target e (by rw [he]; rfl)
      have htwo := hopen.1.two e hmem
      have hne := hopen.2 e hmem
      -- the roles of both targets are old, for they could not be added twice
      have hcommon : ∀ c ∈ T i, c ∈ T e.1 → c ∈ rolesOf u S0 := by
        intro c hc hc'
        by_contra hnew
        refine not_mem_of_added hdraft hadded hc (hX ▸ hnew) ?_
        rwa [hstore]
      rw [hstore, hX]
      have hpair : i = 0 ∧ e.1 = 1 ∨ i = 1 ∧ e.1 = 0 := by omega
      rcases hpair with ⟨h0, h1⟩ | ⟨h1, h0⟩
      · rw [h0, h1] at hcommon ⊢
        refine ⟨?_, fun c hc => hcommon c (Finset.mem_inter.1 hc).1 (Finset.mem_inter.1 hc).2⟩
        ext c
        simp only [merged, Finset.mem_union, Finset.mem_sdiff, Finset.mem_inter]
        tauto
      · rw [h0, h1] at hcommon ⊢
        refine ⟨?_, fun c hc => hcommon c (Finset.mem_inter.1 hc).2 (Finset.mem_inter.1 hc).1⟩
        ext c
        simp only [merged, Finset.mem_union, Finset.mem_sdiff, Finset.mem_inter]
        tauto
  · have htarget := hsame hX
    exact ⟨Or.inl htarget, fun _ => htarget⟩

/-- A commit stays on record. -/
theorem stable_committed : Stable (replacing Γ u T S0) i fun s => ∃ S, (i, S) ∈ s.2 := by
  rintro s s' ⟨S, hS⟩ hrely
  obtain ⟨l, hl, -⟩ := hrely.ends
  exact ⟨S, hl ▸ List.mem_append_left _ hS⟩

/-- The commit of a replacement. -/
theorem leads_commit (hi : i < 2) :
    Leads (replacing Γ u T S0) i (Edits u T S0 i X (added u T i X (T i \ X))) (commit : Service Γ Unit)
      fun _ s => ∃ S, (i, S) ∈ s.2 := by
  refine leads_perform (stable_edits hi lasting_added) (fun _ => stable_committed) ?_
  intro s r s' hedits hinv hexec
  cases r with
  | error e =>
    obtain ⟨-, -, horderly, hothers⟩ := hinv.quiet hexec rfl
    exact ⟨horderly, hothers, nofun⟩
  | ok x =>
    obtain ⟨houtcome, htarget⟩ := hedits.outcome hi
    obtain ⟨hopen, hread, D, R, hdraft, hadded⟩ := hedits
    obtain ⟨db, ends⟩ := s
    obtain ⟨db', ends'⟩ := s'
    obtain ⟨heffect, hends⟩ := hexec
    have hstore : db'.store = db.view i := by
      cases heffect
      rfl
    obtain rfl : ends' = ends ++ [(i, db'.store)] := hends
    have hroles : ∀ {row : UserRole}, row ∈ Store.roles (db.view i) ↔ row ∈ Store.roles db.store ∧ row.id ∉ D ∨ row ∈ R :=
      mem_view hdraft
    have horderly : Orderly u T S0 (db', ends ++ [(i, db'.store)]) := by
      refine ⟨hinv.guarded.effect heffect, ?_, ?_, ?_, ?_, ?_, ?_, ?_, ?_⟩
      · show (db'.store.roles.map UserRole.id).Nodup
        rw [hstore, Db.view, hdraft.roles, List.map_append, List.nodup_append]
        refine ⟨hinv.ids.sublist (List.filter_sublist.map _), hdraft.ids, fun a ha b hb => ?_⟩
        obtain ⟨row', hrow', rfl⟩ := List.mem_map.1 ha
        obtain ⟨row, hrow, rfl⟩ := List.mem_map.1 hb
        obtain ⟨hstored, hid⟩ := List.mem_filter.1 hrow'
        exact (hdraft.new row hrow row' hstored (of_decide_eq_true hid)).1
      · intro e he
        rcases List.mem_append.1 he with he | he
        · exact hinv.two e he
        · rw [List.mem_singleton.1 he]
          exact hi
      · rw [List.map_append, List.nodup_append]
        refine ⟨hinv.once, List.nodup_singleton _, fun a ha b hb => ?_⟩
        obtain ⟨e, he, rfl⟩ := List.mem_map.1 ha
        rw [List.mem_singleton.1 hb]
        exact hopen.2 e he
      · intro e he
        rcases List.mem_append.1 he with he | he
        · exact hinv.outcome e he
        · rw [List.mem_singleton.1 he, hstore]
          exact houtcome
      · intro e he
        cases ends with
        | nil =>
          rw [← Option.some.inj he, hstore]
          exact htarget rfl
        | cons e' ends => exact hinv.target e he
      · intro e he
        rw [List.getLast?_concat] at he
        rw [← Option.some.inj he]
      · exact fun hnil => absurd hnil (by simp)
      · intro e he row hrow hu hold
        have hnil : ends = [] := by
          cases ends with
          | nil => rfl
          | cons e' ends => exact absurd he (by simp)
        have hX : X = rolesOf u S0 := hread.resolve_right fun hr => hr.1 hnil
        have hview : row ∈ (db.view i).roles := hstore ▸ hrow
        rcases hroles.1 hview with ⟨hstored, -⟩ | hnew
        · have hfirst : db.store = S0 := hinv.first hnil
          exact hfirst ▸ hstored
        · exact absurd (hX ▸ hold) (hdraft.target row hnew).2.2
    refine ⟨horderly, fun j hj => ⟨Frame.effect hj hinv.guarded heffect, ⟨_, rfl, fun e he => ?_⟩, fun hsame => ?_,
      fun _ => horderly⟩, fun _ _ => ⟨db'.store, List.mem_append_right _ (List.mem_singleton_self _)⟩⟩
    · rw [List.mem_singleton.1 he]
      exact hj.symm
    · exact absurd hsame (by simp)

/-! ## The programs -/

/-- An audit log leaves the roles alone. -/
theorem emits_insertAudit (entry : AuditEntry) : (insertAudit entry : Service Γ Unit).Emits LeavesRoles :=
  (Prog.emits_perform.2 trivial : (newId : Service Γ Uuid).Emits LeavesRoles).bind fun _ =>
    (Prog.emits_perform.2 trivial : (utcnow : Service Γ DateTime).Emits LeavesRoles).bind fun _ =>
      Prog.emits_perform.2 fun _ => rfl

/-- The audit of roles leaves them alone. -/
theorem emits_auditRoles (actor : AuthenticatedSessionContext) (result : UserRoleReplacementResult) (eventType : AuthEventType)
    (codes : List Text) (ipAddress userAgent : Option Text) :
    (auditRoles actor result eventType codes ipAddress userAgent : Service Γ Unit).Emits LeavesRoles := by
  refine Prog.Emits.each (fun code => ?_) codes
  show Prog.Emits LeavesRoles ((insertAudit _ : Service Γ Unit) >>= fun _ => pure ())
  exact (emits_insertAudit _).bind fun _ => trivial

/-- The lookup of the user leaves the roles alone. -/
theorem emits_findUserByIdForAuthentication (u : Uuid) :
    (findUserByIdForAuthentication u : Service Γ (Option User)).Emits LeavesRoles := by
  have hquery : Prog.Emits LeavesRoles (query (.userById u) : Service Γ (List User)) := Prog.emits_perform.2 trivial
  refine hquery.bind fun users => ?_
  rcases users with _ | ⟨x, _ | ⟨y, ys⟩⟩ <;> trivial

/-- The time of a modification leaves the roles alone. -/
theorem emits_modifyUser (u : Uuid) (t : DateTime) : (modify (.modifyUser u t) : Service Γ (List Key)).Emits LeavesRoles := by
  have hstart : Prog.Emits LeavesRoles (Prog.perform (A := Act (database Γ)) (.start (.modifyUser u t)) : Service Γ (List Key)) :=
    Prog.emits_perform.2 trivial
  refine hstart.bind fun found => ?_
  refine Prog.emits_perform.2 fun k w hw S => ?_
  cases k with
  | user id =>
    rw [← Option.some.inj hw]
    rfl
  | _ => cases hw

variable {codes : List Text}

/-- The rows of roles are replaced. -/
theorem leads_replaceUserRoleRows (hi : i < 2) (hT : codes.toFinset = T i) (assignedBy : Option Uuid) :
    Leads (replacing Γ u T S0) i (Blank u T S0 i) (replaceUserRoleRows u codes assignedBy) fun result s =>
      result.currentRoleCodes.toFinset = T i ∧ ∃ X, Edits u T S0 i X (added u T i X (T i \ X)) s := by
  have hmem : ∀ c, c ∈ fromKeys codes ↔ c ∈ T i := by
    intro c
    rw [mem_fromKeys, ← hT, List.mem_toFinset]
  refine leads_bind (leads_getUserRoleCodes hi) fun existing => ?_
  refine leads_bind (leads_leaves hi lasting_untouched (Prog.emits_perform.2 trivial)) fun changedAt => ?_
  have hrevoked : ∀ c, c ∈ sortTexts (existing.dedup.filter fun c => c ∉ fromKeys codes) ↔
      c ∈ existing.toFinset ∧ c ∉ T i := by
    intro c
    rw [mem_sortTexts, List.mem_filter, List.mem_dedup, List.mem_toFinset, decide_eq_true_eq, hmem]
  have hgranted : ∀ c, c ∈ sortTexts ((fromKeys codes).filter fun c => c ∉ existing) ↔ c ∈ T i ∧ c ∉ existing.toFinset := by
    intro c
    rw [mem_sortTexts, List.mem_filter, List.mem_toFinset, decide_eq_true_eq, hmem]
  have hcurrent : (sortTexts (fromKeys codes)).toFinset = T i := by
    ext c
    rw [List.mem_toFinset, mem_sortTexts, hmem]
  generalize sortTexts (existing.dedup.filter fun c => c ∉ fromKeys codes) = revoked at hrevoked ⊢
  generalize sortTexts ((fromKeys codes).filter fun c => c ∉ existing) = granted at hgranted ⊢
  generalize existing.toFinset = X at hrevoked hgranted ⊢
  refine leads_bind (Q := fun _ => Edits u T S0 i X (added u T i X ∅)) ?_ fun _ => ?_
  · by_cases hnone : revoked = []
    · rw [hnone]
      refine leads_pure (stable_edits hi lasting_added) fun s h => ?_
      obtain ⟨hopen, hread, D, R, hdraft, hD, hR⟩ := h
      refine ⟨hopen, hread, D, R, hdraft, fun row _ _ hX hrow => ?_, by rw [hR]; rfl⟩
      have hin := (hrevoked row.roleCode).2 ⟨hX, hrow⟩
      rw [hnone] at hin
      cases hin
    · rw [whenever, if_pos (by simpa using hnone)]
      exact leads_bind (leads_deleteRoleCodes hi hrevoked) fun _ => leads_pure (stable_edits hi lasting_added) fun _ h => h
  have hadded : ∅ ∪ granted.toFinset = T i \ X := by
    ext c
    rw [Finset.empty_union, List.mem_toFinset, hgranted, Finset.mem_sdiff]
  refine leads_bind (leads_insertRoles hi (fun c hc => (hgranted c).1 hc) changedAt assignedBy) fun _ => ?_
  rw [hadded]
  refine leads_bind (Q := fun _ => Edits u T S0 i X (added u T i X (T i \ X))) (leads_leaves hi lasting_added ?_) fun _ => ?_
  · rw [whenever]
    split
    · exact (emits_modifyUser u changedAt).bind fun _ => trivial
    · trivial
  · refine leads_pure (fun h hrely => ⟨h.1, ?_⟩) fun s h => ⟨hcurrent, X, h⟩
    obtain ⟨-, X, h⟩ := h
    exact ⟨X, stable_edits hi lasting_added h hrely⟩

/-- The rows are replaced and the change is logged. -/
theorem leads_replaceRolesWithAudit (hi : i < 2) (hT : codes.toFinset = T i) (actor : AuthenticatedSessionContext)
    (ipAddress userAgent : Option Text) :
    Leads (replacing Γ u T S0) i (Blank u T S0 i) (replaceRolesWithAudit actor u codes ipAddress userAgent) fun result s =>
      result.currentRoleCodes.toFinset = T i ∧ ∃ X, Edits u T S0 i X (added u T i X (T i \ X)) s := by
  have hstable : ∀ result : UserRoleReplacementResult, Stable (replacing Γ u T S0) i fun s =>
      result.currentRoleCodes.toFinset = T i ∧ ∃ X, Edits u T S0 i X (added u T i X (T i \ X)) s := by
    rintro result s s' ⟨hresult, X, h⟩ hrely
    exact ⟨hresult, X, stable_edits hi lasting_added h hrely⟩
  have haudit : ∀ (result : UserRoleReplacementResult) {p : Service Γ Unit}, p.Emits LeavesRoles →
      Leads (replacing Γ u T S0) i
        (fun s => result.currentRoleCodes.toFinset = T i ∧ ∃ X, Edits u T S0 i X (added u T i X (T i \ X)) s) p
        fun _ s => result.currentRoleCodes.toFinset = T i ∧ ∃ X, Edits u T S0 i X (added u T i X (T i \ X)) s := by
    rintro result p hp s ⟨hresult, X, h⟩
    exact (leads_leaves hi lasting_added hp s h).conseq fun r s' h' a ha => ⟨hresult, X, h' a ha⟩
  refine leads_bind (leads_replaceUserRoleRows hi hT _) fun result => ?_
  refine leads_bind (haudit result (emits_auditRoles ..)) fun _ => leads_bind (haudit result (emits_auditRoles ..)) fun _ => ?_
  exact leads_pure (hstable result) fun _ h => h

/-- An action that commits nothing, when nothing is known. -/
theorem leads_quiet (h : ∀ r, a.ends r = false) :
    Leads (replacing Γ u T S0) i (fun _ => True) (.perform a) fun _ _ => True := by
  refine leads_perform (fun _ _ => trivial) (fun _ _ _ _ _ => trivial) ?_
  intro s r s' _ hinv hexec
  obtain ⟨-, -, horderly, hothers⟩ := hinv.quiet hexec (h r)
  exact ⟨horderly, hothers, fun _ _ => trivial⟩

/-- A transaction begins without a draft. -/
theorem leads_begin :
    Leads (replacing Γ u T S0) i (Open u T S0 i) (begin : Service Γ Unit) fun _ => Blank u T S0 i := by
  refine leads_perform stable_open (fun _ => stable_blank) ?_
  intro s r s' hopen hinv hexec
  have hends : (Act.begin : Act (database Γ)).ends r = false := by
    cases r <;> rfl
  obtain ⟨hsame, -, horderly, hothers⟩ := hinv.quiet hexec hends
  refine ⟨horderly, hothers, fun x hx => ⟨⟨horderly, hsame ▸ hopen.2⟩, fun S => ?_⟩⟩
  subst hx
  obtain ⟨db, ends⟩ := s
  obtain ⟨db', ends'⟩ := s'
  have hlog : db'.log i = [] := by
    cases hexec.1
    exact Db.log_begin db
  show (applyAll (db'.log i) S).roles = S.roles
  rw [hlog]
  rfl

/-- A request, from before its transaction to its end. -/
theorem leads_replaceUserRoles (hi : i < 2) (hT : codes.toFinset = T i) (actor : AuthenticatedSessionContext)
    (ipAddress userAgent : Option Text) :
    Leads (replacing Γ u T S0) i (Open u T S0 i) (replaceUserRoles actor u codes ipAddress userAgent) fun result s =>
      result.currentRoleCodes.toFinset = T i ∧ ∃ S, (i, S) ∈ s.2 := by
  have hroles : normalizeAndValidateRoles Γ codes = .ok (fromKeys codes) ∨ ∃ e, normalizeAndValidateRoles Γ codes = .error e := by
    unfold normalizeAndValidateRoles
    dsimp only
    split
    · exact Or.inl rfl
    · exact Or.inr ⟨_, rfl⟩
  have hcodes : (fromKeys codes).toFinset = T i := by
    ext c
    rw [List.mem_toFinset, mem_fromKeys, ← hT, List.mem_toFinset]
  unfold replaceUserRoles
  rcases hroles with hroles | ⟨e, hroles⟩
  · rw [hroles]
    refine leads_transaction leads_begin (Q := fun result s =>
      result.currentRoleCodes.toFinset = T i ∧ ∃ X, Edits u T S0 i X (added u T i X (T i \ X)) s) ?_ ?_ ?_ ?_
    · refine leads_bind (leads_blank (emits_findUserByIdForAuthentication u)) fun user => ?_
      cases user with
      | none => exact leads_throw _
      | some user =>
        refine leads_bind (leads_blank ?_) fun _ => leads_replaceRolesWithAudit hi hcodes actor ipAddress userAgent
        unfold require
        split <;> trivial
    · rintro result s ⟨hresult, X, h⟩
      exact (leads_commit hi s h).conseq fun r s' h' a ha => ⟨hresult, h' a ha⟩
    · rintro result s s' ⟨hresult, h⟩ hrely
      exact ⟨hresult, stable_committed h hrely⟩
    · exact leads_quiet fun r => by cases r <;> rfl
  · rw [hroles]
    exact leads_throw e

end Contract

/-! ## Runs -/

/-- An action that is no commit. -/
theorem ends_of_ne {α : Type} {a : Act (database Γ)} {next : Except AuthError (Result (database Γ) a) → Service Γ α}
    (h : a ≠ .commit) : EndsAtCommit a next := by
  cases a with
  | commit => exact absurd rfl h
  | _ => trivial

/-- A transaction ends with its commit. -/
theorem heads_transaction {α : Type} {body : Service Γ α} (h : body.Emits fun a => a ≠ .commit) :
    (transaction body).Heads EndsAtCommit := by
  have hbegin : (begin : Service Γ Unit).Emits fun a => a ≠ .commit := Prog.emits_perform.2 nofun
  refine hbegin.bind_heads (fun _ _ ha => ends_of_ne ha) fun _ => h.attempt.bind_heads (fun _ _ ha => ends_of_ne ha) fun r => ?_
  cases r with
  | ok result =>
    refine ⟨fun _ => ⟨_, rfl⟩, fun r => ?_⟩
    cases r <;> trivial
  | error e =>
    refine ⟨trivial, fun r => ?_⟩
    cases r <;> trivial

/-- Every transaction of a request ends with its commit. -/
theorem heads_op (u : Uuid) (x : Replacement) : (program Γ (x.op u)).Heads EndsAtCommit := by
  refine heads_bind_result ?_ fun result => ⟨_, rfl⟩
  unfold replaceUserRoles
  cases normalizeAndValidateRoles Γ x.roles with
  | error e => trivial
  | ok roles =>
    have hno : ∀ {α : Type} {p : Service Γ α}, Within {.owned u, .userEdit} p → p.Emits fun a => a ≠ .commit :=
      fun h => Prog.Emits.mono h fun a ha heq => by
        rw [heq] at ha
        simp [kind] at ha
    refine heads_transaction (hno ((within_findUserByIdForAuthentication _).bind fun user => ?_))
    cases user with
    | none => trivial
    | some user => exact (within_require _ _).bind fun _ => within_replaceRolesWithAudit (by simp) (by simp)

/-- The roles that the threads ask for. -/
def targets (x y : Replacement) : Nat → Finset Text
  | 0 => x.roles.toFinset
  | 1 => y.roles.toFinset
  | _ => ∅

/-- What is known at the end of a run in which both requests have committed. -/
theorem ends_of_run {u : Uuid} {x y : Replacement} {S : Store} {env : Env} (hids : (S.roles.map UserRole.id).Nodup)
    {run : Nat → Configuration Γ} {n : Nat} (hrun : IsRun (system (database Γ)) run n)
    (hstart : run 0 = twoReplacements Γ u x y S env) : ∃ ends : List (Nat × Store),
      Orderly u (targets x y) S ((run n).state, ends) ∧
      (∀ e ∈ ends, ∃ k ≤ n, (run k).state.store = e.2 ∧ ∃ r, (run k).threads e.1 = .done r) ∧
      ∀ i result, Reports (run n) i result → result.currentRoleCodes.toFinset = targets x y i ∧ ∃ S, (i, S) ∈ ends := by
  have hheads : ∀ i, ((run 0).threads i).Heads EndsAtCommit := by
    intro i
    rw [hstart]
    match i with
    | 0 => exact heads_op u x
    | 1 => exact heads_op u y
    | _ + 2 => trivial
  obtain ⟨ends, hreach, hmoments⟩ := committing_of_isRun hrun hheads
  have hstate : (run 0).state = atRest Γ S env := by
    rw [hstart]
    rfl
  have horderly : Orderly u (targets x y) S ((run 0).state, ([] : List (Nat × Store))) := by
    rw [hstate]
    exact ⟨guarded_atRest S env, hids, nofun, List.nodup_nil, nofun, nofun, nofun, fun _ => rfl, nofun⟩
  have hop : ∀ i < 2, ∀ z : Replacement, z.roles.toFinset = targets x y i →
      Leads (replacing Γ u (targets x y) S) i (Open u (targets x y) S i) (program Γ (z.op u)) fun r s =>
        ∀ result, r = .roles result → result.currentRoleCodes.toFinset = targets x y i ∧ ∃ S, (i, S) ∈ s.2 := by
    intro i hi z hz
    refine leads_bind (leads_replaceUserRoles hi hz _ _ _) fun result => leads_pure ?_ fun s h r hr => ?_
    · intro s s' h hrely r hr
      obtain ⟨hresult, hmem⟩ := h r hr
      exact ⟨hresult, stable_committed hmem hrely⟩
    · cases hr
      exact h
  have hsat : ∀ i, Sat (replacing Γ u (targets x y) S) i (fun r s => ∀ o, r = .ok o → ∀ result, o = .roles result →
      result.currentRoleCodes.toFinset = targets x y i ∧ ∃ S, (i, S) ∈ s.2) ((run 0).threads i) ((run 0).state, []) := by
    intro i
    rw [hstart]
    match i with
    | 0 => exact hop 0 (by omega) x rfl _ ⟨hstart ▸ horderly, nofun⟩
    | 1 => exact hop 1 (by omega) y rfl _ ⟨hstart ▸ horderly, nofun⟩
    | _ + 2 =>
      intro s' _ o ho result hresult
      rw [← Except.ok.inj ho] at hresult
      cases hresult
  obtain ⟨hend, hthreads⟩ := sat_of_reaches (C := replacing Γ u (targets x y) S) (c := ⟨((run 0).state, []), (run 0).threads⟩)
    horderly hsat hreach
  refine ⟨ends, hend, hmoments, fun i result hreport => ?_⟩
  have hdone := hthreads i
  rw [show (run n).threads i = _ from hreport] at hdone
  exact hdone _ (relies_refl ..) _ rfl result rfl

/-- The target of a thread is that of one of the requests. -/
theorem targets_of_lt {x y : Replacement} {i : Nat} (hi : i < 2) :
    targets x y i = x.roles.toFinset ∨ targets x y i = y.roles.toFinset :=
  match i with
  | 0 => Or.inl rfl
  | 1 => Or.inr rfl

/-- A list with a member has a last one. -/
theorem exists_last {α : Type} {xs : List α} {a : α} (h : a ∈ xs) : ∃ e, xs.getLast? = some e ∧ e ∈ xs := by
  have hne := List.ne_nil_of_mem h
  exact ⟨xs.getLast hne, List.getLast?_eq_some_getLast hne, List.getLast_mem hne⟩

/-- Two requests for the same roles leave those. -/
theorem merged_self (E A : Finset Text) : merged E A A = A := by
  ext c
  simp only [merged, Finset.mem_union, Finset.mem_sdiff, Finset.mem_inter]
  tauto

end ReplacementAux

open ReplacementAux

/-- Two concurrent requests leave the roles of one of them, unless both have read the same roles. Then all that is new in either
is added, all that is old and missing in either is gone, and what is in both was there before. -/
theorem replacements_outcome (Γ : Ctx) (u : Uuid) (x y : Replacement) (S : Store) (hids : (S.roles.map UserRole.id).Nodup)
    (env : Env) (run : Nat → Configuration Γ) (n : Nat) (hrun : IsRun (system (database Γ)) run n)
    (hstart : run 0 = twoReplacements Γ u x y S env) (hreport : ∃ i result, Reports (run n) i result) :
    rolesOf u (run n).state.store = x.roles.toFinset ∨ rolesOf u (run n).state.store = y.roles.toFinset ∨
      rolesOf u (run n).state.store = merged (rolesOf u S) x.roles.toFinset y.roles.toFinset ∧
        x.roles.toFinset ∩ y.roles.toFinset ⊆ rolesOf u S := by
  obtain ⟨ends, horderly, -, hreports⟩ := ends_of_run hids hrun hstart
  obtain ⟨i, result, hresult⟩ := hreport
  obtain ⟨-, S', hS'⟩ := hreports i result hresult
  obtain ⟨e, hlast, hmem⟩ := exists_last hS'
  have hstore : e.2 = (run n).state.store := horderly.last e hlast
  rcases horderly.outcome e hmem with htarget | hmerged
  · rw [hstore] at htarget
    rcases targets_of_lt (x := x) (y := y) (horderly.two e hmem) with heq | heq
    · exact Or.inl (htarget.trans heq)
    · exact Or.inr (Or.inl (htarget.trans heq))
  · rw [hstore] at hmerged
    exact Or.inr (Or.inr hmerged)

/-- Two concurrent requests that ask for the same roles, or both for a role that the user does not have, serialise. -/
theorem replacements_serialise (Γ : Ctx) (u : Uuid) (x y : Replacement) (S : Store) (hids : (S.roles.map UserRole.id).Nodup)
    (hagree : x.roles.toFinset = y.roles.toFinset ∨ ∃ c ∈ x.roles, c ∈ y.roles ∧ c ∉ rolesOf u S)
    (env : Env) (run : Nat → Configuration Γ) (n : Nat) (hrun : IsRun (system (database Γ)) run n)
    (hstart : run 0 = twoReplacements Γ u x y S env) (hreport : ∃ i result, Reports (run n) i result) :
    Serialises u x y run n := by
  obtain ⟨ends, horderly, hmoments, hreports⟩ := ends_of_run hids hrun hstart
  have htargets : ∀ e ∈ ends, rolesOf u e.2 = targets x y e.1 := by
    intro e he
    rcases horderly.outcome e he with htarget | ⟨hmerged, hcommon⟩
    · exact htarget
    · have hsame : x.roles.toFinset = y.roles.toFinset := by
        refine hagree.resolve_right ?_
        rintro ⟨c, hcx, hcy, hnew⟩
        exact hnew (hcommon (Finset.mem_inter.2 ⟨List.mem_toFinset.2 hcx, List.mem_toFinset.2 hcy⟩))
      have htarget : targets x y e.1 = x.roles.toFinset := by
        rcases targets_of_lt (x := x) (y := y) (horderly.two e he) with heq | heq
        · exact heq
        · exact heq.trans hsame.symm
      rw [hmerged, htarget]
      show merged _ x.roles.toFinset y.roles.toFinset = _
      rw [← hsame]
      exact merged_self _ _
  constructor
  · obtain ⟨i, result, hresult⟩ := hreport
    obtain ⟨-, S', hS'⟩ := hreports i result hresult
    obtain ⟨e, hlast, hmem⟩ := exists_last hS'
    rw [← horderly.last e hlast, htargets e hmem]
    exact targets_of_lt (horderly.two e hmem)
  · intro i result hresult
    obtain ⟨hcurrent, S', hS'⟩ := hreports i result hresult
    obtain ⟨k, hk, hstore, r, hdone⟩ := hmoments _ hS'
    refine ⟨k, hk, ?_, ?_⟩
    · have hlater := done_of_reaches hdone (reaches_of_isRun hrun hk)
      rw [Reports, ← hresult, hlater, hdone]
    · rw [hstore, htargets _ hS', hcurrent]

namespace Overlap

def Γ₀ : Ctx :=
  { Ctx.readable [] fun _ => .error .oidcTokenExchange with
    roleCatalog := [("admin".toList, []), ("editor".toList, [])] }

def root : User := ⟨1, "root@example.com".toList, none, true, .en, 0, 0, none, none⟩

def ann : User := ⟨2, "ann@example.com".toList, none, true, .en, 0, 0, none, none⟩

def session : AuthSession := ⟨3, 1, "#s".toList, "#c".toList, 0, 0, 1000000000, none, none, none, none⟩

def store : Store := { Store.empty with users := [root, ann], sessions := [session] }

def env : Env := ⟨0, [], 10, 0, 0, 0⟩

def request (roles : List Text) : Replacement := ⟨⟨root, session, [], []⟩, roles, none, none⟩

def admin : Text := "admin".toList

def editor : Text := "editor".toList

/-- The user has both roles. -/
def stocked : Store := { store with roles := [⟨4, 2, admin, 0, none⟩, ⟨5, 2, editor, 0, none⟩] }

/-- What a request reports that gives the user a role. -/
def granted : UserRoleReplacementResult := ⟨2, [admin], [], [admin]⟩

/-- What a request reports that leaves the user one of two roles. -/
def reduced : UserRoleReplacementResult := ⟨2, [], [editor], [admin]⟩

/-- Both requests read the roles before either of them commits. -/
def overlapping : List (Move (database Γ₀)) :=
  List.replicate 4 (.run 0) ++ List.replicate 4 (.run 1) ++ List.replicate 8 (.run 0) ++ List.replicate 8 (.run 1)

/-- The run of a schedule after which the first request has reported success. -/
theorem exists_run (schedule : List (Move (database Γ₀))) (x y : Replacement) (S : Store) (result : UserRoleReplacementResult)
    (h : (play schedule (twoReplacements Γ₀ 2 x y S env)).map (fun c => c.threads 0) =
      some (.done (.ok (.roles result)))) :
    ∃ run n, IsRun (system (database Γ₀)) run n ∧ run 0 = twoReplacements Γ₀ 2 x y S env ∧
      Reports (run n) 0 result ∧ play schedule (twoReplacements Γ₀ 2 x y S env) = some (run n) := by
  obtain ⟨c, hc, hthread⟩ := Option.map_eq_some_iff.1 h
  obtain ⟨run, n, hrun, hfirst, hlast⟩ := exists_isRun (reaches_of_play hc)
  exact ⟨run, n, hrun, hfirst, by rw [hlast]; exact hthread, by rw [hc, hlast]⟩

end Overlap

open Overlap in
/-- Two grants that overlap leave the user with both roles. -/
theorem replacements_outcome_merged : ∃ (run : Nat → Configuration Γ₀) (n : Nat),
    (rolesOf 2 (run n).state.store = {admin} ∨ rolesOf 2 (run n).state.store = {editor} ∨
      rolesOf 2 (run n).state.store = merged (rolesOf 2 store) {admin} {editor} ∧ {admin} ∩ {editor} ⊆ rolesOf 2 store) ∧
    rolesOf 2 (run n).state.store = {admin, editor} := by
  obtain ⟨run, n, hrun, hfirst, hreport, hplay⟩ := exists_run overlapping (request [admin]) (request [editor]) store granted
    rfl
  have hroles : (play overlapping (twoReplacements Γ₀ 2 (request [admin]) (request [editor]) store env)).map
      (fun c => rolesOf 2 c.state.store) = some {admin, editor} := by
    decide +kernel
  rw [hplay] at hroles
  refine ⟨run, n, ?_, Option.some.inj hroles⟩
  exact replacements_outcome Γ₀ 2 (request [admin]) (request [editor]) store List.nodup_nil env run n hrun hfirst ⟨0, _, hreport⟩

open Overlap in
/-- Both requests read the user's two roles and take the same one away: both report so, and are right. -/
theorem replacements_serialise_overlapping : ∃ (run : Nat → Configuration Γ₀) (n : Nat),
    Reports (run n) 0 reduced ∧ Reports (run n) 1 reduced ∧ Serialises 2 (request [admin]) (request [admin]) run n := by
  obtain ⟨run, n, hrun, hfirst, hreport, hplay⟩ := exists_run overlapping (request [admin]) (request [admin]) stocked reduced rfl
  have hsecond : (play overlapping (twoReplacements Γ₀ 2 (request [admin]) (request [admin]) stocked env)).map
      (fun c => c.threads 1) = some (.done (.ok (.roles reduced))) := rfl
  rw [hplay] at hsecond
  refine ⟨run, n, hreport, Option.some.inj hsecond, ?_⟩
  exact replacements_serialise Γ₀ 2 (request [admin]) (request [admin]) stocked (by decide) (.inl rfl) env run n hrun hfirst
    ⟨0, _, hreport⟩

end AuthService
