import AuthService.RoleFootprints
import AuthService.Theorems.DeletedUsers

/-!
# The audit logs tell who has which role

Every change of the roles of a user leaves audit logs in the same transaction. Read in order they give the roles that are
stored, and no log grants a role that the user has or revokes one that the user has not.
-/

namespace AuthService

open ReadCommitted RelyGuarantee Serial

/-! ## Reading the logs -/

/-- What an audit log says about the roles of users. -/
inductive RoleEntry where
  | granted (userId : Uuid) (code : Text)
  | revoked (userId : Uuid) (code : Text)
  | cleared (userId : Uuid)
  deriving DecidableEq, Repr

/-- `ROLE_GRANTED` and `ROLE_REVOKED` name a user and a role, `USER_MARKED_DELETED` clears its user. -/
def AuthAuditLog.roleEntry (l : AuthAuditLog) : Option RoleEntry :=
  match l.eventType, l.detailJson, l.userId with
  | .roleGranted, some (.role _ _ targetUserId roleCode _), _ => some (.granted targetUserId roleCode)
  | .roleRevoked, some (.role _ _ targetUserId roleCode _), _ => some (.revoked targetUserId roleCode)
  | .userMarkedDeleted, _, some userId => some (.cleared userId)
  | _, _, _ => none

/-- Who has which role after an entry. -/
def RoleEntry.apply (held : Finset (Uuid × Text)) : RoleEntry → Finset (Uuid × Text)
  | .granted u code => held ∪ {(u, code)}
  | .revoked u code => held.erase (u, code)
  | .cleared u => held.filter fun p => p.1 ≠ u

/-- The entry grants a role that the user has not, or revokes one that the user has. -/
def RoleEntry.isNews (held : Finset (Uuid × Text)) : RoleEntry → Prop
  | .granted u code => (u, code) ∉ held
  | .revoked u code => (u, code) ∈ held
  | .cleared _ => True

/-- Who has which role, read from audit logs in order. -/
def reconstruct (logs : List AuthAuditLog) : Finset (Uuid × Text) :=
  (logs.filterMap AuthAuditLog.roleEntry).foldl RoleEntry.apply ∅

/-- Who has which role in the tables. -/
def Store.assignments (S : Store) : Finset (Uuid × Text) := (S.roles.map fun r => (r.userId, r.roleCode)).toFinset

variable {Γ : Ctx}

namespace LedgerAux

open SerialAux PlainAux DeletedAux

/-! ## Entries -/

/-- Every entry is news after those before it. -/
def Legal (entries : List RoleEntry) : Prop :=
  ∀ before entry after, entries = before ++ entry :: after → entry.isNews (before.foldl RoleEntry.apply ∅)

/-- News after legal entries are legal. -/
theorem legal_concat {entries : List RoleEntry} {entry : RoleEntry} (h : Legal entries)
    (hnews : entry.isNews (entries.foldl RoleEntry.apply ∅)) : Legal (entries ++ [entry]) := by
  intro before entry' after heq
  rcases List.append_eq_append_iff.1 heq with ⟨rest, hbefore, hrest⟩ | ⟨rest, hentries, hrest⟩
  · cases rest with
    | nil =>
      rw [List.append_nil] at hbefore
      rw [hbefore, ← (List.cons.inj hrest).1]
      exact hnews
    | cons x rest =>
      have hlen := congrArg List.length (List.cons.inj hrest).2
      simp at hlen
  · cases rest with
    | nil =>
      rw [List.append_nil] at hentries
      rw [← hentries, (List.cons.inj hrest).1]
      exact hnews
    | cons x rest =>
      obtain ⟨rfl, _⟩ := List.cons.inj hrest
      exact h before entry' rest hentries

/-- What is held after roles are granted to a user. -/
theorem mem_foldl_granted {u : Uuid} {codes : List Text} {held : Finset (Uuid × Text)} {p : Uuid × Text} :
    p ∈ (codes.map (RoleEntry.granted u)).foldl RoleEntry.apply held ↔ p ∈ held ∨ p.1 = u ∧ p.2 ∈ codes := by
  induction codes generalizing held with
  | nil => simp
  | cons code codes ih =>
    rw [List.map_cons, List.foldl_cons, ih]
    simp only [RoleEntry.apply, Finset.mem_union, Finset.mem_singleton, Prod.ext_iff, List.mem_cons]
    tauto

/-- What is held after roles are revoked. -/
theorem mem_foldl_revoked {pairs : List (Uuid × Text)} {held : Finset (Uuid × Text)} {p : Uuid × Text} :
    p ∈ (pairs.map fun q => RoleEntry.revoked q.1 q.2).foldl RoleEntry.apply held ↔ p ∈ held ∧ p ∉ pairs := by
  induction pairs generalizing held with
  | nil => simp
  | cons q pairs ih =>
    rw [List.map_cons, List.foldl_cons, ih]
    simp only [RoleEntry.apply, Finset.mem_erase, List.mem_cons]
    tauto

/-! ## The books -/

/-- The roles are `H`, and the audit logs about roles give `E`. -/
structure Books (H E : Finset (Uuid × Text)) (V : Store) : Prop where
  stored : V.assignments = H
  distinct : (V.roles.map fun r => (r.userId, r.roleCode)).Nodup
  roleIds : (V.roles.map UserRole.id).Nodup
  auditIds : (V.audits.map AuthAuditLog.id).Nodup
  log : reconstruct V.audits = E
  legal : Legal (V.audits.filterMap AuthAuditLog.roleEntry)
  formed : ∀ l ∈ V.audits, l.eventType.isAboutRoles = true → l.roleEntry.isSome = true

variable {H E : Finset (Uuid × Text)} {V V' : Store}

/-- Only the roles and the logs matter. -/
theorem Books.congr (h : Books H E V) (hroles : V'.roles = V.roles) (haudits : V'.audits = V.audits) : Books H E V' := by
  refine ⟨?_, ?_, ?_, ?_, ?_, ?_, ?_⟩
  · rw [Store.assignments, hroles]
    exact h.stored
  · rw [hroles]
    exact h.distinct
  · rw [hroles]
    exact h.roleIds
  · rw [haudits]
    exact h.auditIds
  · rw [haudits]
    exact h.log
  · rw [haudits]
    exact h.legal
  · rw [haudits]
    exact h.formed

/-- A change of the logs that keeps what they are about. -/
theorem Books.mapAudits (h : Books H E V) {f : AuthAuditLog → AuthAuditLog} (hroles : V'.roles = V.roles)
    (haudits : V'.audits = V.audits.map f) (hid : ∀ l, (f l).id = l.id) (hevent : ∀ l, (f l).eventType = l.eventType)
    (hentry : ∀ l ∈ V.audits, (f l).roleEntry = l.roleEntry) : Books H E V' := by
  have hentries : V'.audits.filterMap AuthAuditLog.roleEntry = V.audits.filterMap AuthAuditLog.roleEntry := by
    rw [haudits, List.filterMap_map]
    exact List.filterMap_congr hentry
  refine ⟨?_, ?_, ?_, ?_, ?_, ?_, ?_⟩
  · rw [Store.assignments, hroles]
    exact h.stored
  · rw [hroles]
    exact h.distinct
  · rw [hroles]
    exact h.roleIds
  · rw [haudits, List.map_map]
    have hids : AuthAuditLog.id ∘ f = AuthAuditLog.id := funext hid
    rw [hids]
    exact h.auditIds
  · rw [reconstruct, hentries]
    exact h.log
  · rw [hentries]
    exact h.legal
  · intro l hl habout
    rw [haudits] at hl
    obtain ⟨l0, hl0, rfl⟩ := List.mem_map.1 hl
    rw [hevent] at habout
    rw [hentry l0 hl0]
    exact h.formed l0 hl0 habout

/-- A deleted session leaves its logs without a session. -/
theorem Books.deleteSession (h : Books H E V) (id : Uuid) : Books H E ((Write.deleteSession id).apply V) := by
  refine h.mapAudits rfl rfl ?_ ?_ ?_
  · intro l
    split <;> rfl
  · intro l
    split <;> rfl
  · intro l _
    split <;> rfl

/-- A log about something else makes no entry. -/
theorem roleEntry_eq_none {l : AuthAuditLog} (h : l.eventType.isAboutRoles = false) : l.roleEntry = none := by
  unfold AuthAuditLog.roleEntry
  split
  · rename_i he _
    rw [he] at h
    cases h
  · rename_i he _
    rw [he] at h
    cases h
  · rename_i he _
    rw [he] at h
    cases h
  · rfl

/-- A new log, with the entry it makes. -/
theorem Books.insertAudit (h : Books H E V) (row : AuthAuditLog) (hid : row.id ∉ V.audits.map AuthAuditLog.id)
    (hformed : row.eventType.isAboutRoles = true → row.roleEntry.isSome = true)
    (hnews : ∀ entry ∈ row.roleEntry, entry.isNews E) :
    Books H (row.roleEntry.toList.foldl RoleEntry.apply E) ((Write.insertAudit row).apply V) := by
  have hentries : ((Write.insertAudit row).apply V).audits.filterMap AuthAuditLog.roleEntry =
      V.audits.filterMap AuthAuditLog.roleEntry ++ row.roleEntry.toList := by
    simp only [Write.apply, List.filterMap_append]
    cases hrow : row.roleEntry <;> simp [hrow]
  refine ⟨h.stored, h.distinct, h.roleIds, ?_, ?_, ?_, ?_⟩
  · simp only [Write.apply, List.map_append, List.map_cons, List.map_nil]
    refine List.Nodup.append h.auditIds (List.nodup_singleton _) ?_
    rw [List.disjoint_singleton]
    exact hid
  · have hlog := h.log
    rw [reconstruct] at hlog ⊢
    rw [hentries, List.foldl_append, hlog]
  · rw [hentries]
    cases hrow : row.roleEntry with
    | none => simpa [hrow] using h.legal
    | some entry =>
      have hlog := h.log
      rw [reconstruct] at hlog
      refine legal_concat h.legal ?_
      rw [hlog]
      exact hnews entry hrow
  · intro l hl habout
    rcases List.mem_append.1 hl with hl | hl
    · exact h.formed l hl habout
    · rw [List.mem_singleton.1 hl] at habout ⊢
      exact hformed habout

/-- A role that is inserted is held, and no log tells of it yet. -/
theorem Books.insertRole (h : Books H E V) (row : UserRole) (hid : row.id ∉ V.roles.map UserRole.id)
    (hnew : (row.userId, row.roleCode) ∉ V.roles.map fun r => (r.userId, r.roleCode)) :
    Books (H ∪ {(row.userId, row.roleCode)}) E ((Write.insertRole row).apply V) := by
  refine ⟨?_, ?_, ?_, h.auditIds, h.log, h.legal, h.formed⟩
  · rw [← h.stored]
    ext p
    simp [Store.assignments, Write.apply, eq_comm]
  · simp only [Write.apply, List.map_append, List.map_cons, List.map_nil]
    refine List.Nodup.append h.distinct (List.nodup_singleton _) ?_
    rw [List.disjoint_singleton]
    exact hnew
  · simp only [Write.apply, List.map_append, List.map_cons, List.map_nil]
    refine List.Nodup.append h.roleIds (List.nodup_singleton _) ?_
    rw [List.disjoint_singleton]
    exact hid

/-- The roles that meet a condition are deleted. -/
theorem Books.deleteRoles (h : Books H E V) {c : Uuid × Text → Bool} :
    Books (H.filter fun p => c p = false) E
      { V with roles := V.roles.filter fun x => x.id ∉ (V.roles.filter fun r => c (r.userId, r.roleCode)).map UserRole.id } := by
  have hkept : V.roles.filter (fun x => x.id ∉ (V.roles.filter fun r => c (r.userId, r.roleCode)).map UserRole.id) =
      V.roles.filter fun r => !c (r.userId, r.roleCode) := by
    refine List.filter_congr ?_
    intro x hx
    rw [Bool.eq_iff_iff, decide_eq_true_eq, Bool.not_eq_true']
    constructor
    · intro hid
      by_contra hc
      exact hid (List.mem_map_of_mem (List.mem_filter.2 ⟨hx, by simpa using hc⟩))
    · intro hc hid
      obtain ⟨y, hy, hyx⟩ := List.mem_map.1 hid
      obtain ⟨hy, hcy⟩ := List.mem_filter.1 hy
      rw [List.inj_on_of_nodup_map h.roleIds hy hx hyx, hc] at hcy
      cases hcy
  rw [hkept]
  refine ⟨?_, h.distinct.sublist (List.filter_sublist.map _), h.roleIds.sublist (List.filter_sublist.map _), h.auditIds,
    h.log, h.legal, h.formed⟩
  rw [← h.stored]
  ext p
  simp only [Store.assignments, List.mem_toFinset, List.mem_map, List.mem_filter, Finset.mem_filter, Bool.not_eq_true']
  constructor
  · rintro ⟨r, ⟨hr, hc⟩, rfl⟩
    exact ⟨⟨r, hr, rfl⟩, hc⟩
  · rintro ⟨⟨r, hr, rfl⟩, hc⟩
    exact ⟨r, ⟨hr, hc⟩, rfl⟩

/-! ## Programs that leave the roles alone -/

/-- The roles and the logs about them. -/
def Held (H E : Finset (Uuid × Text)) : Assertion (database Γ) := fun _ V _ => Books H E V

/-- An insert that is apart from the roles leaves the books. -/
theorem books_insert {brackets lookups : Bool} {w : Write} (ha : Apart (Γ := Γ) brackets lookups (.insert w)) (hp : Books H E V)
    (hv : w.violates Γ V = false) : Books H E (w.apply V) := by
  cases w with
  | insertAudit row =>
    have hnone : row.roleEntry = none := roleEntry_eq_none ha
    have hbooks := Books.insertAudit hp row ?_ ?_ ?_
    · rw [hnone] at hbooks
      exact hbooks
    · simp only [Write.violates, Bool.or_eq_false_iff, List.any_eq_false, decide_eq_true_eq] at hv
      simpa using hv.1.1
    · intro habout
      rw [show row.eventType.isAboutRoles = false from ha] at habout
      cases habout
    · rw [hnone]
      intro entry h
      cases h
  | insertUser row => exact hp.congr rfl rfl
  | insertSession row => exact hp.congr rfl rfl
  | insertIdentity row => exact hp.congr rfl rfl
  | insertItem row => exact hp.congr rfl rfl
  | insertState row => exact hp.congr rfl rfl
  | _ => cases ha

/-- A change that is apart from the roles leaves the books. -/
theorem books_change {brackets lookups : Bool} {s : Stmt} {found : List Key} {key : Key} {w : Write}
    (ha : Apart (Γ := Γ) brackets lookups (.finish s found)) (hw : s.change key = some w) (hp : Books H E V) : Books H E (w.apply V) := by
  cases s <;> cases key <;> simp only [Stmt.change, Option.some.injEq, reduceCtorEq] at hw <;> subst hw
  case deleteSessionsExpiredBefore.session => exact hp.deleteSession _
  all_goals first | exact hp.congr rfl rfl | cases ha

/-- Actions that are apart from the roles leave what is held and logged. -/
theorem kept_held {brackets lookups : Bool} : KeptBy (Γ := Γ) (Apart brackets lookups) (Held H E) where
  insert := books_insert
  change := books_change

variable (Γ) in
/-- What every commit of a serial run promises. Deleted users are already known to have no roles. -/
def ledger : Promise (database Γ) where
  known S _ := Wiped none S
  inv S _ := ∃ H, Books H H S
  rel _ _ := True
  inv_later h _ := h
  rel_refl _ := trivial
  rel_trans _ _ := trivial

/-- The logs about roles give the roles. -/
def Even : Assertion (database Γ) := fun _ V _ => ∃ H, Books H H V

variable {me : Nat} {S0 : Store} {α : Type}

theorem sound_ledger {S V : Store} {e : Env} : Sound (ledger Γ) S V e ↔ Even (Γ := Γ) S V e := and_iff_left trivial

/-- Actions that are apart from the roles leave the logs even with them. -/
theorem kept_even {brackets lookups : Bool} : KeptBy (Γ := Γ) (Apart brackets lookups) (Even (Γ := Γ)) where
  insert := by
    rintro w S V e ha ⟨H, hp⟩ hv
    exact ⟨H, books_insert ha hp hv⟩
  change := by
    rintro s found key w S V e ha hw ⟨H, hp⟩
    exact ⟨H, books_change ha hw hp⟩

theorem apart_not_bracket (a : Act (database Γ)) (h : Apart false true a) : a.isBracket = false := by
  cases a <;> first | rfl | cases h

theorem leads_held {p : Service Γ α} (h : Plain false true p) :
    Ensures (ledger Γ) me S0 (Held H E) p fun _ => Held H E := leads_emits h kept_held apart_not_bracket

theorem leads_even {p : Service Γ α} (h : Plain false true p) :
    Ensures (ledger Γ) me S0 Even p fun _ => Even := leads_emits h kept_even apart_not_bracket

/-- A plain program with transactions of its own leaves the logs even with the roles. -/
theorem leads_outside {p : Service Γ α} (h : Plain true true p) :
    Ensures (ledger Γ) me S0 Even p fun _ => Even := by
  refine leads_conseq (leads_calm h ⟨?_, ?_⟩) (fun db hs => hs.mono fun _ _ _ h => sound_ledger.2 h)
    fun _ db hs => hs.mono fun _ _ _ h => sound_ledger.1 h
  · intro w S V e ha hp hv
    exact sound_ledger.2 (kept_even.insert ha (sound_ledger.1 hp) hv)
  · intro s found key w S V e ha hw hp
    exact sound_ledger.2 (kept_even.change ha hw (sound_ledger.1 hp))

/-- A transaction whose body leaves the logs even with the roles. Deleted users have no roles when it starts. -/
theorem leads_evenTransaction {P : Db (database Γ) → Prop} (hP : Stable (contract (ledger Γ) me S0) me P) {body : Service Γ α}
    (hbody : Ensures (ledger Γ) me S0 (fun S V e => Even (Γ := Γ) S V e ∧ Wiped none V) body fun _ => Even) :
    Leads (contract (ledger Γ) me S0) me P (transaction body) fun _ => On me Even := by
  refine transaction_leads hP ?_ hbody ?_
  · intro db _ hknown hinv _
    exact ⟨hinv, hknown⟩
  · intro a S V e e' hV _ _ _
    exact ⟨hV, trivial, hV⟩

/-! ## Changes of roles -/

/-- A role is assigned. -/
theorem leads_insertRole (u : Uuid) (assignedAt : DateTime) (assignedBy : Option Uuid) (code : Text) :
    Ensures (ledger Γ) me S0 (Held H E) (insertRole u assignedAt assignedBy code) fun _ => Held (H ∪ {(u, code)}) E := by
  refine leads_bind (leads_held (plain_call _)) fun (id : Uuid) => leads_insertRow ?_
  intro S V e hp hv
  simp only [Write.violates, Bool.or_eq_false_iff, List.any_eq_false, Bool.or_eq_true, not_or, decide_eq_true_eq,
    Bool.and_eq_true, not_and] at hv
  refine Books.insertRole hp (UserRole.bind ⟨id, u, code, assignedAt, assignedBy⟩) ?_ ?_
  · intro hmem
    obtain ⟨r, hr, hid⟩ := List.mem_map.1 hmem
    exact (hv.1.1 r hr).1 hid
  · intro hmem
    obtain ⟨r, hr, hpair⟩ := List.mem_map.1 hmem
    obtain ⟨huser, hcode⟩ := Prod.mk.inj hpair
    exact (hv.1.1 r hr).2 huser hcode

/-- The roles that meet a condition on user and role are deleted. -/
theorem leads_deleteRoles {s : Stmt} (c : Uuid × Text → Bool)
    (hrows : ∀ V : Store, (s.rows V).filterMap s.change =
      ((V.roles.filter fun r => c (r.userId, r.roleCode)).map UserRole.id).map Write.deleteRole) :
    Ensures (ledger Γ) me S0 (Held H E) (modify s) fun _ => Held (H.filter fun p => c p = false) E := by
  refine leads_statement ?_
  intro S V e hp
  rw [hrows, applyAll_deleteRoles]
  exact Books.deleteRoles hp

/-- An audit log about roles that is news. -/
theorem leads_roleAudit {entry : AuditEntry} {x : RoleEntry}
    (hentry : ∀ id t, AuthAuditLog.roleEntry ⟨id, entry.userId, entry.sessionId, entry.eventType, entry.ipAddress,
      entry.userAgent, entry.detailJson, t⟩ = some x) (hnews : x.isNews E) :
    Ensures (ledger Γ) me S0 (Held H E) (insertAudit entry) fun _ => Held H (x.apply E) := by
  refine leads_bind (leads_held (plain_call _)) fun (id : Uuid) => leads_bind (leads_held plain_utcnow) fun now => leads_insertRow ?_
  intro S V e hp hv
  have hrow : AuthAuditLog.roleEntry (AuthAuditLog.bind ⟨id, entry.userId, entry.sessionId, entry.eventType, entry.ipAddress,
      entry.userAgent, entry.detailJson, entry.occurredAt.getD now⟩) = some x := hentry id _
  have hbooks := Books.insertAudit hp _ ?_ (fun _ => congrArg Option.isSome hrow) ?_
  · rw [hrow] at hbooks
    exact hbooks
  · simp only [Write.violates, Bool.or_eq_false_iff, List.any_eq_false, decide_eq_true_eq] at hv
    simpa using hv.1.1
  · intro entry hentry
    rw [hrow] at hentry
    rw [← Option.some.inj hentry]
    exact hnews

/-- The audit logs of a list of changes, each of which is news after those before it. -/
theorem leads_roleAudits {β : Type} {xs : List β} {entry : β → AuditEntry} {x : β → RoleEntry}
    (hentry : ∀ y id t, AuthAuditLog.roleEntry ⟨id, (entry y).userId, (entry y).sessionId, (entry y).eventType,
      (entry y).ipAddress, (entry y).userAgent, (entry y).detailJson, t⟩ = some (x y))
    (hnews : ∀ done y rest, xs = done ++ y :: rest → (x y).isNews ((done.map x).foldl RoleEntry.apply E)) :
    Ensures (ledger Γ) me S0 (Held H E) (Prog.each (fun y => createAuditLog true (entry y)) xs)
      fun _ => Held H ((xs.map x).foldl RoleEntry.apply E) := by
  refine leads_each (P := fun done => Held H ((done.map x).foldl RoleEntry.apply E)) ?_
  intro done y rest hxs
  refine leads_bind (leads_roleAudit (hentry y) (hnews done y rest hxs)) fun _ => leads_done ?_
  intro S V e hp
  rw [List.map_append, List.foldl_append]
  exact hp

/-! ## Replacing the roles of a user -/

/-- The roles of a user are read. -/
theorem leads_roleCodes (u : Uuid) : Ensures (ledger Γ) me S0 (Held H E) (getUserRoleCodes u)
    fun (codes : List Text) S V e => (∀ c, c ∈ codes ↔ (u, c) ∈ H) ∧ Held H E S V e := by
  refine leads_select (.roleCodes u) (Q := fun (codes : List Text) S V e => (∀ c, c ∈ codes ↔ (u, c) ∈ H) ∧ Held H E S V e) ?_
  intro S V e hp
  refine ⟨?_, hp⟩
  intro c
  have hanswer : (Query.roleCodes u).answer Γ V = sortTexts ((V.roles.filter fun r => r.userId = u).map UserRole.roleCode) := rfl
  rw [hanswer, mem_sortTexts, ← hp.stored]
  simp only [Store.assignments, List.mem_map, List.mem_filter, decide_eq_true_eq, List.mem_toFinset, Prod.mk.injEq]
  constructor
  · rintro ⟨r, ⟨hr, huser⟩, hcode⟩
    exact ⟨r, hr, huser, hcode⟩
  · rintro ⟨r, hr, huser, hcode⟩
    exact ⟨r, ⟨hr, huser⟩, hcode⟩

/-- What the result of a replacement says of the roles before it. -/
structure Replaces (H : Finset (Uuid × Text)) (u : Uuid) (codes : List Text) (r : UserRoleReplacementResult) : Prop where
  user : r.userId = u
  granted : r.grantedRoleCodes.Nodup ∧ ∀ c ∈ r.grantedRoleCodes, (u, c) ∉ H ∧ c ∈ codes
  revoked : r.revokedRoleCodes.Nodup ∧ ∀ c ∈ r.revokedRoleCodes, (u, c) ∈ H ∧ c ∉ codes

/-- The roles after a replacement. -/
def replaced (H : Finset (Uuid × Text)) (u : Uuid) (granted revoked : List Text) : Finset (Uuid × Text) :=
  (granted.map (RoleEntry.granted u)).foldl RoleEntry.apply
    (H.filter fun p => decide (p.1 = u ∧ p.2 ∈ revoked) = false)

/-- What is held after a replacement. -/
theorem mem_replaced {u : Uuid} {granted revoked : List Text} {p : Uuid × Text} :
    p ∈ replaced H u granted revoked ↔ (p ∈ H ∧ ¬(p.1 = u ∧ p.2 ∈ revoked)) ∨ p.1 = u ∧ p.2 ∈ granted := by
  rw [replaced, mem_foldl_granted, Finset.mem_filter, decide_eq_false_iff_not]

/-- The rows of a user are replaced, without audit logs so far. -/
theorem leads_replaceRows (u : Uuid) (codes : List Text) (assignedBy : Option Uuid) :
    Ensures (ledger Γ) me S0 (Held H E) (replaceUserRoleRows u codes assignedBy) fun r S V e =>
      Replaces H u codes r ∧ Held (replaced H u r.grantedRoleCodes r.revokedRoleCodes) E S V e := by
  refine leads_bind (leads_roleCodes u) fun existing => leads_given fun hexisting => ?_
  have hgranted : ∀ c ∈ sortTexts ((fromKeys codes).filter fun c => c ∉ existing), (u, c) ∉ H ∧ c ∈ codes := by
    intro c hc
    obtain ⟨hc, hnew⟩ := List.mem_filter.1 (mem_sortTexts.1 hc)
    exact ⟨fun hmem => of_decide_eq_true hnew ((hexisting c).2 hmem), mem_fromKeys.1 hc⟩
  have hrevoked : ∀ c ∈ sortTexts (existing.dedup.filter fun c => c ∉ fromKeys codes), (u, c) ∈ H ∧ c ∉ codes := by
    intro c hc
    obtain ⟨hc, hold⟩ := List.mem_filter.1 (mem_sortTexts.1 hc)
    exact ⟨(hexisting c).1 (List.mem_dedup.1 hc), fun hmem => of_decide_eq_true hold (mem_fromKeys.2 hmem)⟩
  refine leads_bind (leads_held plain_utcnow) fun changedAt => ?_
  generalize hr : sortTexts (existing.dedup.filter fun c => c ∉ fromKeys codes) = revoked at hrevoked ⊢
  generalize hg : sortTexts ((fromKeys codes).filter fun c => c ∉ existing) = granted at hgranted ⊢
  have hresult : Replaces H u codes ⟨u, granted, revoked, sortTexts (fromKeys codes)⟩ := by
    refine ⟨rfl, ⟨?_, hgranted⟩, ?_, hrevoked⟩
    · rw [← hg]
      exact nodup_sortTexts ((nodup_fromKeys codes).filter _)
    · rw [← hr]
      exact nodup_sortTexts ((List.nodup_dedup _).filter _)
  refine leads_bind (Q := fun _ => On me (Held (H.filter fun p => decide (p.1 = u ∧ p.2 ∈ revoked) = false) E)) ?_ fun _ => ?_
  · unfold whenever
    split
    · refine leads_bind (leads_deleteRoles (fun p => decide (p.1 = u ∧ p.2 ∈ revoked)) ?_) fun _ => leads_done fun _ _ _ hp => hp
      intro V
      simp [Stmt.rows, List.filterMap_map, Function.comp_def, Stmt.change]
    · rename_i hnone
      refine leads_done ?_
      intro S V e hp
      have hnil : revoked = [] := by simpa using hnone
      have hsame : (H.filter fun p => decide (p.1 = u ∧ p.2 ∈ revoked) = false) = H := by
        rw [hnil]
        ext p
        simp
      rw [hsame]
      exact hp
  · refine leads_bind (leads_each (P := fun done => Held ((done.map (RoleEntry.granted u)).foldl RoleEntry.apply
      (H.filter fun p => decide (p.1 = u ∧ p.2 ∈ revoked) = false)) E) ?_) fun _ => ?_
    · intro done code rest _
      rw [List.map_append, List.foldl_append]
      exact leads_insertRole u changedAt assignedBy code
    · refine leads_bind (Q := fun _ => On me (Held (replaced H u granted revoked) E)) ?_ fun _ =>
        leads_done fun _ _ _ hp => ⟨hresult, hp⟩
      refine leads_held ?_
      unfold whenever
      split
      · exact (plain_modify fun _ => by trivial).bind fun _ => plain_pure ()
      · exact plain_pure ()

/-- The audit logs of a replacement make the logs even with the roles. -/
theorem replaced_eq {u : Uuid} {codes : List Text} {r : UserRoleReplacementResult} (h : Replaces H u codes r) :
    (r.revokedRoleCodes.map (RoleEntry.revoked u)).foldl RoleEntry.apply
      ((r.grantedRoleCodes.map (RoleEntry.granted u)).foldl RoleEntry.apply H) =
        replaced H u r.grantedRoleCodes r.revokedRoleCodes := by
  have hpairs : r.revokedRoleCodes.map (RoleEntry.revoked u) =
      (r.revokedRoleCodes.map fun c => (u, c)).map fun q => RoleEntry.revoked q.1 q.2 := by
    rw [List.map_map]
    rfl
  ext ⟨v, c⟩
  rw [hpairs, mem_foldl_revoked, mem_foldl_granted, mem_replaced]
  simp only [List.mem_map, Prod.mk.injEq, not_exists, not_and]
  constructor
  · rintro ⟨hheld | hgranted, hkept⟩
    · exact Or.inl ⟨hheld, fun huser hc => hkept c hc huser.symm rfl⟩
    · exact Or.inr hgranted
  · rintro (⟨hheld, hkept⟩ | ⟨rfl, hgranted⟩)
    · refine ⟨Or.inl hheld, ?_⟩
      rintro c' hc' rfl rfl
      exact hkept rfl hc'
    · refine ⟨Or.inr ⟨rfl, hgranted⟩, ?_⟩
      rintro c' hc' _ rfl
      exact (h.revoked.2 c' hc').2 (h.granted.2 c' hgranted).2

/-- The audit logs of the granted roles. -/
theorem news_granted {u : Uuid} {codes : List Text} {r : UserRoleReplacementResult} (h : Replaces H u codes r) :
    ∀ done c rest, r.grantedRoleCodes = done ++ c :: rest →
      (RoleEntry.granted u c).isNews ((done.map (RoleEntry.granted u)).foldl RoleEntry.apply H) := by
  intro done c rest heq
  have hnodup := h.granted.1
  rw [heq] at hnodup
  have hmem : c ∈ r.grantedRoleCodes := by
    rw [heq]
    exact List.mem_append_right _ List.mem_cons_self
  show (u, c) ∉ _
  rw [mem_foldl_granted]
  rintro (hheld | ⟨_, hdone⟩)
  · exact (h.granted.2 c hmem).1 hheld
  · exact (List.nodup_append.1 hnodup).2.2 c hdone c List.mem_cons_self rfl

/-- The audit logs of the revoked roles, after those of the granted ones. -/
theorem news_revoked {u : Uuid} {codes : List Text} {r : UserRoleReplacementResult} (h : Replaces H u codes r) :
    ∀ done c rest, r.revokedRoleCodes = done ++ c :: rest → (RoleEntry.revoked u c).isNews
      ((done.map (RoleEntry.revoked u)).foldl RoleEntry.apply
        ((r.grantedRoleCodes.map (RoleEntry.granted u)).foldl RoleEntry.apply H)) := by
  intro done c rest heq
  have hnodup := h.revoked.1
  rw [heq] at hnodup
  have hmem : c ∈ r.revokedRoleCodes := by
    rw [heq]
    exact List.mem_append_right _ List.mem_cons_self
  have hpairs : done.map (RoleEntry.revoked u) = (done.map fun c => (u, c)).map fun q => RoleEntry.revoked q.1 q.2 := by
    rw [List.map_map]
    rfl
  show (u, c) ∈ _
  rw [hpairs, mem_foldl_revoked, mem_foldl_granted]
  refine ⟨Or.inl (h.revoked.2 c hmem).1, ?_⟩
  intro hdone
  obtain ⟨c', hc', heq⟩ := List.mem_map.1 hdone
  obtain rfl : c' = c := (Prod.mk.inj heq).2
  exact (List.nodup_append.1 hnodup).2.2 c' hc' c' List.mem_cons_self rfl

/-- A replacement with its audit logs leaves them even with the roles. -/
theorem leads_replaceRolesWithAudit {actor : AuthenticatedSessionContext} {u : Uuid} {codes : List Text}
    {ipAddress userAgent : Option Text} :
    Ensures (ledger Γ) me S0 Even (replaceRolesWithAudit actor u codes ipAddress userAgent) fun _ => Even := by
  refine leads_exists fun H => leads_bind (leads_replaceRows u codes _) fun r => leads_given fun hr => ?_
  refine leads_bind (leads_roleAudits (x := RoleEntry.granted u) (fun c id t => by rw [← hr.user]; rfl) (news_granted hr)) fun _ => ?_
  refine leads_bind (leads_roleAudits (x := RoleEntry.revoked u) (fun c id t => by rw [← hr.user]; rfl) (news_revoked hr)) fun _ => ?_
  refine leads_done ?_
  intro S V e hp
  rw [replaced_eq hr] at hp
  exact ⟨_, hp⟩

/-- A role is granted by a command: no role is revoked. -/
theorem leads_grantRole {source : String} {u : Uuid} {role : Text} :
    Ensures (ledger Γ) me S0 Even (grantRole source u role) fun _ => Even := by
  refine leads_exists fun H => leads_bind (leads_roleCodes u) fun existing => leads_given fun hexisting => ?_
  refine leads_bind (leads_replaceRows u _ _) fun r => leads_given fun hr => ?_
  refine leads_weaken (leads_roleAudits (x := RoleEntry.granted u) (fun c id t => by rw [← hr.user]; rfl) (news_granted hr)) ?_
  intro _ S V e hp
  have hnone : r.revokedRoleCodes = [] := by
    rw [List.eq_nil_iff_forall_not_mem]
    intro c hc
    obtain ⟨hheld, hgone⟩ := hr.revoked.2 c hc
    refine hgone (mem_sortTexts.2 (List.mem_dedup.2 (List.mem_append_left _ ?_)))
    exact (hexisting c).2 hheld
  rw [← replaced_eq hr, hnone] at hp
  exact ⟨_, hp⟩

/-- The roles that the catalog does not know are deleted, with an audit log for each. -/
theorem leads_prune : Ensures (ledger Γ) me S0 (fun S V e => Even (Γ := Γ) S V e ∧ Wiped none V) (do
    let known := Γ.roleCatalog.map Prod.fst
    let assignments ← listUnknownRoleAssignments known
    let deletedCount ← deleteUnknownRoleAssignments known
    Prog.each (fun assignment : Uuid × Text => createAuditLog true
      { userId := none
        sessionId := none
        eventType := .roleRevoked
        ipAddress := none
        userAgent := none
        detailJson := some (.role (some "cli-prune") none assignment.1 assignment.2 none) }) assignments
    return deletedCount) fun _ => Even := by
  refine leads_strengthen (P := Even) ?_ fun _ _ _ h => h.1
  refine leads_exists fun H => leads_bind (leads_select (.unknownRoles (Γ.roleCatalog.map Prod.fst))
    (Q := fun (pairs : List (Uuid × Text)) S V e => (pairs.Nodup ∧ ∀ p, p ∈ pairs ↔ p ∈ H ∧ p.2 ∉ Γ.roleCatalog.map Prod.fst) ∧
      Held H H S V e) ?_) fun (pairs : List (Uuid × Text)) => leads_given ?_
  · intro S V e hp
    refine ⟨?_, hp⟩
    have hperm : ((Query.unknownRoles (Γ.roleCatalog.map Prod.fst)).answer Γ V).Perm
        ((V.roles.filter fun r => r.roleCode ∉ Γ.roleCatalog.map Prod.fst).map fun r => (r.userId, r.roleCode)) :=
      List.perm_insertionSort _ _
    refine ⟨hperm.nodup_iff.2 (Books.distinct hp |>.sublist (List.filter_sublist.map _)), ?_⟩
    intro p
    rw [hperm.mem_iff, ← hp.stored]
    simp only [Store.assignments, List.mem_map, List.mem_filter, decide_eq_true_eq, List.mem_toFinset]
    constructor
    · rintro ⟨r, ⟨hr, hc⟩, rfl⟩
      exact ⟨⟨r, hr, rfl⟩, hc⟩
    · rintro ⟨⟨r, hr, rfl⟩, hc⟩
      exact ⟨r, ⟨hr, hc⟩, rfl⟩
  · rintro ⟨hnodup, hpairs⟩
    refine leads_bind (Q := fun _ => On me (Held (H.filter fun p => decide (p.2 ∉ Γ.roleCatalog.map Prod.fst) = false) H)) ?_
      fun count => ?_
    · refine leads_bind (leads_held (plain_require _ _)) fun _ => ?_
      refine leads_bind (leads_deleteRoles (fun p => decide (p.2 ∉ Γ.roleCatalog.map Prod.fst)) ?_) fun _ =>
        leads_done fun _ _ _ hp => hp
      intro V
      simp [Stmt.rows, List.filterMap_map, Function.comp_def, Stmt.change]
    · refine leads_bind (leads_roleAudits (x := fun q : Uuid × Text => RoleEntry.revoked q.1 q.2) (fun _ _ _ => rfl) ?_) fun _ => ?_
      · intro done q rest heq
        rw [heq] at hnodup hpairs
        show q ∈ _
        rw [mem_foldl_revoked]
        refine ⟨((hpairs q).1 (List.mem_append_right _ List.mem_cons_self)).1, ?_⟩
        intro hdone
        exact (List.nodup_append.1 hnodup).2.2 q hdone q List.mem_cons_self rfl
      · refine leads_done ?_
        intro S V e hp
        have heven : (pairs.map fun q => RoleEntry.revoked q.1 q.2).foldl RoleEntry.apply H =
            H.filter fun p => decide (p.2 ∉ Γ.roleCatalog.map Prod.fst) = false := by
          ext p
          rw [mem_foldl_revoked, Finset.mem_filter, hpairs, decide_eq_false_iff_not]
          tauto
        rw [heven] at hp
        exact ⟨_, hp⟩

/-! ## Deletions -/

/-- A user that is deleted has no roles. -/
def Bare (u : Uuid) (H : Finset (Uuid × Text)) (V : Store) : Prop := isDeleted V u = true → ∀ p ∈ H, p.1 ≠ u

/-- The roles without those of a user. -/
def without (H : Finset (Uuid × Text)) (u : Uuid) : Finset (Uuid × Text) := H.filter fun p => decide (p.1 = u) = false

/-- Whoever holds a role that is not the user's. -/
theorem without_eq {u : Uuid} : without H u = H.filter fun p => p.1 ≠ u := by
  ext p
  simp [without]

/-- A deletion removes the roles of the user before it marks the user. -/
theorem leads_strip {u : Uuid} {f : Service Γ α} {Q : α → Assertion (database Γ)}
    (hf : Ensures (ledger Γ) me S0 (fun S V e => Held (without H u) H S V e ∧ Bare u H V) f Q) :
    Ensures (ledger Γ) me S0 (fun S V e => Held H H S V e ∧ Bare u H V) (do
      deleteAllForOwner u
      let _ ← deleteRolesForUser u
      let _ ← deleteAuthIdentitiesForUser u
      f) Q := by
  refine leads_bind (Q := fun _ => On me fun S V e => Held H H S V e ∧ Bare u H V) ?_ fun _ => ?_
  · refine leads_bind (leads_statement ?_) fun _ => leads_done fun _ _ _ h => h
    rintro S V e ⟨hp, hbare⟩
    rw [changes_deleteItemsForOwner, applyAll_deleteItems]
    exact ⟨Books.congr hp rfl rfl, hbare⟩
  refine leads_bind (Q := fun _ => On me fun S V e => Held (without H u) H S V e ∧ Bare u H V) ?_ fun _ => ?_
  · refine leads_bind (leads_statement (Q := fun _ S V e => Held (without H u) H S V e ∧ Bare u H V) ?_) fun _ =>
      leads_done fun _ _ _ h => h
    rintro S V e ⟨hp, hbare⟩
    rw [changes_deleteRolesForUser, applyAll_deleteRoles]
    exact ⟨Books.deleteRoles (c := fun p => decide (p.1 = u)) hp, hbare⟩
  refine leads_bind (leads_bind (leads_statement ?_) fun _ => leads_done fun _ _ _ h => h) fun _ => hf
  rintro S V e ⟨hp, hbare⟩
  rw [changes_deleteIdentitiesForUser, applyAll_deleteIdentities]
  exact ⟨Books.congr hp rfl rfl, hbare⟩

/-- The lookup of a user that cannot be marked. -/
theorem leads_findMarked (u : Uuid) :
    Ensures (ledger Γ) me S0 (fun S V e => Held (without H u) H S V e ∧ Bare u H V ∧ ∀ x ∈ V.users, x.id = u → x.deletedAt ≠ none)
      (getUserById none u) fun r S V e => Held (without H u) H S V e ∧ Bare u H V ∧ (r ≠ none → isDeleted V u = true) := by
  refine leads_bind (leads_select (.userById u) (Q := fun (rows : List User) S V e =>
    (Held (without H u) H S V e ∧ Bare u H V) ∧ ∀ x ∈ rows, isDeleted V u = true) ?_) fun rows => leads_oneOrNone ?_ ?_
  · rintro S V e ⟨hp, hbare, hdead⟩
    refine ⟨⟨hp, hbare⟩, ?_⟩
    intro x hx
    have hx : x ∈ V.users.filter fun x => x.id = u := hx
    obtain ⟨hmem, hid⟩ := List.mem_filter.1 hx
    exact isDeleted_iff.2 ⟨x, hmem, of_decide_eq_true hid, hdead x hmem (of_decide_eq_true hid)⟩
  · rintro S V e ⟨⟨hp, hbare⟩, _⟩ _
    exact ⟨hp, hbare, fun hr => absurd rfl hr⟩
  · rintro x S V e ⟨⟨hp, hbare⟩, hdel⟩ rfl
    exact ⟨hp, hbare, fun _ => hdel x (List.mem_singleton_self x)⟩

/-- The user is marked with an audit log that clears its roles. A user that is already deleted has none. -/
theorem leads_markUserDeleted {u : Uuid} {t : DateTime} {sessionId : Option Uuid} {ipAddress : Option Text} :
    Ensures (ledger Γ) me S0 (fun S V e => Held (without H u) H S V e ∧ Bare u H V) (markUserDeleted u t sessionId ipAddress)
      fun _ => Even := by
  refine leads_bind (leads_statement (s := .markUserDeleted u t) (Q := fun rows S V e => (rows = [] → Held (without H u) H S V e ∧ Bare u H V ∧
    ∀ x ∈ V.users, x.id = u → x.deletedAt ≠ none) ∧ (rows ≠ [] → Held (without H u) H S V e)) ?_) fun rows => ?_
  · rintro S V e ⟨hp, hbare⟩
    refine ⟨fun hnil => ?_, fun _ => ?_⟩
    · have hdead : ∀ x ∈ V.users, x.id = u → x.deletedAt ≠ none := by
        intro x hx hid hlive
        have hmem : Key.user x.id ∈ (Stmt.markUserDeleted u t).rows V :=
          List.mem_map_of_mem (List.mem_filter.2 ⟨hx, by simp [hid, hlive]⟩)
        rw [hnil] at hmem
        cases hmem
      rw [hnil]
      exact ⟨hp, hbare, hdead⟩
    · refine applyAll_induct (D := database Γ) (P := fun V : Store => Books (without H u) H V) hp ?_
      intro w hw V hV
      obtain ⟨key, _, hchange⟩ := List.mem_filterMap.1 hw
      exact books_change (show Apart (Γ := Γ) true true (.finish (.markUserDeleted u t) []) from trivial) hchange hV
  · show Ensures (ledger Γ) me S0 _ (if rows = [] then _ else _) _
    split
    · rename_i hnil
      refine leads_strengthen (P := fun S V e => Held (without H u) H S V e ∧ Bare u H V ∧
        ∀ x ∈ V.users, x.id = u → x.deletedAt ≠ none) ?_ fun S V e h => h.1 hnil
      refine leads_bind (leads_findMarked u) fun user => ?_
      cases user with
      | none => exact leads_throw _
      | some user =>
        refine leads_done ?_
        rintro S V e ⟨hp, hbare, hdel⟩
        have hsame : without H u = H := by
          rw [without_eq]
          exact Finset.filter_true_of_mem (hbare (hdel nofun))
        rw [hsame] at hp
        exact ⟨H, hp⟩
    · rename_i hrows
      refine leads_strengthen (P := Held (without H u) H) ?_ fun S V e h => h.2 hrows
      refine leads_bind (leads_roleAudit (x := .cleared u) (fun _ _ => rfl) trivial) fun _ => ?_
      refine leads_bind (leads_held (plain_getUserById none u)) fun user => ?_
      cases user with
      | none => exact leads_throw _
      | some user =>
        refine leads_done ?_
        intro S V e hp
        rw [without_eq] at hp
        exact ⟨_, hp⟩

/-- Both deletions. -/
theorem leads_wipeUser {u : Uuid} {t : DateTime} {sessionId : Uuid} {ipAddress : Option Text} :
    Ensures (ledger Γ) me S0 (fun S V e => Even (Γ := Γ) S V e ∧ Wiped none V) (wipeUser u t sessionId ipAddress)
      fun _ => Even := by
  refine leads_strengthen (P := fun S V e => ∃ H, Held H H S V e ∧ Bare u H V) ?_ ?_
  · refine leads_exists fun H => leads_strip (leads_bind leads_markUserDeleted fun _ => ?_)
    exact leads_bind (leads_even (plain_revokeSessionsForUser _ _)) fun _ => leads_done fun _ _ _ h => h
  · rintro S V e ⟨⟨H, hp⟩, hwiped⟩
    refine ⟨H, hp, ?_⟩
    rintro hdel ⟨v, c⟩ hmem rfl
    rw [← hp.stored] at hmem
    obtain ⟨r, hr, hpair⟩ := List.mem_map.1 (List.mem_toFinset.1 hmem)
    obtain ⟨huser, _⟩ := Prod.mk.inj hpair
    have hlive := hwiped.roles r hr
    rw [huser, hdel] at hlive
    cases hlive

/-! ## Replays of rejected sessions -/

/-- The log of a replay is patched. -/
theorem Books.patchReplay (h : Books H E V) {log : AuthAuditLog} (hlog : log ∈ V.audits)
    (hevent : log.eventType.isAboutRoles = false) (detail : AuditDetail) :
    Books H E ((Write.patchAudit log.id detail).apply V) := by
  refine h.mapAudits rfl rfl ?_ ?_ ?_
  · intro l
    split <;> rfl
  · intro l
    split <;> rfl
  · intro l hl
    split
    · rename_i hid
      obtain rfl := List.inj_on_of_nodup_map h.auditIds hl hlog (of_decide_eq_true hid)
      rw [roleEntry_eq_none hevent]
      exact roleEntry_eq_none hevent
    · rfl

/-- The recent log of replays is one about something else. -/
theorem mem_recentReplay {sessionId : Uuid} {since : DateTime} {l : AuthAuditLog} {logs : List AuthAuditLog}
    (hlogs : logs = (Query.recentReplay sessionId since).answer Γ V) (hl : l ∈ logs) :
    l ∈ V.audits ∧ l.eventType.isAboutRoles = false := by
  rw [hlogs] at hl
  unfold Query.answer at hl
  have hl := List.mem_of_mem_take hl
  rw [List.mem_insertionSort] at hl
  simp only [List.mem_filter, Bool.and_eq_true, beq_iff_eq] at hl
  exact ⟨hl.1, by rw [hl.2.1.1.2]; rfl⟩

/-- The log is a stored one that is not about roles. -/
def Aside (log : AuthAuditLog) : Assertion (database Γ) :=
  fun S V e => Even (Γ := Γ) S V e ∧ log ∈ V.audits ∧ log.eventType.isAboutRoles = false

/-- The patch of a log of replays leaves the logs even. -/
theorem leads_patchReplay {log : AuthAuditLog} {detail : AuditDetail} :
    Ensures (ledger Γ) me S0 (Aside log) (updateRow (.patchAudit log.id detail)) fun _ => Even := by
  refine leads_bind (leads_statement (s := .patchAudit log.id detail) (Q := fun _ => Even (Γ := Γ)) ?_) fun rows => ?_
  · rintro S V e ⟨⟨H, hp⟩, hmem, hevent⟩
    have hall : Books H H (applyAll (D := database Γ) (((Stmt.patchAudit log.id detail).rows V).filterMap
        (Stmt.change (.patchAudit log.id detail))) V) ∧ ∃ l ∈ (applyAll (D := database Γ)
          (((Stmt.patchAudit log.id detail).rows V).filterMap (Stmt.change (.patchAudit log.id detail))) V).audits,
            l.id = log.id ∧ l.eventType.isAboutRoles = false := by
      refine applyAll_induct (D := database Γ) (P := fun V : Store => Books H H V ∧
        ∃ l ∈ V.audits, l.id = log.id ∧ l.eventType.isAboutRoles = false) ⟨hp, log, hmem, rfl, hevent⟩ ?_
      rintro w hw V' ⟨hp', l, hl, hid, hevent'⟩
      obtain ⟨key, hkey, hchange⟩ := List.mem_filterMap.1 hw
      obtain ⟨l0, hl0, rfl⟩ := List.mem_map.1 hkey
      obtain rfl : Write.patchAudit l0.id detail = w := Option.some.inj hchange
      have hid0 : l0.id = l.id := (of_decide_eq_true (List.mem_filter.1 hl0).2).trans hid.symm
      rw [hid0]
      exact ⟨hp'.patchReplay hl hevent' detail, _, List.mem_map_of_mem hl, by simpa using hid, by simpa using hevent'⟩
    exact ⟨H, hall.1⟩
  · split
    · exact leads_done fun _ _ _ h => h
    · exact leads_throw _

/-- The log of a recent replay is not about roles. -/
theorem leads_recentReplay {sessionId : Uuid} {since : DateTime} {logs : List AuthAuditLog} :
    Ensures (ledger Γ) me S0 (fun S V e => Even (Γ := Γ) S V e ∧ logs = (Query.recentReplay sessionId since).answer Γ V)
      (oneOrNone logs) fun r S V e => Even (Γ := Γ) S V e ∧ ∀ log ∈ r, Aside log S V e := by
  refine leads_oneOrNone ?_ ?_
  · intro S V e hp _
    exact ⟨hp.1, fun log hlog => absurd hlog (Option.not_mem_none log)⟩
  · intro log S V e hp hone
    refine ⟨hp.1, ?_⟩
    intro log' hlog'
    obtain rfl := Option.some.inj hlog'
    obtain ⟨hmem, hevent⟩ := mem_recentReplay (l := log) hp.2 (by rw [hone]; exact List.mem_singleton_self log)
    exact ⟨hp.1, hmem, hevent⟩

/-- Persisting leaves the logs even. -/
theorem leads_persist {inTransaction : Bool} :
    Ensures (ledger Γ) me S0 Even (persist inTransaction) fun _ => Even := by
  cases inTransaction with
  | true => exact leads_done fun _ _ _ h => h
  | false =>
    refine leads_commit ?_
    intro S V e e' hV _ _ _
    exact ⟨hV, trivial, hV⟩

/-- A replay is recorded, in the log of a recent one if there is one. -/
theorem leads_scope {α : Type} {b : Bool} {body : Service Γ α} (hbody : Ensures (ledger Γ) me S0 Even body fun _ => Even) :
    Ensures (ledger Γ) me S0 Even (sessionScope b body) fun _ => Even := by
  cases b with
  | true => exact hbody
  | false =>
    refine sessionScope_leads stable_on ?_ hbody ?_
    · intro db _ _ hinv _
      exact hinv
    · intro _ S V e e' _ _ hinv _
      exact hinv

/-- The summary of replays leaves the logs even. -/
theorem leads_recordReplay {inTransaction : Bool} {session : AuthSession} {ipAddress userAgent : Option Text}
    {replayedAt : DateTime} {windowSeconds : Int} :
    Ensures (ledger Γ) me S0 Even
      (recordRejectedSessionReplay inTransaction session ipAddress userAgent replayedAt windowSeconds) fun _ => Even := by
  refine leads_scope (leads_bind (leads_tryLock (Q := fun _ => Even (Γ := Γ)) fun _ _ _ _ h => h) fun (locked : Bool) => ?_)
  cases locked with
  | false => exact leads_done fun _ _ _ h => h
  | true =>
    refine leads_bind (leads_select _ fun S V e hp => And.intro hp rfl) fun logs => leads_bind leads_recentReplay fun log => ?_
    cases log with
    | none =>
      exact leads_strengthen (leads_bind (leads_even (plain_insertAudit rfl)) fun _ => leads_persist) fun _ _ _ h => h.1
    | some log =>
      exact leads_strengthen (leads_bind leads_patchReplay fun _ => leads_persist) fun _ _ _ h => h.2 log rfl

/-- The audit of a rejected token leaves the logs even. -/
theorem leads_auditKnown {inTransaction : Bool} {tokenHash : Text} {ipAddress userAgent : Option Text} :
    Ensures (ledger Γ) me S0 Even (auditKnownRejectedSession inTransaction tokenHash ipAddress userAgent) fun _ => Even := by
  refine leads_bind (leads_even (plain_find (by trivial))) fun session => ?_
  cases session with
  | none => exact leads_done fun _ _ _ h => h
  | some session => exact leads_bind (leads_even plain_utcnow) fun _ => leads_recordReplay

/-! ## The operations -/

/-- An authentication leaves the logs even. -/
theorem leads_authenticateSession {token ipAddress userAgent : Option Text} :
    Ensures (ledger Γ) me S0 Even (authenticateSession token ipAddress userAgent) fun _ => Even := by
  unfold authenticateSession
  split
  · exact leads_done fun _ _ _ h => h
  · refine leads_evenTransaction stable_on (leads_strengthen (P := Even) ?_ fun _ _ _ h => h.1)
    refine leads_bind (leads_even (plain_findActiveSession _)) fun found => ?_
    cases found with
    | none => exact leads_bind leads_auditKnown fun _ => leads_done fun _ _ _ h => h
    | some session => exact leads_even (plain_contextOfSession session)

/-- The check of a CSRF token leaves the logs even. -/
theorem leads_validateSessionCsrf {token csrfToken : Text} {ipAddress userAgent : Option Text} :
    Ensures (ledger Γ) me S0 Even (validateSessionCsrf token csrfToken ipAddress userAgent) fun _ => Even := by
  refine leads_bind (leads_outside (plain_findActiveSession _)) fun found => ?_
  cases found with
  | none => exact leads_bind leads_auditKnown fun _ => leads_done fun _ _ _ h => h
  | some session =>
    show Ensures (ledger Γ) me S0 Even (if session.csrfTokenHash = Γ.hashToken csrfToken then _ else _) _
    split
    · exact leads_done fun _ _ _ h => h
    · exact leads_done fun _ _ _ h => h

/-- A request for an item leaves the logs even. -/
theorem leads_createItem {token ipAddress userAgent : Option Text} {title : Text} {description : Option Text} :
    Ensures (ledger Γ) me S0 Even (createItemRequest token ipAddress userAgent title description) fun _ => Even := by
  refine leads_bind leads_authenticateSession fun context => ?_
  cases context with
  | none => exact leads_done fun _ _ _ h => h
  | some context =>
    refine leads_outside (Prog.Emits.bind ?_ fun _ => plain_pure _)
    refine (plain_call .newId).bind fun _ => plain_utcnow.bind fun _ => plain_utcnow.bind fun _ => ?_
    exact plain_sessionScope (Or.inr rfl) ((plain_insert (by trivial)).bind fun _ => (plain_persist (Or.inr rfl)).bind
      fun _ => plain_pure _)

/-- An administrator's new user has a log for each role. -/
theorem leads_adminCreateUser {actor : AuthenticatedSessionContext} {email password : Text} {isActive : Bool}
    {roles : List Text} {ipAddress userAgent : Option Text} :
    Ensures (ledger Γ) me S0 Even (adminCreateUser actor email password isActive roles ipAddress userAgent) fun _ => Even := by
  refine leads_bind (leads_outside (plain_ofExcept _)) fun roles => leads_bind (leads_outside (plain_hashValidPassword _)) fun _ => ?_
  refine leads_evenTransaction stable_on (leads_strengthen (P := Even) ?_ fun _ _ _ h => h.1)
  refine leads_bind (leads_even (plain_createUser (Or.inl rfl))) fun user => ?_
  refine leads_bind (leads_even (plain_createAuditLog (Or.inl rfl) rfl)) fun _ => ?_
  exact leads_bind leads_replaceRolesWithAudit fun _ => leads_even (plain_detailForUser user)

/-- An administrator's update has a log for each role that changes. -/
theorem leads_adminUpdateUser {actor : AuthenticatedSessionContext} {u : Uuid} {changes : AdminUserUpdateChanges}
    {ipAddress userAgent : Option Text} :
    Ensures (ledger Γ) me S0 Even (adminUpdateUser actor u changes ipAddress userAgent) fun _ => Even := by
  unfold adminUpdateUser
  split
  · exact leads_outside (plain_adminGetUser u)
  · refine leads_bind (leads_outside (plain_ofExcept _)) fun roles => ?_
    refine leads_bind (leads_outside (plain_changedPasswordHash _)) fun _ => leads_bind (leads_outside plain_utcnow) fun _ => ?_
    refine leads_evenTransaction stable_on (leads_strengthen (P := Even) ?_ fun _ _ _ h => h.1)
    refine leads_bind (leads_even plain_updateUserRow) fun user => ?_
    refine leads_bind (Q := fun _ => On me Even) ?_ fun _ => ?_
    · cases roles with
      | none => exact leads_done fun _ _ _ h => h
      | some roles => exact leads_bind leads_replaceRolesWithAudit fun _ => leads_done fun _ _ _ h => h
    · refine leads_bind (leads_even ?_) fun _ => leads_bind (leads_even (plain_createAuditLog (Or.inl rfl) rfl)) fun _ =>
        leads_even (plain_detailForUser user)
      unfold whenever
      split
      · exact (plain_revokeSessionsForUser _ _).bind fun _ => plain_pure ()
      · exact plain_pure ()

/-- The deletion by an administrator clears the roles with one log. -/
theorem leads_adminDeleteUser {actor : AuthenticatedSessionContext} {u : Uuid} {ipAddress userAgent : Option Text} :
    Ensures (ledger Γ) me S0 Even (adminDeleteUser actor u ipAddress userAgent) fun _ => Even := by
  refine leads_bind (leads_outside (plain_find (by trivial))) fun user => ?_
  cases user with
  | none => exact leads_throw _
  | some user =>
    refine leads_bind (leads_outside plain_utcnow) fun deletedAt => leads_evenTransaction stable_on ?_
    exact leads_bind leads_wipeUser fun _ => leads_even (plain_createAuditLog (Or.inl rfl) rfl)

/-- The deletion of an account clears the roles with one log. -/
theorem leads_deleteAccount {context : AuthenticatedSessionContext} {confirmEmail : Text}
    {password ipAddress userAgent : Option Text} :
    Ensures (ledger Γ) me S0 Even (deleteAccount context confirmEmail password ipAddress userAgent) fun _ => Even := by
  refine leads_bind (leads_outside (plain_require _ _)) fun _ => leads_bind (leads_outside plain_requireReauth) fun _ => ?_
  exact leads_bind (leads_outside plain_utcnow) fun deletedAt => leads_evenTransaction stable_on leads_wipeUser

/-- A replacement of roles has a log for each role that changes. -/
theorem leads_replaceUserRoles {actor : AuthenticatedSessionContext} {u : Uuid} {codes : List Text}
    {ipAddress userAgent : Option Text} :
    Ensures (ledger Γ) me S0 Even (replaceUserRoles actor u codes ipAddress userAgent) fun _ => Even := by
  refine leads_bind (leads_outside (plain_ofExcept _)) fun roles => ?_
  refine leads_evenTransaction stable_on (leads_strengthen (P := Even) ?_ fun _ _ _ h => h.1)
  refine leads_bind (leads_even (plain_find (by trivial))) fun user => ?_
  cases user with
  | none => exact leads_throw _
  | some user => exact leads_bind (leads_even (plain_require _ _)) fun _ => leads_replaceRolesWithAudit

/-- The command `grant-role` logs the role that it grants. -/
theorem leads_authzGrantRole {email role : Text} :
    Ensures (ledger Γ) me S0 Even (authzGrantRole email role) fun _ => Even := by
  unfold authzGrantRole
  split
  · exact leads_throw _
  · refine leads_evenTransaction stable_on (leads_strengthen (P := Even) ?_ fun _ _ _ h => h.1)
    refine leads_bind (leads_even (plain_find (by trivial))) fun user => ?_
    cases user with
    | none => exact leads_throw _
    | some user => exact leads_grantRole

/-- `seed_admin` logs the role that it grants. -/
theorem leads_seedAdmin : Ensures (ledger Γ) me S0 Even seedAdmin fun _ => Even := by
  refine leads_bind (leads_outside (plain_call _)) fun passwordHash => ?_
  refine leads_evenTransaction stable_on (leads_strengthen (P := Even) ?_ fun _ _ _ h => h.1)
  refine leads_bind (leads_even ?_) fun user => leads_grantRole
  refine (plain_find (by trivial)).bind fun user => ?_
  cases user with
  | none => exact plain_createUser (Or.inl rfl)
  | some user => exact plain_updateUserRow

/-- Every operation leaves the audit logs even with the roles. -/
theorem leads_program (op : Op) : Ensures (ledger Γ) me S0 Even (program Γ op) fun _ => Even := by
  cases op with
  | register => exact leads_outside (plain_register.bind fun _ => plain_pure _)
  | login => exact leads_outside (plain_login.bind fun _ => plain_pure _)
  | startAuthorization => exact leads_outside (plain_startAuthorization.bind fun _ => plain_pure _)
  | completeCallback => exact leads_outside (plain_completeCallback.bind fun _ => plain_pure _)
  | completeErrorCallback => exact leads_outside (plain_completeErrorCallback.bind fun _ => plain_pure _)
  | authenticateSession => exact leads_bind leads_authenticateSession fun _ => leads_done fun _ _ _ h => h
  | issueCsrfToken token => exact leads_outside ((plain_issueCsrfToken token).bind fun _ => plain_pure _)
  | validateSessionCsrf => exact leads_bind leads_validateSessionCsrf fun _ => leads_done fun _ _ _ h => h
  | logout => exact leads_outside (plain_logout.bind fun _ => plain_pure _)
  | updateCurrentUser => exact leads_outside (plain_updateCurrentUser.bind fun _ => plain_pure _)
  | adminCreateUser => exact leads_bind leads_adminCreateUser fun _ => leads_done fun _ _ _ h => h
  | adminUpdateUser => exact leads_bind leads_adminUpdateUser fun _ => leads_done fun _ _ _ h => h
  | adminDeleteUser => exact leads_bind leads_adminDeleteUser fun _ => leads_done fun _ _ _ h => h
  | replaceUserRoles => exact leads_bind leads_replaceUserRoles fun _ => leads_done fun _ _ _ h => h
  | deleteAccount => exact leads_bind leads_deleteAccount fun _ => leads_done fun _ _ _ h => h
  | createItem => exact leads_createItem
  | authzGrantRole => exact leads_bind leads_authzGrantRole fun _ => leads_done fun _ _ _ h => h
  | authzPruneUnknownRoleAssignments =>
    exact leads_bind (leads_evenTransaction stable_on leads_prune) fun _ => leads_done fun _ _ _ h => h
  | seedAdmin => exact leads_bind leads_seedAdmin fun _ => leads_done fun _ _ _ h => h
  | deleteSessionsExpiredBefore =>
    exact leads_outside ((plain_sessionScope (Or.inr rfl) ((plain_modify fun _ => by trivial).bind fun _ =>
      (plain_persist (Or.inr rfl)).bind fun _ => plain_pure _)).bind fun _ => plain_pure _)
  | deleteOidcStatesExpiredBefore =>
    exact leads_outside ((plain_sessionScope (Or.inr rfl) ((plain_modify fun _ => by trivial).bind fun _ =>
      (plain_persist (Or.inr rfl)).bind fun _ => plain_pure _)).bind fun _ => plain_pure _)

/-- Empty tables are even. -/
theorem books_empty : Books ∅ ∅ Store.empty := by
  refine ⟨rfl, List.nodup_nil, List.nodup_nil, List.nodup_nil, rfl, ?_, fun l hl => absurd hl List.not_mem_nil⟩
  intro before entry after heq
  simp [Store.empty] at heq

/-- In every state of a serial run from empty tables the audit logs are even with the roles. -/
theorem books_of_run {env : Env} {s : Store × Env} (h : SerialRun Γ Set.univ (Store.empty, env) s) : ∃ H, Books H H s.1 := by
  have hkeeps : (Wiped none s.1 ∧ ∃ H, Books H H s.1) ∧ True :=
    h.keeps (fun S _ => Wiped none S ∧ ∃ H, Books H H S) (fun _ => trivial) (fun _ _ => trivial) ?_ ⟨wiped_empty, ∅, books_empty⟩
  · exact hkeeps.1.2
  rintro roleCatalog me op r s s' _ hperforms ⟨hwiped, heven⟩
  refine ⟨⟨?_, ?_⟩, trivial⟩
  · obtain ⟨c, hreach, _, rfl⟩ := hperforms
    exact (wiped_inside hwiped hreach).1
  · refine (hperforms.keeps (T := ledger (Γ.withRoles roleCatalog)) (leads_strengthen (leads_program op) ?_)
      (fun c hreach => (wiped_inside hwiped hreach).1) heven).1
    rintro S V e ⟨rfl, hS⟩
    exact hS

end LedgerAux

open LedgerAux

/-- In every state of a serial run from empty tables, a user has a role exactly when the audit logs in order say so. Each log
about roles can be read, each log that grants a role grants it to a user who has it not, and each log that revokes one takes it
from a user who has it. -/
theorem roles_reconstructed (Γ : Ctx) (env : Env) {s : Store × Env} (h : SerialRun Γ Set.univ (Store.empty, env) s) :
    (∀ u code, (∃ role ∈ s.1.roles, role.userId = u ∧ role.roleCode = code) ↔ (u, code) ∈ reconstruct s.1.audits) ∧
    ∀ before l after, s.1.audits = before ++ l :: after → l.eventType.isAboutRoles = true →
      ∃ entry, l.roleEntry = some entry ∧ entry.isNews (reconstruct before) := by
  obtain ⟨H, hbooks⟩ := books_of_run h
  refine ⟨?_, ?_⟩
  · intro u code
    rw [hbooks.log, ← hbooks.stored]
    simp [Store.assignments]
  · intro before l after heq habout
    obtain ⟨entry, hentry⟩ := Option.isSome_iff_exists.1 (hbooks.formed l (by rw [heq]; simp) habout)
    refine ⟨entry, hentry, ?_⟩
    refine hbooks.legal _ entry (after.filterMap AuthAuditLog.roleEntry) ?_
    rw [heq, List.filterMap_append, List.filterMap_cons, hentry]

/-! ## A run -/

namespace LedgerRun

def Γ₁ : Ctx := Ctx.readable [] fun _ => .error .oidcProviderUnavailable

def env : Env := ⟨seconds 100, [], 0, 0, 0, 0⟩

/-- A user registers and becomes an administrator. -/
def first : List Op :=
  [.register "ann@example.com".toList "correct horse".toList .en none none none,
    .authzGrantRole "ann@example.com".toList "admin".toList]

/-- The catalog after the role of administrators is retired. -/
def retired : List (Text × List Text) := [("owner".toList, [])]

/-- The state after the registration, the grant, the change of the catalog and the prune. -/
def final : Option (Store × Env) :=
  (performAll Γ₁ 0 first (Store.empty, env)).bind
    (performAll (Γ₁.withRoles retired) 2 [.authzPruneUnknownRoleAssignments])

end LedgerRun

open LedgerRun in
/-- The role of an administrator is granted and then pruned: the logs tell of both, and the user has no role. -/
theorem roles_reconstructed_after_prune : ∃ s, SerialRun Γ₁ Set.univ (Store.empty, env) s ∧
    s.1.audits.filterMap AuthAuditLog.roleEntry = [.granted 0 "admin".toList, .revoked 0 "admin".toList] ∧
    ¬∃ role ∈ s.1.roles, role.userId = 0 ∧ role.roleCode = "admin".toList := by
  have hentries : final.map (fun s => s.1.audits.filterMap AuthAuditLog.roleEntry) =
      some [.granted 0 "admin".toList, .revoked 0 "admin".toList] := by decide
  obtain ⟨s, hs, hlogs⟩ := Option.map_eq_some_iff.1 hentries
  obtain ⟨s1, hfirst, hlast⟩ := Option.bind_eq_some_iff.1 hs
  have hrun : SerialRun Γ₁ Set.univ (Store.empty, env) s :=
    ((serialRun_of_performAll hfirst).mono (Set.subset_univ _)).trans
      ((serialRun_of_performAll hlast).mono (Set.subset_univ _))
  refine ⟨s, hrun, hlogs, ?_⟩
  rw [(roles_reconstructed Γ₁ env hrun).1 0, reconstruct, hlogs]
  decide

end AuthService
