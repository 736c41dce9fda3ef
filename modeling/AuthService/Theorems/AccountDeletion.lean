import AuthService.Interleavings

/-!
# Account deletion against requests in flight

A deletion removes the items and the roles of its user and marks the user as deleted, in one transaction. `DELETE` removes the
rows that were committed when it started. Nothing locks the user's row against inserts, so a request in flight can commit an
item or a role later, and the row outlives the deletion. The user is wiped in the runs without such commits.
-/

namespace AuthService

open ReadCommitted RelyGuarantee

variable {Γ : Ctx}

/-- The tables that a deletion empties for its user. -/
inductive OwnedTable where
  | items | roles
  deriving DecidableEq, Repr

/-- The `DELETE` of a deletion. -/
def OwnedTable.wipe : OwnedTable → Uuid → Stmt
  | .items, u => .deleteItemsForOwner u
  | .roles, u => .deleteRolesForUser u

/-- The write adds a row of the user. -/
def OwnedTable.Adds : OwnedTable → Uuid → Write → Prop
  | .items, u, .insertItem row => row.ownerUserId = u
  | .roles, u, .insertRole row => row.userId = u
  | _, _, _ => False

/-- The user is marked as deleted. -/
def DeletedIn (u : Uuid) (S : Store) : Prop := ∃ user ∈ S.users, user.id = u ∧ user.deletedAt ≠ none

/-- The user has a row. -/
def HasUser (u : Uuid) (S : Store) : Prop := ∃ user ∈ S.users, user.id = u

/-- No items and no roles of the user are left. -/
def WipedOf (u : Uuid) (S : Store) : Prop :=
  (∀ item ∈ S.items, item.ownerUserId ≠ u) ∧ ∀ role ∈ S.roles, role.userId ≠ u

/-- The user is deleted, or another transaction has started to remove the user's rows of the table. -/
def Removing (db : Db (database Γ)) (i : Nat) (t : OwnedTable) (u : Uuid) : Prop :=
  DeletedIn u db.store ∨ ∃ j, j ≠ i ∧ t.wipe u ∈ db.stmts j

/-- The action commits no row of a user whose rows are being removed. -/
def AddsInTime (i : Nat) (a : Act (database Γ)) (db : Db (database Γ)) : Prop :=
  a = .commit → ∀ w ∈ db.log i, ∀ t u, OwnedTable.Adds t u w → ¬Removing db i t u

variable (Γ) in
/-- Runs in which no row of a user is added while or after the user's rows are removed. -/
abbrev ReachesInTime : Configuration Γ → Configuration Γ → Prop := RelyGuarantee.Reaches ((system (database Γ)).restrict AddsInTime)

/-- The operation deletes the user. -/
def Op.deletes : Op → Uuid → Prop
  | .deleteAccount context .., u => u = context.user.id
  | .adminDeleteUser _ userId .., u => u = userId
  | _, _ => False

namespace DeletionAux

/-! ## What is left of a user -/

/-- The rows of the user in the table. -/
def left (t : OwnedTable) (u : Uuid) (S : Store) : List Key := (t.wipe u).rows S

/-- The items of a user that are left. -/
theorem mem_left_items {u : Uuid} {S : Store} {k : Key} :
    k ∈ left .items u S ↔ ∃ x ∈ S.items, x.ownerUserId = u ∧ k = .item x.id := by
  simp [left, OwnedTable.wipe, Stmt.rows, and_assoc, eq_comm]

/-- The roles of a user that are left. -/
theorem mem_left_roles {u : Uuid} {S : Store} {k : Key} :
    k ∈ left .roles u S ↔ ∃ x ∈ S.roles, x.userId = u ∧ k = .role x.id := by
  simp [left, OwnedTable.wipe, Stmt.rows, and_assoc, eq_comm]

/-- A user with nothing left is wiped. -/
theorem wipedOf_of_left {u : Uuid} {S : Store} (h : ∀ t, left t u S = []) : WipedOf u S := by
  constructor
  · intro x hx hu
    have hmem : Key.item x.id ∈ left .items u S := mem_left_items.2 ⟨x, hx, hu, rfl⟩
    rw [h] at hmem
    cases hmem
  · intro x hx hu
    have hmem : Key.role x.id ∈ left .roles u S := mem_left_roles.2 ⟨x, hx, hu, rfl⟩
    rw [h] at hmem
    cases hmem

/-- A wiped user has nothing left. -/
theorem left_of_wipedOf {u : Uuid} {S : Store} (h : WipedOf u S) (t : OwnedTable) : left t u S = [] := by
  refine List.eq_nil_iff_forall_not_mem.2 fun k hk => ?_
  cases t with
  | items =>
    obtain ⟨x, hx, hu, -⟩ := mem_left_items.1 hk
    exact h.1 x hx hu
  | roles =>
    obtain ⟨x, hx, hu, -⟩ := mem_left_roles.1 hk
    exact h.2 x hx hu

/-- The items after a write: those before it that it does not delete, and the one it inserts. -/
theorem mem_items_apply {w : Write} {S : Store} {x : SampleItem} :
    x ∈ (w.apply S).items ↔ (x ∈ S.items ∧ w ≠ .deleteItem x.id) ∨ w = .insertItem x := by
  cases w with
  | insertItem row => simp [Write.apply, @eq_comm _ row x]
  | deleteItem id => simp [Write.apply, @eq_comm _ id x.id]
  | _ => simp [Write.apply]

/-- The roles after a write: those before it that it does not delete, and the one it inserts. -/
theorem mem_roles_apply {w : Write} {S : Store} {x : UserRole} :
    x ∈ (w.apply S).roles ↔ (x ∈ S.roles ∧ w ≠ .deleteRole x.id) ∨ w = .insertRole x := by
  cases w with
  | insertRole row => simp [Write.apply, @eq_comm _ row x]
  | deleteRole id => simp [Write.apply, @eq_comm _ id x.id]
  | _ => simp [Write.apply]

/-- A write leaves no more of a smaller rest. -/
theorem left_apply_mono {t : OwnedTable} {u : Uuid} {S S' : Store} (h : left t u S' ⊆ left t u S) (w : Write) :
    left t u (w.apply S') ⊆ left t u (w.apply S) := by
  intro k hk
  cases t with
  | items =>
    obtain ⟨x, hx, hu, rfl⟩ := mem_left_items.1 hk
    rcases mem_items_apply.1 hx with ⟨hx, hw⟩ | rfl
    · obtain ⟨y, hy, hyu, hid⟩ := mem_left_items.1 (h (mem_left_items.2 ⟨x, hx, hu, rfl⟩))
      refine mem_left_items.2 ⟨y, mem_items_apply.2 (Or.inl ⟨hy, ?_⟩), hyu, hid⟩
      rwa [← Key.item.inj hid]
    · exact mem_left_items.2 ⟨x, mem_items_apply.2 (Or.inr rfl), hu, rfl⟩
  | roles =>
    obtain ⟨x, hx, hu, rfl⟩ := mem_left_roles.1 hk
    rcases mem_roles_apply.1 hx with ⟨hx, hw⟩ | rfl
    · obtain ⟨y, hy, hyu, hid⟩ := mem_left_roles.1 (h (mem_left_roles.2 ⟨x, hx, hu, rfl⟩))
      refine mem_left_roles.2 ⟨y, mem_roles_apply.2 (Or.inl ⟨hy, ?_⟩), hyu, hid⟩
      rwa [← Key.role.inj hid]
    · exact mem_left_roles.2 ⟨x, mem_roles_apply.2 (Or.inr rfl), hu, rfl⟩

/-- A write that adds nothing of the user leaves no more than there was. -/
theorem left_apply {t : OwnedTable} {u : Uuid} {w : Write} (h : ¬t.Adds u w) (S : Store) :
    left t u (w.apply S) ⊆ left t u S := by
  intro k hk
  cases t with
  | items =>
    obtain ⟨x, hx, hu, rfl⟩ := mem_left_items.1 hk
    rcases mem_items_apply.1 hx with ⟨hx, -⟩ | rfl
    · exact mem_left_items.2 ⟨x, hx, hu, rfl⟩
    · exact absurd hu h
  | roles =>
    obtain ⟨x, hx, hu, rfl⟩ := mem_left_roles.1 hk
    rcases mem_roles_apply.1 hx with ⟨hx, -⟩ | rfl
    · exact mem_left_roles.2 ⟨x, hx, hu, rfl⟩
    · exact absurd hu h

/-- Writes leave no more of a smaller rest. -/
theorem left_applyAll_mono {t : OwnedTable} {u : Uuid} {S S' : Store} (h : left t u S' ⊆ left t u S) (ws : List Write) :
    left t u (applyAll (D := database Γ) ws S') ⊆ left t u (applyAll (D := database Γ) ws S) := by
  induction ws generalizing S S' with
  | nil => exact h
  | cons w ws ih => exact ih (left_apply_mono h w)

/-- Writes that add nothing of the user leave no more than there was. -/
theorem left_applyAll {t : OwnedTable} {u : Uuid} {ws : List Write} (h : ∀ w ∈ ws, ¬t.Adds u w) (S : Store) :
    left t u (applyAll (D := database Γ) ws S) ⊆ left t u S :=
  applyAll_induct (D := database Γ) (P := fun S' => left t u S' ⊆ left t u S) (fun _ hk => hk) fun w hw S' hS' =>
    List.Subset.trans (left_apply (h w hw) S') hS'

/-! ## Marks -/

/-- The write revives no user. -/
def Calm : Write → Prop
  | .insertUser row => row.deletedAt = none
  | .patchUser _ patch => patch.deletedAt ≠ some none
  | _ => True

/-- The write marks the user as deleted. -/
def Marks (u : Uuid) : Write → Prop
  | .patchUser id patch => id = u ∧ patch.deletedAt ≠ none
  | _ => False

/-- Users are never removed. -/
theorem hasUser_apply {u : Uuid} {S : Store} (h : HasUser u S) (w : Write) : HasUser u (w.apply S) := by
  obtain ⟨user, hmem, hid⟩ := h
  cases w with
  | insertUser row => exact ⟨user, List.mem_append_left _ hmem, hid⟩
  | patchUser id patch =>
    refine ⟨if user.id = id then user.patch patch else user, ?_, ?_⟩
    · simp only [Write.apply, modifyAt, decide_eq_true_eq, List.mem_map]
      exact ⟨user, hmem, rfl⟩
    · split <;> exact hid
  | _ => exact ⟨user, hmem, hid⟩

/-- A patch does not bring a deleted user back, and may delete the user. -/
theorem patch_deleted {user : User} {patch : UserPatch} (h : patch.deletedAt ≠ some none)
    (hd : user.deletedAt ≠ none ∨ patch.deletedAt ≠ none) : (user.patch patch).deletedAt ≠ none := by
  rcases hp : patch.deletedAt with _ | _ | t
  · simpa [User.patch, hp] using hd
  · exact absurd hp h
  · simp [User.patch, hp]

/-- A user is deleted after a write that marks it, or when it was deleted before. -/
theorem deletedIn_apply {u : Uuid} {S : Store} {w : Write} (hw : Calm w) (hu : HasUser u S) (h : DeletedIn u S ∨ Marks u w) :
    DeletedIn u (w.apply S) := by
  have hkeep : ∀ {id : Uuid} {patch : UserPatch} {user : User}, user ∈ S.users →
      (if user.id = id then user.patch patch else user) ∈ (Write.apply (.patchUser id patch) S).users := by
    intro id patch user hmem
    simp only [Write.apply, modifyAt, decide_eq_true_eq, List.mem_map]
    exact ⟨user, hmem, rfl⟩
  rcases h with ⟨user, hmem, hid, hd⟩ | hm
  · cases w with
    | insertUser row => exact ⟨user, List.mem_append_left _ hmem, hid, hd⟩
    | patchUser id patch =>
      refine ⟨_, hkeep hmem, ?_, ?_⟩
      · split <;> exact hid
      · split
        · exact patch_deleted hw (Or.inl hd)
        · exact hd
    | _ => exact ⟨user, hmem, hid, hd⟩
  · cases w with
    | patchUser id patch =>
      obtain ⟨user, hmem, hid⟩ := hu
      refine ⟨_, hkeep hmem, ?_, ?_⟩
      · split <;> exact hid
      · rw [if_pos (hid.trans hm.1.symm)]
        exact patch_deleted hw (Or.inr hm.2)
    | _ => cases hm

/-- Only a write that marks a user deletes it. -/
theorem deletedIn_of_apply {u : Uuid} {S : Store} {w : Write} (hw : Calm w) (h : DeletedIn u (w.apply S)) :
    DeletedIn u S ∨ Marks u w := by
  obtain ⟨user, hmem, hid, hd⟩ := h
  cases w with
  | insertUser row =>
    rcases List.mem_append.1 hmem with hmem | hmem
    · exact Or.inl ⟨user, hmem, hid, hd⟩
    · rw [List.mem_singleton.1 hmem] at hd
      exact absurd hw hd
  | patchUser id patch =>
    simp only [Write.apply, modifyAt, decide_eq_true_eq, List.mem_map] at hmem
    obtain ⟨old, hold, rfl⟩ := hmem
    split at hid
    · rename_i hold'
      by_cases hp : patch.deletedAt = none
      · refine Or.inl ⟨old, hold, hid, ?_⟩
        rw [if_pos hold'] at hd
        simpa [User.patch, hp] using hd
      · exact Or.inr ⟨hold'.symm.trans hid, hp⟩
    · rename_i hold'
      rw [if_neg hold'] at hd
      exact Or.inl ⟨old, hold, hid, hd⟩
  | _ => exact Or.inl ⟨user, hmem, hid, hd⟩

/-- Writes remove no user. -/
theorem hasUser_applyAll {u : Uuid} {S : Store} (h : HasUser u S) (ws : List Write) :
    HasUser u (applyAll (D := database Γ) ws S) :=
  applyAll_induct (D := database Γ) (P := HasUser u) h fun w _ _ hS' => hasUser_apply hS' w

/-- A user is deleted after writes when it was before, or when one of them marks it. -/
theorem deletedIn_applyAll {u : Uuid} {ws : List Write} {S : Store} (hw : ∀ w ∈ ws, Calm w) (hu : HasUser u S)
    (h : DeletedIn u S ∨ ∃ w ∈ ws, Marks u w) : DeletedIn u (applyAll (D := database Γ) ws S) := by
  induction ws generalizing S with
  | nil => exact h.elim (fun h => h) fun ⟨w, hw, _⟩ => absurd hw List.not_mem_nil
  | cons w ws ih =>
    refine ih (fun w' hw' => hw w' (List.mem_cons_of_mem _ hw')) (hasUser_apply hu w) ?_
    rcases h with h | ⟨v, hv, hm⟩
    · exact Or.inl (deletedIn_apply (hw w List.mem_cons_self) hu (Or.inl h))
    · rcases List.mem_cons.1 hv with rfl | hv
      · exact Or.inl (deletedIn_apply (hw v List.mem_cons_self) hu (Or.inr hm))
      · exact Or.inr ⟨v, hv, hm⟩

/-- A user that is deleted after writes was so before, or one of them marks it. -/
theorem deletedIn_of_applyAll {u : Uuid} {ws : List Write} {S : Store} (hw : ∀ w ∈ ws, Calm w)
    (h : DeletedIn u (applyAll (D := database Γ) ws S)) : DeletedIn u S ∨ ∃ w ∈ ws, Marks u w := by
  induction ws generalizing S with
  | nil => exact Or.inl h
  | cons w ws ih =>
    rcases ih (fun w' hw' => hw w' (List.mem_cons_of_mem _ hw')) h with h | ⟨v, hv, hm⟩
    · rcases deletedIn_of_apply (hw w List.mem_cons_self) h with h | h
      · exact Or.inl h
      · exact Or.inr ⟨w, List.mem_cons_self, h⟩
    · exact Or.inr ⟨v, List.mem_cons_of_mem _ hv, hm⟩

/-! ## The contract -/

/-- The transaction of thread `i` has started to remove the user's rows of the table, and sees none any more. -/
def Emptied (i : Nat) (t : OwnedTable) (u : Uuid) (db : Db (database Γ)) : Prop :=
  t.wipe u ∈ db.stmts i ∧ left t u (db.view i) = []

/-- A transaction that marks a user has removed the user's rows. -/
def MarksLast (i : Nat) (db : Db (database Γ)) : Prop := ∀ w ∈ db.log i, ∀ u, Marks u w → ∀ t, Emptied i t u db

structure Inv (db : Db (database Γ)) : Prop where
  guarded : Guarded db
  calm : ∀ i, ∀ w ∈ db.log i, Calm w
  wiped : ∀ u, DeletedIn u db.store → ∀ t, left t u db.store = []
  marksLast : ∀ i, MarksLast i db

/-- What a thread relies on: the others add no rows of a user whose rows it is removing, and revive no user. -/
structure Rely (i : Nat) (db db' : Db (database Γ)) : Prop where
  frame : Frame i db db'
  left : ∀ t u, OwnedTable.wipe t u ∈ db.stmts i → left t u db'.store ⊆ left t u db.store
  users : ∀ u, HasUser u db.store → HasUser u db'.store
  deleted : ∀ u, DeletedIn u db.store → DeletedIn u db'.store

/-- Nothing has happened yet. -/
theorem Rely.refl (i : Nat) (db : Db (database Γ)) : Rely i db db :=
  ⟨Frame.refl i db, fun _ _ _ => List.Subset.refl _, fun _ h => h, fun _ h => h⟩

/-- One period after another. -/
theorem Rely.trans {i : Nat} {db db' db'' : Db (database Γ)} (h : Rely i db db') (h' : Rely i db' db'') : Rely i db db'' := by
  refine ⟨h.frame.trans h'.frame, fun t u ht => ?_, fun u hu => h'.users u (h.users u hu),
    fun u hu => h'.deleted u (h.deleted u hu)⟩
  exact List.Subset.trans (h'.left t u (by rwa [h.frame.stmts])) (h.left t u ht)

/-- What a transaction has emptied stays so. -/
theorem Emptied.rely {i : Nat} {t : OwnedTable} {u : Uuid} {db db' : Db (database Γ)} (h : Emptied i t u db)
    (hr : Rely i db db') : Emptied i t u db' := by
  refine ⟨by rw [hr.frame.stmts]; exact h.1, ?_⟩
  have hsub := left_applyAll_mono (Γ := Γ) (hr.left t u h.1) (db.log i)
  rw [Db.view, hr.frame.log]
  exact List.eq_nil_of_subset_nil (List.Subset.trans hsub (by rw [← Db.view, h.2]; exact List.Subset.refl _))

/-- The user that a transaction has marked stays without rows in its view. -/
theorem MarksLast.rely {i : Nat} {db db' : Db (database Γ)} (h : MarksLast i db) (hr : Rely i db db') : MarksLast i db' := by
  intro w hw u hm t
  rw [hr.frame.log] at hw
  exact (h w hw u hm t).rely hr

/-- Every action in time keeps the invariant and what the others rely on, if its own transaction marks users last. -/
theorem inv_effect {db db' : Db (database Γ)} (h : Inv db) {j : Nat} {a : Act (database Γ)}
    {r : Except AuthError (Result (database Γ) a)} (he : Effect j db a r db') (hok : AddsInTime j a db)
    (hcalm : ∀ ws, Writes j db a ws → ∀ w ∈ ws, Calm w) (hmarks : MarksLast j db') :
    Inv db' ∧ ∀ i, i ≠ j → Rely i db db' := by
  have hg := h.guarded.effect he
  have hothers : (∀ i, i ≠ j → Rely i db db') → ∀ i, MarksLast i db' := by
    intro hr i
    by_cases hij : i = j
    · exact hij ▸ hmarks
    · exact (h.marksLast i).rely (hr i hij)
  have hquiet : db'.store = db.store → ∀ i, i ≠ j → Rely i db db' := by
    intro hstore i hij
    exact ⟨Frame.effect hij h.guarded he, fun t u _ => hstore ▸ List.Subset.refl _, fun u hu => hstore ▸ hu,
      fun u hu => hstore ▸ hu⟩
  rcases he.evolves with ⟨ws, hws, hstore, -, hlog⟩ | ⟨hstore, -, hlog⟩ | ⟨ha, hstore, -, hlog⟩
  · refine ⟨⟨hg, fun i w hw => ?_, hstore ▸ h.wiped, hothers (hquiet hstore)⟩, hquiet hstore⟩
    by_cases hij : i = j
    · subst hij
      rw [hlog, Function.update_self, List.mem_append] at hw
      exact hw.elim (h.calm i w) (hcalm ws hws w)
    · rw [hlog, Function.update_of_ne hij] at hw
      exact h.calm i w hw
  · refine ⟨⟨hg, fun i w hw => ?_, hstore ▸ h.wiped, hothers (hquiet hstore)⟩, hquiet hstore⟩
    by_cases hij : i = j
    · subst hij
      rw [hlog, Function.update_self] at hw
      exact absurd hw List.not_mem_nil
    · rw [hlog, Function.update_of_ne hij] at hw
      exact h.calm i w hw
  · have hnoadd : ∀ t u, Removing db j t u → ∀ w ∈ db.log j, ¬OwnedTable.Adds t u w :=
      fun t u hrem w hw hadd => hok ha w hw t u hadd hrem
    have hrely : ∀ i, i ≠ j → Rely i db db' := by
      intro i hij
      refine ⟨Frame.effect hij h.guarded he, fun t u ht => ?_, fun u hu => ?_, fun u hu => ?_⟩
      · rw [hstore]
        exact left_applyAll (hnoadd t u (Or.inr ⟨i, hij, ht⟩)) _
      · rw [hstore]
        exact hasUser_applyAll hu _
      · rw [hstore]
        obtain ⟨user, hmem, hid, -⟩ := id hu
        exact deletedIn_applyAll (h.calm j) ⟨user, hmem, hid⟩ (Or.inl hu)
    refine ⟨⟨hg, fun i w hw => ?_, fun u hu t => ?_, hothers hrely⟩, hrely⟩
    · by_cases hij : i = j
      · subst hij
        rw [hlog, Function.update_self] at hw
        exact absurd hw List.not_mem_nil
      · rw [hlog, Function.update_of_ne hij] at hw
        exact h.calm i w hw
    · rw [hstore] at hu ⊢
      rcases deletedIn_of_applyAll (h.calm j) hu with hu | ⟨w, hw, hm⟩
      · refine List.eq_nil_of_subset_nil ?_
        rw [← h.wiped u hu t]
        exact left_applyAll (hnoadd t u (Or.inl hu)) _
      · exact (h.marksLast j w hw u hm t).2

variable (Γ) in
def contract : Contract ((system (database Γ)).restrict AddsInTime) where
  inv := Inv
  rely := Rely
  guar j db db' := ∀ i, i ≠ j → Rely i db db'
  rely_refl := Rely.refl
  rely_trans := Rely.trans
  guar_rely hij _ _ hg := hg _ hij
  drift_inv := by
    rintro db _ h ⟨n, rfl⟩
    exact ⟨h.guarded, h.calm, h.wiped, h.marksLast⟩
  drift_rely := by
    rintro i db _ _ ⟨n, rfl⟩
    exact ⟨Frame.drift ⟨n, rfl⟩, fun _ _ _ => List.Subset.refl _, fun _ h => h, fun _ h => h⟩

/-! ## Threads that delete nobody -/

/-- The transaction of thread `i` marks nobody. -/
def NoMarks (i : Nat) (db : Db (database Γ)) : Prop := ∀ w ∈ db.log i, ∀ u, ¬Marks u w

/-- The kinds that neither mark nor revive a user. -/
def calm : Set Kind := { k | k ≠ .rogue ∧ k ≠ .userDelete }

/-- What a statement changes: it brings nobody back, adds no rows, and only a deletion marks a user. -/
theorem change_cases {s : Stmt} (hs : s.kind ≠ .rogue) {k : Key} {w : Write} (hw : s.change k = some w) :
    Calm w ∧ (∀ t u, ¬OwnedTable.Adds t u w) ∧ (s.kind ≠ .userDelete → ∀ u, ¬Marks u w) := by
  have hadds : ∀ t u, ¬OwnedTable.Adds t u w := by
    intro t u
    cases s <;> cases k <;> simp only [Stmt.change, Option.some.injEq, reduceCtorEq] at hw <;> subst hw <;> cases t <;> exact id
  refine ⟨?_, hadds, ?_⟩
  · cases s <;> cases k <;> simp only [Stmt.change, Option.some.injEq, reduceCtorEq] at hw <;> subst hw
    case patchUser.user id patch _ =>
      intro hp
      simp [Stmt.kind, UserPatch.kind, hp] at hs
    case markUserDeleted.user => simp [Calm]
    case modifyUser.user => simp [Calm]
    all_goals trivial
  · intro hne u hm
    cases s <;> cases k <;> simp only [Stmt.change, Option.some.injEq, reduceCtorEq] at hw <;> subst hw
    case patchUser.user id patch _ =>
      refine hs ?_
      simp [Stmt.kind, UserPatch.kind, hm.2]
    case markUserDeleted.user => exact hne rfl
    case modifyUser.user => exact hm.2 rfl
    all_goals cases hm

/-- An insert brings nobody back and marks nobody. -/
theorem insert_cases {w : Write} (hw : w.kind ≠ .rogue) : Calm w ∧ ∀ u, ¬Marks u w := by
  cases w with
  | insertUser row =>
    refine ⟨?_, fun u => id⟩
    by_contra hd
    have hd : row.deletedAt ≠ none := hd
    exact hw (by simp [Write.kind, hd])
  | patchUser id patch => exact absurd rfl hw
  | _ => exact ⟨trivial, fun u => id⟩

/-- The writes of an action bring nobody back, and only a deletion marks a user. -/
theorem writes_calm {i : Nat} {db : Db (database Γ)} {a : Act (database Γ)} {ws : List Write} (h : Writes i db a ws)
    (ha : kind a ≠ .rogue) : ∀ w ∈ ws, Calm w ∧ (kind a ≠ .userDelete → ∀ u, ¬Marks u w) := by
  intro w hw
  cases h with
  | none => exact absurd hw List.not_mem_nil
  | insert v _ _ =>
    rw [List.mem_singleton.1 hw]
    exact ⟨(insert_cases ha).1, fun _ => (insert_cases ha).2⟩
  | finish s found _ =>
    obtain ⟨k, -, hk⟩ := List.mem_filterMap.1 hw
    exact ⟨(change_cases ha hk).1, (change_cases ha hk).2.2⟩

/-- A kind of a request that deletes nobody. -/
theorem ne_of_calm {k : Kind} (h : k = .neutral ∨ k ∈ calm) : k ≠ .rogue ∧ k ≠ .userDelete := by
  rcases h with rfl | h
  · exact ⟨nofun, nofun⟩
  · exact h

/-- A transaction that deletes nobody goes on to mark nobody. -/
theorem noMarks_effect {i : Nat} {db db' : Db (database Γ)} {a : Act (database Γ)}
    {r : Except AuthError (Result (database Γ) a)} (h : NoMarks i db) (he : Effect i db a r db')
    (ha : kind a = .neutral ∨ kind a ∈ calm) : NoMarks i db' := by
  intro w hw u
  rcases he.mem_log hw with hw | ⟨ws, hws, hw⟩
  · exact h w hw u
  · exact (writes_calm hws (ne_of_calm ha).1 w hw).2 (ne_of_calm ha).2 u

/-- A transaction that marks nobody has nothing to empty. -/
theorem NoMarks.marksLast {i : Nat} {db : Db (database Γ)} (h : NoMarks i db) : MarksLast i db :=
  fun w hw u hm => absurd hm (h w hw u)

/-- The others mark nobody in this transaction. -/
theorem NoMarks.rely {i : Nat} {db db' : Db (database Γ)} (h : NoMarks i db) (hr : Rely i db db') : NoMarks i db' := by
  intro w hw
  rw [hr.frame.log] at hw
  exact h w hw

/-- A user stays in the table. -/
theorem hasUser_effect {i : Nat} {db db' : Db (database Γ)} {a : Act (database Γ)}
    {r : Except AuthError (Result (database Γ) a)} (he : Effect i db a r db') {u : Uuid} (h : HasUser u db.store) :
    HasUser u db'.store := by
  rcases he.evolves with ⟨_, _, hstore, -, -⟩ | ⟨hstore, -, -⟩ | ⟨-, hstore, -, -⟩
  · exact hstore ▸ h
  · exact hstore ▸ h
  · exact hstore ▸ hasUser_applyAll h _

/-- Nobody is marked yet, and the users that are there stay. -/
def Unmarked (i : Nat) (us : Set Uuid) (db : Db (database Γ)) : Prop := NoMarks i db ∧ ∀ u ∈ us, HasUser u db.store

/-- The others leave a thread that deletes nobody as it is. -/
theorem stable_unmarked (i : Nat) (us : Set Uuid) : Stable (contract Γ) i (Unmarked i us) :=
  fun h hr => ⟨h.1.rely hr, fun u hu => hr.users u (h.2 u hu)⟩

/-- An action that marks nobody. -/
theorem unmarked_exec {i : Nat} {us : Set Uuid} {db db' : Db (database Γ)} {a : Act (database Γ)}
    {r : Except AuthError (Result (database Γ) a)} (ha : kind a = .neutral ∨ kind a ∈ calm) (h : Unmarked i us db)
    (hinv : Inv db) (he : ((system (database Γ)).restrict AddsInTime).exec i a db r db') :
    Inv db' ∧ (∀ j, j ≠ i → Rely j db db') ∧ Unmarked i us db' := by
  have hno := noMarks_effect h.1 he.2 ha
  obtain ⟨hinv', hg⟩ := inv_effect hinv he.2 he.1 (fun ws hws w hw => (writes_calm hws (ne_of_calm ha).1 w hw).1) hno.marksLast
  exact ⟨hinv', hg, hno, fun u hu => hasUser_effect he.2 (h.2 u hu)⟩

/-- A request that deletes nobody goes on to mark nobody. -/
theorem leads_unmarked {i : Nat} {us : Set Uuid} {α : Type} {p : Service Γ α} (h : Within calm p) :
    Leads (contract Γ) i (Unmarked i us) p fun _ => Unmarked i us :=
  triple_conseq (triple_of_emits (stable_unmarked i us) unmarked_exec h) (fun _ hs => hs) fun _ _ hs _ _ => hs

/-- An operation that is no deletion marks nobody. -/
theorem kinds_subset_calm {op : Op} (h : ∀ u, ¬op.deletes u) : op.kinds ⊆ calm := by
  intro k hk
  cases op with
  | deleteAccount context => exact absurd rfl (h context.user.id)
  | adminDeleteUser actor userId => exact absurd rfl (h userId)
  | _ => cases k <;> simp_all [Op.kinds, issuing, editing, calm]

/-! ## Threads that delete a user -/

section Deletes

variable (i : Nat) (us : Set Uuid) (u : Uuid)

/-- The rows of some tables are removed, nobody is marked yet. -/
def Emptying (ts : List OwnedTable) (db : Db (database Γ)) : Prop :=
  Unmarked i us db ∧ ∀ t ∈ ts, Emptied i t u db

/-- The tables that are emptied stay so. -/
theorem stable_emptying (ts : List OwnedTable) : Stable (contract Γ) i (Emptying i us u ts) :=
  fun h hr => ⟨stable_unmarked i us h.1 hr, fun t ht => (h.2 t ht).rely hr⟩

/-- As `Emptying`, with the rows that a `DELETE` has found. -/
def Finding (ts : List OwnedTable) (t : OwnedTable) (found : List Key) (db : Db (database Γ)) : Prop :=
  Emptying i us u ts db ∧ t.wipe u ∈ db.stmts i ∧ left t u (db.view i) ⊆ found

/-- The rows that were found, and the tables that are emptied, stay so. -/
theorem stable_finding (ts : List OwnedTable) (t : OwnedTable) (found : List Key) :
    Stable (contract Γ) i (Finding i us u ts t found) := by
  intro db db' h hr
  refine ⟨stable_emptying i us u ts h.1 hr, by rw [hr.frame.stmts]; exact h.2.1, ?_⟩
  rw [Db.view, hr.frame.log]
  exact List.Subset.trans (left_applyAll_mono (hr.left t u h.2.1) (db.log i)) h.2.2

theorem kind_wipe (t : OwnedTable) (u : Uuid) : (t.wipe u).kind = .neutral := by
  cases t <;> rfl

/-- An item that survives deletions was there before, and none of them was its own. -/
theorem mem_items_of_deletes {ws : List Write} (h : ∀ w ∈ ws, ∀ x, w ≠ .insertItem x) {S : Store} {x : SampleItem}
    (hx : x ∈ (applyAll (D := database Γ) ws S).items) : x ∈ S.items ∧ Write.deleteItem x.id ∉ ws := by
  induction ws generalizing S with
  | nil => exact ⟨hx, List.not_mem_nil⟩
  | cons w ws ih =>
    obtain ⟨hx, hno⟩ := ih (fun w' hw' => h w' (List.mem_cons_of_mem _ hw')) hx
    rcases mem_items_apply.1 hx with ⟨hx, hw⟩ | hw
    · refine ⟨hx, fun hmem => ?_⟩
      rcases List.mem_cons.1 hmem with heq | hmem
      · exact hw heq.symm
      · exact hno hmem
    · exact absurd hw (h w List.mem_cons_self x)

/-- A role that is left after writes that insert none was there before, and none of them deletes it. -/
theorem mem_roles_of_deletes {ws : List Write} (h : ∀ w ∈ ws, ∀ x, w ≠ .insertRole x) {S : Store} {x : UserRole}
    (hx : x ∈ (applyAll (D := database Γ) ws S).roles) : x ∈ S.roles ∧ Write.deleteRole x.id ∉ ws := by
  induction ws generalizing S with
  | nil => exact ⟨hx, List.not_mem_nil⟩
  | cons w ws ih =>
    obtain ⟨hx, hno⟩ := ih (fun w' hw' => h w' (List.mem_cons_of_mem _ hw')) hx
    rcases mem_roles_apply.1 hx with ⟨hx, hw⟩ | hw
    · refine ⟨hx, fun hmem => ?_⟩
      rcases List.mem_cons.1 hmem with heq | hmem
      · exact hw heq.symm
      · exact hno hmem
    · exact absurd hw (h w List.mem_cons_self x)

/-- A `DELETE` that found all rows of the user leaves none. -/
theorem left_changes {t : OwnedTable} {u : Uuid} {found : List Key} {i : Nat} {db : Db (database Γ)}
    (h : left t u (db.view i) ⊆ found) :
    left t u (applyAll (D := database Γ) (changes db i (t.wipe u) found) (db.view i)) = [] := by
  have hmem : ∀ k ∈ left t u (db.view i), ∀ w, (t.wipe u).change k = some w → w ∈ changes db i (t.wipe u) found := by
    intro k hk w hw
    refine List.mem_filterMap.2 ⟨k, List.mem_filter.2 ⟨h hk, ?_⟩, hw⟩
    exact decide_eq_true hk
  have hdelete : ∀ w ∈ changes db i (t.wipe u) found, (∀ x, w ≠ .insertItem x) ∧ ∀ x, w ≠ .insertRole x := by
    intro w hw
    obtain ⟨k, -, hk⟩ := List.mem_filterMap.1 hw
    cases t <;> cases k <;> cases hk <;> exact ⟨nofun, nofun⟩
  refine List.eq_nil_iff_forall_not_mem.2 fun k hk => ?_
  cases t with
  | items =>
    obtain ⟨x, hx, hu, rfl⟩ := mem_left_items.1 hk
    obtain ⟨hx, hno⟩ := mem_items_of_deletes (fun w hw => (hdelete w hw).1) hx
    exact hno (hmem (.item x.id) (mem_left_items.2 ⟨x, hx, hu, rfl⟩) _ rfl)
  | roles =>
    obtain ⟨x, hx, hu, rfl⟩ := mem_left_roles.1 hk
    obtain ⟨hx, hno⟩ := mem_roles_of_deletes (fun w hw => (hdelete w hw).2) hx
    exact hno (hmem (.role x.id) (mem_left_roles.2 ⟨x, hx, hu, rfl⟩) _ rfl)

/-- A statement leaves no more of a user than there was. -/
theorem left_changes_subset {s : Stmt} (hs : s.kind ≠ .rogue) {t : OwnedTable} {u : Uuid} {found : List Key} {i : Nat}
    {db : Db (database Γ)} :
    left t u (applyAll (D := database Γ) (changes db i s found) (db.view i)) ⊆ left t u (db.view i) := by
  refine left_applyAll (fun w hw => ?_) _
  obtain ⟨k, -, hk⟩ := List.mem_filterMap.1 hw
  exact (change_cases hs hk).2.1 t u

/-- The start of a statement fills no table. -/
theorem emptied_note {i : Nat} {t : OwnedTable} {u : Uuid} {db : Db (database Γ)} (h : Emptied i t u db) (s : Stmt) :
    Emptied i t u (db.note i s) :=
  ⟨by rw [Db.stmts_note]; exact List.mem_append_left _ h.1, by rw [Db.view_note]; exact h.2⟩

/-- The end of a statement fills no table. -/
theorem emptied_finish {i : Nat} {t : OwnedTable} {u : Uuid} {db : Db (database Γ)} (h : Emptied i t u db) {s : Stmt}
    (hs : s.kind ≠ .rogue) (found locked : List Key) : Emptied i t u (db.write i (changes db i s found) locked) := by
  refine ⟨by rw [Db.stmts_write]; exact h.1, List.eq_nil_of_subset_nil ?_⟩
  rw [Db.view_write, ← h.2]
  exact left_changes_subset hs

/-- The `DELETE` of a table empties it for the user. -/
theorem leads_wipe (ts : List OwnedTable) (t : OwnedTable) :
    Leads (contract Γ) i (Emptying i us u ts) (modify (t.wipe u)) fun _ => Emptying i us u (t :: ts) := by
  have hkind : (t.wipe u).kind ≠ .rogue := by
    rw [kind_wipe]
    exact nofun
  refine leads_bind (Q := fun found => Finding i us u ts t found) ?_ fun found => ?_
  · refine leads_perform (stable_emptying i us u ts) (stable_finding i us u ts t) fun {db r db'} h hinv he => ?_
    obtain ⟨hinv', hg, hun⟩ := unmarked_exec (a := .start (t.wipe u)) (Or.inl (kind_wipe t u)) h.1 hinv he
    refine ⟨hinv', hg, fun found hr => ?_⟩
    cases he.2 with
    | start s =>
      obtain rfl := Except.ok.inj hr
      refine ⟨⟨hun, fun t' ht' => emptied_note (h.2 t' ht') _⟩, ?_, ?_⟩
      · rw [Db.stmts_note]
        exact List.mem_append_right _ (List.mem_singleton_self _)
      · rw [Db.view_note]
        exact List.Subset.refl _
    | fault a e => cases hr
  · refine leads_perform (stable_finding i us u ts t found) (fun _ => stable_emptying i us u (t :: ts)) fun {db r db'} h hinv he => ?_
    obtain ⟨hinv', hg, hun⟩ := unmarked_exec (a := .finish (t.wipe u) found) (Or.inl (kind_wipe t u)) h.1.1 hinv he
    refine ⟨hinv', hg, fun rows hr => ⟨hun, fun t' ht' => ?_⟩⟩
    cases he.2 with
    | finish s found hfree hv =>
      rcases List.mem_cons.1 ht' with rfl | ht'
      · exact ⟨by rw [Db.stmts_write]; exact h.2.1, by rw [Db.view_write]; exact left_changes h.2.2⟩
      · exact emptied_finish (h.1.2 t' ht') hkind _ _
    | fault a e => cases hr

/-- The user is marked, in the store or in the log of thread `i`. -/
def Marked (db : Db (database Γ)) : Prop :=
  HasUser u db.store ∧ (DeletedIn u db.store ∨ ∃ w ∈ db.log i, Marks u w)

/-- All rows of the user are removed, and the user is marked, and no other. -/
structure Cleared (db : Db (database Γ)) : Prop where
  only : ∀ w ∈ db.log i, ∀ v, Marks v w → v = u
  emptied : ∀ t, Emptied i t u db
  marked : u ∈ us → Marked i u db

/-- A user that is cleared stays so. -/
theorem stable_cleared : Stable (contract Γ) i (Cleared i us u) := by
  intro db db' h hr
  refine ⟨by rw [hr.frame.log]; exact h.only, fun t => (h.emptied t).rely hr, fun hu => ⟨hr.users u (h.marked hu).1, ?_⟩⟩
  rw [hr.frame.log]
  exact (h.marked hu).2.imp_left (hr.deleted u)

variable {i us u}

/-- A user is marked when nothing of it is left. -/
theorem Cleared.marksLast {db : Db (database Γ)} (h : Cleared i us u db) : MarksLast i db := by
  intro w hw v hm t
  rw [h.only w hw v hm]
  exact h.emptied t

/-- What a deletion does besides. -/
def aside : Set Kind := {.auditDeletion, .sessionRevoke}

/-- Audit logs and revocations add no rows of a user. -/
theorem adds_kind {a : Act (database Γ)} {i : Nat} {db : Db (database Γ)} {ws : List Write} (h : Writes i db a ws)
    (ha : kind a = .neutral ∨ kind a ∈ aside) {w : Write} (hw : w ∈ ws) (t : OwnedTable) (u : Uuid) : ¬t.Adds u w := by
  have hne : kind a ≠ .rogue ∧ ∀ v, kind a ≠ .owned v := by
    rcases ha with ha | ha | (ha : kind a = _) <;> simp [ha]
  cases h with
  | none => exact absurd hw List.not_mem_nil
  | insert v _ _ =>
    rw [List.mem_singleton.1 hw]
    intro hadd
    cases v with
    | insertItem row => exact hne.2 _ rfl
    | insertRole row => exact hne.2 _ rfl
    | _ => cases t <;> cases hadd
  | finish s found _ =>
    obtain ⟨k, -, hk⟩ := List.mem_filterMap.1 hw
    exact (change_cases hne.1 hk).2.1 t u

/-- Audit logs and revocations leave the user cleared. -/
theorem cleared_exec {db db' : Db (database Γ)} {a : Act (database Γ)}
    {r : Except AuthError (Result (database Γ) a)} (ha : kind a = .neutral ∨ kind a ∈ aside) (h : Cleared i us u db)
    (hinv : Inv db) (he : ((system (database Γ)).restrict AddsInTime).exec i a db r db') :
    Inv db' ∧ (∀ j, j ≠ i → Rely j db db') ∧ Cleared i us u db' := by
  have hne : kind a ≠ .rogue ∧ kind a ≠ .bracket ∧ kind a ≠ .userDelete := by
    rcases ha with ha | ha | (ha : kind a = _) <;> simp [ha]
  obtain ⟨hstore, -, ⟨ws, hws, hlog⟩, hstmts⟩ := he.2.inside (isBracket_of_kind hne.2.1)
  have hclear : Cleared i us u db' := by
    refine ⟨fun w hw v hm => ?_, fun t => ⟨hstmts (h.emptied t).1, ?_⟩, fun hu => ⟨hstore ▸ (h.marked hu).1, ?_⟩⟩
    · rw [hlog, List.mem_append] at hw
      rcases hw with hw | hw
      · exact h.only w hw v hm
      · exact absurd hm ((writes_calm hws hne.1 w hw).2 hne.2.2 v)
    · rw [Db.view, hlog, hstore, applyAll_append]
      refine List.eq_nil_of_subset_nil ?_
      rw [← (h.emptied t).2]
      exact left_applyAll (fun w hw => adds_kind hws ha hw t u) _
    · rw [hstore, hlog]
      refine (h.marked hu).2.imp_right ?_
      rintro ⟨w, hw, hm⟩
      exact ⟨w, List.mem_append_left _ hw, hm⟩
  obtain ⟨hinv', hg⟩ := inv_effect hinv he.2 he.1 (fun ws hws w hw => (writes_calm hws hne.1 w hw).1) hclear.marksLast
  exact ⟨hinv', hg, hclear⟩

/-- A program of audit logs and revocations leaves the user cleared. -/
theorem leads_cleared {α : Type} {p : Service Γ α} (h : Within aside p) :
    Leads (contract Γ) i (Cleared i us u) p fun _ => Cleared i us u :=
  triple_conseq (triple_of_emits (stable_cleared i us u) cleared_exec h) (fun _ hs => hs) fun _ _ hs _ _ => hs

/-! ### The mark -/

variable (i us u)

/-- Both tables are emptied; the user is marked already, or was found by the statement that marks. -/
def Marking (found : List Key) (db : Db (database Γ)) : Prop :=
  Emptying i us u [.roles, .items] db ∧ (u ∈ us → DeletedIn u db.store ∨ .user u ∈ found)

/-- The row that the mark has found stays. -/
theorem stable_marking (found : List Key) : Stable (contract Γ) i (Marking i us u found) :=
  fun h hr => ⟨stable_emptying i us u _ h.1 hr, fun hu => (h.2 hu).imp_left (hr.deleted u)⟩

/-- A user of whom no row is live is marked. -/
theorem deletedIn_or_live {u : Uuid} {S : Store} (h : HasUser u S) (t : DateTime) :
    DeletedIn u S ∨ Key.user u ∈ (Stmt.markUserDeleted u t).rows S := by
  obtain ⟨user, hmem, hid⟩ := h
  by_cases hd : user.deletedAt = none
  · refine Or.inr (List.mem_map.2 ⟨user, List.mem_filter.2 ⟨hmem, ?_⟩, by rw [hid]⟩)
    simp [hid, hd]
  · exact Or.inl ⟨user, hmem, hid, hd⟩

/-- A thread that marks nobody sees only committed deletions. -/
theorem deletedIn_store {i : Nat} {u : Uuid} {db : Db (database Γ)} (hinv : Inv db) (hno : NoMarks i db)
    (h : DeletedIn u (db.view i)) : DeletedIn u db.store := by
  rcases deletedIn_of_applyAll (hinv.calm i) h with h | ⟨w, hw, hm⟩
  · exact h
  · exact absurd hm (hno w hw u)

/-- The `UPDATE` that marks the user, when its rows are gone. -/
theorem leads_mark (t : DateTime) :
    Leads (contract Γ) i (Emptying i us u [.roles, .items]) (modify (.markUserDeleted u t)) fun _ => Cleared i us u := by
  refine leads_bind (Q := fun found => Marking i us u found) ?_ fun found => ?_
  · refine leads_perform (stable_emptying i us u _) (stable_marking i us u) fun {db r db'} h hinv he => ?_
    have hno : NoMarks i db' := by
      intro w hw v
      rcases he.2.mem_log hw with hw | ⟨ws, hws, hw⟩
      · exact h.1.1 w hw v
      · cases hws
        exact absurd hw List.not_mem_nil
    obtain ⟨hinv', hg⟩ := inv_effect hinv he.2 he.1 (fun ws hws w hw => (writes_calm hws (by simp [kind, Stmt.kind]) w hw).1) hno.marksLast
    refine ⟨hinv', hg, fun found hr => ?_⟩
    cases he.2 with
    | start s =>
      obtain rfl := Except.ok.inj hr
      refine ⟨⟨⟨hno, h.1.2⟩, fun t' ht' => emptied_note (h.2 t' ht') _⟩, fun hu => ?_⟩
      rcases deletedIn_or_live (hasUser_applyAll (h.1.2 u hu) (db.log i)) t with hd | hl
      · exact Or.inl (show DeletedIn u db.store from deletedIn_store hinv h.1.1 hd)
      · exact Or.inr hl
    | fault a e => cases hr
  · refine leads_perform (stable_marking i us u found) (fun _ => stable_cleared i us u) fun {db r db'} h hinv he => ?_
    have hcalm : ∀ ws, Writes i db (.finish (.markUserDeleted u t) found) ws → ∀ w ∈ ws, Calm w :=
      fun ws hws w hw => (writes_calm hws (by simp [kind, Stmt.kind]) w hw).1
    cases he.2 with
    | finish s found hfree hv =>
      have hclear : Cleared i us u (db.write i (changes db i (.markUserDeleted u t) found)
          (stillThere db i (.markUserDeleted u t) found)) := by
        refine ⟨fun w hw v hm => ?_, fun t' => ?_, fun hu => ⟨h.1.1.2 u hu, ?_⟩⟩
        · rw [Db.log_write, List.mem_append] at hw
          rcases hw with hw | hw
          · exact absurd hm (h.1.1.1 w hw v)
          · obtain ⟨k, hk, hkw⟩ := List.mem_filterMap.1 hw
            obtain ⟨user, huser, rfl⟩ := List.mem_map.1 (mem_of_mem_stillThere hk).2
            obtain rfl := Option.some.inj hkw
            have hid := (List.mem_filter.1 huser).2
            simp only [Bool.and_eq_true, decide_eq_true_eq] at hid
            exact hm.1.symm.trans hid.1
        · exact emptied_finish (h.1.2 t' (by cases t' <;> simp)) (by simp [Stmt.kind]) _ _
        · rw [Db.log_write, Db.store_write]
          rcases h.2 hu with hd | hf
          · exact Or.inl hd
          · rcases deletedIn_or_live (hasUser_applyAll (h.1.1.2 u hu) (db.log i)) t with hd | hl
            · exact Or.inl (deletedIn_store hinv h.1.1.1 hd)
            · refine Or.inr ⟨_, List.mem_append_right _ (List.mem_filterMap.2 ⟨.user u, ?_, rfl⟩), rfl, by simp⟩
              exact List.mem_filter.2 ⟨hf, decide_eq_true hl⟩
      obtain ⟨hinv', hg⟩ := inv_effect hinv he.2 he.1 hcalm hclear.marksLast
      exact ⟨hinv', hg, fun _ _ => hclear⟩
    | fault a e =>
      obtain ⟨hinv', hg⟩ := inv_effect hinv he.2 he.1 hcalm (hinv.marksLast i)
      exact ⟨hinv', hg, fun _ hr => by cases hr⟩

/-! ### The programs -/

/-- A neutral action fills no table that is emptied. -/
theorem emptying_exec {ts : List OwnedTable} {db db' : Db (database Γ)} {a : Act (database Γ)}
    {r : Except AuthError (Result (database Γ) a)} (ha : kind a = .neutral ∨ kind a ∈ (∅ : Set Kind))
    (h : Emptying i us u ts db) (hinv : Inv db) (he : ((system (database Γ)).restrict AddsInTime).exec i a db r db') :
    Inv db' ∧ (∀ j, j ≠ i → Rely j db db') ∧ Emptying i us u ts db' := by
  have hk : kind a = .neutral := ha.elim id fun hno => absurd hno (Set.notMem_empty _)
  obtain ⟨hinv', hg, hun⟩ := unmarked_exec (Or.inl hk) h.1 hinv he
  obtain ⟨hstore, -, ⟨ws, hws, hlog⟩, hstmts⟩ := he.2.inside (isBracket_of_kind (by rw [hk]; exact nofun))
  refine ⟨hinv', hg, hun, fun t ht => ⟨hstmts (h.2 t ht).1, List.eq_nil_of_subset_nil ?_⟩⟩
  rw [Db.view, hlog, hstore, applyAll_append, ← (h.2 t ht).2]
  exact left_applyAll (fun w hw => adds_kind hws (Or.inl hk) hw t u) _

/-- A neutral program fills no table that is emptied. -/
theorem leads_emptying {ts : List OwnedTable} {α : Type} {p : Service Γ α} (h : Within ∅ p) :
    Leads (contract Γ) i (Emptying i us u ts) p fun _ => Emptying i us u ts :=
  triple_conseq (triple_of_emits (stable_emptying i us u ts) (emptying_exec i us u) h) (fun _ hs => hs) fun _ _ hs _ _ => hs

/-- `mark_user_deleted` clears the user. -/
theorem leads_markUserDeleted (deletedAt : DateTime) (sessionId : Option Uuid) (ip : Option Text) :
    Leads (contract Γ) i (Emptying i us u [.roles, .items]) (markUserDeleted u deletedAt sessionId ip)
      fun _ => Cleared i us u := by
  refine leads_bind (leads_mark i us u deletedAt) fun rows => leads_cleared ?_
  have hget : Within aside (markedUser u : Service Γ User) := within_markedUser
  split
  · exact hget
  · exact (within_insertAudit (Or.inr (by simp [aside]))).bind fun _ => hget

/-- The deletions of a wipe, one table after the other, and the mark. -/
theorem leads_wipeUser (deletedAt : DateTime) (sessionId : Uuid) (ip : Option Text) :
    Leads (contract Γ) i (Emptying i us u []) (wipeUser u deletedAt sessionId ip) fun _ => Cleared i us u := by
  refine leads_bind (Q := fun _ => Emptying i us u [.items]) ?_ fun _ => ?_
  · exact leads_bind (leads_wipe i us u [] .items) fun _ => leads_pure (stable_emptying i us u _) fun _ h => h
  refine leads_bind (Q := fun _ => Emptying i us u [.roles, .items]) ?_ fun _ => ?_
  · exact leads_bind (leads_wipe i us u [.items] .roles) fun _ => leads_pure (stable_emptying i us u _) fun _ h => h
  refine leads_bind (leads_emptying i us u (within_deleteAuthIdentitiesForUser u)) fun _ => ?_
  refine leads_bind (leads_markUserDeleted i us u deletedAt (some sessionId) ip) fun _ => ?_
  exact leads_cleared ((within_revokeSessionsForUser (by simp [aside])).bind fun _ => within_pure _)

/-- The user of a thread is deleted, if there is one. -/
def Deleted (db : Db (database Γ)) : Prop := u ∈ us → DeletedIn u db.store

theorem stable_deleted : Stable (contract Γ) i (Deleted us u) := fun h hr hu => hr.deleted u (h hu)

/-- The commit of a deletion deletes the user. -/
theorem leads_commit : Leads (contract Γ) i (Cleared i us u) (commit : Service Γ Unit) fun _ => Deleted us u := by
  refine leads_perform (stable_cleared i us u) (fun _ => stable_deleted i us u) fun {db r db'} h hinv he => ?_
  have hlog : NoMarks i db' := by
    intro w hw
    cases he.2 with
    | commit => simp at hw
    | fault a e => simp [Db.abort] at hw
  obtain ⟨hinv', hg⟩ := inv_effect hinv he.2 he.1 (fun ws hws w hw => (writes_calm hws (by simp [kind]) w hw).1) hlog.marksLast
  refine ⟨hinv', hg, fun _ hr hu => ?_⟩
  cases he.2 with
  | commit => exact deletedIn_applyAll (hinv.calm i) (h.marked hu).1 (h.marked hu).2
  | fault a e => cases hr

/-- After an error of the body only the rollback is left. -/
theorem leads_rollback : Leads (contract Γ) i (fun _ => True) (rollback : Service Γ Unit) fun _ _ => True := by
  refine leads_perform (fun _ _ => trivial) (fun _ _ _ _ _ => trivial) fun {db r db'} _ hinv he => ?_
  have hlog : NoMarks i db' := by
    intro w hw
    cases he.2 with
    | rollback => simp at hw
    | fault a e => simp [Db.abort] at hw
  obtain ⟨hinv', hg⟩ := inv_effect hinv he.2 he.1 (fun ws hws w hw => (writes_calm hws (by simp [kind]) w hw).1) hlog.marksLast
  exact ⟨hinv', hg, fun _ _ => trivial⟩

/-- The transaction of a deletion: the rows of the user are removed and the user is marked, and then other things happen. -/
theorem leads_deletion {deletedAt : DateTime} {sessionId : Uuid} {ip : Option Text} {rest : Service Γ Unit}
    (h : Within aside rest) :
    Leads (contract Γ) i (Unmarked i us) (transaction do
      wipeUser u deletedAt sessionId ip
      rest) fun _ => Deleted us u :=
  leads_transaction (leads_conseq (leads_unmarked (within_begin (by simp [calm]))) (fun _ h => h)
      fun _ _ h => ⟨h, List.forall_mem_nil _⟩)
    (leads_bind (leads_wipeUser i us u deletedAt sessionId ip) fun _ => leads_cleared h) (fun _ => leads_commit i us u)
    (fun _ => stable_deleted i us u) (leads_rollback i)

/-- `delete_account` ends with its own user deleted. -/
theorem leads_deleteAccount (context : AuthenticatedSessionContext) (email : Text) (password ip agent : Option Text) :
    Leads (contract Γ) i (Unmarked i us) (deleteAccount context email password ip agent)
      fun _ => Deleted us context.user.id := by
  have hb : Kind.bracket ∈ calm := by simp [calm]
  refine leads_bind (leads_unmarked (within_require _ _)) fun _ => leads_bind (leads_unmarked (within_requireReauth hb)) fun _ =>
    leads_bind (leads_unmarked within_utcnow) fun deletedAt => ?_
  exact leads_transaction (leads_conseq (leads_unmarked (within_begin hb)) (fun _ h => h)
      fun _ _ h => ⟨h, List.forall_mem_nil _⟩)
    (leads_wipeUser i us _ deletedAt _ ip) (fun _ => leads_commit i us _) (fun _ => stable_deleted i us _) (leads_rollback i)

/-- `delete_user` ends with the user deleted that was asked for. -/
theorem leads_adminDeleteUser (actor : AuthenticatedSessionContext) (ip agent : Option Text) :
    Leads (contract Γ) i (Unmarked i us) (adminDeleteUser actor u ip agent) fun _ => Deleted us u := by
  -- the user that `get_user` returns has the id that was asked for
  have hquery : Leads (contract Γ) i (Unmarked i us) (query (.liveUserById u) : Service Γ (List User))
      fun (xs : List User) db => Unmarked i us db ∧ ∀ user ∈ xs, user.id = u := by
    refine leads_perform (stable_unmarked i us) (fun xs _ _ h hr => ⟨stable_unmarked i us h.1 hr, h.2⟩)
      fun h hinv he => ?_
    obtain ⟨hinv', hg, hun⟩ := unmarked_exec (Or.inl rfl) h hinv he
    refine ⟨hinv', hg, fun xs hr => ⟨hun, fun user huser => ?_⟩⟩
    cases he.2 with
    | query q =>
      obtain rfl := Except.ok.inj hr
      have hid := (List.mem_filter.1 huser).2
      simp only [Bool.and_eq_true, decide_eq_true_eq] at hid
      exact hid.1
    | fault a e => cases hr
  have hget : Leads (contract Γ) i (Unmarked i us) (getUser u : Service Γ (Option User))
      fun found db => Unmarked i us db ∧ ∀ user, found = some user → user.id = u := by
    refine leads_bind hquery fun xs => ?_
    have hstable : ∀ found : Option User, Stable (contract Γ) i
        fun db => Unmarked i us db ∧ ∀ user, found = some user → user.id = u :=
      fun _ _ _ h hr => ⟨stable_unmarked i us h.1 hr, h.2⟩
    rcases xs with _ | ⟨x, _ | ⟨y, ys⟩⟩
    · exact leads_pure (hstable none) fun _ h => ⟨h.1, nofun⟩
    · refine leads_pure (hstable (some x)) fun _ h => ⟨h.1, fun user huser => ?_⟩
      exact Option.some.inj huser ▸ h.2 x List.mem_cons_self
    · exact leads_throw _
  refine leads_bind hget fun found => ?_
  cases found with
  | none => exact leads_throw _
  | some user =>
    intro db hdb
    obtain rfl := hdb.2 user rfl
    refine leads_bind (leads_unmarked within_utcnow) (fun deletedAt => ?_) db hdb.1
    exact leads_deletion i us user.id (within_createAuditLog (Or.inl rfl) (by simp [adminAudit]))

/-- An operation that deletes a user ends with that user deleted. -/
theorem leads_deletes {op : Op} (h : op.deletes u) :
    Leads (contract Γ) i (Unmarked i us) (program Γ op) fun _ => Deleted us u := by
  cases op with
  | deleteAccount context email password ip agent =>
    obtain rfl : u = context.user.id := h
    exact leads_bind (leads_deleteAccount i us context email password ip agent) fun _ =>
      leads_pure (stable_deleted i us _) fun _ h => h
  | adminDeleteUser actor userId ip agent =>
    obtain rfl : u = userId := h
    exact leads_bind (leads_adminDeleteUser i us u actor ip agent) fun _ => leads_pure (stable_deleted i us _) fun _ h => h
  | _ => cases h

end Deletes

/-- An operation deletes one user. -/
theorem deletes_unique {op : Op} {u v : Uuid} (hu : op.deletes u) (hv : op.deletes v) : u = v := by
  cases op with
  | deleteAccount context email password ip agent => exact Eq.trans (b := context.user.id) hu hv.symm
  | adminDeleteUser actor userId ip agent => exact Eq.trans (b := userId) hu hv.symm
  | _ => cases hu

/-- Every thread keeps the contract, and one that deletes a user ends with the user deleted. -/
theorem sat_program (i : Nat) (us : Set Uuid) (op : Op) {db : Db (database Γ)} (h : Unmarked i us db) :
    Sat (contract Γ) i (fun r db => ∀ u, op.deletes u → u ∈ us → ∀ a, r = .ok a → DeletedIn u db.store) (program Γ op) db := by
  by_cases hd : ∃ u, op.deletes u
  · obtain ⟨u, hu⟩ := hd
    refine (leads_deletes i us u hu db h).conseq fun r db hr v hv hmem a ha => ?_
    obtain rfl := deletes_unique hu hv
    exact hr a ha hmem
  · have hno : ∀ u, ¬op.deletes u := fun u hu => hd ⟨u, hu⟩
    exact (leads_unmarked ((within_program op).mono (kinds_subset_calm hno)) db h).conseq
      fun r db _ v hv => absurd hv (hno v)

end DeletionAux

open DeletionAux

/-- In every run in which no row of a user is added while or after the user's rows are removed: a deleted user has no items and
no roles, and a deletion that has ended has wiped its user. -/
theorem deletion_wipes (ops : Nat → Op) (store : Store) (env : Env) (hstore : ∀ u, DeletedIn u store → WipedOf u store)
    {c : Configuration Γ} (h : ReachesInTime Γ (start Γ ops store env) c) :
    (∀ u, DeletedIn u c.state.store → WipedOf u c.state.store) ∧
    ∀ i u, (ops i).deletes u → HasUser u store → c.threads i = .done (.ok .done) →
      DeletedIn u c.state.store ∧ WipedOf u c.state.store := by
  have hinv0 : Inv (atRest Γ store env) :=
    ⟨guarded_atRest store env, fun i => List.forall_mem_nil _, fun u hu t => left_of_wipedOf (hstore u hu) t,
      fun i => List.forall_mem_nil _⟩
  have hunmarked : ∀ i, Unmarked i { u | HasUser u store } (atRest Γ store env) :=
    fun _ => ⟨List.forall_mem_nil _, fun u hu => hu⟩
  have hsat0 := fun i => sat_program i { u | HasUser u store } (ops i) (hunmarked i)
  obtain ⟨hinv, hsat⟩ := sat_of_reaches (c := start Γ ops store env) hinv0 hsat0 h
  have hwiped : ∀ u, DeletedIn u c.state.store → WipedOf u c.state.store := fun u hu => wipedOf_of_left (hinv.wiped u hu)
  refine ⟨hwiped, fun i u hop hu hdone => ?_⟩
  have hi := hsat i
  rw [hdone] at hi
  have hdel := hi c.state (Rely.refl i c.state) u hop hu _ rfl
  exact ⟨hdel, hwiped u hdel⟩

namespace LateItem

def Γ₀ : Ctx := Ctx.readable [] fun _ => .error .oidcTokenExchange

def user : User := ⟨1, "ann@example.com".toList, some "$secret".toList, true, .en, 0, 0, none, none⟩

def session : AuthSession := ⟨2, 1, "#s".toList, "#c".toList, 0, 0, 1000000, none, none, none, none⟩

def context : AuthenticatedSessionContext := ⟨user, session, [], []⟩

def store : Store := { Store.empty with users := [user], sessions := [session] }

def env : Env := ⟨5000, [], 3, 0, 0, 0⟩

/-- A request for a new item and the deletion of the account, by one user. -/
def ops : Nat → Op
  | 0 => .createItem (some "s".toList) none none "note".toList none
  | 1 => .deleteAccount context "ann@example.com".toList (some "secret".toList) none none
  | _ => .logout none none none

/-- The request is authenticated and about to insert when the whole deletion runs. -/
def schedule : List (Move (database Γ₀)) :=
  List.replicate 11 (.run 0) ++ List.replicate 19 (.run 1) ++ List.replicate 3 (.run 0)

end LateItem

open LateItem in
/-- A request is authenticated, the user's account is deleted, and then the request inserts its item: all have finished, and
the deleted user has an item. -/
theorem deletion_wipes_late_item_false :
    ¬∀ c, Reaches Γ₀ (start Γ₀ ops store env) c → (∀ i, ∃ r, c.threads i = .done r) → c.threads 1 = .done (.ok .done) →
      WipedOf 1 c.state.store := by
  intro hclaim
  obtain ⟨c, hc⟩ := Option.isSome_iff_exists.1 (show (play schedule (start Γ₀ ops store env)).isSome = true by decide)
  have hitems : (play schedule (start Γ₀ ops store env)).map (fun c => c.state.store.items.map SampleItem.ownerUserId) =
      some [1] := by decide
  have h0 : ∃ r, (play schedule (start Γ₀ ops store env)).map (fun c => c.threads 0) = some (.done r) := ⟨_, rfl⟩
  have h1 : (play schedule (start Γ₀ ops store env)).map (fun c => c.threads 1) = some (.done (.ok .done)) := rfl
  obtain ⟨r, h0⟩ := h0
  rw [hc] at hitems h0 h1
  have hreach := reaches_of_play hc
  have hdone : ∀ i, ∃ r, c.threads i = .done r := by
    intro i
    match i with
    | 0 => exact ⟨r, Option.some.inj h0⟩
    | 1 => exact ⟨_, Option.some.inj h1⟩
    | n + 2 => exact ⟨_, done_of_reaches (c := start Γ₀ ops store env) rfl hreach⟩
  have hmem : 1 ∈ c.state.store.items.map SampleItem.ownerUserId := by
    have : c.state.store.items.map SampleItem.ownerUserId = [1] := Option.some.inj hitems
    rw [this]
    exact List.mem_singleton_self _
  obtain ⟨item, hitem, howner⟩ := List.mem_map.1 hmem
  exact (hclaim c hreach hdone (Option.some.inj h1)).1 item hitem howner

namespace LateItem

/-- The user has an item and a role. -/
def stocked : Store :=
  { store with
    items := [⟨10, 1, "note".toList, none, false, 0, 0⟩]
    roles := [⟨11, 1, "admin".toList, 0, none⟩] }

/-- The deletion has begun when the request inserts and commits its item, and only then removes the user's rows. -/
def scheduleInTime : List (Move (database Γ₀)) :=
  List.replicate 11 (.run 0) ++ List.replicate 3 (.run 1) ++ List.replicate 3 (.run 0) ++ List.replicate 16 (.run 1)

/-- The user is not deleted, and the other one of the two threads has not started to remove the user's rows. -/
def early (i : Nat) (t : OwnedTable) (u : Uuid) (db : Db (database Γ₀)) : Bool :=
  (db.store.users.all fun user => user.id ≠ u ∨ user.deletedAt = none) && ([0, 1].all fun j => j = i ∨ t.wipe u ∉ db.stmts j)

/-- The items and roles that the action commits are early. -/
def addsEarly (i : Nat) (a : Act (database Γ₀)) (db : Db (database Γ₀)) : Bool :=
  match a with
  | .commit => (db.log i).all fun w => match w with
    | .insertItem row => early i .items row.ownerUserId db
    | .insertRole row => early i .roles row.userId db
    | _ => true
  | _ => true

/-- Only the two threads have started statements, and open transactions have locked what they wrote. -/
def TwoThreads (db : Db (database Γ₀)) : Prop := Guarded db ∧ ∀ j, 1 < j → db.stmts j = []

/-- Moves of the two threads leave the others without statements. -/
theorem twoThreads_of_run {i : Nat} (hi : i ≤ 1) {c c' : Configuration Γ₀} (h : TwoThreads c.state)
    (hmove : move (.run i) c = some c') : TwoThreads c'.state := by
  obtain ⟨a, r, he⟩ := effect_of_run hmove
  refine ⟨h.1.effect he, fun j hj => ?_⟩
  rw [(Frame.effect (by omega) h.1 he).stmts]
  exact h.2 j hj

/-- An early row belongs to no user whose rows are being removed. -/
theorem not_removing_of_early {i : Nat} {t : OwnedTable} {u : Uuid} {db : Db (database Γ₀)} (h : TwoThreads db)
    (hearly : early i t u db = true) : ¬Removing db i t u := by
  simp only [early, Bool.and_eq_true, List.all_eq_true, decide_eq_true_eq] at hearly
  obtain ⟨hlive, hothers⟩ := hearly
  rintro (⟨user, huser, hid, hdeleted⟩ | ⟨j, hj, hwipe⟩)
  · rcases hlive user huser with hne | hnone
    · exact hne hid
    · exact hdeleted hnone
  · by_cases h1 : 1 < j
    · rw [h.2 j h1] at hwipe
      cases hwipe
    · have hmem : j ∈ [0, 1] := by
        simp only [List.mem_cons, List.not_mem_nil, or_false]
        omega
      rcases hothers j hmem with hji | hno
      · exact hj hji
      · exact hno hwipe

/-- The check tells that a commit adds its rows in time. -/
theorem addsInTime_of_addsEarly (i : Nat) (a : Act (database Γ₀)) (db : Db (database Γ₀)) (h : TwoThreads db)
    (hcheck : addsEarly i a db = true) : AddsInTime i a db := by
  rintro rfl w hw t u hadd
  have hw := List.all_eq_true.1 hcheck w hw
  cases w with
  | insertItem row =>
    cases t with
    | items =>
      obtain rfl : row.ownerUserId = u := hadd
      exact not_removing_of_early h hw
    | roles => cases hadd
  | insertRole row =>
    cases t with
    | items => cases hadd
    | roles =>
      obtain rfl : row.userId = u := hadd
      exact not_removing_of_early h hw
  | _ => cases t <;> cases hadd

end LateItem

open LateItem in
/-- The deletion has begun when the request commits its item: both have succeeded, and the user, who also had an item and a role
before, is deleted and has neither. -/
theorem deletion_wipes_item_in_flight : ∃ c, playIf addsEarly scheduleInTime (start Γ₀ ops stocked env) = some c ∧
    (∃ item, c.threads 0 = .done (.ok (.item item))) ∧ DeletedIn 1 c.state.store ∧ WipedOf 1 c.state.store := by
  obtain ⟨c, hc⟩ := Option.isSome_iff_exists.1
    (show (playIf addsEarly scheduleInTime (start Γ₀ ops stocked env)).isSome = true by decide)
  have h0 : ∃ item, (playIf addsEarly scheduleInTime (start Γ₀ ops stocked env)).map (fun c => c.threads 0) =
      some (.done (.ok (.item item))) := ⟨_, rfl⟩
  have h1 : (playIf addsEarly scheduleInTime (start Γ₀ ops stocked env)).map (fun c => c.threads 1) =
      some (.done (.ok .done)) := rfl
  obtain ⟨item, h0⟩ := h0
  rw [hc] at h0 h1
  have hstore : ∀ u, DeletedIn u stocked → WipedOf u stocked := by
    rintro u ⟨v, hv, -, hd⟩
    rw [List.mem_singleton.1 hv] at hd
    exact absurd rfl hd
  have hmoves : ∀ m ∈ scheduleInTime, m = .run 0 ∨ m = .run 1 := by
    intro m hm
    simp only [scheduleInTime, List.mem_append, List.mem_replicate] at hm
    tauto
  have hkeeps : ∀ m ∈ scheduleInTime, ∀ {c c' : Configuration Γ₀}, TwoThreads c.state → move m c = some c' →
      TwoThreads c'.state := by
    intro m hm c c' h hmove
    rcases hmoves m hm with rfl | rfl
    · exact twoThreads_of_run (Nat.zero_le 1) h hmove
    · exact twoThreads_of_run (Nat.le_refl 1) h hmove
  have hreach := reaches_of_playIf_keeping addsInTime_of_addsEarly hkeeps
    ⟨guarded_atRest stocked env, fun _ _ => rfl⟩ hc
  exact ⟨c, hc, ⟨item, Option.some.inj h0⟩, (deletion_wipes ops stocked env hstore hreach).2 1 1 rfl
    ⟨user, List.mem_singleton_self _, rfl⟩ (Option.some.inj h1)⟩

end AuthService
