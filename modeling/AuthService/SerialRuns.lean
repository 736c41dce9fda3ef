import AuthService.Interleavings
import AuthService.Library.Serial

/-!
# Operations one after the other

A serial run is a sequence of operations, each of which runs alone from its first statement to its last. Time passes, and any
statement may fail. Between two operations the role catalog may change.
-/

namespace AuthService

open ReadCommitted RelyGuarantee Serial

/-- The service with another role catalog. -/
def Ctx.withRoles (Γ : Ctx) (roleCatalog : List (Text × List Text)) : Ctx := { Γ with roleCatalog := roleCatalog }

/-- An operation that runs alone, as thread `me`, from some tables to others. -/
def Performs (Γ : Ctx) (me : Nat) (op : Op) (s : Store × Env) (r : Except AuthError Outcome) (s' : Store × Env) : Prop :=
  ∃ c : Configuration Γ, Reaches Γ ⟨atRest Γ s.1 s.2, alone me .done (program Γ op)⟩ c ∧ c.threads me = .done r ∧
    s' = (c.state.store, c.state.env)

/-- One of the operations, with some role catalog. -/
def SerialStep (Γ : Ctx) (ops : Set Op) (s s' : Store × Env) : Prop :=
  ∃ roleCatalog me op r, op ∈ ops ∧ Performs (Γ.withRoles roleCatalog) me op s r s'

/-- A serial run of some operations. -/
def SerialRun (Γ : Ctx) (ops : Set Op) : Store × Env → Store × Env → Prop := Relation.ReflTransGen (SerialStep Γ ops)

namespace SerialAux

variable {Γ : Ctx} {T : Promise (database Γ)} {me : Nat} {S0 : Store} {α β : Type} {P : Assertion (database Γ)}

variable (Γ) in
/-- Nothing is promised. -/
def unbound : Promise (database Γ) where
  known _ _ := True
  inv _ _ := True
  rel _ _ := True
  inv_later _ _ := trivial
  rel_refl _ := trivial
  rel_trans _ _ := trivial

/-! ## Footprints -/

/-- What the commit of a view promises. -/
def Sound (T : Promise (database Γ)) : Assertion (database Γ) := fun S V e => T.inv V e ∧ T.rel S V

/-- Some actions keep an assertion. -/
structure KeptBy (emits : Act (database Γ) → Prop) (P : Assertion (database Γ)) : Prop where
  insert : ∀ {w : Write} {S V e}, emits (.insert w) → P S V e → w.violates Γ V = false → P S (w.apply V) e
  change : ∀ {s : Stmt} {found key w S V e}, emits (.finish s found) → s.change key = some w → P S V e → P S (w.apply V) e

variable (Γ) in
/-- The actions of some kinds keep an assertion. -/
abbrev Closed (ks : Set Kind) (P : Assertion (database Γ)) : Prop :=
  KeptBy (Γ := Γ) (fun a => kind a = .neutral ∨ kind a ∈ ks) P

variable {ks : Set Kind} {emits : Act (database Γ) → Prop}

/-- A statement of a kept kind keeps the assertion through its effect. -/
theorem KeptBy.effect (h : KeptBy emits P) {db db' : Db (database Γ)} {a : Act (database Γ)}
    {r : Except AuthError (Result (database Γ) a)} (he : Effect me db a r db') (ha : emits a)
    (hb : a.isBracket = false) (hP : On me P db) : On me P db' := by
  obtain ⟨e, hlater, hp⟩ := hP
  cases he with
  | query q => exact ⟨e, hlater, hp⟩
  | insert w hfree hv =>
    refine ⟨e, hlater, ?_⟩
    rw [Db.view_write, applyAll_cons, applyAll_nil]
    exact h.insert ha hp (violates_of_violation hv)
  | start s =>
    refine ⟨e, hlater, ?_⟩
    rw [Db.view_note]
    exact hp
  | finish s found _ _ =>
    refine ⟨e, hlater, ?_⟩
    rw [Db.view_write]
    refine applyAll_induct (P := fun V => P db.store V e) hp ?_
    intro w hw V hV
    obtain ⟨key, _, hchange⟩ := List.mem_filterMap.1 hw
    exact h.change ha hchange hV
  | locked k _ =>
    refine ⟨e, hlater, ?_⟩
    rw [Db.view_write, applyAll_nil]
    exact hp
  | notLocked k => exact ⟨e, hlater, hp⟩
  | begin => cases hb
  | commit => cases hb
  | rollback => cases hb
  | ext x => exact ⟨e, (hlater.trans (Ext.reply_later Γ me x _)), hp⟩
  | fault a error =>
    cases a with
    | commit => cases hb
    | rollback => cases hb
    | _ => exact ⟨e, hlater, hp⟩

/-- What an action inside a transaction leaves of the promise. -/
theorem inv_inside {db db' : Db (database Γ)} {a : Act (database Γ)} {r : Except AuthError (Result (database Γ) a)}
    (he : Effect me db a r db') (hb : a.isBracket = false) (hinv : (contract T me S0).inv db) : (contract T me S0).inv db' := by
  have hstore : db'.store = db.store := (he.inside hb).1
  have hlater : db.env.Later db'.env := by
    cases he with
    | ext x => exact Ext.reply_later Γ me x _
    | fault a error => cases a <;> exact Env.Later.refl _
    | _ => exact Env.Later.refl _
  obtain ⟨hI, hrel⟩ := hinv
  refine ⟨?_, ?_⟩
  · rw [hstore]
    exact T.inv_later hI hlater
  · rw [hstore]
    exact hrel

/-- Inside a transaction, actions that keep an assertion. -/
theorem leads_emits {p : Service Γ α} (h : p.Emits emits) (hkept : KeptBy emits P) (hb : ∀ a, emits a → a.isBracket = false) :
    Ensures T me S0 P p fun _ => P := by
  refine triple_conseq (triple_of_emits stable_on ?_ h) (fun _ hs => hs) fun _ _ hs _ _ => hs
  rintro a db r db' ha hP hinv ⟨_, he⟩
  exact ⟨inv_inside he (hb a ha) hinv, rfl, hkept.effect he ha (hb a ha) hP⟩

/-- A program of kept kinds without brackets keeps the assertion. -/
theorem leads_within {p : Service Γ α} (h : Within ks p) (hclosed : Closed Γ ks P) (hb : .bracket ∉ ks) :
    Ensures T me S0 P p fun _ => P := by
  refine leads_emits h hclosed ?_
  intro a ha
  refine isBracket_of_kind ?_
  intro hk
  rw [hk] at ha
  rcases ha with ha | ha
  · cases ha
  · exact hb ha

/-- Whole transactions, when every one of their writes keeps the promise. -/
theorem triple_calm {p : Service Γ α} (h : p.Emits emits) (hclosed : KeptBy emits (Sound T)) :
    Triple (contract T me S0) me (On me (Sound T)) p fun _ => On me (Sound T) := by
  refine triple_of_emits stable_on ?_ h
  rintro a db r db' ha hP hinv ⟨_, he⟩
  have hclean : ∀ db1 : Db (database Γ), db1.store = db.store → db1.env = db.env → db1.view me = db1.store → On me (Sound T) db1 := by
    intro db1 hstore henv hview
    refine ⟨db.env, henv ▸ Env.Later.refl _, ?_⟩
    rw [hview, hstore]
    exact ⟨hinv.1, T.rel_refl _⟩
  have hreleased : On me (Sound T) (db.release me) := by
    refine hclean _ rfl rfl ?_
    rw [Db.view, Db.log_release, applyAll_nil]
  by_cases hbracket : a.isBracket = false
  · exact ⟨inv_inside he hbracket hinv, rfl, hclosed.effect he ha hbracket hP⟩
  · cases he with
    | begin => exact ⟨hinv, rfl, hclean _ rfl rfl (by rw [Db.view_begin, Db.store_begin])⟩
    | rollback => exact ⟨hinv, rfl, hreleased⟩
    | commit =>
      obtain ⟨e, hlater, hV, hrel⟩ := hP
      have hV' := T.inv_later hV hlater
      refine ⟨⟨hV', T.rel_trans hinv.2 hrel⟩, rfl, db.env, Env.Later.refl _, ?_⟩
      have hview : (db.commit me).view me = db.view me := by
        rw [Db.view, Db.log_commit, applyAll_nil, Db.store_commit]
      rw [hview]
      exact ⟨hV', T.rel_refl _⟩
    | fault a error =>
      cases a with
      | begin => exact ⟨hinv, rfl, hP⟩
      | commit => exact ⟨hinv, rfl, hreleased⟩
      | rollback => exact ⟨hinv, rfl, hreleased⟩
      | _ => exact absurd rfl hbracket
    | _ => exact absurd rfl hbracket

/-- A program of kept statements stays ready to commit. -/
theorem leads_calm {p : Service Γ α} (h : p.Emits emits) (hclosed : KeptBy emits (Sound T)) :
    Leads (contract T me S0) me (On me (Sound T)) p fun _ => On me (Sound T) :=
  triple_conseq (triple_calm h hclosed) (fun _ hs => hs) fun _ _ hs _ _ => hs

/-! ## Transactions -/

variable {B : Assertion (database Γ)} {Q R : α → Assertion (database Γ)}

/-- A transaction starts with the committed store and commits what its body has made of it. -/
theorem transaction_leads {P : Db (database Γ) → Prop} (hP : Stable (contract T me S0) me P) {body : Service Γ α}
    (hbegin : ∀ db, P db → T.known db.store db.env → T.inv db.store db.env → T.rel S0 db.store → B db.store db.store db.env)
    (hbody : Leads (contract T me S0) me (On me B) body fun a => On me (Q a))
    (hcommit : ∀ a S V e e', Q a S V e → e.Later e' → T.inv S e' → T.rel S0 S → T.inv V e' ∧ T.rel S V ∧ R a V V e') :
    Leads (contract T me S0) me P (transaction body) fun a => On me (R a) := by
  refine leads_transaction (leads_begin hP hbegin) hbody (fun a => ?_) (fun _ => stable_on) ?_
  · exact leads_commit (hcommit a)
  · exact leads_conseq (leads_rollback (Q := fun _ _ _ _ => True) stable_true fun _ _ _ _ => trivial) (fun _ hs => hs)
      fun _ _ _ => trivial

/-- A method in a scope of its own starts with the committed store. What it has not committed is dropped. -/
theorem sessionScope_leads {P : Db (database Γ) → Prop} (hP : Stable (contract T me S0) me P) {body : Service Γ α}
    (hbegin : ∀ db, P db → T.known db.store db.env → T.inv db.store db.env → T.rel S0 db.store → B db.store db.store db.env)
    (hbody : Leads (contract T me S0) me (On me B) body fun a => On me (Q a))
    (hend : ∀ a S V e e', Q a S V e → e.Later e' → T.inv S e' → T.rel S0 S → R a S S e') :
    Leads (contract T me S0) me P (sessionScope false body) fun a => On me (R a) := by
  refine leads_bind (leads_begin (T := T) hP (Q := fun _ => B) hbegin) fun _ => ?_
  refine leads_attempt_bind hbody (fun a => ?_) fun e => ?_
  · refine leads_bind (Q := fun _ => On me (R a)) ?_ fun _ => leads_done fun _ _ _ hr => hr
    refine leads_perform stable_on (fun _ => stable_on) ?_
    rintro db r db' hP hinv ⟨_, he⟩
    obtain ⟨e, hlater, hp⟩ := hP
    cases he with
    | rollback =>
      refine ⟨hinv, rfl, ?_⟩
      intro x _
      refine ⟨db.env, Env.Later.refl _, ?_⟩
      have hview : (db.release me).view me = db.store := by
        rw [Db.view, Db.log_release, applyAll_nil, Db.store_release]
      rw [hview]
      exact hend a _ _ _ _ hp hlater hinv.1 hinv.2
    | fault a e => exact ⟨hinv, rfl, fun _ hr => by cases hr⟩
  · refine leads_bind (Q := fun _ _ => True) ?_ fun _ => leads_throw e
    exact leads_conseq (leads_rollback (Q := fun _ _ _ _ => True) stable_true fun _ _ _ _ => trivial) (fun _ hs => hs)
      fun _ _ _ => trivial

/-! ## Statements -/

theorem leads_select (q : Query) {Q : q.Answer → Assertion (database Γ)} (h : ∀ S V e, P S V e → Q (q.answer Γ V) S V e) :
    Ensures T me S0 P (query q) Q := leads_query h

/-- An INSERT that is accepted adds its row to the view. -/
theorem leads_insertRow {w : Write} {Q : Assertion (database Γ)}
    (h : ∀ S V e, P S V e → w.violates Γ V = false → Q S (w.apply V) e) : Ensures T me S0 P (insert w) fun _ => Q :=
  leads_insert (Q := fun _ => Q) fun S V e hp hv => h S V e hp (violates_of_violation hv)

/-- An `UPDATE` or `DELETE` gets the rows that meet its condition, and changes them. -/
theorem leads_statement {s : Stmt} {Q : List Key → Assertion (database Γ)}
    (h : ∀ S V e, P S V e → Q (s.rows V) S (applyAll (D := database Γ) ((s.rows V).filterMap s.change) V) e) :
    Ensures T me S0 P (modify s) Q := leads_modify fun S V e hp _ => h S V e hp

/-- A call outside answers from the environment at some later time. -/
theorem leads_reply {x : Ext} {Q : x.Reply → Assertion (database Γ)}
    (h : ∀ S V e e' y, P S V e → e.Later e' → (x.reply Γ me e').1 = .ok y → Q y S V (x.reply Γ me e').2) :
    Ensures T me S0 P (call x) Q := leads_ext h

/-- A call to the outside, whatever went before. -/
theorem leads_callAnyhow (x : Ext) :
    Leads (contract T me S0) me (fun _ => True) (call x : Service Γ x.Reply) fun _ _ => True := by
  refine leads_perform stable_true (fun _ => stable_true) ?_
  rintro db r db' _ hinv ⟨_, he⟩
  exact ⟨inv_inside he rfl hinv, rfl, fun _ _ => trivial⟩

/-- Past a check its condition holds. -/
theorem leads_require {c : Bool} {error : AuthError} :
    Leads (contract T me S0) me (On me P) (require c error : Service Γ Unit) fun _ => On me fun S V e => c = true ∧ P S V e := by
  unfold require
  split
  · rename_i hc
    exact leads_done fun _ _ _ hp => ⟨hc, hp⟩
  · exact leads_throw _

/-- A lookup goes on with no row or with the one row it found. -/
theorem leads_oneOrNone {xs : List α} {Q : Option α → Assertion (database Γ)} (hnone : ∀ S V e, P S V e → xs = [] → Q none S V e)
    (hsome : ∀ x S V e, P S V e → xs = [x] → Q (some x) S V e) :
    Leads (contract T me S0) me (On me P) (oneOrNone xs : Service Γ (Option α)) fun r => On me (Q r) := by
  rcases xs with _ | ⟨x, _ | ⟨y, ys⟩⟩
  · exact leads_done fun S V e hp => hnone S V e hp rfl
  · exact leads_done fun S V e hp => hsome x S V e hp rfl
  · exact leads_throw _

/-- A refresh goes on with the one row it found. -/
theorem leads_refreshed {xs : List α} {Q : α → Assertion (database Γ)} (hone : ∀ x S V e, P S V e → xs = [x] → Q x S V e) :
    Leads (contract T me S0) me (On me P) (refreshed xs : Service Γ α) fun r => On me (Q r) := by
  rcases xs with _ | ⟨x, _ | ⟨y, ys⟩⟩
  · exact leads_throw _
  · exact leads_done fun S V e hp => hone x S V e hp rfl
  · exact leads_throw _

/-- The elements of a list, one after the other. The assertion is about those that are done. -/
theorem leads_each {xs : List α} {f : α → Service Γ Unit} {P : List α → Assertion (database Γ)}
    (h : ∀ done x rest, xs = done ++ x :: rest →
      Leads (contract T me S0) me (On me (P done)) (f x) fun _ => On me (P (done ++ [x]))) :
    Leads (contract T me S0) me (On me (P [])) (Prog.each f xs) fun _ => On me (P xs) := by
  have hrest : ∀ rest done, xs = done ++ rest →
      Leads (contract T me S0) me (On me (P done)) (Prog.each f rest) fun _ => On me (P xs) := by
    intro rest
    induction rest with
    | nil =>
      intro done hxs
      rw [List.append_nil] at hxs
      rw [← hxs]
      exact leads_done fun _ _ _ hp => hp
    | cons x rest ih =>
      intro done hxs
      refine leads_bind (h done x rest hxs) fun _ => ih (done ++ [x]) ?_
      rw [hxs, List.append_assoc]
      rfl
  exact hrest xs [] rfl

/-! ## What the statements leave -/

variable {V : Store}

/-- Deleting items by id removes the rows with these ids. -/
theorem applyAll_deleteItems (ids : List Uuid) (V : Store) :
    applyAll (D := database Γ) (ids.map Write.deleteItem) V = { V with items := V.items.filter fun x => x.id ∉ ids } := by
  induction ids generalizing V with
  | nil =>
    show V = { V with items := V.items.filter fun x => x.id ∉ [] }
    simp
  | cons id ids ih =>
    rw [List.map_cons, applyAll_cons, ih]
    simp [Write.apply, List.filter_filter, Bool.and_comm]

/-- Deleting roles by id removes the rows with these ids. -/
theorem applyAll_deleteRoles (ids : List Uuid) (V : Store) :
    applyAll (D := database Γ) (ids.map Write.deleteRole) V = { V with roles := V.roles.filter fun x => x.id ∉ ids } := by
  induction ids generalizing V with
  | nil =>
    show V = { V with roles := V.roles.filter fun x => x.id ∉ [] }
    simp
  | cons id ids ih =>
    rw [List.map_cons, applyAll_cons, ih]
    simp [Write.apply, List.filter_filter, Bool.and_comm]

/-- Deleting identities by id removes the rows with these ids. -/
theorem applyAll_deleteIdentities (ids : List Uuid) (V : Store) :
    applyAll (D := database Γ) (ids.map Write.deleteIdentity) V =
      { V with identities := V.identities.filter fun x => x.id ∉ ids } := by
  induction ids generalizing V with
  | nil =>
    show V = { V with identities := V.identities.filter fun x => x.id ∉ [] }
    simp
  | cons id ids ih =>
    rw [List.map_cons, applyAll_cons, ih]
    simp [Write.apply, List.filter_filter, Bool.and_comm]

/-- The DELETE of an owner's items deletes the items of that owner. -/
theorem changes_deleteItemsForOwner (u : Uuid) :
    ((Stmt.deleteItemsForOwner u).rows V).filterMap (Stmt.change (.deleteItemsForOwner u)) =
      ((V.items.filter fun x => x.ownerUserId = u).map SampleItem.id).map Write.deleteItem := by
  simp [Stmt.rows, List.filterMap_map, Function.comp_def, Stmt.change]

/-- The DELETE of a user's identities deletes the identities of that user. -/
theorem changes_deleteIdentitiesForUser (u : Uuid) :
    ((Stmt.deleteIdentitiesForUser u).rows V).filterMap (Stmt.change (.deleteIdentitiesForUser u)) =
      ((V.identities.filter fun x => x.userId = u).map AuthIdentity.id).map Write.deleteIdentity := by
  simp [Stmt.rows, List.filterMap_map, Function.comp_def, Stmt.change]

/-- The DELETE of a user's roles deletes the roles of that user. -/
theorem changes_deleteRolesForUser (u : Uuid) :
    ((Stmt.deleteRolesForUser u).rows V).filterMap (Stmt.change (.deleteRolesForUser u)) =
      ((V.roles.filter fun x => x.userId = u).map UserRole.id).map Write.deleteRole := by
  simp [Stmt.rows, List.filterMap_map, Function.comp_def, Stmt.change]

end SerialAux

/-! ## Runs -/

open SerialAux

/-- What each operation keeps, a serial run keeps. -/
theorem SerialRun.keeps {Γ : Ctx} {ops : Set Op} (inv : Store → Env → Prop) {rel : Store → Store → Prop}
    (hrefl : ∀ S, rel S S) (htrans : ∀ {S S' S''}, rel S S' → rel S' S'' → rel S S'')
    (hstep : ∀ {roleCatalog me op r s s'}, op ∈ ops → Performs (Γ.withRoles roleCatalog) me op s r s' → inv s.1 s.2 →
      inv s'.1 s'.2 ∧ rel s.1 s'.1)
    {s s' : Store × Env} (h : SerialRun Γ ops s s') (hinv : inv s.1 s.2) : inv s'.1 s'.2 ∧ rel s.1 s'.1 := by
  induction h with
  | refl => exact ⟨hinv, hrefl _⟩
  | tail _ hlast ih =>
    obtain ⟨hinv1, hrel1⟩ := ih
    obtain ⟨roleCatalog, me, op, r, hop, hperforms⟩ := hlast
    obtain ⟨hinv2, hrel2⟩ := hstep hop hperforms hinv1
    exact ⟨hinv2, htrans hrel1 hrel2⟩

/-- An operation that keeps a promise from its start on keeps it as a step of a run. -/
theorem Performs.keeps {Γ : Ctx} {T : Promise (database Γ)} {me : Nat} {op : Op} {Q : Outcome → Assertion (database Γ)}
    {s s' : Store × Env} {r : Except AuthError Outcome} (h : Performs Γ me op s r s')
    (hp : Ensures T me s.1 (fun S V e => V = S ∧ T.inv S e) (program Γ op) Q)
    (hknown : ∀ c, Reaches Γ ⟨atRest Γ s.1 s.2, alone me .done (program Γ op)⟩ c → T.known c.state.store c.state.env)
    (hinv : T.inv s.1 s.2) : T.inv s'.1 s'.2 ∧ T.rel s.1 s'.1 := by
  obtain ⟨c, hreach, _, rfl⟩ := h
  obtain ⟨hinv', hrel, _⟩ := alone_keeps hp (log_atRest _ _ _) hknown hinv hreach
  exact ⟨hinv', hrel⟩

/-- The operation runs without failures and takes no time. -/
def perform (Γ : Ctx) (me : Nat) (op : Op) (s : Store × Env) : Option (Except AuthError Outcome × Store × Env) :=
  (Serial.run me (program Γ op) (atRest Γ s.1 s.2)).map fun p => (p.1, p.2.store, p.2.env)

/-- An evaluated operation is one of the serial semantics. -/
theorem performs_of_perform {Γ : Ctx} {me : Nat} {op : Op} {s s' : Store × Env} {r : Except AuthError Outcome}
    (h : perform Γ me op s = some (r, s')) : Performs Γ me op s r s' := by
  obtain ⟨⟨r', db⟩, hrun, heq⟩ := Option.map_eq_some_iff.1 h
  obtain ⟨rfl, rfl⟩ := Prod.mk.inj heq
  have hme : alone me Outcome.done (.done r' : Service Γ Outcome) me = .done r' := Function.update_self _ _ _
  exact ⟨_, reaches_of_run hrun, hme, rfl⟩

/-- Operations without failures, one after the other. The thread of each is its number. -/
def performAll (Γ : Ctx) : Nat → List Op → Store × Env → Option (Store × Env)
  | _, [], s => some s
  | me, op :: ops, s => (perform Γ me op s).bind fun p => performAll Γ (me + 1) ops p.2

/-- Evaluated operations make a serial run. -/
theorem serialRun_of_performAll {Γ : Ctx} {me : Nat} {ops : List Op} {s s' : Store × Env} (h : performAll Γ me ops s = some s') :
    SerialRun Γ { op | op ∈ ops } s s' := by
  have hrun : ∀ ops' me s, (∀ op ∈ ops', op ∈ ops) → performAll Γ me ops' s = some s' → SerialRun Γ { op | op ∈ ops } s s' := by
    intro ops'
    induction ops' with
    | nil =>
      intro me s _ h
      rw [← Option.some.inj h]
      exact Relation.ReflTransGen.refl
    | cons op ops' ih =>
      intro me s hmem h
      obtain ⟨⟨r, s1⟩, hop, hrest⟩ := Option.bind_eq_some_iff.1 h
      refine Relation.ReflTransGen.head ?_ (ih (me + 1) s1 (fun op' hop' => hmem op' (List.mem_cons_of_mem _ hop')) hrest)
      exact ⟨Γ.roleCatalog, me, op, r, hmem op List.mem_cons_self, performs_of_perform hop⟩
  exact hrun ops me s (fun _ hop => hop) h

/-- A run of some operations is a run of any larger set of them. -/
theorem SerialRun.mono {Γ : Ctx} {ops ops' : Set Op} (hops : ops ⊆ ops') {s s' : Store × Env} (h : SerialRun Γ ops s s') :
    SerialRun Γ ops' s s' := by
  induction h with
  | refl => exact Relation.ReflTransGen.refl
  | tail _ hlast ih =>
    obtain ⟨roleCatalog, me, op, r, hop, hperforms⟩ := hlast
    exact ih.tail ⟨roleCatalog, me, op, r, hops hop, hperforms⟩

end AuthService
