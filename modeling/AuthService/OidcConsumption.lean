import AuthService.OidcLedger

/-!
# Starts, and the consumption of a state

What the operations that are no callbacks keep of the ledger, the row that a start inserts, and the transaction of
`_consume_callback_state` that locks a row, reads it and consumes it.
-/

namespace AuthService

open ReadCommitted RelyGuarantee

variable {Γ : Ctx}

namespace OidcStateAux

variable {S : Store} {ops : Nat → Op}

variable {db db' : Db (database Γ)} {i : Nat} {a : Act (database Γ)} {r : Except AuthError (Result (database Γ) a)}

/-! ## Operations that are no callbacks -/

/-- The operation is no callback and no deletion of the account of its own user. -/
def Plain : Op → Prop
  | .completeCallback .. => False
  | .completeErrorCallback .. => False
  | .deleteAccount .. => False
  | _ => True

/-- An operation that is no callback presents no state. -/
theorem Plain.presented {op : Op} (h : Plain op) : op.presented = none := by
  cases op with
  | completeCallback => exact h.elim
  | completeErrorCallback => exact h.elim
  | _ => rfl

/-- An operation that is no callback may make the writes that mark nothing. -/
theorem permitted_of_unmarked (hop : Plain (ops i)) {w : Write} (hw : Unmarked w) : Permitted S ops db i w := by
  unfold Permitted
  cases h : ops i with
  | completeCallback =>
    rw [h] at hop
    exact hop.elim
  | completeErrorCallback =>
    rw [h] at hop
    exact hop.elim
  | deleteAccount =>
    rw [h] at hop
    exact hop.elim
  | _ => exact hw

/-- An operation that is no callback keeps the ledger when it marks no session. -/
theorem triple_plain {α : Type} {p : Service Γ α} {P : Db (database Γ) → Prop} (hop : Plain (ops i))
    (hP : Stable (ledger Γ S ops) i P) (hkeep : ∀ {db db' a r}, P db → Effect i db a r db' → Bounded Unmarked a → P db')
    (h : p.Emits (Bounded Unmarked)) : Triple (ledger Γ S ops) i P p fun _ => P :=
  triple_bounded hP hkeep (fun _ _ hpresents => absurd hop.presented hpresents) (fun _ _ _ hw => permitted_of_unmarked hop hw) h

/-- A program of unmarked writes keeps the ledger. -/
theorem leads_plain {α : Type} {p : Service Γ α} {P : Db (database Γ) → Prop} (hop : Plain (ops i))
    (h : p.Emits (Bounded Unmarked)) : Leads (ledger Γ S ops) i P p fun _ _ => True :=
  triple_conseq (triple_plain (P := fun _ => True) hop (fun _ _ => trivial) (fun _ _ _ => trivial) h) (fun _ _ => trivial)
    fun _ _ _ _ _ => trivial

/-- Kinds of actions that are bounded. -/
def others : Set Kind := { k | k ≠ .state ∧ k ≠ .exchange ∧ k ≠ .rogue ∧ k ≠ .sessionOidc }

/-- Kinds that are bounded make no sensitive writes. -/
theorem emits_of_within {α : Type} {p : Service Γ α} {ks : Set Kind} (h : Within ks p) (hks : ks ⊆ others) :
    p.Emits (Bounded Unmarked) := by
  refine Prog.Emits.mono h fun a ha => ?_
  rcases ha with ha | ha
  · exact (bounded_of_kind (by rw [ha]; exact nofun) (by rw [ha]; exact nofun) (by rw [ha]; exact nofun) (by rw [ha]; exact nofun))
  · obtain ⟨hs, hx, hr, ho⟩ := hks ha
    exact bounded_of_kind hs hx hr ho

/-- A neutral program makes no sensitive writes. -/
theorem emits_of_neutral {α : Type} {p : Service Γ α} (h : Within ∅ p) : p.Emits (Bounded Unmarked) :=
  emits_of_within h (Set.empty_subset _)

/-- Actions that are neutral or brackets make no sensitive writes. -/
theorem emits_of_calm {α : Type} {p : Service Γ α} (h : Within {.bracket} p) : p.Emits (Bounded Calm) :=
  Prog.Emits.mono h fun _ ha => calm_of_kind ha

/-- Operations that neither start, finish nor prune authorizations are bounded. -/
theorem kinds_subset_others {op : Op} (hstart : ∀ p path purpose session ip l, op ≠ .startAuthorization p path purpose session ip l)
    (hplain : Plain op) (hprune : ∀ t, op ≠ .deleteOidcStatesExpiredBefore t) : op.kinds ⊆ others := by
  intro k hk
  cases op with
  | startAuthorization => exact absurd rfl (hstart _ _ _ _ _ _)
  | completeCallback => exact hplain.elim
  | completeErrorCallback => exact hplain.elim
  | deleteOidcStatesExpiredBefore t => exact absurd rfl (hprune t)
  | _ => cases k <;> simp_all [Op.kinds, issuing, editing, others]

theorem reads_begin : Reads (.begin : Act (database Γ)) := fun _ => id

theorem reads_commit : Reads (.commit : Act (database Γ)) := fun _ => id

theorem reads_rollback : Reads (.rollback : Act (database Γ)) := fun _ => id

theorem reads_start (s : Stmt) : Reads (.start s : Act (database Γ)) := fun _ => id

theorem reads_ext (x : Ext) : Reads (.ext x : Act (database Γ)) := fun _ => id

section Emits

variable {W : Write → Prop}

theorem emits_begin : (begin : Service Γ Unit).Emits (Bounded W) := Prog.emits_perform.2 (reads_begin.bounded nofun W)

theorem emits_commit : (commit : Service Γ Unit).Emits (Bounded W) := Prog.emits_perform.2 (reads_commit.bounded nofun W)

theorem emits_rollback : (rollback : Service Γ Unit).Emits (Bounded W) := Prog.emits_perform.2 (reads_rollback.bounded nofun W)

/-- A transaction makes the writes of its body. -/
theorem emits_transaction {α : Type} {body : Service Γ α} (h : body.Emits (Bounded W)) : (transaction body).Emits (Bounded W) := by
  refine Prog.Emits.bind emits_begin fun _ => Prog.Emits.bind (Prog.Emits.attempt h) fun r => ?_
  cases r with
  | ok x => exact Prog.Emits.bind emits_commit fun _ => trivial
  | error e => exact Prog.Emits.bind emits_rollback fun _ => trivial

end Emits

/-- Pruning removes states and writes no others. -/
theorem emits_deleteOidcStates (t : DateTime) :
    (deleteOidcStatesExpiredBefore false t : Service Γ Nat).Emits (Bounded Unmarked) := by
  have hfinish : ∀ found, Bounded Unmarked (.finish (.deleteOidcStatesExpiredBefore t) found : Act (database Γ)) := by
    intro found
    refine ⟨fun row hrow => ?_, fun id t' hpatch => ?_, nofun, fun w hw => ?_⟩
    · obtain ⟨-, k, -, hk⟩ := hrow
      exact change_ne_insertState hk
    · obtain ⟨-, k, -, hk⟩ := hpatch
      cases k <;> cases hk
    · obtain ⟨-, k, -, hk⟩ := hw
      exact (unmarked_change hk nofun nofun).1
  have hbody : (modify (.deleteOidcStatesExpiredBefore t) : Service Γ (List Key)).Emits (Bounded Unmarked) :=
    Prog.Emits.bind (Prog.emits_perform.2 ((reads_start _).bounded nofun _)) fun found => Prog.emits_perform.2 (hfinish found)
  refine Prog.Emits.bind emits_begin fun _ => Prog.Emits.bind (Prog.Emits.attempt ?_) fun result => ?_
  · exact Prog.Emits.bind hbody fun _ => Prog.Emits.bind emits_commit fun _ => trivial
  · refine Prog.Emits.bind emits_rollback fun _ => ?_
    cases result <;> trivial

/-! ## Starts -/

/-- The thread has inserted no state yet. -/
def Unstarted (i : Nat) (db : Db (database Γ)) : Prop := ∀ row, (i, Write.insertState row) ∉ db.history i

/-- Other threads insert no state for this one. -/
theorem Unstarted.frame (h : Unstarted i db) (hf : Frame i db db') : Unstarted i db' := by
  intro row hrow
  obtain ⟨js, hjournal, -, hothers⟩ := hf.commits
  rw [Db.history, hf.log, hjournal, List.append_assoc, List.mem_append, List.mem_append] at hrow
  rcases hrow with hrow | hrow | hrow
  · exact h row (List.mem_append_left _ hrow)
  · exact (hothers _ hrow).1 rfl
  · exact h row (List.mem_append_right _ hrow)

/-- A bounded action inserts no state. -/
theorem Unstarted.effect (h : Unstarted i db) (he : Effect i db a r db') {W : Write → Prop} (ha : Bounded W a) :
    Unstarted i db' := by
  intro row hrow
  rcases he.mem_history hrow with ⟨k, hk⟩ | ⟨ws, hws, w, hw, heq⟩
  · rcases Db.mem_history.1 hk with hk | ⟨w, hw, heq⟩
    · exact h row (List.mem_append_left _ hk)
    · obtain ⟨rfl, rfl⟩ := Prod.mk.inj heq
      exact h row (Db.mem_history.2 (Or.inr ⟨_, hw, rfl⟩))
  · obtain ⟨-, rfl⟩ := Prod.mk.inj heq
    exact ha.inserts row (hws.mayWrite hw)

/-- The thread has inserted no state, and has drawn a token. -/
def Drawing (i : Nat) (token : Text) (db : Db (database Γ)) : Prop := Unstarted i db ∧ DrewToken db i token

/-- The thread has drawn the id of the row, too. -/
def Ready (i : Nat) (token : Text) (id : Uuid) (db : Db (database Γ)) : Prop := Drawing i token db ∧ DrewId db i id

theorem stable_true : Stable (ledger Γ S ops) i fun _ => True := fun _ _ => trivial

theorem stable_unstarted : Stable (ledger Γ S ops) i (Unstarted i) := fun h hr => Unstarted.frame h hr

/-- A token that is drawn stays drawn. -/
theorem stable_drawing {token : Text} : Stable (ledger Γ S ops) i (Drawing i token) :=
  fun h hr => ⟨h.1.frame hr, (Frame.later hr).calls.mem h.2⟩

/-- An id that is drawn stays drawn. -/
theorem stable_ready {token : Text} {id : Uuid} : Stable (ledger Γ S ops) i (Ready i token id) :=
  fun h hr => ⟨stable_drawing h.1 hr, (Frame.later hr).calls.mem h.2⟩

/-- A program of unmarked writes inserts no state. -/
theorem leads_unstarted {α : Type} {p : Service Γ α} (hop : Plain (ops i)) (h : p.Emits (Bounded Unmarked)) :
    Leads (ledger Γ S ops) i (Unstarted i) p fun _ => Unstarted i :=
  triple_conseq (triple_plain hop stable_unstarted (fun h he ha => h.effect he ha) h) (fun _ hp => hp) fun _ _ hp _ _ => hp

/-- A program of unmarked writes keeps the token that is drawn. -/
theorem leads_drawing {α : Type} {p : Service Γ α} {token : Text} (hop : Plain (ops i)) (h : p.Emits (Bounded Unmarked)) :
    Leads (ledger Γ S ops) i (Drawing i token) p fun _ => Drawing i token :=
  triple_conseq (triple_plain hop stable_drawing (fun h he ha => ⟨h.1.effect he ha, he.later.calls.mem h.2⟩) h) (fun _ hp => hp)
    fun _ _ hp _ _ => hp

/-- A call to the world of an operation that is no callback. -/
theorem allowed_ext {x : Ext} (hop : Plain (ops i)) (hx : ∀ p c v, x ≠ .exchangeCode p c v) : Allowed S ops i db (.ext x) :=
  ((reads_ext x).bounded (fun p c v ha => hx p c v (Act.ext.inj ha)) Unmarked).allowed
    (fun hpresents => absurd hop.presented hpresents) fun _ hw => permitted_of_unmarked hop hw

/-- A call that exchanges no code leaves it so that no state is inserted. -/
theorem Unstarted.ext {x : Ext} {r : Except AuthError (Result (database Γ) (.ext x))} (h : Unstarted i db)
    (he : Effect i db (.ext x) r db') (hx : ∀ p c v, x ≠ .exchangeCode p c v) : Unstarted i db' :=
  h.effect he ((reads_ext x).bounded (fun p c v ha => hx p c v (Act.ext.inj ha)) Unmarked)

/-- The first token of a start is its state. -/
theorem leads_generateState (hop : Plain (ops i)) :
    Leads (ledger Γ S ops) i (Unstarted i) (generateToken : Service Γ Text) fun token => Drawing i token := by
  refine leads_act stable_unstarted (fun token => stable_drawing) fun hp hinv he => ⟨allowed_ext hop nofun, fun token hr => ?_⟩
  subst hr
  exact ⟨hp.ext he nofun, he.called⟩

/-- The row of a start has the hashes of what was drawn. -/
theorem leads_createState {provider : OidcProviderSettings} {state binding nonce verifier : Text} {path : Option Text}
    {purpose : OidcAuthorizationPurpose} {session : Option AuthenticatedSessionContext} {language : Option LanguageCode}
    {now : DateTime} {ip : Text} {path' : Option Text} {ip' : Option Text} {language' : Option LanguageCode}
    (hop : ops i = .startAuthorization provider.providerId path' purpose session ip' language') :
    Leads (ledger Γ S ops) i (Drawing i state)
      (createState provider state binding nonce verifier path purpose session language now ip : Service Γ Unit)
      fun _ _ => True := by
  have hother : Plain (ops i) := by rw [hop]; trivial
  refine leads_transaction (leads_drawing hother emits_begin) (Q := fun _ _ => True) ?_ (fun _ => leads_plain hother emits_commit)
    (fun _ => stable_true) (leads_plain hother emits_rollback)
  refine leads_bind (Q := fun id => Ready i state id) ?_ fun id => ?_
  · refine leads_act stable_drawing (fun id => stable_ready) fun hp hinv he => ⟨allowed_ext hother nofun, fun id hr => ?_⟩
    subst hr
    exact ⟨⟨hp.1.ext he nofun, he.later.calls.mem hp.2⟩, he.called⟩
  · split
    · exact leads_throw _
    · refine leads_bind (Q := fun _ _ => True) (leads_bind (Q := fun _ _ => True) ?_ fun _ => ?_) fun _ => ?_
      · refine leads_act stable_ready (fun _ => stable_true) fun hp hinv he => ⟨?_, fun _ _ => trivial⟩
        obtain ⟨⟨hunstarted, htoken⟩, hid⟩ := hp
        refine ⟨fun row hrow => ?_, fun id t hpatch => (nomatch hpatch), fun ha => (nomatch ha), fun x ha => (nomatch ha),
          fun p c v ha => (nomatch ha), fun w hw => permitted_of_unmarked hother ?_⟩
        · obtain rfl := Write.insertState.inj hrow
          exact ⟨⟨hid, ⟨state, htoken, rfl⟩, ⟨path', session, ip', language', hop, rfl, rfl⟩, rfl⟩, hunstarted⟩
        · obtain rfl : _ = w := hw
          rfl
      · exact leads_plain hother (emits_of_neutral ((within_query rfl).bind fun xs => within_refreshed xs))
      · exact leads_plain hother (emits_of_neutral ((within_limiter _).bind fun _ => within_pure _))

/-- A provider is found under its own id. -/
theorem providerId_of_getProvider {providerId : Text} {provider : OidcProviderSettings}
    (h : Γ.oidc.getProvider providerId = some provider) : provider.providerId = providerId := by
  unfold OidcSettings.getProvider at h
  simpa using List.find?_some h

/-- A start keeps the ledger: it inserts one state, with the token it has drawn. -/
theorem leads_startAuthorization {providerId : Text} {path : Option Text} {purpose : OidcAuthorizationPurpose}
    {session : Option AuthenticatedSessionContext} {ip : Option Text} {language : Option LanguageCode}
    (hop : ops i = .startAuthorization providerId path purpose session ip language) :
    Leads (ledger Γ S ops) i (Unstarted i) (startAuthorization providerId path purpose session ip language :
      Service Γ OidcAuthorizationStartResult) fun _ _ => True := by
  have hother : Plain (ops i) := by rw [hop]; trivial
  unfold startAuthorization
  split
  · exact leads_throw _
  · rename_i provider hprovider
    have hid : provider.providerId = providerId := providerId_of_getProvider hprovider
    refine leads_bind (leads_unstarted hother (emits_of_neutral (within_require _ _))) fun _ => ?_
    refine leads_bind (leads_unstarted hother (emits_of_neutral (within_limiter _))) fun _ => ?_
    refine leads_bind (leads_unstarted hother (emits_of_neutral (within_require _ _))) fun _ => ?_
    refine leads_bind (leads_generateState hother) fun state => ?_
    refine leads_bind (leads_drawing hother (emits_of_neutral within_generateToken)) fun _ => ?_
    refine leads_bind (leads_drawing hother (emits_of_neutral within_generateToken)) fun _ => ?_
    refine leads_bind (leads_drawing hother (emits_of_neutral within_generateToken)) fun _ => ?_
    refine leads_bind (leads_drawing hother (emits_of_neutral within_utcnow)) fun _ => ?_
    refine leads_bind (leads_drawing hother (emits_of_neutral (within_call rfl))) fun _ => ?_
    exact leads_bind (leads_createState (hid ▸ hop)) fun _ => leads_pure stable_true fun _ _ => trivial

/-! ## The consumption of a state -/

/-- The thread has exchanged no code. -/
def Untried (i : Nat) (db : Db (database Γ)) : Prop := db.calls.countP (exchanges i) = 0

/-- The thread has exchanged no code and has written nothing in its transaction. -/
def Untouched (i : Nat) (db : Db (database Γ)) : Prop := Untried i db ∧ db.log i = []

/-- Other threads exchange no code for this one. -/
theorem Untried.frame (h : Untried i db) (hf : Frame i db db') : Untried i db' := by
  obtain ⟨xs, hcalls, hothers⟩ := hf.calls
  rw [Untried, hcalls, List.countP_append, h, Nat.zero_add, List.countP_eq_zero]
  intro call hcall hexchange
  simp only [exchanges, Bool.and_eq_true, decide_eq_true_eq] at hexchange
  exact hothers call hcall hexchange.1

/-- An action that exchanges no code. -/
theorem Untried.effect (h : Untried i db) (he : Effect i db a r db') (ha : ∀ p c v, a ≠ .ext (Ext.exchangeCode p c v)) :
    Untried i db' := by
  have hnew : ∀ {x : Ext} {y}, a = .ext x → db'.calls = db.calls ++ [⟨i, x, y⟩] → Untried i db' := by
    intro x y hax hcalls
    rw [Untried, hcalls, List.countP_append, h, Nat.zero_add, List.countP_eq_zero]
    intro call hcall hexchange
    rw [List.mem_singleton.1 hcall] at hexchange
    simp only [exchanges, Ext.isExchange, Bool.and_eq_true] at hexchange
    split at hexchange
    · exact ha _ _ _ hax
    · cases hexchange.2
  rcases he.calls with ⟨hcalls, -⟩ | ⟨x, hax, ⟨e, hcalls, -⟩ | ⟨hcalls, -⟩⟩
  · rwa [Untried, hcalls]
  · exact hnew hax hcalls
  · exact hnew hax hcalls

theorem stable_untried : Stable (ledger Γ S ops) i (Untried i) := fun h hr => Untried.frame h hr

/-- The others leave the log of this thread alone. -/
theorem stable_untouched : Stable (ledger Γ S ops) i (Untouched i) :=
  fun h hr => ⟨h.1.frame hr, (Frame.log hr).trans h.2⟩

/-- An action that only looks. -/
structure Looks (a : Act (database Γ)) : Prop where
  reads : Reads a
  ext : ∀ x, a = .ext x → x = Ext.utcnow

/-- Looking exchanges no code. -/
theorem Looks.untried (h : Looks a) (hu : Untried i db) (he : Effect i db a r db') : Untried i db' :=
  hu.effect he fun _ _ _ ha => nomatch h.ext _ ha

/-- Looking writes nothing. -/
theorem Looks.untouched (h : Looks a) (hu : Untouched i db) (he : Effect i db a r db') : Untouched i db' :=
  ⟨h.untried hu.1 he, h.reads.log he hu.2⟩

/-- Looking is allowed at any time. -/
theorem Looks.allowed (h : Looks a) (hcommit : a ≠ .commit) : Allowed S ops i db a :=
  h.reads.allowed h.ext fun ha => absurd ha hcommit

/-- The row that a callback has locked and read: when it is not consumed, a start inserted it so and nobody has consumed it. -/
structure Locked (i : Nat) (x : AuthOidcState) (db : Db (database Γ)) : Prop where
  untouched : Untouched i db
  owner : db.owner (Key.state x.id) = some i
  inserted : x.consumedAt = none → ∃ j, (j, Write.insertState x) ∈ db.journal
  fresh : x.consumedAt = none → ∀ j t, (j, Write.patchState x.id t) ∉ db.journal

/-- What a thread has locked, the others leave as it is. -/
theorem stable_locked {x : AuthOidcState} : Stable (ledger Γ S ops) i (Locked i x) := by
  intro db db' h hr
  obtain ⟨js, hjournal, -, hothers⟩ := Frame.commits hr
  refine ⟨stable_untouched h.untouched hr, (Frame.owner hr _).2 h.owner, fun hnone => ?_, fun hnone j t hmem => ?_⟩
  · obtain ⟨j, hj⟩ := h.inserted hnone
    exact ⟨j, (Frame.later hr).journal.mem hj⟩
  · rw [hjournal, List.mem_append] at hmem
    rcases hmem with hmem | hmem
    · exact h.fresh hnone j t hmem
    · exact (hothers _ hmem).2 _ List.mem_cons_self h.owner

/-- Looking leaves the locked row as it is. -/
theorem Locked.looks {x : AuthOidcState} (h : Locked i x db) (ha : Looks a) (hb : a.isBracket = false)
    (he : Effect i db a r db') : Locked i x db' := by
  have hjournal := (he.inside hb).2.1
  refine ⟨ha.untouched h.untouched he, he.owner_inside hb h.owner, fun hnone => ?_, fun hnone => ?_⟩
  · rw [hjournal]
    exact h.inserted hnone
  · rw [hjournal]
    exact h.fresh hnone

/-- The rows with a hash that a callback has locked. -/
structure Holding (i : Nat) (hash : Text) (keys : List Key) (db : Db (database Γ)) : Prop where
  untouched : Untouched i db
  rows : ∀ k ∈ keys, db.owner k = some i ∧ k ∈ (Stmt.lockState hash).rows db.store

/-- A locked row stays what it is. -/
theorem mem_states_of_apart {ws : List Write} {x : AuthOidcState} (hws : ∀ w ∈ ws, Key.state x.id ∉ w.keys Γ) {V : Store}
    (hx : x ∈ V.states) : x ∈ (applyAll (D := database Γ) ws V).states := by
  refine applyAll_induct (D := database Γ) (P := fun V' => x ∈ V'.states) hx fun w hw V' hV' => ?_
  show x ∈ (w.apply V').states
  rcases states_apply w V' with ⟨hstates, -⟩ | ⟨row, -, hstates⟩ | ⟨id, t, rfl, hstates⟩ | ⟨id, rfl, hstates⟩
  · rwa [hstates]
  · rw [hstates]
    exact List.mem_append_left _ hV'
  · have hid : x.id ≠ id := fun heq => hws _ hw (heq ▸ List.mem_cons_self)
    rw [hstates]
    exact List.mem_map.2 ⟨x, hV', if_neg (by simpa using hid)⟩
  · have hid : x.id ≠ id := fun heq => hws _ hw (heq ▸ List.mem_cons_self)
    rw [hstates]
    exact List.mem_filter.2 ⟨hV', by simpa using hid⟩

/-- The rows that `SELECT ... FOR UPDATE` finds by a hash. -/
theorem mem_rows_lockState {hash : Text} {k : Key} {V : Store} :
    k ∈ (Stmt.lockState hash).rows V ↔ ∃ x ∈ V.states, x.stateHash = hash ∧ Key.state x.id = k := by
  simp only [Stmt.rows, List.mem_map, List.mem_filter, decide_eq_true_eq, and_assoc]

/-- The rows that are locked stay locked. -/
theorem stable_holding {hash : Text} {keys : List Key} : Stable (ledger Γ S ops) i (Holding i hash keys) := by
  intro db db' h hr
  refine ⟨stable_untouched h.untouched hr, fun k hk => ?_⟩
  obtain ⟨howner, hrow⟩ := h.rows k hk
  obtain ⟨x, hx, hhash, rfl⟩ := mem_rows_lockState.1 hrow
  obtain ⟨js, -, hstore, hothers⟩ := Frame.commits hr
  refine ⟨(Frame.owner hr _).2 howner, mem_rows_lockState.2 ⟨x, ?_, hhash, rfl⟩⟩
  rw [hstore]
  refine mem_states_of_apart (fun w hw hmem => ?_) hx
  obtain ⟨j, hj, rfl⟩ := List.mem_map.1 hw
  exact (hothers j hj).2 _ hmem howner

theorem looks_start (s : Stmt) : Looks (.start s : Act (database Γ)) := ⟨fun _ => id, nofun⟩

theorem looks_query (q : Query) : Looks (.query q : Act (database Γ)) := ⟨fun _ => id, nofun⟩

theorem looks_utcnow : Looks (.ext .utcnow : Act (database Γ)) := ⟨fun _ => id, fun _ h => (Act.ext.inj h).symm⟩

/-- Locking rows only looks. -/
theorem looks_lockState (hash : Text) (found : List Key) : Looks (.finish (.lockState hash) found : Act (database Γ)) := by
  refine ⟨fun w hw => ?_, nofun⟩
  obtain ⟨-, k, -, hk⟩ := hw
  cases k <;> cases hk

/-- `SELECT ... FOR UPDATE` locks the rows with the hash. -/
theorem leads_lockState (hash : Text) :
    Leads (ledger Γ S ops) i (Untouched i) (modify (.lockState hash) : Service Γ (List Key)) fun keys => Holding i hash keys := by
  refine leads_bind (Q := fun _ => Untouched i) ?_ fun found => ?_
  · refine leads_act stable_untouched (fun _ => stable_untouched) fun hp hinv he => ?_
    exact ⟨(looks_start _).allowed nofun, fun _ _ => (looks_start _).untouched hp he⟩
  · refine leads_act stable_untouched (fun keys => stable_holding) fun hp hinv he => ?_
    refine ⟨(looks_lockState hash found).allowed nofun, fun keys hr => ?_⟩
    have huntouched := (looks_lockState hash found).untouched hp he
    subst hr
    obtain ⟨rfl, rfl⟩ := he.finished
    refine ⟨huntouched, fun k hk => ⟨if_pos (List.mem_append_left _ hk), ?_⟩⟩
    have hrow := (mem_of_mem_stillThere hk).2
    rwa [Db.view, hp.2, applyAll_nil] at hrow

/-- The rows that a callback reads under its lock: a single one is locked. -/
structure Found (i : Nat) (hash : Text) (found : List AuthOidcState) (db : Db (database Γ)) : Prop where
  untouched : Untouched i db
  locked : ∀ x, found = [x] → x.stateHash = hash ∧ Locked i x db

/-- What was read under a lock stays so. -/
theorem stable_found {hash : Text} {found : List AuthOidcState} : Stable (ledger Γ S ops) i (Found i hash found) :=
  fun h hr => ⟨stable_untouched h.untouched hr, fun x hx => ⟨(h.locked x hx).1, stable_locked (h.locked x hx).2 hr⟩⟩

/-- Every state that a thread sees was inserted by a start. -/
theorem Ledger.stored (h : Ledger S ops db) (hS : S.states = []) {x : AuthOidcState} (hx : x ∈ (db.view i).states) :
    Stored (db.history i) x := by
  rw [h.replays.view i] at hx
  exact stored_of_replay hS (h.apart i) hx

/-- The row that the query finds is one that is locked. -/
theorem locked_of_answer (hS : S.states = []) (hinv : Ledger S ops db) {hash : Text} {keys : List Key} (hkeys : keys ≠ [])
    (h : Holding i hash keys db) {x : AuthOidcState} (hx : Query.answer Γ (db.view i) (.stateByHash hash) = [x]) :
    x.stateHash = hash ∧ Locked i x db := by
  obtain ⟨huntouched, hrows⟩ := h
  have hview : db.view i = db.store := by rw [Db.view, huntouched.2, applyAll_nil]
  rw [hview] at hx
  have hxs : (Store.states db.store).filter (fun s => s.stateHash = hash) = [x] := hx
  obtain ⟨hmem, hhash⟩ : x ∈ Store.states db.store ∧ x.stateHash = hash := by
    have hmem : x ∈ (Store.states db.store).filter fun s => s.stateHash = hash := hxs ▸ List.mem_singleton_self x
    rwa [List.mem_filter, decide_eq_true_eq] at hmem
  have howner : db.owner (Key.state x.id) = some i := by
    obtain ⟨k, hk⟩ := List.exists_mem_of_ne_nil keys hkeys
    obtain ⟨howner, hrow⟩ := hrows k hk
    obtain ⟨y, hy, hyhash, rfl⟩ := mem_rows_lockState.1 hrow
    have hyx : y ∈ (Store.states db.store).filter fun s => s.stateHash = hash :=
      List.mem_filter.2 ⟨hy, decide_eq_true hyhash⟩
    obtain rfl : y = x := List.mem_singleton.1 (hxs ▸ hyx)
    exact howner
  have hhistory : db.history i = db.journal := by rw [Db.history_eq huntouched.2, List.map_nil, List.append_nil]
  obtain ⟨⟨j, row, hinsert, horigin⟩, hfresh⟩ := hinv.stored (i := i) hS (hview ▸ hmem)
  have hunconsumed := (hinv.started i _ hinsert row rfl).unconsumed
  rw [hhistory] at hinsert hfresh
  refine ⟨hhash, huntouched, howner, fun hnone => ⟨j, ?_⟩, fun hnone => hfresh hnone⟩
  rw [hnone, ← hunconsumed] at horigin
  exact horigin ▸ hinsert

/-- A row that is read under its lock was inserted by a start. -/
theorem leads_readState (hS : S.states = []) {hash : Text} {keys : List Key} (hkeys : keys ≠ []) :
    Leads (ledger Γ S ops) i (Holding i hash keys) (query (.stateByHash hash) : Service Γ (List AuthOidcState))
      fun found => Found i hash found := by
  refine leads_act stable_holding (fun found => stable_found) fun {db r db'} hp hinv he => ?_
  refine ⟨(looks_query _).allowed nofun, fun xs hr => ⟨(looks_query _).untouched hp.untouched he, fun x hx => ?_⟩⟩
  subst hr
  obtain ⟨hhash, hlocked⟩ := locked_of_answer hS hinv hkeys hp (he.answer ▸ hx)
  exact ⟨hhash, hlocked.looks (looks_query _) rfl he⟩

/-- The only row is the one that was read. -/
theorem leads_oneState {hash : Text} {found : List AuthOidcState} :
    Leads (ledger Γ S ops) i (Found i hash found) (oneOrNone found : Service Γ (Option AuthOidcState))
      fun x => Found i hash x.toList := by
  rcases found with _ | ⟨x, _ | ⟨y, ys⟩⟩
  · exact leads_pure stable_found fun _ h => h
  · exact leads_pure stable_found fun _ h => h
  · exact leads_throw _

/-- The transaction of a callback is about to consume a row. -/
structure Pending (i : Nat) (x : AuthOidcState) (t : DateTime) (db : Db (database Γ)) : Prop where
  untried : Untried i db
  log : db.log i = [Write.patchState x.id t]
  inserted : ∃ j, (j, Write.insertState x) ∈ db.journal

/-- The consumption that is pending stays so. -/
theorem stable_pending {x : AuthOidcState} {t : DateTime} : Stable (ledger Γ S ops) i (Pending i x t) := by
  intro db db' h hr
  obtain ⟨j, hj⟩ := h.inserted
  exact ⟨h.untried.frame hr, (Frame.log hr).trans h.log, j, (Frame.later hr).journal.mem hj⟩

/-- The `UPDATE` of a state writes its time of consumption. -/
theorem mayWrite_patchState {x : AuthOidcState} {t : DateTime} {found : List Key} {w : Write}
    (h : (Act.finish (.patchState x.id t) found : Act (database Γ)).mayWrite w) : w = .patchState x.id t := by
  obtain ⟨V, k, hk, hchange⟩ := h
  obtain ⟨s, hs, rfl⟩ := List.mem_map.1 (show k ∈ List.map _ _ from hk)
  rw [of_decide_eq_true (List.mem_filter.1 hs).2] at hchange
  exact (Option.some.inj hchange).symm

/-- The `UPDATE` of the locked row. -/
theorem pending_of_finish {x : AuthOidcState} {t : DateTime} {found rows : List Key} (h : Locked i x db) (hnone : x.consumedAt = none)
    (he : Effect (D := database Γ) i db (.finish (.patchState x.id t) found) (.ok rows) db') (hone : rows.length = 1) :
    Pending i x t db' := by
  obtain ⟨j, hj⟩ := h.inserted hnone
  obtain ⟨hstill, hdb⟩ := he.finished
  obtain ⟨k, hk⟩ := List.length_eq_one_iff.1 hone
  have hrow : k ∈ (Stmt.patchState x.id t).rows (db.view i) :=
    (mem_of_mem_stillThere (hstill ▸ hk ▸ List.mem_singleton_self k)).2
  obtain ⟨s, hs, rfl⟩ := List.mem_map.1 (show k ∈ List.map _ _ from hrow)
  have hchanges : changes db i (Stmt.patchState x.id t) found = [Write.patchState x.id t] := by
    show (stillThere db i (Stmt.patchState x.id t) found).filterMap (Stmt.change (.patchState x.id t)) = _
    rw [← hstill, hk, of_decide_eq_true (List.mem_filter.1 hs).2]
    rfl
  refine ⟨h.untouched.1.effect he nofun, ?_, j, he.later.journal.mem hj⟩
  rw [hdb, Db.log_write, hchanges, h.untouched.2, List.nil_append]

/-- The locked row is marked as consumed. -/
theorem leads_patchState (hop : (ops i).presented ≠ none) {x : AuthOidcState} {t : DateTime} (hnone : x.consumedAt = none) :
    Leads (ledger Γ S ops) i (Locked i x) (updateRow (.patchState x.id t) : Service Γ Unit) fun _ => Pending i x t := by
  refine leads_bind (Q := fun (rows : List Key) db => rows.length = 1 → Pending i x t db) ?_ fun rows => ?_
  · refine leads_bind (Q := fun _ => Locked i x) ?_ fun found => ?_
    · refine leads_act stable_locked (fun _ => stable_locked) fun hp hinv he => ?_
      exact ⟨(looks_start _).allowed nofun, fun _ _ => hp.looks (looks_start _) rfl he⟩
    · refine leads_act stable_locked (fun rows db db' h hr hone => stable_pending (h hone) hr) fun {db r db'} hp hinv he => ?_
      have hhistory : db.history i = db.journal := by
        rw [Db.history_eq hp.untouched.2, List.map_nil, List.append_nil]
      obtain ⟨j, hj⟩ := hp.inserted hnone
      refine ⟨⟨fun row hrow => ?_, fun id t' hpatch => ?_, nofun, nofun, nofun, fun w hw => ?_⟩, fun rows hr hone => ?_⟩
      · cases mayWrite_patchState hrow
      · obtain ⟨rfl, -⟩ := Write.patchState.inj (mayWrite_patchState hpatch)
        exact ⟨⟨j, x, hj, rfl⟩, hhistory ▸ hp.fresh hnone⟩
      · rw [mayWrite_patchState hw]
        exact permitted_of_calm hop fun hsensitive => hsensitive rfl
      · subst hr
        exact pending_of_finish hp hnone he hone
  · split
    · rename_i hone
      exact leads_pure stable_pending fun db h => h hone
    · exact leads_throw _

/-- What the callback has read is the row that it consumes, up to the time of consumption. -/
def Reread (x s : AuthOidcState) : Prop := s = { x with consumedAt := s.consumedAt }

/-- The row that the callback has consumed, read again. -/
structure Rereading (i : Nat) (x : AuthOidcState) (t : DateTime) (found : List AuthOidcState) (db : Db (database Γ)) : Prop where
  pending : Pending i x t db
  same : ∀ s ∈ found, Reread x s

theorem stable_rereading {x : AuthOidcState} {t : DateTime} {found : List AuthOidcState} :
    Stable (ledger Γ S ops) i (Rereading i x t found) := fun h hr => ⟨stable_pending h.pending hr, h.same⟩

/-- The consumed row is read again. -/
theorem leads_refreshState (hS : S.states = []) {x : AuthOidcState} {t : DateTime} :
    Leads (ledger Γ S ops) i (Pending i x t) (query (.stateByHash x.stateHash) : Service Γ (List AuthOidcState))
      fun found => Rereading i x t found := by
  refine leads_act stable_pending (fun found => stable_rereading) fun {db r db'} hp hinv he => ?_
  refine ⟨(looks_query _).allowed nofun, fun xs hr => ?_⟩
  subst hr
  have hanswer := he.answer
  obtain rfl : db = db' := by cases he; rfl
  refine ⟨hp, fun s hs => ?_⟩
  rw [hanswer] at hs
  obtain ⟨hmem, hhash⟩ := List.mem_filter.1 (show s ∈ List.filter _ (Store.states (db.view i)) from hs)
  -- the row that is read was inserted with the hash of the row that is consumed
  obtain ⟨⟨j, row, hrow, horigin⟩, -⟩ := hinv.stored (i := i) hS hmem
  obtain ⟨k, hk⟩ := hp.inserted
  have hsame : row.stateHash = x.stateHash := by
    rw [← of_decide_eq_true hhash, horigin]
  rw [(eq_of_stateHash (hinv.apart i) hrow (List.mem_append_left _ hk) hsame).2] at horigin
  exact horigin

/-- The refreshed row is the one that was read again. -/
theorem leads_refreshed {x : AuthOidcState} {t : DateTime} {found : List AuthOidcState} :
    Leads (ledger Γ S ops) i (Rereading i x t found) (refreshed found : Service Γ AuthOidcState)
      fun s => Rereading i x t [s] := by
  rcases found with _ | ⟨s, _ | ⟨y, ys⟩⟩
  · exact leads_throw _
  · exact leads_pure stable_rereading fun _ h => h
  · exact leads_throw _

/-- The end of the transaction of `consume_oidc_authorization_state`. -/
def Consuming (i : Nat) (hash bindingHash : Text) (t : DateTime) (result : ConsumeResult) (db : Db (database Γ)) : Prop :=
  match result with
  | .consumed s => ∃ x, Reread x s ∧ x.stateHash = hash ∧ x.browserBindingHash = bindingHash ∧ t < x.expiresAt ∧ Pending i x t db
  | _ => Untouched i db

/-- The outcome of a consumption stays. -/
theorem stable_consuming {hash bindingHash : Text} {t : DateTime} {result : ConsumeResult} :
    Stable (ledger Γ S ops) i (Consuming i hash bindingHash t result) := by
  intro db db' h hr
  cases result with
  | consumed s =>
    obtain ⟨x, hx, hhash, hbinding, htime, hpending⟩ := h
    exact ⟨x, hx, hhash, hbinding, htime, stable_pending hpending hr⟩
  | _ => exact stable_untouched h hr

/-- `consume_oidc_authorization_state`: whoever gets the row as consumed has it pending in the transaction. -/
theorem leads_consume (hop : (ops i).presented ≠ none) (hS : S.states = []) {hash bindingHash : Text} {t : DateTime} :
    Leads (ledger Γ S ops) i (Untouched i) (consumeOidcAuthorizationState hash bindingHash t : Service Γ ConsumeResult)
      fun result => Consuming i hash bindingHash t result := by
  refine leads_bind (leads_lockState hash) fun locked => ?_
  split
  · exact leads_pure stable_consuming fun db h => h.untouched
  · rename_i hlocked
    refine leads_bind (leads_readState hS hlocked) fun found => leads_bind leads_oneState fun x => ?_
    cases x with
    | none => exact leads_pure stable_consuming fun db h => h.untouched
    | some x =>
      simp only
      split
      · exact leads_pure stable_consuming fun db h => h.untouched
      · rename_i hconsumed
        have hnone : x.consumedAt = none := Option.not_isSome_iff_eq_none.1 hconsumed
        split
        · exact leads_pure stable_consuming fun db h => h.untouched
        · rename_i htime
          split
          · exact leads_pure stable_consuming fun db h => h.untouched
          · rename_i hbinding
            by_cases hhash : x.stateHash = hash
            · subst hhash
              refine leads_bind (leads_conseq (leads_patchState hop hnone)
                (fun db h => (Found.locked h x rfl).2) fun _ _ h => h) fun _ => ?_
              refine leads_bind (leads_refreshState hS) fun found => leads_bind leads_refreshed fun s => ?_
              exact leads_pure stable_consuming fun db h =>
                ⟨x, h.same s (List.mem_singleton_self s), rfl, not_not.1 hbinding, lt_of_not_ge htime, h.pending⟩
            · intro db h
              exact absurd (Found.locked h x rfl).1 hhash

/-- The thread has consumed the row that it goes on with, and nothing else. -/
structure Spent (ops : Nat → Op) (i : Nat) (s : AuthOidcState) (db : Db (database Γ)) : Prop where
  untouched : Untouched i db
  consumed : ∃ x t, Reread x s ∧ Consumed Γ ops db.journal i x t

/-- A consumption that is committed stays. -/
theorem stable_spent {s : AuthOidcState} : Stable (ledger Γ S ops) i (Spent ops i s) := by
  intro db db' h hr
  obtain ⟨x, t, hx, hconsumed⟩ := h.consumed
  exact ⟨stable_untouched h.untouched hr, x, t, hx, consumed_prefix hconsumed (Frame.later hr).journal⟩

/-- The commit of the consumption. -/
theorem leads_commitConsumption {providerId state binding : Text} {t : DateTime}
    (hop : (ops i).presented = some (providerId, state, some binding)) (result : ConsumeResult) :
    Leads (ledger Γ S ops) i (Consuming i (Γ.hashToken state) (Γ.hashToken binding) t result) (commit : Service Γ Unit)
      fun _ db => ∀ s, result = .consumed s → Spent ops i s db := by
  have hlooks : Reads (.commit : Act (database Γ)) := fun _ => id
  refine leads_act stable_consuming (fun _ db db' h hr s hs => stable_spent (h s hs) hr) fun {db r db'} hp hinv he => ?_
  cases result with
  | consumed s =>
    obtain ⟨x, hx, hhash, hbinding, htime, huntried, hlog, j, hj⟩ := hp
    have hhistory : db.history i = db.journal ++ [(i, Write.patchState x.id t)] := by
      rw [Db.history_eq hlog]
      rfl
    have hconsumed : Consumed Γ ops (db.history i) i x t := by
      refine ⟨⟨j, ?_⟩, ⟨providerId, state, binding, hop, hhash, hbinding⟩, htime⟩
      rw [hhistory]
      exact (List.singleton_sublist.2 hj).append (List.Sublist.refl _)
    refine ⟨⟨fun _ => False.elim, fun _ _ => False.elim, fun _ _ _ => ⟨x, t, hconsumed⟩, nofun, nofun, fun _ => False.elim⟩,
      fun _ hr s' hs' => ?_⟩
    subst hr
    obtain rfl := ConsumeResult.consumed.inj hs'
    have hcalls := huntried.effect he nofun
    cases he
    exact ⟨⟨hcalls, Db.log_commit _⟩, x, t, hx, hconsumed⟩
  | _ => exact ⟨hlooks.allowed nofun fun _ => hp.2, fun _ _ _ => nofun⟩

/-- A callback that goes on has consumed the state that it presents, for its provider. -/
theorem leads_consumeCallbackState (hS : S.states = []) {provider : OidcProviderSettings} {providerId state : Text}
    {binding : Option Text} (hop : (ops i).presented = some (providerId, state, binding)) :
    Leads (ledger Γ S ops) i (Untried i) (consumeCallbackState provider state binding : Service Γ AuthOidcState)
      fun s db => s.providerId = provider.providerId ∧ Spent ops i s db := by
  cases binding with
  | none => exact leads_throw _
  | some binding =>
    refine leads_bind (Q := fun _ => Untried i) ?_ fun t => ?_
    · refine leads_act stable_untried (fun _ => stable_untried) fun hp hinv he => ?_
      exact ⟨looks_utcnow.allowed nofun, fun _ _ => looks_utcnow.untried hp he⟩
    refine leads_bind (Q := fun result db => ∀ s, result = .consumed s → Spent ops i s db) ?_ fun result => ?_
    · refine leads_transaction (B := Untouched i) (Q := fun result =>
        Consuming i (Γ.hashToken state) (Γ.hashToken binding) t result) ?_ (leads_consume (by rw [hop]; exact nofun) hS) (leads_commitConsumption hop)
        (fun result db db' h hr s hs => stable_spent (h s hs) hr) ?_
      · refine leads_act stable_untried (fun _ => stable_untouched) fun hp hinv he => ?_
        have hlooks : Looks (.begin : Act (database Γ)) := ⟨fun _ => id, nofun⟩
        refine ⟨hlooks.allowed nofun, fun _ hr => ⟨hlooks.untried hp he, ?_⟩⟩
        subst hr
        cases he
        exact Db.log_begin _
      · have hlooks : Looks (.rollback : Act (database Γ)) := ⟨fun _ => id, nofun⟩
        exact leads_act stable_true (fun _ => stable_true) fun _ _ _ => ⟨hlooks.allowed nofun, fun _ _ => trivial⟩
    · cases result with
      | consumed s =>
        simp only [require]
        split
        · rename_i hprovider
          exact leads_pure (fun h hr => ⟨h.1, stable_spent h.2 hr⟩) fun db h => ⟨of_decide_eq_true hprovider, h s rfl⟩
        · exact leads_throw _
      | _ => exact leads_throw _

end OidcStateAux

end AuthService
