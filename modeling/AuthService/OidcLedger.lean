import AuthService.Interleavings
import AuthService.Library.WriteHistory

/-!
# What stands behind the writes of an OpenID Connect flow

The rows of the authorization states, what was drawn for them, and what a callback has to have done before it issues a session or
records an authentication. The ledger says that every write on record has this behind it; threads of the service keep it, whatever
the order of their steps.
-/

namespace AuthService

open ReadCommitted RelyGuarantee

variable {Γ : Ctx}

/-- What a callback presents: its provider, the state and the cookie that binds the browser. -/
def Op.presented : Op → Option (Text × Text × Option Text)
  | .completeCallback providerId state _ binding _ _ _ _ => some (providerId, state, binding)
  | .completeErrorCallback providerId state binding _ _ _ _ => some (providerId, state, binding)
  | _ => none

/-- The thread has committed a write, or has asked the world for more than the time. -/
def Acted (db : Db (database Γ)) (i : Nat) : Prop :=
  (∃ w, (i, w) ∈ db.journal) ∨ ∃ call ∈ db.calls, call.thread = i ∧ call.ext ≠ .utcnow

/-- The call exchanges a code. -/
def Ext.isExchange : Ext → Bool
  | .exchangeCode .. => true
  | _ => false

/-- The call exchanges a code for a callback that presents the state. -/
def exchangesFor (ops : Nat → Op) (state : Text) (call : Call (database Γ)) : Bool :=
  Ext.isExchange call.ext && (ops call.thread).presented.any fun p => decide (p.2.1 = state)

/-- The thread read the time. -/
def ReadTime (db : Db (database Γ)) (i : Nat) (t : DateTime) : Prop := (⟨i, .utcnow, .ok t⟩ : Call (database Γ)) ∈ db.calls

/-- The thread drew the id. -/
def DrewId (db : Db (database Γ)) (i : Nat) (id : Uuid) : Prop := (⟨i, .newId, .ok id⟩ : Call (database Γ)) ∈ db.calls

/-- The thread drew the token. -/
def DrewToken (db : Db (database Γ)) (i : Nat) (token : Text) : Prop :=
  (⟨i, .generateToken, .ok token⟩ : Call (database Γ)) ∈ db.calls

/-- The thread is the start that made a row: it drew the id and the state. -/
structure Started (ops : Nat → Op) (db : Db (database Γ)) (j : Nat) (row : AuthOidcState) : Prop where
  id : DrewId db j row.id
  state : ∃ token, DrewToken db j token ∧ row.stateHash = Γ.hashToken token
  op : ∃ path session ip language, ops j = .startAuthorization row.providerId path row.purpose session ip language ∧
    row.expectedUserId = session.map (fun c => c.user.id) ∧ row.expectedSessionId = session.map fun c => c.session.id
  unconsumed : row.consumedAt = none

variable (Γ) in
/-- The thread has consumed a row that was there before, in time, for the state and the cookie that it presents. -/
structure Consumed (ops : Nat → Op) (writes : List (Nat × Write)) (i : Nat) (row : AuthOidcState) (t : DateTime) : Prop where
  writes : ∃ j, [(j, Write.insertState row), (i, Write.patchState row.id t)].Sublist writes
  presented : ∃ providerId state binding, (ops i).presented = some (providerId, state, some binding) ∧
    row.stateHash = Γ.hashToken state ∧ row.browserBindingHash = Γ.hashToken binding
  inTime : t < row.expiresAt

/-- The token that the thread got for its code with the verifier of the row has claims with the nonce of the row. -/
def Verified (db : Db (database Γ)) (i : Nat) (code : Text) (row : AuthOidcState) (claims : IdTokenClaims) : Prop :=
  ∃ idToken nonce : Text,
    (⟨i, .exchangeCode row.providerId code row.pkceVerifier, .ok idToken⟩ : Call (database Γ)) ∈ db.calls ∧
    (⟨i, .decodeIdToken row.providerId idToken, .ok claims⟩ : Call (database Γ)) ∈ db.calls ∧
    claims.nonce = .text nonce ∧ Γ.hashToken nonce = row.nonceHash

/-- The time of the authentication in the claims of a token. -/
def IdTokenClaims.authenticatedAt (claims : IdTokenClaims) : Option DateTime :=
  match claims.authTime with
  | .int n => some (seconds n)
  | _ => none

/-- The session on which a write records an authentication by a provider, and its time. -/
def Write.marked : Write → Option (Uuid × DateTime)
  | .insertSession row => row.lastOidcAuthenticatedAt.map fun t => (row.id, t)
  | .patchSession id patch => patch.lastOidcAuthenticatedAt.map fun t => (id, t)
  | _ => none

/-- The write issues a session, or records an authentication by a provider. -/
def Write.Sensitive : Write → Prop
  | .insertSession _ => True
  | w => w.marked ≠ none

/-- An identity that is or was in the tables. -/
def Known (store : Store) (db : Db (database Γ)) (x : AuthIdentity) : Prop :=
  x ∈ store.identities ∨ ∃ j, (j, Write.insertIdentity x) ∈ db.journal

/-- What a reauthentication records: a time that was not too far in the future when the token was checked. -/
structure RecentTime (db : Db (database Γ)) (i : Nat) (t : DateTime) : Prop where
  leeway : ∃ r, ReadTime db i r ∧ t ≤ r + seconds Γ.oidc.authTimeFutureLeewaySeconds
  fresh : ∃ r, ReadTime db i r ∧ r - t ≤ seconds Γ.oidc.reauthFreshnessSeconds

/-- A reauthentication marks the session for which it was started, and the token names an identity of its user. -/
structure Reauthenticates (store : Store) (db : Db (database Γ)) (i : Nat) (row : AuthOidcState) (claims : IdTokenClaims)
    (session : Option AuthenticatedSessionContext) (w : Write) : Prop where
  purpose : row.purpose = .accountDeletionReauth
  session : ∃ context t, session = some context ∧ w.marked = some (context.session.id, t) ∧ claims.authenticatedAt = some t ∧
    RecentTime db i t ∧ row.expectedSessionId = some context.session.id ∧ row.expectedUserId = some context.user.id ∧
    ∃ subject x, claims.sub = .text subject ∧ Known store db x ∧ x.userId = context.user.id ∧
      x.providerId = row.providerId ∧ x.providerSubject = Γ.strip subject

/-- A login records the time of its token. -/
structure LogsIn (row : AuthOidcState) (claims : IdTokenClaims) (w : Write) : Prop where
  purpose : row.purpose = .login
  time : ∀ sessionId t, w.marked = some (sessionId, t) → claims.authenticatedAt = some t

/-- A deletion without a password was asked for soon after the authentication of the session. -/
def Present (db : Db (database Γ)) (i : Nat) (context : AuthenticatedSessionContext) : Prop :=
  ∃ r t, ReadTime db i r ∧ context.session.lastOidcAuthenticatedAt = some t ∧
    r - t ≤ seconds Γ.oidc.reauthFreshnessSeconds

/-- What stands behind a write of an operation. -/
def Permitted (store : Store) (ops : Nat → Op) (db : Db (database Γ)) (i : Nat) (w : Write) : Prop :=
  match ops i with
  | .completeCallback providerId _ code _ session _ _ _ => w.Sensitive →
    ∃ row t claims, Consumed Γ ops db.journal i row t ∧ row.providerId = providerId ∧ Verified db i code row claims ∧
      (LogsIn row claims w ∨ Reauthenticates store db i row claims session w)
  | .completeErrorCallback .. => ¬w.Sensitive
  | .deleteAccount context _ _ _ _ => w.marked = none ∧ (context.user.passwordHash = none → Present db i context)
  | _ => w.marked = none

namespace OidcStateAux

/-! ## The rows that the writes make -/

/-- The earlier write inserts another state than the later one, and a row that was consumed is neither inserted again nor
consumed by another thread. -/
def Apart (x y : Nat × Write) : Prop :=
  (∀ id t, x.2 = .patchState id t →
    (∀ row, y.2 = .insertState row → row.id ≠ id) ∧ ∀ t', y.2 = .patchState id t' → x.1 = y.1) ∧
  ∀ row row', x.2 = .insertState row → y.2 = .insertState row' → row.stateHash ≠ row'.stateHash

/-- Writes to different rows are apart. -/
theorem apart_of_keys (x y : Nat × Write) (h : ∀ k ∈ (database Γ).keys x.2, k ∉ (database Γ).keys y.2) : Apart x y := by
  obtain ⟨i, w⟩ := x
  obtain ⟨j, v⟩ := y
  refine ⟨?_, ?_⟩
  · rintro id t rfl
    have hid : Key.state id ∉ (database Γ).keys v := h _ List.mem_cons_self
    refine ⟨?_, ?_⟩
    · rintro row rfl heq
      exact hid (heq ▸ List.mem_cons_self)
    · rintro t' rfl
      exact absurd List.mem_cons_self hid
  · rintro row row' rfl rfl heq
    have hhash : Key.stateHash row.stateHash ∉ (database Γ).keys (.insertState row') :=
      h _ (List.mem_cons_of_mem _ List.mem_cons_self)
    exact hhash (heq ▸ List.mem_cons_of_mem _ List.mem_cons_self)

/-- A row of the states: the thread that inserted it, and whether it has been consumed. -/
structure Stored (writes : List (Nat × Write)) (x : AuthOidcState) : Prop where
  origin : ∃ j row, (j, Write.insertState row) ∈ writes ∧ x = { row with consumedAt := x.consumedAt }
  fresh : x.consumedAt = none → ∀ i t, (i, Write.patchState x.id t) ∉ writes

/-- A state stays as it was inserted until it is consumed. -/
theorem Stored.append {writes : List (Nat × Write)} {x : AuthOidcState} (h : Stored writes x) (y : Nat × Write)
    (hy : x.consumedAt = none → ∀ t, y.2 ≠ .patchState x.id t) : Stored (writes ++ [y]) x := by
  obtain ⟨⟨j, row, hrow, hx⟩, hfresh⟩ := h
  refine ⟨⟨j, row, List.mem_append_left _ hrow, hx⟩, fun hnone i t hmem => ?_⟩
  rcases List.mem_append.1 hmem with hmem | hmem
  · exact hfresh hnone i t hmem
  · rw [List.mem_singleton] at hmem
    exact hy hnone t (hmem ▸ rfl)

/-- A write that changes no state row, or one row of them. -/
theorem states_apply (w : Write) (S : Store) :
    (w.apply S).states = S.states ∧ (∀ id t, w ≠ .patchState id t) ∨
      (∃ row, w = .insertState row ∧ (w.apply S).states = S.states ++ [row]) ∨
      (∃ id t, w = .patchState id t ∧
        (w.apply S).states = modifyAt S.states (fun s => s.id = id) fun s => { s with consumedAt := some (toMillis t) }) ∨
      ∃ id, w = .deleteState id ∧ (w.apply S).states = S.states.filter fun s => s.id ≠ id := by
  cases w with
  | insertState row => exact Or.inr (Or.inl ⟨row, rfl, rfl⟩)
  | patchState id t => exact Or.inr (Or.inr (Or.inl ⟨id, t, rfl, rfl⟩))
  | deleteState id => exact Or.inr (Or.inr (Or.inr ⟨id, rfl, rfl⟩))
  | _ => exact Or.inl ⟨rfl, nofun⟩

/-- The rows that writes make of tables without states. -/
theorem stored_of_replay {S : Store} (hS : S.states = []) {writes : List (Nat × Write)} (hapart : writes.Pairwise Apart)
    {x : AuthOidcState} (hx : x ∈ (applyAll (D := database Γ) (writes.map Prod.snd) S).states) : Stored writes x := by
  induction writes using List.reverseRecOn generalizing x with
  | nil =>
    rw [List.map_nil, applyAll_nil, hS] at hx
    exact absurd hx List.not_mem_nil
  | append_singleton writes y ih =>
    obtain ⟨hbefore, -, hcross⟩ := List.pairwise_append.1 hapart
    rw [List.map_append, List.map_singleton, applyAll_append, applyAll_cons, applyAll_nil] at hx
    rcases states_apply y.2 (applyAll (D := database Γ) (writes.map Prod.snd) S) with
      ⟨hstates, hother⟩ | ⟨row, hy, hstates⟩ | ⟨id, t, hy, hstates⟩ | ⟨id, hy, hstates⟩
    · exact (ih hbefore (hstates ▸ hx)).append y fun _ t => hother x.id t
    · rcases List.mem_append.1 (hstates ▸ hx) with hx | hx
      · exact (ih hbefore hx).append y fun _ t hpatch => nomatch hy.symm.trans hpatch
      · obtain rfl := List.mem_singleton.1 hx
        refine ⟨⟨y.1, x, List.mem_append_right _ (List.mem_singleton.2 (Prod.ext rfl hy.symm)), rfl⟩, fun _ i t hmem => ?_⟩
        rcases List.mem_append.1 hmem with hmem | hmem
        · exact (hcross _ hmem y (List.mem_singleton_self y)).1 x.id t rfl |>.1 x hy rfl
        · rw [← List.mem_singleton.1 hmem] at hy
          cases hy
    · obtain ⟨z, hz, rfl⟩ := List.mem_map.1 (show x ∈ List.map _ _ from hstates ▸ hx)
      by_cases hid : z.id = id
      · rw [if_pos (decide_eq_true hid)]
        obtain ⟨⟨j, row, hrow, horigin⟩, -⟩ := ih hbefore hz
        exact ⟨⟨j, row, List.mem_append_left _ hrow, by rw [horigin]⟩, fun hnone => nomatch hnone⟩
      · rw [if_neg (by simpa using hid)]
        refine (ih hbefore hz).append y fun _ t' hpatch => ?_
        rw [hy] at hpatch
        exact hid (Write.patchState.inj hpatch).1.symm
    · rw [hstates] at hx
      refine (ih hbefore (List.mem_of_mem_filter hx)).append y fun _ t hpatch => ?_
      rw [hy] at hpatch
      cases hpatch

/-- Writes of one list that do not follow each other are the same. -/
theorem eq_or_of_pairwise {α : Type} {R : α → α → Prop} {l : List α} (h : l.Pairwise R) {x y : α} (hx : x ∈ l) (hy : y ∈ l) :
    x = y ∨ R x y ∨ R y x := by
  have hsymm : Std.Symm fun x y => x = y ∨ R x y ∨ R y x := ⟨fun _ _ h => h.imp Eq.symm Or.symm⟩
  have hpairwise : l.Pairwise fun x y => x = y ∨ R x y ∨ R y x := h.imp fun h => Or.inr (Or.inl h)
  exact List.Pairwise.forall_of_forall (R := fun x y => x = y ∨ R x y ∨ R y x) (fun _ _ => Or.inl rfl) hpairwise hx hy

/-- A state is inserted once. -/
theorem eq_of_stateHash {writes : List (Nat × Write)} (h : writes.Pairwise Apart) {i j : Nat} {row row' : AuthOidcState}
    (hrow : (i, Write.insertState row) ∈ writes) (hrow' : (j, Write.insertState row') ∈ writes)
    (hhash : row.stateHash = row'.stateHash) : i = j ∧ row = row' := by
  rcases eq_or_of_pairwise h hrow hrow' with heq | hapart | hapart
  · cases heq
    exact ⟨rfl, rfl⟩
  · exact absurd hhash (hapart.2 row row' rfl rfl)
  · exact absurd hhash.symm (hapart.2 row' row rfl rfl)

/-- A row is consumed by one thread. -/
theorem eq_of_patchState {writes : List (Nat × Write)} (h : writes.Pairwise Apart) {i j : Nat} {id : Uuid} {t t' : DateTime}
    (hi : (i, Write.patchState id t) ∈ writes) (hj : (j, Write.patchState id t') ∈ writes) : i = j := by
  rcases eq_or_of_pairwise h hi hj with heq | hapart | hapart
  · exact (Prod.mk.inj heq).1
  · exact (hapart.1 id t rfl).2 t' rfl
  · exact ((hapart.1 id t' rfl).2 t rfl).symm

/-! ## Draws -/

/-- Ids and tokens are drawn once. -/
structure Draws (db : Db (database Γ)) : Prop where
  ids : ∀ i id, DrewId db i id → id < Env.ids db.env
  once : ∀ i j id, DrewId db i id → DrewId db j id → i = j
  tokens : ∀ i token, DrewToken db i token → ∃ n : Nat, (Env.tokens db.env)[n]? = some i ∧ token = Γ.token n

variable {db db' : Db (database Γ)} {i : Nat} {a : Act (database Γ)} {r : Except AuthError (Result (database Γ) a)}

/-- A call to the world draws at most what is new. -/
theorem Draws.call (h : Draws db) (x : Ext) (hcalls : db'.calls = db.calls ++ [⟨i, x, (x.reply Γ i db.env).1⟩])
    (henv : db'.env = (x.reply Γ i db.env).2) : Draws db' := by
  have hlater := Ext.reply_later Γ i x db.env
  rw [← henv] at hlater
  have hnew : ∀ {j id}, DrewId db' j id → DrewId db j id ∨ j = i ∧ id = Env.ids db.env ∧ id < Env.ids db'.env := by
    intro j id hmem
    rw [DrewId, hcalls, List.mem_append, List.mem_singleton] at hmem
    refine hmem.imp_right fun heq => ?_
    cases heq
    exact ⟨rfl, rfl, by rw [henv]; exact Nat.lt_succ_self _⟩
  refine ⟨fun j id hmem => ?_, fun j k id hj hk => ?_, fun j token hmem => ?_⟩
  · rcases hnew hmem with hold | ⟨-, -, hlt⟩
    · exact lt_of_lt_of_le (h.ids j id hold) hlater.ids
    · exact hlt
  · rcases hnew hj with hold | ⟨rfl, hid, -⟩
    · rcases hnew hk with hold' | ⟨-, hid, -⟩
      · exact h.once j k id hold hold'
      · exact absurd (h.ids j id hold) (hid ▸ Nat.lt_irrefl _)
    · rcases hnew hk with hold' | ⟨hk, -, -⟩
      · exact absurd (h.ids k id hold') (hid ▸ Nat.lt_irrefl _)
      · exact hk.symm
  · rw [DrewToken, hcalls, List.mem_append, List.mem_singleton] at hmem
    rcases hmem with hold | heq
    · obtain ⟨n, hn, htoken⟩ := h.tokens j token hold
      obtain ⟨hlt, -⟩ := List.getElem?_eq_some_iff.1 hn
      obtain ⟨rest, hrest⟩ := hlater.tokens
      exact ⟨n, by rw [← hrest, List.getElem?_append_left hlt, hn], htoken⟩
    · cases heq
      exact ⟨(Env.tokens db.env).length, by rw [henv]; exact List.getElem?_concat_length, rfl⟩

/-- Without a call nothing is drawn. -/
theorem Draws.same (h : Draws db) (hid : ∀ i id, DrewId db' i id → DrewId db i id)
    (htoken : ∀ i token, DrewToken db' i token → DrewToken db i token) (henv : db'.env = db.env) : Draws db' :=
  ⟨fun j id hmem => henv ▸ h.ids j id (hid j id hmem), fun j k id hj hk => h.once j k id (hid j id hj) (hid k id hk),
    fun j token hmem => henv ▸ h.tokens j token (htoken j token hmem)⟩

/-- Every effect draws at most what is new. -/
theorem Draws.effect (h : Draws db) (he : Effect i db a r db') : Draws db' := by
  rcases he.calls with ⟨hcalls, henv⟩ | ⟨x, -, ⟨e, hcalls, henv⟩ | ⟨hcalls, henv⟩⟩
  · have hold : ∀ {call}, call ∈ db'.calls → call ∈ db.calls := fun hmem => hcalls ▸ hmem
    exact h.same (fun _ _ => hold) (fun _ _ => hold) henv
  · have hold : ∀ {j x'} {y : Ext.Reply x'}, (⟨j, x', .ok y⟩ : Call (database Γ)) ∈ db'.calls →
        (⟨j, x', .ok y⟩ : Call (database Γ)) ∈ db.calls := by
      intro j x' y hmem
      rw [hcalls, List.mem_append, List.mem_singleton] at hmem
      exact hmem.resolve_right nofun
    exact h.same (fun _ _ => hold) (fun _ _ => hold) henv
  · exact h.call x hcalls henv

/-! ## What stays -/

section Later

variable {ops : Nat → Op} {S : Store} {j : Nat} {row : AuthOidcState} {t : DateTime} {w : Write}

/-- What was started stays so. -/
theorem started_later (h : Started ops db j row) (hl : Later db db') : Started ops db' j row := by
  obtain ⟨hid, ⟨token, htoken, hhash⟩, hop, hunconsumed⟩ := h
  exact ⟨hl.calls.mem hid, ⟨token, hl.calls.mem htoken, hhash⟩, hop, hunconsumed⟩

/-- What was consumed stays so. -/
theorem consumed_prefix {writes writes' : List (Nat × Write)} (h : Consumed Γ ops writes i row t) (hp : writes <+: writes') :
    Consumed Γ ops writes' i row t := by
  obtain ⟨⟨j, hwrites⟩, hpresented, htime⟩ := h
  exact ⟨⟨j, hwrites.trans hp.sublist⟩, hpresented, htime⟩

/-- A token that was verified stays so. -/
theorem verified_later {code : Text} {claims : IdTokenClaims} (h : Verified db i code row claims) (hl : Later db db') :
    Verified db' i code row claims := by
  obtain ⟨idToken, nonce, hexchange, hdecode, hnonce⟩ := h
  exact ⟨idToken, nonce, hl.calls.mem hexchange, hl.calls.mem hdecode, hnonce⟩

/-- An identity that is known stays known. -/
theorem known_later {x : AuthIdentity} (h : Known S db x) (hl : Later db db') : Known S db' x :=
  h.imp_right fun ⟨j, hj⟩ => ⟨j, hl.journal.mem hj⟩

/-- A time that was read stays read. -/
theorem recentTime_later (h : RecentTime db i t) (hl : Later db db') : RecentTime db' i t := by
  obtain ⟨⟨r, hr, hleeway⟩, r', hr', hfresh⟩ := h
  exact ⟨⟨r, hl.calls.mem hr, hleeway⟩, r', hl.calls.mem hr', hfresh⟩

/-- A reauthentication that is justified stays so. -/
theorem reauthenticates_later {claims : IdTokenClaims} {session : Option AuthenticatedSessionContext}
    (h : Reauthenticates S db i row claims session w) (hl : Later db db') : Reauthenticates S db' i row claims session w := by
  obtain ⟨hpurpose, context, t, hsession, hmarked, ht, hrecent, hs, hu, subject, x, hsub, hknown, hx⟩ := h
  exact ⟨hpurpose, context, t, hsession, hmarked, ht, recentTime_later hrecent hl, hs, hu, subject, x, hsub, known_later hknown hl, hx⟩

/-- A reauthentication that was found fresh stays so. -/
theorem present_later {context : AuthenticatedSessionContext} (h : Present db i context) (hl : Later db db') :
    Present db' i context := by
  obtain ⟨r, t, hr, ht, hfresh⟩ := h
  exact ⟨r, t, hl.calls.mem hr, ht, hfresh⟩

/-- A write that is permitted stays so. -/
theorem permitted_later (h : Permitted S ops db i w) (hl : Later db db') : Permitted S ops db' i w := by
  unfold Permitted at h ⊢
  cases hop : ops i with
  | completeCallback =>
    simp only [hop] at h
    intro hsensitive
    obtain ⟨row, t, claims, hconsumed, hprovider, hverified, hpurpose⟩ := h hsensitive
    exact ⟨row, t, claims, consumed_prefix hconsumed hl.journal, hprovider, verified_later hverified hl,
      hpurpose.imp_right fun hr => reauthenticates_later hr hl⟩
  | deleteAccount =>
    simp only [hop] at h
    exact ⟨h.1, fun hpassword => present_later (h.2 hpassword) hl⟩
  | _ => simpa only [hop] using h

end Later

/-! ## The ledger of the states -/

/-- A call of the thread that exchanges a code. -/
def exchanges (i : Nat) (call : Call (database Γ)) : Bool := decide (call.thread = i) && Ext.isExchange call.ext

/-- What the threads keep: the states were made by starts, each is consumed by one thread at most, and a callback has done
nothing before it has consumed one. -/
structure Ledger (S : Store) (ops : Nat → Op) (db : Db (database Γ)) : Prop where
  guarded : Guarded db
  replays : Replays S db
  draws : Draws db
  started : ∀ k, ∀ x ∈ db.history k, ∀ row, x.2 = Write.insertState row → Started ops db x.1 row
  patched : ∀ k, ∀ x ∈ db.history k, ∀ id t, x.2 = Write.patchState id t →
    ∃ j row, (j, Write.insertState row) ∈ db.journal ∧ row.id = id
  apart : ∀ k, (db.history k).Pairwise Apart
  acted : ∀ k, (ops k).presented ≠ none → Acted db k → ∃ row t, Consumed Γ ops db.journal k row t
  exchanged : ∀ k, db.calls.countP (exchanges k) ≤ 1
  permitted : ∀ k, ∀ x ∈ db.history k, Permitted S ops db x.1 x.2

/-- When an action of a thread keeps the ledger. -/
structure Allowed (S : Store) (ops : Nat → Op) (i : Nat) (db : Db (database Γ)) (a : Act (database Γ)) : Prop where
  started : ∀ row, a.mayWrite (Write.insertState row) →
    Started ops db i row ∧ ∀ row', (i, Write.insertState row') ∉ db.history i
  patched : ∀ id t, a.mayWrite (Write.patchState id t) →
    (∃ j row, (j, Write.insertState row) ∈ db.journal ∧ row.id = id) ∧ ∀ j t', (j, Write.patchState id t') ∉ db.history i
  committed : a = .commit → (ops i).presented ≠ none → db.log i ≠ [] → ∃ row t, Consumed Γ ops (db.history i) i row t
  asked : ∀ x, a = .ext x → x ≠ Ext.utcnow → (ops i).presented ≠ none → ∃ row t, Consumed Γ ops db.journal i row t
  exchanged : ∀ p c v, a = .ext (Ext.exchangeCode p c v) → db.calls.countP (exchanges i) = 0
  permitted : ∀ w, a.mayWrite w → Permitted S ops db i w

variable {S : Store} {ops : Nat → Op}

theorem change_ne_insertState {s : Stmt} {k : Key} {row : AuthOidcState} : s.change k ≠ some (.insertState row) := by
  cases s <;> cases k <;> nofun

/-- The writes of one thread are apart, unless a state is inserted again. -/
theorem apart_of_finish {x y : Nat × Write} (h : x.1 = y.1) (hy : ∀ row, y.2 ≠ .insertState row) : Apart x y :=
  ⟨fun _ _ _ => ⟨fun row hrow => absurd hrow (hy row), fun _ _ => h⟩, fun _ row' _ hrow' => absurd hrow' (hy row')⟩

/-- The writes of one action are apart. -/
theorem apart_writes {ws : List Write} (h : Writes i db a ws) : (ws.map fun w => (i, w)).Pairwise Apart := by
  cases h with
  | none => exact List.Pairwise.nil
  | insert w _ _ => exact List.pairwise_singleton _ _
  | finish s found _ =>
    refine List.pairwise_map.2 (List.pairwise_of_forall_mem_list fun w _ v hv => apart_of_finish rfl fun row hrow => ?_)
    obtain ⟨k, -, hk⟩ := List.mem_filterMap.1 hv
    obtain rfl : v = .insertState row := hrow
    exact change_ne_insertState hk

/-- A new write is apart from those that the thread sees. -/
theorem Ledger.apart_new (h : Ledger S ops db) (ha : Allowed S ops i db a) {ws : List Write} (hws : Writes i db a ws)
    {x : Nat × Write} (hx : x ∈ db.history i) {w : Write} (hw : w ∈ ws) : Apart x (i, w) := by
  have hmine : ∀ {row' : AuthOidcState}, x.2 = .insertState row' → (∃ row, w = .insertState row) → x.1 ≠ i := by
    rintro row' hx' ⟨row, rfl⟩ rfl
    exact (ha.started row (hws.mayWrite hw)).2 row' (hx' ▸ hx)
  refine ⟨fun id t hpatch => ⟨fun row hrow hid => ?_, fun t' hpatch' => ?_⟩, fun row' row hrow' hrow hhash => ?_⟩
  · -- the id of the row that was consumed was drawn by its own start
    obtain rfl : w = .insertState row := hrow
    obtain ⟨hstarted, hfirst⟩ := ha.started row (hws.mayWrite hw)
    obtain ⟨j, row', hrow', hid'⟩ := h.patched i x hx id t hpatch
    have hmem : (j, Write.insertState row') ∈ db.history i := List.mem_append_left _ hrow'
    have hj := h.draws.once j i row'.id (h.started i _ hmem row' rfl).id (by rw [hid', ← hid]; exact hstarted.id)
    exact hfirst row' (hj ▸ hmem)
  · obtain rfl : w = .patchState id t' := hpatch'
    obtain ⟨j, v⟩ := x
    obtain rfl : v = .patchState id t := hpatch
    exact absurd hx ((ha.patched id t' (hws.mayWrite hw)).2 j t)
  · obtain rfl : w = .insertState row := hrow
    obtain ⟨token', htoken', hhash'⟩ := (h.started i x hx row' hrow').state
    obtain ⟨token, htoken, hhash''⟩ := (ha.started row (hws.mayWrite hw)).1.state
    obtain ⟨n, hn, rfl⟩ := h.draws.tokens _ _ htoken'
    obtain ⟨m, hm, rfl⟩ := h.draws.tokens _ _ htoken
    rw [hhash', hhash''] at hhash
    obtain rfl := Γ.token_injective (Γ.hashToken_injective hhash)
    exact hmine hrow' ⟨row, rfl⟩ (Option.some.inj (hn.symm.trans hm))

/-- A thread that has acted now had acted before, or it does so with this action. -/
theorem acted_effect (he : Effect i db a r db') {k : Nat} (h : Acted db' k) :
    Acted db k ∨ k = i ∧ (a = .commit ∧ db.log i ≠ [] ∧ db'.journal = db.history i ∨ ∃ x, a = .ext x ∧ x ≠ Ext.utcnow) := by
  rcases h with ⟨w, hw⟩ | ⟨call, hcall, hthread, hext⟩
  · rcases he.evolves with ⟨_, _, -, hjournal, -⟩ | ⟨-, hjournal, -⟩ | ⟨hcommit, -, hjournal, -⟩
    · exact Or.inl (Or.inl ⟨w, hjournal ▸ hw⟩)
    · exact Or.inl (Or.inl ⟨w, hjournal ▸ hw⟩)
    · rw [hjournal, List.mem_append] at hw
      rcases hw with hw | hw
      · exact Or.inl (Or.inl ⟨w, hw⟩)
      · obtain ⟨v, hv, heq⟩ := List.mem_map.1 hw
        exact Or.inr ⟨(Prod.mk.inj heq).1.symm, Or.inl ⟨hcommit, List.ne_nil_of_mem hv, hjournal⟩⟩
  · have hnew : ∀ {x : Ext} {y}, a = .ext x → db'.calls = db.calls ++ [⟨i, x, y⟩] →
        Acted db k ∨ k = i ∧ (a = .commit ∧ db.log i ≠ [] ∧ db'.journal = db.history i ∨ ∃ x, a = .ext x ∧ x ≠ Ext.utcnow) := by
      intro x y ha hcalls
      rw [hcalls, List.mem_append, List.mem_singleton] at hcall
      rcases hcall with hcall | rfl
      · exact Or.inl (Or.inr ⟨call, hcall, hthread, hext⟩)
      · exact Or.inr ⟨hthread.symm, Or.inr ⟨x, ha, hext⟩⟩
    rcases he.calls with ⟨hcalls, -⟩ | ⟨x, ha, ⟨e, hcalls, -⟩ | ⟨hcalls, -⟩⟩
    · exact Or.inl (Or.inr ⟨call, hcalls ▸ hcall, hthread, hext⟩)
    · exact hnew ha hcalls
    · exact hnew ha hcalls

/-- At most one code is exchanged by a thread that exchanges none again. -/
theorem countP_effect (he : Effect i db a r db') (ha : ∀ p c v, a = .ext (Ext.exchangeCode p c v) → db.calls.countP (exchanges i) = 0)
    (h : ∀ k, db.calls.countP (exchanges k) ≤ 1) (k : Nat) : db'.calls.countP (exchanges k) ≤ 1 := by
  have hnew : ∀ {x : Ext} {y}, a = .ext x → db'.calls = db.calls ++ [⟨i, x, y⟩] → db'.calls.countP (exchanges k) ≤ 1 := by
    intro x y hax hcalls
    rw [hcalls, List.countP_append, List.countP_singleton]
    by_cases hexchange : exchanges k (⟨i, x, y⟩ : Call (database Γ)) = true
    · simp only [exchanges, Bool.and_eq_true, decide_eq_true_eq] at hexchange
      obtain ⟨rfl, hx⟩ := hexchange
      unfold Ext.isExchange at hx
      split at hx
      · rw [ha _ _ _ hax, Nat.zero_add]
        split <;> decide
      · cases hx
    · rw [if_neg hexchange]
      exact h k
  rcases he.calls with ⟨hcalls, -⟩ | ⟨x, hax, ⟨e, hcalls, -⟩ | ⟨hcalls, -⟩⟩
  · exact hcalls ▸ h k
  · exact hnew hax hcalls
  · exact hnew hax hcalls

/-- Every allowed action keeps the ledger. -/
theorem Ledger.effect (h : Ledger S ops db) (he : Effect i db a r db') (ha : Allowed S ops i db a) : Ledger S ops db' := by
  have hl := he.later
  refine ⟨h.guarded.effect he, h.replays.effect he, h.draws.effect he, ?_, ?_, ?_, fun k hk hacted => ?_,
    countP_effect he ha.exchanged h.exchanged, ?_⟩
  · refine forall_history (P := fun x => ∀ row, x.2 = Write.insertState row → Started ops db' x.1 row)
      (fun k x hx row hrow => started_later (h.started k x hx row hrow) hl) he fun ws hws w hw row hrow => ?_
    exact started_later (ha.started row (hrow ▸ hws.mayWrite hw)).1 hl
  · refine forall_history (P := fun x => ∀ id t, x.2 = Write.patchState id t →
        ∃ j row, (j, Write.insertState row) ∈ db'.journal ∧ row.id = id) (fun k x hx id t hpatch => ?_) he
      fun ws hws w hw id t hpatch => ?_
    · obtain ⟨j, row, hrow, hid⟩ := h.patched k x hx id t hpatch
      exact ⟨j, row, hl.journal.mem hrow, hid⟩
    · obtain ⟨j, row, hrow, hid⟩ := (ha.patched id t (hpatch ▸ hws.mayWrite hw)).1
      exact ⟨j, row, hl.journal.mem hrow, hid⟩
  · refine pairwise_history apart_of_keys h.guarded h.apart he fun ws hws => ?_
    refine List.pairwise_append.2 ⟨h.apart i, apart_writes hws, fun x hx y hy => ?_⟩
    obtain ⟨w, hw, rfl⟩ := List.mem_map.1 hy
    exact h.apart_new ha hws hx hw
  · rcases acted_effect he hacted with hold | ⟨rfl, ⟨rfl, hlog, hjournal⟩ | ⟨x, rfl, hx⟩⟩
    · obtain ⟨row, t, hconsumed⟩ := h.acted k hk hold
      exact ⟨row, t, consumed_prefix hconsumed hl.journal⟩
    · rw [hjournal]
      exact ha.committed rfl hk hlog
    · obtain ⟨row, t, hconsumed⟩ := ha.asked x rfl hx hk
      exact ⟨row, t, consumed_prefix hconsumed hl.journal⟩
  · refine forall_history (P := fun x => Permitted S ops db' x.1 x.2)
      (fun k x hx => permitted_later (h.permitted k x hx) hl) he fun ws hws w hw => ?_
    exact permitted_later (ha.permitted w (hws.mayWrite hw)) hl

variable (Γ S ops) in
/-- Threads keep the ledger, and rely on their transactions and locks. -/
def ledger : Contract (system (database Γ)) where
  inv := Ledger S ops
  rely := Frame
  guar j db db' := ∀ i, i ≠ j → Frame i db db'
  rely_refl := Frame.refl
  rely_trans := Frame.trans
  guar_rely hij _ _ hguar := hguar _ hij
  drift_inv := by
    rintro db _ h ⟨n, rfl⟩
    have hl := (show Frame 0 db _ from Frame.drift ⟨n, rfl⟩).later
    exact ⟨h.guarded, h.replays, ⟨h.draws.ids, h.draws.once, h.draws.tokens⟩,
      fun k x hx row hrow => started_later (h.started k x hx row hrow) hl, h.patched, h.apart, h.acted, h.exchanged,
      fun k x hx => permitted_later (h.permitted k x hx) hl⟩
  drift_rely _ hdrift := Frame.drift hdrift

/-! ## Actions -/

/-- The action writes no state and exchanges no code, and its writes meet a predicate. -/
structure Bounded (W : Write → Prop) (a : Act (database Γ)) : Prop where
  inserts : ∀ row, ¬a.mayWrite (Write.insertState row)
  patches : ∀ id t, ¬a.mayWrite (Write.patchState id t)
  exchange : ∀ p c v, a ≠ .ext (Ext.exchangeCode p c v)
  writes : ∀ w, a.mayWrite w → W w

/-- The action writes nothing. -/
def Reads (a : Act (database Γ)) : Prop := ∀ w, ¬a.mayWrite w

/-- More writes may be allowed. -/
theorem Bounded.mono {W W' : Write → Prop} (h : Bounded W a) (hW : ∀ w, W w → W' w) : Bounded W' a :=
  ⟨h.inserts, h.patches, h.exchange, fun w hw => hW w (h.writes w hw)⟩

/-- A bounded action is allowed when its writes are permitted. -/
theorem Bounded.allowed {W : Write → Prop} (h : Bounded W a)
    (hsettled : (ops i).presented ≠ none → ∃ row t, Consumed Γ ops db.journal i row t)
    (hW : ∀ w, W w → Permitted S ops db i w) : Allowed S ops i db a where
  started row hrow := absurd hrow (h.inserts row)
  patched id t hpatch := absurd hpatch (h.patches id t)
  committed _ hop _ := by
    obtain ⟨row, t, hconsumed⟩ := hsettled hop
    exact ⟨row, t, consumed_prefix hconsumed (List.prefix_append _ _)⟩
  asked _ _ _ hop := hsettled hop
  exchanged p c v ha := absurd ha (h.exchange p c v)
  permitted w hw := hW w (h.writes w hw)

/-- A callback may look before it has consumed a state, and may end a transaction that wrote nothing. -/
theorem Reads.allowed (h : Reads a) (hext : ∀ x, a = .ext x → x = Ext.utcnow) (hcommit : a = .commit → db.log i = []) :
    Allowed S ops i db a where
  started _ hrow := absurd hrow (h _)
  patched _ _ hpatch := absurd hpatch (h _)
  committed ha _ hlog := absurd (hcommit ha) hlog
  asked x ha hx _ := absurd (hext x ha) hx
  exchanged _ _ _ ha := nomatch hext _ ha
  permitted w hw := absurd hw (h w)

/-- Reading writes nothing. -/
theorem Reads.log (h : Reads a) (he : Effect i db a r db') (hlog : db.log i = []) : db'.log i = [] := by
  rcases he.evolves with ⟨ws, hws, -, -, hlog'⟩ | ⟨-, -, hlog'⟩ | ⟨-, -, -, hlog'⟩
  · have hnil : ws = [] := List.eq_nil_iff_forall_not_mem.2 fun w hw => h w (hws.mayWrite hw)
    rw [hlog', Function.update_self, hlog, hnil, List.append_nil]
  · rw [hlog', Function.update_self]
  · rw [hlog', Function.update_self]

/-- The write records no authentication by a provider. -/
def Unmarked (w : Write) : Prop := w.marked = none

/-- An action that reads is bounded by anything. -/
theorem Reads.bounded (h : Reads a) (hx : ∀ p c v, a ≠ .ext (Ext.exchangeCode p c v)) (W : Write → Prop) : Bounded W a :=
  ⟨fun _ => h _, fun _ _ => h _, hx, fun w hw => absurd hw (h w)⟩

/-- A patch of another kind marks no session. -/
theorem marked_patchSession {id : Uuid} {patch : SessionPatch} (hr : patch.kind ≠ .rogue) (ho : patch.kind ≠ .sessionOidc) :
    (Write.patchSession id patch).marked = none := by
  rcases SessionPatch.kind_cases hr with ⟨-, _, rfl⟩ | ⟨-, _, _, rfl⟩ | ⟨-, _, rfl⟩ | ⟨hk, -⟩
  · rfl
  · rfl
  · rfl
  · exact absurd hk ho

/-- What a statement does to a row marks no session, unless it is of the kind that does. -/
theorem unmarked_change {s : Stmt} {k : Key} {w : Write} (h : s.change k = some w) (hr : s.kind ≠ .rogue)
    (ho : s.kind ≠ .sessionOidc) : Unmarked w ∧ ∀ row, w ≠ .insertSession row := by
  cases s <;> cases k <;> simp only [Stmt.change, Option.some.injEq, reduceCtorEq] at h <;> subst h
  case patchSession.session => exact ⟨marked_patchSession hr ho, nofun⟩
  all_goals exact ⟨rfl, nofun⟩

/-- An insert marks no session. -/
theorem unmarked_insert {w : Write} (hr : w.kind ≠ .rogue) : Unmarked w := by
  cases w with
  | insertSession row =>
    simp only [Write.kind] at hr
    split at hr
    · rename_i hrow
      simp only [Unmarked, Write.marked, hrow.2, Option.map_none]
    · exact absurd rfl hr
  | patchSession id patch => exact absurd rfl hr
  | _ => rfl

/-- Most kinds of actions make no sensitive writes. -/
theorem bounded_of_kind (hs : kind a ≠ .state) (hx : kind a ≠ .exchange) (hr : kind a ≠ .rogue) (ho : kind a ≠ .sessionOidc) :
    Bounded Unmarked a := by
  refine ⟨fun row hrow => ?_, fun id t hpatch => ?_, fun p c v ha => hx (ha ▸ rfl), fun w hw => ?_⟩
  · cases a with
    | insert w =>
      obtain rfl : w = .insertState row := hrow
      simp only [kind, Write.kind] at hs hr
      split at hs
      · exact hs rfl
      · rename_i hno
        exact hr (if_neg hno)
    | finish s found =>
      obtain ⟨-, k, -, hk⟩ := hrow
      exact change_ne_insertState hk
    | _ => exact hrow
  · cases a with
    | insert w =>
      obtain rfl : w = .patchState id t := hpatch
      exact hr rfl
    | finish s found =>
      obtain ⟨-, k, -, hk⟩ := hpatch
      cases s <;> cases k <;> first | exact hs rfl | cases hk
    | _ => exact hpatch
  · cases a with
    | insert v =>
      obtain rfl : v = w := hw
      exact unmarked_insert hr
    | finish s found =>
      obtain ⟨-, k, -, hk⟩ := hw
      exact (unmarked_change hk hr ho).1
    | _ => exact hw.elim

/-- The write is not sensitive. -/
def Calm (w : Write) : Prop := ¬w.Sensitive

/-- A write that marks nothing and inserts no session is calm. -/
theorem Unmarked.calm {w : Write} (h : Unmarked w) (hw : ∀ row, w ≠ .insertSession row) : Calm w := by
  intro hs
  cases w with
  | insertSession row => exact hw row rfl
  | _ => exact hs h

/-- Neutral actions and brackets are calm. -/
theorem calm_of_kind (h : kind a = .neutral ∨ kind a = .bracket) : Bounded Calm a := by
  obtain ⟨hinsert, hpatch, hexchange, hmarked⟩ := bounded_of_kind (a := a) (by rcases h with h | h <;> simp [h])
    (by rcases h with h | h <;> simp [h]) (by rcases h with h | h <;> simp [h]) (by rcases h with h | h <;> simp [h])
  refine ⟨hinsert, hpatch, hexchange, fun w hw => (hmarked w hw).calm fun row hrow => ?_⟩
  cases a with
  | insert v =>
    obtain rfl : v = .insertSession row := hrow ▸ hw
    simp only [kind, Write.kind] at h
    split at h <;> rcases h with h | h <;> cases h
  | finish s found =>
    obtain ⟨-, k, -, hk⟩ := hw
    exact (unmarked_change hk (by rcases h with h | h <;> simp [show s.kind = _ from h])
      (by rcases h with h | h <;> simp [show s.kind = _ from h])).2 row hrow
  | _ => exact hw.elim

/-! ## Rules -/

/-- One action. -/
theorem leads_act {P : Db (database Γ) → Prop} {Q : Result (database Γ) a → Db (database Γ) → Prop}
    (hP : Stable (ledger Γ S ops) i P) (hQ : ∀ x, Stable (ledger Γ S ops) i (Q x))
    (h : ∀ {db r db'}, P db → Ledger S ops db → Effect i db a r db' →
      Allowed S ops i db a ∧ ∀ x, r = .ok x → Q x db') : Leads (ledger Γ S ops) i P (.perform a) Q := by
  refine leads_perform hP hQ fun hp hinv he => ?_
  obtain ⟨hallowed, hq⟩ := h hp hinv he
  exact ⟨Ledger.effect hinv he hallowed, fun j hj => Frame.effect hj hinv.guarded he, hq⟩

/-- A program of bounded actions. -/
theorem triple_bounded {α : Type} {p : Service Γ α} {W : Write → Prop} {P : Db (database Γ) → Prop}
    (hP : Stable (ledger Γ S ops) i P)
    (hkeep : ∀ {db db' a r}, P db → Effect i db a r db' → Bounded W a → P db')
    (hsettled : ∀ db, P db → (ops i).presented ≠ none → ∃ row t, Consumed Γ ops db.journal i row t)
    (hW : ∀ db, P db → ∀ w, W w → Permitted S ops db i w) (h : p.Emits (Bounded W)) :
    Triple (ledger Γ S ops) i P p fun _ => P := by
  refine triple_of_emits hP (fun ha hp hinv he => ?_) h
  exact ⟨Ledger.effect hinv he (ha.allowed (hsettled _ hp) (hW _ hp)), fun j hj => Frame.effect hj hinv.guarded he,
    hkeep hp he ha⟩

/-- A callback may write what is not sensitive. -/
theorem permitted_of_calm (hop : (ops i).presented ≠ none) {w : Write} (hw : Calm w) : Permitted S ops db i w := by
  unfold Permitted
  cases h : ops i with
  | completeCallback => exact fun hsensitive => absurd hsensitive hw
  | completeErrorCallback => exact hw
  | _ =>
    rw [h] at hop
    exact absurd rfl hop

end OidcStateAux

end AuthService
