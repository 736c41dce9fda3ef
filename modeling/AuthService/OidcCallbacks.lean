import AuthService.OidcConsumption

/-!
# Callbacks after the consumption of a state

The exchange of the code, the checks of the token, the login and the reauthentication, and the deletion of an account that relies
on a reauthentication. With them every operation keeps the ledger.
-/

namespace AuthService

open ReadCommitted RelyGuarantee

variable {Γ : Ctx}

namespace OidcStateAux

variable {S : Store} {ops : Nat → Op}

variable {db db' : Db (database Γ)} {i : Nat} {a : Act (database Γ)} {r : Except AuthError (Result (database Γ) a)}

/-! ## Callbacks that have consumed a state -/

/-- The thread has consumed a state. -/
def Settled (ops : Nat → Op) (i : Nat) (db : Db (database Γ)) : Prop := ∃ row t, Consumed Γ ops db.journal i row t

/-- What is consumed stays so. -/
theorem Settled.later (h : Settled ops i db) (hl : Later db db') : Settled ops i db' := by
  obtain ⟨row, t, hconsumed⟩ := h
  exact ⟨row, t, consumed_prefix hconsumed hl.journal⟩

theorem stable_settled : Stable (ledger Γ S ops) i (Settled ops i) := fun h hr => h.later (Frame.later hr)

/-- A callback that has its row has consumed it. -/
theorem Spent.settled {s : AuthOidcState} (h : Spent ops i s db) : Settled ops i db := by
  obtain ⟨x, t, -, hconsumed⟩ := h.consumed
  exact ⟨x, t, hconsumed⟩

/-- A triple of a callback that has consumed a state: it has, also after an error. -/
abbrev Onward {α : Type} (Γ : Ctx) (S : Store) (ops : Nat → Op) (i : Nat) (P : Db (database Γ) → Prop) (p : Service Γ α)
    (Q : α → Db (database Γ) → Prop) : Prop :=
  Triple (ledger Γ S ops) i P p fun result db => Settled ops i db ∧ ∀ x, result = .ok x → Q x db

section Onward

variable {α β : Type} {P : Db (database Γ) → Prop} {Q : α → Db (database Γ) → Prop} {T : β → Db (database Γ) → Prop}

/-- A part of a callback and what follows it. -/
theorem onward_bind {p : Service Γ α} {f : α → Service Γ β} (h : Onward Γ S ops i P p Q)
    (hf : ∀ x, Onward Γ S ops i (Q x) (f x) T) : Onward Γ S ops i P (p >>= f) T :=
  triple_bind h (fun x => triple_conseq (hf x) (fun _ hq => hq.2 x rfl) fun _ _ ht => ht) fun _ _ hq => ⟨hq.1, nofun⟩

/-- A result, when the state is consumed. -/
theorem onward_pure {x : α} (hP : ∀ db, P db → Settled ops i db) (hQ : Stable (ledger Γ S ops) i (Q x)) (h : ∀ db, P db → Q x db) :
    Onward Γ S ops i P (pure x) Q := by
  refine triple_done (fun hq hr => ⟨stable_settled hq.1 hr, fun y hy => ?_⟩) fun db hp => ⟨hP db hp, fun y hy => ?_⟩
  · obtain rfl := Except.ok.inj hy
    exact hQ (hq.2 x rfl) hr
  · exact Except.ok.inj hy ▸ h db hp

/-- An error, when the state is consumed. -/
theorem onward_throw {e : AuthError} (hP : ∀ db, P db → Settled ops i db) : Onward Γ S ops i P (Prog.throw e : Service Γ α) Q :=
  triple_done (fun hq hr => ⟨stable_settled hq.1 hr, nofun⟩) fun db hp => ⟨hP db hp, nofun⟩

/-- One action of a callback. -/
theorem onward_act {Q : Result (database Γ) a → Db (database Γ) → Prop} (hP : Stable (ledger Γ S ops) i P)
    (hQ : ∀ x, Stable (ledger Γ S ops) i (Q x)) (hsettled : ∀ db, P db → Settled ops i db)
    (h : ∀ {db r db'}, P db → Ledger S ops db → Effect i db a r db' →
      Allowed S ops i db a ∧ ∀ x, r = .ok x → Q x db') : Onward Γ S ops i P (.perform a) Q := by
  refine triple_act hP (fun r db => Settled ops i db ∧ ∀ x, r = .ok x → Q x db) (fun {db r db'} hp hinv he => ?_) fun r =>
    triple_done (fun hq hr => ⟨stable_settled hq.1 hr, fun x hx => hQ x (hq.2 x hx) hr⟩) fun _ hq => hq
  obtain ⟨hallowed, hq⟩ := h hp hinv he
  exact ⟨Ledger.effect hinv he hallowed, fun j hj => Frame.effect hj hinv.guarded he, (hsettled db hp).later he.later, hq⟩

/-- What stays once it holds, a program of bounded actions keeps. -/
theorem onward_bounded {p : Service Γ α} {W : Write → Prop} (hlater : ∀ {db db'}, P db → Later db db' → P db')
    (hsettled : ∀ db, P db → Settled ops i db) (hW : ∀ db, P db → ∀ w, W w → Permitted S ops db i w)
    (h : p.Emits (Bounded W)) : Onward Γ S ops i P p fun _ => P :=
  triple_conseq (triple_bounded (fun hp hr => hlater hp (Frame.later hr)) (fun hp he _ => hlater hp he.later)
    (fun db hp _ => hsettled db hp) hW h) (fun _ hp => hp) fun _ db hp => ⟨hsettled db hp, fun _ _ => hp⟩

/-- More may be known before, and less asked after. -/
theorem onward_conseq {P' : Db (database Γ) → Prop} {Q' : α → Db (database Γ) → Prop} {p : Service Γ α}
    (h : Onward Γ S ops i P p Q) (hP : ∀ db, P' db → P db) (hQ : ∀ x db, Q x db → Q' x db) : Onward Γ S ops i P' p Q' :=
  triple_conseq h hP fun _ db hq => ⟨hq.1, fun x hx => hQ x db (hq.2 x hx)⟩

end Onward

/-- The audit of a failure, once the state is consumed. -/
theorem onward_audit {provider : OidcProviderSettings} {oidcState : AuthOidcState} {error : AuthError}
    {session : Option AuthenticatedSessionContext} {ip agent : Option Text} (hop : (ops i).presented ≠ none) :
    Onward Γ S ops i (Settled ops i) (auditCallbackFailure provider oidcState error session ip agent : Service Γ Unit)
      fun _ => Settled ops i :=
  onward_bounded (fun h hl => h.later hl) (fun _ h => h) (fun _ _ _ hw => permitted_of_calm hop hw)
    (emits_of_calm (within_auditCallbackFailure (by rfl)))

/-- `complete_error_callback` keeps the ledger: it consumes its state and logs. -/
theorem leads_completeErrorCallback (hS : S.states = []) {providerId state : Text} {binding : Option Text} {error : AuthError}
    {session : Option AuthenticatedSessionContext} {ip agent : Option Text}
    (hop : (ops i).presented = some (providerId, state, binding)) :
    Leads (ledger Γ S ops) i (Untried i) (completeErrorCallback providerId state binding error session ip agent : Service Γ Unit)
      fun _ _ => True := by
  unfold completeErrorCallback
  split
  · exact leads_throw _
  · refine leads_bind (leads_consumeCallbackState hS hop) fun s => ?_
    refine leads_bind (Q := fun _ _ => True) ?_ fun _ => leads_throw _
    exact triple_conseq (onward_audit (by rw [hop]; exact nofun)) (fun _ h => h.2.settled) fun _ _ _ _ _ => trivial

/-! ## The claims of the token -/

/-- A result of two steps has a result of the first. -/
theorem exists_of_bind {α β : Type} {x : Except AuthError α} {f : α → Except AuthError β} {b : β} (h : x >>= f = .ok b) :
    ∃ a, x = .ok a ∧ f a = .ok b := by
  cases x with
  | ok a => exact ⟨a, rfl, h⟩
  | error e => cases h

/-- A claim that is required is a text. -/
theorem text_of_requiredStr {value : ClaimValue} {key : String} {s : Text} (h : requiredStr value key = .ok s) :
    value = .text s := by
  unfold requiredStr at h
  split at h
  · cases h
  · exact congrArg ClaimValue.text (Except.ok.inj h)
  · cases h

/-- A check that succeeds holds. -/
theorem of_check {c : Bool} {e : AuthError} {u : Unit} (h : check c e = .ok u) : c = true := by
  unfold check at h
  split at h
  · assumption
  · cases h

/-- The time of authentication is the one in the claims. -/
theorem authenticatedAt_of_optional {claims : IdTokenClaims} {key : String} {v : Option DateTime} {t : DateTime}
    (h : optionalDatetimeClaim claims.authTime key = .ok v) (ht : v = some t) : claims.authenticatedAt = some t := by
  unfold optionalDatetimeClaim at h
  unfold IdTokenClaims.authenticatedAt
  split at h
  · cases h
    cases ht
  · rename_i n hn
    rw [hn]
    unfold fromTimestamp at h
    split at h
    · rw [← ht, ← Except.ok.inj h]
    · cases h
  · cases h

/-- Accepted claims have the nonce that is expected, and a time of authentication that is not too far ahead. -/
theorem accepted_of_verifyClaims {provider : OidcProviderSettings} {claims : IdTokenClaims} {nonceHash : Text} {required : Bool}
    {now : DateTime} {v : OidcVerifiedClaims} (h : verifyClaims Γ provider claims nonceHash required now = .ok v) :
    (∃ nonce, claims.nonce = .text nonce ∧ Γ.hashToken nonce = nonceHash) ∧
      (∃ subject, claims.sub = .text subject ∧ v.subject = Γ.strip subject) ∧
      ∀ t, v.authTime = some t → claims.authenticatedAt = some t ∧
        (required = true → t ≤ now + seconds Γ.oidc.authTimeFutureLeewaySeconds) := by
  unfold verifyClaims at h
  obtain ⟨issuer, hissuer, h⟩ := exists_of_bind h
  obtain ⟨_, -, h⟩ := exists_of_bind h
  obtain ⟨_, -, h⟩ := exists_of_bind h
  obtain ⟨subject, hsubject, h⟩ := exists_of_bind h
  obtain ⟨_, -, h⟩ := exists_of_bind h
  obtain ⟨nonce, hnonce, h⟩ := exists_of_bind h
  obtain ⟨_, hhash, h⟩ := exists_of_bind h
  obtain ⟨_, -, h⟩ := exists_of_bind h
  obtain ⟨_, -, h⟩ := exists_of_bind h
  obtain ⟨_, -, h⟩ := exists_of_bind h
  obtain ⟨_, -, h⟩ := exists_of_bind h
  obtain ⟨authTime, hauth, h⟩ := exists_of_bind h
  obtain ⟨_, -, h⟩ := exists_of_bind h
  obtain ⟨_, hahead, h⟩ := exists_of_bind h
  obtain rfl := Except.ok.inj h
  refine ⟨⟨nonce, text_of_requiredStr hnonce, of_decide_eq_true (of_check hhash)⟩,
    ⟨subject, text_of_requiredStr hsubject, rfl⟩, fun t ht => ⟨authenticatedAt_of_optional hauth ht, fun hrequired => ?_⟩⟩
  obtain rfl : authTime = some t := ht
  have hnot := of_check hahead
  simpa [hrequired] using hnot

/-! ## After the consumption -/

/-- The callback has a token for its code with the claims that its row expects. -/
def Attested (ops : Nat → Op) (i : Nat) (code : Text) (s : AuthOidcState) (claims : IdTokenClaims) (db : Db (database Γ)) : Prop :=
  ∃ x t, Reread x s ∧ Consumed Γ ops db.journal i x t ∧ Verified db i code x claims

/-- A token that is on record stays so. -/
theorem Attested.later {code : Text} {s : AuthOidcState} {claims : IdTokenClaims} (h : Attested ops i code s claims db)
    (hl : Later db db') : Attested ops i code s claims db' := by
  obtain ⟨x, t, hx, hconsumed, hverified⟩ := h
  exact ⟨x, t, hx, consumed_prefix hconsumed hl.journal, verified_later hverified hl⟩

/-- A callback with a token has consumed its state. -/
theorem Attested.settled {code : Text} {s : AuthOidcState} {claims : IdTokenClaims} (h : Attested ops i code s claims db) :
    Settled ops i db := by
  obtain ⟨x, t, -, hconsumed, -⟩ := h
  exact ⟨x, t, hconsumed⟩

/-- Outside a transaction the callback has consumed its state, and some calls are on record. -/
structure Resting (ops : Nat → Op) (i : Nat) (s : AuthOidcState) (calls : List (Call (database Γ))) (db : Db (database Γ)) :
    Prop where
  log : db.log i = []
  consumed : ∃ x t, Reread x s ∧ Consumed Γ ops db.journal i x t
  calls : ∀ call ∈ calls, call ∈ db.calls

/-- The others leave the calls of this thread on record. -/
theorem stable_resting {s : AuthOidcState} {calls : List (Call (database Γ))} :
    Stable (ledger Γ S ops) i (Resting ops i s calls) := by
  intro db db' h hr
  obtain ⟨x, t, hx, hconsumed⟩ := h.consumed
  exact ⟨(Frame.log hr).trans h.log, ⟨x, t, hx, consumed_prefix hconsumed (Frame.later hr).journal⟩,
    fun call hcall => (Frame.later hr).calls.mem (h.calls call hcall)⟩

/-- A callback that rests has consumed its state. -/
theorem Resting.settled {s : AuthOidcState} {calls : List (Call (database Γ))} (h : Resting ops i s calls db) :
    Settled ops i db := by
  obtain ⟨x, t, -, hconsumed⟩ := h.consumed
  exact ⟨x, t, hconsumed⟩

/-- Reading leaves the callback as it is. -/
theorem Resting.effect {s : AuthOidcState} {calls : List (Call (database Γ))} (h : Resting ops i s calls db) (ha : Reads a)
    (he : Effect i db a r db') : Resting ops i s calls db' := by
  obtain ⟨x, t, hx, hconsumed⟩ := h.consumed
  exact ⟨ha.log he h.log, ⟨x, t, hx, consumed_prefix hconsumed he.later.journal⟩,
    fun call hcall => he.later.calls.mem (h.calls call hcall)⟩

/-- A call to the world, with its reply on record. -/
theorem onward_call {s : AuthOidcState} {calls : List (Call (database Γ))} (x : Ext) (hx : ∀ p c v, x ≠ .exchangeCode p c v) :
    Onward Γ S ops i (Resting ops i s calls) (call x : Service Γ x.Reply) fun y => Resting ops i s (⟨i, x, .ok y⟩ :: calls) := by
  refine onward_act stable_resting (fun y => stable_resting) (fun _ h => h.settled) fun {db r db'} hp hinv he => ⟨?_, fun y hr => ?_⟩
  · exact ⟨fun _ => False.elim, fun _ _ => False.elim, nofun, fun _ _ _ _ => hp.settled,
      fun p c v ha => absurd (Act.ext.inj ha) (hx p c v), fun _ => False.elim⟩
  · obtain ⟨hlog, hconsumed, hcalls⟩ := hp.effect (fun _ => id) he
    subst hr
    exact ⟨hlog, hconsumed, List.forall_mem_cons.2 ⟨he.called, hcalls⟩⟩

/-- The exchange of the code, the first of the callback. -/
theorem onward_exchange {s : AuthOidcState} (code : Text) :
    Onward Γ S ops i (Spent ops i s) (call (.exchangeCode s.providerId code s.pkceVerifier) : Service Γ Text)
      fun (idToken : Text) => Resting ops i s [⟨i, .exchangeCode s.providerId code s.pkceVerifier, .ok idToken⟩] := by
  refine onward_act stable_spent (fun y => stable_resting) (fun _ h => h.settled) fun {db r db'} hp hinv he => ⟨?_, fun y hr => ?_⟩
  · exact ⟨fun _ => False.elim, fun _ _ => False.elim, nofun, fun _ _ _ _ => hp.settled, fun _ _ _ _ => hp.untouched.1,
      fun _ => False.elim⟩
  · have hresting : Resting ops i s [] db := ⟨hp.untouched.2, hp.consumed, List.forall_mem_nil _⟩
    obtain ⟨hlog, hconsumed, -⟩ := hresting.effect (fun _ => id) he
    subst hr
    exact ⟨hlog, hconsumed, List.forall_mem_singleton.2 he.called⟩

/-- The time that was accepted is the one in the token, and for a reauthentication it was not too far ahead. -/
def Timed (i : Nat) (s : AuthOidcState) (claims : IdTokenClaims) (authTime : Option DateTime) (db : Db (database Γ)) : Prop :=
  ∀ t, authTime = some t → claims.authenticatedAt = some t ∧ (s.purpose = .accountDeletionReauth →
    ∃ r, ReadTime db i r ∧ t ≤ r + seconds Γ.oidc.authTimeFutureLeewaySeconds)

/-- A time that was accepted stays so. -/
theorem Timed.later {s : AuthOidcState} {claims : IdTokenClaims} {authTime : Option DateTime} (h : Timed i s claims authTime db)
    (hl : Later db db') : Timed i s claims authTime db' := by
  intro t ht
  obtain ⟨hclaims, hahead⟩ := h t ht
  refine ⟨hclaims, fun hpurpose => ?_⟩
  obtain ⟨r, hr, hle⟩ := hahead hpurpose
  exact ⟨r, hl.calls.mem hr, hle⟩

/-- Outside a transaction the callback has the claims of its token. -/
structure Validated (ops : Nat → Op) (i : Nat) (code : Text) (s : AuthOidcState) (v : OidcVerifiedClaims)
    (db : Db (database Γ)) : Prop where
  log : db.log i = []
  attested : ∃ claims subject, Attested ops i code s claims db ∧ claims.sub = .text subject ∧ v.subject = Γ.strip subject ∧
    Timed i s claims v.authTime db

/-- Claims that were verified stay on record. -/
theorem stable_validated {code : Text} {s : AuthOidcState} {v : OidcVerifiedClaims} :
    Stable (ledger Γ S ops) i (Validated ops i code s v) := by
  intro db db' h hr
  obtain ⟨claims, subject, hattested, hsub, hsubject, htimed⟩ := h.attested
  exact ⟨(Frame.log hr).trans h.log, claims, subject, hattested.later (Frame.later hr), hsub, hsubject,
    htimed.later (Frame.later hr)⟩

/-- A callback with verified claims has consumed its state. -/
theorem Validated.settled {code : Text} {s : AuthOidcState} {v : OidcVerifiedClaims} (h : Validated ops i code s v db) :
    Settled ops i db := by
  obtain ⟨claims, subject, hattested, -⟩ := h.attested
  exact hattested.settled

/-- The validation of the token: its claims have the nonce of the row. -/
theorem onward_validateIdToken {provider : OidcProviderSettings} {s : AuthOidcState} {code idToken : Text}
    (hprovider : s.providerId = provider.providerId) :
    Onward Γ S ops i (Resting ops i s [⟨i, .exchangeCode s.providerId code s.pkceVerifier, .ok idToken⟩])
      (validateIdToken provider idToken s.nonceHash (s.purpose == .accountDeletionReauth) : Service Γ OidcVerifiedClaims)
      fun v => Validated ops i code s v := by
  refine onward_bind (onward_call (.decodeIdToken provider.providerId idToken) nofun) fun claims => ?_
  refine onward_bind (onward_call .utcnow nofun) fun now => ?_
  cases hv : verifyClaims Γ provider claims s.nonceHash (s.purpose == .accountDeletionReauth) now with
  | error e => exact onward_throw fun _ h => h.settled
  | ok v =>
    refine onward_pure (fun _ h => h.settled) stable_validated fun db h => ?_
    obtain ⟨⟨nonce, hnonce, hhash⟩, ⟨subject, hsub, hsubject⟩, htime⟩ := accepted_of_verifyClaims hv
    obtain ⟨x, t, hx, hconsumed⟩ := h.consumed
    have hsame : x.providerId = s.providerId ∧ x.pkceVerifier = s.pkceVerifier ∧ x.nonceHash = s.nonceHash := by
      rw [hx]
      exact ⟨rfl, rfl, rfl⟩
    obtain ⟨hnow, hdecode, hexchange, -⟩ := List.forall_mem_cons.1 h.calls |>.imp_right fun h =>
      List.forall_mem_cons.1 h |>.imp_right List.forall_mem_cons.1
    refine ⟨h.log, claims, subject, ⟨x, t, hx, hconsumed, idToken, nonce, ?_, ?_, hnonce, hsame.2.2 ▸ hhash⟩, hsub, hsubject,
      fun t ht => ⟨(htime t ht).1, fun hpurpose => ⟨now, hnow, (htime t ht).2 (beq_iff_eq.2 hpurpose)⟩⟩⟩
    · rw [hsame.1, hsame.2.1]
      exact hexchange
    · rw [hsame.1, hprovider]
      exact hdecode

/-! ## A login -/

/-- The row that is read again has the fields of the row that was consumed. -/
theorem Reread.fields {x s : AuthOidcState} (h : Reread x s) : x.providerId = s.providerId ∧ x.purpose = s.purpose ∧
    x.expectedUserId = s.expectedUserId ∧ x.expectedSessionId = s.expectedSessionId := by
  rw [h]
  exact ⟨rfl, rfl, rfl, rfl⟩

/-- The write records no authentication but that of the given time. -/
def Dates (authTime : Option DateTime) (w : Write) : Prop := ∀ sessionId t, w.marked = some (sessionId, t) → authTime = some t

/-- A write that marks nothing records no time. -/
theorem Unmarked.dates {authTime : Option DateTime} {w : Write} (h : Unmarked w) : Dates authTime w := by
  intro sessionId t hmarked
  rw [h] at hmarked
  cases hmarked

/-- After its token was accepted, a login may record the time of the token. -/
theorem permitted_login {providerId state code : Text} {binding : Option Text} {session : Option AuthenticatedSessionContext}
    {token ip agent : Option Text} (hop : ops i = .completeCallback providerId state code binding session token ip agent)
    {s : AuthOidcState} (hprovider : s.providerId = providerId) (hpurpose : s.purpose = .login) {claims : IdTokenClaims}
    {authTime : Option DateTime} (h : Attested ops i code s claims db) (htimed : Timed i s claims authTime db) {w : Write}
    (hw : Dates authTime w) : Permitted S ops db i w := by
  obtain ⟨x, t, hx, hconsumed, hverified⟩ := h
  unfold Permitted
  rw [hop]
  exact fun _ => ⟨x, t, claims, hconsumed, hx.fields.1.trans hprovider, hverified, Or.inl ⟨hx.fields.2.1.trans hpurpose,
    fun sessionId t' hmarked => (htimed t' (hw sessionId t' hmarked)).1⟩⟩

/-- The update of one session. -/
theorem emits_patchSession (sessionId : Uuid) (patch : SessionPatch) :
    (updateRow (.patchSession sessionId patch) : Service Γ Unit).Emits (Bounded fun w => w = .patchSession sessionId patch) := by
  have hfinish : ∀ found, Bounded (fun w => w = .patchSession sessionId patch)
      (.finish (.patchSession sessionId patch) found : Act (database Γ)) := by
    intro found
    have hwrite : ∀ w, (Act.finish (.patchSession sessionId patch) found : Act (database Γ)).mayWrite w →
        w = .patchSession sessionId patch := by
      rintro w ⟨V, k, hk, hchange⟩
      obtain ⟨s, hs, rfl⟩ := List.mem_map.1 (show k ∈ List.map _ _ from hk)
      rw [of_decide_eq_true (List.mem_filter.1 hs).2] at hchange
      exact (Option.some.inj hchange).symm
    exact ⟨fun row hrow => (nomatch hwrite _ hrow), fun id t hpatch => (nomatch hwrite _ hpatch), nofun, hwrite⟩
  refine Prog.Emits.bind (Prog.Emits.bind (Prog.emits_perform.2 ((reads_start _).bounded nofun _)) fun found =>
    Prog.emits_perform.2 (hfinish found)) fun rows => ?_
  split <;> trivial

/-- The record of an authentication. -/
theorem emits_mark {sessionId : Uuid} {t : DateTime} {W : Write → Prop}
    (hW : ∀ w, Write.marked w = some (sessionId, t) → W w) :
    (updateRow (.patchSession sessionId { lastOidcAuthenticatedAt := some t }) : Service Γ Unit).Emits (Bounded W) :=
  Prog.Emits.mono (emits_patchSession _ _) fun _ ha => ha.mono fun w hw => hW w (hw ▸ rfl)

/-- A bounded program records no time. -/
theorem emits_dated {α : Type} {p : Service Γ α} {authTime : Option DateTime} (h : Within others p) :
    p.Emits (Bounded (Dates authTime)) :=
  Prog.Emits.mono (emits_of_within h (Set.Subset.refl _)) fun _ ha => ha.mono fun _ hw => hw.dates

/-- `record_oidc_login` records the time of the token. -/
theorem emits_recordOidcLogin {user : Option User} {session : Option AuthSession} {userId identityId sessionId : Uuid}
    {loginAt : DateTime} {authTime : Option DateTime} :
    (recordOidcLogin user session userId identityId sessionId loginAt authTime : Service Γ Unit).Emits
      (Bounded (Dates authTime)) := by
  refine Prog.Emits.bind (emits_dated (within_getUserById _ _)) fun user => ?_
  cases user with
  | none => trivial
  | some user =>
    refine Prog.Emits.bind (emits_dated (within_require _ _)) fun _ =>
      Prog.Emits.bind (emits_dated (within_getSessionById _ _)) fun session => ?_
    cases session with
    | none => trivial
    | some session =>
      refine Prog.Emits.bind (emits_dated (within_updateRow (Or.inr (by simp [others, Stmt.kind, UserPatch.kind])))) fun _ =>
        Prog.Emits.bind (emits_dated (within_modify (Or.inl rfl))) fun _ => ?_
      cases authTime with
      | none => trivial
      | some t =>
        refine emits_mark fun w hw sessionId' t' hmarked => ?_
        rw [hw] at hmarked
        cases hmarked
        rfl

/-- An audit log is bounded. -/
theorem within_audit (entry : AuditEntry) : Within others (createAuditLog true entry : Service Γ Unit) :=
  within_sessionScope (Or.inl rfl) ((within_insertAudit (Or.inr (by simp [others]))).bind fun _ => within_persist (Or.inl rfl))

/-- The transaction of a login records no time but the token's. -/
theorem emits_loginCallbackTransaction {provider : OidcProviderSettings} {s : AuthOidcState} {v : OidcVerifiedClaims}
    {token ip agent : Option Text} :
    (loginCallbackTransaction provider s v token ip agent : Service Γ (User × AuthSession × Text × Text)).Emits
      (Bounded (Dates v.authTime)) := by
  have hresolve : Within others (resolveLoginUserAndIdentity provider v s.languageCode :
      Service Γ (User × AuthIdentity × List AuthEventType)) :=
    (within_resolveLoginUserAndIdentity (by simp [others]) fun _ => by simp [others]).mono (fun _ h => h) fun _ _ => trivial
  refine emits_transaction (Prog.Emits.bind (emits_dated hresolve) fun x => ?_)
  refine Prog.Emits.bind (emits_dated within_utcnow) fun _ =>
    Prog.Emits.bind (emits_dated (within_recordUserLogin (by simp [others]))) fun user => ?_
  refine Prog.Emits.bind (emits_dated (within_replaceAuthSession (by simp [others]) (by simp [others]) (by simp [others])))
    fun issued => Prog.Emits.bind emits_recordOidcLogin fun _ => ?_
  refine Prog.Emits.bind (Prog.Emits.each (fun e => emits_dated (within_audit _)) _) fun _ =>
    Prog.Emits.bind (emits_dated (within_audit _)) fun _ => trivial

/-- The login of a callback: it marks sessions only with the time of its token. -/
theorem onward_completeLoginCallback {provider : OidcProviderSettings} {providerId state code : Text} {binding : Option Text}
    {session : Option AuthenticatedSessionContext} {token ip agent : Option Text}
    (hop : ops i = .completeCallback providerId state code binding session token ip agent) {s : AuthOidcState}
    (hprovider : s.providerId = providerId) (hpurpose : s.purpose = .login) {v : OidcVerifiedClaims} :
    Onward Γ S ops i (Validated ops i code s v) (completeLoginCallback provider s v token ip agent : Service Γ OidcCallbackResult)
      fun _ => Settled ops i := by
  have hemits : (completeLoginCallback provider s v token ip agent : Service Γ OidcCallbackResult).Emits
      (Bounded (Dates v.authTime)) :=
    Prog.Emits.bind emits_loginCallbackTransaction fun x =>
      Prog.Emits.bind (emits_dated (within_authorizationForExistingUser _)) fun _ => trivial
  refine onward_conseq (onward_bounded (P := fun db => ∃ claims, Attested ops i code s claims db ∧ Timed i s claims v.authTime db)
    (fun ⟨claims, h, ht⟩ hl => ⟨claims, h.later hl, ht.later hl⟩) (fun _ ⟨_, h, _⟩ => h.settled)
    (fun _ ⟨_, h, ht⟩ w hw => permitted_login hop hprovider hpurpose h ht hw) hemits) (fun db h => ?_)
    fun _ _ ⟨_, h, _⟩ => h.settled
  obtain ⟨claims, subject, hattested, -, -, htimed⟩ := h.attested
  exact ⟨claims, hattested, htimed⟩

/-! ## A reauthentication -/

/-- An identity in the tables was there from the start or was inserted. -/
theorem identity_of_replay {V : Store} {ws : List Write} {x : AuthIdentity}
    (hx : x ∈ (applyAll (D := database Γ) ws V).identities) :
    ∃ y, (y ∈ V.identities ∨ Write.insertIdentity y ∈ ws) ∧ x.userId = y.userId ∧ x.providerId = y.providerId ∧
      x.providerSubject = y.providerSubject := by
  refine applyAll_induct (D := database Γ) (P := fun V' : Store => ∀ x ∈ V'.identities, ∃ y,
    (y ∈ V.identities ∨ Write.insertIdentity y ∈ ws) ∧ x.userId = y.userId ∧ x.providerId = y.providerId ∧
      x.providerSubject = y.providerSubject) (fun x hx => ⟨x, Or.inl hx, rfl, rfl, rfl⟩) (fun w hw V' ih => ?_) x hx
  show ∀ x ∈ (w.apply V').identities, _
  cases w with
  | insertIdentity row =>
    intro x hx
    rcases List.mem_append.1 hx with hx | hx
    · exact ih x hx
    · rw [List.mem_singleton.1 hx]
      exact ⟨row, Or.inr hw, rfl, rfl, rfl⟩
  | patchIdentity id t =>
    intro x hx
    obtain ⟨z, hz, rfl⟩ := List.mem_map.1 hx
    obtain ⟨y, hy, hsame⟩ := ih z hz
    refine ⟨y, hy, ?_⟩
    split <;> exact hsame
  | deleteIdentity id => exact fun x hx => ih x (List.mem_of_mem_filter hx)
  | _ => exact ih

/-- The callback knows whose identity its token names. -/
structure Recognised (S : Store) (ops : Nat → Op) (i : Nat) (code : Text) (s : AuthOidcState) (userId : Uuid)
    (authTime : Option DateTime) (db : Db (database Γ)) : Prop where
  attested : ∃ claims subject x, Attested ops i code s claims db ∧ Timed i s claims authTime db ∧
    claims.sub = .text subject ∧ Known S db x ∧ x.userId = userId ∧ x.providerId = s.providerId ∧
    x.providerSubject = Γ.strip subject

section Recognised

variable {code : Text} {s : AuthOidcState} {userId : Uuid} {authTime : Option DateTime}

/-- A user that a token names stays named. -/
theorem Recognised.later (h : Recognised S ops i code s userId authTime db) (hl : Later db db') :
    Recognised S ops i code s userId authTime db' := by
  obtain ⟨claims, subject, x, hattested, htimed, hsub, hknown, hx⟩ := h.attested
  exact ⟨claims, subject, x, hattested.later hl, htimed.later hl, hsub, known_later hknown hl, hx⟩

/-- A callback that knows the user has consumed its state. -/
theorem Recognised.settled (h : Recognised S ops i code s userId authTime db) : Settled ops i db := by
  obtain ⟨claims, subject, x, hattested, -⟩ := h.attested
  exact hattested.settled

/-- The others leave the user of the token known. -/
theorem stable_recognised : Stable (ledger Γ S ops) i (Recognised S ops i code s userId authTime) :=
  fun h hr => h.later (Frame.later hr)

end Recognised

/-- The rows that the lookup of an identity finds name the identity's user. -/
def Naming (S : Store) (ops : Nat → Op) (i : Nat) (code : Text) (s : AuthOidcState) (authTime : Option DateTime)
    (found : List AuthIdentity) (db : Db (database Γ)) : Prop :=
  Settled ops i db ∧ ∀ x ∈ found, Recognised S ops i code s x.userId authTime db

/-- The identity that was found stays on record. -/
theorem stable_naming {code : Text} {s : AuthOidcState} {authTime : Option DateTime} {found : List AuthIdentity} :
    Stable (ledger Γ S ops) i (Naming S ops i code s authTime found) :=
  fun h hr => ⟨stable_settled h.1 hr, fun x hx => stable_recognised (h.2 x hx) hr⟩

/-- The identity of the token names its user. -/
theorem onward_findIdentity {provider : OidcProviderSettings} {code : Text} {s : AuthOidcState} {v : OidcVerifiedClaims}
    (hprovider : s.providerId = provider.providerId) :
    Onward Γ S ops i (Validated ops i code s v)
      (findIdentityByProviderSubject provider.providerId v.subject : Service Γ (Option AuthIdentity))
      fun found => Naming S ops i code s v.authTime found.toList := by
  refine onward_bind (Q := fun (found : List AuthIdentity) => Naming S ops i code s v.authTime found) ?_ fun found => ?_
  · refine onward_act stable_validated (fun _ => stable_naming) (fun _ h => h.settled) fun {db r db'} hp hinv he => ?_
    refine ⟨(looks_query _).allowed nofun, fun found hr => ?_⟩
    subst hr
    have hanswer := he.answer
    obtain rfl : db = db' := by cases he; rfl
    refine ⟨hp.settled, fun x hx => ?_⟩
    rw [hanswer] at hx
    obtain ⟨hmem, hmatch⟩ := List.mem_filter.1 (show x ∈ List.filter _ (Store.identities (db.view i)) from hx)
    simp only [Bool.and_eq_true, decide_eq_true_eq] at hmatch
    rw [hinv.replays.view i, Db.history_eq hp.log, List.map_nil, List.append_nil] at hmem
    obtain ⟨y, hy, huser, hyprovider, hysubject⟩ := identity_of_replay hmem
    obtain ⟨claims, subject, hattested, hsub, hsubject, htimed⟩ := hp.attested
    refine ⟨claims, subject, y, hattested, htimed, hsub, hy.imp_right fun hinsert => ?_, huser.symm, ?_, ?_⟩
    · obtain ⟨⟨j, w⟩, hj, rfl⟩ := List.mem_map.1 hinsert
      exact ⟨j, hj⟩
    · rw [← hyprovider, hmatch.1, hprovider]
    · rw [← hysubject, hmatch.2, hsubject]
  · rcases found with _ | ⟨x, _ | ⟨y, ys⟩⟩
    · exact onward_pure (fun _ h => h.1) stable_naming fun _ h => h
    · exact onward_pure (fun _ h => h.1) stable_naming fun _ h => h
    · exact onward_throw fun _ h => h.1

/-- The token names the user, and its time of authentication is not too long ago. -/
structure Vouched (S : Store) (ops : Nat → Op) (i : Nat) (code : Text) (s : AuthOidcState) (userId : Uuid) (t : DateTime)
    (db : Db (database Γ)) : Prop where
  recognised : Recognised S ops i code s userId (some t) db
  fresh : ∃ r, ReadTime db i r ∧ r - t ≤ seconds Γ.oidc.reauthFreshnessSeconds

/-- What was vouched for stays so. -/
theorem Vouched.later {code : Text} {s : AuthOidcState} {userId : Uuid} {t : DateTime} (h : Vouched S ops i code s userId t db)
    (hl : Later db db') : Vouched S ops i code s userId t db' := by
  obtain ⟨r, hr, hfresh⟩ := h.fresh
  exact ⟨h.recognised.later hl, r, hl.calls.mem hr, hfresh⟩

/-- The writes of a reauthentication: it marks one session. -/
def Marks (sessionId : Uuid) (t : DateTime) (w : Write) : Prop := w.marked = some (sessionId, t) ∨ Calm w

/-- A reauthentication may mark the session of its state. -/
theorem permitted_reauth {providerId state code : Text} {binding : Option Text} {context : AuthenticatedSessionContext}
    {token ip agent : Option Text}
    (hop : ops i = .completeCallback providerId state code binding (some context) token ip agent) {s : AuthOidcState}
    (hprovider : s.providerId = providerId) (hpurpose : s.purpose = .accountDeletionReauth)
    (huser : s.expectedUserId = some context.user.id) (hsession : s.expectedSessionId = some context.session.id) {t : DateTime}
    (h : Vouched S ops i code s context.user.id t db) {w : Write} (hw : Marks context.session.id t w) :
    Permitted S ops db i w := by
  obtain ⟨claims, subject, y, ⟨x, t', hx, hconsumed, hverified⟩, htimed, hsub, hknown, hyuser, hyprovider, hysubject⟩ :=
    h.recognised.attested
  obtain ⟨hxprovider, hxpurpose, hxuser, hxsession⟩ := hx.fields
  obtain ⟨hclaims, hahead⟩ := htimed t rfl
  unfold Permitted
  rw [hop]
  refine fun hsensitive => ⟨x, t', claims, hconsumed, hxprovider.trans hprovider, hverified,
    Or.inr ⟨hxpurpose.trans hpurpose, context, t, rfl, hw.resolve_right fun hcalm => hcalm hsensitive, hclaims,
      ⟨hahead hpurpose, h.fresh⟩, hxsession.trans hsession, hxuser.trans huser, subject, y, hsub, hknown, hyuser, ?_, hysubject⟩⟩
  rw [hyprovider, hxprovider]

/-- Brackets mark no session. -/
theorem emits_calm {α : Type} {p : Service Γ α} {sessionId : Uuid} {t : DateTime} (h : Within {.bracket} p) :
    p.Emits (Bounded (Marks sessionId t)) :=
  Prog.Emits.mono (emits_of_calm h) fun _ ha => ha.mono fun _ => Or.inr

/-- What a reauthentication does once the user is vouched for. -/
theorem emits_recordReauth {context : AuthenticatedSessionContext} {authTime : DateTime} {entry : AuditEntry}
    (hentry : entry.eventType ≠ .userMarkedDeleted) {result : OidcCallbackResult} :
    (do
      let _reauthenticatedAt ← utcnow
      transaction do
        recordOidcReauth none context.session.id authTime
        createAuditLog true entry
      return result : Service Γ OidcCallbackResult).Emits (Bounded (Marks context.session.id authTime)) := by
  refine Prog.Emits.bind (emits_calm within_utcnow) fun _ => Prog.Emits.bind (emits_transaction ?_) fun _ => trivial
  refine Prog.Emits.bind (Prog.Emits.bind (emits_calm (within_getSessionById _ _)) fun session => ?_) fun _ =>
    emits_calm (within_createAuditLog (Or.inl rfl) hentry)
  cases session with
  | none => trivial
  | some session => exact emits_mark fun _ => Or.inl

/-- `record_oidc_reauth` marks the session that is vouched for. -/
theorem onward_recordReauth {providerId state code : Text} {binding : Option Text} {context : AuthenticatedSessionContext}
    {token ip agent : Option Text}
    (hop : ops i = .completeCallback providerId state code binding (some context) token ip agent) {s : AuthOidcState}
    (hprovider : s.providerId = providerId) (hpurpose : s.purpose = .accountDeletionReauth)
    (huser : s.expectedUserId = some context.user.id) (hsession : s.expectedSessionId = some context.session.id) {t : DateTime}
    {entry : AuditEntry} (hentry : entry.eventType ≠ .userMarkedDeleted) {result : OidcCallbackResult} :
    Onward Γ S ops i (Vouched S ops i code s context.user.id t) (do
      let _reauthenticatedAt ← utcnow
      transaction do
        recordOidcReauth none context.session.id t
        createAuditLog true entry
      return result : Service Γ OidcCallbackResult) fun _ => Settled ops i :=
  onward_conseq (onward_bounded (fun h hl => Vouched.later h hl) (fun _ h => h.recognised.settled)
    (fun _ h _ hw => permitted_reauth hop hprovider hpurpose huser hsession h hw) (emits_recordReauth hentry)) (fun _ h => h)
    fun _ _ h => h.recognised.settled

/-- The time at which the age of the authentication is checked. -/
theorem onward_reauthTime {code : Text} {s : AuthOidcState} {userId : Uuid} {t : DateTime} :
    Onward Γ S ops i (Recognised S ops i code s userId (some t)) (utcnow : Service Γ DateTime)
      fun now db => Recognised S ops i code s userId (some t) db ∧ ReadTime db i now := by
  refine onward_act stable_recognised (fun now db db' h hr => ⟨stable_recognised h.1 hr, (Frame.later hr).calls.mem h.2⟩)
    (fun _ h => h.settled) fun {db r db'} hp hinv he => ⟨?_, fun now hr => ?_⟩
  · have hbounded : Bounded (fun _ => False) (.ext .utcnow : Act (database Γ)) := (reads_ext .utcnow).bounded nofun _
    exact hbounded.allowed (fun _ => hp.settled) fun _ => False.elim
  · subst hr
    exact ⟨hp.later he.later, he.called⟩

/-- The reauthentication of a callback. -/
theorem onward_completeReauthCallback {provider : OidcProviderSettings} {providerId state code : Text} {binding : Option Text}
    {session : Option AuthenticatedSessionContext} {token ip agent : Option Text}
    (hop : ops i = .completeCallback providerId state code binding session token ip agent) {s : AuthOidcState}
    (hprovider : s.providerId = providerId) (hid : s.providerId = provider.providerId)
    (hpurpose : s.purpose = .accountDeletionReauth) {v : OidcVerifiedClaims} :
    Onward Γ S ops i (Validated ops i code s v) (completeReauthCallback provider s v session ip agent : Service Γ OidcCallbackResult)
      fun _ => Settled ops i := by
  cases session with
  | none => exact onward_throw fun _ h => h.settled
  | some context =>
    simp only [completeReauthCallback, require]
    split
    · rename_i hexpected
      simp only [Bool.and_eq_true, decide_eq_true_eq] at hexpected
      rw [Prog.pure_eq, Prog.done_ok_bind]
      refine onward_bind (onward_findIdentity hid) fun found => ?_
      cases found with
      | none => exact onward_throw fun _ h => h.1
      | some identity =>
        simp only
        split
        · rename_i huser
          rw [Prog.pure_eq, Prog.done_ok_bind]
          cases v.authTime with
          | none => exact onward_throw fun _ h => h.1
          | some authTime =>
            have hnaming : ∀ db : Db (database Γ), Naming S ops i code s (some authTime) (some identity).toList db →
                Recognised S ops i code s context.user.id (some authTime) db := by
              intro db h
              rw [← of_decide_eq_true huser]
              exact h.2 identity (List.mem_singleton_self identity)
            refine onward_bind (onward_conseq onward_reauthTime hnaming fun _ _ h => h) fun now => ?_
            split
            · rename_i hfresh
              refine onward_conseq (onward_recordReauth hop hprovider hpurpose hexpected.1 hexpected.2
                (by simp [oidcAudit])) (fun db h => ?_) fun _ _ h => h
              exact ⟨h.1, now, h.2, of_decide_eq_true hfresh⟩
            · exact onward_throw fun _ h => h.1.settled
        · exact onward_throw fun _ h => h.1
    · exact onward_throw fun _ h => h.settled

/-! ## Programs -/

/-- What a callback does once its state is consumed keeps the ledger. -/
theorem onward_finishCallback {provider : OidcProviderSettings} {providerId state code : Text} {binding : Option Text}
    {session : Option AuthenticatedSessionContext} {token ip agent : Option Text}
    (hop : ops i = .completeCallback providerId state code binding session token ip agent) {s : AuthOidcState}
    (hprovider : s.providerId = providerId) (hid : s.providerId = provider.providerId) :
    Onward Γ S ops i (Spent ops i s) (finishCallback provider s code session token ip agent : Service Γ OidcCallbackResult)
      fun _ => Settled ops i := by
  unfold finishCallback
  rw [← hid]
  refine onward_bind (onward_exchange code) fun idToken => onward_bind (onward_validateIdToken hid) fun v => ?_
  cases hpurpose : s.purpose with
  | login => exact onward_completeLoginCallback hop hprovider hpurpose
  | accountDeletionReauth => exact onward_completeReauthCallback hop hprovider hid hpurpose

/-- `complete_callback` keeps the ledger. -/
theorem leads_completeCallback (hS : S.states = []) {providerId state code : Text} {binding : Option Text}
    {session : Option AuthenticatedSessionContext} {token ip agent : Option Text}
    (hop : ops i = .completeCallback providerId state code binding session token ip agent) :
    Leads (ledger Γ S ops) i (Untried i) (completeCallback providerId state code binding session token ip agent :
      Service Γ OidcCallbackResult) fun _ _ => True := by
  unfold completeCallback
  split
  · exact leads_throw _
  · rename_i provider hprovider
    have hid := providerId_of_getProvider hprovider
    have hpresented : (ops i).presented = some (providerId, state, binding) := by rw [hop]; rfl
    refine leads_bind (leads_consumeCallbackState hS hpresented) fun s => ?_
    by_cases hs : s.providerId = provider.providerId
    · have hrest : Onward Γ S ops i (Spent ops i s) (finishCallback provider s code session token ip agent) fun _ => Settled ops i :=
        onward_finishCallback hop (hs.trans hid) hs
      have hfinish := triple_attempt hrest
      refine triple_conseq (triple_bind (S := fun r db => ∀ x : OidcCallbackResult, r = .ok x → True) hfinish (fun r => ?_)
        fun _ _ _ _ _ => trivial) (fun _ h => h.2) fun _ _ _ _ _ => trivial
      cases r with
      | ok result => exact leads_pure stable_true fun _ _ => trivial
      | error e =>
        refine leads_bind (Q := fun _ _ => True) (triple_conseq (onward_audit (by rw [hpresented]; exact nofun))
          (fun db h => ?_) fun _ _ _ _ _ => trivial) fun _ => leads_throw _
        obtain ⟨r', -, hsettled, -⟩ := h
        exact hsettled
    · exact fun db h => absurd h.1 hs

/-! ## The deletion of an account -/

/-- A deletion may write once its reauthentication was found fresh. -/
theorem permitted_of_present {context : AuthenticatedSessionContext} {email : Text} {password ip agent : Option Text}
    (hop : ops i = .deleteAccount context email password ip agent)
    (h : context.user.passwordHash = none → Present db i context) {w : Write} (hw : Unmarked w) : Permitted S ops db i w := by
  unfold Permitted
  rw [hop]
  exact ⟨hw, h⟩

/-- The writes of a deletion come after the check. -/
theorem leads_present {α : Type} {p : Service Γ α} {context : AuthenticatedSessionContext} {email : Text}
    {password ip agent : Option Text} (hop : ops i = .deleteAccount context email password ip agent)
    (h : p.Emits (Bounded Unmarked)) :
    Leads (ledger Γ S ops) i (fun db => context.user.passwordHash = none → Present db i context) p fun _ _ => True := by
  have hpresented : (ops i).presented = none := by rw [hop]; rfl
  refine triple_conseq (triple_bounded (fun hp hr hpassword => present_later (hp hpassword) (Frame.later hr))
    (fun hp he _ hpassword => present_later (hp hpassword) he.later) (fun _ _ h => absurd hpresented h)
    (fun _ hp _ hw => permitted_of_present hop hp hw) h) (fun _ hp => hp) fun _ _ _ _ _ => trivial

/-- What only looks, a deletion may do at any time. -/
theorem leads_quiet {α : Type} {p : Service Γ α} {context : AuthenticatedSessionContext} {email : Text}
    {password ip agent : Option Text} (hop : ops i = .deleteAccount context email password ip agent)
    (h : p.Emits (Bounded fun _ => False)) : Leads (ledger Γ S ops) i (fun _ => True) p fun _ _ => True := by
  have hpresented : (ops i).presented = none := by rw [hop]; rfl
  exact triple_conseq (triple_bounded (P := fun _ => True) (fun _ _ => trivial) (fun _ _ _ => trivial)
    (fun _ _ h => absurd hpresented h) (fun _ _ _ => False.elim) h) (fun _ hp => hp) fun _ _ _ _ _ => trivial

/-- The check reads the clock and compares the time on the session. -/
theorem leads_requireFreshOidcReauth {context : AuthenticatedSessionContext} {email : Text} {password ip agent : Option Text}
    (hop : ops i = .deleteAccount context email password ip agent) :
    Leads (ledger Γ S ops) i (fun _ => True) (requireFreshOidcReauth context : Service Γ Unit)
      fun _ db => Present db i context := by
  have hproviders : (linkedProviderDetails context.user.id : Service Γ _).Emits (Bounded fun _ => False) :=
    Prog.Emits.bind (Prog.emits_perform.2 ((looks_query _).reads.bounded nofun _)) fun _ => trivial
  unfold requireFreshOidcReauth
  split
  · exact leads_bind (leads_quiet hop hproviders) fun _ => leads_throw _
  · rename_i t ht
    refine leads_bind (Q := fun now db => ReadTime db i now) ?_ fun now => ?_
    · refine leads_act stable_true (fun now db db' h hr => (Frame.later hr).calls.mem h) fun _ _ he => ⟨?_, fun now hr => ?_⟩
      · exact looks_utcnow.allowed nofun
      · subst hr
        exact he.called
    · split
      · exact leads_conseq (leads_bind (leads_quiet hop hproviders) fun _ => leads_throw _) (fun _ _ => trivial) fun _ _ h => h
      · rename_i hfresh
        exact leads_pure (fun h hr => present_later h (Frame.later hr)) fun db h => ⟨now, t, h, ht, le_of_not_gt hfresh⟩

/-- `delete_account` keeps the ledger. -/
theorem leads_deleteAccount {context : AuthenticatedSessionContext} {email : Text} {password ip agent : Option Text}
    (hop : ops i = .deleteAccount context email password ip agent) {P : Db (database Γ) → Prop} :
    Leads (ledger Γ S ops) i P (deleteAccount context email password ip agent : Service Γ Unit) fun _ _ => True := by
  have hrest : Within others (do
      let deletedAt ← utcnow
      transaction (wipeUser context.user.id deletedAt context.session.id ip) : Service Γ Unit) :=
    within_utcnow.bind fun _ => within_transaction (by simp [others]) (within_wipeUser (by simp [others]) (by simp [others])
      (by simp [others]))
  refine leads_conseq (leads_bind (Q := fun _ _ => True) (leads_quiet hop ?_) fun _ => leads_bind
    (Q := fun _ db => context.user.passwordHash = none → Present db i context) ?_ fun _ =>
      leads_present hop (emits_of_within hrest (Set.Subset.refl _))) (fun _ _ => trivial) fun _ _ h => h
  · simp only [require]
    split <;> trivial
  · unfold requireReauth
    split
    · rename_i hash hhash
      have hnone : ¬context.user.passwordHash = none := by simp [hhash]
      refine leads_conseq (leads_present hop (emits_of_within (show Within others _ from within_requirePassword (by simp [others]))
        (Set.Subset.refl _))) (fun _ _ hpassword => absurd hpassword hnone) fun _ _ _ hpassword => absurd hpassword hnone
    · exact leads_conseq (leads_requireFreshOidcReauth hop) (fun _ h => h) fun _ _ h _ => h

/-- Operations that do not touch the states. -/
theorem leads_other {op : Op} (hop : ops i = op)
    (hstart : ∀ p path purpose session ip l, op ≠ .startAuthorization p path purpose session ip l)
    (hplain : Plain op) (hprune : ∀ t, op ≠ .deleteOidcStatesExpiredBefore t) {P : Db (database Γ) → Prop} :
    Leads (ledger Γ S ops) i P (program Γ op) fun _ _ => True :=
  leads_plain (hop ▸ hplain) (emits_of_within (within_program op) (kinds_subset_others hstart hplain hprune))

/-- An outcome made of a result. -/
theorem leads_done {α : Type} {p : Service Γ α} {P : Db (database Γ) → Prop} {f : α → Outcome}
    (h : Leads (ledger Γ S ops) i P p fun _ _ => True) :
    Leads (ledger Γ S ops) i P (p >>= fun x => pure (f x)) fun _ _ => True :=
  leads_bind h fun _ => leads_pure stable_true fun _ _ => trivial

/-- Every operation keeps the ledger from its start. -/
theorem leads_operation (hS : S.states = []) (op : Op) (hop : ops i = op) :
    Leads (ledger Γ S ops) i (fun db => Untried i db ∧ Unstarted i db) (program Γ op) fun _ _ => True := by
  cases op with
  | startAuthorization =>
    exact leads_conseq (leads_done (leads_startAuthorization hop)) (fun _ h => h.2) fun _ _ h => h
  | completeCallback =>
    exact leads_conseq (leads_done (leads_completeCallback hS hop)) (fun _ h => h.1) fun _ _ h => h
  | completeErrorCallback =>
    exact leads_conseq (leads_done (leads_completeErrorCallback hS (by rw [hop]; rfl))) (fun _ h => h.1) fun _ _ h => h
  | deleteOidcStatesExpiredBefore t =>
    exact leads_done (leads_plain (by rw [hop]; trivial) (emits_deleteOidcStates t))
  | deleteAccount => exact leads_done (leads_deleteAccount hop)
  | _ => exact leads_other hop (fun _ _ _ _ _ _ h => nomatch h) trivial fun _ h => nomatch h

/-- The ledger holds in every run from tables without states. -/
theorem ledger_of_reaches (hS : S.states = []) {env : Env} {c : Configuration Γ} (h : Reaches Γ (start Γ ops S env) c) :
    Ledger S ops c.state := by
  have hnil : ∀ k, (atRest Γ S env).history k = [] := fun _ => rfl
  have hinv : Ledger S ops (atRest Γ S env) := by
    refine ⟨guarded_atRest S env, rfl, ⟨fun _ _ hcall => ?_, fun _ _ _ hcall => ?_, fun _ _ hcall => ?_⟩, fun k x hx => ?_,
      fun k x hx => ?_, fun k => List.Pairwise.nil, fun k _ hacted => ?_, fun _ => Nat.zero_le _, fun k x hx => ?_⟩
    · exact absurd hcall List.not_mem_nil
    · exact absurd hcall List.not_mem_nil
    · exact absurd hcall List.not_mem_nil
    · exact absurd hx List.not_mem_nil
    · exact absurd hx List.not_mem_nil
    · rcases hacted with ⟨w, hw⟩ | ⟨call, hcall, -⟩
      · exact absurd hw List.not_mem_nil
      · exact absurd hcall List.not_mem_nil
    · exact absurd hx List.not_mem_nil
  refine (sat_of_reaches (C := ledger Γ S ops) (Q := fun _ r db => ∀ x, r = .ok x → True) (c := start Γ ops S env) hinv
    (fun i => ?_) h).1
  exact leads_operation hS (ops i) rfl _ ⟨rfl, fun row hrow => absurd hrow List.not_mem_nil⟩

end OidcStateAux

end AuthService
