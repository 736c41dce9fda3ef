import AuthService.OidcCallbacks

/-!
# A state of the OpenID Connect flow is used once

Starts, callbacks, error callbacks, the pruning of states and all other operations run at the same time. Of the callbacks that
present one state only one gets past `_consume_callback_state`: the others neither exchange a code nor write anything. What
that one writes is bound to the start that made the state.
-/

namespace AuthService

open ReadCommitted RelyGuarantee

variable {Γ : Ctx}

namespace OidcStateAux

variable {S : Store} {ops : Nat → Op}

variable {db db' : Db (database Γ)} {i : Nat} {a : Act (database Γ)} {r : Except AuthError (Result (database Γ) a)}

/-- Callbacks that present one state and have acted are one callback. -/
theorem Ledger.eq_of_presented (h : Ledger S ops db) {i j : Nat} {state p p' : Text} {b b' : Option Text}
    (hi : (ops i).presented = some (p, state, b)) (hj : (ops j).presented = some (p', state, b'))
    (hacted : Acted db i) (hacted' : Acted db j) : i = j := by
  obtain ⟨row, t, ⟨k, hwrites⟩, ⟨_, state1, _, hpresented, hhash, -⟩, -⟩ := h.acted i (by rw [hi]; exact nofun) hacted
  obtain ⟨row', t', ⟨k', hwrites'⟩, ⟨_, state2, _, hpresented', hhash', -⟩, -⟩ := h.acted j (by rw [hj]; exact nofun) hacted'
  rw [hi, Option.some.injEq, Prod.mk.injEq, Prod.mk.injEq] at hpresented
  rw [hj, Option.some.injEq, Prod.mk.injEq, Prod.mk.injEq] at hpresented'
  rw [← hpresented.2.1] at hhash
  rw [← hpresented'.2.1, ← hhash] at hhash'
  have hmem : ∀ {x}, x ∈ db.journal → x ∈ db.history i := fun hx => List.mem_append_left _ hx
  obtain ⟨-, rfl⟩ := eq_of_stateHash (h.apart i) (hmem (hwrites.subset List.mem_cons_self))
    (hmem (hwrites'.subset List.mem_cons_self)) hhash'.symm
  exact eq_of_patchState (h.apart i) (hmem (hwrites.subset (List.mem_cons_of_mem _ List.mem_cons_self)))
    (hmem (hwrites'.subset (List.mem_cons_of_mem _ List.mem_cons_self)))

/-- The codes that are exchanged for a state are exchanged by one callback. -/
theorem Ledger.countP_exchangesFor (h : Ledger S ops db) (state : Text) : db.calls.countP (exchangesFor ops state) ≤ 1 := by
  rcases Nat.eq_zero_or_pos (db.calls.countP (exchangesFor ops state)) with hzero | hpos
  · exact hzero ▸ Nat.zero_le _
  · have hacts : ∀ call ∈ db.calls, exchangesFor ops state call = true → Ext.isExchange call.ext = true ∧
        (∃ p b, (ops call.thread).presented = some (p, state, b)) ∧ Acted db call.thread := by
      intro call hcall hexchange
      simp only [exchangesFor, Bool.and_eq_true, Option.any_eq_true, decide_eq_true_eq] at hexchange
      obtain ⟨hx, ⟨p, s, b⟩, hpresented, rfl⟩ := hexchange
      refine ⟨hx, ⟨p, b, hpresented⟩, Or.inr ⟨call, hcall, rfl, fun hutcnow => ?_⟩⟩
      rw [hutcnow] at hx
      cases hx
    obtain ⟨call, hcall, hexchange⟩ := List.countP_pos_iff.1 hpos
    obtain ⟨-, ⟨p, b, hpresented⟩, hacted⟩ := hacts call hcall hexchange
    refine (List.countP_mono_left fun call' hcall' hexchange' => ?_).trans (h.exchanged call.thread)
    obtain ⟨hx, ⟨p', b', hpresented'⟩, hacted'⟩ := hacts call' hcall' hexchange'
    have hthread := h.eq_of_presented hpresented' hpresented hacted' hacted
    simp only [exchanges, hthread, hx, decide_true, Bool.and_self]

end OidcStateAux

open OidcStateAux

/-- Whatever the order of the steps: of the callbacks that present one state one at most has committed anything or asked the
world for more than the time, and one code at most is exchanged for it. -/
theorem oidc_state_one_time (ops : Nat → Op) (store : Store) (hstates : store.states = []) (env : Env) {c : Configuration Γ}
    (h : Reaches Γ (start Γ ops store env) c) (state : Text) :
    (∀ i j providerId providerId' binding binding', (ops i).presented = some (providerId, state, binding) →
      (ops j).presented = some (providerId', state, binding') → Acted c.state i → Acted c.state j → i = j) ∧
    c.state.calls.countP (exchangesFor ops state) ≤ 1 := by
  have hledger : Ledger store ops c.state := ledger_of_reaches hstates h
  exact ⟨fun i j p p' b b' hi hj hacted hacted' => hledger.eq_of_presented hi hj hacted hacted',
    hledger.countP_exchangesFor state⟩

namespace StolenCallback

def google : OidcProviderSettings :=
  ⟨"google".toList, "Google".toList, "https://accounts.google.com".toList, "client".toList, true, .linkOnly, .auto⟩

/-- The tokens of the provider carry the third token that is drawn as their nonce. -/
def claims : IdTokenClaims :=
  { iss := .text "https://accounts.google.com".toList
    aud := .text "client".toList
    sub := .text "subject".toList
    nonce := .text "ttt".toList
    exp := .int 100
    iat := .int 0
    authTime := .null
    email := .text "ann@example.com".toList
    emailVerified := .bool true }

def Γ₀ : Ctx := Ctx.readable [google] fun _ => .ok claims

def ann : User := ⟨0, "ann@example.com".toList, none, true, .en, 0, 0, none, none⟩

def store : Store := { Store.empty with users := [ann] }

def env : Env := ⟨0, [], 1, 0, 0, 0⟩

/-- A login is started, and two callbacks present its state. -/
def ops : Nat → Op
  | 0 => .startAuthorization google.providerId none .login none none none
  | _ => .completeCallback google.providerId "t".toList "code".toList (some "tt".toList) none none none none

/-- The second callback has begun when the first one runs to its end. -/
def schedule : List (Move (database Γ₀)) :=
  List.replicate 13 (.run 0) ++ List.replicate 2 (.run 2) ++ List.replicate 41 (.run 1) ++ List.replicate 4 (.run 2)

/-- The first callback issues a session. -/
def issues : Nat × Write → Bool
  | (1, .insertSession _) => true
  | _ => false

/-- The schedule above issues a session. -/
theorem exists_issue : ∃ c, play schedule (start Γ₀ ops store env) = some c ∧
    ∃ session, (1, Write.insertSession session) ∈ c.state.journal := by
  have hplay : ((play schedule (start Γ₀ ops store env)).any fun c => c.state.journal.any issues) = true := by decide +kernel
  obtain ⟨c, hc, hissues⟩ := (Option.any_eq_true _ _).1 hplay
  obtain ⟨⟨i, w⟩, hmem, hw⟩ := List.any_eq_true.1 hissues
  unfold issues at hw
  split at hw
  · rename_i session heq
    rw [heq] at hmem
    exact ⟨c, hc, session, hmem⟩
  · cases hw

end StolenCallback

open StolenCallback in
/-- Two callbacks present one state. The first gets a session, and the second does nothing. -/
theorem oidc_state_one_time_race : ∃ c, play schedule (start Γ₀ ops store env) = some c ∧ Acted c.state 1 ∧
    ¬Acted c.state 2 ∧ c.state.calls.countP (exchangesFor ops "t".toList) ≤ 1 := by
  obtain ⟨c, hc, session, hsession⟩ := exists_issue
  obtain ⟨hone, hcount⟩ := oidc_state_one_time ops store rfl env (reaches_of_play hc) "t".toList
  have hacted : Acted c.state 1 := Or.inl ⟨_, hsession⟩
  refine ⟨c, hc, hacted, fun hacted' => ?_, hcount⟩
  cases hone 1 2 _ _ _ _ rfl rfl hacted hacted'

/-- A callback issues a session, or records an authentication on one, only after it has consumed a state that a start made
before for the same provider and browser, in time, and has a token with the nonce of that start. When it is no login, the session
is the one for which the start was made, and the token names an identity of its user. -/
theorem oidc_session_bound (ops : Nat → Op) (store : Store) (hstates : store.states = []) (env : Env) {c : Configuration Γ}
    (h : Reaches Γ (start Γ ops store env) c) {i : Nat} {providerId state : Text} {binding : Option Text}
    (hop : (ops i).presented = some (providerId, state, binding)) {w : Write} (hw : (i, w) ∈ c.state.journal)
    (hsensitive : w.Sensitive) :
    ∃ code session token ip agent, ops i = .completeCallback providerId state code binding session token ip agent ∧
    ∃ j row t claims, Started ops c.state j row ∧
      [(j, Write.insertState row), (i, Write.patchState row.id t)].Sublist c.state.journal ∧
      row.providerId = providerId ∧ row.stateHash = Γ.hashToken state ∧
      (∃ cookie, binding = some cookie ∧ row.browserBindingHash = Γ.hashToken cookie) ∧ t < row.expiresAt ∧
      Verified c.state i code row claims ∧ (LogsIn row claims w ∨ Reauthenticates store c.state i row claims session w) := by
  have hledger : Ledger store ops c.state := ledger_of_reaches hstates h
  have hmem : ∀ {x}, x ∈ c.state.journal → x ∈ c.state.history i := fun hx => List.mem_append_left _ hx
  have hpermitted : Permitted store ops c.state i w := hledger.permitted i _ (hmem hw)
  cases hi : ops i with
  | completeCallback p s code b session token ip agent =>
    rw [hi] at hop
    obtain ⟨rfl, rfl, rfl⟩ : p = providerId ∧ s = state ∧ b = binding := by
      simpa only [Op.presented, Option.some.injEq, Prod.mk.injEq] using hop
    simp only [Permitted, hi] at hpermitted
    obtain ⟨row, t, claims, hconsumed, hprovider, hverified, hpurpose⟩ := hpermitted hsensitive
    obtain ⟨⟨j, hwrites⟩, ⟨p', s', cookie, hpresented, hhash, hcookie⟩, htime⟩ := hconsumed
    rw [hi, Op.presented, Option.some.injEq, Prod.mk.injEq, Prod.mk.injEq] at hpresented
    obtain ⟨-, rfl, rfl⟩ := hpresented
    exact ⟨code, session, token, ip, agent, rfl, j, row, t, claims,
      hledger.started i _ (hmem (hwrites.subset List.mem_cons_self)) row rfl, hwrites, hprovider, hhash,
      ⟨cookie, rfl, hcookie⟩, htime, hverified, hpurpose⟩
  | completeErrorCallback =>
    simp only [Permitted, hi] at hpermitted
    exact absurd hsensitive hpermitted
  | _ =>
    rw [hi] at hop
    cases hop

open StolenCallback in
/-- The session of the first callback is bound to the start. -/
theorem oidc_session_bound_login : ∃ c session, play schedule (start Γ₀ ops store env) = some c ∧
    (1, Write.insertSession session) ∈ c.state.journal ∧ ∃ j row claims, Started ops c.state j row ∧
      row.browserBindingHash = Γ₀.hashToken "tt".toList ∧ Verified c.state 1 "code".toList row claims := by
  obtain ⟨c, hc, session, hsession⟩ := exists_issue
  obtain ⟨code, _, _, _, _, hcode, j, row, t, claims, hstarted, -, -, -, ⟨cookie, hcookie, hbound⟩, -, hverified, -⟩ :=
    oidc_session_bound ops store rfl env (reaches_of_play hc) rfl hsession trivial
  obtain rfl : "tt".toList = cookie := Option.some.inj hcookie
  obtain rfl : "code".toList = code := by
    have hcode : Op.completeCallback _ _ _ _ _ _ _ _ = Op.completeCallback _ _ _ _ _ _ _ _ := hcode
    exact (Op.completeCallback.inj hcode).2.2.1
  exact ⟨c, session, hc, hsession, j, row, claims, hstarted, hbound, hverified⟩

end AuthService
