import AuthService.Theorems.OidcState

/-!
# Deletion of an account without a password

`_require_fresh_oidc_reauth` looks at `last_oidc_authenticated_at` of the session. In every run that time was put there by a
callback that had consumed a state, from a token for the nonce of that state, and for a reauthentication from a token that names
an identity of the user.
-/

namespace AuthService

open ReadCommitted RelyGuarantee OidcStateAux

variable {Γ : Ctx}

/-- A callback has recorded the time of the token that it got for its state. -/
structure Records (store : Store) (ops : Nat → Op) (db : Db (database Γ)) (sessionId : Uuid) (t : DateTime) : Prop where
  callback : ∃ j w providerId state code binding session token ip agent, (j, w) ∈ db.journal ∧
    w.marked = some (sessionId, t) ∧ ops j = .completeCallback providerId state code binding session token ip agent ∧
    ∃ row consumedAt claims, Consumed Γ ops db.journal j row consumedAt ∧ row.providerId = providerId ∧
      Verified db j code row claims ∧ claims.authenticatedAt = some t ∧
      (LogsIn row claims w ∨ Reauthenticates store db j row claims session w)

namespace OidcFreshnessAux

variable {S : Store} {ops : Nat → Op}

/-- What a session says about an authentication was there from the start, or a write has put it there. -/
theorem marked_of_replay {V : Store} {ws : List Write} {x : AuthSession}
    (hx : x ∈ (applyAll (D := database Γ) ws V).sessions) {v : DateTime} (hv : x.lastOidcAuthenticatedAt = some v) :
    (∃ s ∈ V.sessions, s.id = x.id ∧ s.lastOidcAuthenticatedAt = some v) ∨
      ∃ w ∈ ws, ∃ t, w.marked = some (x.id, t) ∧ (v = t ∨ v = toMillis t) := by
  refine applyAll_induct (D := database Γ) (P := fun V' : Store => ∀ x ∈ V'.sessions, ∀ v, x.lastOidcAuthenticatedAt = some v →
    (∃ s ∈ V.sessions, s.id = x.id ∧ s.lastOidcAuthenticatedAt = some v) ∨
      ∃ w ∈ ws, ∃ t, w.marked = some (x.id, t) ∧ (v = t ∨ v = toMillis t))
    (fun x hx v hv => Or.inl ⟨x, hx, rfl, hv⟩) (fun w hw V' ih => ?_) x hx v hv
  show ∀ x ∈ (w.apply V').sessions, _
  cases w with
  | insertSession row =>
    intro x hx v hv
    rcases List.mem_append.1 hx with hx | hx
    · exact ih x hx v hv
    · obtain rfl := List.mem_singleton.1 hx
      exact Or.inr ⟨_, hw, v, by rw [Write.marked, hv, Option.map_some], Or.inl rfl⟩
  | patchSession id patch =>
    intro x hx v hv
    obtain ⟨z, hz, rfl⟩ := List.mem_map.1 hx
    by_cases hid : z.id = id
    · rw [if_pos (decide_eq_true hid)] at hv ⊢
      cases hpatch : patch.lastOidcAuthenticatedAt with
      | none =>
        have hold : z.lastOidcAuthenticatedAt = some v := by
          simpa only [AuthSession.patch, hpatch, Option.map_none, Option.none_or] using hv
        exact ih z hz v hold
      | some t =>
        have hnew : toMillis t = v := by
          simpa only [AuthSession.patch, hpatch, Option.map_some, Option.some_or, Option.some.injEq] using hv
        refine Or.inr ⟨_, hw, t, ?_, Or.inr hnew.symm⟩
        rw [Write.marked, hpatch, Option.map_some, ← hid]
        rfl
    · rw [if_neg (by simpa using hid)] at hv ⊢
      exact ih z hz v hv
  | deleteSession id => exact fun x hx => ih x (List.mem_of_mem_filter hx)
  | _ => exact ih

/-- Whole seconds are stored as they are. -/
theorem toMillis_seconds (n : Int) : toMillis (seconds n) = seconds n := by
  have h := toMillis_add_seconds 0 n
  rwa [zero_add, show toMillis 0 = 0 from rfl, zero_add] at h

/-- The time of a token has whole seconds. -/
theorem toMillis_authenticatedAt {claims : IdTokenClaims} {t : DateTime} (h : claims.authenticatedAt = some t) :
    toMillis t = t := by
  unfold IdTokenClaims.authenticatedAt at h
  split at h
  · rw [← Option.some.inj h, toMillis_seconds]
  · cases h

/-- Only callbacks record authentications. -/
theorem records_of_marked {db : Db (database Γ)} (h : Ledger S ops db) {j : Nat} {w : Write} (hw : (j, w) ∈ db.journal)
    {sessionId : Uuid} {t v : DateTime} (hmarked : w.marked = some (sessionId, t)) (hv : v = t ∨ v = toMillis t) :
    Records S ops db sessionId v := by
  have hsensitive : w.Sensitive := by
    cases w with
    | insertSession => trivial
    | _ => exact fun hno => nomatch hmarked.symm.trans hno
  have hpermitted : Permitted S ops db j w := h.permitted j _ (List.mem_append_left _ hw)
  have hunmarked : w.marked ≠ none := by rw [hmarked]; exact nofun
  cases hop : ops j with
  | completeCallback providerId state code binding session token ip agent =>
    simp only [Permitted, hop] at hpermitted
    obtain ⟨row, consumedAt, claims, hconsumed, hprovider, hverified, hpurpose⟩ := hpermitted hsensitive
    have htime : claims.authenticatedAt = some t := by
      rcases hpurpose with hlogin | hreauth
      · exact hlogin.time sessionId t hmarked
      · obtain ⟨context, t', -, hmarked', ht', -⟩ := hreauth.session
        rw [hmarked, Option.some.injEq, Prod.mk.injEq] at hmarked'
        rw [ht', hmarked'.2]
    obtain rfl : v = t := hv.elim id fun hv => hv.trans (toMillis_authenticatedAt htime)
    exact ⟨j, w, providerId, state, code, binding, session, token, ip, agent, hw, hmarked, hop, row, consumedAt, claims, hconsumed,
      hprovider, hverified, htime, hpurpose⟩
  | completeErrorCallback =>
    simp only [Permitted, hop] at hpermitted
    exact absurd hsensitive hpermitted
  | deleteAccount =>
    simp only [Permitted, hop] at hpermitted
    exact absurd hpermitted.1 hunmarked
  | _ =>
    simp only [Permitted, hop] at hpermitted
    exact absurd hpermitted hunmarked

end OidcFreshnessAux

open OidcFreshnessAux

namespace LinkedDeletion

/-- The provider authenticated the user at the time 0. -/
def claims : IdTokenClaims := { StolenCallback.claims with authTime := .int 0 }

def Γ₀ : Ctx := Ctx.readable [StolenCallback.google] fun _ => .ok claims

/-- What the callback leaves in the tables. -/
def session : AuthSession := ⟨3, 0, "#ttttt".toList, "#tttttt".toList, 0, 0, 86400000000, none, some 0, none, none⟩

def context : AuthenticatedSessionContext := ⟨StolenCallback.ann, session, [], []⟩

/-- A login through the provider, and the deletion of the account with its session. -/
def ops : Nat → Op
  | 2 => .deleteAccount context StolenCallback.ann.email none none none
  | i => StolenCallback.ops i

def loginSchedule : List (Move (database Γ₀)) := List.replicate 13 (.run 0) ++ List.replicate 43 (.run 1)

def deletionSchedule : List (Move (database Γ₀)) := List.replicate 18 (.run 2)

/-- The schedules above are a login and then a deletion that writes. -/
theorem exists_deletion : ∃ c₀, play loginSchedule (start Γ₀ ops StolenCallback.store StolenCallback.env) = some c₀ ∧
    session ∈ Store.sessions c₀.state.store ∧ ∃ c, play deletionSchedule c₀ = some c ∧ ∃ w, (2, w) ∈ c.state.journal := by
  have hplay : ((play loginSchedule (start Γ₀ ops StolenCallback.store StolenCallback.env)).any fun c₀ =>
      decide (session ∈ Store.sessions c₀.state.store) && (play deletionSchedule c₀).any fun c =>
        c.state.journal.any fun x => decide (x.1 = 2)) = true := by decide +kernel
  obtain ⟨c₀, hc₀, hrest⟩ := (Option.any_eq_true _ _).1 hplay
  obtain ⟨hsession, hdeletion⟩ := (Bool.and_eq_true _ _).mp hrest
  obtain ⟨c, hc, hjournal⟩ := (Option.any_eq_true _ _).1 hdeletion
  obtain ⟨⟨i, w⟩, hmem, hi⟩ := List.any_eq_true.1 hjournal
  obtain rfl : i = 2 := of_decide_eq_true hi
  exact ⟨c₀, hc₀, of_decide_eq_true hsession, c, hc, w, hmem⟩

end LinkedDeletion

end AuthService
