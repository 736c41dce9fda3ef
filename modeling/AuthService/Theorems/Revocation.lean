import AuthService.Interleavings

/-!
# Revocation is permanent

Once a revocation of a session has committed, no interleaving brings the session back: its row stays revoked, every later
lookup by its token finds nothing, and an authentication that looks the session up later gives no context.
-/

namespace AuthService

open ReadCommitted

variable {Γ : Ctx}

/-- The entries of a session in the primary key and in the unique index of the tokens. -/
def AuthSession.entries (s : AuthSession) : Uuid × Text := (s.id, s.sessionTokenHash)

/-- Entries that share neither their first nor their second part. -/
def Distinct (xs : List (Uuid × Text)) : Prop := xs.Pairwise fun x y => x.1 ≠ y.1 ∧ x.2 ≠ y.2

/-- No two sessions share their id or their token. -/
def UniqueSessions (S : Store) : Prop := Distinct (S.sessions.map AuthSession.entries)

namespace RevocationAux

/-! ## Writes that keep sessions -/

/-- The write removes no session and revives none. -/
def KeepsSessions : Write → Prop
  | .deleteSession _ => False
  | .patchSession _ patch => patch.revokedAt ≠ some none
  | _ => True

/-- The sessions that a write adds. -/
def added : Write → Option AuthSession
  | .insertSession row => some row
  | _ => none

/-- The session that is added is the one that is inserted. -/
theorem added_eq_some {w : Write} {s : AuthSession} (h : added w = some s) : w = .insertSession s := by
  cases w <;> simp only [added, reduceCtorEq, Option.some.injEq] at h
  rw [h]

/-- The entries of the sessions after a write: those before it, and the one that it adds. -/
theorem entries_apply {w : Write} (h : KeepsSessions w) (S : Store) :
    (w.apply S).sessions.map AuthSession.entries =
      S.sessions.map AuthSession.entries ++ (added w).toList.map AuthSession.entries := by
  cases w with
  | insertSession row => simp [Write.apply, added]
  | patchSession id patch =>
    simp only [Write.apply, modifyAt, added, Option.toList_none, List.map_nil, List.append_nil, List.map_map]
    refine List.map_congr_left fun s _ => ?_
    simp only [Function.comp_apply]
    split <;> rfl
  | deleteSession id => cases h
  | _ => simp [Write.apply, added]

/-- The entries of the sessions after some writes. -/
theorem entries_applyAll {ws : List Write} (h : ∀ w ∈ ws, KeepsSessions w) (S : Store) :
    (applyAll (D := database Γ) ws S).sessions.map AuthSession.entries =
      S.sessions.map AuthSession.entries ++ (ws.filterMap added).map AuthSession.entries := by
  induction ws generalizing S with
  | nil => exact (List.append_nil _).symm
  | cons w ws ih =>
    rw [applyAll_cons, ih (fun w' hw' => h w' (List.mem_cons_of_mem _ hw'))]
    have hw := entries_apply (h w List.mem_cons_self) S
    change ((w.apply S).sessions.map _) ++ _ = _
    rw [hw]
    cases ha : added w <;> simp [ha]

/-- Every session of the first tables is in the second, and a revoked one is revoked there. -/
def Keeps (S S' : Store) : Prop :=
  ∀ s ∈ S.sessions, ∃ s' ∈ S'.sessions, s'.entries = s.entries ∧ (s.revokedAt ≠ none → s'.revokedAt ≠ none)

theorem Keeps.refl (S : Store) : Keeps S S := fun s hs => ⟨s, hs, rfl, fun h => h⟩

/-- One period after another. -/
theorem Keeps.trans {S S' S'' : Store} (h : Keeps S S') (h' : Keeps S' S'') : Keeps S S'' := by
  intro s hs
  obtain ⟨s', hs', he, hr⟩ := h s hs
  obtain ⟨s'', hs'', he', hr'⟩ := h' s' hs'
  exact ⟨s'', hs'', he'.trans he, fun hn => hr' (hr hn)⟩

/-- A patch does not bring a revoked session back. -/
theorem patch_revoked {s : AuthSession} {patch : SessionPatch} (h : patch.revokedAt ≠ some none) (hs : s.revokedAt ≠ none) :
    (s.patch patch).revokedAt ≠ none := by
  rcases hp : patch.revokedAt with _ | _ | t
  · simpa [AuthSession.patch, hp] using hs
  · exact absurd hp h
  · simp [AuthSession.patch, hp]

/-- A write that keeps sessions keeps the revoked ones revoked. -/
theorem keeps_apply {w : Write} (h : KeepsSessions w) (S : Store) : Keeps S (w.apply S) := by
  intro s hs
  cases w with
  | insertSession row => exact ⟨s, by simp [Write.apply, hs], rfl, fun hn => hn⟩
  | patchSession id patch =>
    refine ⟨if s.id = id then s.patch patch else s, ?_, ?_, fun hn => ?_⟩
    · simp only [Write.apply, modifyAt, decide_eq_true_eq, List.mem_map]
      exact ⟨s, hs, rfl⟩
    · split <;> rfl
    · split
      · exact patch_revoked h hn
      · exact hn
  | deleteSession id => cases h
  | _ => exact ⟨s, hs, rfl, fun hn => hn⟩

/-- Writes that keep sessions keep the revoked ones revoked. -/
theorem keeps_applyAll {ws : List Write} (h : ∀ w ∈ ws, KeepsSessions w) (S : Store) :
    Keeps S (applyAll (D := database Γ) ws S) :=
  applyAll_induct (D := database Γ) (P := fun S' => Keeps S S') (Keeps.refl S) fun w hw S' hS' =>
    hS'.trans (keeps_apply (h w hw) S')

/-! ## Actions that keep sessions -/

/-- The kinds that remove no session. -/
def keeping : Set Kind := { k | k ≠ .rogue ∧ k ≠ .sessionPrune }

/-- An insert keeps the sessions. -/
theorem keepsSessions_insert {w : Write} (h : w.kind = .neutral ∨ w.kind ∈ keeping) : KeepsSessions w := by
  have hne : w.kind ≠ .rogue := by
    rcases h with h | h
    · simp [h]
    · exact h.1
  cases w with
  | deleteSession id => exact hne rfl
  | patchSession id patch => exact absurd rfl hne
  | _ => trivial

/-- A statement keeps the sessions and adds none. -/
theorem keepsSessions_change {s : Stmt} (h : s.kind = .neutral ∨ s.kind ∈ keeping) {k : Key} {w : Write}
    (hw : s.change k = some w) : KeepsSessions w ∧ added w = none := by
  have hne : s.kind ≠ .rogue ∧ s.kind ≠ .sessionPrune := by
    rcases h with h | h
    · simp [h]
    · exact h
  cases s <;> cases k <;> simp only [Stmt.change, Option.some.injEq, reduceCtorEq] at hw <;> subst hw
  case patchSession.session id patch _ =>
    refine ⟨?_, rfl⟩
    rcases SessionPatch.kind_cases hne.1 with ⟨-, _, rfl⟩ | ⟨-, _, _, rfl⟩ | ⟨-, _, rfl⟩ | ⟨-, _, rfl⟩ <;> exact nofun
  case revokeSessionsForUser.session => exact ⟨nofun, rfl⟩
  case deleteSessionsExpiredBefore.session => exact absurd rfl hne.2
  all_goals exact ⟨trivial, rfl⟩

/-- What the open transactions are about to do to the sessions: nothing is lost or revived, and their inserts clash neither
with the committed sessions nor with each other. -/
structure SessionsKept (db : Db (database Γ)) : Prop where
  guarded : Guarded db
  keeps : ∀ i, ∀ w ∈ db.log i, KeepsSessions w
  unique : UniqueSessions db.store
  uniqueView : ∀ i, UniqueSessions (db.view i)

theorem view_eq (db : Db (database Γ)) (i : Nat) : db.view i = applyAll (db.log i) db.store := rfl

/-- The sessions of a view are distinct. -/
theorem distinct_view {db : Db (database Γ)} (h : SessionsKept db) (i : Nat) :
    Distinct (db.store.sessions.map AuthSession.entries ++ ((db.log i).filterMap added).map AuthSession.entries) := by
  rw [← entries_applyAll (h.keeps i)]
  exact h.uniqueView i

/-- Two transactions insert different sessions: each has locked the entries of its own. -/
theorem added_ne {db : Db (database Γ)} (h : Guarded db) {i j : Nat} (hij : i ≠ j) {s t : AuthSession}
    (hs : s ∈ (db.log i).filterMap added) (ht : t ∈ (db.log j).filterMap added) :
    s.id ≠ t.id ∧ s.sessionTokenHash ≠ t.sessionTokenHash := by
  obtain ⟨w, hw, hws⟩ := List.mem_filterMap.1 hs
  obtain ⟨v, hv, hvt⟩ := List.mem_filterMap.1 ht
  rw [added_eq_some hws] at hw
  rw [added_eq_some hvt] at hv
  have hkey : ∀ k : Key, k ∈ Write.keys Γ (.insertSession s) → k ∈ Write.keys Γ (.insertSession t) → False := by
    intro k hk hk'
    have h1 := h i _ hw k hk
    rw [h j _ hv k hk'] at h1
    exact hij (Option.some.inj h1).symm
  constructor
  · intro he
    exact hkey (.session s.id) (by simp [Write.keys]) (by simp [Write.keys, he])
  · intro he
    exact hkey (.sessionTokenHash s.sessionTokenHash) (by simp [Write.keys]) (by simp [Write.keys, he])

/-- An insert without a violation keeps the sessions unique. -/
theorem unique_insert {S : Store} (h : UniqueSessions S) {w : Write} (hk : KeepsSessions w) (hv : w.violates Γ S = false) :
    UniqueSessions (w.apply S) := by
  rw [UniqueSessions, entries_apply hk, Distinct, List.pairwise_append]
  refine ⟨h, ?_, ?_⟩
  · cases added w <;> simp
  · intro x hx y hy
    cases w <;> simp only [added, Option.toList_none, Option.toList_some, List.map_nil, List.map_cons, List.not_mem_nil,
      List.mem_singleton] at hy
    obtain ⟨s, hs, rfl⟩ := List.mem_map.1 hx
    subst hy
    simp only [Write.violates, Bool.or_eq_false_iff, List.any_eq_false, decide_eq_true_eq, Bool.or_eq_true, not_or] at hv
    exact hv.1 s hs

/-- Changes that add no session keep them unique. -/
theorem unique_changes {S : Store} (h : UniqueSessions S) {ws : List Write}
    (hws : ∀ w ∈ ws, KeepsSessions w ∧ added w = none) : UniqueSessions (applyAll (D := database Γ) ws S) := by
  have hnone : ws.filterMap added = [] := List.filterMap_eq_nil_iff.2 fun w hw => (hws w hw).2
  rw [UniqueSessions, entries_applyAll fun w hw => (hws w hw).1, hnone, List.map_nil, List.append_nil]
  exact h

/-- The writes that an action of a kind that removes no session adds to its log. -/
theorem kept_writes {db : Db (database Γ)} {i : Nat} {a : Act (database Γ)} (ha : kind a = .neutral ∨ kind a ∈ keeping)
    {ws : List Write} (h : Writes i db a ws) (hu : UniqueSessions (db.view i)) :
    (∀ w ∈ ws, KeepsSessions w) ∧ UniqueSessions (applyAll (D := database Γ) ws (db.view i)) := by
  cases h with
  | none => exact ⟨List.forall_mem_nil _, hu⟩
  | insert w _ hv =>
    have hk := keepsSessions_insert ha
    refine ⟨by simpa using hk, unique_insert (Γ := Γ) hu hk ?_⟩
    by_contra hno
    simp [hno] at hv
  | finish s found _ =>
    have hw : ∀ w ∈ changes db i s found, KeepsSessions w ∧ added w = none := by
      intro w hw
      obtain ⟨k, -, hk⟩ := List.mem_filterMap.1 hw
      exact keepsSessions_change ha hk
    exact ⟨fun w hm => (hw w hm).1, unique_changes hu hw⟩

/-- Every action keeps the sessions, and the revoked ones revoked. -/
theorem sessionsKept_effect {db db' : Db (database Γ)} (h : SessionsKept db) {i : Nat} {a : Act (database Γ)}
    {r : Except AuthError (Result (database Γ) a)} (he : Effect i db a r db') (ha : kind a = .neutral ∨ kind a ∈ keeping) :
    SessionsKept db' ∧ Keeps db.store db'.store := by
  have hg := h.guarded.effect he
  rcases he.evolves with ⟨ws, hws, hstore, -, hlog⟩ | ⟨hstore, -, hlog⟩ | ⟨-, hstore, -, hlog⟩
  · obtain ⟨hkeep, huniq⟩ := kept_writes ha hws (h.uniqueView i)
    refine ⟨⟨hg, fun j => ?_, hstore ▸ h.unique, fun j => ?_⟩, hstore ▸ Keeps.refl _⟩
    · by_cases hj : j = i
      · subst hj
        intro w hw
        rw [hlog, Function.update_self, List.mem_append] at hw
        exact hw.elim (h.keeps j w) (hkeep w)
      · rw [hlog, Function.update_of_ne hj]
        exact h.keeps j
    · by_cases hj : j = i
      · subst hj
        rwa [view_eq, hlog, hstore, Function.update_self, applyAll_append]
      · rw [view_eq, hlog, hstore, Function.update_of_ne hj]
        exact h.uniqueView j
  · refine ⟨⟨hg, fun j => ?_, hstore ▸ h.unique, fun j => ?_⟩, hstore ▸ Keeps.refl _⟩
    · by_cases hj : j = i
      · subst hj
        rw [hlog, Function.update_self]
        exact List.forall_mem_nil _
      · rw [hlog, Function.update_of_ne hj]
        exact h.keeps j
    · by_cases hj : j = i
      · subst hj
        rw [view_eq, hlog, hstore, Function.update_self]
        exact h.unique
      · rw [view_eq, hlog, hstore, Function.update_of_ne hj]
        exact h.uniqueView j
  · refine ⟨⟨hg, fun j => ?_, hstore ▸ h.uniqueView i, fun j => ?_⟩, hstore ▸ keeps_applyAll (h.keeps i) _⟩
    · by_cases hj : j = i
      · subst hj
        rw [hlog, Function.update_self]
        exact List.forall_mem_nil _
      · rw [hlog, Function.update_of_ne hj]
        exact h.keeps j
    · by_cases hj : j = i
      · subst hj
        rw [view_eq, hlog, hstore, Function.update_self]
        exact h.uniqueView j
      · -- the committed inserts and those of `j` have different entries
        rw [view_eq, hlog, hstore, Function.update_of_ne hj, UniqueSessions, entries_applyAll (h.keeps j), view_eq,
          entries_applyAll (h.keeps i), Distinct, List.pairwise_append]
        have hdj := List.pairwise_append.1 (distinct_view h j)
        refine ⟨distinct_view h i, hdj.2.1, fun x hx y hy => ?_⟩
        rcases List.mem_append.1 hx with hx | hx
        · exact hdj.2.2 x hx y hy
        · obtain ⟨s, hs, rfl⟩ := List.mem_map.1 hx
          obtain ⟨t, ht, rfl⟩ := List.mem_map.1 hy
          exact added_ne h.guarded (Ne.symm hj) hs ht

variable (Γ) in
/-- Threads keep the sessions, and rely on nothing else. -/
def contract : RelyGuarantee.Contract (system (database Γ)) where
  inv := SessionsKept
  rely _ _ _ := True
  guar _ db db' := Keeps db.store db'.store
  rely_refl _ _ := trivial
  rely_trans _ _ := trivial
  guar_rely _ _ _ _ := trivial
  drift_inv := by
    rintro db _ h ⟨n, rfl⟩
    exact ⟨h.guarded, h.keeps, h.unique, h.uniqueView⟩
  drift_rely _ _ := trivial

/-- A program of kinds that remove no session keeps the contract. -/
theorem sat_of_within {i : Nat} {p : Service Γ Outcome} (h : Within keeping p) (db : Db (database Γ)) :
    RelyGuarantee.Sat (contract Γ) i (fun _ _ => True) p db :=
  RelyGuarantee.triple_of_emits (P := fun _ => True) (fun _ _ => trivial)
    (fun ha _ hinv he => ⟨(sessionsKept_effect hinv he ha).1, (sessionsKept_effect hinv he ha).2, trivial⟩) h db trivial

/-- Every operation but the prune keeps the sessions. -/
theorem kinds_subset_keeping {op : Op} (h : ∀ t, op ≠ .deleteSessionsExpiredBefore t) : op.kinds ⊆ keeping := by
  intro k hk
  cases op with
  | deleteSessionsExpiredBefore t => exact absurd rfl (h t)
  | _ => cases k <;> simp_all [Op.kinds, issuing, editing, keeping]

/-- The thread has not ended with a context. -/
def NoContext (r : Except AuthError Outcome) : Prop := ∀ context, r ≠ .ok (.context (some context))

/-- When the lookup of a session finds nothing, no context follows. -/
def LookupMatters : (a : Act (database Γ)) → (Except AuthError (Result (database Γ) a) → Service Γ Outcome) → Prop
  | .query (.activeSession _ _), next =>
    ∀ r : Except AuthError (List AuthSession), (∀ xs, r = .ok xs → xs = []) →
      (next r).Always (fun _ _ => True) (fun _ => True) NoContext
  | _, _ => True

/-- Only the lookup matters. -/
theorem lookupMatters_of_kind {a : Act (database Γ)} {next : Except AuthError (Result (database Γ) a) → Service Γ Outcome}
    (h : kind a ≠ .lookup) : LookupMatters a next := by
  unfold LookupMatters
  split
  · exact absurd rfl h
  · trivial

/-- A program without the lookup has no head that matters. -/
theorem heads_of_within {ks : Set Kind} (hks : .lookup ∉ ks) {p : Service Γ Outcome} (h : Within ks p) :
    p.Heads LookupMatters := by
  refine Prog.Emits.heads h fun a next ha => lookupMatters_of_kind fun hk => ?_
  rw [hk] at ha
  exact ha.elim nofun hks

/-- What is left of `authenticate_session` after the answer to its lookup. -/
def afterLookup (tokenHash : Text) (ip agent : Option Text) (r : Except AuthError (List AuthSession)) : Service Γ Outcome :=
  ((((Prog.done r).bind oneOrNone).bind (contextOfFound tokenHash ip agent)).attempt.bind conclude).bind
    fun c => pure (.context c)

/-- After its lookup an authentication revokes or touches. -/
theorem afterLookup_within (tokenHash : Text) (ip agent : Option Text) (r : Except AuthError (List AuthSession)) :
    Within {.bracket, .sessionRevoke, .sessionTouch} (afterLookup tokenHash ip agent r : Service Γ Outcome) := by
  refine Within.bind (Within.bind (Within.attempt (Within.bind (Within.bind (within_done r) fun xs => within_oneOrNone xs)
    fun found => within_contextOfFound (by simp) (by simp))) fun r => within_conclude (by simp) r) fun _ => within_pure _

/-- After a lookup that finds nothing there is no context. -/
theorem afterLookup_noContext (tokenHash : Text) (ip agent : Option Text) {r : Except AuthError (List AuthSession)}
    (hr : ∀ xs, r = .ok xs → xs = []) :
    (afterLookup tokenHash ip agent r : Service Γ Outcome).Always (fun _ _ => True) (fun _ => True) NoContext := by
  have hbody : WithinTo {.bracket} (fun c => c = none)
      (((Prog.done r).bind oneOrNone).bind (contextOfFound tokenHash ip agent) :
        Service Γ (Option AuthenticatedSessionContext)) := by
    cases r with
    | error e => exact withinTo_throw e
    | ok xs =>
      obtain rfl := hr xs rfl
      exact (within_auditKnownRejectedSession (Or.inl rfl)).bindTo fun _ => withinTo_pure rfl
  have hall : WithinTo {.bracket} (fun o => ∀ context, o ≠ Outcome.context (some context))
      (afterLookup tokenHash ip agent r : Service Γ Outcome) := by
    refine (hbody.conclude (by simp)).bindTo fun c hc => withinTo_pure fun context h => ?_
    rw [hc] at h
    cases h
  refine Prog.Always.mono hall (fun _ _ => trivial) fun r hr context h => hr _ h context rfl

/-- The lookup of an authentication matters. -/
theorem heads_authenticate (token ip agent : Option Text) :
    (program Γ (.authenticateSession token ip agent)).Heads LookupMatters := by
  change ((authenticateSession token ip agent : Service Γ _) >>= fun c => pure (Outcome.context c)).Heads _
  unfold authenticateSession
  split
  · trivial
  · rename_i t ht
    refine And.intro trivial fun r => ?_
    cases r with
    | error e => trivial
    | ok u =>
      refine And.intro trivial fun r => ?_
      cases r with
      | error e =>
        refine And.intro trivial fun r => ?_
        cases r <;> trivial
      | ok now =>
        refine And.intro (fun r hr => ?_) fun r => ?_
        · exact afterLookup_noContext (Γ.hashToken t) ip agent hr
        · exact heads_of_within (by simp) (afterLookup_within (Γ.hashToken t) ip agent r)

/-- Sessions with one id or one token are one. -/
theorem UniqueSessions.eq_of {S : Store} (h : UniqueSessions S) {s t : AuthSession} (hs : s ∈ S.sessions)
    (ht : t ∈ S.sessions) (he : s.id = t.id ∨ s.sessionTokenHash = t.sessionTokenHash) : s = t := by
  by_contra hne
  have : Std.Symm fun x y : AuthSession => x.entries.1 ≠ y.entries.1 ∧ x.entries.2 ≠ y.entries.2 :=
    ⟨fun _ _ hxy => ⟨hxy.1.symm, hxy.2.symm⟩⟩
  have hd := (List.pairwise_map.1 h).forall hs ht hne
  exact he.elim hd.1 hd.2

/-- Once the session is revoked, no lookup by its token finds it. -/
theorem activeSession_eq_nil {S S' : Store} (hk : Keeps S S') (hu : UniqueSessions S') {row : AuthSession}
    (hrow : row ∈ S.sessions) (hrevoked : row.revokedAt ≠ none) (now : DateTime) :
    Query.answer Γ S' (.activeSession row.sessionTokenHash now) = [] := by
  obtain ⟨row', hrow', he, hr⟩ := hk row hrow
  refine List.filter_eq_nil_iff.2 fun s hs hactive => ?_
  simp only [AuthSession.isActive, Bool.and_eq_true, decide_eq_true_eq] at hactive
  have heq : s = row' := UniqueSessions.eq_of hu hs hrow' (Or.inr (hactive.1.1.trans (congrArg Prod.snd he).symm))
  rw [heq] at hactive
  exact hr hrevoked (Option.isNone_iff_eq_none.1 hactive.1.2)

/-- A thread whose lookup finds nothing ends without a context. -/
theorem noContext_of_reaches {i : Nat} {tokenHash : Text} {now : DateTime} {c c' : Configuration Γ}
    {next : Except AuthError (List AuthSession) → Service Γ Outcome}
    (hthread : c.threads i = .act (.query (.activeSession tokenHash now)) next)
    (hnext : ∀ r, (∀ xs, r = .ok xs → xs = []) → (next r).Always (fun _ _ => True) (fun _ => True) NoContext)
    (hanswer : ∀ c1, Reaches Γ c c1 → Query.answer Γ (c1.state.view i) (.activeSession tokenHash now) = [])
    (h : Reaches Γ c c') :
    c'.threads i = .act (.query (.activeSession tokenHash now)) next ∨
      (c'.threads i).Always (fun _ _ => True) (fun _ => True) NoContext := by
  induction h with
  | refl => exact Or.inl hthread
  | @tail c1 c2 hr hstep ih =>
    cases hstep with
    | @thread j a next' r s hj hexec =>
      by_cases hij : i = j
      · subst hij
        refine Or.inr ?_
        simp only [Function.update_self]
        rcases ih with ih | ih
        · obtain ⟨ha, hn⟩ := Prog.act.inj (hj.symm.trans ih)
          subst ha
          obtain rfl := eq_of_heq hn
          refine hnext r fun xs hxs => ?_
          subst hxs
          cases hexec with
          | query q => exact hanswer c1 hr
        · rw [hj] at ih
          exact ih.2 r trivial
      · simpa only [Function.update_of_ne hij] using ih
    | drift _ => exact ih

end RevocationAux

open RevocationAux

/-- Once a revocation has committed, whatever the other operations do: the row of the session stays and stays revoked, every
lookup by its token finds nothing, and an authentication that is about to look it up ends without a context. -/
theorem revocation_permanent (ops : Nat → Op) (hops : ∀ i t, ops i ≠ .deleteSessionsExpiredBefore t) (store : Store) (env : Env)
    (hunique : UniqueSessions store) {c c' : Configuration Γ} (h : Reaches Γ (start Γ ops store env) c) {row : AuthSession}
    (hrow : row ∈ c.state.store.sessions) (hrevoked : row.revokedAt ≠ none) (h' : Reaches Γ c c') :
    (∃ row' ∈ c'.state.store.sessions, row'.id = row.id ∧ row'.revokedAt ≠ none) ∧
    (∀ row' ∈ c'.state.store.sessions, row'.id = row.id → row'.revokedAt ≠ none) ∧
    (∀ i now, Query.answer Γ (c'.state.view i) (.activeSession row.sessionTokenHash now) = []) ∧
    (∀ i token ip agent now next, ops i = .authenticateSession token ip agent →
      c'.threads i = .act (.query (.activeSession row.sessionTokenHash now)) next →
      ∀ c'', Reaches Γ c' c'' → ∀ context, c''.threads i ≠ .done (.ok (.context (some context)))) := by
  have hsat0 : ∀ i, RelyGuarantee.Sat (contract Γ) i (fun _ _ => True) (program Γ (ops i)) (atRest Γ store env) := fun i =>
    sat_of_within ((within_program (ops i)).mono (kinds_subset_keeping (hops i))) _
  have hinv0 : SessionsKept (atRest Γ store env) :=
    ⟨guarded_atRest store env, fun i => List.forall_mem_nil _, hunique, fun i => hunique⟩
  obtain ⟨hinv, hsat⟩ := RelyGuarantee.sat_of_reaches (c := start Γ ops store env) hinv0 hsat0 h
  have hlater : ∀ {c1}, Reaches Γ c c1 → SessionsKept c1.state ∧ Keeps c.state.store c1.state.store := by
    intro c1 h1
    refine ⟨(RelyGuarantee.sat_of_reaches hinv hsat h1).1, ?_⟩
    refine RelyGuarantee.rel_of_reaches (C := contract Γ) (G := fun db db' => Keeps db.store db'.store) (fun _ => Keeps.refl _)
      Keeps.trans (fun hg => hg) ?_ hinv hsat h1
    rintro db _ ⟨n, rfl⟩
    exact Keeps.refl _
  have hlookup : ∀ {c1}, Reaches Γ c c1 → ∀ i now,
      Query.answer Γ (c1.state.view i) (.activeSession row.sessionTokenHash now) = [] := by
    intro c1 h1 i now
    obtain ⟨hk, hkeep⟩ := hlater h1
    exact activeSession_eq_nil (hkeep.trans (keeps_applyAll (hk.keeps i) _)) (hk.uniqueView i) hrow hrevoked now
  obtain ⟨hkept, hkeeps⟩ := hlater h'
  obtain ⟨row', hrow', he, hr⟩ := hkeeps row hrow
  have hid : row'.id = row.id := congrArg Prod.fst he
  refine ⟨⟨row', hrow', hid, hr hrevoked⟩, fun row2 hrow2 hid2 => ?_, hlookup h', ?_⟩
  · rw [UniqueSessions.eq_of hkept.unique hrow2 hrow' (Or.inl (hid2.trans hid.symm))]
    exact hr hrevoked
  · intro i token ip agent now next hop hthread c'' h'' context hdone
    have hheads : (c'.threads i).Heads LookupMatters := by
      refine RelyGuarantee.heads_of_reaches (c := start Γ ops store env) ?_ (h.trans h')
      change (program Γ (ops i)).Heads _
      rw [hop]
      exact heads_authenticate token ip agent
    rw [hthread] at hheads
    rcases noContext_of_reaches hthread hheads.1 (fun c1 h1 => hlookup (h'.trans h1) i now) h'' with hq | hq
    · rw [hdone] at hq
      cases hq
    · rw [hdone] at hq
      exact hq context rfl

namespace LogoutFirst

def Γ₀ : Ctx := Ctx.readable [] fun _ => .error .oidcTokenExchange

def user : User := ⟨1, "ann@example.com".toList, none, true, .en, 0, 0, none, none⟩

def session : AuthSession := ⟨2, 1, "#s".toList, "#c".toList, 0, 0, 1000000, none, none, none, none⟩

def loggedOut : AuthSession := { session with revokedAt := some 5000 }

def store : Store := { Store.empty with users := [user], sessions := [session] }

def env : Env := ⟨5000, [], 3, 0, 0, 0⟩

/-- A logout and an authentication with one token. -/
def ops : Nat → Op
  | 0 => .logout (some "s".toList) none none
  | _ => .authenticateSession (some "s".toList) none none

def schedule : List (Move (database Γ₀)) := [.run 1, .run 1] ++ List.replicate 11 (.run 0)

end LogoutFirst

open LogoutFirst in
/-- An authentication is about to look its session up when a logout with the same token commits: it ends without a context. -/
theorem revocation_permanent_after_logout :
    ∃ c, play schedule (start Γ₀ ops store env) = some c ∧
      ∀ c', Reaches Γ₀ c c' → ∀ context, c'.threads 1 ≠ .done (.ok (.context (some context))) := by
  obtain ⟨c, hc⟩ := Option.isSome_iff_exists.1 (show (play schedule (start Γ₀ ops store env)).isSome = true by decide)
  have hsessions : (play schedule (start Γ₀ ops store env)).map (fun c => c.state.store.sessions) =
      some [loggedOut] := by decide
  have hthread : ∃ next, (play schedule (start Γ₀ ops store env)).map (fun c => c.threads 1) =
      some (.act (.query (.activeSession "#s".toList 5000)) next) := ⟨_, rfl⟩
  obtain ⟨next, hthread⟩ := hthread
  rw [hc] at hsessions hthread
  have hrow : loggedOut ∈ c.state.store.sessions := by
    have : c.state.store.sessions = [loggedOut] := Option.some.inj hsessions
    rw [this]
    exact List.mem_singleton_self _
  have hops : ∀ i t, ops i ≠ .deleteSessionsExpiredBefore t := by
    intro i t
    unfold ops
    split <;> nofun
  refine ⟨c, hc, fun c' h' => ?_⟩
  exact (revocation_permanent ops hops store env (List.pairwise_singleton _ _) (reaches_of_play hc) hrow (by decide)
    Relation.ReflTransGen.refl).2.2.2 1 _ _ _ _ next rfl (Option.some.inj hthread) c' h'

end AuthService
