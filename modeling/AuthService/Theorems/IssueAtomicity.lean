import AuthService.RoleFootprints
import AuthService.Library.BigStep

/-!
# What an operation that issues a session leaves behind when it fails

Registration, login and the login callback issue a session in one transaction. What they do before it, and after it failed, adds
nothing but logs of failures and consumed states. What they do after it succeeded should not fail: the lookup of the user's roles
may.
-/

namespace AuthService

open ReadCommitted RelyGuarantee Serial SerialAux

/-- The audit log tells of a session that was issued, or of an account or identity that was set up for it. -/
def AuthEventType.isIssue : AuthEventType → Bool
  | .registerSuccess | .loginSuccess | .oidcLoginSuccess | .oidcIdentityLinked | .oidcUserProvisioned => true
  | _ => false

/-- The operation issues a session. -/
def Op.issues : Op → Bool
  | .register .. | .login .. | .completeCallback .. => true
  | _ => false

/-- Users, identities, sessions and roles are as before, and no new audit log tells of a success. -/
structure Untouched (S S' : Store) : Prop where
  users : S'.users = S.users
  identities : S'.identities = S.identities
  sessions : S'.sessions = S.sessions
  roles : S'.roles = S.roles
  audits : ∃ logs, S'.audits = S.audits ++ logs ∧ ∀ l ∈ logs, l.eventType.isIssue = false

namespace AtomicityAux

theorem Untouched.refl (S : Store) : Untouched S S := ⟨rfl, rfl, rfl, rfl, [], by simp, by simp⟩

/-- One period after another. -/
theorem Untouched.trans {S S' S'' : Store} (h : Untouched S S') (h' : Untouched S' S'') : Untouched S S'' := by
  obtain ⟨logs, heq, hlogs⟩ := h.audits
  obtain ⟨logs', heq', hlogs'⟩ := h'.audits
  refine ⟨h'.users.trans h.users, h'.identities.trans h.identities, h'.sessions.trans h.sessions, h'.roles.trans h.roles,
    logs ++ logs', ?_, ?_⟩
  · rw [heq', heq, List.append_assoc]
  · intro l hl
    rcases List.mem_append.1 hl with hl | hl
    · exact hlogs l hl
    · exact hlogs' l hl

variable {Γ : Ctx} {me : Nat} {α β : Type} {db db' : Db (database Γ)} {failed : List (Act (database Γ))}

/-- The lookup of the roles of some user is among the failed actions. -/
def LookupFailed (failed : List (Act (database Γ))) : Prop := ∃ u, Act.query (D := database Γ) (Query.roleCodes u) ∈ failed

/-- What the thread sees is untouched. -/
def Clean (me : Nat) (db : Db (database Γ)) : Prop := Untouched db.store (db.view me)

/-- A thread that sees the committed store has touched nothing. -/
theorem clean_of_view (h : db.view me = db.store) : Clean me db := by
  rw [Clean, h]
  exact Untouched.refl _

/-! ## Programs that touch nothing -/

/-- The action touches nothing, unless it adds an audit log, which is not about a success. -/
def Spare : Act (database Γ) → Prop
  | .query q => match (q : Query) with
    | .roleCodes _ => False
    | _ => True
  | .insert w => match (w : Write) with
    | .insertAudit row => row.eventType.isIssue = false
    | _ => False
  | .finish s _ => match (s : Stmt) with
    | .patchState _ _ | .lockState _ => True
    | _ => False
  | _ => True

variable (Γ) in
/-- From each committed store to the next nothing is touched. -/
def untouching : Promise (database Γ) where
  known _ _ := True
  inv _ _ := True
  rel := Untouched
  inv_later _ _ := trivial
  rel_refl := Untouched.refl
  rel_trans := Untouched.trans

/-- Actions that touch nothing keep the tables untouched. -/
theorem kept_spare : KeptBy (Γ := Γ) Spare (Sound (untouching Γ)) where
  insert := by
    rintro w S V e ha ⟨_, hV⟩ _
    cases w with
    | insertAudit row =>
      refine ⟨trivial, Untouched.trans hV ⟨rfl, rfl, rfl, rfl, [row], rfl, ?_⟩⟩
      intro l hl
      rw [List.mem_singleton.1 hl]
      exact ha
    | _ => cases ha
  change := by
    rintro s found key w S V e ha hw ⟨_, hV⟩
    cases s with
    | patchState id consumedAt =>
      cases key <;> cases hw
      exact ⟨trivial, Untouched.trans hV ⟨rfl, rfl, rfl, rfl, [], by simp [Write.apply], by simp⟩⟩
    | lockState stateHash => cases key <;> cases hw
    | _ => cases ha

/-- A program that touches nothing runs, whatever of it fails, and leaves the tables untouched. -/
theorem spare_runs {p : Service Γ α} (h : p.Emits Spare) {r : Except AuthError α} (hrun : Runs me p db failed r db')
    (hclean : Clean me db) : Clean me db' ∧ Untouched db.store db'.store ∧ ¬ LookupFailed failed := by
  have hstart : On me (Sound (untouching Γ)) db := ⟨db.env, Env.Later.refl _, trivial, hclean⟩
  have hsat : Triple (contract (untouching Γ) me db.store) me (On me (Sound (untouching Γ))) p
      fun _ => On me (Sound (untouching Γ)) := triple_calm h kept_spare
  obtain ⟨⟨_, hrel⟩, e, _, _, hend⟩ := hrun.sat (hsat db hstart) (fun _ _ => trivial) ⟨trivial, Untouched.refl _⟩
  refine ⟨hend, hrel, ?_⟩
  rintro ⟨u, hu⟩
  exact hrun.failed_emits h _ hu

/-! ## What a failure leaves -/

/-- Nothing is touched, or a new session is there and the lookup of roles failed. -/
def Settled (S : Store) (failed : List (Act (database Γ))) (S' : Store) : Prop :=
  Untouched S S' ∧ ¬ LookupFailed failed ∨ S.sessions.length < S'.sessions.length ∧ LookupFailed failed

/-- Whenever the program fails, that is settled. -/
def Settles (me : Nat) (p : Service Γ α) : Prop :=
  ∀ ⦃db failed e db'⦄, Clean me db → Runs me p db failed (.error e) db' → Clean me db' ∧ Settled db.store failed db'.store

/-- The program never fails. -/
def Sure (me : Nat) (p : Service Γ α) : Prop := ∀ ⦃db failed e db'⦄, ¬ Runs me p db failed (.error e) db'

/-- The program fails only when the lookup of roles does, and changes nothing. -/
def Final (me : Nat) (p : Service Γ α) : Prop :=
  ∀ ⦃db failed e db'⦄, Runs me p db failed (.error e) db' →
    db'.store = db.store ∧ db'.view me = db.view me ∧ LookupFailed failed

/-- What comes first touches nothing. -/
theorem Settled.after {S S' S'' : Store} {failed failed' : List (Act (database Γ))} (h : Untouched S S')
    (hno : ¬ LookupFailed failed) (h' : Settled S' failed' S'') : Settled S (failed ++ failed') S'' := by
  have hlookup : LookupFailed (failed ++ failed') ↔ LookupFailed failed' := by
    constructor
    · rintro ⟨u, hu⟩
      rcases List.mem_append.1 hu with hu | hu
      · exact absurd ⟨u, hu⟩ hno
      · exact ⟨u, hu⟩
    · rintro ⟨u, hu⟩
      exact ⟨u, List.mem_append_right _ hu⟩
  rcases h' with ⟨hS, hnone⟩ | ⟨hlt, hsome⟩
  · exact Or.inl ⟨Untouched.trans h hS, fun hf => hnone (hlookup.1 hf)⟩
  · refine Or.inr ⟨?_, hlookup.2 hsome⟩
    rw [← h.sessions]
    exact hlt

/-- What comes last touches nothing. -/
theorem Settled.before {S S' S'' : Store} {failed failed' : List (Act (database Γ))} (h : Settled S failed S')
    (h' : Untouched S' S'') (hno : ¬ LookupFailed failed') : Settled S (failed ++ failed') S'' := by
  rcases h with ⟨hS, hnone⟩ | ⟨hlt, u, hu⟩
  · refine Or.inl ⟨Untouched.trans hS h', ?_⟩
    rintro ⟨u, hu⟩
    rcases List.mem_append.1 hu with hu | hu
    · exact hnone ⟨u, hu⟩
    · exact hno ⟨u, hu⟩
  · refine Or.inr ⟨?_, u, List.mem_append_left _ hu⟩
    rw [h'.sessions]
    exact hlt

/-- A program that touches nothing is settled by its failure. -/
theorem settles_spare {p : Service Γ α} (h : p.Emits Spare) : Settles me p := by
  intro db failed e db' hclean hrun
  obtain ⟨hclean', hS, hno⟩ := spare_runs h hrun hclean
  exact ⟨hclean', Or.inl ⟨hS, hno⟩⟩

/-- A program that touches nothing before another one. -/
theorem settles_bind {p : Service Γ α} {f : α → Service Γ β} (h : p.Emits Spare) (hf : ∀ a, Settles me (f a)) :
    Settles me (p >>= f) := by
  intro db failed e db' hclean hrun
  rcases runs_bind hrun with ⟨e', _, hp⟩ | ⟨a, failed1, failed2, db1, rfl, hp, hrest⟩
  · exact settles_spare h hclean hp
  · obtain ⟨hclean1, hS, hno⟩ := spare_runs h hp hclean
    obtain ⟨hclean', hsettled⟩ := hf a hclean1 hrest
    exact ⟨hclean', hsettled.after hS hno⟩

/-- An error is handled by what touches nothing. A result is handled without failure. -/
theorem settles_attempt {p : Service Γ α} {f : Except AuthError α → Service Γ β} (hp : Settles me p)
    (herr : ∀ e, (f (.error e)).Emits Spare) (hok : ∀ a, Sure me (f (.ok a))) : Settles me (p.attempt >>= f) := by
  intro db failed e db' hclean hrun
  rcases runs_bind hrun with ⟨e', _, hattempt⟩ | ⟨r, failed1, failed2, db1, rfl, hattempt, hrest⟩
  · obtain ⟨r, hr, _⟩ := runs_attempt hattempt
    cases hr
  · obtain ⟨r', hr, hbody⟩ := runs_attempt hattempt
    obtain rfl := Except.ok.inj hr
    cases r with
    | ok a => exact (hok a hrest).elim
    | error e' =>
      obtain ⟨hclean1, hsettled⟩ := hp hclean hbody
      obtain ⟨hclean', hS, hno⟩ := spare_runs (herr e') hrest hclean1
      exact ⟨hclean', hsettled.before hS hno⟩

/-! ## Transactions -/

theorem view_release : (db.release me).view me = db.store := by
  rw [Db.view, Db.log_release, applyAll_nil, Db.store_release]

/-- A rollback leaves the committed store, also when it fails. -/
theorem rollback_runs {r : Except AuthError Unit} (h : Runs me (rollback : Service Γ Unit) db failed r db') :
    db'.store = db.store ∧ db'.view me = db.store := by
  obtain ⟨db0, hpause, heffect⟩ := runs_effect h
  rw [← store_of_pauses hpause]
  cases heffect with
  | rollback => exact ⟨rfl, view_release⟩
  | fault a e => exact ⟨rfl, view_release⟩

/-- A commit that fails leaves the committed store. -/
theorem commit_failed {e : AuthError} (h : Runs me (commit : Service Γ Unit) db failed (.error e) db') :
    db'.store = db.store ∧ db'.view me = db.store := by
  obtain ⟨db0, hpause, heffect⟩ := runs_effect h
  rw [← store_of_pauses hpause]
  cases heffect with
  | fault a e => exact ⟨rfl, view_release⟩

/-- A transaction that cannot begin leaves all as it was. -/
theorem begin_failed {e : AuthError} (h : Runs me (begin : Service Γ Unit) db failed (.error e) db') :
    db'.store = db.store ∧ db'.view me = db.view me := by
  obtain ⟨db0, hpause, heffect⟩ := runs_effect h
  rw [← store_of_pauses hpause, ← view_of_pauses hpause]
  cases heffect with
  | fault a e => exact ⟨rfl, rfl⟩

/-- A new transaction sees the committed store. -/
theorem begin_runs (h : Runs me (begin : Service Γ Unit) db failed (.ok ()) db') :
    db'.store = db.store ∧ db'.view me = db.store := by
  obtain ⟨db0, hpause, heffect⟩ := runs_effect h
  rw [← store_of_pauses hpause]
  cases heffect with
  | begin => exact ⟨rfl, Db.view_begin _⟩

/-- A transaction that fails leaves the committed store. -/
theorem transaction_failed {body : Service Γ α} (h : body.Emits fun a => a.isBracket = false) {e : AuthError}
    (hrun : Runs me (transaction body) db failed (.error e) db') :
    db'.store = db.store ∧ (db'.view me = db.store ∨ db'.view me = db.view me) := by
  rcases runs_bind hrun with ⟨e1, _, hbegin⟩ | ⟨_, _, _, db1, _, hbegin, hrest⟩
  · exact ⟨(begin_failed hbegin).1, Or.inr (begin_failed hbegin).2⟩
  rcases runs_bind hrest with ⟨e1, _, hattempt⟩ | ⟨r, _, _, db2, _, hattempt, hend⟩
  · obtain ⟨r, hr, _⟩ := runs_attempt hattempt
    cases hr
  obtain ⟨r', hr, hbody⟩ := runs_attempt hattempt
  obtain rfl := Except.ok.inj hr
  have hstore : db2.store = db.store := (hbody.inside h).trans (begin_runs hbegin).1
  rw [← hstore]
  cases r with
  | ok a =>
    rcases runs_bind hend with ⟨e1, _, hcommit⟩ | ⟨_, _, _, db3, _, _, hpure⟩
    · exact ⟨(commit_failed hcommit).1, Or.inl (commit_failed hcommit).2⟩
    · cases (runs_done.1 hpure).2.1
  | error e1 =>
    rcases runs_bind hend with ⟨e2, _, hrollback⟩ | ⟨_, _, _, db3, _, hrollback, hthrow⟩
    · exact ⟨(rollback_runs hrollback).1, Or.inl (rollback_runs hrollback).2⟩
    · obtain ⟨_, _, rfl⟩ := runs_done.1 hthrow
      exact ⟨(rollback_runs hrollback).1, Or.inl (rollback_runs hrollback).2⟩

/-- A program without brackets stays inside its transaction. -/
theorem inside_of_plain {lookups : Bool} {p : Service Γ α} (h : Plain false lookups p) : p.Emits fun a => a.isBracket = false := by
  refine h.mono fun a ha => ?_
  cases a with
  | begin => cases ha
  | commit => cases ha
  | rollback => cases ha
  | _ => rfl

/-- A program without the lookup of roles does not fail there. -/
theorem noLookup_of_plain {brackets : Bool} {p : Service Γ α} {r : Except AuthError α} (h : Plain brackets false p)
    (hrun : Runs me p db failed r db') : ¬ LookupFailed failed := by
  rintro ⟨u, hu⟩
  have hlookup : false = true := hrun.failed_emits h _ hu
  cases hlookup

/-- A program without brackets is one where they are allowed. -/
theorem plain_of_inside {lookups : Bool} {p : Service Γ α} (h : Plain false lookups p) : Plain true lookups p := by
  refine h.mono fun a ha => ?_
  cases a with
  | begin => rfl
  | commit => rfl
  | rollback => rfl
  | _ => exact ha

/-- A transaction without the lookup of roles is settled by its failure. -/
theorem settles_transaction {body : Service Γ α} (h : Plain false false body) : Settles me (transaction body) := by
  intro db failed e db' hclean hrun
  obtain ⟨hstore, hview⟩ := transaction_failed (inside_of_plain h) hrun
  refine ⟨?_, Or.inl ⟨?_, noLookup_of_plain (PlainAux.plain_transaction (plain_of_inside h)) hrun⟩⟩
  · rcases hview with hview | hview
    · exact clean_of_view (hview.trans hstore.symm)
    · rw [Clean, hstore, hview]
      exact hclean
  · rw [hstore]
    exact Untouched.refl _

/-- There are so many sessions. -/
def Sessions (n : Nat) : Assertion (database Γ) := fun _ V _ => n ≤ V.sessions.length

/-- A transaction whose body adds a session, before what fails only at the lookup of roles. -/
theorem settles_issue {body : Service Γ α} {f : α → Service Γ β} (h : Plain false false body)
    (hgrows : ∀ S0 n, Ensures (unbound Γ) me S0 (Sessions n) body fun _ => Sessions (n + 1)) (hf : ∀ a, Final me (f a)) :
    Settles me (transaction body >>= f) := by
  intro db failed e db' hclean hrun
  rcases runs_bind hrun with ⟨e1, _, htransaction⟩ | ⟨a, failed1, failed2, db1, rfl, htransaction, hrest⟩
  · exact settles_transaction h hclean htransaction
  obtain ⟨hstore, hview, u, hu⟩ := hf a hrest
  have hstable : Stable (contract (unbound Γ) me db.store) me fun db1 => db1.store = db.store := by
    intro db1 db2 hP hr
    obtain ⟨_, _, rfl⟩ := hr rfl
    exact hP
  have hlead := transaction_leads (R := fun _ S V _ => V = S ∧ db.store.sessions.length + 1 ≤ V.sessions.length) hstable
    (fun db1 hP _ _ _ => le_of_eq (congrArg (fun S => S.sessions.length) hP.symm))
    (hgrows db.store db.store.sessions.length) fun a S V e e' hV _ _ _ => ⟨trivial, trivial, rfl, hV⟩
  obtain ⟨_, _, heq, hlen⟩ := htransaction.leads hlead (fun _ _ => trivial) ⟨trivial, trivial⟩ rfl
  rw [heq] at hlen
  refine ⟨?_, Or.inr ⟨?_, u, List.mem_append_right _ hu⟩⟩
  · rw [Clean, hstore, hview, heq]
    exact Untouched.refl _
  · rw [hstore]
    exact hlen

/-- What follows the end of a transaction does not fail. -/
theorem settles_then {p : Service Γ α} {f : α → Service Γ β} (h : Settles me p) (hf : ∀ a, Sure me (f a)) :
    Settles me (p >>= f) := by
  intro db failed e db' hclean hrun
  rcases runs_bind hrun with ⟨e1, _, hp⟩ | ⟨a, _, _, db1, _, _, hrest⟩
  · exact h hclean hp
  · exact (hf a hrest).elim

/-! ## What follows an issue -/

/-- A result does not fail. -/
theorem sure_pure (a : α) : Sure me (pure a : Service Γ α) := by
  intro db failed e db' h
  cases (runs_done.1 h).2.1

/-- The limiter always has an answer, and leaves the tables alone. -/
theorem limiter_runs {op : LimiterOp} {r : Except AuthError Bool} (h : Runs me (limiter op : Service Γ Bool) db failed r db') :
    (∃ b, r = .ok b) ∧ db'.store = db.store ∧ db'.view me = db.view me := by
  obtain ⟨db0, hpause, hexec | ⟨e, hext, _, _⟩⟩ := runs_perform h
  · obtain ⟨rfl, rfl⟩ := Prod.mk.inj (Option.some.inj hexec)
    have hstore : db0.store = db.store := store_of_pauses hpause
    have hview : db0.view me = db.view me := view_of_pauses hpause
    exact ⟨⟨_, rfl⟩, hstore, hview⟩
  · cases hext

/-- The limiter does not fail. -/
theorem sure_limiter {op : LimiterOp} {f : Bool → Service Γ β} (hf : ∀ b, Sure me (f b)) : Sure me (limiter op >>= f) := by
  intro db failed e db' h
  rcases runs_bind h with ⟨e1, _, hp⟩ | ⟨b, _, _, db1, _, _, hrest⟩
  · obtain ⟨⟨b, hb⟩, _⟩ := limiter_runs hp
    cases hb
  · exact hf b hrest

/-- The limiter before what fails only at the lookup of roles. -/
theorem final_limiter {op : LimiterOp} {f : Bool → Service Γ β} (hf : ∀ b, Final me (f b)) : Final me (limiter op >>= f) := by
  intro db failed e db' h
  rcases runs_bind h with ⟨e1, _, hp⟩ | ⟨b, failed1, failed2, db1, rfl, hp, hrest⟩
  · obtain ⟨⟨b, hb⟩, _⟩ := limiter_runs hp
    cases hb
  · obtain ⟨_, hstore, hview⟩ := limiter_runs hp
    obtain ⟨hstore', hview', u, hu⟩ := hf b hrest
    exact ⟨hstore'.trans hstore, hview'.trans hview, u, List.mem_append_right _ hu⟩

/-- The lookup of roles is the last action that can fail. -/
theorem final_authorization {userId : Uuid} {f : List Text × List Text → β} :
    Final me (authorizationForExistingUser userId >>= fun x => pure (f x) : Service Γ β) := by
  intro db failed e db' h
  rcases runs_bind h with ⟨e1, _, hp⟩ | ⟨x, _, _, db1, _, _, hrest⟩
  · rcases runs_bind hp with ⟨e2, _, hquery⟩ | ⟨codes, _, _, db1, _, _, hrest⟩
    · cases hquery with
      | act hpause hexec hrest =>
        obtain ⟨rfl, rfl⟩ := Prod.mk.inj (Option.some.inj hexec)
        cases (runs_done.1 hrest).2.1
      | fail e3 _ hpause hrest =>
        obtain ⟨rfl, _, rfl⟩ := runs_done.1 hrest
        exact ⟨store_of_pauses hpause, view_of_pauses hpause, userId, List.mem_singleton_self _⟩
    · cases (runs_done.1 hrest).2.1
  · cases (runs_done.1 hrest).2.1

/-! ## What happens outside the transactions -/

section Spare

theorem spare_call (x : Ext) : (call x : Service Γ _).Emits Spare := Prog.emits_perform.2 trivial

theorem spare_query {q : Query} (h : Spare (Γ := Γ) (.query q)) : (query q : Service Γ _).Emits Spare := Prog.emits_perform.2 h

/-- A check touches nothing. -/
theorem spare_require (c : Bool) (e : AuthError) : (require c e : Service Γ Unit).Emits Spare := by
  unfold require
  split <;> trivial

theorem spare_oneOrNone (xs : List α) : (oneOrNone xs : Service Γ (Option α)).Emits Spare := by
  rcases xs with _ | ⟨x, _ | ⟨y, ys⟩⟩ <;> trivial

theorem spare_refreshed (xs : List α) : (refreshed xs : Service Γ α).Emits Spare := by
  rcases xs with _ | ⟨x, _ | ⟨y, ys⟩⟩ <;> trivial

theorem spare_ofExcept (r : Except AuthError α) : (ofExcept r : Service Γ α).Emits Spare := by
  cases r <;> trivial

/-- A statement about other rows touches nothing. -/
theorem spare_modify {s : Stmt} (h : ∀ found, Spare (Γ := Γ) (.finish s found)) : (modify s : Service Γ (List Key)).Emits Spare :=
  Prog.Emits.bind (Prog.emits_perform.2 trivial) fun found => Prog.emits_perform.2 (h found)

/-- The `UPDATE` of another row touches nothing. -/
theorem spare_updateRow {s : Stmt} (h : ∀ found, Spare (Γ := Γ) (.finish s found)) : (updateRow s : Service Γ Unit).Emits Spare := by
  refine (spare_modify h).bind fun rows => ?_
  split <;> trivial

/-- A transaction whose body touches nothing. -/
theorem spare_transaction {body : Service Γ α} (h : body.Emits Spare) : (transaction body).Emits Spare := by
  refine Prog.Emits.bind (Prog.emits_perform.2 trivial) fun _ => (Prog.Emits.attempt h).bind fun r => ?_
  cases r with
  | ok a => exact Prog.Emits.bind (Prog.emits_perform.2 trivial) fun _ => trivial
  | error e => exact Prog.Emits.bind (Prog.emits_perform.2 trivial) fun _ => trivial

/-- An audit log in a transaction of its own, not about a success. -/
theorem spare_audit {entry : AuditEntry} (h : entry.eventType.isIssue = false) :
    (createAuditLog false entry : Service Γ Unit).Emits Spare := by
  refine Prog.Emits.bind (Prog.emits_perform.2 trivial) fun _ => (Prog.Emits.attempt ?_).bind fun r =>
    Prog.Emits.bind (Prog.emits_perform.2 trivial) fun _ => spare_ofExcept r
  refine Prog.Emits.bind ((spare_call .newId).bind fun _ => (spare_call .utcnow).bind fun _ => ?_) fun _ =>
    Prog.emits_perform.2 trivial
  exact Prog.emits_perform.2 h

/-- A failed registration tells of no success. -/
theorem spare_registerFailed {userId : Option Uuid} {ip email : Text} {ipAddress userAgent : Option Text} :
    (registerFailed userId ip email ipAddress userAgent : Service Γ Unit).Emits Spare :=
  (spare_call _).bind fun _ => spare_audit rfl

/-- The consumption of a state touches nothing. -/
theorem spare_consumeCallbackState {provider : OidcProviderSettings} {state : Text} {binding : Option Text} :
    (consumeCallbackState provider state binding : Service Γ AuthOidcState).Emits Spare := by
  cases binding with
  | none => trivial
  | some binding =>
    refine (spare_call .utcnow).bind fun consumedAt => (spare_transaction ?_).bind fun r => ?_
    · refine (spare_modify fun _ => by trivial).bind fun locked => ?_
      split
      · trivial
      refine (spare_query (by trivial)).bind fun rows => (spare_oneOrNone _).bind fun state => ?_
      cases state with
      | none => trivial
      | some state =>
        dsimp only
        split
        · trivial
        split
        · trivial
        split
        · trivial
        exact (spare_updateRow fun _ => by trivial).bind fun _ => (spare_query (by trivial)).bind fun _ =>
          (spare_refreshed _).bind fun _ => trivial
    · cases r with
      | consumed oidcState => exact (spare_require _ _).bind fun _ => trivial
      | _ => trivial

/-- The audit of a failure tells of no success. -/
theorem spare_auditCallbackFailure {provider : OidcProviderSettings} {oidcState : AuthOidcState} {error : AuthError}
    {session : Option AuthenticatedSessionContext} {ipAddress userAgent : Option Text} :
    (auditCallbackFailure provider oidcState error session ipAddress userAgent : Service Γ Unit).Emits Spare := by
  unfold auditCallbackFailure
  split
  · exact spare_audit rfl
  · exact spare_audit rfl

end Spare

/-! ## The transactions add a session -/

/-- What leaves the sessions there. -/
def keeping : Set Kind := { k | k ≠ .bracket ∧ k ≠ .sessionPrune ∧ k ≠ .rogue }

/-- Most kinds of actions remove no session and add none. -/
theorem closed_sessions {n : Nat} : Closed Γ keeping (Sessions n) where
  insert := by
    intro w S V e ha hV _
    have hlen : V.sessions.length ≤ (w.apply V).sessions.length := by
      cases w with
      | insertSession row => simp [Write.apply]
      | deleteSession id =>
        rcases ha with ha | ha
        · cases ha
        · exact absurd rfl ha.2.2
      | _ => simp [Write.apply, modifyAt]
    exact le_trans hV hlen
  change := by
    intro s found key w S V e ha hw hV
    have hlen : V.sessions.length ≤ (w.apply V).sessions.length := by
      cases s with
      | deleteSessionsExpiredBefore t =>
        rcases ha with ha | ha
        · cases ha
        · exact absurd rfl ha.2.1
      | _ => cases key <;> cases hw <;> simp [Write.apply, modifyAt]
    exact le_trans hV hlen

variable {S0 : Store} {n : Nat}

/-- A program of those kinds keeps the number of sessions. -/
theorem leads_sessions {p : Service Γ α} (h : Within keeping p) :
    Ensures (unbound Γ) me S0 (Sessions n) p fun _ => Sessions n :=
  leads_within h closed_sessions fun hb => hb.1 rfl

/-- `replace_auth_session` adds one session. -/
theorem leads_replaceAuthSession {user : User} {token ipAddress userAgent : Option Text} :
    Ensures (unbound Γ) me S0 (Sessions n) (replaceAuthSession user token ipAddress userAgent) fun _ => Sessions (n + 1) := by
  refine leads_bind (leads_sessions (within_rotateSession (by simp [keeping]) (by simp [keeping]))) fun _ => ?_
  refine leads_bind (leads_sessions within_generateToken) fun sessionToken =>
    leads_bind (leads_sessions within_generateToken) fun csrfToken => leads_bind (leads_sessions within_utcnow) fun issuedAt => ?_
  refine leads_bind (Q := fun _ => On me (Sessions (n + 1))) ?_ fun session => by exact leads_done fun _ _ _ h => h
  refine leads_bind (leads_sessions within_newId) fun id => leads_bind (Q := fun _ => On me (Sessions (n + 1))) ?_ fun _ =>
    leads_sessions ((within_query rfl).bind fun rows => within_refreshed rows)
  refine leads_insertRow fun S V e hV _ => ?_
  have hlen : n + 1 ≤ (V.sessions ++ [AuthSession.bind ⟨id, user.id, Γ.hashToken sessionToken, Γ.hashToken csrfToken, issuedAt,
      issuedAt, calculateSessionExpiry Γ issuedAt issuedAt, none, none, ipAddress, userAgent⟩]).length := by
    rw [List.length_append, List.length_singleton]
    exact Nat.succ_le_succ hV
  exact hlen

/-! ## The operations -/

/-- A login that fails is settled. -/
theorem settles_login {email password : Text} {token ipAddress userAgent : Option Text} :
    Settles me (login email password token ipAddress userAgent : Service Γ IssuedAuthSession) := by
  refine settles_bind (spare_call _) fun _ => settles_bind (spare_require _ _) fun _ =>
    settles_bind ((spare_query (by trivial)).bind fun _ => spare_oneOrNone _) fun user =>
    settles_bind (spare_call _) fun passwordMatches => ?_
  split
  · exact settles_spare ((spare_call _).bind fun _ => (spare_audit rfl).bind fun _ => by trivial)
  · refine settles_issue ?_ (fun S0 n => ?_) fun _ => final_limiter fun _ => final_authorization
    · exact PlainAux.plain_utcnow.bind fun _ => PlainAux.plain_recordUserLogin.bind fun _ =>
        PlainAux.plain_replaceAuthSession.bind fun _ => (PlainAux.plain_createAuditLog (Or.inl rfl) rfl).bind fun _ => by trivial
    · exact leads_bind (leads_sessions within_utcnow) fun _ =>
        leads_bind (leads_sessions (within_recordUserLogin (by simp [keeping]))) fun _ =>
        leads_bind leads_replaceAuthSession fun _ =>
        leads_bind (leads_sessions (within_createAuditLog (Or.inl rfl) (by simp))) fun _ => by exact leads_done fun _ _ _ h => h

/-- A registration that fails is settled. -/
theorem settles_register {email password : Text} {languageCode : LanguageCode} {token ipAddress userAgent : Option Text} :
    Settles me (register email password languageCode token ipAddress userAgent : Service Γ IssuedAuthSession) := by
  refine settles_bind (spare_call _) fun _ => settles_bind (spare_require _ _) fun _ => settles_bind (spare_call _) fun _ =>
    settles_bind (spare_require _ _) fun _ => ?_
  split
  · exact settles_spare ((spare_call _).bind fun _ => by trivial)
  refine settles_bind ((spare_query (by trivial)).bind fun _ => spare_oneOrNone _) fun existing => ?_
  cases existing with
  | some existing => exact settles_spare (spare_registerFailed.bind fun _ => by trivial)
  | none =>
    refine settles_attempt (settles_transaction ?_) (fun e => ?_) fun a => sure_limiter fun _ => sure_pure _
    · exact (PlainAux.plain_call _).bind fun _ => (PlainAux.plain_createUser (Or.inl rfl)).bind fun _ =>
        PlainAux.plain_utcnow.bind fun _ => PlainAux.plain_recordUserLogin.bind fun _ =>
        PlainAux.plain_replaceAuthSession.bind fun _ => (PlainAux.plain_createAuditLog (Or.inl rfl) rfl).bind fun _ => by trivial
    · cases e with
      | emailAlreadyRegistered => exact spare_registerFailed.bind fun _ => by trivial
      | _ => trivial

/-- The login of a callback that fails is settled. -/
theorem settles_loginCallback {provider : OidcProviderSettings} {oidcState : AuthOidcState} {claims : OidcVerifiedClaims}
    {token ipAddress userAgent : Option Text} :
    Settles me (completeLoginCallback provider oidcState claims token ipAddress userAgent : Service Γ OidcCallbackResult) := by
  refine settles_issue ?_ (fun S0 n => ?_) fun _ => final_authorization
  · refine PlainAux.plain_bindTo PlainAux.plain_resolve fun x hx => ?_
    exact PlainAux.plain_utcnow.bind fun _ => PlainAux.plain_recordUserLogin.bind fun _ =>
      PlainAux.plain_replaceAuthSession.bind fun _ => PlainAux.plain_recordOidcLogin.bind fun _ =>
      (PlainAux.plain_eachAudit hx).bind fun _ => (PlainAux.plain_createAuditLog (Or.inl rfl) rfl).bind fun _ => by trivial
  · have hresolve : Within keeping (resolveLoginUserAndIdentity provider claims oidcState.languageCode :
        Service Γ (User × AuthIdentity × List AuthEventType)) :=
      Prog.Always.mono (within_resolveLoginUserAndIdentity (by simp [keeping]) fun u => by simp [keeping]) (fun _ h => h)
        fun _ _ => trivial
    refine leads_bind (leads_sessions hresolve) fun x => leads_bind (leads_sessions within_utcnow) fun _ =>
      leads_bind (leads_sessions (within_recordUserLogin (by simp [keeping]))) fun _ =>
      leads_bind leads_replaceAuthSession fun _ =>
      leads_bind (leads_sessions (within_recordOidcLogin (by simp [keeping]) (by simp [keeping]))) fun _ =>
      leads_bind (leads_sessions ?_) fun _ =>
      leads_bind (leads_sessions (within_createAuditLog (Or.inl rfl) (by simp [oidcAudit]))) fun _ => by exact leads_done fun _ _ _ h => h
    refine Prog.Emits.each (fun e => ?_) _
    exact (within_insertAudit (Or.inr (by simp [keeping]))).bind fun _ => within_persist (Or.inl rfl)

/-- A reauthentication that fails is settled. -/
theorem settles_reauthCallback {provider : OidcProviderSettings} {oidcState : AuthOidcState} {claims : OidcVerifiedClaims}
    {session : Option AuthenticatedSessionContext} {ipAddress userAgent : Option Text} :
    Settles me (completeReauthCallback provider oidcState claims session ipAddress userAgent : Service Γ OidcCallbackResult) := by
  cases session with
  | none => exact settles_spare (by trivial)
  | some context =>
    refine settles_bind (spare_require _ _) fun _ =>
      settles_bind ((spare_query (by trivial)).bind fun _ => spare_oneOrNone _) fun identity => ?_
    cases identity with
    | none => exact settles_spare (by trivial)
    | some identity =>
      refine settles_bind (spare_require _ _) fun _ => ?_
      split
      · exact settles_spare (by trivial)
      · refine settles_bind (spare_call _) fun _ => settles_bind (spare_require _ _) fun _ => settles_bind (spare_call _) fun _ =>
          settles_then (settles_transaction ?_) fun _ => sure_pure _
        exact PlainAux.plain_recordOidcReauth.bind fun _ => PlainAux.plain_createAuditLog (Or.inl rfl) rfl

/-- What follows the consumption of a state is settled by its failure. -/
theorem settles_finishCallback {provider : OidcProviderSettings} {oidcState : AuthOidcState} {code : Text}
    {session : Option AuthenticatedSessionContext} {token ipAddress userAgent : Option Text} :
    Settles me (finishCallback provider oidcState code session token ipAddress userAgent : Service Γ OidcCallbackResult) := by
  refine settles_bind (spare_call _) fun idToken => settles_bind ((spare_call _).bind fun _ => (spare_call .utcnow).bind fun _ =>
    spare_ofExcept _) fun claims => ?_
  split
  · exact settles_reauthCallback
  · exact settles_loginCallback

/-- A callback that fails is settled. -/
theorem settles_completeCallback {providerId state code : Text} {binding : Option Text}
    {session : Option AuthenticatedSessionContext} {token ipAddress userAgent : Option Text} :
    Settles me (completeCallback providerId state code binding session token ipAddress userAgent :
      Service Γ OidcCallbackResult) := by
  unfold completeCallback
  split
  · exact settles_spare (by trivial)
  · refine settles_bind spare_consumeCallbackState fun oidcState => settles_attempt settles_finishCallback (fun e => ?_) fun _ => ?_
    · exact spare_auditCallbackFailure.bind fun _ => by trivial
    · exact sure_pure _

/-- An operation that issues a session is settled by its failure. -/
theorem settles_program {op : Op} (h : op.issues = true) : Settles me (program Γ op) := by
  cases op with
  | register => exact settles_then settles_register fun _ => sure_pure _
  | login => exact settles_then settles_login fun _ => sure_pure _
  | completeCallback => exact settles_then settles_completeCallback fun _ => sure_pure _
  | _ => cases h

/-! ## A login whose statements fail -/

/-- A user with a password. -/
def alice : User := ⟨0, "alice".toList, some "$password".toList, true, .ja, 0, 0, none, none⟩

/-- A service without providers. -/
abbrev plainService : Ctx := Ctx.readable [] fun _ => .error .database

/-- The login of the user, with some actions failing. -/
def loginFailing (fails : Act (database plainService) → Option AuthError) :
    Option (List (Act (database plainService)) × Except AuthError Outcome × Db (database plainService)) :=
  runFailing fails 0 (program plainService (.login "alice".toList "password".toList none none none))
    (atRest plainService { Store.empty with users := [alice] } ⟨0, [], 0, 0, 0, 0⟩)

/-- The query for the roles fails. -/
def rolesDown : Act (database plainService) → Option AuthError
  | .query (.roleCodes _) => some .database
  | _ => none

end AtomicityAux

open AtomicityAux

/-- When an operation that issues a session fails, whatever statements failed at whatever times, the tables are as before and
no success is audited exactly when no lookup of roles failed. Registration never makes one. The login and the login callback
make one each, after their transaction. -/
theorem issue_atomic_iff {Γ : Ctx} {op : Op} {me : Nat} {S : Store} {env : Env} {failed : List (Act (database Γ))} {e : AuthError}
    {db : Db (database Γ)} (hop : op.issues = true) (h : Runs me (program Γ op) (atRest Γ S env) failed (.error e) db) :
    Untouched S db.store ↔ ∀ u, Act.query (D := database Γ) (Query.roleCodes u) ∉ failed := by
  obtain ⟨_, hsettled⟩ := settles_program hop (clean_of_view (view_atRest S env me)) h
  rcases hsettled with ⟨hS, hnone⟩ | ⟨hlt, hsome⟩
  · exact iff_of_true hS fun u hu => hnone ⟨u, hu⟩
  · refine iff_of_false (fun hS => ?_) fun hno => ?_
    · have hlen : db.store.sessions.length = S.sessions.length := congrArg List.length hS.sessions
      exact absurd hlen (Nat.ne_of_gt hlt)
    · obtain ⟨u, hu⟩ := hsome
      exact hno u hu

/-- A login whose commit fails leaves the tables as before. -/
theorem issue_atomic_without_commit : ∃ x, loginFailing (fun a => match a with | .commit => some .database | _ => none) = some x ∧
    x.2.1 = .error .database ∧ Untouched { Store.empty with users := [alice] } x.2.2.store := by
  have hrun : (loginFailing fun a => match a with | .commit => some .database | _ => none).map
      (fun x => (x.2.1, x.1.all fun a => match a with | .commit => true | _ => false)) = some (.error .database, true) := by decide
  obtain ⟨⟨failed, r, db⟩, hsome, heq⟩ := Option.map_eq_some_iff.1 hrun
  obtain ⟨rfl, hfailed⟩ := Prod.mk.inj heq
  refine ⟨_, hsome, rfl, (issue_atomic_iff rfl (runs_of_runFailing hsome)).2 fun u hu => ?_⟩
  cases List.all_eq_true.1 hfailed _ hu

/-- A login that fails for want of its roles has issued a session and audited its success. -/
theorem issue_not_atomic : ¬ ∀ (Γ : Ctx) (op : Op) (me : Nat) (S : Store) (env : Env) (failed : List (Act (database Γ)))
    (e : AuthError) (db : Db (database Γ)), op.issues = true → failed.length ≤ 1 →
    Runs me (program Γ op) (atRest Γ S env) failed (.error e) db → Untouched S db.store := by
  intro hatomic
  have hrun : (loginFailing rolesDown).map (fun x => (x.1.length, x.2.1, x.2.2.store.sessions.length)) =
      some (1, .error .database, 1) := by decide
  obtain ⟨⟨failed, r, db⟩, hsome, heq⟩ := Option.map_eq_some_iff.1 hrun
  obtain ⟨hfailed, heq⟩ := Prod.mk.inj heq
  obtain ⟨rfl, hsessions⟩ := Prod.mk.inj heq
  have hS := hatomic _ _ _ _ _ _ _ _ rfl (le_of_eq hfailed) (runs_of_runFailing hsome)
  have hlen : db.store.sessions.length = 0 := congrArg List.length hS.sessions
  rw [hlen] at hsessions
  cases hsessions

end AuthService
