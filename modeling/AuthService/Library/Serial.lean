import AuthService.Library.ReadCommitted

/-!
# One operation at a time

A thread that runs alone meets no locks and sees no commits but its own. The rules here are about what it has committed, what it
sees, and the time, while time passes and any action may fail. An assertion held at some time up to now, so that it stays when
time passes. Only a commit has to show something: that what is committed keeps the promise.
-/

namespace Serial

open ReadCommitted RelyGuarantee

variable {D : Database} {α β : Type}

/-- What the committed stores keep, one by one and from each to the next. What is already known of them may be used. -/
structure Promise (D : Database) where
  known : D.Store → D.Env → Prop
  inv : D.Store → D.Env → Prop
  rel : D.Store → D.Store → Prop
  inv_later : ∀ {S e e'}, inv S e → D.later e e' → inv S e'
  rel_refl : ∀ S, rel S S
  rel_trans : ∀ {S S' S''}, rel S S' → rel S' S'' → rel S S''

/-- The database while its committed stores are as known. -/
abbrev knowing (T : Promise D) : System (Act D) (Result D) D.Err (Db D) :=
  (system D).restrict fun _ _ db => T.known db.store db.env

/-- Thread `me` runs alone from the store `S0` on. -/
def contract (T : Promise D) (me : Nat) (S0 : D.Store) : Contract (knowing T) where
  inv db := T.inv db.store db.env ∧ T.rel S0 db.store
  rely i db db' := i = me → ∃ env, D.later db.env env ∧ db' = { db with env := env }
  guar j _ _ := j = me
  rely_refl i db _ := ⟨db.env, D.later_refl _, rfl⟩
  rely_trans h h' hi := by
    obtain ⟨env, hlater, rfl⟩ := h hi
    obtain ⟨env', hlater', rfl⟩ := h' hi
    exact ⟨env', D.later_trans hlater hlater', rfl⟩
  guar_rely hne _ _ hj hi := absurd (hi.trans hj.symm) hne
  drift_inv h hd := by
    obtain ⟨n, rfl⟩ := hd
    exact ⟨T.inv_later h.1 (D.advance_later n _), h.2⟩
  drift_rely _ hd _ := by
    obtain ⟨n, rfl⟩ := hd
    exact ⟨_, D.advance_later n _, rfl⟩

/-- An assertion on the committed store, the store that the thread sees, and the world. -/
abbrev Assertion (D : Database) := D.Store → D.Store → D.Env → Prop

/-- The assertion held at some time up to now. -/
def On (me : Nat) (P : Assertion D) (db : Db D) : Prop := ∃ e, D.later e db.env ∧ P db.store (db.view me) e

variable {T : Promise D} {me : Nat} {S0 : D.Store} {P P' : Assertion D}

/-- An assertion on the thread's view may be weakened. -/
theorem On.mono {db : Db D} (h : On me P db) (hP : ∀ S V e, P S V e → P' S V e) : On me P' db := by
  obtain ⟨e, hlater, hp⟩ := h
  exact ⟨e, hlater, hP _ _ _ hp⟩

/-- An assertion on the thread's view is stable. -/
theorem stable_on : Stable (contract T me S0) me (On me P) := by
  intro db db' h hr
  obtain ⟨env, hlater, rfl⟩ := hr rfl
  obtain ⟨e, hle, hp⟩ := h
  exact ⟨e, D.later_trans hle hlater, hp⟩

theorem stable_true : Stable (contract T me S0) me (fun _ => True) := fun _ _ => trivial

variable (T me S0) in
/-- From an assertion on, the program ends with another, or fails. -/
abbrev Ensures (P : Assertion D) (p : Program D α) (Q : α → Assertion D) : Prop :=
  Leads (contract T me S0) me (On me P) p fun a => On me (Q a)

theorem leads_true {P : Db D → Prop} {p : Program D α} {Q : α → Db D → Prop} (h : Leads (contract T me S0) me P p Q) :
    Leads (contract T me S0) me P p fun _ _ => True := leads_conseq h (fun _ hs => hs) fun _ _ _ => trivial

/-- A program that is done promises nothing. -/
theorem leads_end {P : Db D → Prop} {a : α} :
    Leads (contract T me S0) me P (.done (.ok a) : Program D α) fun _ _ => True :=
  leads_pure stable_true fun _ _ => trivial

variable {Q : α → Assertion D}

/-- A program that is done promises what holds. -/
theorem leads_done {a : α} (h : ∀ S V e, P S V e → Q a S V e) :
    Leads (contract T me S0) me (On me P) (.done (.ok a) : Program D α) fun a => On me (Q a) :=
  leads_pure stable_on fun _ hs => hs.mono h

/-- What a program promises may be weakened. -/
theorem leads_weaken {p : Program D α} {Q' : α → Assertion D} (h : Leads (contract T me S0) me (On me P) p fun a => On me (Q a))
    (hQ : ∀ a S V e, Q a S V e → Q' a S V e) : Leads (contract T me S0) me (On me P) p fun a => On me (Q' a) :=
  leads_conseq h (fun _ hs => hs) fun a _ hs => hs.mono (hQ a)

/-- What a program needs may be strengthened. -/
theorem leads_strengthen {p : Program D α} {Q : α → Db D → Prop} (h : Leads (contract T me S0) me (On me P) p Q)
    (hP : ∀ S V e, P' S V e → P S V e) : Leads (contract T me S0) me (On me P') p Q :=
  leads_conseq h (fun _ hs => hs.mono hP) fun _ _ hs => hs

/-- A value that an assertion speaks of is fixed from there on. -/
theorem leads_exists {ι : Type} {P : ι → Assertion D} {p : Program D α} {Q : α → Db D → Prop}
    (h : ∀ x, Leads (contract T me S0) me (On me (P x)) p Q) :
    Leads (contract T me S0) me (On me fun S V e => ∃ x, P x S V e) p Q := by
  rintro db ⟨e, hlater, x, hp⟩
  exact h x db ⟨e, hlater, hp⟩

/-- A fact that does not depend on the stores holds from there on. -/
theorem leads_given {c : Prop} {p : Program D α} {Q : α → Db D → Prop}
    (h : c → Leads (contract T me S0) me (On me P) p Q) :
    Leads (contract T me S0) me (On me fun S V e => c ∧ P S V e) p Q := by
  rintro db ⟨e, hlater, hc, hp⟩
  exact h hc db ⟨e, hlater, hp⟩

/-! ## The actions -/

section Actions

variable {db db' : Db D}

/-- An action that leaves the committed store alone. -/
theorem leads_quiet {a : Act D} {Q : Result D a → Assertion D}
    (h : ∀ {db r db'}, On me P db → Effect me db a r db' → db'.store = db.store ∧ D.later db.env db'.env ∧
      ∀ x, r = .ok x → On me (Q x) db') :
    Leads (contract T me S0) me (On me P) (Prog.perform a : Program D (Result D a)) fun x => On me (Q x) := by
  refine leads_perform stable_on (fun _ => stable_on) ?_
  rintro db r db' hP hinv ⟨_, he⟩
  obtain ⟨hstore, hlater, hQ⟩ := h hP he
  refine ⟨⟨?_, ?_⟩, rfl, hQ⟩
  · rw [hstore]
    exact T.inv_later hinv.1 hlater
  · rw [hstore]
    exact hinv.2

/-- A query is answered from the thread's view. -/
theorem leads_query {q : D.Query} {Q : D.Answer q → Assertion D} (h : ∀ S V e, P S V e → Q (D.answer q V) S V e) :
    Leads (contract T me S0) me (On me P) (Prog.perform (A := Act D) (.query q) : Program D (D.Answer q)) fun x => On me (Q x) := by
  refine leads_quiet (a := .query q) ?_
  intro db r db' hP he
  cases he with
  | query =>
    refine ⟨rfl, D.later_refl _, ?_⟩
    intro x hx
    obtain ⟨e, hlater, hp⟩ := hP
    obtain rfl := Except.ok.inj hx
    exact ⟨e, hlater, h _ _ _ hp⟩
  | fault a e => exact ⟨rfl, D.later_refl _, fun _ hr => by cases hr⟩

/-- An INSERT that violates nothing changes the thread's view. -/
theorem leads_insert {w : D.Write} {Q : Unit → Assertion D}
    (h : ∀ S V e, P S V e → D.violation w V = none → Q () S (D.apply w V) e) :
    Leads (contract T me S0) me (On me P) (Prog.perform (A := Act D) (.insert w) : Program D Unit) fun x => On me (Q x) := by
  refine leads_quiet (a := .insert w) ?_
  intro db r db' hP he
  cases he with
  | insert _ _ hv =>
    refine ⟨rfl, D.later_refl _, ?_⟩
    intro x _
    obtain ⟨e, hlater, hp⟩ := hP
    refine ⟨e, hlater, ?_⟩
    rw [Db.view_write, applyAll_cons, applyAll_nil]
    exact h _ _ _ hp hv
  | fault a e => exact ⟨rfl, D.later_refl _, fun _ hr => by cases hr⟩

/-- A statement with a condition gets the rows that meet it, and changes them. -/
theorem leads_modify {s : D.Stmt} {Q : List D.Key → Assertion D}
    (h : ∀ S V e, P S V e → (∀ w ∈ (D.rows s V).filterMap (D.change s), D.violation w V = none) →
      Q (D.rows s V) S (applyAll ((D.rows s V).filterMap (D.change s)) V) e) :
    Leads (contract T me S0) me (On me P)
      ((Prog.perform (A := Act D) (.start s) : Program D (List D.Key)) >>= fun found =>
        (Prog.perform (A := Act D) (.finish s found) : Program D (List D.Key))) fun x => On me (Q x) := by
  refine leads_bind (Q := fun found => On me fun S V e => found = D.rows s V ∧ P S V e) ?_ ?_
  · refine leads_quiet (a := .start s) (Q := fun (found : List D.Key) S V e => found = D.rows s V ∧ P S V e) ?_
    intro db r db' hP he
    cases he with
    | start =>
      refine ⟨rfl, D.later_refl _, ?_⟩
      intro x hx
      obtain ⟨e, hlater, hp⟩ := hP
      refine ⟨e, hlater, ?_⟩
      rw [Db.view_note]
      exact ⟨(Except.ok.inj hx).symm, hp⟩
    | fault a e => exact ⟨rfl, D.later_refl _, fun _ hr => by cases hr⟩
  · intro found
    refine leads_quiet (a := .finish s found) ?_
    intro db r db' hP he
    cases he with
    | finish _ _ _ hv =>
      refine ⟨rfl, D.later_refl _, ?_⟩
      intro x hx
      obtain ⟨e, hlater, rfl, hp⟩ := hP
      have hstill : stillThere db me s (D.rows s (db.view me)) = D.rows s (db.view me) := by
        simp [stillThere]
      refine ⟨e, hlater, ?_⟩
      obtain rfl := Except.ok.inj hx
      rw [Db.view_write]
      unfold changes at hv ⊢
      rw [hstill] at hv ⊢
      exact h _ _ _ hp hv
    | fault a e => exact ⟨rfl, D.later_refl _, fun _ hr => by cases hr⟩

/-- An advisory lock may or may not be granted. -/
theorem leads_tryLock {k : D.Key} {Q : Bool → Assertion D} (h : ∀ b S V e, P S V e → Q b S V e) :
    Leads (contract T me S0) me (On me P) (Prog.perform (A := Act D) (.tryLock k) : Program D Bool) fun x => On me (Q x) := by
  refine leads_quiet (a := .tryLock k) ?_
  intro db r db' hP he
  cases he with
  | locked _ _ =>
    refine ⟨rfl, D.later_refl _, ?_⟩
    intro x _
    obtain ⟨e, hlater, hp⟩ := hP
    refine ⟨e, hlater, ?_⟩
    rw [Db.view_write, applyAll_nil]
    exact h _ _ _ _ hp
  | notLocked => exact ⟨rfl, D.later_refl _, fun x _ => hP.mono (h x)⟩
  | fault a e => exact ⟨rfl, D.later_refl _, fun _ hr => by cases hr⟩

/-- A call outside may move the environment on. -/
theorem leads_ext {x : D.Ext} {Q : D.Reply x → Assertion D}
    (h : ∀ S V e e' y, P S V e → D.later e e' → (D.reply me x e').1 = .ok y → Q y S V (D.reply me x e').2) :
    Leads (contract T me S0) me (On me P) (Prog.perform (A := Act D) (.ext x) : Program D (D.Reply x)) fun y => On me (Q y) := by
  refine leads_quiet (a := .ext x) ?_
  intro db r db' hP he
  cases he with
  | ext =>
    refine ⟨rfl, D.reply_later _ _ _, ?_⟩
    intro y hy
    obtain ⟨e, hlater, hp⟩ := hP
    exact ⟨_, D.later_refl _, h _ _ _ _ y hp hlater hy⟩
  | fault a e => exact ⟨rfl, D.later_refl _, fun _ hr => by cases hr⟩

/-- A new transaction sees the committed store, whatever went before. -/
theorem leads_begin {P : Db D → Prop} {Q : Unit → Assertion D} (hstable : Stable (contract T me S0) me P)
    (h : ∀ db, P db → T.known db.store db.env → T.inv db.store db.env → T.rel S0 db.store →
      Q () db.store db.store db.env) :
    Leads (contract T me S0) me P (Prog.perform (A := Act D) .begin : Program D Unit) fun x => On me (Q x) := by
  refine leads_perform hstable (fun _ => stable_on) ?_
  rintro db r db' hP hinv ⟨hknown, he⟩
  cases he with
  | begin =>
    refine ⟨hinv, rfl, ?_⟩
    intro x _
    refine ⟨db.env, D.later_refl _, ?_⟩
    rw [Db.view_begin]
    exact h db hP hknown hinv.1 hinv.2
  | fault a e => exact ⟨hinv, rfl, fun _ hr => by cases hr⟩

/-- A commit has to keep the promise. -/
theorem leads_commit {Q : Unit → Assertion D}
    (h : ∀ S V e e', P S V e → D.later e e' → T.inv S e' → T.rel S0 S → T.inv V e' ∧ T.rel S V ∧ Q () V V e') :
    Leads (contract T me S0) me (On me P) (Prog.perform (A := Act D) .commit : Program D Unit) fun x => On me (Q x) := by
  refine leads_perform stable_on (fun _ => stable_on) ?_
  rintro db r db' hP hinv ⟨_, he⟩
  obtain ⟨e, hlater, hp⟩ := hP
  cases he with
  | commit =>
    obtain ⟨hV, hrel, hQ⟩ := h _ _ _ _ hp hlater hinv.1 hinv.2
    refine ⟨⟨hV, T.rel_trans hinv.2 hrel⟩, rfl, ?_⟩
    intro x _
    refine ⟨db.env, D.later_refl _, ?_⟩
    have hview : (db.commit me).view me = db.view me := by
      rw [Db.view, Db.log_commit, applyAll_nil, Db.store_commit]
    rw [hview]
    exact hQ
  | fault a e => exact ⟨hinv, rfl, fun _ hr => by cases hr⟩

/-- After a rollback the thread sees the committed store. -/
theorem leads_rollback {P : Db D → Prop} {Q : Unit → Assertion D} (hstable : Stable (contract T me S0) me P)
    (h : ∀ db, P db → T.inv db.store db.env → T.rel S0 db.store → Q () db.store db.store db.env) :
    Leads (contract T me S0) me P (Prog.perform (A := Act D) .rollback : Program D Unit) fun x => On me (Q x) := by
  refine leads_perform hstable (fun _ => stable_on) ?_
  rintro db r db' hP hinv ⟨_, he⟩
  cases he with
  | rollback =>
    refine ⟨hinv, rfl, ?_⟩
    intro x _
    refine ⟨db.env, D.later_refl _, ?_⟩
    have hview : (db.release me).view me = db.store := by
      rw [Db.view, Db.log_release, applyAll_nil, Db.store_release]
    rw [hview]
    exact h db hP hinv.1 hinv.2
  | fault a e => exact ⟨hinv, rfl, fun _ hr => by cases hr⟩

end Actions

/-! ## A whole operation -/

/-- The thread alone, with its program. -/
def alone (me : Nat) (idle : α) (p : Program D α) : Nat → Program D α := Function.update (fun _ => .done (.ok idle)) me p

/-- What is known of every state of a run restricts no action of it. -/
theorem reaches_knowing {c c' : Config D α} (hknown : ∀ c', Reaches (system D) c c' → T.known c'.state.store c'.state.env)
    (h : Reaches (system D) c c') : Reaches (knowing T) c c' := by
  induction h with
  | refl => exact Relation.ReflTransGen.refl
  | tail hr hstep ih =>
    refine ih.tail ?_
    cases hstep with
    | thread hthread hexec => exact Step.thread hthread ⟨hknown _ hr, hexec⟩
    | drift hdrift => exact Step.drift hdrift

/-- A program that runs alone keeps the promise in every state on its way. -/
theorem alone_keeps {idle : α} {p : Program D α} {db : Db D} {c : Config D α}
    (hp : Ensures T me db.store (fun S V e => V = S ∧ T.inv S e) p Q) (hlog : db.log me = [])
    (hknown : ∀ c, Reaches (system D) ⟨db, alone me idle p⟩ c → T.known c.state.store c.state.env)
    (hinv : T.inv db.store db.env) (h : Reaches (system D) ⟨db, alone me idle p⟩ c) :
    T.inv c.state.store c.state.env ∧ T.rel db.store c.state.store ∧
      ∀ a, c.threads me = .done (.ok a) → On me (Q a) c.state := by
  have hview : db.view me = db.store := by rw [Db.view, hlog, applyAll_nil]
  have hsat : ∀ i, Sat (contract T me db.store) i
      (fun r s => i = me → ∀ a, r = .ok a → On me (Q a) s) (alone me idle p i) db := by
    intro i
    by_cases hi : i = me
    · subst hi
      rw [alone, Function.update_self]
      exact (hp db ⟨db.env, D.later_refl _, hview, hinv⟩).conseq fun r s hr _ => hr
    · rw [alone, Function.update_of_ne hi]
      exact fun _ _ hme => absurd hme hi
  obtain ⟨hinv', hsat'⟩ := sat_of_reaches (Q := fun i r s => i = me → ∀ a, r = .ok a → On me (Q a) s)
    (C := contract T me db.store) ⟨hinv, T.rel_refl _⟩ hsat (reaches_knowing hknown h)
  refine ⟨hinv'.1, hinv'.2, ?_⟩
  intro a ha
  have hme := hsat' me
  rw [ha] at hme
  exact hme c.state ((contract T me db.store).rely_refl me _) rfl a rfl

/-- What the thread does when nothing fails and no time passes. `none` when it has to wait. -/
def run (me : Nat) : Program D α → Db D → Option (Except D.Err α × Db D)
  | .done r, db => some (r, db)
  | .act a next, db => (exec me a db).bind fun p => run me (next p.1) p.2

/-- A run that was evaluated is a run of the system. -/
theorem reaches_of_run {idle : α} {p : Program D α} {db db' : Db D} {r : Except D.Err α} (h : run me p db = some (r, db')) :
    Reaches (system D) ⟨db, alone me idle p⟩ ⟨db', alone me idle (.done r)⟩ := by
  induction p generalizing db with
  | done r' =>
    obtain ⟨rfl, rfl⟩ := Prod.mk.inj (Option.some.inj h)
    exact Relation.ReflTransGen.refl
  | act a next ih =>
    obtain ⟨⟨r1, db1⟩, hexec, hrest⟩ := Option.bind_eq_some_iff.1 h
    refine Relation.ReflTransGen.head ?_ (ih r1 hrest)
    have hstep : Step (system D) ⟨db, alone me idle (.act a next)⟩
        ⟨db1, Function.update (alone me idle (.act a next)) me (next r1)⟩ := by
      have hme : alone me idle (.act a next) me = .act a next := Function.update_self _ _ _
      exact Step.thread hme (exec_effect hexec)
    rwa [alone, Function.update_idem] at hstep

end Serial
