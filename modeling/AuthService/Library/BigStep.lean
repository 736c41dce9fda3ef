import AuthService.Library.Serial

/-!
# A program from its first action to its last

A thread that runs alone, as one relation between the state before and the state after. Time passes before an action, and any
action on the database may fail. The world outside answers as it does. The actions that were made to fail are written down.
-/

namespace Serial

open ReadCommitted RelyGuarantee

variable {D : Database} {α β : Type}

/-- Time passes, or not. -/
abbrev Pauses : Db D → Db D → Prop := Relation.ReflGen (system D).drift

/-- The action is a call to the world outside. -/
def isExt : Act D → Bool
  | .ext _ => true
  | _ => false

/-- Thread `me` runs the program alone, with the result and the failed actions. -/
inductive Runs (me : Nat) : Program D α → Db D → List (Act D) → Except D.Err α → Db D → Prop
  | done (r : Except D.Err α) (db : Db D) : Runs me (.done r) db [] r db
  | act {a : Act D} {next : Except D.Err (Result D a) → Program D α} {db db0 db1 db' : Db D} {x : Except D.Err (Result D a)}
      {failed : List (Act D)} {r : Except D.Err α} : Pauses db db0 → exec me a db0 = some (x, db1) →
      Runs me (next x) db1 failed r db' → Runs me (.act a next) db failed r db'
  | fail {a : Act D} {next : Except D.Err (Result D a) → Program D α} {db db0 db' : Db D} {failed : List (Act D)}
      {r : Except D.Err α} (e : D.Err) : isExt a = false → Pauses db db0 →
      Runs me (next (.error e)) (db0.abort me e a) failed r db' → Runs me (.act a next) db (a :: failed) r db'

variable {me : Nat} {db db' : Db D} {failed : List (Act D)}

/-- A program that is done runs to its result. -/
@[simp] theorem runs_done {r r' : Except D.Err α} :
    Runs me (.done r : Program D α) db failed r' db' ↔ failed = [] ∧ r' = r ∧ db' = db := by
  constructor
  · intro h
    cases h
    exact ⟨rfl, rfl, rfl⟩
  · rintro ⟨rfl, rfl, rfl⟩
    exact .done _ _

/-- A run of one program after another is a run of the first, and of the second when the first has a result. -/
theorem runs_bind {p : Program D α} {f : α → Program D β} {r : Except D.Err β} (h : Runs me (p >>= f) db failed r db') :
    (∃ e, r = .error e ∧ Runs me p db failed (.error e) db') ∨
    ∃ a failed1 failed2 db1, failed = failed1 ++ failed2 ∧ Runs me p db failed1 (.ok a) db1 ∧
      Runs me (f a) db1 failed2 r db' := by
  induction p generalizing db failed with
  | done x =>
    cases x with
    | ok a => exact Or.inr ⟨a, [], failed, db, rfl, .done _ _, h⟩
    | error e =>
      obtain ⟨rfl, rfl, rfl⟩ := runs_done.1 h
      exact Or.inl ⟨e, rfl, .done _ _⟩
  | act a next ih =>
    rw [Prog.act_bind] at h
    cases h with
    | act hpause hexec hrest =>
      rcases ih _ hrest with ⟨e, rfl, hp⟩ | ⟨b, failed1, failed2, db1, rfl, hp, hf⟩
      · exact Or.inl ⟨e, rfl, .act hpause hexec hp⟩
      · exact Or.inr ⟨b, failed1, failed2, db1, rfl, .act hpause hexec hp, hf⟩
    | fail e ha hpause hrest =>
      rcases ih _ hrest with ⟨e', rfl, hp⟩ | ⟨b, failed1, failed2, db1, rfl, hp, hf⟩
      · exact Or.inl ⟨e', rfl, .fail e ha hpause hp⟩
      · exact Or.inr ⟨b, a :: failed1, failed2, db1, rfl, .fail e ha hpause hp, hf⟩

/-- An attempt runs as its body and returns the result. -/
theorem runs_attempt {p : Program D α} {r : Except D.Err (Except D.Err α)} (h : Runs me p.attempt db failed r db') :
    ∃ r', r = .ok r' ∧ Runs me p db failed r' db' := by
  induction p generalizing db failed with
  | done x =>
    rw [Prog.attempt_done] at h
    obtain ⟨rfl, rfl, rfl⟩ := runs_done.1 h
    exact ⟨x, rfl, .done _ _⟩
  | act a next ih =>
    rw [Prog.attempt_act] at h
    cases h with
    | act hpause hexec hrest =>
      obtain ⟨r', rfl, hp⟩ := ih _ hrest
      exact ⟨r', rfl, .act hpause hexec hp⟩
    | fail e ha hpause hrest =>
      obtain ⟨r', rfl, hp⟩ := ih _ hrest
      exact ⟨r', rfl, .fail e ha hpause hp⟩

/-- The failed actions are actions of the program. -/
theorem Runs.failed_emits {emits : Act D → Prop} {p : Program D α} {r : Except D.Err α} (h : Runs me p db failed r db')
    (hp : p.Emits emits) : ∀ a ∈ failed, emits a := by
  induction h with
  | done r db => exact fun _ ha => absurd ha List.not_mem_nil
  | act _ hexec hrest ih => exact ih ((Prog.emits_act.1 hp).2 _)
  | fail e ha _ hrest ih =>
    obtain ⟨hhead, htail⟩ := Prog.emits_act.1 hp
    intro b hb
    rcases List.mem_cons.1 hb with rfl | hb
    · exact hhead
    · exact ih (htail _) b hb

/-- A run of a single action. -/
theorem runs_perform {a : Act D} {r : Except D.Err (Result D a)}
    (h : Runs me (Prog.perform a : Program D (Result D a)) db failed r db') :
    ∃ db0, Pauses db db0 ∧ (exec me a db0 = some (r, db') ∨ ∃ e, isExt a = false ∧ r = .error e ∧ db' = db0.abort me e a) := by
  cases h with
  | act hpause hexec hrest =>
    obtain ⟨rfl, rfl, rfl⟩ := runs_done.1 hrest
    exact ⟨_, hpause, Or.inl hexec⟩
  | fail e ha hpause hrest =>
    obtain ⟨rfl, rfl, rfl⟩ := runs_done.1 hrest
    exact ⟨_, hpause, Or.inr ⟨e, ha, rfl, rfl⟩⟩

theorem store_of_pauses (h : Pauses db db') : db'.store = db.store := by
  rcases h with _ | ⟨n, rfl⟩ <;> rfl

theorem view_of_pauses (h : Pauses db db') : db'.view me = db.view me := by
  rcases h with _ | ⟨n, rfl⟩ <;> rfl

/-- An action that does not fail has its effect after some pauses. -/
theorem runs_effect {a : Act D} {r : Except D.Err (Result D a)}
    (h : Runs me (Prog.perform a : Program D (Result D a)) db failed r db') : ∃ db0, Pauses db db0 ∧ Effect me db0 a r db' := by
  obtain ⟨db0, hpause, hexec | ⟨e, _, rfl, rfl⟩⟩ := runs_perform h
  · exact ⟨db0, hpause, exec_effect hexec⟩
  · exact ⟨db0, hpause, Effect.fault a e⟩

/-- Inside a transaction the committed store stays. -/
theorem Runs.inside {p : Program D α} {r : Except D.Err α} (h : Runs me p db failed r db')
    (hp : p.Emits fun a => a.isBracket = false) : db'.store = db.store := by
  induction h with
  | done r db => rfl
  | act hpause hexec _ ih =>
    obtain ⟨hhead, htail⟩ := Prog.emits_act.1 hp
    rw [ih (htail _), ((exec_effect hexec).inside hhead).1, store_of_pauses hpause]
  | @fail a _ _ _ _ _ _ e _ hpause _ ih =>
    obtain ⟨hhead, htail⟩ := Prog.emits_act.1 hp
    rw [ih (htail _), ((Effect.fault a e).inside hhead).1, store_of_pauses hpause]

/-! ## Rules for threads that run alone -/

/-- What holds at the end whatever happens holds at the end of a run, and the invariant of the contract is kept. -/
theorem Runs.sat {T : Promise D} {C : Contract (knowing T)} {Q : Except D.Err α → Db D → Prop} {p : Program D α}
    {r : Except D.Err α} (h : Runs me p db failed r db') (hp : Sat C me Q p db) (hknown : ∀ S e, T.known S e)
    (hinv : C.inv db) : C.inv db' ∧ Q r db' := by
  have hpause : ∀ {db1 db2 : Db D}, C.inv db1 → Pauses db1 db2 → C.inv db2 ∧ C.rely me db1 db2 := by
    rintro db1 db2 hinv (_ | hdrift)
    · exact ⟨hinv, C.rely_refl _ _⟩
    · exact ⟨C.drift_inv hinv hdrift, C.drift_rely hinv hdrift⟩
  induction h with
  | done r db1 => exact ⟨hinv, hp _ (C.rely_refl _ _)⟩
  | act hpauses hexec _ ih =>
    obtain ⟨hinv1, hrely⟩ := hpause hinv hpauses
    obtain ⟨hinv2, _, hnext⟩ := hp _ hrely hinv1 _ _ ⟨hknown _ _, exec_effect hexec⟩
    exact ih hnext hinv2
  | @fail a _ _ _ _ _ _ e _ hpauses _ ih =>
    obtain ⟨hinv1, hrely⟩ := hpause hinv hpauses
    obtain ⟨hinv2, _, hnext⟩ := hp _ hrely hinv1 _ _ ⟨hknown _ _, Effect.fault a e⟩
    exact ih hnext hinv2

/-- What a program leads to holds at the end of its runs that have a result. -/
theorem Runs.leads {T : Promise D} {S0 : D.Store} {P : Db D → Prop} {Q : α → Assertion D} {p : Program D α} {a : α}
    (h : Runs me p db failed (.ok a) db') (hp : Leads (contract T me S0) me P p fun a => On me (Q a))
    (hknown : ∀ S e, T.known S e) (hinv : (contract T me S0).inv db) (hP : P db) : On me (Q a) db' :=
  (h.sat (hp db hP) hknown hinv).2 a rfl

/-! ## Runs and interleavings -/

/-- A run of a program is a run of the system in which its thread is alone. -/
theorem Runs.reaches {idle : α} {p : Program D α} {r : Except D.Err α} (h : Runs me p db failed r db') :
    Reaches (system D) ⟨db, alone me idle p⟩ ⟨db', alone me idle (.done r)⟩ := by
  have hstep : ∀ {a : Act D} {next : Except D.Err (Result D a) → Program D α} {db1 db2 db3 : Db D} {x}, Pauses db1 db2 →
      Effect me db2 a x db3 → Reaches (system D) ⟨db1, alone me idle (.act a next)⟩ ⟨db3, alone me idle (next x)⟩ := by
    intro a next db1 db2 db3 x hpauses heffect
    have hme : alone me idle (.act a next) me = .act a next := Function.update_self _ _ _
    have hact : Step (system D) ⟨db2, alone me idle (.act a next)⟩
        ⟨db3, Function.update (alone me idle (.act a next)) me (next x)⟩ := Step.thread hme heffect
    rw [alone, Function.update_idem] at hact
    rcases hpauses with _ | hdrift
    · exact Relation.ReflTransGen.single hact
    · exact Relation.ReflTransGen.head (Step.drift hdrift) (Relation.ReflTransGen.single hact)
  induction h with
  | done r db => exact Relation.ReflTransGen.refl
  | act hpauses hexec _ ih => exact (hstep hpauses (exec_effect hexec)).trans ih
  | fail e _ hpauses _ ih => exact (hstep hpauses (Effect.fault _ e)).trans ih

/-! ## Runs that can be computed -/

/-- A run that was evaluated is a run without failures. -/
theorem runs_of_run {p : Program D α} {r : Except D.Err α} (h : run me p db = some (r, db')) : Runs me p db [] r db' := by
  induction p generalizing db with
  | done r' =>
    obtain ⟨rfl, rfl⟩ := Prod.mk.inj (Option.some.inj h)
    exact .done _ _
  | act a next ih =>
    obtain ⟨⟨x, db1⟩, hexec, hrest⟩ := Option.bind_eq_some_iff.1 h
    exact .act .refl hexec (ih _ hrest)

/-- What the thread does when no time passes and the actions for which there is an error fail. `none` when it has to wait. -/
def runFailing (fails : Act D → Option D.Err) (me : Nat) :
    Program D α → Db D → Option (List (Act D) × Except D.Err α × Db D)
  | .done r, db => some ([], r, db)
  | .act a next, db =>
    match if isExt a then none else fails a with
    | some e => (runFailing fails me (next (.error e)) (db.abort me e a)).map fun p => (a :: p.1, p.2)
    | none => (exec me a db).bind fun p => runFailing fails me (next p.1) p.2

/-- A run that was evaluated with failures is a run with these failures. -/
theorem runs_of_runFailing {fails : Act D → Option D.Err} {p : Program D α} {r : Except D.Err α}
    (h : runFailing fails me p db = some (failed, r, db')) : Runs me p db failed r db' := by
  induction p generalizing db failed with
  | done r' =>
    cases h
    exact .done _ _
  | act a next ih =>
    simp only [runFailing] at h
    split at h
    · rename_i e hfails
      have ha : isExt a = false := by
        by_contra hext
        rw [if_pos (by simpa using hext)] at hfails
        cases hfails
      obtain ⟨⟨failed', r', db1⟩, hrun, heq⟩ := Option.map_eq_some_iff.1 h
      cases heq
      exact .fail e ha .refl (ih _ hrun)
    · obtain ⟨⟨x, db1⟩, hexec, hrun⟩ := Option.bind_eq_some_iff.1 h
      exact .act .refl hexec (ih _ hrun)

end Serial
