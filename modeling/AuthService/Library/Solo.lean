import AuthService.Library.BigStep

/-!
# A thread that is alone and that nothing disturbs

When a thread is alone and nothing fails, an action has one answer. What a program then does is a function of what its thread
sees, and of how time passes between its actions. The rules read a program from its first action to its last.
-/

namespace Serial

open ReadCommitted RelyGuarantee

variable {D : Database} {α β : Type}

/-- What a lone thread sees: the committed store, the store with its own writes, and the world. -/
structure Scene (D : Database) where
  store : D.Store
  view : D.Store
  env : D.Env

/-- How the world may change between two actions. -/
structure Passing (D : Database) where
  pass : D.Env → D.Env → Prop
  refl : ∀ env, pass env env
  trans : ∀ {a b c}, pass a b → pass b c → pass a c

/-- Time stands still. -/
def Passing.stopped : Passing D := ⟨Eq, fun _ => rfl, Eq.trans⟩

/-- Time goes on. -/
def Passing.running : Passing D := ⟨D.later, D.later_refl, D.later_trans⟩

/-- The answer to an action, and what the thread sees after it. -/
def answer (me : Nat) (a : Act D) (σ : Scene D) : Except D.Err (Result D a) × Scene D :=
  match a with
  | .query q => (.ok (D.answer q σ.view), σ)
  | .insert w =>
    match D.violation w σ.view with
    | some e => (.error e, σ)
    | none => (.ok (), { σ with view := D.apply w σ.view })
  | .start s => (.ok (D.rows s σ.view), σ)
  | .finish s found =>
    let rows := found.filter fun k => k ∈ D.rows s σ.view
    match (rows.filterMap (D.change s)).findSome? fun w => D.violation w σ.view with
    | some e => (.error e, σ)
    | none => (.ok rows, { σ with view := applyAll (rows.filterMap (D.change s)) σ.view })
  | .tryLock _ => (.ok true, σ)
  | .begin => (.ok (), { σ with view := σ.store })
  | .commit => (.ok (), { σ with store := σ.view })
  | .rollback => (.ok (), { σ with view := σ.store })
  | .ext x => ((D.reply me x σ.env).1, { σ with env := (D.reply me x σ.env).2 })

/-- A statement without violations changes the rows it found. -/
theorem answer_finish (me : Nat) {s : D.Stmt} {σ : Scene D}
    (hok : ∀ w ∈ (D.rows s σ.view).filterMap (D.change s), D.violation w σ.view = none) :
    answer me (.finish s (D.rows s σ.view)) σ =
      (.ok (D.rows s σ.view), { σ with view := applyAll ((D.rows s σ.view).filterMap (D.change s)) σ.view }) := by
  have hstill : (D.rows s σ.view).filter (fun k => k ∈ D.rows s σ.view) = D.rows s σ.view := by simp
  have hnone : ((D.rows s σ.view).filterMap (D.change s)).findSome? (fun w => D.violation w σ.view) = none :=
    List.findSome?_eq_none_iff.2 hok
  simp only [answer, hstill, hnone]

/-- However time passes, the program ends with `Q`. -/
def Surely (C : Passing D) (me : Nat) (Q : Except D.Err α → Scene D → Prop) : Program D α → Scene D → Prop
  | .done r, σ => Q r σ
  | .act a next, σ => ∀ env, C.pass σ.env env →
      Surely C me Q (next (answer me a { σ with env := env }).1) (answer me a { σ with env := env }).2

/-! ## Lone threads in the database -/

/-- The thread sees the scene, and no other thread holds a lock. -/
structure Sees (me : Nat) (σ : Scene D) (db : Db D) : Prop where
  store : db.store = σ.store
  view : db.view me = σ.view
  env : db.env = σ.env
  owner : ∀ k i, db.owner k = some i → i = me

variable {C : Passing D} {me : Nat} {σ : Scene D} {db db' : Db D}

/-- A thread alone finds every row unlocked. -/
theorem Sees.free (h : Sees me σ db) (keys : List D.Key) : db.free me keys = true := by
  rw [Db.free_iff]
  intro k _
  cases howner : db.owner k with
  | none => exact Or.inl rfl
  | some i =>
    rw [h.owner k i howner]
    exact Or.inr rfl

/-- A thread alone sees its own writes. -/
theorem Sees.write (h : Sees me σ db) (ws : List D.Write) (keys : List D.Key) :
    Sees me { σ with view := applyAll ws σ.view } (db.write me ws keys) := by
  refine ⟨h.store, ?_, h.env, ?_⟩
  · rw [Db.view_write, h.view]
  · intro k i hk
    simp only [Db.write] at hk
    split at hk
    · exact (Option.some.inj hk).symm
    · exact h.owner k i hk

/-- After the end of its transaction a thread alone sees the committed tables. -/
theorem Sees.release (h : Sees me σ db) : Sees me { σ with view := σ.store } (db.release me) := by
  refine ⟨h.store, ?_, h.env, ?_⟩
  · rw [Db.view, Db.log_release, applyAll_nil]
    exact h.store
  · intro k i hk
    simp only [Db.release] at hk
    split at hk
    · cases hk
    · exact h.owner k i hk

/-- The action never waits, and its answer is the one. -/
theorem Sees.exec (h : Sees me σ db) (a : Act D) :
    ∃ db', exec me a db = some ((answer me a σ).1, db') ∧ Sees me (answer me a σ).2 db' := by
  cases a with
  | query q => exact ⟨db, by simp only [ReadCommitted.exec, answer, h.view], h⟩
  | insert w =>
    simp only [ReadCommitted.exec, answer, h.free, h.view, if_true]
    cases D.violation w σ.view with
    | some e => exact ⟨db, rfl, h⟩
    | none => exact ⟨_, rfl, h.write [w] []⟩
  | start s =>
    refine ⟨db.note me s, by simp only [ReadCommitted.exec, answer, h.view], h.store, ?_, h.env, h.owner⟩
    rw [Db.view_note]
    exact h.view
  | finish s found =>
    simp only [ReadCommitted.exec, answer, changes, stillThere, h.free, h.view, if_true]
    cases ((found.filter fun k => k ∈ D.rows s σ.view).filterMap (D.change s)).findSome? fun w => D.violation w σ.view with
    | some e => exact ⟨db, rfl, h⟩
    | none => exact ⟨_, rfl, h.write _ _⟩
  | tryLock k =>
    simp only [ReadCommitted.exec, answer, h.free, if_true]
    exact ⟨_, rfl, h.write [] [k]⟩
  | begin =>
    refine ⟨db.begin me, rfl, h.store, ?_, h.env, h.owner⟩
    rw [Db.view_begin]
    exact h.store
  | commit =>
    have hview : (db.commit me).view me = db.view me := by
      rw [Db.view, Db.log_commit, applyAll_nil, Db.store_commit]
    exact ⟨db.commit me, rfl, h.view, hview.trans h.view, h.env, h.release.owner⟩
  | rollback => exact ⟨db.release me, rfl, h.release⟩
  | ext x =>
    simp only [answer, ← h.env]
    exact ⟨_, rfl, h.store, h.view, rfl, h.owner⟩

/-- A pause changes the environment only. -/
theorem Sees.pauses {db0 : Db D} (h : Sees me σ db) (hp : Pauses db db0) :
    D.later σ.env db0.env ∧ Sees me { σ with env := db0.env } db0 := by
  rcases hp with _ | ⟨n, rfl⟩
  · rw [h.env]
    exact ⟨D.later_refl _, h⟩
  · rw [← h.env]
    exact ⟨D.advance_later _ _, h.store, h.view, rfl, h.owner⟩

variable {Q Q' : Except D.Err α → Scene D → Prop}

/-- What surely holds at the end holds at the end of every run without failures. -/
theorem Surely.runs {p : Program D α} {r : Except D.Err α} (hp : Surely Passing.running me Q p σ) (hs : Sees me σ db)
    (h : Runs me p db [] r db') : ∃ σ', Sees me σ' db' ∧ Q r σ' := by
  generalize hfailed : ([] : List (Act D)) = failed at h
  induction h generalizing σ with
  | done r db => exact ⟨σ, hs, hp⟩
  | @act a next db1 db0 db2 db3 x failed r hpause hexec _ ih =>
    obtain ⟨hlater, hs0⟩ := hs.pauses hpause
    obtain ⟨db4, hexec', hs4⟩ := hs0.exec a
    rw [hexec] at hexec'
    obtain ⟨rfl, rfl⟩ := Prod.mk.inj (Option.some.inj hexec')
    exact ih (hp _ hlater) hs4 hfailed
  | fail e _ _ _ _ => cases hfailed

/-- While time stands still, the program ends, and with what surely holds. -/
theorem Surely.run {p : Program D α} (hp : Surely Passing.stopped me Q p σ) (hs : Sees me σ db) :
    ∃ r db' σ', run me p db = some (r, db') ∧ Sees me σ' db' ∧ Q r σ' := by
  induction p generalizing σ db with
  | done r => exact ⟨r, db, σ, rfl, hs, hp⟩
  | act a next ih =>
    obtain ⟨db1, hexec, hs1⟩ := hs.exec a
    obtain ⟨r, db2, σ', hrun, hs2, hQ⟩ := ih _ (hp σ.env rfl) hs1
    refine ⟨r, db2, σ', ?_, hs2, hQ⟩
    rw [Serial.run, hexec]
    exact hrun

/-- What surely holds however time passes, holds while it stands still. -/
theorem Surely.stop {p : Program D α} (h : Surely Passing.running me Q p σ) : Surely Passing.stopped me Q p σ := by
  induction p generalizing σ with
  | done r => exact h
  | act a next ih =>
    rintro env rfl
    exact ih _ (h _ (D.later_refl _))

/-! ## Rules -/

/-- What is sure may be weakened. -/
theorem Surely.mono {p : Program D α} (h : Surely C me Q p σ) (hQ : ∀ r σ, Q r σ → Q' r σ) : Surely C me Q' p σ := by
  induction p generalizing σ with
  | done r => exact hQ r σ h
  | act a next ih => exact fun env hpass => ih _ (h env hpass)

/-- A bind is sure exactly when its first part surely leads to its second. -/
theorem surely_bind_iff {p : Program D α} {f : α → Program D β} {Q : Except D.Err β → Scene D → Prop} :
    Surely C me Q (p >>= f) σ ↔
      Surely C me (fun r σ => match r with | .ok a => Surely C me Q (f a) σ | .error e => Q (.error e) σ) p σ := by
  induction p generalizing σ with
  | done r => cases r <;> exact Iff.rfl
  | act a next ih => exact forall_congr' fun env => imp_congr_right fun _ => ih _

/-- A bind is sure when its first part surely leads to its second. -/
theorem surely_bind {p : Program D α} {f : α → Program D β} {Q : Except D.Err β → Scene D → Prop}
    (h : Surely C me (fun r σ => match r with | .ok a => Surely C me Q (f a) σ | .error e => Q (.error e) σ) p σ) :
    Surely C me Q (p >>= f) σ := surely_bind_iff.2 h

/-- An attempt surely returns the result of its body. -/
theorem surely_attempt {p : Program D α} {Q : Except D.Err (Except D.Err α) → Scene D → Prop}
    (h : Surely C me (fun r σ => Q (.ok r) σ) p σ) : Surely C me Q p.attempt σ := by
  induction p generalizing σ with
  | done r => exact h
  | act a next ih => exact fun env hpass => ih _ (h env hpass)

/-- An action is surely answered at some later time. -/
theorem surely_perform {a : Act D} {Q : Except D.Err (Result D a) → Scene D → Prop}
    (h : ∀ env, C.pass σ.env env → Q (answer me a { σ with env := env }).1 (answer me a { σ with env := env }).2) :
    Surely C me Q (Prog.perform a) σ := h

/-- A statement with a condition gets the rows that meet it, and changes them. -/
theorem surely_modify {s : D.Stmt} {Q : Except D.Err (List D.Key) → Scene D → Prop}
    (hok : ∀ w ∈ (D.rows s σ.view).filterMap (D.change s), D.violation w σ.view = none)
    (h : ∀ env, C.pass σ.env env → Q (.ok (D.rows s σ.view))
      { σ with view := applyAll ((D.rows s σ.view).filterMap (D.change s)) σ.view, env := env }) :
    Surely C me Q ((Prog.perform (A := Act D) (.start s) : Program D (List D.Key)) >>= fun found =>
      (Prog.perform (A := Act D) (.finish s found) : Program D (List D.Key))) σ := by
  intro env1 hpass1 env2 hpass2
  have hfinish := answer_finish me (σ := { σ with env := env2 }) hok
  show Q (answer me (.finish s (D.rows s σ.view)) { σ with env := env2 }).1
    (answer me (.finish s (D.rows s σ.view)) { σ with env := env2 }).2
  rw [hfinish]
  exact h env2 (C.trans hpass1 hpass2)

end Serial
