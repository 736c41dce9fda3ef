import AuthService.UnitOfWork

/-!
# All or nothing

Programs on units of work against what they mean. Inside a transaction nothing is committed, and the writes gather in its
session, those of joined blocks that raised included. Outside, an outermost transaction is one commit or none.
-/

namespace AuthService

namespace UnitOfWork

variable {W E : Type}

namespace BlockAux

variable {σ τ : State W} {owner unitOfWork : Owner} {s : Nat}

/-- What a block inside the transaction of session `s` leaves: the context and the commits, and a session with more writes. -/
structure Gathers (s : Nat) (σ τ : State W) (ws : List W) : Prop where
  context : τ.transactionSession = σ.transactionSession
  commits : τ.commits = σ.commits
  pending : (τ.sessions s).pending = (σ.sessions s).pending ++ ws

theorem Gathers.refl (s : Nat) (σ : State W) : Gathers s σ σ [] := ⟨rfl, rfl, by simp⟩

/-- Two blocks in a row gather the writes of both. -/
theorem Gathers.trans {υ : State W} {ws ws' : List W} (h : Gathers s σ τ ws) (h' : Gathers s τ υ ws') :
    Gathers s σ υ (ws ++ ws') :=
  ⟨h'.context.trans h.context, h'.commits.trans h.commits, by rw [h'.pending, h.pending, List.append_assoc]⟩

/-- Inside a transaction another one runs its body in the session that is there. -/
theorem transaction_joined (h : σ.transactionSession = some (owner, s)) (body : Block W E) :
    transaction unitOfWork body σ = if owner = unitOfWork then body σ else (.error differentUnitOfWork, σ) := by
  unfold transaction
  rw [h]

/-- Inside a transaction a session scope uses the session that is there. -/
theorem sessionScope_joined (h : σ.transactionSession = some (owner, s)) (body : Nat → Block W E) :
    sessionScope unitOfWork body σ = if owner = unitOfWork then body s σ else (.error differentUnitOfWork, σ) := by
  unfold sessionScope
  rw [h]

/-- A write inside a transaction is flushed to its session. -/
theorem persist_joined (h : σ.transactionSession = some (owner, s)) (w : W) :
    Gathers s σ ((σ.add s w).persist s owner) [w] := by
  have hin : (σ.add s w).isTransactionSession s owner = true := decide_eq_true h
  rw [State.persist, if_pos hin]
  exact ⟨rfl, rfl, by simp [State.flush, State.add, Session.pending]⟩

/-- Inside a transaction a program ends as it should and gathers its writes. -/
theorem exec_inside (code : Code W E) (h : σ.transactionSession = some (owner, s)) :
    (exec code σ).1 = (inside owner code).1 ∧ Gathers s σ (exec code σ).2 (inside owner code).2 := by
  induction code generalizing σ with
  | skip => exact ⟨rfl, Gathers.refl s σ⟩
  | raise e => exact ⟨rfl, Gathers.refl s σ⟩
  | write unitOfWork w =>
    simp only [exec, repositoryWrite, inside, sessionScope_joined h]
    split
    · rename_i heq
      subst heq
      exact ⟨rfl, persist_joined h w⟩
    · exact ⟨rfl, Gathers.refl s σ⟩
  | sessionScope unitOfWork body ih =>
    simp only [exec, inside, sessionScope_joined h]
    split
    · exact ih h
    · exact ⟨rfl, Gathers.refl s σ⟩
  | transaction unitOfWork body ih =>
    simp only [exec, inside, transaction_joined h]
    split
    · exact ih h
    · exact ⟨rfl, Gathers.refl s σ⟩
  | seq first second ih1 ih2 =>
    obtain ⟨hr, hg⟩ := ih1 h
    simp only [exec, inside]
    rcases hfirst : exec first σ with ⟨r, τ⟩
    rcases hin : inside owner first with ⟨r', ws⟩
    rw [hfirst, hin] at hr hg
    subst hr
    cases r with
    | error e => exact ⟨rfl, hg⟩
    | ok =>
      obtain ⟨hr', hg'⟩ := ih2 (hg.context.trans h)
      exact ⟨hr', hg.trans hg'⟩
  | tryExcept body handler onRuntimeError ih1 ih2 ih3 =>
    obtain ⟨hr, hg⟩ := ih1 h
    simp only [exec, inside]
    rcases hbody : exec body σ with ⟨r, τ⟩
    rcases hin : inside owner body with ⟨r', ws⟩
    rw [hbody, hin] at hr hg
    subst hr
    match r with
    | .ok () => exact ⟨rfl, hg⟩
    | .error (.program e) =>
      obtain ⟨hr', hg'⟩ := ih2 e (hg.context.trans h)
      exact ⟨hr', hg.trans hg'⟩
    | .error (.runtimeError m) =>
      obtain ⟨hr', hg'⟩ := ih3 (hg.context.trans h)
      exact ⟨hr', hg.trans hg'⟩

/-- What a block outside transactions leaves: no active transaction, and more commits. -/
structure Commits (σ τ : State W) (cs : List (List W)) : Prop where
  context : τ.transactionSession = none
  commits : τ.commits = σ.commits ++ cs

/-- Two blocks in a row commit what each of them commits. -/
theorem Commits.trans {υ : State W} {cs cs' : List (List W)} (h : Commits σ τ cs) (h' : Commits τ υ cs') :
    Commits σ υ (cs ++ cs') :=
  ⟨h'.context, by rw [h'.commits, h.commits, List.append_assoc]⟩

/-- Outside a transaction a session scope opens a session and rolls it back at its end. -/
theorem sessionScope_outermost (h : σ.transactionSession = none) (body : Nat → Block W E) :
    sessionScope unitOfWork body σ =
      ((body σ.made σ.newSession).1, (body σ.made σ.newSession).2.rollback σ.made) := by
  unfold sessionScope
  rw [h]

/-- An outermost transaction commits what its session has gathered, or nothing. -/
theorem transaction_outermost (h : σ.transactionSession = none) (body : Block W E) :
    let opened : State W := { σ.newSession with transactionSession := some (unitOfWork, σ.made) }
    ∀ {r τ ws}, body opened = (r, τ) → Gathers σ.made opened τ ws →
      (transaction unitOfWork body σ).1 = r ∧
        Commits σ (transaction unitOfWork body σ).2 (match r with | .ok () => [ws] | .error _ => []) := by
  intro opened r τ ws hbody hg
  have hpending : (τ.sessions σ.made).pending = ws := by
    rw [hg.pending]
    simp [opened, State.newSession, Session.pending]
  have hcommits : τ.commits = σ.commits := hg.commits
  have hrun : transaction unitOfWork body σ =
      (r, ({ (match r with
        | .ok () => τ.commit σ.made
        | .error _ => τ.rollback σ.made) with transactionSession := none }).rollback σ.made) := by
    have hopened : body { σ.newSession with transactionSession := some (unitOfWork, σ.made) } = (r, τ) := hbody
    cases r with
    | ok => simp only [transaction, h, hopened]
    | error e => simp only [transaction, h, hopened]
  rw [hrun]
  refine ⟨rfl, rfl, ?_⟩
  cases r with
  | ok =>
    simp only [State.rollback, State.commit]
    rw [hpending, hcommits]
  | error e =>
    simp only [State.rollback, List.append_nil]
    exact hcommits

/-- Outside transactions a program ends as it should and commits what it should. -/
theorem exec_outside (code : Code W E) (h : σ.transactionSession = none) :
    (exec code σ).1 = (outside code).1 ∧ Commits σ (exec code σ).2 (outside code).2 := by
  induction code generalizing σ with
  | skip => exact ⟨rfl, h, by simp [exec, outside]⟩
  | raise e => exact ⟨rfl, h, by simp [exec, outside]⟩
  | write unitOfWork w =>
    have hout : (σ.newSession.add σ.made w).isTransactionSession σ.made unitOfWork = false := by
      simp [State.isTransactionSession, State.add, State.newSession, h]
    refine ⟨?_, ?_⟩
    all_goals simp only [exec, repositoryWrite, outside, sessionScope_outermost h, State.persist, hout]
    refine ⟨h, ?_⟩
    simp [State.rollback, State.commit, State.add, State.newSession, Session.pending]
  | sessionScope unitOfWork body ih =>
    simp only [exec, outside, sessionScope_outermost h]
    obtain ⟨hr, hc⟩ := ih (σ := σ.newSession) h
    exact ⟨hr, hc.context, hc.commits⟩
  | transaction unitOfWork body ih =>
    obtain ⟨hr, hg⟩ := exec_inside (σ := { σ.newSession with transactionSession := some (unitOfWork, σ.made) })
      (s := σ.made) body rfl
    obtain ⟨hr', hc⟩ := transaction_outermost h (exec body) (r := (inside unitOfWork body).1)
      (Prod.ext hr rfl) hg
    simp only [exec, outside]
    rcases hin : inside unitOfWork body with ⟨r, ws⟩
    rw [hin] at hr' hc
    cases r with
    | ok => exact ⟨hr', hc⟩
    | error e => exact ⟨hr', hc⟩
  | seq first second ih1 ih2 =>
    obtain ⟨hr, hc⟩ := ih1 h
    simp only [exec, outside]
    rcases hfirst : exec first σ with ⟨r, τ⟩
    rcases hout : outside first with ⟨r', cs⟩
    rw [hfirst, hout] at hr hc
    subst hr
    cases r with
    | error e => exact ⟨rfl, hc⟩
    | ok =>
      obtain ⟨hr', hc'⟩ := ih2 hc.context
      exact ⟨hr', hc.trans hc'⟩
  | tryExcept body handler onRuntimeError ih1 ih2 ih3 =>
    obtain ⟨hr, hc⟩ := ih1 h
    simp only [exec, outside]
    rcases hbody : exec body σ with ⟨r, τ⟩
    rcases hout : outside body with ⟨r', cs⟩
    rw [hbody, hout] at hr hc
    subst hr
    match r with
    | .ok () => exact ⟨rfl, hc⟩
    | .error (.program e) =>
      obtain ⟨hr', hc'⟩ := ih2 e hc.context
      exact ⟨hr', hc.trans hc'⟩
    | .error (.runtimeError m) =>
      obtain ⟨hr', hc'⟩ := ih3 hc.context
      exact ⟨hr', hc.trans hc'⟩

end BlockAux

open BlockAux

/-- Every program on units of work. Outside transactions it ends and commits as it means: a write outside is committed on its
own, and the writes inside an outermost transaction, those of blocks that raised and were caught included, are one commit when
it ends without an exception and none otherwise. Every block gives the active transaction back as it was. A block of another
unit of work inside an active transaction raises `RuntimeError` and changes nothing. -/
theorem unitOfWork_all_or_nothing (code : Code W E) (σ : State W) :
    (σ.transactionSession = none →
      (exec code σ).1 = (outside code).1 ∧ (exec code σ).2.commits = σ.commits ++ (outside code).2) ∧
    (∀ owner s, σ.transactionSession = some (owner, s) →
      (exec code σ).1 = (inside owner code).1 ∧ (exec code σ).2.commits = σ.commits) ∧
    (exec code σ).2.transactionSession = σ.transactionSession ∧
    ∀ owner s unitOfWork, σ.transactionSession = some (owner, s) → owner ≠ unitOfWork →
      exec (.transaction unitOfWork code) σ = (.error differentUnitOfWork, σ) ∧
      exec (.sessionScope unitOfWork code) σ = (.error differentUnitOfWork, σ) := by
  refine ⟨fun h => ?_, fun owner s h => ?_, ?_, fun owner s unitOfWork h hne => ⟨?_, ?_⟩⟩
  · obtain ⟨hr, hc⟩ := exec_outside code h
    exact ⟨hr, hc.commits⟩
  · obtain ⟨hr, hg⟩ := exec_inside code h
    exact ⟨hr, hg.commits⟩
  · cases h : σ.transactionSession with
    | none => exact (exec_outside code h).2.context
    | some p => exact (exec_inside code h).2.context.trans h
  · exact (transaction_joined h _).trans (if_neg hne)
  · exact (sessionScope_joined h _).trans (if_neg hne)

namespace CaughtInside

/-- A write, a transaction with a nested one that raises and is caught, and a transaction that raises. -/
def code : Code Nat Unit :=
  .seq (.write 0 1) <| .seq
    (.transaction 0 <| .seq (.write 0 2) <| .seq
      (.tryExcept (.transaction 0 (.seq (.write 0 3) (.raise ()))) (fun _ => .skip) .skip) (.write 0 4))
    (.tryExcept (.transaction 0 (.seq (.write 0 5) (.raise ()))) (fun _ => .skip) .skip)

def state : State Nat := ⟨none, fun _ => ⟨[], []⟩, 0, []⟩

end CaughtInside

open CaughtInside in
/-- An error that is caught inside an outermost block leaves its writes to the block's commit. -/
theorem unitOfWork_all_or_nothing_caught_inside : (exec code state).2.commits = [[1], [2, 3, 4]] :=
  ((unitOfWork_all_or_nothing code state).1 rfl).2

end UnitOfWork

end AuthService
