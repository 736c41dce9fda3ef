import AuthService.Operations
import AuthService.Library.Solo

/-!
# The service when nothing disturbs a request

Rules for the statements and blocks of a request that runs alone and without failures.
-/

namespace AuthService

open ReadCommitted Serial

namespace SoloAux

variable {Γ : Ctx} {C : Passing (database Γ)} {me : Nat} {σ : Scene (database Γ)} {α β : Type}

/-- A query surely answers from the view. -/
theorem surely_query (q : Query) {Q : Except AuthError q.Answer → Scene (database Γ) → Prop}
    (h : ∀ env : Env, C.pass σ.env env → Q (.ok (q.answer Γ σ.view)) { σ with env := env }) :
    Surely C me Q (query q : Service Γ q.Answer) σ := h

/-- A call outside surely replies from the environment at some time. -/
theorem surely_call (x : Ext) {Q : Except AuthError x.Reply → Scene (database Γ) → Prop}
    (h : ∀ env : Env, C.pass σ.env env → Q (x.reply Γ me env).1 { σ with env := (x.reply Γ me env).2 }) :
    Surely C me Q (call x : Service Γ x.Reply) σ := h

theorem surely_utcnow {Q : Except AuthError DateTime → Scene (database Γ) → Prop}
    (h : ∀ env : Env, C.pass σ.env env → Q (.ok env.now) { σ with env := env }) : Surely C me Q (utcnow : Service Γ DateTime) σ := h

/-- A fresh id is surely drawn. -/
theorem surely_newId {Q : Except AuthError Uuid → Scene (database Γ) → Prop}
    (h : ∀ env : Env, C.pass σ.env env → Q (.ok env.ids) { σ with env := { env with ids := env.ids + 1 } }) :
    Surely C me Q (newId : Service Γ Uuid) σ := h

/-- An INSERT surely succeeds or fails as the view decides. -/
theorem surely_insert {w : Write} {Q : Except AuthError Unit → Scene (database Γ) → Prop}
    (hok : w.violates Γ σ.view = false → ∀ env : Env, C.pass σ.env env → Q (.ok ()) { σ with view := w.apply σ.view, env := env })
    (hbad : w.violates Γ σ.view = true → ∀ env : Env, C.pass σ.env env → Q (.error .integrity) { σ with env := env }) :
    Surely C me Q (insert w : Service Γ Unit) σ := by
  refine surely_perform fun env hpass => ?_
  cases hw : w.violates Γ σ.view with
  | false =>
    simp only [answer, hw]
    exact hok hw env hpass
  | true =>
    simp only [answer, hw]
    exact hbad hw env hpass

/-- A statement without violations surely changes the rows it found. -/
theorem surely_statement {s : Stmt} {Q : Except AuthError (List Key) → Scene (database Γ) → Prop}
    (hok : ∀ w ∈ (s.rows σ.view).filterMap s.change, w.violates Γ σ.view = false)
    (h : ∀ env : Env, C.pass σ.env env → Q (.ok (s.rows σ.view))
      { σ with view := applyAll (D := database Γ) ((s.rows σ.view).filterMap s.change) σ.view, env := env }) :
    Surely C me Q (modify s : Service Γ (List Key)) σ := by
  refine surely_modify ?_ h
  intro w hw
  have hviolates := hok w hw
  simp [database, hviolates]

/-- The `UPDATE` of a loaded row that is still there. -/
theorem surely_updateRow {s : Stmt} {key : Key} {w : Write} {Q : Except AuthError Unit → Scene (database Γ) → Prop}
    (hrow : s.rows σ.view = [key]) (hchange : s.change key = some w) (hok : w.violates Γ σ.view = false)
    (h : ∀ env : Env, C.pass σ.env env → Q (.ok ()) { σ with view := w.apply σ.view, env := env }) :
    Surely C me Q (updateRow s : Service Γ Unit) σ := by
  have hws : (s.rows σ.view).filterMap s.change = [w] := by rw [hrow, List.filterMap_cons_some hchange, List.filterMap_nil]
  refine surely_bind (surely_statement ?_ fun env hpass => ?_)
  · intro w' hw'
    rw [hws] at hw'
    rw [List.mem_singleton.1 hw']
    exact hok
  · rw [hws, hrow]
    exact h env hpass

/-- A transaction surely starts from the committed tables. -/
theorem surely_begin {Q : Except AuthError Unit → Scene (database Γ) → Prop}
    (h : ∀ env : Env, C.pass σ.env env → Q (.ok ()) { σ with view := σ.store, env := env }) :
    Surely C me Q (begin : Service Γ Unit) σ := h

/-- A check surely passes or throws as its condition says. -/
theorem surely_require {c : Bool} {error : AuthError} {Q : Except AuthError Unit → Scene (database Γ) → Prop}
    (hok : c = true → Q (.ok ()) σ) (hbad : c = false → Q (.error error) σ) :
    Surely C me Q (require c error : Service Γ Unit) σ := by
  cases c with
  | true => exact hok rfl
  | false => exact hbad rfl

/-- A refresh surely returns the one row, or fails. -/
theorem surely_refreshed {xs : List α} {Q : Except AuthError α → Scene (database Γ) → Prop}
    (hone : ∀ x, xs = [x] → Q (.ok x) σ) (hother : Q (.error .database) σ) : Surely C me Q (refreshed xs : Service Γ α) σ := by
  rcases xs with _ | ⟨x, _ | ⟨y, ys⟩⟩
  · exact hother
  · exact hone x rfl
  · exact hother

/-- A refresh of one row surely returns it. -/
theorem surely_refreshedOne {xs : List α} {x : α} {Q : Except AuthError α → Scene (database Γ) → Prop} (hone : xs = [x])
    (h : Q (.ok x) σ) : Surely C me Q (refreshed xs : Service Γ α) σ := by
  rw [hone]
  exact h

/-- A transaction works on the committed store. Its writes are committed when it has a result, and dropped otherwise. -/
theorem surely_transaction {body : Service Γ α} {Q : Except AuthError α → Scene (database Γ) → Prop}
    (h : ∀ env : Env, C.pass σ.env env → Surely C me (fun r σ' => ∀ env' : Env, C.pass σ'.env env' →
      Q r (match r with
        | .ok _ => { σ' with store := σ'.view, env := env' }
        | .error _ => { σ' with view := σ'.store, env := env' })) body { σ with view := σ.store, env := env }) :
    Surely C me Q (transaction body) σ := by
  refine surely_bind (surely_begin fun env hpass => ?_)
  refine surely_bind (surely_attempt ((h env hpass).mono ?_))
  intro r σ' hQ
  cases r with
  | ok a => exact fun env' hpass' => hQ env' hpass'
  | error e => exact fun env' hpass' => hQ env' hpass'

/-! ## What time does -/

theorem reply_now (x : Ext) (env : Env) : (x.reply Γ me env).2.now = env.now := by
  cases x <;> rfl

/-- While time stands still, a program does not change the time. -/
theorem surely_now (p : Service Γ α) :
    Surely Passing.stopped me (fun _ σ' => Env.now σ'.env = Env.now σ.env) p σ := by
  induction p generalizing σ with
  | done r => exact rfl
  | act a next ih =>
    rintro env rfl
    refine (ih _).mono fun r σ' hσ' => hσ'.trans ?_
    cases a with
    | insert w =>
      simp only [answer]
      split <;> rfl
    | finish s found =>
      simp only [answer]
      split <;> rfl
    | ext x => exact reply_now x _
    | _ => rfl

end SoloAux

end AuthService
