import AuthService.Footprints

/-!
# Interleavings of operations

Any number of operations run at the same time on one database, statement by statement. Each operation is a thread.
-/

namespace AuthService

open ReadCommitted

variable (Γ : Ctx)

/-- The state of the database and of the threads. -/
abbrev Configuration := Config (database Γ) Outcome

/-- Runs of the threads. -/
abbrev Reaches : Configuration Γ → Configuration Γ → Prop := RelyGuarantee.Reaches (system (database Γ))

/-- A database without open transactions. -/
def atRest (store : Store) (env : Env) : Db (database Γ) := ⟨store, fun _ => none, fun _ => none, env, [], []⟩

/-- Thread `i` is about to start the operation `ops i`. -/
def start (ops : Nat → Op) (store : Store) (env : Env) : Configuration Γ := ⟨atRest Γ store env, fun i => program Γ (ops i)⟩

variable {Γ}

@[simp] theorem log_atRest (store : Store) (env : Env) (i : Nat) : (atRest Γ store env).log i = [] := rfl

@[simp] theorem view_atRest (store : Store) (env : Env) (i : Nat) : (atRest Γ store env).view i = store := rfl

/-- At rest no rows are locked. -/
theorem guarded_atRest (store : Store) (env : Env) : Guarded (atRest Γ store env) := by
  intro i w hw
  cases hw

/-! ## Transactions -/

section Transactions

open RelyGuarantee

variable {σ α : Type} {M : System (Act (database Γ)) (Result (database Γ)) AuthError σ} {C : Contract M} {i : Nat}
  {P B : σ → Prop} {Q S : α → σ → Prop}

/-- A transaction is its body between `begin` and `commit`. After an error of the body only the rollback matters. -/
theorem leads_transaction {body : Service Γ α} (hbegin : Leads C i P (begin : Service Γ Unit) fun _ => B)
    (hbody : Leads C i B body Q) (hcommit : ∀ a, Leads C i (Q a) (commit : Service Γ Unit) fun _ => S a)
    (hS : ∀ a, Stable C i (S a)) (hrollback : Leads C i (fun _ => True) (rollback : Service Γ Unit) fun _ _ => True) :
    Leads C i P (transaction body) S :=
  leads_bind hbegin fun _ => leads_attempt_bind hbody
    (fun a => leads_bind (hcommit a) fun _ => leads_pure (hS a) fun _ h => h)
    fun e => leads_bind hrollback fun _ => leads_throw e

end Transactions

end AuthService
