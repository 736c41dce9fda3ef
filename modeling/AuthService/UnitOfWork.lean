import Mathlib

/-!
# Units of work

`UnitOfWork` (services/unit_of_work.py) and the `_persist` of the repositories. A context variable holds the session of the
active transaction with the unit of work that opened it. A nested `transaction()` or `session_scope()` of the same unit of work
joins it. Programs are trees of blocks, repository writes and exceptions.
-/

namespace AuthService

namespace UnitOfWork

variable {W E : Type}

/-- The identity of a unit of work (`_context_owner`). -/
abbrev Owner := Nat

/-- A program: the blocks that it opens, its repository writes, and the exceptions that it raises and catches. -/
inductive Code (W E : Type) : Type
  | skip
  | write (unitOfWork : Owner) (w : W)
  | sessionScope (unitOfWork : Owner) (body : Code W E)
  | transaction (unitOfWork : Owner) (body : Code W E)
  | seq (first second : Code W E)
  | raise (e : E)
  | tryExcept (body : Code W E) (handler : E → Code W E) (onRuntimeError : Code W E)

/-- An exception of the program, or the `RuntimeError` of a unit of work inside the transaction of another. -/
inductive Raised (E : Type) where
  | program (e : E)
  | runtimeError (message : String)
  deriving DecidableEq, Repr

/-- What an `AsyncSession` holds: objects that were added, and the writes that were flushed to its database transaction. -/
structure Session (W : Type) where
  added : List W
  flushed : List W
  deriving DecidableEq, Repr

/-- All writes of a session that are not committed. -/
def Session.pending (s : Session W) : List W := s.flushed ++ s.added

/-- The context variable, the sessions that the factory has made, and the commits, each with its writes. -/
structure State (W : Type) where
  transactionSession : Option (Owner × Nat)
  sessions : Nat → Session W
  made : Nat
  commits : List (List W)

namespace State

variable (σ : State W) (s : Nat)

/-- `session_factory()`: a new session. -/
def newSession : State W := { σ with sessions := Function.update σ.sessions σ.made ⟨[], []⟩, made := σ.made + 1 }

/-- `session.add`. -/
def add (w : W) : State W :=
  { σ with sessions := Function.update σ.sessions s { σ.sessions s with added := (σ.sessions s).added ++ [w] } }

/-- `session.flush`. -/
def flush : State W := { σ with sessions := Function.update σ.sessions s ⟨[], (σ.sessions s).pending⟩ }

/-- `session.commit`. -/
def commit : State W :=
  { σ with sessions := Function.update σ.sessions s ⟨[], []⟩, commits := σ.commits ++ [(σ.sessions s).pending] }

/-- `session.rollback`, and the close of a session. -/
def rollback : State W := { σ with sessions := Function.update σ.sessions s ⟨[], []⟩ }

/-- `is_transaction_session`. -/
def isTransactionSession (unitOfWork : Owner) : Bool := σ.transactionSession = some (unitOfWork, s)

/-- `_persist`. -/
def persist (unitOfWork : Owner) : State W := if σ.isTransactionSession s unitOfWork then σ.flush s else σ.commit s

end State

/-- A computation with the state that may raise. -/
abbrev Block (W E : Type) := State W → Except (Raised E) Unit × State W

def differentUnitOfWork : Raised E :=
  .runtimeError "Cannot open a different UnitOfWork transaction inside an active transaction"

/-- `transaction()`. A block that joins runs as it is. The outermost one commits or rolls back, gives the context variable its
value back and closes its session. -/
def transaction (unitOfWork : Owner) (body : Block W E) : Block W E := fun σ =>
  match σ.transactionSession with
  | some (owner, _) => if owner = unitOfWork then body σ else (.error differentUnitOfWork, σ)
  | none =>
    let session := σ.made
    let (result, τ) := body { σ.newSession with transactionSession := some (unitOfWork, session) }
    let τ := match result with
      | .ok () => τ.commit session
      | .error _ => τ.rollback session
    (result, ({ τ with transactionSession := σ.transactionSession }).rollback session)

/-- `session_scope()`. -/
def sessionScope (unitOfWork : Owner) (body : Nat → Block W E) : Block W E := fun σ =>
  match σ.transactionSession with
  | some (owner, session) => if owner = unitOfWork then body session σ else (.error differentUnitOfWork, σ)
  | none =>
    let (result, τ) := body σ.made σ.newSession
    (result, τ.rollback σ.made)

/-- A write of a repository: the object is added to the session of a scope and persisted. -/
def repositoryWrite (unitOfWork : Owner) (w : W) : Block W E :=
  sessionScope unitOfWork fun session σ => (.ok (), (σ.add session w).persist session unitOfWork)

/-- A program on the units of work. -/
def exec : Code W E → Block W E
  | .skip => fun σ => (.ok (), σ)
  | .write unitOfWork w => repositoryWrite unitOfWork w
  | .sessionScope unitOfWork body => sessionScope unitOfWork fun _ => exec body
  | .transaction unitOfWork body => transaction unitOfWork (exec body)
  | .seq first second => fun σ =>
    match exec first σ with
    | (.ok (), τ) => exec second τ
    | (.error e, τ) => (.error e, τ)
  | .raise e => fun σ => (.error (.program e), σ)
  | .tryExcept body handler onRuntimeError => fun σ =>
    match exec body σ with
    | (.ok (), τ) => (.ok (), τ)
    | (.error (.program e), τ) => exec (handler e) τ
    | (.error (.runtimeError _), τ) => exec onRuntimeError τ

/-! ## What a program means -/

/-- A program inside a transaction of `owner`: how it ends, and the writes it makes, in order. -/
def inside (owner : Owner) : Code W E → Except (Raised E) Unit × List W
  | .skip => (.ok (), [])
  | .write unitOfWork w => if owner = unitOfWork then (.ok (), [w]) else (.error differentUnitOfWork, [])
  | .sessionScope unitOfWork body => if owner = unitOfWork then inside owner body else (.error differentUnitOfWork, [])
  | .transaction unitOfWork body => if owner = unitOfWork then inside owner body else (.error differentUnitOfWork, [])
  | .seq first second =>
    match inside owner first with
    | (.ok (), ws) => ((inside owner second).1, ws ++ (inside owner second).2)
    | (.error e, ws) => (.error e, ws)
  | .raise e => (.error (.program e), [])
  | .tryExcept body handler onRuntimeError =>
    match inside owner body with
    | (.ok (), ws) => (.ok (), ws)
    | (.error (.program e), ws) => ((inside owner (handler e)).1, ws ++ (inside owner (handler e)).2)
    | (.error (.runtimeError _), ws) => ((inside owner onRuntimeError).1, ws ++ (inside owner onRuntimeError).2)

/-- A program outside any transaction: how it ends, and its commits. A write is a commit of its own. An outermost transaction
is one commit of all its writes when it ends without an exception, and none otherwise. -/
def outside : Code W E → Except (Raised E) Unit × List (List W)
  | .skip => (.ok (), [])
  | .write _ w => (.ok (), [[w]])
  | .sessionScope _ body => outside body
  | .transaction unitOfWork body =>
    match inside unitOfWork body with
    | (.ok (), ws) => (.ok (), [ws])
    | (.error e, _) => (.error e, [])
  | .seq first second =>
    match outside first with
    | (.ok (), cs) => ((outside second).1, cs ++ (outside second).2)
    | (.error e, cs) => (.error e, cs)
  | .raise e => (.error (.program e), [])
  | .tryExcept body handler onRuntimeError =>
    match outside body with
    | (.ok (), cs) => (.ok (), cs)
    | (.error (.program e), cs) => ((outside (handler e)).1, cs ++ (outside (handler e)).2)
    | (.error (.runtimeError _), cs) => ((outside onRuntimeError).1, cs ++ (outside onRuntimeError).2)

end UnitOfWork

end AuthService
