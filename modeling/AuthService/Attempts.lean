import AuthService.Operations

/-!
# Password attempts at the same time

Logins, registrations and account deletions over the limiter in memory. The limiter answers at once and its clock does not go
back. What the database and the rest of the world answer, and when, is left open.
-/

namespace AuthService

open ReadCommitted

variable {Γ : Ctx}

/-- The requests that check a password or count a failure. -/
def Op.isAttempt : Op → Bool
  | .login .. | .register .. | .deleteAccount .. => true
  | _ => false

namespace InMemory

/-- A call of the limiter: who called, when, what, and the answer. -/
structure Event where
  thread : Nat
  now : ℚ
  op : LimiterOp
  answer : Option Bool
  deriving DecidableEq

/-- The limiter, its clock, the calls so far, and what the requests still do. -/
structure Running (Γ : Ctx) where
  limiter : Limiter
  now : ℚ
  events : List Event
  threads : Nat → Service Γ Outcome

variable (C : Clock) (S : LimiterSettings)

/-- A call by a thread. -/
def Running.call (s : Running Γ) (i : Nat) (op : LimiterOp) (next : Except AuthError Bool → Service Γ Outcome) : Running Γ :=
  let answered := InMemory.step C S s.now op s.limiter
  { limiter := answered.2
    now := s.now
    events := s.events ++ [⟨i, s.now, op, answered.1⟩]
    threads := Function.update s.threads i (next (.ok (answered.1.getD true))) }

/-- Time passes, a thread calls the limiter, or it does something else and gets some answer. -/
inductive RunningStep : Running Γ → Running Γ → Prop
  | pass {s : Running Γ} {now : ℚ} (hnow : s.now ≤ now) : RunningStep s { s with now := now }
  | limiter {s : Running Γ} {i : Nat} {op : LimiterOp} {next : Except AuthError Bool → Service Γ Outcome}
      (hthread : s.threads i = .act (Act.ext (D := database Γ) (Ext.limiter op)) next) : RunningStep s (s.call C S i op next)
  | other {s : Running Γ} {i : Nat} {a : Act (database Γ)} {next : Except AuthError (Result (database Γ) a) → Service Γ Outcome}
      (hthread : s.threads i = .act a next) (ha : ∀ op, a ≠ Act.ext (D := database Γ) (Ext.limiter op))
      (r : Except AuthError (Result (database Γ) a)) :
      RunningStep s { s with threads := Function.update s.threads i (next r) }

/-- A new limiter, and requests that are about to start. -/
def Running.start (now : ℚ) (ops : Nat → Op) : Running Γ := ⟨.new, now, [], fun i => program Γ (ops i)⟩

/-- Runs of the requests. -/
def Interleaves (s s' : Running Γ) : Prop := Relation.ReflTransGen (RunningStep C S) s s'

end InMemory

end AuthService
