import AuthService.Operations
import AuthService.Library.Solo

/-!
# The service on one host

The service with its limiter in memory, one request after the other and without failures. What a request leaves is a function of
what it finds: the tables, the limiter, and what the clocks show.
-/

namespace AuthService

open ReadCommitted Serial

variable {Γ : Ctx} {α : Type}

/-- The tables and the world as a request sees them, the limiter, what its clock will show at each reading, how often it was
read, and how many passwords were verified. -/
structure Host (Γ : Ctx) where
  scene : Scene (database Γ)
  limiter : InMemory.Limiter
  clock : Nat → ℚ
  readings : Nat
  verifications : Nat

/-- A host at rest. -/
def Host.atRest (S : Store) (env : Env) (L : InMemory.Limiter) (clock : Nat → ℚ) : Host Γ := ⟨⟨S, S, env⟩, L, clock, 0, 0⟩

/-- The action verifies a password. -/
def verifies : Act (database Γ) → Nat
  | .ext x => match (x : Ext) with
    | .verifyPassword .. => 1
    | _ => 0
  | _ => 0

/-- An action of a request. A record has no answer that anyone reads. -/
def handle (C : Clock) (S : LimiterSettings) (me : Nat) (a : Act (database Γ)) (h : Host Γ) :
    Except AuthError (Result (database Γ) a) × Host Γ :=
  let elsewhere := answer me a h.scene
  let other := (elsewhere.1, { h with scene := elsewhere.2, verifications := h.verifications + verifies a })
  match a, other with
  | .ext x, other => match (x : Ext), other with
    | .limiter op, _ =>
      let answered := InMemory.step C S (h.clock h.readings) op h.limiter
      (.ok (answered.1.getD true), { h with limiter := answered.2, readings := h.readings + 1 })
    | _, other => other
  | _, other => other

/-- An attempt to log in, and how long after the one before. -/
structure LoginAttempt where
  thread : Nat
  elapsed : Nat
  email : Text
  password : Text
  currentSessionToken : Option Text
  ipAddress : Option Text
  userAgent : Option Text
  deriving DecidableEq, Repr

/-- Time passes. -/
def Host.wait (n : Nat) (h : Host Γ) : Host Γ :=
  { h with scene := { h.scene with env := { h.scene.env with now := h.scene.env.now + n } } }

/-- What an attempt leads to. -/
def LoginAttempt.run (C : Clock) (S : LimiterSettings) (a : LoginAttempt) (h : Host Γ) :
    Except AuthError IssuedAuthSession × Host Γ :=
  (login a.email a.password a.currentSessionToken a.ipAddress a.userAgent).eval (handle C S a.thread) (h.wait a.elapsed)

/-- The outcomes of attempts, with the number of passwords that each verified, and the host after them. -/
def attempts (C : Clock) (S : LimiterSettings) :
    List LoginAttempt → Host Γ → List (Except AuthError IssuedAuthSession × Nat) × Host Γ
  | [], h => ([], h)
  | a :: as, h =>
    let first := a.run C S h
    let rest := attempts C S as first.2
    ((first.1, first.2.verifications - h.verifications) :: rest.1, rest.2)

end AuthService
