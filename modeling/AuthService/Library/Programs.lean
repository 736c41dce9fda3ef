import Mathlib

/-!
# Programs that act and react

A program is a tree: it ends with a result, or performs an action and goes on with the answer. Results and answers may be
errors. An error ends a program unless `attempt` hands it to what follows.
-/

/-- A program with actions `A`, answers `R`, errors `ε` and results `α`. -/
inductive Prog (A : Type) (R : A → Type) (ε α : Type) : Type
  | done (result : Except ε α)
  | act (a : A) (next : Except ε (R a) → Prog A R ε α)

namespace Prog

variable {A : Type} {R : A → Type} {ε α β γ : Type}

/-- One program after another. An error skips the second. -/
def bind : Prog A R ε α → (α → Prog A R ε β) → Prog A R ε β
  | done (.ok a), f => f a
  | done (.error e), _ => done (.error e)
  | act a next, f => act a fun r => (next r).bind f

instance : Monad (Prog A R ε) where
  pure a := done (.ok a)
  bind := bind

/-- The program that fails. -/
def throw (e : ε) : Prog A R ε α := done (.error e)

/-- The program with its error as a result. -/
def attempt : Prog A R ε α → Prog A R ε (Except ε α)
  | done r => done (.ok r)
  | act a next => act a fun r => (next r).attempt

/-- A single action. -/
def perform (a : A) : Prog A R ε (R a) := act a done

/-- A program for each element of a list, in order. -/
def each (f : α → Prog A R ε Unit) : List α → Prog A R ε Unit
  | [] => pure ()
  | x :: xs => do
    f x
    each f xs

@[simp] theorem pure_eq (a : α) : (pure a : Prog A R ε α) = done (.ok a) := rfl

@[simp] theorem done_ok_bind (a : α) (f : α → Prog A R ε β) : (done (.ok a) >>= f) = f a := rfl

@[simp] theorem done_error_bind (e : ε) (f : α → Prog A R ε β) : (done (.error e) >>= f) = done (.error e) := rfl

@[simp] theorem throw_bind (e : ε) (f : α → Prog A R ε β) : (throw e >>= f) = throw e := rfl

@[simp] theorem act_bind (a : A) (next : Except ε (R a) → Prog A R ε α) (f : α → Prog A R ε β) :
    (act a next >>= f) = act a fun r => next r >>= f := rfl

@[simp] theorem attempt_done (r : Except ε α) : (done r : Prog A R ε α).attempt = done (.ok r) := rfl

@[simp] theorem attempt_act (a : A) (next : Except ε (R a) → Prog A R ε α) :
    (act a next).attempt = act a fun r => (next r).attempt := rfl

/-! ## What a program does on every path -/

/-- On every path along which the answers meet `ok`, the actions meet `emits` and the result meets `Q`. -/
def Always (ok : (a : A) → Except ε (R a) → Prop) (emits : A → Prop) (Q : Except ε α → Prop) : Prog A R ε α → Prop
  | done r => Q r
  | act a next => emits a ∧ ∀ r, ok a r → (next r).Always ok emits Q

/-- Every action of the program meets a predicate, whatever the answers. -/
def Emits (emits : A → Prop) (p : Prog A R ε α) : Prop := p.Always (fun _ _ => True) emits (fun _ => True)

variable {ok : (a : A) → Except ε (R a) → Prop} {emits emits' : A → Prop} {Q Q' : Except ε α → Prop}

/-- More actions may be allowed and less asked of the result. -/
theorem Always.mono {p : Prog A R ε α} (h : p.Always ok emits Q) (he : ∀ a, emits a → emits' a)
    (hq : ∀ r, Q r → Q' r) : p.Always ok emits' Q' := by
  induction p with
  | done r => exact hq r h
  | act a next ih => exact ⟨he a h.1, fun r hr => ih r (h.2 r hr)⟩

/-- A program and what follows its results and errors. -/
theorem Always.bind {p : Prog A R ε α} {f : α → Prog A R ε β} {Q : Except ε α → Prop} {S : Except ε β → Prop}
    (h : p.Always ok emits Q) (hok : ∀ a, Q (.ok a) → (f a).Always ok emits S) (herr : ∀ e, Q (.error e) → S (.error e)) :
    (p >>= f).Always ok emits S := by
  induction p with
  | done r =>
    cases r with
    | ok a => exact hok a h
    | error e => exact herr e h
  | act a next ih => exact ⟨h.1, fun r hr => ih r (h.2 r hr)⟩

/-- A program whose errors are caught has a result. -/
theorem Always.attempt {p : Prog A R ε α} (h : p.Always ok emits Q) :
    p.attempt.Always ok emits (fun r => ∃ r', r = .ok r' ∧ Q r') := by
  induction p with
  | done r => exact ⟨r, rfl, h⟩
  | act a next ih => exact ⟨h.1, fun r hr => ih r (h.2 r hr)⟩

/-- More actions may be allowed. -/
theorem Emits.mono {p : Prog A R ε α} (h : p.Emits emits) (he : ∀ a, emits a → emits' a) : p.Emits emits' :=
  Always.mono h he fun _ _ => trivial

@[simp] theorem emits_done (r : Except ε α) : (done r : Prog A R ε α).Emits emits := trivial

@[simp] theorem emits_throw (e : ε) : (throw e : Prog A R ε α).Emits emits := trivial

/-- An action emits itself. -/
@[simp] theorem emits_act {a : A} {next : Except ε (R a) → Prog A R ε α} :
    (act a next).Emits emits ↔ emits a ∧ ∀ r, (next r).Emits emits := by
  simp [Emits, Always]

@[simp] theorem emits_perform {a : A} : (perform a : Prog A R ε (R a)).Emits emits ↔ emits a := by
  simp [perform]

/-- A program and what follows it. -/
theorem Emits.bind {p : Prog A R ε α} {f : α → Prog A R ε β} (h : p.Emits emits) (hf : ∀ a, (f a).Emits emits) :
    (p >>= f).Emits emits :=
  Always.bind h (fun a _ => hf a) fun _ _ => trivial

/-- Catching errors emits nothing. -/
theorem Emits.attempt {p : Prog A R ε α} (h : p.Emits emits) : p.attempt.Emits emits :=
  (Always.attempt h).mono (fun _ ha => ha) fun _ _ => trivial

/-- Wherever the program is about to perform an action, the action and what follows meet a predicate. -/
def Heads (φ : (a : A) → (Except ε (R a) → Prog A R ε α) → Prop) : Prog A R ε α → Prop
  | done _ => True
  | act a next => φ a next ∧ ∀ r, (next r).Heads φ

/-- What holds of all actions holds of the heads. -/
theorem Emits.heads {φ : (a : A) → (Except ε (R a) → Prog A R ε α) → Prop} {p : Prog A R ε α} (h : p.Emits emits)
    (hφ : ∀ a next, emits a → φ a next) : p.Heads φ := by
  induction p with
  | done r => trivial
  | act a next ih => exact ⟨hφ a next (emits_act.1 h).1, fun r => ih r ((emits_act.1 h).2 r)⟩

/-- Before a program comes one whose actions all meet the predicate. -/
theorem Emits.bind_heads {φ : (a : A) → (Except ε (R a) → Prog A R ε β) → Prop} {p : Prog A R ε α} {f : α → Prog A R ε β}
    (h : p.Emits emits) (hφ : ∀ a next, emits a → φ a next) (hf : ∀ a, (f a).Heads φ) : (p >>= f).Heads φ := by
  induction p with
  | done r =>
    cases r with
    | ok a => exact hf a
    | error e => trivial
  | act a next ih => exact ⟨hφ a _ (emits_act.1 h).1, fun r => ih r ((emits_act.1 h).2 r)⟩

/-- A program for each member of a list. -/
theorem Emits.each {f : α → Prog A R ε Unit} (h : ∀ x, (f x).Emits emits) (xs : List α) : (Prog.each f xs).Emits emits := by
  induction xs with
  | nil => trivial
  | cons x xs ih => exact (h x).bind fun _ => ih

/-! ## What a program computes -/

/-- The result of a program whose actions are functions of a state, and the state after it. -/
def eval {σ : Type} (handle : (a : A) → σ → Except ε (R a) × σ) : Prog A R ε α → σ → Except ε α × σ
  | done r, s => (r, s)
  | act a next, s => (next (handle a s).1).eval handle (handle a s).2

section Eval

variable {σ : Type} {handle : (a : A) → σ → Except ε (R a) × σ} {s s' : σ}

@[simp] theorem eval_done (r : Except ε α) (s : σ) : (done r : Prog A R ε α).eval handle s = (r, s) := rfl

@[simp] theorem eval_perform (a : A) (s : σ) : (perform a : Prog A R ε (R a)).eval handle s = handle a s := rfl

/-- After a result the next program is evaluated. -/
theorem eval_bind_ok {p : Prog A R ε α} {f : α → Prog A R ε β} {a : α} (h : p.eval handle s = (.ok a, s')) :
    (p >>= f).eval handle s = (f a).eval handle s' := by
  induction p generalizing s with
  | done r =>
    cases h
    rfl
  | act b next ih => exact ih _ h

/-- After an error nothing is evaluated. -/
theorem eval_bind_error {p : Prog A R ε α} {f : α → Prog A R ε β} {e : ε} (h : p.eval handle s = (.error e, s')) :
    (p >>= f).eval handle s = (.error e, s') := by
  induction p generalizing s with
  | done r =>
    cases h
    rfl
  | act b next ih => exact ih _ h

/-- The state is left by the program whose errors are caught. -/
theorem eval_attempt (p : Prog A R ε α) (s : σ) : p.attempt.eval handle s = (.ok (p.eval handle s).1, (p.eval handle s).2) := by
  induction p generalizing s with
  | done r => rfl
  | act b next ih => exact ih _ _

end Eval

end Prog
