import AuthService.Library.Programs

/-!
# Programs under a monitor

A monitor follows the actions of a program and their answers from stage to stage. It has a next stage for what it allows.
-/

namespace Prog

variable {A : Type} {R : A → Type} {ε α β σ : Type}

/-- The monitor allows every action of the program, whatever the answers, and the result and the last stage meet `Q`. -/
def Monitored (monitor : σ → (a : A) → Except ε (R a) → σ → Prop) (Q : Except ε α → σ → Prop) : Prog A R ε α → σ → Prop
  | done r, s => Q r s
  | act a next, s => ∀ r, ∃ s', monitor s a r s' ∧ (next r).Monitored monitor Q s'

variable {monitor : σ → (a : A) → Except ε (R a) → σ → Prop} {Q : Except ε α → σ → Prop} {s : σ}

/-- The monitor goes on through a bind. -/
theorem Monitored.bind {p : Prog A R ε α} {f : α → Prog A R ε β} {S : Except ε β → σ → Prop} (h : p.Monitored monitor Q s)
    (hok : ∀ a s, Q (.ok a) s → (f a).Monitored monitor S s) (herr : ∀ e s, Q (.error e) s → S (.error e) s) :
    (p >>= f).Monitored monitor S s := by
  induction p generalizing s with
  | done r =>
    cases r with
    | ok a => exact hok a s h
    | error e => exact herr e s h
  | act a next ih =>
    intro r
    obtain ⟨s', hs', hnext⟩ := h r
    exact ⟨s', hs', ih r hnext⟩

/-- Actions that the monitor does not look at leave the stage alone. -/
theorem Emits.monitored {emits : A → Prop} {p : Prog A R ε α} (h : p.Emits emits)
    (hquiet : ∀ a r, emits a → monitor s a r s) (hQ : ∀ r, Q r s) : p.Monitored monitor Q s := by
  induction p with
  | done r => exact hQ r
  | act a next ih =>
    obtain ⟨ha, hnext⟩ := emits_act.1 h
    exact fun r => ⟨s, hquiet a r ha, ih r (hnext r)⟩

end Prog
