import AuthService.Library.Programs

/-!
# Programs that read an environment

A program whose actions read named variables. Its result and the names it reads are settled by the values of those names.
-/

namespace Prog

variable {N V ε α β : Type}

/-- The result in an environment. -/
def result (env : N → V) : Prog N (fun _ => V) ε α → Except ε α
  | done r => r
  | act n next => (next (.ok (env n))).result env

/-- The names read, in order. -/
def reads (env : N → V) : Prog N (fun _ => V) ε α → List N
  | done _ => []
  | act n next => n :: (next (.ok (env n))).reads env

variable {env env' : N → V}

@[simp] theorem result_done (r : Except ε α) : (done r : Prog N (fun _ => V) ε α).result env = r := rfl

@[simp] theorem result_perform (n : N) : (perform n : Prog N (fun _ => V) ε V).result env = .ok (env n) := rfl

@[simp] theorem reads_done (r : Except ε α) : (done r : Prog N (fun _ => V) ε α).reads env = [] := rfl

@[simp] theorem reads_perform (n : N) : (perform n : Prog N (fun _ => V) ε V).reads env = [n] := rfl

/-- A program that succeeds succeeds in both its parts. -/
theorem result_bind_ok {p : Prog N (fun _ => V) ε α} {f : α → Prog N (fun _ => V) ε β} {b : β}
    (h : (p >>= f).result env = .ok b) : ∃ a, p.result env = .ok a ∧ (f a).result env = .ok b ∧
      (p >>= f).reads env = p.reads env ++ (f a).reads env := by
  induction p with
  | done r =>
    cases r with
    | ok a => exact ⟨a, rfl, h, rfl⟩
    | error e => cases h
  | act n next ih =>
    obtain ⟨a, ha, hb, hreads⟩ := ih (.ok (env n)) h
    exact ⟨a, ha, hb, congrArg (n :: ·) hreads⟩

/-- Environments that agree on what a program reads lead it to the same result. -/
theorem result_congr {p : Prog N (fun _ => V) ε α} (h : ∀ n ∈ p.reads env, env' n = env n) :
    p.result env' = p.result env := by
  induction p with
  | done r => rfl
  | act n next ih =>
    have hn : env' n = env n := h n (List.mem_cons_self ..)
    rw [result, result, hn]
    exact ih _ fun m hm => h m (List.mem_cons_of_mem _ hm)

/-- A program reads what it may read. -/
theorem Emits.of_mem_reads {may : N → Prop} {p : Prog N (fun _ => V) ε α} (h : p.Emits may) : ∀ n ∈ p.reads env, may n := by
  induction p with
  | done r => nofun
  | act n next ih =>
    rw [emits_act] at h
    intro m hm
    rcases List.mem_cons.1 hm with rfl | hm
    · exact h.1
    · exact ih _ (h.2 _) m hm

/-- What holds of the result on every path holds in every environment. -/
theorem Always.result {may : N → Prop} {Q : Except ε α → Prop} {p : Prog N (fun _ => V) ε α}
    (h : p.Always (fun _ _ => True) may Q) : Q (p.result env) := by
  induction p with
  | done r => exact h
  | act n next ih => exact ih _ (h.2 _ trivial)

/-- A postcondition that errors meet is a matter of what comes last. -/
theorem Emits.then {may : N → Prop} {Q : Except ε β → Prop} {p : Prog N (fun _ => V) ε α} {f : α → Prog N (fun _ => V) ε β}
    (h : p.Emits may) (hf : ∀ a, (f a).Always (fun _ _ => True) may Q) (herr : ∀ e, Q (.error e)) :
    (p >>= f).Always (fun _ _ => True) may Q :=
  Always.bind h (fun a _ => hf a) fun e _ => herr e

end Prog
