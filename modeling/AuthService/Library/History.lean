import AuthService.Library.ReadCommitted

/-!
# Histories

A run with a record of its actions and their answers. The record changes nothing: every run has one. What is counted in it here
are the grants of one lock.
-/

namespace ReadCommitted

open RelyGuarantee

/-- An action of a thread, and its answer. -/
structure Event (D : Database) where
  thread : Nat
  act : Act D
  result : Except D.Err (Result D act)

variable {D : Database} {α : Type}

variable (D) in
/-- The database with a record of what was done on it. -/
def recorded : System (Act D) (Result D) D.Err (Db D × List (Event D)) where
  exec i a s r s' := Effect i s.1 a r s'.1 ∧ s'.2 = s.2 ++ [⟨i, a, r⟩]
  drift s s' := (system D).drift s.1 s'.1 ∧ s'.2 = s.2

/-- Every run can be recorded. -/
theorem recorded_of_reaches {c c' : Config D α} (h : Reaches (system D) c c') (past : List (Event D)) :
    ∃ history, Reaches (recorded D) ⟨(c.state, past), c.threads⟩ ⟨(c'.state, history), c'.threads⟩ := by
  induction h with
  | refl => exact ⟨past, Relation.ReflTransGen.refl⟩
  | tail _ hstep ih =>
    obtain ⟨history, hreach⟩ := ih
    cases hstep with
    | @thread i a next r db hthread hexec =>
      exact ⟨history ++ [⟨i, a, r⟩], hreach.tail (Step.thread hthread ⟨hexec, rfl⟩)⟩
    | drift hdrift => exact ⟨history, hreach.tail (Step.drift ⟨hdrift, rfl⟩)⟩

/-! ## What the commits leave -/

/-- A commit that does not fail. -/
def Act.ends : (a : Act D) → Except D.Err (Result D a) → Bool
  | .commit, .ok _ => true
  | _, _ => false

variable (D) in
/-- The database with the commits so far: the threads, and the stores that they left. -/
def committing : System (Act D) (Result D) D.Err (Db D × List (Nat × D.Store)) where
  exec i a s r s' := Effect i s.1 a r s'.1 ∧ s'.2 = if a.ends r then s.2 ++ [(i, s'.1.store)] else s.2
  drift s s' := (system D).drift s.1 s'.1 ∧ s'.2 = s.2

/-- What follows a commit is a result. -/
def EndsAtCommit : (a : Act D) → (Except D.Err (Result D a) → Prog (Act D) (Result D) D.Err α) → Prop
  | .commit, next => ∀ x, ∃ r, next (.ok x) = .done r
  | _, _ => True

/-- A commit still ends the program when only a result follows. -/
theorem heads_bind_result {β : Type} {p : Prog (Act D) (Result D) D.Err α} {f : α → Prog (Act D) (Result D) D.Err β}
    (h : p.Heads EndsAtCommit) (hf : ∀ a, ∃ r, f a = .done r) : (p >>= f).Heads EndsAtCommit := by
  induction p with
  | done r =>
    cases r with
    | ok a =>
      obtain ⟨r, hr⟩ := hf a
      rw [Prog.done_ok_bind, hr]
      trivial
    | error e => trivial
  | act a next ih =>
    refine ⟨?_, fun r => ih r (h.2 r)⟩
    cases a with
    | commit =>
      intro x
      obtain ⟨r, hr⟩ := h.1 x
      show ∃ r, (next (.ok x) >>= f) = .done r
      rw [hr]
      cases r with
      | ok a => exact hf a
      | error e => exact ⟨_, rfl⟩
    | _ => trivial

/-- The commits of a run. Each leaves its store at a moment of the run, and when programs end at their commits, the thread that
committed has ended then. -/
theorem committing_of_isRun {run : Nat → Config D α} {n : Nat} (h : IsRun (system D) run n)
    (hheads : ∀ i, ((run 0).threads i).Heads EndsAtCommit) : ∃ ends,
      Reaches (committing D) ⟨((run 0).state, []), (run 0).threads⟩ ⟨((run n).state, ends), (run n).threads⟩ ∧
      ∀ e ∈ ends, ∃ k ≤ n, (run k).state.store = e.2 ∧ ∃ r, (run k).threads e.1 = .done r := by
  induction n with
  | zero => exact ⟨[], Relation.ReflTransGen.refl, nofun⟩
  | succ n ih =>
    obtain ⟨ends, hreach, hmoments⟩ := ih fun k hk => h k (Nat.lt_succ_of_lt hk)
    have hearlier : ∀ e ∈ ends, ∃ k ≤ n + 1, (run k).state.store = e.2 ∧ ∃ r, (run k).threads e.1 = .done r := by
      intro e he
      obtain ⟨k, hk, hmoment⟩ := hmoments e he
      exact ⟨k, Nat.le_succ_of_le hk, hmoment⟩
    have hlast := h n (Nat.lt_succ_self n)
    have hnow : ∀ i, ((run n).threads i).Heads EndsAtCommit := fun i =>
      heads_of_reaches (c := ⟨((run 0).state, []), (run 0).threads⟩) (hheads i) hreach
    generalize hc : run (n + 1) = c' at hlast hearlier ⊢
    cases hlast with
    | drift hdrift => exact ⟨ends, hreach.tail (Step.drift ⟨hdrift, rfl⟩), hearlier⟩
    | @thread i a next r db hthread hexec =>
      refine ⟨if a.ends r then ends ++ [(i, db.store)] else ends, hreach.tail (Step.thread hthread ⟨hexec, rfl⟩),
        fun e he => ?_⟩
      cases hends : a.ends r with
      | false =>
        rw [hends] at he
        exact hearlier e he
      | true =>
        rw [hends] at he
        rcases List.mem_append.1 he with he | he
        · exact hearlier e he
        · rw [List.mem_singleton.1 he]
          refine ⟨n + 1, le_refl _, by rw [hc], ?_⟩
          have hhead := hnow i
          rw [hthread] at hhead
          cases a with
          | commit =>
            cases r with
            | error e => cases hends
            | ok x =>
              obtain ⟨r, hr⟩ := hhead.1 x
              refine ⟨r, ?_⟩
              rw [hc]
              show Function.update _ i _ i = _
              rw [Function.update_self]
              exact hr
          | _ => cases hends

/-! ## Grants of a lock -/

/-- How often each thread was granted a lock since its last transaction ended, and how often transactions that committed had
been. -/
structure Grants where
  pending : Nat → Nat
  committed : Nat

/-- The grants of a lock after an event. -/
def Grants.after (k : D.Key) (g : Grants) (e : Event D) : Grants :=
  match e with
  | ⟨i, .tryLock k', .ok true⟩ => if k' = k then { g with pending := Function.update g.pending i (g.pending i + 1) } else g
  | ⟨i, .commit, .ok _⟩ => ⟨Function.update g.pending i 0, g.committed + g.pending i⟩
  | ⟨i, .commit, .error _⟩ => { g with pending := Function.update g.pending i 0 }
  | ⟨i, .rollback, _⟩ => { g with pending := Function.update g.pending i 0 }
  | _ => g

/-- The grants of a lock in a history. -/
def grants (k : D.Key) (history : List (Event D)) : Grants := history.foldl (Grants.after k) ⟨fun _ => 0, 0⟩

/-- The grants after one more event are those before it, and what it adds. -/
theorem grants_concat (k : D.Key) (history : List (Event D)) (e : Event D) :
    grants k (history ++ [e]) = (grants k history).after k e := by
  rw [grants, List.foldl_append]
  rfl

/-- What a thread does to the grants, it does to its own. -/
theorem Grants.after_pending (k : D.Key) (g : Grants) (e : Event D) {j : Nat} (hj : j ≠ e.thread) :
    (g.after k e).pending j = g.pending j := by
  unfold Grants.after
  split
  · split
    · exact Function.update_of_ne hj _ _
    · rfl
  · exact Function.update_of_ne hj _ _
  · exact Function.update_of_ne hj _ _
  · exact Function.update_of_ne hj _ _
  · rfl

/-- Only a commit moves grants. -/
theorem Grants.after_committed (k : D.Key) (g : Grants) (e : Event D) (h : g.pending e.thread = 0) :
    (g.after k e).committed = g.committed := by
  unfold Grants.after
  split
  · split <;> rfl
  · show g.committed + g.pending _ = g.committed
    rw [show g.pending _ = 0 from h, Nat.add_zero]
  · rfl
  · rfl
  · rfl

/-- An action inside a transaction, other than a request for the lock, leaves the grants as they are. -/
theorem Grants.after_inside (k : D.Key) (g : Grants) {i : Nat} {a : Act D} (r : Except D.Err (Result D a))
    (ha : a.isBracket = false) (hk : a ≠ .tryLock k) : g.after k ⟨i, a, r⟩ = g := by
  cases a with
  | tryLock k' =>
    have hne : k' ≠ k := fun heq => hk (heq ▸ rfl)
    unfold Grants.after
    split
    · rename_i heq
      cases heq
      exact if_neg hne
    all_goals first | rfl | (rename_i heq; cases heq)
  | begin => cases ha
  | commit => cases ha
  | rollback => cases ha
  | _ => rfl

/-- Inside a transaction nothing is committed. -/
theorem Grants.after_open (k : D.Key) (g : Grants) {i : Nat} {a : Act D} (r : Except D.Err (Result D a))
    (ha : a.isBracket = false) : (g.after k ⟨i, a, r⟩).committed = g.committed := by
  by_cases hk : a = .tryLock k
  · subst hk
    unfold Grants.after
    split
    · split <;> rfl
    all_goals first | rfl | (rename_i heq; cases heq)
  · rw [Grants.after_inside k g r ha hk]

end ReadCommitted
