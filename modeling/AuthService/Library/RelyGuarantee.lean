import AuthService.Library.Programs

/-!
# Threads that interleave

Any number of programs run on one state, one action at a time in any order. A contract says what each thread may rely on
between its actions and what it guarantees of each of them. A program satisfies the contract when this holds along all its
paths, and threads that all do so keep the contract's invariant in every run.
-/

namespace RelyGuarantee

variable {A : Type} {R : A → Type} {ε α β σ : Type}

/-- How an action of a thread changes the state, and how the state changes by itself. -/
structure System (A : Type) (R : A → Type) (ε σ : Type) where
  exec : Nat → (a : A) → σ → Except ε (R a) → σ → Prop
  drift : σ → σ → Prop

/-- The actions that meet a condition on the state before them. -/
def System.restrict (M : System A R ε σ) (ok : Nat → A → σ → Prop) : System A R ε σ :=
  { M with exec := fun i a s r s' => ok i a s ∧ M.exec i a s r s' }

/-- The state and what is left of each thread's program. -/
structure Config (A : Type) (R : A → Type) (ε α σ : Type) where
  state : σ
  threads : Nat → Prog A R ε α

/-- One action of one thread, or a change of the state by itself. -/
inductive Step (M : System A R ε σ) : Config A R ε α σ → Config A R ε α σ → Prop
  | thread {c : Config A R ε α σ} {i : Nat} {a : A} {next : Except ε (R a) → Prog A R ε α} {r : Except ε (R a)} {s : σ} :
      c.threads i = .act a next → M.exec i a c.state r s → Step M c ⟨s, Function.update c.threads i (next r)⟩
  | drift {c : Config A R ε α σ} {s : σ} : M.drift c.state s → Step M c ⟨s, c.threads⟩

/-- A run. -/
def Reaches (M : System A R ε σ) : Config A R ε α σ → Config A R ε α σ → Prop := Relation.ReflTransGen (Step M)

/-- A run whose actions meet a condition is a run. -/
theorem reaches_of_restrict {M : System A R ε σ} {ok : Nat → A → σ → Prop} {c c' : Config A R ε α σ}
    (h : Reaches (M.restrict ok) c c') : Reaches M c c' := by
  induction h with
  | refl => exact Relation.ReflTransGen.refl
  | tail _ hstep ih =>
    refine ih.tail ?_
    cases hstep with
    | thread hthread hexec => exact Step.thread hthread hexec.2
    | drift hdrift => exact Step.drift hdrift

/-- The first steps of a sequence of configurations are steps of a run. -/
def IsRun (M : System A R ε σ) (run : Nat → Config A R ε α σ) (n : Nat) : Prop := ∀ k < n, Step M (run k) (run (k + 1))

/-- Later moments of a run are reached from earlier ones. -/
theorem reaches_of_isRun {M : System A R ε σ} {run : Nat → Config A R ε α σ} {n k : Nat} (h : IsRun M run n) (hk : k ≤ n) :
    Reaches M (run k) (run n) := by
  induction n with
  | zero =>
    obtain rfl := Nat.le_zero.1 hk
    exact Relation.ReflTransGen.refl
  | succ n ih =>
    rcases Nat.le_succ_iff.1 hk with hk | rfl
    · exact (ih (fun j hj => h j (Nat.lt_succ_of_lt hj)) hk).tail (h n (Nat.lt_succ_self n))
    · exact Relation.ReflTransGen.refl

/-- What is reached is reached step by step. -/
theorem exists_isRun {M : System A R ε σ} {c c' : Config A R ε α σ} (h : Reaches M c c') :
    ∃ run n, IsRun M run n ∧ run 0 = c ∧ run n = c' := by
  induction h with
  | refl => exact ⟨fun _ => c, 0, nofun, rfl, rfl⟩
  | @tail b c' _ hstep ih =>
    obtain ⟨run, n, hrun, hfirst, hlast⟩ := ih
    refine ⟨Function.update run (n + 1) c', n + 1, fun k hk => ?_, ?_, Function.update_self ..⟩
    · rw [Function.update_of_ne (Nat.ne_of_lt hk)]
      rcases Nat.lt_succ_iff_lt_or_eq.1 hk with hk | rfl
      · rw [Function.update_of_ne (by omega)]
        exact hrun k hk
      · rw [Function.update_self, hlast]
        exact hstep
    · rw [Function.update_of_ne (by omega), hfirst]

/-- What threads may rely on and what they guarantee, around an invariant of the state. -/
structure Contract (M : System A R ε σ) where
  inv : σ → Prop
  rely : Nat → σ → σ → Prop
  guar : Nat → σ → σ → Prop
  rely_refl : ∀ i s, rely i s s
  rely_trans : ∀ {i s s' s''}, rely i s s' → rely i s' s'' → rely i s s''
  guar_rely : ∀ {i j s s'}, i ≠ j → inv s → inv s' → guar j s s' → rely i s s'
  drift_inv : ∀ {s s'}, inv s → M.drift s s' → inv s'
  drift_rely : ∀ {i s s'}, inv s → M.drift s s' → rely i s s'

variable {M : System A R ε σ} (C : Contract M)

/-- The program of thread `i` keeps the contract from a state on, whatever the others do, and ends with `Q`. -/
def Sat (i : Nat) (Q : Except ε α → σ → Prop) : Prog A R ε α → σ → Prop
  | .done r, s => ∀ s', C.rely i s s' → Q r s'
  | .act a next, s => ∀ s', C.rely i s s' → C.inv s' → ∀ r s'', M.exec i a s' r s'' →
      C.inv s'' ∧ C.guar i s' s'' ∧ Sat i Q (next r) s''

variable {C} {i : Nat}

/-- What other threads do keeps a program's promise. -/
theorem Sat.rely {Q : Except ε α → σ → Prop} {p : Prog A R ε α} {s s' : σ} (h : Sat C i Q p s) (hr : C.rely i s s') :
    Sat C i Q p s' := by
  cases p with
  | done r => exact fun s'' hr' => h s'' (C.rely_trans hr hr')
  | act a next => exact fun s'' hr' => h s'' (C.rely_trans hr hr')

/-- Threads that satisfy the contract keep it in every run. -/
theorem sat_of_reaches {Q : Nat → Except ε α → σ → Prop} {c c' : Config A R ε α σ} (hinv : C.inv c.state)
    (hsat : ∀ i, Sat C i (Q i) (c.threads i) c.state) (h : Reaches M c c') :
    C.inv c'.state ∧ ∀ i, Sat C i (Q i) (c'.threads i) c'.state := by
  induction h with
  | refl => exact ⟨hinv, hsat⟩
  | tail _ hstep ih =>
    obtain ⟨hinv, hsat⟩ := ih
    cases hstep with
    | @thread j a next r s hthread hexec =>
      have hj := hsat j
      rw [hthread] at hj
      obtain ⟨hinv', hguar, hnext⟩ := hj _ (C.rely_refl j _) hinv r s hexec
      refine ⟨hinv', fun i => ?_⟩
      by_cases hij : i = j
      · subst hij
        simpa only [Function.update_self] using hnext
      · simpa only [Function.update_of_ne hij] using (hsat i).rely (C.guar_rely hij hinv hinv' hguar)
    | drift hdrift => exact ⟨C.drift_inv hinv hdrift, fun i => (hsat i).rely (C.drift_rely hinv hdrift)⟩

/-- Every action of a run is guaranteed. -/
theorem guar_of_step {Q : Nat → Except ε α → σ → Prop} {c c' : Config A R ε α σ} (hinv : C.inv c.state)
    (hsat : ∀ i, Sat C i (Q i) (c.threads i) c.state) (h : Step M c c') :
    M.drift c.state c'.state ∨ ∃ i, C.guar i c.state c'.state := by
  cases h with
  | @thread j a next r s hthread hexec =>
    have hj := hsat j
    rw [hthread] at hj
    exact Or.inr ⟨j, (hj _ (C.rely_refl j _) hinv r s hexec).2.1⟩
  | drift hdrift => exact Or.inl hdrift

/-- What every action and the passing of time keep between two states, a run keeps. -/
theorem rel_of_reaches {Q : Nat → Except ε α → σ → Prop} {G : σ → σ → Prop} (hrefl : ∀ s, G s s)
    (htrans : ∀ {s s' s''}, G s s' → G s' s'' → G s s'') (hguar : ∀ {i s s'}, C.guar i s s' → G s s')
    (hdrift : ∀ {s s'}, M.drift s s' → G s s') {c c' : Config A R ε α σ} (hinv : C.inv c.state)
    (hsat : ∀ i, Sat C i (Q i) (c.threads i) c.state) (h : Reaches M c c') : G c.state c'.state := by
  induction h with
  | refl => exact hrefl _
  | tail hr hstep ih =>
    obtain ⟨hinv', hsat'⟩ := sat_of_reaches hinv hsat hr
    rcases guar_of_step hinv' hsat' hstep with hd | ⟨i, hg⟩
    · exact htrans ih (hdrift hd)
    · exact htrans ih (hguar hg)

/-- What holds wherever a thread is about to act holds so in every run. -/
theorem heads_of_reaches {φ : (a : A) → (Except ε (R a) → Prog A R ε α) → Prop} {c c' : Config A R ε α σ} {i : Nat}
    (hp : (c.threads i).Heads φ) (h : Reaches M c c') : (c'.threads i).Heads φ := by
  induction h with
  | refl => exact hp
  | tail _ hstep ih =>
    cases hstep with
    | @thread j a next r s hthread _ =>
      by_cases hij : i = j
      · subst hij
        rw [hthread] at ih
        simpa only [Function.update_self] using ih.2 r
      · simpa only [Function.update_of_ne hij] using ih
    | drift _ => exact ih

/-- A thread that has ended stays so. -/
theorem done_of_reaches {c c' : Config A R ε α σ} {i : Nat} {r : Except ε α} (hp : c.threads i = .done r)
    (h : Reaches M c c') : c'.threads i = .done r := by
  induction h with
  | refl => exact hp
  | tail _ hstep ih =>
    cases hstep with
    | @thread j a next r s hthread _ =>
      by_cases hij : i = j
      · subst hij
        rw [hthread] at ih
        cases ih
      · simpa only [Function.update_of_ne hij] using ih
    | drift _ => exact ih

/-! ## Assertions and triples -/

variable (C i) in
/-- The other threads keep the assertion. -/
def Stable (P : σ → Prop) : Prop := ∀ {s s'}, P s → C.rely i s s' → P s'

variable (C i) in
/-- From every state with `P` the program keeps the contract and ends with `Q`. -/
def Triple (P : σ → Prop) (p : Prog A R ε α) (Q : Except ε α → σ → Prop) : Prop := ∀ s, P s → Sat C i Q p s

variable {P P' : σ → Prop}

/-- A program that is done promises what holds of its result. -/
theorem triple_done {Q : Except ε α → σ → Prop} {r : Except ε α} (hs : Stable C i (Q r)) (h : ∀ s, P s → Q r s) :
    Triple C i P (.done r : Prog A R ε α) Q := by
  intro s hP s' hr
  exact hs (h s hP) hr

/-- A program that acts first promises what the rest promises after the action. -/
theorem triple_act {Q : Except ε α → σ → Prop} {a : A} {next : Except ε (R a) → Prog A R ε α} (hP : Stable C i P)
    (P' : Except ε (R a) → σ → Prop)
    (hexec : ∀ {s r s'}, P s → C.inv s → M.exec i a s r s' → C.inv s' ∧ C.guar i s s' ∧ P' r s')
    (hnext : ∀ r, Triple C i (P' r) (next r) Q) : Triple C i P (.act a next) Q := by
  intro s hs s' hr hinv r s'' he
  obtain ⟨hinv', hguar, hP'⟩ := hexec (hP hs hr) hinv he
  exact ⟨hinv', hguar, hnext r s'' hP'⟩

/-- A promise of a bind is composed of its parts' promises. -/
theorem Sat.bind {p : Prog A R ε α} {f : α → Prog A R ε β} {Q : Except ε α → σ → Prop} {S : Except ε β → σ → Prop} {s : σ}
    (h : Sat C i Q p s) (hok : ∀ a s, Q (.ok a) s → Sat C i S (f a) s) (herr : ∀ e s, Q (.error e) s → S (.error e) s) :
    Sat C i S (p >>= f) s := by
  induction p generalizing s with
  | done r =>
    cases r with
    | ok a => exact hok a s (h s (C.rely_refl i s))
    | error e => exact fun s' hr => herr e s' (h s' hr)
  | act a next ih =>
    intro s' hr hinv r s'' he
    obtain ⟨hinv', hguar, hnext⟩ := h s' hr hinv r s'' he
    exact ⟨hinv', hguar, ih r hnext⟩

/-- Triples compose along a bind. -/
theorem triple_bind {p : Prog A R ε α} {f : α → Prog A R ε β} {Q : Except ε α → σ → Prop} {S : Except ε β → σ → Prop}
    (h : Triple C i P p Q) (hok : ∀ a, Triple C i (Q (.ok a)) (f a) S) (herr : ∀ e s, Q (.error e) s → S (.error e) s) :
    Triple C i P (p >>= f) S :=
  fun s hs => (h s hs).bind (fun a s ha => hok a s ha) herr

/-- An attempt turns the result into a value. -/
theorem Sat.attempt {p : Prog A R ε α} {Q : Except ε α → σ → Prop} {s : σ} (h : Sat C i Q p s) :
    Sat C i (fun r s => ∃ r', r = .ok r' ∧ Q r' s) p.attempt s := by
  induction p generalizing s with
  | done r => exact fun s' hr => ⟨r, rfl, h s' hr⟩
  | act a next ih =>
    intro s' hr hinv r s'' he
    obtain ⟨hinv', hguar, hnext⟩ := h s' hr hinv r s'' he
    exact ⟨hinv', hguar, ih r hnext⟩

/-- The triple of an attempt is that of its body. -/
theorem triple_attempt {p : Prog A R ε α} {Q : Except ε α → σ → Prop} (h : Triple C i P p Q) :
    Triple C i P p.attempt (fun r s => ∃ r', r = .ok r' ∧ Q r' s) :=
  fun s hs => (h s hs).attempt

/-- A promise may be weakened. -/
theorem Sat.conseq {p : Prog A R ε α} {Q Q' : Except ε α → σ → Prop} {s : σ} (h : Sat C i Q p s)
    (hQ : ∀ r s, Q r s → Q' r s) : Sat C i Q' p s := by
  induction p generalizing s with
  | done r => exact fun s' hr => hQ r s' (h s' hr)
  | act a next ih =>
    intro s' hr hinv r s'' he
    obtain ⟨hinv', hguar, hnext⟩ := h s' hr hinv r s'' he
    exact ⟨hinv', hguar, ih r hnext⟩

/-- The rule of consequence. -/
theorem triple_conseq {p : Prog A R ε α} {Q Q' : Except ε α → σ → Prop} (h : Triple C i P p Q) (hP : ∀ s, P' s → P s)
    (hQ : ∀ r s, Q r s → Q' r s) : Triple C i P' p Q' :=
  fun s hs => (h s (hP s hs)).conseq hQ

/-- A program whose actions all keep an assertion keeps it. -/
theorem triple_of_always {ok : (a : A) → Except ε (R a) → Prop} {emits : A → Prop} {Q : Except ε α → Prop}
    (hP : Stable C i P) (hexec : ∀ {a s r s'}, emits a → P s → C.inv s → M.exec i a s r s' →
      C.inv s' ∧ C.guar i s s' ∧ P s' ∧ ok a r)
    {p : Prog A R ε α} (h : p.Always ok emits Q) : Triple C i P p (fun r s => P s ∧ Q r) := by
  intro s hs
  induction p generalizing s with
  | done r => exact fun s' hr => ⟨hP hs hr, h⟩
  | act a next ih =>
    intro s' hr hinv r s'' he
    obtain ⟨hinv', hguar, hP', hok⟩ := hexec h.1 (hP hs hr) hinv he
    exact ⟨hinv', hguar, ih r (h.2 r hok) s'' hP'⟩

/-- A program whose every action keeps an assertion keeps it. -/
theorem triple_of_emits {emits : A → Prop} (hP : Stable C i P)
    (hexec : ∀ {a s r s'}, emits a → P s → C.inv s → M.exec i a s r s' → C.inv s' ∧ C.guar i s s' ∧ P s')
    {p : Prog A R ε α} (h : p.Emits emits) : Triple C i P p (fun _ s => P s) :=
  triple_conseq (triple_of_always hP (fun ha hs hinv he => by
    obtain ⟨h1, h2, h3⟩ := hexec ha hs hinv he
    exact ⟨h1, h2, h3, trivial⟩) h) (fun _ hs => hs) (fun _ _ hs => hs.1)

/-! ## Triples about results only -/

variable (C i) in
/-- A triple that says nothing about the state after an error. -/
def Leads (P : σ → Prop) (p : Prog A R ε α) (Q : α → σ → Prop) : Prop :=
  Triple C i P p fun r s => ∀ a, r = .ok a → Q a s

/-- A pure program leads to what holds. -/
theorem leads_pure {Q : α → σ → Prop} {a : α} (hQ : Stable C i (Q a)) (h : ∀ s, P s → Q a s) :
    Leads C i P (.done (.ok a) : Prog A R ε α) Q := by
  intro s hs s' hr b hb
  obtain rfl := Except.ok.inj hb
  exact hQ (h s hs) hr

/-- A program that throws leads to anything. -/
theorem leads_throw {Q : α → σ → Prop} (e : ε) : Leads C i P (.done (.error e) : Prog A R ε α) Q :=
  fun _ _ _ _ _ hb => nomatch hb

/-- Leading composes along a bind. -/
theorem leads_bind {p : Prog A R ε α} {f : α → Prog A R ε β} {Q : α → σ → Prop} {S : β → σ → Prop} (h : Leads C i P p Q)
    (hf : ∀ a, Leads C i (Q a) (f a) S) : Leads C i P (p >>= f) S :=
  fun s hs => (h s hs).bind (fun a s ha => hf a s (ha a rfl)) fun _ _ _ _ hb => nomatch hb

/-- The rule of consequence for programs that return. -/
theorem leads_conseq {p : Prog A R ε α} {Q Q' : α → σ → Prop} (h : Leads C i P p Q) (hP : ∀ s, P' s → P s)
    (hQ : ∀ a s, Q a s → Q' a s) : Leads C i P' p Q' :=
  triple_conseq h hP fun _ s hs a ha => hQ a s (hs a ha)

/-- A single action. -/
theorem leads_perform {a : A} {Q : R a → σ → Prop} (hP : Stable C i P) (hQ : ∀ x, Stable C i (Q x))
    (h : ∀ {s r s'}, P s → C.inv s → M.exec i a s r s' → C.inv s' ∧ C.guar i s s' ∧ ∀ x, r = .ok x → Q x s') :
    Leads C i P (.perform a) Q := by
  intro s hs s' hr hinv r s'' he
  obtain ⟨hinv', hguar, hx⟩ := h (hP hs hr) hinv he
  exact ⟨hinv', hguar, fun s3 hr3 x hx' => hQ x (hx x hx') hr3⟩

/-- The result of a program, or its error, goes on. -/
theorem leads_attempt_bind {p : Prog A R ε α} {f : Except ε α → Prog A R ε β} {Q : α → σ → Prop} {S : β → σ → Prop}
    (h : Leads C i P p Q) (hok : ∀ a, Leads C i (Q a) (f (.ok a)) S)
    (herr : ∀ e, Leads C i (fun _ => True) (f (.error e)) S) : Leads C i P (p.attempt >>= f) S := by
  refine fun s hs => (h s hs).attempt.bind (fun r s hr => ?_) fun _ _ _ _ hb => nomatch hb
  obtain ⟨r', hr', hQ⟩ := hr
  obtain rfl := Except.ok.inj hr'
  cases r with
  | ok a => exact hok a s (hQ a rfl)
  | error e => exact herr e s trivial

end RelyGuarantee
