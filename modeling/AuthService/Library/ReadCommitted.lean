import AuthService.Library.RelyGuarantee

/-!
# Transactions at the isolation level READ COMMITTED

Threads send statements to one database. A statement reads the committed store and the writes of its own transaction. A
write locks its rows until the transaction ends, and a statement that needs a row another transaction has locked waits.
`UPDATE`, `DELETE` and `SELECT ... FOR UPDATE` find their rows when they start, and check them again, as they then are, when
they hold the locks. `tryLock` takes a lock if it is free, without waiting. A commit puts the writes of its transaction into the store at once. Any action may also fail.
-/

/-- What the transactions are about: a store and its row writes, the keys of rows (and of entries of unique indexes) that are
locked, queries, statements with a condition, constraints, and the world outside the database. -/
structure Database where
  Store : Type
  Write : Type
  Key : Type
  Query : Type
  Stmt : Type
  Ext : Type
  Env : Type
  Err : Type
  Answer : Query → Type
  Reply : Ext → Type
  decKey : DecidableEq Key
  apply : Write → Store → Store
  keys : Write → List Key
  answer : (q : Query) → Store → Answer q
  rows : Stmt → Store → List Key
  change : Stmt → Key → Option Write
  violation : Write → Store → Option Err
  reply : Nat → (x : Ext) → Env → Except Err (Reply x) × Env
  advance : Nat → Env → Env
  later : Env → Env → Prop
  later_refl : ∀ env, later env env
  later_trans : ∀ {a b c}, later a b → later b c → later a c
  reply_later : ∀ i x env, later env (reply i x env).2
  advance_later : ∀ n env, later env (advance n env)

namespace ReadCommitted

variable (D : Database)

instance : DecidableEq D.Key := D.decKey

instance instLawfulBEqKey : LawfulBEq D.Key := inferInstance

/-- What a thread asks of the database or of the world. -/
inductive Act
  | query (q : D.Query)
  | insert (w : D.Write)
  | start (s : D.Stmt)
  | finish (s : D.Stmt) (found : List D.Key)
  | tryLock (k : D.Key)
  | begin
  | commit
  | rollback
  | ext (x : D.Ext)

/-- The type of the answer. `start` and `finish` answer with the keys of rows. -/
def Result : Act D → Type
  | .query q => D.Answer q
  | .insert _ => Unit
  | .start _ => List D.Key
  | .finish _ _ => List D.Key
  | .tryLock _ => Bool
  | .begin => Unit
  | .commit => Unit
  | .rollback => Unit
  | .ext x => D.Reply x

/-- An open transaction: its writes, and the statements it has started. -/
structure Txn where
  log : List D.Write
  stmts : List D.Stmt

/-- A call to the world and its reply. -/
structure Call where
  thread : Nat
  ext : D.Ext
  reply : Except D.Err (D.Reply ext)

/-- The database and the world: the committed store, the open transactions, the locks, the committed writes with the threads
that made them, and the calls to the world. -/
structure Db where
  store : D.Store
  txn : Nat → Option (Txn D)
  owner : D.Key → Option Nat
  env : D.Env
  journal : List (Nat × D.Write)
  calls : List (Call D)

/-- Programs of threads. -/
abbrev Program := Prog (Act D) (Result D) D.Err

variable {D}

/-- Writes in order. -/
def applyAll (ws : List D.Write) (store : D.Store) : D.Store := ws.foldl (fun s w => D.apply w s) store

@[simp] theorem applyAll_nil (store : D.Store) : applyAll [] store = store := rfl

@[simp] theorem applyAll_cons (w : D.Write) (ws : List D.Write) (store : D.Store) :
    applyAll (w :: ws) store = applyAll ws (D.apply w store) := rfl

theorem applyAll_append (ws ws' : List D.Write) (store : D.Store) :
    applyAll (ws ++ ws') store = applyAll ws' (applyAll ws store) := List.foldl_append

/-- What every write keeps, a list of writes keeps. -/
theorem applyAll_induct {P : D.Store → Prop} {ws : List D.Write} {store : D.Store} (h : P store)
    (hstep : ∀ w ∈ ws, ∀ s, P s → P (D.apply w s)) : P (applyAll ws store) := by
  induction ws generalizing store with
  | nil => exact h
  | cons w ws ih => exact ih (hstep w List.mem_cons_self store h) fun w' hw' => hstep w' (List.mem_cons_of_mem _ hw')

namespace Db

/-- The writes of a thread's open transaction. -/
def log (db : Db D) (i : Nat) : List D.Write := ((db.txn i).map Txn.log).getD []

/-- The statements a thread's open transaction has started. -/
def stmts (db : Db D) (i : Nat) : List D.Stmt := ((db.txn i).map Txn.stmts).getD []

/-- What a statement of thread `i` reads. -/
def view (db : Db D) (i : Nat) : D.Store := applyAll (db.log i) db.store

/-- No other transaction holds a lock on the keys. -/
def free (db : Db D) (i : Nat) (keys : List D.Key) : Bool := keys.all fun k => db.owner k = none ∨ db.owner k = some i

/-- Writes of a transaction, with the locks on the keys. -/
def write (db : Db D) (i : Nat) (ws : List D.Write) (locked : List D.Key) : Db D :=
  { db with
    txn := Function.update db.txn i (some ⟨db.log i ++ ws, db.stmts i⟩)
    owner := fun k => if k ∈ locked ++ ws.flatMap D.keys then some i else db.owner k }

/-- A statement of a transaction has started. -/
def note (db : Db D) (i : Nat) (s : D.Stmt) : Db D :=
  { db with txn := Function.update db.txn i (some ⟨db.log i, db.stmts i ++ [s]⟩) }

/-- The transaction ends and its locks are released. -/
def release (db : Db D) (i : Nat) : Db D :=
  { db with
    txn := Function.update db.txn i none
    owner := fun k => if db.owner k = some i then none else db.owner k }

/-- The store of a commit. -/
def commit (db : Db D) (i : Nat) : Db D :=
  { db.release i with
    store := db.view i
    journal := db.journal ++ (db.log i).map fun w => (i, w) }

/-- A new transaction. -/
def begin (db : Db D) (i : Nat) : Db D := { db with txn := Function.update db.txn i (some ⟨[], []⟩) }

/-- An action that fails: the transaction stays open, unless it was to end. -/
def abort (db : Db D) (i : Nat) (e : D.Err) : Act D → Db D
  | .commit => db.release i
  | .rollback => db.release i
  | .ext x => { db with calls := db.calls ++ [⟨i, x, .error e⟩] }
  | _ => db

end Db

/-- The rows that a statement gets: those it found that still meet its condition. -/
def stillThere (db : Db D) (i : Nat) (s : D.Stmt) (found : List D.Key) : List D.Key :=
  found.filter (fun k => k ∈ D.rows s (db.view i))

/-- The writes of a statement. -/
def changes (db : Db D) (i : Nat) (s : D.Stmt) (found : List D.Key) : List D.Write :=
  (stillThere db i s found).filterMap (D.change s)

/-- One action of thread `i`. `none` when it has to wait. -/
def exec (i : Nat) (a : Act D) (db : Db D) : Option (Except D.Err (Result D a) × Db D) :=
  match a with
  | .query q => some (.ok (D.answer q (db.view i)), db)
  | .insert w =>
    if db.free i (D.keys w) then
      match D.violation w (db.view i) with
      | some e => some (.error e, db)
      | none => some (.ok (), db.write i [w] [])
    else none
  | .start s => some (.ok (D.rows s (db.view i)), db.note i s)
  | .finish s found =>
    if db.free i (found ++ (changes db i s found).flatMap D.keys) then
      match (changes db i s found).findSome? (fun w => D.violation w (db.view i)) with
      | some e => some (.error e, db)
      | none => some (.ok (stillThere db i s found), db.write i (changes db i s found) (stillThere db i s found))
    else none
  | .tryLock k => some (if db.free i [k] then (.ok true, db.write i [] [k]) else (.ok false, db))
  | .begin => some (.ok (), db.begin i)
  | .commit => some (.ok (), db.commit i)
  | .rollback => some (.ok (), db.release i)
  | .ext x =>
    let (r, env) := D.reply i x db.env
    some (r, { db with env := env, calls := db.calls ++ [⟨i, x, r⟩] })

/-- Everything an action can do. -/
inductive Effect (i : Nat) (db : Db D) : (a : Act D) → Except D.Err (Result D a) → Db D → Prop
  | query (q : D.Query) : Effect i db (.query q) (.ok (D.answer q (db.view i))) db
  | insert (w : D.Write) : db.free i (D.keys w) = true → D.violation w (db.view i) = none →
      Effect i db (.insert w) (.ok ()) (db.write i [w] [])
  | start (s : D.Stmt) : Effect i db (.start s) (.ok (D.rows s (db.view i))) (db.note i s)
  | finish (s : D.Stmt) (found : List D.Key) :
      db.free i (found ++ (changes db i s found).flatMap D.keys) = true →
      (∀ w ∈ changes db i s found, D.violation w (db.view i) = none) →
      Effect i db (.finish s found) (.ok (stillThere db i s found))
        (db.write i (changes db i s found) (stillThere db i s found))
  | locked (k : D.Key) : db.free i [k] = true → Effect i db (.tryLock k) (.ok true) (db.write i [] [k])
  | notLocked (k : D.Key) : Effect i db (.tryLock k) (.ok false) db
  | begin : Effect i db .begin (.ok ()) (db.begin i)
  | commit : Effect i db .commit (.ok ()) (db.commit i)
  | rollback : Effect i db .rollback (.ok ()) (db.release i)
  | ext (x : D.Ext) : Effect i db (.ext x) (D.reply i x db.env).1
      { db with env := (D.reply i x db.env).2, calls := db.calls ++ [⟨i, x, (D.reply i x db.env).1⟩] }
  | fault (a : Act D) (e : D.Err) : Effect i db a (.error e) (db.abort i e a)

/-- What an action does is one of its effects. -/
theorem exec_effect {i : Nat} {a : Act D} {db db' : Db D} {r : Except D.Err (Result D a)}
    (h : exec i a db = some (r, db')) : Effect i db a r db' := by
  cases a with
  | query q =>
    obtain ⟨rfl, rfl⟩ := Prod.mk.inj (Option.some.inj h)
    exact Effect.query q
  | insert w =>
    simp only [exec] at h
    split at h
    · rename_i hfree
      cases hv : D.violation w (db.view i) with
      | some e =>
        rw [hv] at h
        obtain ⟨rfl, rfl⟩ := Prod.mk.inj (Option.some.inj h)
        exact Effect.fault (.insert w) e
      | none =>
        rw [hv] at h
        obtain ⟨rfl, rfl⟩ := Prod.mk.inj (Option.some.inj h)
        exact Effect.insert w hfree hv
    · cases h
  | start s =>
    obtain ⟨rfl, rfl⟩ := Prod.mk.inj (Option.some.inj h)
    exact Effect.start s
  | finish s found =>
    simp only [exec] at h
    split at h
    · rename_i hfree
      cases hv : (changes db i s found).findSome? (fun w => D.violation w (db.view i)) with
      | some e =>
        rw [hv] at h
        obtain ⟨rfl, rfl⟩ := Prod.mk.inj (Option.some.inj h)
        exact Effect.fault (.finish s found) e
      | none =>
        rw [hv] at h
        obtain ⟨rfl, rfl⟩ := Prod.mk.inj (Option.some.inj h)
        exact Effect.finish s found hfree (List.findSome?_eq_none_iff.1 hv)
    · cases h
  | tryLock k =>
    have h := Option.some.inj h
    split at h
    · rename_i hfree
      obtain ⟨rfl, rfl⟩ := Prod.mk.inj h
      exact Effect.locked k hfree
    · obtain ⟨rfl, rfl⟩ := Prod.mk.inj h
      exact Effect.notLocked k
  | begin =>
    obtain ⟨rfl, rfl⟩ := Prod.mk.inj (Option.some.inj h)
    exact Effect.begin
  | commit =>
    obtain ⟨rfl, rfl⟩ := Prod.mk.inj (Option.some.inj h)
    exact Effect.commit
  | rollback =>
    obtain ⟨rfl, rfl⟩ := Prod.mk.inj (Option.some.inj h)
    exact Effect.rollback
  | ext x =>
    obtain ⟨rfl, rfl⟩ := Prod.mk.inj (Option.some.inj h)
    exact Effect.ext x

section Results

variable {i : Nat} {db db' : Db D}

/-- A query is answered from the view of its thread. -/
theorem Effect.answer {q : D.Query} {x : D.Answer q} (h : Effect i db (.query q) (.ok x) db') : x = D.answer q (db.view i) := by
  cases h
  rfl

/-- The start of a statement finds the rows of the view. -/
theorem Effect.started {s : D.Stmt} {found : List D.Key} (h : Effect i db (.start s) (.ok found) db') :
    found = D.rows s (db.view i) ∧ db' = db.note i s := by
  cases h
  exact ⟨rfl, rfl⟩

/-- The end of a statement changes the rows that still meet its condition. -/
theorem Effect.finished {s : D.Stmt} {found still : List D.Key} (h : Effect i db (.finish s found) (.ok still) db') :
    still = stillThere db i s found ∧ db' = db.write i (changes db i s found) still := by
  cases h
  exact ⟨rfl, rfl⟩

/-- A row that is inserted violates no constraint. -/
theorem Effect.inserted {w : D.Write} {x : Unit} (h : Effect i db (.insert w) (.ok x) db') :
    D.violation w (db.view i) = none ∧ db' = db.write i [w] [] := by
  cases h with
  | insert w hfree hv => exact ⟨hv, rfl⟩

end Results

variable (D) in
/-- The database with its threads, and time that passes. -/
def system : RelyGuarantee.System (Act D) (Result D) D.Err (Db D) where
  exec i a db r db' := Effect i db a r db'
  drift db db' := ∃ n, db' = { db with env := D.advance n db.env }

/-! ## Logs and views -/

namespace Db

variable (db : Db D) {i j : Nat}

@[simp] theorem log_write (ws : List D.Write) (l : List D.Key) : (db.write i ws l).log i = db.log i ++ ws := by
  simp [write, log]

@[simp] theorem log_write_of_ne (h : j ≠ i) (ws : List D.Write) (l : List D.Key) : (db.write i ws l).log j = db.log j := by
  simp [write, log, Function.update_of_ne h]

/-- The start of a statement leaves the logs. -/
@[simp] theorem log_note (s : D.Stmt) : (db.note i s).log j = db.log j := by
  by_cases h : j = i
  · subst h
    simp [note, log]
  · simp [note, log, Function.update_of_ne h]

@[simp] theorem log_begin : (db.begin i).log i = [] := by
  simp [begin, log]

@[simp] theorem log_begin_of_ne (h : j ≠ i) : (db.begin i).log j = db.log j := by
  simp [begin, log, Function.update_of_ne h]

@[simp] theorem log_release : (db.release i).log i = [] := by
  simp [release, log]

@[simp] theorem log_release_of_ne (h : j ≠ i) : (db.release i).log j = db.log j := by
  simp [release, log, Function.update_of_ne h]

@[simp] theorem log_commit : (db.commit i).log i = [] := log_release db

@[simp] theorem log_commit_of_ne (h : j ≠ i) : (db.commit i).log j = db.log j := log_release_of_ne db h

@[simp] theorem store_write (ws : List D.Write) (l : List D.Key) : (db.write i ws l).store = db.store := rfl

@[simp] theorem store_note (s : D.Stmt) : (db.note i s).store = db.store := rfl

@[simp] theorem store_begin : (db.begin i).store = db.store := rfl

@[simp] theorem store_release : (db.release i).store = db.store := rfl

@[simp] theorem store_commit : (db.commit i).store = db.view i := rfl

@[simp] theorem view_write (ws : List D.Write) (l : List D.Key) : (db.write i ws l).view i = applyAll ws (db.view i) := by
  rw [view, view, log_write, applyAll_append, store_write]

@[simp] theorem view_note (s : D.Stmt) : (db.note i s).view j = db.view j := by
  rw [view, view, log_note, store_note]

@[simp] theorem view_begin : (db.begin i).view i = db.store := by
  rw [view, log_begin, store_begin, applyAll_nil]

@[simp] theorem stmts_write (ws : List D.Write) (l : List D.Key) : (db.write i ws l).stmts i = db.stmts i := by
  simp [write, stmts]

@[simp] theorem stmts_note (s : D.Stmt) : (db.note i s).stmts i = db.stmts i ++ [s] := by
  simp [note, stmts]

theorem free_iff {keys : List D.Key} : db.free i keys = true ↔ ∀ k ∈ keys, db.owner k = none ∨ db.owner k = some i := by
  simp [free]

end Db

/-! ## How the logs grow -/

/-- The writes that an action adds to the log of its transaction. -/
inductive Writes (i : Nat) (db : Db D) : Act D → List D.Write → Prop
  | none (a : Act D) : Writes i db a []
  | insert (w : D.Write) : db.free i (D.keys w) = true → D.violation w (db.view i) = none → Writes i db (.insert w) [w]
  | finish (s : D.Stmt) (found : List D.Key) : (∀ w ∈ changes db i s found, D.violation w (db.view i) = none) →
      Writes i db (.finish s found) (changes db i s found)

/-- What an action does to the store, the journal and the logs: the log of its transaction grows, is dropped or is committed. -/
inductive Evolves (i : Nat) (db : Db D) (a : Act D) (db' : Db D) : Prop
  | grow (ws : List D.Write) : Writes i db a ws → db'.store = db.store → db'.journal = db.journal →
      db'.log = Function.update db.log i (db.log i ++ ws) → Evolves i db a db'
  | drop : db'.store = db.store → db'.journal = db.journal → db'.log = Function.update db.log i [] → Evolves i db a db'
  | commit : a = .commit → db'.store = db.view i → db'.journal = db.journal ++ (db.log i).map (fun w => (i, w)) →
      db'.log = Function.update db.log i [] → Evolves i db a db'

/-- All logs but one are as before. -/
theorem log_eq_update {i : Nat} {db db' : Db D} {l : List D.Write} (hi : db'.log i = l) (hj : ∀ j, j ≠ i → db'.log j = db.log j) :
    db'.log = Function.update db.log i l := by
  funext j
  by_cases h : j = i
  · subst h
    rw [Function.update_self, hi]
  · rw [Function.update_of_ne h, hj j h]

/-- An action that leaves the store, the journal and the logs. -/
theorem evolves_quiet {i : Nat} {db db' : Db D} {a : Act D} (hstore : db'.store = db.store) (hjournal : db'.journal = db.journal)
    (hlog : ∀ j, db'.log j = db.log j) : Evolves i db a db' :=
  .grow [] (.none a) hstore hjournal (log_eq_update (by rw [hlog, List.append_nil]) fun j _ => hlog j)

/-- A transaction that ends without a commit. -/
theorem evolves_release {i : Nat} {db : Db D} {a : Act D} : Evolves i db a (db.release i) :=
  .drop rfl rfl (log_eq_update (by simp) fun _ hj => by simp [hj])

/-- Every effect grows, drops or commits a log. -/
theorem Effect.evolves {i : Nat} {db db' : Db D} {a : Act D} {r : Except D.Err (Result D a)} (h : Effect i db a r db') :
    Evolves i db a db' := by
  cases h with
  | query q => exact evolves_quiet rfl rfl fun _ => rfl
  | insert w hfree hv =>
    exact .grow [w] (.insert w hfree hv) rfl rfl (log_eq_update (by simp) fun _ hj => by simp [hj])
  | start s => exact evolves_quiet rfl rfl fun j => by simp
  | finish s found _ hv =>
    exact .grow _ (.finish s found hv) rfl rfl (log_eq_update (by simp) fun _ hj => by simp [hj])
  | locked k _ => exact .grow [] (.none _) rfl rfl (log_eq_update (by simp) fun _ hj => by simp [hj])
  | notLocked k => exact evolves_quiet rfl rfl fun _ => rfl
  | begin => exact .drop rfl rfl (log_eq_update (by simp) fun _ hj => by simp [hj])
  | commit => exact .commit rfl rfl rfl (log_eq_update (by simp) fun _ hj => by simp [hj])
  | rollback => exact evolves_release
  | ext x => exact evolves_quiet rfl rfl fun _ => rfl
  | fault a e =>
    cases a with
    | commit => exact evolves_release
    | rollback => exact evolves_release
    | _ => exact evolves_quiet rfl rfl fun _ => rfl

/-- The action begins or ends a transaction. -/
def Act.isBracket : Act D → Bool
  | .begin | .commit | .rollback => true
  | _ => false

/-- What an action inside a transaction leaves: the store stays, the log grows, started statements stay started. -/
theorem Effect.inside {i : Nat} {db db' : Db D} {a : Act D} {r : Except D.Err (Result D a)} (h : Effect i db a r db')
    (ha : a.isBracket = false) :
    db'.store = db.store ∧ db'.journal = db.journal ∧ (∃ ws, Writes i db a ws ∧ db'.log i = db.log i ++ ws) ∧
      db.stmts i ⊆ db'.stmts i := by
  have hsame : (∃ ws, Writes i db a ws ∧ db.log i = db.log i ++ ws) := ⟨[], .none a, by simp⟩
  cases h with
  | query q => exact ⟨rfl, rfl, hsame, List.Subset.refl _⟩
  | insert w hfree hv => exact ⟨rfl, rfl, ⟨_, .insert w hfree hv, by simp⟩, by simp⟩
  | start s => exact ⟨rfl, rfl, ⟨[], .none _, by simp⟩, by simp⟩
  | finish s found _ hv => exact ⟨rfl, rfl, ⟨_, .finish s found hv, by simp⟩, by simp⟩
  | locked k _ => exact ⟨rfl, rfl, ⟨[], .none _, by simp⟩, by simp⟩
  | notLocked k => exact ⟨rfl, rfl, hsame, List.Subset.refl _⟩
  | begin => cases ha
  | commit => cases ha
  | rollback => cases ha
  | ext x => exact ⟨rfl, rfl, hsame, List.Subset.refl _⟩
  | fault a e =>
    cases a with
    | begin => cases ha
    | commit => cases ha
    | rollback => cases ha
    | _ => exact ⟨rfl, rfl, hsame, List.Subset.refl _⟩

/-- The log of the acting thread: what was in it, and what the action adds. -/
theorem Effect.mem_log {i : Nat} {db db' : Db D} {a : Act D} {r : Except D.Err (Result D a)} (h : Effect i db a r db')
    {w : D.Write} (hw : w ∈ db'.log i) : w ∈ db.log i ∨ ∃ ws, Writes i db a ws ∧ w ∈ ws := by
  rcases h.evolves with ⟨ws, hws, -, -, hlog⟩ | ⟨-, -, hlog⟩ | ⟨-, -, -, hlog⟩
  · rw [hlog, Function.update_self, List.mem_append] at hw
    exact hw.imp_right fun hmem => ⟨ws, hws, hmem⟩
  · rw [hlog, Function.update_self] at hw
    exact absurd hw List.not_mem_nil
  · rw [hlog, Function.update_self] at hw
    exact absurd hw List.not_mem_nil

/-! ## Locks -/

/-- A thread keeps its locks inside a transaction. -/
theorem Effect.owner_inside {i : Nat} {db db' : Db D} {a : Act D} {r : Except D.Err (Result D a)} (h : Effect i db a r db')
    (ha : a.isBracket = false) {k : D.Key} (hk : db.owner k = some i) : db'.owner k = some i := by
  have hwrite : ∀ ws locked, (db.write i ws locked).owner k = some i := by
    intro ws locked
    simp only [Db.write]
    split
    · rfl
    · exact hk
  cases h with
  | insert w _ _ => exact hwrite _ _
  | finish s found _ _ => exact hwrite _ _
  | locked k' _ => exact hwrite _ _
  | begin => cases ha
  | commit => cases ha
  | rollback => cases ha
  | fault a e =>
    cases a with
    | begin => cases ha
    | commit => cases ha
    | rollback => cases ha
    | _ => exact hk
  | _ => exact hk

/-- Every write of an open transaction has locked its keys. -/
def Guarded (db : Db D) : Prop := ∀ i, ∀ w ∈ db.log i, ∀ k ∈ D.keys w, db.owner k = some i

/-- The other transactions keep their locks. -/
theorem Guarded.release {db : Db D} (h : Guarded db) (i : Nat) : Guarded (db.release i) := by
  intro j w hw k hk
  by_cases hji : j = i
  · subst hji
    simp at hw
  · rw [Db.log_release_of_ne db hji] at hw
    have howner := h j w hw k hk
    simp only [Db.release, howner, Option.some.injEq]
    exact if_neg hji

/-- A write locks its keys, which were free. -/
theorem Guarded.write {db : Db D} (h : Guarded db) {i : Nat} {ws : List D.Write} {locked : List D.Key}
    (hfree : ∀ k ∈ locked ++ ws.flatMap D.keys, db.owner k = none ∨ db.owner k = some i) :
    Guarded (db.write i ws locked) := by
  intro j w hw k hk
  by_cases hji : j = i
  · subst hji
    rw [Db.log_write, List.mem_append] at hw
    simp only [Db.write]
    split
    · rfl
    · rename_i hno
      rcases hw with hw | hw
      · exact h j w hw k hk
      · exact absurd (List.mem_append_right _ (List.mem_flatMap.2 ⟨w, hw, hk⟩)) hno
  · rw [Db.log_write_of_ne db hji] at hw
    have howner := h j w hw k hk
    simp only [Db.write]
    split
    · rename_i hyes
      rcases hfree k hyes with hnone | hsome
      · rw [howner] at hnone
        cases hnone
      · rw [howner] at hsome
        exact absurd (Option.some.inj hsome) hji
    · exact howner

/-- A row that is still there was found and meets the condition. -/
theorem mem_of_mem_stillThere {db : Db D} {i : Nat} {s : D.Stmt} {found : List D.Key} {k : D.Key}
    (h : k ∈ stillThere db i s found) : k ∈ found ∧ k ∈ D.rows s (db.view i) := by
  simpa [stillThere] using h

/-- Every action leaves the writes locked. -/
theorem Guarded.effect {db db' : Db D} (h : Guarded db) {i : Nat} {a : Act D} {r : Except D.Err (Result D a)}
    (he : Effect i db a r db') : Guarded db' := by
  cases he with
  | query q => exact h
  | insert w hfree _ => exact h.write (by simpa using (Db.free_iff db).1 hfree)
  | start s =>
    intro j w hw k hk
    rw [Db.log_note] at hw
    exact h j w hw k hk
  | finish s found hfree _ =>
    refine h.write fun k hk => (Db.free_iff db).1 hfree k ?_
    rcases List.mem_append.1 hk with hk | hk
    · exact List.mem_append_left _ (mem_of_mem_stillThere hk).1
    · exact List.mem_append_right _ hk
  | locked k hfree => exact h.write (by simpa using (Db.free_iff db).1 hfree)
  | notLocked k => exact h
  | begin =>
    intro j w hw k hk
    by_cases hji : j = i
    · subst hji
      simp at hw
    · rw [Db.log_begin_of_ne db hji] at hw
      exact h j w hw k hk
  | commit => exact h.release i
  | rollback => exact h.release i
  | ext x => exact h
  | fault a e =>
    cases a with
    | commit => exact h.release i
    | rollback => exact h.release i
    | _ => exact h

/-- What a thread keeps while the others act: its transaction and its locks, and the rows it has locked. The committed store
moves on by the writes the others commit. -/
structure Frame (i : Nat) (db db' : Db D) : Prop where
  txn : db'.txn i = db.txn i
  owner : ∀ k, db'.owner k = some i ↔ db.owner k = some i
  commits : ∃ js : List (Nat × D.Write), db'.journal = db.journal ++ js ∧ db'.store = applyAll (js.map Prod.snd) db.store ∧
    ∀ j ∈ js, j.1 ≠ i ∧ ∀ k ∈ D.keys j.2, db.owner k ≠ some i
  calls : ∃ xs : List (Call D), db'.calls = db.calls ++ xs ∧ ∀ x ∈ xs, x.thread ≠ i
  env : D.later db.env db'.env

/-- Nothing has happened yet. -/
theorem Frame.refl (i : Nat) (db : Db D) : Frame i db db :=
  ⟨rfl, fun _ => Iff.rfl, ⟨[], by simp⟩, ⟨[], by simp⟩, D.later_refl _⟩

/-- One period after another. -/
theorem Frame.trans {i : Nat} {db db' db'' : Db D} (h : Frame i db db') (h' : Frame i db' db'') : Frame i db db'' := by
  obtain ⟨js, hj, hs, hother⟩ := h.commits
  obtain ⟨js', hj', hs', hother'⟩ := h'.commits
  obtain ⟨xs, hx, hxo⟩ := h.calls
  obtain ⟨xs', hx', hxo'⟩ := h'.calls
  refine ⟨h'.txn.trans h.txn, fun k => (h'.owner k).trans (h.owner k), ⟨js ++ js', ?_, ?_, ?_⟩, ⟨xs ++ xs', ?_, ?_⟩,
    D.later_trans h.env h'.env⟩
  · rw [hj', hj, List.append_assoc]
  · rw [hs', hs, List.map_append, applyAll_append]
  · intro j hmem
    rcases List.mem_append.1 hmem with hmem | hmem
    · exact hother j hmem
    · refine ⟨(hother' j hmem).1, fun k hk hown => (hother' j hmem).2 k hk ((h.owner k).2 hown)⟩
  · rw [hx', hx, List.append_assoc]
  · intro x hmem
    rcases List.mem_append.1 hmem with hmem | hmem
    · exact hxo x hmem
    · exact hxo' x hmem

/-- A change that leaves the store, the journal, the calls and the world alone. -/
theorem Frame.of_quiet {i : Nat} {db db' : Db D} (htxn : db'.txn i = db.txn i)
    (howner : ∀ k, db'.owner k = some i ↔ db.owner k = some i) (hstore : db'.store = db.store)
    (hjournal : db'.journal = db.journal) (hcalls : db'.calls = db.calls) (henv : db'.env = db.env) : Frame i db db' :=
  ⟨htxn, howner, ⟨[], by simp [hjournal, hstore]⟩, ⟨[], by simp [hcalls]⟩, henv ▸ D.later_refl _⟩

/-- The end of another transaction. -/
theorem frame_release {i j : Nat} (hij : i ≠ j) (db : Db D) : Frame i db (db.release j) := by
  refine Frame.of_quiet (Function.update_of_ne hij _ _) (fun k => ?_) rfl rfl rfl rfl
  simp only [Db.release]
  split
  · rename_i hown
    rw [hown]
    simp [Ne.symm hij]
  · exact Iff.rfl

/-- A write of another transaction, to keys that were free. -/
theorem frame_write {i j : Nat} (hij : i ≠ j) {db : Db D} {ws : List D.Write} {locked : List D.Key}
    (hfree : ∀ k ∈ locked ++ ws.flatMap D.keys, db.owner k = none ∨ db.owner k = some j) :
    Frame i db (db.write j ws locked) := by
  refine Frame.of_quiet (Function.update_of_ne hij _ _) (fun k => ?_) rfl rfl rfl rfl
  simp only [Db.write]
  split
  · rename_i hk
    rcases hfree k hk with hown | hown
    · simp [hown, Ne.symm hij]
    · simp [hown, Ne.symm hij]
  · exact Iff.rfl

/-- Another thread's action frames thread `i`. -/
theorem Frame.effect {i j : Nat} (hij : i ≠ j) {db db' : Db D} (h : Guarded db) {a : Act D}
    {r : Except D.Err (Result D a)} (he : Effect j db a r db') : Frame i db db' := by
  cases he with
  | query q => exact Frame.refl i db
  | insert w hfree _ => exact frame_write hij (by simpa using (Db.free_iff db).1 hfree)
  | start s => exact Frame.of_quiet (Function.update_of_ne hij _ _) (fun _ => Iff.rfl) rfl rfl rfl rfl
  | finish s found hfree _ =>
    refine frame_write hij fun k hk => (Db.free_iff db).1 hfree k ?_
    rcases List.mem_append.1 hk with hk | hk
    · exact List.mem_append_left _ (mem_of_mem_stillThere hk).1
    · exact List.mem_append_right _ hk
  | locked k hfree => exact frame_write hij (by simpa using (Db.free_iff db).1 hfree)
  | notLocked k => exact Frame.refl i db
  | begin => exact Frame.of_quiet (Function.update_of_ne hij _ _) (fun _ => Iff.rfl) rfl rfl rfl rfl
  | commit =>
    have hrel := frame_release hij db
    refine ⟨hrel.txn, hrel.owner, ⟨(db.log j).map fun w => (j, w), rfl, ?_, ?_⟩, ⟨[], by simp [Db.commit, Db.release]⟩,
      D.later_refl _⟩
    · simp [Db.commit, Db.view, Function.comp_def]
    · intro p hp
      obtain ⟨w, hw, rfl⟩ := List.mem_map.1 hp
      refine ⟨Ne.symm hij, fun k hk hown => ?_⟩
      rw [h j w hw k hk] at hown
      exact hij (Option.some.inj hown).symm
  | rollback => exact frame_release hij db
  | ext x => exact ⟨rfl, fun _ => Iff.rfl, ⟨[], by simp⟩, ⟨[⟨j, x, _⟩], rfl, by simp [Ne.symm hij]⟩, D.reply_later j x db.env⟩
  | fault a e =>
    cases a with
    | commit => exact frame_release hij db
    | rollback => exact frame_release hij db
    | ext x => exact ⟨rfl, fun _ => Iff.rfl, ⟨[], by simp [Db.abort]⟩, ⟨[⟨j, x, _⟩], rfl, by simp [Ne.symm hij]⟩, D.later_refl _⟩
    | _ => exact Frame.refl i db

/-- Time that passes. -/
theorem Frame.drift {i : Nat} {db db' : Db D} (h : (system D).drift db db') : Frame i db db' := by
  obtain ⟨n, rfl⟩ := h
  exact ⟨rfl, fun _ => Iff.rfl, ⟨[], by simp⟩, ⟨[], by simp⟩, D.advance_later n db.env⟩

theorem Frame.log {i : Nat} {db db' : Db D} (h : Frame i db db') : db'.log i = db.log i := by
  rw [Db.log, Db.log, h.txn]

theorem Frame.stmts {i : Nat} {db db' : Db D} (h : Frame i db db') : db'.stmts i = db.stmts i := by
  rw [Db.stmts, Db.stmts, h.txn]

/-! ## Schedules -/

/-- The choices of a schedule: which thread acts, which one's action fails, how much time passes. -/
inductive Move (D : Database)
  | run (i : Nat)
  | fault (i : Nat) (e : D.Err)
  | pass (n : Nat)

/-- Threads over a database. -/
abbrev Config (D : Database) (α : Type) := RelyGuarantee.Config (Act D) (Result D) D.Err α (Db D)

variable {α : Type}

/-- One choice of a schedule. `none` when the thread has ended or has to wait. -/
def move (m : Move D) (c : Config D α) : Option (Config D α) :=
  match m with
  | .run i =>
    match c.threads i with
    | .done _ => none
    | .act a next => (exec i a c.state).map fun p => ⟨p.2, Function.update c.threads i (next p.1)⟩
  | .fault i e =>
    match c.threads i with
    | .done _ => none
    | .act a next => some ⟨c.state.abort i e a, Function.update c.threads i (next (.error e))⟩
  | .pass n => some ⟨{ c.state with env := D.advance n c.state.env }, c.threads⟩

/-- The thread that acts, with its action. -/
def acting (m : Move D) (c : Config D α) : Option (Nat × Act D) :=
  match m with
  | .run i | .fault i _ =>
    match c.threads i with
    | .done _ => none
    | .act a _ => some (i, a)
  | .pass _ => none

/-- A schedule whose actions meet a check on the state before them. -/
def playIf (check : Nat → Act D → Db D → Bool) : List (Move D) → Config D α → Option (Config D α)
  | [], c => some c
  | m :: ms, c =>
    if (acting m c).all fun p => check p.1 p.2 c.state then (move m c).bind (playIf check ms) else none

/-- A schedule. -/
def play : List (Move D) → Config D α → Option (Config D α) := playIf fun _ _ _ => true

/-- A choice of a schedule is a step of the threads. -/
theorem step_of_move {ok : Nat → Act D → Db D → Prop} {m : Move D} {c c' : Config D α} (h : move m c = some c')
    (hok : ∀ p, acting m c = some p → ok p.1 p.2 c.state) : RelyGuarantee.Step ((system D).restrict ok) c c' := by
  cases m with
  | run i =>
    simp only [move] at h
    cases hp : c.threads i with
    | done r =>
      rw [hp] at h
      cases h
    | act a next =>
      rw [hp] at h
      obtain ⟨⟨r, db⟩, he, rfl⟩ := Option.map_eq_some_iff.1 h
      exact RelyGuarantee.Step.thread hp ⟨hok (i, a) (by simp [acting, hp]), exec_effect he⟩
  | fault i e =>
    simp only [move] at h
    cases hp : c.threads i with
    | done r =>
      rw [hp] at h
      cases h
    | act a next =>
      rw [hp] at h
      rw [← Option.some.inj h]
      exact RelyGuarantee.Step.thread hp ⟨hok (i, a) (by simp [acting, hp]), Effect.fault a e⟩
  | pass n =>
    rw [← Option.some.inj h]
    exact RelyGuarantee.Step.drift ⟨n, rfl⟩

/-- A thread that moves on has had an effect. -/
theorem effect_of_run {i : Nat} {c c' : Config D α} (h : move (.run i) c = some c') :
    ∃ a r, Effect i c.state a r c'.state := by
  simp only [move] at h
  cases hp : c.threads i with
  | done r =>
    rw [hp] at h
    cases h
  | act a next =>
    rw [hp] at h
    obtain ⟨⟨r, db⟩, he, rfl⟩ := Option.map_eq_some_iff.1 h
    exact ⟨a, r, exec_effect he⟩

/-- A schedule whose checks tell enough while an invariant holds, which its moves keep. -/
theorem reaches_of_playIf_keeping {check : Nat → Act D → Db D → Bool} {ok : Nat → Act D → Db D → Prop} {inv : Db D → Prop}
    (hcheck : ∀ i a db, inv db → check i a db = true → ok i a db) {ms : List (Move D)}
    (hkeeps : ∀ m ∈ ms, ∀ {c c' : Config D α}, inv c.state → move m c = some c' → inv c'.state) {c c' : Config D α}
    (hinv : inv c.state) (h : playIf check ms c = some c') : RelyGuarantee.Reaches ((system D).restrict ok) c c' := by
  induction ms generalizing c with
  | nil =>
    rw [← Option.some.inj h]
    exact Relation.ReflTransGen.refl
  | cons m ms ih =>
    simp only [playIf] at h
    split at h
    · rename_i hall
      obtain ⟨c1, h1, h2⟩ := Option.bind_eq_some_iff.1 h
      have hrest := ih (fun m hm => hkeeps m (List.mem_cons_of_mem _ hm)) (hkeeps m List.mem_cons_self hinv h1) h2
      refine Relation.ReflTransGen.head (step_of_move h1 fun p hp => hcheck _ _ _ hinv ?_) hrest
      simpa [hp] using hall
    · cases h

/-- A schedule whose checks tell enough by themselves. -/
theorem reaches_of_playIf {check : Nat → Act D → Db D → Bool} {ok : Nat → Act D → Db D → Prop}
    (hcheck : ∀ i a db, check i a db = true → ok i a db) {ms : List (Move D)} {c c' : Config D α}
    (h : playIf check ms c = some c') : RelyGuarantee.Reaches ((system D).restrict ok) c c' :=
  reaches_of_playIf_keeping (fun i a db (_ : True) => hcheck i a db) (fun _ _ _ _ _ _ => trivial) trivial h

/-- A schedule is a run. -/
theorem reaches_of_play {ms : List (Move D)} {c c' : Config D α} (h : play ms c = some c') :
    RelyGuarantee.Reaches (system D) c c' :=
  RelyGuarantee.reaches_of_restrict (show RelyGuarantee.Reaches ((system D).restrict fun _ _ _ => True) c c' from
    reaches_of_playIf (fun _ _ _ _ => trivial) h)

end ReadCommitted
