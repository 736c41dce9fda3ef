import AuthService.Attempts
import AuthService.Library.Monitors
import AuthService.Theorems.Lockout

/-!
# Concurrent guesses are bounded

An attempt checks the limiter, verifies a slow password hash and then counts its failure. Attempts that overlap can all pass the
check, so a bucket can exceed its limit, but by no more than the attempts that were under way at once.
-/

namespace AuthService

open ReadCommitted SlidingWindow CallsAux
open scoped List

variable {Γ : Ctx}

/-- The operation counts a failure in a bucket. -/
def LimiterOp.countsOn (scope : Scope) (key : BucketKey) : LimiterOp → Bool
  | .recordFailure ip email includeEmailBucket =>
    match scope with
    | .emailIp => emailIpKey ip email = key
    | .ip => ip = key
    | .email => includeEmailBucket && email = key
    | _ => false
  | _ => false

/-- The operation asks whether there are too many failures. -/
def LimiterOp.asksFailures : LimiterOp → Bool
  | .isAllowed .. | .isAccountDeletionReauthAllowed .. => true
  | _ => false

/-- The operation empties a bucket. -/
def LimiterOp.empties (scope : Scope) (key : BucketKey) : LimiterOp → Bool
  | .recordSuccess ip email => scope = .emailIp && emailIpKey ip email = key
  | _ => false

/-- The failures that are allowed in a bucket of a scope. -/
def LimiterSettings.maxFailures (S : LimiterSettings) : Scope → Int
  | .emailIp => S.maxFailuresPerEmailIp
  | .ip => S.maxFailuresPerIp
  | .email => S.maxFailuresPerEmail
  | _ => 0

namespace InMemory

/-- After some of the calls, a thread has passed its check and has not yet counted the failure that it will count. -/
def UnderWay (scope : Scope) (key : BucketKey) (events : List Event) (n : Nat) (i : Nat) : Prop :=
  (∃ c ∈ events.take n, c.thread = i ∧ c.op.asksFailures = true ∧ c.answer = some true) ∧
    ∃ e ∈ events.drop n, e.thread = i ∧ e.op.countsOn scope key = true

namespace BruteForceAux

open LockoutAux

/-! ## One attempt -/

/-- What an attempt counts: an address, an email, and whether the failure counts for the email too. -/
structure Guess where
  ip : BucketKey
  email : BucketKey
  countsEmail : Bool

/-- The guess of an attempt. -/
def guessOf (Γ : Ctx) : Op → Guess
  | .login email _ _ ipAddress _ => ⟨rateLimitIp ipAddress, Γ.normalizeEmail email, true⟩
  | .register email _ _ _ ipAddress _ => ⟨rateLimitIp ipAddress, Γ.normalizeEmail email, false⟩
  | .deleteAccount context _ _ ipAddress _ => ⟨rateLimitIp ipAddress, Γ.normalizeEmail context.user.email, false⟩
  | _ => ⟨[], [], false⟩

/-- The check of a guess. The deletion of an account does not look at the email, and counts no failure for it. -/
inductive Guess.Checks (g : Guess) : LimiterOp → Prop
  | isAllowed : g.Checks (.isAllowed g.ip g.email)
  | deletion (h : g.countsEmail = false) : g.Checks (.isAccountDeletionReauthAllowed g.ip g.email)

/-- Where an attempt is. -/
inductive Stage where
  | fresh | passed | spent
  deriving DecidableEq

/-- The operation leaves the failures alone, and does not ask for them. -/
def isIdle : LimiterOp → Bool
  | .isAllowed .. | .isAccountDeletionReauthAllowed .. | .recordFailure .. => false
  | _ => true

/-- The stage after a call. -/
inductive Guess.Advances (g : Guess) : Stage → LimiterOp → Except AuthError Bool → Stage → Prop
  | pass {op : LimiterOp} {r : Except AuthError Bool} (h : g.Checks op) (hr : r = .ok true) : g.Advances .fresh op r .passed
  | refuse {op : LimiterOp} {r : Except AuthError Bool} (h : g.Checks op) (hr : r ≠ .ok true) : g.Advances .fresh op r .spent
  | fail {r : Except AuthError Bool} : g.Advances .passed (.recordFailure g.ip g.email g.countsEmail) r .spent
  | idle {st : Stage} {op : LimiterOp} {r : Except AuthError Bool} (h : isIdle op = true) (hst : st ≠ .fresh) :
    g.Advances st op r st

/-- The monitor of an attempt looks at the calls of the limiter. -/
def Guess.monitor (g : Guess) (st : Stage) (a : Act (database Γ)) (r : Except AuthError (Result (database Γ) a))
    (st' : Stage) : Prop :=
  match a, r with
  | .ext x, r => match (x : Ext), r with
    | .limiter op, r => g.Advances st op r st'
    | _, _ => st' = st
  | _, _ => st' = st

/-- The program goes on as an attempt should. -/
abbrev Guess.Follows {α : Type} (g : Guess) (st : Stage) (p : Service Γ α) : Prop :=
  p.Monitored g.monitor (fun _ _ => True) st

section Follows

variable {α β : Type} {g : Guess} {st : Stage}

/-- An action that is no call of the limiter leaves the monitor where it is. -/
theorem monitor_quiet {a : Act (database Γ)} {r : Except AuthError (Result (database Γ) a)}
    (h : ∀ op ∈ limiterOp a, False) : g.monitor st a r st := by
  cases a with
  | ext x =>
    cases x with
    | limiter op => exact absurd rfl fun hop => h op hop
    | _ => rfl
  | _ => rfl

/-- A program that does not call the limiter. -/
theorem follows_quiet {p : Service Γ α} (h : Calls (fun _ => False) p) : g.Follows st p :=
  Prog.Emits.monitored h (fun _ _ ha => monitor_quiet ha) fun _ => trivial

/-- A prefix without calls of the limiter may be dropped. -/
theorem follows_after {p : Service Γ α} {f : α → Service Γ β} (h : Calls (fun _ => False) p) (hf : ∀ a, g.Follows st (f a)) :
    g.Follows st (p >>= f) := by
  have hp : p.Monitored g.monitor (fun _ s => s = st) st := Prog.Emits.monitored h (fun _ _ ha => monitor_quiet ha) fun _ => rfl
  refine hp.bind ?_ fun _ _ _ => trivial
  rintro a s rfl
  exact hf a

/-- A check lets an attempt pass, or ends it. -/
theorem follows_check {op : LimiterOp} {e : AuthError} {f : Unit → Service Γ α} (hop : g.Checks op)
    (hf : g.Follows .passed (f ())) : g.Follows .fresh (do f (← require (← limiter op) e)) := by
  intro r
  rcases r with e' | b
  · exact ⟨.spent, .refuse hop nofun, trivial⟩
  · cases b with
    | true => exact ⟨.passed, .pass hop rfl, hf⟩
    | false => exact ⟨.spent, .refuse hop nofun, trivial⟩

/-- A failure is counted, and what follows does not call the limiter. -/
theorem follows_failure {f : Bool → Service Γ α} (hf : ∀ b, Calls (fun _ => False) (f b)) :
    g.Follows .passed (limiter (.recordFailure g.ip g.email g.countsEmail) >>= f) := by
  intro r
  refine ⟨.spent, .fail, ?_⟩
  cases r with
  | error e => trivial
  | ok b => exact follows_quiet (hf b)

/-- An operation that the monitor lets pass. -/
theorem follows_idle {op : LimiterOp} {f : Bool → Service Γ α} (hop : isIdle op = true) (hst : st ≠ .fresh)
    (hf : ∀ b, g.Follows st (f b)) : g.Follows st (limiter op >>= f) := by
  intro r
  refine ⟨st, .idle hop hst, ?_⟩
  cases r with
  | error e => trivial
  | ok b => exact hf b

end Follows

/-! ## The attempts of the service -/

/-- A login checks the failures, guesses once and records the failure at most once. -/
theorem follows_login (email password : Text) (token ipAddress userAgent : Option Text) :
    (⟨rateLimitIp ipAddress, Γ.normalizeEmail email, true⟩ : Guess).Follows .fresh
      (login email password token ipAddress userAgent : Service Γ IssuedAuthSession) := by
  refine follows_check .isAllowed (follows_after (calls_find _ _) fun user => ?_)
  refine follows_after (calls_call rfl) fun passwordMatches => ?_
  split
  · exact follows_failure fun _ => calls_bind (calls_createAuditLog ..) fun _ => calls_throw _
  · refine follows_after (calls_loginTransaction ..) fun _ => ?_
    exact follows_idle rfl nofun fun _ =>
      follows_quiet (calls_bind (calls_bind (calls_query _) fun _ => calls_pure _) fun _ => calls_pure _)

/-- A registration checks the failures and records at most one. -/
theorem follows_register (email password : Text) (languageCode : LanguageCode) (token ipAddress userAgent : Option Text) :
    (⟨rateLimitIp ipAddress, Γ.normalizeEmail email, false⟩ : Guess).Follows .fresh
      (register email password languageCode token ipAddress userAgent : Service Γ IssuedAuthSession) := by
  have hfailed : ∀ {α : Type} (userId : Option Uuid) (e : AuthError),
      (⟨rateLimitIp ipAddress, Γ.normalizeEmail email, false⟩ : Guess).Follows .passed
        ((registerFailed userId (rateLimitIp ipAddress) (Γ.normalizeEmail email) ipAddress userAgent >>= fun _ => Prog.throw e) :
          Service Γ α) := by
    intro α userId e
    refine Prog.Monitored.bind (Q := fun _ _ => True) ?_ (fun _ _ _ => follows_quiet (calls_throw e)) fun _ _ _ => trivial
    exact follows_failure (g := ⟨rateLimitIp ipAddress, Γ.normalizeEmail email, false⟩) fun _ => calls_createAuditLog _ _
  refine follows_check .isAllowed (follows_idle rfl nofun fun b => follows_after (calls_require b _) fun _ => ?_)
  split
  · exact follows_failure (g := ⟨rateLimitIp ipAddress, Γ.normalizeEmail email, false⟩) fun _ => calls_throw _
  · refine follows_after (calls_find _ _) fun user => ?_
    cases user with
    | some user => exact hfailed _ _
    | none =>
      refine follows_after (Prog.Emits.attempt (calls_registerTransaction ..)) fun r => ?_
      split
      · exact hfailed _ _
      · exact follows_quiet (calls_throw _)
      · exact follows_idle rfl nofun fun _ => follows_quiet (calls_pure _)

/-- The password check of an account deletion follows the monitor of a guess by address. -/
theorem follows_requirePassword (context : AuthenticatedSessionContext) (normalizedEmail passwordHash : Text)
    (password ipAddress userAgent : Option Text) :
    (requirePassword context normalizedEmail passwordHash password ipAddress userAgent : Service Γ Unit).Monitored
      (Guess.monitor ⟨rateLimitIp ipAddress, normalizedEmail, false⟩) (fun _ _ => True) .fresh := by
  refine follows_check (.deletion rfl) ?_
  split
  · exact follows_quiet (calls_throw _)
  · refine follows_after (calls_call rfl) fun passwordMatches => ?_
    cases (passwordMatches : Bool) with
    | true => exact follows_quiet (calls_pure _)
    | false =>
      exact follows_failure (g := ⟨rateLimitIp ipAddress, normalizedEmail, false⟩) fun _ =>
        calls_bind (calls_createAuditLog ..) fun _ => calls_throw _

/-- An account deletion checks the failures and records at most one. -/
theorem follows_deleteAccount (context : AuthenticatedSessionContext) (confirmEmail : Text)
    (password ipAddress userAgent : Option Text) :
    (⟨rateLimitIp ipAddress, Γ.normalizeEmail context.user.email, false⟩ : Guess).Follows .fresh
      (deleteAccount context confirmEmail password ipAddress userAgent : Service Γ Unit) := by
  have hend : ∀ st, (⟨rateLimitIp ipAddress, Γ.normalizeEmail context.user.email, false⟩ : Guess).Follows st
      (do
        let deletedAt ← utcnow
        transaction (wipeUser context.user.id deletedAt context.session.id ipAddress) : Service Γ Unit) := fun _ =>
    follows_quiet (calls_bind calls_utcnow fun _ => calls_transaction (calls_wipeUser ..))
  refine follows_after (calls_require _ _) fun _ => Prog.Monitored.bind (Q := fun _ _ => True) ?_ (fun _ st _ => hend st)
    fun _ _ _ => trivial
  unfold requireReauth
  split
  · exact follows_requirePassword context _ _ password ipAddress userAgent
  · exact follows_quiet (calls_requireFreshOidcReauth context)

/-- Every attempt follows the monitor of the guess it makes. -/
theorem follows_program {op : Op} (hop : op.isAttempt = true) : (guessOf Γ op).Follows .fresh (program Γ op) := by
  cases op with
  | login email password token ip agent =>
    exact Prog.Monitored.bind (follows_login email password token ip agent) (fun _ _ _ => trivial) fun _ _ _ => trivial
  | register email password languageCode token ip agent =>
    exact Prog.Monitored.bind (follows_register email password languageCode token ip agent) (fun _ _ _ => trivial)
      fun _ _ _ => trivial
  | deleteAccount context confirmEmail password ip agent =>
    exact Prog.Monitored.bind (follows_deleteAccount context confirmEmail password ip agent) (fun _ _ _ => trivial)
      fun _ _ _ => trivial
  | _ => cases hop

/-! ## The calls of a thread -/

/-- The monitor went over the calls. -/
inductive Guess.Did (g : Guess) : List Event → Stage → Prop
  | nil : g.Did [] .fresh
  | snoc {past : List Event} {e : Event} {st st' : Stage} (h : g.Did past st)
      (hstep : g.Advances st e.op (.ok (e.answer.getD true)) st') : g.Did (past ++ [e]) st'

/-- The operation counts a failure. -/
def isFailure : LimiterOp → Bool
  | .recordFailure .. => true
  | _ => false

section Did

variable {g : Guess} {past before rest : List Event} {e : Event} {st st' : Stage} {op : LimiterOp} {r : Except AuthError Bool}

/-- Only who passed counts a failure, and the failure is the one of the guess. -/
theorem advances_failure (h : g.Advances st op r st') (hop : isFailure op = true) :
    st = .passed ∧ op = .recordFailure g.ip g.email g.countsEmail ∧ st' = .spent := by
  cases h with
  | pass h hr => cases h <;> cases hop
  | refuse h hr => cases h <;> cases hop
  | fail => exact ⟨rfl, rfl, rfl⟩
  | idle h hst =>
    cases op with
    | recordFailure ip email includeEmailBucket => cases h
    | _ => cases hop

/-- The monitor is passed only after a check that let the attempt through. -/
theorem advances_passed (h : g.Advances st op r .passed) : (g.Checks op ∧ r = .ok true) ∨ st = .passed := by
  cases h with
  | pass h hr => exact .inl ⟨h, hr⟩
  | idle h hst => exact .inr rfl

/-- A monitor that is not spent after a call was not spent before it. -/
theorem advances_open (h : g.Advances st op r st') (hst : st' ≠ .spent) : st ≠ .spent := by
  rintro rfl
  cases h
  exact hst rfl

/-- A passed monitor has an admitting check behind it. -/
theorem did_passed (h : g.Did past st) (hst : st = .passed) : ∃ c ∈ past, g.Checks c.op ∧ c.answer.getD true = true := by
  induction h with
  | nil => cases hst
  | @snoc past e st st' h hstep ih =>
    subst hst
    rcases advances_passed hstep with ⟨hcheck, hr⟩ | hst
    · exact ⟨e, List.mem_append_right _ (List.mem_singleton_self e), hcheck, Except.ok.inj hr⟩
    · obtain ⟨c, hc, hpassed⟩ := ih hst
      exact ⟨c, List.mem_append_left _ hc, hpassed⟩

/-- Who is not done has counted no failure. -/
theorem did_open (h : g.Did past st) (hst : st ≠ .spent) : ∀ e ∈ past, isFailure e.op = false := by
  induction h with
  | nil => exact nofun
  | @snoc past e st st' h hstep ih =>
    intro e' he'
    rcases List.mem_append.1 he' with he' | he'
    · exact ih (advances_open hstep hst) e' he'
    · rw [List.mem_singleton.1 he']
      cases hop : isFailure e.op with
      | false => rfl
      | true =>
        obtain ⟨-, -, hspent⟩ := advances_failure hstep hop
        exact absurd hspent hst

/-- A thread that counts a failure has been allowed to, and counts no other. -/
theorem did_failure (h : g.Did past st) (hpast : past = before ++ e :: rest) (he : isFailure e.op = true) :
    e.op = .recordFailure g.ip g.email g.countsEmail ∧ (∃ c ∈ before, g.Checks c.op ∧ c.answer.getD true = true) ∧
      (∀ e' ∈ before, isFailure e'.op = false) ∧ ∀ e' ∈ rest, isFailure e'.op = false := by
  induction h generalizing rest with
  | nil => exact absurd hpast.symm (by simp)
  | @snoc past last st st' h hstep ih =>
    rcases List.eq_nil_or_concat rest with rfl | ⟨rest, last', rfl⟩
    · obtain ⟨rfl, hlast⟩ := List.append_inj' hpast rfl
      obtain rfl := List.singleton_inj.1 hlast
      obtain ⟨rfl, hop, -⟩ := advances_failure hstep he
      exact ⟨hop, did_passed h rfl, did_open h nofun, nofun⟩
    · rw [List.concat_eq_append, ← List.cons_append, ← List.append_assoc] at hpast
      obtain ⟨rfl, hlast⟩ := List.append_inj' hpast rfl
      obtain rfl := List.singleton_inj.1 hlast
      obtain ⟨hop, hcheck, hbefore, hrest⟩ := ih rfl
      refine ⟨hop, hcheck, hbefore, fun e' he' => ?_⟩
      rcases List.mem_append.1 (List.concat_eq_append ▸ he') with he' | he'
      · exact hrest e' he'
      · rw [List.mem_singleton.1 he']
        cases hfailure : isFailure last.op with
        | false => rfl
        | true =>
          obtain ⟨rfl, -⟩ := advances_failure hstep hfailure
          have hnone := did_open h nofun e (List.mem_append_right _ (List.mem_cons_self ..))
          rw [he] at hnone
          cases hnone

end Did

/-! ## Runs -/

/-- The calls of a run. -/
def callsOf (events : List Event) : List Call := events.map fun e => ⟨e.now, e.op, false⟩

/-- The calls of a thread. -/
def own (i : Nat) (events : List Event) : List Event := events.filter fun e => e.thread = i

section Ledger

variable {C : Clock} {S : LimiterSettings} {ops : Nat → Op} {s s' : Running Γ}

/-- What the calls so far say about the limiter and the threads. -/
structure Ledger (C : Clock) (S : LimiterSettings) (ops : Nat → Op) (s : Running Γ) : Prop where
  limiter : s.limiter = (after C S (callsOf s.events)).2
  answers : s.events.map Event.answer = (after C S (callsOf s.events)).1
  clock : (s.events.map Event.now ++ [s.now]).Pairwise (· ≤ ·)
  threads : ∀ i, ∃ st, (guessOf Γ (ops i)).Did (own i s.events) st ∧ (guessOf Γ (ops i)).Follows st (s.threads i)

/-- The limiter after one more call. -/
theorem after_snoc (calls : List Call) (c : Call) : after C S (calls ++ [c]) =
    ((after C S calls).1 ++ [(step C S c.now c.op (after C S calls).2).1], (step C S c.now c.op (after C S calls).2).2) := by
  rw [after, List.map_append, run_append]
  rfl

/-- The ledger holds before any attempt has started. -/
theorem ledger_start (C : Clock) (S : LimiterSettings) (now : ℚ) (hops : ∀ i, (ops i).isAttempt = true) :
    Ledger C S ops (Running.start (Γ := Γ) now ops) where
  limiter := rfl
  answers := rfl
  clock := List.pairwise_singleton _ _
  threads := fun i => ⟨.fresh, .nil, follows_program (hops i)⟩

/-- A new event belongs to its own thread's events and to no other's. -/
theorem own_snoc (i : Nat) (events : List Event) (e : Event) :
    own i (events ++ [e]) = if e.thread = i then own i events ++ [e] else own i events := by
  rw [own, List.filter_append]
  by_cases h : e.thread = i
  · rw [if_pos h, List.filter_cons_of_pos (by simpa using h)]
    rfl
  · rw [if_neg h, List.filter_cons_of_neg (by simpa using h), List.filter_nil, List.append_nil]
    rfl

/-- A thread calls the limiter. -/
theorem Ledger.call (h : Ledger C S ops s) {i : Nat} {op : LimiterOp} {next : Except AuthError Bool → Service Γ Outcome}
    (hthread : s.threads i = .act (Act.ext (D := database Γ) (Ext.limiter op)) next) : Ledger C S ops (s.call C S i op next) where
  limiter := by
    show (step C S s.now op s.limiter).2 = (after C S (callsOf (s.events ++ [_]))).2
    rw [callsOf, List.map_append, List.map_singleton, after_snoc, h.limiter]
    rfl
  answers := by
    show (s.events ++ [_]).map Event.answer = (after C S (callsOf (s.events ++ [_]))).1
    rw [callsOf, List.map_append, List.map_append, List.map_singleton, List.map_singleton, after_snoc, h.answers, h.limiter]
    rfl
  clock := by
    show ((s.events ++ [_]).map Event.now ++ [s.now]).Pairwise (· ≤ ·)
    rw [List.map_append, List.map_singleton]
    refine List.pairwise_append.2 ⟨h.clock, List.pairwise_singleton _ _, fun t ht t' ht' => ?_⟩
    rw [List.mem_singleton.1 ht']
    rcases List.mem_append.1 ht with ht | ht
    · exact (List.pairwise_append.1 h.clock).2.2 t ht s.now (List.mem_singleton_self _)
    · exact le_of_eq (List.mem_singleton.1 ht)
  threads := by
    intro j
    obtain ⟨st, hdid, hfollows⟩ := h.threads j
    show ∃ st, (guessOf Γ (ops j)).Did (own j (s.events ++ [_])) st ∧
      (guessOf Γ (ops j)).Follows st (Function.update s.threads i _ j)
    rw [own_snoc]
    by_cases hj : i = j
    · subst hj
      rw [hthread] at hfollows
      obtain ⟨st', hadvances, hnext⟩ := hfollows (.ok ((step C S s.now op s.limiter).1.getD true))
      rw [if_pos rfl, Function.update_self]
      exact ⟨st', hdid.snoc hadvances, hnext⟩
    · rw [if_neg hj, Function.update_of_ne (Ne.symm hj)]
      exact ⟨st, hdid, hfollows⟩

/-- One statement or call of any thread keeps the ledger. -/
theorem Ledger.step (h : Ledger C S ops s) (hstep : RunningStep C S s s') : Ledger C S ops s' := by
  cases hstep with
  | @pass now hnow =>
    refine ⟨h.limiter, h.answers, ?_, h.threads⟩
    refine List.pairwise_append.2 ⟨(List.pairwise_append.1 h.clock).1, List.pairwise_singleton _ _, fun t ht t' ht' => ?_⟩
    rw [List.mem_singleton.1 ht']
    exact ((List.pairwise_append.1 h.clock).2.2 t ht s.now (List.mem_singleton_self _)).trans hnow
  | limiter hthread => exact h.call hthread
  | @other i a next hthread ha r =>
    refine ⟨h.limiter, h.answers, h.clock, fun j => ?_⟩
    obtain ⟨st, hdid, hfollows⟩ := h.threads j
    by_cases hj : i = j
    · subst hj
      rw [hthread] at hfollows
      obtain ⟨st', hstage, hnext⟩ := hfollows r
      have hsame : st' = st := by
        cases a with
        | ext x =>
          cases x with
          | limiter op => exact absurd rfl (ha op)
          | _ => exact hstage
        | _ => exact hstage
      refine ⟨st, hdid, ?_⟩
      show Guess.Follows _ st (Function.update s.threads i _ i)
      rw [Function.update_self, ← hsame]
      exact hnext
    · refine ⟨st, hdid, ?_⟩
      show Guess.Follows _ st (Function.update s.threads i _ j)
      rw [Function.update_of_ne (Ne.symm hj)]
      exact hfollows

/-- Every interleaving keeps the ledger. -/
theorem Ledger.run (h : Ledger C S ops s) (hrun : Interleaves C S s s') : Ledger C S ops s' := by
  induction hrun with
  | refl => exact h
  | tail _ hstep ih => exact ih.step hstep

end Ledger

/-! ## Counting -/

section Counting

variable {C : Clock} {S : LimiterSettings} {ops : Nat → Op} {s : Running Γ} {scope : Scope} {key : BucketKey}

/-- A call that empties nothing adds its time to a bucket exactly when it counts on the key. -/
theorem told_op {now : ℚ} {op : LimiterOp} {times : List ℚ} (hscope : 1 ≤ S.maxFailures scope)
    (hop : op.empties scope key = false) :
    told now op scope key times = if op.countsOn scope key = true then times ++ [now] else times := by
  cases op with
  | recordFailure ip email includeEmailBucket =>
    cases scope with
    | emailIp =>
      cases includeEmailBucket <;> simp [told, effects, Effect.tell, LimiterOp.countsOn, eq_comm]
    | ip => cases includeEmailBucket <;> simp [told, effects, Effect.tell, LimiterOp.countsOn, eq_comm]
    | email => cases includeEmailBucket <;> simp [told, effects, Effect.tell, LimiterOp.countsOn, eq_comm]
    | registrationIp => exact absurd hscope (by simp [LimiterSettings.maxFailures])
    | oidcAuthorizationIp => exact absurd hscope (by simp [LimiterSettings.maxFailures])
  | recordSuccess ip email =>
    have hkey : ¬(scope = .emailIp ∧ key = emailIpKey ip email) := by
      rintro ⟨rfl, rfl⟩
      simp [LimiterOp.empties] at hop
    exact if_neg hkey
  | recordRegistration ip =>
    refine if_neg ?_
    rintro ⟨rfl, -⟩
    exact absurd hscope (by simp [LimiterSettings.maxFailures])
  | recordOidcAuthorization ip =>
    refine if_neg ?_
    rintro ⟨rfl, -⟩
    exact absurd hscope (by simp [LimiterSettings.maxFailures])
  | _ => rfl

/-- A bucket that is not emptied holds the times of the failures that were counted in it. -/
theorem tally_events {events : List Event} {times : List ℚ} (hscope : 1 ≤ S.maxFailures scope)
    (hempties : ∀ e ∈ events, e.op.empties scope key = false) : tally scope key (callsOf events) times =
      times ++ (events.filter fun e => e.op.countsOn scope key).map Event.now := by
  induction events generalizing times with
  | nil => exact (List.append_nil _).symm
  | cons e events ih =>
    have hrest := fun e' he' => hempties e' (List.mem_cons_of_mem e he')
    rw [callsOf, List.map_cons, tally, told_op hscope (hempties e (List.mem_cons_self ..))]
    refine (ih hrest).trans ?_
    split
    · rw [List.filter_cons_of_pos ‹_›, List.map_cons, List.append_assoc, List.singleton_append]
    · rw [List.filter_cons_of_neg ‹_›]

/-- Who is allowed to guess finds fewer failures than the limit in each bucket where the guess counts. -/
theorem count_of_check {g : Guess} {op : LimiterOp} {now : ℚ} {H : LimiterSpec.History} (hop : g.Checks op)
    (hkey : (LimiterOp.recordFailure g.ip g.email g.countsEmail).countsOn scope key = true)
    (hallowed : (LimiterSpec.step C S now op H).1 = some true) :
    (LimiterSpec.count C S scope key now H : Int) < S.maxFailures scope := by
  cases hop with
  | isAllowed =>
    simp only [LimiterSpec.step, Option.some.injEq, Bool.and_eq_true, decide_eq_true_eq] at hallowed
    cases scope with
    | emailIp => exact of_decide_eq_true hkey ▸ hallowed.1.1
    | ip => exact of_decide_eq_true hkey ▸ hallowed.1.2
    | email => exact of_decide_eq_true (Bool.and_eq_true_iff.1 hkey).2 ▸ hallowed.2
    | _ => cases hkey
  | deletion hemail =>
    simp only [LimiterSpec.step, Option.some.injEq, Bool.and_eq_true, decide_eq_true_eq] at hallowed
    cases scope with
    | emailIp => exact of_decide_eq_true hkey ▸ hallowed.1
    | ip => exact of_decide_eq_true hkey ▸ hallowed.2
    | email =>
      -- the failure of a deletion does not count for the email
      have hcounts := (Bool.and_eq_true_iff.1 hkey).1
      rw [hemail] at hcounts
      cases hcounts
    | _ => cases hkey

/-- A list is split at one of the elements that a predicate keeps. -/
theorem exists_split {α : Type} {p : α → Bool} {l : List α} {n : Nat} (h : n < (l.filter p).length) :
    ∃ before x rest, l = before ++ x :: rest ∧ p x = true ∧ (before.filter p).length = n := by
  induction l generalizing n with
  | nil => exact absurd h (Nat.not_lt_zero n)
  | cons x l ih =>
    by_cases hx : p x = true
    · cases n with
      | zero => exact ⟨[], x, l, rfl, hx, rfl⟩
      | succ n =>
        rw [List.filter_cons_of_pos hx] at h
        obtain ⟨before, y, rest, rfl, hy, hn⟩ := ih (Nat.lt_of_succ_lt_succ h)
        exact ⟨x :: before, y, rest, rfl, hy, by rw [List.filter_cons_of_pos hx, List.length_cons, hn]⟩
    · rw [List.filter_cons_of_neg hx] at h
      obtain ⟨before, y, rest, rfl, hy, hn⟩ := ih h
      exact ⟨x :: before, y, rest, rfl, hy, by rw [List.filter_cons_of_neg hx, hn]⟩

/-- Behind a recorded failure stands an admitting check of the same thread, and after it no second failure. -/
theorem Ledger.failure (h : Ledger C S ops s) {before rest : List Event} {e : Event} (hevents : s.events = before ++ e :: rest)
    (he : isFailure e.op = true) :
    e.op = .recordFailure (guessOf Γ (ops e.thread)).ip (guessOf Γ (ops e.thread)).email (guessOf Γ (ops e.thread)).countsEmail ∧
      (∃ c ∈ before, c.thread = e.thread ∧ (guessOf Γ (ops e.thread)).Checks c.op ∧ c.answer.getD true = true) ∧
      ∀ e' ∈ rest, isFailure e'.op = true → e'.thread ≠ e.thread := by
  obtain ⟨st, hdid, -⟩ := h.threads e.thread
  have hsplit : own e.thread s.events = own e.thread before ++ e :: own e.thread rest := by
    rw [hevents, own, List.filter_append, List.filter_cons_of_pos (by simp)]
    rfl
  obtain ⟨hop, ⟨c, hc, hchecks, hanswer⟩, -, hrest⟩ := did_failure hdid hsplit he
  obtain ⟨hc, hthread⟩ := List.mem_filter.1 hc
  refine ⟨hop, ⟨c, hc, of_decide_eq_true hthread, hchecks, hanswer⟩, fun e' he' hop' heq => ?_⟩
  have hnone := hrest e' (List.mem_filter.2 ⟨he', decide_eq_true heq⟩)
  rw [hop'] at hnone
  cases hnone

/-- The limiter answers for what was counted before. -/
theorem Ledger.answer (h : Ledger C S ops s) (hcap : 1 ≤ S.maxBucketsPerScope) {before rest : List Event} {c : Event}
    (hevents : s.events = before ++ c :: rest) :
    c.answer = (LimiterSpec.step C S c.now c.op (counted C S (callsOf before))).1 := by
  have hcalls : callsOf s.events = callsOf before ++ ⟨c.now, c.op, false⟩ :: callsOf rest := by
    rw [hevents, callsOf, List.map_append, List.map_cons]
    rfl
  have hclock : ((callsOf before ++ ⟨c.now, c.op, false⟩ :: callsOf rest).map Call.now).Pairwise (· ≤ ·) := by
    rw [← hcalls, callsOf, List.map_map]
    exact (List.pairwise_append.1 h.clock).1
  have hanswer := answer_spec (C := C) hcap hclock
  rw [← hcalls, ← h.answers, hevents, callsOf, List.length_map, List.map_append, List.getElem?_append_right (by simp)] at hanswer
  simpa [callsOf] using hanswer

/-- Only a recorded failure counts on a key. -/
theorem isFailure_of_countsOn {op : LimiterOp} (h : op.countsOn scope key = true) : isFailure op = true := by
  cases op with
  | recordFailure ip email includeEmailBucket => rfl
  | _ => cases h

/-- A call that counts on a key asks nothing. -/
theorem not_asksFailures_of_countsOn {op : LimiterOp} (h : op.countsOn scope key = true) : op.asksFailures = false := by
  cases op with
  | recordFailure ip email includeEmailBucket => rfl
  | _ => cases h

/-- A check that lets pass answers yes. -/
theorem answer_of_checks {g : Guess} {op : LimiterOp} {now : ℚ} {H : LimiterSpec.History} (hop : g.Checks op)
    (h : (LimiterSpec.step C S now op H).1.getD true = true) :
    op.asksFailures = true ∧ (LimiterSpec.step C S now op H).1 = some true := by
  cases hop with
  | isAllowed => exact ⟨rfl, congrArg some h⟩
  | deletion hemail => exact ⟨rfl, congrArg some h⟩

/-- The failure is counted in the bucket, in the interval. -/
abbrev countsIn (scope : Scope) (key : BucketKey) (a b : ℚ) (e : Event) : Bool :=
  e.op.countsOn scope key && (a ≤ e.now && e.now ≤ b)

/-- The failures of a window that were counted before an allowed check are fewer than the limit. -/
theorem Ledger.before_check (h : Ledger C S ops s) (hcap : 1 ≤ S.maxBucketsPerScope) (hlimit : 1 ≤ S.maxFailures scope)
    (hempties : ∀ e ∈ s.events, e.op.empties scope key = false) (hbelow : s.limiter.capWarningScopes = [])
    {before rest : List Event} {c : Event} (hevents : s.events = before ++ c :: rest) {g : Guess} (hchecks : g.Checks c.op)
    (hanswer : c.answer.getD true = true)
    (hkey : (LimiterOp.recordFailure g.ip g.email g.countsEmail).countsOn scope key = true) {a b : ℚ} (hb : c.now ≤ b)
    (hwindow : C.sub b a ≤ S.windowSeconds) : ((before.filter (countsIn scope key a b)).length : Int) < S.maxFailures scope := by
  rw [h.answer hcap hevents] at hanswer
  have hcount := count_of_check hchecks hkey (answer_of_checks hchecks hanswer).2
  refine lt_of_le_of_lt (Int.ofNat_le.2 ?_) hcount
  have hcalls : callsOf s.events = callsOf before ++ ⟨c.now, c.op, false⟩ :: callsOf rest := by
    rw [hevents, callsOf, List.map_append, List.map_cons]
    rfl
  have hclock : ((callsOf before ++ ⟨c.now, c.op, false⟩ :: callsOf rest).map Call.now).Pairwise (· ≤ ·) := by
    rw [← hcalls, callsOf, List.map_map]
    exact (List.pairwise_append.1 h.clock).1
  have hwarn : BelowCaps C S (callsOf before ++ ⟨c.now, c.op, false⟩ :: callsOf rest) := by
    rw [BelowCaps, ← hcalls, ← h.limiter]
    exact hbelow
  have htimes : timesOf (counted C S (callsOf before) scope) key =
      (before.filter fun e => e.op.countsOn scope key).map Event.now := by
    rw [times_before hcap hclock hwarn, tally_events hlimit fun e he => hempties e (hevents ▸ List.mem_append_left _ he)]
    exact List.nil_append _
  have hwindowOf : S.windowOf scope = S.windowSeconds := by
    cases scope with
    | registrationIp => exact absurd hlimit (by simp [LimiterSettings.maxFailures])
    | _ => rfl
  rw [LimiterSpec.count, liveCount, htimes, Window.alive, List.filter_map, List.length_map, List.filter_filter]
  refine (List.monotone_filter_right before fun e he => ?_).length_le
  -- what was counted from `a` on is live at the check
  simp only [Bool.and_eq_true, decide_eq_true_eq] at he
  refine Bool.and_eq_true_iff.2 ⟨?_, he.1⟩
  show LimiterSpec.window C (S.windowOf scope) |>.live c.now e.now
  rw [hwindowOf]
  exact decide_eq_true ((C.sub_mono hb he.2.1).trans hwindow)

/-- Later events carry later times. -/
theorem Ledger.now_le (h : Ledger C S ops s) {before rest : List Event} {c e : Event} (hevents : s.events = before ++ c :: rest)
    (he : e ∈ rest) : c.now ≤ e.now := by
  have hclock := (List.pairwise_append.1 h.clock).1
  rw [hevents, List.map_append, List.map_cons] at hclock
  exact (List.pairwise_cons.1 (List.pairwise_append.1 hclock).2.1).1 _ (List.mem_map_of_mem he)

/-- Once the limit is reached, only who was allowed before counts failures. -/
theorem Ledger.checked_before (h : Ledger C S ops s) (hcap : 1 ≤ S.maxBucketsPerScope) (hlimit : 1 ≤ S.maxFailures scope)
    (hempties : ∀ e ∈ s.events, e.op.empties scope key = false) (hbelow : s.limiter.capWarningScopes = []) {a b : ℚ}
    (hwindow : C.sub b a ≤ S.windowSeconds) {before rest : List Event} {q e : Event} (hevents : s.events = before ++ q :: rest)
    (hq : countsIn scope key a b q = true)
    (hreached : S.maxFailures scope ≤ (before.filter (countsIn scope key a b)).length + 1) (he : e ∈ q :: rest)
    (hon : e.op.countsOn scope key = true) (hb : e.now ≤ b) :
    ∃ c ∈ before, c.thread = e.thread ∧ c.op.asksFailures = true ∧ c.answer = some true := by
  obtain ⟨mid, last, hsplit⟩ := List.append_of_mem he
  have hevents₀ : s.events = (before ++ mid) ++ e :: last := by rw [hevents, hsplit, List.append_assoc]
  obtain ⟨hop, ⟨check, hcheck, hthread, hchecks, hanswer⟩, -⟩ := h.failure hevents₀ (isFailure_of_countsOn hon)
  obtain ⟨fore, back, hfore⟩ := List.append_of_mem hcheck
  have hevents' : s.events = fore ++ check :: (back ++ e :: last) := by
    rw [hevents, hsplit, ← List.append_assoc, hfore, List.append_assoc, List.cons_append]
  have hallowed := hanswer
  rw [h.answer hcap hevents'] at hallowed
  obtain ⟨hasks, hyes⟩ := answer_of_checks hchecks hallowed
  refine ⟨check, ?_, hthread, hasks, (h.answer hcap hevents').trans hyes⟩
  rcases List.mem_append.1 hcheck with hcheck | hcheck
  · exact hcheck
  · -- a check after the failure that reaches the limit is refused
    exfalso
    obtain ⟨fore, back, rfl⟩ := List.append_of_mem hcheck
    have hevents' : s.events = (before ++ fore) ++ check :: (back ++ e :: last) := by
      rw [hevents, hsplit, List.append_assoc, List.append_assoc, List.cons_append]
    have hle : check.now ≤ e.now := h.now_le hevents' (List.mem_append_right _ (List.mem_cons_self ..))
    rw [hop] at hon
    have hfewer := h.before_check hcap hlimit hempties hbelow hevents' hchecks hanswer hon (hle.trans hb) hwindow
    cases fore with
    | nil =>
      -- the check is not itself a failure
      obtain rfl := (List.cons.inj hsplit).1
      rw [not_asksFailures_of_countsOn (Bool.and_eq_true_iff.1 hq).1] at hasks
      cases hasks
    | cons q' fore =>
      obtain rfl := (List.cons.inj hsplit).1
      rw [List.filter_append, List.length_append, List.filter_cons_of_pos hq, List.length_cons] at hfewer
      omega

/-- A relation that holds across every split of a list holds pairwise. -/
theorem pairwise_of_splits {α : Type} {R : α → α → Prop} {l : List α}
    (h : ∀ before x rest, l = before ++ x :: rest → ∀ y ∈ rest, R x y) : l.Pairwise R := by
  induction l with
  | nil => exact .nil
  | cons x l ih =>
    refine .cons (h [] x l rfl) (ih fun before y rest hl => h (x :: before) y rest ?_)
    rw [hl]
    rfl

/-- No thread counts two failures. -/
theorem Ledger.nodup_threads (h : Ledger C S ops s) {events : List Event} (hevents : events <+ s.events)
    (hfailure : ∀ e ∈ events, isFailure e.op = true) : (events.map Event.thread).Nodup := by
  have hall : s.events.Pairwise fun e e' => isFailure e.op = true → isFailure e'.op = true → e.thread ≠ e'.thread :=
    pairwise_of_splits fun before e rest hsplit e' he' hop hop' => ((h.failure hsplit hop).2.2 e' he' hop').symm
  refine List.pairwise_map.2 ((hall.sublist hevents).imp_of_mem fun he he' hne => ?_)
  exact hne (hfailure _ he) (hfailure _ he')

end Counting

end BruteForceAux

open BruteForceAux

/-- Password attempts overlap in any way below the caps. When at most `c` of those that count in a bucket are between the check
and the failure at any time, a window holds at most `c - 1` failures more than the limit. -/
theorem concurrent_guesses_bounded (Γ : Ctx) (C : Clock) (S : LimiterSettings) (hcap : 1 ≤ S.maxBucketsPerScope) (scope : Scope)
    (hlimit : 1 ≤ S.maxFailures scope) (key : BucketKey) (ops : Nat → Op) (hops : ∀ i, (ops i).isAttempt = true) (start : ℚ)
    (s : Running Γ) (hrun : Interleaves C S (Running.start start ops) s) (hbelow : s.limiter.capWarningScopes = [])
    (hempties : ∀ e ∈ s.events, e.op.empties scope key = false) (c : Nat) (hc : 1 ≤ c)
    (hoverlap : ∀ n (is : Finset Nat), (∀ i ∈ is, UnderWay scope key s.events n i) → is.card ≤ c) (a b : ℚ)
    (hwindow : C.sub b a ≤ S.windowSeconds) :
    ((s.events.filter fun e => e.op.countsOn scope key && (a ≤ e.now && e.now ≤ b)).length : Int) ≤
      S.maxFailures scope + c - 1 := by
  have hledger : Ledger C S ops s := (ledger_start C S start hops).run hrun
  by_contra hmore
  change ¬(((s.events.filter (countsIn scope key a b)).length : Int) ≤ S.maxFailures scope + c - 1) at hmore
  -- the failure that reaches the limit
  have hreach : (S.maxFailures scope).toNat - 1 < (s.events.filter (countsIn scope key a b)).length := by omega
  obtain ⟨before, q, rest, hevents, hq, hlength⟩ := exists_split hreach
  have hcounts : ∀ e ∈ (q :: rest).filter (countsIn scope key a b), e.op.countsOn scope key = true ∧ e.now ≤ b := by
    intro e he
    have hin := (List.mem_filter.1 he).2
    simp only [Bool.and_eq_true, decide_eq_true_eq] at hin
    exact ⟨hin.1, hin.2.2⟩
  have hnodup : (((q :: rest).filter (countsIn scope key a b)).map Event.thread).Nodup := by
    refine hledger.nodup_threads ?_ fun e he => isFailure_of_countsOn (hcounts e he).1
    rw [hevents]
    exact List.filter_sublist.trans (List.sublist_append_right _ _)
  have hunder := hoverlap before.length (((q :: rest).filter (countsIn scope key a b)).map Event.thread).toFinset ?_
  · rw [List.toFinset_card_of_nodup hnodup, List.length_map] at hunder
    have hsum : (s.events.filter (countsIn scope key a b)).length =
        (before.filter (countsIn scope key a b)).length + ((q :: rest).filter (countsIn scope key a b)).length := by
      rw [hevents, List.filter_append, List.length_append]
    omega
  · intro i hi
    obtain ⟨e, he, rfl⟩ := List.mem_map.1 (List.mem_toFinset.1 hi)
    obtain ⟨hon, hb⟩ := hcounts e he
    have hrest : e ∈ q :: rest := List.mem_of_mem_filter he
    obtain ⟨check, hcheck, hthread, hasks, hyes⟩ := hledger.checked_before hcap hlimit hempties hbelow hwindow hevents hq
      (by omega) hrest hon hb
    refine ⟨⟨check, ?_, hthread, hasks, hyes⟩, e, ?_, rfl, hon⟩
    · rw [hevents, List.take_left]
      exact hcheck
    · rw [hevents, List.drop_left]
      exact hrest

namespace Overlapping

open Elsewhere

def ip : Text := "10.0.0.1".toList

/-- A registration with a short password. -/
def guess : Op := .register email "short".toList .en none (some ip) none

/-- Both registrations are allowed before either of them counts its failure. -/
def events : List Event :=
  [⟨0, 0, .isAllowed ip email, some true⟩, ⟨0, 0, .isRegistrationAllowed ip, some true⟩,
    ⟨1, 0, .isAllowed ip email, some true⟩, ⟨1, 0, .isRegistrationAllowed ip, some true⟩,
    ⟨0, 0, .recordFailure ip email false, none⟩, ⟨1, 0, .recordFailure ip email false, none⟩]

/-- Two registrations that overlap: the events above are those of a run. -/
theorem exists_run : ∃ s : Running Γ₀, Interleaves Clock.exact S₀ (Running.start 0 fun _ => guess) s ∧ s.events = events ∧
    s.limiter.capWarningScopes = [] := by
  refine ⟨_, .tail (.tail (.tail (.tail (.tail (.tail .refl (.limiter (i := 0) rfl)) (.limiter (i := 0) rfl))
    (.limiter (i := 1) rfl)) (.limiter (i := 1) rfl)) (.limiter (i := 0) rfl)) (.limiter (i := 1) rfl), ?_, ?_⟩
  · decide +kernel
  · decide +kernel

end Overlapping

open Overlapping Elsewhere in
/-- One failure is allowed, and two that overlap are counted. -/
theorem concurrent_guesses_bounded_twice : ∃ s : Running Γ₀,
    Interleaves Clock.exact S₀ (Running.start 0 fun _ => guess) s ∧ s.events = events ∧
      ((s.events.filter fun e => e.op.countsOn .emailIp (emailIpKey ip email) && (0 ≤ e.now && e.now ≤ 300)).length : Int) ≤
        S₀.maxFailures .emailIp + (2 : Nat) - 1 := by
  obtain ⟨s, hrun, hevents, hbelow⟩ := exists_run
  refine ⟨s, hrun, hevents, concurrent_guesses_bounded Γ₀ Clock.exact S₀ (by decide) .emailIp (by decide) _ (fun _ => guess)
    (fun _ => rfl) 0 s hrun hbelow ?_ 2 (by decide) ?_ 0 300 (by decide +kernel)⟩
  · rw [hevents]
    decide +kernel
  · intro n is hunder
    have hsub : is ⊆ {0, 1} := by
      intro i hi
      obtain ⟨-, e, he, hthread, -⟩ := hunder i hi
      have hall : ∀ e ∈ events, e.thread ∈ ({0, 1} : Finset Nat) := by decide +kernel
      rw [← hthread]
      exact hall e (hevents ▸ List.mem_of_mem_drop he)
    exact Finset.card_le_card hsub

end InMemory

end AuthService
