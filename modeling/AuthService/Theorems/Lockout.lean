import AuthService.LimiterCalls
import AuthService.Theorems.RateLimiter

/-!
# Nobody is locked out from elsewhere

The limiter calls that registrations and account deletions make for other addresses leave the answers for an address and an
email alone. What a bucket stores depends on the calls that record in it; only the caps connect the buckets, and they can only
lose records.
-/

namespace AuthService

open SlidingWindow
open scoped List

namespace InMemory

/-- A call of the limiter at a reading of its clock: of the original history, or inserted. -/
structure Call where
  now : ℚ
  op : LimiterOp
  inserted : Bool

/-- The history without what was inserted. -/
def original (calls : List Call) : List Call := calls.filter fun c => !c.inserted

variable (C : Clock) (S : LimiterSettings)

/-- A new limiter after the calls. -/
def after (calls : List Call) : List (Option Bool) × Limiter := run C S (calls.map fun c => (c.now, c.op)) Limiter.new

/-- The cap of no scope refused a bucket. -/
def BelowCaps (calls : List Call) : Prop := (after C S calls).2.capWarningScopes = []

instance (calls : List Call) : Decidable (BelowCaps C S calls) := inferInstanceAs (Decidable (_ = _))

/-- What `EmailStr` accepts has neither a quoted local part nor an address literal, so there is no colon in it. -/
def IsEmail (e : Text) : Prop := ':' ∉ e

instance (e : Text) : Decidable (IsEmail e) := inferInstanceAs (Decidable (_ ∉ _))

/-- A call that a registration or an account deletion makes for another address. -/
inductive FromElsewhere (Γ : Ctx) (i : BucketKey) (op : LimiterOp) : Prop
  | register {email password : Text} {languageCode : LanguageCode} {token ipAddress userAgent : Option Text}
      (elsewhere : rateLimitIp ipAddress ≠ i) (isEmail : IsEmail (Γ.normalizeEmail email))
      (call : MayCall op (AuthService.register email password languageCode token ipAddress userAgent : Service Γ _))
  | deleteAccount {context : AuthenticatedSessionContext} {confirmEmail : Text} {password ipAddress userAgent : Option Text}
      (elsewhere : rateLimitIp ipAddress ≠ i) (isEmail : IsEmail (Γ.normalizeEmail context.user.email))
      (call : MayCall op (AuthService.deleteAccount context confirmEmail password ipAddress userAgent : Service Γ _))

namespace LockoutAux

open TracksAux

variable {C S} {L : Limiter} {H : LimiterSpec.History} {now : ℚ} {scope : Scope} {key : BucketKey}

/-! ## Effects -/

/-- What an operation does to the buckets. -/
inductive Effect where
  | record (scope : Scope) (key : BucketKey)
  | forget (key : BucketKey)

/-- The effects of an operation, in order. -/
def effects : LimiterOp → List Effect
  | .recordFailure ip email includeEmailBucket =>
    [.record .emailIp (emailIpKey ip email), .record .ip ip] ++ if includeEmailBucket then [.record .email email] else []
  | .recordSuccess ip email => [.forget (emailIpKey ip email)]
  | .recordRegistration ip => [.record .registrationIp ip]
  | .recordOidcAuthorization ip => [.record .oidcAuthorizationIp ip]
  | _ => []

/-- An effect on the specification. -/
def Effect.spec (C : Clock) (S : LimiterSettings) (now : ℚ) (H : LimiterSpec.History) : Effect → LimiterSpec.History
  | .record scope key => LimiterSpec.record C S scope key now H
  | .forget key => Function.update H .emailIp (SlidingWindow.forget (H .emailIp) key)

/-- An effect on the limiter. -/
def Effect.run (C : Clock) (S : LimiterSettings) (now : ℚ) (L : Limiter) : Effect → Limiter
  | .record scope key => InMemory.record C S scope key now (S.windowOf scope) L
  | .forget key => { L with buckets := Function.update L.buckets .emailIp ((L.buckets .emailIp).erase key) }

/-- An effect on the times of a bucket without caps. -/
def Effect.tell (now : ℚ) (scope : Scope) (key : BucketKey) (times : List ℚ) : Effect → List ℚ
  | .record scope' key' => if scope = scope' ∧ key = key' then times ++ [now] else times
  | .forget key' => if scope = .emailIp ∧ key = key' then [] else times

/-- The times of a bucket without caps, after an operation. -/
def told (now : ℚ) (op : LimiterOp) (scope : Scope) (key : BucketKey) (times : List ℚ) : List ℚ :=
  (effects op).foldl (Effect.tell now scope key) times

/-- An operation of the specification is the sequence of its effects. -/
theorem spec_step (op : LimiterOp) : (LimiterSpec.step C S now op H).2 = (effects op).foldl (Effect.spec C S now) H := by
  cases op with
  | recordFailure ip email includeEmailBucket => cases includeEmailBucket <;> rfl
  | _ => rfl

/-- The limiter has the effects, and its checks leave the warnings alone. -/
theorem warnings_step (op : LimiterOp) :
    (step C S now op L).2.capWarningScopes = ((effects op).foldl (Effect.run C S now) L).capWarningScopes := by
  cases op with
  | recordFailure ip email includeEmailBucket => cases includeEmailBucket <;> rfl
  | _ => rfl

/-! ## Records -/

/-- An effect keeps the order of two buckets by sublists. -/
theorem tell_mono {e : Effect} {times times' : List ℚ} (h : times <+ times') :
    e.tell now scope key times <+ e.tell now scope key times' := by
  cases e with
  | record scope' key' =>
    rw [Effect.tell, Effect.tell]
    split
    · exact h.append (List.Sublist.refl _)
    · exact h
  | forget key' =>
    rw [Effect.tell, Effect.tell]
    split
    · exact List.Sublist.refl _
    · exact h

/-- The times of a bucket after something was counted in a scope. -/
theorem times_counted (scope scope' : Scope) (key key' : BucketKey) (now : ℚ) (H : LimiterSpec.History) :
    timesOf (Function.update H scope' (H scope' ++ [(key', now)]) scope) key =
      if scope = scope' ∧ key = key' then timesOf (H scope) key ++ [now] else timesOf (H scope) key := by
  by_cases hscope : scope = scope'
  · subst hscope
    rw [Function.update_self, timesOf_counted]
    simp
  · rw [Function.update_of_ne hscope, if_neg fun h => hscope h.1]

/-- Forgetting empties the one bucket it names. -/
theorem times_forgotten (scope : Scope) (key key' : BucketKey) (H : LimiterSpec.History) :
    timesOf (Function.update H .emailIp (SlidingWindow.forget (H .emailIp) key') scope) key =
      if scope = .emailIp ∧ key = key' then [] else timesOf (H scope) key := by
  by_cases hscope : scope = .emailIp
  · subst hscope
    rw [Function.update_self, timesOf_forget]
    simp
  · rw [Function.update_of_ne hscope, if_neg fun h => hscope h.1]

/-- Whatever the caps refuse, a bucket holds at most what it was told. -/
theorem times_effect (C : Clock) (S : LimiterSettings) (e : Effect) :
    timesOf (e.spec C S now H scope) key <+ e.tell now scope key (timesOf (H scope) key) := by
  cases e with
  | record scope' key' =>
    rw [Effect.spec, Effect.tell, LimiterSpec.record, SlidingWindow.record]
    by_cases hroom : 0 < liveCount (LimiterSpec.window C (S.windowOf scope')) (H scope') now key' ∨
        ((liveKeys (LimiterSpec.window C (S.windowOf scope')) (H scope') now).length : Int) < S.maxBucketsPerScope
    · rw [if_pos hroom, times_counted]
    · rw [if_neg hroom, Function.update_eq_self]
      split
      · exact List.sublist_append_left _ _
      · exact List.Sublist.refl _
  | forget key' => exact (times_forgotten scope key key' H) ▸ List.Sublist.refl _

/-- A cap that refused a bucket leaves a warning. -/
theorem warned_ne_nil (scopes : List Scope) (scope : Scope) : warnBucketCapReached scopes scope ≠ [] := by
  unfold warnBucketCapReached
  split
  · exact List.ne_nil_of_mem ‹_›
  · simp

/-- A bucket is refused when the key has no live event and there is no room for another. -/
theorem refused_of_full {W : Int} {cap : Int} {buckets : Buckets} {events : List (BucketKey × ℚ)}
    (h : Tracks (LimiterSpec.window C W) cap now buckets events) (hdead : ¬0 < liveCount (LimiterSpec.window C W) events now key)
    (hfull : ¬((liveKeys (LimiterSpec.window C W) events now).length : Int) < cap) :
    (getOrCreateBucket C buckets key cap now W).2 = none := by
  obtain ⟨hlive, -, htracks⟩ := getExistingBucket_spec h key
  have hempty : (getExistingBucket C buckets key now W).2 = [] := by
    rw [liveCount, ← hlive] at hdead
    exact List.length_eq_zero_iff.1 (Nat.eq_zero_of_not_pos hdead)
  unfold getOrCreateBucket
  generalize getExistingBucket C buckets key now W = found at hempty htracks
  obtain ⟨found, bucket⟩ := found
  dsimp only at hempty htracks ⊢
  -- what is left after the eviction still tracks the events
  obtain ⟨room, hroom, hrtracks⟩ : ∃ room : Buckets,
      (if cap ≤ found.size then evictExpiredBuckets C found cap now W else found) = room ∧
      Tracks (LimiterSpec.window C W) cap now room events := by
    split
    · exact ⟨_, rfl, htracks.thinned (evictLoop_spec C cap now W htracks.sorted htracks.ordered).1⟩
    · exact ⟨_, rfl, htracks⟩
  have hlength := length_liveKeys_le hrtracks
  rw [if_neg (not_not_intro hempty), hroom, if_pos (by omega)]

variable (scope key) in
/-- Without a warning there was none before, and a bucket holds exactly what it was told. -/
theorem exact_effect {e : Effect} (h : Agree C S now L H) (hwarn : (e.run C S now L).capWarningScopes = []) :
    L.capWarningScopes = [] ∧ timesOf (e.spec C S now H scope) key = e.tell now scope key (timesOf (H scope) key) := by
  cases e with
  | record scope' key' =>
    have hsome : (getOrCreateBucket C (L.buckets scope') key' S.maxBucketsPerScope now (S.windowOf scope')).2 ≠ none ∧
        L.capWarningScopes = [] := by
      rw [Effect.run, InMemory.record] at hwarn
      generalize getOrCreateBucket C (L.buckets scope') key' S.maxBucketsPerScope now (S.windowOf scope') = found at hwarn
      obtain ⟨buckets, bucket⟩ := found
      cases bucket with
      | none => exact absurd hwarn (warned_ne_nil _ _)
      | some bucket => exact ⟨nofun, hwarn⟩
    refine ⟨hsome.2, ?_⟩
    rw [Effect.spec, LimiterSpec.record, SlidingWindow.record, if_pos]
    · exact times_counted scope scope' key key' now H
    · by_contra hroom
      rw [not_or] at hroom
      exact hsome.1 (refused_of_full (h scope') hroom.1 hroom.2)
  | forget key' => exact ⟨hwarn, times_forgotten scope key key' H⟩

/-- One effect keeps the limiter in agreement with its history. -/
theorem agree_effect {e : Effect} (h : Agree C S now L H) : Agree C S now (e.run C S now L) (e.spec C S now H) := by
  cases e with
  | record scope key => exact record_spec h scope key
  | forget key => exact h.update ((h .emailIp).forgotten key) _

/-! ## Operations -/

/-- Any effects keep the order of two buckets by sublists. -/
theorem foldl_tell_mono {es : List Effect} {times times' : List ℚ} (h : times <+ times') :
    es.foldl (Effect.tell now scope key) times <+ es.foldl (Effect.tell now scope key) times' := by
  induction es generalizing times times' with
  | nil => exact h
  | cons e es ih => exact ih (tell_mono h)

/-- An operation records in a bucket at most what it would record without caps. -/
theorem times_step (C : Clock) (S : LimiterSettings) (op : LimiterOp) :
    timesOf ((LimiterSpec.step C S now op H).2 scope) key <+ told now op scope key (timesOf (H scope) key) := by
  rw [spec_step, told]
  generalize effects op = es
  induction es generalizing H with
  | nil => exact List.Sublist.refl _
  | cons e es ih => exact (ih (H := e.spec C S now H)).trans (foldl_tell_mono (times_effect C S e))

variable (scope key) in
/-- Where no cap is reached an operation records exactly what it would without caps. -/
theorem exact_step {op : LimiterOp} (h : Agree C S now L H) (hwarn : (step C S now op L).2.capWarningScopes = []) :
    L.capWarningScopes = [] ∧
      timesOf ((LimiterSpec.step C S now op H).2 scope) key = told now op scope key (timesOf (H scope) key) := by
  rw [warnings_step] at hwarn
  rw [spec_step, told]
  generalize effects op = es at hwarn
  induction es generalizing L H with
  | nil => exact ⟨hwarn, rfl⟩
  | cons e es ih =>
    obtain ⟨hnone, htimes⟩ := ih (agree_effect h) hwarn
    obtain ⟨hfirst, hone⟩ := exact_effect scope key h hnone
    refine ⟨hfirst, htimes.trans ?_⟩
    rw [hone]
    rfl

/-! ## Runs -/

/-- The times of a bucket without caps, after a run. -/
def tally (scope : Scope) (key : BucketKey) : List Call → List ℚ → List ℚ
  | [], times => times
  | c :: calls, times => tally scope key calls (told c.now c.op scope key times)

/-- The calls of a run. -/
def ops (calls : List Call) : List (ℚ × LimiterOp) := calls.map fun c => (c.now, c.op)

/-- Any calls keep the order of two buckets by sublists. -/
theorem tally_mono {calls : List Call} {times times' : List ℚ} (h : times <+ times') :
    tally scope key calls times <+ tally scope key calls times' := by
  induction calls generalizing times times' with
  | nil => exact h
  | cons c calls ih => exact ih (foldl_tell_mono h)

/-- A run records in a bucket at most what it would record without caps. -/
theorem times_run (C : Clock) (S : LimiterSettings) (calls : List Call) :
    timesOf ((LimiterSpec.run C S (ops calls) H).2 scope) key <+ tally scope key calls (timesOf (H scope) key) := by
  induction calls generalizing H with
  | nil => exact List.Sublist.refl _
  | cons c calls ih => exact ih.trans (tally_mono (times_step C S c.op))

variable (scope key) in
/-- Where no cap is reached a run records exactly what it would without caps. -/
theorem exact_run {calls : List Call} (h : Agree C S now L H) (hclock : (now :: calls.map Call.now).Pairwise (· ≤ ·))
    (hwarn : (run C S (ops calls) L).2.capWarningScopes = []) : L.capWarningScopes = [] ∧
      timesOf ((LimiterSpec.run C S (ops calls) H).2 scope) key = tally scope key calls (timesOf (H scope) key) := by
  induction calls generalizing L H now with
  | nil => exact ⟨hwarn, rfl⟩
  | cons c calls ih =>
    rw [List.map_cons, List.pairwise_cons] at hclock
    have hagree : Agree C S c.now L H := fun scope => (h scope).mono (hclock.1 c.now (List.mem_cons_self ..))
    obtain ⟨hnone, htimes⟩ := ih (step_spec hagree c.op).2 hclock.2 hwarn
    obtain ⟨hfirst, hone⟩ := exact_step scope key hagree hnone
    refine ⟨hfirst, htimes.trans ?_⟩
    rw [hone]
    rfl

/-! ## Buckets of one address and email -/

/-- The buckets that an answer for an address and an email looks at. -/
def Watched (i e : BucketKey) (scope : Scope) (key : BucketKey) : Prop :=
  (scope = .emailIp ∧ key = emailIpKey i e) ∨ (scope = .ip ∧ key = i) ∨ (scope = .email ∧ key = e)

/-- What stands behind the last colon of a key is the email. -/
theorem address_eq {i j e e' : BucketKey} (he : IsEmail e) (he' : IsEmail e') (h : emailIpKey i e = emailIpKey j e') : i = j := by
  have hlast : ∀ {a e e' : BucketKey}, IsEmail e → ':' :: e = a ++ ':' :: e' → a = [] := by
    intro a e e' he h
    cases a with
    | nil => rfl
    | cons c a =>
      obtain ⟨-, rfl⟩ := List.cons.inj h
      exact absurd (List.mem_append_right a (List.mem_cons_self ..)) he
  rcases List.append_eq_append_iff.1 h with ⟨a, hj, hend⟩ | ⟨a, hi, hend⟩
  · rw [hj, hlast he hend, List.append_nil]
  · rw [hi, hlast he' hend, List.append_nil]

/-- A failure that does not count for the email tells the watched buckets of another address nothing. -/
theorem told_failure {i j e e' : BucketKey} {times : List ℚ} (he : IsEmail e) (he' : IsEmail e') (hne : j ≠ i)
    (hwatched : Watched i e scope key) : told now (.recordFailure j e' false) scope key times = times := by
  have hpair : ¬(scope = .emailIp ∧ key = emailIpKey j e') := by
    rintro ⟨rfl, rfl⟩
    rcases hwatched with ⟨-, h⟩ | ⟨h, -⟩ | ⟨h, -⟩
    · exact hne (address_eq he' he h)
    · cases h
    · cases h
  have haddress : ¬(scope = .ip ∧ key = j) := by
    rintro ⟨rfl, rfl⟩
    rcases hwatched with ⟨h, -⟩ | ⟨-, h⟩ | ⟨h, -⟩
    · cases h
    · exact hne h
    · cases h
  show Effect.tell now scope key (Effect.tell now scope key times (.record .emailIp (emailIpKey j e'))) (.record .ip j) = times
  rw [Effect.tell, Effect.tell, if_neg hpair, if_neg haddress]

/-- A recorded registration tells a watched bucket nothing. -/
theorem told_registration {i j e : BucketKey} {times : List ℚ} (hwatched : Watched i e scope key) :
    told now (.recordRegistration j) scope key times = times := by
  refine if_neg ?_
  rintro ⟨rfl, -⟩
  rcases hwatched with ⟨h, -⟩ | ⟨h, -⟩ | ⟨h, -⟩ <;> cases h

/-- A call from another address tells a watched bucket nothing. -/
theorem told_of_elsewhere {Γ : Ctx} {i e : BucketKey} {op : LimiterOp} {times : List ℚ} (he : IsEmail e)
    (hop : FromElsewhere Γ i op) (hwatched : Watched i e scope key) : told now op scope key times = times := by
  cases hop with
  | register hne he' hcall =>
    exact hcall.of_calls (P := fun op => told now op scope key times = times)
      (calls_register rfl rfl (told_failure he he' hne hwatched) (told_registration hwatched))
  | deleteAccount hne he' hcall =>
    exact hcall.of_calls (P := fun op => told now op scope key times = times)
      (calls_deleteAccount rfl (told_failure he he' hne hwatched))

/-- What was inserted tells the watched buckets nothing. -/
theorem tally_original {Γ : Ctx} {i e : BucketKey} {calls : List Call} {times : List ℚ} (he : IsEmail e)
    (hinserted : ∀ c ∈ calls, c.inserted = true → FromElsewhere Γ i c.op) (hwatched : Watched i e scope key) :
    tally scope key calls times = tally scope key (original calls) times := by
  induction calls generalizing times with
  | nil => rfl
  | cons c calls ih =>
    have hrest := fun c' hc' => hinserted c' (List.mem_cons_of_mem c hc')
    cases hc : c.inserted with
    | true =>
      have hdrop : original (c :: calls) = original calls := List.filter_cons_of_neg (by simp [hc])
      rw [hdrop, tally, told_of_elsewhere he (hinserted c (List.mem_cons_self ..) hc) hwatched]
      exact ih hrest
    | false =>
      have hkeep : original (c :: calls) = c :: original calls := List.filter_cons_of_pos (by simp [hc])
      rw [hkeep, tally, tally]
      exact ih hrest

/-! ## Answers -/

/-- Two runs in a row answer and act as one run. -/
theorem run_append {before after : List (ℚ × LimiterOp)} {L : Limiter} :
    run C S (before ++ after) L = ((run C S before L).1 ++ (run C S after (run C S before L).2).1,
      (run C S after (run C S before L).2).2) := by
  induction before generalizing L with
  | nil => rfl
  | cons p before ih => simp only [List.cons_append, run, ih]

/-- Every call gets one answer. -/
theorem length_answers (ops : List (ℚ × LimiterOp)) (L : Limiter) : (run C S ops L).1.length = ops.length := by
  induction ops generalizing L with
  | nil => rfl
  | cons p ops ih => exact congrArg Nat.succ (ih _)

/-- The answer at a call is the one of the limiter after the calls before it. -/
theorem answer_at {before rest : List Call} {c : Call} :
    (after C S (before ++ c :: rest)).1[before.length]? = some (step C S c.now c.op (after C S before).2).1 := by
  have hlength : (run C S (ops before) Limiter.new).1.length = before.length := by
    rw [length_answers, ops, List.length_map]
  rw [after, List.map_append]
  show (run C S (ops before ++ ops (c :: rest)) Limiter.new).1[before.length]? = _
  rw [run_append, ← hlength, List.getElem?_append_right (Nat.le_refl _), Nat.sub_self]
  rfl

/-- The events that the specification counts in a run. -/
def counted (C : Clock) (S : LimiterSettings) (calls : List Call) : LimiterSpec.History :=
  (LimiterSpec.run C S (ops calls) fun _ => []).2

/-- A run may start at any time before its readings. -/
theorem exists_start {calls : List Call} (hclock : (calls.map Call.now).Pairwise (· ≤ ·)) :
    ∃ start, (start :: calls.map Call.now).Pairwise (· ≤ ·) := by
  obtain ⟨start, hstart⟩ := (List.finite_toSet (calls.map Call.now)).bddBelow
  exact ⟨start, List.pairwise_cons.2 ⟨fun t ht => hstart ht, hclock⟩⟩

/-- Before a call the limiter tracks what was counted. -/
theorem agree_before (hcap : 1 ≤ S.maxBucketsPerScope) {before rest : List Call} {c : Call}
    (hclock : ((before ++ c :: rest).map Call.now).Pairwise (· ≤ ·)) :
    Agree C S c.now (after C S before).2 (counted C S before) := by
  rw [List.map_append, List.pairwise_append] at hclock
  obtain ⟨hbefore, -, hle⟩ := hclock
  obtain ⟨start, hstart⟩ := exists_start hbefore
  have hmap : (ops before).map Prod.fst = before.map Call.now := List.map_map
  refine (run_spec (ops before) (min start c.now) (fun scope => tracks_empty _ (by omega) _) ?_ fun t ht => ?_).2
  · rw [hmap, List.pairwise_cons]
    exact ⟨fun t ht => (min_le_left _ _).trans ((List.pairwise_cons.1 hstart).1 t ht), hbefore⟩
  · rw [hmap] at ht
    rcases List.mem_cons.1 ht with rfl | ht
    · exact min_le_right _ _
    · exact hle t ht c.now (List.mem_cons_self ..)

/-- An answer is the one for what was counted before. -/
theorem answer_spec (hcap : 1 ≤ S.maxBucketsPerScope) {before rest : List Call} {c : Call}
    (hclock : ((before ++ c :: rest).map Call.now).Pairwise (· ≤ ·)) :
    (after C S (before ++ c :: rest)).1[before.length]? = some (LimiterSpec.step C S c.now c.op (counted C S before)).1 := by
  rw [answer_at, (step_spec (agree_before hcap hclock) c.op).1]

/-- Below the caps the buckets hold what they were told before any call. -/
theorem times_before (hcap : 1 ≤ S.maxBucketsPerScope) {before rest : List Call} {c : Call}
    (hclock : ((before ++ c :: rest).map Call.now).Pairwise (· ≤ ·)) (hbelow : BelowCaps C S (before ++ c :: rest))
    (scope : Scope) (key : BucketKey) : timesOf (counted C S before scope) key = tally scope key before [] := by
  have hagree := agree_before (C := C) hcap hclock
  rw [BelowCaps, after, List.map_append] at hbelow
  change (run C S (ops before ++ ops (c :: rest)) Limiter.new).2.capWarningScopes = [] at hbelow
  rw [run_append] at hbelow
  rw [List.map_append, List.pairwise_append] at hclock
  obtain ⟨hbefore, hrest, -⟩ := hclock
  have hfrom : (c.now :: (c :: rest).map Call.now).Pairwise (· ≤ ·) :=
    List.pairwise_cons.2 ⟨fun t ht => (List.mem_cons.1 ht).elim (fun h => le_of_eq h.symm)
      ((List.pairwise_cons.1 hrest).1 t), hrest⟩
  have hnone := (exact_run scope key hagree hfrom hbelow).1
  obtain ⟨start, hstart⟩ := exists_start hbefore
  exact (exact_run scope key (fun scope => tracks_empty _ (by omega) _) hstart hnone).2

theorem count_le {H H' : LimiterSpec.History} (h : timesOf (H scope) key <+ timesOf (H' scope) key) :
    LimiterSpec.count C S scope key now H ≤ LimiterSpec.count C S scope key now H' := (h.filter _).length_le

/-- The failures that count depend on the times in the bucket alone. -/
theorem count_eq {H H' : LimiterSpec.History} (h : timesOf (H scope) key = timesOf (H' scope) key) :
    LimiterSpec.count C S scope key now H = LimiterSpec.count C S scope key now H' := by
  rw [LimiterSpec.count, LimiterSpec.count, liveCount, liveCount, h]

/-- Fewer live events in the watched buckets leave what is allowed allowed. -/
theorem allowed_of_count_le {H H' : LimiterSpec.History} {i e : BucketKey}
    (h : ∀ scope key, Watched i e scope key → LimiterSpec.count C S scope key now H ≤ LimiterSpec.count C S scope key now H')
    (hallowed : (LimiterSpec.step C S now (.isAllowed i e) H').1 = some true) :
    (LimiterSpec.step C S now (.isAllowed i e) H).1 = some true := by
  have hpair := h _ _ (Or.inl ⟨rfl, rfl⟩)
  have haddress := h _ _ (Or.inr (Or.inl ⟨rfl, rfl⟩))
  have hemail := h _ _ (Or.inr (Or.inr ⟨rfl, rfl⟩))
  simp only [LimiterSpec.step, Option.some.injEq, Bool.and_eq_true, decide_eq_true_eq] at hallowed ⊢
  omega

/-- An original call splits the original history where it splits the whole one. -/
theorem original_split {before rest : List Call} {c : Call} (hc : c.inserted = false) :
    original (before ++ c :: rest) = original before ++ c :: original rest := by
  rw [original, List.filter_append, List.filter_cons_of_pos (by simp [hc])]
  rfl

end LockoutAux

open LockoutAux

/-- Calls that registrations and account deletions make for other addresses are inserted in a history below the caps. An address
and an email that were allowed are still allowed. Every answer is as before, unless what was inserted reached a cap. -/
theorem nobody_locked_out_from_elsewhere (Γ : Ctx) (C : Clock) (S : LimiterSettings) (hcap : 1 ≤ S.maxBucketsPerScope)
    (calls : List Call) (hclock : (calls.map Call.now).Pairwise (· ≤ ·)) (i e : BucketKey) (he : IsEmail e)
    (hinserted : ∀ c ∈ calls, c.inserted = true → FromElsewhere Γ i c.op) (hbelow : BelowCaps C S (original calls)) :
    ∀ before c rest, calls = before ++ c :: rest → c.inserted = false → c.op = .isAllowed i e →
      ((after C S (original calls)).1[(original before).length]? = some (some true) →
        (after C S calls).1[before.length]? = some (some true)) ∧
      (BelowCaps C S calls →
        (after C S calls).1[before.length]? = (after C S (original calls)).1[(original before).length]?) := by
  rintro before c rest rfl horiginal hop
  have hsplit : original (before ++ c :: rest) = original before ++ c :: original rest := original_split horiginal
  have hclock' : ((original before ++ c :: original rest).map Call.now).Pairwise (· ≤ ·) := by
    rw [← hsplit]
    exact hclock.sublist (List.filter_sublist.map _)
  have hbefore : ∀ c ∈ before, c.inserted = true → FromElsewhere Γ i c.op := fun c hc => hinserted c (List.mem_append_left _ hc)
  rw [hsplit] at hbelow ⊢
  rw [answer_spec hcap hclock, answer_spec hcap hclock', hop]
  -- without caps, the watched buckets are told the same
  have htally : ∀ scope key, Watched i e scope key →
      tally scope key before [] = timesOf (counted C S (original before) scope) key := fun scope key hwatched =>
    (tally_original he hbefore hwatched).trans (times_before hcap hclock' hbelow scope key).symm
  refine ⟨fun hallowed => congrArg some (allowed_of_count_le (fun scope key hwatched => ?_) (Option.some.inj hallowed)),
    fun hbelow' => ?_⟩
  · have hrun : timesOf (counted C S before scope) key <+ tally scope key before [] := times_run C S before
    rw [htally scope key hwatched] at hrun
    exact count_le hrun
  · have hcount : ∀ scope key, Watched i e scope key → LimiterSpec.count C S scope key c.now (counted C S before) =
        LimiterSpec.count C S scope key c.now (counted C S (original before)) := fun scope key hwatched =>
      count_eq ((times_before hcap hclock hbelow' scope key).trans (htally scope key hwatched))
    simp only [LimiterSpec.step, hcount _ _ (Or.inl ⟨rfl, rfl⟩), hcount _ _ (Or.inr (Or.inl ⟨rfl, rfl⟩)),
      hcount _ _ (Or.inr (Or.inr ⟨rfl, rfl⟩))]

namespace Elsewhere

def Γ₀ : Ctx := Ctx.readable [] fun _ => .error .oidcTokenExchange

def S₀ : LimiterSettings := ⟨300, 3600, 1, 20, 10, 5, 20, 1000⟩

def email : Text := "ann@example.com".toList

/-- A registration with a short password fails at another address between two checks. -/
def history : List Call :=
  [⟨0, .isAllowed "10.0.0.1".toList email, false⟩, ⟨1, .recordFailure "10.0.0.2".toList email false, true⟩,
    ⟨2, .isAllowed "10.0.0.1".toList email, false⟩]

/-- A registration with a short password records a failure. -/
theorem mayCall_failure {ip : Text} (hip : rateLimitIp (some ip) = ip) : MayCall (.recordFailure ip email false)
    (register email "short".toList .en none (some ip) none : Service Γ₀ IssuedAuthSession) := by
  intro h
  have hallowed := (Prog.emits_act.1 h).2 (.ok true)
  have hregistration := (Prog.emits_act.1 hallowed).2 (.ok true)
  refine (Prog.emits_act.1 hregistration).1 _ rfl ?_
  rw [hip]
  rfl

end Elsewhere

open Elsewhere in
/-- One failure is allowed, and the failure at the other address does not count. -/
theorem nobody_locked_out_from_elsewhere_once :
    (after Clock.exact S₀ history).1[2]? = (after Clock.exact S₀ (original history)).1[1]? := by
  refine (nobody_locked_out_from_elsewhere Γ₀ Clock.exact S₀ (by decide) history ?_ "10.0.0.1".toList email ?_ ?_ ?_
    [⟨0, .isAllowed "10.0.0.1".toList email, false⟩, ⟨1, .recordFailure "10.0.0.2".toList email false, true⟩] _ [] rfl rfl
    rfl).2 ?_
  · decide +kernel
  · decide +kernel
  · intro c hc hinserted
    rcases List.mem_cons.1 hc with rfl | hc
    · cases hinserted
    · rcases List.mem_cons.1 hc with rfl | hc
      · exact .register (by decide +kernel) (by decide +kernel) (mayCall_failure (by decide +kernel))
      · rw [List.mem_singleton.1 hc] at hinserted
        cases hinserted
  · decide +kernel
  · decide +kernel

namespace FullHouse

/-- One failure is allowed, and each scope has room for two buckets. -/
def S₀ : LimiterSettings := ⟨300, 3600, 1, 20, 10, 5, 20, 2⟩

/-- Failed registrations at two other addresses come before the only failure of the address. -/
def before : List Call :=
  [⟨0, .recordFailure "10.0.0.2".toList Elsewhere.email false, true⟩,
    ⟨1, .recordFailure "10.0.0.3".toList Elsewhere.email false, true⟩,
    ⟨2, .recordFailure "10.0.0.1".toList Elsewhere.email true, false⟩]

/-- The next login of the address is refused without the registrations, and allowed with them. -/
def history : List Call := before ++ [⟨3, .isAllowed "10.0.0.1".toList Elsewhere.email, false⟩]

end FullHouse

open FullHouse in
/-- What is inserted may reach a cap that the original history did not: a later failure then finds no bucket. -/
theorem locked_out_equality_false : ¬ ∀ (Γ : Ctx) (C : Clock) (S : LimiterSettings), 1 ≤ S.maxBucketsPerScope →
    ∀ calls : List Call, (calls.map Call.now).Pairwise (· ≤ ·) → ∀ i e : BucketKey, IsEmail e →
    (∀ c ∈ calls, c.inserted = true → FromElsewhere Γ i c.op) → BelowCaps C S (original calls) →
    ∀ before c rest, calls = before ++ c :: rest → c.inserted = false → c.op = .isAllowed i e →
      (after C S calls).1[before.length]? = (after C S (original calls)).1[(original before).length]? := by
  intro h
  have hequal := h Elsewhere.Γ₀ Clock.exact S₀ (by decide) history (by decide +kernel) "10.0.0.1".toList Elsewhere.email
    (by decide +kernel) ?_ (by decide +kernel) before _ [] rfl rfl rfl
  · revert hequal
    decide +kernel
  · intro c hc hinserted
    simp only [history, before, List.cons_append, List.nil_append, List.mem_cons, List.not_mem_nil, or_false] at hc
    rcases hc with rfl | rfl | rfl | rfl
    · exact .register (by decide +kernel) (by decide +kernel) (Elsewhere.mayCall_failure (by decide +kernel))
    · exact .register (by decide +kernel) (by decide +kernel) (Elsewhere.mayCall_failure (by decide +kernel))
    · cases hinserted
    · cases hinserted

end InMemory

end AuthService
