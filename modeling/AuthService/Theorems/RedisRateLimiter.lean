import AuthService.RedisRateLimiter
import AuthService.Theorems.RateLimiter

/-!
# The two limiters answer alike

The members of a bucket's key hold the live events of the bucket's history: a trim removes only dead ones, and by the time
the whole key expires all of them are dead. So the limiter over Redis answers as the specification does, below the cap that
only the limiter in memory has.
-/

namespace AuthService

open SlidingWindow

namespace Redis

namespace MirrorsAux

/-! ## Keys -/

/-- The name of a scope holds no colon. -/
theorem colon_not_mem_scopeName (scope : Scope) : ':' ∉ scopeName scope := by
  cases scope <;> decide

/-- Texts without a colon are what stands before the first colon. -/
theorem append_colon_inj {a b c d : List Char} (ha : ':' ∉ a) (hb : ':' ∉ b) (h : a ++ ':' :: c = b ++ ':' :: d) :
    a = b ∧ c = d := by
  induction a generalizing b with
  | nil =>
    cases b with
    | nil => exact ⟨rfl, (List.cons.inj h).2⟩
    | cons x b => exact absurd (List.cons.inj h).1.symm (fun hx => hb (by simp [hx]))
  | cons x a ih =>
    cases b with
    | nil => exact absurd (List.cons.inj h).1 (fun hx => ha (by simp [hx]))
    | cons y b =>
      obtain ⟨hxy, hrest⟩ := List.cons.inj h
      obtain ⟨hab, hcd⟩ := ih (fun hm => ha (List.mem_cons_of_mem _ hm)) (fun hm => hb (List.mem_cons_of_mem _ hm)) hrest
      exact ⟨by rw [hxy, hab], hcd⟩

/-- Different scopes have different names. -/
theorem scopeName_injective : Function.Injective scopeName := by
  intro a b h
  cases a <;> cases b <;> first | rfl | exact absurd h (by decide)

/-- Buckets of different scopes or raw keys have different keys. -/
theorem bucketKey_injective (R : Config) {scope scope' : Scope} {key key' : BucketKey}
    (h : bucketKey R scope key = bucketKey R scope' key') : scope = scope' ∧ key = key' := by
  simp only [bucketKey, List.append_assoc, List.cons_append] at h
  have h := (List.cons.inj (List.append_cancel_left h)).2
  obtain ⟨hname, hdigest⟩ := append_colon_inj (colon_not_mem_scopeName _) (colon_not_mem_scopeName _) h
  obtain ⟨-, hraw⟩ := append_colon_inj (colon_not_mem_scopeName _) (colon_not_mem_scopeName _) (R.sha256_injective hdigest)
  exact ⟨scopeName_injective hname, hraw⟩

/-- Members with different suffixes are different, whatever their times. -/
theorem memberOf_injective (R : Config) {now now' : ℚ} {token token' : Nat}
    (h : memberOf R now token = memberOf R now' token') : token = token' := by
  have h := congrArg List.reverse h
  simp only [memberOf, List.reverse_append, List.reverse_cons, List.append_assoc, List.singleton_append] at h
  have hno : ∀ n, ':' ∉ (R.tokenHex n).reverse := fun n hm => R.tokenHex_hex n (List.mem_reverse.1 hm)
  exact R.tokenHex_injective (List.reverse_injective (append_colon_inj (hno _) (hno _) h).1)

/-! ## What a key holds -/

variable {R : Config} {windowSeconds : Int} {now : ℚ} {server : Server} {key : List Char}

/-- The scores of a list of members that are live. -/
def liveScores (windowSeconds : Int) (now : ℚ) (members : List (List Char × ℚ)) : List ℚ :=
  (LimiterSpec.window Clock.exact windowSeconds).alive now (members.map Prod.snd)

/-- A recorded time is live up to and including the edge of the window. -/
theorem live_iff {t : ℚ} : (LimiterSpec.window Clock.exact windowSeconds).live now t = true ↔ now - windowSeconds ≤ t := by
  have : (LimiterSpec.window Clock.exact windowSeconds).live now t = decide (now - t ≤ windowSeconds) := rfl
  rw [this, decide_eq_true_eq, sub_le_comm]

/-- The members of a key mirror the times of a bucket. -/
structure Mirrors (R : Config) (windowSeconds : Int) (now : ℚ) (tokens : Nat) (entry : Option Entry) (times : List ℚ) :
    Prop where
  agrees : ∀ now', now ≤ now' → liveScores windowSeconds now' ((entry.map Entry.members).getD []) =
    (LimiterSpec.window Clock.exact windowSeconds).alive now' times
  past : ∀ e ∈ entry, ∀ m ∈ e.members, m.2 ≤ now
  fresh : ∀ e ∈ entry, ∀ m ∈ e.members, ∃ t token, token < tokens ∧ m.1 = memberOf R t token
  expires : ∀ e ∈ entry, ∃ t ∈ e.expireAt, ∀ m ∈ e.members, m.2 + windowSeconds < t

variable {tokens : Nat} {entry : Option Entry} {times : List ℚ}

/-- A mirrored bucket stays mirrored as time passes and more tokens are drawn. -/
theorem Mirrors.mono (h : Mirrors R windowSeconds now tokens entry times) {now' : ℚ} (hle : now ≤ now') {tokens' : Nat}
    (htok : tokens ≤ tokens') : Mirrors R windowSeconds now' tokens' entry times :=
  ⟨fun later hlater => h.agrees later (hle.trans hlater), fun e he m hm => (h.past e he m hm).trans hle,
    fun e he m hm => by
      obtain ⟨t, token, hlt, heq⟩ := h.fresh e he m hm
      exact ⟨t, token, hlt.trans_le htok, heq⟩, h.expires⟩

/-- By the time a key expires none of its members is live. -/
theorem Mirrors.live_of_get (h : Mirrors R windowSeconds now tokens (server key) times) {now' : ℚ} (hle : now ≤ now') :
    Mirrors R windowSeconds now' tokens (server.get now' key) times := by
  have h := h.mono hle (le_refl _)
  unfold Server.get
  cases hentry : server key with
  | none =>
    rw [hentry] at h
    exact h
  | some e =>
    rw [hentry] at h
    obtain ⟨t, ht, hdead⟩ := h.expires e rfl
    rw [Option.mem_def] at ht
    by_cases hexp : now' < t
    · simpa [Option.filter, ht, hexp] using h
    · have hnone : (some e).filter (fun e => e.expireAt.all (fun t => now' < t)) = none := by
        simp [Option.filter, ht, hexp]
      rw [hnone]
      refine ⟨fun later hlater => ?_, by simp, by simp, by simp⟩
      rw [← h.agrees later hlater]
      refine (List.filter_eq_nil_iff.2 fun s hs => ?_).symm
      obtain ⟨m, hm, rfl⟩ := List.mem_map.1 hs
      rw [live_iff, not_le]
      have hm := hdead m hm
      rw [not_lt] at hexp
      linarith

/-- ZCOUNT over the window counts the live times. -/
theorem zcount_eq (h : Mirrors R windowSeconds now tokens (server key) times) :
    zcount now key (now - windowSeconds) server =
      ((LimiterSpec.window Clock.exact windowSeconds).alive now times).length := by
  rw [← (h.live_of_get (le_refl now)).agrees now (le_refl _), zcount, Server.members, liveScores, Window.alive,
    List.filter_map, List.length_map]
  congr 1
  refine List.filter_congr fun m _ => ?_
  rw [Bool.eq_iff_iff, decide_eq_true_eq]
  exact live_iff.symm

/-! ## The commands of a record -/

/-- A stored entry that has not expired is read back. -/
theorem get_put_self (server : Server) (now : ℚ) (key : List Char) (entry : Entry) (hne : entry.members ≠ [])
    (halive : entry.expireAt.all (fun t => now < t) = true) : (server.put key entry).get now key = some entry := by
  simp [Server.get, Server.put, hne, Option.filter, halive]

/-- An entry that is read has not expired. -/
theorem expireAt_of_get {entry : Entry} (h : server.get now key = some entry) :
    entry.expireAt.all (fun t => now < t) = true := by
  have := (Option.filter_eq_some_iff.1 h).2
  simpa using this

/-- ZREMRANGEBYSCORE keeps the members from the bound on. -/
theorem members_zremrangebyscore (server : Server) (now : ℚ) (key : List Char) (bound : ℚ) :
    (zremrangebyscore now key bound server).members now key =
      (server.members now key).filter (fun m => ¬m.2 < bound) := by
  unfold zremrangebyscore
  cases hget : server.get now key with
  | none => simp [Server.members, hget]
  | some entry =>
    simp only [Server.members, hget, Option.map_some, Option.getD_some]
    by_cases hkept : entry.members.filter (fun m => ¬m.2 < bound) = []
    · simp only [Server.get, Server.put, hkept, if_true, Function.update_self, Option.filter_none, Option.map_none,
        Option.getD_none]
    · have halive := expireAt_of_get hget
      rw [get_put_self server now key { entry with members := entry.members.filter (fun m => ¬m.2 < bound) } hkept halive]
      rfl

/-- ZADD of a fresh member puts it last. -/
theorem get_zadd {member : List Char} (hfresh : member ∉ (server.members now key).map Prod.fst) (score : ℚ) :
    ∃ t, (zadd now key member score server).get now key = some ⟨server.members now key ++ [(member, score)], t⟩ := by
  unfold zadd
  cases hget : server.get now key with
  | none =>
    refine ⟨none, ?_⟩
    simp only [Server.members, hget, Option.map_none, Option.getD_none, List.nil_append]
    exact get_put_self server now key _ (by simp) rfl
  | some entry =>
    simp only [Server.members, hget, Option.map_some, Option.getD_some] at hfresh ⊢
    simp only [hfresh, if_false]
    have halive := expireAt_of_get hget
    exact ⟨entry.expireAt, get_put_self server now key _ (by simp) halive⟩

/-- EXPIRE sets the entry's time of expiry. -/
theorem expire_apply {entry : Entry} (hget : server.get now key = some entry) (hne : entry.members ≠ []) (seconds : Int) :
    expire now key seconds server key = some { entry with expireAt := some (now + seconds) } := by
  simp [expire, hget, Server.put, hne]

/-- A record keeps the members that are live and adds the new one. -/
theorem recordKey_apply (h : Mirrors R windowSeconds now tokens (server key) times) :
    (recordKey R windowSeconds now ⟨server, tokens⟩ key).server key =
      some ⟨(server.members now key).filter (fun m => ¬m.2 < now - windowSeconds) ++ [(memberOf R now tokens, now)],
        some (now + (windowSeconds + 1 : Int))⟩ := by
  have hfresh : memberOf R now tokens ∉
      ((zremrangebyscore now key (now - windowSeconds) server).members now key).map Prod.fst := by
    rw [members_zremrangebyscore]
    intro hmem
    obtain ⟨m, hm, heq⟩ := List.mem_map.1 hmem
    have hm := (List.mem_filter.1 hm).1
    rw [Server.members] at hm
    cases hget : server.get now key with
    | none => simp [hget] at hm
    | some entry =>
      rw [hget] at hm
      obtain ⟨t, token, hlt, hm⟩ := (h.live_of_get (le_refl now)).fresh entry hget m hm
      exact absurd (memberOf_injective R (hm.symm.trans heq)) (Nat.ne_of_lt hlt)
  obtain ⟨t, hadd⟩ := get_zadd hfresh now
  simp only [recordKey]
  rw [expire_apply hadd (by simp), members_zremrangebyscore]

/-- A record leaves the other keys alone. -/
theorem recordKey_other {store : Store} {key' : List Char} (h : key' ≠ key) :
    (recordKey R windowSeconds now store key).server key' = store.server key' := by
  have hput : ∀ (server : Server) (entry : Entry), server.put key entry key' = server key' := fun server entry => by
    simp [Server.put, Function.update_of_ne h]
  have hrem : ∀ (server : Server) (bound : ℚ), zremrangebyscore now key bound server key' = server key' := by
    intro server bound
    unfold zremrangebyscore
    cases server.get now key with
    | none => rfl
    | some entry => exact hput _ _
  have hadd : ∀ (server : Server) (member : List Char) (score : ℚ), zadd now key member score server key' = server key' := by
    intro server member score
    unfold zadd
    cases server.get now key with
    | none => exact hput _ _
    | some entry =>
      by_cases hmem : member ∈ entry.members.map Prod.fst
      · simp only [hmem, if_true]
        exact hput _ _
      · simp only [hmem, if_false]
        exact hput _ _
  have hexp : ∀ (server : Server) (seconds : Int), expire now key seconds server key' = server key' := by
    intro server seconds
    unfold expire
    cases server.get now key with
    | none => rfl
    | some entry => exact hput _ _
  simp only [recordKey, hexp, hadd, hrem]

/-- A record adds the time to what the key mirrors. -/
theorem Mirrors.recorded (h : Mirrors R windowSeconds now tokens (server key) times) :
    Mirrors R windowSeconds now (tokens + 1) ((recordKey R windowSeconds now ⟨server, tokens⟩ key).server key)
      (times ++ [now]) := by
  have hget := h.live_of_get (le_refl now)
  have hmem : ∀ m ∈ (server.members now key).filter (fun m => ¬m.2 < now - windowSeconds),
      ∃ e ∈ server.get now key, m ∈ e.members := by
    intro m hm
    have hm := (List.mem_filter.1 hm).1
    rw [Server.members] at hm
    cases hg : server.get now key with
    | none => simp [hg] at hm
    | some entry => exact ⟨entry, rfl, by simpa [hg] using hm⟩
  have hkept : ((server.members now key).filter (fun m => ¬m.2 < now - windowSeconds)).map Prod.snd =
      liveScores windowSeconds now (server.members now key) := by
    rw [liveScores, Window.alive, List.filter_map]
    refine congrArg _ (List.filter_congr fun m _ => ?_)
    rw [Bool.eq_iff_iff, decide_eq_true_eq, not_lt]
    exact live_iff.symm
  rw [recordKey_apply h]
  refine ⟨fun now' hle => ?_, ?_, ?_, ?_⟩
  · rw [Option.map_some, Option.getD_some, liveScores, List.map_append, alive_append, hkept, liveScores,
      alive_alive _ hle, alive_append]
    congr 1
    exact hget.agrees now' hle
  · rintro e ⟨⟩ m hm
    rcases List.mem_append.1 hm with hm | hm
    · obtain ⟨e, he, hm⟩ := hmem m hm
      exact hget.past e he m hm
    · rw [List.mem_singleton.1 hm]
  · rintro e ⟨⟩ m hm
    rcases List.mem_append.1 hm with hm | hm
    · obtain ⟨e, he, hm⟩ := hmem m hm
      obtain ⟨t, token, hlt, heq⟩ := hget.fresh e he m hm
      exact ⟨t, token, hlt.trans (Nat.lt_succ_self _), heq⟩
    · rw [List.mem_singleton.1 hm]
      exact ⟨now, tokens, Nat.lt_succ_self _, rfl⟩
  · rintro e ⟨⟩
    refine ⟨_, rfl, fun m hm => ?_⟩
    have hpast : m.2 ≤ now := by
      rcases List.mem_append.1 hm with hm | hm
      · obtain ⟨e, he, hm⟩ := hmem m hm
        exact hget.past e he m hm
      · rw [List.mem_singleton.1 hm]
    push_cast
    linarith

/-! ## Operations -/

variable {S : LimiterSettings} {store : Store} {H : LimiterSpec.History}

/-- The server mirrors the counted events of every bucket. -/
def Agree (R : Config) (S : LimiterSettings) (now : ℚ) (store : Store) (H : LimiterSpec.History) : Prop :=
  ∀ scope key, Mirrors R (S.windowOf scope) now store.tokens (store.server (bucketKey R scope key)) (timesOf (H scope) key)

/-- Every scope has room for another key. -/
def Room (S : LimiterSettings) (now : ℚ) (H : LimiterSpec.History) : Prop :=
  ∀ scope, (liveKeys (LimiterSpec.window Clock.exact (S.windowOf scope)) (H scope) now).length < S.maxBucketsPerScope

/-- A record below the cap keeps the server in agreement with the history. -/
theorem Agree.recordKey (h : Agree R S now store H) (scope : Scope) (key : BucketKey)
    (hroom : (liveKeys (LimiterSpec.window Clock.exact (S.windowOf scope)) (H scope) now).length < S.maxBucketsPerScope) :
    Agree R S now (recordKey R (S.windowOf scope) now store (bucketKey R scope key))
      (LimiterSpec.record Clock.exact S scope key now H) := by
  intro scope' key'
  have hcounted : SlidingWindow.record (LimiterSpec.window Clock.exact (S.windowOf scope)) S.maxBucketsPerScope (H scope)
      now key = H scope ++ [(key, now)] := if_pos (Or.inr hroom)
  rw [LimiterSpec.record, hcounted]
  by_cases hs : scope' = scope
  · subst hs
    rw [Function.update_self, timesOf_counted]
    split
    · rename_i hk
      subst hk
      exact (h scope' key').recorded
    · rename_i hk
      rw [recordKey_other fun heq => hk (bucketKey_injective R heq).2]
      exact (h scope' key').mono (le_refl _) (Nat.le_succ _)
  · rw [Function.update_of_ne hs, recordKey_other fun heq => hs (bucketKey_injective R heq).1]
    exact (h scope' key').mono (le_refl _) (Nat.le_succ _)

/-- A server in agreement counts what the history counts. -/
theorem Agree.count (h : Agree R S now store H) (scope : Scope) (key : BucketKey) :
    zcount now (bucketKey R scope key) (now - S.windowOf scope) store.server =
      LimiterSpec.count Clock.exact S scope key now H :=
  zcount_eq (h scope key)

/-- On a server that answers, with room for another key, every operation answers as the specification does. -/
theorem perform_spec (h : Agree R S now store H) (hroom : Room S now H) (op : LimiterOp) :
    (perform R S now op store).1 = (LimiterSpec.step Clock.exact S now op H).1 ∧
      Agree R S now (perform R S now op store).2 (LimiterSpec.step Clock.exact S now op H).2 := by
  have hcount := h.count
  cases op with
  | isAllowed ip email =>
    have h1 := hcount .emailIp (emailIpKey ip email)
    have h2 := hcount .ip ip
    have h3 := hcount .email email
    simp only [LimiterSettings.windowOf] at h1 h2 h3
    exact ⟨by simp [perform, countActive, LimiterSpec.step, h1, h2, h3], h⟩
  | isAccountDeletionReauthAllowed ip email =>
    have h1 := hcount .emailIp (emailIpKey ip email)
    have h2 := hcount .ip ip
    simp only [LimiterSettings.windowOf] at h1 h2
    exact ⟨by simp [perform, countActive, LimiterSpec.step, h1, h2], h⟩
  | recordFailure ip email includeEmailBucket =>
    have h1 := h.recordKey .emailIp (emailIpKey ip email) (hroom .emailIp)
    have h2 := h1.recordKey .ip ip (hroom .ip)
    have h3 := h2.recordKey .email email (hroom .email)
    cases includeEmailBucket with
    | false => exact ⟨rfl, h2⟩
    | true => exact ⟨rfl, h3⟩
  | recordSuccess ip email =>
    refine ⟨rfl, fun scope key => ?_⟩
    by_cases hs : bucketKey R scope key = bucketKey R .emailIp (emailIpKey ip email)
    · obtain ⟨rfl, rfl⟩ := bucketKey_injective R hs
      simp only [perform, LimiterSpec.step, delete, Function.update_self, timesOf_forget, if_true]
      exact ⟨fun _ _ => rfl, by simp, by simp, by simp⟩
    · have htimes : timesOf (Function.update H .emailIp (forget (H .emailIp) (emailIpKey ip email)) scope) key =
          timesOf (H scope) key := by
        by_cases hscope : scope = .emailIp
        · subst hscope
          rw [Function.update_self, timesOf_forget, if_neg fun hk => hs (by rw [hk])]
        · rw [Function.update_of_ne hscope]
      simp only [perform, LimiterSpec.step, delete, Function.update_of_ne hs, htimes]
      exact h scope key
  | isRegistrationAllowed ip =>
    have h1 := hcount .registrationIp ip
    simp only [LimiterSettings.windowOf] at h1
    exact ⟨by simp [perform, countActive, LimiterSpec.step, h1], h⟩
  | recordRegistration ip => exact ⟨rfl, h.recordKey .registrationIp ip (hroom .registrationIp)⟩
  | isOidcAuthorizationAllowed ip =>
    have h1 := hcount .oidcAuthorizationIp ip
    simp only [LimiterSettings.windowOf] at h1
    exact ⟨by simp [perform, countActive, LimiterSpec.step, h1], h⟩
  | recordOidcAuthorization ip => exact ⟨rfl, h.recordKey .oidcAuthorizationIp ip (hroom .oidcAuthorizationIp)⟩

/-- With the circuit closed and the server answering, the operation is performed. -/
theorem step_answered {L : Limiter} {moment : Moment} (hclosed : L.breaker.circuitOpenedAt = none)
    (hreply : moment.reply = .answered) (op : LimiterOp) :
    (step R S moment op L).1 = (perform R S (redisTimeSeconds moment.time) op L.store).1 ∧
      (step R S moment op L).2.store = (perform R S (redisTimeSeconds moment.time) op L.store).2 ∧
      (step R S moment op L).2.breaker.circuitOpenedAt = none := by
  simp [step, Breaker.circuitIsOpen, hclosed, hreply, Breaker.markSuccess]

end MirrorsAux

open MirrorsAux

/-- No scope of the limiter in memory reaches `max_buckets_per_scope` in the run. -/
def BelowCap (S : LimiterSettings) (ops : List (ℚ × LimiterOp)) (L : InMemory.Limiter) : Prop :=
  ∀ n scope, ((InMemory.run Clock.exact S (ops.take n) L).2.buckets scope).size < S.maxBucketsPerScope

/-- The readings of the clock and the operations of a run. -/
def readings (ops : List (Moment × LimiterOp)) : List (ℚ × LimiterOp) :=
  ops.map fun p => (redisTimeSeconds p.1.time, p.2)

namespace MirrorsAux

/-- A history below the caps stays below them after its first call. -/
theorem belowCap_tail {S : LimiterSettings} {p : ℚ × LimiterOp} {ops : List (ℚ × LimiterOp)} {L : InMemory.Limiter}
    (h : BelowCap S (p :: ops) L) : BelowCap S ops (InMemory.step Clock.exact S p.1 p.2 L).2 :=
  fun n scope => h (n + 1) scope

/-- Both limiters follow one history. -/
theorem run_agree (R : Config) (S : LimiterSettings) (ops : List (Moment × LimiterOp)) (now : ℚ) {L : Limiter}
    {M : InMemory.Limiter} {H : LimiterSpec.History} (hredis : Agree R S now L.store H)
    (hmemory : InMemory.TracksAux.Agree Clock.exact S now M H) (hclosed : L.breaker.circuitOpenedAt = none)
    (hanswered : ∀ p ∈ ops, p.1.reply = .answered) (hbelow : BelowCap S (readings ops) M)
    (hclock : (now :: (readings ops).map Prod.fst).Pairwise (· ≤ ·)) :
    (run R S ops L).1 = (InMemory.run Clock.exact S (readings ops) M).1 := by
  induction ops generalizing now L M H with
  | nil => rfl
  | cons p ops ih =>
    obtain ⟨moment, op⟩ := p
    simp only [readings, List.map_cons] at hclock hbelow
    rw [List.pairwise_cons] at hclock
    have hle := hclock.1 (redisTimeSeconds moment.time) (by simp)
    have hmemory : InMemory.TracksAux.Agree Clock.exact S (redisTimeSeconds moment.time) M H :=
      fun scope => (hmemory scope).mono hle
    have hroom : Room S (redisTimeSeconds moment.time) H := fun scope =>
      lt_of_le_of_lt (Int.ofNat_le.2 (InMemory.TracksAux.length_liveKeys_le (hmemory scope))) (hbelow 0 scope)
    obtain ⟨hanswer, hredis⟩ := perform_spec (fun scope key => (hredis scope key).mono hle (le_refl _)) hroom op
    obtain ⟨hanswer', hmemory⟩ := InMemory.TracksAux.step_spec hmemory op
    obtain ⟨hstep, hstore, hclosed⟩ := step_answered (R := R) (S := S) hclosed (hanswered _ List.mem_cons_self) op
    rw [← hstore] at hredis
    have hrest := ih _ hredis hmemory hclosed (fun q hq => hanswered q (List.mem_cons_of_mem _ hq)) (belowCap_tail hbelow) hclock.2
    simp only [run, readings, List.map_cons, InMemory.run]
    rw [hstep, hanswer, ← hanswer', hrest]
    rfl

end MirrorsAux

/-- While the server answers and no scope reaches the cap of the limiter in memory, both limiters give the same answers to
the same operations at the same readings of the clock. -/
theorem redis_agrees_with_inMemory (R : Config) (S : LimiterSettings) (ops : List (Moment × LimiterOp))
    (hanswered : ∀ p ∈ ops, p.1.reply = .answered) (hclock : ((readings ops).map Prod.fst).Pairwise (· ≤ ·))
    (hbelow : BelowCap S (readings ops) InMemory.Limiter.new) :
    (run R S ops Limiter.new).1 = (InMemory.run Clock.exact S (readings ops) InMemory.Limiter.new).1 := by
  have hcap : (0 : Int) < S.maxBucketsPerScope := hbelow 0 .ip
  obtain ⟨start, hstart⟩ := (List.finite_toSet ((readings ops).map Prod.fst)).bddBelow
  refine run_agree R S ops start (H := fun _ => []) (fun scope key => ?_)
    (fun scope => InMemory.TracksAux.tracks_empty _ (by omega) _) rfl hanswered hbelow
    (List.pairwise_cons.2 ⟨fun t ht => hstart ht, hclock⟩)
  exact ⟨fun _ _ => rfl, by simp [Limiter.new], by simp [Limiter.new], by simp [Limiter.new]⟩

namespace WindowEdge

/-- A limiter whose digests and suffixes are texts of their own. -/
def config : Config where
  keyPrefix := "auth_rate_limit".toList
  failOpen := false
  circuitBreakerFailures := 3
  circuitBreakerCooldownSeconds := 5
  sha256 := id
  sha256_injective := readable_injective
  formatTime _ := []
  tokenHex n := List.replicate n '0'
  tokenHex_injective := zeros_injective
  tokenHex_hex := colon_not_mem_zeros

def settings : LimiterSettings := ⟨300, 3600, 2, 20, 10, 5, 20, 8⟩

/-- The server answers at a whole second. -/
def moment (seconds : Int) : Moment := ⟨⟨seconds, 0⟩, .answered, 0, 0⟩

/-- Two failures, and checks at the end of the first one's window and after it. -/
def ops : List (Moment × LimiterOp) :=
  [(moment 0, .recordFailure ['a'] ['x'] true), (moment 10, .recordFailure ['a'] ['x'] true),
    (moment 300, .isAllowed ['a'] ['x']), (moment 301, .isAllowed ['a'] ['x'])]

end WindowEdge

open WindowEdge in
/-- Both backends still count a failure at the very edge of its window, and no longer a second later. -/
theorem redis_agrees_with_inMemory_window_edge :
    (run config settings ops Limiter.new).1 = [none, none, some false, some true] ∧
      (run config settings ops Limiter.new).1 =
        (InMemory.run Clock.exact settings (readings ops) InMemory.Limiter.new).1 := by
  refine ⟨by decide +kernel, redis_agrees_with_inMemory _ _ _ (by decide) (by decide +kernel) fun n scope => ?_⟩
  have hsmall : ∀ n < 5, ∀ scope ∈ [Scope.emailIp, .ip, .email, .registrationIp, .oidcAuthorizationIp],
      ((InMemory.run Clock.exact settings ((readings ops).take n) InMemory.Limiter.new).2.buckets scope).size <
        settings.maxBucketsPerScope := by decide +kernel
  have hmem : scope ∈ [Scope.emailIp, .ip, .email, .registrationIp, .oidcAuthorizationIp] := by cases scope <;> decide
  rcases Nat.lt_or_ge n 5 with hn | hn
  · exact hsmall n hn scope hmem
  · have htake : (readings ops).take n = (readings ops).take 4 := by
      rw [List.take_of_length_le (by simpa [readings, ops] using hn.trans' (by decide)),
        List.take_of_length_le (by simp [readings, ops])]
    rw [htake]
    exact hsmall 4 (by decide) scope hmem

end Redis

end AuthService
