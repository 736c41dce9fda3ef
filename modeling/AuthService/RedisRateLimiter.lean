import AuthService.RateLimiter
import AuthService.Library.Urllib

/-!
# The limiter over Redis

`RedisLoginRateLimiter` (libraries/redis_login_rate_limiter.py) keeps one sorted set for each bucket, with the time of an
event as its score. A check counts, a record trims, adds and sets the time to live of the whole key. Every operation goes
through a circuit breaker, and one that gets no answer falls back to the policy for an unavailable server.
-/

namespace AuthService

namespace Redis

/-! ## The server -/

/-- A sorted set, and the time from which the server has deleted its key. -/
structure Entry where
  members : List (List Char × ℚ)
  expireAt : Option ℚ
  deriving DecidableEq, Repr

/-- The keys of the server. -/
abbrev Server := List Char → Option Entry

/-- The entry of a key that has not expired. -/
def Server.get (server : Server) (now : ℚ) (key : List Char) : Option Entry :=
  (server key).filter (fun e => e.expireAt.all (fun t => now < t))

/-- The members of a key. -/
def Server.members (server : Server) (now : ℚ) (key : List Char) : List (List Char × ℚ) :=
  ((server.get now key).map Entry.members).getD []

/-- The server with an entry written. A sorted set without members has no key. -/
def Server.put (server : Server) (key : List Char) (entry : Entry) : Server :=
  Function.update server key (if entry.members = [] then none else some entry)

/-- `ZCOUNT key minimum +inf`, with the minimum included. -/
def zcount (now : ℚ) (key : List Char) (minimum : ℚ) (server : Server) : Nat :=
  ((server.members now key).filter (fun m => minimum ≤ m.2)).length

/-- `ZREMRANGEBYSCORE key -inf (bound`, with the bound excluded. -/
def zremrangebyscore (now : ℚ) (key : List Char) (bound : ℚ) (server : Server) : Server :=
  match server.get now key with
  | none => server
  | some entry => server.put key { entry with members := entry.members.filter (fun m => ¬m.2 < bound) }

/-- `ZADD key score member`: a member that is there gets the new score. -/
def zadd (now : ℚ) (key : List Char) (member : List Char) (score : ℚ) (server : Server) : Server :=
  match server.get now key with
  | none => server.put key ⟨[(member, score)], none⟩
  | some entry =>
    if member ∈ entry.members.map Prod.fst then
      server.put key { entry with members := entry.members.map fun m => if m.1 = member then (member, score) else m }
    else server.put key { entry with members := entry.members ++ [(member, score)] }

/-- `EXPIRE key seconds`. -/
def expire (now : ℚ) (key : List Char) (seconds : Int) (server : Server) : Server :=
  match server.get now key with
  | none => server
  | some entry => server.put key { entry with expireAt := some (now + seconds) }

/-- `DEL key`. -/
def delete (key : List Char) (server : Server) : Server := Function.update server key none

/-- The answer of `TIME`. -/
structure ServerTime where
  seconds : Int
  microseconds : Int
  deriving DecidableEq, Repr

/-- `_redis_time_seconds`. -/
def redisTimeSeconds (time : ServerTime) : ℚ := time.seconds + time.microseconds / 1000000

/-! ## Keys and members -/

/-- What the limiter is built with: its key prefix (without the colons at its end) and breaker settings, the digest of a key,
the text of a time and the random suffixes of its members. -/
structure Config where
  keyPrefix : List Char
  failOpen : Bool
  circuitBreakerFailures : Int
  circuitBreakerCooldownSeconds : ℚ
  sha256 : List Char → List Char
  sha256_injective : Function.Injective sha256
  formatTime : ℚ → List Char
  tokenHex : Nat → List Char
  tokenHex_injective : Function.Injective tokenHex
  tokenHex_hex : ∀ n, ':' ∉ tokenHex n

/-! A readable choice of the three texts: a key is its own digest, a suffix is a run of zeros. -/

theorem readable_injective : Function.Injective (id : List Char → List Char) := Function.injective_id

/-- Tokens of different lengths differ. -/
theorem zeros_injective : Function.Injective fun n : Nat => List.replicate n '0' := by
  intro m n h
  simpa using congrArg List.length h

/-- A token holds no colon. -/
theorem colon_not_mem_zeros (n : Nat) : ':' ∉ List.replicate n '0' := by
  intro h
  exact absurd (List.eq_of_mem_replicate h) (by decide)

/-- The name of a scope in a key. -/
def scopeName : Scope → List Char
  | .emailIp => "email_ip".toList
  | .ip => "ip".toList
  | .email => "email".toList
  | .registrationIp => "registration_ip".toList
  | .oidcAuthorizationIp => "oidc_authorization_ip".toList

variable (R : Config) (S : LimiterSettings)

/-- `_bucket_key`. -/
def bucketKey (scope : Scope) (rawKey : BucketKey) : List Char :=
  R.keyPrefix ++ ':' :: scopeName scope ++ ':' :: R.sha256 (scopeName scope ++ ':' :: rawKey)

/-- The member a record adds. -/
def memberOf (now : ℚ) (token : Nat) : List Char := R.formatTime now ++ ':' :: R.tokenHex token

/-! ## The operations on the server -/

/-- The server, and the number of random suffixes drawn so far. -/
structure Store where
  server : Server
  tokens : Nat

/-- `_count_active`. -/
def countActive (keys : List (List Char)) (windowSeconds : Int) (now : ℚ) (store : Store) : List Nat :=
  keys.map fun key => zcount now key (now - windowSeconds) store.server

/-- The commands of `_record` for one key. -/
def recordKey (windowSeconds : Int) (now : ℚ) (store : Store) (key : List Char) : Store where
  server := expire now key (windowSeconds + 1)
    (zadd now key (memberOf R now store.tokens) now (zremrangebyscore now key (now - windowSeconds) store.server))
  tokens := store.tokens + 1

/-- `_record`. -/
def record (keys : List (List Char)) (windowSeconds : Int) (now : ℚ) (store : Store) : Store :=
  keys.foldl (recordKey R windowSeconds now) store

/-- One operation on a server that answers. -/
def perform (now : ℚ) (op : LimiterOp) (store : Store) : Option Bool × Store :=
  match op with
  | .isAllowed ip email =>
    let counts := countActive [bucketKey R .emailIp (emailIpKey ip email), bucketKey R .ip ip, bucketKey R .email email]
      S.windowSeconds now store
    (some (counts[0]! < S.maxFailuresPerEmailIp && counts[1]! < S.maxFailuresPerIp &&
      counts[2]! < S.maxFailuresPerEmail), store)
  | .isAccountDeletionReauthAllowed ip email =>
    let counts := countActive [bucketKey R .emailIp (emailIpKey ip email), bucketKey R .ip ip] S.windowSeconds now store
    (some (counts[0]! < S.maxFailuresPerEmailIp && counts[1]! < S.maxFailuresPerIp), store)
  | .recordFailure ip email includeEmailBucket =>
    let keys := [bucketKey R .emailIp (emailIpKey ip email), bucketKey R .ip ip]
    let keys := if includeEmailBucket then keys ++ [bucketKey R .email email] else keys
    (none, record R keys S.windowSeconds now store)
  | .recordSuccess ip email =>
    (none, { store with server := delete (bucketKey R .emailIp (emailIpKey ip email)) store.server })
  | .isRegistrationAllowed ip =>
    let counts := countActive [bucketKey R .registrationIp ip] S.registrationWindowSeconds now store
    (some (counts[0]! < S.maxRegistrationsPerIp), store)
  | .recordRegistration ip =>
    (none, record R [bucketKey R .registrationIp ip] S.registrationWindowSeconds now store)
  | .isOidcAuthorizationAllowed ip =>
    let counts := countActive [bucketKey R .oidcAuthorizationIp ip] S.windowSeconds now store
    (some (counts[0]! < S.maxOidcAuthorizationsPerIp), store)
  | .recordOidcAuthorization ip =>
    (none, record R [bucketKey R .oidcAuthorizationIp ip] S.windowSeconds now store)

/-! ## The circuit breaker -/

/-- The state of the breaker. -/
structure Breaker where
  consecutiveFailures : Nat
  circuitOpenedAt : Option ℚ
  circuitOpenWarningLogged : Bool
  poolExhaustionWarningLoggedAt : Option ℚ
  deriving DecidableEq, Repr

/-- `_circuit_is_open`: after the cooldown the circuit closes again. -/
def Breaker.circuitIsOpen (breakerNow : ℚ) (B : Breaker) : Bool × Breaker :=
  match B.circuitOpenedAt with
  | none => (false, B)
  | some openedAt =>
    if breakerNow - openedAt < R.circuitBreakerCooldownSeconds then (true, B)
    else (false, { B with circuitOpenedAt := none, circuitOpenWarningLogged := false })

/-- `_log_unavailable`: whether the warning is logged. -/
def Breaker.logUnavailable (B : Breaker) : Bool × Breaker :=
  if B.circuitOpenedAt.isSome && B.circuitOpenWarningLogged then (false, B)
  else (true, if B.circuitOpenedAt.isSome then { B with circuitOpenWarningLogged := true } else B)

/-- `_log_pool_exhaustion`: the warning is logged once a second at most. -/
def Breaker.logPoolExhaustion (breakerNow : ℚ) (B : Breaker) : Bool × Breaker :=
  if B.poolExhaustionWarningLoggedAt.any (fun t => breakerNow - t < 1) then (false, B)
  else (true, { B with poolExhaustionWarningLoggedAt := some breakerNow })

/-- `_mark_failure`. -/
def Breaker.markFailure (breakerNow : ℚ) (B : Breaker) : Bool × Breaker :=
  let B := { B with consecutiveFailures := B.consecutiveFailures + 1 }
  let B := if R.circuitBreakerFailures ≤ B.consecutiveFailures
    then { B with circuitOpenedAt := some breakerNow, circuitOpenWarningLogged := false } else B
  B.logUnavailable

/-- `_mark_success`. -/
def Breaker.markSuccess (B : Breaker) : Breaker :=
  { B with consecutiveFailures := 0, circuitOpenedAt := none, circuitOpenWarningLogged := false }

/-- What comes back from the server: the answer, an error that counts for the breaker, or an exhausted pool. An error may
come after the commands were applied. -/
inductive Reply where
  | answered
  | failed (applied : Bool)
  | poolExhausted
  deriving DecidableEq, Repr

/-- The limiter: the server it shares, its breaker and the operations it has logged as unavailable. -/
structure Limiter where
  store : Store
  breaker : Breaker
  warnings : List LimiterOp

/-- A limiter over an empty server. -/
def Limiter.new : Limiter := ⟨⟨fun _ => none, 0⟩, ⟨0, none, false, none⟩, []⟩

/-- The circumstances of one operation: the time of the server, its reply, and the breaker's clock before and after it. -/
structure Moment where
  time : ServerTime
  reply : Reply
  breakerStart : ℚ
  breakerEnd : ℚ
  deriving DecidableEq, Repr

/-- The log line of an operation without an answer, when it is due. -/
def Limiter.warn (L : Limiter) (op : LimiterOp) (logged : Bool × Breaker) : Limiter :=
  { L with breaker := logged.2, warnings := if logged.1 then L.warnings ++ [op] else L.warnings }

/-- The answer of an operation that the server did not answer: `_run_check_operation` falls back to the policy. -/
def unavailable : LimiterOp → Option Bool
  | .isAllowed .. | .isAccountDeletionReauthAllowed .. | .isRegistrationAllowed .. | .isOidcAuthorizationAllowed .. =>
    some R.failOpen
  | _ => none

/-- `_run_operation`. -/
def step (moment : Moment) (op : LimiterOp) (L : Limiter) : Option Bool × Limiter :=
  let (isOpen, breaker) := L.breaker.circuitIsOpen R moment.breakerStart
  let L := { L with breaker := breaker }
  if isOpen then (unavailable R op, L.warn op L.breaker.logUnavailable)
  else
    let (answer, store) := perform R S (redisTimeSeconds moment.time) op L.store
    match moment.reply with
    | .poolExhausted => (unavailable R op, L.warn op (L.breaker.logPoolExhaustion moment.breakerEnd))
    | .failed applied =>
      let L := if applied then { L with store := store } else L
      (unavailable R op, L.warn op (L.breaker.markFailure R moment.breakerEnd))
    | .answered => (answer, { L with store := store, breaker := L.breaker.markSuccess })

/-- The answers of a run, and the limiter after it. -/
def run : List (Moment × LimiterOp) → Limiter → List (Option Bool) × Limiter
  | [], L => ([], L)
  | (moment, op) :: ops, L =>
    let (answer, L) := step R S moment op L
    let (answers, L) := run ops L
    (answer :: answers, L)

/-! ## Operations that overlap

`_run_operation` reads the breaker when it starts and writes it when the reply is there. Other operations start and complete
in between. -/

/-- The reply to an operation that was sent: a result, which is a Boolean for a check, an error that counts, or an exhausted
pool. -/
inductive Completion where
  | success (result : Bool)
  | failure
  | poolExhausted
  deriving DecidableEq, Repr

/-- The answer of an operation that succeeded. -/
def answered (result : Bool) : LimiterOp → Option Bool
  | .isAllowed .. | .isAccountDeletionReauthAllowed .. | .isRegistrationAllowed .. | .isOidcAuthorizationAllowed .. =>
    some result
  | _ => none

/-- `_run_operation` up to the call of the server: whether the server is skipped. -/
def Breaker.start (breakerNow : ℚ) (B : Breaker) : Bool × Breaker :=
  let (isOpen, B) := B.circuitIsOpen R breakerNow
  if isOpen then (true, B.logUnavailable.2) else (false, B)

/-- `_run_operation` from the reply of the server on. -/
def Breaker.complete (breakerNow : ℚ) (completion : Completion) (B : Breaker) : Breaker :=
  match completion with
  | .success _ => B.markSuccess
  | .failure => (B.markFailure R breakerNow).2
  | .poolExhausted => (B.logPoolExhaustion breakerNow).2

/-- An operation starts, or the reply to one comes back. Operations are numbered in the order of their starts. -/
inductive Event where
  | start (op : LimiterOp)
  | complete (id : Nat) (completion : Completion)
  deriving DecidableEq, Repr

/-- What an event leads to: the server is called, or the operation returns its answer. -/
inductive Reaction where
  | sent
  | skipped (answer : Option Bool)
  | returned (answer : Option Bool)
  deriving DecidableEq, Repr

/-- The breaker, how many operations have started, and those that wait for their reply. -/
structure Traffic where
  breaker : Breaker
  started : Nat
  inFlight : Nat → Option LimiterOp

/-- Nothing has started. -/
def Traffic.new : Traffic := ⟨⟨0, none, false, none⟩, 0, fun _ => none⟩

/-- One event at a reading of the breaker's clock. Only an operation in flight completes. -/
def react (now : ℚ) (event : Event) (T : Traffic) : Option (Reaction × Traffic) :=
  match event with
  | .start op =>
    let (skips, breaker) := T.breaker.start R now
    if skips then some (.skipped (unavailable R op), { T with breaker := breaker, started := T.started + 1 })
    else
      some (.sent,
        { breaker := breaker, started := T.started + 1, inFlight := Function.update T.inFlight T.started (some op) })
  | .complete id completion =>
    (T.inFlight id).map fun op =>
      (.returned (match completion with | .success result => answered result op | _ => unavailable R op),
        { T with breaker := T.breaker.complete R now completion, inFlight := Function.update T.inFlight id none })

/-- The reactions to a run of events, and what is left. -/
def reactions : List (ℚ × Event) → Traffic → Option (List Reaction × Traffic)
  | [], T => some ([], T)
  | (now, event) :: events, T =>
    (react R now event T).bind fun (reaction, T) => (reactions events T).map fun (rs, T) => (reaction :: rs, T)

/-- The completion that a reply of the server and its answer amount to. -/
def Reply.completion (answer : Option Bool) : Reply → Completion
  | .answered => .success (answer.getD true)
  | .failed _ => .failure
  | .poolExhausted => .poolExhausted

end Redis

end AuthService
