import AuthService.Library.OrderedDict
import AuthService.Library.SlidingWindow

/-!
# The rate limiter of the auth flows

`LoginRateLimiterInterface` has eight operations that the auth use cases call. `InMemoryLoginRateLimiter`
(libraries/auth_rate_limiter.py) answers them from one ordered dictionary of buckets for each scope; the specification
answers them from the whole history of counted events of each scope.
-/

namespace AuthService

open SlidingWindow

/-! ## The interface -/

/-- A raw bucket key. -/
abbrev BucketKey := List Char

/-- The bucket scopes. -/
inductive Scope where
  | emailIp | ip | email | registrationIp | oidcAuthorizationIp
  deriving DecidableEq, Repr

/-- The settings both limiters share (`AUTH_RATE_LIMIT_*`). -/
structure LimiterSettings where
  windowSeconds : Int
  registrationWindowSeconds : Int
  maxFailuresPerEmailIp : Int
  maxFailuresPerIp : Int
  maxFailuresPerEmail : Int
  maxRegistrationsPerIp : Int
  maxOidcAuthorizationsPerIp : Int
  maxBucketsPerScope : Int
  deriving Repr

/-- The window of a scope. -/
def LimiterSettings.windowOf (S : LimiterSettings) : Scope → Int
  | .registrationIp => S.registrationWindowSeconds
  | _ => S.windowSeconds

/-- The operations of `LoginRateLimiterInterface`. -/
inductive LimiterOp where
  | isAllowed (ipAddress normalizedEmail : BucketKey)
  | isAccountDeletionReauthAllowed (ipAddress normalizedEmail : BucketKey)
  | recordFailure (ipAddress normalizedEmail : BucketKey) (includeEmailBucket : Bool)
  | recordSuccess (ipAddress normalizedEmail : BucketKey)
  | isRegistrationAllowed (ipAddress : BucketKey)
  | recordRegistration (ipAddress : BucketKey)
  | isOidcAuthorizationAllowed (ipAddress : BucketKey)
  | recordOidcAuthorization (ipAddress : BucketKey)
  deriving DecidableEq, Repr

/-- `_email_ip_key`. -/
def emailIpKey (ipAddress normalizedEmail : BucketKey) : BucketKey := ipAddress ++ ':' :: normalizedEmail

/-- Readings of the clock. The difference of two readings may be rounded, in any way that keeps its order. -/
structure Clock where
  sub : ℚ → ℚ → ℚ
  sub_mono : ∀ {a a' b b' : ℚ}, a ≤ a' → b' ≤ b → sub a b ≤ sub a' b'

/-- The clock whose differences are exact. -/
def Clock.exact : Clock := ⟨(· - ·), fun h h' => sub_le_sub h h'⟩

/-! ## The limiter in memory -/

namespace InMemory

/-- The buckets of a scope: the times of the counted events of each key. -/
abbrev Buckets := OrderedDict BucketKey (List ℚ)

/-- `InMemoryLoginRateLimiter`: the buckets of each scope, and the scopes whose cap was logged. -/
structure Limiter where
  buckets : Scope → Buckets
  capWarningScopes : List Scope

/-- A new limiter. -/
def Limiter.new : Limiter := ⟨fun _ => OrderedDict.empty, []⟩

variable (C : Clock)

/-- `_trim`: old times leave from the front. -/
def trim (bucket : List ℚ) (now : ℚ) (windowSeconds : Int) : List ℚ :=
  bucket.dropWhile (fun t => C.sub now t > windowSeconds)

/-- `_get_existing_bucket`: the trimmed bucket; one that is left empty is deleted. -/
def getExistingBucket (buckets : Buckets) (key : BucketKey) (now : ℚ) (windowSeconds : Int) : Buckets × List ℚ :=
  match buckets.get? key with
  | none => (buckets, [])
  | some bucket =>
    let bucket := trim C bucket now windowSeconds
    if bucket = [] then (buckets.erase key, []) else (buckets.set key bucket, bucket)

/-- The loop of `_evict_expired_buckets`. -/
def evictLoop (maxBuckets : Int) (now : ℚ) (windowSeconds : Int) : List (BucketKey × List ℚ) → List (BucketKey × List ℚ)
  | [] => []
  | (key, bucket) :: rest =>
    if maxBuckets ≤ (rest.length + 1 : Nat) then
      let bucket := trim C bucket now windowSeconds
      if bucket = [] then evictLoop maxBuckets now windowSeconds rest else (key, bucket) :: rest
    else (key, bucket) :: rest

/-- Eviction removes buckets from the front. -/
theorem keys_evictLoop (maxBuckets : Int) (now : ℚ) (windowSeconds : Int) (items : List (BucketKey × List ℚ)) :
    (evictLoop C maxBuckets now windowSeconds items).map Prod.fst <:+ items.map Prod.fst := by
  induction items with
  | nil => exact List.suffix_refl _
  | cons p rest ih =>
    rw [evictLoop]
    split
    · simp only
      split
      · exact ih.trans (List.suffix_cons _ _)
      · exact List.suffix_refl _
    · exact List.suffix_refl _

/-- `_evict_expired_buckets`: empty buckets leave from the front while the cap is reached. -/
def evictExpiredBuckets (buckets : Buckets) (maxBuckets : Int) (now : ℚ) (windowSeconds : Int) : Buckets :=
  buckets.ofKeysSuffix (evictLoop C maxBuckets now windowSeconds buckets.items) (keys_evictLoop C _ _ _ _)

/-- `_get_or_create_bucket`: the live bucket of the key, now last, or a new empty one; `none` at the cap. -/
def getOrCreateBucket (buckets : Buckets) (key : BucketKey) (maxBuckets : Int) (now : ℚ) (windowSeconds : Int) :
    Buckets × Option (List ℚ) :=
  let (buckets, bucket) := getExistingBucket C buckets key now windowSeconds
  if bucket ≠ [] then (buckets.moveToEnd key, some bucket)
  else
    let buckets := if maxBuckets ≤ buckets.size then evictExpiredBuckets C buckets maxBuckets now windowSeconds else buckets
    if maxBuckets ≤ buckets.size then (buckets, none) else (buckets.set key [], some [])

/-- `_warn_bucket_cap_reached`: a scope is logged once. -/
def warnBucketCapReached (scopes : List Scope) (scope : Scope) : List Scope :=
  if scope ∈ scopes then scopes else scopes ++ [scope]

variable (S : LimiterSettings)

/-- The length of a key's bucket, after a lookup. -/
def check (scope : Scope) (key : BucketKey) (now : ℚ) (windowSeconds : Int) (L : Limiter) : Nat × Limiter :=
  let (buckets, bucket) := getExistingBucket C (L.buckets scope) key now windowSeconds
  (bucket.length, { L with buckets := Function.update L.buckets scope buckets })

/-- A key's bucket gets the time, unless the scope has no room for it. -/
def record (scope : Scope) (key : BucketKey) (now : ℚ) (windowSeconds : Int) (L : Limiter) : Limiter :=
  let (buckets, bucket) := getOrCreateBucket C (L.buckets scope) key S.maxBucketsPerScope now windowSeconds
  match bucket with
  | none =>
    { buckets := Function.update L.buckets scope buckets
      capWarningScopes := warnBucketCapReached L.capWarningScopes scope }
  | some bucket => { L with buckets := Function.update L.buckets scope (buckets.set key (bucket ++ [now])) }

/-- `is_allowed`. -/
def isAllowed (ipAddress normalizedEmail : BucketKey) (now : ℚ) (L : Limiter) : Bool × Limiter :=
  let (emailIp, L) := check C .emailIp (emailIpKey ipAddress normalizedEmail) now S.windowSeconds L
  let (ip, L) := check C .ip ipAddress now S.windowSeconds L
  let (email, L) := check C .email normalizedEmail now S.windowSeconds L
  (emailIp < S.maxFailuresPerEmailIp && ip < S.maxFailuresPerIp && email < S.maxFailuresPerEmail, L)

/-- `is_account_deletion_reauth_allowed`. -/
def isAccountDeletionReauthAllowed (ipAddress normalizedEmail : BucketKey) (now : ℚ) (L : Limiter) : Bool × Limiter :=
  let (emailIp, L) := check C .emailIp (emailIpKey ipAddress normalizedEmail) now S.windowSeconds L
  let (ip, L) := check C .ip ipAddress now S.windowSeconds L
  (emailIp < S.maxFailuresPerEmailIp && ip < S.maxFailuresPerIp, L)

/-- `record_failure`. -/
def recordFailure (ipAddress normalizedEmail : BucketKey) (includeEmailBucket : Bool) (now : ℚ) (L : Limiter) : Limiter :=
  let L := record C S .emailIp (emailIpKey ipAddress normalizedEmail) now S.windowSeconds L
  let L := record C S .ip ipAddress now S.windowSeconds L
  if includeEmailBucket then record C S .email normalizedEmail now S.windowSeconds L else L

/-- `record_success`. -/
def recordSuccess (ipAddress normalizedEmail : BucketKey) (L : Limiter) : Limiter :=
  let buckets := (L.buckets .emailIp).erase (emailIpKey ipAddress normalizedEmail)
  { L with buckets := Function.update L.buckets .emailIp buckets }

/-- `is_registration_allowed`. -/
def isRegistrationAllowed (ipAddress : BucketKey) (now : ℚ) (L : Limiter) : Bool × Limiter :=
  let (count, L) := check C .registrationIp ipAddress now S.registrationWindowSeconds L
  (count < S.maxRegistrationsPerIp, L)

/-- `record_registration`. -/
def recordRegistration (ipAddress : BucketKey) (now : ℚ) (L : Limiter) : Limiter :=
  record C S .registrationIp ipAddress now S.registrationWindowSeconds L

/-- `is_oidc_authorization_allowed`. -/
def isOidcAuthorizationAllowed (ipAddress : BucketKey) (now : ℚ) (L : Limiter) : Bool × Limiter :=
  let (count, L) := check C .oidcAuthorizationIp ipAddress now S.windowSeconds L
  (count < S.maxOidcAuthorizationsPerIp, L)

/-- `record_oidc_authorization`. -/
def recordOidcAuthorization (ipAddress : BucketKey) (now : ℚ) (L : Limiter) : Limiter :=
  record C S .oidcAuthorizationIp ipAddress now S.windowSeconds L

/-- One operation at a reading of the clock. A record has no answer. -/
def step (now : ℚ) (op : LimiterOp) (L : Limiter) : Option Bool × Limiter :=
  match op with
  | .isAllowed ip email => (isAllowed C S ip email now L).map some id
  | .isAccountDeletionReauthAllowed ip email => (isAccountDeletionReauthAllowed C S ip email now L).map some id
  | .recordFailure ip email includeEmailBucket => (none, recordFailure C S ip email includeEmailBucket now L)
  | .recordSuccess ip email => (none, recordSuccess ip email L)
  | .isRegistrationAllowed ip => (isRegistrationAllowed C S ip now L).map some id
  | .recordRegistration ip => (none, recordRegistration C S ip now L)
  | .isOidcAuthorizationAllowed ip => (isOidcAuthorizationAllowed C S ip now L).map some id
  | .recordOidcAuthorization ip => (none, recordOidcAuthorization C S ip now L)

/-- The answers of a run, and the limiter after it. -/
def run : List (ℚ × LimiterOp) → Limiter → List (Option Bool) × Limiter
  | [], L => ([], L)
  | (now, op) :: ops, L =>
    let (answer, L) := step C S now op L
    let (answers, L) := run ops L
    (answer :: answers, L)

end InMemory

/-! ## The specification -/

namespace LimiterSpec

variable (C : Clock) (S : LimiterSettings)

/-- The counted events of each scope. -/
abbrev History := Scope → List (BucketKey × ℚ)

/-- An event is live while the time since it is at most the window. -/
def window (windowSeconds : Int) : Window ℚ where
  live now t := C.sub now t ≤ windowSeconds
  upward h hl := by
    simp only [decide_eq_true_eq] at hl ⊢
    exact (C.sub_mono (le_refl _) h).trans hl
  fading h hl := by
    simp only [decide_eq_true_eq] at hl ⊢
    exact (C.sub_mono h (le_refl _)).trans hl

/-- The live events of a key in a scope. -/
def count (scope : Scope) (key : BucketKey) (now : ℚ) (H : History) : Nat :=
  liveCount (window C (S.windowOf scope)) (H scope) now key

/-- An event of a key in a scope. -/
def record (scope : Scope) (key : BucketKey) (now : ℚ) (H : History) : History :=
  Function.update H scope (SlidingWindow.record (window C (S.windowOf scope)) S.maxBucketsPerScope (H scope) now key)

/-- One operation at a reading of the clock. -/
def step (now : ℚ) (op : LimiterOp) (H : History) : Option Bool × History :=
  match op with
  | .isAllowed ip email =>
    (some (count C S .emailIp (emailIpKey ip email) now H < S.maxFailuresPerEmailIp &&
      count C S .ip ip now H < S.maxFailuresPerIp && count C S .email email now H < S.maxFailuresPerEmail), H)
  | .isAccountDeletionReauthAllowed ip email =>
    (some (count C S .emailIp (emailIpKey ip email) now H < S.maxFailuresPerEmailIp &&
      count C S .ip ip now H < S.maxFailuresPerIp), H)
  | .recordFailure ip email includeEmailBucket =>
    let H := record C S .ip ip now (record C S .emailIp (emailIpKey ip email) now H)
    (none, if includeEmailBucket then record C S .email email now H else H)
  | .recordSuccess ip email => (none, Function.update H .emailIp (forget (H .emailIp) (emailIpKey ip email)))
  | .isRegistrationAllowed ip => (some (count C S .registrationIp ip now H < S.maxRegistrationsPerIp), H)
  | .recordRegistration ip => (none, record C S .registrationIp ip now H)
  | .isOidcAuthorizationAllowed ip => (some (count C S .oidcAuthorizationIp ip now H < S.maxOidcAuthorizationsPerIp), H)
  | .recordOidcAuthorization ip => (none, record C S .oidcAuthorizationIp ip now H)

/-- The answers of a run, and the events counted in it. -/
def run : List (ℚ × LimiterOp) → History → List (Option Bool) × History
  | [], H => ([], H)
  | (now, op) :: ops, H =>
    let (answer, H) := step C S now op H
    let (answers, H) := run ops H
    (answer :: answers, H)

end LimiterSpec

end AuthService
