import AuthService.UseCases.Oidc

/-!
# The client of the identity providers

`OidcProviderClient` (services/oidc_provider_client.py). The discovery document and the keys of a provider are fetched when they
are needed and kept for an hour, a failed fetch is kept for a minute. A token with a key id that is not among the keys forces a
new fetch, at most once a minute. Fetching, decoding a token, and parsing its header are calls to libraries.
-/

namespace AuthService.ProviderClient

/-! ## Python's strings and JSON -/

/-- A Python string: its code points, surrogates among them. -/
abbrev PyText := List Nat

def points (t : Text) : PyText := t.map Char.toNat

/-- `encode("utf-8")` does not raise: there is no surrogate. -/
def encodable (s : PyText) : Bool := s.all fun c => c < 0xD800 || 0xDFFF < c

/-- A JSON value as `json.loads` returns it. -/
inductive Json where
  | null
  | bool (b : Bool)
  | int (n : Int)
  | float (literal : PyText)
  | str (s : PyText)
  | arr (items : List Json)
  | obj (fields : List (PyText × Json))

/-- A JSON object. -/
abbrev Dict := List (PyText × Json)

/-- `mapping.get(key)`. -/
def get (mapping : Dict) (key : String) : Json := (mapping.lookup (points key.toList)).getD .null

/-- The value is this string. -/
def Json.isStr (value : Json) (s : PyText) : Bool :=
  match value with
  | .str s' => s' = s
  | _ => false

/-! ## State, libraries and errors -/

/-- The exceptions of the client: its own, and those that libraries raise outside of every `try`. -/
inductive ClientError where
  | providerNotConfigured (providerId : Text)
  | providerUnavailable (message : String)
  | providerMetadata (message : String)
  | claimsValidation (message : String)
  | reauthAuthTimeRequired (message : String)
  | reauthStale (message : String)
  | attributeError
  | unicodeEncodeError
  | timestampOutOfRange
  deriving DecidableEq, Repr

/-- The exception is one of `app.models.oidc_errors`. -/
def ClientError.isOidc : ClientError → Bool
  | .attributeError | .unicodeEncodeError | .timestampOutOfRange => false
  | _ => true

/-- `_CacheEntry`. -/
structure CacheEntry where
  value : Dict
  expiresAt : DateTime

/-- The entries of a cache and of its negative cache for one provider. -/
structure Cache where
  entry : Option CacheEntry
  failedUntil : Option DateTime

/-- The caches, and when keys were last refreshed by force. -/
structure Client where
  discovery : Text → Cache
  jwks : Text → Cache
  jwksRefreshAt : Text → Option DateTime

/-- A client that has fetched nothing. -/
def Client.new : Client := ⟨fun _ => ⟨none, none⟩, fun _ => ⟨none, none⟩, fun _ => none⟩

/-- The readings of the clock in one call, in their order. -/
inductive Reading where
  | discovery | jwks | cooldown | refresh | reload | claims
  deriving DecidableEq, Repr

/-- The requests of one call, in their order. -/
inductive Fetch where
  | discovery | jwks | reload
  deriving DecidableEq, Repr

/-- What the outside does during one call: the clock, and the answers to requests. `none` when the request raises. -/
structure Outside where
  now : Reading → DateTime
  getJson : Fetch → PyText → Option Dict

/-- The libraries: the validation of discovery metadata, the import of keys with the decoding of a token (`none` when either
raises), the JSON in a text of base64 (`none` when decoding it raises), `str.strip`, `str.lower` and `hash_token`. -/
structure Libraries where
  metadataValid : Dict → Bool
  decode : PyText → Dict → List PyText → Option Dict
  base64Json : PyText → Option Json
  strip : PyText → PyText
  lower : PyText → PyText
  hashToken : PyText → PyText

def discoveryCacheTtlSeconds : Int := 3600

def jwksCacheTtlSeconds : Int := 3600

def negativeCacheTtlSeconds : Int := 60

def jwksRefreshCooldownSeconds : Int := 60

/-- `SAFE_ID_TOKEN_ALGORITHMS`. -/
def safeIdTokenAlgorithms : List String :=
  ["RS256", "RS384", "RS512", "ES256", "ES384", "ES512", "PS256", "PS384", "PS512"]

/-! ## Caches -/

/-- `_cached_json`, and whether it made a request. -/
def cachedJson (cache : Cache) (now : DateTime) (loaded : Option Dict) (ttlSeconds : Int) :
    Except ClientError Dict × Cache × Bool :=
  match cache.entry.filter fun entry => now < entry.expiresAt with
  | some entry => (.ok entry.value, cache, false)
  | none =>
    if cache.failedUntil.any fun t => now < t then
      (.error (.providerUnavailable "OIDC provider metadata is temporarily unavailable"), cache, false)
    else match loaded with
      | none => (.error (.providerUnavailable "OIDC provider metadata is unavailable"),
          { cache with failedUntil := some (now + seconds negativeCacheTtlSeconds) }, true)
      | some value => (.ok value, ⟨some ⟨value, now + seconds ttlSeconds⟩, none⟩, true)

/-- `_required_metadata_str`. -/
def requiredMetadataStr (mapping : Dict) (key : String) : Except ClientError PyText :=
  match get mapping key with
  | .str [] => .error (.providerMetadata ("OIDC required metadata is missing: " ++ key))
  | .str s => .ok s
  | _ => .error (.providerMetadata ("OIDC required metadata is missing: " ++ key))

/-- `_id_token_algorithms`. -/
def idTokenAlgorithms (metadata : Dict) : Except ClientError (List PyText) :=
  let supported := match get metadata "id_token_signing_alg_values_supported" with
    | .arr algorithms => algorithms.filterMap fun algorithm => match algorithm with
      | .str s => if s ∈ safeIdTokenAlgorithms.map (fun a => points a.toList) then some s else none
      | _ => none
    | _ => []
  if supported ≠ [] then .ok supported
  else .error (.providerMetadata "OIDC provider does not advertise a safe ID token algorithm")

variable (L : Libraries)

/-- `_validate_discovery_metadata`. -/
def validateDiscoveryMetadata (provider : OidcProviderSettings) (metadata : Dict) : Except ClientError Unit :=
  if !L.metadataValid metadata then .error (.providerMetadata "OIDC discovery metadata is invalid")
  else if !(get metadata "issuer").isStr (points provider.issuer) then
    .error (.providerMetadata "OIDC discovery issuer mismatch")
  else (idTokenAlgorithms metadata).map fun _ => ()

/-- The discovery document of a provider: `f"{issuer.rstrip('/')}/.well-known/openid-configuration"`. -/
def discoveryUrl (provider : OidcProviderSettings) : PyText :=
  points ((provider.issuer.reverse.dropWhile (· = '/')).reverse ++ "/.well-known/openid-configuration".toList)

/-- `_discovery`. -/
def discovery (outside : Outside) (provider : OidcProviderSettings) (client : Client) : Except ClientError Dict × Client :=
  let (metadata, cache, _) := cachedJson (client.discovery provider.providerId) (outside.now .discovery)
    (outside.getJson .discovery (discoveryUrl provider)) discoveryCacheTtlSeconds
  (metadata.bind fun metadata => (validateDiscoveryMetadata L provider metadata).map fun _ => metadata,
    { client with discovery := Function.update client.discovery provider.providerId cache })

/-- `_jwks`, and when it made a request. -/
def jwks (outside : Outside) (provider : OidcProviderSettings) (metadata : Dict) (client : Client) :
    Except ClientError Dict × Client × List DateTime :=
  match requiredMetadataStr metadata "jwks_uri" with
  | .error e => (.error e, client, [])
  | .ok uri =>
    let now := outside.now .jwks
    let (keys, cache, requested) := cachedJson (client.jwks provider.providerId) now (outside.getJson .jwks uri) jwksCacheTtlSeconds
    (keys, { client with jwks := Function.update client.jwks provider.providerId cache }, if requested then [now] else [])

/-- `_jwks` with `force_refresh`. -/
def refreshJwks (outside : Outside) (provider : OidcProviderSettings) (metadata : Dict) (client : Client) :
    Except ClientError Dict × Client × List DateTime :=
  match requiredMetadataStr metadata "jwks_uri" with
  | .error e => (.error e, client, [])
  | .ok uri =>
    let now := outside.now .reload
    let (keys, cache, requested) := cachedJson { client.jwks provider.providerId with entry := none } now
      (outside.getJson .reload uri) jwksCacheTtlSeconds
    (keys,
      { client with
        jwks := Function.update client.jwks provider.providerId cache
        jwksRefreshAt := Function.update client.jwksRefreshAt provider.providerId (some (outside.now .refresh)) },
      if requested then [now] else [])

/-! ## The signature -/

/-- `_decode_id_token`. -/
def decodeIdToken (idToken : PyText) (keys metadata : Dict) : Option Dict :=
  match idTokenAlgorithms metadata with
  | .error _ => none
  | .ok algorithms => L.decode idToken keys algorithms

/-- The header of a token, or `none` when it cannot be parsed. -/
def tokenHeader (idToken : PyText) : Option Json :=
  let segment := idToken.takeWhile (· ≠ '.'.toNat)
  L.base64Json (segment ++ List.replicate ((4 - segment.length % 4) % 4) '='.toNat)

/-- `_jwt_kid`. A header that is no object has no method `get`. -/
def jwtKid (idToken : PyText) : Except ClientError (Option PyText) :=
  match tokenHeader L idToken with
  | none => .ok none
  | some (.obj header) =>
    match get header "kid" with
    | .str [] => .ok none
    | .str kid => .ok (some kid)
    | _ => .ok none
  | some _ => .error .attributeError

/-- `_jwks_has_kid`. -/
def jwksHasKid (keys : Dict) (kid : PyText) : Bool :=
  match get keys "keys" with
  | .arr keys => keys.any fun key => match key with
    | .obj key => (get key "kid").isStr kid
    | _ => false
  | _ => false

/-- `_should_refresh_jwks`. -/
def shouldRefreshJwks (outside : Outside) (client : Client) (providerId : Text) (idToken : PyText) (keys : Dict) :
    Except ClientError Bool :=
  (jwtKid L idToken).map fun kid =>
    match kid with
    | none => false
    | some kid =>
      if jwksHasKid keys kid then false
      else match client.jwksRefreshAt providerId with
        | none => true
        | some refreshedAt => seconds jwksRefreshCooldownSeconds ≤ outside.now .cooldown - refreshedAt

/-- The claims of a token whose signature is valid, with the keys that are kept or with fresh ones. -/
def tokenClaims (outside : Outside) (provider : OidcProviderSettings) (idToken : PyText) (client : Client) :
    Except ClientError Dict × Client × List DateTime :=
  match discovery L outside provider client with
  | (.error e, client) => (.error e, client, [])
  | (.ok metadata, client) =>
    match jwks outside provider metadata client with
    | (.error e, client, requests) => (.error e, client, requests)
    | (.ok keys, client, requests) =>
      match decodeIdToken L idToken keys metadata with
      | some claims => (.ok claims, client, requests)
      | none =>
        match shouldRefreshJwks L outside client provider.providerId idToken keys with
        | .error e => (.error e, client, requests)
        | .ok false => (.error (.claimsValidation "ID token signature validation failed"), client, requests)
        | .ok true =>
          match refreshJwks outside provider metadata client with
          | (.error e, client, requests') => (.error e, client, requests ++ requests')
          | (.ok keys, client, requests') =>
            match decodeIdToken L idToken keys metadata with
            | some claims => (.ok claims, client, requests ++ requests')
            | none => (.error (.claimsValidation "ID token signature validation failed"), client, requests ++ requests')

/-! ## The claims -/

/-- `OidcVerifiedClaims`. -/
structure VerifiedClaims where
  providerId : Text
  issuer : PyText
  audience : Text
  subject : PyText
  email : Option PyText
  emailVerified : Bool
  issuedAt : DateTime
  expiresAt : DateTime
  authTime : Option DateTime
  deriving DecidableEq, Repr

/-- `_required_str`. -/
def requiredStr (mapping : Dict) (key : String) : Except ClientError PyText :=
  match get mapping key with
  | .str [] => .error (.claimsValidation ("OIDC required claim or metadata is missing: " ++ key))
  | .str s => .ok s
  | _ => .error (.claimsValidation ("OIDC required claim or metadata is missing: " ++ key))

/-- `_audience_contains`. -/
def audienceContains (audience : Json) (clientId : PyText) : Bool :=
  match audience with
  | .str s => s = clientId
  | .arr items => items.any fun item => item.isStr clientId
  | _ => false

/-- The years 1 to 9999. -/
def inRange (value : Int) : Bool := -62135596800 ≤ value && value ≤ 253402300799

/-- `datetime.fromtimestamp(value, UTC)`. -/
def fromTimestamp (value : Int) : Except ClientError DateTime :=
  if inRange value then .ok (seconds value) else .error .timestampOutOfRange

/-- `_datetime_claim`. -/
def datetimeClaim (claims : Dict) (key : String) : Except ClientError DateTime :=
  match get claims key with
  | .int n => fromTimestamp n
  | _ => .error (.claimsValidation ("ID token " ++ key ++ " claim is missing or invalid"))

/-- `_optional_datetime_claim`. -/
def optionalDatetimeClaim (claims : Dict) (key : String) : Except ClientError (Option DateTime) :=
  match get claims key with
  | .null => .ok none
  | .int n => (fromTimestamp n).map some
  | _ => .error (.claimsValidation ("ID token " ++ key ++ " claim is invalid"))

/-- `_optional_normalized_email`. -/
def optionalNormalizedEmail (value : Json) : Option PyText :=
  match value with
  | .str s => if L.lower (L.strip s) = [] then none else some (L.lower (L.strip s))
  | _ => none

/-- `hash_token`. -/
def hashToken (token : PyText) : Except ClientError PyText :=
  if encodable token then .ok (L.hashToken token) else .error .unicodeEncodeError

/-- The error unless the condition holds. -/
def check (condition : Bool) (error : ClientError) : Except ClientError Unit := if condition then .ok () else .error error

/-- The check of the nonce against the hash that is expected. -/
def checkNonceHash (nonce : PyText) : Option PyText → Except ClientError Unit
  | none => .ok ()
  | some expected => do check ((← hashToken L nonce) = expected) (.claimsValidation "ID token nonce mismatch")

/-- The checks of the claims. -/
def verifyClaims (settings : OidcSettings) (provider : OidcProviderSettings) (claims : Dict)
    (expectedNonce expectedNonceHash : Option PyText) (requireAuthTime : Bool) (now : DateTime) :
    Except ClientError VerifiedClaims := do
  let leeway := seconds settings.authTimeFutureLeewaySeconds
  let issuer ← requiredStr claims "iss"
  check (issuer = points provider.issuer) (.claimsValidation "ID token issuer mismatch")
  check (audienceContains (get claims "aud") (points provider.clientId)) (.claimsValidation "ID token audience mismatch")
  let subject ← (requiredStr claims "sub").map L.strip
  check (subject ≠ []) (.claimsValidation "ID token subject is empty")
  let nonce ← requiredStr claims "nonce"
  check (expectedNonce.all fun expected => nonce = expected) (.claimsValidation "ID token nonce mismatch")
  checkNonceHash L nonce expectedNonceHash
  let expiresAt ← datetimeClaim claims "exp"
  check (now < expiresAt) (.claimsValidation "ID token is expired")
  let issuedAt ← datetimeClaim claims "iat"
  check (issuedAt ≤ now + leeway) (.claimsValidation "ID token issued_at is in the future")
  let authTime ← optionalDatetimeClaim claims "auth_time"
  check (!(requireAuthTime && authTime.isNone)) (.reauthAuthTimeRequired "ID token auth_time is required")
  check (!(requireAuthTime && authTime.any fun t => now + leeway < t)) (.reauthStale "ID token auth_time is in the future")
  return ⟨provider.providerId, issuer, provider.clientId, subject, optionalNormalizedEmail L (get claims "email"),
    match get claims "email_verified" with | .bool b => b | _ => false, issuedAt, expiresAt, authTime⟩

/-- `validate_id_token`, with the client after it and the times of the requests for keys. -/
def validateIdToken (settings : OidcSettings) (outside : Outside) (providerId : Text) (idToken : PyText)
    (expectedNonce expectedNonceHash : Option PyText) (requireAuthTime : Bool) (client : Client) :
    Except ClientError VerifiedClaims × Client × List DateTime :=
  if expectedNonce.isNone && expectedNonceHash.isNone then
    (.error (.claimsValidation "Expected nonce or nonce hash is required"), client, [])
  else match settings.getProvider providerId with
    | none => (.error (.providerNotConfigured providerId), client, [])
    | some provider =>
      let (claims, client, requests) := tokenClaims L outside provider idToken client
      (claims.bind fun claims =>
        verifyClaims L settings provider claims expectedNonce expectedNonceHash requireAuthTime (outside.now .claims),
        client, requests)

end AuthService.ProviderClient
