import AuthService.Theorems.KeyFetching

/-!
# What the validation of an ID token raises

The checks raise errors of `app.models.oidc_errors`. Three library calls stand outside of every `try`: the `get` of a token's
header, which may be any JSON value, the encoding of a nonce, and the conversion of integers to times.
-/

namespace AuthService.ProviderClient

variable (L : Libraries) (settings : OidcSettings)

/-- An exception leaves that is none of `app.models.oidc_errors`. -/
def Escapes {A : Type} (r : Except ClientError A) : Prop := ∃ e, r = .error e ∧ e.isOidc = false

/-- The claims are those of `jwt.decode`, with the keys that are kept or with fresh ones. -/
def DecodesTo (outside : Outside) (provider : OidcProviderSettings) (idToken : PyText) (client : Client) (claims : Dict) : Prop :=
  ∃ metadata keys client1 client2 requests, discovery L outside provider client = (.ok metadata, client1) ∧
    jwks outside provider metadata client1 = (.ok keys, client2, requests) ∧
    (decodeIdToken L idToken keys metadata = some claims ∨
      decodeIdToken L idToken keys metadata = none ∧
      shouldRefreshJwks L outside client2 provider.providerId idToken keys = .ok true ∧
      ∃ keys' client3 requests', refreshJwks outside provider metadata client2 = (.ok keys', client3, requests') ∧
        decodeIdToken L idToken keys' metadata = some claims)

/-- The claims pass the checks before that of the nonce's hash. -/
structure Presented (provider : OidcProviderSettings) (claims : Dict) (expectedNonce : Option PyText) (nonce : PyText) : Prop where
  issuer : get claims "iss" = .str (points provider.issuer) ∧ points provider.issuer ≠ []
  audience : audienceContains (get claims "aud") (points provider.clientId) = true
  subject : ∃ s, get claims "sub" = .str s ∧ s ≠ [] ∧ L.strip s ≠ []
  present : get claims "nonce" = .str nonce ∧ nonce ≠ []
  expected : ∀ expected ∈ expectedNonce, nonce = expected

/-- The nonce has the hash that is expected. -/
def HasHash (nonce : PyText) (expectedNonceHash : Option PyText) : Prop :=
  ∀ expected ∈ expectedNonceHash, encodable nonce = true ∧ L.hashToken nonce = expected

/-- The claims pass the checks that a validation makes, and `v` is made of them. -/
def Checked (provider : OidcProviderSettings) (claims : Dict) (expectedNonce expectedNonceHash : Option PyText) (now : DateTime)
    (v : VerifiedClaims) : Prop :=
  ∃ nonce, Presented L provider claims expectedNonce nonce ∧ HasHash L nonce expectedNonceHash ∧
    ∃ exp iat, get claims "exp" = .int exp ∧ now < seconds exp ∧ get claims "iat" = .int iat ∧
      seconds iat ≤ now + seconds settings.authTimeFutureLeewaySeconds ∧
      v.issuer = points provider.issuer ∧ v.audience = provider.clientId ∧ v.subject ≠ [] ∧ v.expiresAt = seconds exp ∧
      v.issuedAt = seconds iat

/-- The token has a header that is no object, and no key accepts it. -/
def HeaderEscapes (outside : Outside) (provider : OidcProviderSettings) (idToken : PyText) (client : Client) : Prop :=
  (∃ metadata keys client1 client2 requests, discovery L outside provider client = (.ok metadata, client1) ∧
    jwks outside provider metadata client1 = (.ok keys, client2, requests) ∧ decodeIdToken L idToken keys metadata = none) ∧
  ∃ header, tokenHeader L idToken = some header ∧ ∀ fields, header ≠ .obj fields

/-- The claims pass every check before a nonce that has no encoding, or a number that is no time. -/
def ClaimsEscape (provider : OidcProviderSettings) (claims : Dict) (expectedNonce expectedNonceHash : Option PyText)
    (now : DateTime) : Prop :=
  ∃ nonce, Presented L provider claims expectedNonce nonce ∧
    (expectedNonceHash.isSome ∧ encodable nonce = false ∨
    HasHash L nonce expectedNonceHash ∧ ∃ exp, get claims "exp" = .int exp ∧
      (inRange exp = false ∨
      inRange exp = true ∧ now < seconds exp ∧ ∃ iat, get claims "iat" = .int iat ∧
        (inRange iat = false ∨
        inRange iat = true ∧ seconds iat ≤ now + seconds settings.authTimeFutureLeewaySeconds ∧
          ∃ authTime, get claims "auth_time" = .int authTime ∧ inRange authTime = false)))

/-- Nothing that leaves the validation is foreign: neither the header of the token nor its claims make it raise. -/
structure Contained (call : Call) (client : Client) : Prop where
  header : ∀ provider, settings.getProvider call.providerId = some provider →
    call.expectedNonce.isSome ∨ call.expectedNonceHash.isSome → ¬ HeaderEscapes L call.outside provider call.idToken client
  claims : ∀ provider claims, settings.getProvider call.providerId = some provider →
    call.expectedNonce.isSome ∨ call.expectedNonceHash.isSome → DecodesTo L call.outside provider call.idToken client claims →
    ¬ ClaimsEscape L settings provider claims call.expectedNonce call.expectedNonceHash (call.outside.now .claims)

namespace TokenValidationAux

variable {L settings} {A B : Type}

/-! ## Checks one after the other -/

/-- An error escapes from the first of two steps or from the second. -/
theorem escapes_bind {x : Except ClientError A} {f : A → Except ClientError B} :
    Escapes (x >>= f) ↔ Escapes x ∨ ∃ a, x = .ok a ∧ Escapes (f a) := by
  cases x with
  | error e => simp [Escapes, bind, Except.bind]
  | ok a => simp [Escapes, bind, Except.bind]

/-- What is made of a result does not matter. -/
theorem escapes_map {x : Except ClientError A} {f : A → B} : Escapes (x.map f) ↔ Escapes x := by
  cases x with
  | error e => simp [Escapes, Except.map]
  | ok a => simp [Escapes, Except.map]

/-- No error escapes from a value. -/
theorem not_escapes_pure (a : A) : ¬ Escapes (pure a : Except ClientError A) := by
  rintro ⟨e, h, _⟩
  cases h

/-- Two steps succeed one after the other. -/
theorem bind_eq_ok {x : Except ClientError A} {f : A → Except ClientError B} {b : B} :
    (x >>= f) = .ok b ↔ ∃ a, x = .ok a ∧ f a = .ok b := by
  cases x with
  | error e => simp [bind, Except.bind]
  | ok a => simp [bind, Except.bind]

/-- What is made of a result is made of one. -/
theorem map_eq_ok {x : Except ClientError A} {f : A → B} {b : B} : x.map f = .ok b ↔ ∃ a, x = .ok a ∧ f a = b := by
  cases x with
  | error e => simp [Except.map]
  | ok a => simp [Except.map]

/-- An error escapes from a check that fails with it. -/
theorem escapes_check {c : Bool} {e : ClientError} : Escapes (check c e) ↔ c = false ∧ e.isOidc = false := by
  unfold check
  split
  · simp [Escapes, *]
  · simp [Escapes, *]

/-- A check succeeds when its condition holds. -/
theorem check_eq_ok {c : Bool} {e : ClientError} {u : Unit} : check c e = .ok u ↔ c = true := by
  unfold check
  split
  · simp [*]
  · simp [*]

/-- A claim that is missing is refused by the client. -/
theorem not_escapes_requiredStr (claims : Dict) (key : String) : ¬ Escapes (requiredStr claims key) := by
  rintro ⟨e, he, hfalse⟩
  unfold requiredStr at he
  split at he
  · cases he
    cases hfalse
  · cases he
  · cases he
    cases hfalse

/-- A required claim is a text that is not empty. -/
theorem requiredStr_eq_ok {claims : Dict} {key : String} {s : PyText} :
    requiredStr claims key = .ok s ↔ get claims key = .str s ∧ s ≠ [] := by
  unfold requiredStr
  split
  · rename_i hget
    rw [hget]
    constructor
    · intro h
      cases h
    · rintro ⟨h, hne⟩
      cases h
      exact absurd rfl hne
  · rename_i hne hget
    rw [hget]
    constructor
    · intro h
      cases h
      exact ⟨rfl, hne⟩
    · rintro ⟨h, _⟩
      cases h
      rfl
  · rename_i hempty hother
    constructor
    · intro h
      cases h
    · rintro ⟨h, _⟩
      exact absurd h (hother s)

/-! ## Times -/

/-- A time escapes outside of the years of a `datetime`. -/
theorem escapes_fromTimestamp {n : Int} : Escapes (fromTimestamp n) ↔ inRange n = false := by
  unfold fromTimestamp
  split
  · simp [Escapes, *]
  · simp [Escapes, ClientError.isOidc, *]

/-- A time within the years of a `datetime`. -/
theorem fromTimestamp_eq_ok {n : Int} {t : DateTime} : fromTimestamp n = .ok t ↔ inRange n = true ∧ seconds n = t := by
  unfold fromTimestamp
  split
  · simp [*]
  · simp [*]

/-- A claim of a time escapes when it is a number outside of those years. -/
theorem escapes_datetimeClaim {claims : Dict} {key : String} :
    Escapes (datetimeClaim claims key) ↔ ∃ n, get claims key = .int n ∧ inRange n = false := by
  unfold datetimeClaim
  split
  · rename_i n hget
    rw [escapes_fromTimestamp, hget]
    constructor
    · intro h
      exact ⟨n, rfl, h⟩
    · rintro ⟨_, h, hrange⟩
      cases h
      exact hrange
  · rename_i hother
    constructor
    · rintro ⟨e, he, hfalse⟩
      cases he
      cases hfalse
    · rintro ⟨n, h, _⟩
      exact absurd h (hother n)

/-- A claim of a time is a number within those years. -/
theorem datetimeClaim_eq_ok {claims : Dict} {key : String} {t : DateTime} :
    datetimeClaim claims key = .ok t ↔ ∃ n, get claims key = .int n ∧ inRange n = true ∧ seconds n = t := by
  unfold datetimeClaim
  split
  · rename_i n hget
    rw [fromTimestamp_eq_ok, hget]
    constructor
    · intro h
      exact ⟨n, rfl, h⟩
    · rintro ⟨_, h, hrange⟩
      cases h
      exact hrange
  · rename_i hother
    constructor
    · intro h
      cases h
    · rintro ⟨n, h, _⟩
      exact absurd h (hother n)

/-- An optional time escapes when it is a number outside of those years. -/
theorem escapes_optionalDatetimeClaim {claims : Dict} {key : String} :
    Escapes (optionalDatetimeClaim claims key) ↔ ∃ n, get claims key = .int n ∧ inRange n = false := by
  unfold optionalDatetimeClaim
  split
  · rename_i hget
    rw [hget]
    constructor
    · rintro ⟨e, he, _⟩
      cases he
    · rintro ⟨n, h, _⟩
      cases h
  · rename_i n hget
    rw [escapes_map, escapes_fromTimestamp, hget]
    constructor
    · intro h
      exact ⟨n, rfl, h⟩
    · rintro ⟨_, h, hrange⟩
      cases h
      exact hrange
  · rename_i hother
    constructor
    · rintro ⟨e, he, hfalse⟩
      cases he
      cases hfalse
    · rintro ⟨n, h, _⟩
      exact absurd h (hother n)

/-! ## The nonce -/

/-- The nonce is hashed when a hash is expected, and escapes when it cannot be encoded. -/
theorem escapes_checkNonceHash {nonce : PyText} {expectedNonceHash : Option PyText} :
    Escapes (checkNonceHash L nonce expectedNonceHash) ↔ expectedNonceHash.isSome = true ∧ encodable nonce = false := by
  cases expectedNonceHash with
  | none =>
    constructor
    · rintro ⟨e, he, _⟩
      cases he
    · rintro ⟨h, _⟩
      cases h
  | some expected =>
    unfold checkNonceHash hashToken
    rw [escapes_bind]
    split
    · rename_i hencodable
      constructor
      · rintro (⟨e, he, _⟩ | ⟨_, _, hcheck⟩)
        · cases he
        · cases (escapes_check.1 hcheck).2
      · rintro ⟨_, h⟩
        rw [hencodable] at h
        cases h
    · rename_i hencodable
      refine iff_of_true (Or.inl ⟨_, rfl, rfl⟩) ⟨rfl, ?_⟩
      simpa using hencodable

/-- The nonce has the hash that is expected. -/
theorem checkNonceHash_eq_ok {nonce : PyText} {expectedNonceHash : Option PyText} {u : Unit} :
    checkNonceHash L nonce expectedNonceHash = .ok u ↔ HasHash L nonce expectedNonceHash := by
  cases expectedNonceHash with
  | none => simp [checkNonceHash, HasHash]
  | some expected =>
    unfold checkNonceHash hashToken HasHash
    rw [bind_eq_ok]
    split
    · simp [check_eq_ok, *]
    · simp [*]

/-! ## The claims -/

/-- What is presented before the times: issuer, audience, subject and nonce, in their order. -/
theorem presented_iff {provider : OidcProviderSettings} {claims : Dict} {expectedNonce : Option PyText} {nonce : PyText} :
    Presented L provider claims expectedNonce nonce ↔
      (∃ issuer, (get claims "iss" = .str issuer ∧ issuer ≠ []) ∧ issuer = points provider.issuer) ∧
      audienceContains (get claims "aud") (points provider.clientId) = true ∧
      (∃ s, (get claims "sub" = .str s ∧ s ≠ []) ∧ L.strip s ≠ []) ∧ (get claims "nonce" = .str nonce ∧ nonce ≠ []) ∧
      expectedNonce.all (fun expected => nonce = expected) = true := by
  constructor
  · rintro ⟨hissuer, haudience, ⟨s, hsub, hne, hstrip⟩, hnonce, hexpected⟩
    refine ⟨⟨_, hissuer, rfl⟩, haudience, ⟨s, ⟨hsub, hne⟩, hstrip⟩, hnonce, ?_⟩
    rw [Option.all_eq_true]
    exact fun expected hmem => decide_eq_true (hexpected expected hmem)
  · rintro ⟨⟨_, hissuer, rfl⟩, haudience, ⟨s, ⟨hsub, hne⟩, hstrip⟩, hnonce, hexpected⟩
    rw [Option.all_eq_true] at hexpected
    exact ⟨hissuer, haudience, ⟨s, hsub, hne, hstrip⟩, hnonce, fun expected hmem => of_decide_eq_true (hexpected expected hmem)⟩

/-- The checks of the claims let nothing else out than the encoding of a nonce and the conversion of a number. -/
theorem escapes_verifyClaims {provider : OidcProviderSettings} {claims : Dict} {expectedNonce expectedNonceHash : Option PyText}
    {requireAuthTime : Bool} {now : DateTime} :
    Escapes (verifyClaims L settings provider claims expectedNonce expectedNonceHash requireAuthTime now) ↔
      ClaimsEscape L settings provider claims expectedNonce expectedNonceHash now := by
  unfold verifyClaims ClaimsEscape
  simp only [escapes_bind, not_escapes_requiredStr, escapes_check, ClientError.isOidc, not_escapes_pure, escapes_checkNonceHash,
    escapes_datetimeClaim, escapes_optionalDatetimeClaim, escapes_map, requiredStr_eq_ok, check_eq_ok, checkNonceHash_eq_ok,
    datetimeClaim_eq_ok, map_eq_ok, presented_iff, Bool.true_eq_false, and_false, false_or, exists_const, or_false,
    decide_eq_true_eq]
  constructor
  · rintro ⟨issuer, hiss, hissuer, haudience, _, ⟨s, hsub, rfl⟩, hstrip, nonce, hnonce, hexpected, hrest⟩
    refine ⟨nonce, ⟨⟨issuer, hiss, hissuer⟩, haudience, ⟨s, hsub, hstrip⟩, hnonce, hexpected⟩, ?_⟩
    rcases hrest with hhash | ⟨hhash, ⟨exp, hexp, hrange⟩ | ⟨_, ⟨exp, hexp, hrange, rfl⟩, hlive, hrest⟩⟩
    · exact Or.inl hhash
    · exact Or.inr ⟨hhash, exp, hexp, Or.inl hrange⟩
    refine Or.inr ⟨hhash, exp, hexp, Or.inr ⟨hrange, hlive, ?_⟩⟩
    rcases hrest with ⟨iat, hiat, hrange⟩ | ⟨_, ⟨iat, hiat, hrange, rfl⟩, hpast, hrest⟩
    · exact ⟨iat, hiat, Or.inl hrange⟩
    · exact ⟨iat, hiat, Or.inr ⟨hrange, hpast, hrest⟩⟩
  · rintro ⟨nonce, ⟨⟨issuer, hiss, hissuer⟩, haudience, ⟨s, hsub, hstrip⟩, hnonce, hexpected⟩, hrest⟩
    refine ⟨issuer, hiss, hissuer, haudience, _, ⟨s, hsub, rfl⟩, hstrip, nonce, hnonce, hexpected, ?_⟩
    rcases hrest with hhash | ⟨hhash, exp, hexp, hrange | ⟨hrange, hlive, iat, hiat, hrest⟩⟩
    · exact Or.inl hhash
    · exact Or.inr ⟨hhash, Or.inl ⟨exp, hexp, hrange⟩⟩
    refine Or.inr ⟨hhash, Or.inr ⟨_, ⟨exp, hexp, hrange, rfl⟩, hlive, ?_⟩⟩
    rcases hrest with hrange | ⟨hrange, hpast, hrest⟩
    · exact Or.inl ⟨iat, hiat, hrange⟩
    · exact Or.inr ⟨_, ⟨iat, hiat, hrange, rfl⟩, hpast, hrest⟩

/-- Claims that are verified pass the checks. -/
theorem checked_of_verifyClaims {provider : OidcProviderSettings} {claims : Dict} {expectedNonce expectedNonceHash : Option PyText}
    {requireAuthTime : Bool} {now : DateTime} {v : VerifiedClaims}
    (h : verifyClaims L settings provider claims expectedNonce expectedNonceHash requireAuthTime now = .ok v) :
    Checked L settings provider claims expectedNonce expectedNonceHash now v := by
  unfold verifyClaims at h
  simp only [bind_eq_ok, requiredStr_eq_ok, check_eq_ok, checkNonceHash_eq_ok, datetimeClaim_eq_ok, map_eq_ok, exists_const,
    decide_eq_true_eq] at h
  obtain ⟨issuer, hiss, hissuer, haudience, _, ⟨s, hsub, rfl⟩, hstrip, nonce, hnonce, hexpected, hhash, _, ⟨exp, hexp, _, rfl⟩,
    hlive, _, ⟨iat, hiat, _, rfl⟩, hpast, _, _, _, _, hv⟩ := h
  have hpresented := presented_iff.2 ⟨⟨issuer, hiss, hissuer⟩, haudience, ⟨s, hsub, hstrip⟩, hnonce, hexpected⟩
  cases hv
  exact ⟨nonce, hpresented, hhash, exp, iat, hexp, hlive, hiat, hpast, hissuer, rfl, hstrip, rfl, rfl⟩

/-! ## The token -/

/-- The key id escapes when the header is no object. -/
theorem escapes_jwtKid {idToken : PyText} :
    Escapes (jwtKid L idToken) ↔ ∃ header, tokenHeader L idToken = some header ∧ ∀ fields, header ≠ .obj fields := by
  unfold jwtKid
  split
  · rename_i hnone
    constructor
    · rintro ⟨e, he, _⟩
      cases he
    · rintro ⟨header, h, _⟩
      cases hnone.symm.trans h
  · rename_i header hobject
    constructor
    · rintro ⟨e, he, _⟩
      split at he <;> cases he
    · rintro ⟨header', h, hother⟩
      cases hobject.symm.trans h
      exact absurd rfl (hother header)
  · rename_i header hother hsome
    exact iff_of_true ⟨_, rfl, rfl⟩ ⟨header, hsome, fun fields h => hother fields h⟩

/-- A guard raises an error of the client. -/
theorem not_escapes_guard {c : Prop} [Decidable c] {a : A} {e : ClientError} (h : e.isOidc = true) :
    ¬ Escapes (if c then .ok a else .error e) := by
  rintro ⟨_, he, hfalse⟩
  split at he
  · cases he
  · cases he
    cases h.symm.trans hfalse

/-- No error escapes from the choice of algorithms. -/
theorem not_escapes_idTokenAlgorithms (metadata : Dict) : ¬ Escapes (idTokenAlgorithms metadata) := by
  unfold idTokenAlgorithms
  exact not_escapes_guard rfl

/-- No error escapes from the metadata. -/
theorem not_escapes_requiredMetadataStr (metadata : Dict) (key : String) : ¬ Escapes (requiredMetadataStr metadata key) := by
  rintro ⟨e, he, hfalse⟩
  unfold requiredMetadataStr at he
  split at he
  · cases he
    cases hfalse
  · cases he
  · cases he
    cases hfalse

/-- No error escapes from the caches. -/
theorem not_escapes_cachedJson (cache : Cache) (now : DateTime) (loaded : Option Dict) (ttl : Int) :
    ¬ Escapes (cachedJson cache now loaded ttl).1 := by
  rintro ⟨e, he, hfalse⟩
  unfold cachedJson at he
  split at he
  · cases he
  split at he
  · cases he
    cases hfalse
  split at he
  · cases he
    cases hfalse
  · cases he

/-- No error escapes from the discovery. -/
theorem not_escapes_discovery (outside : Outside) (provider : OidcProviderSettings) (client : Client) :
    ¬ Escapes (discovery L outside provider client).1 := by
  intro h
  rcases escapes_bind.1 h with h | ⟨metadata, _, h⟩
  · exact not_escapes_cachedJson _ _ _ _ h
  rw [escapes_map] at h
  unfold validateDiscoveryMetadata at h
  split at h
  · obtain ⟨_, he, hfalse⟩ := h
    cases he
    cases hfalse
  split at h
  · obtain ⟨_, he, hfalse⟩ := h
    cases he
    cases hfalse
  · exact not_escapes_idTokenAlgorithms metadata (escapes_map.1 h)

/-- No error escapes from the lookup of the keys. -/
theorem not_escapes_jwks (outside : Outside) (provider : OidcProviderSettings) (metadata : Dict) (client : Client) :
    ¬ Escapes (jwks outside provider metadata client).1 := by
  unfold jwks
  split
  · rename_i e he
    rintro ⟨_, herror, hfalse⟩
    cases herror
    exact not_escapes_requiredMetadataStr metadata "jwks_uri" ⟨_, he, hfalse⟩
  · exact not_escapes_cachedJson _ _ _ _

/-- No error escapes from the forced refresh of the keys. -/
theorem not_escapes_refreshJwks (outside : Outside) (provider : OidcProviderSettings) (metadata : Dict) (client : Client) :
    ¬ Escapes (refreshJwks outside provider metadata client).1 := by
  unfold refreshJwks
  split
  · rename_i e he
    rintro ⟨_, herror, hfalse⟩
    cases herror
    exact not_escapes_requiredMetadataStr metadata "jwks_uri" ⟨_, he, hfalse⟩
  · exact not_escapes_cachedJson _ _ _ _

/-- The decision to refresh the keys escapes with the key id. -/
theorem escapes_shouldRefresh (outside : Outside) (client : Client) (providerId : Text) (keys : Dict) {idToken : PyText} :
    Escapes (shouldRefreshJwks L outside client providerId idToken keys) ↔ Escapes (jwtKid L idToken) := by
  unfold shouldRefreshJwks
  exact escapes_map

/-- Before the claims are there, only the header of the token makes the validation raise. -/
theorem escapes_tokenClaims {outside : Outside} {provider : OidcProviderSettings} {idToken : PyText} {client : Client} :
    Escapes (tokenClaims L outside provider idToken client).1 ↔ HeaderEscapes L outside provider idToken client := by
  have hdiscovery : ¬ Escapes (discovery L outside provider client).1 := not_escapes_discovery outside provider client
  unfold tokenClaims HeaderEscapes
  rw [← escapes_jwtKid]
  rcases hmetadata : discovery L outside provider client with ⟨e | metadata, client1⟩
  · rw [hmetadata] at hdiscovery
    simpa using hdiscovery
  have hjwks := not_escapes_jwks outside provider metadata client1
  dsimp only
  rcases hkeys : jwks outside provider metadata client1 with ⟨e | keys, client2, requests⟩
  · rw [hkeys] at hjwks
    simpa [hkeys] using hjwks
  dsimp only
  cases hdecode : decodeIdToken L idToken keys metadata with
  | some claims => simp [Escapes, hkeys, hdecode]
  | none =>
    have hreached : ∃ metadata' keys' client1' client2' requests',
        ((.ok metadata, client1) : Except ClientError Dict × Client) = (.ok metadata', client1') ∧
        jwks outside provider metadata' client1' = (.ok keys', client2', requests') ∧ decodeIdToken L idToken keys' metadata' = none :=
      ⟨_, _, _, _, _, rfl, hkeys, hdecode⟩
    rw [and_iff_right hreached, ← escapes_shouldRefresh outside client2 provider.providerId keys]
    rcases shouldRefreshJwks L outside client2 provider.providerId idToken keys with e | _ | _
    · simp [Escapes]
    · simp [Escapes, ClientError.isOidc]
    · have hrefresh := not_escapes_refreshJwks outside provider metadata client2
      dsimp only
      rcases hfresh : refreshJwks outside provider metadata client2 with ⟨e | keys', client3, requests'⟩
      · rw [hfresh] at hrefresh
        simpa [Escapes] using hrefresh
      · dsimp only
        split
        · simp [Escapes]
        · simp [Escapes, ClientError.isOidc]

/-- The claims of a token are those that it decodes to. -/
theorem tokenClaims_eq_ok {outside : Outside} {provider : OidcProviderSettings} {idToken : PyText} {client : Client}
    {claims : Dict} :
    (tokenClaims L outside provider idToken client).1 = .ok claims ↔ DecodesTo L outside provider idToken client claims := by
  unfold tokenClaims DecodesTo
  rcases discovery L outside provider client with ⟨e | metadata, client1⟩
  · simp
  dsimp only
  rcases hkeys : jwks outside provider metadata client1 with ⟨e | keys, client2, requests⟩
  · simp [hkeys]
  dsimp only
  cases hdecode : decodeIdToken L idToken keys metadata with
  | some claims' => simp [hkeys, hdecode]
  | none =>
    dsimp only
    rcases hshould : shouldRefreshJwks L outside client2 provider.providerId idToken keys with e | _ | _
    · simp [hkeys, hdecode, hshould]
    · simp [hkeys, hdecode, hshould]
    · dsimp only
      rcases hfresh : refreshJwks outside provider metadata client2 with ⟨e | keys', client3, requests'⟩
      · simp [hkeys, hdecode, hfresh]
      · cases hdecode' : decodeIdToken L idToken keys' metadata with
        | none => simp [hkeys, hdecode, hfresh, hdecode']
        | some claims' => simp [hkeys, hdecode, hshould, hfresh, hdecode']

/-! ## The whole validation -/

/-- A call that gets to the token. -/
def Starts (settings : OidcSettings) (call : Call) (provider : OidcProviderSettings) : Prop :=
  settings.getProvider call.providerId = some provider ∧ (call.expectedNonce.isSome ∨ call.expectedNonceHash.isSome)

variable (L settings) in
/-- A call that does not get to the token raises an error of its own. -/
theorem starts_or_error (call : Call) (client : Client) :
    (∃ provider, Starts settings call provider) ∨
    (∀ provider, ¬ Starts settings call provider) ∧ ∃ e, (call.run L settings client).1 = .error e ∧ e.isOidc = true := by
  unfold Call.run validateIdToken
  split
  · rename_i hnone
    refine Or.inr ⟨?_, _, rfl, rfl⟩
    rintro provider ⟨_, hexpects⟩
    rw [KeyFetchingAux.expects hexpects] at hnone
    cases hnone
  · rename_i hexpects
    have hexpects : call.expectedNonce.isSome ∨ call.expectedNonceHash.isSome := by
      cases hnonce : call.expectedNonce with
      | some nonce => exact Or.inl rfl
      | none =>
        cases hhash : call.expectedNonceHash with
        | some hash => exact Or.inr rfl
        | none =>
          rw [hnonce, hhash] at hexpects
          exact absurd rfl hexpects
    split
    · rename_i hnone
      refine Or.inr ⟨?_, _, rfl, rfl⟩
      rintro provider ⟨hprovider, _⟩
      cases hnone.symm.trans hprovider
    · rename_i provider hprovider
      exact Or.inl ⟨provider, hprovider, hexpects⟩

/-- A call with a nonce and a provider checks the claims of its token. -/
theorem run_of_starts {call : Call} {provider : OidcProviderSettings} (h : Starts settings call provider) (client : Client) :
    (call.run L settings client).1 = (tokenClaims L call.outside provider call.idToken client).1 >>= fun claims =>
      verifyClaims L settings provider claims call.expectedNonce call.expectedNonceHash call.requireAuthTime
        (call.outside.now .claims) := by
  rw [KeyFetchingAux.run_eq h.1 h.2]
  rfl

/-- An error escapes from a call through the header of its token or through the claims. -/
theorem escapes_run {call : Call} {client : Client} :
    Escapes (call.run L settings client).1 ↔ ∃ provider, Starts settings call provider ∧
      (HeaderEscapes L call.outside provider call.idToken client ∨
        ∃ claims, DecodesTo L call.outside provider call.idToken client claims ∧
          ClaimsEscape L settings provider claims call.expectedNonce call.expectedNonceHash (call.outside.now .claims)) := by
  rcases starts_or_error L settings call client with ⟨provider, hstarts⟩ | ⟨hnone, e, he, hoidc⟩
  · have hunique : ∀ provider', Starts settings call provider' → provider' = provider := fun provider' h =>
      Option.some.inj (h.1.symm.trans hstarts.1)
    rw [run_of_starts hstarts, escapes_bind, escapes_tokenClaims]
    simp only [tokenClaims_eq_ok, escapes_verifyClaims]
    constructor
    · intro h
      exact ⟨provider, hstarts, h⟩
    · rintro ⟨provider', hstarts', h⟩
      rwa [hunique provider' hstarts'] at h
  · constructor
    · rintro ⟨e', he', hfalse⟩
      cases he.symm.trans he'
      cases hoidc.symm.trans hfalse
    · rintro ⟨provider, hstarts, _⟩
      exact absurd hstarts (hnone provider)

/-- What is returned has passed the checks. -/
theorem checked_of_run {call : Call} {client : Client} {v : VerifiedClaims} (h : (call.run L settings client).1 = .ok v) :
    ∃ provider claims, settings.getProvider call.providerId = some provider ∧
      DecodesTo L call.outside provider call.idToken client claims ∧
      Checked L settings provider claims call.expectedNonce call.expectedNonceHash (call.outside.now .claims) v := by
  rcases starts_or_error L settings call client with ⟨provider, hstarts⟩ | ⟨_, e, he, _⟩
  · rw [run_of_starts hstarts] at h
    obtain ⟨claims, hclaims, hverified⟩ := bind_eq_ok.1 h
    exact ⟨provider, claims, hstarts.1, tokenClaims_eq_ok.1 hclaims, checked_of_verifyClaims hverified⟩
  · cases he.symm.trans h

end TokenValidationAux

open TokenValidationAux

/-- A validation returns claims that pass its checks or raises an error of `app.models.oidc_errors`, if and only if neither the
header of the token nor its claims make a library call raise outside of every `try`. -/
theorem validation_outcome_iff (L : Libraries) (settings : OidcSettings) (call : Call) (client : Client) :
    ((∀ v, (call.run L settings client).1 = .ok v → ∃ provider claims, settings.getProvider call.providerId = some provider ∧
        DecodesTo L call.outside provider call.idToken client claims ∧
        Checked L settings provider claims call.expectedNonce call.expectedNonceHash (call.outside.now .claims) v) ∧
      ∀ e, (call.run L settings client).1 = .error e → e.isOidc = true) ↔
      Contained L settings call client := by
  constructor
  · rintro ⟨_, hoidc⟩
    have hnot : ¬ Escapes (call.run L settings client).1 := by
      rintro ⟨e, he, hfalse⟩
      cases (hoidc e he).symm.trans hfalse
    rw [escapes_run] at hnot
    constructor
    · intro provider hprovider hexpects hheader
      exact hnot ⟨provider, ⟨hprovider, hexpects⟩, Or.inl hheader⟩
    · intro provider claims hprovider hexpects hdecodes hescape
      exact hnot ⟨provider, ⟨hprovider, hexpects⟩, Or.inr ⟨claims, hdecodes, hescape⟩⟩
  · intro h
    refine ⟨fun v hv => checked_of_run hv, ?_⟩
    intro e he
    by_contra hforeign
    have hescapes : Escapes (call.run L settings client).1 := ⟨e, he, Bool.eq_false_of_not_eq_true hforeign⟩
    obtain ⟨provider, hstarts, hheader | ⟨claims, hdecodes, hescape⟩⟩ := escapes_run.1 hescapes
    · exact h.header provider hstarts.1 hstarts.2 hheader
    · exact h.claims provider claims hstarts.1 hstarts.2 hdecodes hescape

/-- A token whose header is the list `[]`. -/
def listHeaderCall : Call := KeyFetchingAux.sampleCall (seconds 1700000000) (points "W10.e30.c2ln".toList) (some []) none

/-- The header of a token may be a list: reading its key id raises an `AttributeError`. -/
theorem validation_outcome_false :
    ¬ ∀ (L : Libraries) (settings : OidcSettings) (call : Call) (client : Client),
      (∀ v, (call.run L settings client).1 = .ok v → ∃ provider claims, settings.getProvider call.providerId = some provider ∧
        DecodesTo L call.outside provider call.idToken client claims ∧
        Checked L settings provider claims call.expectedNonce call.expectedNonceHash (call.outside.now .claims) v) ∧
      ∀ e, (call.run L settings client).1 = .error e → e.isOidc = true := by
  intro h
  let L : Libraries :=
    { KeyFetchingAux.sampleLibraries with
      decode := fun _ _ _ => none
      base64Json := fun segment => if segment = points "W10=".toList then some (.arr []) else none }
  have hraised : (listHeaderCall.run L KeyFetchingAux.sampleSettings Client.new).1 = .error .attributeError := rfl
  cases (h L KeyFetchingAux.sampleSettings listHeaderCall Client.new).2 _ hraised

end AuthService.ProviderClient
