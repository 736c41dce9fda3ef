import AuthService.ProviderClient

/-!
# How often keys are fetched, and what a failed fetch leaves

Requests for the keys of a provider are of two kinds. One is made when no keys are kept and no failure is remembered, the other
when a token has an unknown key id. Each kind keeps its distance of a minute.
-/

namespace AuthService.ProviderClient

/-! ## Calls one after the other -/

/-- A call of `validate_id_token`. -/
structure Call where
  providerId : Text
  idToken : PyText
  expectedNonce : Option PyText
  expectedNonceHash : Option PyText
  requireAuthTime : Bool
  outside : Outside

/-- The call, on a client. -/
def Call.run (L : Libraries) (settings : OidcSettings) (call : Call) (client : Client) :
    Except ClientError VerifiedClaims × Client × List DateTime :=
  validateIdToken L settings call.outside call.providerId call.idToken call.expectedNonce call.expectedNonceHash
    call.requireAuthTime client

/-- The clock is read in order during a call: every reading lies between the first and the last. -/
structure Call.Ordered (call : Call) (first last : DateTime) : Prop where
  first_le : first ≤ call.outside.now .discovery
  jwks : call.outside.now .discovery ≤ call.outside.now .jwks
  cooldown : call.outside.now .jwks ≤ call.outside.now .cooldown
  refresh : call.outside.now .cooldown ≤ call.outside.now .refresh
  reload : call.outside.now .refresh ≤ call.outside.now .reload
  claims : call.outside.now .reload ≤ call.outside.now .claims
  le_last : call.outside.now .claims ≤ last

variable (L : Libraries) (settings : OidcSettings)

/-- The clients that calls lead to, with a time that the last of them did not pass. -/
inductive Reachable : DateTime → Client → Prop
  | new (t : DateTime) : Reachable t Client.new
  | call {t t' : DateTime} {client : Client} (call : Call) : Reachable t client → call.Ordered t t' →
      Reachable t' (call.run L settings client).2.1

/-- The requests for keys that calls make, with the provider and the time. -/
def requests : List Call → Client → List (Text × DateTime)
  | [], _ => []
  | call :: calls, client =>
    ((call.run L settings client).2.2.map fun t => (call.providerId, t)) ++ requests calls (call.run L settings client).2.1

/-- The keys that are kept are no longer good when a failure was noticed, and a failure is remembered for a minute. -/
structure Cache.Sound (cache : Cache) (now : DateTime) : Prop where
  stale : ∀ entry failedUntil, cache.entry = some entry → cache.failedUntil = some failedUntil →
    entry.expiresAt + seconds negativeCacheTtlSeconds ≤ failedUntil
  recent : ∀ failedUntil, cache.failedUntil = some failedUntil → failedUntil ≤ now + seconds negativeCacheTtlSeconds

/-- No request is made before a time. -/
def Cache.Quiet (cache : Cache) (t : DateTime) : Prop :=
  (∃ entry, cache.entry = some entry ∧ t ≤ entry.expiresAt) ∨
    ∃ failedUntil, cache.failedUntil = some failedUntil ∧ t ≤ failedUntil

/-- The call forces a refresh of the keys, which fails. -/
def RefreshFails (outside : Outside) (provider : OidcProviderSettings) (idToken : PyText) (client : Client) : Prop :=
  ∃ metadata keys e client1 client2 requests, discovery L outside provider client = (.ok metadata, client1) ∧
    jwks outside provider metadata client1 = (.ok keys, client2, requests) ∧ decodeIdToken L idToken keys metadata = none ∧
    shouldRefreshJwks L outside client2 provider.providerId idToken keys = .ok true ∧
    (refreshJwks outside provider metadata client2).1 = .error e

/-- A client keeps good keys when a call forces a refresh that fails. Another call follows before the keys would have expired,
with a token that these keys and the checks of its claims accept. -/
structure Outage (t t' t'' : DateTime) (client : Client) (provider : OidcProviderSettings) (entry : CacheEntry)
    (failing next : Call) (metadata : Dict) (uri : PyText) : Prop where
  reachable : Reachable L settings t client
  configured : settings.getProvider failing.providerId = some provider
  kept : (client.jwks provider.providerId).entry = some entry
  failing_ordered : failing.Ordered t t'
  failing_expects : failing.expectedNonce.isSome ∨ failing.expectedNonceHash.isSome
  refresh_fails : RefreshFails L failing.outside provider failing.idToken client
  same_provider : next.providerId = failing.providerId
  next_ordered : next.Ordered t' t''
  next_expects : next.expectedNonce.isSome ∨ next.expectedNonceHash.isSome
  unexpired : next.outside.now .jwks < entry.expiresAt
  discovered : (discovery L next.outside provider (failing.run L settings client).2.1).1 = .ok metadata
  has_uri : requiredMetadataStr metadata "jwks_uri" = .ok uri
  valid : ∃ claims v, decodeIdToken L next.idToken entry.value metadata = some claims ∧
    verifyClaims L settings provider claims next.expectedNonce next.expectedNonceHash next.requireAuthTime
      (next.outside.now .claims) = .ok v

/-- The call fetches keys that accept its token: at once, or by a refresh because they lack its key id. -/
def Refetches (provider : OidcProviderSettings) (next : Call) (metadata : Dict) (uri : PyText) : Prop :=
  ∃ keys claims v, next.outside.getJson .jwks uri = some keys ∧
    (decodeIdToken L next.idToken keys metadata = some claims ∨
      decodeIdToken L next.idToken keys metadata = none ∧
      (∃ kid, jwtKid L next.idToken = .ok (some kid) ∧ jwksHasKid keys kid = false) ∧
      ∃ keys', next.outside.getJson .reload uri = some keys' ∧ decodeIdToken L next.idToken keys' metadata = some claims) ∧
    verifyClaims L settings provider claims next.expectedNonce next.expectedNonceHash next.requireAuthTime
      (next.outside.now .claims) = .ok v

namespace KeyFetchingAux

variable {L settings}

/-! ## A lookup in the cache -/

/-- What a lookup does: it finds an entry, or a failure, or makes a request. -/
theorem cachedJson_cases (cache : Cache) (now : DateTime) (loaded : Option Dict) (ttl : Int) :
    (∃ entry, cache.entry = some entry ∧ now < entry.expiresAt ∧
      cachedJson cache now loaded ttl = (.ok entry.value, cache, false)) ∨
    ((∀ entry, cache.entry = some entry → entry.expiresAt ≤ now) ∧
      ((∃ failedUntil e, cache.failedUntil = some failedUntil ∧ now < failedUntil ∧
        cachedJson cache now loaded ttl = (.error e, cache, false)) ∨
      ((∀ failedUntil, cache.failedUntil = some failedUntil → failedUntil ≤ now) ∧
        ((∃ e, loaded = none ∧ cachedJson cache now loaded ttl =
          (.error e, { cache with failedUntil := some (now + seconds negativeCacheTtlSeconds) }, true)) ∨
        ∃ value, loaded = some value ∧
          cachedJson cache now loaded ttl = (.ok value, ⟨some ⟨value, now + seconds ttl⟩, none⟩, true))))) := by
  unfold cachedJson
  split
  · rename_i entry hentry
    obtain ⟨hsome, hlive⟩ := Option.filter_eq_some_iff.1 hentry
    exact Or.inl ⟨entry, hsome, of_decide_eq_true hlive, rfl⟩
  · rename_i hnone
    refine Or.inr ⟨?_, ?_⟩
    · intro entry hentry
      by_contra hlive
      rw [Option.filter_eq_none_iff] at hnone
      exact hnone entry hentry (decide_eq_true (not_le.1 hlive))
    split
    · rename_i hfailed
      obtain ⟨failedUntil, hsome, hlive⟩ := (Option.any_eq_true _ _).1 hfailed
      exact Or.inl ⟨failedUntil, _, hsome, of_decide_eq_true hlive, rfl⟩
    · rename_i hfailed
      refine Or.inr ⟨?_, ?_⟩
      · intro failedUntil hsome
        by_contra hlive
        exact hfailed ((Option.any_eq_true _ _).2 ⟨failedUntil, hsome, decide_eq_true (not_le.1 hlive)⟩)
      · cases loaded with
        | none => exact Or.inl ⟨_, rfl, rfl⟩
        | some value => exact Or.inr ⟨value, rfl, rfl⟩

/-- A request is only made when the cache is not quiet any more, and it makes the cache quiet for a minute. -/
theorem cachedJson_quiet {cache cache' : Cache} {now : DateTime} {loaded : Option Dict} {r : Except ClientError Dict}
    {requested : Bool} (h : cachedJson cache now loaded jwksCacheTtlSeconds = (r, cache', requested)) (hsound : cache.Sound now) :
    cache'.Sound now ∧
    (∀ t, cache.Quiet t → t ≤ now + seconds negativeCacheTtlSeconds → cache'.Quiet t) ∧
    (requested = true → (∀ t, cache.Quiet t → t ≤ now) ∧ cache'.Quiet (now + seconds negativeCacheTtlSeconds)) := by
  have hnegative : seconds negativeCacheTtlSeconds ≤ seconds jwksCacheTtlSeconds := by decide
  rcases cachedJson_cases cache now loaded jwksCacheTtlSeconds with ⟨entry, _, _, heq⟩ |
    ⟨hstale, ⟨failedUntil, e, _, _, heq⟩ | ⟨hover, ⟨e, _, heq⟩ | ⟨value, _, heq⟩⟩⟩
  · rw [heq] at h
    cases h
    exact ⟨hsound, fun t hquiet _ => hquiet, nofun⟩
  · rw [heq] at h
    cases h
    exact ⟨hsound, fun t hquiet _ => hquiet, nofun⟩
  · have hbefore : ∀ t, cache.Quiet t → t ≤ now := by
      rintro t (⟨entry, hentry, ht⟩ | ⟨failedUntil, hfailed, ht⟩)
      · exact ht.trans (hstale entry hentry)
      · exact ht.trans (hover failedUntil hfailed)
    rw [heq] at h
    cases h
    refine ⟨⟨?_, ?_⟩, ?_, fun _ => ⟨hbefore, Or.inr ⟨_, rfl, le_refl _⟩⟩⟩
    · intro entry failedUntil hentry hfailed
      have hexpired := hstale entry hentry
      obtain rfl := Option.some.inj hfailed
      exact Int.add_le_add_right hexpired _
    · intro failedUntil hfailed
      exact le_of_eq (Option.some.inj hfailed).symm
    · intro t _ ht
      exact Or.inr ⟨_, rfl, ht⟩
  · have hbefore : ∀ t, cache.Quiet t → t ≤ now := by
      rintro t (⟨entry, hentry, ht⟩ | ⟨failedUntil, hfailed, ht⟩)
      · exact ht.trans (hstale entry hentry)
      · exact ht.trans (hover failedUntil hfailed)
    have hlong : now + seconds negativeCacheTtlSeconds ≤ now + seconds jwksCacheTtlSeconds := Int.add_le_add_left hnegative _
    rw [heq] at h
    cases h
    refine ⟨⟨fun _ _ _ => nofun, nofun⟩, ?_, fun _ => ⟨hbefore, Or.inl ⟨_, rfl, hlong⟩⟩⟩
    intro t _ ht
    exact Or.inl ⟨_, rfl, ht.trans hlong⟩

/-- A forced refresh drops the keys that are kept. A failure that is remembered outlasts them. -/
theorem quiet_dropped {cache : Cache} {now : DateTime} (hsound : cache.Sound now) :
    Cache.Sound { cache with entry := none } now ∧
    ∀ t failedUntil, cache.failedUntil = some failedUntil → cache.Quiet t → Cache.Quiet { cache with entry := none } t := by
  refine ⟨⟨nofun, hsound.recent⟩, ?_⟩
  rintro t failedUntil hfailed (⟨entry, hentry, ht⟩ | hquiet)
  · have hstale := hsound.stale entry failedUntil hentry hfailed
    have hpositive : 0 ≤ seconds negativeCacheTtlSeconds := by decide
    exact Or.inr ⟨failedUntil, hfailed, ht.trans ((le_add_of_nonneg_right hpositive).trans hstale)⟩
  · exact Or.inr hquiet

/-- A lookup after the keys were dropped. -/
theorem forced_quiet {cache cache' : Cache} {now : DateTime} {loaded : Option Dict} {r : Except ClientError Dict}
    {requested : Bool} (h : cachedJson { cache with entry := none } now loaded jwksCacheTtlSeconds = (r, cache', requested))
    (hsound : cache.Sound now) :
    cache'.Sound now ∧ ∀ t, t ≤ now + seconds negativeCacheTtlSeconds → cache.Quiet t → cache'.Quiet t := by
  obtain ⟨hdropped, hquiet⟩ := quiet_dropped hsound
  obtain ⟨hsound', hkept, hrequested⟩ := cachedJson_quiet h hdropped
  refine ⟨hsound', fun t ht hbefore => ?_⟩
  cases requested with
  | true =>
    rcases (hrequested rfl).2 with ⟨entry, hentry, hle⟩ | ⟨failedUntil, hfailed, hle⟩
    · exact Or.inl ⟨entry, hentry, ht.trans hle⟩
    · exact Or.inr ⟨failedUntil, hfailed, ht.trans hle⟩
  | false =>
    rcases cachedJson_cases { cache with entry := none } now loaded jwksCacheTtlSeconds with ⟨entry, hentry, _⟩ |
      ⟨_, ⟨failedUntil, e, hfailed, _, _⟩ | ⟨_, ⟨e, _, heq⟩ | ⟨value, _, heq⟩⟩⟩
    · cases hentry
    · exact hkept t (hquiet t failedUntil hfailed hbefore) ht
    · rw [heq] at h
      cases h
    · rw [heq] at h
      cases h

/-! ## A call -/

/-- The times of requests, by whether one was made. -/
def requestedAt (requested : Bool) (now : DateTime) : List DateTime := if requested then [now] else []

/-- Fetching the keys is the cached request to the URI of the metadata. -/
theorem jwks_eq {outside : Outside} {provider : OidcProviderSettings} {metadata : Dict} {client : Client} {uri : PyText}
    {keys : Except ClientError Dict} {cache : Cache} {requested : Bool} (huri : requiredMetadataStr metadata "jwks_uri" = .ok uri)
    (h : cachedJson (client.jwks provider.providerId) (outside.now .jwks) (outside.getJson .jwks uri) jwksCacheTtlSeconds =
      (keys, cache, requested)) :
    jwks outside provider metadata client =
      (keys, { client with jwks := Function.update client.jwks provider.providerId cache },
        requestedAt requested (outside.now .jwks)) := by
  rw [jwks, huri]
  dsimp only
  rw [h]
  rfl

/-- A forced refresh is the cached request after the kept keys are dropped. -/
theorem refreshJwks_eq {outside : Outside} {provider : OidcProviderSettings} {metadata : Dict} {client : Client} {uri : PyText}
    {keys : Except ClientError Dict} {kept cache : Cache} {requested : Bool} (huri : requiredMetadataStr metadata "jwks_uri" = .ok uri)
    (hkept : client.jwks provider.providerId = kept)
    (h : cachedJson { kept with entry := none } (outside.now .reload) (outside.getJson .reload uri) jwksCacheTtlSeconds =
      (keys, cache, requested)) :
    refreshJwks outside provider metadata client =
      (keys, ⟨client.discovery, Function.update client.jwks provider.providerId cache,
        Function.update client.jwksRefreshAt provider.providerId (some (outside.now .refresh))⟩,
        requestedAt requested (outside.now .reload)) := by
  rw [refreshJwks, huri]
  dsimp only
  rw [hkept, h]
  rfl

/-- A forced refresh follows the last one after a minute. -/
theorem cooldown_of_refresh {outside : Outside} {client : Client} {providerId : Text} {idToken : PyText} {keys : Dict}
    (h : shouldRefreshJwks L outside client providerId idToken keys = .ok true) {t : DateTime}
    (ht : client.jwksRefreshAt providerId = some t) : seconds jwksRefreshCooldownSeconds ≤ outside.now .cooldown - t := by
  unfold shouldRefreshJwks at h
  cases hkid : jwtKid L idToken with
  | error e =>
    rw [hkid] at h
    cases h
  | ok kid =>
    rw [hkid] at h
    have h := Except.ok.inj h
    cases kid with
    | none => cases h
    | some kid =>
      dsimp only at h
      split at h
      · cases h
      · rw [ht] at h
        exact of_decide_eq_true h

/-- What a call does with the keys that are kept: nothing, a lookup, or a lookup and a forced refresh. -/
theorem tokenClaims_cases (outside : Outside) (provider : OidcProviderSettings) (idToken : PyText) (client : Client) :
    let result := (tokenClaims L outside provider idToken client).2
    (result.1.jwks = client.jwks ∧ result.1.jwksRefreshAt = client.jwksRefreshAt ∧ result.2 = []) ∨
    ∃ uri keys cache requested,
      cachedJson (client.jwks provider.providerId) (outside.now .jwks) (outside.getJson .jwks uri) jwksCacheTtlSeconds =
        (keys, cache, requested) ∧
      ((result.1.jwks = Function.update client.jwks provider.providerId cache ∧
        result.1.jwksRefreshAt = client.jwksRefreshAt ∧ result.2 = requestedAt requested (outside.now .jwks)) ∨
      ∃ keys' cache' requested',
        cachedJson { cache with entry := none } (outside.now .reload) (outside.getJson .reload uri) jwksCacheTtlSeconds =
          (keys', cache', requested') ∧
        (∀ t, client.jwksRefreshAt provider.providerId = some t →
          seconds jwksRefreshCooldownSeconds ≤ outside.now .cooldown - t) ∧
        result.1.jwks = Function.update client.jwks provider.providerId cache' ∧
        result.1.jwksRefreshAt = Function.update client.jwksRefreshAt provider.providerId (some (outside.now .refresh)) ∧
        result.2 = requestedAt requested (outside.now .jwks) ++ requestedAt requested' (outside.now .reload)) := by
  unfold tokenClaims
  have hdiscovery : (discovery L outside provider client).2.jwks = client.jwks ∧
      (discovery L outside provider client).2.jwksRefreshAt = client.jwksRefreshAt := ⟨rfl, rfl⟩
  revert hdiscovery
  rcases discovery L outside provider client with ⟨metadata, ⟨discovery1, jwks1, refreshAt1⟩⟩
  rintro ⟨hjwks, hrefreshAt⟩
  obtain rfl : jwks1 = client.jwks := hjwks
  obtain rfl : refreshAt1 = client.jwksRefreshAt := hrefreshAt
  cases metadata with
  | error e => exact Or.inl ⟨rfl, rfl, rfl⟩
  | ok metadata =>
    dsimp only
    cases huri : requiredMetadataStr metadata "jwks_uri" with
    | error e =>
      rw [jwks, huri]
      exact Or.inl ⟨rfl, rfl, rfl⟩
    | ok uri =>
      rcases hlookup : cachedJson (client.jwks provider.providerId) (outside.now .jwks) (outside.getJson .jwks uri)
        jwksCacheTtlSeconds with ⟨keys, cache, requested⟩
      rw [show jwks outside provider metadata ⟨discovery1, client.jwks, client.jwksRefreshAt⟩ = _ from jwks_eq huri hlookup]
      refine Or.inr ⟨uri, keys, cache, requested, hlookup, ?_⟩
      cases keys with
      | error e => exact Or.inl ⟨rfl, rfl, rfl⟩
      | ok keys =>
        dsimp only
        split
        · exact Or.inl ⟨rfl, rfl, rfl⟩
        split
        · exact Or.inl ⟨rfl, rfl, rfl⟩
        · exact Or.inl ⟨rfl, rfl, rfl⟩
        · rename_i hshould
          rcases hreload : cachedJson { cache with entry := none } (outside.now .reload) (outside.getJson .reload uri)
            jwksCacheTtlSeconds with ⟨keys', cache', requested'⟩
          have hkept : Function.update client.jwks provider.providerId cache provider.providerId = cache := Function.update_self _ _ _
          rw [show refreshJwks outside provider metadata ⟨discovery1, Function.update client.jwks provider.providerId cache,
            client.jwksRefreshAt⟩ = _ from refreshJwks_eq huri hkept hreload, Function.update_idem]
          refine Or.inr ⟨keys', cache', requested', rfl, fun t ht => cooldown_of_refresh hshould ht, ?_⟩
          cases keys' with
          | error e => exact ⟨rfl, rfl, rfl⟩
          | ok keys' =>
            dsimp only
            split
            · exact ⟨rfl, rfl, rfl⟩
            · exact ⟨rfl, rfl, rfl⟩

variable (L settings) in
/-- What a call leaves alone or does with a provider that is configured. -/
theorem run_cases (call : Call) (client : Client) :
    let result := (call.run L settings client).2
    (result.1 = client ∧ result.2 = []) ∨
    ∃ provider, provider.providerId = call.providerId ∧
      result = (tokenClaims L call.outside provider call.idToken client).2 := by
  unfold Call.run validateIdToken
  split
  · exact Or.inl ⟨rfl, rfl⟩
  split
  · exact Or.inl ⟨rfl, rfl⟩
  · rename_i provider hprovider
    have hfound := List.find?_some (show settings.providers.find? (fun p => p.providerId = call.providerId) = some provider from hprovider)
    exact Or.inr ⟨provider, of_decide_eq_true hfound, rfl⟩

/-! ## Requests and their distance -/

/-- A minute lies between any two of the times. -/
abbrev Apart (times : List DateTime) : Prop := times.Pairwise fun t t' => t + seconds negativeCacheTtlSeconds ≤ t'

/-- The requests for the keys of a provider so far, of the two kinds, and what the client remembers of them. -/
structure History (providerId : Text) (now : DateTime) (client : Client) (lookups refreshes : List DateTime) : Prop where
  sound : (client.jwks providerId).Sound now
  lookups_apart : Apart lookups
  refreshes_apart : Apart refreshes
  quiet : ∀ t ∈ lookups, (client.jwks providerId).Quiet (t + seconds negativeCacheTtlSeconds)
  lookups_le : ∀ t ∈ lookups, t ≤ now
  refreshed : ∀ t ∈ refreshes, ∃ t', client.jwksRefreshAt providerId = some t' ∧ t ≤ t'

/-- A sound cache stays sound as time passes. -/
theorem Cache.Sound.later {cache : Cache} {now now' : DateTime} (h : cache.Sound now) (hle : now ≤ now') : cache.Sound now' :=
  ⟨h.stale, fun failedUntil hfailed => (h.recent failedUntil hfailed).trans (Int.add_le_add_right hle _)⟩

/-- A time far enough after all the earlier ones keeps the times apart. -/
theorem apart_snoc {times : List DateTime} {t : DateTime} (h : Apart times)
    (ht : ∀ t' ∈ times, t' + seconds negativeCacheTtlSeconds ≤ t) : Apart (times ++ [t]) := by
  refine List.pairwise_append.2 ⟨h, List.pairwise_singleton _ _, ?_⟩
  intro t' ht' t'' ht''
  rw [List.mem_singleton.1 ht'']
  exact ht t' ht'

/-- A call at one time makes at most one request of each kind. -/
theorem history_call {p : Text} {now t : DateTime} {client : Client} {lookups refreshes : List DateTime}
    (h : History p now client lookups refreshes) (hnow : now ≤ t) {outside : Outside} (hclock : outside.now = fun _ => t)
    {provider : OidcProviderSettings} (hprovider : provider.providerId = p) (idToken : PyText) :
    let result := (tokenClaims L outside provider idToken client).2
    ∃ lookups' refreshes', result.2 = lookups' ++ refreshes' ∧
      History p t result.1 (lookups ++ lookups') (refreshes ++ refreshes') := by
  have hclock' : ∀ reading, outside.now reading = t := fun reading => congrFun hclock reading
  have hsound := Cache.Sound.later h.sound hnow
  have hle : ∀ t' ∈ lookups, t' + seconds negativeCacheTtlSeconds ≤ t + seconds negativeCacheTtlSeconds :=
    fun t' ht' => Int.add_le_add_right ((h.lookups_le t' ht').trans hnow) _
  rcases tokenClaims_cases (L := L) outside provider idToken client with ⟨hjwks, hrefresh, hnone⟩ |
    ⟨uri, keys, cache, requested, hlookup, hrest⟩
  · refine ⟨[], [], by simpa using hnone, ?_⟩
    rw [List.append_nil, List.append_nil]
    refine ⟨by rw [hjwks]; exact hsound, h.lookups_apart, h.refreshes_apart, ?_, fun t' ht' => (h.lookups_le t' ht').trans hnow, ?_⟩
    · rw [hjwks]
      exact h.quiet
    · rw [hrefresh]
      exact h.refreshed
  rw [hclock', hprovider] at hlookup
  obtain ⟨hsound', hquiet, hrequested⟩ := cachedJson_quiet hlookup hsound
  -- the lookup
  have hlookups : Apart (lookups ++ requestedAt requested t) ∧
      (∀ t' ∈ lookups ++ requestedAt requested t, cache.Quiet (t' + seconds negativeCacheTtlSeconds)) ∧
      ∀ t' ∈ lookups ++ requestedAt requested t, t' ≤ t := by
    cases requested with
    | false =>
      rw [requestedAt, if_neg Bool.false_ne_true, List.append_nil]
      exact ⟨h.lookups_apart, fun t' ht' => hquiet _ (h.quiet t' ht') (hle t' ht'), fun t' ht' => (h.lookups_le t' ht').trans hnow⟩
    | true =>
      obtain ⟨hbefore, hnew⟩ := hrequested rfl
      rw [requestedAt, if_pos rfl]
      refine ⟨apart_snoc h.lookups_apart fun t' ht' => hbefore _ (h.quiet t' ht'), ?_, ?_⟩
      · intro t' ht'
        rcases List.mem_append.1 ht' with ht' | ht'
        · exact hquiet _ (h.quiet t' ht') (hle t' ht')
        · rw [List.mem_singleton.1 ht']
          exact hnew
      · intro t' ht'
        rcases List.mem_append.1 ht' with ht' | ht'
        · exact (h.lookups_le t' ht').trans hnow
        · exact le_of_eq (List.mem_singleton.1 ht')
  obtain ⟨hapart, hstill, hbelow⟩ := hlookups
  rcases hrest with ⟨hjwks, hrefresh, hrequests⟩ | ⟨keys', cache', requested', hreload, hcooldown, hjwks, hrefresh, hrequests⟩
  · rw [hclock'] at hrequests
    refine ⟨requestedAt requested t, [], by simpa using hrequests, ?_⟩
    rw [List.append_nil]
    refine ⟨?_, hapart, h.refreshes_apart, ?_, hbelow, ?_⟩
    · rw [hjwks, hprovider, Function.update_self]
      exact hsound'
    · rw [hjwks, hprovider, Function.update_self]
      exact hstill
    · rw [hrefresh]
      exact h.refreshed
  · rw [hclock'] at hreload
    rw [hclock', hclock'] at hrequests
    have hforced := forced_quiet hreload hsound'
    refine ⟨requestedAt requested t, requestedAt requested' t, hrequests, ?_, hapart, ?_, ?_, hbelow, ?_⟩
    · rw [hjwks, hprovider, Function.update_self]
      exact hforced.1
    · have hbefore : ∀ t' ∈ refreshes, t' + seconds negativeCacheTtlSeconds ≤ t := by
        intro t' ht'
        obtain ⟨t'', ht'', hle'⟩ := h.refreshed t' ht'
        have hgap := hcooldown t'' (by rw [hprovider]; exact ht'')
        rw [hclock'] at hgap
        have hminute : seconds jwksRefreshCooldownSeconds = seconds negativeCacheTtlSeconds := rfl
        have hadd : t'' + seconds negativeCacheTtlSeconds ≤ t := by
          rw [← hminute, add_comm]
          exact le_sub_iff_add_le.1 hgap
        exact (Int.add_le_add_right hle' _).trans hadd
      cases requested' with
      | false =>
        rw [requestedAt, if_neg Bool.false_ne_true, List.append_nil]
        exact h.refreshes_apart
      | true => exact apart_snoc h.refreshes_apart hbefore
    · rw [hjwks, hprovider, Function.update_self]
      exact fun t' ht' => hforced.2 _ (Int.add_le_add_right (hbelow t' ht') _) (hstill t' ht')
    · rw [hrefresh, hprovider, Function.update_self, hclock']
      intro t' ht'
      refine ⟨t, rfl, ?_⟩
      rcases List.mem_append.1 ht' with ht' | ht'
      · obtain ⟨t'', ht'', hle'⟩ := h.refreshed t' ht'
        have hgap := hcooldown t'' (by rw [hprovider]; exact ht'')
        rw [hclock'] at hgap
        have hpositive : 0 ≤ seconds jwksRefreshCooldownSeconds := by decide
        exact hle'.trans (sub_nonneg.1 (hpositive.trans hgap))
      · unfold requestedAt at ht'
        split at ht'
        · exact le_of_eq (List.mem_singleton.1 ht')
        · cases ht'

/-- A new client has asked for nothing. -/
theorem history_new (p : Text) (now : DateTime) : History p now Client.new [] [] :=
  ⟨⟨nofun, nofun⟩, .nil, .nil, nofun, nofun, nofun⟩

/-- Nothing happens to a provider when another's token is validated. -/
theorem history_congr {p : Text} {now t : DateTime} {client client' : Client} {lookups refreshes : List DateTime}
    (h : History p now client lookups refreshes) (hnow : now ≤ t) (hjwks : client'.jwks p = client.jwks p)
    (hrefresh : client'.jwksRefreshAt p = client.jwksRefreshAt p) : History p t client' lookups refreshes := by
  refine ⟨?_, h.lookups_apart, h.refreshes_apart, ?_, fun t' ht' => (h.lookups_le t' ht').trans hnow, ?_⟩
  · rw [hjwks]
    exact Cache.Sound.later h.sound hnow
  · rw [hjwks]
    exact h.quiet
  · rw [hrefresh]
    exact h.refreshed

/-- A token of another provider leaves this provider's keys alone. -/
theorem frame_other {p : Text} (outside : Outside) {provider : OidcProviderSettings} (hother : provider.providerId ≠ p)
    (idToken : PyText) (client : Client) :
    let result := (tokenClaims L outside provider idToken client).2
    result.1.jwks p = client.jwks p ∧ result.1.jwksRefreshAt p = client.jwksRefreshAt p := by
  rcases tokenClaims_cases (L := L) outside provider idToken client with ⟨hjwks, hrefresh, _⟩ |
    ⟨_, _, _, _, _, ⟨hjwks, hrefresh, _⟩ | ⟨_, _, _, _, _, hjwks, hrefresh, _⟩⟩
  · exact ⟨congrFun hjwks p, congrFun hrefresh p⟩
  · exact ⟨(congrFun hjwks p).trans (Function.update_of_ne (Ne.symm hother) _ _), congrFun hrefresh p⟩
  · exact ⟨(congrFun hjwks p).trans (Function.update_of_ne (Ne.symm hother) _ _),
      (congrFun hrefresh p).trans (Function.update_of_ne (Ne.symm hother) _ _)⟩

/-- The times of the requests for the keys of one provider. -/
def timesOf (p : Text) (requests : List (Text × DateTime)) : List DateTime :=
  (requests.filter fun request => request.1 = p).map Prod.snd

theorem timesOf_append (p : Text) (xs ys : List (Text × DateTime)) : timesOf p (xs ++ ys) = timesOf p xs ++ timesOf p ys := by
  simp [timesOf]

/-- All tagged requests go to the tagged provider. -/
theorem timesOf_tagged (p q : Text) (times : List DateTime) :
    timesOf p (times.map fun t => (q, t)) = if q = p then times else [] := by
  by_cases h : q = p
  · subst h
    simp [timesOf, List.filter_map, Function.comp_def]
  · simp [timesOf, List.filter_map, Function.comp_def, h]

variable (L settings) in
/-- The requests of a run are those of its lookups and of its refreshes. -/
theorem history_run {p : Text} {calls : List Call}
    (honce : ∀ call ∈ calls, ∀ reading, call.outside.now reading = call.outside.now .discovery)
    (horder : calls.Pairwise fun a b => a.outside.now .discovery ≤ b.outside.now .discovery) {now : DateTime} {client : Client}
    (hnow : ∀ call ∈ calls, now ≤ call.outside.now .discovery) {lookups refreshes : List DateTime}
    (h : History p now client lookups refreshes) :
    ∃ lookups' refreshes', (timesOf p (requests L settings calls client)).Perm (lookups' ++ refreshes') ∧
      Apart (lookups ++ lookups') ∧ Apart (refreshes ++ refreshes') := by
  induction calls generalizing now client lookups refreshes with
  | nil => exact ⟨[], [], .nil, by simpa using h.lookups_apart, by simpa using h.refreshes_apart⟩
  | cons call calls ih =>
    have hle := hnow call List.mem_cons_self
    have hclock : call.outside.now = fun _ => call.outside.now .discovery := funext (honce call List.mem_cons_self)
    have hrest : ∀ call' ∈ calls, call.outside.now .discovery ≤ call'.outside.now .discovery := (List.pairwise_cons.1 horder).1
    have hstep : ∃ lookups' refreshes', timesOf p ((call.run L settings client).2.2.map fun t => (call.providerId, t)) =
        lookups' ++ refreshes' ∧ History p (call.outside.now .discovery) (call.run L settings client).2.1
          (lookups ++ lookups') (refreshes ++ refreshes') := by
      rcases run_cases L settings call client with ⟨hclient, hnone⟩ | ⟨provider, hprovider, hrun⟩
      · refine ⟨[], [], by rw [hnone]; rfl, ?_⟩
        rw [hclient, List.append_nil, List.append_nil]
        exact history_congr h hle rfl rfl
      · rw [hrun, timesOf_tagged, ← hprovider]
        by_cases hp : provider.providerId = p
        · rw [if_pos hp]
          exact history_call h hle hclock hp call.idToken
        · rw [if_neg hp]
          obtain ⟨hjwks, hrefresh⟩ := frame_other (L := L) call.outside hp call.idToken client
          refine ⟨[], [], rfl, ?_⟩
          rw [List.append_nil, List.append_nil]
          exact history_congr h hle hjwks hrefresh
    obtain ⟨lookups1, refreshes1, htimes, h1⟩ := hstep
    obtain ⟨lookups2, refreshes2, hperm, hlookups, hrefreshes⟩ := ih (fun call' hcall' => honce call' (List.mem_cons_of_mem _ hcall'))
      (List.pairwise_cons.1 horder).2 hrest h1
    refine ⟨lookups1 ++ lookups2, refreshes1 ++ refreshes2, ?_, by rwa [← List.append_assoc], by rwa [← List.append_assoc]⟩
    rw [requests, timesOf_append, htimes]
    calc lookups1 ++ refreshes1 ++ timesOf p (requests L settings calls (call.run L settings client).2.1)
        |>.Perm (lookups1 ++ refreshes1 ++ (lookups2 ++ refreshes2)) := hperm.append_left _
      _ |>.Perm (lookups1 ++ lookups2 ++ (refreshes1 ++ refreshes2)) := by
        simp only [List.append_assoc]
        refine List.Perm.append_left _ ?_
        rw [← List.append_assoc, ← List.append_assoc]
        exact List.Perm.append_right _ List.perm_append_comm

/-! ## A refresh that fails -/

/-- Every ordered call keeps the keys' cache sound. -/
theorem sound_run {call : Call} {t t' : DateTime} (hcall : call.Ordered t t') {client : Client} {p : Text}
    (h : (client.jwks p).Sound t) : ((call.run L settings client).2.1.jwks p).Sound t' := by
  have hend : call.outside.now .jwks ≤ t' :=
    hcall.cooldown.trans (hcall.refresh.trans (hcall.reload.trans (hcall.claims.trans hcall.le_last)))
  have hstart : t ≤ call.outside.now .jwks := hcall.first_le.trans hcall.jwks
  rcases run_cases L settings call client with ⟨hclient, _⟩ | ⟨provider, _, hrun⟩
  · rw [hclient]
    exact Cache.Sound.later h (hstart.trans hend)
  rw [hrun]
  by_cases hp : provider.providerId = p
  · rw [← hp] at h ⊢
    rcases tokenClaims_cases (L := L) call.outside provider call.idToken client with ⟨hjwks, _, _⟩ |
      ⟨uri, keys, cache, requested, hlookup, hrest⟩
    · rw [hjwks]
      exact Cache.Sound.later h (hstart.trans hend)
    have hsound := (cachedJson_quiet hlookup (Cache.Sound.later h hstart)).1
    rcases hrest with ⟨hjwks, _⟩ | ⟨keys', cache', requested', hreload, _, hjwks, _⟩
    · rw [hjwks, Function.update_self]
      exact Cache.Sound.later hsound hend
    · rw [hjwks, Function.update_self]
      have hbetween : call.outside.now .jwks ≤ call.outside.now .reload :=
        hcall.cooldown.trans (hcall.refresh.trans hcall.reload)
      exact Cache.Sound.later (forced_quiet hreload (Cache.Sound.later hsound hbetween)).1 (hcall.claims.trans hcall.le_last)
  · rw [(frame_other (L := L) call.outside hp call.idToken client).1]
    exact Cache.Sound.later h (hstart.trans hend)

/-- Every reachable client has sound caches. -/
theorem sound_of_reachable {t : DateTime} {client : Client} (h : Reachable L settings t client) (p : Text) :
    (client.jwks p).Sound t := by
  induction h with
  | new t => exact ⟨nofun, nofun⟩
  | call call _ hcall ih => exact sound_run hcall ih

/-- Keys that are still good are found. -/
theorem cachedJson_live {cache : Cache} {entry : CacheEntry} {now : DateTime} (hentry : cache.entry = some entry)
    (hlive : now < entry.expiresAt) (loaded : Option Dict) (ttl : Int) :
    cachedJson cache now loaded ttl = (.ok entry.value, cache, false) := by
  have hfilter : cache.entry.filter (fun entry => now < entry.expiresAt) = some entry := by
    rw [hentry, Option.filter_some, if_pos (decide_eq_true hlive)]
  unfold cachedJson
  rw [hfilter]

/-- Inside the negative window nothing is requested and the call fails. -/
theorem cachedJson_failed {failedUntil now : DateTime} (h : now < failedUntil) (loaded : Option Dict) (ttl : Int) :
    ∃ e, cachedJson ⟨none, some failedUntil⟩ now loaded ttl = (.error e, ⟨none, some failedUntil⟩, false) := by
  simp [cachedJson, h]

/-- A failed request opens a negative window. -/
theorem cachedJson_none {failedUntil now : DateTime} (h : failedUntil ≤ now) (ttl : Int) :
    ∃ e, cachedJson ⟨none, some failedUntil⟩ now none ttl =
      (.error e, ⟨none, some (now + seconds negativeCacheTtlSeconds)⟩, true) := by
  simp [cachedJson, not_lt.2 h]

/-- A request that succeeds is kept for its time to live. -/
theorem cachedJson_some {failedUntil : Option DateTime} {now : DateTime} (h : ∀ t ∈ failedUntil, t ≤ now) (value : Dict)
    (ttl : Int) : cachedJson ⟨none, failedUntil⟩ now (some value) ttl = (.ok value, ⟨some ⟨value, now + seconds ttl⟩, none⟩, true) := by
  have hany : failedUntil.any (fun t => decide (now < t)) = false := by
    cases failedUntil with
    | none => rfl
    | some t => simpa using h t rfl
  simp [cachedJson, hany]

/-- A first request that succeeds is kept for its time to live. -/
theorem cachedJson_fetched (now : DateTime) (value : Dict) (ttl : Int) :
    cachedJson ⟨none, none⟩ now (some value) ttl = (.ok value, ⟨some ⟨value, now + seconds ttl⟩, none⟩, true) :=
  cachedJson_some (fun _ h => absurd h (Option.not_mem_none _)) value ttl

theorem expects {nonce hash : Option PyText} (h : nonce.isSome ∨ hash.isSome) : (nonce.isNone && hash.isNone) = false := by
  cases nonce <;> cases hash <;> simp at h ⊢

/-- A call for a configured provider decodes the token and then checks its claims. -/
theorem run_eq {call : Call} {provider : OidcProviderSettings} (hprovider : settings.getProvider call.providerId = some provider)
    (hexpects : call.expectedNonce.isSome ∨ call.expectedNonceHash.isSome) (client : Client) :
    call.run L settings client = ((tokenClaims L call.outside provider call.idToken client).1.bind fun claims =>
      verifyClaims L settings provider claims call.expectedNonce call.expectedNonceHash call.requireAuthTime
        (call.outside.now .claims), (tokenClaims L call.outside provider call.idToken client).2) := by
  rw [Call.run, validateIdToken, expects hexpects, if_neg Bool.false_ne_true, hprovider]

/-- A token that fails with the kept keys is decided by the refreshed ones. -/
theorem claims_of_refresh {outside : Outside} {provider : OidcProviderSettings} {idToken : PyText} {metadata keys : Dict}
    {client client1 client2 : Client} {requests : List DateTime}
    (hdiscovery : discovery L outside provider client = (.ok metadata, client1))
    (hjwks : jwks outside provider metadata client1 = (.ok keys, client2, requests))
    (hdecode : decodeIdToken L idToken keys metadata = none)
    (hshould : shouldRefreshJwks L outside client2 provider.providerId idToken keys = .ok true) :
    (tokenClaims L outside provider idToken client).2.1 = (refreshJwks outside provider metadata client2).2.1 := by
  rw [tokenClaims, hdiscovery]
  dsimp only
  rw [hjwks]
  dsimp only
  rw [hdecode, hshould]
  dsimp only
  rcases refreshJwks outside provider metadata client2 with ⟨keys', client3, requests'⟩
  cases keys' with
  | error e => rfl
  | ok keys' =>
    dsimp only
    split <;> rfl

/-- What the client remembers after a refresh of good keys failed. -/
theorem client_after_failure {t t' t'' : DateTime} {client : Client} {provider : OidcProviderSettings} {entry : CacheEntry}
    {failing next : Call} {metadata : Dict} {uri : PyText}
    (h : Outage L settings t t' t'' client provider entry failing next metadata uri) :
    (failing.run L settings client).2.1.jwks provider.providerId =
      ⟨none, some (failing.outside.now .reload + seconds negativeCacheTtlSeconds)⟩ ∧
    (failing.run L settings client).2.1.jwksRefreshAt provider.providerId = some (failing.outside.now .refresh) := by
  have hf := h.failing_ordered
  have hlive : failing.outside.now .jwks < entry.expiresAt := by
    refine lt_of_le_of_lt ?_ h.unexpired
    exact hf.cooldown.trans (hf.refresh.trans (hf.reload.trans (hf.claims.trans (hf.le_last.trans
      (h.next_ordered.first_le.trans h.next_ordered.jwks)))))
  have hsound := sound_of_reachable h.reachable provider.providerId
  -- while the keys are good no failure is remembered
  have hfailed : ∀ failedUntil ∈ (client.jwks provider.providerId).failedUntil, failedUntil ≤ failing.outside.now .reload := by
    intro failedUntil hmem
    have hexpired : entry.expiresAt ≤ t :=
      le_of_add_le_add_right ((hsound.stale entry failedUntil h.kept hmem).trans (hsound.recent failedUntil hmem))
    exact absurd (hexpired.trans (hf.first_le.trans hf.jwks)) (not_le.2 hlive)
  obtain ⟨metadata1, keys, e, client1, client2, requests, hdiscovery, hjwks, hdecode, hshould, hrefresh⟩ := h.refresh_fails
  have hclient1 : client1.jwks = client.jwks ∧ client1.jwksRefreshAt = client.jwksRefreshAt := by
    have hsnd := congrArg Prod.snd hdiscovery
    exact ⟨(congrArg Client.jwks hsnd).symm, (congrArg Client.jwksRefreshAt hsnd).symm⟩
  cases huri : requiredMetadataStr metadata1 "jwks_uri" with
  | error e' =>
    rw [jwks, huri] at hjwks
    cases hjwks
  | ok uri1 =>
    have hlookup := cachedJson_live h.kept hlive (failing.outside.getJson .jwks uri1) jwksCacheTtlSeconds
    rw [← hclient1.1] at hlookup
    have hclient2 : client2.jwks provider.providerId = client.jwks provider.providerId := by
      have hsnd := (jwks_eq huri hlookup).symm.trans hjwks
      rw [← congrArg (fun result => result.2.1.jwks provider.providerId) hsnd]
      exact (Function.update_self _ _ _).trans (congrFun hclient1.1 _)
    -- the forced refresh makes a request, which raises
    have hreload : failing.outside.getJson .reload uri1 = none := by
      cases hget : failing.outside.getJson .reload uri1 with
      | none => rfl
      | some value =>
        have hok := cachedJson_some hfailed value jwksCacheTtlSeconds
        rw [← hget] at hok
        rw [refreshJwks_eq huri hclient2 hok] at hrefresh
        cases hrefresh
    have hrequest : cachedJson { client.jwks provider.providerId with entry := none } (failing.outside.now .reload)
        (failing.outside.getJson .reload uri1) jwksCacheTtlSeconds =
        (.error (.providerUnavailable "OIDC provider metadata is unavailable"),
          ⟨none, some (failing.outside.now .reload + seconds negativeCacheTtlSeconds)⟩, true) := by
      have hany : (client.jwks provider.providerId).failedUntil.any (fun t => decide (failing.outside.now .reload < t)) = false := by
        cases hsome : (client.jwks provider.providerId).failedUntil with
        | none => rfl
        | some t => simpa using hfailed t hsome
      rw [hreload]
      simp [cachedJson, hany]
    rw [run_eq h.configured h.failing_expects]
    dsimp only
    rw [claims_of_refresh hdiscovery hjwks hdecode hshould, refreshJwks_eq huri hclient2 hrequest]
    exact ⟨Function.update_self _ _ _, Function.update_self _ _ _⟩

/-- A bind succeeds only when both of its parts do. -/
theorem bind_ok {E A B : Type} {x : Except E A} {f : A → Except E B} {b : B} (h : x.bind f = .ok b) :
    ∃ a, x = .ok a ∧ f a = .ok b := by
  cases x with
  | error e => cases h
  | ok a => exact ⟨a, rfl, h⟩

variable (L) in
/-- A token with a key id that is not among the keys forces a refresh when the last one is a minute old. -/
theorem shouldRefresh_iff {outside : Outside} {client : Client} {providerId : Text} (idToken : PyText) (keys : Dict) {t : DateTime}
    (hrefreshed : client.jwksRefreshAt providerId = some t) (hcooldown : seconds jwksRefreshCooldownSeconds ≤ outside.now .cooldown - t) :
    shouldRefreshJwks L outside client providerId idToken keys = .ok true ↔
      ∃ kid, jwtKid L idToken = .ok (some kid) ∧ jwksHasKid keys kid = false := by
  unfold shouldRefreshJwks
  rcases jwtKid L idToken with e | _ | kid
  · constructor
    · intro h
      cases h
    · rintro ⟨_, h, _⟩
      cases h
  · constructor
    · intro h
      cases h
    · rintro ⟨_, h, _⟩
      cases h
  · cases hhas : jwksHasKid keys kid with
    | true =>
      constructor
      · intro h
        simp [Except.map, hhas] at h
      · rintro ⟨kid', h, hhas'⟩
        cases h
        rw [hhas] at hhas'
        cases hhas'
    | false =>
      constructor
      · intro _
        exact ⟨kid, rfl, hhas⟩
      · intro _
        simp [Except.map, hhas, hrefreshed, hcooldown]

/-- The claims that a call finds with keys that it has just fetched. -/
theorem claims_of_keys {outside : Outside} {provider : OidcProviderSettings} {idToken : PyText} {metadata keys : Dict}
    {uri : PyText} {client client1 client2 : Client} {fetched : List DateTime}
    (hdiscovery : discovery L outside provider client = (.ok metadata, client1))
    (huri : requiredMetadataStr metadata "jwks_uri" = .ok uri)
    (hjwks : jwks outside provider metadata client1 = (.ok keys, client2, fetched))
    (hnone : (client2.jwks provider.providerId).failedUntil = none)
    (hrefresh : shouldRefreshJwks L outside client2 provider.providerId idToken keys = .ok true ↔
      ∃ kid, jwtKid L idToken = .ok (some kid) ∧ jwksHasKid keys kid = false) (claims : Dict) :
    (tokenClaims L outside provider idToken client).1 = .ok claims ↔
      decodeIdToken L idToken keys metadata = some claims ∨
        decodeIdToken L idToken keys metadata = none ∧
        (∃ kid, jwtKid L idToken = .ok (some kid) ∧ jwksHasKid keys kid = false) ∧
        ∃ keys', outside.getJson .reload uri = some keys' ∧ decodeIdToken L idToken keys' metadata = some claims := by
  have hdropped : { client2.jwks provider.providerId with entry := none } = (⟨none, none⟩ : Cache) :=
    congrArg (Cache.mk none) hnone
  rw [tokenClaims, hdiscovery]
  dsimp only
  rw [hjwks, ← hrefresh]
  dsimp only
  cases hdecode : decodeIdToken L idToken keys metadata with
  | some claims' => simp
  | none =>
    dsimp only
    rcases hshould : shouldRefreshJwks L outside client2 provider.providerId idToken keys with e | _ | _
    · simp
    · simp
    · cases hreload : outside.getJson .reload uri with
      | none =>
        have hlookup : cachedJson ⟨none, none⟩ (outside.now .reload) none jwksCacheTtlSeconds =
            (.error (.providerUnavailable "OIDC provider metadata is unavailable"),
              ⟨none, some (outside.now .reload + seconds negativeCacheTtlSeconds)⟩, true) := rfl
        rw [← hreload, ← hdropped] at hlookup
        rw [refreshJwks_eq huri rfl hlookup]
        simp
      | some keys' =>
        have hlookup := cachedJson_fetched (outside.now .reload) keys' jwksCacheTtlSeconds
        rw [← hreload, ← hdropped] at hlookup
        rw [refreshJwks_eq huri rfl hlookup]
        dsimp only
        cases hdecode' : decodeIdToken L idToken keys' metadata with
        | none => simp [hdecode']
        | some claims' => simp [hdecode']

/-- The claims that a call finds when no keys are kept and a failure is remembered. -/
theorem claims_after_failure {outside : Outside} {provider : OidcProviderSettings} (idToken : PyText) {metadata : Dict}
    {uri : PyText} {client client1 : Client} {failedUntil refreshedAt : DateTime}
    (hcache : client.jwks provider.providerId = ⟨none, some failedUntil⟩)
    (hrefreshed : client.jwksRefreshAt provider.providerId = some refreshedAt)
    (hcooldown : failedUntil ≤ outside.now .jwks → seconds jwksRefreshCooldownSeconds ≤ outside.now .cooldown - refreshedAt)
    (hdiscovery : discovery L outside provider client = (.ok metadata, client1))
    (huri : requiredMetadataStr metadata "jwks_uri" = .ok uri) (claims : Dict) :
    (tokenClaims L outside provider idToken client).1 = .ok claims ↔
      failedUntil ≤ outside.now .jwks ∧ ∃ keys, outside.getJson .jwks uri = some keys ∧
        (decodeIdToken L idToken keys metadata = some claims ∨
          decodeIdToken L idToken keys metadata = none ∧
          (∃ kid, jwtKid L idToken = .ok (some kid) ∧ jwksHasKid keys kid = false) ∧
          ∃ keys', outside.getJson .reload uri = some keys' ∧ decodeIdToken L idToken keys' metadata = some claims) := by
  have hsnd := congrArg Prod.snd hdiscovery
  have hcache1 : client1.jwks provider.providerId = ⟨none, some failedUntil⟩ := by
    rw [← congrArg Client.jwks hsnd]
    exact hcache
  have hrefreshed1 : client1.jwksRefreshAt provider.providerId = some refreshedAt := by
    rw [← congrArg Client.jwksRefreshAt hsnd]
    exact hrefreshed
  by_cases hover : failedUntil ≤ outside.now .jwks
  · cases hget : outside.getJson .jwks uri with
    | none =>
      obtain ⟨e, hlookup⟩ := cachedJson_none hover jwksCacheTtlSeconds
      rw [← hcache1, ← hget] at hlookup
      rw [tokenClaims, hdiscovery]
      dsimp only
      rw [jwks_eq huri hlookup]
      simp
    | some keys =>
      have hlookup := cachedJson_some (fun t ht => le_of_eq_of_le (Option.some.inj ht).symm hover) keys jwksCacheTtlSeconds
      rw [← hcache1, ← hget] at hlookup
      have hjwks := jwks_eq huri hlookup
      have hrefresh := shouldRefresh_iff L idToken keys hrefreshed1 (hcooldown hover)
      have hkept : Function.update client1.jwks provider.providerId
          ⟨some ⟨keys, outside.now .jwks + seconds jwksCacheTtlSeconds⟩, none⟩ provider.providerId =
          ⟨some ⟨keys, outside.now .jwks + seconds jwksCacheTtlSeconds⟩, none⟩ := Function.update_self _ _ _
      rw [claims_of_keys hdiscovery huri hjwks (congrArg Cache.failedUntil hkept) hrefresh]
      simp [hover]
  · obtain ⟨e, hlookup⟩ := cachedJson_failed (not_le.1 hover) (outside.getJson .jwks uri) jwksCacheTtlSeconds
    rw [← hcache1] at hlookup
    rw [tokenClaims, hdiscovery]
    dsimp only
    rw [jwks_eq huri hlookup]
    simp [hover]

/-- Of times with a minute between any two, at most one lies in a minute. -/
theorem apart_window {times : List DateTime} (h : Apart times) (s : DateTime) :
    (times.filter fun t => s ≤ t ∧ t < s + seconds negativeCacheTtlSeconds).length ≤ 1 := by
  have hfilter := List.Pairwise.filter (fun t => decide (s ≤ t ∧ t < s + seconds negativeCacheTtlSeconds)) h
  have hwindow : ∀ t ∈ times.filter (fun t => decide (s ≤ t ∧ t < s + seconds negativeCacheTtlSeconds)),
      s ≤ t ∧ t < s + seconds negativeCacheTtlSeconds := fun t ht => of_decide_eq_true (List.mem_filter.1 ht).2
  rcases heq : times.filter (fun t => decide (s ≤ t ∧ t < s + seconds negativeCacheTtlSeconds)) with _ | ⟨t, _ | ⟨t', rest⟩⟩
  · exact Nat.zero_le _
  · exact le_refl _
  · rw [heq] at hfilter hwindow
    have hgap := (List.pairwise_cons.1 hfilter).1 t' List.mem_cons_self
    have hfirst := (hwindow t List.mem_cons_self).1
    have hlast := (hwindow t' (List.mem_cons_of_mem _ List.mem_cons_self)).2
    exact absurd ((Int.add_le_add_right hfirst _).trans hgap) (not_le.2 hlast)

/-! ## A provider whose keys change -/

def sampleProvider : OidcProviderSettings :=
  ⟨"op".toList, "OP".toList, "https://op".toList, "client".toList, true, .enabled, .auto⟩

def sampleSettings : OidcSettings := ⟨[sampleProvider], 300, 600, 60⟩

def str (s : String) : Json := .str (points s.toList)

def sampleMetadata : Dict :=
  [(points "issuer".toList, str "https://op"), (points "jwks_uri".toList, str "https://op/keys"),
    (points "id_token_signing_alg_values_supported".toList, .arr [str "RS256"])]

/-- A document with one key. -/
def keySet (kid : String) : Dict := [(points "keys".toList, .arr [.obj [(points "kid".toList, str kid)]])]

def tokenNew : PyText := points "eyJraWQiOiJuZXcifQ.e30.c2ln".toList

def tokenOld : PyText := points "eyJraWQiOiJvbGQifQ.e30.c2ln".toList

def sampleClaims : Dict :=
  [(points "iss".toList, str "https://op"), (points "aud".toList, str "client"), (points "sub".toList, str "subject"),
    (points "nonce".toList, str "nonce"), (points "exp".toList, .int 1900000000), (points "iat".toList, .int 1600000000)]

/-- Libraries that know two tokens, one with the key id `new` in its header and one with the key id `old`. -/
def sampleLibraries : Libraries where
  metadataValid _ := true
  decode idToken keys _ :=
    if idToken = tokenNew ∧ jwksHasKid keys (points "new".toList) ∨ idToken = tokenOld ∧ jwksHasKid keys (points "old".toList) then
      some sampleClaims
    else none
  base64Json segment :=
    if segment = points "eyJraWQiOiJuZXcifQ==".toList then some (.obj [(points "kid".toList, str "new")])
    else if segment = points "eyJraWQiOiJvbGQifQ==".toList then some (.obj [(points "kid".toList, str "old")])
    else none
  strip s := s
  lower s := s
  hashToken s := s

/-- The discovery document is always there, the keys as given. -/
def outsideAt (now : DateTime) (keys reloaded : Option Dict) : Outside where
  now _ := now
  getJson fetch _ := match fetch with
    | .discovery => some sampleMetadata
    | .jwks => keys
    | .reload => reloaded

def sampleCall (now : DateTime) (idToken : PyText) (keys reloaded : Option Dict) : Call :=
  ⟨"op".toList, idToken, some (points "nonce".toList), none, false, outsideAt now keys reloaded⟩

/-- The sample call reads its clocks in order. -/
theorem sampleCall_ordered {now first last : DateTime} (hfirst : first ≤ now) (hlast : now ≤ last) (idToken : PyText)
    (keys reloaded : Option Dict) : (sampleCall now idToken keys reloaded).Ordered first last :=
  ⟨hfirst, le_refl _, le_refl _, le_refl _, le_refl _, le_refl _, hlast⟩

/-- A client that has fetched the key `old`. -/
def sampleClient : Client :=
  ((sampleCall (seconds 1700000000) tokenOld (some (keySet "old")) none).run sampleLibraries sampleSettings Client.new).2.1

def sampleEntry : CacheEntry := ⟨keySet "old", seconds 1700003600⟩

/-- Ten seconds later a token has the key id `new`, and the provider does not answer. -/
def failingCall : Call := sampleCall (seconds 1700000010) tokenNew none none

/-- After the failed refresh every token over the old key meets an outage until the kept keys expire. -/
theorem sample_outage (now : DateTime) (keys : Option Dict) (hafter : seconds 1700000010 ≤ now) (hbefore : now < seconds 1700003600)
    (hdiscovered : (discovery sampleLibraries (outsideAt now keys none) sampleProvider
      (failingCall.run sampleLibraries sampleSettings sampleClient).2.1).1 = .ok sampleMetadata)
    (hvalid : ∃ v, verifyClaims sampleLibraries sampleSettings sampleProvider sampleClaims (some (points "nonce".toList)) none false
      now = .ok v) :
    Outage sampleLibraries sampleSettings (seconds 1700000000) (seconds 1700000010) now sampleClient sampleProvider sampleEntry
      failingCall (sampleCall now tokenOld keys none) sampleMetadata (points "https://op/keys".toList) where
  reachable := Reachable.call _ (Reachable.new (seconds 1700000000)) (sampleCall_ordered (le_refl _) (le_refl _) _ _ _)
  configured := rfl
  kept := rfl
  failing_ordered := sampleCall_ordered (by decide) (le_refl _) _ _ _
  failing_expects := Or.inl rfl
  refresh_fails := ⟨_, _, _, _, _, _, rfl, rfl, rfl, rfl, rfl⟩
  same_provider := rfl
  next_ordered := sampleCall_ordered hafter (le_refl _) _ _ _
  next_expects := Or.inl rfl
  unexpired := hbefore
  discovered := hdiscovered
  has_uri := rfl
  valid := by
    obtain ⟨v, hv⟩ := hvalid
    exact ⟨sampleClaims, v, rfl, hv⟩

end KeyFetchingAux

open KeyFetchingAux

/-- However the tokens, the answers and the times, the keys of a provider are requested at most twice in any minute. -/
theorem key_requests_bounded (L : Libraries) (settings : OidcSettings) (calls : List Call)
    (honce : ∀ call ∈ calls, ∀ reading, call.outside.now reading = call.outside.now .discovery)
    (horder : calls.Pairwise fun a b => a.outside.now .discovery ≤ b.outside.now .discovery) (p : Text) (s : DateTime) :
    ((requests L settings calls Client.new).filter fun request =>
      request.1 = p ∧ s ≤ request.2 ∧ request.2 < s + seconds 60).length ≤ 2 := by
  have hfirst : ∃ now, ∀ call ∈ calls, now ≤ call.outside.now .discovery := by
    cases calls with
    | nil => exact ⟨0, nofun⟩
    | cons call calls =>
      refine ⟨call.outside.now .discovery, fun call' hcall' => ?_⟩
      rcases List.mem_cons.1 hcall' with rfl | hcall'
      · exact le_refl _
      · exact (List.pairwise_cons.1 horder).1 call' hcall'
  obtain ⟨now, hnow⟩ := hfirst
  obtain ⟨lookups, refreshes, hperm, hlookups, hrefreshes⟩ := history_run L settings honce horder hnow
    (history_new p now)
  have hlength : ((requests L settings calls Client.new).filter fun request =>
      request.1 = p ∧ s ≤ request.2 ∧ request.2 < s + seconds 60).length =
      ((timesOf p (requests L settings calls Client.new)).filter fun t => s ≤ t ∧ t < s + seconds 60).length := by
    rw [timesOf, List.filter_map, List.length_map, List.filter_filter]
    refine congrArg List.length (List.filter_congr fun request _ => ?_)
    simp [Bool.and_comm]
  rw [hlength, (hperm.filter _).length_eq, List.filter_append, List.length_append]
  exact Nat.add_le_add (apart_window hlookups s) (apart_window hrefreshes s)

/-- A token with an unknown key id makes both requests at once, and the next one none. -/
theorem key_requests_bounded_twice :
    let calls := [sampleCall (seconds 1700000000) tokenNew (some (keySet "old")) (some (keySet "old")),
      sampleCall (seconds 1700000001) tokenNew (some (keySet "new")) (some (keySet "new"))]
    requests sampleLibraries sampleSettings calls Client.new =
      [("op".toList, seconds 1700000000), ("op".toList, seconds 1700000000)] ∧
    ((requests sampleLibraries sampleSettings calls Client.new).filter fun request =>
      request.1 = "op".toList ∧ seconds 1700000000 ≤ request.2 ∧ request.2 < seconds 1700000000 + seconds 60).length ≤ 2 := by
  refine ⟨by decide, key_requests_bounded sampleLibraries sampleSettings _ ?_ ?_ "op".toList (seconds 1700000000)⟩
  · intro call hcall reading
    simp only [List.mem_cons, List.not_mem_nil, or_false] at hcall
    rcases hcall with rfl | rfl
    · rfl
    · rfl
  · refine List.Pairwise.cons ?_ (List.pairwise_singleton _ _)
    intro call hcall
    rw [List.mem_singleton.1 hcall]
    decide

/-- After a refresh of good keys failed, a token of theirs is accepted if and only if it comes a minute later and keys that accept
it are fetched anew. -/
theorem accepted_after_failed_refresh_iff (L : Libraries) (settings : OidcSettings) (t t' t'' : DateTime) (client : Client)
    (provider : OidcProviderSettings) (entry : CacheEntry) (failing next : Call) (metadata : Dict) (uri : PyText)
    (h : Outage L settings t t' t'' client provider entry failing next metadata uri) :
    (∃ v, (next.run L settings (failing.run L settings client).2.1).1 = .ok v) ↔
      failing.outside.now .reload + seconds 60 ≤ next.outside.now .jwks ∧ Refetches L settings provider next metadata uri := by
  obtain ⟨hcache, hrefreshed⟩ := client_after_failure h
  have hcooldown : failing.outside.now .reload + seconds negativeCacheTtlSeconds ≤ next.outside.now .jwks →
      seconds jwksRefreshCooldownSeconds ≤ next.outside.now .cooldown - failing.outside.now .refresh := by
    intro hlate
    have hbefore : failing.outside.now .refresh + seconds negativeCacheTtlSeconds ≤ next.outside.now .cooldown :=
      (Int.add_le_add_right h.failing_ordered.reload _).trans (hlate.trans h.next_ordered.cooldown)
    exact le_sub_iff_add_le'.2 hbefore
  have hdiscovery : discovery L next.outside provider (failing.run L settings client).2.1 =
      (.ok metadata, (discovery L next.outside provider (failing.run L settings client).2.1).2) := Prod.ext h.discovered rfl
  have hclaims := claims_after_failure next.idToken hcache hrefreshed hcooldown hdiscovery h.has_uri
  have hprovider : settings.getProvider next.providerId = some provider := by
    rw [h.same_provider]
    exact h.configured
  rw [run_eq hprovider h.next_expects]
  constructor
  · rintro ⟨v, hv⟩
    obtain ⟨claims, hfound, hverified⟩ := bind_ok hv
    obtain ⟨hlate, keys, hget, haccepts⟩ := (hclaims claims).1 hfound
    exact ⟨hlate, keys, claims, v, hget, haccepts, hverified⟩
  · rintro ⟨hlate, keys, claims, v, hget, haccepts, hverified⟩
    refine ⟨v, ?_⟩
    dsimp only
    rw [(hclaims claims).2 ⟨hlate, keys, hget, haccepts⟩]
    exact hverified

/-- A minute later the keys are fetched again. -/
theorem accepted_after_failed_refresh_later :
    ∃ v, ((sampleCall (seconds 1700000070) tokenOld (some (keySet "old")) none).run sampleLibraries sampleSettings
      (failingCall.run sampleLibraries sampleSettings sampleClient).2.1).1 = .ok v := by
  refine (accepted_after_failed_refresh_iff _ _ _ _ _ _ _ _ _ _ _ _
    (sample_outage _ _ (by decide) (by decide) rfl ⟨_, rfl⟩)).2 ⟨by decide, ?_⟩
  exact ⟨keySet "old", sampleClaims, _, rfl, Or.inl rfl, rfl⟩

/-- After a failed refresh the keys are gone: a second later a token of theirs is rejected. -/
theorem accepted_after_failed_refresh_false :
    ¬ ∀ (L : Libraries) (settings : OidcSettings) (t t' t'' : DateTime) (client : Client) (provider : OidcProviderSettings)
      (entry : CacheEntry) (failing next : Call) (metadata : Dict) (uri : PyText),
      Outage L settings t t' t'' client provider entry failing next metadata uri →
        ∃ v, (next.run L settings (failing.run L settings client).2.1).1 = .ok v := by
  intro h
  obtain ⟨v, hv⟩ := h _ _ _ _ _ _ _ _ _ _ _ _
    (sample_outage (seconds 1700000011) none (by decide) (by decide) rfl ⟨_, rfl⟩)
  have hrejected : ((sampleCall (seconds 1700000011) tokenOld none none).run sampleLibraries sampleSettings
      (failingCall.run sampleLibraries sampleSettings sampleClient).2.1).1 =
      .error (.providerUnavailable "OIDC provider metadata is temporarily unavailable") := rfl
  cases hrejected.symm.trans hv

end AuthService.ProviderClient
