import AuthService.OidcSettings

/-!
# Providers are configured in isolation

No variable is read for two enabled providers, or for a provider and a global setting. What is read for one provider therefore
leaves the settings of the others and the global settings as they are.
-/

namespace AuthService.Config

variable (M : StrMethods)

/-- The variables of the global settings that are read after the providers. -/
def globalVariables : List Text :=
  ["AUTH_OIDC_REDIRECT_BASE_URL".toList, "AUTH_OIDC_REAUTH_FRESHNESS_SECONDS".toList,
    "AUTH_OIDC_AUTHORIZATION_STARTS_PER_IP".toList, "AUTH_OIDC_STATE_TTL_SECONDS".toList]

/-- The fields of a provider. -/
def providerFields : List String :=
  ["CALLBACK_PATH", "DISPLAY_NAME", "ISSUER", "CLIENT_ID", "CLIENT_SECRET", "SCOPE", "TRUST_VERIFIED_EMAIL",
    "AUTO_PROVISION", "LINK_MODE", "CLAIMS_ALLOWLIST"]

/-- Nothing is read for a provider and for another, or for a provider and a global setting. Environments that differ only in
what is read for the provider give the other providers and the global settings the same values. -/
structure Isolated (env : Environ) (settings : OidcSettings) (p : Text) : Prop where
  notGlobal : ∀ name ∈ (readProvider M p).reads env, name ≠ enabledProviders ∧ name ∉ globalVariables
  notOther : ∀ q ∈ settings.providers, q.providerId ≠ p → ∀ name ∈ (readProvider M p).reads env,
    name ∉ (readProvider M q.providerId).reads env
  unchanged : ∀ env' settings', (∀ name, name ∉ (readProvider M p).reads env → env' name = env name) →
    (getOidcSettings M).result env' = .ok settings' →
      settings' = { settings with providers := settings'.providers } ∧
        ∀ q, q ≠ p → settings'.getProvider q = settings.getProvider q

namespace IsolationAux

variable {M} {env env' : Environ} {p q : Text}

/-! ## Names -/

/-- The variables of a provider. -/
def IsVariable (M : StrMethods) (p name : Text) : Prop := ∃ field ∈ providerFields, name = providerVariable M p field

/-- No field ends with an underscore and another field. -/
theorem fields_suffix_free : ∀ f ∈ providerFields, ∀ g ∈ providerFields, '_' :: g.toList <:+ '_' :: f.toList → f = g := by
  decide +kernel

/-- A variable's name determines the suffix of its provider. -/
theorem suffix_eq {s t : Text} {f g : String} (hf : f ∈ providerFields) (hg : g ∈ providerFields)
    (h : s ++ '_' :: f.toList = t ++ '_' :: g.toList) : s = t := by
  rcases List.append_eq_append_iff.1 h with ⟨a, ht, hend⟩ | ⟨a, hs, hend⟩
  · have hfg := fields_suffix_free f hf g hg ⟨a, hend.symm⟩
    subst hfg
    have ha : a = [] := List.self_eq_append_left.1 hend
    rw [ht, ha, List.append_nil]
  · have hfg := fields_suffix_free g hg f hf ⟨a, hend.symm⟩
    subst hfg
    have ha : a = [] := List.self_eq_append_left.1 hend
    rw [hs, ha, List.append_nil]

/-- A variable of two providers gives them one suffix. -/
theorem suffix_eq_of_variable {name : Text} (hp : IsVariable M p name) (hq : IsVariable M q name) :
    providerEnvSuffix M p = providerEnvSuffix M q := by
  obtain ⟨f, hf, rfl⟩ := hp
  obtain ⟨g, hg, h⟩ := hq
  rw [providerVariable, providerVariable, List.append_assoc, List.append_assoc] at h
  exact suffix_eq hf hg (List.append_cancel_left h)

/-- A global variable belongs to no provider. -/
theorem not_variable_of_global {name : Text} (h : name = enabledProviders ∨ name ∈ globalVariables) : ¬IsVariable M p name := by
  rintro ⟨f, -, rfl⟩
  have hpre : providerVariables <+: providerVariable M p f := by
    rw [providerVariable, List.append_assoc]
    exact List.prefix_append _ _
  have hglobals : ∀ name ∈ enabledProviders :: globalVariables, ¬providerVariables <+: name := by decide +kernel
  exact hglobals _ (List.mem_cons.2 h) hpre

/-! ## What is read -/

theorem emits_check {α : Type} {may : Text → Prop} (r : Except Message α) : (check r).Emits may := by
  cases r <;> trivial

/-- A required field reads its own variable only. -/
theorem emits_required {may : Text → Prop} {key : Text} (h : may key) : (required M key).Emits may := by
  refine Prog.Emits.bind (Prog.emits_perform.2 h) fun value => ?_
  cases value with
  | none => exact emits_check _
  | some value =>
    dsimp only
    split
    · exact emits_check _
    · trivial

/-- Validation keeps the provider's id. -/
theorem validate_providerId {s t : OidcProviderSettings} (h : s.validate M = .ok t) : t.providerId = s.providerId := by
  unfold OidcProviderSettings.validate at h
  split at h
  · rename_i hid _ _ _ _ _
    obtain rfl := Except.ok.inj h
    unfold validateProviderId at hid
    split at hid
    · exact (Except.ok.inj hid).symm
    · cases hid
  · cases h

/-- Settings with the id of a provider. -/
def Named (p : Text) (r : Except ConfigError OidcProviderSettings) : Prop := ∀ s, r = .ok s → s.providerId = p

/-- What is read for a provider are its variables, and they give it settings with its id. -/
theorem always_readProvider : (readProvider M p).Always (fun _ _ => True) (IsVariable M p) (Named p) := by
  have hkey : ∀ field ∈ providerFields, IsVariable M p (providerVariable M p field) := fun field h => ⟨field, h, rfl⟩
  have hget : ∀ field ∈ providerFields, (get (providerVariable M p field)).Emits (IsVariable M p) := fun field h =>
    Prog.emits_perform.2 (hkey field h)
  have herr : ∀ e, Named p (.error e) := nofun
  rw [readProvider]
  split
  · exact nofun
  · refine Prog.Emits.then (hget _ (by decide)) (fun callbackPath => ?_) herr
    refine Prog.Emits.then (emits_required (hkey _ (by decide))) (fun displayName => ?_) herr
    refine Prog.Emits.then (emits_required (hkey _ (by decide))) (fun issuer => ?_) herr
    refine Prog.Emits.then (emits_required (hkey _ (by decide))) (fun clientId => ?_) herr
    refine Prog.Emits.then (emits_required (hkey _ (by decide))) (fun clientSecret => ?_) herr
    refine Prog.Emits.then (hget _ (by decide)) (fun scope => ?_) herr
    refine Prog.Emits.then (hget _ (by decide)) (fun trustVerifiedEmail => ?_) herr
    refine Prog.Emits.then (emits_check _) (fun trustVerifiedEmail => ?_) herr
    refine Prog.Emits.then (hget _ (by decide)) (fun autoProvision => ?_) herr
    refine Prog.Emits.then (emits_check _) (fun autoProvision => ?_) herr
    refine Prog.Emits.then (hget _ (by decide)) (fun linkMode => ?_) herr
    refine Prog.Emits.then (emits_check _) (fun linkMode => ?_) herr
    exact Prog.Emits.then (hget _ (by decide)) (fun claimsAllowlist s hs => validate_providerId hs) herr

/-- Reading a provider reads that provider's variables only. -/
theorem variable_of_reads {name : Text} (h : name ∈ (readProvider M p).reads env) : IsVariable M p name :=
  Prog.Emits.of_mem_reads (Prog.Always.mono always_readProvider (fun _ h => h) fun _ _ => trivial) name h

/-! ## Runs that succeed -/

/-- A check succeeds with the value it was given. -/
theorem result_check {α : Type} {r : Except Message α} {a : α} (h : (check r).result env = .ok a) : r = .ok a := by
  cases r with
  | ok b => exact congrArg Except.ok (Except.ok.inj h)
  | error message => cases h

theorem reads_check {α : Type} (r : Except Message α) : (check r).reads env = [] := by
  cases r <;> rfl

/-- An integer setting reads its own variable once. -/
theorem reads_readInt {key : Text} {default : Int} : (readInt M key default).reads env = [key] := by
  show key :: _ = _
  cases env key with
  | none => rfl
  | some raw =>
    refine congrArg (key :: ·) ?_
    show Prog.reads env (if raw = [] then _ else _) = []
    split
    · rfl
    · cases M.int raw with
      | none => rfl
      | some value => rfl

/-- Values without duplicates are told apart by what is checked to be unique. -/
theorem nodup_of_validateUnique {label : Text} {seen values : List Text} (h : validateUnique label seen values = .ok ()) :
    values.Nodup ∧ ∀ value ∈ values, value ∉ seen := by
  induction values generalizing seen with
  | nil => exact ⟨List.nodup_nil, nofun⟩
  | cons value values ih =>
    rw [validateUnique] at h
    split at h
    · cases h
    · rename_i hnew
      obtain ⟨hnodup, hseen⟩ := ih h
      refine ⟨List.nodup_cons.2 ⟨fun hmem => hseen value hmem (List.mem_cons_self ..), hnodup⟩, fun v hv => ?_⟩
      rcases List.mem_cons.1 hv with rfl | hv
      · exact hnew
      · exact fun hold => hseen v hv (List.mem_cons_of_mem _ hold)

/-- Reading the providers reads each of them, in order. -/
theorem readProviders_ok {ids : List Text} {ps : List OidcProviderSettings} (h : (readProviders M ids).result env = .ok ps) :
    List.Forall₂ (fun id s => (readProvider M id).result env = .ok s) ids ps ∧
      (readProviders M ids).reads env = ids.flatMap fun id => (readProvider M id).reads env := by
  induction ids generalizing ps with
  | nil =>
    obtain rfl := Except.ok.inj h
    exact ⟨.nil, rfl⟩
  | cons id ids ih =>
    obtain ⟨s, hs, h, hreads⟩ := Prog.result_bind_ok h
    obtain ⟨rest, hrest, h, hreads'⟩ := Prog.result_bind_ok h
    obtain rfl := Except.ok.inj h
    obtain ⟨hall, hflat⟩ := ih hrest
    refine ⟨.cons hs hall, ?_⟩
    rw [readProviders, hreads, hreads', hflat]
    exact congrArg _ (List.append_nil _)

/-- The provider read for an id has that id. -/
theorem providerId_of_result {s : OidcProviderSettings} (h : (readProvider M p).result env = .ok s) : s.providerId = p :=
  Prog.Always.result always_readProvider s h

/-- The providers read have the ids they were read for, in order. -/
theorem map_providerId {ids : List Text} {ps : List OidcProviderSettings}
    (h : List.Forall₂ (fun id s => (readProvider M id).result env = .ok s) ids ps) : ps.map (·.providerId) = ids := by
  induction h with
  | nil => rfl
  | cons hs _ ih => exact congrArg₂ List.cons (providerId_of_result hs) ih

/-- Lists of settings read for the same ids, the same except for one id, give any other id the same settings. -/
theorem find_eq {ids : List Text} {ps ps' : List OidcProviderSettings}
    (h : List.Forall₂ (fun id s => (readProvider M id).result env = .ok s) ids ps)
    (h' : List.Forall₂ (fun id s => (readProvider M id).result env' = .ok s) ids ps')
    (hsame : ∀ id ∈ ids, id ≠ p → (readProvider M id).result env' = (readProvider M id).result env) (hq : q ≠ p) :
    ps'.find? (·.providerId = q) = ps.find? (·.providerId = q) := by
  induction h generalizing ps' with
  | nil =>
    cases h'
    rfl
  | @cons id s ids ps hs _ ih =>
    obtain _ | ⟨hs', h'⟩ := h'
    rename_i s' ps'
    have hrest := ih h' fun id hid => hsame id (List.mem_cons_of_mem _ hid)
    have hid := providerId_of_result hs
    have hid' := providerId_of_result hs'
    by_cases hidq : id = q
    · rw [hsame id (List.mem_cons_self ..) (hidq ▸ hq), hs] at hs'
      obtain rfl := Except.ok.inj hs'
      rw [List.find?_cons, List.find?_cons, hrest]
    · rw [List.find?_cons_of_neg (by simpa [hid'] using hidq), List.find?_cons_of_neg (by simpa [hid] using hidq), hrest]

/-- What the settings are made of. -/
structure ReadFrom (M : StrMethods) (env : Environ) (ids : List Text) (raw settings : OidcSettings) : Prop where
  enabled : ids = splitCsv M ((env enabledProviders).getD [])
  unique : (ids.map (providerEnvSuffix M)).Nodup
  providers : List.Forall₂ (fun id s => (readProvider M id).result env = .ok s) ids raw.providers
  redirectBaseUrl : raw.redirectBaseUrl = emptyToNone (env "AUTH_OIDC_REDIRECT_BASE_URL".toList)
  reauthFreshnessSeconds :
    (readInt M "AUTH_OIDC_REAUTH_FRESHNESS_SECONDS".toList 300).result env = .ok raw.reauthFreshnessSeconds
  authorizationStartsPerIp :
    (readInt M "AUTH_OIDC_AUTHORIZATION_STARTS_PER_IP".toList 20).result env = .ok raw.authorizationStartsPerIp
  stateTtlSeconds : (readInt M "AUTH_OIDC_STATE_TTL_SECONDS".toList 300).result env = .ok raw.stateTtlSeconds
  leeway : raw.authTimeFutureLeewaySeconds = 60
  valid : raw.validate M = .ok settings

/-- Settings that are accepted were read from the variables listed, in that order. -/
theorem readFrom_of_ok {settings : OidcSettings} (h : (getOidcSettings M).result env = .ok settings) :
    ∃ ids raw, ReadFrom M env ids raw settings ∧ (getOidcSettings M).reads env =
      enabledProviders :: (ids.flatMap fun id => (readProvider M id).reads env) ++ globalVariables := by
  obtain ⟨enabled, henabled, h, hr₁⟩ := Prog.result_bind_ok h
  obtain ⟨⟨⟩, -, h, hr₂⟩ := Prog.result_bind_ok h
  obtain ⟨⟨⟩, hunique, h, hr₃⟩ := Prog.result_bind_ok h
  obtain ⟨ps, hps, h, hr₄⟩ := Prog.result_bind_ok h
  obtain ⟨base, hbase, h, hr₅⟩ := Prog.result_bind_ok h
  obtain ⟨a, ha, h, hr₆⟩ := Prog.result_bind_ok h
  obtain ⟨b, hb, h, hr₇⟩ := Prog.result_bind_ok h
  obtain ⟨c, hc, h, hr₈⟩ := Prog.result_bind_ok h
  obtain rfl := Except.ok.inj henabled
  obtain rfl := Except.ok.inj hbase
  obtain ⟨hall, hflat⟩ := readProviders_ok hps
  refine ⟨_, _, ⟨rfl, (nodup_of_validateUnique (result_check hunique)).1, hall, rfl, ha, hb, hc, rfl, h⟩, ?_⟩
  rw [getOidcSettings, hr₁, hr₂, hr₃, hr₄, hr₅, hr₆, hr₇, hr₈, reads_check, reads_check, hflat, reads_readInt, reads_readInt,
    reads_readInt]
  rfl

/-- Validation changes the redirect base URL only, to its checked form. -/
theorem validate_ok {raw settings : OidcSettings} (h : raw.validate M = .ok settings) :
    settings.providers = raw.providers ∧ settings.authTimeFutureLeewaySeconds = raw.authTimeFutureLeewaySeconds ∧
      validateRedirectBaseUrl M raw.redirectBaseUrl = .ok settings.redirectBaseUrl ∧
        settings.reauthFreshnessSeconds = raw.reauthFreshnessSeconds ∧
          settings.authorizationStartsPerIp = raw.authorizationStartsPerIp ∧
            settings.stateTtlSeconds = raw.stateTtlSeconds := by
  have hpositive : ∀ {a b : Int}, validatePositiveInt a = .ok b → b = a := by
    intro a b h
    unfold validatePositiveInt at h
    split at h
    · cases h
    · exact (Except.ok.inj h).symm
  unfold OidcSettings.validate at h
  split at h
  · rename_i hbase ha hb hc
    split at h
    · cases h
    · obtain rfl := Except.ok.inj h
      exact ⟨rfl, rfl, hbase, hpositive ha, hpositive hb, hpositive hc⟩
  · cases h

/-- The global settings are those of what was read outside the providers. -/
theorem globals_eq {raw raw' settings settings' : OidcSettings} (h : raw.validate M = .ok settings)
    (h' : raw'.validate M = .ok settings') (hraw : raw' = { raw with providers := raw'.providers }) :
    settings' = { settings with providers := settings'.providers } := by
  obtain ⟨-, hleeway, hbase, ha, hb, hc⟩ := validate_ok h
  obtain ⟨-, hleeway', hbase', ha', hb', hc'⟩ := validate_ok h'
  obtain ⟨providers, base, a, b, c, leeway⟩ := settings
  obtain ⟨providers', base', a', b', c', leeway'⟩ := settings'
  rw [hraw] at hleeway' hbase' ha' hb' hc'
  obtain rfl := Except.ok.inj (hbase.symm.trans hbase')
  obtain rfl := hleeway.trans hleeway'.symm
  obtain rfl := ha.trans ha'.symm
  obtain rfl := hb.trans hb'.symm
  obtain rfl := hc.trans hc'.symm
  rfl

/-- An integer setting depends on its own variable only. -/
theorem result_readInt_congr {key : Text} {default : Int} (h : env' key = env key) :
    (readInt M key default).result env' = (readInt M key default).result env := by
  refine Prog.result_congr fun name hname => ?_
  rw [reads_readInt, List.mem_singleton] at hname
  rw [hname, h]

/-- Environments that agree on the global variables give settings that differ in the providers only. -/
theorem raw_eq {ids ids' : List Text} {raw raw' settings settings' : OidcSettings} (h : ReadFrom M env ids raw settings)
    (h' : ReadFrom M env' ids' raw' settings') (hglobal : ∀ name ∈ globalVariables, env' name = env name) :
    raw' = { raw with providers := raw'.providers } := by
  obtain ⟨providers, base, a, b, c, leeway⟩ := raw
  obtain ⟨providers', base', a', b', c', leeway'⟩ := raw'
  have hbase := h.redirectBaseUrl
  have ha := h.reauthFreshnessSeconds
  have hb := h.authorizationStartsPerIp
  have hc := h.stateTtlSeconds
  rw [← hglobal _ (by simp [globalVariables])] at hbase
  rw [← result_readInt_congr (hglobal _ (by simp [globalVariables]))] at ha hb hc
  obtain rfl := hbase.trans h'.redirectBaseUrl.symm
  obtain rfl := Except.ok.inj (ha.symm.trans h'.reauthFreshnessSeconds)
  obtain rfl := Except.ok.inj (hb.symm.trans h'.authorizationStartsPerIp)
  obtain rfl := Except.ok.inj (hc.symm.trans h'.stateTtlSeconds)
  obtain rfl := h.leeway.trans h'.leeway.symm
  rfl

end IsolationAux

open IsolationAux

variable {M}

/-- Every provider of accepted settings is isolated. What is read besides the variables of the providers are the global
variables. -/
theorem providers_isolated {env : Environ} {settings : OidcSettings} (h : (getOidcSettings M).result env = .ok settings) :
    (getOidcSettings M).reads env =
        enabledProviders :: (settings.providers.flatMap fun s => (readProvider M s.providerId).reads env) ++ globalVariables ∧
      ∀ p ∈ settings.providers, Isolated M env settings p.providerId := by
  obtain ⟨ids, raw, hread, hreads⟩ := readFrom_of_ok h
  have hproviders := (validate_ok hread.valid).1
  have hids : settings.providers.map (·.providerId) = ids := by
    rw [hproviders, map_providerId hread.providers]
  have hmem : ∀ s ∈ settings.providers, s.providerId ∈ ids := fun s hs => hids ▸ List.mem_map_of_mem hs
  -- a variable belongs to one id
  have hdisjoint : ∀ p ∈ ids, ∀ q ∈ ids, q ≠ p → ∀ name ∈ (readProvider M p).reads env,
      name ∉ (readProvider M q).reads env := by
    intro p hp q hq hne name hname hname'
    have hsuffix := suffix_eq_of_variable (variable_of_reads hname') (variable_of_reads hname)
    exact hne (List.inj_on_of_nodup_map hread.unique hq hp hsuffix)
  refine ⟨by rw [hreads, ← hids, List.flatMap_map], fun p hp => ⟨fun name hname => ⟨?_, ?_⟩, ?_, ?_⟩⟩
  · exact fun hglobal => not_variable_of_global (Or.inl hglobal) (variable_of_reads hname)
  · exact fun hglobal => not_variable_of_global (Or.inr hglobal) (variable_of_reads hname)
  · exact fun q hq hne => hdisjoint _ (hmem p hp) _ (hmem q hq) hne
  · intro env' settings' hsame h'
    have hglobal : ∀ name, name = enabledProviders ∨ name ∈ globalVariables → env' name = env name := fun name hname =>
      hsame name fun hvar => not_variable_of_global hname (variable_of_reads hvar)
    obtain ⟨ids', raw', hread', -⟩ := readFrom_of_ok h'
    have hids' : ids' = ids := by
      rw [hread'.enabled, hread.enabled, hglobal _ (Or.inl rfl)]
    subst hids'
    have hother : ∀ id ∈ ids', id ≠ p.providerId → (readProvider M id).result env' = (readProvider M id).result env :=
      fun id hid hne => Prog.result_congr fun name hname =>
        hsame name fun hp' => hdisjoint _ hid _ (hmem p hp) (Ne.symm hne) name hname hp'
    refine ⟨globals_eq hread.valid hread'.valid (raw_eq hread hread' fun name hname => hglobal name (Or.inr hname)), ?_⟩
    intro q hq
    rw [OidcSettings.getProvider, OidcSettings.getProvider, (validate_ok hread'.valid).1, hproviders]
    exact find_eq hread.providers hread'.providers hother hq

namespace TwoProviders

/-- The methods on ASCII texts. -/
def M₀ : StrMethods where
  python := Urllib.Python.ascii
  strip := fun s => ((s.dropWhile (· = ' ')).reverse.dropWhile (· = ' ')).reverse
  split := fun s => (s.splitOn ' ').filter (· ≠ [])
  upper := List.map Char.toUpper
  int := fun s => (String.ofList s).toInt?

/-- Two providers, one of which has the other's name in front of its own. -/
def environ : List (String × String) := [
  ("AUTH_OIDC_ENABLED_PROVIDERS", "google, google-client"), ("AUTH_OIDC_REDIRECT_BASE_URL", "https://app.example.com"),
  ("AUTH_OIDC_PROVIDER_GOOGLE_DISPLAY_NAME", "Google"), ("AUTH_OIDC_PROVIDER_GOOGLE_ISSUER", "https://accounts.google.com"),
  ("AUTH_OIDC_PROVIDER_GOOGLE_CLIENT_ID", "first"), ("AUTH_OIDC_PROVIDER_GOOGLE_CLIENT_SECRET", "one"),
  ("AUTH_OIDC_PROVIDER_GOOGLE_CLIENT_DISPLAY_NAME", "Client"), ("AUTH_OIDC_PROVIDER_GOOGLE_CLIENT_ISSUER", "https://id.example.com"),
  ("AUTH_OIDC_PROVIDER_GOOGLE_CLIENT_CLIENT_ID", "second"), ("AUTH_OIDC_PROVIDER_GOOGLE_CLIENT_CLIENT_SECRET", "two")]

def env : Environ := fun name => (environ.map fun v => (v.1.toList, v.2.toList)).lookup name

/-- The settings of a provider that has only what is required. -/
def provider (id displayName issuer clientId clientSecret : String) : OidcProviderSettings where
  providerId := id.toList
  displayName := displayName.toList
  issuer := issuer.toList
  clientId := clientId.toList
  clientSecret := clientSecret.toList
  scope := ["openid".toList, "email".toList, "profile".toList]
  trustVerifiedEmail := false
  autoProvision := .linkOnly
  linkMode := .manual
  callbackPath := ("/api/auth/oidc/" ++ id ++ "/callback").toList
  claimsAllowlist := []

def settings : OidcSettings where
  providers := [provider "google" "Google" "https://accounts.google.com" "first" "one",
    provider "google-client" "Client" "https://id.example.com" "second" "two"]
  redirectBaseUrl := some "https://app.example.com".toList
  reauthFreshnessSeconds := 300
  authorizationStartsPerIp := 20
  stateTtlSeconds := 300

end TwoProviders

open TwoProviders in
/-- The client id of `google` is not read for `google-client`. -/
theorem providers_isolated_two :
    "AUTH_OIDC_PROVIDER_GOOGLE_CLIENT_ID".toList ∉ (readProvider M₀ "google-client".toList).reads env := by
  have h : (getOidcSettings M₀).result env = .ok settings := by decide +kernel
  have hread : "AUTH_OIDC_PROVIDER_GOOGLE_CLIENT_ID".toList ∈ (readProvider M₀ "google".toList).reads env := by decide +kernel
  have hgoogle := (providers_isolated h).2 (settings.providers.get ⟨0, by decide⟩) (List.get_mem _ _)
  exact hgoogle.notOther (settings.providers.get ⟨1, by decide⟩) (List.get_mem _ _) (by decide +kernel) _ hread

end AuthService.Config
