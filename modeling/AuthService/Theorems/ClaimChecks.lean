import AuthService.ProviderClient

/-!
# The claim checks of the flows are the client's

The flows check the claims of a token as texts, the client checks the JSON that it has decoded. Where the texts of the JSON are
proper ones, both refuse the same tokens with the same errors, and make the same of the others.
-/

namespace AuthService.ProviderClient

/-- What the flows see of a JSON value. -/
inductive ShownAs : Json → ClaimValue → Prop
  | null : ShownAs .null .null
  | bool (b : Bool) : ShownAs (.bool b) (.bool b)
  | int (n : Int) : ShownAs (.int n) (.int n)
  | text (t : Text) : ShownAs (.str (points t)) (.text t)
  | texts (ts : List Text) : ShownAs (.arr (ts.map fun t => .str (points t))) (.texts ts)
  | float (literal : PyText) : ShownAs (.float literal) .other
  | obj (fields : List (PyText × Json)) : ShownAs (.obj fields) .other

/-- What the flows see of the claims. -/
structure Presents (claims : Dict) (seen : IdTokenClaims) : Prop where
  iss : ShownAs (get claims "iss") seen.iss
  aud : ShownAs (get claims "aud") seen.aud
  sub : ShownAs (get claims "sub") seen.sub
  nonce : ShownAs (get claims "nonce") seen.nonce
  exp : ShownAs (get claims "exp") seen.exp
  iat : ShownAs (get claims "iat") seen.iat
  authTime : ShownAs (get claims "auth_time") seen.authTime
  email : ShownAs (get claims "email") seen.email
  emailVerified : ShownAs (get claims "email_verified") seen.emailVerified

/-- The libraries of the client do to a text what those of the service do. -/
structure SameStrings (L : Libraries) (Γ : Ctx) : Prop where
  strip : ∀ t, L.strip (points t) = points (Γ.strip t)
  lower : ∀ t, L.lower (points t) = points (Γ.lower t)
  hashToken : ∀ t, L.hashToken (points t) = points (Γ.hashToken t)

/-- The errors of the checks, in the flows and in the client. -/
inductive SameError : AuthError → ClientError → Prop
  | claims (message : String) : SameError (.oidcClaimsValidation message) (.claimsValidation message)
  | authTimeRequired (message : String) : SameError .oidcReauthAuthTimeRequired (.reauthAuthTimeRequired message)
  | stale (message : String) : SameError .oidcReauthStale (.reauthStale message)
  | range : SameError .overflow .timestampOutOfRange

/-- Both succeed with values in the relation, or both fail with one error. -/
inductive Agrees {α β : Type} (R : α → β → Prop) : Except AuthError α → Except ClientError β → Prop
  | ok {a : α} {b : β} (h : R a b) : Agrees R (.ok a) (.ok b)
  | error {e : AuthError} {e' : ClientError} (h : SameError e e') : Agrees R (.error e) (.error e')

/-- The claims that are verified, in the flows and in the client. -/
def SameClaims (c : OidcVerifiedClaims) (v : VerifiedClaims) : Prop :=
  v = ⟨c.providerId, points c.issuer, c.audience, points c.subject, c.email.map points, c.emailVerified, c.issuedAt, c.expiresAt,
    c.authTime⟩

namespace ClaimChecksAux

variable {L : Libraries} {Γ : Ctx} {value : ClaimValue} {claims : Dict} {key : String}

/-! ### Texts -/

/-- Texts with the same code points are one. -/
theorem points_inj {t t' : Text} : points t = points t' ↔ t = t' :=
  (List.map_injective_iff.2 fun _ _ h => Char.toNat_inj.1 h).eq_iff

/-- The code points of a text are no surrogates. -/
theorem encodable_points (t : Text) : encodable (points t) = true := by
  simp only [encodable, points, List.all_map, List.all_eq_true, Function.comp_apply, Bool.or_eq_true, decide_eq_true_eq]
  intro c _
  rcases c.valid with hlow | ⟨hhigh, -⟩
  · exact Or.inl hlow
  · exact Or.inr hhigh

/-- The hash of a token, which the client can always encode. -/
theorem hashToken_points (hL : SameStrings L Γ) (t : Text) : hashToken L (points t) = .ok (points (Γ.hashToken t)) := by
  rw [hashToken, if_pos (encodable_points t), hL.hashToken]

/-! ### Results -/

/-- What agrees goes on to what agrees. -/
theorem agrees_bind {α β γ δ : Type} {R : α → β → Prop} {S : γ → δ → Prop} {x : Except AuthError α} {y : Except ClientError β}
    (h : Agrees R x y) {f : α → Except AuthError γ} {g : β → Except ClientError δ} (hfg : ∀ a b, R a b → Agrees S (f a) (g b)) :
    Agrees S (x >>= f) (y >>= g) := by
  cases h with
  | ok h => exact hfg _ _ h
  | error h => exact .error h

/-- A check of one condition with one error. -/
theorem agrees_check {p q : Bool} {e : AuthError} {e' : ClientError} (hpq : p = q) (he : SameError e e') :
    Agrees Eq (AuthService.check p e) (check q e') := by
  subst hpq
  cases p with
  | true => exact .ok rfl
  | false => exact .error he

/-! ### Claims -/

/-- A required text. -/
theorem agrees_requiredStr (h : ShownAs (get claims key) value) :
    Agrees (fun t s => s = points t) (AuthService.requiredStr value key) (requiredStr claims key) := by
  rw [requiredStr]
  generalize get claims key = json at h
  cases h with
  | text t =>
    cases t with
    | nil => exact .error (.claims _)
    | cons c t => exact .ok rfl
  | _ => exact .error (.claims _)

/-- A time. -/
theorem agrees_fromTimestamp (n : Int) : Agrees Eq (AuthService.fromTimestamp n) (fromTimestamp n) := by
  rw [AuthService.fromTimestamp, fromTimestamp]
  by_cases h : -62135596800 ≤ n ∧ n ≤ 253402300799
  · rw [if_pos h, if_pos (by simpa [inRange] using h)]
    exact .ok rfl
  · rw [if_neg h, if_neg (by simpa [inRange] using h)]
    exact .error .range

/-- A required time. -/
theorem agrees_datetimeClaim (h : ShownAs (get claims key) value) :
    Agrees Eq (AuthService.datetimeClaim value key) (datetimeClaim claims key) := by
  rw [datetimeClaim]
  generalize get claims key = json at h
  cases h with
  | int n => exact agrees_fromTimestamp n
  | _ => exact .error (.claims _)

/-- A time that may be absent. -/
theorem agrees_optionalDatetimeClaim (h : ShownAs (get claims key) value) :
    Agrees Eq (AuthService.optionalDatetimeClaim value key) (optionalDatetimeClaim claims key) := by
  rw [optionalDatetimeClaim]
  generalize get claims key = json at h
  cases h with
  | null => exact .ok rfl
  | int n =>
    show Agrees Eq ((AuthService.fromTimestamp n).map some) ((fromTimestamp n).map some)
    have hn := agrees_fromTimestamp n
    generalize AuthService.fromTimestamp n = x at hn
    generalize fromTimestamp n = y at hn
    cases hn with
    | ok h => exact .ok (congrArg some h)
    | error h => exact .error h
  | _ => exact .error (.claims _)

/-- The audience of a token. -/
theorem audienceContains_eq {json : Json} (h : ShownAs json value) (clientId : Text) :
    audienceContains json (points clientId) = AuthService.audienceContains value clientId := by
  cases h with
  | text t => exact decide_eq_decide.2 points_inj
  | texts ts =>
    rw [Bool.eq_iff_iff]
    simp [audienceContains, AuthService.audienceContains, Json.isStr, points_inj]
  | _ => rfl

/-- The email of a token. -/
theorem optionalNormalizedEmail_eq (hL : SameStrings L Γ) {json : Json} (h : ShownAs json value) :
    optionalNormalizedEmail L json = (AuthService.optionalNormalizedEmail Γ value).map points := by
  cases h with
  | text t =>
    have hemail : L.lower (L.strip (points t)) = points (Γ.normalizeEmail t) := by rw [hL.strip, hL.lower, Ctx.normalizeEmail]
    rw [optionalNormalizedEmail, AuthService.optionalNormalizedEmail, hemail]
    cases Γ.normalizeEmail t with
    | nil => rfl
    | cons c s => rfl
  | _ => rfl

end ClaimChecksAux

open ClaimChecksAux

/-- The checks of the flows accept the claims that the client accepts, make the same of them, and refuse the others with the same
errors, for a token whose nonce is expected to have a hash. -/
theorem verifyClaims_agrees {L : Libraries} {Γ : Ctx} (hL : SameStrings L Γ) (provider : OidcProviderSettings) {claims : Dict}
    {seen : IdTokenClaims} (h : Presents claims seen) (expectedNonceHash : Text) (requireAuthTime : Bool) (now : DateTime) :
    Agrees SameClaims (AuthService.verifyClaims Γ provider seen expectedNonceHash requireAuthTime now)
      (verifyClaims L Γ.oidc provider claims none (some (points expectedNonceHash)) requireAuthTime now) := by
  unfold AuthService.verifyClaims verifyClaims
  refine agrees_bind (agrees_requiredStr h.iss) fun issuer _ hissuer => ?_
  subst hissuer
  refine agrees_bind (agrees_check (decide_eq_decide.2 points_inj.symm) (.claims _)) fun _ _ _ => ?_
  refine agrees_bind (agrees_check (audienceContains_eq h.aud _).symm (.claims _)) fun _ _ _ => ?_
  have hsubject : Agrees (fun t s => s = points (Γ.strip t)) (AuthService.requiredStr seen.sub "sub")
      ((requiredStr claims "sub").map L.strip) := by
    have hsub := agrees_requiredStr h.sub
    generalize AuthService.requiredStr seen.sub "sub" = x at hsub
    generalize requiredStr claims "sub" = y at hsub
    cases hsub with
    | ok heq => exact .ok (by rw [heq, hL.strip])
    | error he => exact .error he
  refine agrees_bind hsubject fun subject _ hsubject => ?_
  subst hsubject
  have hempty : ∀ t : Text, decide (t ≠ []) = decide (points t ≠ []) := by
    intro t
    cases t <;> rfl
  refine agrees_bind (agrees_check (hempty _) (.claims _)) fun _ _ _ => ?_
  refine agrees_bind (agrees_requiredStr h.nonce) fun nonce _ hnonce => ?_
  subst hnonce
  -- the client is given no nonce, only its hash
  have hhash : Agrees Eq
      (AuthService.check (Γ.hashToken nonce = expectedNonceHash) (.oidcClaimsValidation "ID token nonce mismatch"))
      (checkNonceHash L (points nonce) (some (points expectedNonceHash))) := by
    rw [checkNonceHash, hashToken_points hL]
    exact agrees_check (decide_eq_decide.2 points_inj.symm) (.claims _)
  refine agrees_bind hhash fun _ _ _ => ?_
  refine agrees_bind (agrees_datetimeClaim h.exp) fun expiresAt _ hexp => ?_
  subst hexp
  refine agrees_bind (agrees_check rfl (.claims _)) fun _ _ _ => ?_
  refine agrees_bind (agrees_datetimeClaim h.iat) fun issuedAt _ hiat => ?_
  subst hiat
  refine agrees_bind (agrees_check rfl (.claims _)) fun _ _ _ => ?_
  refine agrees_bind (agrees_optionalDatetimeClaim h.authTime) fun authTime _ hauthTime => ?_
  subst hauthTime
  refine agrees_bind (agrees_check rfl (.authTimeRequired _)) fun _ _ _ => ?_
  refine agrees_bind (agrees_check rfl (.stale _)) fun _ _ _ => .ok ?_
  rw [SameClaims, optionalNormalizedEmail_eq hL h.email]
  -- the email is verified when the claim is `true`
  have hverified := h.emailVerified
  generalize get claims "email_verified" = json at hverified ⊢
  generalize seen.emailVerified = value at hverified ⊢
  cases hverified with
  | bool b => cases b <;> rfl
  | _ => rfl

end AuthService.ProviderClient
