import AuthService.Entities

/-!
# The API client of the browser

`request`, `ensureCsrfToken` and `bootstrapCsrfToken` (frontend, lib/apiClient.ts) of one tab. A call runs until it awaits
something, and goes on when what it awaits has settled; in between other calls run, answers arrive and the cookie changes.
-/

namespace AuthService.Frontend.ApiClient

/-! ## Requests and responses -/

/-- The methods of `apiClient`. -/
inductive Method where
  | get | post | put | patch | delete
  deriving DecidableEq, Repr

/-- `isUnsafeMethod`. -/
def Method.isUnsafe : Method → Bool
  | .get => false
  | _ => true

/-- A response: its status, and the `code` of its body when that is JSON. -/
structure Response where
  status : Nat
  body : Option (Option Text)
  deriving DecidableEq, Repr

/-- `response.ok`. -/
def Response.ok (response : Response) : Bool := 200 ≤ response.status && response.status ≤ 299

/-- `error.code` of the `ApiError` of a response. -/
def Response.code (response : Response) : Option Text := response.body.join

/-- The answer to a request whose token was refused. -/
def Response.isCsrfFailure (response : Response) : Bool :=
  response.status == 403 && response.code == some "csrf_validation_failed".toList

/-- Why a call rejects. -/
inductive Rejection where
  | bootstrapFailed
  | missingCookie
  | invalidHeader
  | fetchFailed
  | apiError (response : Response)
  | invalidJson
  deriving DecidableEq, Repr

/-- Where a call of `request` is. -/
inductive Phase where
  | called
  /-- `await activeBootstrap` -/
  | awaitingBootstrap (bootstrap : Nat) (force : Bool)
  /-- `await ensureCsrfToken()`, which is done -/
  | ensured
  /-- `await fetch(input, ..)` -/
  | sent
  /-- the same, which has settled -/
  | answered (response : Option Response)
  /-- `await bootstrapCsrfToken({ force: true })`, which is done -/
  | refreshed
  | settled (result : Except Rejection Unit)
  deriving DecidableEq

/-- A call of `request`. -/
structure Request where
  method : Method
  hasRetriedCsrf : Bool
  phase : Phase

/-! ## Headers -/

/-- The whitespace that a header value loses at both ends. -/
def isHttpWhitespace (c : Char) : Bool := c == '\t' || c == '\n' || c == '\r' || c == ' '

/-- `headers.set`: the value that is stored, if it is one. -/
def headerValue (value : Text) : Option Text :=
  let stripped := ((value.dropWhile isHttpWhitespace).reverse.dropWhile isHttpWhitespace).reverse
  if stripped.any fun c => c.toNat == 0 || c == '\n' || c == '\r' || 255 < c.toNat then none else some stripped

/-- The characters of `token_urlsafe`. -/
def isTokenChar (c : Char) : Bool := c.isAlphanum || c == '-' || c == '_'

/-- A token of the server. -/
def IsToken (t : Text) : Prop := ∀ c ∈ t, isTokenChar c = true

instance (t : Text) : Decidable (IsToken t) := List.decidableBAll (fun c => isTokenChar c = true) t

/-- The `csrf_token` cookie is one that the server has set, or is not there. -/
def ServerCookie (cookie : Option Text) : Prop := ∀ t ∈ cookie, IsToken t

/-! ## The tab -/

/-- What the tab keeps: the cookie that `readCookie` reads, the bootstraps that were started (each pending, fulfilled or
rejected) with the one that `csrfBootstrapPromise` is, and the calls. -/
structure Tab where
  cookie : Option Text
  csrfBootstrapPromise : Option Nat
  bootstraps : List (Option Bool)
  requests : List Request

/-- What happens, by call. -/
inductive Event where
  /-- the request is sent, with a token or none, while the cookie has a value -/
  | sent (i : Nat) (token cookie : Option Text)
  | answered (i : Nat) (response : Option Response)
  | awaits (i bootstrap : Nat) (force : Bool)
  | resumed (i bootstrap : Nat) (force fulfilled : Bool)
  deriving DecidableEq

/-- A call goes on to another phase. -/
def Tab.goOn (s : Tab) (i : Nat) (r : Request) (phase : Phase) : Tab :=
  { s with requests := s.requests.set i { r with phase := phase } }

/-- `bootstrapCsrfToken`, up to its `await`. -/
def bootstrapCsrfToken (s : Tab) (i : Nat) (r : Request) (force : Bool) : List Event × Tab :=
  match if force then none else s.csrfBootstrapPromise with
  | some active => ([.awaits i active force], s.goOn i r (.awaitingBootstrap active force))
  | none =>
    let active := s.bootstraps.length
    let s := { s with csrfBootstrapPromise := some active, bootstraps := s.bootstraps ++ [none] }
    ([.awaits i active force], s.goOn i r (.awaitingBootstrap active force))

/-- `ensureCsrfToken`, up to its `await`. -/
def ensureCsrfToken (s : Tab) (i : Nat) (r : Request) : List Event × Tab :=
  if s.cookie.filter (· ≠ []) = none then bootstrapCsrfToken s i r false else ([], s.goOn i r .ensured)

/-- `fetch(input, init)`. -/
def fetchInput (s : Tab) (i : Nat) (r : Request) (token : Option Text) : List Event × Tab :=
  ([.sent i token s.cookie], s.goOn i r .sent)

/-- `request`, up to its first `await`. -/
def request (s : Tab) (i : Nat) (r : Request) : List Event × Tab :=
  if r.method.isUnsafe then ensureCsrfToken s i r else fetchInput s i r none

/-- `request`, after `await ensureCsrfToken()`. -/
def sendWithToken (s : Tab) (i : Nat) (r : Request) : List Event × Tab :=
  match s.cookie.filter (· ≠ []) with
  | none => ([], s.goOn i r (.settled (.error .missingCookie)))
  | some csrfToken =>
    match headerValue csrfToken with
    | none => ([], s.goOn i r (.settled (.error .invalidHeader)))
    | some value => fetchInput s i r (some value)

/-- `request`, after `await fetch(input, ..)`. -/
def handleResponse (s : Tab) (i : Nat) (r : Request) (response : Option Response) : List Event × Tab :=
  match response with
  | none => ([], s.goOn i r (.settled (.error .fetchFailed)))
  | some response =>
    if response.ok then
      if response.status = 204 ∨ response.body ≠ none then ([], s.goOn i r (.settled (.ok ())))
      else ([], s.goOn i r (.settled (.error .invalidJson)))
    else if r.method.isUnsafe && !r.hasRetriedCsrf && response.isCsrfFailure then bootstrapCsrfToken s i r true
    else ([], s.goOn i r (.settled (.error (.apiError response))))

/-- `bootstrapCsrfToken`, after its `await`: `finally`, and back to the caller. -/
def afterBootstrap (s : Tab) (i : Nat) (r : Request) (active : Nat) (force fulfilled : Bool) : List Event × Tab :=
  let s := if s.csrfBootstrapPromise = some active then { s with csrfBootstrapPromise := none } else s
  let phase : Phase := if !fulfilled then .settled (.error .bootstrapFailed) else if force then .refreshed else .ensured
  ([.resumed i active force fulfilled], s.goOn i r phase)

/-- A call goes on, if what it awaits has settled. -/
def resume (s : Tab) (i : Nat) (r : Request) : Option (List Event × Tab) :=
  match r.phase with
  | .called | .sent | .settled _ => none
  | .awaitingBootstrap active force =>
    match s.bootstraps[active]? with
    | some (some fulfilled) => some (afterBootstrap s i r active force fulfilled)
    | _ => none
  | .ensured => some (sendWithToken s i r)
  | .answered response => some (handleResponse s i r response)
  | .refreshed => some (request s i { r with hasRetriedCsrf := true })

/-! ## Steps -/

/-- What can happen next. -/
inductive Action where
  /-- a call of `apiClient` -/
  | call (method : Method)
  | resume (i : Nat)
  /-- a bootstrap is fulfilled or rejected -/
  | settle (bootstrap : Nat) (fulfilled : Bool)
  /-- the fetch of a call gets a response or fails -/
  | answer (i : Nat) (response : Option Response)
  /-- the cookie changes, by the server or by another tab -/
  | setCookie (value : Option Text)

/-- One step, if it is possible. -/
def step (s : Tab) : Action → Option (List Event × Tab)
  | .call method =>
    let r : Request := ⟨method, false, .called⟩
    some (request { s with requests := s.requests ++ [r] } s.requests.length r)
  | .resume i =>
    match s.requests[i]? with
    | none => none
    | some r => resume s i r
  | .settle bootstrap fulfilled =>
    match s.bootstraps[bootstrap]? with
    | some none => some ([], { s with bootstraps := s.bootstraps.set bootstrap (some fulfilled) })
    | _ => none
  | .answer i response =>
    match s.requests[i]? with
    | some ⟨method, hasRetriedCsrf, .sent⟩ =>
      some ([.answered i response], s.goOn i ⟨method, hasRetriedCsrf, .sent⟩ (.answered response))
    | _ => none
  | .setCookie value => some ([], { s with cookie := value })

/-- What has happened in a tab, and how the tab is then. -/
inductive Reaches : Tab → List Event → Prop
  | opened (cookie : Option Text) : Reaches ⟨cookie, none, [], []⟩ []
  | step {s s' : Tab} {log events : List Event} {a : Action} (h : Reaches s log) (hstep : step s a = some (events, s')) :
    Reaches s' (log ++ events)

/-- Steps in order, with all that has happened. -/
def steps : List Action → Tab → List Event → Option (Tab × List Event)
  | [], s, log => some (s, log)
  | a :: actions, s, log => (step s a).bind fun p => steps actions p.2 (log ++ p.1)

/-- Steps lead from a tab that is reached to one that is. -/
theorem reaches_steps {actions : List Action} {s s' : Tab} {log log' : List Event} (h : Reaches s log)
    (hsteps : steps actions s log = some (s', log')) : Reaches s' log' := by
  induction actions generalizing s log with
  | nil =>
    obtain ⟨rfl, rfl⟩ := Prod.mk.inj (Option.some.inj hsteps)
    exact h
  | cons a actions ih =>
    obtain ⟨⟨events, s₁⟩, hstep, hrest⟩ := Option.bind_eq_some_iff.1 hsteps
    exact ih (h.step hstep) hrest

end AuthService.Frontend.ApiClient
