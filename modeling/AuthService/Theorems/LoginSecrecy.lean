import AuthService.Host

/-!
# A login does not tell whether an account exists

Attempts with an email, none with the password of an active account. Two services that differ only in the account of the email
give the same answers, verify as many passwords and have the same limiter.
-/

namespace AuthService

open ReadCommitted Serial

variable {Γ : Ctx}

/-- The user is found by the email. -/
def User.hasEmail (Γ : Ctx) (e : Text) (u : User) : Bool := Γ.sqlLower u.email = e && u.deletedAt.isNone

/-- Tables that differ only in the account of an email: whether it exists, and what its row holds. -/
structure DifferInAccount (Γ : Ctx) (e : Text) (S S' : Store) : Prop where
  others : S'.users.filter (fun u => !u.hasEmail Γ e) = S.users.filter fun u => !u.hasEmail Γ e
  unique : (S.users.filter (User.hasEmail Γ e)).length ≤ 1
  unique' : (S'.users.filter (User.hasEmail Γ e)).length ≤ 1
  elsewhere : S' = { S with users := S'.users }

/-- The password is that of an active account of the email. -/
def IsRight (Γ : Ctx) (e password : Text) (S : Store) : Prop :=
  ∃ u ∈ S.users, u.hasEmail Γ e = true ∧ u.isActive = true ∧ ∃ hash ∈ u.passwordHash, Γ.verifyPassword password hash = true

instance (Γ : Ctx) (e password : Text) (S : Store) : Decidable (IsRight Γ e password S) :=
  inferInstanceAs (Decidable (∃ u ∈ S.users, _ ∧ _ ∧ ∃ hash ∈ _, _))

namespace SecrecyAux

variable {C : Clock} {S : LimiterSettings} {me : Nat} {h h' : Host Γ} {α β : Type}

/-! ## What a request does on a host -/

theorem eval_query (q : Query) (h : Host Γ) :
    (query q : Service Γ q.Answer).eval (handle C S me) h = (.ok (q.answer Γ h.scene.view), h) := rfl

/-- A password check answers from the hash and is counted. -/
theorem eval_verify (password hash : Text) (h : Host Γ) :
    (call (.verifyPassword password hash) : Service Γ Bool).eval (handle C S me) h =
      (.ok (Γ.verifyPassword password hash), { h with verifications := h.verifications + 1 }) := rfl

/-- The account of an email. -/
def account (Γ : Ctx) (e : Text) (S : Store) : Option User := (S.users.filter (User.hasEmail Γ e)).head?

/-- A lookup finds the one account with the email. -/
theorem eval_findUserByEmail {e : Text} (hunique : (h.scene.view.users.filter (User.hasEmail Γ e)).length ≤ 1) :
    (findUserByEmail e : Service Γ (Option User)).eval (handle C S me) h = (.ok (account Γ e h.scene.view), h) := by
  refine (Prog.eval_bind_ok (eval_query (.userByEmail e) h)).trans ?_
  show (oneOrNone (h.scene.view.users.filter (User.hasEmail Γ e)) : Service Γ _).eval (handle C S me) h = _
  rw [account]
  generalize h.scene.view.users.filter (User.hasEmail Γ e) = us at hunique
  rcases us with _ | ⟨u, _ | ⟨u', us⟩⟩
  · rfl
  · rfl
  · simp only [List.length_cons] at hunique
    omega

variable (C S me) in
/-- An INSERT fails on a violated constraint, or adds its row to the view. -/
theorem eval_insert (w : Write) (h : Host Γ) :
    (insert w : Service Γ Unit).eval (handle C S me) h =
      if w.violates Γ h.scene.view then (.error .integrity, h)
      else (.ok (), { h with scene := { h.scene with view := w.apply h.scene.view } }) := by
  show handle C S me (.insert w) h = _
  cases hw : w.violates Γ h.scene.view with
  | true =>
    simp only [handle, answer, verifies, database, hw]
    rfl
  | false =>
    simp only [handle, answer, verifies, database, hw]
    rfl

/-- The host after an audit log was written. -/
def audited (h : Host Γ) (entry : AuditEntry) : Host Γ :=
  let S := (Write.insertAudit (AuthAuditLog.bind ⟨h.scene.env.ids, entry.userId, entry.sessionId, entry.eventType, entry.ipAddress,
    entry.userAgent, entry.detailJson, entry.occurredAt.getD h.scene.env.now⟩)).apply h.scene.store
  { h with scene := ⟨S, S, { h.scene.env with ids := h.scene.env.ids + 1 }⟩ }

/-- The host after an audit log was refused. -/
def refused (h : Host Γ) : Host Γ :=
  { h with scene := ⟨h.scene.store, h.scene.store, { h.scene.env with ids := h.scene.env.ids + 1 }⟩ }

variable (C S me) in
/-- An audit log is committed, unless its id is taken. -/
theorem eval_createAuditLog {entry : AuditEntry} (huser : ∀ u ∈ entry.userId, hasUser h.scene.store u = true)
    (hsession : entry.sessionId = none) :
    (createAuditLog false entry : Service Γ Unit).eval (handle C S me) h =
      if h.scene.store.audits.any fun l => l.id = h.scene.env.ids then (.error .integrity, refused h)
      else (.ok (), audited h entry) := by
  set row : AuthAuditLog := AuthAuditLog.bind ⟨h.scene.env.ids, entry.userId, entry.sessionId, entry.eventType, entry.ipAddress,
    entry.userAgent, entry.detailJson, entry.occurredAt.getD h.scene.env.now⟩ with hrow
  have hviolates : (Write.insertAudit row).violates Γ h.scene.store = h.scene.store.audits.any fun l => l.id = h.scene.env.ids := by
    have hfk : (entry.userId.any fun u => !hasUser h.scene.store u) = false := by
      cases hid : entry.userId with
      | none => rfl
      | some u => simp [huser u hid]
    have hno : (entry.sessionId.any fun s => !hasSession h.scene.store s) = false := by rw [hsession]; rfl
    show (h.scene.store.audits.any (fun l => l.id = h.scene.env.ids) || (entry.userId.any fun u => !hasUser h.scene.store u) ||
      entry.sessionId.any fun s => !hasSession h.scene.store s) = _
    rw [hfk, hno, Bool.or_false, Bool.or_false]
  have hinsert := eval_insert C S me (.insertAudit row)
    { h with scene := ⟨h.scene.store, h.scene.store, { h.scene.env with ids := h.scene.env.ids + 1 }⟩ }
  rw [hviolates] at hinsert
  -- the scope begins, attempts its body and rolls back what is not committed
  have hscope : ∀ {r : Except AuthError Unit} {h1 : Host Γ},
      ((do insertAudit entry; persist false) : Service Γ Unit).eval (handle C S me)
        { h with scene := { h.scene with view := h.scene.store } } = (r, h1) →
      (createAuditLog false entry : Service Γ Unit).eval (handle C S me) h =
        (r, { h1 with scene := { h1.scene with view := h1.scene.store } }) := by
    intro r h1 hbody
    have hbegin : (begin : Service Γ Unit).eval (handle C S me) h =
        (.ok (), { h with scene := { h.scene with view := h.scene.store } }) := rfl
    refine (Prog.eval_bind_ok hbegin).trans ?_
    refine (Prog.eval_bind_ok ((Prog.eval_attempt _ _).trans (by rw [hbody]))).trans ?_
    cases r <;> rfl
  by_cases hany : (h.scene.store.audits.any fun l => l.id = h.scene.env.ids) = true
  · rw [if_pos hany] at hinsert ⊢
    exact hscope (Prog.eval_bind_error hinsert)
  · rw [if_neg hany] at hinsert ⊢
    exact hscope ((Prog.eval_bind_ok hinsert).trans rfl)

/-! ## Wrong passwords -/

/-- A wrong password leaves no accepted user. -/
theorem not_accepted {e password : Text} {T : Store} (hwrong : ¬IsRight Γ e password T) :
    acceptedUser (account Γ e T) (Γ.verifyPassword password (((account Γ e T).bind User.passwordHash).getD Γ.dummyPasswordHash)) =
      none := by
  unfold acceptedUser
  rw [Option.filter_eq_none_iff]
  intro u hu hright
  simp only [Bool.and_eq_true, Option.isSome_iff_exists] at hright
  obtain ⟨⟨hactive, hash, hhash⟩, hverify⟩ := hright
  obtain ⟨hmem, hemail⟩ := List.mem_filter.1 (List.mem_of_mem_head? hu)
  refine hwrong ⟨u, hmem, hemail, hactive, hash, hhash, ?_⟩
  rw [Option.mem_def.1 hu] at hverify
  simpa [hhash] using hverify

/-- The check of an attempt. -/
def checked (C : Clock) (S : LimiterSettings) (e : Text) (a : LoginAttempt) (h : Host Γ) : Option Bool × InMemory.Limiter :=
  InMemory.step C S (h.clock h.readings) (.isAllowed (rateLimitIp a.ipAddress) e) h.limiter

/-- The host after it. -/
def asked (C : Clock) (S : LimiterSettings) (e : Text) (a : LoginAttempt) (h : Host Γ) : Host Γ :=
  { h with limiter := (checked C S e a h).2, readings := h.readings + 1 }

/-- The host after a wrong password was counted. -/
def counted (C : Clock) (S : LimiterSettings) (e : Text) (a : LoginAttempt) (h : Host Γ) : Host Γ :=
  { h with
    limiter := (InMemory.step C S (h.clock (h.readings + 1)) (.recordFailure (rateLimitIp a.ipAddress) e true)
      (checked C S e a h).2).2
    readings := h.readings + 2
    verifications := h.verifications + 1 }

/-- The audit log of a wrong password. -/
def failure (a : LoginAttempt) (user : Option User) : AuditEntry where
  userId := user.map User.id
  sessionId := none
  eventType := .loginFailed
  ipAddress := a.ipAddress
  userAgent := a.userAgent

/-- A login with a wrong password, written out in the state before it. -/
theorem eval_login_wrong {e : Text} {a : LoginAttempt} (he : Γ.normalizeEmail a.email = e) (hview : h.scene.view = h.scene.store)
    (hunique : (h.scene.store.users.filter (User.hasEmail Γ e)).length ≤ 1) (hwrong : ¬IsRight Γ e a.password h.scene.store) :
    (login a.email a.password a.currentSessionToken a.ipAddress a.userAgent : Service Γ _).eval (handle C S a.thread) h =
      if (checked C S e a h).1.getD true = false then
        (.error (.rateLimitExceeded Γ.auth.rateLimitWindowSeconds), asked C S e a h)
      else if h.scene.store.audits.any fun l => l.id = h.scene.env.ids then
        (.error .integrity, refused (counted C S e a h))
      else (.error .invalidCredentials, audited (counted C S e a h) (failure a (account Γ e h.scene.store))) := by
  subst he
  set e := Γ.normalizeEmail a.email with he
  have hcheck : (limiter (.isAllowed (rateLimitIp a.ipAddress) e) : Service Γ Bool).eval (handle C S a.thread) h =
      (.ok ((checked C S e a h).1.getD true), asked C S e a h) := rfl
  refine (Prog.eval_bind_ok hcheck).trans ?_
  cases hallowed : (checked C S e a h).1.getD true with
  | false =>
    rw [if_pos rfl]
    exact Prog.eval_bind_error rfl
  | true =>
    rw [if_neg nofun]
    refine (Prog.eval_bind_ok (a := ()) rfl).trans ?_
    have hfind : (findUserByEmail e : Service Γ (Option User)).eval (handle C S a.thread) (asked C S e a h) =
        (.ok (account Γ e h.scene.store), asked C S e a h) := by
      rw [← hview] at hunique ⊢
      exact eval_findUserByEmail hunique
    refine (Prog.eval_bind_ok hfind).trans ?_
    refine (Prog.eval_bind_ok (eval_verify a.password _ _)).trans ?_
    rw [not_accepted hwrong]
    have hrecord : (limiter (.recordFailure (rateLimitIp a.ipAddress) e true) : Service Γ Bool).eval (handle C S a.thread)
        { asked C S e a h with verifications := h.verifications + 1 } = (.ok true, counted C S e a h) := rfl
    refine (Prog.eval_bind_ok hrecord).trans ?_
    have huser : ∀ u ∈ (failure a (account Γ e h.scene.store)).userId, hasUser (counted C S e a h).scene.store u = true := by
      intro u hu
      obtain ⟨row, hrow, rfl⟩ := Option.map_eq_some_iff.1 hu
      have hmem := (List.mem_filter.1 (List.mem_of_mem_head? hrow)).1
      exact List.any_eq_true.2 ⟨row, hmem, decide_eq_true rfl⟩
    have haudit := eval_createAuditLog C S a.thread huser rfl
    by_cases hany : (h.scene.store.audits.any fun l => l.id = h.scene.env.ids) = true
    · rw [if_pos hany]
      exact Prog.eval_bind_error (haudit.trans (if_pos hany))
    · rw [if_neg hany]
      exact (Prog.eval_bind_ok (haudit.trans (if_neg hany))).trans rfl

/-! ## Two hosts -/

/-- Hosts at rest that agree on what a failed attempt depends on. -/
structure Alike (e : Text) (h h' : Host Γ) : Prop where
  limiter : h'.limiter = h.limiter
  clock : h'.clock = h.clock
  readings : h'.readings = h.readings
  verifications : h'.verifications = h.verifications
  env : h'.scene.env = h.scene.env
  audits : h'.scene.store.audits.map AuthAuditLog.id = h.scene.store.audits.map AuthAuditLog.id
  committed : h.scene.view = h.scene.store
  committed' : h'.scene.view = h'.scene.store
  unique : (h.scene.store.users.filter (User.hasEmail Γ e)).length ≤ 1
  unique' : (h'.scene.store.users.filter (User.hasEmail Γ e)).length ≤ 1

variable {e : Text} {a : LoginAttempt}

/-- Waiting keeps two hosts alike. -/
theorem Alike.wait (h₁ : Alike e h h') (n : Nat) : Alike e (h.wait n) (h'.wait n) where
  limiter := h₁.limiter
  clock := h₁.clock
  readings := h₁.readings
  verifications := h₁.verifications
  env := by simp only [Host.wait, h₁.env]
  audits := h₁.audits
  committed := h₁.committed
  committed' := h₁.committed'
  unique := h₁.unique
  unique' := h₁.unique'

theorem Alike.checked (h₁ : Alike e h h') : checked C S e a h' = checked C S e a h := by
  rw [SecrecyAux.checked, SecrecyAux.checked, h₁.limiter, h₁.clock, h₁.readings]

/-- The limiter's check keeps two hosts alike. -/
theorem Alike.asked (h₁ : Alike e h h') : Alike e (asked C S e a h) (asked C S e a h') where
  limiter := congrArg Prod.snd h₁.checked
  clock := h₁.clock
  readings := congrArg (· + 1) h₁.readings
  verifications := h₁.verifications
  env := h₁.env
  audits := h₁.audits
  committed := h₁.committed
  committed' := h₁.committed'
  unique := h₁.unique
  unique' := h₁.unique'

/-- A counted failure keeps two hosts alike. -/
theorem Alike.counted (h₁ : Alike e h h') : Alike e (counted C S e a h) (counted C S e a h') where
  limiter := by
    simp only [SecrecyAux.counted]
    rw [h₁.checked, h₁.clock, h₁.readings]
  clock := h₁.clock
  readings := congrArg (· + 2) h₁.readings
  verifications := congrArg (· + 1) h₁.verifications
  env := h₁.env
  audits := h₁.audits
  committed := h₁.committed
  committed' := h₁.committed'
  unique := h₁.unique
  unique' := h₁.unique'

/-- A refused audit log keeps two hosts alike. -/
theorem Alike.refused (h₁ : Alike e h h') : Alike e (refused h) (refused h') where
  limiter := h₁.limiter
  clock := h₁.clock
  readings := h₁.readings
  verifications := h₁.verifications
  env := by simp only [SecrecyAux.refused, h₁.env]
  audits := h₁.audits
  committed := rfl
  committed' := rfl
  unique := h₁.unique
  unique' := h₁.unique'

/-- The audit logs may name the account or not. -/
theorem Alike.audited (h₁ : Alike e h h') (entry entry' : AuditEntry) : Alike e (audited h entry) (audited h' entry') where
  limiter := h₁.limiter
  clock := h₁.clock
  readings := h₁.readings
  verifications := h₁.verifications
  env := by simp only [SecrecyAux.audited, h₁.env]
  audits := by
    simp only [SecrecyAux.audited, Write.apply, AuthAuditLog.bind, List.map_append, List.map_cons, List.map_nil, h₁.audits, h₁.env]
  committed := rfl
  committed' := rfl
  unique := h₁.unique
  unique' := h₁.unique'

/-- Alike hosts agree on whether the next audit id is taken. -/
theorem Alike.taken (h₁ : Alike e h h') : (h'.scene.store.audits.any fun l => l.id = h'.scene.env.ids) =
    h.scene.store.audits.any fun l => l.id = h.scene.env.ids := by
  have hids : ∀ (logs : List AuthAuditLog) (id : Uuid), (logs.any fun l => l.id = id) = (logs.map AuthAuditLog.id).any (· = id) :=
    fun logs id => by rw [List.any_map]; rfl
  rw [hids, hids, h₁.audits, h₁.env]

/-- The users that an attempt leaves. -/
theorem users_run (he : Γ.normalizeEmail a.email = e) (hview : h.scene.view = h.scene.store)
    (hunique : (h.scene.store.users.filter (User.hasEmail Γ e)).length ≤ 1) (hwrong : ¬IsRight Γ e a.password h.scene.store) :
    (a.run C S h).2.scene.store.users = h.scene.store.users := by
  rw [LoginAttempt.run, eval_login_wrong (h := h.wait a.elapsed) he hview hunique hwrong]
  split
  · rfl
  · split <;> rfl

/-- One attempt with a wrong password answers the same in alike hosts and keeps them alike. -/
theorem alike_run (h₁ : Alike e h h') (he : Γ.normalizeEmail a.email = e) (hwrong : ¬IsRight Γ e a.password h.scene.store)
    (hwrong' : ¬IsRight Γ e a.password h'.scene.store) :
    (a.run C S h').1 = (a.run C S h).1 ∧ Alike e (a.run C S h).2 (a.run C S h').2 := by
  have h₂ := h₁.wait a.elapsed
  rw [LoginAttempt.run, LoginAttempt.run, eval_login_wrong he h₂.committed h₂.unique hwrong,
    eval_login_wrong he h₂.committed' h₂.unique' hwrong', h₂.checked, h₂.taken]
  split
  · exact ⟨rfl, h₂.asked⟩
  · split
    · exact ⟨rfl, h₂.counted.refused⟩
    · exact ⟨rfl, h₂.counted.audited _ _⟩

/-- Any attempts with wrong passwords answer the same in alike hosts. -/
theorem alike_attempts {as : List LoginAttempt} (h₁ : Alike e h h') (he : ∀ a ∈ as, Γ.normalizeEmail a.email = e)
    (hwrong : ∀ a ∈ as, ¬IsRight Γ e a.password h.scene.store ∧ ¬IsRight Γ e a.password h'.scene.store) :
    (attempts C S as h').1 = (attempts C S as h).1 ∧ (attempts C S as h').2.limiter = (attempts C S as h).2.limiter := by
  induction as generalizing h h' with
  | nil => exact ⟨rfl, h₁.limiter⟩
  | cons a as ih =>
    have ha := he a (List.mem_cons_self ..)
    obtain ⟨hfirst, hfirst'⟩ := hwrong a (List.mem_cons_self ..)
    obtain ⟨hresult, h₂⟩ := alike_run (C := C) (S := S) h₁ ha hfirst hfirst'
    have husers := users_run (C := C) (S := S) ha h₁.committed h₁.unique hfirst
    have husers' := users_run (C := C) (S := S) ha h₁.committed' h₁.unique' hfirst'
    have hright : ∀ {p : Text} {T T' : Store}, T'.users = T.users → (IsRight Γ e p T' ↔ IsRight Γ e p T) := by
      intro p T T' hT
      rw [IsRight, IsRight, hT]
    obtain ⟨hrest, hlimiter⟩ := ih h₂ (fun b hb => he b (List.mem_cons_of_mem _ hb)) fun b hb => by
      rw [hright husers, hright husers']
      exact hwrong b (List.mem_cons_of_mem _ hb)
    refine ⟨?_, hlimiter⟩
    rw [attempts, attempts, hrest, hresult, h₂.verifications, h₁.verifications]

end SecrecyAux

open SecrecyAux

/-- Attempts with wrong passwords cannot tell two services apart that differ only in the account: the outcomes and the numbers of
verified passwords are the same, and so is the limiter, whatever it is asked later. -/
theorem login_reveals_nothing (C : Clock) (S : LimiterSettings) {e : Text} {T T' : Store} (hdiffer : DifferInAccount Γ e T T')
    (env : Env) (L : InMemory.Limiter) (clock : Nat → ℚ) {as : List LoginAttempt} (he : ∀ a ∈ as, Γ.normalizeEmail a.email = e)
    (hwrong : ∀ a ∈ as, ¬IsRight Γ e a.password T ∧ ¬IsRight Γ e a.password T') :
    (attempts C S as (Host.atRest T' env L clock : Host Γ)).1 = (attempts C S as (Host.atRest T env L clock : Host Γ)).1 ∧
      ∀ later : List (ℚ × LimiterOp),
        InMemory.run C S later (attempts C S as (Host.atRest T' env L clock : Host Γ)).2.limiter =
          InMemory.run C S later (attempts C S as (Host.atRest T env L clock : Host Γ)).2.limiter := by
  have haudits : T'.audits = T.audits := by
    rw [hdiffer.elsewhere]
  have halike : Alike e (Host.atRest T env L clock : Host Γ) (Host.atRest T' env L clock) :=
    ⟨rfl, rfl, rfl, rfl, rfl, congrArg (List.map AuthAuditLog.id) haudits, rfl, rfl, hdiffer.unique, hdiffer.unique'⟩
  obtain ⟨houtcomes, hlimiter⟩ := alike_attempts (C := C) (S := S) halike he hwrong
  exact ⟨houtcomes, fun later => by rw [hlimiter]⟩

namespace GuessedPassword

def Γ₄ : Ctx := Ctx.readable [] fun _ => .error .overflow

/-- One failure is allowed. -/
def limits : LimiterSettings := ⟨900, 3600, 1, 20, 20, 10, 10, 10000⟩

def ann : User := ⟨1, ['a'], some ['$', 'p'], true, .en, 0, 0, none, none⟩

def guess : LoginAttempt := ⟨0, 1000000, ['A'], ['q'], none, none, none⟩

def env : Env := ⟨0, [], 10, 0, 0, 0⟩

end GuessedPassword

open GuessedPassword in
/-- With the account and without it, the first guess is wrong, and the second is not looked at. -/
theorem login_reveals_nothing_twice :
    (attempts Clock.exact limits [guess, guess] (Host.atRest Store.empty env .new fun n => n : Host Γ₄)).1 =
      (attempts Clock.exact limits [guess, guess]
        (Host.atRest { Store.empty with users := [ann] } env .new fun n => n : Host Γ₄)).1 ∧
    (attempts Clock.exact limits [guess, guess] (Host.atRest Store.empty env .new fun n => n : Host Γ₄)).1.map Prod.snd = [1, 0] := by
  have hdiffer : DifferInAccount Γ₄ ['a'] { Store.empty with users := [ann] } Store.empty :=
    ⟨by decide, by decide, by decide, rfl⟩
  have hemail : ∀ a ∈ [guess, guess], Γ₄.normalizeEmail a.email = ['a'] := by decide
  have hwrong : ∀ a ∈ [guess, guess],
      ¬IsRight Γ₄ ['a'] a.password { Store.empty with users := [ann] } ∧ ¬IsRight Γ₄ ['a'] a.password Store.empty := by decide
  exact ⟨(login_reveals_nothing Clock.exact limits hdiffer env .new (fun n => n) hemail hwrong).1, by decide +kernel⟩

end AuthService
