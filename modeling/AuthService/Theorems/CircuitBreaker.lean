import AuthService.RedisRateLimiter

/-!
# The circuit breaker under concurrent operations

The breaker keeps a time at which it opened. A later start clears it when the cooldown is over, and a late reply to an
operation that started long ago sets it again. Whether an operation skips the server has a closed form all the same: it depends
on the failures since the last success and on the time of the last failure.
-/

namespace AuthService

/-- The operation is a check. The others are records. -/
def LimiterOp.isCheck : LimiterOp → Bool
  | .isAllowed .. | .isAccountDeletionReauthAllowed .. | .isRegistrationAllowed .. | .isOidcAuthorizationAllowed .. => true
  | _ => false

namespace Redis

variable (R : Config)

/-- A check without an answer from the server answers by the policy, a record returns. -/
def byPolicy (op : LimiterOp) : Option Bool := if op.isCheck then some R.failOpen else none

/-- The completion counts as a failure. -/
def Event.isFailure : Event → Bool
  | .complete _ .failure => true
  | _ => false

/-- The completion is a success. -/
def Event.isSuccess : Event → Bool
  | .complete _ (.success _) => true
  | _ => false

/-- The events of a run so far, the last one first. -/
abbrev Past := List (ℚ × Event)

/-- The operations that started, in order. -/
def startedOps (events : List (ℚ × Event)) : List LimiterOp :=
  events.filterMap fun e => match e.2 with
    | .start op => some op
    | .complete _ _ => none

/-- The counted failures completed since the last completed success. -/
def Past.failuresSinceSuccess (past : Past) : Nat := (past.takeWhile fun e => !e.2.isSuccess).countP fun e => e.2.isFailure

/-- The completion time of the latest counted failure. -/
def Past.latestFailure (past : Past) : Option ℚ := (past.find? fun e => e.2.isFailure).map Prod.fst

/-- An operation that starts at `now` skips the server. -/
def Skips (past : Past) (now : ℚ) : Prop :=
  R.circuitBreakerFailures ≤ past.failuresSinceSuccess ∧
    ∃ t ∈ past.latestFailure, now - t < R.circuitBreakerCooldownSeconds

instance (past : Past) (now : ℚ) : Decidable (Skips R past now) := inferInstanceAs (Decidable (_ ∧ _))

/-- An operation that no other overlaps is its start followed by its completion. -/
theorem step_eq_start_complete (S : LimiterSettings) (moment : Moment) (op : LimiterOp) (L : Limiter) :
    ((step R S moment op L).1, (step R S moment op L).2.breaker) =
      if (L.breaker.start R moment.breakerStart).1 then (unavailable R op, (L.breaker.start R moment.breakerStart).2)
      else
        let completion := moment.reply.completion (perform R S (redisTimeSeconds moment.time) op L.store).1
        (match completion with | .success result => answered result op | _ => unavailable R op,
          (L.breaker.start R moment.breakerStart).2.complete R moment.breakerEnd completion) := by
  unfold step Breaker.start
  by_cases hopen : (L.breaker.circuitIsOpen R moment.breakerStart).1 = true
  · simp [hopen, Limiter.warn]
  · simp only [hopen, Bool.false_eq_true, ite_false]
    cases moment.reply with
    | answered => cases op <;> simp [Reply.completion, answered, perform, Breaker.complete]
    | failed applied => cases applied <;> simp [Reply.completion, Limiter.warn, Breaker.complete]
    | poolExhausted => simp [Reply.completion, Limiter.warn, Breaker.complete]

namespace BreakerAux

theorem unavailable_eq (op : LimiterOp) : unavailable R op = byPolicy R op := by
  cases op <;> rfl

/-- The breaker after the past, when the clock reads `now`. -/
structure Matches (past : Past) (now : ℚ) (B : Breaker) : Prop where
  failures : B.consecutiveFailures = past.failuresSinceSuccess
  opened : ∀ t, B.circuitOpenedAt = some t →
    R.circuitBreakerFailures ≤ past.failuresSinceSuccess ∧ past.latestFailure = some t
  closed : B.circuitOpenedAt = none → R.circuitBreakerFailures ≤ past.failuresSinceSuccess →
    ∀ t, past.latestFailure = some t → R.circuitBreakerCooldownSeconds ≤ now - t

variable {R} {past : Past} {now now' : ℚ} {B : Breaker}

/-- A breaker that matches a history still matches it later. -/
theorem Matches.later (h : Matches R past now B) (hnow : now ≤ now') : Matches R past now' B :=
  ⟨h.failures, h.opened, fun hnone hfail t ht => (h.closed hnone hfail t ht).trans (sub_le_sub_right hnow t)⟩

/-- The past after an event that is neither a success nor a failure. -/
theorem Matches.quiet (h : Matches R past now B) {e : ℚ × Event} (hs : e.2.isSuccess = false) (hf : e.2.isFailure = false) :
    Matches R (e :: past) now B := by
  have hfailures : Past.failuresSinceSuccess (e :: past) = past.failuresSinceSuccess := by
    simp [Past.failuresSinceSuccess, hs, hf]
  have hlatest : Past.latestFailure (e :: past) = past.latestFailure := by
    simp [Past.latestFailure, hf]
  refine ⟨?_, ?_, ?_⟩
  · rw [hfailures]
    exact h.failures
  · rw [hfailures, hlatest]
    exact h.opened
  · rw [hfailures, hlatest]
    exact h.closed

/-- Logging an unavailable limiter leaves the failure count alone. -/
@[simp] theorem logUnavailable_failures (B : Breaker) : B.logUnavailable.2.consecutiveFailures = B.consecutiveFailures := by
  unfold Breaker.logUnavailable
  split
  · rfl
  · split <;> rfl

/-- Logging an unavailable limiter leaves the opening time alone. -/
@[simp] theorem logUnavailable_opened (B : Breaker) : B.logUnavailable.2.circuitOpenedAt = B.circuitOpenedAt := by
  unfold Breaker.logUnavailable
  split
  · rfl
  · split <;> rfl

/-- Only the count of failures and the opening time matter. -/
theorem Matches.congr (h : Matches R past now B) {B' : Breaker} (hf : B'.consecutiveFailures = B.consecutiveFailures)
    (ho : B'.circuitOpenedAt = B.circuitOpenedAt) : Matches R past now B' :=
  ⟨hf.trans h.failures, fun t ht => h.opened t (ho.symm.trans ht), fun hnone => h.closed (ho.symm.trans hnone)⟩

/-- A start skips the server as the closed form says. -/
theorem start_spec (h : Matches R past now B) :
    ((B.start R now).1 = true ↔ Skips R past now) ∧ Matches R past now (B.start R now).2 := by
  unfold Breaker.start Breaker.circuitIsOpen
  cases hopened : B.circuitOpenedAt with
  | none =>
    refine ⟨?_, h⟩
    simp only [Bool.false_eq_true, ite_false, false_iff]
    rintro ⟨hfail, t, ht, hlt⟩
    exact absurd hlt (not_lt.2 (h.closed hopened hfail t ht))
  | some openedAt =>
    obtain ⟨hfail, hlatest⟩ := h.opened openedAt hopened
    by_cases hlt : now - openedAt < R.circuitBreakerCooldownSeconds
    · simp only [hlt, ite_true, true_iff]
      exact ⟨⟨hfail, openedAt, hlatest, hlt⟩, h.congr (by simp) (by simp)⟩
    · simp only [hlt, ite_false, Bool.false_eq_true, false_iff]
      refine ⟨?_, h.failures, nofun, fun _ _ t ht => ?_⟩
      · rintro ⟨-, t, ht, hcool⟩
        rw [hlatest] at ht
        exact hlt (Option.some.inj ht ▸ hcool)
      · rw [hlatest] at ht
        exact Option.some.inj ht ▸ not_lt.1 hlt

/-- A reply resets the breaker, as the history with that reply prescribes. -/
theorem success_spec (hR : 1 ≤ R.circuitBreakerFailures) (id : Nat) (result : Bool) :
    Matches R ((now, .complete id (.success result)) :: past) now (B.complete R now (.success result)) := by
  have hzero : Past.failuresSinceSuccess ((now, .complete id (.success result)) :: past) = 0 := by
    simp [Past.failuresSinceSuccess, Event.isSuccess]
  refine ⟨hzero.symm, nofun, fun _ hfail => ?_⟩
  rw [hzero] at hfail
  exact absurd (hR.trans hfail) (by decide)

/-- A failure adds one to the consecutive failures. -/
theorem markFailure_failures : (B.markFailure R now).2.consecutiveFailures = B.consecutiveFailures + 1 := by
  rw [Breaker.markFailure, logUnavailable_failures]
  split <;> rfl

/-- A failure opens the circuit now once the count reaches the threshold. -/
theorem markFailure_opened : (B.markFailure R now).2.circuitOpenedAt =
    if R.circuitBreakerFailures ≤ (B.consecutiveFailures + 1 : Nat) then some now else B.circuitOpenedAt := by
  rw [Breaker.markFailure, logUnavailable_opened]
  split <;> rfl

/-- A failure moves the breaker as the history with that failure prescribes. -/
theorem failure_spec (h : Matches R past now B) (id : Nat) :
    Matches R ((now, .complete id .failure) :: past) now (B.complete R now .failure) := by
  have hcount : Past.failuresSinceSuccess ((now, .complete id .failure) :: past) = B.consecutiveFailures + 1 := by
    rw [h.failures]
    simp [Past.failuresSinceSuccess, Event.isSuccess, Event.isFailure]
  have hlatest : Past.latestFailure ((now, .complete id .failure) :: past) = some now := by
    simp [Past.latestFailure, Event.isFailure]
  refine ⟨by rw [hcount]; exact markFailure_failures, fun t ht => ?_, fun hnone hfail => ?_⟩
  · rw [Breaker.complete, markFailure_opened] at ht
    rw [hcount, hlatest]
    split at ht
    · rename_i hfail
      exact ⟨hfail, ht⟩
    · rename_i hfail
      have hmore := (h.opened t ht).1
      rw [← h.failures] at hmore
      exact absurd (hmore.trans (by push_cast; omega)) hfail
  · rw [Breaker.complete, markFailure_opened] at hnone
    rw [hcount] at hfail
    rw [if_pos hfail] at hnone
    cases hnone

/-- An exhausted pool counts neither as a reply nor as a failure. -/
theorem poolExhausted_spec (h : Matches R past now B) (id : Nat) :
    Matches R ((now, .complete id .poolExhausted) :: past) now (B.complete R now .poolExhausted) := by
  have hlog : (B.logPoolExhaustion now).2.consecutiveFailures = B.consecutiveFailures ∧
      (B.logPoolExhaustion now).2.circuitOpenedAt = B.circuitOpenedAt := by
    unfold Breaker.logPoolExhaustion
    split <;> exact ⟨rfl, rfl⟩
  exact (h.quiet rfl rfl).congr hlog.1 hlog.2

/-- Every event keeps the breaker matched with the past. -/
theorem react_spec (hR : 1 ≤ R.circuitBreakerFailures) {T T' : Traffic} {event : Event} {reaction : Reaction}
    (h : Matches R past now T.breaker) (hr : react R now event T = some (reaction, T')) :
    Matches R ((now, event) :: past) now T'.breaker := by
  cases event with
  | start op =>
    have hstart := (start_spec h).2
    simp only [react] at hr
    split at hr
    · obtain ⟨-, rfl⟩ := Prod.mk.inj (Option.some.inj hr)
      exact hstart.quiet rfl rfl
    · obtain ⟨-, rfl⟩ := Prod.mk.inj (Option.some.inj hr)
      exact hstart.quiet rfl rfl
  | complete id completion =>
    obtain ⟨op, -, hop⟩ := Option.map_eq_some_iff.1 hr
    obtain ⟨-, rfl⟩ := Prod.mk.inj hop
    cases completion with
    | success result => exact success_spec hR id result
    | failure => exact failure_spec h id
    | poolExhausted => exact poolExhausted_spec h id

/-- A run and the reactions to it. -/
theorem reactions_cons {events : List (ℚ × Event)} {e : ℚ × Event} {T T' : Traffic} {rs : List Reaction}
    (h : reactions R (e :: events) T = some (rs, T')) : ∃ reaction T1 rest, react R e.1 e.2 T = some (reaction, T1) ∧
      reactions R events T1 = some (rest, T') ∧ rs = reaction :: rest := by
  obtain ⟨⟨reaction, T1⟩, hreact, hmap⟩ := Option.bind_eq_some_iff.1 h
  obtain ⟨⟨rest, T2⟩, hrest, heq⟩ := Option.map_eq_some_iff.1 hmap
  obtain ⟨rfl, rfl⟩ := Prod.mk.inj heq
  exact ⟨reaction, T1, rest, hreact, hrest, rfl⟩

/-- The reactions to two runs of events in a row split where the first run ends. -/
theorem reactions_append {earlier later : List (ℚ × Event)} {T T' : Traffic} {rs : List Reaction}
    (h : reactions R (earlier ++ later) T = some (rs, T')) : ∃ rs1 T1 rs2, reactions R earlier T = some (rs1, T1) ∧
      reactions R later T1 = some (rs2, T') ∧ rs = rs1 ++ rs2 ∧ rs1.length = earlier.length := by
  induction earlier generalizing T rs with
  | nil => exact ⟨[], T, rs, rfl, h, rfl, rfl⟩
  | cons e earlier ih =>
    obtain ⟨reaction, T1, rest, hreact, hrest, rfl⟩ := reactions_cons h
    obtain ⟨rs1, T2, rs2, h1, h2, rfl, hlen⟩ := ih hrest
    refine ⟨reaction :: rs1, T2, rs2, ?_, h2, rfl, congrArg Nat.succ hlen⟩
    simp [reactions, hreact, h1]

/-- Two runs of events in a row react as the one run of both. -/
theorem reactions_join {earlier later : List (ℚ × Event)} {T T1 T' : Traffic} {rs1 rs2 : List Reaction}
    (h1 : reactions R earlier T = some (rs1, T1)) (h2 : reactions R later T1 = some (rs2, T')) :
    reactions R (earlier ++ later) T = some (rs1 ++ rs2, T') := by
  induction earlier generalizing T rs1 with
  | nil =>
    obtain ⟨rfl, rfl⟩ := Prod.mk.inj (Option.some.inj h1)
    exact h2
  | cons e earlier ih =>
    obtain ⟨reaction, T2, rest, hreact, hrest, rfl⟩ := reactions_cons h1
    simp [reactions, hreact, ih hrest]

/-- After a run the breaker matches the events of the run. -/
theorem reactions_spec (hR : 1 ≤ R.circuitBreakerFailures) {events : List (ℚ × Event)} {T T' : Traffic} {rs : List Reaction}
    (hclock : (events.map Prod.fst).Pairwise (· ≤ ·)) (hlast : ∀ e ∈ events, now ≤ e.1) (h : Matches R past now T.breaker)
    (hrun : reactions R events T = some (rs, T')) (hnow : now ≤ now') (hend : ∀ e ∈ events, e.1 ≤ now') :
    Matches R (events.reverse ++ past) now' T'.breaker := by
  induction events generalizing past now T rs with
  | nil =>
    obtain ⟨-, rfl⟩ := Prod.mk.inj (Option.some.inj hrun)
    exact h.later hnow
  | cons e events ih =>
    obtain ⟨reaction, T1, rest, hreact, hrest, -⟩ := reactions_cons hrun
    rw [List.map_cons, List.pairwise_cons] at hclock
    have hstep := react_spec hR (h.later (hlast e List.mem_cons_self)) hreact
    have hrec := ih hclock.2 (fun e' he' => hclock.1 e'.1 (List.mem_map_of_mem he')) hstep hrest
      (hend e List.mem_cons_self) fun e' he' => hend e' (List.mem_cons_of_mem _ he')
    simpa using hrec

/-! ## Operations in flight -/

/-- An operation in flight has started, under its number. -/
def Numbered (events : List (ℚ × Event)) (T : Traffic) : Prop :=
  T.started = (startedOps events).length ∧ ∀ (id : Nat) (op : LimiterOp), T.inFlight id = some op → (startedOps events)[id]? = some op

/-- One event keeps the started calls numbered by their position. -/
theorem Numbered.react {events : List (ℚ × Event)} {T T' : Traffic} {event : Event} {reaction : Reaction}
    (h : Numbered events T) (hr : react R now event T = some (reaction, T')) : Numbered (events ++ [(now, event)]) T' := by
  obtain ⟨hlen, hops⟩ := h
  cases event with
  | start op =>
    have hstarted : startedOps (events ++ [(now, .start op)]) = startedOps events ++ [op] := by simp [startedOps]
    have hold : ∀ (id : Nat) (op' : LimiterOp), (startedOps events)[id]? = some op' → (startedOps events ++ [op])[id]? = some op' := by
      intro id op' hid
      rw [List.getElem?_append_left (List.getElem?_eq_some_iff.1 hid).1]
      exact hid
    rw [Numbered, hstarted]
    simp only [Redis.react] at hr
    split at hr
    · obtain ⟨-, rfl⟩ := Prod.mk.inj (Option.some.inj hr)
      exact ⟨by simp [hlen], fun id op' hid => hold id op' (hops id op' hid)⟩
    · obtain ⟨-, rfl⟩ := Prod.mk.inj (Option.some.inj hr)
      refine ⟨by simp [hlen], fun id op' hid => ?_⟩
      by_cases hnew : id = T.started
      · subst hnew
        simp only [Function.update_self] at hid
        rw [hlen, List.getElem?_concat_length, hid]
      · simp only [Function.update_of_ne hnew] at hid
        exact hold id op' (hops id op' hid)
  | complete id completion =>
    have hstarted : startedOps (events ++ [(now, .complete id completion)]) = startedOps events := by simp [startedOps]
    rw [Numbered, hstarted]
    obtain ⟨op, -, hop⟩ := Option.map_eq_some_iff.1 hr
    obtain ⟨-, rfl⟩ := Prod.mk.inj hop
    refine ⟨hlen, fun j op' hj => hops j op' ?_⟩
    by_cases hid : j = id
    · subst hid
      simp at hj
    · simpa only [Function.update_of_ne hid] using hj

/-- Any run of events keeps the started calls numbered by their position. -/
theorem Numbered.reactions {earlier events : List (ℚ × Event)} {T T' : Traffic} {rs : List Reaction}
    (h : Numbered earlier T) (hr : reactions R events T = some (rs, T')) : Numbered (earlier ++ events) T' := by
  induction events generalizing earlier T rs with
  | nil =>
    obtain ⟨-, rfl⟩ := Prod.mk.inj (Option.some.inj hr)
    simpa using h
  | cons e events ih =>
    obtain ⟨reaction, T1, rest, hreact, hrest, -⟩ := reactions_cons hr
    simpa using ih (h.react hreact) hrest

theorem numbered_new : Numbered [] Traffic.new := ⟨rfl, nofun⟩

/-! ## Exhausted pools -/

/-- The breaker without the time of its last log line about an exhausted pool. -/
def core (B : Breaker) : Breaker := { B with poolExhaustionWarningLoggedAt := none }

/-- Whether a call is let through depends on the core of the breaker only. -/
theorem core_start {B B' : Breaker} (h : core B = core B') :
    (B.start R now).1 = (B'.start R now).1 ∧ core (B.start R now).2 = core (B'.start R now).2 := by
  obtain ⟨n, opened, logged, p⟩ := B
  obtain ⟨n', opened', logged', p'⟩ := B'
  simp only [core, Breaker.mk.injEq] at h
  obtain ⟨rfl, rfl, rfl, -⟩ := h
  unfold Breaker.start Breaker.circuitIsOpen Breaker.logUnavailable
  cases opened with
  | none => exact ⟨rfl, rfl⟩
  | some openedAt =>
    by_cases hlt : now - openedAt < R.circuitBreakerCooldownSeconds
    · cases logged <;> simp [hlt, core]
    · simp [hlt, core]

/-- A completion changes the core as a function of the core alone. -/
theorem core_complete {B B' : Breaker} (h : core B = core B') (completion : Completion) :
    core (B.complete R now completion) = core (B'.complete R now completion) := by
  obtain ⟨n, opened, logged, p⟩ := B
  obtain ⟨n', opened', logged', p'⟩ := B'
  simp only [core, Breaker.mk.injEq] at h
  obtain ⟨rfl, rfl, rfl, -⟩ := h
  cases completion with
  | success result => rfl
  | failure =>
    simp only [Breaker.complete, Breaker.markFailure]
    by_cases hfail : R.circuitBreakerFailures ≤ (n + 1 : Nat)
    · rw [if_pos hfail, if_pos hfail]
      rfl
    · rw [if_neg hfail, if_neg hfail]
      cases opened <;> cases logged <;> rfl
  | poolExhausted =>
    simp only [Breaker.complete, Breaker.logPoolExhaustion, core]
    split <;> split <;> rfl

/-- An exhausted pool leaves the core of the breaker as it was. -/
theorem core_poolExhausted (B : Breaker) : core (B.complete R now .poolExhausted) = core B := by
  simp only [Breaker.complete, Breaker.logPoolExhaustion, core]
  split <;> rfl

/-- The second run has not seen the reply to operation `id`. -/
structure Waits (id : Nat) (T T' : Traffic) : Prop where
  breaker : core T.breaker = core T'.breaker
  started : T'.started = T.started
  before : id < T.started
  done : T.inFlight id = none
  inFlight : ∀ j, j ≠ id → T'.inFlight j = T.inFlight j

/-- A call that is still waiting changes no reaction to the events of the others. -/
theorem Waits.react {id : Nat} {T T' T1 : Traffic} {event : Event} {reaction : Reaction} (h : Waits id T T')
    (hr : react R now event T = some (reaction, T1)) :
    ∃ T1', Redis.react R now event T' = some (reaction, T1') ∧ Waits id T1 T1' := by
  cases event with
  | start op =>
    obtain ⟨hskip, hcore⟩ : (T.breaker.start R now).1 = (T'.breaker.start R now).1 ∧
        core (T.breaker.start R now).2 = core (T'.breaker.start R now).2 := core_start h.breaker
    simp only [Redis.react] at hr ⊢
    rw [← hskip]
    split at hr
    · rename_i hyes
      obtain ⟨rfl, rfl⟩ := Prod.mk.inj (Option.some.inj hr)
      rw [if_pos hyes]
      exact ⟨_, rfl, hcore, congrArg Nat.succ h.started, Nat.lt_succ_of_lt h.before, h.done, h.inFlight⟩
    · rename_i hno
      obtain ⟨rfl, rfl⟩ := Prod.mk.inj (Option.some.inj hr)
      rw [if_neg hno]
      refine ⟨_, rfl, hcore, congrArg Nat.succ h.started, Nat.lt_succ_of_lt h.before, ?_, fun j hj => ?_⟩
      · simp only [Function.update_of_ne (Nat.ne_of_lt h.before)]
        exact h.done
      · simp only [h.started]
        by_cases hnew : j = T.started
        · subst hnew
          simp only [Function.update_self]
        · simp only [Function.update_of_ne hnew]
          exact h.inFlight j hj
  | complete j completion =>
    obtain ⟨op, hop, heq⟩ := Option.map_eq_some_iff.1 hr
    obtain ⟨rfl, rfl⟩ := Prod.mk.inj heq
    have hj : j ≠ id := by
      rintro rfl
      rw [h.done] at hop
      cases hop
    refine ⟨_, Option.map_eq_some_iff.2 ⟨op, (h.inFlight j hj).trans hop, rfl⟩, core_complete h.breaker completion, h.started,
      h.before, ?_, fun k hk => ?_⟩
    · simp only [Function.update_of_ne (Ne.symm hj)]
      exact h.done
    · by_cases hkj : k = j
      · subst hkj
        simp only [Function.update_self]
      · simp only [Function.update_of_ne hkj]
        exact h.inFlight k hk

/-- A call that is still waiting changes no reaction through a whole run. -/
theorem Waits.reactions {id : Nat} {events : List (ℚ × Event)} {T T' T1 : Traffic} {rs : List Reaction} (h : Waits id T T')
    (hr : reactions R events T = some (rs, T1)) :
    ∃ T1', Redis.reactions R events T' = some (rs, T1') := by
  induction events generalizing T T' rs with
  | nil =>
    obtain ⟨rfl, -⟩ := Prod.mk.inj (Option.some.inj hr)
    exact ⟨T', rfl⟩
  | cons e events ih =>
    obtain ⟨reaction, T2, rest, hreact, hrest, rfl⟩ := reactions_cons hr
    obtain ⟨T2', hreact', hwaits⟩ := h.react hreact
    obtain ⟨T1', hrest'⟩ := ih hwaits hrest
    exact ⟨T1', by simp [Redis.reactions, hreact', hrest']⟩

/-- A new breaker matches the empty history. -/
theorem matches_new : Matches R [] now Traffic.new.breaker :=
  ⟨rfl, nofun, nofun⟩

end BreakerAux

open BreakerAux

/-- Whatever operations overlap: an operation skips the server exactly when the failures since the last success reach the
threshold and the latest of them is within the cooldown. A check without an answer from the server answers by the policy, a
record returns, and an exhausted pool changes nothing that comes later. -/
theorem breaker_closed_form (hR : 1 ≤ R.circuitBreakerFailures) (events : List (ℚ × Event))
    (hclock : (events.map Prod.fst).Pairwise (· ≤ ·)) {rs : List Reaction} {T : Traffic}
    (hrun : reactions R events Traffic.new = some (rs, T)) {earlier later : List (ℚ × Event)} {now : ℚ} {event : Event}
    (hevent : events = earlier ++ (now, event) :: later) :
    (∀ op, event = .start op →
      rs[earlier.length]? = some (if Skips R earlier.reverse now then .skipped (byPolicy R op) else .sent)) ∧
    (∀ id, event = .complete id .failure ∨ event = .complete id .poolExhausted →
      ∃ op, (startedOps earlier)[id]? = some op ∧ rs[earlier.length]? = some (.returned (byPolicy R op))) ∧
    (∀ id, event = .complete id .poolExhausted →
      ∃ T', reactions R (earlier ++ later) Traffic.new = some (rs.eraseIdx earlier.length, T')) := by
  subst hevent
  obtain ⟨rs1, T1, rs2, hearlier, hrest, rfl, hlen⟩ := reactions_append hrun
  obtain ⟨reaction, T2, rest, hreact, hlater, rfl⟩ := reactions_cons hrest
  have hat : (rs1 ++ reaction :: rest)[earlier.length]? = some reaction := by
    rw [← hlen, List.getElem?_append_right (le_refl _)]
    simp
  have hnumbered := numbered_new.reactions hearlier
  rw [List.nil_append] at hnumbered
  refine ⟨?_, ?_, ?_⟩
  · rintro op rfl
    rw [hat]
    rw [List.map_append, List.pairwise_append] at hclock
    have hbefore : ∀ e ∈ earlier, e.1 ≤ now :=
      fun e he => hclock.2.2 e.1 (List.mem_map_of_mem he) now (by simp)
    -- the clock of a new breaker may be taken to read the first of the times
    have hmatches : Matches R earlier.reverse now T1.breaker := by
      have hfirst : ∀ t, (∀ e ∈ earlier, t ≤ e.1) → t ≤ now → Matches R earlier.reverse now T1.breaker := by
        intro t ht hnow
        have hnew : Matches R [] t Traffic.new.breaker := matches_new
        simpa using reactions_spec hR hclock.1 ht hnew hearlier hnow hbefore
      cases earlier with
      | nil => exact hfirst now nofun (le_refl _)
      | cons e es =>
        refine hfirst e.1 (fun e' he' => ?_) (hbefore e List.mem_cons_self)
        rcases List.mem_cons.1 he' with rfl | he'
        · exact le_refl _
        · exact (List.pairwise_cons.1 hclock.1).1 e'.1 (List.mem_map_of_mem he')
    have hskip := (start_spec hmatches).1
    simp only [react] at hreact
    split at hreact
    · rename_i hyes
      obtain ⟨rfl, -⟩ := Prod.mk.inj (Option.some.inj hreact)
      rw [if_pos (hskip.1 hyes), unavailable_eq]
    · rename_i hno
      obtain ⟨rfl, -⟩ := Prod.mk.inj (Option.some.inj hreact)
      rw [if_neg fun hs => hno (hskip.2 hs)]
  · intro id hcompletion
    rw [hat]
    rcases hcompletion with rfl | rfl
    all_goals
      obtain ⟨op, hop, heq⟩ := Option.map_eq_some_iff.1 hreact
      obtain ⟨rfl, -⟩ := Prod.mk.inj heq
      exact ⟨op, hnumbered.2 id op hop, by rw [← unavailable_eq]⟩
  · rintro id rfl
    obtain ⟨op, hop, heq⟩ := Option.map_eq_some_iff.1 hreact
    obtain ⟨-, rfl⟩ := Prod.mk.inj heq
    have hwaits : Waits id { T1 with
        breaker := T1.breaker.complete R now .poolExhausted, inFlight := Function.update T1.inFlight id none } T1 := by
      refine ⟨core_poolExhausted (R := R) _, rfl, ?_, by simp, fun j hj => by simp [Function.update_of_ne hj]⟩
      have hid := (List.getElem?_eq_some_iff.1 (hnumbered.2 id op hop)).1
      rwa [← hnumbered.1] at hid
    obtain ⟨T', hT'⟩ := hwaits.reactions hlater
    refine ⟨T', ?_⟩
    rw [← hlen, List.eraseIdx_append_of_length_le (le_refl _)]
    simp only [Nat.sub_self, List.eraseIdx_zero, List.tail_cons]
    exact reactions_join hearlier hT'

namespace LateReply

/-- Two failures open the circuit for ten seconds. -/
def config : Config where
  keyPrefix := "auth_rate_limit".toList
  failOpen := true
  circuitBreakerFailures := 2
  circuitBreakerCooldownSeconds := 10
  sha256 := id
  sha256_injective := readable_injective
  formatTime _ := []
  tokenHex n := List.replicate n '0'
  tokenHex_injective := zeros_injective
  tokenHex_hex := colon_not_mem_zeros

def check : LimiterOp := .isRegistrationAllowed "10.0.0.1".toList

/-- Three operations overlap, the first two fail, and the pool is exhausted for the third. -/
def before : List (ℚ × Event) :=
  [(0, .start check), (0, .start check), (1, .start check), (2, .complete 0 .failure), (3, .complete 2 .poolExhausted),
    (4, .complete 1 .failure)]

end LateReply

open LateReply in
/-- The failure of a call that was started before the circuit opened opens it once more, so the call at 13 s is skipped. -/
theorem breaker_closed_form_late_failure :
    ∃ rs T, reactions config (before ++ [(13, .start check)]) Traffic.new = some (rs, T) ∧
      rs[6]? = some (.skipped (some true)) := by
  obtain ⟨⟨rs, T⟩, hrun⟩ := Option.isSome_iff_exists.1
    (show (reactions config (before ++ [(13, .start check)]) Traffic.new).isSome = true by decide +kernel)
  have hclock : ((before ++ [(13, Event.start check)]).map Prod.fst).Pairwise (· ≤ ·) := by decide +kernel
  have hskips : Skips config before.reverse 13 := by decide +kernel
  refine ⟨rs, T, hrun, ?_⟩
  have hstart := (breaker_closed_form config (by decide) _ hclock hrun rfl).1 check rfl
  rw [if_pos hskips] at hstart
  exact hstart

end Redis

end AuthService
