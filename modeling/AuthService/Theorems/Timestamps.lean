import AuthService.SampleItems
import AuthService.SqlalchemyTypes
import AuthService.Tables

/-!
# Timestamps are rounded down

A datetime that goes through a column comes back as the whole millisecond at or before it. The column keeps the order, and
comparing a stored expiry with the time that is bound is comparing it with the exact time.
-/

namespace AuthService

open UnixTimestampMillis

/-- A datetime of an instant is bound to `m`. -/
structure Bound (d : PyDateTime) (t : DateTime) (m : Int) : Prop where
  instant : d.instant = some t
  bind : UnixTimestampMillis.processBindParam (some d) = .ok (some m)

/-- The column value `m` is read as a datetime of the instant `t`. -/
def ReadAs (m : Int) (t : DateTime) : Prop := ∃ d, processResultValue (some m) = .ok (some d) ∧ d.instant = some t

/-- The rows of `find_active_session_by_token_hash`. -/
def activeSessions (Γ : Ctx) (S : Store) (tokenHash : Text) (now : DateTime) : List AuthSession :=
  (Query.activeSession tokenHash now).answer Γ S

namespace TimestampsAux

/-! ### Milliseconds -/

theorem lt_millisecond_iff (t m : Int) : t < m * 1000 ↔ t / 1000 * 1000 < m * 1000 := by omega

theorem millisecond_spec (t : Int) : t / 1000 * 1000 ≤ t ∧ t < (t / 1000 + 1) * 1000 := by omega

/-! ### The column -/

/-- Floor division by a millisecond is that of the microseconds. -/
theorem floorDiv_millisecond (us : Int) : (TimeDelta.ofMicroseconds us).floorDiv (.ofMicroseconds 1000) = us / 1000 := by
  rw [TimeDelta.floorDiv, TimeDelta.inMicroseconds_ofMicroseconds, TimeDelta.inMicroseconds_ofMicroseconds]
  exact Int.fdiv_eq_ediv_of_nonneg us (by decide)

/-- What an aware datetime is bound to. -/
theorem processBindParam_eq {d : PyDateTime} {t : DateTime} (h : d.instant = some t) :
    UnixTimestampMillis.processBindParam (some d) =
      if Representable t then .ok (some (t / 1000)) else .error .overflowError := by
  obtain ⟨wall, offset⟩ := d
  cases offset with
  | none => cases h
  | some utcoffset =>
    obtain rfl : wall - utcoffset = t := Option.some.inj h
    simp only [UnixTimestampMillis.processBindParam, astimezoneUtc]
    split
    · have hepoch : (utc (wall - utcoffset)).wall - epoch.wall = wall - utcoffset := Int.sub_zero _
      simp only [sub, hepoch, floorDiv_millisecond, bind, Except.bind, pure, Except.pure]
    · rfl

/-- A time is stored exactly when it is representable, as its whole milliseconds. -/
theorem bound_iff {d : PyDateTime} {t : DateTime} {m : Int} (h : d.instant = some t) :
    Bound d t m ↔ Representable t ∧ m = t / 1000 := by
  constructor
  · rintro ⟨-, hbind⟩
    rw [processBindParam_eq h] at hbind
    split at hbind
    · rename_i hrep
      exact ⟨hrep, (Option.some.inj (Except.ok.inj hbind)).symm⟩
    · cases hbind
  · rintro ⟨hrep, rfl⟩
    exact ⟨h, by rw [processBindParam_eq h, if_pos hrep]⟩

/-- What a column value is read as. -/
theorem processResultValue_eq (m : Int) : processResultValue (some m) =
    if Representable (m * 1000) then .ok (some (utc (m * 1000))) else .error .overflowError := by
  have hepoch : epoch.wall + m * 1000 = m * 1000 := Int.zero_add _
  simp only [processResultValue, TimeDelta.ofMilliseconds]
  split
  · simp only [add, TimeDelta.inMicroseconds_ofMicroseconds, hepoch, bind, Except.bind]
    by_cases hrep : Representable (m * 1000)
    · rw [if_pos hrep, if_pos hrep]
      rfl
    · rw [if_neg hrep, if_neg hrep]
  · rename_i hdays
    rw [if_neg]
    · rfl
    · intro hrep
      refine hdays ?_
      unfold Representable datetimeMin datetimeMax seconds at hrep
      simp only [TimeDelta.ofMicroseconds]
      omega

theorem instant_utc (t : DateTime) : (utc t).instant = some t := congrArg some (Int.sub_zero t)

/-- Stored milliseconds are read back exactly when they are representable. -/
theorem readAs_iff {m : Int} {t : DateTime} : ReadAs m t ↔ Representable (m * 1000) ∧ t = m * 1000 := by
  constructor
  · rintro ⟨d, hd, ht⟩
    rw [processResultValue_eq] at hd
    split at hd
    · rename_i hrep
      rw [← Option.some.inj (Except.ok.inj hd), instant_utc] at ht
      exact ⟨hrep, (Option.some.inj ht).symm⟩
    · cases hd
  · rintro ⟨hrep, rfl⟩
    exact ⟨_, by rw [processResultValue_eq, if_pos hrep], instant_utc _⟩

/-- The lookup of active sessions compares with the time rounded down. -/
theorem isActive_iff {s : AuthSession} {tokenHash : Text} {now : DateTime} {m : Int} (h : s.expiresAt = m * 1000) :
    s.isActive tokenHash now = true ↔ s.sessionTokenHash = tokenHash ∧ s.revokedAt = none ∧ now < s.expiresAt := by
  have hlt : toMillis now < s.expiresAt ↔ now < s.expiresAt := by
    rw [h]
    exact (lt_millisecond_iff now m).symm
  simp only [AuthSession.isActive, Bool.and_eq_true, decide_eq_true_eq, Option.isNone_iff_eq_none, hlt, and_assoc]

end TimestampsAux

open TimestampsAux

/-- The value of a timestamp in a row is what the column is read as after the binding. -/
theorem row_value_iff {d : PyDateTime} {t : DateTime} :
    AuthService.processBindParam d = .ok t ↔ ∃ u m, Bound d u m ∧ ReadAs m t := by
  obtain ⟨wall, offset⟩ := d
  cases offset with
  | none => exact ⟨nofun, fun ⟨_, _, hbound, _⟩ => nomatch hbound.instant⟩
  | some utcoffset =>
    have hinstant : (⟨wall, some utcoffset⟩ : PyDateTime).instant = some (wall - utcoffset) := rfl
    constructor
    · intro h
      simp only [AuthService.processBindParam] at h
      split at h
      · rename_i hrep
        obtain rfl := Except.ok.inj h
        exact ⟨_, _, (bound_iff hinstant).2 ⟨hrep, rfl⟩, readAs_iff.2 ⟨representable_toMillis hrep, rfl⟩⟩
      · cases h
    · rintro ⟨u, m, hbound, hread⟩
      obtain rfl : wall - utcoffset = u := Option.some.inj hbound.instant
      obtain ⟨hrep, rfl⟩ := (bound_iff hinstant).1 hbound
      rw [(readAs_iff.1 hread).2]
      exact if_pos hrep

/-- A column rounds instants down to milliseconds. A datetime comes back as the millisecond at or before it, a value of the column
comes back as it was, and the order is kept: only instants of one millisecond become equal. A session that expires at what the
column kept is found at exactly the times before that. -/
theorem timestamps_rounded_down :
    (∀ d t, d.instant = some t → Representable t →
      ∃ m t', Bound d t m ∧ ReadAs m t' ∧ 1000 ∣ t' ∧ t' ≤ t ∧ t < t' + 1000) ∧
    (∀ m, Representable (m * 1000) →
      ∃ d, processResultValue (some m) = .ok (some d) ∧ UnixTimestampMillis.processBindParam (some d) = .ok (some m)) ∧
    (∀ d t m d' t' m', Bound d t m → Bound d' t' m' → t ≤ t' → m ≤ m') ∧
    (∀ d t m d' t' m', Bound d t m → Bound d' t' m' → t < t' → m = m' → ∃ k, ∀ u ∈ [t, t'], k * 1000 ≤ u ∧ u < (k + 1) * 1000) ∧
    (∀ expiry e m now t n stored, Bound expiry e m → Bound now t n → ReadAs m stored → (n < m ↔ t < stored)) ∧
    (∀ (Γ : Ctx) (S : Store) (tokenHash : Text) (now : DateTime), ∀ s ∈ S.sessions, (∃ m, ReadAs m s.expiresAt) →
      (s ∈ activeSessions Γ S tokenHash now ↔
        s.sessionTokenHash = tokenHash ∧ s.revokedAt = none ∧ now < s.expiresAt)) := by
  refine ⟨?_, ?_, ?_, ?_, ?_, ?_⟩
  · intro d t ht hrep
    have hread : ReadAs (t / 1000) (t / 1000 * 1000) := readAs_iff.2 ⟨representable_toMillis hrep, rfl⟩
    obtain ⟨hle, hlt⟩ := millisecond_spec t
    exact ⟨t / 1000, t / 1000 * 1000, (bound_iff ht).2 ⟨hrep, rfl⟩, hread, Int.dvd_mul_left _ _, hle, by linarith⟩
  · intro m hrep
    refine ⟨utc (m * 1000), by rw [processResultValue_eq, if_pos hrep], ?_⟩
    rw [processBindParam_eq (instant_utc _), if_pos hrep, Int.mul_ediv_cancel m (by decide)]
  · intro d t m d' t' m' h h' hle
    obtain ⟨-, rfl⟩ := (bound_iff h.instant).1 h
    obtain ⟨-, rfl⟩ := (bound_iff h'.instant).1 h'
    exact Int.ediv_le_ediv (by decide) hle
  · intro d t m d' t' m' h h' _ heq
    obtain ⟨-, hm⟩ := (bound_iff h.instant).1 h
    obtain ⟨-, hm'⟩ := (bound_iff h'.instant).1 h'
    refine ⟨m, fun u hu => ?_⟩
    rcases List.mem_pair.1 hu with rfl | rfl
    · rw [hm]
      exact millisecond_spec u
    · rw [heq, hm']
      exact millisecond_spec u
  · intro expiry e m now t n stored h h' hread
    obtain ⟨-, rfl⟩ := (bound_iff h'.instant).1 h'
    obtain ⟨-, rfl⟩ := readAs_iff.1 hread
    rw [lt_millisecond_iff]
    exact (Int.mul_lt_mul_right (by decide)).symm
  · rintro Γ S tokenHash now s hs ⟨m, hread⟩
    rw [← isActive_iff (readAs_iff.1 hread).2]
    exact List.mem_filter.trans (and_iff_right hs)

/-- The last microsecond before the epoch, east of Greenwich: the column keeps minus one millisecond. -/
theorem timestamps_rounded_down_before_epoch : ∃ m t', Bound ⟨3599999999, some 3600000000⟩ (-1) m ∧ ReadAs m t' ∧ m = -1 ∧
    t' = -1000 := by
  obtain ⟨m, t', hbound, hread, -⟩ := timestamps_rounded_down.1 ⟨3599999999, some 3600000000⟩ (-1) rfl (by decide)
  obtain ⟨-, hm⟩ := (bound_iff hbound.instant).1 hbound
  obtain ⟨-, ht⟩ := readAs_iff.1 hread
  subst hm
  exact ⟨_, t', hbound, hread, rfl, ht⟩

end AuthService
