import AuthService.Interleavings
import AuthService.Library.History

/-!
# Audit logs of replayed sessions

Calls of `record_rejected_session_replay` for one session run at the same time, alone or inside longer transactions. The rows that
aggregate them are more than a window apart, and none of the calls that got the lock is lost.
-/

namespace AuthService

open ReadCommitted RelyGuarantee

variable {Γ : Ctx} {α β : Type}

/-! ## The aggregated rows -/

/-- The row aggregates replays of the session. -/
def AuthAuditLog.isReplayOf (sessionId : Uuid) (l : AuthAuditLog) : Bool :=
  l.sessionId = some sessionId && l.eventType == .sessionRejected && (match l.detailJson with | some (.replay _) => true | _ => false)

/-- `replay_count`. -/
def AuthAuditLog.replayCount (l : AuthAuditLog) : Nat :=
  match l.detailJson with
  | some (.replay detail) => detail.replayCount
  | _ => 0

/-- The rows that aggregate the replays of a session. -/
def replayRows (sessionId : Uuid) (audits : List AuthAuditLog) : List AuthAuditLog :=
  audits.filter (AuthAuditLog.isReplayOf sessionId)

/-- The sum of their counts. -/
def replayTotal (sessionId : Uuid) (audits : List AuthAuditLog) : Nat :=
  ((replayRows sessionId audits).map AuthAuditLog.replayCount).sum

/-- More than `windowSeconds` between two rows. -/
def FarApart (windowSeconds : Int) (x y : AuthAuditLog) : Prop :=
  x.occurredAt + seconds windowSeconds < y.occurredAt ∨ y.occurredAt + seconds windowSeconds < x.occurredAt

/-- The lock of a session. -/
def replayLock (sessionId : Uuid) : Key :=
  .advisory rejectedSessionReplayLockClassId (rejectedSessionReplayLockObjectId sessionId)

/-! ## Programs that record replays -/

/-- The write leaves the audit logs alone. -/
def Write.Quiet (w : Write) : Prop := ∀ S : Store, (w.apply S).audits = S.audits

/-- What other statements of a transaction may be: they leave the audit logs and the lock alone. -/
def Unrelated (sessionId : Uuid) : Act (database Γ) → Prop
  | .insert w => w.Quiet
  | .finish s _ => ∀ k w, s.change k = some w → w.Quiet
  | .tryLock k => k ≠ replayLock sessionId
  | .begin | .commit | .rollback => False
  | _ => True

/-- The action only reads, or calls the world outside. -/
def Looks : Act (database Γ) → Prop
  | .query _ | .ext _ => True
  | _ => False

/-- The body of a transaction that records replays of the session, among other statements. -/
inductive Inside (sessionId : Uuid) (windowSeconds : Int) : {α : Type} → Service Γ α → Prop
  | unrelated {α : Type} {p : Service Γ α} : p.Emits (Unrelated sessionId) → Inside sessionId windowSeconds p
  | record (session : AuthSession) (ipAddress userAgent : Option Text) (replayedAt : DateTime) : session.id = sessionId →
      Inside sessionId windowSeconds (recordRejectedSessionReplay true session ipAddress userAgent replayedAt windowSeconds)
  | bind {α β : Type} {p : Service Γ α} {f : α → Service Γ β} : Inside sessionId windowSeconds p →
      (∀ a, Inside sessionId windowSeconds (f a)) → Inside sessionId windowSeconds (p >>= f)

/-- A program that records replays of the session, in transactions of their own or in longer ones. -/
inductive Recorder (sessionId : Uuid) (windowSeconds : Int) : {α : Type} → Service Γ α → Prop
  | looks {α : Type} {p : Service Γ α} : p.Emits Looks → Recorder sessionId windowSeconds p
  | record (session : AuthSession) (ipAddress userAgent : Option Text) (replayedAt : DateTime) : session.id = sessionId →
      Recorder sessionId windowSeconds (recordRejectedSessionReplay false session ipAddress userAgent replayedAt windowSeconds)
  | transaction {α : Type} {body : Service Γ α} : Inside sessionId windowSeconds body →
      Recorder sessionId windowSeconds (transaction body)
  | attempt {α : Type} {p : Service Γ α} : Recorder sessionId windowSeconds p → Recorder sessionId windowSeconds p.attempt
  | bind {α β : Type} {p : Service Γ α} {f : α → Service Γ β} : Recorder sessionId windowSeconds p →
      (∀ a, Recorder sessionId windowSeconds (f a)) → Recorder sessionId windowSeconds (p >>= f)

namespace ReplayAux

variable {sessionId : Uuid} {windowSeconds : Int}

/-! ### The rows -/

variable (sessionId windowSeconds) in
/-- The aggregated rows are apart, and their counts add up to `n`. -/
structure Tally (audits : List AuthAuditLog) (n : Nat) : Prop where
  ids : (audits.map AuthAuditLog.id).Nodup
  apart : (replayRows sessionId audits).Pairwise (FarApart windowSeconds)
  total : replayTotal sessionId audits = n

variable {audits : List AuthAuditLog} {n : Nat}

/-- A new row, later than the others by more than the window. -/
theorem Tally.insert (h : Tally sessionId windowSeconds audits n) {l : AuthAuditLog} (hid : ∀ x ∈ audits, x.id ≠ l.id)
    (hreplay : l.isReplayOf sessionId = true) (hcount : l.replayCount = 1)
    (hlate : ∀ x ∈ replayRows sessionId audits, x.occurredAt + seconds windowSeconds < l.occurredAt) :
    Tally sessionId windowSeconds (audits ++ [l]) (n + 1) := by
  have hrows : replayRows sessionId (audits ++ [l]) = replayRows sessionId audits ++ [l] := by
    rw [replayRows, List.filter_append, List.filter_singleton, hreplay]
    rfl
  refine ⟨?_, ?_, ?_⟩
  · rw [List.map_append, List.nodup_append]
    refine ⟨h.ids, List.nodup_singleton _, ?_⟩
    intro a ha b hb
    obtain ⟨x, hx, rfl⟩ := List.mem_map.1 ha
    rw [List.mem_singleton.1 hb]
    exact hid x hx
  · rw [hrows, List.pairwise_append]
    refine ⟨h.apart, List.pairwise_singleton _ _, ?_⟩
    intro x hx y hy
    rw [List.mem_singleton.1 hy]
    exact Or.inl (hlate x hx)
  · rw [replayTotal, hrows, List.map_append, List.sum_append, List.map_singleton, List.sum_singleton, hcount]
    exact congrArg (· + 1) h.total

/-- Raising the count of a replay row keeps it a replay row of its session. -/
theorem isReplayOf_count {l : AuthAuditLog} {detail : ReplayDetail} (h : l.isReplayOf sessionId = true) :
    ({ l with detailJson := some (.replay detail) } : AuthAuditLog).isReplayOf sessionId = true := by
  simp only [AuthAuditLog.isReplayOf, Bool.and_eq_true] at h ⊢
  exact ⟨h.1, trivial⟩

/-- The rows after one of them got a new summary. -/
theorem replayRows_patch (h : (audits.map AuthAuditLog.id).Nodup) {l : AuthAuditLog} (hl : l ∈ replayRows sessionId audits)
    (detail : ReplayDetail) :
    replayRows sessionId ((Write.patchAudit l.id (.replay detail)).apply { Store.empty with audits := audits }).audits =
      (replayRows sessionId audits).map fun x => if x = l then { x with detailJson := some (.replay detail) } else x := by
  obtain ⟨hmem, hreplay⟩ := List.mem_filter.1 hl
  have hsame : ∀ x ∈ audits, decide (x.id = l.id) = decide (x = l) := by
    intro x hx
    exact decide_eq_decide.2 ⟨fun hid => List.inj_on_of_nodup_map h hx hmem hid, fun heq => heq ▸ rfl⟩
  have hmap : (Write.patchAudit l.id (.replay detail)).apply { Store.empty with audits := audits } =
      { Store.empty with audits := audits.map fun x => if x = l then { x with detailJson := some (.replay detail) } else x } := by
    rw [Write.apply, modifyAt]
    congr 1
    refine List.map_congr_left fun x hx => ?_
    simp only [hsame x hx, decide_eq_true_eq]
  rw [hmap, replayRows, replayRows, List.filter_map]
  congr 1
  refine List.filter_congr fun x _ => ?_
  rw [Function.comp_apply]
  split
  · rename_i heq
    rw [heq, hreplay, isReplayOf_count hreplay]
  · rfl

/-- One of the rows counts one more replay. -/
theorem Tally.patch (h : Tally sessionId windowSeconds audits n) {l : AuthAuditLog} (hl : l ∈ replayRows sessionId audits)
    {detail : ReplayDetail} (hcount : detail.replayCount = l.replayCount + 1) :
    Tally sessionId windowSeconds
      ((Write.patchAudit l.id (.replay detail)).apply { Store.empty with audits := audits }).audits (n + 1) := by
  have hrows := replayRows_patch h.ids hl detail
  have hnodup : (replayRows sessionId audits).Nodup := (List.Nodup.of_map _ h.ids).filter _
  refine ⟨?_, ?_, ?_⟩
  · have hids : (((Write.patchAudit l.id (.replay detail)).apply { Store.empty with audits := audits }).audits.map
        AuthAuditLog.id) = audits.map AuthAuditLog.id := by
      rw [Write.apply, modifyAt, List.map_map]
      refine List.map_congr_left fun x _ => ?_
      rw [Function.comp_apply]
      split <;> rfl
    rw [hids]
    exact h.ids
  · rw [hrows, List.pairwise_map]
    refine h.apart.imp ?_
    intro x y hxy
    unfold FarApart at hxy ⊢
    split <;> split <;> exact hxy
  · rw [replayTotal, hrows, List.map_map, ← h.total, replayTotal]
    obtain ⟨before, after, hsplit⟩ := List.append_of_mem hl
    rw [hsplit] at hnodup ⊢
    have hothers : ∀ x ∈ before ++ after, x ≠ l := by
      intro x hx heq
      subst heq
      exact (List.nodup_cons.1 (List.perm_middle.nodup_iff.1 hnodup)).1 hx
    have hsame : ∀ xs : List AuthAuditLog, (∀ x ∈ xs, x ∈ before ++ after) → xs.map (AuthAuditLog.replayCount ∘ fun x =>
        if x = l then { x with detailJson := some (.replay detail) } else x) = xs.map AuthAuditLog.replayCount := by
      intro xs hxs
      refine List.map_congr_left fun x hx => ?_
      rw [Function.comp_apply, if_neg (hothers x (hxs x hx))]
    rw [List.map_append, List.map_cons, hsame before fun x hx => List.mem_append_left _ hx,
      hsame after fun x hx => List.mem_append_right _ hx, List.map_append, List.map_cons, Function.comp_apply, if_pos rfl]
    show (_ ++ detail.replayCount :: _).sum = _
    rw [hcount, List.sum_append, List.sum_cons, List.sum_append, List.sum_cons]
    omega

/-! ### The audit logs of a transaction -/

theorem audits_apply {S S' : Store} (h : S.audits = S'.audits) (w : Write) : (w.apply S).audits = (w.apply S').audits := by
  cases w <;> simp only [Write.apply, h]

/-- What a transaction does to the audit logs depends on the audit logs alone. -/
theorem audits_applyAll {S S' : Store} (h : S.audits = S'.audits) (ws : List Write) :
    (applyAll (D := database Γ) ws S).audits = (applyAll (D := database Γ) ws S').audits := by
  induction ws generalizing S S' with
  | nil => exact h
  | cons w ws ih => exact ih (audits_apply h w)

/-- Quiet statements leave the audit logs as they are. -/
theorem audits_quiet {ws : List Write} (h : ∀ w ∈ ws, w.Quiet) (S : Store) :
    (applyAll (D := database Γ) ws S).audits = S.audits :=
  applyAll_induct (D := database Γ) (P := fun V : Store => V.audits = S.audits) rfl
    fun w hw V hV => (h w hw V).trans hV

/-! ### The contract -/

/-- The database with its record. -/
abbrev Recorded (Γ : Ctx) := Db (database Γ) × List (Event (database Γ))

variable (sessionId) in
/-- The grants of the lock of the session. -/
abbrev granted (s : Recorded Γ) : Grants := grants (D := database Γ) (replayLock sessionId) s.2

variable (sessionId) in
/-- The thread holds the lock of the session. -/
def Holds (i : Nat) (s : Recorded Γ) : Prop := s.1.owner (replayLock sessionId) = some i

variable (sessionId windowSeconds n) in
/-- Without the lock a transaction has no grants, and leaves the audit logs alone. The committed rows count the committed
grants. -/
structure Orderly (s : Recorded Γ) : Prop where
  guarded : Guarded s.1
  idle : ∀ i, ¬ Holds sessionId i s → (granted sessionId s).pending i = 0 ∧ ∀ w ∈ s.1.log i, Write.Quiet w
  tally : Tally sessionId windowSeconds s.1.store.audits (n + (granted sessionId s).committed)

variable (sessionId) in
/-- What a thread relies on: with the lock, the committed audit logs stay. -/
structure Relies (i : Nat) (s s' : Recorded Γ) : Prop where
  log : s'.1.log i = s.1.log i
  holds : Holds sessionId i s' ↔ Holds sessionId i s
  pending : (granted sessionId s').pending i = (granted sessionId s).pending i
  kept : Holds sessionId i s → s'.1.store.audits = s.1.store.audits ∧
    (granted sessionId s').committed = (granted sessionId s).committed

theorem Relies.refl (i : Nat) (s : Recorded Γ) : Relies sessionId i s s := ⟨rfl, Iff.rfl, rfl, fun _ => ⟨rfl, rfl⟩⟩

/-- What a thread relies on lasts through two runs in a row. -/
theorem Relies.trans {i : Nat} {s s' s'' : Recorded Γ} (h : Relies sessionId i s s') (h' : Relies sessionId i s' s'') :
    Relies sessionId i s s'' := by
  refine ⟨h'.log.trans h.log, h'.holds.trans h.holds, h'.pending.trans h.pending, fun hown => ?_⟩
  obtain ⟨haudits, hcommitted⟩ := h.kept hown
  obtain ⟨haudits', hcommitted'⟩ := h'.kept (h.holds.2 hown)
  exact ⟨haudits'.trans haudits, hcommitted'.trans hcommitted⟩

/-- The passing of time breaks nothing a thread relies on. -/
theorem relies_of_drift {i : Nat} {s s' : Recorded Γ} (h : (recorded (database Γ)).drift s s') : Relies sessionId i s s' := by
  obtain ⟨db, past⟩ := s
  obtain ⟨db', past'⟩ := s'
  obtain ⟨⟨m, rfl⟩, hpast⟩ := h
  obtain rfl : past' = past := hpast
  exact ⟨rfl, Iff.rfl, rfl, fun _ => ⟨rfl, rfl⟩⟩

/-- The passing of time keeps the grants and the rows in order. -/
theorem Orderly.drift {s s' : Recorded Γ} (h : Orderly sessionId windowSeconds n s)
    (hdrift : (recorded (database Γ)).drift s s') : Orderly sessionId windowSeconds n s' := by
  obtain ⟨db, past⟩ := s
  obtain ⟨db', past'⟩ := s'
  obtain ⟨⟨m, rfl⟩, hpast⟩ := hdrift
  obtain rfl : past' = past := hpast
  exact ⟨h.guarded, h.idle, h.tally⟩

variable (Γ sessionId windowSeconds n) in
/-- Every action of a thread keeps what the others rely on. -/
def auditing : Contract (recorded (database Γ)) where
  inv := Orderly sessionId windowSeconds n
  rely := Relies sessionId
  guar i s s' := ∀ j, j ≠ i → Relies sessionId j s s'
  rely_refl := Relies.refl
  rely_trans := Relies.trans
  guar_rely hij _ _ hguar := hguar _ hij
  drift_inv := Orderly.drift
  drift_rely _ hdrift := relies_of_drift hdrift

variable {i : Nat}

/-- The audit logs a transaction sees when it does not hold the lock are the committed ones. -/
theorem Orderly.view {s : Recorded Γ} (h : Orderly sessionId windowSeconds n s) (hi : ¬ Holds sessionId i s) :
    (s.1.view i).audits = s.1.store.audits :=
  audits_quiet (h.idle i hi).2 _

/-- What the others rely on, every action keeps. -/
theorem Orderly.guarantees {s s' : Recorded Γ} (h : Orderly sessionId windowSeconds n s) {a : Act (database Γ)}
    {r : Except AuthError (Result (database Γ) a)} (hexec : (recorded (database Γ)).exec i a s r s') {j : Nat} (hj : j ≠ i) :
    Relies sessionId j s s' := by
  obtain ⟨db, past⟩ := s
  obtain ⟨db', past'⟩ := s'
  obtain ⟨heffect, hpast⟩ := hexec
  obtain rfl : past' = past ++ [⟨i, a, r⟩] := hpast
  have hframe := Frame.effect hj h.guarded heffect
  have hpending : (granted sessionId (db', past ++ [⟨i, a, r⟩])).pending j = (granted sessionId (db, past)).pending j := by
    rw [granted, grants_concat]
    exact Grants.after_pending _ _ ⟨i, a, r⟩ hj
  refine ⟨hframe.log, hframe.owner _, hpending, fun hown => ?_⟩
  have hi : ¬ Holds sessionId i (db, past) := by
    intro hmine
    exact hj (Option.some.inj (hown.symm.trans hmine))
  constructor
  · rcases heffect.evolves with ⟨ws, -, hstore, -, -⟩ | ⟨hstore, -, -⟩ | ⟨-, hstore, -, -⟩
    · exact congrArg Store.audits hstore
    · exact congrArg Store.audits hstore
    · exact (congrArg Store.audits hstore).trans (h.view hi)
  · rw [granted, grants_concat]
    exact Grants.after_committed _ _ ⟨i, a, r⟩ (h.idle i hi).1

/-- An action keeps the invariant when it touches the audit logs under the lock only, and commits what is counted. -/
theorem Orderly.step {s s' : Recorded Γ} (h : Orderly sessionId windowSeconds n s) {a : Act (database Γ)}
    {r : Except AuthError (Result (database Γ) a)} (hexec : (recorded (database Γ)).exec i a s r s')
    (hwrites : ∀ ws, Writes i s.1 a ws → Holds sessionId i s ∨ ∀ w ∈ ws, Write.Quiet w)
    (hcommit : a = .commit → Tally sessionId windowSeconds (s.1.view i).audits
      (n + ((granted sessionId s).committed + (granted sessionId s).pending i))) :
    Orderly sessionId windowSeconds n s' := by
  have hothers := fun {j : Nat} (hj : j ≠ i) => h.guarantees hexec hj
  obtain ⟨db, past⟩ := s
  obtain ⟨db', past'⟩ := s'
  obtain ⟨heffect, hpast⟩ := hexec
  obtain rfl : past' = past ++ [⟨i, a, r⟩] := hpast
  have hafter : granted sessionId (db', past ++ [⟨i, a, r⟩]) =
      (granted sessionId (db, past)).after (replayLock sessionId) ⟨i, a, r⟩ := grants_concat _ _ _
  have hmine : ¬ Holds sessionId i (db', past ++ [⟨i, a, r⟩]) →
      (granted sessionId (db', past ++ [⟨i, a, r⟩])).pending i = 0 ∧ ∀ w ∈ db'.log i, Write.Quiet w := by
    intro hnot
    rw [hafter]
    by_cases hb : a.isBracket = false
    · have hnot0 : ¬ Holds sessionId i (db, past) := fun hown => hnot (heffect.owner_inside hb hown)
      obtain ⟨hpending, hquiet⟩ := h.idle i hnot0
      obtain ⟨-, -, ⟨ws, hws, hlog⟩, -⟩ := heffect.inside hb
      constructor
      · by_cases hk : a = .tryLock (replayLock sessionId)
        · subst hk
          cases heffect with
          | locked _ _ => exact absurd (by simp [Holds]) hnot
          | notLocked _ => exact hpending
          | fault _ e => exact hpending
        · rw [Grants.after_inside _ _ _ hb hk]
          exact hpending
      · intro w hw
        rw [hlog, List.mem_append] at hw
        rcases hw with hw | hw
        · exact hquiet w hw
        · exact (hwrites ws hws).resolve_left hnot0 w hw
    · have hended : ∀ {l : List Write}, l = [] → ∀ w ∈ l, w.Quiet := by
        intro l hl w hw
        rw [hl] at hw
        cases hw
      cases heffect with
      | begin => exact ⟨(h.idle i hnot).1, hended (Db.log_begin db)⟩
      | commit => exact ⟨Function.update_self _ _ _, hended (Db.log_commit db)⟩
      | rollback => exact ⟨Function.update_self _ _ _, hended (Db.log_release db)⟩
      | fault _ e =>
        cases a with
        | begin => exact h.idle i hnot
        | commit => exact ⟨Function.update_self _ _ _, hended (Db.log_release db)⟩
        | rollback => exact ⟨Function.update_self _ _ _, hended (Db.log_release db)⟩
        | _ => exact absurd rfl hb
      | _ => exact absurd rfl hb
  refine ⟨h.guarded.effect heffect, fun j hnot => ?_, ?_⟩
  · by_cases hj : j = i
    · subst hj
      exact hmine hnot
    · obtain ⟨hlog, hholds, hpending, -⟩ := hothers hj
      obtain ⟨hzero, hquiet⟩ := h.idle j fun hown => hnot (hholds.2 hown)
      exact ⟨hpending.trans hzero, fun w hw => hquiet w (hlog ▸ hw)⟩
  · show Tally sessionId windowSeconds db'.store.audits _
    rw [hafter]
    by_cases hb : a.isBracket = false
    · rw [(heffect.inside hb).1, Grants.after_open _ _ _ hb]
      exact h.tally
    · cases heffect with
      | begin => exact h.tally
      | commit => exact hcommit rfl
      | rollback => exact h.tally
      | fault _ e =>
        cases a with
        | begin => exact h.tally
        | commit => exact h.tally
        | rollback => exact h.tally
        | _ => exact absurd rfl hb
      | _ => exact absurd rfl hb

/-! ### Assertions -/

variable (sessionId) in
/-- The thread holds the lock, and the audit logs it sees and the number of grants it counts meet a condition. -/
def Held (i : Nat) (φ : List AuthAuditLog → Nat → Prop) (s : Recorded Γ) : Prop :=
  Holds sessionId i s ∧ φ (s.1.view i).audits ((granted sessionId s).committed + (granted sessionId s).pending i)

variable (sessionId windowSeconds n) in
/-- What a transaction with the lock sees is counted. -/
def Neat (i : Nat) (s : Recorded Γ) : Prop :=
  Holds sessionId i s → Tally sessionId windowSeconds (s.1.view i).audits
    (n + ((granted sessionId s).committed + (granted sessionId s).pending i))

variable (sessionId) in
/-- The thread is in no transaction. -/
def Idle (i : Nat) (s : Recorded Γ) : Prop := s.1.log i = [] ∧ ¬ Holds sessionId i s

/-- With the lock, a thread's audit logs and count of grants stay as they are. -/
theorem Relies.view {s s' : Recorded Γ} (h : Relies sessionId i s s') (hi : Holds sessionId i s) :
    (s'.1.view i).audits = (s.1.view i).audits ∧
      (granted sessionId s').committed + (granted sessionId s').pending i =
        (granted sessionId s).committed + (granted sessionId s).pending i := by
  obtain ⟨haudits, hcommitted⟩ := h.kept hi
  refine ⟨?_, by rw [hcommitted, h.pending]⟩
  rw [Db.view, Db.view, h.log]
  exact audits_applyAll haudits _

/-- No other thread changes what a holder of the lock sees. -/
theorem stable_held {φ : List AuthAuditLog → Nat → Prop} :
    Stable (auditing Γ sessionId windowSeconds n) i (Held sessionId i φ) := by
  rintro s s' ⟨hi, hφ⟩ hrely
  obtain ⟨haudits, hcount⟩ := hrely.view hi
  exact ⟨hrely.holds.2 hi, by rw [haudits, hcount]; exact hφ⟩

/-- No other thread makes a holder of the lock miscount. -/
theorem stable_neat : Stable (auditing Γ sessionId windowSeconds n) i (Neat sessionId windowSeconds n i) := by
  intro s s' hneat hrely hi'
  have hi := hrely.holds.1 hi'
  obtain ⟨haudits, hcount⟩ := hrely.view hi
  rw [haudits, hcount]
  exact hneat hi

/-- No other thread puts an idle thread into a transaction. -/
theorem stable_idle : Stable (auditing Γ sessionId windowSeconds n) i (Idle sessionId i) := by
  rintro s s' ⟨hlog, hi⟩ hrely
  exact ⟨hrely.log.trans hlog, fun hi' => hi (hrely.holds.1 hi')⟩

/-- What always holds is stable. -/
theorem stable_true : Stable (auditing Γ sessionId windowSeconds n) i fun _ => True := fun _ _ => trivial

/-- What a transaction sees is counted, with or without the lock. -/
theorem Neat.tally {s : Recorded Γ} (h : Neat sessionId windowSeconds n i s) (hs : Orderly sessionId windowSeconds n s) :
    Tally sessionId windowSeconds (s.1.view i).audits
      (n + ((granted sessionId s).committed + (granted sessionId s).pending i)) := by
  by_cases hi : Holds sessionId i s
  · exact h hi
  · rw [hs.view hi, (hs.idle i hi).1]
    exact hs.tally

/-! ### Actions -/

/-- An action under the lock. -/
theorem leads_held {φ : List AuthAuditLog → Nat → Prop} {a : Act (database Γ)}
    {ψ : Result (database Γ) a → List AuthAuditLog → Nat → Prop} (ha : a.isBracket = false)
    (hk : a ≠ .tryLock (replayLock sessionId))
    (h : ∀ {db db' x m}, Effect i db a (.ok x) db' → φ (db.view i).audits m → ψ x (db'.view i).audits m) :
    Leads (auditing Γ sessionId windowSeconds n) i (Held sessionId i φ) (.perform a) fun x => Held sessionId i (ψ x) := by
  refine leads_perform stable_held (fun _ => stable_held) ?_
  rintro ⟨db, past⟩ r ⟨db', past'⟩ ⟨hi, hφ⟩ hinv hexec
  refine ⟨hinv.step hexec (fun _ _ => Or.inl hi) (fun heq => by rw [heq] at ha; cases ha), fun j hj => hinv.guarantees hexec hj,
    ?_⟩
  rintro x rfl
  obtain ⟨heffect, hpast⟩ := hexec
  obtain rfl : past' = past ++ [⟨i, a, .ok x⟩] := hpast
  refine ⟨heffect.owner_inside ha hi, ?_⟩
  rw [granted, grants_concat, Grants.after_inside _ _ _ ha hk]
  exact h heffect hφ

/-- Actions that have nothing to do with the audit logs. -/
theorem neat_unrelated {a : Act (database Γ)} (ha : Unrelated sessionId a) {s s' : Recorded Γ}
    {r : Except AuthError (Result (database Γ) a)} (hneat : Neat sessionId windowSeconds n i s)
    (hinv : Orderly sessionId windowSeconds n s) (hexec : (recorded (database Γ)).exec i a s r s') :
    Orderly sessionId windowSeconds n s' ∧ (∀ j, j ≠ i → Relies sessionId j s s') ∧ Neat sessionId windowSeconds n i s' := by
  have hb : a.isBracket = false := by
    cases a <;> first | rfl | exact absurd ha id
  have hk : a ≠ .tryLock (replayLock sessionId) := by
    rintro rfl
    exact ha rfl
  have hquiet : ∀ ws, Writes i s.1 a ws → ∀ w ∈ ws, Write.Quiet w := by
    intro ws hws w hw
    cases hws with
    | none _ => cases hw
    | insert w' _ _ =>
      rw [List.mem_singleton.1 hw]
      exact ha
    | finish stmt found _ =>
      obtain ⟨k, -, hchange⟩ := List.mem_filterMap.1 hw
      exact ha k w hchange
  refine ⟨hinv.step hexec (fun ws hws => Or.inr (hquiet ws hws)) (fun heq => by rw [heq] at hb; cases hb),
    fun j hj => hinv.guarantees hexec hj, fun _ => ?_⟩
  have htally := hneat.tally hinv
  obtain ⟨db, past⟩ := s
  obtain ⟨db', past'⟩ := s'
  obtain ⟨heffect, hpast⟩ := hexec
  obtain rfl : past' = past ++ [⟨i, a, r⟩] := hpast
  obtain ⟨hstore, -, ⟨ws, hws, hlog⟩, -⟩ := heffect.inside hb
  have hview : (db'.view i).audits = (db.view i).audits := by
    rw [Db.view, hlog, hstore, applyAll_append]
    exact audits_quiet (hquiet ws hws) _
  show Tally _ _ (db'.view i).audits _
  rw [hview, granted, grants_concat, Grants.after_inside _ _ _ hb hk]
  exact htally

/-! ### A replay is recorded -/

variable (sessionId windowSeconds n) in
/-- One grant is not counted yet. -/
def Owing (audits : List AuthAuditLog) (m : Nat) : Prop :=
  ∃ k, n + m = k + 1 ∧ Tally sessionId windowSeconds audits k

variable (sessionId windowSeconds n) in
/-- Every grant is counted. -/
def Counted (audits : List AuthAuditLog) (m : Nat) : Prop := Tally sessionId windowSeconds audits (n + m)

theorem neat_of_counted {s : Recorded Γ} (h : Held sessionId i (Counted sessionId windowSeconds n) s) :
    Neat sessionId windowSeconds n i s := fun _ => h.2

/-- The lock is taken, or not. -/
theorem leads_lock : Leads (auditing Γ sessionId windowSeconds n) i (Neat sessionId windowSeconds n i)
    (tryLock (replayLock sessionId) : Service Γ Bool) fun locked s =>
      if locked then Held sessionId i (Owing sessionId windowSeconds n) s else Neat sessionId windowSeconds n i s := by
  refine leads_perform stable_neat ?_ ?_
  · intro (locked : Bool)
    cases locked
    · exact stable_neat
    · exact stable_held
  · rintro ⟨db, past⟩ r ⟨db', past'⟩ hneat hinv hexec
    have hnothing : ∀ ws : List Write, Writes (D := database Γ) i db (.tryLock (replayLock sessionId)) ws → ws = [] := by
      intro ws hws
      cases hws
      rfl
    refine ⟨hinv.step hexec (fun ws hws => Or.inr ?_) nofun, fun j hj => hinv.guarantees hexec hj, ?_⟩
    · rw [hnothing ws hws]
      exact fun w hw => nomatch hw
    · rintro x rfl
      have htally := hneat.tally hinv
      obtain ⟨heffect, hpast⟩ := hexec
      obtain rfl : past' = past ++ [⟨i, .tryLock (replayLock sessionId), .ok x⟩] := hpast
      cases heffect with
      | locked _ _ =>
        refine ⟨by simp [Holds], n + ((granted sessionId (db, past)).committed + (granted sessionId (db, past)).pending i), ?_, ?_⟩
        · simp only [granted, grants_concat, Grants.after, if_true, Function.update_self]
          omega
        · show Tally _ _ ((db.write i [] [replayLock sessionId]).view i).audits _
          rw [Db.view_write]
          exact htally
      | notLocked _ =>
        intro hi
        rw [granted, grants_concat]
        exact hneat hi

/-- What the query for recent rows tells of the rows. -/
theorem recentReplay_facts {S : Store} {since : DateTime} {logs : List AuthAuditLog}
    (h : logs = (Query.recentReplay sessionId since).answer Γ S) :
    (∀ l ∈ logs, l ∈ replayRows sessionId S.audits) ∧
      (logs = [] → ∀ x ∈ replayRows sessionId S.audits, x.occurredAt < toMillis since) := by
  constructor
  · intro l hl
    rw [h] at hl
    have hl := List.mem_of_mem_take hl
    rw [List.mem_insertionSort] at hl
    obtain ⟨hmem, hcond⟩ := List.mem_filter.1 hl
    simp only [Bool.and_eq_true] at hcond
    exact List.mem_filter.2 ⟨hmem, by simp only [AuthAuditLog.isReplayOf, Bool.and_eq_true]; exact ⟨hcond.1.1, hcond.2⟩⟩
  · intro hnil x hx
    rw [hnil] at h
    rcases List.take_eq_nil_iff.1 h.symm with hone | hsorted
    · cases hone
    have hempty := List.length_eq_zero_iff.1 ((List.length_insertionSort _ _).symm.trans (congrArg List.length hsorted))
    obtain ⟨hmem, hreplay⟩ := List.mem_filter.1 hx
    by_contra hlate
    refine List.filter_eq_nil_iff.1 hempty x hmem ?_
    simp only [AuthAuditLog.isReplayOf, Bool.and_eq_true, decide_eq_true_eq] at hreplay
    simp only [Bool.and_eq_true, decide_eq_true_eq]
    exact ⟨⟨hreplay.1, not_lt.1 hlate⟩, hreplay.2⟩

/-- Statements unrelated to the replays of the session leave them counted. -/
theorem leads_unrelated {α : Type} {p : Service Γ α} (hp : p.Emits (Unrelated sessionId)) :
    Leads (auditing Γ sessionId windowSeconds n) i (Neat sessionId windowSeconds n i) p fun _ =>
      Neat sessionId windowSeconds n i :=
  triple_conseq (triple_of_emits stable_neat (fun ha hneat hinv hexec => neat_unrelated ha hneat hinv hexec) hp)
    (fun _ h => h) fun _ _ h _ _ => h

/-- A call to the world outside, under the lock. -/
theorem leads_call {φ : List AuthAuditLog → Nat → Prop} {x : Ext} :
    Leads (auditing Γ sessionId windowSeconds n) i (Held sessionId i φ) (call x) fun _ => Held sessionId i φ := by
  refine leads_held (ψ := fun _ => φ) rfl nofun ?_
  intro db db' y m heffect hφ
  obtain ⟨hstore, -, ⟨ws, hws, hlog⟩, -⟩ := heffect.inside rfl
  cases hws
  rw [Db.view, hlog, hstore, List.append_nil]
  exact hφ

variable {session : AuthSession} {ipAddress userAgent : Option Text} {replayedAt : DateTime}

/-- The first replay of a window gets a row. -/
theorem leads_first (hsession : session.id = sessionId) :
    Leads (auditing Γ sessionId windowSeconds n) i
      (Held sessionId i fun audits m => Owing sessionId windowSeconds n audits m ∧
        ∀ x ∈ replayRows sessionId audits, x.occurredAt < toMillis (replayedAt - seconds windowSeconds))
      (insertAudit
        { userId := some session.userId
          sessionId := some session.id
          eventType := .sessionRejected
          ipAddress := ipAddress
          userAgent := userAgent
          detailJson := some (.replay (replayDetail none ipAddress userAgent replayedAt windowSeconds))
          occurredAt := some replayedAt })
      fun _ => Held sessionId i (Counted sessionId windowSeconds n) := by
  refine leads_bind leads_call fun id => leads_bind leads_call fun now => ?_
  refine leads_held (ψ := fun _ => Counted sessionId windowSeconds n) rfl nofun ?_
  rintro db db' x m heffect ⟨⟨k, hk, htally⟩, hlate⟩
  cases heffect with
  | insert w _ hviolation =>
    rw [Db.view_write, Counted, hk]
    refine htally.insert ?_ ?_ rfl ?_
    · intro x hx hid
      have hfresh := violates_of_violation hviolation
      simp only [Write.violates, Bool.or_eq_false_iff, List.any_eq_false, decide_eq_true_eq] at hfresh
      exact hfresh.1.1 x hx hid
    · simp [AuthAuditLog.isReplayOf, AuthAuditLog.bind, hsession]
    · intro x hx
      have h := hlate x hx
      have hmillis := toMillis_add_seconds (replayedAt - seconds windowSeconds) windowSeconds
      rw [sub_add_cancel] at hmillis
      show x.occurredAt + seconds windowSeconds < toMillis replayedAt
      rw [hmillis]
      exact Int.add_lt_add_right h _

/-- The row of a replay, found by its id. -/
theorem patchAudit_rows {S : Store} {l : AuthAuditLog} (hids : (S.audits.map AuthAuditLog.id).Nodup) (hl : l ∈ S.audits)
    (detail : AuditDetail) : (Stmt.patchAudit l.id detail).rows S = [.audit l.id] := by
  have hfilter : (S.audits.filter fun x => x.id = l.id) = [l] := by
    obtain ⟨before, after, hsplit⟩ := List.append_of_mem hl
    have hothers : ∀ x ∈ before ++ after, ¬ decide (x.id = l.id) = true := by
      intro x hx hid
      rw [hsplit] at hids
      have hnot := (List.nodup_cons.1 ((List.perm_middle.map AuthAuditLog.id).nodup_iff.1 hids)).1
      exact hnot (of_decide_eq_true hid ▸ List.mem_map_of_mem hx)
    rw [hsplit, List.filter_append, List.filter_cons_of_pos (by simp),
      List.filter_eq_nil_iff.2 fun x hx => hothers x (List.mem_append_left _ hx),
      List.filter_eq_nil_iff.2 fun x hx => hothers x (List.mem_append_right _ hx)]
    rfl
  rw [Stmt.rows, hfilter]
  rfl

/-- A further replay of a window is counted in its row. -/
theorem leads_further {l : AuthAuditLog} {detail : ReplayDetail} (hcount : detail.replayCount = l.replayCount + 1) :
    Leads (auditing Γ sessionId windowSeconds n) i
      (Held sessionId i fun audits m => Owing sessionId windowSeconds n audits m ∧ l ∈ replayRows sessionId audits)
      (updateRow (.patchAudit l.id (.replay detail))) fun _ => Held sessionId i (Counted sessionId windowSeconds n) := by
  refine leads_bind (leads_bind (leads_held (a := .start (.patchAudit l.id (.replay detail)))
    (ψ := fun (found : List Key) audits m => (Owing sessionId windowSeconds n audits m ∧
      l ∈ replayRows sessionId audits) ∧ found = [Key.audit l.id]) rfl nofun ?_) fun found =>
    leads_held (ψ := fun _ => Counted sessionId windowSeconds n) rfl nofun ?_) fun (rows : List Key) => ?_
  · rintro db db' x m heffect ⟨⟨k, hk, htally⟩, hl⟩
    cases heffect with
    | start _ =>
      rw [Db.view_note]
      exact ⟨⟨⟨k, hk, htally⟩, hl⟩, patchAudit_rows htally.ids (List.mem_of_mem_filter hl) (.replay detail)⟩
  · rintro db db' x m heffect ⟨⟨⟨k, hk, htally⟩, hl⟩, rfl⟩
    have hrows := patchAudit_rows htally.ids (List.mem_of_mem_filter hl) (.replay detail)
    cases heffect with
    | finish _ _ _ _ =>
      have hstill : stillThere db i (.patchAudit l.id (.replay detail)) [.audit l.id] = [.audit l.id] := by
        rw [stillThere]
        show List.filter (fun key => decide (key ∈ (Stmt.patchAudit l.id (.replay detail)).rows (db.view i))) _ = _
        rw [hrows]
        simp
      have hchanges : changes db i (.patchAudit l.id (.replay detail)) [.audit l.id] =
          [.patchAudit l.id (.replay detail)] := by
        rw [changes, hstill]
        rfl
      rw [Db.view_write, hchanges, Counted, hk]
      exact htally.patch hl hcount
  · split
    · exact leads_pure stable_held fun _ h => h
    · exact leads_throw _

/-- The call, up to the end of its transaction if it has one of its own. -/
theorem leads_recordBody (inTransaction : Bool) {Q : Recorded Γ → Prop} (hsession : session.id = sessionId)
    (hstable : Stable (auditing Γ sessionId windowSeconds n) i Q) (hneat : ∀ s, Neat sessionId windowSeconds n i s → Q s)
    (hpersist : Leads (auditing Γ sessionId windowSeconds n) i (Neat sessionId windowSeconds n i)
      (persist inTransaction : Service Γ Unit) fun _ => Q) :
    Leads (auditing Γ sessionId windowSeconds n) i (Neat sessionId windowSeconds n i) (do
      let locked ← tryLock (.advisory rejectedSessionReplayLockClassId (rejectedSessionReplayLockObjectId session.id))
      if locked then
        match ← oneOrNone (← query (.recentReplay session.id (replayedAt - seconds windowSeconds))) with
        | none =>
          insertAudit
            { userId := some session.userId
              sessionId := some session.id
              eventType := .sessionRejected
              ipAddress := ipAddress
              userAgent := userAgent
              detailJson := some (.replay (replayDetail none ipAddress userAgent replayedAt windowSeconds))
              occurredAt := some replayedAt }
          persist inTransaction
        | some log =>
          let detail := match log.detailJson with
            | some (.replay detail) => some detail
            | _ => none
          updateRow (.patchAudit log.id (.replay (replayDetail detail ipAddress userAgent replayedAt windowSeconds)))
          persist inTransaction
      else pure ()) fun _ => Q := by
  have hcounted : ∀ {p : Service Γ Unit} {P : Recorded Γ → Prop},
      Leads (auditing Γ sessionId windowSeconds n) i P p (fun _ => Held sessionId i (Counted sessionId windowSeconds n)) →
      Leads (auditing Γ sessionId windowSeconds n) i P (p >>= fun _ => persist inTransaction) fun _ => Q := fun hp =>
    leads_bind hp fun _ => leads_conseq hpersist (fun _ => neat_of_counted) fun _ _ h => h
  rw [show Key.advisory rejectedSessionReplayLockClassId (rejectedSessionReplayLockObjectId session.id) =
    replayLock sessionId from congrArg replayLock hsession]
  refine leads_bind leads_lock fun (locked : Bool) => ?_
  cases locked with
  | false => exact leads_pure hstable hneat
  | true =>
    refine leads_bind (leads_held (a := .query (.recentReplay session.id (replayedAt - seconds windowSeconds)))
      (ψ := fun (logs : List AuthAuditLog) audits m => Owing sessionId windowSeconds n audits m ∧
        (∀ l ∈ logs, l ∈ replayRows sessionId audits) ∧ (logs = [] → ∀ x ∈ replayRows sessionId audits,
          x.occurredAt < toMillis (replayedAt - seconds windowSeconds))) rfl nofun ?_) fun (logs : List AuthAuditLog) => ?_
    · rintro db db' x m heffect howing
      rw [hsession] at heffect
      cases heffect with
      | query _ => exact ⟨howing, recentReplay_facts (Γ := Γ) rfl⟩
    · match logs with
      | [] =>
        refine leads_conseq (hcounted (leads_first hsession)) ?_ fun _ _ h => h
        rintro s ⟨hi, howing, -, hlate⟩
        exact ⟨hi, howing, hlate rfl⟩
      | [log] =>
        refine leads_conseq (hcounted (leads_further (l := log) ?_)) ?_ fun _ _ h => h
        · unfold replayDetail AuthAuditLog.replayCount
          split <;> rfl
        · rintro s ⟨hi, howing, hrows, -⟩
          exact ⟨hi, howing, hrows log (List.mem_singleton_self log)⟩
      | _ :: _ :: _ => exact leads_throw _

/-! ### Programs -/

/-- An action that ends a transaction. -/
theorem ended {a : Act (database Γ)} (ha : a = .commit ∨ a = .rollback) {s s' : Recorded Γ}
    {r : Except AuthError (Result (database Γ) a)} (hinv : Orderly sessionId windowSeconds n s)
    (hcommit : a = .commit → Neat sessionId windowSeconds n i s) (hexec : (recorded (database Γ)).exec i a s r s') :
    Orderly sessionId windowSeconds n s' ∧ (∀ j, j ≠ i → Relies sessionId j s s') ∧ Idle sessionId i s' := by
  have hnothing : ∀ ws : List Write, Writes (D := database Γ) i s.1 a ws → ws = [] := by
    intro ws hws
    rcases ha with rfl | rfl <;> cases hws <;> rfl
  refine ⟨hinv.step hexec (fun ws hws => Or.inr ?_) fun heq => (hcommit heq).tally hinv,
    fun j hj => hinv.guarantees hexec hj, ?_⟩
  · rw [hnothing ws hws]
    intro w hw
    cases hw
  · have hreleased : Idle sessionId i (s.1.release i, s'.2) := by
      refine ⟨Db.log_release _, ?_⟩
      simp only [Holds, Db.release]
      split
      · intro h
        cases h
      · assumption
    have hdb : s'.1.log i = (s.1.release i).log i ∧ s'.1.owner = (s.1.release i).owner := by
      obtain ⟨db', past'⟩ := s'
      obtain ⟨heffect, -⟩ := hexec
      rcases ha with rfl | rfl <;> cases heffect <;> exact ⟨rfl, rfl⟩
    exact ⟨hdb.1.trans hreleased.1, fun hi => hreleased.2 (by rw [Holds, ← hdb.2]; exact hi)⟩

/-- A commit of counted replays leaves the thread idle. -/
theorem triple_commit : Triple (auditing Γ sessionId windowSeconds n) i (Neat sessionId windowSeconds n i)
    (commit : Service Γ Unit) fun _ => Idle sessionId i :=
  triple_act stable_neat (fun _ => Idle sessionId i)
    (fun hneat hinv hexec => ended (Or.inl rfl) hinv (fun _ => hneat) hexec) fun _ => triple_done stable_idle fun _ h => h

/-- A rollback leaves the thread idle, wherever it stood. -/
theorem triple_rollback : Triple (auditing Γ sessionId windowSeconds n) i (fun _ => True)
    (rollback : Service Γ Unit) fun _ => Idle sessionId i :=
  triple_act stable_true (fun _ => Idle sessionId i)
    (fun _ hinv hexec => ended (Or.inr rfl) hinv nofun hexec) fun _ => triple_done stable_idle fun _ h => h

/-- The transaction begins. -/
theorem triple_begin : Triple (auditing Γ sessionId windowSeconds n) i (Idle sessionId i)
    (begin : Service Γ Unit) fun _ => Idle sessionId i := by
  refine triple_act stable_idle (fun _ => Idle sessionId i) ?_ fun _ => triple_done stable_idle fun _ h => h
  rintro ⟨db, past⟩ r ⟨db', past'⟩ ⟨hlog, hi⟩ hinv hexec
  refine ⟨hinv.step hexec (fun ws hws => Or.inr ?_) nofun, fun j hj => hinv.guarantees hexec hj, ?_⟩
  · cases hws
    exact fun w hw => nomatch hw
  · cases hexec.1 with
    | begin => exact ⟨Db.log_begin db, hi⟩
    | fault _ e => exact ⟨hlog, hi⟩

/-- After its body a transaction ends. -/
theorem triple_conclude {α : Type} {body : Service Γ α}
    (hbody : Leads (auditing Γ sessionId windowSeconds n) i (Neat sessionId windowSeconds n i) body fun _ =>
      Neat sessionId windowSeconds n i) :
    Triple (auditing Γ sessionId windowSeconds n) i (Idle sessionId i) (transaction body) fun _ => Idle sessionId i := by
  refine triple_bind triple_begin (fun _ => ?_) fun _ _ h => h
  refine triple_bind (triple_attempt (triple_conseq hbody (fun s hidle hi => absurd hi hidle.2) fun _ _ h => h)) ?_ ?_
  · rintro (e | a)
    · refine triple_bind (triple_conseq triple_rollback (fun _ _ => trivial) fun _ _ h => h) ?_ fun _ _ h => h
      exact fun _ => triple_done stable_idle fun _ h => h
    · refine triple_bind (triple_conseq triple_commit ?_ fun _ _ h => h) ?_ fun _ _ h => h
      · rintro s ⟨r, hr, hneat⟩
        exact hneat a (Except.ok.inj hr).symm
      · exact fun _ => triple_done stable_idle fun _ h => h
  · rintro e s ⟨r, hr, -⟩
    cases hr

/-- The body of a transaction that records replays leaves them counted. -/
theorem leads_inside {α : Type} {body : Service Γ α} (h : Inside sessionId windowSeconds body) :
    Leads (auditing Γ sessionId windowSeconds n) i (Neat sessionId windowSeconds n i) body fun _ =>
      Neat sessionId windowSeconds n i := by
  induction h with
  | unrelated hp => exact leads_unrelated hp
  | record session ipAddress userAgent replayedAt hsession =>
    exact leads_recordBody true hsession stable_neat (fun _ h => h) (leads_pure stable_neat fun _ h => h)
  | bind _ _ ihp ihf => exact leads_bind ihp ihf

/-- A call with a transaction of its own. -/
theorem triple_record (hsession : session.id = sessionId) :
    Triple (auditing Γ sessionId windowSeconds n) i (Idle sessionId i)
      (recordRejectedSessionReplay false session ipAddress userAgent replayedAt windowSeconds : Service Γ Unit)
      fun _ => Idle sessionId i := by
  have hpersist : Leads (auditing Γ sessionId windowSeconds n) i (Neat sessionId windowSeconds n i)
      (persist false : Service Γ Unit) fun _ _ => True :=
    triple_conseq triple_commit (fun _ h => h) fun _ _ _ _ _ => trivial
  refine triple_bind triple_begin (fun _ => ?_) fun _ _ h => h
  refine triple_bind (triple_conseq (triple_attempt (leads_recordBody false hsession stable_true (fun _ _ => trivial) hpersist))
    (fun s hidle hi => absurd hi hidle.2) fun _ _ h => h) (fun r => ?_) ?_
  · refine triple_bind (triple_conseq triple_rollback (fun _ _ => trivial) fun _ _ h => h) ?_ fun _ _ h => h
    intro _
    cases r <;> exact triple_done stable_idle fun _ h => h
  · rintro e s ⟨r, hr, -⟩
    cases hr

/-- A program that records replays ends idle, with every replay counted. -/
theorem triple_recorder {α : Type} {p : Service Γ α} (h : Recorder sessionId windowSeconds p) :
    Triple (auditing Γ sessionId windowSeconds n) i (Idle sessionId i) p fun _ => Idle sessionId i := by
  induction h with
  | looks hp =>
    refine triple_of_emits stable_idle ?_ hp
    rintro a ⟨db, past⟩ r ⟨db', past'⟩ ha ⟨hlog, hi⟩ hinv hexec
    have hwrites : ∀ ws : List Write, Writes (D := database Γ) i db a ws → ws = [] := by
      intro ws hws
      cases hws with
      | none _ => rfl
      | insert _ _ _ => exact absurd ha id
      | finish _ _ _ => exact absurd ha id
    refine ⟨hinv.step hexec (fun ws hws => Or.inr ?_) ?_, fun j hj => hinv.guarantees hexec hj, ?_⟩
    · rw [hwrites ws hws]
      exact fun w hw => nomatch hw
    · rintro rfl
      exact absurd ha id
    · cases hexec.1 with
      | query _ => exact ⟨hlog, hi⟩
      | ext _ => exact ⟨hlog, hi⟩
      | fault _ e =>
        cases a with
        | query _ => exact ⟨hlog, hi⟩
        | ext _ => exact ⟨hlog, hi⟩
        | _ => exact absurd ha id
      | _ => exact absurd ha id
  | record session ipAddress userAgent replayedAt hsession => exact triple_record hsession
  | transaction hbody => exact triple_conclude (leads_inside hbody)
  | attempt _ ih =>
    refine triple_conseq (triple_attempt ih) (fun _ h => h) ?_
    rintro r s ⟨_, _, hidle⟩
    exact hidle
  | bind _ _ ihp ihf => exact triple_bind ihp ihf fun _ _ h => h

end ReplayAux

open ReplayAux

/-- Replays are aggregated without loss: whatever the order in which calls for one session run, alone or inside longer
transactions, the aggregated rows are more than the window apart, and their counts have grown by the calls that got the lock
and whose transactions committed. -/
theorem replays_aggregated {sessionId : Uuid} {windowSeconds : Int} {threads : Nat → Service Γ α}
    (hthreads : ∀ i, Recorder sessionId windowSeconds (threads i)) {store : Store} (env : Env)
    (hids : (store.audits.map AuthAuditLog.id).Nodup)
    (hapart : (replayRows sessionId store.audits).Pairwise (FarApart windowSeconds))
    {c : Config (Act (database Γ)) (Result (database Γ)) AuthError α (Db (database Γ) × List (Event (database Γ)))}
    (h : RelyGuarantee.Reaches (recorded (database Γ)) ⟨(atRest Γ store env, []), threads⟩ c) :
    (replayRows sessionId c.state.1.store.audits).Pairwise (FarApart windowSeconds) ∧
      replayTotal sessionId c.state.1.store.audits = replayTotal sessionId store.audits +
        (grants (D := database Γ) (replayLock sessionId) c.state.2).committed := by
  have hinv : (auditing Γ sessionId windowSeconds (replayTotal sessionId store.audits)).inv (atRest Γ store env, []) :=
    ⟨guarded_atRest store env, fun i _ => ⟨rfl, fun w hw => nomatch hw⟩, hids, hapart, rfl⟩
  obtain ⟨hfinal, -⟩ := sat_of_reaches (Q := fun i _ => Idle sessionId i) hinv
    (fun i => triple_recorder (hthreads i) _ ⟨rfl, fun hi => by cases hi⟩) h
  exact ⟨hfinal.tally.apart, hfinal.tally.total⟩

namespace ThreeReplays

def Γ₀ : Ctx := Ctx.readable [] fun _ => .error .oidcTokenExchange

def user : User := ⟨1, "ann@example.com".toList, none, true, .en, 0, 0, none, none⟩

def session : AuthSession := ⟨2, 1, "#s".toList, "#c".toList, 0, 0, 1000000, some 500000, none, none, none⟩

def store : Store := { Store.empty with users := [user], sessions := [session] }

def env : Env := ⟨5000000, [], 3, 0, 0, 0⟩

/-- Three replays, the last with an older time. -/
def threads : Nat → Service Γ₀ Unit
  | 0 => recordRejectedSessionReplay false session none none 5000000 300
  | 1 => transaction (recordRejectedSessionReplay true session none none 6000000 300)
  | _ => transaction (recordRejectedSessionReplay true session none none 4000000 300)

/-- The second starts while the first holds the lock. -/
def schedule : List (Move (database Γ₀)) :=
  [.run 0, .run 0, .run 1, .run 1] ++ List.replicate 6 (.run 0) ++ [.run 1] ++ List.replicate 6 (.run 2)

end ThreeReplays

open ThreeReplays in
/-- The first and the third replay are counted, in one row. -/
theorem replays_aggregated_three : ∃ c : Config (Act (database Γ₀)) (Result (database Γ₀)) AuthError Unit (Recorded Γ₀),
    RelyGuarantee.Reaches (recorded (database Γ₀)) ⟨(atRest Γ₀ store env, []), threads⟩ c ∧
      (replayRows 2 c.state.1.store.audits).length = 1 ∧ replayTotal 2 c.state.1.store.audits = 2 ∧
      (grants (D := database Γ₀) (replayLock 2) c.state.2).committed = 2 := by
  have hthreads : ∀ i, Recorder 2 300 (threads i) := by
    intro i
    match i with
    | 0 => exact .record session none none 5000000 rfl
    | 1 => exact .transaction (.record session none none 6000000 rfl)
    | _ + 2 => exact .transaction (.record session none none 4000000 rfl)
  obtain ⟨c, hc⟩ := Option.isSome_iff_exists.1
    (show (play schedule ⟨atRest Γ₀ store env, threads⟩).isSome = true by decide)
  have hrows : (play schedule ⟨atRest Γ₀ store env, threads⟩).map (fun c => ((replayRows 2 c.state.store.audits).length,
      replayTotal 2 c.state.store.audits)) = some (1, 2) := by decide
  rw [hc] at hrows
  obtain ⟨hlength, htotal⟩ := Prod.mk.inj (Option.some.inj hrows)
  obtain ⟨history, hreach⟩ := recorded_of_reaches (reaches_of_play hc) []
  obtain ⟨-, hgrants⟩ := replays_aggregated hthreads env (show (store.audits.map AuthAuditLog.id).Nodup from List.nodup_nil)
    (show (replayRows 2 store.audits).Pairwise (FarApart 300) from List.Pairwise.nil) hreach
  have hnone : replayTotal 2 store.audits = 0 := rfl
  rw [htotal, hnone, Nat.zero_add] at hgrants
  exact ⟨_, hreach, hlength, htotal, hgrants.symm⟩

end AuthService
