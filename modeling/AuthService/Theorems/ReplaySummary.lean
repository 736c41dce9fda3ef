import AuthService.Library.Recent
import AuthService.Repositories

/-!
# What a replay summary says

The summary folded over the replays of a session counts them exactly and remembers at most ten of their addresses. The number of
distinct addresses is exact as long as no address comes again after it was forgotten, and too high after that.
-/

namespace AuthService

open Recent (Notes notesOf NoneForgotten Remembers)

/-- A replay of a rejected session. -/
structure Replay where
  ipAddress : Option Text
  userAgent : Option Text
  replayedAt : DateTime

/-- `_replay_detail_json` folded over replays, from `None`. -/
def summaryOf (windowSeconds : Int) (replays : List Replay) : Option ReplayDetail :=
  replays.foldl (fun detail r => some (replayDetail detail r.ipAddress r.userAgent r.replayedAt windowSeconds)) none

/-- The addresses of replays. -/
def addressesOf (replays : List Replay) : List Text := replays.filterMap Replay.ipAddress

/-- A summary of replays that ends with the given one, except for the number of distinct addresses. -/
structure Summarises (replays : List Replay) (last : Replay) (detail : ReplayDetail) : Prop where
  replayCount : detail.replayCount = replays.length
  nodup : detail.recentIpAddresses.Nodup
  bounded : detail.recentIpAddresses.length ≤ 10
  seen : ∀ ip ∈ detail.recentIpAddresses, ip ∈ addressesOf replays
  lastIpAddress : detail.lastIpAddress = last.ipAddress
  lastUserAgent : detail.lastUserAgent = last.userAgent
  lastReplayedAt : detail.lastReplayedAt = last.replayedAt

namespace ReplaySummaryAux

variable {windowSeconds : Int} {replays : List Replay} {r : Replay}

/-- The addresses and the count of a summary. -/
def notes (detail : Option ReplayDetail) : Notes Text :=
  ⟨(detail.map ReplayDetail.recentIpAddresses).getD [], (detail.map ReplayDetail.distinctIpCount).getD 0⟩

theorem summaryOf_snoc : summaryOf windowSeconds (replays ++ [r]) =
    some (replayDetail (summaryOf windowSeconds replays) r.ipAddress r.userAgent r.replayedAt windowSeconds) := List.foldl_append

/-- The count a replay starts from is the count of the summary before. -/
theorem distinct_before {detail : Option ReplayDetail} (h : (notes detail).items.length ≤ (notes detail).count) :
    max ((detail.map ReplayDetail.distinctIpCount).getD (notes detail).items.length) (notes detail).items.length =
      (notes detail).count := by
  cases detail with
  | none => rfl
  | some detail => exact max_eq_left h

/-- The addresses and the count after a replay whose address is new, if it has one. -/
def noted (detail : Option ReplayDetail) (isNew : Option Text) : Notes Text :=
  ⟨match isNew with
    | none => (notes detail).items
    | some ip => ((notes detail).items ++ [ip]).drop ((notes detail).items.length + 1 - 10),
  max ((detail.map ReplayDetail.distinctIpCount).getD (notes detail).items.length) (notes detail).items.length +
    isNew.toList.length⟩

/-- A replay notes its address, if it has one. -/
theorem notes_replayDetail {detail : Option ReplayDetail} (h : (notes detail).items.length ≤ (notes detail).count) :
    notes (some (replayDetail detail r.ipAddress r.userAgent r.replayedAt windowSeconds)) =
      r.ipAddress.toList.foldl (Notes.note 10) (notes detail) := by
  have hshape : notes (some (replayDetail detail r.ipAddress r.userAgent r.replayedAt windowSeconds)) =
      noted detail (r.ipAddress.filter fun ip => ip ∉ (notes detail).items) := rfl
  rw [hshape]
  unfold noted
  rw [distinct_before h]
  cases r.ipAddress with
  | none => rfl
  | some ip =>
    show _ = (notes detail).note 10 ip
    by_cases hmem : ip ∈ (notes detail).items
    · have hold : (some ip).filter (fun ip => decide (ip ∉ (notes detail).items)) = none := by
        simpa using hmem
      rw [Recent.note_of_mem hmem, hold]
      rfl
    · have hnew : (some ip).filter (fun ip => decide (ip ∉ (notes detail).items)) = some ip := by
        simpa using hmem
      rw [Recent.note_of_notMem hmem, hnew, Recent.lastOnes, List.length_append]
      rfl

/-- One more replay adds its address, if it has one. -/
theorem addressesOf_snoc : addressesOf (replays ++ [r]) = addressesOf replays ++ r.ipAddress.toList := by
  rw [addressesOf, List.filterMap_append]
  cases h : r.ipAddress with
  | none => rw [List.filterMap_cons_none h]; rfl
  | some ip => rw [List.filterMap_cons_some h]; rfl

variable (windowSeconds) in
/-- The addresses of a summary are the notes of the replays' addresses. -/
theorem notes_summaryOf (replays : List Replay) : notes (summaryOf windowSeconds replays) = notesOf 10 (addressesOf replays) := by
  induction replays using List.reverseRecOn with
  | nil => rfl
  | append_singleton replays r ih =>
    have hcounted := (Recent.remembers 10 (addressesOf replays)).counted
    rw [← ih] at hcounted
    rw [summaryOf_snoc, notes_replayDetail hcounted, ih, addressesOf_snoc]
    exact List.foldl_append.symm

variable (windowSeconds) in
/-- A summary counts its replays. -/
theorem replayCount_summaryOf (replays : List Replay) :
    ((summaryOf windowSeconds replays).map ReplayDetail.replayCount).getD 0 = replays.length := by
  induction replays using List.reverseRecOn with
  | nil => rfl
  | append_singleton replays r ih =>
    rw [summaryOf_snoc, List.length_append, ← ih]
    rfl

end ReplaySummaryAux

open ReplaySummaryAux

/-- The summary of replays counts them and remembers at most ten of their addresses, each once. It counts at least the distinct
addresses, and exactly them when every address that comes again is one of the last ten that first came before. -/
theorem replays_summarised (windowSeconds : Int) (replays : List Replay) (last : Replay) :
    ∃ detail, summaryOf windowSeconds (replays ++ [last]) = some detail ∧ Summarises (replays ++ [last]) last detail ∧
      (addressesOf (replays ++ [last])).toFinset.card ≤ detail.distinctIpCount ∧
        (detail.distinctIpCount = (addressesOf (replays ++ [last])).toFinset.card ↔
          NoneForgotten 10 (addressesOf (replays ++ [last]))) := by
  have hcount := replayCount_summaryOf windowSeconds (replays ++ [last])
  have hnotes := notes_summaryOf windowSeconds (replays ++ [last])
  have hremembers := Recent.remembers 10 (addressesOf (replays ++ [last]))
  have hexact := Recent.count_eq_iff 10 (addressesOf (replays ++ [last]))
  rw [← hnotes] at hremembers hexact
  rw [summaryOf_snoc] at hcount hremembers hexact
  exact ⟨_, summaryOf_snoc, ⟨hcount, hremembers.nodup, hremembers.bounded, hremembers.seen, rfl, rfl, rfl⟩,
    hremembers.distinct, hexact⟩

namespace ForgottenAddress

/-- Replays from eleven addresses, then from the first again. -/
def replays : List Replay := "0123456789a0".toList.map fun c => ⟨some ("2001:db8::".toList ++ [c]), none, 0⟩

end ForgottenAddress

open ForgottenAddress in
/-- The eleventh address pushes the first one out, which is then counted twice. -/
theorem forgotten_address_counted_twice : (summaryOf 300 replays).map ReplayDetail.distinctIpCount = some 12 ∧
    (addressesOf replays).toFinset.card = 11 ∧
      ¬∃ detail, summaryOf 300 replays = some detail ∧ detail.distinctIpCount = (addressesOf replays).toFinset.card := by
  have hcount : (summaryOf 300 replays).map ReplayDetail.distinctIpCount = some 12 := by decide
  have hcard : (addressesOf replays).toFinset.card = 11 := by decide
  refine ⟨hcount, hcard, ?_⟩
  rintro ⟨detail, hdetail, hexact⟩
  rw [hdetail, Option.map_some, hexact, hcard] at hcount
  cases hcount

end AuthService
