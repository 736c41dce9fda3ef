import Mathlib

/-!
# Counting events in a sliding window

A history is a list of counted events, each a key and a time. An event counts for a while after its time: which times are
live at a moment is a `Window`. A counter with room for `cap` keys counts a new event of a key that has a live event, and of
any key while fewer than `cap` keys have one.
-/

namespace SlidingWindow

variable {κ T : Type} [DecidableEq κ]

/-! ## Histories -/

/-- The times of a key's events. -/
def timesOf (events : List (κ × T)) (key : κ) : List T := (events.filter (fun e => e.1 = key)).map Prod.snd

/-- The events of the other keys. -/
def forget (events : List (κ × T)) (key : κ) : List (κ × T) := events.filter (fun e => e.1 ≠ key)

/-- The times of a key in two histories are those of the first and then of the second. -/
theorem timesOf_append (events events' : List (κ × T)) (key : κ) :
    timesOf (events ++ events') key = timesOf events key ++ timesOf events' key := by
  simp [timesOf]

/-- One event tells its own key a time. -/
theorem timesOf_singleton (key key' : κ) (t : T) : timesOf [(key', t)] key = if key = key' then [t] else [] := by
  by_cases h : key = key'
  · simp [timesOf, h]
  · simp [timesOf, h, Ne.symm h]

/-- A forgotten key has no times, and every other key those it had. -/
theorem timesOf_forget (events : List (κ × T)) (key key' : κ) :
    timesOf (forget events key') key = if key = key' then [] else timesOf events key := by
  rw [timesOf, forget, List.filter_filter]
  split
  · rename_i h
    rw [List.map_eq_nil_iff, List.filter_eq_nil_iff]
    simp [h]
  · rename_i h
    rw [timesOf]
    refine congrArg _ (List.filter_congr fun e _ => ?_)
    by_cases he : e.1 = key
    · simp [he, h]
    · simp [he]

/-- The events of a key after an event was counted. -/
theorem timesOf_counted (events : List (κ × T)) (key key' : κ) (now : T) :
    timesOf (events ++ [(key', now)]) key = if key = key' then timesOf events key ++ [now] else timesOf events key := by
  rw [timesOf_append, timesOf_singleton]
  split
  · rfl
  · exact List.append_nil _

/-! ## Windows -/

/-- Which times still count at a moment: later times count when earlier ones do, and no time counts again. -/
structure Window (T : Type) [LinearOrder T] where
  live : T → T → Bool
  upward : ∀ {now t t' : T}, t ≤ t' → live now t = true → live now t' = true
  fading : ∀ {now now' t : T}, now ≤ now' → live now' t = true → live now t = true

variable [LinearOrder T]

/-- The times of a list that still count. -/
def Window.alive (W : Window T) (now : T) (times : List T) : List T := times.filter (W.live now)

/-- How many events of a key are live. -/
def liveCount (W : Window T) (events : List (κ × T)) (now : T) (key : κ) : Nat := (W.alive now (timesOf events key)).length

/-- The keys that have a live event. -/
def liveKeys (W : Window T) (events : List (κ × T)) (now : T) : List κ :=
  ((events.filter (fun e => W.live now e.2)).map Prod.fst).dedup

/-- A new event of a key is counted when the key has a live event or there is room for another key. -/
def record (W : Window T) (cap : Int) (events : List (κ × T)) (now : T) (key : κ) : List (κ × T) :=
  if 0 < liveCount W events now key ∨ (liveKeys W events now).length < cap then events ++ [(key, now)] else events

/-! ## Times that count -/

@[simp] theorem alive_nil (W : Window T) (now : T) : W.alive now [] = [] := rfl

theorem alive_append (W : Window T) (now : T) (times times' : List T) :
    W.alive now (times ++ times') = W.alive now times ++ W.alive now times' := List.filter_append ..

theorem mem_alive {W : Window T} {now t : T} {times : List T} :
    t ∈ W.alive now times ↔ t ∈ times ∧ W.live now t = true := List.mem_filter

/-- What counted later counts among what counts now. -/
theorem alive_alive (W : Window T) {now now' : T} (h : now ≤ now') (times : List T) :
    W.alive now' (W.alive now times) = W.alive now' times := by
  rw [Window.alive, Window.alive, Window.alive, List.filter_filter]
  refine List.filter_congr fun t _ => ?_
  cases hl : W.live now' t with
  | false => rfl
  | true => rw [W.fading h hl]; rfl

/-- Dropping dead times from the front of a sorted list leaves exactly those that count. -/
theorem dropWhile_eq_alive (W : Window T) (now : T) {times : List T} (h : times.Pairwise (· ≤ ·)) :
    times.dropWhile (fun t => !W.live now t) = W.alive now times := by
  induction times with
  | nil => rfl
  | cons t times ih =>
    rw [List.pairwise_cons] at h
    cases hl : W.live now t with
    | false =>
      simp only [List.dropWhile_cons, hl, Bool.not_false, if_true, Window.alive, List.filter_cons, Bool.false_eq_true, if_false]
      exact ih h.2
    | true =>
      have hall : ∀ t' ∈ t :: times, W.live now t' = true := by
        intro t' ht'
        rcases List.mem_cons.1 ht' with rfl | ht'
        · exact hl
        · exact W.upward (h.1 t' ht') hl
      rw [Window.alive, List.filter_eq_self.2 hall]
      simp [hl]

/-! ## Keys that count -/

/-- A key is live when one of its times is. -/
theorem mem_liveKeys {W : Window T} {events : List (κ × T)} {now : T} {key : κ} :
    key ∈ liveKeys W events now ↔ W.alive now (timesOf events key) ≠ [] := by
  simp only [liveKeys, List.mem_dedup, List.mem_map, List.mem_filter, ne_eq, List.eq_nil_iff_forall_not_mem, not_forall,
    not_not, mem_alive, timesOf, decide_eq_true_eq]
  constructor
  · rintro ⟨e, ⟨hmem, hlive⟩, rfl⟩
    exact ⟨e.2, ⟨e, ⟨hmem, rfl⟩, rfl⟩, hlive⟩
  · rintro ⟨t, ⟨e, ⟨hmem, hkey⟩, rfl⟩, hlive⟩
    exact ⟨e, ⟨hmem, hlive⟩, hkey⟩

/-- Every live key is listed once. -/
theorem nodup_liveKeys (W : Window T) (events : List (κ × T)) (now : T) : (liveKeys W events now).Nodup :=
  List.nodup_dedup _

end SlidingWindow
