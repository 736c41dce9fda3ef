import Mathlib

/-!
# Counting with a short memory

A counter that remembers the last items it counted, and counts an item again when it does not remember it.
-/

namespace Recent

variable {α : Type} {cap : Nat} {xs : List α} {x y : α}

/-! ## The last items -/

/-- The last items of a list. -/
def lastOnes (cap : Nat) (items : List α) : List α := items.drop (items.length - cap)

/-- At most the cap is kept. -/
theorem length_lastOnes : (lastOnes cap xs).length = min cap xs.length := by
  rw [lastOnes, List.length_drop]
  omega

theorem mem_of_mem_lastOnes (h : x ∈ lastOnes cap xs) : x ∈ xs := List.mem_of_mem_drop h

/-- Keeping the last ones before an item is added loses nothing that is kept after. -/
theorem lastOnes_snoc : lastOnes cap (lastOnes cap xs ++ [x]) = lastOnes cap (xs ++ [x]) := by
  have hle : xs.length - cap ≤ xs.length := Nat.sub_le _ _
  have hdrop : lastOnes cap xs ++ [x] = (xs ++ [x]).drop (xs.length - cap) := by
    rw [lastOnes, List.drop_append_of_le_length hle]
  rw [lastOnes, List.length_append, length_lastOnes, hdrop, List.drop_drop, lastOnes, List.length_append]
  congr 1
  simp only [List.length_singleton]
  omega

variable [DecidableEq α]

/-! ## The counter -/

/-- The items remembered, and how many were counted. -/
structure Notes (α : Type) where
  items : List α
  count : Nat

/-- An item that is not remembered is counted and remembered. -/
def Notes.note (cap : Nat) (notes : Notes α) (x : α) : Notes α :=
  if x ∈ notes.items then notes else ⟨lastOnes cap (notes.items ++ [x]), notes.count + 1⟩

/-- The notes after a list of items. -/
def notesOf (cap : Nat) (xs : List α) : Notes α := xs.foldl (Notes.note cap) ⟨[], 0⟩

/-- The items in the order in which they first came. -/
def firsts (xs : List α) : List α := xs.reverse.dedup.reverse

/-- Whenever an item comes again, it is one of the last that first came before. -/
def NoneForgotten (cap : Nat) (xs : List α) : Prop :=
  ∀ before x after, xs = before ++ x :: after → x ∈ before → x ∈ lastOnes cap (firsts before)

/-! ## First occurrences -/

/-- An item that came before is no first occurrence. -/
theorem firsts_snoc_of_mem (h : x ∈ xs) : firsts (xs ++ [x]) = firsts xs := by
  rw [firsts, List.reverse_append, List.reverse_singleton, List.singleton_append,
    List.dedup_cons_of_mem (List.mem_reverse.2 h)]
  rfl

/-- A new item is the latest first occurrence. -/
theorem firsts_snoc_of_notMem (h : x ∉ xs) : firsts (xs ++ [x]) = firsts xs ++ [x] := by
  rw [firsts, List.reverse_append, List.reverse_singleton, List.singleton_append,
    List.dedup_cons_of_notMem (mt List.mem_reverse.1 h), List.reverse_cons]
  rfl

theorem length_firsts : (firsts xs).length = xs.toFinset.card := by
  rw [firsts, List.length_reverse, ← List.card_toFinset, List.toFinset_reverse]

theorem card_snoc_of_mem (h : x ∈ xs) : (xs ++ [x]).toFinset.card = xs.toFinset.card := by
  rw [← length_firsts, firsts_snoc_of_mem h, length_firsts]

/-- A new item adds one distinct item. -/
theorem card_snoc_of_notMem (h : x ∉ xs) : (xs ++ [x]).toFinset.card = xs.toFinset.card + 1 := by
  rw [← length_firsts, firsts_snoc_of_notMem h, List.length_append, length_firsts]
  rfl

/-! ## Notes -/

theorem notesOf_snoc : notesOf cap (xs ++ [x]) = (notesOf cap xs).note cap x := List.foldl_append

theorem note_of_mem {notes : Notes α} (h : x ∈ notes.items) : notes.note cap x = notes := if_pos h

theorem note_of_notMem {notes : Notes α} (h : x ∉ notes.items) :
    notes.note cap x = ⟨lastOnes cap (notes.items ++ [x]), notes.count + 1⟩ := if_neg h

/-- What is remembered of a list of items. -/
structure Remembers (cap : Nat) (xs : List α) (notes : Notes α) : Prop where
  seen : ∀ x ∈ notes.items, x ∈ xs
  nodup : notes.items.Nodup
  bounded : notes.items.length ≤ cap
  counted : notes.items.length ≤ notes.count
  distinct : xs.toFinset.card ≤ notes.count

/-- One more item keeps what the notes promise. -/
theorem Remembers.note {notes : Notes α} (h : Remembers cap xs notes) : Remembers cap (xs ++ [x]) (notes.note cap x) := by
  by_cases hx : x ∈ notes.items
  · rw [note_of_mem hx]
    refine ⟨fun y hy => List.mem_append_left _ (h.seen y hy), h.nodup, h.bounded, h.counted, ?_⟩
    rw [card_snoc_of_mem (h.seen x hx)]
    exact h.distinct
  · rw [note_of_notMem hx]
    have hlength : (lastOnes cap (notes.items ++ [x])).length = min cap (notes.items.length + 1) := by
      rw [length_lastOnes, List.length_append, List.length_singleton]
    have hdistinct := h.distinct
    have hcounted := h.counted
    have hnodup : (notes.items ++ [x]).Nodup := by
      rw [← List.concat_eq_append]
      exact h.nodup.concat hx
    refine ⟨fun y hy => ?_, hnodup.sublist (List.drop_sublist _ _), ?_, ?_, ?_⟩
    · rcases List.mem_append.1 (mem_of_mem_lastOnes hy) with hy | hy
      · exact List.mem_append_left _ (h.seen y hy)
      · exact List.mem_append_right _ hy
    · rw [hlength]
      exact Nat.min_le_left _ _
    · rw [hlength]
      exact (Nat.min_le_right _ _).trans (Nat.succ_le_succ hcounted)
    · dsimp only
      by_cases hold : x ∈ xs
      · rw [card_snoc_of_mem hold]
        omega
      · rw [card_snoc_of_notMem hold]
        omega

/-- The notes keep their promises after any items. -/
theorem remembers (cap : Nat) (xs : List α) : Remembers cap xs (notesOf cap xs) := by
  induction xs using List.reverseRecOn with
  | nil => exact ⟨nofun, List.nodup_nil, Nat.zero_le _, Nat.le_refl _, Nat.le_refl _⟩
  | append_singleton xs x ih =>
    rw [notesOf_snoc]
    exact ih.note

/-! ## Exact counts -/

/-- If no item was forgotten up to now, none was before. -/
theorem NoneForgotten.init (h : NoneForgotten cap (xs ++ [x])) : NoneForgotten cap xs := by
  intro before y after hsplit
  exact h before y (after ++ [x]) (by rw [hsplit, List.append_assoc]; rfl)

/-- One more item is not forgotten exactly when it is new or still remembered. -/
theorem noneForgotten_snoc :
    NoneForgotten cap (xs ++ [x]) ↔ NoneForgotten cap xs ∧ (x ∈ xs → x ∈ lastOnes cap (firsts xs)) := by
  refine ⟨fun h => ⟨h.init, h xs x [] rfl⟩, fun h before y after hsplit => ?_⟩
  rcases List.eq_nil_or_concat after with rfl | ⟨after, z, rfl⟩
  · obtain ⟨rfl, hy⟩ := List.append_inj' hsplit rfl
    obtain rfl := List.cons.inj hy |>.1
    exact h.2
  · rw [List.concat_eq_append, ← List.cons_append, ← List.append_assoc] at hsplit
    exact h.1 before y after (List.append_inj' hsplit rfl).1

/-- Nothing forgotten came again: the items remembered are the last that first came, and the count is exact. Otherwise the
count is too high. -/
theorem exact_or_over (cap : Nat) (xs : List α) :
    (NoneForgotten cap xs → (notesOf cap xs).items = lastOnes cap (firsts xs) ∧ (notesOf cap xs).count = xs.toFinset.card) ∧
      (¬NoneForgotten cap xs → xs.toFinset.card < (notesOf cap xs).count) := by
  induction xs using List.reverseRecOn with
  | nil =>
    refine ⟨fun _ => ⟨by simp [notesOf, firsts, lastOnes], rfl⟩, fun h => absurd (fun before x after hsplit => ?_) h⟩
    cases before <;> cases hsplit
  | append_singleton xs x ih =>
    have hremembers := remembers cap xs
    have hdistinct := hremembers.distinct
    rw [notesOf_snoc, noneForgotten_snoc]
    by_cases hx : x ∈ (notesOf cap xs).items
    · -- remembered: nothing changes
      have hold := hremembers.seen x hx
      rw [note_of_mem hx, card_snoc_of_mem hold, firsts_snoc_of_mem hold]
      refine ⟨fun h => ih.1 h.1, fun h => ih.2 fun hnone => h ⟨hnone, fun _ => ?_⟩⟩
      rw [← (ih.1 hnone).1]
      exact hx
    · rw [note_of_notMem hx]
      by_cases hold : x ∈ xs
      · -- forgotten: counted once too often
        rw [card_snoc_of_mem hold]
        refine ⟨fun h => absurd ?_ hx, fun _ => ?_⟩
        · rw [(ih.1 h.1).1]
          exact h.2 hold
        · dsimp only
          omega
      · rw [card_snoc_of_notMem hold, firsts_snoc_of_notMem hold]
        refine ⟨fun h => ?_, fun h => ?_⟩
        · dsimp only
          rw [(ih.1 h.1).1, (ih.1 h.1).2]
          exact ⟨lastOnes_snoc, rfl⟩
        · exact Nat.succ_lt_succ (ih.2 fun hnone => h ⟨hnone, fun hmem => absurd hmem hold⟩)

/-- The count is that of the distinct items exactly when no item came again after it was forgotten. -/
theorem count_eq_iff (cap : Nat) (xs : List α) : (notesOf cap xs).count = xs.toFinset.card ↔ NoneForgotten cap xs := by
  refine ⟨fun h => ?_, fun h => ((exact_or_over cap xs).1 h).2⟩
  by_contra hnot
  have := (exact_or_over cap xs).2 hnot
  omega

end Recent
