import Mathlib

/-!
# Replacement in texts

Python's `str.replace`: the occurrences of a text that is not empty are replaced from the left, none overlapping the one before.
-/

namespace Replace

variable {α : Type} [DecidableEq α]

/-- `skip` items are passed over, then the occurrences of `old` are replaced. -/
def replaceAfter (old new : List α) : Nat → List α → List α
  | _, [] => []
  | skip + 1, _ :: s => replaceAfter old new skip s
  | 0, c :: s =>
    if old <+: c :: s then new ++ replaceAfter old new (old.length - 1) s else c :: replaceAfter old new 0 s

/-- `s.replace(old, new)`. -/
def replace (old new s : List α) : List α := replaceAfter old new 0 s

variable {old new s : List α} {a b c : α}

@[simp] theorem replace_nil : replace old new [] = [] := rfl

theorem replace_cons_miss (h : ¬ old <+: c :: s) : replace old new (c :: s) = c :: replace old new s := if_neg h

/-- A text of one item, at the front. -/
theorem replace_one_cons (h : c = a) : replace [a] new (c :: s) = new ++ replace [a] new s := by
  subst h
  exact if_pos ⟨s, rfl⟩

/-- Another character than the one replaced stays. -/
theorem replace_one_cons_of_ne (h : c ≠ a) : replace [a] new (c :: s) = c :: replace [a] new s := by
  refine replace_cons_miss fun hold => h ?_
  exact (List.cons_prefix_cons.1 hold).1.symm

/-- A text of one item is replaced item by item. -/
theorem replace_one : replace [a] new s = s.flatMap fun c => if c = a then new else [c] := by
  induction s with
  | nil => rfl
  | cons c s ih =>
    rw [List.flatMap_cons, ← ih]
    split
    · rename_i h
      exact replace_one_cons h
    · rename_i h
      exact replace_one_cons_of_ne h

/-- A text of two items, at the front. -/
theorem replace_two_cons : replace [a, b] new (a :: b :: s) = new ++ replace [a, b] new s := if_pos ⟨s, rfl⟩

/-- A character that does not start the pair stays. -/
theorem replace_two_cons_of_ne (h : c ≠ a) : replace [a, b] new (c :: s) = c :: replace [a, b] new s := by
  refine replace_cons_miss fun hold => h ?_
  exact (List.cons_prefix_cons.1 hold).1.symm

/-- The first half of a pair stays where the second does not follow. -/
theorem replace_two_cons_cons_of_ne (h : c ≠ b) (hne : c ≠ a) :
    replace [a, b] new (a :: c :: s) = a :: c :: replace [a, b] new s := by
  rw [replace_cons_miss, replace_two_cons_of_ne hne]
  intro hold
  exact h (List.cons_prefix_cons.1 (List.cons_prefix_cons.1 hold).2).1.symm

end Replace
