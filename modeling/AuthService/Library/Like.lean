import AuthService.Library.Replace

/-!
# SQL's LIKE

A pattern is read item by item: `%` stands for any text, `_` for any one item, and the item after the escape item stands for
itself. A pattern that ends with the escape item is an error.
-/

namespace Like

variable {α : Type} [DecidableEq α]

/-- The items that have a meaning in patterns. -/
structure Wildcards (α : Type) where
  many : α
  one : α
  escape : α
  many_ne_one : many ≠ one
  escape_ne_many : escape ≠ many
  escape_ne_one : escape ≠ one

/-- A part of a pattern. -/
inductive Token (α : Type)
  | many
  | one
  | item (a : α)

/-- The parts of a pattern. -/
def tokens (x : Wildcards α) : List α → Option (List (Token α))
  | [] => some []
  | [c] => if c = x.escape then none else some [if c = x.many then .many else if c = x.one then .one else .item c]
  | c :: d :: p =>
    if c = x.escape then (tokens x p).map (.item d :: ·)
    else (tokens x (d :: p)).map ((if c = x.many then .many else if c = x.one then .one else .item c) :: ·)

/-- What a pattern matches. -/
inductive Matches : List (Token α) → List α → Prop
  | nil : Matches [] []
  | item {a : α} {p : List (Token α)} {t : List α} : Matches p t → Matches (.item a :: p) (a :: t)
  | one {a : α} {p : List (Token α)} {t : List α} : Matches p t → Matches (.one :: p) (a :: t)
  | many {p : List (Token α)} {t : List α} (s : List α) : Matches p t → Matches (.many :: p) (s ++ t)

/-- The matcher. At a `%` it tries every rest of the text. -/
def isMatch : List (Token α) → List α → Bool
  | [], t => t.isEmpty
  | .item _ :: _, [] => false
  | .item a :: p, b :: t => a = b && isMatch p t
  | .one :: _, [] => false
  | .one :: p, _ :: t => isMatch p t
  | .many :: p, t => t.tails.any fun t' => isMatch p t'

/-- `text LIKE pattern ESCAPE escape`. -/
def like (x : Wildcards α) (pattern text : List α) : Option Bool := (tokens x pattern).map fun p => isMatch p text

/-- The matcher decides the matching relation. -/
theorem isMatch_iff {p : List (Token α)} {t : List α} : isMatch p t = true ↔ Matches p t := by
  induction p generalizing t with
  | nil =>
    rw [isMatch, List.isEmpty_iff]
    constructor
    · rintro rfl
      exact .nil
    · intro h
      cases h
      rfl
  | cons token p ih =>
    cases token with
    | item a =>
      cases t with
      | nil => exact ⟨nofun, nofun⟩
      | cons b t =>
        simp only [isMatch, Bool.and_eq_true, decide_eq_true_eq, ih]
        constructor
        · rintro ⟨rfl, h⟩
          exact .item h
        · intro h
          cases h with
          | item h => exact ⟨rfl, h⟩
    | one =>
      cases t with
      | nil => exact ⟨nofun, nofun⟩
      | cons b t =>
        simp only [isMatch, ih]
        constructor
        · exact .one
        · intro h
          cases h with
          | one h => exact h
    | many =>
      simp only [isMatch, List.any_eq_true, List.mem_tails, ih]
      constructor
      · rintro ⟨t', ⟨s, rfl⟩, h⟩
        exact .many s h
      · intro h
        cases h with
        | many s h => exact ⟨_, List.suffix_append _ _, h⟩

/-! ## Literal texts -/

/-- Every item that has a meaning is escaped. -/
def escaped (x : Wildcards α) (s : List α) : List α :=
  s.flatMap fun c => if c = x.escape ∨ c = x.many ∨ c = x.one then [x.escape, c] else [c]

/-- A text is escaped character by character. -/
theorem escaped_cons (x : Wildcards α) (c : α) (s : List α) :
    escaped x (c :: s) = (if c = x.escape ∨ c = x.many ∨ c = x.one then [x.escape, c] else [c]) ++ escaped x s :=
  List.flatMap_cons

/-- Three replacements, the one of the escape item first, escape a text. -/
theorem escaped_eq_replace (x : Wildcards α) (s : List α) :
    Replace.replace [x.one] [x.escape, x.one] (Replace.replace [x.many] [x.escape, x.many]
      (Replace.replace [x.escape] [x.escape, x.escape] s)) = escaped x s := by
  rw [Replace.replace_one (s := s), Replace.replace_one, Replace.replace_one, List.flatMap_assoc, List.flatMap_assoc]
  refine List.flatMap_congr fun c _ => ?_
  by_cases hescape : c = x.escape
  · simp [hescape, x.escape_ne_many, x.escape_ne_one]
  · by_cases hmany : c = x.many
    · simp [hmany, Ne.symm x.escape_ne_many, x.many_ne_one, x.escape_ne_one]
    · by_cases hone : c = x.one
      · simp [hone, Ne.symm x.escape_ne_one, Ne.symm x.many_ne_one]
      · simp [hescape, hmany, hone]

/-- An escaped text, with a pattern after it, is read as the text and the pattern. -/
theorem tokens_escaped (x : Wildcards α) (s : List α) {p : List α} (hp : p ≠ []) :
    tokens x (escaped x s ++ p) = (tokens x p).map (s.map Token.item ++ ·) := by
  induction s with
  | nil => simp [escaped]
  | cons c s ih =>
    have hrest : escaped x s ++ p ≠ [] := fun hnil => hp (List.append_eq_nil_iff.1 hnil).2
    obtain ⟨d, rest, hcons⟩ := List.exists_cons_of_ne_nil hrest
    rw [escaped_cons, List.append_assoc]
    split
    · rename_i hspecial
      show tokens x (x.escape :: c :: (escaped x s ++ p)) = _
      rw [tokens, if_pos rfl, ih, Option.map_map]
      rfl
    · rename_i hplain
      rw [not_or, not_or] at hplain
      obtain ⟨hescape, hmany, hone⟩ := hplain
      show tokens x (c :: (escaped x s ++ p)) = _
      rw [hcons, tokens, if_neg hescape, if_neg hmany, if_neg hone, ← hcons, ih, Option.map_map]
      rfl

omit [DecidableEq α] in
/-- Plain items match themselves only. -/
theorem matches_items {s : List α} {p : List (Token α)} {t : List α} :
    Matches (s.map Token.item ++ p) t ↔ ∃ t', t = s ++ t' ∧ Matches p t' := by
  induction s generalizing t with
  | nil => exact ⟨fun h => ⟨t, rfl, h⟩, fun ⟨_, ht, h⟩ => ht ▸ h⟩
  | cons a s ih =>
    constructor
    · intro h
      cases h with
      | item h =>
        obtain ⟨t', rfl, hp⟩ := ih.1 h
        exact ⟨t', rfl, hp⟩
    · rintro ⟨t', rfl, hp⟩
      exact .item (ih.2 ⟨t', rfl, hp⟩)

/-- An escaped text between two `%` matches the texts that it occurs in. -/
theorem like_escaped (x : Wildcards α) (s t : List α) :
    like x ([x.many] ++ escaped x s ++ [x.many]) t = some (decide (s <:+: t)) := by
  have htokens : tokens x ([x.many] ++ escaped x s ++ [x.many]) =
      some (.many :: (s.map Token.item ++ [.many])) := by
    have hlast : tokens x [x.many] = some [.many] := by
      rw [tokens, if_neg (Ne.symm x.escape_ne_many), if_pos rfl]
    have hrest := tokens_escaped x s (List.cons_ne_nil x.many [])
    rw [hlast] at hrest
    obtain ⟨d, rest, hcons⟩ := List.exists_cons_of_ne_nil
      (fun hnil => List.cons_ne_nil x.many [] (List.append_eq_nil_iff.1 hnil).2 : escaped x s ++ [x.many] ≠ [])
    show tokens x (x.many :: (escaped x s ++ [x.many])) = _
    rw [hcons, tokens, if_neg (Ne.symm x.escape_ne_many), if_pos rfl, ← hcons, hrest]
    rfl
  rw [like, htokens, Option.map_some, Option.some.injEq, Bool.eq_iff_iff, isMatch_iff, decide_eq_true_eq]
  constructor
  · intro h
    cases h with
    | many before h =>
      obtain ⟨after, rfl, -⟩ := matches_items.1 h
      exact ⟨before, after, List.append_assoc _ _ _⟩
  · rintro ⟨before, after, rfl⟩
    rw [List.append_assoc]
    refine .many before (matches_items.2 ⟨after, rfl, ?_⟩)
    have hall : Matches [Token.many] (after ++ []) := .many after .nil
    rwa [List.append_nil] at hall

end Like
