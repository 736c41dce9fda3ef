import AuthService.Library.Whatwg

/-!
# What the parser makes of its own output

The path, the query and the fragment of a parsed URL hold no character that would be encoded again, and no segment `.` or `..`. So
the parser leaves them as they are, unless the path starts with two slashes: then an authority is read.
-/

namespace Whatwg

open Urllib (partition percentByte hexDigit)

/-! ## Percent-encoding -/

/-- No character of the text is in the set. -/
def Plain (set : Char → Bool) (s : List Char) : Prop := ∀ c ∈ s, set c = false

/-- What escapes are made of is not in the set. -/
def KeepsEscapes (set : Char → Bool) : Prop := set '%' = false ∧ ∀ n : Fin 16, set (hexDigit n) = false

instance (set : Char → Bool) : Decidable (KeepsEscapes set) := inferInstanceAs (Decidable (_ ∧ _))

theorem keepsEscapes_sets : KeepsEscapes fragmentSet ∧ KeepsEscapes specialQuerySet ∧ KeepsEscapes pathSet := by decide

/-- A text outside the set is its own encoding. -/
theorem encode_of_plain {set : Char → Bool} {s : List Char} (h : Plain set s) : encode set s = s := by
  induction s with
  | nil => rfl
  | cons c s ih =>
    rw [encode, List.flatMap_cons, encodeChar, h c List.mem_cons_self, if_neg Bool.false_ne_true]
    exact congrArg (c :: ·) (ih fun d hd => h d (List.mem_cons_of_mem _ hd))

/-- A character of an encoded text was there before, outside of the set, or belongs to an escape. -/
theorem mem_encode {set : Char → Bool} {s : List Char} {c : Char} (h : c ∈ encode set s) :
    c ∈ s ∧ set c = false ∨ c = '%' ∨ ∃ n : Fin 16, c = hexDigit n := by
  obtain ⟨d, hd, hc⟩ := List.mem_flatMap.1 h
  unfold encodeChar at hc
  split at hc
  · obtain ⟨b, _, hb⟩ := List.mem_flatMap.1 hc
    have hlt := b.toNat_lt
    simp only [percentByte, List.mem_cons, List.not_mem_nil, or_false] at hb
    rcases hb with rfl | rfl | rfl
    · exact Or.inr (Or.inl rfl)
    · exact Or.inr (Or.inr ⟨⟨b.toNat / 16, by omega⟩, rfl⟩)
    · exact Or.inr (Or.inr ⟨⟨b.toNat % 16, by omega⟩, rfl⟩)
  · rename_i hset
    rw [List.mem_singleton.1 hc]
    exact Or.inl ⟨hd, (Bool.not_eq_true _).mp hset⟩

/-- An encoded text lies outside the set. -/
theorem plain_encode {set : Char → Bool} (hset : KeepsEscapes set) (s : List Char) : Plain set (encode set s) := by
  intro c hc
  rcases mem_encode hc with ⟨_, h⟩ | rfl | ⟨n, rfl⟩
  · exact h
  · exact hset.1
  · exact hset.2 n

/-- A mark that is no part of an escape is not written by encoding. -/
theorem not_mem_encode {set : Char → Bool} {s : List Char} {mark : Char} (hmark : mark ≠ '%' ∧ ∀ n : Fin 16, mark ≠ hexDigit n)
    (h : mark ∉ s) : mark ∉ encode set s := by
  intro hmem
  rcases mem_encode hmem with ⟨hs, _⟩ | heq | ⟨n, heq⟩
  · exact h hs
  · exact hmark.1 heq
  · exact hmark.2 n heq

/-- Only the empty text has an empty encoding. -/
theorem encode_eq_nil {set : Char → Bool} {s : List Char} (h : encode set s = []) : s = [] := by
  cases s with
  | nil => rfl
  | cons c s =>
    exfalso
    rw [encode, List.flatMap_cons, List.append_eq_nil_iff] at h
    have hchar := h.1
    unfold encodeChar at hchar
    split at hchar
    · have hne : String.utf8EncodeChar c ≠ [] := String.utf8EncodeChar_ne_nil
      cases hbytes : String.utf8EncodeChar c with
      | nil => exact hne hbytes
      | cons b bytes =>
        rw [hbytes] at hchar
        cases hchar
    · cases hchar

/-! ## Paths -/

/-- A segment as the parser writes it. -/
structure Written (segment : List Char) : Prop where
  plain : Plain pathSet segment
  noSlash : '/' ∉ segment
  noBackslash : '\\' ∉ segment
  notSingle : isSingleDot segment = false
  notDouble : isDoubleDot segment = false

theorem written_nil : Written [] := ⟨nofun, nofun, nofun, by decide, by decide⟩

/-- Segments that are no dots are walked through one by one. -/
theorem walk_of_written {segments : List (List Char)} (h : ∀ segment ∈ segments, Written segment) (path : List (List Char)) :
    walk path segments = path ++ segments := by
  induction segments generalizing path with
  | nil => simp [walk]
  | cons segment segments ih =>
    have hsegment := h segment List.mem_cons_self
    cases segments with
    | nil => simp [walk, hsegment.notDouble, hsegment.notSingle]
    | cons next segments =>
      rw [walk, if_neg (by simp [hsegment.notDouble]), if_neg (by simp [hsegment.notSingle]),
        ih (fun s hs => h s (List.mem_cons_of_mem _ hs)), List.append_assoc, List.singleton_append]
      exact nofun

/-- A walk leads to a path of written segments that is not empty. -/
theorem written_walk {segments path : List (List Char)} (hne : segments ≠ [])
    (hsegments : ∀ segment ∈ segments, Plain pathSet segment ∧ '/' ∉ segment ∧ '\\' ∉ segment)
    (hpath : ∀ segment ∈ path, Written segment) : walk path segments ≠ [] ∧ ∀ segment ∈ walk path segments, Written segment := by
  induction segments generalizing path with
  | nil => exact absurd rfl hne
  | cons segment segments ih =>
    obtain ⟨hplain, hslash, hbackslash⟩ := hsegments segment List.mem_cons_self
    have hdrop : ∀ s ∈ path.dropLast, Written s := fun s hs => hpath s (List.dropLast_subset _ hs)
    have hsnoc : ∀ {before : List (List Char)} {s : List Char}, (∀ x ∈ before, Written x) → Written s →
        ∀ x ∈ before ++ [s], Written x := by
      intro before s hbefore hs x hx
      rcases List.mem_append.1 hx with hx | hx
      · exact hbefore x hx
      · rw [List.mem_singleton.1 hx]
        exact hs
    cases segments with
    | nil =>
      rw [walk]
      split
      · exact ⟨by simp, hsnoc hdrop written_nil⟩
      · rename_i hdouble
        split
        · exact ⟨by simp, hsnoc hpath written_nil⟩
        · rename_i hsingle
          exact ⟨by simp, hsnoc hpath
            ⟨hplain, hslash, hbackslash, (Bool.not_eq_true _).mp hsingle, (Bool.not_eq_true _).mp hdouble⟩⟩
    | cons next segments =>
      rw [walk]
      · refine ih (List.cons_ne_nil _ _) (fun s hs => hsegments s (List.mem_cons_of_mem _ hs)) ?_
        split
        · exact hdrop
        · rename_i hdouble
          split
          · exact hpath
          · rename_i hsingle
            exact hsnoc hpath
              ⟨hplain, hslash, hbackslash, (Bool.not_eq_true _).mp hsingle, (Bool.not_eq_true _).mp hdouble⟩
      · exact nofun

/-- No part of a split contains the separator. -/
theorem not_mem_splitOn {c : Char} {s part : List Char} (h : part ∈ s.splitOn c) : c ∉ part := by
  induction s generalizing part with
  | nil =>
    rw [List.splitOn_nil, List.mem_singleton] at h
    rw [h]
    exact List.not_mem_nil
  | cons d s ih =>
    rw [List.splitOn_cons_eq_if_modifyHead] at h
    split at h
    · rcases List.mem_cons.1 h with rfl | h
      · exact List.not_mem_nil
      · exact ih h
    · rename_i hne
      cases hparts : s.splitOn c with
      | nil => exact absurd hparts (List.splitOn_ne_nil _ _)
      | cons first parts =>
        rw [hparts, List.modifyHead_cons] at h
        rcases List.mem_cons.1 h with rfl | h
        · rintro hmem
          rcases List.mem_cons.1 hmem with rfl | hmem
          · exact hne (by simp)
          · exact ih (hparts ▸ List.mem_cons_self) hmem
        · exact ih (hparts ▸ List.mem_cons_of_mem _ h)

/-- A character of joined parts is the mark or comes from a part. -/
theorem mem_intercalate {mark c : Char} {parts : List (List Char)} (h : c ∈ [mark].intercalate parts) :
    c = mark ∨ ∃ part ∈ parts, c ∈ part := by
  induction parts with
  | nil => cases h
  | cons part parts ih =>
    cases parts with
    | nil => exact Or.inr ⟨part, List.mem_cons_self, by simpa [List.intercalate] using h⟩
    | cons next parts =>
      simp only [List.intercalate, List.intersperse_cons_cons, List.flatten_cons, List.mem_append, List.mem_singleton] at h ih
      rcases h with h | h | h
      · exact Or.inr ⟨part, List.mem_cons_self, h⟩
      · exact Or.inl h
      · rcases ih h with h | ⟨part', hpart', h⟩
        · exact Or.inl h
        · exact Or.inr ⟨part', List.mem_cons_of_mem _ hpart', h⟩

/-- A character of a part occurs in the joined parts. -/
theorem mem_intercalate_of_mem {mark c : Char} {parts : List (List Char)} {part : List Char} (hpart : part ∈ parts)
    (h : c ∈ part) : c ∈ [mark].intercalate parts := by
  induction parts with
  | nil => cases hpart
  | cons first parts ih =>
    cases parts with
    | nil =>
      rw [List.mem_singleton.1 hpart] at h
      simpa [List.intercalate] using h
    | cons next parts =>
      simp only [List.intercalate, List.intersperse_cons_cons, List.flatten_cons, List.mem_append] at ih ⊢
      rcases List.mem_cons.1 hpart with rfl | hpart
      · exact Or.inl h
      · exact Or.inr (Or.inr (ih hpart))

/-- A character of a part occurs in the split text. -/
theorem mem_of_mem_splitOn {c d : Char} {s part : List Char} (h : part ∈ s.splitOn c) (hd : d ∈ part) : d ∈ s := by
  rw [← s.intercalate_splitOn c]
  exact mem_intercalate_of_mem h hd

/-- A segment holds no slash of either kind. -/
theorem segmentsOf_spec {text segment : List Char} (h : segment ∈ segmentsOf text) : '/' ∉ segment ∧ '\\' ∉ segment := by
  refine ⟨not_mem_splitOn h, fun hmem => ?_⟩
  obtain ⟨c, _, hc⟩ := List.mem_map.1 (mem_of_mem_splitOn h hmem)
  split at hc
  · cases hc
  · rename_i hne
    exact hne hc

/-- The path of a text is a serialised path of written segments. -/
theorem pathOf_written (text : List Char) :
    ∃ segments, segments ≠ [] ∧ (∀ segment ∈ segments, Written segment) ∧ pathOf text = serialize segments := by
  have hslash : '/' ≠ '%' ∧ ∀ n : Fin 16, '/' ≠ hexDigit n := by decide
  have hbackslash : '\\' ≠ '%' ∧ ∀ n : Fin 16, '\\' ≠ hexDigit n := by decide
  have hne : ∀ t, (segmentsOf t).map (encode pathSet) ≠ [] := fun t h => List.splitOn_ne_nil _ _ (List.map_eq_nil_iff.1 h)
  have hsegments : ∀ t, ∀ segment ∈ (segmentsOf t).map (encode pathSet),
      Plain pathSet segment ∧ '/' ∉ segment ∧ '\\' ∉ segment := by
    intro t segment hsegment
    obtain ⟨raw, hraw, rfl⟩ := List.mem_map.1 hsegment
    obtain ⟨hs, hb⟩ := segmentsOf_spec hraw
    exact ⟨plain_encode keepsEscapes_sets.2.2 _, not_mem_encode hslash hs, not_mem_encode hbackslash hb⟩
  have hempty : ∀ segment ∈ ([] : List (List Char)), Written segment := fun _ h => absurd h List.not_mem_nil
  have hwalk := written_walk (hne (if text.head?.any isSlash then text.tail else text)) (hsegments _) hempty
  exact ⟨_, hwalk.1, hwalk.2, rfl⟩

/-- A non-empty path is written as a slash and its segments joined by slashes. -/
theorem serialize_cons (segment : List Char) (segments : List (List Char)) :
    serialize (segment :: segments) = '/' :: ['/'].intercalate (segment :: segments) := by
  induction segments generalizing segment with
  | nil => simp [serialize]
  | cons next segments ih =>
    have hrest := ih next
    simp only [serialize, List.flatMap_cons] at hrest ⊢
    rw [hrest]
    simp [List.intercalate, List.intersperse_cons_cons]

/-- The parser leaves a path of written segments as it is. -/
theorem pathOf_serialize {segments : List (List Char)} (hne : segments ≠ []) (h : ∀ segment ∈ segments, Written segment) :
    pathOf (serialize segments) = serialize segments := by
  cases segments with
  | nil => exact absurd rfl hne
  | cons segment rest =>
    have hplain : ∀ c ∈ ['/'].intercalate (segment :: rest), c ≠ '\\' := by
      intro c hc
      rintro rfl
      rcases mem_intercalate hc with hslash | ⟨part, hpart, hmem⟩
      · exact absurd hslash (by decide)
      · exact (h part hpart).noBackslash hmem
    have hmap : (['/'].intercalate (segment :: rest)).map (fun c => if c = '\\' then '/' else c) =
        ['/'].intercalate (segment :: rest) :=
      (List.map_congr_left fun c hc => if_neg (hplain c hc)).trans (List.map_id _)
    have hsplit : segmentsOf (['/'].intercalate (segment :: rest)) = segment :: rest := by
      rw [segmentsOf, hmap]
      exact List.splitOn_intercalate '/' (fun part hpart => (h part hpart).noSlash) (List.cons_ne_nil _ _)
    have hencode : (segment :: rest).map (encode pathSet) = segment :: rest :=
      (List.map_congr_left fun part hpart => encode_of_plain (h part hpart).plain).trans (List.map_id _)
    rw [serialize_cons, pathOf, List.head?_cons]
    rw [if_pos (by rfl), List.tail_cons, hsplit, hencode, walk_of_written h, List.nil_append, serialize_cons]

/-! ## The parser -/

/-- The query is written with its mark unless its encoding is empty. -/
theorem searchOf_eq (set : Char → Bool) (query : List Char) :
    searchOf set query = if encode set query = [] then [] else '?' :: encode set query := by
  unfold searchOf
  by_cases h : query = []
  · rw [if_pos h, h]
    rfl
  · rw [if_neg h, if_neg fun hnil => h (encode_eq_nil hnil)]

/-- The fragment is written with its mark unless its encoding is empty. -/
theorem hashOf_eq (fragment : List Char) :
    hashOf fragment = if encode fragmentSet fragment = [] then [] else '#' :: encode fragmentSet fragment := by
  unfold hashOf
  by_cases h : fragment = []
  · rw [if_pos h, h]
    rfl
  · rw [if_neg h, if_neg fun hnil => h (encode_eq_nil hnil)]

/-- A written path is made of slashes and of characters its encode set allows. -/
theorem mem_serialize {segments : List (List Char)} (h : ∀ segment ∈ segments, Written segment) {c : Char}
    (hc : c ∈ serialize segments) : c = '/' ∨ pathSet c = false ∧ c ≠ '\\' := by
  obtain ⟨segment, hsegment, hmem⟩ := List.mem_flatMap.1 hc
  rcases List.mem_cons.1 hmem with rfl | hmem
  · exact Or.inl rfl
  · refine Or.inr ⟨(h segment hsegment).plain c hmem, ?_⟩
    rintro rfl
    exact (h segment hsegment).noBackslash hmem

/-- Characters outside the query set are printable ASCII. -/
theorem toNat_of_querySet {c : Char} (h : querySet c = false) : 0x20 < c.toNat ∧ c.toNat < 0x7F := by
  have hspace : c ≠ ' ' := by
    rintro rfl
    exact absurd h (by decide)
  have hne : c.toNat ≠ 0x20 := fun heq => hspace (Char.toNat_inj.1 heq)
  simp only [querySet, c0Set, Bool.or_eq_false_iff, decide_eq_false_iff_not] at h
  omega

/-- Characters outside the fragment set are printable ASCII. -/
theorem toNat_of_fragmentSet {c : Char} (h : fragmentSet c = false) : 0x20 < c.toNat ∧ c.toNat < 0x7F := by
  have hspace : c ≠ ' ' := by
    rintro rfl
    exact absurd h (by decide)
  have hne : c.toNat ≠ 0x20 := fun heq => hspace (Char.toNat_inj.1 heq)
  simp only [fragmentSet, c0Set, Bool.or_eq_false_iff, decide_eq_false_iff_not] at h
  omega

theorem querySet_of_pathSet {c : Char} (h : pathSet c = false) : querySet c = false := (Bool.or_eq_false_iff.1 h).1

theorem querySet_of_specialQuerySet {c : Char} (h : specialQuerySet c = false) : querySet c = false := (Bool.or_eq_false_iff.1 h).1

/-- Nothing is removed from a text without spaces and controls. -/
theorem clean_of_visible {s : List Char} (h : ∀ c ∈ s, 0x20 < c.toNat) : clean s = s := by
  have hdrop : ∀ t : List Char, (∀ c ∈ t, 0x20 < c.toNat) → t.dropWhile (fun c => decide (c.toNat ≤ 0x20)) = t := by
    intro t ht
    cases t with
    | nil => rfl
    | cons c t =>
      have hlt := ht c List.mem_cons_self
      exact List.dropWhile_cons_of_neg (by simpa using hlt)
  have hreverse : ∀ c ∈ s.reverse, 0x20 < c.toNat := fun c hc => h c (List.mem_reverse.1 hc)
  rw [clean, hdrop s h, hdrop _ hreverse, List.reverse_reverse, List.filter_eq_self]
  intro c hc
  have hlt := h c hc
  have hne : ∀ d : Char, d.toNat ≤ 0x20 → c ≠ d := by
    rintro d hd rfl
    omega
  simp [hne '\t' (by decide), hne '\r' (by decide), hne '\n' (by decide)]

/-- A text that starts with a slash has no scheme. -/
theorem splitScheme_slash (t : List Char) : splitScheme ('/' :: t) = none := by
  unfold splitScheme
  rw [if_neg]
  rintro ⟨_, halpha, _⟩
  rw [List.takeWhile_cons_of_pos (by decide)] at halpha
  exact Bool.false_ne_true halpha

section Reparse

variable {H : Type} (parseHost : List Char → Option H)

/-- What the parser writes of a URL is visible. -/
theorem visible_href (origin : Origin H) (rest : List Char) :
    ∀ c ∈ (afterOrigin origin rest).href, 0x20 < c.toNat ∧ c.toNat < 0x7F := by
  obtain ⟨segments, _, hwritten, hpath⟩ := pathOf_written (partition '?' (partition '#' rest).1).1
  intro c hc
  simp only [Url.href, afterOrigin, List.mem_append, hpath] at hc
  rcases hc with (hc | hc) | hc
  · rcases mem_serialize hwritten hc with rfl | ⟨hplain, _⟩
    · decide
    · exact toNat_of_querySet (querySet_of_pathSet hplain)
  · unfold searchOf at hc
    split at hc
    · cases hc
    · rcases List.mem_cons.1 hc with rfl | hc
      · decide
      · exact toNat_of_querySet (querySet_of_specialQuerySet (plain_encode keepsEscapes_sets.2.1 _ c hc))
  · unfold hashOf at hc
    split at hc
    · cases hc
    · rcases List.mem_cons.1 hc with rfl | hc
      · decide
      · exact toNat_of_fragmentSet (plain_encode keepsEscapes_sets.1 _ c hc)

/-- The parts of a URL are read again from what is written of it. -/
theorem afterOrigin_href (origin : Origin H) (rest : List Char) :
    afterOrigin origin (afterOrigin origin rest).href = afterOrigin origin rest := by
  obtain ⟨segments, hne, hwritten, hpath⟩ := pathOf_written (partition '?' (partition '#' rest).1).1
  generalize hquery : encode specialQuerySet (partition '?' (partition '#' rest).1).2 = query
  generalize hfragment : encode fragmentSet (partition '#' rest).2 = fragment
  have hsearch : (afterOrigin origin rest).search = if query = [] then [] else '?' :: query := by
    rw [← hquery]
    exact searchOf_eq _ _
  have hhash : (afterOrigin origin rest).hash = if fragment = [] then [] else '#' :: fragment := by
    rw [← hfragment]
    exact hashOf_eq _
  have hpathname : (afterOrigin origin rest).pathname = serialize segments := hpath
  have hplainQuery : Plain specialQuerySet query := hquery ▸ plain_encode keepsEscapes_sets.2.1 _
  have hplainFragment : Plain fragmentSet fragment := hfragment ▸ plain_encode keepsEscapes_sets.1 _
  have hmark : '?' ∉ serialize segments := by
    intro hmem
    rcases mem_serialize hwritten hmem with h | ⟨h, _⟩
    · exact absurd h (by decide)
    · exact absurd h (by decide)
  have hmarks : '#' ∉ serialize segments ++ if query = [] then [] else '?' :: query := by
    intro hmem
    rcases List.mem_append.1 hmem with hmem | hmem
    · rcases mem_serialize hwritten hmem with h | ⟨h, _⟩
      · exact absurd h (by decide)
      · exact absurd h (by decide)
    · split at hmem
      · cases hmem
      · rcases List.mem_cons.1 hmem with h | hmem
        · exact absurd h (by decide)
        · exact absurd (hplainQuery _ hmem) (by decide)
  have hhref : (afterOrigin origin rest).href =
      (serialize segments ++ if query = [] then [] else '?' :: query) ++ if fragment = [] then [] else '#' :: fragment := by
    rw [Url.href, hpathname, hsearch, hhash]
  have hagain : afterOrigin origin (afterOrigin origin rest).href =
      ⟨origin, false, pathOf (serialize segments), searchOf specialQuerySet query, hashOf fragment⟩ := by
    rw [hhref]
    unfold afterOrigin
    rw [Urllib.partition_marked hmarks, Urllib.partition_marked hmark]
  rw [hagain, pathOf_serialize hne hwritten, searchOf_eq, encode_of_plain hplainQuery, hashOf_eq, encode_of_plain hplainFragment,
    ← hsearch, ← hhash, ← hpathname]
  rfl

/-- A text that starts with one slash has no scheme and no authority. -/
theorem parse_slash (base : Origin H) {t : List Char} (hvisible : ∀ c ∈ '/' :: t, 0x20 < c.toNat)
    (hhead : ∀ c, t.head? = some c → isSlash c = false) : parse parseHost base ('/' :: t) = some (afterOrigin base ('/' :: t)) := by
  have hrelative : relative parseHost base ('/' :: t) = some (afterOrigin base ('/' :: t)) := by
    unfold relative
    split
    · rename_i c d u heq
      obtain ⟨rfl, rfl⟩ := List.cons.inj heq
      rw [hhead d rfl, Bool.and_false, if_neg Bool.false_ne_true]
    · rfl
  rw [parse, clean_of_visible hvisible, splitScheme_slash]
  exact hrelative

/-- What is written of a URL starts with a slash, and with one only when its path does. -/
theorem href_slash (origin : Origin H) (rest : List Char) : ∃ t, (afterOrigin origin rest).href = '/' :: t ∧
    (¬ ['/', '/'] <+: (afterOrigin origin rest).pathname → ∀ c, t.head? = some c → isSlash c = false) := by
  obtain ⟨segments, hne, hwritten, hpath⟩ := pathOf_written (partition '?' (partition '#' rest).1).1
  have hpathname : (afterOrigin origin rest).pathname = serialize segments := hpath
  obtain ⟨t, ht⟩ : ∃ t, serialize segments = '/' :: t := by
    cases segments with
    | nil => exact absurd rfl hne
    | cons segment segments => exact ⟨_, serialize_cons segment segments⟩
  refine ⟨t ++ ((afterOrigin origin rest).search ++ (afterOrigin origin rest).hash), ?_, ?_⟩
  · rw [Url.href, hpathname, ht, List.append_assoc, List.cons_append]
  intro h c hc
  rw [hpathname, ht] at h
  cases t with
  | cons d t =>
    obtain rfl : d = c := by simpa using hc
    have hmem : d ∈ serialize segments := by
      rw [ht]
      simp
    have hnotSlash : d ≠ '/' := by
      rintro rfl
      exact h ⟨t, rfl⟩
    rcases mem_serialize hwritten hmem with rfl | ⟨_, hbackslash⟩
    · exact absurd rfl hnotSlash
    · simp [isSlash, hnotSlash, hbackslash]
  | nil =>
    simp only [afterOrigin, searchOf, hashOf, List.nil_append] at hc
    split at hc
    · split at hc
      · cases hc
      · cases hc
        decide
    · cases hc
      decide

/-- What is written of a URL is read as this URL on its origin, unless its path starts with two slashes. -/
theorem parse_href (origin : Origin H) (rest : List Char) (h : ¬ ['/', '/'] <+: (afterOrigin origin rest).pathname) :
    parse parseHost origin (afterOrigin origin rest).href = some (afterOrigin origin rest) := by
  obtain ⟨t, ht, hhead⟩ := href_slash origin rest
  have hvisible : ∀ c ∈ '/' :: t, 0x20 < c.toNat := by
    rw [← ht]
    exact fun c hc => (visible_href origin rest c hc).1
  have hagain := parse_slash parseHost origin hvisible (hhead h)
  rw [← ht, afterOrigin_href] at hagain
  exact hagain

/-- No backslash is written that was not there. -/
theorem not_mem_href (origin : Origin H) {rest : List Char} (h : '\\' ∉ rest) : '\\' ∉ (afterOrigin origin rest).href := by
  have hmark : '\\' ≠ '%' ∧ ∀ n : Fin 16, '\\' ≠ hexDigit n := by decide
  have hfragment : '\\' ∉ (partition '#' rest).2 := fun hmem => h (Urllib.partition_snd_subset _ _ hmem)
  have hquery : '\\' ∉ (partition '?' (partition '#' rest).1).2 := fun hmem =>
    h (Urllib.partition_fst_subset _ _ (Urllib.partition_snd_subset _ _ hmem))
  obtain ⟨segments, _, hwritten, hpath⟩ := pathOf_written (partition '?' (partition '#' rest).1).1
  intro hmem
  simp only [Url.href, afterOrigin, List.mem_append, hpath] at hmem
  rcases hmem with (hmem | hmem) | hmem
  · rcases mem_serialize hwritten hmem with heq | ⟨_, hne⟩
    · exact absurd heq (by decide)
    · exact hne rfl
  · unfold searchOf at hmem
    split at hmem
    · cases hmem
    · rcases List.mem_cons.1 hmem with heq | hmem
      · exact absurd heq (by decide)
      · exact not_mem_encode hmark hquery hmem
  · unfold hashOf at hmem
    split at hmem
    · cases hmem
    · rcases List.mem_cons.1 hmem with heq | hmem
      · exact absurd heq (by decide)
      · exact not_mem_encode hmark hfragment hmem

end Reparse

/-! ## Schemes -/

/-- What is left of a text is in front of what is left of a longer one. -/
theorem clean_append (s t : List Char) : clean s <+: clean (s ++ t) := by
  refine List.IsPrefix.filter _ ?_
  have hright : ∀ u : List Char, (u.reverse.dropWhile fun c => decide (c.toNat ≤ 0x20)).reverse <+:
      ((u ++ t).reverse.dropWhile fun c => decide (c.toNat ≤ 0x20)).reverse := by
    intro u
    rw [List.reverse_append, List.dropWhile_append]
    split
    · exact List.prefix_refl _
    · rw [List.reverse_append, List.reverse_reverse]
      have hstart : (u.reverse.dropWhile fun c => decide (c.toNat ≤ 0x20)).reverse <+: u := by
        have h := List.reverse_prefix.2 (List.dropWhile_suffix (fun c : Char => decide (c.toNat ≤ 0x20)) (l := u.reverse))
        rwa [List.reverse_reverse] at h
      exact hstart.trans (List.prefix_append _ _)
  rw [List.dropWhile_append]
  split
  · rename_i hempty
    rw [List.isEmpty_iff.1 hempty]
    exact List.nil_prefix
  · exact hright _

/-- A longer text has the scheme of its beginning. -/
theorem splitScheme_prefix {s t scheme rest : List Char} (hstart : s <+: t) (h : splitScheme s = some (scheme, rest)) :
    ∃ rest', splitScheme t = some (scheme, rest') := by
  obtain ⟨u, rfl⟩ := hstart
  unfold splitScheme at h ⊢
  dsimp only at h ⊢
  split at h
  · rename_i hscheme
    obtain ⟨hcolon, halpha, hall⟩ := hscheme
    cases h
    have hbefore : (s ++ u).takeWhile (fun c => decide (c ≠ ':')) = s.takeWhile (fun c => decide (c ≠ ':')) := by
      rw [List.takeWhile_append, if_neg]
      intro hlen
      have heq := (List.takeWhile_prefix (fun c => decide (c ≠ ':')) (l := s)).eq_of_length hlen
      rw [List.takeWhile_eq_self_iff] at heq
      exact absurd (heq ':' hcolon) (by decide)
    rw [hbefore, if_pos ⟨List.mem_append_left _ hcolon, halpha, hall⟩]
    exact ⟨_, rfl⟩
  · cases h

end Whatwg
