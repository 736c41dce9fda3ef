import AuthService.PublicLocale

/-!
# Locale paths form a lens

The locale of a path can be read back, stripped and replaced. The segments that stay after stripping are those of the path
without its leading language, unless the path begins with two slashes and has a language: then the cut is made too early.
-/

namespace AuthService.Frontend

/-- The segments of a path without a leading language. -/
def segmentsAfterLocale (p : List Char) : List (List Char) :=
  match segments p with
  | [] => []
  | segment :: rest => if (isLanguageCode segment).isSome then rest else segment :: rest

/-- The laws of reading, stripping and replacing the locale of a path. -/
structure LocaleLens (p : List Char) : Prop where
  read : ∀ a, localeFromPathname (withLocaleInPath p a) = some a
  strip : ∀ a, stripLocaleFromPathname (withLocaleInPath p a) = stripLocaleFromPathname p
  replace : ∀ a b, withLocaleInPath (withLocaleInPath p a) b = withLocaleInPath p b
  stripped : segments (stripLocaleFromPathname p) = segmentsAfterLocale p

namespace LocaleAux

theorem isLanguageCode_text (l : LanguageCode) : isLanguageCode l.text = some l := by
  cases l <;> rfl

/-- A recognised segment is the text of its language code. -/
theorem text_of_isLanguageCode {s : List Char} {l : LanguageCode} (h : isLanguageCode s = some l) : l.text = s := by
  have := List.find?_some h
  exact of_decide_eq_true this

theorem slash_not_mem_text (l : LanguageCode) : '/' ∉ l.text := by
  cases l <;> decide

/-- Two letters. -/
theorem text_letters (l : LanguageCode) : ∃ c d, l.text = [c, d] ∧ d ≠ '/' := by
  cases l with
  | en => exact ⟨'e', 'n', rfl, by decide⟩
  | ja => exact ⟨'j', 'a', rfl, by decide⟩

theorem length_text (l : LanguageCode) : l.text.length = 2 := by
  cases l <;> rfl

/-! ## Segments -/

/-- A leading slash adds no segment. -/
theorem segments_slash (s : List Char) : segments ('/' :: s) = segments s := by
  rw [segments, List.splitOn_cons_eq_if_modifyHead, if_pos (beq_self_eq_true _)]
  rfl

/-- A non-empty word before a slash is the first segment. -/
theorem segments_append_slash {w : List Char} (hw : w ≠ []) (hslash : '/' ∉ w) (s : List Char) :
    segments (w ++ '/' :: s) = w :: segments s := by
  rw [segments, List.splitOn_append_cons_self_of_not_mem hslash]
  exact List.filter_cons_of_pos (decide_eq_true hw)

/-- A non-empty word without a slash is the only segment. -/
theorem segments_of_not_mem {w : List Char} (hw : w ≠ []) (hslash : '/' ∉ w) : segments w = [w] := by
  rw [segments, List.splitOn_eq_singleton hslash]
  exact List.filter_cons_of_pos (decide_eq_true hw)

/-- A text is a segment, then nothing or a slash and more. -/
theorem exists_segment (s : List Char) : ∃ w rest, '/' ∉ w ∧ s = w ++ rest ∧ (rest = [] ∨ ['/'] <+: rest) := by
  induction s with
  | nil => exact ⟨[], [], nofun, rfl, Or.inl rfl⟩
  | cons c s ih =>
    by_cases hc : c = '/'
    · subst hc
      exact ⟨[], '/' :: s, nofun, rfl, Or.inr ⟨s, rfl⟩⟩
    · obtain ⟨w, rest, hw, rfl, hrest⟩ := ih
      exact ⟨c :: w, rest, fun h => (List.mem_cons.1 h).elim (fun h => hc h.symm) hw, rfl, hrest⟩

/-- A non-empty word before the rest of a path is its first segment. -/
theorem segments_append {w rest : List Char} (hw : w ≠ []) (hslash : '/' ∉ w) (hrest : rest = [] ∨ ['/'] <+: rest) :
    segments (w ++ rest) = w :: segments rest := by
  obtain rfl | ⟨tail, rfl⟩ := hrest
  · rw [List.append_nil, segments_of_not_mem hw hslash]
    rfl
  · exact (segments_append_slash hw hslash tail).trans (congrArg _ (segments_slash tail).symm)

/-- The first segment of a text that does not begin with a slash is what it begins with. -/
theorem segments_of_head {c : Char} {s : List Char} (hc : c ≠ '/') : ∃ w rest, c :: s = w ++ rest ∧
    (rest = [] ∨ ['/'] <+: rest) ∧ segments (c :: s) = w :: segments rest := by
  obtain ⟨w, rest, hslash, heq, hrest⟩ := exists_segment (c :: s)
  refine ⟨w, rest, heq, hrest, ?_⟩
  rw [heq]
  refine segments_append ?_ hslash hrest
  rintro rfl
  obtain rfl | ⟨tail, rfl⟩ := hrest
  · cases heq
  · exact hc (List.cons.inj heq).1

/-! ## Stripping -/

/-- A rest that starts with a slash is not replaced by the root. -/
theorem stripped_of_slash {s : List Char} (h : ['/'] <+: s) : (if s = [] then ['/'] else s) = s := by
  obtain ⟨tail, rfl⟩ := h
  rfl

theorem strip_of_none {p : List Char} (h : localeFromPathname p = none) : stripLocaleFromPathname p = p := by
  rw [stripLocaleFromPathname, h]

/-- Stripping keeps the segments after the locale. -/
theorem segments_strip {p : List Char} {l : LanguageCode} (h : localeFromPathname p = some l) :
    segments (stripLocaleFromPathname p) = segments (p.drop 3) := by
  rw [stripLocaleFromPathname, h]
  dsimp only
  rw [length_text]
  split
  · rename_i h
    rw [stripped_of_slash h]
  · exact segments_slash _

/-- Stripping keeps the leading slash. -/
theorem strip_slash {p : List Char} (h : ['/'] <+: p) : ['/'] <+: stripLocaleFromPathname p := by
  rw [stripLocaleFromPathname]
  split
  · exact h
  · dsimp only
    split
    · rename_i h
      rw [stripped_of_slash h]
      exact h
    · exact ⟨_, rfl⟩

/-- A path with a locale is the locale in front of the stripped path, with a single slash before it. -/
theorem withLocaleInPath_eq (p : List Char) (a : LanguageCode) :
    withLocaleInPath p a = '/' :: (a.text ++ stripLocaleFromPathname p) := by
  rw [withLocaleInPath]
  split
  · rename_i h
    rw [h]
    rfl
  · rfl

/-- The prefix put before a path is its first segment. -/
theorem segments_locale {s : List Char} (h : ['/'] <+: s) (a : LanguageCode) :
    segments ('/' :: (a.text ++ s)) = a.text :: segments s := by
  rw [segments_slash]
  exact segments_append (by cases a <;> nofun) (slash_not_mem_text a) (Or.inr h)

/-- The prefix put before a path is the locale it is read as. -/
theorem locale_locale {s : List Char} (h : ['/'] <+: s) (a : LanguageCode) :
    localeFromPathname ('/' :: (a.text ++ s)) = some a := by
  rw [localeFromPathname, segments_locale h]
  exact isLanguageCode_text a

/-- Stripping removes exactly the prefix put before a path. -/
theorem strip_locale {s : List Char} (h : ['/'] <+: s) (a : LanguageCode) :
    stripLocaleFromPathname ('/' :: (a.text ++ s)) = s := by
  have hdrop : ('/' :: (a.text ++ s)).drop (a.text.length + 1) = s := List.drop_left
  rw [stripLocaleFromPathname, locale_locale h]
  dsimp only
  rw [hdrop, if_pos h, stripped_of_slash h]

/-- The locale set on a path is the one read from it. -/
theorem read_with {p : List Char} (h : ['/'] <+: p) (a : LanguageCode) : localeFromPathname (withLocaleInPath p a) = some a := by
  rw [withLocaleInPath_eq]
  exact locale_locale (strip_slash h) a

/-- Setting a locale does not change the path under it. -/
theorem strip_with {p : List Char} (h : ['/'] <+: p) (a : LanguageCode) :
    stripLocaleFromPathname (withLocaleInPath p a) = stripLocaleFromPathname p := by
  rw [withLocaleInPath_eq]
  exact strip_locale (strip_slash h) a

/-- The last locale set wins. -/
theorem with_with {p : List Char} (h : ['/'] <+: p) (a b : LanguageCode) :
    withLocaleInPath (withLocaleInPath p a) b = withLocaleInPath p b := by
  rw [withLocaleInPath_eq _ b, strip_with h, withLocaleInPath_eq p b]

/-! ## Segments of a stripped path -/

/-- Without a locale every segment counts as content. -/
theorem after_of_none {p : List Char} (h : localeFromPathname p = none) : segmentsAfterLocale p = segments p := by
  rw [localeFromPathname] at h
  rw [segmentsAfterLocale]
  cases hsegments : segments p with
  | nil => rfl
  | cons segment rest =>
    rw [hsegments] at h
    have hnone : isLanguageCode segment = none := h
    dsimp only
    rw [hnone]
    rfl

/-- A path with a locale is that locale followed by its content. -/
theorem segments_of_locale {p : List Char} {l : LanguageCode} (h : localeFromPathname p = some l) :
    segments p = l.text :: segmentsAfterLocale p := by
  rw [localeFromPathname] at h
  rw [segmentsAfterLocale]
  cases hsegments : segments p with
  | nil =>
    rw [hsegments] at h
    cases h
  | cons segment rest =>
    rw [hsegments] at h
    have hsome : isLanguageCode segment = some l := h
    dsimp only
    rw [hsome, text_of_isLanguageCode hsome]
    rfl

/-- Behind one slash the cut is the language. -/
theorem segments_cut {c : Char} {s : List Char} {l : LanguageCode} (hc : c ≠ '/')
    (h : localeFromPathname ('/' :: c :: s) = some l) :
    segments (('/' :: c :: s).drop 3) = segmentsAfterLocale ('/' :: c :: s) := by
  obtain ⟨w, rest, heq, -, hsegments⟩ := segments_of_head (s := s) hc
  have hall := segments_of_locale h
  rw [segments_slash, hsegments] at hall
  obtain ⟨rfl, hrest⟩ := List.cons.inj hall
  have hdrop : (c :: s).drop 2 = rest := by
    rw [heq, ← length_text l]
    exact List.drop_left
  rw [← hrest, ← hdrop]
  rfl

/-- Behind two slashes the cut takes no segment away. -/
theorem length_cut {s : List Char} {l : LanguageCode} (h : localeFromPathname ('/' :: '/' :: s) = some l) :
    (segments (('/' :: '/' :: s).drop 3)).length = (segmentsAfterLocale ('/' :: '/' :: s)).length + 1 := by
  have hall := segments_of_locale h
  rw [segments_slash, segments_slash] at hall
  rw [← List.length_cons (a := l.text), ← hall]
  cases s with
  | nil => cases hall
  | cons c s =>
    by_cases hc : c = '/'
    · subst hc
      rw [segments_slash]
      rfl
    · obtain ⟨w, rest, heq, hrest, hsegments⟩ := segments_of_head (s := s) hc
      rw [hsegments] at hall
      obtain ⟨rfl, -⟩ := List.cons.inj hall
      obtain ⟨c', d, htext, hd⟩ := text_letters l
      rw [htext, List.cons_append, List.cons.injEq] at heq
      obtain ⟨rfl, rfl⟩ := heq
      -- the second letter of the language stays in front of the rest
      have hcut : segments (d :: rest) = [d] :: segments rest :=
        segments_append (List.cons_ne_nil d []) (fun hmem => hd (List.mem_singleton.1 hmem).symm) hrest
      rw [hsegments]
      exact (congrArg List.length hcut).trans rfl

end LocaleAux

open LocaleAux

/-- The locale functions form a lens exactly when the path does not begin with two slashes in front of a language. -/
theorem localeLens_iff (p : List Char) (h : ['/'] <+: p) :
    LocaleLens p ↔ ¬(['/', '/'] <+: p ∧ ∃ l : LanguageCode, (segments p).head? = some l.text) := by
  constructor
  · rintro hlens ⟨⟨s, rfl⟩, l, hhead⟩
    have hlocale : localeFromPathname ('/' :: '/' :: s) = some l := by
      rw [localeFromPathname]
      exact (congrArg (Option.bind · isLanguageCode) hhead).trans (isLanguageCode_text l)
    have hsegments : segments (('/' :: '/' :: s).drop 3) = segmentsAfterLocale ('/' :: '/' :: s) :=
      (segments_strip hlocale).symm.trans hlens.stripped
    have hlength := length_cut hlocale
    rw [hsegments] at hlength
    omega
  · refine fun hnot => ⟨read_with h, strip_with h, with_with h, ?_⟩
    cases hlocale : localeFromPathname p with
    | none => rw [strip_of_none hlocale, after_of_none hlocale]
    | some l =>
      rw [segments_strip hlocale]
      have hsegments := segments_of_locale hlocale
      obtain ⟨s, rfl⟩ := h
      cases s with
      | nil => cases hlocale
      | cons c s =>
        by_cases hc : c = '/'
        · subst hc
          exact absurd ⟨⟨s, rfl⟩, l, congrArg List.head? hsegments⟩ hnot
        · exact segments_cut hc hlocale

/-- A login page below a language. -/
theorem localeLens_iff_login : LocaleLens "/en/login".toList := by
  refine (localeLens_iff _ (by decide)).2 ?_
  rintro ⟨h, -⟩
  exact absurd h (by decide)

/-- Behind a second slash the first letter of the language is cut instead of the language. -/
theorem localeLens_double_slash : ¬LocaleLens "//en/x".toList := fun h => absurd h.stripped (by decide)

end AuthService.Frontend
