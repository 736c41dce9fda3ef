import AuthService.AuthRedirect
import AuthService.Library.WhatwgRoundTrip

/-!
# Redirect targets in the browser stay on the origin, unless a path hides two slashes

The check looks at the parsed URL, and what is returned is parsed again. A `.` segment in front of an empty one leaves a path with two
slashes in front, which is read as an authority. The path of a `blob` URL is a URL of its own, whose origin the check sees.
-/

namespace AuthService.Frontend

open Whatwg
open Urllib (partition)

variable {H : Type} [DecidableEq H] (parseHost : List Char → Option H)

/-- A value keeps its meaning: what is returned is read as a URL of the origin that is no auth page, does not start with two slashes,
and is returned again when it is given. -/
def StaysOnOrigin (origin : Origin H) (value : JsValue) : Prop :=
  let href := normalizeRedirectHref parseHost origin value defaultFallback
  (∃ url, parse parseHost origin href = some url ∧ url.origin = origin ∧ normalizePathname url.pathname ∉ authPagePaths) ∧
    ¬ ['/', '/'] <+: href ∧ normalizeRedirectHref parseHost origin (.string href) defaultFallback = href

/-- A text that the check refuses before it parses it. -/
def Refused (value : List Char) : Prop := value = [] ∨ '\\' ∈ value ∨ hasAsciiControl value = true

/-- A text that is parsed to a URL of the origin is parsed to no `blob` URL, and to a path with one slash in front. -/
def PlainPath (origin : Origin H) : JsValue → Prop
  | .other => True
  | .string value => ¬ Refused value → ∀ url, parse parseHost origin value = some url → url.origin = origin →
      normalizePathname url.pathname ∉ authPagePaths → url.isBlob = false ∧ ¬ ['/', '/'] <+: url.pathname

namespace AuthRedirectAux

section Urls

variable {H : Type} {parseHost : List Char → Option H}

/-! ## The URLs of an origin -/

/-- A URL with an authority is read after its origin from a part of the text. -/
theorem authority_eq {scheme : Scheme} {rest : List Char} {url : Url H} (h : authority parseHost scheme rest = some url) :
    ∃ rest', url = afterOrigin url.origin rest' ∧ rest' ⊆ rest := by
  unfold authority at h
  dsimp only at h
  split at h
  · cases h
  · simp only [Option.bind_eq_bind, Option.bind_eq_some_iff, pure, Option.some.injEq] at h
    obtain ⟨host, _, port, _, rfl⟩ := h
    exact ⟨_, rfl, (List.dropWhile_suffix _).subset⟩

/-- A relative URL is read after its origin from a part of the text. -/
theorem relative_eq {base : Origin H} {rest : List Char} {url : Url H} (h : relative parseHost base rest = some url) :
    ∃ rest', url = afterOrigin url.origin rest' ∧ rest' ⊆ rest := by
  unfold relative at h
  split at h
  · split at h
    · obtain ⟨rest', hurl, hsub⟩ := authority_eq h
      exact ⟨rest', hurl, fun c hc => (List.dropWhile_suffix _).subset (hsub hc)⟩
    · cases h
      exact ⟨_, rfl, fun _ hc => hc⟩
  · cases h
    exact ⟨_, rfl, fun _ hc => hc⟩

/-- Cleaning only removes characters. -/
theorem clean_subset (s : List Char) : clean s ⊆ s := by
  intro c hc
  have hmem := (List.mem_filter.1 hc).1
  have hmem := (List.dropWhile_suffix _).subset (List.mem_reverse.1 hmem)
  exact (List.dropWhile_suffix _).subset (List.mem_reverse.1 hmem)

/-- What follows the scheme is made of the text's characters. -/
theorem splitScheme_subset {s scheme rest : List Char} (h : splitScheme s = some (scheme, rest)) : rest ⊆ s := by
  unfold splitScheme at h
  dsimp only at h
  split at h
  · cases h
    exact Urllib.partition_snd_subset _ _
  · cases h

/-- A URL that is parsed is made of an origin and a part of the text, or is a `blob` URL. -/
theorem parse_cases {base : Origin H} {s : List Char} {url : Url H} (h : parse parseHost base s = some url) :
    (∃ rest, url = afterOrigin url.origin rest ∧ rest ⊆ s) ∨ ∃ rest, blob parseHost rest = some url := by
  unfold parse at h
  split at h
  · obtain ⟨rest, hurl, hsub⟩ := relative_eq h
    exact Or.inl ⟨rest, hurl, fun c hc => clean_subset s (hsub hc)⟩
  · rename_i scheme rest hscheme
    have hsub := splitScheme_subset hscheme
    split at h
    · obtain ⟨rest', hurl, hsub'⟩ := relative_eq h
      exact Or.inl ⟨rest', hurl, fun c hc => clean_subset s (hsub (hsub' hc))⟩
    · split at h
      · obtain ⟨rest', hurl, hsub'⟩ := authority_eq h
        exact Or.inl ⟨rest', hurl, fun c hc => clean_subset s (hsub ((List.dropWhile_suffix _).subset (hsub' hc)))⟩
      · split at h
        · exact Or.inr ⟨rest, h⟩
        · cases h

/-- A `blob` URL is written with the scheme of its path in front. -/
theorem blob_eq {rest : List Char} {url : Url H} (h : blob parseHost rest = some url) :
    url.isBlob = true ∧ ∃ scheme rest', splitScheme (clean url.href) = some (scheme, rest') ∧ (Scheme.ofText scheme).isSome ∧
      ∃ c t, url.pathname = c :: t ∧ c ≠ '/' := by
  unfold blob at h
  split at h
  · cases h
  · simp only [Option.bind_eq_bind, Option.bind_eq_some_iff, pure, Option.some.injEq] at h
    obtain ⟨inner, hinner, rfl⟩ := h
    unfold parseAbsolute at hinner
    simp only [Option.bind_eq_bind, Option.bind_eq_some_iff] at hinner
    obtain ⟨⟨scheme, rest'⟩, hscheme, kind, hkind, _⟩ := hinner
    refine ⟨rfl, ?_⟩
    generalize opaquePath (partition '?' (partition '#' rest).1).1 = pathname at hscheme
    have hstart : clean pathname <+: clean (pathname ++ searchOf querySet (partition '?' (partition '#' rest).1).2 ++
        hashOf (partition '#' rest).2) := by
      rw [List.append_assoc]
      exact clean_append _ _
    obtain ⟨rest'', hhref⟩ := splitScheme_prefix hstart hscheme
    refine ⟨scheme, rest'', hhref, Option.isSome_iff_exists.2 ⟨kind, hkind⟩, ?_⟩
    cases pathname with
    | nil => simp [clean, splitScheme] at hscheme
    | cons c t =>
      refine ⟨c, t, rfl, ?_⟩
      rintro rfl
      obtain ⟨u, hu⟩ := clean_append ['/'] t
      have hslash : clean ('/' :: t) = '/' :: u := hu.symm
      rw [hslash, splitScheme_slash] at hscheme
      cases hscheme

/-- A URL of a scheme with an origin is read after its origin. -/
theorem parse_ne_blob {base : Origin H} {s scheme rest : List Char} (hscheme : splitScheme (clean s) = some (scheme, rest))
    (hkind : (Scheme.ofText scheme).isSome) {url : Url H} (h : parse parseHost base s = some url) :
    ∃ rest', url = afterOrigin url.origin rest' := by
  obtain ⟨kind, hkind⟩ := Option.isSome_iff_exists.1 hkind
  unfold parse at h
  rw [hscheme] at h
  dsimp only at h
  split at h
  · obtain ⟨rest', hurl, _⟩ := relative_eq h
    exact ⟨rest', hurl⟩
  · rw [hkind] at h
    obtain ⟨rest', hurl, _⟩ := authority_eq h
    exact ⟨rest', hurl⟩

end Urls

variable {parseHost} {origin : Origin H}

/-! ## What is returned -/

variable (parseHost origin) in
/-- The fallback, or the URL that a text is parsed to. -/
theorem href_cases (value : JsValue) (fallback : List Char) :
    normalizeRedirectHref parseHost origin value fallback = fallback ∧ (∀ s, value = .string s → ¬ Refused s →
      ∀ url, parse parseHost origin s = some url → url.origin = origin → normalizePathname url.pathname ∈ authPagePaths) ∨
    ∃ s url, value = .string s ∧ ¬ Refused s ∧ parse parseHost origin s = some url ∧ url.origin = origin ∧
      normalizePathname url.pathname ∉ authPagePaths ∧ normalizeRedirectHref parseHost origin value fallback = url.href := by
  cases value with
  | other => exact Or.inl ⟨rfl, nofun⟩
  | string s =>
    unfold normalizeRedirectHref
    by_cases hrefused : Refused s
    · refine Or.inl ⟨?_, ?_⟩
      · dsimp only
        split
        · rfl
        · rename_i hne
          rw [if_pos (hrefused.resolve_left hne)]
      · intro s' h hnot
        cases h
        exact absurd hrefused hnot
    · have hne : s ≠ [] := fun h => hrefused (Or.inl h)
      have hplain : ¬ ('\\' ∈ s ∨ hasAsciiControl s = true) := fun h => hrefused (Or.inr h)
      dsimp only
      rw [if_neg hne, if_neg hplain]
      cases hparse : parse parseHost origin s with
      | none =>
        refine Or.inl ⟨rfl, ?_⟩
        intro s' h _ url hurl
        cases h
        cases hparse.symm.trans hurl
      | some url =>
        dsimp only
        by_cases horigin : url.origin = origin
        · rw [if_neg (not_not.2 horigin)]
          by_cases hauth : normalizePathname url.pathname ∈ authPagePaths
          · rw [if_pos hauth]
            refine Or.inl ⟨rfl, ?_⟩
            intro s' h _ url' hurl _
            cases h
            cases hparse.symm.trans hurl
            exact hauth
          · rw [if_neg hauth]
            exact Or.inr ⟨s, url, rfl, hrefused, hparse, horigin, hauth, rfl⟩
        · rw [if_pos horigin]
          refine Or.inl ⟨rfl, ?_⟩
          intro s' h _ url' hurl hsame
          cases h
          cases hparse.symm.trans hurl
          exact absurd hsame horigin

/-- A text that is parsed to a URL of the origin that is no auth page is returned as this URL. -/
theorem href_of_parse {s : List Char} (fallback : List Char) {url : Url H} (hrefused : ¬ Refused s) (hparse : parse parseHost origin s = some url)
    (horigin : url.origin = origin) (hauth : normalizePathname url.pathname ∉ authPagePaths) :
    normalizeRedirectHref parseHost origin (.string s) fallback = url.href := by
  rcases href_cases parseHost origin (.string s) fallback with ⟨_, hall⟩ |
    ⟨s', url', hs, _, hparse', _, _, hhref⟩
  · exact absurd (hall s rfl hrefused url hparse horigin) hauth
  · cases hs
    cases hparse.symm.trans hparse'
    exact hhref

variable (origin) in
/-- What is returned for what a `blob` URL is written as starts with a slash. -/
theorem href_of_blob {rest : List Char} {url : Url H} (h : blob parseHost rest = some url) :
    ∃ t, normalizeRedirectHref parseHost origin (.string url.href) defaultFallback = '/' :: t := by
  obtain ⟨_, scheme, rest', hscheme, hkind, _⟩ := blob_eq h
  rcases href_cases parseHost origin (.string url.href) defaultFallback with ⟨hhref, _⟩ |
    ⟨s, url', hs, _, hparse, _, _, hhref⟩
  · rw [hhref]
    exact ⟨_, rfl⟩
  · cases hs
    obtain ⟨rest'', hurl⟩ := parse_ne_blob hscheme hkind hparse
    rw [hhref, hurl]
    obtain ⟨t, ht, _⟩ := href_slash url'.origin rest''
    exact ⟨t, ht⟩

/-! ## The two directions -/

/-- The fallback stays on the origin. -/
theorem stays_of_fallback {value : JsValue}
    (h : normalizeRedirectHref parseHost origin value defaultFallback = defaultFallback) : StaysOnOrigin parseHost origin value := by
  have hvisible : ∀ c ∈ defaultFallback, 0x20 < c.toNat := by simp [defaultFallback]
  have hparse : parse parseHost origin defaultFallback = some (afterOrigin origin defaultFallback) :=
    parse_slash parseHost origin hvisible (by rintro c hc; cases hc; decide)
  have hhref : (afterOrigin origin defaultFallback).href = defaultFallback := by
    have hpath : pathOf defaultFallback = defaultFallback := by decide +kernel
    have hparts : partition '#' defaultFallback = (defaultFallback, []) ∧ partition '?' defaultFallback = (defaultFallback, []) := by
      decide
    simp only [afterOrigin, Url.href, hparts.1, hparts.2, hpath, searchOf, hashOf, if_true, List.append_nil]
  have hauth : normalizePathname (afterOrigin origin defaultFallback).pathname ∉ authPagePaths := by
    have hpathname : normalizePathname (pathOf defaultFallback) ∉ authPagePaths := by decide +kernel
    exact hpathname
  have hrefused : ¬ Refused defaultFallback := by
    unfold Refused
    decide
  unfold StaysOnOrigin
  rw [h]
  refine ⟨⟨_, hparse, rfl, hauth⟩, by decide, ?_⟩
  rw [href_of_parse _ hrefused hparse rfl hauth]
  exact hhref

/-- An accepted path without a second leading slash stays on the origin. -/
theorem stays_of_plain {s : List Char} {url : Url H} (hrefused : ¬ Refused s) (hparse : parse parseHost origin s = some url)
    (horigin : url.origin = origin) (hauth : normalizePathname url.pathname ∉ authPagePaths) (hblob : url.isBlob = false)
    (hpath : ¬ ['/', '/'] <+: url.pathname) : StaysOnOrigin parseHost origin (.string s) := by
  have hhref := href_of_parse defaultFallback hrefused hparse horigin hauth
  rcases parse_cases hparse with ⟨rest, hurl, hsub⟩ | ⟨rest, hrest⟩
  · rw [horigin] at hurl
    subst hurl
    have hagain := parse_href parseHost origin rest hpath
    obtain ⟨t, ht, hhead⟩ := href_slash origin rest
    have hrefused' : ¬ Refused (afterOrigin origin rest).href := by
      rintro (hnil | hbackslash | hcontrol)
      · rw [ht] at hnil
        cases hnil
      · exact not_mem_href origin (fun hmem => hrefused (Or.inr (Or.inl (hsub hmem)))) hbackslash
      · obtain ⟨c, hc, hcontrol⟩ := List.any_eq_true.1 hcontrol
        have hvisible := visible_href origin rest c hc
        simp only [isAsciiControl, Bool.or_eq_true, decide_eq_true_eq, beq_iff_eq] at hcontrol
        omega
    unfold StaysOnOrigin
    rw [hhref]
    refine ⟨⟨_, hagain, rfl, hauth⟩, ?_, href_of_parse _ hrefused' hagain rfl hauth⟩
    rw [ht]
    rintro ⟨u, hu⟩
    have htail : t = '/' :: u := ((List.cons.inj hu).2).symm
    have hslash := hhead hpath '/' (by rw [htail]; rfl)
    cases hslash
  · rw [(blob_eq hrest).1] at hblob
    cases hblob

end AuthRedirectAux

open AuthRedirectAux

/-- A value stays on the origin if and only if it is not parsed to a `blob` URL of the origin, nor to a path with two slashes in
front. -/
theorem redirectHref_stays_iff (parseHost : List Char → Option H) (origin : Origin H) (value : JsValue) :
    StaysOnOrigin parseHost origin value ↔ PlainPath parseHost origin value := by
  constructor
  · intro h
    cases value with
    | other => trivial
    | string s =>
      intro hrefused url hparse horigin hauth
      have hhref := href_of_parse defaultFallback hrefused hparse horigin hauth
      obtain ⟨_, hslashes, hagain⟩ := h
      rw [hhref] at hslashes hagain
      constructor
      · rcases parse_cases hparse with ⟨rest, hurl, _⟩ | ⟨rest, hrest⟩
        · rw [hurl]
          rfl
        · obtain ⟨_, _, _, _, _, c, t, hpathname, hne⟩ := blob_eq hrest
          obtain ⟨u, hu⟩ := href_of_blob origin hrest
          rw [hu, Url.href, hpathname, List.cons_append] at hagain
          exact absurd (List.cons.inj hagain).1.symm hne
      · rintro ⟨u, hu⟩
        refine hslashes ⟨u ++ url.search ++ url.hash, ?_⟩
        rw [Url.href, ← hu]
        simp
  · intro h
    rcases href_cases parseHost origin value defaultFallback with ⟨hhref, _⟩ |
      ⟨s, url, rfl, hrefused, hparse, horigin, hauth, _⟩
    · exact stays_of_fallback hhref
    · obtain ⟨hblob, hpath⟩ := h hrefused url hparse horigin hauth
      exact stays_of_plain hrefused hparse horigin hauth hblob hpath

def sampleOrigin : Origin (List Char) := ⟨.https, "app.example".toList, none⟩

/-- The segment `.` goes away, and what it hid is read as an authority. -/
theorem redirectHref_stays_false : ¬ ∀ (origin : Origin (List Char)) (value : JsValue), StaysOnOrigin some origin value := by
  intro h
  have hhref : normalizeRedirectHref some sampleOrigin (.string "/.//evil.example".toList) defaultFallback =
      "//evil.example".toList := by decide +kernel
  have hslashes := (h sampleOrigin (.string "/.//evil.example".toList)).2.1
  rw [hhref] at hslashes
  exact hslashes (by decide)

end AuthService.Frontend
