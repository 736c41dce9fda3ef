import AuthService.Redirect

/-!
# Redirect targets stay on the origin, unless four slashes hide an authority

`urlparse` takes one `//` and the authority after it off a URL. A value that starts with four slashes has an empty
authority, so it passes the check of `_normalize_redirect_path`, and the path that is left starts with two slashes.
`redirectSafe_iff` says that this is the only way a redirect parameter leaves the origin.
-/

namespace AuthService

open Urllib

namespace RedirectAux

/-- A text without control characters holds none. -/
theorem not_isAsciiControl_of_mem {s : List Char} (h : hasAsciiControl s = false) {c : Char} (hc : c ∈ s) :
    isAsciiControl c = false := by
  cases hb : isAsciiControl c with
  | false => rfl
  | true => exact absurd (List.any_eq_true.2 ⟨c, hc, hb⟩) (by simp only [hasAsciiControl] at h; simp [h])

/-- A text of other characters has no control characters. -/
theorem hasAsciiControl_eq_false {s : List Char} (h : ∀ c ∈ s, isAsciiControl c = false) : hasAsciiControl s = false :=
  List.any_eq_false.2 fun c hc => by simp [h c hc]

/-- What is no control character comes at or after the space. -/
theorem le_toNat_of_not_isAsciiControl {c : Char} (h : isAsciiControl c = false) : 0x20 ≤ c.toNat := by
  simp only [isAsciiControl, Bool.or_eq_false_iff, decide_eq_false_iff_not] at h
  omega

/-- A character of a target a browser keeps on the origin. -/
def Plain (c : Char) : Prop := c ≠ '\\' ∧ isAsciiControl c = false

/-- A character of an encoded query is plain. -/
theorem plain_of_isQueryChar {c : Char} (h : isQueryChar c = true) : Plain c := by
  have hctl : ∀ n : Fin 128, isAsciiControl (Char.ofNat n) = true → isQueryChar (Char.ofNat n) = false := by decide
  constructor
  · rintro rfl
    exact absurd h (by decide)
  · cases hb : isAsciiControl c with
    | false => rfl
    | true =>
      have hlt : c.toNat < 128 := by
        simp only [isAsciiControl, Bool.or_eq_true, decide_eq_true_eq, beq_iff_eq] at hb
        omega
      have hc := hctl ⟨c.toNat, hlt⟩ (by simpa using hb)
      simp only [Char.ofNat_toNat] at hc
      rw [hc] at h
      cases h

/-- A path that is empty or begins with exactly one slash. -/
def SingleSlash (path : List Char) : Prop := path = [] ∨ ∃ t, path = '/' :: t ∧ t.head? ≠ some '/'

/-- The path of a text that does not start with two slashes, and starts like the text after an authority, begins with
exactly one slash. -/
theorem singleSlash_pathOf {rest : List Char} (hrest : ¬['/', '/'] <+: rest)
    (hend : ∀ c t, rest = c :: t → endsNetloc c = true) : SingleSlash (pathOf rest) := by
  cases rest with
  | nil => exact Or.inl rfl
  | cons c t =>
    have hc := hend c t rfl
    simp only [endsNetloc, Bool.or_eq_true, beq_iff_eq] at hc
    rcases hc with (rfl | rfl) | rfl
    · refine Or.inr ⟨pathOf t, pathOf_slash t, fun hh => hrest ?_⟩
      obtain ⟨u, hu⟩ := pathOf_prefixOf t
      cases hp : pathOf t with
      | nil => simp [hp] at hh
      | cons d p =>
        rw [hp] at hh hu
        obtain rfl : d = '/' := by simpa using hh
        exact ⟨p ++ u, by simpa using hu⟩
    · exact Or.inl rfl
    · exact Or.inl rfl

/-- A path that begins with exactly one slash, with a query and a fragment after it. -/
theorem sameOrigin_targetOf {path query fragment : List Char} (hs : SingleSlash path) (hp : ∀ c ∈ path, Plain c)
    (hq : ∀ c ∈ query, Plain c) (hf : ∀ c ∈ fragment, Plain c) : SameOrigin (targetOf path query fragment) := by
  have hmark : ∀ d, Plain d → ∀ s, (∀ c ∈ s, Plain c) → ∀ c ∈ (if s = [] then [] else d :: s), Plain c := by
    intro d hd s h c hc
    split at hc
    · cases hc
    · rcases List.mem_cons.1 hc with rfl | hc
      · exact hd
      · exact h c hc
  have hplain : ∀ c ∈ targetOf path query fragment, Plain c := by
    intro c hc
    simp only [targetOf, List.mem_append] at hc
    rcases hc with (hc | hc) | hc
    · split at hc
      · rw [List.mem_singleton.1 hc]
        exact ⟨by decide, by decide⟩
      · exact hp c hc
    · exact hmark '?' ⟨by decide, by decide⟩ query hq c hc
    · exact hmark '#' ⟨by decide, by decide⟩ fragment hf c hc
  have hnb : '\\' ∉ targetOf path query fragment := fun hm => (hplain _ hm).1 rfl
  obtain ⟨t, ht, hhead⟩ : ∃ t, (if path = [] then ['/'] else path) = '/' :: t ∧ t.head? ≠ some '/' := by
    rcases hs with rfl | ⟨t, rfl, ht⟩
    · exact ⟨[], rfl, by simp⟩
    · exact ⟨t, by simp, ht⟩
  refine ⟨by simp [targetOf, ht], ?_, fun hpre => hnb (hpre.subset (by simp)), hnb,
    hasAsciiControl_eq_false fun c hc => (hplain c hc).2⟩
  rintro ⟨u, hu⟩
  rw [targetOf, ht] at hu
  -- the second character is the head of the path's tail, of the query mark or of the fragment mark
  cases t with
  | nil =>
    revert hu
    split <;> split <;> simp
  | cons d t =>
    simp only [List.cons_append, List.cons.injEq, true_and, List.nil_append] at hu
    exact hhead (by simp [← hu.1])

/-- What follows the authority of a text that starts with a slash starts like the text after an authority. -/
theorem splitNetloc_snd_ends (t : List Char) : ∀ c u, (splitNetloc ('/' :: t)).2 = c :: u → endsNetloc c = true := by
  intro c u h
  unfold splitNetloc at h
  split at h
  · rename_i rest _
    have hnot := List.head?_dropWhile_not (fun c => !endsNetloc c) rest
    rw [show rest.dropWhile (fun c => !endsNetloc c) = c :: u from h] at hnot
    simpa using hnot
  · obtain ⟨rfl, -⟩ := List.cons.inj h
    rfl

/-- What follows the network location is made of the text's characters. -/
theorem splitNetloc_snd_subset (s : List Char) : (splitNetloc s).2 ⊆ s := by
  unfold splitNetloc
  split
  · exact fun c hc => List.mem_cons_of_mem _ (List.mem_cons_of_mem _ ((List.dropWhile_suffix _).subset hc))
  · exact fun c hc => hc

/-- An empty authority is followed by two slashes only in a text that starts with four. -/
theorem four_slashes_of_splitNetloc {t : List Char} (hn : (splitNetloc ('/' :: t)).1 = [])
    (h : ['/', '/'] <+: (splitNetloc ('/' :: t)).2) : ['/', '/', '/', '/'] <+: '/' :: t := by
  unfold splitNetloc at hn h
  split at hn
  · rename_i rest heq
    simp only at hn h
    have hrest : rest.dropWhile (fun c => !endsNetloc c) = rest := by
      have := List.takeWhile_append_dropWhile (p := fun c => !endsNetloc c) (l := rest)
      rwa [hn, List.nil_append] at this
    rw [heq] at h ⊢
    simp only [hrest] at h
    obtain ⟨u, rfl⟩ := h
    exact ⟨u, rfl⟩
  · rename_i hno
    obtain ⟨u, hu⟩ := h
    split at hu
    · rename_i rest heq
      exact absurd heq (hno rest)
    · exact absurd hu.symm (hno u)

/-- A target built from an accepted text stays on the origin when the text after its authority does not start with two
slashes. -/
theorem sameOrigin_of_parts {rest query : List Char} (hrest : ¬['/', '/'] <+: rest)
    (hend : ∀ c t, rest = c :: t → endsNetloc c = true) (hplain : ∀ c ∈ rest, Plain c) (hq : ∀ c ∈ query, Plain c) :
    SameOrigin (targetOf (pathOf rest) query (partition '#' rest).2) :=
  sameOrigin_targetOf (singleSlash_pathOf hrest hend) (fun c hc => hplain c ((pathOf_prefixOf rest).subset hc)) hq
    (fun c hc => hplain c (partition_snd_subset _ _ hc))

/-- The default target stays on the origin. -/
theorem sameOrigin_default : SameOrigin defaultRedirectPath :=
  ⟨by decide, by decide, by decide, by decide, by decide⟩

/-- The parts of what follows the authority, put together. -/
def partsOf (rest : List Char) : List Char :=
  targetOf (pathOf rest) (partition '?' (partition '#' rest).1).2 (partition '#' rest).2

/-- An accepted value that starts with a slash: the checks on the raw text have passed. -/
theorem normalizeRedirectPath_slash {P : Python} {t : List Char} (hlen : ('/' :: t).length ≤ 2048)
    (hbs : '\\' ∉ '/' :: t) (hctl : hasAsciiControl ('/' :: t) = false) :
    normalizeRedirectPath P (some ('/' :: t)) =
      if P.rejectsNetloc (splitNetloc ('/' :: t)).1 then .error .valueError
      else if (splitNetloc ('/' :: t)).1 ≠ [] ∨ isAuthPage P (pathOf (splitNetloc ('/' :: t)).2) = true ∨
          2048 < (partsOf (splitNetloc ('/' :: t)).2).length then .ok defaultRedirectPath
      else .ok (partsOf (splitNetloc ('/' :: t)).2) := by
  have hge : ∀ c ∈ t, 0x20 ≤ c.toNat := fun c hc =>
    le_toNat_of_not_isAsciiControl (not_isAsciiControl_of_mem hctl (List.mem_cons_of_mem _ hc))
  have hraw : ¬('\\' ∈ '/' :: t ∨ hasAsciiControl ('/' :: t) = true) := by simp [hctl, hbs]
  simp only [normalizeRedirectPath, reduceCtorEq, if_false, if_neg (Nat.not_lt.2 hlen), List.head?_cons, ne_eq,
    not_true_eq_false, if_neg hraw]
  rw [urlparse_slash P t hge]
  split
  · rfl
  · simp only [bind, Except.bind, pure, Except.pure, not_true_eq_false, false_or]
    by_cases hn : (splitNetloc ('/' :: t)).1 = []
    · by_cases ha : isAuthPage P (pathOf (splitNetloc ('/' :: t)).2) = true
      · simp [hn, ha]
      · simp [hn, ha, partsOf]
    · simp [hn]

/-- What `_normalize_redirect_path` answers: the default, or the parts of a plain text whose authority is empty. -/
theorem normalizeRedirectPath_cases {P : Python} {value stored : List Char}
    (h : normalizeRedirectPath P (some value) = .ok stored) :
    stored = defaultRedirectPath ∨
      ∃ t, value = '/' :: t ∧ value.length ≤ 2048 ∧ '\\' ∉ value ∧ hasAsciiControl value = false ∧
        (splitNetloc value).1 = [] ∧ stored = partsOf (splitNetloc value).2 := by
  by_cases hraw : value.head? = some '/' ∧ value.length ≤ 2048 ∧ '\\' ∉ value ∧ hasAsciiControl value = false
  · obtain ⟨hhead, hlen, hbs, hctl⟩ := hraw
    obtain ⟨t, rfl⟩ : ∃ t, value = '/' :: t := by
      cases value with
      | nil => cases hhead
      | cons c t => exact ⟨t, by rw [Option.some.inj hhead]⟩
    rw [normalizeRedirectPath_slash hlen hbs hctl] at h
    split at h
    · cases h
    · split at h
      · exact Or.inl (Except.ok.inj h).symm
      · rename_i hparts
        refine Or.inr ⟨t, rfl, hlen, hbs, hctl, ?_, (Except.ok.inj h).symm⟩
        by_contra hne
        exact hparts (Or.inl hne)
  · left
    unfold normalizeRedirectPath at h
    simp only at h
    split at h
    · exact (Except.ok.inj h).symm
    · split at h
      · exact (Except.ok.inj h).symm
      · split at h
        · exact (Except.ok.inj h).symm
        · split at h
          · exact (Except.ok.inj h).symm
          · rename_i hlen hhead hplain
            simp only [not_or, Bool.not_eq_true] at hplain
            exact absurd ⟨not_not.1 hhead, Nat.not_lt.1 hlen, hplain.1, hplain.2⟩ hraw

/-- A stored target that stays on the origin gives answers that stay on the origin: the query is written anew, the path
and the fragment are kept. -/
theorem sameOrigin_mergeRedirectQuery {P : Python} {stored location : List Char} (hs : SameOrigin stored)
    (updates : List (List Char × Option (List Char))) (h : mergeRedirectQuery P stored updates = .ok location) :
    SameOrigin location := by
  obtain ⟨t, rfl⟩ := hs.absolute
  have hplain : ∀ c ∈ ['/'] ++ t, Plain c := fun c hc =>
    ⟨fun he => hs.noBackslash (he ▸ hc), not_isAsciiControl_of_mem hs.noControl hc⟩
  have hctl : ∀ c ∈ t, 0x20 ≤ c.toNat := fun c hc =>
    le_toNat_of_not_isAsciiControl (hplain c (by simp [hc])).2
  have hsplit : splitNetloc ('/' :: t) = ([], '/' :: t) := by
    unfold splitNetloc
    split
    · rename_i rest heq
      exact absurd ⟨rest, heq.symm⟩ hs.notAuthority
    · rfl
  unfold mergeRedirectQuery at h
  simp only [List.cons_append, List.nil_append] at h hplain
  rw [urlparse_slash P t hctl, hsplit] at h
  simp only [P.rejectsNetloc_nil, Bool.false_eq_true, if_false, bind, Except.bind, pure, Except.pure] at h
  have hloc := Except.ok.inj h
  have hno : ¬['/', '/'] <+: (if pathOf ('/' :: t) = [] then ['/'] else pathOf ('/' :: t)) := by
    split
    · decide
    · exact fun hpre => hs.notAuthority (hpre.trans (pathOf_prefixOf _))
  rw [← hloc, urlunparse, if_neg hno]
  exact sameOrigin_of_parts hs.notAuthority (fun c u hcu => by rw [← (List.cons.inj hcu).1]; rfl) hplain
    (fun c hc => plain_of_isQueryChar (isQueryChar_urlencode _ c hc))

/-- The text of a target is no longer than what follows the authority, and one more slash. -/
theorem length_partsOf_slash (rest : List Char) : (partsOf ('/' :: rest)).length ≤ ('/' :: rest).length := by
  have hp : (pathOf ('/' :: rest)).length ≤ (partition '?' (partition '#' ('/' :: rest)).1).1.length :=
    (splitParams_prefixOf _).length_le
  have hcut : ∀ (c : Char) (s : List Char),
      (partition c s).1.length + (if (partition c s).2 = [] then [] else c :: (partition c s).2).length ≤ s.length := by
    intro c s
    have hlen := congrArg List.length (List.takeWhile_append_dropWhile (p := fun x => decide (x ≠ c)) (l := s))
    simp only [List.length_append] at hlen
    cases hd : s.dropWhile (fun x => decide (x ≠ c)) with
    | nil => simp only [partition, hd] at hlen ⊢; simp at hlen ⊢; omega
    | cons d ds =>
      simp only [partition, hd, List.tail_cons, List.length_cons] at hlen ⊢
      by_cases hne : ds = []
      · simp only [hne, if_true, List.length_nil]
        omega
      · simp only [hne, if_false, List.length_cons]
        omega
  have h1 := hcut '#' ('/' :: rest)
  have h2 := hcut '?' (partition '#' ('/' :: rest)).1
  have hne : pathOf ('/' :: rest) ≠ [] := by simp [pathOf_slash]
  simp only [partsOf, targetOf, if_neg hne, List.length_append]
  omega

/-- No auth page has a path that starts with two slashes. -/
theorem isAuthPage_two_slashes (P : Python) (s : List Char) : isAuthPage P ('/' :: '/' :: s) = false := by
  have hpre : rstripSlash ('/' :: '/' :: s) <+: '/' :: '/' :: s := by
    rw [← List.reverse_suffix, rstripSlash, List.reverse_reverse]
    exact List.dropWhile_suffix _
  obtain ⟨u, hu⟩ := hpre
  unfold isAuthPage
  rcases hr : rstripSlash ('/' :: '/' :: s) with _ | ⟨c, _ | ⟨d, p⟩⟩
  · simp [P.lower_slash, P.lower_nil, authRedirectPaths]
  · obtain rfl : c = '/' := by simpa [hr] using congrArg List.head? hu
    simp [P.lower_slash, P.lower_nil, authRedirectPaths]
  · rw [hr] at hu
    obtain ⟨rfl, rfl, -⟩ : c = '/' ∧ d = '/' ∧ p ++ u = s := by simpa using hu
    simp [P.lower_slash, authRedirectPaths]

/-- A value that hides an authority is stored with two slashes in front. -/
theorem stored_of_hidesAuthority {P : Python} {value : List Char} (h : HidesAuthority value) :
    ∃ rest, normalizeRedirectPath P (some value) = .ok ('/' :: '/' :: rest) := by
  obtain ⟨⟨u, rfl⟩, hlen, hbs, hctl⟩ := h
  simp only [List.cons_append, List.nil_append] at hlen hbs hctl ⊢
  have hnet : splitNetloc ('/' :: '/' :: '/' :: '/' :: u) = ([], '/' :: '/' :: u) := rfl
  have hpath : pathOf ('/' :: '/' :: u) = '/' :: '/' :: pathOf u := by rw [pathOf_slash, pathOf_slash]
  have hauth := isAuthPage_two_slashes P (pathOf u)
  have hshort : ¬2048 < (partsOf ('/' :: '/' :: u)).length := by
    have := length_partsOf_slash ('/' :: u)
    simp only [List.length_cons] at this hlen
    omega
  rw [normalizeRedirectPath_slash hlen hbs hctl, hnet]
  simp only [P.rejectsNetloc_nil, Bool.false_eq_true, if_false, hpath, hauth, hshort, ne_eq, not_true_eq_false, or_self]
  refine ⟨pathOf u ++ (if (partition '?' (partition '#' ('/' :: '/' :: u)).1).2 = [] then []
    else '?' :: (partition '?' (partition '#' ('/' :: '/' :: u)).1).2) ++
    (if (partition '#' ('/' :: '/' :: u)).2 = [] then [] else '#' :: (partition '#' ('/' :: '/' :: u)).2), ?_⟩
  simp only [partsOf, targetOf, hpath, reduceCtorEq, if_false, List.cons_append]

end RedirectAux

open RedirectAux

/-- A redirect parameter is safe exactly when it does not pass the checks with four slashes in front. -/
theorem redirectSafe_iff (P : Python) (value : List Char) : RedirectSafe P value ↔ ¬HidesAuthority value := by
  constructor
  · intro hsafe hhides
    obtain ⟨rest, hstored⟩ := stored_of_hidesAuthority (P := P) hhides
    exact (hsafe _ hstored).1.notAuthority ⟨rest, rfl⟩
  · intro hno stored hstored
    have hsame : SameOrigin stored := by
      rcases normalizeRedirectPath_cases hstored with rfl | ⟨t, rfl, hlen, hbs, hctl, hnet, rfl⟩
      · exact sameOrigin_default
      · have hplain : ∀ c ∈ (splitNetloc ('/' :: t)).2, Plain c := by
          intro c hc
          have hmem := splitNetloc_snd_subset _ hc
          exact ⟨fun he => hbs (he ▸ hmem), not_isAsciiControl_of_mem hctl hmem⟩
        exact sameOrigin_of_parts (fun hpre => hno ⟨four_slashes_of_splitNetloc hnet hpre, hlen, hbs, hctl⟩)
          (splitNetloc_snd_ends t) hplain
          (fun c hc => hplain c (partition_fst_subset _ _ (partition_snd_subset _ _ hc)))
    exact ⟨hsame, fun answer location hloc => sameOrigin_mergeRedirectQuery hsame answer.updates hloc⟩

/-- The parameter `////evil.example` is stored as `//evil.example`, which a browser resolves on another origin. -/
theorem redirectSafe_four_slashes_false : ¬RedirectSafe Python.ascii "////evil.example".toList := by
  intro hsafe
  have hstored : normalizeRedirectPath Python.ascii (some "////evil.example".toList) =
      .ok "//evil.example".toList := by rfl
  exact (hsafe _ hstored).1.notAuthority (by decide)

end AuthService
