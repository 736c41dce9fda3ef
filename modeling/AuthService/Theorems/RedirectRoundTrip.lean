import AuthService.Theorems.Redirect
import AuthService.Library.QueryRoundTrip

/-!
# What a redirect target loses on its way

`_normalize_redirect_path` and `merge_redirect_query` take a target apart and put a part of it together again. The parameters after
a `;` of the last segment are put back by neither, and of a repeated name of the query the second keeps one pair.
-/

namespace AuthService

open Urllib

/-- The path of a target, with the parameters of its last segment. -/
def rawPath (target : List Char) : List Char := (partition '?' (partition '#' target).1).1

def rawQuery (target : List Char) : List Char := (partition '?' (partition '#' target).1).2

def rawFragment (target : List Char) : List Char := (partition '#' target).2

/-- The text after the last slash. -/
def lastSegment (path : List Char) : List Char := (path.reverse.takeWhile (· ≠ '/')).reverse

/-- A target that a start accepts: a path on the origin that is no auth page. -/
structure Acceptable (P : Python) (value : List Char) : Prop where
  length : value.length ≤ 2048
  slash : ∃ t, value = '/' :: t ∧ t.head? ≠ some '/'
  noBackslash : '\\' ∉ value
  noControl : hasAsciiControl value = false
  notAuthPage : isAuthPage P (rawPath value) = false

/-- The pairs of a query whose names no update has. -/
def others (updates : List (List Char × Option (List Char))) (pairs : List (List Char × List Char)) : List (List Char × List Char) :=
  pairs.filter fun pair => !updates.any fun update => update.1 = pair.1

/-- The target is stored as it is, and an answer changes only the parameters that its updates name. -/
def Survives (P : Python) (value : List Char) (updates : List (List Char × Option (List Char))) : Prop :=
  ∃ stored location, normalizeRedirectPath P (some value) = .ok stored ∧ mergeRedirectQuery P stored updates = .ok location ∧
    (rawPath stored = rawPath value ∧ rawQuery stored = rawQuery value ∧ rawFragment stored = rawFragment value) ∧
    (rawPath location = rawPath stored ∧ rawFragment location = rawFragment stored ∧
      others updates (parseQsl (rawQuery location)) = others updates (parseQsl (rawQuery stored)))

namespace RedirectRoundTripAux

open RedirectAux

/-! ## The parts of a target -/

/-- A path, a query and a fragment that are put together are taken apart again. -/
theorem raw_targetOf {path query : List Char} (fragment : List Char) (hne : path ≠ []) (hpath : '?' ∉ path ∧ '#' ∉ path) (hquery : '#' ∉ query) :
    rawPath (targetOf path query fragment) = path ∧ rawQuery (targetOf path query fragment) = query ∧
      rawFragment (targetOf path query fragment) = fragment := by
  have hbefore : '#' ∉ path ++ if query = [] then [] else '?' :: query := by
    intro hmem
    rcases List.mem_append.1 hmem with hmem | hmem
    · exact hpath.2 hmem
    · split at hmem
      · cases hmem
      · rcases List.mem_cons.1 hmem with heq | hmem
        · exact absurd heq (by decide)
        · exact hquery hmem
  have htarget : targetOf path query fragment =
      (path ++ if query = [] then [] else '?' :: query) ++ if fragment = [] then [] else '#' :: fragment := by
    rw [targetOf, if_neg hne]
  rw [htarget, rawPath, rawQuery, rawFragment, partition_marked hbefore, partition_marked hpath.1]
  exact ⟨rfl, rfl, rfl⟩

/-- Nothing is cut off a path if and only if its last segment has no `;`. -/
theorem splitParams_eq_self_iff (path : List Char) : (splitParams path).1 = path ↔ ';' ∉ lastSegment path := by
  have hsuffix : lastSegment path <:+ path := by
    have h := List.reverse_suffix.2 (List.takeWhile_prefix (· ≠ '/') (l := path.reverse))
    rwa [List.reverse_reverse] at h
  obtain ⟨before, hbefore⟩ := hsuffix
  have htake : path.take (path.length - (lastSegment path).length) = before := by
    have hlen : before.length + (lastSegment path).length = path.length := by
      rw [← List.length_append, hbefore]
    have htake : (before ++ lastSegment path).take before.length = before := List.take_left
    rw [hbefore] at htake
    rw [← hlen, Nat.add_sub_cancel]
    exact htake
  have heq : (splitParams path).1 = before ++ (partition ';' (lastSegment path)).1 := by
    rw [← htake]
    rfl
  rw [heq]
  constructor
  · intro h
    have hpart : (partition ';' (lastSegment path)).1 = lastSegment path := List.append_cancel_left (h.trans hbefore.symm)
    rw [← hpart]
    exact not_mem_partition_fst ';' _
  · intro h
    rw [partition_of_not_mem h]
    exact hbefore

/-! ## The stored target -/

section Stored

variable {P : Python} {value : List Char}

/-- The raw path holds neither mark. -/
theorem rawPath_clean (target : List Char) : '?' ∉ rawPath target ∧ '#' ∉ rawPath target := by
  refine ⟨not_mem_partition_fst _ _, fun hmem => ?_⟩
  exact not_mem_partition_fst '#' target (partition_fst_subset '?' _ hmem)

theorem rawQuery_clean (target : List Char) : '#' ∉ rawQuery target := fun hmem =>
  not_mem_partition_fst '#' target (partition_snd_subset '?' _ hmem)

theorem pathOf_eq (target : List Char) : pathOf target = (splitParams (rawPath target)).1 := rfl

/-- Putting the parts back together changes none of them. -/
theorem raw_partsOf (t : List Char) : rawPath (partsOf ('/' :: t)) = pathOf ('/' :: t) ∧
    rawQuery (partsOf ('/' :: t)) = rawQuery ('/' :: t) ∧ rawFragment (partsOf ('/' :: t)) = rawFragment ('/' :: t) := by
  have hne : pathOf ('/' :: t) ≠ [] := by simp [pathOf_slash]
  have hsubset : pathOf ('/' :: t) ⊆ rawPath ('/' :: t) := (splitParams_prefixOf _).subset
  have hclean := rawPath_clean ('/' :: t)
  exact raw_targetOf _ hne ⟨fun h => hclean.1 (hsubset h), fun h => hclean.2 (hsubset h)⟩ (rawQuery_clean _)

/-- A single leading slash starts no network location. -/
theorem splitNetloc_slash {t : List Char} (h : t.head? ≠ some '/') : splitNetloc ('/' :: t) = ([], '/' :: t) := by
  unfold splitNetloc
  split
  · rename_i rest heq
    rw [(List.cons.inj heq).2] at h
    exact absurd rfl h
  · rfl

/-- An acceptable target is stored without the parameters of its last segment, unless what is left is an auth page. -/
theorem normalizeRedirectPath_acceptable (h : Acceptable P value) : normalizeRedirectPath P (some value) =
    if isAuthPage P (pathOf value) = true then .ok defaultRedirectPath else .ok (partsOf value) := by
  obtain ⟨t, rfl, hhead⟩ := h.slash
  have hlen : ¬ 2048 < (partsOf ('/' :: t)).length := Nat.not_lt.2 ((length_partsOf_slash t).trans h.length)
  have hstored := normalizeRedirectPath_slash (P := P) h.length h.noBackslash h.noControl
  simp only [splitNetloc_slash hhead, P.rejectsNetloc_nil, Bool.false_eq_true, if_false, ne_eq, not_true_eq_false, false_or,
    hlen, or_false] at hstored
  exact hstored

end Stored

/-! ## The answer -/

section Answer

variable {P : Python}

/-- The parameters of an answer. -/
def merged (target : List Char) (updates : List (List Char × Option (List Char))) : List (List Char × List Char) :=
  updates.foldl applyUpdate (dictOf (parseQsl (rawQuery target)))

/-- An answer has the path of the target without the parameters of its last segment, the parameters of the query that the updates
leave, and the fragment. -/
theorem raw_mergeRedirectQuery {t : List Char} (hhead : t.head? ≠ some '/') (hplain : ∀ c ∈ t, 0x20 ≤ c.toNat)
    (updates : List (List Char × Option (List Char))) :
    ∃ location, mergeRedirectQuery P ('/' :: t) updates = .ok location ∧ rawPath location = pathOf ('/' :: t) ∧
      rawFragment location = rawFragment ('/' :: t) ∧ parseQsl (rawQuery location) = merged ('/' :: t) updates := by
  have hne : pathOf ('/' :: t) ≠ [] := by simp [pathOf_slash]
  have hslashes : ¬ ['/', '/'] <+: pathOf ('/' :: t) := by
    rintro ⟨u, hu⟩
    obtain ⟨v, hv⟩ := pathOf_prefixOf ('/' :: t)
    rw [← hu] at hv
    have htail : t = '/' :: (u ++ v) := ((List.cons.inj hv).2).symm
    rw [htail] at hhead
    exact hhead rfl
  have hsubset : pathOf ('/' :: t) ⊆ rawPath ('/' :: t) := (splitParams_prefixOf _).subset
  have hclean := rawPath_clean ('/' :: t)
  have hquery : '#' ∉ urlencode (merged ('/' :: t) updates) := fun hmem =>
    absurd (isQueryChar_urlencode _ _ hmem) (by decide)
  have hraw := raw_targetOf (rawFragment ('/' :: t)) hne
    ⟨fun h => hclean.1 (hsubset h), fun h => hclean.2 (hsubset h)⟩ hquery
  refine ⟨targetOf (pathOf ('/' :: t)) (urlencode (merged ('/' :: t) updates)) (rawFragment ('/' :: t)), ?_, hraw.1, hraw.2.2, ?_⟩
  · unfold mergeRedirectQuery
    rw [urlparse_slash P t hplain, splitNetloc_slash hhead, P.rejectsNetloc_nil]
    simp only [Bool.false_eq_true, if_false, bind, Except.bind, pure, Except.pure, if_neg hne]
    rw [urlunparse, if_neg hslashes, targetOf, if_neg hne]
    rfl
  · rw [hraw.2.1, parseQsl_urlencode]

end Answer

/-! ## Parameters -/

section Parameters

variable {keep : List Char → Bool} {pairs : List (List Char × List Char)}

/-- The pairs whose names are kept. -/
def named (keep : List Char → Bool) (pairs : List (List Char × List Char)) : List (List Char × List Char) :=
  pairs.filter fun pair => keep pair.1

theorem named_cons (keep : List Char → Bool) (pair : List Char × List Char) (pairs : List (List Char × List Char)) :
    named keep (pair :: pairs) = if keep pair.1 then pair :: named keep pairs else named keep pairs := List.filter_cons

/-- A selected name occurs exactly when it occurs at all. -/
theorem any_named {key : List Char} (h : keep key = true) :
    (named keep pairs).any (fun pair => decide (pair.1 = key)) = pairs.any fun pair => decide (pair.1 = key) := by
  rw [named, List.any_filter]
  refine List.any_congr rfl fun pair => ?_
  by_cases heq : pair.1 = key
  · rw [heq, h, Bool.true_and]
  · simp [heq]

/-- Setting a parameter that is kept is setting it among those that are kept, and another one leaves them alone. -/
theorem named_dictSet (key value : List Char) :
    named keep (dictSet pairs key value) = if keep key then dictSet (named keep pairs) key value else named keep pairs := by
  have hfst : ∀ pair : List Char × List Char, (if pair.1 = key then (key, value) else pair).1 = pair.1 := by
    intro pair
    split
    · rename_i heq
      exact heq.symm
    · rfl
  have hmap : named keep (pairs.map fun pair => if pair.1 = key then (key, value) else pair) =
      (named keep pairs).map fun pair => if pair.1 = key then (key, value) else pair := by
    rw [named, List.filter_map]
    refine congrArg _ (List.filter_congr fun pair _ => ?_)
    rw [Function.comp, hfst]
  split
  · rename_i hkeep
    rw [dictSet, dictSet, any_named hkeep]
    split
    · exact hmap
    · rw [named, List.filter_append, List.filter_singleton, hkeep]
      rfl
  · rename_i hkeep
    rw [dictSet]
    split
    · rw [hmap]
      refine (List.map_congr_left fun pair hpair => if_neg ?_).trans (List.map_id _)
      rintro rfl
      exact hkeep (List.mem_filter.1 hpair).2
    · rw [named, List.filter_append, List.filter_singleton, (Bool.not_eq_true _).mp hkeep]
      exact List.append_nil _

/-- Selecting names commutes with filling a dictionary. -/
theorem named_foldl (keep : List Char → Bool) (items pairs : List (List Char × List Char)) :
    named keep (items.foldl (fun items pair => dictSet items pair.1 pair.2) pairs) =
      (named keep items).foldl (fun items pair => dictSet items pair.1 pair.2) (named keep pairs) := by
  induction items generalizing pairs with
  | nil => rfl
  | cons item items ih =>
    rw [List.foldl_cons, ih, named_dictSet]
    by_cases hkeep : keep item.1 = true
    · rw [if_pos hkeep, named_cons, if_pos hkeep, List.foldl_cons]
    · rw [if_neg hkeep, named_cons, if_neg hkeep]

/-- An update of a parameter that is not kept leaves the others alone. -/
theorem named_applyUpdate {update : List Char × Option (List Char)} (h : keep update.1 = false) :
    named keep (applyUpdate pairs update) = named keep pairs := by
  unfold applyUpdate
  split
  · rw [named, List.filter_filter]
    refine List.filter_congr fun pair _ => ?_
    by_cases heq : pair.1 = update.1
    · simp [heq, h]
    · simp [heq]
  · rw [named_dictSet, h]
    rfl

/-- Updates of other names leave the selected pairs alone. -/
theorem named_updates (keep : List Char → Bool) {updates : List (List Char × Option (List Char))} (h : ∀ update ∈ updates, keep update.1 = false) :
    named keep (updates.foldl applyUpdate pairs) = named keep pairs := by
  induction updates generalizing pairs with
  | nil => rfl
  | cons update updates ih =>
    rw [List.foldl_cons, ih fun u hu => h u (List.mem_cons_of_mem _ hu), named_applyUpdate (h update List.mem_cons_self)]

/-- An assignment keeps the keys in order and puts a new one last. -/
theorem map_fst_dictSet (key value : List Char) : (dictSet pairs key value).map Prod.fst =
    if key ∈ pairs.map Prod.fst then pairs.map Prod.fst else pairs.map Prod.fst ++ [key] := by
  have hany : (pairs.any fun pair => decide (pair.1 = key)) = true ↔ key ∈ pairs.map Prod.fst := by
    simp [List.any_eq_true, List.mem_map]
  unfold dictSet
  split
  · rename_i hmem
    rw [if_pos (hany.1 hmem), List.map_map]
    refine List.map_congr_left fun pair _ => ?_
    simp only [Function.comp]
    split
    · rename_i heq
      exact heq.symm
    · rfl
  · rename_i hmem
    rw [if_neg fun h => hmem (hany.2 h), List.map_append]
    rfl

/-- A dictionary has each name once. -/
theorem nodup_foldl (items : List (List Char × List Char)) (h : (pairs.map Prod.fst).Nodup) :
    ((items.foldl (fun items pair => dictSet items pair.1 pair.2) pairs).map Prod.fst).Nodup := by
  induction items generalizing pairs with
  | nil => exact h
  | cons item items ih =>
    refine ih ?_
    rw [map_fst_dictSet]
    split
    · exact h
    · rename_i hmem
      exact List.nodup_append.2 ⟨h, by simp, fun a ha b hb heq =>
        hmem (List.mem_singleton.1 hb ▸ heq ▸ ha)⟩

/-- A dictionary filled with pairs of different names holds them all, in order. -/
theorem foldl_of_nodup {items : List (List Char × List Char)} (h : ((pairs ++ items).map Prod.fst).Nodup) :
    items.foldl (fun items pair => dictSet items pair.1 pair.2) pairs = pairs ++ items := by
  induction items generalizing pairs with
  | nil => rw [List.append_nil, List.foldl_nil]
  | cons item items ih =>
    have hnew : ¬ (pairs.any fun pair => decide (pair.1 = item.1)) = true := by
      intro hany
      obtain ⟨pair, hpair, heq⟩ := List.any_eq_true.1 hany
      rw [List.map_append, List.nodup_append] at h
      exact h.2.2 pair.1 (List.mem_map_of_mem hpair) item.1 (by simp) (of_decide_eq_true heq)
    have hset : dictSet pairs item.1 item.2 = pairs ++ [item] := if_neg hnew
    rw [List.foldl_cons, hset, ih, List.append_assoc, List.singleton_append]
    rwa [List.append_assoc, List.singleton_append]

/-- A dictionary keeps all pairs if and only if their names are distinct. -/
theorem dictOf_eq_self_iff : dictOf pairs = pairs ↔ (pairs.map Prod.fst).Nodup := by
  constructor
  · intro h
    rw [← h]
    exact nodup_foldl pairs List.nodup_nil
  · intro h
    have hall : (([] ++ pairs).map Prod.fst).Nodup := h
    exact foldl_of_nodup hall

end Parameters

/-- Of the parameters that no update names, an answer has those of the dictionary. -/
theorem others_merged (target : List Char) (updates : List (List Char × Option (List Char))) :
    others updates (merged target updates) = dictOf (others updates (parseQsl (rawQuery target))) := by
  have hupdates : ∀ update ∈ updates, (!updates.any fun u => decide (u.1 = update.1)) = false := by
    intro update hmem
    rw [Bool.not_eq_false']
    exact List.any_eq_true.2 ⟨update, hmem, decide_eq_true rfl⟩
  calc others updates (merged target updates)
      = others updates (dictOf (parseQsl (rawQuery target))) :=
        named_updates (fun name => !updates.any fun u => decide (u.1 = name)) hupdates
    _ = dictOf (others updates (parseQsl (rawQuery target))) :=
        named_foldl (fun name => !updates.any fun u => decide (u.1 = name)) _ []

/-! ## Both together -/

/-- An acceptable target without parameters in its last segment is stored as it is, and its answer has its path, its fragment and
the dictionary of its parameters. -/
theorem answer_of_acceptable {P : Python} {value : List Char} (h : Acceptable P value) (hpath : pathOf value = rawPath value)
    (updates : List (List Char × Option (List Char))) :
    ∃ location, normalizeRedirectPath P (some value) = .ok (partsOf value) ∧
      (rawPath (partsOf value) = rawPath value ∧ rawQuery (partsOf value) = rawQuery value ∧
        rawFragment (partsOf value) = rawFragment value) ∧
      mergeRedirectQuery P (partsOf value) updates = .ok location ∧ rawPath location = rawPath (partsOf value) ∧
      rawFragment location = rawFragment (partsOf value) ∧
      others updates (parseQsl (rawQuery location)) = dictOf (others updates (parseQsl (rawQuery (partsOf value)))) := by
  have hstored := normalizeRedirectPath_acceptable h
  rw [hpath, h.notAuthPage, if_neg Bool.false_ne_true] at hstored
  obtain ⟨t, rfl, hhead⟩ := h.slash
  have hraw := raw_partsOf t
  rw [hpath] at hraw
  have hplain : ∀ c ∈ '/' :: t, Plain c := fun c hc =>
    ⟨fun heq => h.noBackslash (heq ▸ hc), not_isAsciiControl_of_mem h.noControl hc⟩
  have hslashes : ¬ ['/', '/'] <+: '/' :: t := by
    rintro ⟨u, hu⟩
    rw [← (List.cons.inj hu).2] at hhead
    exact hhead rfl
  have hsame : SameOrigin (partsOf ('/' :: t)) :=
    sameOrigin_of_parts hslashes (fun c u hcu => by rw [← (List.cons.inj hcu).1]; rfl) hplain fun c hc =>
      hplain c (partition_fst_subset _ _ (partition_snd_subset _ _ hc))
  obtain ⟨s, hs⟩ := hsame.absolute
  have hs : partsOf ('/' :: t) = '/' :: s := hs.symm
  have hshead : s.head? ≠ some '/' := by
    intro hslash
    refine hsame.notAuthority ?_
    rw [hs]
    cases s with
    | nil => cases hslash
    | cons c s =>
      cases hslash
      exact ⟨s, rfl⟩
  have hsplain : ∀ c ∈ s, 0x20 ≤ c.toNat := fun c hc =>
    le_toNat_of_not_isAsciiControl (not_isAsciiControl_of_mem hsame.noControl (hs ▸ List.mem_cons_of_mem _ hc))
  obtain ⟨location, hmerge, hlpath, hlfragment, hlpairs⟩ := raw_mergeRedirectQuery (P := P) hshead hsplain updates
  rw [← hs] at hmerge hlpath hlfragment hlpairs
  refine ⟨location, hstored, hraw, hmerge, ?_, hlfragment, ?_⟩
  · rw [hlpath, pathOf_eq, hraw.1]
    exact hpath
  · rw [hlpairs, others_merged]

/-- What is stored for an acceptable target has no parameters in its last segment. -/
theorem pathOf_of_stored {P : Python} {value stored : List Char} (h : Acceptable P value)
    (hstored : normalizeRedirectPath P (some value) = .ok stored) (hpath : rawPath stored = rawPath value) :
    pathOf value = rawPath value := by
  rw [normalizeRedirectPath_acceptable h] at hstored
  split at hstored
  · cases hstored
    rw [pathOf_eq, ← hpath]
    decide
  · cases hstored
    obtain ⟨t, rfl, _⟩ := h.slash
    rw [← (raw_partsOf t).1]
    exact hpath

end RedirectRoundTripAux

open RedirectRoundTripAux RedirectAux

/-- An acceptable target survives if and only if the last segment of its path has no `;`, and the parameters that no update names
have distinct names. -/
theorem redirect_survives_iff (P : Python) (value : List Char) (updates : List (List Char × Option (List Char)))
    (h : Acceptable P value) :
    Survives P value updates ↔
      ';' ∉ lastSegment (rawPath value) ∧ ((others updates (parseQsl (rawQuery value))).map Prod.fst).Nodup := by
  rw [← splitParams_eq_self_iff, ← dictOf_eq_self_iff]
  constructor
  · rintro ⟨stored, location, hstored, hmerge, ⟨hpath, _, _⟩, _, _, hothers⟩
    have hparams := pathOf_of_stored h hstored hpath
    obtain ⟨location', hstored', ⟨_, hquery', _⟩, hmerge', _, _, hothers'⟩ := answer_of_acceptable h hparams updates
    cases hstored.symm.trans hstored'
    cases hmerge.symm.trans hmerge'
    rw [hothers, hquery'] at hothers'
    exact ⟨hparams, hothers'.symm⟩
  · rintro ⟨hparams, hdistinct⟩
    obtain ⟨location, hstored, hraw, hmerge, hlpath, hlfragment, hothers⟩ := answer_of_acceptable h hparams updates
    rw [hraw.2.1, hdistinct] at hothers
    refine ⟨partsOf value, location, hstored, hmerge, hraw, hlpath, hlfragment, ?_⟩
    rw [hothers, hraw.2.1]

/-- A target with a query and a fragment survives the answer of a failed callback. -/
theorem redirect_survives_settings : Survives Python.ascii "/app/settings?tab=danger&view=#delete".toList
    [("oidc_error".toList, some "stale".toList), ("oidc_reauth".toList, none)] := by
  refine (redirect_survives_iff _ _ _ ⟨by decide, ⟨_, rfl, by decide⟩, by decide, by decide, by decide⟩).2 ⟨by decide, ?_⟩
  decide +kernel

/-- Of two parameters with one name the first is lost. -/
theorem redirect_survives_false :
    ¬ ∀ (P : Python) (value : List Char) (updates : List (List Char × Option (List Char))), Acceptable P value →
      Survives P value updates := by
  intro hall
  have hacceptable : Acceptable Python.ascii "/app?tag=a&tag=b".toList :=
    ⟨by decide, ⟨_, rfl, by decide⟩, by decide, by decide, by decide⟩
  obtain ⟨stored, location, hstored, hmerge, _, _, _, hothers⟩ := hall _ _ [("oidc_error".toList, none)] hacceptable
  have hstored' : normalizeRedirectPath Python.ascii (some "/app?tag=a&tag=b".toList) = .ok "/app?tag=a&tag=b".toList := by
    decide +kernel
  cases hstored.symm.trans hstored'
  have hmerge' : mergeRedirectQuery Python.ascii "/app?tag=a&tag=b".toList [("oidc_error".toList, none)] =
      .ok "/app?tag=b".toList := by decide +kernel
  cases hmerge.symm.trans hmerge'
  exact absurd hothers (by decide +kernel)

end AuthService
