import AuthService.Theorems.ProblemDetails

/-!
# Pointers of validation errors

A pointer gives back the parts it was made of, so it names one field. The answer to an invalid request has the errors of the
request in their order, each with the field that it is about.
-/

namespace AuthService.ErrorHandlers

open Replace

/-- A part of a pointer with its escapes undone, as RFC 6901 reads it. -/
def unescapePart (part : PyStr) : PyStr := replace (pyStr "~0") (pyStr "~") (replace (pyStr "~1") (pyStr "/") part)

/-- The parts of a pointer after its `#/`. -/
def pointerParts (pointer : PyStr) : List PyStr := ((pointer.drop 2).splitOn '/'.toNat).map unescapePart

namespace PointersAux

/-- A character of an escaped part. -/
def escaped (c : Nat) : PyStr := if c = '~'.toNat then pyStr "~0" else if c = '/'.toNat then pyStr "~1" else [c]

/-- A part with its tildes escaped. -/
def tildesEscaped (part : PyStr) : PyStr := replace ['~'.toNat] (pyStr "~0") part

/-- Tildes are escaped character by character. -/
theorem tildesEscaped_cons (c : Nat) (s : PyStr) :
    tildesEscaped (c :: s) = (if c = '~'.toNat then pyStr "~0" else [c]) ++ tildesEscaped s := by
  unfold tildesEscaped
  rw [replace_one, replace_one, List.flatMap_cons]

/-- A part is escaped character by character. -/
theorem escapePart_eq (part : PyStr) : escapePart part = part.flatMap escaped := by
  have htilde : replace (pyStr "~") (pyStr "~0") part = tildesEscaped part := rfl
  have hslash : ∀ s, replace (pyStr "/") (pyStr "~1") s = s.flatMap fun c => if c = '/'.toNat then pyStr "~1" else [c] :=
    fun s => replace_one
  rw [escapePart, htilde, tildesEscaped, replace_one, hslash, List.flatMap_assoc]
  refine List.flatMap_congr fun c _ => ?_
  unfold escaped
  split
  · rfl
  · exact List.flatMap_singleton _ _

/-- An escaped part holds no slash. -/
theorem slash_not_mem (part : PyStr) : '/'.toNat ∉ escapePart part := by
  rw [escapePart_eq, List.mem_flatMap]
  rintro ⟨c, -, hc⟩
  unfold escaped at hc
  split at hc
  · exact absurd hc (by decide)
  · split at hc
    · exact absurd hc (by decide)
    · rename_i hne
      exact hne (List.mem_singleton.1 hc).symm

/-- Undoing the slashes leaves the tildes escaped. -/
theorem slashes_undone (part : PyStr) : replace (pyStr "~1") (pyStr "/") (escapePart part) = tildesEscaped part := by
  rw [escapePart_eq]
  induction part with
  | nil => rfl
  | cons c s ih =>
    rw [List.flatMap_cons, tildesEscaped_cons, escaped]
    by_cases htilde : c = '~'.toNat
    · rw [if_pos htilde, if_pos htilde]
      refine (replace_two_cons_cons_of_ne (by decide) (by decide)).trans ?_
      rw [← ih]
      rfl
    · rw [if_neg htilde, if_neg htilde]
      by_cases hslash : c = '/'.toNat
      · rw [if_pos hslash, hslash]
        refine (replace_two_cons (a := '~'.toNat)).trans ?_
        rw [← ih]
        rfl
      · rw [if_neg hslash]
        refine (replace_two_cons_of_ne htilde).trans ?_
        rw [← ih]
        rfl

/-- The escaping of tildes is undone by the reverse replacement. -/
theorem tildes_undone (part : PyStr) : replace (pyStr "~0") (pyStr "~") (tildesEscaped part) = part := by
  induction part with
  | nil => rfl
  | cons c s ih =>
    rw [tildesEscaped_cons]
    by_cases htilde : c = '~'.toNat
    · rw [if_pos htilde, htilde]
      refine (replace_two_cons (a := '~'.toNat)).trans ?_
      exact congrArg _ ih
    · rw [if_neg htilde]
      refine (replace_two_cons_of_ne htilde).trans ?_
      exact congrArg _ ih

theorem unescape_escape (part : PyStr) : unescapePart (escapePart part) = part := by
  rw [unescapePart, slashes_undone, tildes_undone]

/-- The parts of a pointer are the texts of its location. -/
theorem pointerParts_jsonPointer {parts : List LocPart} (h : parts ≠ []) :
    pointerParts (jsonPointer parts) = parts.map LocPart.text := by
  have hdrop : (jsonPointer parts).drop 2 = ['/'.toNat].intercalate (parts.map fun part => escapePart part.text) := rfl
  rw [pointerParts, hdrop, List.splitOn_intercalate]
  · rw [List.map_map]
    exact List.map_congr_left fun part _ => unescape_escape _
  · intro part hpart
    obtain ⟨p, -, rfl⟩ := List.mem_map.1 hpart
    exact slash_not_mem _
  · exact fun hnil => h (List.map_eq_nil_iff.1 hnil)

/-- The pointer of an error in the body. -/
theorem pointer_body {error : ValidationErrorDict} {parts : List PyStr}
    (h : error.loc = .name (pyStr "body") :: parts.map LocPart.name) :
    (validationErrorItem error).pointer = if parts = [] then none else some (jsonPointer (parts.map LocPart.name)) := by
  rw [validationErrorItem, h]
  by_cases hparts : parts = []
  · rw [if_pos hparts, hparts]
    rfl
  · rw [if_neg hparts]
    exact if_pos ⟨rfl, fun hnil => hparts (List.map_eq_nil_iff.1 hnil)⟩

end PointersAux

open PointersAux

/-- Splitting a pointer and undoing its escapes gives back the parts it was made of. Errors at different fields of the body have
different pointers. -/
theorem pointers_identify_fields :
    (∀ parts : List LocPart, parts ≠ [] →
      pyStr "#/" <+: jsonPointer parts ∧ pointerParts (jsonPointer parts) = parts.map LocPart.text) ∧
    ∀ (error error' : ValidationErrorDict) (parts parts' : List PyStr),
      error.loc = .name (pyStr "body") :: parts.map LocPart.name → error'.loc = .name (pyStr "body") :: parts'.map LocPart.name →
        (validationErrorItem error).pointer = (validationErrorItem error').pointer → parts = parts' := by
  refine ⟨fun parts h => ⟨List.prefix_append _ _, pointerParts_jsonPointer h⟩, ?_⟩
  intro error error' parts parts' hloc hloc' heq
  rw [pointer_body hloc, pointer_body hloc'] at heq
  by_cases hparts : parts = []
  · by_cases hparts' : parts' = []
    · rw [hparts, hparts']
    · rw [if_pos hparts, if_neg hparts'] at heq
      cases heq
  · by_cases hparts' : parts' = []
    · rw [if_neg hparts, if_pos hparts'] at heq
      cases heq
    · rw [if_neg hparts, if_neg hparts'] at heq
      have hback : ∀ {ps : List PyStr}, ps ≠ [] → pointerParts (jsonPointer (ps.map LocPart.name)) = ps := by
        intro ps hps
        rw [pointerParts_jsonPointer fun hnil => hps (List.map_eq_nil_iff.1 hnil), List.map_map]
        exact List.map_id _
      rw [← hback hparts, ← hback hparts', Option.some.inj heq]

/-- A field name of escapes and slashes only. -/
theorem pointers_identify_escapes :
    pointerParts (jsonPointer [.name (pyStr "~1/~0"), .index 3]) = [pyStr "~1/~0", pyStr "3"] :=
  (pointers_identify_fields.1 [.name (pyStr "~1/~0"), .index 3] (by simp)).2

variable (L : Libraries)

/-- The handlers' own codes are in lower case. -/
structure LowersCodes : Prop where
  validation : L.lower (pyStr "validation_error") = pyStr "validation_error"
  internal : L.lower (pyStr "internal_server_error") = pyStr "internal_server_error"

variable {L}

/-- The answer to an invalid request: the members of a validation error, and one item for each error of the request. In the items
of errors in the body the pointers give back the fields. -/
theorem validation_answer (hlower : LowersCodes L) {requestPath : PyStr} {errors : List ValidationErrorDict} {r : Response}
    (h : validationExceptionHandler L requestPath errors = some r) :
    ProblemDetailsAux.Fields r.content (problemType "validation_error" "Validation error" 422).2 422
      (pyStr "Request validation failed.") requestPath
      (errorsMember L (errors.map fun error => .problemError (validationErrorItem error))) ∧
    ∀ error ∈ errors, ∀ parts : List PyStr, parts ≠ [] → error.loc = .name (pyStr "body") :: parts.map LocPart.name →
      (validationErrorItem error).pointer.map pointerParts = some parts := by
  obtain ⟨hfields, -⟩ := ProblemDetailsAux.problemResponse_members L h
  constructor
  · have htype : problemTypeForCode L (pyStr "validation_error") 422 =
        (problemType "validation_error" "Validation error" 422).2 := by
      rw [problemTypeForCode, hlower.validation]
      decide
    rwa [htype] at hfields
  · intro error _ parts hparts hloc
    rw [pointer_body hloc, if_neg hparts, Option.map_some,
      pointerParts_jsonPointer fun hnil => hparts (List.map_eq_nil_iff.1 hnil), List.map_map]
    exact congrArg some (List.map_id _)

/-- An exception that nothing handles is always answered, with an internal error that tells nothing of it. -/
theorem unhandled_answer (hlower : LowersCodes L) (requestPath : PyStr) :
    (unhandledExceptionHandler L requestPath).isSome = true ∧ ∀ r, unhandledExceptionHandler L requestPath = some r →
      ProblemDetailsAux.Fields r.content (problemType "internal_server_error" "Internal server error" 500).2 500
        (pyStr "Internal server error") requestPath none ∧
      ∀ key ∉ reservedProblemDetailsMembers, r.content.get? key = none := by
  refine ⟨rfl, fun r hr => ⟨?_, fun key hkey => ?_⟩⟩
  · have htype : problemTypeForCode L (pyStr "internal_server_error") 500 =
        (problemType "internal_server_error" "Internal server error" 500).2 := by
      rw [problemTypeForCode, hlower.internal]
      decide
    have hfields := (ProblemDetailsAux.problemResponse_members L hr).1
    rwa [htype] at hfields
  · obtain rfl := Option.some.inj hr
    simp only [reservedProblemDetailsMembers, List.mem_cons, List.not_mem_nil, or_false, not_or] at hkey
    obtain ⟨htype, htitle, hstatus, hdetail, hinstance, hcode, -⟩ := hkey
    show (OrderedDict.update _ []).get? key = none
    simp [OrderedDict.update, OrderedDict.get?_set_of_ne, htype, htitle, hstatus, hdetail, hinstance, hcode]

end AuthService.ErrorHandlers
