import AuthService.ErrorHandlers

/-!
# Reserved members of Problem Details

Extension members named as a reserved member are dropped, but `code`, `detail` and `errors` have replaced the arguments of
`api_error` before.
-/

namespace AuthService.ErrorHandlers

variable (L : Libraries)

/-- The answer to a request whose handler raises an `api_error`. -/
def respond (requestPath : PyStr) (statusCode : Int) (code message : PyStr) (headers : List (PyStr × PyStr))
    (errors : List Value) (extensions : Dict) : Option Response :=
  httpExceptionHandler L requestPath (apiError statusCode code message headers errors extensions)

/-- The reserved members are those of the answer without extensions, and the other members with scalars are there. -/
structure Protects (extensions : Dict) (plain extended : Response) : Prop where
  reserved : ∀ key ∈ reservedProblemDetailsMembers, extended.content.get? key = plain.content.get? key
  others : ∀ key value, key ∉ reservedProblemDetailsMembers → extensions.get? key = some value → value.isScalar = true →
    extended.content.get? key = some value

/-- The `errors` member for some errors. -/
def errorsMember (errors : List Value) : Option Value := if errors = [] then none else L.dumpErrors errors

/-- The extensions have no `code`, `detail` and `errors`, or these say what the arguments say: a code of the same problem type,
the message, and the errors. -/
structure SaysTheSame (statusCode : Int) (code message : PyStr) (errors : List Value) (extensions : Dict) : Prop where
  code : ∀ value, extensions.get? (pyStr "code") = some value →
    (problemTypeForCode L ((orElse L (some value) (.str (problemTypeForStatus statusCode).code)).text L) statusCode).code =
      (problemTypeForCode L code statusCode).code
  detail : ∀ value, extensions.get? (pyStr "detail") = some value →
    (orElse L (some value) (.str (defaultDetail statusCode))).text L = message
  errors : ∀ value, extensions.get? (pyStr "errors") = some value →
    errorsMember L (errorItems L (some value)) = errorsMember L errors

/-- Pydantic accepts the members of its own that the extensions bring to the body, and their errors. -/
structure Accepted (extensions : Dict) : Prop where
  members : ∀ key value, key ∉ reservedProblemDetailsMembers → extensions.get? key = some value →
    value = .none ∨ (L.dumpExtra value).isSome = true
  errors : ∀ value, extensions.get? (pyStr "errors") = some value →
    errorItems L (some value) = [] ∨ (L.dumpErrors (errorItems L (some value))).isSome = true

namespace ProblemDetailsAux

/-! ### Problem types -/

theorem problemTypes_code : ∀ p ∈ problemTypes, problemTypes.lookup p.2.code = some p.2 := by decide

theorem problemTypes_httpError : problemTypes.lookup (httpError 0).code = none := by decide

/-- A problem type that is found is found under its own code. -/
theorem mem_of_lookup {key : PyStr} {t : ProblemType} (h : problemTypes.lookup key = some t) :
    problemTypes.lookup t.code = some t := by
  obtain ⟨l₁, l₂, hsplit, -⟩ := List.lookup_eq_some_iff.1 h
  exact problemTypes_code (key, t) (by rw [hsplit]; exact List.mem_append_right _ List.mem_cons_self)

/-- A problem type of a code is registered under its own code, or it is the one without a code. -/
theorem problemTypeForCode_cases (code : PyStr) (status : Int) :
    problemTypes.lookup (problemTypeForCode L code status).code = some (problemTypeForCode L code status) ∨
      problemTypeForCode L code status = httpError status := by
  cases hcode : problemTypes.lookup (L.lower code) with
  | some t =>
    have heq : problemTypeForCode L code status = t := by rw [problemTypeForCode, hcode]
    rw [heq]
    exact Or.inl (mem_of_lookup hcode)
  | none =>
    have heq : problemTypeForCode L code status = problemTypeForStatus status := by rw [problemTypeForCode, hcode]
    cases hstatus : (statusDefaultCodes.lookup status).bind fun code => problemTypes.lookup code with
    | some t =>
      obtain ⟨c, -, hc⟩ := Option.bind_eq_some_iff.1 hstatus
      have ht : problemTypeForStatus status = t := by rw [problemTypeForStatus, hstatus]
      rw [heq, ht]
      exact Or.inl (mem_of_lookup hc)
    | none => exact Or.inr (by rw [heq, problemTypeForStatus, hstatus])

/-- Problem types with one code are one. -/
theorem problemTypeForCode_congr {code code' : PyStr} {status : Int}
    (h : (problemTypeForCode L code status).code = (problemTypeForCode L code' status).code) :
    problemTypeForCode L code status = problemTypeForCode L code' status := by
  rcases problemTypeForCode_cases L code status with hreg | hhttp
  · rcases problemTypeForCode_cases L code' status with hreg' | hhttp'
    · rw [h, hreg'] at hreg
      exact (Option.some.inj hreg).symm
    · rw [h, hhttp'] at hreg
      exact nomatch problemTypes_httpError.symm.trans hreg
  · rcases problemTypeForCode_cases L code' status with hreg' | hhttp'
    · rw [← h, hhttp] at hreg'
      exact nomatch problemTypes_httpError.symm.trans hreg'
    · rw [hhttp, hhttp']

/-! ### Responses -/

variable {L} in
/-- The dumped extension members are some of those given, in their order. -/
theorem dumpExtras_keys {items extras : List (PyStr × Value)} (h : dumpExtras L items = some extras) :
    (extras.map Prod.fst).Sublist (items.map Prod.fst) := by
  induction items generalizing extras with
  | nil =>
    obtain rfl := Option.some.inj h
    exact List.Sublist.refl _
  | cons item items ih =>
    obtain ⟨key, value⟩ := item
    simp only [dumpExtras] at h
    obtain ⟨rest, hrest, h⟩ := Option.bind_eq_some_iff.1 h
    split at h
    · obtain rfl := Option.some.inj h
      exact (ih hrest).cons _
    · obtain ⟨dumped, -, h⟩ := Option.bind_eq_some_iff.1 h
      obtain rfl := Option.some.inj h
      exact (ih hrest).cons_cons _

variable {L} in
/-- A scalar extension member is dumped as it is. -/
theorem dumpExtras_scalar {items extras : List (PyStr × Value)} (h : dumpExtras L items = some extras) {key : PyStr}
    {value : Value} (hmem : (key, value) ∈ items) (hscalar : value.isScalar = true) : (key, value) ∈ extras := by
  induction items generalizing extras with
  | nil => cases hmem
  | cons item items ih =>
    obtain ⟨key', value'⟩ := item
    simp only [dumpExtras] at h
    obtain ⟨rest, hrest, h⟩ := Option.bind_eq_some_iff.1 h
    rcases List.mem_cons.1 hmem with heq | hmem
    · obtain ⟨rfl, rfl⟩ := Prod.mk.inj heq
      split at h
      · cases hscalar
      · rw [L.dumpExtra_scalar _ hscalar] at h
        obtain rfl := Option.some.inj h
        exact List.mem_cons_self
    · have hin := ih hrest hmem
      split at h
      · obtain rfl := Option.some.inj h
        exact hin
      · obtain ⟨dumped, -, h⟩ := Option.bind_eq_some_iff.1 h
        obtain rfl := Option.some.inj h
        exact List.mem_cons_of_mem _ hin

/-- A value that is not `None` is dumped after the rest. -/
theorem dumpExtras_cons {key : PyStr} {value : Value} {items : List (PyStr × Value)} (h : value ≠ .none) :
    dumpExtras L ((key, value) :: items) =
      (dumpExtras L items).bind fun rest => (L.dumpExtra value).map fun dumped => (key, dumped) :: rest := by
  cases value with
  | none => exact absurd rfl h
  | _ => simp [dumpExtras, Option.map_eq_bind]

/-- Extra members are dumped when Pydantic accepts each one that is not `None`. -/
theorem dumpExtras_isSome {items : List (PyStr × Value)} :
    (dumpExtras L items).isSome = true ↔ ∀ item ∈ items, item.2 = .none ∨ (L.dumpExtra item.2).isSome = true := by
  induction items with
  | nil => simp [dumpExtras]
  | cons item items ih =>
    obtain ⟨key, value⟩ := item
    rw [List.forall_mem_cons, ← ih]
    by_cases hnone : value = .none
    · subst hnone
      simp [dumpExtras]
    · rw [dumpExtras_cons L hnone, Option.isSome_bind]
      cases dumpExtras L items <;> simp [hnone]

/-- The fields are dumped when Pydantic accepts the errors. -/
theorem dumpFields_isSome {t : ProblemType} {statusCode : Int} {detail : PyStr} {requestPath : Option PyStr}
    {errors : List Value} :
    (dumpFields L t statusCode detail requestPath errors).isSome = true ↔
      errors = [] ∨ (L.dumpErrors errors).isSome = true := by
  unfold dumpFields
  by_cases herrors : errors = []
  · simp [herrors]
  · simp [herrors]

/-- What the fields are. -/
structure Fields (content : Dict) (t : ProblemType) (statusCode : Int) (detail requestPath : PyStr) (errors : Option Value) :
    Prop where
  type : content.get? (pyStr "type") = some (.str t.type)
  title : content.get? (pyStr "title") = some (.str t.title)
  status : content.get? (pyStr "status") = some (.int statusCode)
  detail : content.get? (pyStr "detail") = some (.str detail)
  instance_ : content.get? (pyStr "instance") = some (.str requestPath)
  code : content.get? (pyStr "code") = some (.str t.code)
  errors : content.get? (pyStr "errors") = errors

/-- The dumped body has the fields of the problem, each as it was given. -/
theorem fields_of_dumpFields {t : ProblemType} {statusCode : Int} {detail requestPath : PyStr} {errors : List Value}
    {content : Dict} (h : dumpFields L t statusCode detail (some requestPath) errors = some content) :
    Fields content t statusCode detail requestPath (errorsMember L errors) := by
  unfold dumpFields at h
  by_cases herrors : errors = []
  · rw [if_pos herrors] at h
    obtain rfl := Option.some.inj h
    rw [errorsMember, if_pos herrors]
    constructor <;> simp (disch := decide) only [OrderedDict.get?_set_self, OrderedDict.get?_set_of_ne]
    rfl
  · rw [if_neg herrors] at h
    obtain ⟨dumped, hdumped, rfl⟩ := Option.map_eq_some_iff.1 h
    rw [errorsMember, if_neg herrors, hdumped]
    constructor <;> simp (disch := decide) only [OrderedDict.get?_set_self, OrderedDict.get?_set_of_ne]

/-- The members of an answer: the reserved ones from the arguments, the others from the extensions. -/
theorem problemResponse_members {statusCode : Int} {code detail requestPath : PyStr} {errors : List Value} {extensions : Dict}
    {headers : List (PyStr × PyStr)} {r : Response}
    (h : problemResponse L statusCode code detail errors extensions (some requestPath) headers = some r) :
    Fields r.content (problemTypeForCode L code statusCode) statusCode detail requestPath (errorsMember L errors) ∧
      ∀ key value, key ∉ reservedProblemDetailsMembers → extensions.get? key = some value → value.isScalar = true →
        r.content.get? key = some value := by
  unfold problemResponse at h
  obtain ⟨extras, hextras, h⟩ := Option.bind_eq_some_iff.1 h
  obtain ⟨content, hcontent, h⟩ := Option.bind_eq_some_iff.1 h
  obtain rfl := Option.some.inj h
  have hkeys := dumpExtras_keys hextras
  have hnodup : (extras.map Prod.fst).Nodup := (safeProblemExtensions extensions).nodup.sublist hkeys
  have hget : ∀ key, (content.update extras).get? key = ((⟨extras, hnodup⟩ : Dict).get? key).or (content.get? key) :=
    fun key => OrderedDict.get?_update content ⟨extras, hnodup⟩ key
  have hreserved : ∀ key ∈ reservedProblemDetailsMembers, (content.update extras).get? key = content.get? key := by
    intro key hkey
    have hnone : (⟨extras, hnodup⟩ : Dict).get? key = none := by
      refine OrderedDict.get?_eq_none.2 fun hmem => ?_
      obtain ⟨x, hx, hxkey⟩ := List.mem_map.1 (hkeys.subset hmem)
      have hsafe := (List.mem_filter.1 hx).2
      rw [hxkey] at hsafe
      exact of_decide_eq_true hsafe hkey
    rw [hget, hnone]
    rfl
  constructor
  · have hfields := fields_of_dumpFields L hcontent
    exact ⟨(hreserved _ (by decide)).trans hfields.type, (hreserved _ (by decide)).trans hfields.title,
      (hreserved _ (by decide)).trans hfields.status, (hreserved _ (by decide)).trans hfields.detail,
      (hreserved _ (by decide)).trans hfields.instance_, (hreserved _ (by decide)).trans hfields.code,
      (hreserved _ (by decide)).trans hfields.errors⟩
  · intro key value hkey hvalue hscalar
    have hsafe : (key, value) ∈ (safeProblemExtensions extensions).items :=
      List.mem_filter.2 ⟨OrderedDict.get?_eq_some.1 hvalue, decide_eq_true hkey⟩
    have hextra : (⟨extras, hnodup⟩ : Dict).get? key = some value :=
      OrderedDict.get?_eq_some.2 (dumpExtras_scalar hextras hsafe hscalar)
    exact (hget key).trans (by rw [hextra]; rfl)

/-! ### Errors of the API -/

/-- The members of the detail of an `api_error`: those of the extensions come first. -/
structure Members (members : Dict) (code message : PyStr) (errors : List Value) (extensions : Dict) : Prop where
  code : members.get? (pyStr "code") = (extensions.get? (pyStr "code")).or (some (.str code))
  detail : members.get? (pyStr "detail") = (extensions.get? (pyStr "detail")).or (some (.str message))
  errors : members.get? (pyStr "errors") =
    (extensions.get? (pyStr "errors")).or (if errors = [] then none else some (.list errors))
  others : ∀ key ∉ [pyStr "code", pyStr "detail", pyStr "errors"], members.get? key = extensions.get? key

/-- `api_error` puts its arguments and the extension members into the detail. -/
theorem members_of_apiError (statusCode : Int) (code message : PyStr) (headers : List (PyStr × PyStr)) (errors : List Value)
    (extensions : Dict) : ∃ members, apiError statusCode code message headers errors extensions =
      ⟨statusCode, .dict members, headers⟩ ∧ Members members code message errors extensions := by
  refine ⟨_, rfl, ?_, ?_, ?_, ?_⟩
  · rw [OrderedDict.get?_update]
    split <;> simp (disch := decide) only [OrderedDict.get?_set_self, OrderedDict.get?_set_of_ne]
  · rw [OrderedDict.get?_update]
    split <;> simp (disch := decide) only [OrderedDict.get?_set_self, OrderedDict.get?_set_of_ne]
  · rw [OrderedDict.get?_update]
    split
    · simp (disch := decide) only [OrderedDict.get?_set_of_ne]
      rfl
    · simp only [OrderedDict.get?_set_self]
  · intro key hkey
    simp only [List.mem_cons, List.not_mem_nil, or_false, not_or] at hkey
    obtain ⟨hcode, hdetail, herrors⟩ := hkey
    have hnone : ((OrderedDict.empty.set (pyStr "code") (.str code)).set (pyStr "detail") (.str message) : Dict).get? key =
        none := by
      rw [OrderedDict.get?_set_of_ne _ _ hdetail, OrderedDict.get?_set_of_ne _ _ hcode]
      rfl
    rw [OrderedDict.get?_update]
    split
    · rw [hnone, Option.or_none]
    · rw [OrderedDict.get?_set_of_ne _ _ herrors, hnone, Option.or_none]

/-- The members that `_error_parts` takes apart are reserved. -/
theorem not_mem_parts_of_not_reserved {key : PyStr} (h : key ∉ reservedProblemDetailsMembers) :
    key ∉ [pyStr "code", pyStr "detail", pyStr "errors"] := by
  intro hmem
  refine h ?_
  simp only [List.mem_cons, List.not_mem_nil, or_false] at hmem
  rcases hmem with rfl | rfl | rfl <;> decide

/-- The code, the message and the errors that an answer shows. -/
structure Reads (statusCode : Int) (code message : PyStr) (errors : List Value) (extensions : Dict) (code' message' : PyStr)
    (errors' : List Value) : Prop where
  code : code' = (orElse L ((extensions.get? (pyStr "code")).or (some (.str code)))
    (.str (problemTypeForStatus statusCode).code)).text L
  message : message' = (orElse L ((extensions.get? (pyStr "detail")).or (some (.str message)))
    (.str (defaultDetail statusCode))).text L
  errors : errors' = errorItems L ((extensions.get? (pyStr "errors")).or (if errors = [] then none else some (.list errors)))

/-- An answered body has the fields of what the handler read, and the extension members left. -/
theorem respond_members {requestPath : PyStr} {statusCode : Int} {code message : PyStr} {headers : List (PyStr × PyStr)}
    {errors : List Value} {extensions : Dict} {r : Response}
    (h : respond L requestPath statusCode code message headers errors extensions = some r) :
    ∃ code' message' errors', Reads L statusCode code message errors extensions code' message' errors' ∧
      Fields r.content (problemTypeForCode L code' statusCode) statusCode message' requestPath (errorsMember L errors') ∧
      ∀ key value, key ∉ reservedProblemDetailsMembers → extensions.get? key = some value → value.isScalar = true →
        r.content.get? key = some value := by
  obtain ⟨members, hexc, hmembers⟩ := members_of_apiError statusCode code message headers errors extensions
  rw [respond, hexc] at h
  obtain ⟨hfields, hothers⟩ := problemResponse_members L h
  refine ⟨_, _, _, ⟨rfl, rfl, rfl⟩, ?_, ?_⟩
  · simpa only [errorParts, hmembers.code, hmembers.detail, hmembers.errors] using hfields
  · intro key value hkey hvalue
    have hnot : key ∉ [pyStr "code", pyStr "detail", pyStr "errors"] := not_mem_parts_of_not_reserved hkey
    refine hothers key value hkey ?_
    show (members.filterKeys _).get? key = _
    rw [OrderedDict.get?_filterKeys, if_pos (decide_eq_true hnot), hmembers.others key hnot, hvalue]

/-- There is an answer when Pydantic accepts the members that are not reserved, and the errors. -/
theorem respond_isSome {requestPath : PyStr} {statusCode : Int} {code message : PyStr} {headers : List (PyStr × PyStr)}
    {errors : List Value} {extensions : Dict} {errors' : List Value}
    (herrors : errors' = errorItems L ((extensions.get? (pyStr "errors")).or (if errors = [] then none else some (.list errors)))) :
    (respond L requestPath statusCode code message headers errors extensions).isSome = true ↔
      (∀ key value, key ∉ reservedProblemDetailsMembers → extensions.get? key = some value →
        value = .none ∨ (L.dumpExtra value).isSome = true) ∧
      (errors' = [] ∨ (L.dumpErrors errors').isSome = true) := by
  obtain ⟨members, hexc, hmembers⟩ := members_of_apiError statusCode code message headers errors extensions
  have hsafe : ∀ key value, (key, value) ∈ (safeProblemExtensions (errorParts L statusCode (.dict members)).extensions).items ↔
      key ∉ reservedProblemDetailsMembers ∧ extensions.get? key = some value := by
    intro key value
    rw [← OrderedDict.get?_eq_some, safeProblemExtensions, OrderedDict.get?_filterKeys, errorParts, OrderedDict.get?_filterKeys]
    by_cases hkey : key ∈ reservedProblemDetailsMembers
    · simp [hkey]
    · have hnot : key ∉ [pyStr "code", pyStr "detail", pyStr "errors"] := not_mem_parts_of_not_reserved hkey
      rw [if_pos (decide_eq_true hkey), if_pos (decide_eq_true hnot), hmembers.others key hnot]
      simp [hkey]
  have hextras : (dumpExtras L (safeProblemExtensions (errorParts L statusCode (.dict members)).extensions).items).isSome = true ↔
      ∀ key value, key ∉ reservedProblemDetailsMembers → extensions.get? key = some value →
        value = .none ∨ (L.dumpExtra value).isSome = true := by
    rw [dumpExtras_isSome]
    constructor
    · intro h key value hkey hvalue
      exact h (key, value) ((hsafe key value).2 ⟨hkey, hvalue⟩)
    · rintro h ⟨key, value⟩ hitem
      obtain ⟨hkey, hvalue⟩ := (hsafe key value).1 hitem
      exact h key value hkey hvalue
  have hparts : (errorParts L statusCode (.dict members)).errors = errors' := by
    rw [herrors, ← hmembers.errors]
    rfl
  have hdumped : (dumpFields L (problemTypeForCode L (errorParts L statusCode (.dict members)).code statusCode) statusCode
      (errorParts L statusCode (.dict members)).message (some requestPath)
      (errorParts L statusCode (.dict members)).errors).isSome = true ↔
        (errorParts L statusCode (.dict members)).errors = [] ∨
          (L.dumpErrors (errorParts L statusCode (.dict members)).errors).isSome = true := dumpFields_isSome L
  rw [respond, hexc, httpExceptionHandler, problemResponse, ← hextras, ← hparts, ← hdumped]
  simp [Option.isSome_iff_exists, Option.bind_eq_some_iff]

/-- Without a member of its name in the extensions, an argument is read as it is. -/
theorem text_orElse {s : PyStr} (hs : s ≠ []) (default : Value) : (orElse L (some (.str s)) default).text L = s := by
  have htruthy : (Value.str s).isTruthy L = true := decide_eq_true hs
  rw [orElse, if_pos htruthy]
  rfl

/-- The field errors that are read are those of the call. -/
theorem errorItems_argument (errors : List Value) :
    errorItems L (if errors = [] then none else some (.list errors)) = errors := by
  cases errors with
  | nil => rfl
  | cons error errors => rfl

/-- What an answer shows is protected exactly when the extensions have no `code`, `detail` and `errors` of their own, or say
the same there. -/
theorem protects_iff {requestPath : PyStr} {statusCode : Int} {code message : PyStr} {headers : List (PyStr × PyStr)}
    {errors : List Value} {extensions : Dict} (hcode : code ≠ []) (hmessage : message ≠ []) {plain extended : Response}
    (hplain : respond L requestPath statusCode code message headers errors OrderedDict.empty = some plain)
    (hextended : respond L requestPath statusCode code message headers errors extensions = some extended) :
    Protects extensions plain extended ↔ SaysTheSame L statusCode code message errors extensions := by
  obtain ⟨_, _, _, ⟨rfl, rfl, rfl⟩, hfields, -⟩ := respond_members L hplain
  obtain ⟨_, _, _, ⟨rfl, rfl, rfl⟩, hfields', hothers⟩ := respond_members L hextended
  simp only [OrderedDict.get?_empty, Option.none_or, text_orElse L hcode, text_orElse L hmessage, errorItems_argument]
    at hfields
  constructor
  · rintro ⟨hreserved, -⟩
    refine ⟨fun value hvalue => ?_, fun value hvalue => ?_, fun value hvalue => ?_⟩
    · have h := (hfields'.code.symm.trans (hreserved _ (by decide))).trans hfields.code
      rw [hvalue] at h
      exact Value.str.inj (Option.some.inj h)
    · have h := (hfields'.detail.symm.trans (hreserved _ (by decide))).trans hfields.detail
      rw [hvalue] at h
      exact Value.str.inj (Option.some.inj h)
    · have h := (hfields'.errors.symm.trans (hreserved _ (by decide))).trans hfields.errors
      rw [hvalue] at h
      exact h
  · intro hsame
    have htype : problemTypeForCode L ((orElse L ((extensions.get? (pyStr "code")).or (some (.str code)))
        (.str (problemTypeForStatus statusCode).code)).text L) statusCode = problemTypeForCode L code statusCode := by
      refine problemTypeForCode_congr L ?_
      cases hvalue : extensions.get? (pyStr "code") with
      | none => rw [Option.none_or, text_orElse L hcode]
      | some value => exact hsame.code value hvalue
    have hdetail : (orElse L ((extensions.get? (pyStr "detail")).or (some (.str message)))
        (.str (defaultDetail statusCode))).text L = message := by
      cases hvalue : extensions.get? (pyStr "detail") with
      | none => rw [Option.none_or, text_orElse L hmessage]
      | some value => exact hsame.detail value hvalue
    have herrors : errorsMember L (errorItems L ((extensions.get? (pyStr "errors")).or
        (if errors = [] then none else some (.list errors)))) = errorsMember L errors := by
      cases hvalue : extensions.get? (pyStr "errors") with
      | none => rw [Option.none_or, errorItems_argument]
      | some value => exact hsame.errors value hvalue
    rw [htype, hdetail, herrors] at hfields'
    refine ⟨fun key hkey => ?_, hothers⟩
    simp only [reservedProblemDetailsMembers, List.mem_cons, List.not_mem_nil, or_false] at hkey
    rcases hkey with rfl | rfl | rfl | rfl | rfl | rfl | rfl
    · exact hfields'.type.trans hfields.type.symm
    · exact hfields'.title.trans hfields.title.symm
    · exact hfields'.status.trans hfields.status.symm
    · exact hfields'.detail.trans hfields.detail.symm
    · exact hfields'.instance_.trans hfields.instance_.symm
    · exact hfields'.code.trans hfields.code.symm
    · exact hfields'.errors.trans hfields.errors.symm

/-- There is an answer exactly when Pydantic accepts what the extensions bring, if it accepts the errors of the arguments. -/
theorem answered_iff_accepted {requestPath : PyStr} {statusCode : Int} {code message : PyStr}
    {headers : List (PyStr × PyStr)} {errors : List Value} {extensions : Dict} {plain : Response}
    (hplain : respond L requestPath statusCode code message headers errors OrderedDict.empty = some plain) :
    (respond L requestPath statusCode code message headers errors extensions).isSome = true ↔ Accepted L extensions := by
  have herrors : errors = [] ∨ (L.dumpErrors errors).isSome = true :=
    ((respond_isSome L (errorItems_argument L errors).symm).1 (Option.isSome_iff_exists.2 ⟨plain, hplain⟩)).2
  rw [respond_isSome L rfl]
  constructor
  · rintro ⟨hmembers, hdumped⟩
    refine ⟨hmembers, fun value hvalue => ?_⟩
    rwa [hvalue] at hdumped
  · rintro ⟨hmembers, hdumped⟩
    refine ⟨hmembers, ?_⟩
    cases hvalue : extensions.get? (pyStr "errors") with
    | none =>
      rw [Option.none_or, errorItems_argument]
      exact herrors
    | some value => exact hdumped value hvalue

end ProblemDetailsAux

open ProblemDetailsAux

namespace BadRequest

/-- Texts of ASCII letters, and values that are JSON already. -/
def libraries : Libraries where
  lower s := s.map fun c => if 65 ≤ c ∧ c ≤ 90 then c + 32 else c
  strOf _ := []
  isTrue _ := true
  dumpErrors errors := some (.list errors)
  dumpExtra value := some value
  dumpExtra_scalar _ _ := rfl

def path : PyStr := pyStr "/with-details"

def code : PyStr := pyStr "bad_request"

def message : PyStr := pyStr "Has details"

/-- An extension member that is called `code`. -/
def extensions : Dict := OrderedDict.empty.set (pyStr "code") (.str (pyStr "weak_password"))

/-- A reserved member that no argument sets, and one that is not reserved. -/
def harmless : Dict := (OrderedDict.empty.set (pyStr "type") (.str (pyStr "evil"))).set (pyStr "provider_id") (.str (pyStr "google"))

end BadRequest

end AuthService.ErrorHandlers
