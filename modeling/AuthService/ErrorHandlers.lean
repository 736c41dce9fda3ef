import AuthService.Python
import AuthService.Library.OrderedDict
import AuthService.Library.Replace

/-!
# Problem Details

The error handlers (bootstrap/error_handlers.py) and the registry of problem types (models/problem_types.py). What Pydantic and
Python's strings do with values that are not plain is a parameter.
-/

namespace AuthService.ErrorHandlers

open Replace (replace)

/-! ## Values -/

/-- `ProblemError`. -/
structure ProblemError where
  location : Option PyStr
  pointer : Option PyStr
  parameter : Option PyStr
  detail : PyStr
  code : Option PyStr
  deriving DecidableEq, Repr

/-- A Python value. -/
inductive Value where
  | none
  | bool (b : Bool)
  | int (n : Int)
  | float (literal : PyStr)
  | str (s : PyStr)
  | list (items : List Value)
  | dict (items : List (PyStr × Value))
  | problemError (error : ProblemError)
  | other (id : Nat)

/-- A dictionary with texts as keys. -/
abbrev Dict := OrderedDict PyStr Value

/-- A JSON scalar that is not `null`. -/
def Value.isScalar : Value → Bool
  | .bool _ | .int _ | .str _ => true
  | .float literal => literal ∉ [pyStr "nan", pyStr "inf", pyStr "-inf"]
  | _ => false

/-- What the handlers take from Python and Pydantic. -/
structure Libraries where
  lower : PyStr → PyStr
  /-- `str(value)` of a value that is not a string. -/
  strOf : Value → PyStr
  /-- `bool(value)` of an object. -/
  isTrue : Nat → Bool
  /-- The errors of a `ProblemDetails` in its dump. `none` when an error or its dump is refused. -/
  dumpErrors : List Value → Option Value
  /-- An extra member of a `ProblemDetails` in its dump. `none` when it is refused. -/
  dumpExtra : Value → Option Value
  dumpExtra_scalar : ∀ value, value.isScalar = true → dumpExtra value = some value

variable (L : Libraries)

/-- `bool(value)`. -/
def Value.isTruthy : Value → Bool
  | .none => false
  | .bool b => b
  | .int n => n ≠ 0
  | .float literal => literal ∉ [pyStr "0.0", pyStr "-0.0"]
  | .str s => s ≠ []
  | .list items => !items.isEmpty
  | .dict items => !items.isEmpty
  | .problemError _ => true
  | .other id => L.isTrue id

/-- `str(value)`. -/
def Value.text : Value → PyStr
  | .str s => s
  | value => L.strOf value

/-- `value or default`. -/
def orElse (value : Option Value) (default : Value) : Value :=
  match value with
  | some value => if value.isTruthy L then value else default
  | none => default

/-! ## Problem types -/

/-- `ProblemType`. -/
structure ProblemType where
  code : PyStr
  type : PyStr
  title : PyStr
  status : Int
  deriving DecidableEq, Repr

/-- `_problem_type`, under its code. -/
def problemType (code title : String) (status : Int) : PyStr × ProblemType :=
  (pyStr code, ⟨pyStr code, pyStr "/problems/" ++ pyStr code, pyStr title, status⟩)

/-- `PROBLEM_TYPES`. -/
def problemTypes : List (PyStr × ProblemType) :=
  [problemType "bad_request" "Bad request" 400,
    problemType "unauthorized" "Unauthorized" 401,
    problemType "forbidden" "Forbidden" 403,
    problemType "permission_denied" "Permission denied" 403,
    problemType "not_found" "Not found" 404,
    problemType "method_not_allowed" "Method not allowed" 405,
    problemType "not_acceptable" "Not acceptable" 406,
    problemType "conflict" "Conflict" 409,
    problemType "unsupported_media_type" "Unsupported media type" 415,
    problemType "validation_error" "Validation error" 422,
    problemType "rate_limited" "Rate limited" 429,
    problemType "internal_server_error" "Internal server error" 500,
    problemType "csrf_validation_failed" "CSRF validation failed" 403,
    problemType "invalid_admin_user_query" "Invalid admin user query" 422,
    problemType "email_already_registered" "Email already registered" 409,
    problemType "weak_password" "Weak password" 422,
    problemType "role_not_found" "Role not found" 422,
    problemType "user_not_found" "User not found" 404,
    problemType "sample_item_invalid_cursor" "Invalid sample item cursor" 400,
    problemType "sample_item_not_found" "Sample item not found" 404,
    problemType "account_deletion_confirmation_mismatch" "Account deletion confirmation mismatch" 400,
    problemType "account_deletion_reauth_required" "Account deletion reauthentication required" 400,
    problemType "account_deletion_invalid_password" "Account deletion invalid password" 400,
    problemType "account_deletion_oidc_reauth_required" "Account deletion OIDC reauthentication required" 400,
    problemType "account_deletion_reauth_rate_limited" "Account deletion reauthentication rate limited" 429,
    problemType "invalid_credentials" "Invalid credentials" 401,
    problemType "register_rate_limited" "Register rate limited" 429,
    problemType "login_rate_limited" "Login rate limited" 429]

/-- `_STATUS_DEFAULT_CODES`. -/
def statusDefaultCodes : List (Int × PyStr) :=
  [(400, pyStr "bad_request"), (401, pyStr "unauthorized"), (403, pyStr "forbidden"), (404, pyStr "not_found"),
    (405, pyStr "method_not_allowed"), (406, pyStr "not_acceptable"), (409, pyStr "conflict"),
    (415, pyStr "unsupported_media_type"), (422, pyStr "validation_error"), (429, pyStr "rate_limited"),
    (500, pyStr "internal_server_error")]

/-- The type of an error without a code of its own. -/
def httpError (status : Int) : ProblemType := ⟨pyStr "http_error", pyStr "/problems/http_error", pyStr "HTTP error", status⟩

/-- `problem_type_for_status`. -/
def problemTypeForStatus (status : Int) : ProblemType :=
  match (statusDefaultCodes.lookup status).bind fun code => problemTypes.lookup code with
  | some problemType => problemType
  | none => httpError status

/-- `problem_type_for_code`. -/
def problemTypeForCode (code : PyStr) (fallbackStatus : Int) : ProblemType :=
  match problemTypes.lookup (L.lower code) with
  | some problemType => problemType
  | none => problemTypeForStatus fallbackStatus

/-- Every default code has a type. -/
theorem statusDefaultCodes_registered : ∀ p ∈ statusDefaultCodes, (problemTypes.lookup p.2).isSome = true := by decide

/-! ## Responses -/

/-- `RESERVED_PROBLEM_DETAILS_MEMBERS`. -/
def reservedProblemDetailsMembers : List PyStr :=
  [pyStr "type", pyStr "title", pyStr "status", pyStr "detail", pyStr "instance", pyStr "code", pyStr "errors"]

/-- The `detail` of an `HTTPException`. -/
inductive Detail where
  | dict (members : Dict)
  | str (s : PyStr)
  | other

/-- `HTTPException`. -/
structure HttpException where
  statusCode : Int
  detail : Detail
  headers : List (PyStr × PyStr)

/-- `api_error`. -/
def apiError (statusCode : Int) (code message : PyStr) (headers : List (PyStr × PyStr)) (errors : List Value)
    (extensions : Dict) : HttpException :=
  let detail : Dict := (OrderedDict.empty.set (pyStr "code") (.str code)).set (pyStr "detail") (.str message)
  let detail := if errors = [] then detail else detail.set (pyStr "errors") (.list errors)
  ⟨statusCode, .dict (detail.update extensions.items), headers⟩

/-- `_default_detail`. -/
def defaultDetail (statusCode : Int) : PyStr := pyStr (if statusCode = 500 then "Internal server error" else "HTTP error")

/-- The errors of an `errors` member. -/
def errorItems (value : Option Value) : List Value :=
  match orElse L value (.list []) with
  | .list items => items
  | value => [value]

/-- What `_error_parts` returns. -/
structure ErrorParts where
  code : PyStr
  message : PyStr
  errors : List Value
  extensions : Dict

/-- `_error_parts`. -/
def errorParts (statusCode : Int) (detail : Detail) : ErrorParts :=
  match detail with
  | .dict members =>
    { code := (orElse L (members.get? (pyStr "code")) (.str (problemTypeForStatus statusCode).code)).text L
      message := (orElse L (members.get? (pyStr "detail")) (.str (defaultDetail statusCode))).text L
      errors := errorItems L (members.get? (pyStr "errors"))
      extensions := members.filterKeys fun key => key ∉ [pyStr "code", pyStr "detail", pyStr "errors"] }
  | .str s => ⟨(problemTypeForStatus statusCode).code, s, [], OrderedDict.empty⟩
  | .other => ⟨(problemTypeForStatus statusCode).code, defaultDetail statusCode, [], OrderedDict.empty⟩

/-- `_safe_problem_extensions`. -/
def safeProblemExtensions (extensions : Dict) : Dict := extensions.filterKeys fun key => key ∉ reservedProblemDetailsMembers

/-- The fields of a `ProblemDetails` in its dump, without those that are `None`. -/
def dumpFields (problemType : ProblemType) (statusCode : Int) (detail : PyStr) (requestPath : Option PyStr)
    (errors : List Value) : Option Dict :=
  let fields : Dict := ((OrderedDict.empty.set (pyStr "type") (.str problemType.type)).set
    (pyStr "title") (.str problemType.title)).set (pyStr "status") (.int statusCode)
  let fields := fields.set (pyStr "detail") (.str detail)
  let fields := match requestPath with
    | some path => fields.set (pyStr "instance") (.str path)
    | none => fields
  let fields := fields.set (pyStr "code") (.str problemType.code)
  if errors = [] then some fields else (L.dumpErrors errors).map fun errors => fields.set (pyStr "errors") errors

/-- The extra members of a `ProblemDetails` in its dump, without those that are `None`. -/
def dumpExtras : List (PyStr × Value) → Option (List (PyStr × Value))
  | [] => some []
  | (key, value) :: items => do
    let rest ← dumpExtras items
    match value with
    | .none => return rest
    | value => return (key, ← L.dumpExtra value) :: rest

/-- The body and the headers of a response. -/
structure Response where
  statusCode : Int
  content : Dict
  headers : List (PyStr × PyStr)
  mediaType : String

/-- A header that is set when it is not there. -/
def setDefault (headers : List (PyStr × PyStr)) (name value : PyStr) : List (PyStr × PyStr) :=
  if headers.any fun h => h.1 = name then headers else headers ++ [(name, value)]

/-- `problem_response`. `none` when Pydantic refuses the details. -/
def problemResponse (statusCode : Int) (code detail : PyStr) (errors : List Value) (extensions : Dict)
    (requestPath : Option PyStr) (headers : List (PyStr × PyStr)) : Option Response := do
  let problemType := problemTypeForCode L code statusCode
  let extras ← dumpExtras L (safeProblemExtensions extensions).items
  let content ← dumpFields L problemType statusCode detail requestPath errors
  return {
    statusCode
    content := content.update extras
    headers := if statusCode = 401 then setDefault headers (pyStr "Cache-Control") (pyStr "no-store") else headers
    mediaType := "application/problem+json" }

/-- `http_exception_handler`, of an `HTTPException`. -/
def httpExceptionHandler (requestPath : PyStr) (exc : HttpException) : Option Response :=
  let parts := errorParts L exc.statusCode exc.detail
  problemResponse L exc.statusCode parts.code parts.message parts.errors parts.extensions (some requestPath) exc.headers

/-! ## Validation errors -/

/-- A part of the location of a validation error. -/
inductive LocPart where
  | name (s : PyStr)
  | index (n : Int)
  deriving DecidableEq, Repr

/-- `str(part)`. -/
def LocPart.text : LocPart → PyStr
  | .name s => s
  | .index n => pyStr (toString n)

/-- An item of `RequestValidationError.errors()`. -/
structure ValidationErrorDict where
  loc : List LocPart
  msg : Option PyStr
  type : Option PyStr

/-- An escaped part of a pointer. -/
def escapePart (part : PyStr) : PyStr := replace (pyStr "/") (pyStr "~1") (replace (pyStr "~") (pyStr "~0") part)

/-- `_json_pointer`. -/
def jsonPointer (parts : List LocPart) : PyStr :=
  pyStr "#/" ++ (pyStr "/").intercalate (parts.map fun part => escapePart part.text)

/-- `_validation_error_item`. -/
def validationErrorItem (error : ValidationErrorDict) : ProblemError :=
  let location := error.loc.head?.map LocPart.text
  let fieldPath := error.loc.tail
  { location := location
    pointer := if location = some (pyStr "body") ∧ fieldPath ≠ [] then some (jsonPointer fieldPath) else none
    parameter :=
      if location ∈ ["query", "path", "header", "cookie"].map (fun s => some (pyStr s)) then fieldPath.head?.map LocPart.text
      else none
    detail := error.msg.getD (pyStr "Invalid input")
    code := some (error.type.getD (pyStr "value_error")) }

/-- `validation_exception_handler`, of a `RequestValidationError`. -/
def validationExceptionHandler (requestPath : PyStr) (errors : List ValidationErrorDict) : Option Response :=
  problemResponse L 422 (pyStr "validation_error") (pyStr "Request validation failed.")
    (errors.map fun error => .problemError (validationErrorItem error)) OrderedDict.empty (some requestPath) []

/-- `unhandled_exception_handler`. -/
def unhandledExceptionHandler (requestPath : PyStr) : Option Response :=
  problemResponse L 500 (pyStr "internal_server_error") (pyStr "Internal server error") [] OrderedDict.empty (some requestPath) []

end AuthService.ErrorHandlers
