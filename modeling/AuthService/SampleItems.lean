import AuthService.Python

/-!
# Listing sample items

The cursor and the listing of `SampleItemUsecase` (usecases/sample_item_usecase.py), `list_by_owner` of the repository and the
binding of a timestamp (libraries/sqlalchemy_types.py). Base64, JSON, ISO dates and UUID texts are those of Python's library: a
parameter, with the laws that an encoded value decodes.
-/

namespace AuthService

/-- A JSON value. -/
inductive Json where
  | null
  | bool (b : Bool)
  | int (n : Int)
  | float (literal : PyStr)
  | text (s : PyStr)
  | array (items : List Json)
  | object (members : List (PyStr × Json))
  deriving Repr

/-- The decoders and encoders of Python's library. -/
structure CursorLib where
  b64encode : Bytes → Bytes
  b64decode : Bytes → Except PyException Bytes
  dumps : Json → PyStr
  encodeUtf8 : PyStr → Except PyException Bytes
  loads : Bytes → Except PyException Json
  isoformat : PyDateTime → PyStr
  fromIsoformat : PyStr → Except PyException PyDateTime
  uuidText : Uuid → PyStr
  uuidOfText : PyStr → Except PyException Uuid

def Ascii (s : PyStr) : Prop := ∀ c ∈ s, c < 128

instance (s : PyStr) : Decidable (Ascii s) := inferInstanceAs (Decidable (∀ _ ∈ _, _))

/-- The payload of a cursor. -/
def cursorPayload (createdAt id : PyStr) : Json := .object [(pyStr "created_at", .text createdAt), (pyStr "id", .text id)]

/-- What is encoded decodes to what it was: base64, JSON objects of two texts, aware datetimes and UUIDs. -/
structure CursorLib.Lawful (L : CursorLib) : Prop where
  b64_ascii : ∀ b, ∀ c ∈ L.b64encode b, c.toNat < 128
  b64_ne_nil : ∀ b, b ≠ [] → L.b64encode b ≠ []
  b64_decode : ∀ b, L.b64decode (L.b64encode b) = .ok b
  json : ∀ createdAt id, Ascii createdAt → Ascii id → ∃ b, b ≠ [] ∧
    L.encodeUtf8 (L.dumps (cursorPayload createdAt id)) = .ok b ∧ L.loads b = .ok (cursorPayload createdAt id)
  iso_ascii : ∀ d, Ascii (L.isoformat d)
  iso : ∀ d, d.Valid → d.offset.isSome → L.fromIsoformat (L.isoformat d) = .ok d
  uuid_ascii : ∀ id, Ascii (L.uuidText id)
  uuid : ∀ id, L.uuidOfText (L.uuidText id) = .ok id

/-! ## The cursor -/

/-- `value.encode("ascii")`. -/
def encodeAscii (s : PyStr) : Except PyException Bytes :=
  if ∀ c ∈ s, c < 128 then .ok (s.map UInt8.ofNat) else .error .unicodeError

/-- `value.decode("ascii")`. -/
def decodeAscii (b : Bytes) : Except PyException PyStr :=
  if ∀ c ∈ b, c.toNat < 128 then .ok (b.map UInt8.toNat) else .error .unicodeError

/-- `SampleItemCursor`. -/
structure SampleItemCursor where
  registeredAt : PyDateTime
  id : Uuid
  deriving DecidableEq, Repr

/-- `payload[name]`. -/
def Json.subscript (payload : Json) (name : PyStr) : Except PyException Json :=
  match payload with
  | .object members =>
    match members.reverse.lookup name with
    | some value => .ok value
    | none => .error .keyError
  | _ => .error .typeError

/-- `datetime.fromisoformat(value)`. -/
def fromIsoformatValue (L : CursorLib) : Json → Except PyException PyDateTime
  | .text s => L.fromIsoformat s
  | _ => .error .typeError

/-- `UUID(value)`. -/
def uuidOfValue (L : CursorLib) : Json → Except PyException Uuid
  | .text s => L.uuidOfText s
  | .null => .error .typeError
  | _ => .error .attributeError

/-- `encode_cursor` of an item with any aware `registered_at`. -/
def encodeCursorOf (L : CursorLib) (registeredAt : PyDateTime) (id : Uuid) : Except PyException PyStr := do
  let payload := cursorPayload (L.isoformat registeredAt) (L.uuidText id)
  decodeAscii (L.b64encode (← L.encodeUtf8 (L.dumps payload)))

/-- `encode_cursor`, of a row. -/
def encodeCursor (L : CursorLib) (item : SampleItem) : Except PyException PyStr :=
  encodeCursorOf L (utc item.registeredAt) item.id

/-- The body of `decode_cursor`. -/
def decodeCursorBody (L : CursorLib) (cursor : PyStr) : Except PyException SampleItemCursor := do
  let payload ← L.loads (← L.b64decode (← encodeAscii cursor))
  let registeredAt ← fromIsoformatValue L (← payload.subscript (pyStr "created_at"))
  if registeredAt.offset.isNone then .error .valueError
  else
    let id ← uuidOfValue L (← payload.subscript (pyStr "id"))
    return ⟨registeredAt, id⟩

/-- The exceptions that `decode_cursor` catches. -/
def PyException.isCaught : PyException → Bool
  | .binasciiError | .keyError | .typeError | .unicodeError | .valueError => true
  | _ => false

/-- `decode_cursor`. -/
def decodeCursor (L : CursorLib) (cursor : PyStr) : Except PyException SampleItemCursor :=
  match decodeCursorBody L cursor with
  | .ok decoded => .ok decoded
  | .error e => .error (if e.isCaught then .invalidSampleItemCursor else e)

/-- `UnixTimestampMillis.process_bind_param`. -/
def processBindParam (value : PyDateTime) : Except PyException DateTime :=
  match value.offset with
  | none => .error .valueError
  | some offset =>
    if Representable (value.wall - offset) then .ok (toMillis (value.wall - offset)) else .error .overflowError

/-! ## The listing -/

/-- The condition of `list_by_owner` on a row. -/
def SampleItem.isListed (owner : Uuid) (cursor : Option (DateTime × Uuid)) (x : SampleItem) : Bool :=
  x.ownerUserId = owner &&
    match cursor with
    | none => true
    | some (registeredAt, id) => x.registeredAt < registeredAt || x.registeredAt = registeredAt && x.id < id

/-- `order_by(registered_at.desc(), id.desc())`. -/
def listedBefore (x y : SampleItem) : Prop := y.registeredAt < x.registeredAt ∨ y.registeredAt = x.registeredAt ∧ y.id ≤ x.id

instance : DecidableRel listedBefore := fun _ _ => inferInstanceAs (Decidable (_ ∨ _))

/-- The rows of `list_by_owner` without its limit. -/
def listedRows (items : List SampleItem) (owner : Uuid) (cursor : Option (DateTime × Uuid)) : List SampleItem :=
  (items.filter fun x => x.isListed owner cursor).insertionSort listedBefore

/-- `list_by_owner`. -/
def listByOwner (items : List SampleItem) (owner : Uuid) (fetchLimit : Nat) (cursor : Option SampleItemCursor) :
    Except PyException (List SampleItem) :=
  match cursor with
  | none => .ok ((listedRows items owner none).take fetchLimit)
  | some cursor => do
    let registeredAt ← processBindParam cursor.registeredAt
    return (listedRows items owner (some (registeredAt, cursor.id))).take fetchLimit

/-- `xs[i]`: a negative index counts from the end. -/
def pyIndex {α : Type} (xs : List α) (i : Int) : Except PyException α :=
  let j := if i < 0 then i + xs.length else i
  match (if j < 0 then none else xs[j.toNat]?) with
  | some x => .ok x
  | none => .error .indexError

/-- `next_cursor_for_items`. -/
def nextCursorForItems (L : CursorLib) (items : List SampleItem) (limit : Nat) : Except PyException (Option PyStr) :=
  if items.length ≤ limit then .ok none
  else do return some (← encodeCursor L (← pyIndex items (limit - 1)))

/-- `SampleItemListResult`. -/
structure SampleItemListResult where
  items : List SampleItem
  nextCursor : Option PyStr
  deriving DecidableEq, Repr

/-- `decode_cursor(cursor) if cursor else None`. -/
def decodeGiven (L : CursorLib) (cursor : Option PyStr) : Except PyException (Option SampleItemCursor) :=
  match cursor.filter (· ≠ []) with
  | none => .ok none
  | some cursor => do return some (← decodeCursor L cursor)

/-- `list_items`. -/
def listItems (L : CursorLib) (items : List SampleItem) (owner : Uuid) (limit : Nat) (cursor : Option PyStr) :
    Except PyException SampleItemListResult := do
  let rows ← listByOwner items owner (limit + 1) (← decodeGiven L cursor)
  let nextCursor ← nextCursorForItems L rows limit
  return ⟨rows.take limit, nextCursor⟩

/-! ## Changes of the table, and a walk through its pages -/

/-- A committed change of `sample_items`. -/
inductive ItemChange where
  | insert (item : SampleItem)
  | update (id : Uuid) (title : Option Text) (description : Option (Option Text)) (isCompleted : Option Bool)
      (modifiedAt : DateTime)
  | delete (id : Uuid)
  deriving DecidableEq, Repr

/-- The table after a change. A row with the id of another is refused. -/
def ItemChange.apply (items : List SampleItem) : ItemChange → List SampleItem
  | .insert item => if items.any fun x => x.id = item.id then items else items ++ [item.bind]
  | .update id title description isCompleted modifiedAt =>
    items.map fun x =>
      if x.id = id then
        { x with
          title := title.getD x.title
          description := description.getD x.description
          isCompleted := isCompleted.getD x.isCompleted
          modifiedAt := toMillis modifiedAt }
      else x
  | .delete id => items.filter fun x => x.id ≠ id

/-- The table after some changes. -/
def applyChanges (items : List SampleItem) (changes : List ItemChange) : List SampleItem := changes.foldl ItemChange.apply items

/-- An inserted row has a time that a `datetime` can show. -/
def ItemChange.Valid : ItemChange → Prop
  | .insert item => Representable item.registeredAt
  | _ => True

instance : (c : ItemChange) → Decidable c.Valid
  | .insert item => inferInstanceAs (Decidable (Representable item.registeredAt))
  | .update .. => isTrue trivial
  | .delete _ => isTrue trivial

/-- The row that a change inserts. -/
def ItemChange.inserted : ItemChange → List SampleItem
  | .insert item => [item.bind]
  | _ => []

/-- The tables from a request to the last one, when some changes are made after each. -/
def moments (items : List SampleItem) : List (List ItemChange) → List (List SampleItem)
  | [] => [items]
  | changes :: rounds => changes.scanl ItemChange.apply items ++ moments (applyChanges items changes) rounds

/-- The pages of a client that follows the cursors, with changes between its requests. It stops when it gets no cursor. -/
def walk (L : CursorLib) (owner : Uuid) (limit : Nat) (items : List SampleItem) (cursor : Option PyStr) :
    List (List ItemChange) → Except PyException (List (List SampleItem) × Option PyStr)
  | [] => do
    let result ← listItems L items owner limit cursor
    return ([result.items], result.nextCursor)
  | changes :: rounds => do
    let result ← listItems L items owner limit cursor
    match result.nextCursor with
    | none => return ([result.items], none)
    | some next =>
      let (pages, last) ← walk L owner limit (applyChanges items changes) (some next) rounds
      return (result.items :: pages, last)

end AuthService
