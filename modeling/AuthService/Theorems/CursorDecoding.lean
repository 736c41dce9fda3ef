import AuthService.Theorems.Pagination

/-!
# What the decoding of a cursor raises

A cursor is a text of the client. Its payload may be any JSON value, so every decoder of the chain meets every value. Two of their
exceptions are not caught: that of `UUID` on a value that is no text, and that of the conversion of a time to UTC.
-/

namespace AuthService

/-- The exceptions of the decoders as their documentation has them. Nested JSON may exhaust the interpreter's stack. -/
structure CursorLib.Documented (L : CursorLib) : Prop where
  b64decode : ∀ b e, L.b64decode b = .error e → e = .binasciiError
  loads : ∀ b e, L.loads b = .error e → e = .valueError ∨ e = .unicodeError ∨ e = .recursionError
  fromIsoformat : ∀ s e, L.fromIsoformat s = .error e → e = .valueError
  uuidOfText : ∀ s e, L.uuidOfText s = .error e → e = .valueError

variable (L : CursorLib)

/-- The payload of a cursor as the client sent it. -/
def payloadOf (cursor : PyStr) : Except PyException Json := do L.loads (← L.b64decode (← encodeAscii cursor))

/-- The payload has an aware time. -/
def HasTime (payload : Json) (registeredAt : PyDateTime) : Prop :=
  ∃ s, payload.subscript (pyStr "created_at") = .ok (.text s) ∧ L.fromIsoformat s = .ok registeredAt ∧ registeredAt.offset.isSome

/-- Decoding is refused, or gives a cursor that the query can bind. -/
def DecodesOrRefuses (cursor : PyStr) : Prop :=
  decodeCursor L cursor = .error .invalidSampleItemCursor ∨
    ∃ decoded t, decodeCursor L cursor = .ok decoded ∧ processBindParam decoded.registeredAt = .ok t

/-- A payload with an aware time has, if at all, a text or `null` as its id, and where the id is that of a UUID the time is between
the years 1 and 9999 in UTC as well. -/
structure Bindable (cursor : PyStr) : Prop where
  nesting : payloadOf L cursor ≠ .error .recursionError
  id : ∀ payload registeredAt value, payloadOf L cursor = .ok payload → HasTime L payload registeredAt →
    payload.subscript (pyStr "id") = .ok value → (∃ s, value = .text s) ∨ value = .null
  time : ∀ payload registeredAt s id, payloadOf L cursor = .ok payload → HasTime L payload registeredAt →
    payload.subscript (pyStr "id") = .ok (.text s) → L.uuidOfText s = .ok id →
    ∀ offset ∈ registeredAt.offset, Representable (registeredAt.wall - offset)

namespace CursorDecodingAux

variable {L}

/-! ## The chain of decoders -/

/-- What a subscript raises is caught. -/
theorem subscript_error {payload : Json} {name : PyStr} {e : PyException} (h : payload.subscript name = .error e) :
    e.isCaught = true := by
  unfold Json.subscript at h
  split at h
  · split at h
    · cases h
    · cases h
      rfl
  · cases h
    rfl

/-- What `fromisoformat` raises is caught. -/
theorem fromIsoformatValue_error (hdoc : L.Documented) {value : Json} {e : PyException} (h : fromIsoformatValue L value = .error e) :
    e.isCaught = true := by
  unfold fromIsoformatValue at h
  split at h
  · rw [hdoc.fromIsoformat _ _ h]
    rfl
  · cases h
    rfl

/-- `fromisoformat` succeeds on texts only. -/
theorem fromIsoformatValue_ok {value : Json} {d : PyDateTime} (h : fromIsoformatValue L value = .ok d) :
    ∃ s, value = .text s ∧ L.fromIsoformat s = .ok d := by
  unfold fromIsoformatValue at h
  split at h
  · exact ⟨_, rfl, h⟩
  · cases h

/-- `UUID` of a value is caught, or the value is neither a text nor `null`. -/
theorem uuidOfValue_error (hdoc : L.Documented) {value : Json} {e : PyException} (h : uuidOfValue L value = .error e) :
    e.isCaught = true ∧ ((∃ s, value = .text s) ∨ value = .null) ∨
    e = .attributeError ∧ ¬ ((∃ s, value = .text s) ∨ value = .null) := by
  unfold uuidOfValue at h
  split at h
  · rename_i s
    rw [hdoc.uuidOfText _ _ h]
    exact Or.inl ⟨rfl, Or.inl ⟨s, rfl⟩⟩
  · cases h
    exact Or.inl ⟨rfl, Or.inr rfl⟩
  · rename_i htext hnull
    cases h
    refine Or.inr ⟨rfl, ?_⟩
    rintro (⟨s, rfl⟩ | rfl)
    · exact htext s rfl
    · exact hnull rfl

/-- `UUID` succeeds on texts only. -/
theorem uuidOfValue_ok {value : Json} {id : Uuid} (h : uuidOfValue L value = .ok id) :
    ∃ s, value = .text s ∧ L.uuidOfText s = .ok id := by
  unfold uuidOfValue at h
  split at h
  · exact ⟨_, rfl, h⟩
  · cases h
  · cases h

/-- The payload of a cursor is there, or its absence is caught, or it is nested too deeply. -/
theorem payloadOf_error (hdoc : L.Documented) {cursor : PyStr} {e : PyException} (h : payloadOf L cursor = .error e) :
    e.isCaught = true ∨ e = .recursionError := by
  unfold payloadOf encodeAscii at h
  split at h
  · cases hbytes : L.b64decode (cursor.map UInt8.ofNat) with
    | error e' =>
      simp only [bind, Except.bind, hbytes] at h
      cases h
      rw [hdoc.b64decode _ _ hbytes]
      exact Or.inl rfl
    | ok bytes =>
      simp only [bind, Except.bind, hbytes] at h
      rcases hdoc.loads _ _ h with rfl | rfl | rfl
      · exact Or.inl rfl
      · exact Or.inl rfl
      · exact Or.inr rfl
  · cases h
    exact Or.inl rfl

/-- What the body does with the payload. -/
def decodePayload (L : CursorLib) (payload : Json) : Except PyException SampleItemCursor := do
  let registeredAt ← fromIsoformatValue L (← payload.subscript (pyStr "created_at"))
  if registeredAt.offset.isNone then .error .valueError
  else
    let id ← uuidOfValue L (← payload.subscript (pyStr "id"))
    return ⟨registeredAt, id⟩

/-- The body decodes the payload and then reads it. -/
theorem body_eq (cursor : PyStr) : decodeCursorBody L cursor = payloadOf L cursor >>= decodePayload L := by
  unfold decodeCursorBody payloadOf
  simp only [bind_assoc]
  rfl

/-- A payload with an aware time gets to its id. -/
theorem decodePayload_of_time {payload : Json} {registeredAt : PyDateTime} (h : HasTime L payload registeredAt) :
    decodePayload L payload = (payload.subscript (pyStr "id") >>= uuidOfValue L) >>= fun id => .ok ⟨registeredAt, id⟩ := by
  obtain ⟨s, hcreated, hiso, haware⟩ := h
  have hnotNone : registeredAt.offset.isNone = false := Option.isNone_eq_false_iff.2 haware
  simp only [decodePayload, hcreated, fromIsoformatValue, hiso, hnotNone, bind, Except.bind]
  cases payload.subscript (pyStr "id") with
  | error e => rfl
  | ok value => rfl

/-- A payload without an aware time is refused. -/
theorem decodePayload_of_no_time (hdoc : L.Documented) {payload : Json} (h : ∀ registeredAt, ¬ HasTime L payload registeredAt) :
    ∃ e, decodePayload L payload = .error e ∧ e.isCaught = true := by
  unfold decodePayload
  cases hcreated : payload.subscript (pyStr "created_at") with
  | error e => exact ⟨e, rfl, subscript_error hcreated⟩
  | ok value =>
    simp only [bind, Except.bind]
    cases hiso : fromIsoformatValue L value with
    | error e => exact ⟨e, rfl, fromIsoformatValue_error hdoc hiso⟩
    | ok registeredAt =>
      obtain ⟨s, rfl, htime⟩ := fromIsoformatValue_ok hiso
      have hnaive : registeredAt.offset.isNone = true := by
        by_contra haware
        exact h registeredAt ⟨s, hcreated, htime, Option.isNone_eq_false_iff.1 (Bool.eq_false_of_not_eq_true haware)⟩
      exact ⟨.valueError, if_pos hnaive, rfl⟩

/-- The payload of a cursor decodes when it has an aware time and the id of a UUID. Else it is refused, but for an id that is
neither a text nor `null`. -/
theorem decodePayload_cases (hdoc : L.Documented) (payload : Json) :
    (∃ e, decodePayload L payload = .error e ∧ e.isCaught = true ∧
      ∀ registeredAt value, HasTime L payload registeredAt → payload.subscript (pyStr "id") = .ok value →
        ((∃ s, value = .text s) ∨ value = .null) ∧ ∀ s id, value = .text s → L.uuidOfText s ≠ .ok id) ∨
    (∃ registeredAt value, HasTime L payload registeredAt ∧ payload.subscript (pyStr "id") = .ok value ∧
      ¬ ((∃ s, value = .text s) ∨ value = .null) ∧ decodePayload L payload = .error .attributeError) ∨
    ∃ registeredAt s id, HasTime L payload registeredAt ∧ payload.subscript (pyStr "id") = .ok (.text s) ∧
      L.uuidOfText s = .ok id ∧ decodePayload L payload = .ok ⟨registeredAt, id⟩ := by
  by_cases htime : ∃ registeredAt, HasTime L payload registeredAt
  · obtain ⟨registeredAt, htime⟩ := htime
    rw [decodePayload_of_time htime]
    cases hid : payload.subscript (pyStr "id") with
    | error e =>
      refine Or.inl ⟨e, rfl, subscript_error hid, ?_⟩
      intro _ _ _ hvalue
      cases hvalue
    | ok value =>
      cases huuid : uuidOfValue L value with
      | error e =>
        rcases uuidOfValue_error hdoc huuid with ⟨hcaught, hshape⟩ | ⟨rfl, hshape⟩
        · refine Or.inl ⟨e, ?_, hcaught, ?_⟩
          · simp only [bind, Except.bind, huuid]
          · rintro _ _ _ hvalue
            cases hvalue
            refine ⟨hshape, ?_⟩
            rintro s id rfl hok
            cases huuid.symm.trans hok
        · refine Or.inr (Or.inl ⟨registeredAt, value, htime, rfl, hshape, ?_⟩)
          simp only [bind, Except.bind, huuid]
      | ok id =>
        obtain ⟨s, rfl, hok⟩ := uuidOfValue_ok huuid
        refine Or.inr (Or.inr ⟨registeredAt, s, id, htime, rfl, hok, ?_⟩)
        simp only [bind, Except.bind, huuid]
  · obtain ⟨e, he, hcaught⟩ := decodePayload_of_no_time hdoc fun registeredAt h => htime ⟨registeredAt, h⟩
    refine Or.inl ⟨e, he, hcaught, ?_⟩
    intro registeredAt _ h
    exact absurd ⟨registeredAt, h⟩ htime

/-- A payload has at most one time. -/
theorem hasTime_unique {payload : Json} {d d' : PyDateTime} (h : HasTime L payload d) (h' : HasTime L payload d') : d = d' := by
  obtain ⟨s, hcreated, hiso, _⟩ := h
  obtain ⟨s', hcreated', hiso', _⟩ := h'
  cases hcreated.symm.trans hcreated'
  exact Except.ok.inj (hiso.symm.trans hiso')

/-- A cursor whose payload is not there, or is refused, is refused. -/
theorem refuses_of_caught {cursor : PyStr} {e : PyException} (h : decodeCursorBody L cursor = .error e) (hcaught : e.isCaught = true) :
    decodeCursor L cursor = .error .invalidSampleItemCursor := by
  simp only [decodeCursor, h, hcaught, if_true]

/-- An exception that is not caught is neither a decoded cursor nor a refusal. -/
theorem not_refuses_of_foreign {cursor : PyStr} {e : PyException} (h : decodeCursorBody L cursor = .error e)
    (hforeign : e.isCaught = false) (hne : e ≠ .invalidSampleItemCursor) : ¬ DecodesOrRefuses L cursor := by
  have heq : decodeCursor L cursor = .error e := by
    simp only [decodeCursor, h, hforeign, Bool.false_eq_true, if_false]
  rintro (hrefused | ⟨_, _, hdecoded, _⟩)
  · exact hne (Except.error.inj (heq.symm.trans hrefused))
  · cases heq.symm.trans hdecoded

/-- A cursor is decoded or refused exactly when its payload can be bound. -/
theorem decodesOrRefuses_iff (hdoc : L.Documented) (cursor : PyStr) : DecodesOrRefuses L cursor ↔ Bindable L cursor := by
  have hbody := body_eq (L := L) cursor
  cases hpayload : payloadOf L cursor with
  | error e =>
    rw [hpayload] at hbody
    rcases payloadOf_error hdoc hpayload with hcaught | rfl
    · refine iff_of_true (Or.inl (refuses_of_caught hbody hcaught)) ⟨?_, ?_, ?_⟩
      · intro hnested
        rw [Except.error.inj (hpayload.symm.trans hnested)] at hcaught
        cases hcaught
      · intro _ _ _ h
        cases hpayload.symm.trans h
      · intro _ _ _ _ h
        cases hpayload.symm.trans h
    · exact iff_of_false (not_refuses_of_foreign hbody rfl nofun) fun h => h.nesting hpayload
  | ok payload =>
    rw [hpayload] at hbody
    have hbody : decodeCursorBody L cursor = decodePayload L payload := hbody
    have hnested : payloadOf L cursor ≠ .error .recursionError := by
      intro h
      cases hpayload.symm.trans h
    rcases decodePayload_cases hdoc payload with ⟨e, he, hcaught, hshape⟩ | ⟨registeredAt, value, htime, hid, hshape, he⟩ |
      ⟨registeredAt, s, id, htime, hid, huuid, hok⟩
    · refine iff_of_true (Or.inl (refuses_of_caught (hbody.trans he) hcaught)) ⟨hnested, ?_, ?_⟩
      · intro payload' registeredAt value h htime hid
        cases hpayload.symm.trans h
        exact (hshape registeredAt value htime hid).1
      · intro payload' registeredAt s id h htime hid huuid
        cases hpayload.symm.trans h
        exact absurd huuid ((hshape registeredAt (.text s) htime hid).2 s id rfl)
    · refine iff_of_false (not_refuses_of_foreign (hbody.trans he) rfl nofun) ?_
      intro h
      exact hshape (h.id payload registeredAt value hpayload htime hid)
    · have hdecoded : decodeCursor L cursor = .ok ⟨registeredAt, id⟩ := by
        simp only [decodeCursor, hbody.trans hok]
      obtain ⟨offset, hoffset⟩ := Option.isSome_iff_exists.1 htime.choose_spec.2.2
      have hbind : processBindParam registeredAt = if Representable (registeredAt.wall - offset) then
          .ok (toMillis (registeredAt.wall - offset)) else .error .overflowError := by
        simp only [processBindParam, hoffset]
      by_cases hrange : Representable (registeredAt.wall - offset)
      · rw [if_pos hrange] at hbind
        refine iff_of_true (Or.inr ⟨_, _, hdecoded, hbind⟩) ⟨hnested, ?_, ?_⟩
        · intro payload' registeredAt' value h _ hvalue
          cases hpayload.symm.trans h
          exact Or.inl ⟨s, Except.ok.inj (hvalue.symm.trans hid)⟩
        · intro payload' registeredAt' s' id' h htime' _ _ offset' hoffset'
          cases hpayload.symm.trans h
          cases hasTime_unique htime htime'
          cases hoffset.symm.trans hoffset'
          exact hrange
      · rw [if_neg hrange] at hbind
        refine iff_of_false ?_ ?_
        · rintro (hrefused | ⟨_, t, hok', hbind'⟩)
          · cases hdecoded.symm.trans hrefused
          · cases hdecoded.symm.trans hok'
            cases hbind.symm.trans hbind'
        · intro h
          exact hrange (h.time payload registeredAt s id hpayload htime hid huuid offset hoffset)

/-! ## The listing -/

/-- The cursor of an item can be encoded. -/
theorem encodeCursor_ok (hL : L.Lawful) (item : SampleItem) : ∃ text, encodeCursor L item = .ok text := by
  obtain ⟨b, _, hdumps, _⟩ := hL.json _ _ (hL.iso_ascii (utc item.registeredAt)) (hL.uuid_ascii item.id)
  refine ⟨(L.b64encode b).map UInt8.toNat, ?_⟩
  simp only [encodeCursor, encodeCursorOf, hdumps, decodeAscii]
  exact if_pos (hL.b64_ascii b)

/-- The row before a limit is there, and for the limit zero it is the last one. -/
theorem pyIndex_ok {A : Type} {xs : List A} {limit : Nat} (h : limit < xs.length) : ∃ x, pyIndex xs ((limit : Int) - 1) = .ok x := by
  have hget : ∀ j : Int, 0 ≤ j → j < xs.length → ∃ x, (if j < 0 then none else xs[j.toNat]?) = some x := by
    intro j hnonneg hlt
    rw [if_neg (not_lt.2 hnonneg)]
    have hindex : j.toNat < xs.length := by omega
    exact ⟨xs[j.toNat], List.getElem?_eq_getElem hindex⟩
  unfold pyIndex
  by_cases hneg : (limit : Int) - 1 < 0
  · obtain ⟨x, hx⟩ := hget ((limit : Int) - 1 + xs.length) (by omega) (by omega)
    refine ⟨x, ?_⟩
    simp only [if_pos hneg, hx]
  · obtain ⟨x, hx⟩ := hget ((limit : Int) - 1) (by omega) (by omega)
    refine ⟨x, ?_⟩
    rw [if_neg hneg]
    simp only [hx]

/-- The next cursor of a page can be encoded. -/
theorem nextCursor_ok (hL : L.Lawful) (items : List SampleItem) (limit : Nat) :
    ∃ next, nextCursorForItems L items limit = .ok next := by
  unfold nextCursorForItems
  split
  · exact ⟨none, rfl⟩
  · rename_i hlong
    obtain ⟨item, hitem⟩ := pyIndex_ok (Nat.lt_of_not_le hlong)
    obtain ⟨text, htext⟩ := encodeCursor_ok hL item
    refine ⟨some text, ?_⟩
    simp only [hitem, htext, bind, Except.bind]
    rfl

/-- A listing fails only with the error of its cursor. -/
theorem listItems_error (hL : L.Lawful) {cursor : PyStr} (h : DecodesOrRefuses L cursor) {items : List SampleItem} {owner : Uuid}
    {limit : Nat} {e : PyException} (he : listItems L items owner limit (some cursor) = .error e) : e = .invalidSampleItemCursor := by
  have hrest : ∀ rows, ∃ result, (nextCursorForItems L rows limit >>= fun next =>
      (.ok ⟨rows.take limit, next⟩ : Except PyException SampleItemListResult)) = .ok result := by
    intro rows
    obtain ⟨next, hnext⟩ := nextCursor_ok hL rows limit
    rw [hnext]
    exact ⟨_, rfl⟩
  unfold listItems decodeGiven at he
  by_cases hempty : cursor = []
  · rw [hempty] at he
    obtain ⟨result, hresult⟩ := hrest ((listedRows items owner none).take (limit + 1))
    cases hresult.symm.trans he
  · have hgiven : (some cursor).filter (fun c => decide (c ≠ [])) = some cursor := by simp [hempty]
    rw [hgiven] at he
    rcases h with hrefused | ⟨decoded, t, hdecoded, hbind⟩
    · simp only [hrefused, bind, Except.bind] at he
      exact (Except.error.inj he).symm
    · simp only [hdecoded, listByOwner, hbind, bind, Except.bind, pure, Except.pure] at he
      obtain ⟨result, hresult⟩ := hrest ((listedRows items owner (some (t, decoded.id))).take (limit + 1))
      cases hresult.symm.trans he

/-! ## A cursor with a number for its id -/

open PaginationWitness

def numberJson : PyStr := pyStr "\x7b\"created_at\": \"2026-08-02T03:00:00+00:00\", \"id\": 1\x7d"

def numberCursor : PyStr := pyStr "eyJjcmVhdGVkX2F0IjogIjIwMjYtMDgtMDJUMDM6MDA6MDArMDA6MDAiLCAiaWQiOiAxfQ=="

/-- The decoders of the library, which know this cursor as well. -/
def numberLibrary : CursorLib :=
  { library with
    b64decode := fun b => if b.map UInt8.toNat = numberCursor then .ok (numberJson.map UInt8.ofNat) else library.b64decode b
    loads := fun b =>
      if b.map UInt8.toNat = numberJson then
        .ok (.object [(pyStr "created_at", .text timeText), (pyStr "id", .int 1)])
      else library.loads b }

/-- `write` writes the given text or a row of `x`, and no other text. -/
theorem write_ne {A : Type} [DecidableEq A] [Encodable A] (value a : A) {text other : PyStr} (htext : text ≠ other)
    (hmark : ∃ c ∈ other, c ≠ 120) : write value text a ≠ other := by
  unfold write
  split
  · exact htext
  · rintro rfl
    obtain ⟨c, hc, hne⟩ := hmark
    exact hne (List.eq_of_mem_replicate hc)

/-- The sample library with numbers round-trips as the real one does. -/
theorem numberLibrary_lawful : numberLibrary.Lawful where
  b64_ascii := library_lawful.b64_ascii
  b64_ne_nil := library_lawful.b64_ne_nil
  b64_decode b := by
    have hother : (library.b64encode b).map UInt8.toNat ≠ numberCursor := by
      rw [library, toNat_ofNat (ascii_write _ ascii_texts.2.2.2 _)]
      exact write_ne _ _ (by decide +kernel) (by decide +kernel)
    exact (if_neg hother).trans (library_lawful.b64_decode b)
  json createdAt id hcreated hid := by
    have hascii := ascii_write (timeText, idText) ascii_texts.2.2.1 (createdAt, id)
    have hdumps : library.encodeUtf8 (library.dumps (cursorPayload createdAt id)) =
        .ok ((write (timeText, idText) jsonText (createdAt, id)).map UInt8.ofNat) := if_pos hascii
    obtain ⟨b, hne, hb, hloads⟩ := library_lawful.json createdAt id hcreated hid
    have hother : b.map UInt8.toNat ≠ numberJson := by
      rw [← Except.ok.inj (hdumps.symm.trans hb), toNat_ofNat hascii]
      exact write_ne _ _ (by decide +kernel) (by decide +kernel)
    exact ⟨b, hne, hb, (if_neg hother).trans hloads⟩
  iso_ascii := library_lawful.iso_ascii
  iso := library_lawful.iso
  uuid_ascii := library_lawful.uuid_ascii
  uuid := library_lawful.uuid

/-- A missing value raises the given exception. -/
theorem orElse_error {A : Type} {e e' : PyException} {x : Option A} (h : orElse e x = .error e') : e' = e := by
  cases x with
  | none => exact (Except.error.inj h).symm
  | some a => cases h

/-- A missing value raises the given exception through what follows. -/
theorem orElse_bind_error {A B : Type} {e e' : PyException} {x : Option A} {f : A → B}
    (h : (orElse e x >>= fun a => (.ok (f a) : Except PyException B)) = .error e') : e' = e := by
  cases x with
  | none => exact (Except.error.inj h).symm
  | some a => cases h

/-- The sample library with numbers raises what is documented. -/
theorem numberLibrary_documented : numberLibrary.Documented where
  b64decode b e h := by
    unfold numberLibrary at h
    dsimp only at h
    split at h
    · cases h
    · exact orElse_bind_error h
  loads b e h := by
    unfold numberLibrary at h
    dsimp only at h
    split at h
    · cases h
    · exact Or.inl (orElse_bind_error h)
  fromIsoformat _ _ h := orElse_bind_error h
  uuidOfText _ _ h := orElse_error h

end CursorDecodingAux

open CursorDecodingAux

/-- A cursor is decoded to one that the query can bind or refused, and a listing fails with nothing else than this refusal, if and
only if its payload is bindable. What was encoded is decoded. -/
theorem cursor_decoding_iff (L : CursorLib) (hL : L.Lawful) (hdoc : L.Documented) :
    (∀ cursor, (DecodesOrRefuses L cursor ∧ ∀ items owner limit e, listItems L items owner limit (some cursor) = .error e →
      e = .invalidSampleItemCursor) ↔ Bindable L cursor) ∧
    ∀ (registeredAt : PyDateTime) (id : Uuid), registeredAt.Valid → registeredAt.offset.isSome →
      ∃ cursor, encodeCursorOf L registeredAt id = .ok cursor ∧ decodeCursor L cursor = .ok ⟨registeredAt, id⟩ := by
  constructor
  · intro cursor
    rw [← decodesOrRefuses_iff hdoc cursor]
    constructor
    · exact fun h => h.1
    · exact fun h => ⟨h, fun _ _ _ _ he => listItems_error hL h he⟩
  · intro registeredAt id hvalid haware
    obtain ⟨cursor, _, hencode, hdecode⟩ := PaginationAux.decode_encodeCursorOf hL hvalid haware id
    exact ⟨cursor, hencode, hdecode⟩

set_option maxRecDepth 4096 in
open PaginationWitness in
/-- The cursor of a page decodes. -/
theorem cursor_decoding_of_page : DecodesOrRefuses numberLibrary cursorText ∧
    ∃ cursor, encodeCursorOf numberLibrary (utc time) 2 = .ok cursor ∧ decodeCursor numberLibrary cursor = .ok ⟨utc time, 2⟩ := by
  obtain ⟨hiff, hroundtrip⟩ := cursor_decoding_iff numberLibrary numberLibrary_lawful numberLibrary_documented
  have hpayload : payloadOf numberLibrary cursorText = .ok (cursorPayload timeText idText) := by rfl
  have hiso : numberLibrary.fromIsoformat timeText = .ok (utc time) := by rfl
  refine ⟨((hiff cursorText).2 ⟨?_, ?_, ?_⟩).1, hroundtrip (utc time) 2 (PaginationAux.valid_utc (by decide)) rfl⟩
  · rw [hpayload]
    exact nofun
  · intro payload registeredAt value h _ hid
    cases hpayload.symm.trans h
    exact Or.inl ⟨idText, (Except.ok.inj hid).symm⟩
  · rintro payload registeredAt s id h ⟨s', hcreated, htime, _⟩ _ _ offset hoffset
    cases hpayload.symm.trans h
    cases hcreated
    cases hiso.symm.trans htime
    cases hoffset
    decide

/-- `UUID` of a number raises an `AttributeError`, which is not caught. -/
theorem cursor_decoding_false :
    ¬ ∀ (L : CursorLib), L.Lawful → L.Documented → ∀ cursor, DecodesOrRefuses L cursor ∧
      ∀ items owner limit e, listItems L items owner limit (some cursor) = .error e → e = .invalidSampleItemCursor := by
  intro h
  have hraised : decodeCursor numberLibrary numberCursor = .error .attributeError := by rfl
  rcases (h numberLibrary numberLibrary_lawful numberLibrary_documented numberCursor).1 with hrefused | ⟨_, _, hdecoded, _⟩
  · cases hraised.symm.trans hrefused
  · cases hraised.symm.trans hdecoded

end AuthService
