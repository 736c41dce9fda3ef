import AuthService.SampleItems
import AuthService.Library.Keyset

/-!
# Walks through the pages of the sample items

A cursor decodes to the key of the item it was made of, so a page lists the rows of the owner below the last row of the page
before. What other requests change between two pages does not move a row that stays.
-/

namespace AuthService

namespace PaginationAux

open Keyset

/-! ## The cursor -/

/-- Bytes of ASCII are encoded as they were decoded. -/
@[simp] theorem encodeAscii_map (b : Bytes) (h : ∀ c ∈ b, c.toNat < 128) : encodeAscii (b.map UInt8.toNat) = .ok b := by
  unfold encodeAscii
  have hall : ∀ c ∈ b.map UInt8.toNat, c < 128 := by
    intro c hc
    obtain ⟨x, hx, rfl⟩ := List.mem_map.1 hc
    exact h x hx
  rw [if_pos hall, List.map_map]
  have hid : (UInt8.ofNat ∘ UInt8.toNat) = id := by
    funext x
    simp
  rw [hid, List.map_id]

theorem subscript_createdAt (createdAt id : PyStr) :
    (cursorPayload createdAt id).subscript (pyStr "created_at") = .ok (.text createdAt) := rfl

theorem subscript_id (createdAt id : PyStr) : (cursorPayload createdAt id).subscript (pyStr "id") = .ok (.text id) := rfl

/-- A time that a `datetime` can show. -/
theorem valid_utc {t : DateTime} (h : Representable t) : (utc t).Valid := by
  refine ⟨h, ?_⟩
  intro o ho
  cases ho
  decide

/-- A cursor decodes to what it was made of. -/
theorem decode_encodeCursorOf {L : CursorLib} (hL : L.Lawful) {registeredAt : PyDateTime} (hvalid : registeredAt.Valid)
    (haware : registeredAt.offset.isSome) (id : Uuid) :
    ∃ text, text ≠ [] ∧ encodeCursorOf L registeredAt id = .ok text ∧ decodeCursor L text = .ok ⟨registeredAt, id⟩ := by
  obtain ⟨b, hne, hdumps, hloads⟩ := hL.json _ _ (hL.iso_ascii registeredAt) (hL.uuid_ascii id)
  have hascii := hL.b64_ascii b
  refine ⟨(L.b64encode b).map UInt8.toNat, ?_, ?_, ?_⟩
  · intro hnil
    exact hL.b64_ne_nil b hne (List.map_eq_nil_iff.1 hnil)
  · simp only [encodeCursorOf, hdumps, decodeAscii]
    exact if_pos hascii
  · have hiso := hL.iso registeredAt hvalid haware
    have hnotNone : registeredAt.offset.isNone = false := Option.isNone_eq_false_iff.2 haware
    have hbody : decodeCursorBody L ((L.b64encode b).map UInt8.toNat) = .ok ⟨registeredAt, id⟩ := by
      simp only [decodeCursorBody, encodeAscii_map _ hascii, hL.b64_decode, hloads, subscript_createdAt, subscript_id,
        fromIsoformatValue, uuidOfValue, hiso, hL.uuid, bind, Except.bind, hnotNone]
      rfl
    simp only [decodeCursor, hbody]

/-- A cursor decodes to the item it was made of. -/
theorem decode_encode {L : CursorLib} (hL : L.Lawful) {item : SampleItem} (h : Representable item.registeredAt) :
    ∃ text, text ≠ [] ∧ encodeCursor L item = .ok text ∧
      decodeCursor L text = .ok ⟨utc item.registeredAt, item.id⟩ :=
  decode_encodeCursorOf hL (valid_utc h) rfl item.id

/-- What the column keeps of a timestamp. -/
def Stored (x : SampleItem) : Prop := Representable x.registeredAt ∧ toMillis x.registeredAt = x.registeredAt

/-- A time of whole milliseconds is bound as it is. -/
theorem processBindParam_utc {t : DateTime} (h : Representable t) (hms : toMillis t = t) : processBindParam (utc t) = .ok t := by
  have hsub : t - 0 = t := Int.sub_zero _
  simp only [processBindParam, utc, hsub, if_pos h, hms]

/-! ## The listing -/

/-- The key of the order of the listing. -/
def itemKey (x : SampleItem) : Lex (DateTime × Uuid) := toLex (x.registeredAt, x.id)

theorem itemKey_lt {x y : SampleItem} :
    itemKey x < itemKey y ↔ x.registeredAt < y.registeredAt ∨ x.registeredAt = y.registeredAt ∧ x.id < y.id := Prod.Lex.lt_iff

theorem itemKey_le {x y : SampleItem} : itemKey y ≤ itemKey x ↔ listedBefore x y := Prod.Lex.le_iff

instance : Std.Total listedBefore := ⟨fun x y => by
  rw [← itemKey_le, ← itemKey_le]
  exact le_total _ _⟩

instance : IsTrans SampleItem listedBefore := ⟨fun x y z hxy hyz => by
  rw [← itemKey_le] at hxy hyz ⊢
  exact hyz.trans hxy⟩

/-- A table: its rows have different ids and timestamps of a column. -/
structure Table (items : List SampleItem) : Prop where
  ids : (items.map SampleItem.id).Nodup
  stored : ∀ x ∈ items, Stored x

/-- The rows of an owner. -/
def owned (items : List SampleItem) (owner : Uuid) : List SampleItem := items.filter fun x => x.ownerUserId = owner

/-- A row is listed when it is the owner's and comes after the cursor. -/
theorem isListed_iff {owner : Uuid} {bound : Option (DateTime × Uuid)} {x : SampleItem} :
    x.isListed owner bound = true ↔ x.ownerUserId = owner ∧ ∀ b ∈ bound.map toLex, itemKey x < b := by
  cases bound with
  | none => simp [SampleItem.isListed]
  | some b => simp [SampleItem.isListed, itemKey, Prod.Lex.lt_iff]

/-- The rows of `list_by_owner` are the owner's rows below the bound, each once, in order. -/
theorem listing_listedRows {items : List SampleItem} (h : Table items) (owner : Uuid) (bound : Option (DateTime × Uuid)) :
    Listing itemKey (owned items owner) (bound.map toLex) (listedRows items owner bound) := by
  refine ⟨?_, ?_⟩
  · intro x
    rw [listedRows, List.mem_insertionSort, List.mem_filter, isListed_iff, owned, List.mem_filter, decide_eq_true_eq, and_assoc]
  · have hsorted := List.pairwise_insertionSort listedBefore (items.filter fun x => x.isListed owner bound)
    have hids : ((items.filter fun x => x.isListed owner bound).insertionSort listedBefore).Pairwise fun x y => x.id ≠ y.id := by
      have hperm := List.perm_insertionSort listedBefore (items.filter fun x => x.isListed owner bound)
      refine (hperm.pairwise_iff fun hne => hne.symm).2 ?_
      exact (List.pairwise_map.1 h.ids).sublist List.filter_sublist
    refine (hsorted.and hids).imp ?_
    intro x y hxy
    refine lt_of_le_of_ne (itemKey_le.2 hxy.1) ?_
    intro heq
    exact hxy.2 (congrArg (fun k => (ofLex k).2) heq).symm

/-- A cursor text and the key that it stands for. -/
structure CursorFor (L : CursorLib) (cursor : Option PyStr) (bound : Option (DateTime × Uuid)) : Prop where
  decoded : decodeGiven L cursor = .ok (bound.map fun b => ⟨utc b.1, b.2⟩)
  bound : ∀ b ∈ bound, Representable b.1 ∧ toMillis b.1 = b.1

theorem cursorFor_none (L : CursorLib) : CursorFor L none none := ⟨rfl, nofun⟩

/-- The next cursor stands for the key of the item it was made of. -/
theorem cursorFor_encode {L : CursorLib} (hL : L.Lawful) {x : SampleItem} (hx : Stored x) :
    ∃ text, encodeCursor L x = .ok text ∧ CursorFor L (some text) (some (x.registeredAt, x.id)) := by
  obtain ⟨text, hne, henc, hdec⟩ := decode_encode hL hx.1
  refine ⟨text, henc, ⟨?_, ?_⟩⟩
  · simp only [decodeGiven, Option.filter, hne, ne_eq, not_false_eq_true, decide_true, if_true, hdec]
    rfl
  · intro b hb
    cases hb
    exact hx

/-- With a cursor the rows below its key are listed. -/
theorem listByOwner_cursor {L : CursorLib} {cursor : Option PyStr} {bound : Option (DateTime × Uuid)}
    (h : CursorFor L cursor bound) (items : List SampleItem) (owner : Uuid) (n : Nat) :
    (decodeGiven L cursor >>= listByOwner items owner n) = .ok ((listedRows items owner bound).take n) := by
  rw [h.decoded]
  cases bound with
  | none => rfl
  | some b =>
    obtain ⟨hrep, hms⟩ := h.bound b rfl
    show listByOwner items owner n (some ⟨utc b.1, b.2⟩) = _
    simp only [listByOwner, processBindParam_utc hrep hms]
    rfl

/-- The last row of a full page is the one that `next_cursor_for_items` takes. -/
theorem pyIndex_last {α : Type} {xs : List α} {limit : Nat} (hlimit : 1 ≤ limit) (hlen : limit ≤ xs.length) :
    ∃ last, (xs.take limit).getLast? = some last ∧ pyIndex (xs.take (limit + 1)) (limit - 1) = .ok last := by
  have hlt : limit - 1 < xs.length := by omega
  refine ⟨xs[limit - 1], ?_, ?_⟩
  · rw [List.getLast?_eq_getElem?, List.length_take, min_eq_left hlen, List.getElem?_take_of_lt (by omega)]
    exact List.getElem?_eq_getElem hlt
  · have hnonneg : ¬ ((limit : Int) - 1 < 0) := by omega
    have htoNat : ((limit : Int) - 1).toNat = limit - 1 := by omega
    have hget : (xs.take (limit + 1))[limit - 1]? = some xs[limit - 1] := by
      rw [List.getElem?_take_of_lt (by omega)]
      exact List.getElem?_eq_getElem hlt
    simp only [pyIndex, if_neg hnonneg, htoNat, hget]

/-- A request never fails. It gives the next page, and a cursor for its last row when rows are left. -/
theorem listItems_spec {L : CursorLib} (hL : L.Lawful) {items : List SampleItem} (hitems : Table items) {limit : Nat}
    (hlimit : 1 ≤ limit) {cursor : Option PyStr} {bound : Option (DateTime × Uuid)} (hcursor : CursorFor L cursor bound)
    (owner : Uuid) :
    ∃ next, listItems L items owner limit cursor = .ok ⟨(listedRows items owner bound).take limit, next⟩ ∧
      (next = none ∧ (listedRows items owner bound).length ≤ limit ∨
        limit < (listedRows items owner bound).length ∧ ∃ last, ((listedRows items owner bound).take limit).getLast? = some last ∧
          next.isSome ∧ CursorFor L next (some (last.registeredAt, last.id))) := by
  have hrows := listByOwner_cursor hcursor items owner (limit + 1)
  have hlist : listItems L items owner limit cursor =
      (nextCursorForItems L ((listedRows items owner bound).take (limit + 1)) limit >>= fun next =>
        .ok ⟨((listedRows items owner bound).take (limit + 1)).take limit, next⟩) := by
    unfold listItems
    rw [← bind_assoc, hrows]
    rfl
  have htake : ((listedRows items owner bound).take (limit + 1)).take limit = (listedRows items owner bound).take limit := by
    rw [List.take_take, min_eq_left (by omega)]
  rw [hlist, htake]
  by_cases hle : (listedRows items owner bound).length ≤ limit
  · refine ⟨none, ?_, Or.inl ⟨rfl, hle⟩⟩
    have hshort : ((listedRows items owner bound).take (limit + 1)).length ≤ limit := by
      rw [List.length_take]
      omega
    rw [nextCursorForItems, if_pos hshort]
    rfl
  · obtain ⟨last, hlast, hindex⟩ := pyIndex_last hlimit (show limit ≤ (listedRows items owner bound).length by omega)
    have hmem := ((listing_listedRows hitems owner bound).mem last).1 (List.mem_of_mem_take (List.mem_of_getLast? hlast))
    obtain ⟨text, henc, hfor⟩ := cursorFor_encode hL (hitems.stored last (List.mem_of_mem_filter hmem.1))
    refine ⟨some text, ?_, Or.inr ⟨by omega, last, hlast, rfl, hfor⟩⟩
    have hlong : ¬ ((listedRows items owner bound).take (limit + 1)).length ≤ limit := by
      rw [List.length_take]
      omega
    rw [nextCursorForItems, if_neg hlong, hindex]
    show (encodeCursor L last >>= fun c => .ok (some c)) >>= _ = _
    rw [henc]
    rfl

/-! ## Changes of the table -/

theorem apply_insert (items : List SampleItem) (item : SampleItem) :
    (ItemChange.insert item).apply items = if items.any fun x => x.id = item.id then items else items ++ [item.bind] := rfl

/-- A valid change keeps the table one. -/
theorem table_apply {items : List SampleItem} (h : Table items) {c : ItemChange} (hc : c.Valid) : Table (c.apply items) := by
  cases c with
  | insert item =>
    rw [apply_insert]
    split
    · exact h
    case isFalse hnew =>
      refine ⟨?_, ?_⟩
      · rw [List.map_append, List.nodup_append]
        refine ⟨h.ids, List.nodup_singleton _, ?_⟩
        intro id hid id' hid' heq
        obtain ⟨x, hx, rfl⟩ := List.mem_map.1 hid
        obtain rfl := List.mem_singleton.1 hid'
        exact hnew (List.any_eq_true.2 ⟨x, hx, decide_eq_true heq⟩)
      · intro x hx
        rcases List.mem_append.1 hx with hx | hx
        · exact h.stored x hx
        · obtain rfl := List.mem_singleton.1 hx
          exact ⟨representable_toMillis hc, toMillis_toMillis _⟩
  | update id title description isCompleted modifiedAt =>
    refine ⟨?_, ?_⟩
    · have hids : (ItemChange.apply items (.update id title description isCompleted modifiedAt)).map SampleItem.id =
          items.map SampleItem.id := by
        unfold ItemChange.apply
        rw [List.map_map]
        refine List.map_congr_left ?_
        intro x _
        simp only [Function.comp]
        split <;> rfl
      rw [hids]
      exact h.ids
    · intro x hx
      obtain ⟨y, hy, rfl⟩ := List.mem_map.1 hx
      have hstored := h.stored y hy
      split
      · exact hstored
      · exact hstored
  | delete id =>
    exact ⟨h.ids.sublist (List.filter_sublist.map _), fun x hx => h.stored x (List.mem_of_mem_filter hx)⟩

/-- A row that stays keeps its owner and its time. -/
theorem apply_keeps {items : List SampleItem} {c : ItemChange} {x : SampleItem} (hx : x ∈ items)
    (hstays : ∃ y ∈ c.apply items, y.id = x.id) :
    ∃ y ∈ c.apply items, y.id = x.id ∧ y.ownerUserId = x.ownerUserId ∧ y.registeredAt = x.registeredAt := by
  cases c with
  | insert item =>
    rw [apply_insert]
    split
    · exact ⟨x, hx, rfl, rfl, rfl⟩
    · exact ⟨x, List.mem_append_left _ hx, rfl, rfl, rfl⟩
  | update id title description isCompleted modifiedAt =>
    refine ⟨_, List.mem_map_of_mem hx, ?_⟩
    split
    · exact ⟨rfl, rfl, rfl⟩
    · exact ⟨rfl, rfl, rfl⟩
  | delete id =>
    obtain ⟨y, hy, heq⟩ := hstays
    have hne : x.id ≠ id := by
      have hy := List.mem_filter.1 hy
      rw [← heq]
      exact of_decide_eq_true hy.2
    exact ⟨x, List.mem_filter.2 ⟨hx, decide_eq_true hne⟩, rfl, rfl, rfl⟩

/-- A row of the table was there before, or was inserted, with its id and its time. -/
theorem apply_origin {items : List SampleItem} {c : ItemChange} {x : SampleItem} (hx : x ∈ c.apply items) :
    ∃ o ∈ items ++ c.inserted, o.id = x.id ∧ o.registeredAt = x.registeredAt := by
  cases c with
  | insert item =>
    rw [apply_insert] at hx
    split at hx
    · exact ⟨x, List.mem_append_left _ hx, rfl, rfl⟩
    · exact ⟨x, hx, rfl, rfl⟩
  | update id title description isCompleted modifiedAt =>
    obtain ⟨y, hy, rfl⟩ := List.mem_map.1 hx
    refine ⟨y, List.mem_append_left _ hy, ?_⟩
    split
    · exact ⟨rfl, rfl⟩
    · exact ⟨rfl, rfl⟩
  | delete id => exact ⟨x, List.mem_append_left _ (List.mem_of_mem_filter hx), rfl, rfl⟩

/-- Valid changes keep the table one. -/
theorem table_applyChanges {changes : List ItemChange} (hc : ∀ c ∈ changes, c.Valid) {items : List SampleItem} (h : Table items) :
    Table (applyChanges items changes) := by
  induction changes generalizing items with
  | nil => exact h
  | cons c cs ih =>
    exact ih (fun c' hc' => hc c' (List.mem_cons_of_mem _ hc')) (table_apply h (hc c List.mem_cons_self))

/-- A row that is always there keeps its owner and its time. -/
theorem applyChanges_keeps {changes : List ItemChange} {items : List SampleItem} {x : SampleItem} (hx : x ∈ items)
    (hstays : ∀ table ∈ changes.scanl ItemChange.apply items, ∃ y ∈ table, y.id = x.id) :
    ∃ y ∈ applyChanges items changes, y.id = x.id ∧ y.ownerUserId = x.ownerUserId ∧ y.registeredAt = x.registeredAt := by
  induction changes generalizing items x with
  | nil => exact ⟨x, hx, rfl, rfl, rfl⟩
  | cons c cs ih =>
    have hnext : ∃ y ∈ c.apply items, y.id = x.id := by
      refine hstays _ ?_
      rw [List.scanl_cons]
      cases cs <;> simp
    obtain ⟨y, hy, hid, howner, htime⟩ := apply_keeps hx hnext
    have hrest : ∀ table ∈ cs.scanl ItemChange.apply (c.apply items), ∃ z ∈ table, z.id = y.id := by
      intro table htable
      rw [hid]
      refine hstays table ?_
      rw [List.scanl_cons]
      exact List.mem_cons_of_mem _ htable
    obtain ⟨z, hz, hid', howner', htime'⟩ := ih hy hrest
    exact ⟨z, hz, hid'.trans hid, howner'.trans howner, htime'.trans htime⟩

/-- Every row was there first or was inserted, with the id and the time that it has. -/
theorem applyChanges_origin {changes : List ItemChange} {items : List SampleItem} {x : SampleItem}
    (hx : x ∈ applyChanges items changes) :
    ∃ o ∈ items ++ changes.flatMap ItemChange.inserted, o.id = x.id ∧ o.registeredAt = x.registeredAt := by
  induction changes generalizing items with
  | nil => exact ⟨x, List.mem_append_left _ hx, rfl, rfl⟩
  | cons c cs ih =>
    obtain ⟨o, ho, hid, htime⟩ := ih hx
    rw [List.flatMap_cons, ← List.append_assoc]
    rcases List.mem_append.1 ho with ho | ho
    · obtain ⟨o', ho', hid', htime'⟩ := apply_origin ho
      exact ⟨o', List.mem_append_left _ ho', hid'.trans hid, htime'.trans htime⟩
    · exact ⟨o, List.mem_append_right _ ho, hid, htime⟩

/-! ## Walks -/

/-- What the pages of a walk are, from a request on. -/
structure Pages (owner : Uuid) (limit : Nat) (items : List SampleItem) (bound : Option (DateTime × Uuid))
    (rounds : List (List ItemChange)) (pages : List (List SampleItem)) (last : Option PyStr) : Prop where
  ne_nil : 1 ≤ pages.length
  small : ∀ page ∈ pages, page.length ≤ limit
  ofOwner : ∀ x ∈ pages.flatten, x.ownerUserId = owner
  sorted : pages.flatten.Pairwise fun x y => itemKey y < itemKey x
  below : ∀ x ∈ pages.flatten, ∀ b ∈ bound.map toLex, itemKey x < b
  origin : ∀ x ∈ pages.flatten, ∃ o ∈ items ++ rounds.flatten.flatMap ItemChange.inserted,
    o.id = x.id ∧ o.registeredAt = x.registeredAt
  same : ∀ x ∈ items, (∀ table ∈ moments items (rounds.take (pages.length - 1)), ∃ y ∈ table, y.id = x.id) →
    ∀ y ∈ pages.flatten, y.id = x.id → y.registeredAt = x.registeredAt
  complete : last = none → ∀ x ∈ items, x.ownerUserId = owner →
    (∀ table ∈ moments items (rounds.take (pages.length - 1)), ∃ y ∈ table, y.id = x.id) →
    (∀ b ∈ bound.map toLex, itemKey x < b) → ∃ y ∈ pages.flatten, y.id = x.id

section Walk

variable {owner : Uuid} {limit : Nat} {items : List SampleItem} {bound : Option (DateTime × Uuid)}

/-- The rows of a page are the owner's, below its cursor. -/
theorem mem_page (hitems : Table items) {x : SampleItem} (hx : x ∈ (listedRows items owner bound).take limit) :
    (x ∈ items ∧ x.ownerUserId = owner) ∧ ∀ b ∈ bound.map toLex, itemKey x < b := by
  have hmem := ((listing_listedRows hitems owner bound).mem x).1 (List.mem_of_mem_take hx)
  exact ⟨by simpa [owned] using hmem.1, hmem.2⟩

/-- Rows with one id are one. -/
theorem eq_of_id (hitems : Table items) {x y : SampleItem} (hx : x ∈ items) (hy : y ∈ items) (hid : y.id = x.id) : y = x :=
  List.inj_on_of_nodup_map hitems.ids hy hx hid

/-- A walk of one page. -/
theorem pages_single (hitems : Table items) (rounds : List (List ItemChange)) {last : Option PyStr}
    (hlast : last = none → (listedRows items owner bound).length ≤ limit) :
    Pages owner limit items bound rounds [(listedRows items owner bound).take limit] last where
  ne_nil := le_refl _
  small page hpage := by
    obtain rfl := List.mem_singleton.1 hpage
    exact List.length_take_le _ _
  ofOwner x hx := by
    rw [List.flatten_singleton] at hx
    exact (mem_page hitems hx).1.2
  sorted := by
    rw [List.flatten_singleton]
    exact (listing_listedRows hitems owner bound).sorted.sublist (List.take_sublist _ _)
  below x hx := by
    rw [List.flatten_singleton] at hx
    exact (mem_page hitems hx).2
  origin x hx := by
    rw [List.flatten_singleton] at hx
    exact ⟨x, List.mem_append_left _ (mem_page hitems hx).1.1, rfl, rfl⟩
  same x hx _ y hy hid := by
    rw [List.flatten_singleton] at hy
    rw [eq_of_id hitems hx (mem_page hitems hy).1.1 hid]
  complete hnone x hx howner _ hbelow := by
    rw [List.flatten_singleton, List.take_of_length_le (hlast hnone)]
    refine ⟨x, ((listing_listedRows hitems owner bound).mem x).2 ⟨?_, hbelow⟩, rfl⟩
    exact List.mem_filter.2 ⟨hx, decide_eq_true howner⟩

/-- A page before the pages of the rest of a walk. -/
theorem pages_cons (hitems : Table items) {changes : List ItemChange} {rounds : List (List ItemChange)} {row : SampleItem}
    (hrow : ((listedRows items owner bound).take limit).getLast? = some row) {pages : List (List SampleItem)} {last : Option PyStr}
    (hpages : Pages owner limit (applyChanges items changes) (some (row.registeredAt, row.id)) rounds pages last) :
    Pages owner limit items bound (changes :: rounds) ((listedRows items owner bound).take limit :: pages) last := by
  have hlisting := listing_listedRows hitems owner bound
  have hbelow : ∀ x ∈ pages.flatten, itemKey x < itemKey row := fun x hx => hpages.below x hx _ rfl
  have htake : (changes :: rounds).take (((listedRows items owner bound).take limit :: pages).length - 1) =
      changes :: rounds.take (pages.length - 1) := by
    obtain ⟨n, hn⟩ : ∃ n, pages.length = n + 1 := ⟨pages.length - 1, by have := hpages.ne_nil; omega⟩
    simp [hn]
  have hsplit : ∀ x : SampleItem, (∀ table ∈ moments items ((changes :: rounds).take
      (((listedRows items owner bound).take limit :: pages).length - 1)), ∃ y ∈ table, y.id = x.id) →
      (∀ table ∈ changes.scanl ItemChange.apply items, ∃ y ∈ table, y.id = x.id) ∧
      ∀ table ∈ moments (applyChanges items changes) (rounds.take (pages.length - 1)), ∃ y ∈ table, y.id = x.id := by
    intro x hx
    rw [htake] at hx
    exact ⟨fun table htable => hx table (List.mem_append_left _ htable),
      fun table htable => hx table (List.mem_append_right _ htable)⟩
  refine ⟨?_, ?_, ?_, ?_, ?_, ?_, ?_, ?_⟩
  · rw [List.length_cons]
    omega
  · intro page hpage
    rcases List.mem_cons.1 hpage with rfl | hpage
    · exact List.length_take_le _ _
    · exact hpages.small page hpage
  · intro x hx
    rw [List.flatten_cons] at hx
    rcases List.mem_append.1 hx with hx | hx
    · exact (mem_page hitems hx).1.2
    · exact hpages.ofOwner x hx
  · rw [List.flatten_cons]
    exact hlisting.append hrow hpages.sorted hbelow
  · intro x hx b hb
    rw [List.flatten_cons] at hx
    rcases List.mem_append.1 hx with hx | hx
    · exact (mem_page hitems hx).2 b hb
    · exact (hbelow x hx).trans (hlisting.last_lt hrow b hb)
  · intro x hx
    rw [List.flatten_cons] at hx
    rw [List.flatten_cons, List.flatMap_append, ← List.append_assoc]
    rcases List.mem_append.1 hx with hx | hx
    · exact ⟨x, List.mem_append_left _ (List.mem_append_left _ (mem_page hitems hx).1.1), rfl, rfl⟩
    · obtain ⟨o, ho, hid, htime⟩ := hpages.origin x hx
      rcases List.mem_append.1 ho with ho | ho
      · obtain ⟨o', ho', hid', htime'⟩ := applyChanges_origin ho
        exact ⟨o', List.mem_append_left _ ho', hid'.trans hid, htime'.trans htime⟩
      · exact ⟨o, List.mem_append_right _ ho, hid, htime⟩
  · intro x hx hstays y hy hid
    obtain ⟨hscan, hrest⟩ := hsplit x hstays
    rw [List.flatten_cons] at hy
    rcases List.mem_append.1 hy with hy | hy
    · rw [eq_of_id hitems hx (mem_page hitems hy).1.1 hid]
    · obtain ⟨z, hz, hid', _, htime⟩ := applyChanges_keeps hx hscan
      rw [← hid'] at hrest
      rw [hpages.same z hz hrest y hy (hid.trans hid'.symm), htime]
  · intro hnone x hx howner hstays hbound
    obtain ⟨hscan, hrest⟩ := hsplit x hstays
    rw [List.flatten_cons]
    have hmem : x ∈ owned items owner := List.mem_filter.2 ⟨hx, decide_eq_true howner⟩
    rcases hlisting.mem_or_lt hmem hbound hrow with hin | ⟨_, hlt⟩
    · exact ⟨x, List.mem_append_left _ hin, rfl⟩
    · obtain ⟨z, hz, hid, howner', htime⟩ := applyChanges_keeps hx hscan
      have hkey : itemKey z = itemKey x := by
        unfold itemKey
        rw [hid, htime]
      rw [← hid] at hrest
      have hz' : ∀ b ∈ (some (row.registeredAt, row.id)).map toLex, itemKey z < b := by
        intro b hb
        cases hb
        rw [hkey]
        exact hlt
      obtain ⟨y, hy, hy'⟩ := hpages.complete hnone z hz (howner'.trans howner) hrest hz'
      exact ⟨y, List.mem_append_right _ hy, hy'.trans hid⟩

/-- A walk never fails, and its pages are right. -/
theorem walk_spec {L : CursorLib} (hL : L.Lawful) (hlimit : 1 ≤ limit) {rounds : List (List ItemChange)}
    (hrounds : ∀ changes ∈ rounds, ∀ c ∈ changes, c.Valid) (hitems : Table items) {cursor : Option PyStr}
    (hcursor : CursorFor L cursor bound) :
    ∃ pages last, walk L owner limit items cursor rounds = .ok (pages, last) ∧ Pages owner limit items bound rounds pages last := by
  induction rounds generalizing items cursor bound with
  | nil =>
    obtain ⟨next, hlist, hnext⟩ := listItems_spec hL hitems hlimit hcursor owner
    refine ⟨_, next, by rw [walk, hlist]; rfl, pages_single hitems [] ?_⟩
    intro hnone
    rcases hnext with ⟨_, hle⟩ | ⟨_, _, _, hsome, _⟩
    · exact hle
    · rw [hnone] at hsome
      cases hsome
  | cons changes rounds ih =>
    obtain ⟨next, hlist, hnext⟩ := listItems_spec hL hitems hlimit hcursor owner
    rcases hnext with ⟨rfl, hle⟩ | ⟨_, row, hrow, hsome, hfor⟩
    · exact ⟨_, none, by rw [walk, hlist]; rfl, pages_single hitems _ fun _ => hle⟩
    · obtain ⟨text, rfl⟩ := Option.isSome_iff_exists.1 hsome
      have hvalid : ∀ c ∈ changes, c.Valid := hrounds changes List.mem_cons_self
      obtain ⟨pages, last, hwalk, hpages⟩ := ih (fun cs hcs => hrounds cs (List.mem_cons_of_mem _ hcs))
        (table_applyChanges hvalid hitems) hfor
      refine ⟨_, last, ?_, pages_cons hitems hrow hpages⟩
      rw [walk, hlist]
      show (walk L owner limit (applyChanges items changes) (some text) rounds >>= _) = _
      rw [hwalk]
      rfl

/-- Enough requests on a table that stays as it is end a walk: each of them leaves fewer rows below. -/
theorem walk_stable {L : CursorLib} (hL : L.Lawful) (hlimit : 1 ≤ limit) (hitems : Table items) {n : Nat} {cursor : Option PyStr}
    (hcursor : CursorFor L cursor bound) (hn : (listedRows items owner bound).length ≤ n + 1) :
    ∃ pages, walk L owner limit items cursor (List.replicate n []) = .ok (pages, none) := by
  induction n generalizing cursor bound with
  | zero =>
    obtain ⟨next, hlist, hnext⟩ := listItems_spec hL hitems hlimit hcursor owner
    rcases hnext with ⟨rfl, _⟩ | ⟨hlt, _⟩
    · exact ⟨_, by rw [List.replicate_zero, walk, hlist]; rfl⟩
    · omega
  | succ n ih =>
    obtain ⟨next, hlist, hnext⟩ := listItems_spec hL hitems hlimit hcursor owner
    rw [List.replicate_succ]
    rcases hnext with ⟨rfl, _⟩ | ⟨hlt, row, hrow, hsome, hfor⟩
    · exact ⟨_, by rw [walk, hlist]; rfl⟩
    · obtain ⟨text, rfl⟩ := Option.isSome_iff_exists.1 hsome
      have hshrinks := (listing_listedRows hitems owner bound).shrinks hrow
        (listing_listedRows hitems owner (some (row.registeredAt, row.id))) (by omega)
      obtain ⟨pages, hwalk⟩ := ih hfor (by omega)
      refine ⟨(listedRows items owner bound).take limit :: pages, ?_⟩
      rw [walk, hlist]
      show (walk L owner limit items (some text) (List.replicate n []) >>= _) = _
      rw [hwalk]
      rfl

/-- A walk ends once the table stays as it is. -/
theorem walk_ends {L : CursorLib} (hL : L.Lawful) (hlimit : 1 ≤ limit) {rounds : List (List ItemChange)}
    (hrounds : ∀ changes ∈ rounds, ∀ c ∈ changes, c.Valid) (hitems : Table items) {cursor : Option PyStr}
    (hcursor : CursorFor L cursor bound) :
    ∃ n pages, walk L owner limit items cursor (rounds ++ List.replicate n []) = .ok (pages, none) := by
  induction rounds generalizing items cursor bound with
  | nil => exact ⟨_, walk_stable hL hlimit hitems hcursor (Nat.le_succ _)⟩
  | cons changes rounds ih =>
    obtain ⟨next, hlist, hnext⟩ := listItems_spec hL hitems hlimit hcursor owner
    rcases hnext with ⟨rfl, _⟩ | ⟨_, row, _, hsome, hfor⟩
    · exact ⟨0, _, by rw [List.cons_append, walk, hlist]; rfl⟩
    · obtain ⟨text, rfl⟩ := Option.isSome_iff_exists.1 hsome
      obtain ⟨n, pages, hwalk⟩ := ih (fun cs hcs => hrounds cs (List.mem_cons_of_mem _ hcs))
        (table_applyChanges (hrounds changes List.mem_cons_self) hitems) hfor
      refine ⟨n, (listedRows items owner bound).take limit :: pages, ?_⟩
      rw [List.cons_append, walk, hlist]
      show (walk L owner limit (applyChanges items changes) (some text) (rounds ++ List.replicate n []) >>= _) = _
      rw [hwalk]
      rfl

end Walk

/-- Rows in strict order, of which those with one id have one time: the id is there once. -/
theorem countP_id {rows : List SampleItem} (hsorted : rows.Pairwise fun x y => itemKey y < itemKey x) {x : SampleItem}
    (hsame : ∀ y ∈ rows, y.id = x.id → y.registeredAt = x.registeredAt) (hmem : ∃ y ∈ rows, y.id = x.id) :
    rows.countP (fun y => y.id = x.id) = 1 := by
  have hpos : 0 < rows.countP fun y => y.id = x.id := by
    obtain ⟨y, hy, hid⟩ := hmem
    exact List.countP_pos_iff.2 ⟨y, hy, decide_eq_true hid⟩
  have hle : rows.countP (fun y => y.id = x.id) ≤ 1 := by
    by_contra hmore
    rw [List.countP_eq_length_filter] at hmore
    have hfilter := hsorted.sublist (List.filter_sublist (p := fun y => decide (y.id = x.id)))
    match hrows : rows.filter (fun y => decide (y.id = x.id)) with
    | [] => simp [hrows] at hmore
    | [_] => simp [hrows] at hmore
    | a :: b :: rest =>
      have ha : a ∈ rows.filter fun y => decide (y.id = x.id) := by simp [hrows]
      have hb : b ∈ rows.filter fun y => decide (y.id = x.id) := by simp [hrows]
      rw [hrows] at hfilter
      have hlt := (List.pairwise_cons.1 hfilter).1 b List.mem_cons_self
      have hkey : itemKey b = itemKey a := by
        have ha := List.mem_filter.1 ha
        have hb := List.mem_filter.1 hb
        have hida := of_decide_eq_true ha.2
        have hidb := of_decide_eq_true hb.2
        unfold itemKey
        rw [hsame a ha.1 hida, hsame b hb.1 hidb, hida, hidb]
      rw [hkey] at hlt
      exact lt_irrefl _ hlt
  omega

end PaginationAux

open PaginationAux

/-- A client lists the items of an owner page by page, following the cursors, while items of any users are inserted, updated
and deleted between its requests. No request fails. A page has at most `limit` items, all of the owner. Over all pages the items
come in strictly decreasing order of time and id. When no id is used twice, no id comes twice. When the walk ends, every item of
the owner that was there from the first request to the last came exactly once. Once the table stays as it is the walk ends. -/
theorem pagination_exact {L : CursorLib} (hL : L.Lawful) (owner : Uuid) {limit : Nat} (hlimit : 1 ≤ limit)
    {items : List SampleItem} (hids : (items.map SampleItem.id).Nodup)
    (hstored : ∀ x ∈ items, Representable x.registeredAt ∧ toMillis x.registeredAt = x.registeredAt)
    {rounds : List (List ItemChange)} (hrounds : ∀ changes ∈ rounds, ∀ c ∈ changes, c.Valid) :
    (∃ pages last, walk L owner limit items none rounds = .ok (pages, last) ∧
      (∀ page ∈ pages, page.length ≤ limit ∧ ∀ x ∈ page, x.ownerUserId = owner) ∧
      (pages.flatten.Pairwise fun x y =>
        y.registeredAt < x.registeredAt ∨ y.registeredAt = x.registeredAt ∧ y.id < x.id) ∧
      (((items ++ rounds.flatten.flatMap ItemChange.inserted).map SampleItem.id).Nodup →
        (pages.flatten.map SampleItem.id).Nodup) ∧
      (last = none → ∀ x ∈ items, x.ownerUserId = owner →
        (∀ table ∈ moments items (rounds.take (pages.length - 1)), ∃ y ∈ table, y.id = x.id) →
        pages.flatten.countP (fun y => y.id = x.id) = 1)) ∧
    ∃ n pages, walk L owner limit items none (rounds ++ List.replicate n []) = .ok (pages, none) := by
  have hitems : Table items := ⟨hids, hstored⟩
  refine ⟨?_, walk_ends hL hlimit hrounds hitems (cursorFor_none L)⟩
  obtain ⟨pages, last, hwalk, hpages⟩ : ∃ pages last, walk L owner limit items none rounds = .ok (pages, last) ∧
      Pages owner limit items none rounds pages last := walk_spec hL hlimit hrounds hitems (cursorFor_none L)
  refine ⟨pages, last, hwalk, ?_, ?_, ?_, ?_⟩
  · intro page hpage
    exact ⟨hpages.small page hpage, fun x hx => hpages.ofOwner x (List.mem_flatten.2 ⟨page, hpage, hx⟩)⟩
  · exact hpages.sorted.imp fun hlt => itemKey_lt.1 hlt
  · intro hfresh
    refine List.pairwise_map.2 (hpages.sorted.imp_of_mem ?_)
    intro x y hx hy hlt heq
    obtain ⟨o, ho, hid, htime⟩ := hpages.origin x hx
    obtain ⟨o', ho', hid', htime'⟩ := hpages.origin y hy
    have hsame : o = o' := List.inj_on_of_nodup_map hfresh ho ho' (hid.trans (heq.trans hid'.symm))
    have hkey : itemKey y = itemKey x := by
      unfold itemKey
      rw [← htime, ← htime', hsame, heq]
    rw [hkey] at hlt
    exact lt_irrefl _ hlt
  · intro hnone x hx howner hstays
    refine countP_id hpages.sorted (hpages.same x hx hstays) ?_
    exact hpages.complete hnone x hx howner hstays nofun

/-! ## A walk -/

namespace PaginationWitness

section Codec

variable {α : Type} [DecidableEq α] [Encodable α]

/-- A codec that writes one value as a given text, and any other one as a row of `x`. -/
def write (value : α) (text : PyStr) (a : α) : PyStr :=
  if a = value then text else List.replicate (Encodable.encode a + 1) 120

def read (value : α) (text s : PyStr) : Option α := if s = text then some value else Encodable.decode (s.length - 1)

/-- What is written for a value is read for it. -/
theorem read_write (value : α) {text : PyStr} (htext : ∃ c ∈ text, c ≠ 120) (a : α) : read value text (write value text a) = some a := by
  unfold write
  split
  case isTrue heq =>
    rw [read, if_pos rfl, heq]
  case isFalse =>
    have hne : List.replicate (Encodable.encode a + 1) 120 ≠ text := by
      obtain ⟨c, hc, hne⟩ := htext
      intro heq
      rw [← heq] at hc
      exact hne (List.eq_of_mem_replicate hc)
    rw [read, if_neg hne, List.length_replicate, Nat.add_sub_cancel, Encodable.encodek]

/-- What is written is ASCII. -/
theorem ascii_write (value : α) {text : PyStr} (htext : Ascii text) (a : α) : Ascii (write value text a) := by
  unfold write
  split
  · exact htext
  · intro c hc
    rw [List.eq_of_mem_replicate hc]
    decide

/-- What is written is not empty. -/
theorem write_ne_nil (value : α) {text : PyStr} (htext : ∃ c ∈ text, c ≠ 120) (a : α) : write value text a ≠ [] := by
  unfold write
  split
  · obtain ⟨c, hc, _⟩ := htext
    exact List.ne_nil_of_mem hc
  · rw [List.replicate_succ]
    exact List.cons_ne_nil _ _

/-- The codes of an ASCII text fit into bytes. -/
theorem toNat_ofNat {s : PyStr} (h : Ascii s) : (s.map UInt8.ofNat).map UInt8.toNat = s := by
  rw [List.map_map]
  refine (List.map_congr_left ?_).trans (List.map_id s)
  intro c hc
  have hlt := h c hc
  simp only [Function.comp, UInt8.toNat_ofNat', id]
  omega

end Codec

/-- The time of the cursor of the example. -/
def time : DateTime := seconds 1785639600

def timeText : PyStr := pyStr "2026-08-02T03:00:00+00:00"

def idText : PyStr := pyStr "00000000-0000-0000-0000-000000000002"

def jsonText : PyStr :=
  pyStr "\x7b\"created_at\": \"2026-08-02T03:00:00+00:00\", \"id\": \"00000000-0000-0000-0000-000000000002\"\x7d"

def cursorText : PyStr :=
  pyStr "eyJjcmVhdGVkX2F0IjogIjIwMjYtMDgtMDJUMDM6MDA6MDArMDA6MDAiLCAiaWQiOiAiMDAwMDAwMDAtMDAwMC0wMDAwLTAwMDAtMDAwMDAwMDAwMDAyIn0="

def orElse {α : Type} (e : PyException) : Option α → Except PyException α
  | some a => .ok a
  | none => .error e

/-- The decoders of the library on one cursor. -/
def library : CursorLib where
  b64encode b := (write jsonText cursorText (b.map UInt8.toNat)).map UInt8.ofNat
  b64decode b := do return (← orElse .binasciiError (read jsonText cursorText (b.map UInt8.toNat))).map UInt8.ofNat
  dumps
    | .object [(_, .text createdAt), (_, .text id)] => write (timeText, idText) jsonText (createdAt, id)
    | _ => []
  encodeUtf8 := encodeAscii
  loads b := do
    let (createdAt, id) ← orElse .valueError (read (timeText, idText) jsonText (b.map UInt8.toNat))
    return cursorPayload createdAt id
  isoformat d := write (time, some 0) timeText (d.wall, d.offset)
  fromIsoformat s := do
    let (wall, offset) ← orElse .valueError (read (time, some 0) timeText s)
    return ⟨wall, offset⟩
  uuidText id := write 2 idText id
  uuidOfText s := orElse .valueError (read 2 idText s)

theorem ascii_texts : Ascii timeText ∧ Ascii idText ∧ Ascii jsonText ∧ Ascii cursorText := by decide +kernel

theorem texts_mark : (∃ c ∈ timeText, c ≠ 120) ∧ (∃ c ∈ idText, c ≠ 120) ∧ (∃ c ∈ jsonText, c ≠ 120) ∧ ∃ c ∈ cursorText, c ≠ 120 := by
  decide +kernel

/-- The library behaves as Python's does. -/
theorem library_lawful : library.Lawful where
  b64_ascii b c hc := by
    obtain ⟨n, hn, rfl⟩ := List.mem_map.1 hc
    have hlt : n < 128 := ascii_write _ ascii_texts.2.2.2 _ n hn
    rw [UInt8.toNat_ofNat']
    omega
  b64_ne_nil b _ hnil := write_ne_nil _ texts_mark.2.2.2 _ (List.map_eq_nil_iff.1 hnil)
  b64_decode b := by
    have hread := read_write jsonText texts_mark.2.2.2 (b.map UInt8.toNat)
    have hbytes : (b.map UInt8.toNat).map UInt8.ofNat = b := by
      rw [List.map_map]
      refine (List.map_congr_left ?_).trans (List.map_id b)
      intro c _
      simp
    simp only [library, toNat_ofNat (ascii_write _ ascii_texts.2.2.2 _), hread, orElse]
    exact congrArg Except.ok hbytes
  json createdAt id _ _ := by
    have hascii := ascii_write (timeText, idText) ascii_texts.2.2.1 (createdAt, id)
    have hread := read_write (timeText, idText) texts_mark.2.2.1 (createdAt, id)
    refine ⟨(write (timeText, idText) jsonText (createdAt, id)).map UInt8.ofNat, ?_, if_pos hascii, ?_⟩
    · intro hnil
      exact write_ne_nil _ texts_mark.2.2.1 _ (List.map_eq_nil_iff.1 hnil)
    · simp only [library, toNat_ofNat hascii, hread, orElse]
      rfl
  iso_ascii d := ascii_write _ ascii_texts.1 _
  iso d _ _ := by
    have hread := read_write (time, some (0 : Int)) texts_mark.1 (d.wall, d.offset)
    simp only [library, hread, orElse]
    rfl
  uuid_ascii id := ascii_write _ ascii_texts.2.1 _
  uuid id := by
    have hread := read_write (2 : Uuid) texts_mark.2.1 id
    simp only [library, hread, orElse]

def first : SampleItem := ⟨1, 7, "First".toList, none, false, time, time⟩

def second : SampleItem := ⟨2, 7, "Second".toList, none, false, time, time⟩

def third : SampleItem := ⟨3, 7, "Third".toList, none, false, time, time⟩

/-- After the first page its item is deleted, and an item that the page would have listed is inserted. -/
def rounds : List (List ItemChange) := [[.delete 2, .insert third]]

theorem walk_rounds : walk library 7 1 [first, second] none rounds = .ok ([[second], [first]], none) := by decide +kernel

end PaginationWitness

open PaginationWitness in
/-- Two items of one time, and a change between the pages: each item is shown once. -/
theorem pagination_exact_of_tie : ∃ pages last, walk library 7 1 [first, second] none rounds = .ok (pages, last) ∧
    last = none ∧ (∀ page ∈ pages, page.length ≤ 1) ∧ pages.flatten.countP (fun y => y.id = first.id) = 1 := by
  have hids : ([first, second].map SampleItem.id).Nodup := by decide
  have hrounds : ∀ changes ∈ rounds, ∀ c ∈ changes, c.Valid := by decide
  obtain ⟨⟨pages, last, hwalk, hpages, _, _, hcomplete⟩, _⟩ :=
    pagination_exact library_lawful 7 (le_refl 1) hids (by decide) hrounds
  obtain ⟨rfl, rfl⟩ := Prod.mk.inj (Except.ok.inj (hwalk.symm.trans walk_rounds))
  refine ⟨_, _, hwalk, rfl, fun page hpage => (hpages page hpage).1, ?_⟩
  exact hcomplete rfl first (by decide) rfl (by decide)

end AuthService
