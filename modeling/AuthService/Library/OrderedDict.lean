import Mathlib

/-!
# Dictionaries that keep the order of insertion

An ordered dictionary is a list of items with distinct keys. Assignment to a key that is there keeps its place, and
assignment to a new key puts it last; `moveToEnd` puts a key last.
-/

/-- A dictionary with its items in order. -/
structure OrderedDict (κ α : Type) where
  items : List (κ × α)
  nodup : (items.map Prod.fst).Nodup

namespace OrderedDict

variable {κ α : Type} [DecidableEq κ]

/-- The dictionary without items. -/
def empty : OrderedDict κ α := ⟨[], List.nodup_nil⟩

def keys (d : OrderedDict κ α) : List κ := d.items.map Prod.fst

/-- The number of items. -/
def size (d : OrderedDict κ α) : Nat := d.items.length

/-- The value of a key. -/
def get? (d : OrderedDict κ α) (k : κ) : Option α := (d.items.find? (fun p => p.1 = k)).map Prod.snd

/-- The items whose key is not `k`, in their order. -/
def erase (d : OrderedDict κ α) (k : κ) : OrderedDict κ α :=
  ⟨d.items.filter (fun p => p.1 ≠ k), d.nodup.sublist (List.filter_sublist.map Prod.fst)⟩

/-- Overwriting in place keeps the keys and their order. -/
theorem keys_setAt (items : List (κ × α)) (k : κ) (v : α) :
    (items.map fun p => if p.1 = k then (k, v) else p).map Prod.fst = items.map Prod.fst := by
  rw [List.map_map]
  refine List.map_congr_left fun p _ => ?_
  simp only [Function.comp_apply]
  split
  · exact (‹p.1 = k›).symm
  · rfl

/-- Assignment to a key that is there. -/
def setAt (d : OrderedDict κ α) (k : κ) (v : α) : OrderedDict κ α :=
  ⟨d.items.map fun p => if p.1 = k then (k, v) else p, by rw [keys_setAt]; exact d.nodup⟩

/-- The dictionary with `k` put last. -/
def putLast (d : OrderedDict κ α) (k : κ) (v : α) : OrderedDict κ α :=
  ⟨(d.erase k).items ++ [(k, v)], by
    rw [List.map_append, List.nodup_append]
    refine ⟨(d.erase k).nodup, List.nodup_singleton _, ?_⟩
    intro a ha b hb hab
    obtain ⟨p, hp, rfl⟩ := List.mem_map.1 ha
    simp only [erase, List.mem_filter, decide_eq_true_eq] at hp
    exact hp.2 (hab.trans (List.mem_singleton.1 hb))⟩

/-- `d[k] = v`. -/
def set (d : OrderedDict κ α) (k : κ) (v : α) : OrderedDict κ α :=
  if k ∈ d.keys then d.setAt k v else d.putLast k v

/-- `d.update(items)`. -/
def update (d : OrderedDict κ α) (items : List (κ × α)) : OrderedDict κ α := items.foldl (fun d p => d.set p.1 p.2) d

/-- The items whose key meets a condition. -/
def filterKeys (d : OrderedDict κ α) (p : κ → Bool) : OrderedDict κ α :=
  ⟨d.items.filter (fun x => p x.1), d.nodup.sublist (List.filter_sublist.map Prod.fst)⟩

/-- `d.move_to_end(k)`. -/
def moveToEnd (d : OrderedDict κ α) (k : κ) : OrderedDict κ α :=
  match d.get? k with
  | none => d
  | some v => d.putLast k v

/-- Items under the last keys of a dictionary. -/
def ofKeysSuffix (d : OrderedDict κ α) (items : List (κ × α)) (h : items.map Prod.fst <:+ d.keys) : OrderedDict κ α :=
  ⟨items, d.nodup.sublist h.sublist⟩

/-! ## Items and values -/

@[simp] theorem get?_empty (k : κ) : (empty : OrderedDict κ α).get? k = none := rfl

/-- A lookup finds a value exactly when the item is there. -/
theorem get?_eq_some {d : OrderedDict κ α} {k : κ} {v : α} : d.get? k = some v ↔ (k, v) ∈ d.items := by
  obtain ⟨items, hnd⟩ := d
  induction items with
  | nil => simp [get?]
  | cons p items ih =>
    rw [List.map_cons, List.nodup_cons] at hnd
    have ih := ih hnd.2
    simp only [get?] at ih ⊢
    by_cases hk : p.1 = k
    · simp only [List.find?_cons, hk, decide_true, Option.map_some, Option.some.injEq, List.mem_cons]
      constructor
      · rintro rfl
        exact Or.inl (by rw [← hk])
      · rintro (rfl | hmem)
        · rfl
        · exact absurd (List.mem_map.2 ⟨_, hmem, hk.symm⟩) hnd.1
    · have hne : (k, v) ≠ p := by
        rintro rfl
        exact hk rfl
      simp only [List.find?_cons, hk, decide_false, ih, List.mem_cons, hne, false_or]

theorem get?_eq_none {d : OrderedDict κ α} {k : κ} : d.get? k = none ↔ k ∉ d.keys := by
  simp only [get?, Option.map_eq_none_iff, List.find?_eq_none, decide_eq_true_eq, keys, List.mem_map, not_exists, not_and]

/-- Dictionaries with the same items at a key answer the same there. -/
theorem get?_congr_items {d e : OrderedDict κ α} {k : κ} (h : ∀ v, (k, v) ∈ d.items ↔ (k, v) ∈ e.items) :
    d.get? k = e.get? k := by
  ext v
  exact get?_eq_some.trans ((h v).trans get?_eq_some.symm)

/-- Erasing keeps the items of the other keys. -/
theorem mem_erase_items {d : OrderedDict κ α} {k : κ} {p : κ × α} :
    p ∈ (d.erase k).items ↔ p ∈ d.items ∧ p.1 ≠ k := by
  simp [erase]

/-- Putting last adds the item and keeps those of the other keys. -/
theorem mem_putLast_items {d : OrderedDict κ α} {k : κ} {v : α} {p : κ × α} :
    p ∈ (d.putLast k v).items ↔ p = (k, v) ∨ p ∈ d.items ∧ p.1 ≠ k := by
  simp only [putLast, List.mem_append, mem_erase_items, List.mem_singleton]
  exact or_comm

/-- Overwriting replaces the key's item and keeps the others. -/
theorem mem_setAt_items {d : OrderedDict κ α} {k : κ} {v : α} {p : κ × α} (hk : k ∈ d.keys) :
    p ∈ (d.setAt k v).items ↔ p = (k, v) ∨ p ∈ d.items ∧ p.1 ≠ k := by
  simp only [setAt, List.mem_map]
  constructor
  · rintro ⟨q, hq, rfl⟩
    by_cases hqk : q.1 = k
    · exact Or.inl (if_pos hqk)
    · rw [if_neg hqk]
      exact Or.inr ⟨hq, hqk⟩
  · rintro (rfl | ⟨hp, hpk⟩)
    · obtain ⟨q, hq, hqk⟩ := List.mem_map.1 hk
      exact ⟨q, hq, if_pos hqk⟩
    · exact ⟨p, hp, if_neg hpk⟩

/-- An erased key answers nothing, and every other key as before. -/
theorem get?_erase (d : OrderedDict κ α) (k k' : κ) : (d.erase k).get? k' = if k' = k then none else d.get? k' := by
  split
  · rename_i h
    refine get?_eq_none.2 fun hmem => ?_
    obtain ⟨p, hp, hpk⟩ := List.mem_map.1 hmem
    exact (mem_erase_items.1 hp).2 (hpk.trans h)
  · rename_i h
    exact get?_congr_items fun v => by simp [mem_erase_items, h]

/-- A key put last answers its new value, and every other key as before. -/
theorem get?_putLast (d : OrderedDict κ α) (k k' : κ) (v : α) :
    (d.putLast k v).get? k' = if k' = k then some v else d.get? k' := by
  split
  · rename_i h
    exact get?_eq_some.2 (mem_putLast_items.2 (Or.inl (by rw [h])))
  · rename_i h
    exact get?_congr_items fun v => by simp [mem_putLast_items, h]

/-- An overwritten key answers its new value, and every other key as before. -/
theorem get?_setAt {d : OrderedDict κ α} {k : κ} (hk : k ∈ d.keys) (k' : κ) (v : α) :
    (d.setAt k v).get? k' = if k' = k then some v else d.get? k' := by
  split
  · rename_i h
    exact get?_eq_some.2 ((mem_setAt_items hk).2 (Or.inl (by rw [h])))
  · rename_i h
    exact get?_congr_items fun v => by simp [mem_setAt_items hk, h]

/-- A key put last is among the keys. -/
@[simp] theorem mem_keys_putLast (d : OrderedDict κ α) (k : κ) (v : α) : k ∈ (d.putLast k v).keys :=
  List.mem_map.2 ⟨(k, v), mem_putLast_items.2 (Or.inl rfl), rfl⟩

theorem set_of_not_mem {d : OrderedDict κ α} {k : κ} (h : k ∉ d.keys) (v : α) : d.set k v = d.putLast k v := if_neg h

theorem set_of_mem {d : OrderedDict κ α} {k : κ} (h : k ∈ d.keys) (v : α) : d.set k v = d.setAt k v := if_pos h

/-- An assigned key answers its new value, and every other key as before. -/
theorem get?_set (d : OrderedDict κ α) (k k' : κ) (v : α) : (d.set k v).get? k' = if k' = k then some v else d.get? k' := by
  by_cases hk : k ∈ d.keys
  · rw [set_of_mem hk, get?_setAt hk]
  · rw [set_of_not_mem hk, get?_putLast]

theorem get?_set_self (d : OrderedDict κ α) (k : κ) (v : α) : (d.set k v).get? k = some v := by
  rw [get?_set, if_pos rfl]

theorem get?_set_of_ne (d : OrderedDict κ α) {k k' : κ} (v : α) (h : k' ≠ k) : (d.set k v).get? k' = d.get? k' := by
  rw [get?_set, if_neg h]

/-- After an update the new items count first. -/
theorem get?_update (d e : OrderedDict κ α) (k : κ) : (d.update e.items).get? k = (e.get? k).or (d.get? k) := by
  obtain ⟨items, hnd⟩ := e
  induction items generalizing d with
  | nil => rfl
  | cons p items ih =>
    obtain ⟨hnot, hnd'⟩ := List.nodup_cons.1 hnd
    have hrest := ih (d.set p.1 p.2) hnd'
    have hhead : (⟨p :: items, hnd⟩ : OrderedDict κ α).get? k =
        if p.1 = k then some p.2 else (⟨items, hnd'⟩ : OrderedDict κ α).get? k := by
      by_cases hk : p.1 = k <;> simp [get?, hk]
    rw [update, List.foldl_cons]
    refine hrest.trans ?_
    rw [hhead, get?_set]
    by_cases hk : p.1 = k
    · subst hk
      have hnone : (⟨items, hnd'⟩ : OrderedDict κ α).get? p.1 = none := get?_eq_none.2 hnot
      rw [hnone, if_pos rfl, if_pos rfl]
      rfl
    · rw [if_neg hk, if_neg fun h => hk h.symm]

/-- A filtered dictionary answers for the keys that were kept. -/
theorem get?_filterKeys (d : OrderedDict κ α) (p : κ → Bool) (k : κ) :
    (d.filterKeys p).get? k = if p k then d.get? k else none := by
  split
  · rename_i h
    exact get?_congr_items fun v => by simp [filterKeys, h]
  · rename_i h
    refine get?_eq_none.2 fun hmem => h ?_
    obtain ⟨x, hx, rfl⟩ := List.mem_map.1 hmem
    exact (List.mem_filter.1 hx).2

/-- Assignment to the last key keeps it last. -/
theorem set_putLast (d : OrderedDict κ α) (k : κ) (v w : α) : (d.putLast k v).set k w = d.putLast k w := by
  rw [set, if_pos (mem_keys_putLast d k v)]
  have herase : (d.erase k).items.map (fun p => if p.1 = k then (k, w) else p) = (d.erase k).items := by
    refine (List.map_congr_left fun p hp => ?_).trans (List.map_id _)
    rw [if_neg (mem_erase_items.1 hp).2]
    rfl
  simp only [setAt, putLast, List.map_append, herase, List.map_cons, if_true, List.map_nil]

end OrderedDict
