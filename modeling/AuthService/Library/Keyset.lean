import Mathlib

/-!
# Keyset pagination

Rows are listed by a key, the greatest first, in pages. A page takes the rows with keys below the key of the last row seen. The
rows may change between two pages.
-/

namespace Keyset

variable {α K : Type} [LinearOrder K] (key : α → K)

/-- The rows below a bound, the greatest key first. -/
structure Listing (rows : List α) (bound : Option K) (listed : List α) : Prop where
  mem : ∀ x, x ∈ listed ↔ x ∈ rows ∧ ∀ b ∈ bound, key x < b
  sorted : listed.Pairwise fun x y => key y < key x

variable {key} {rows listed : List α} {bound : Option K} {n : Nat}

/-- Every row of a page has a key at least that of its last row. -/
theorem Listing.last_le (h : Listing key rows bound listed) {last : α} (hlast : (listed.take n).getLast? = some last) {x : α}
    (hx : x ∈ listed.take n) : key last ≤ key x := by
  obtain ⟨front, hfront⟩ := List.getLast?_eq_some_iff.1 hlast
  have hsorted := h.sorted.sublist (List.take_sublist n listed)
  rw [hfront] at hsorted hx
  rcases List.mem_append.1 hx with hx | hx
  · exact ((List.pairwise_append.1 hsorted).2.2 x hx last (List.mem_singleton_self last)).le
  · rw [List.mem_singleton.1 hx]

/-- The pages after a page go on below its last row. -/
theorem Listing.append (h : Listing key rows bound listed) {last : α} (hlast : (listed.take n).getLast? = some last)
    {rest : List α} (hsorted : rest.Pairwise fun x y => key y < key x) (hbelow : ∀ x ∈ rest, key x < key last) :
    (listed.take n ++ rest).Pairwise fun x y => key y < key x := by
  refine List.pairwise_append.2 ⟨h.sorted.sublist (List.take_sublist n listed), hsorted, ?_⟩
  intro x hx y hy
  exact (hbelow y hy).trans_le (h.last_le hlast hx)

/-- The last row of a page is below the bound of the page. -/
theorem Listing.last_lt (h : Listing key rows bound listed) {last : α} (hlast : (listed.take n).getLast? = some last) :
    ∀ b ∈ bound, key last < b :=
  ((h.mem last).1 (List.mem_of_mem_take (List.mem_of_getLast? hlast))).2

/-- A row that is there below the bound is on the page, or below its last row. -/
theorem Listing.mem_or_lt (h : Listing key rows bound listed) {x : α} (hx : x ∈ rows) (hb : ∀ b ∈ bound, key x < b) {last : α}
    (hlast : (listed.take n).getLast? = some last) : x ∈ listed.take n ∨ n < listed.length ∧ key x < key last := by
  have hmem := (h.mem x).2 ⟨hx, hb⟩
  rw [← List.take_append_drop n listed, List.mem_append] at hmem
  refine hmem.imp_right fun hdrop => ⟨?_, ?_⟩
  · by_contra hle
    rw [List.drop_of_length_le (not_lt.1 hle)] at hdrop
    exact absurd hdrop List.not_mem_nil
  · have hsorted := h.sorted
    rw [← List.take_append_drop n listed] at hsorted
    exact (List.pairwise_append.1 hsorted).2.2 last (List.mem_of_getLast? hlast) x hdrop

/-- The rows that are left below the last row of a page are fewer. -/
theorem Listing.shrinks (h : Listing key rows bound listed) {last : α} (hlast : (listed.take n).getLast? = some last)
    {listed' : List α} (h' : Listing key rows (some (key last)) listed') (hn : n ≤ listed.length) :
    listed'.length + n ≤ listed.length := by
  have hsub : ∀ x ∈ listed', x ∈ listed.drop n := by
    intro x hx
    obtain ⟨hrow, hlt⟩ := (h'.mem x).1 hx
    have hlt := hlt _ rfl
    have hlastmem := (h.mem last).1 (List.mem_of_mem_take (List.mem_of_getLast? hlast))
    have hmem : x ∈ listed := (h.mem x).2 ⟨hrow, fun b hb => hlt.trans (hlastmem.2 b hb)⟩
    rw [← List.take_append_drop n listed, List.mem_append] at hmem
    exact hmem.resolve_left fun hx => absurd (h.last_le hlast hx) (not_le.2 hlt)
  have hnodup : listed'.Nodup := by
    refine h'.sorted.imp ?_
    intro x y hlt heq
    rw [heq] at hlt
    exact lt_irrefl _ hlt
  have hle := (List.subperm_of_subset hnodup hsub).length_le
  rw [List.length_drop] at hle
  omega

end Keyset
