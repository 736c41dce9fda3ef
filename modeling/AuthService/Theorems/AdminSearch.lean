import AuthService.AdminQuery

/-!
# A search is taken literally

An administrator's search finds the users whose email has it somewhere, whatever wildcards it contains. The pages of a listing
show the users that are found, newest first.
-/

namespace AuthService

/-- The user is not deleted, and is as active and has the role as a query asks. -/
structure Fits (S : Store) (query : AdminUserListQuery) (u : User) : Prop where
  live : u.deletedAt = none
  active : ∀ isActive ∈ query.isActive, u.isActive = isActive
  role : ∀ role ∈ query.role, ∃ r ∈ S.roles, r.userId = u.id ∧ r.roleCode = role

namespace AdminSearchAux

variable {Γ : Ctx} {S : Store} {query : AdminUserListQuery} {u : User}

/-- The source's replacements escape exactly the wildcards. -/
theorem escapeLikeSearch_eq (s : Text) : escapeLikeSearch s '\\' = Like.escaped sqlWildcards s :=
  Like.escaped_eq_replace sqlWildcards s

/-- A text is LIKE the escaped search between wildcards exactly when it contains the search. -/
theorem like_search (s t : Text) :
    Like.like sqlWildcards (['%'] ++ escapeLikeSearch s '\\' ++ ['%']) t = some (decide (s <:+: t)) := by
  rw [escapeLikeSearch_eq]
  exact Like.like_escaped sqlWildcards s t

/-- The filter never fails, and finds the users whose email contains the search. -/
theorem searchFilter_eq (search : Option Text) (u : User) : ∃ found, searchFilter Γ search u = some found ∧
    (found = true ↔ ∀ s ∈ search, Γ.lower s <:+: Γ.sqlLower u.email) := by
  cases search with
  | none => exact ⟨true, rfl, ⟨nofun, fun _ => rfl⟩⟩
  | some s =>
    refine ⟨_, like_search _ _, ?_⟩
    rw [decide_eq_true_eq]
    exact ⟨fun h _ hs => Option.some.inj hs ▸ h, fun h => h s rfl⟩

variable (Γ S query u) in
/-- The filters never fail: a user is found when it fits and its email has the search. -/
theorem adminFilters_eq : ∃ found, adminFilters Γ S query u = some found ∧
    (found = true ↔ Fits S query u ∧ ∀ search ∈ query.search, Γ.lower search <:+: Γ.sqlLower u.email) := by
  obtain ⟨search, isActive, role⟩ := query
  have hfits : (u.deletedAt.isNone && isActive.all (fun isActive => u.isActive == isActive) &&
      role.all fun role => S.roles.any fun r => r.userId = u.id && r.roleCode = role) = true ↔
        Fits S ⟨search, isActive, role⟩ u := by
    simp only [Bool.and_eq_true, Option.isNone_iff_eq_none, Option.all_eq_true, beq_iff_eq, List.any_eq_true,
      decide_eq_true_eq]
    exact ⟨fun h => ⟨h.1.1, h.1.2, h.2⟩, fun h => ⟨⟨h.live, h.active⟩, h.role⟩⟩
  obtain ⟨found, hfound, hsearch⟩ := searchFilter_eq (Γ := Γ) search u
  refine ⟨_, by rw [adminFilters, hfound]; rfl, ?_⟩
  rw [Bool.and_right_comm _ found, Bool.and_right_comm _ found, Bool.and_eq_true, hfits, hsearch]

/-- The rows of a condition that is never refused. -/
theorem filterRows_eq {α : Type} {condition : α → Option Bool} {holds : α → Bool} (rows : List α)
    (h : ∀ x ∈ rows, condition x = some (holds x)) : filterRows condition rows = some (rows.filter holds) := by
  induction rows with
  | nil => rfl
  | cons x rows ih =>
    have hrest := ih fun y hy => h y (List.mem_cons_of_mem _ hy)
    rw [filterRows, h x List.mem_cons_self, hrest, List.filter_cons]
    rfl

variable (Γ S query) in
/-- The filters keep the users that fit and whose email has the search, in the order of the table. -/
theorem filterRows_adminFilters : ∃ holds : User → Bool,
    filterRows (adminFilters Γ S query) S.users = some (S.users.filter holds) ∧
      ∀ u, holds u = true ↔ Fits S query u ∧ ∀ search ∈ query.search, Γ.lower search <:+: Γ.sqlLower u.email := by
  choose holds hholds hiff using adminFilters_eq Γ S query
  exact ⟨holds, filterRows_eq S.users fun u _ => hholds u, hiff⟩

/-! ### Pages -/

/-- The key of the order of a listing. -/
def userKey (u : User) : Lex (DateTime × Uuid) := toLex (u.registeredAt, u.id)

/-- The order of the keys is that of the registrations. -/
theorem userKey_le {u v : User} : userKey v ≤ userKey u ↔ registeredBefore u v := by
  rw [registeredBefore, @eq_comm _ u.registeredAt]
  exact Prod.Lex.le_iff

instance : Std.Total registeredBefore := ⟨fun u v => by
  rw [← userKey_le, ← userKey_le]
  exact le_total _ _⟩

instance : IsTrans User registeredBefore := ⟨fun u v w huv hvw => by
  rw [← userKey_le] at huv hvw ⊢
  exact hvw.trans huv⟩

/-- Pages of one size, one after the other, are the beginning of a list. -/
theorem flatMap_pages {α : Type} (xs : List α) (limit n : Nat) :
    ((List.range n).flatMap fun k => (xs.drop (k * limit)).take limit) = xs.take (n * limit) := by
  induction n with
  | zero => simp
  | succ n ih => rw [List.range_succ, List.flatMap_append, ih, Nat.succ_mul, List.take_add, List.flatMap_singleton]

end AdminSearchAux

open AdminSearchAux

/-- The pattern of a search matches the texts that have the search in them. When PostgreSQL and Python agree on `lower`, the
filters find the users that fit and whose email has the search in it, both in lower case. -/
theorem search_is_literal (Γ : Ctx) (hlower : Γ.lower = Γ.sqlLower) :
    (∀ s t : Text, Like.like sqlWildcards (['%'] ++ escapeLikeSearch s '\\' ++ ['%']) t = some (decide (s <:+: t))) ∧
    ∀ (S : Store) (query : AdminUserListQuery) (search : Text), query.search = some search →
      ∃ found, filterRows (adminFilters Γ S query) S.users = some found ∧
        ∀ u, u ∈ found ↔ u ∈ S.users ∧ Fits S query u ∧ Γ.lower search <:+: Γ.lower u.email := by
  refine ⟨like_search, fun S query search hsearch => ?_⟩
  obtain ⟨holds, hfound, hiff⟩ := filterRows_adminFilters Γ S query
  refine ⟨_, hfound, fun u => ?_⟩
  rw [List.mem_filter, hiff, hsearch, hlower]
  refine and_congr_right fun _ => and_congr_right fun _ => ⟨fun h => h search rfl, fun h search' hs => ?_⟩
  obtain rfl := Option.some.inj hs
  exact h

/-- The record of a user in a listing, with the codes of the user's roles. -/
def adminRecord (S : Store) (u : User) : AdminUserRecord :=
  ⟨u, sortTexts ((S.roles.filter fun r => r.userId = u.id).map UserRole.roleCode)⟩

/-- Every page shows a part of one list: the users that fit and whose email has the search, newest first and each once. The
total is its length, and the pages in order are the list. -/
theorem listUsers_pages (Γ : Ctx) (S : Store) (query : AdminUserListQuery) : ∃ found : List User,
    (∀ u, u ∈ found ↔ u ∈ S.users ∧ Fits S query u ∧ ∀ search ∈ query.search, Γ.lower search <:+: Γ.sqlLower u.email) ∧
    found.Pairwise registeredBefore ∧ (S.users.Nodup → found.Nodup) ∧
    (∀ offset limit, listUsers Γ S query offset limit =
      some ⟨((found.drop offset).take limit).map (adminRecord S), found.length, offset, limit⟩) ∧
    ∀ limit n, found.length ≤ n * limit →
      ((List.range n).flatMap fun k => ((listUsers Γ S query (k * limit) limit).map AdminOffsetPageResult.items).getD []) =
        found.map (adminRecord S) := by
  obtain ⟨holds, hrows, hiff⟩ := filterRows_adminFilters Γ S query
  have hperm : ((S.users.filter holds).insertionSort registeredBefore).Perm (S.users.filter holds) :=
    List.perm_insertionSort registeredBefore (S.users.filter holds)
  have hlist : ∀ offset limit, listUsers Γ S query offset limit =
      some ⟨((((S.users.filter holds).insertionSort registeredBefore).drop offset).take limit).map (adminRecord S),
        ((S.users.filter holds).insertionSort registeredBefore).length, offset, limit⟩ := by
    intro offset limit
    rw [listUsers, hrows, List.length_insertionSort]
    rfl
  refine ⟨(S.users.filter holds).insertionSort registeredBefore, fun u => ?_, List.pairwise_insertionSort _ _,
    fun h => hperm.nodup_iff.2 (h.filter _), hlist, fun limit n hn => ?_⟩
  · rw [List.mem_insertionSort, List.mem_filter, hiff]
  · simp only [hlist, Option.map_some, Option.getD_some]
    rw [← List.map_flatMap, flatMap_pages, List.take_of_length_le hn]

/-- A search is refused when it is too long without the space around it. One that is accepted finds what its text does without
the space, which is everything when no text is left. -/
theorem normalizeAdminSearch_spec (Γ : Ctx) (hlower : Γ.lower [] = []) (value : Text) (maxLength : Nat) :
    (normalizeAdminSearch Γ (some value) maxLength = none ↔ maxLength < (Γ.strip value).length) ∧
    ∀ search, normalizeAdminSearch Γ (some value) maxLength = some search →
      ∀ email, (∀ s ∈ search, Γ.lower s <:+: email) ↔ Γ.lower (Γ.strip value) <:+: email := by
  simp only [normalizeAdminSearch]
  by_cases hempty : Γ.strip value = []
  · rw [if_pos hempty, hempty, hlower]
    refine ⟨by simp, fun search hsearch email => ?_⟩
    obtain rfl := Option.some.inj hsearch
    simp
  · rw [if_neg hempty]
    by_cases hlong : maxLength < (Γ.strip value).length
    · rw [if_pos hlong]
      refine ⟨by simp [hlong], fun search hsearch => ?_⟩
      cases hsearch
    · rw [if_neg hlong]
      refine ⟨by simp [hlong], fun search hsearch email => ?_⟩
      obtain rfl := Option.some.inj hsearch
      simp

namespace LiteralSearch

def Γ₀ : Ctx := Ctx.readable [] fun _ => .error .oidcTokenExchange

def ann : User := ⟨1, "Ann_50%\\@example.com".toList, none, true, .en, 0, 0, none, none⟩

def bob : User := ⟨2, "annx50@example.com".toList, none, true, .en, 0, 0, none, none⟩

def store : Store := { Store.empty with users := [ann, bob] }

/-- A search with both wildcards and a backslash. -/
def wildcards : AdminUserListQuery := { search := some "NN_50%\\".toList }

end LiteralSearch

open LiteralSearch in
/-- Only the user with the wildcards and the backslash in the email is found. -/
theorem search_is_literal_wildcards : ∃ found, filterRows (adminFilters Γ₀ store wildcards) store.users = some found ∧
    ann ∈ found ∧ bob ∉ found := by
  obtain ⟨found, hfound, hmem⟩ := (search_is_literal Γ₀ rfl).2 store wildcards _ rfl
  refine ⟨found, hfound, (hmem ann).2 ⟨by decide, ⟨rfl, nofun, nofun⟩, by decide⟩, fun hbob => ?_⟩
  exact absurd ((hmem bob).1 hbob).2.2 (by decide)

end AuthService
