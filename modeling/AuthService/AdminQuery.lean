import AuthService.Library.Like
import AuthService.Tables

/-!
# Listing users for administrators

The search of `AdminUserListQuery` (models/admin_query.py) and `AdminUserRepository.list_users` with its filters.
-/

namespace AuthService

open Replace (replace)

/-- `normalize_admin_search`. `none` when the search is too long. -/
def normalizeAdminSearch (Γ : Ctx) (value : Option Text) (maxLength : Nat) : Option (Option Text) :=
  match value with
  | none => some none
  | some value =>
    let normalized := Γ.strip value
    if normalized = [] then some none
    else if maxLength < normalized.length then none
    else some (some normalized)

/-- `escape_like_search`. -/
def escapeLikeSearch (value : Text) (escapeChar : Char) : Text :=
  replace ['_'] [escapeChar, '_'] (replace ['%'] [escapeChar, '%'] (replace [escapeChar] [escapeChar, escapeChar] value))

/-- `LIKE` with `ESCAPE '\'`. -/
def sqlWildcards : Like.Wildcards Char := ⟨'%', '_', '\\', by decide, by decide, by decide⟩

/-- `AdminUserListQuery`. -/
structure AdminUserListQuery where
  search : Option Text := none
  isActive : Option Bool := none
  role : Option Text := none

/-- The filter of a search, on a row. `none` when the pattern is refused. -/
def searchFilter (Γ : Ctx) (search : Option Text) (u : User) : Option Bool :=
  match search with
  | none => some true
  | some search => Like.like sqlWildcards (['%'] ++ escapeLikeSearch (Γ.lower search) '\\' ++ ['%']) (Γ.sqlLower u.email)

/-- `_filters`, on a row. -/
def adminFilters (Γ : Ctx) (S : Store) (query : AdminUserListQuery) (u : User) : Option Bool := do
  let found ← searchFilter Γ query.search u
  return u.deletedAt.isNone && found && query.isActive.all (fun isActive => u.isActive == isActive) &&
    query.role.all fun role => S.roles.any fun r => r.userId = u.id && r.roleCode = role

/-- The rows with a condition that may be refused. -/
def filterRows {α : Type} (condition : α → Option Bool) : List α → Option (List α)
  | [] => some []
  | x :: xs => do
    let holds ← condition x
    let rest ← filterRows condition xs
    return if holds then x :: rest else rest

/-- `AdminUserRecord`. -/
structure AdminUserRecord where
  user : User
  roles : List Text
  deriving DecidableEq, Repr

/-- `AdminOffsetPageResult`. -/
structure AdminOffsetPageResult where
  items : List AdminUserRecord
  total : Nat
  offset : Nat
  limit : Nat
  deriving DecidableEq, Repr

/-- `order_by(registered_at.desc(), id.desc())`. -/
def registeredBefore (u v : User) : Prop := v.registeredAt < u.registeredAt ∨ u.registeredAt = v.registeredAt ∧ v.id ≤ u.id

instance : DecidableRel registeredBefore := fun _ _ => inferInstanceAs (Decidable (_ ∨ _))

/-- `list_users`. -/
def listUsers (Γ : Ctx) (S : Store) (query : AdminUserListQuery) (offset limit : Nat) : Option AdminOffsetPageResult := do
  let rows ← filterRows (adminFilters Γ S query) S.users
  let users := ((rows.insertionSort registeredBefore).drop offset).take limit
  return {
    items := users.map fun u => ⟨u, sortTexts ((S.roles.filter fun r => r.userId = u.id).map UserRole.roleCode)⟩
    total := rows.length
    offset := offset
    limit := limit }

end AuthService
