import CubeRouter.Auth.Session
import CubeRouter.Ledger.Funding
import CubeRouter.Organization.Policy
import Mathlib.Data.List.Sort
import Mathlib.Data.String.Basic

/-!
# The model allow list of a user

`model/user_model_allowlist.go` and `model/member_model_access.go`: the models that the members of active
organizations may use are the intersection of their restricted memberships. The list is cached under a key of the
user. A refill writes it only if a second key, the fence, has not moved since before the database was read, and a
refresh moves the fence and deletes the list in one script.
-/

namespace CubeRouter.Organization.AllowList

open Concurrency
open Ledger (trimSpace)
open Auth (Fate Reply)

def RoleAdminUser : Int := 10

def MaxMemberModelAccessEntries : Nat := 2000

def MaxMemberModelNameLen : Nat := 255

/-! ## The effective list -/

structure Organization where
  id : Nat
  status : OrganizationStatus

structure OrganizationMember where
  userId : Nat
  organizationId : Nat
  status : MemberStatus
  modelAccess : String

structure Database where
  organizations : List Organization := []
  members : List OrganizationMember := []

def sortStrings (l : List String) : List String := l.insertionSort (· ≤ ·)

@[simp] theorem sortStrings_sortStrings (l : List String) : sortStrings (sortStrings l) = sortStrings l :=
  (List.pairwise_insertionSort (· ≤ ·) l).insertionSort_eq

/-- `seen` are the names that have been kept already. -/
def cleanMemberModelAccess (seen : List String) : List String → List String
  | [] => []
  | model :: models =>
    if trimSpace model = "" ∨ trimSpace model ∈ seen then cleanMemberModelAccess seen models
    else trimSpace model :: cleanMemberModelAccess (trimSpace model :: seen) models

section Load

-- `common.Unmarshal` of a list of strings
variable (unmarshal : String → Option (List String))

/-- No list and an empty one are the same to the caller. -/
def parseMemberModelAccess (raw : String) : List String :=
  if trimSpace raw = "" ∨ trimSpace raw = "null" then []
  else
    match unmarshal (trimSpace raw) with
    | none => []
    | some parsed =>
      ((cleanMemberModelAccess [] parsed).filter fun model => model.utf8ByteSize ≤ MaxMemberModelNameLen).take
        MaxMemberModelAccessEntries

def Database.memberships (db : Database) (userId : Nat) : List OrganizationMember :=
  let activeOrganizationIds := (db.organizations.filter fun o => o.status = .active).map Organization.id
  db.members.filter fun m => m.userId = userId ∧ m.status = .active ∧ m.organizationId ∈ activeOrganizationIds

/-- `loadMemberModelAllowListFromDB` on the rows it has read; no list is no restriction. -/
def memberModelAllowList (rows : List OrganizationMember) : Option (List String) :=
  let restricted := (rows.map fun row => parseMemberModelAccess unmarshal row.modelAccess).filter (· ≠ [])
  if restricted = [] then none
  else
    let counted := restricted.flatten
    some (sortStrings (counted.dedup.filter fun name => counted.count name = restricted.length))

theorem sorted_memberModelAllowList (rows : List OrganizationMember) :
    (memberModelAllowList unmarshal rows).map sortStrings = memberModelAllowList unmarshal rows := by
  unfold memberModelAllowList
  dsimp only
  split_ifs <;> simp

end Load

end CubeRouter.Organization.AllowList
