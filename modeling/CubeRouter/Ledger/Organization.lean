import CubeRouter.Ledger.Token

/-!
# The organization's `used_quota`

`updateOrganizationUsedQuotaTx` of `service/organization_billing.go` is the only writer of an
organization's `used_quota`; it also keeps the responsible member's counter
(`updateOrganizationMemberUsedQuotaTx` of `service/organization_member_quota.go`). An increase is
guarded by the `WHERE` of the `UPDATE`, a decrease is clamped at `0` by a `CASE`.

`updateOrganizationUsedQuotaTx_ok` says all that a successful call does; the operations of the ledger
are proved from it and never unfold the function.
-/

namespace CubeRouter.Ledger

open Relational Transition

/-- What the `UPDATE` writes: `used_quota + delta`, for a negative delta inside
`CASE WHEN used_quota + ? < 0 THEN 0 ELSE used_quota + ? END`. -/
def usedQuotaExpr (used delta : Int) : Int :=
  if delta < 0 then if used + delta < 0 then 0 else used + delta else used + delta

/-- With `enforce` an increase of a member who is not the owner must stay within the member's limit;
otherwise it is booked without a check. A missing member row is skipped. -/
def updateOrganizationMemberUsedQuotaTx (db : DB) (organizationId userId ownerUserId : Nat) (delta : Int)
    (enforce : Bool) : Except BillingError DB :=
  if organizationId = 0 ∨ userId = 0 ∨ delta = 0 then
    .ok db
  else
    match db.members.find? fun m => m.organizationId = organizationId ∧ m.userId = userId with
    | none => .ok db
    | some (i, member) =>
      let booked := { db with members := db.members.modify i fun m =>
        { m with usedQuota := usedQuotaExpr m.usedQuota delta } }
      if enforce ∧ 0 < delta ∧ userId ≠ ownerUserId then
        if member.quotaLimit = 0 ∨ member.usedQuota + delta ≤ member.quotaLimit then
          .ok booked
        else
          .error .memberQuotaExceeded
      else
        .ok booked

/-- Why the guarded `UPDATE` matched no row. -/
def organizationQuotaUpdateFailure (organization : Organization) : BillingError :=
  if organization.status ≠ .active then .organizationNotActive else .organizationQuotaNotEnough

def Organization.charged (org : Organization) (delta : Int) (incrementRequestCount : Bool) (now : Int) :
    Organization :=
  { org with
    usedQuota := usedQuotaExpr org.usedQuota delta
    requestCount := if incrementRequestCount then org.requestCount + 1 else org.requestCount
    updatedAt := now }

/-- The snapshot "before", computed back from the row after the `UPDATE`. -/
def Organization.before (after : Organization) (delta : Int) (incrementRequestCount : Bool) :
    Organization :=
  let usedQuota := after.usedQuota - delta
  { after with
    usedQuota := if delta < 0 ∧ usedQuota < 0 then 0 else usedQuota
    requestCount :=
      if incrementRequestCount ∧ after.requestCount > 0 then after.requestCount - 1
      else after.requestCount }

def updateOrganizationUsedQuotaTx (db : DB) (organizationId : Nat) (delta : Int)
    (incrementRequestCount requireActive : Bool) (now : Int) (memberUserId : Nat)
    (enforceMemberQuota : Bool) : Except BillingError (Organization × Organization × DB) :=
  match db.organizations.get? organizationId with
  | none => .error .recordNotFound
  | some org =>
    if delta = 0 ∧ !incrementRequestCount then
      if requireActive ∧ org.status ≠ .active then
        .error (organizationQuotaUpdateFailure org)
      else
        .ok (org, org, db)
    else if (requireActive ∧ org.status ≠ .active) ∨ (0 < delta ∧ ¬ org.usedQuota + delta ≤ org.quota) then
      .error (organizationQuotaUpdateFailure org)
    else do
      let after := org.charged delta incrementRequestCount now
      let db ← updateOrganizationMemberUsedQuotaTx
        { db with
          organizations := db.organizations.modify organizationId fun _ => after
          usedQuotaUpdates :=
            ⟨organizationId, org.usedQuota, delta, after.usedQuota⟩ :: db.usedQuotaUpdates }
        organizationId memberUserId after.ownerUserId delta enforceMemberQuota
      .ok (after.before delta incrementRequestCount, after, db)

/-! ## What a successful update does -/

/-- The organization's row `id` goes from `org` to `after` by a `used_quota` change of `delta`, and the
history `updates'` gets no other entry than this one. -/
structure UsedQuotaMoved (orgs orgs' : Table Organization) (updates updates' : List UsedQuotaUpdate)
    (id : Nat) (delta : Int) (org after : Organization) : Prop where
  get : orgs.get? id = some org
  get' : ∀ o, orgs'.get? o = if o = id then some after else orgs.get? o
  used : after.usedQuota = usedQuotaExpr org.usedQuota delta
  quota : after.quota = org.quota
  status : after.status = org.status
  fits : 0 < delta → org.usedQuota + delta ≤ org.quota
  history : ∀ u ∈ updates', u ∈ updates ∨ u = ⟨id, org.usedQuota, delta, after.usedQuota⟩

@[simp] theorem usedQuotaExpr_zero (used : Int) : usedQuotaExpr used 0 = used := by
  simp [usedQuotaExpr]

variable {delta : Int} {db db' : DB} {enforce : Bool}

theorem usedQuotaExpr_eq {used : Int} (h : 0 ≤ used + delta) : usedQuotaExpr used delta = used + delta := by
  unfold usedQuotaExpr
  split_ifs with hneg hlow
  · omega
  · rfl
  · rfl

theorem updateOrganizationMemberUsedQuotaTx_frame {organizationId userId owner : Nat}
    (h : updateOrganizationMemberUsedQuotaTx db organizationId userId owner delta enforce = .ok db') :
    ∃ members, db' = { db with members } := by
  unfold updateOrganizationMemberUsedQuotaTx at h
  by_cases hskip : organizationId = 0 ∨ userId = 0 ∨ delta = 0
  · rw [if_pos hskip] at h
    cases h
    exact ⟨_, rfl⟩
  · rw [if_neg hskip] at h
    split at h
    · cases h
      exact ⟨_, rfl⟩
    · split_ifs at h <;> cases h <;> exact ⟨_, rfl⟩

theorem updateOrganizationUsedQuotaTx_ok {id memberUserId : Nat} {now : Int}
    {increment requireActive : Bool} {before after : Organization}
    (h : updateOrganizationUsedQuotaTx db id delta increment requireActive now memberUserId enforce =
      .ok (before, after, db')) : ∃ org organizations members usedQuotaUpdates,
      UsedQuotaMoved db.organizations organizations db.usedQuotaUpdates usedQuotaUpdates id delta org after ∧
      db' = { db with organizations, members, usedQuotaUpdates } := by
  unfold updateOrganizationUsedQuotaTx at h
  split at h
  · cases h
  · rename_i org hget
    split_ifs at h with hread hactive hguard
    · cases h
      obtain ⟨rfl, -⟩ := hread
      refine ⟨before, _, _, _, ⟨hget, fun o => ?_, by simp, rfl, rfl, by simp, fun u hu => .inl hu⟩, rfl⟩
      split_ifs with ho
      · rw [ho, hget]
      · rfl
    · obtain ⟨_, hmember, hrest⟩ := bind_eq_ok.mp h
      obtain ⟨members, rfl⟩ := updateOrganizationMemberUsedQuotaTx_frame hmember
      cases hrest
      push Not at hguard
      refine ⟨org, _, members, _, ⟨hget, fun o => ?_, rfl, rfl, rfl, hguard.2, fun u hu => ?_⟩, rfl⟩
      · simp only [Table.get?_modify]
        split_ifs with ho
        · rw [ho, hget]
          rfl
        · rfl
      · rcases List.mem_cons.mp hu with rfl | hu
        · exact .inr rfl
        · exact .inl hu

end CubeRouter.Ledger
