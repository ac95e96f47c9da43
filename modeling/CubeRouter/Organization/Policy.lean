import Mathlib.Data.List.Dedup

/-!
# The access policy of an organization

`EvaluateOrganizationPolicy` of `service/organization_policy.go`: from the platform role of a user, the state of the
organization and the user's active membership it decides in an access mode what the user may do. The role of the owner
comes from `OwnerUserId` and not from the member row.
-/

namespace CubeRouter.Organization

open List

inductive OrganizationStatus
  | active
  | disabled
  | dissolved
  deriving DecidableEq

inductive Role
  | owner
  | admin
  | member
  deriving DecidableEq

inductive MemberStatus
  | active
  | disabled
  | exited
  | removed
  deriving DecidableEq

inductive AccessMode
  | workspace
  | management
  | readOnly
  | admin
  | other (mode : String)
  deriving DecidableEq

/-- The role of a decision; `none` is the empty string. -/
inductive PolicyRole
  | none
  | owner
  | admin
  | member
  | platformAdmin
  | platformRoot
  deriving DecidableEq

inductive Capability
  | viewOrganization
  | updateOrganization
  | disableOrganization
  | enableOrganization
  | dissolveOrganization
  | viewMembersFull
  | manageMembers
  | manageMemberDiscounts
  | manageMemberModels
  | manageMemberQuotas
  | transferOwner
  | viewInvitations
  | manageInvitations
  | viewOrganizationTokens
  | manageOrganizationTokens
  | createPublicOrganizationToken
  | viewOrganizationLogs
  | viewOrganizationUsage
  | viewOrganizationAuditLogs
  | adjustOrganizationQuota
  | viewReadOnlyOrganization
  | exitOrganization
  | viewResource
  | manageResource
  deriving DecidableEq

inductive TokenVisibility
  | «private»
  | «public»
  deriving DecidableEq

/-- The member row of the user, which is read with status `active`. -/
structure PolicyMember where
  userId : Nat
  role : Role
  status : MemberStatus

structure PolicyResource where
  ownerUserId : Nat
  responsibleUserId : Nat
  visibility : TokenVisibility

structure PolicyInput where
  currentUserId : Nat
  platformRole : Nat
  organizationId : Nat
  status : OrganizationStatus
  ownerUserId : Nat
  canSelfEnable : Bool := true
  member : Option PolicyMember := .none
  resource : Option PolicyResource := .none
  accessMode : AccessMode

inductive PolicyCode
  | accessDenied
  | disabled
  | dissolved
  deriving DecidableEq

def PolicyCode.message : PolicyCode → String
  | .accessDenied => "organization access denied"
  | .disabled => "organization disabled"
  | .dissolved => "organization dissolved"

structure PolicyDecision where
  allowed : Bool := false
  accessMode : AccessMode
  role : PolicyRole
  capabilities : List Capability := []
  readOnly : Bool := false
  /-- Its text is the message of the decision. -/
  code : Option PolicyCode := .none

def PolicyDecision.hasCapability (decision : PolicyDecision) (capability : Capability) : Bool :=
  decision.capabilities.contains capability

def PolicyDecision.isPlatform (decision : PolicyDecision) : Bool :=
  decision.role = .platformAdmin ∨ decision.role = .platformRoot

def roleAdminUser : Nat := 10
def roleRootUser : Nat := 100

/-! ## Capabilities -/

def commonOrganizationViewCapabilities : List Capability :=
  [.viewOrganization, .viewMembersFull, .viewOrganizationTokens, .viewOrganizationLogs, .viewOrganizationUsage]

def readOnlyOrganizationCapabilities (role : PolicyRole) : List Capability :=
  [.viewOrganization, .viewReadOnlyOrganization, .viewOrganizationLogs, .viewOrganizationUsage] ++
    match role with
    | .owner | .admin | .platformAdmin | .platformRoot =>
      [.viewMembersFull, .viewInvitations, .viewOrganizationAuditLogs, .viewOrganizationTokens]
    | .member | .none => []

def capabilitiesForOrganizationRole : PolicyRole → List Capability
  | .owner =>
    commonOrganizationViewCapabilities ++
      [.updateOrganization, .disableOrganization, .dissolveOrganization, .manageMembers, .manageMemberDiscounts,
        .manageMemberModels, .manageMemberQuotas, .transferOwner, .viewInvitations, .manageInvitations,
        .manageOrganizationTokens, .createPublicOrganizationToken, .viewOrganizationAuditLogs]
  | .admin =>
    commonOrganizationViewCapabilities ++
      [.updateOrganization, .disableOrganization, .manageMembers, .manageMemberDiscounts, .manageMemberModels,
        .manageMemberQuotas, .viewInvitations, .manageInvitations, .manageOrganizationTokens,
        .createPublicOrganizationToken, .viewOrganizationAuditLogs, .exitOrganization]
  | .member =>
    [.viewOrganization, .viewOrganizationTokens, .viewOrganizationLogs, .viewOrganizationUsage, .exitOrganization]
  | .none | .platformAdmin | .platformRoot => []

def capabilitiesForPlatformRole (role : PolicyRole) : List Capability :=
  commonOrganizationViewCapabilities ++
    [.updateOrganization, .disableOrganization, .enableOrganization, .manageMembers, .viewInvitations,
      .manageInvitations, .manageOrganizationTokens, .viewOrganizationAuditLogs, .adjustOrganizationQuota] ++
    if role = .platformRoot then [.transferOwner, .dissolveOrganization] else []

def disabledManagementCapabilities (capabilities : List Capability) (canSelfEnable : Bool) : List Capability :=
  [.viewOrganization, .viewMembersFull] ++ (if canSelfEnable then [.enableOrganization] else []) ++
    capabilities.filter fun c =>
      c = .viewOrganizationAuditLogs ∨ c = .viewOrganizationLogs ∨ c = .viewOrganizationUsage

/-! ## The decision -/

def PolicyInput.activeMember (input : PolicyInput) : Bool := input.member.any fun m => m.status = .active

def organizationPolicyMemberRole (input : PolicyInput) : PolicyRole :=
  match input.member with
  | .none => .none
  | some member =>
    if member.status ≠ .active then
      .none
    else if 0 < input.ownerUserId ∧ input.ownerUserId = input.currentUserId then
      .owner
    else
      match member.role with
      | .owner => .member
      | .admin => .admin
      | .member => .member

def organizationPolicyRole (input : PolicyInput) : PolicyRole :=
  if input.accessMode ≠ .admin then
    organizationPolicyMemberRole input
  else if roleRootUser ≤ input.platformRole then
    .platformRoot
  else if roleAdminUser ≤ input.platformRole then
    .platformAdmin
  else .none

def denyOrganizationPolicy (decision : PolicyDecision) (code : PolicyCode) : PolicyDecision :=
  { decision with allowed := false, code := some code }

def evaluateWorkspaceOrganizationPolicy (input : PolicyInput) (decision : PolicyDecision) : PolicyDecision :=
  if input.status = .disabled then
    denyOrganizationPolicy decision .disabled
  else if input.status = .dissolved then
    denyOrganizationPolicy decision .dissolved
  else if ¬input.activeMember then
    denyOrganizationPolicy decision .accessDenied
  else
    { decision with allowed := true, capabilities := capabilitiesForOrganizationRole decision.role }

def evaluateManagementOrganizationPolicy (input : PolicyInput) (decision : PolicyDecision) : PolicyDecision :=
  if input.status = .dissolved then
    denyOrganizationPolicy decision .dissolved
  else if ¬input.activeMember ∨ (decision.role ≠ .owner ∧ decision.role ≠ .admin) then
    denyOrganizationPolicy decision .accessDenied
  else
    let capabilities := capabilitiesForOrganizationRole decision.role
    { decision with
      allowed := true
      capabilities :=
        if input.status = .disabled then disabledManagementCapabilities capabilities input.canSelfEnable
        else capabilities }

def evaluateReadOnlyOrganizationPolicy (input : PolicyInput) (decision : PolicyDecision) : PolicyDecision :=
  if input.status = .dissolved then
    denyOrganizationPolicy decision .dissolved
  else if input.status ≠ .disabled then
    denyOrganizationPolicy decision .accessDenied
  else if ¬input.activeMember ∨ (decision.role ≠ .owner ∧ decision.role ≠ .admin) then
    denyOrganizationPolicy decision .disabled
  else
    { decision with
      allowed := true
      readOnly := true
      capabilities := readOnlyOrganizationCapabilities decision.role }

def evaluateAdminOrganizationPolicy (input : PolicyInput) (decision : PolicyDecision) : PolicyDecision :=
  if ¬roleAdminUser ≤ input.platformRole then
    denyOrganizationPolicy decision .accessDenied
  else if input.status = .dissolved then
    { decision with
      allowed := true
      readOnly := true
      code := some .dissolved
      capabilities := readOnlyOrganizationCapabilities decision.role }
  else
    { decision with allowed := true, capabilities := capabilitiesForPlatformRole decision.role }

/-- A user sees a key that is his own or public, and manages one that he has created. -/
def applyTokenResourcePolicy (input : PolicyInput) (resource : PolicyResource) (decision : PolicyDecision) :
    PolicyDecision :=
  let canViewAll := decision.hasCapability .viewMembersFull || decision.hasCapability .manageOrganizationTokens
  let canManageAll := !decision.readOnly && decision.hasCapability .manageOrganizationTokens
  let isResponsible := 0 < resource.responsibleUserId ∧ resource.responsibleUserId = input.currentUserId
  let isCreator := 0 < resource.ownerUserId ∧ resource.ownerUserId = input.currentUserId
  let isPublic := resource.visibility = .public
  let canView := decision.hasCapability .viewOrganizationTokens ∧
    (canViewAll ∨ (¬isPublic ∧ (isResponsible ∨ isCreator)) ∨ isPublic)
  let canManage := canManageAll ∨
    (¬decision.readOnly ∧ decision.hasCapability .viewOrganizationTokens ∧ isCreator ∧ ¬isPublic)
  { decision with
    capabilities := decision.capabilities ++ (if canView then [.viewResource] else []) ++
      if canManage then [.manageResource] else [] }

def applyOrganizationResourcePolicy (input : PolicyInput) (decision : PolicyDecision) : PolicyDecision :=
  match input.resource with
  | .none => decision
  | some resource => if decision.allowed then applyTokenResourcePolicy input resource decision else decision

def evaluateOrganizationPolicy (input : PolicyInput) : PolicyDecision :=
  let decision : PolicyDecision := { accessMode := input.accessMode, role := organizationPolicyRole input }
  if input.currentUserId = 0 ∨ input.organizationId = 0 then
    denyOrganizationPolicy decision .accessDenied
  else
    applyOrganizationResourcePolicy input <|
      match input.accessMode with
      | .workspace => evaluateWorkspaceOrganizationPolicy input decision
      | .management => evaluateManagementOrganizationPolicy input decision
      | .readOnly => evaluateReadOnlyOrganizationPolicy input decision
      | .admin => evaluateAdminOrganizationPolicy input decision
      | .other _ => denyOrganizationPolicy decision .accessDenied

/-! ## Leaving -/

theorem organizationPolicyMemberRole_of_owner {input : PolicyInput} (hpos : 0 < input.ownerUserId)
    (howner : input.ownerUserId = input.currentUserId) :
    organizationPolicyMemberRole input = .none ∨ organizationPolicyMemberRole input = .owner := by
  unfold organizationPolicyMemberRole
  split
  · exact .inl rfl
  · split_ifs with hactive
    · exact .inl rfl
    · exact .inr rfl
    · rename_i hnot
      exact absurd ⟨hpos, howner⟩ hnot

theorem exitOrganization_notMem_organizationRole {role : PolicyRole} (h : role = .none ∨ role = .owner) :
    Capability.exitOrganization ∉ capabilitiesForOrganizationRole role := by
  rcases h with rfl | rfl <;> decide

theorem exitOrganization_notMem_platformRole (role : PolicyRole) :
    Capability.exitOrganization ∉ capabilitiesForPlatformRole role := by
  cases role <;> decide

theorem exitOrganization_notMem_readOnly (role : PolicyRole) :
    Capability.exitOrganization ∉ readOnlyOrganizationCapabilities role := by
  cases role <;> decide

theorem exitOrganization_notMem_disabled {capabilities : List Capability} {canSelfEnable : Bool} :
    Capability.exitOrganization ∉ disabledManagementCapabilities capabilities canSelfEnable := by
  cases canSelfEnable <;> simp [disabledManagementCapabilities]

theorem owner_cannot_exit {input : PolicyInput} (hresource : input.resource = .none) (hpos : 0 < input.ownerUserId)
    (howner : input.ownerUserId = input.currentUserId) :
    (evaluateOrganizationPolicy input).hasCapability .exitOrganization = false := by
  have hmember : input.accessMode ≠ .admin →
      Capability.exitOrganization ∉ capabilitiesForOrganizationRole (organizationPolicyRole input) := by
    intro hmode
    apply exitOrganization_notMem_organizationRole
    rw [organizationPolicyRole, if_pos hmode]
    exact organizationPolicyMemberRole_of_owner hpos howner
  rw [PolicyDecision.hasCapability, contains_eq_mem, decide_eq_false_iff_not]
  unfold evaluateOrganizationPolicy
  simp only [applyOrganizationResourcePolicy, hresource]
  split_ifs
  · exact not_mem_nil
  · cases hmode : input.accessMode with
    | workspace =>
      have hmember := hmember (by rw [hmode]; decide)
      simp only [evaluateWorkspaceOrganizationPolicy]
      split_ifs
      all_goals first | exact not_mem_nil | exact hmember
    | management =>
      have hmember := hmember (by rw [hmode]; decide)
      simp only [evaluateManagementOrganizationPolicy]
      split_ifs
      all_goals first | exact not_mem_nil | exact exitOrganization_notMem_disabled | exact hmember
    | readOnly =>
      simp only [evaluateReadOnlyOrganizationPolicy]
      split_ifs
      all_goals first | exact not_mem_nil | exact exitOrganization_notMem_readOnly _
    | admin =>
      simp only [evaluateAdminOrganizationPolicy]
      split_ifs
      · exact exitOrganization_notMem_readOnly _
      · exact exitOrganization_notMem_platformRole _
      · exact not_mem_nil
    | other => exact not_mem_nil

end CubeRouter.Organization
