import CubeRouter.Lib.Run
import CubeRouter.Organization.Tokens

/-!
# The members of an organization

The operations of `service/organization_member.go` on member rows, with `CreateOrganization`, `AcceptInvite` and
`JoinOrganizationByJoinRuleWithTx`, which make or revive rows too. Each is one transaction under the lock of the
organization row. Times, audit records and caches are left out.

A request that is retried with its idempotency key is not executed again. `OrganizationRequest` stands for the hash of
the request.
-/

namespace CubeRouter.Organization

open Relational Transition

/-! ## The state -/

inductive InviteStatus
  | pending
  | accepted
  | expired
  | revoked
  deriving DecidableEq

inductive DeliveryStatus
  | pending
  | sent
  | failed
  | rejected
  | unknown
  deriving DecidableEq

structure Invite where
  organizationId : Nat
  targetEmail : String
  role : Role := .member
  tokenHash : String
  status : InviteStatus := .pending
  inviterUserId : Nat
  acceptedUserId : Nat := 0
  updatedAt : Int
  /-- `0` is never. -/
  expiredAt : Int := 0
  deliveryStatus : DeliveryStatus := .pending
  deriving DecidableEq

/-- The operation and what is hashed of its request. -/
inductive OrganizationRequest
  | ownerTransfer (ownerUserId : Nat) (reason : String)
  | memberDisable (targetUserId transferToUserId : Nat) (role : Option Role) (reason : String)
  | memberRemove (targetUserId transferToUserId : Nat) (reason : String)
  | memberExit (transferToUserId : Nat) (reason : String)
  | dissolve (confirmName reason : String)
  | inviteForceRotate (targetEmail : String) (role : Role)
  deriving DecidableEq

inductive IdempotencyStatus
  | processing
  | succeeded
  | failed
  deriving DecidableEq

structure IdempotencyRecord where
  idempotencyKey : String
  organizationId : Nat
  createdBy : Nat
  request : OrganizationRequest
  status : IdempotencyStatus := .processing
  /-- The invite of a rotation. -/
  inviteId : Nat := 0
  expiresAt : Int := 0

structure State extends Sources where
  tokens : Table Token := .empty
  invites : Table Invite := .empty
  idempotency : Table IdempotencyRecord := .empty

/-- What the operations take from outside the tables: `NormalizeOrganizationName`, `NormalizeEmail`, `LOWER`, the two
hashes of an invite token and the lifetime of an invite. -/
structure Config where
  normalizeOrganizationName : String → String
  normalizeEmail : String → String
  lower : String → String
  hashToken : String → String
  legacyHashToken : String → String
  inviteTTLSeconds : Int

inductive OrganizationError
  | invalidRequest
  | invalidMemberRequest
  | invalidOwnerTransferRequest
  | invalidInviteRequest
  | invalidAcceptance
  | invalidJoinRequest
  | invalidRole
  | invalidMemberStatus
  | emptyUpdate
  | idempotencyKeyRequired
  | idempotencyConflict
  | removeReasonRequired
  | permissionDenied
  | policy (code : PolicyCode)
  | limitExceeded
  | nameConflict
  | userNotFound
  | alreadyJoined
  | recordNotFound
  | duplicateKey
  | ownerRepairTargetRequired
  | ownerTransferTargetRequired
  | activeOwnerMemberRequired
  | uniqueActiveOwnerRequired
  | operationForbidden
  | disabledByPlatform
  | memberDisabled
  | activeTransferTargetRequired
  | responsibleUserInactive
  | responsibleUserRole
  | invalidInviteEmail
  | inviteDeliveryInProgress
  | inviteRecipientRejected
  | inviteAlreadySent
  | inviteDeliveryNotPending
  | inviteNotPending
  | inviteExpired
  | inviteEmailMismatch
  | onlyPendingInviteRevoked
  | confirmationMismatch
  | activeLifecycleBlockers
  | invalidUser
  | invalidTokenRequest
  | invalidTokenResponsibilityRequest
  | invalidTokenStatus
  | invalidTokenVisibility
  | tokenLimitReached
  | tokenFields (message : String)
  | responsibleMemberDisabled
  | responsibleUserDisabled
  | tokenEnableForbidden

def OrganizationError.message : OrganizationError → String
  | .invalidRequest => "invalid organization request"
  | .invalidMemberRequest => "invalid organization member request"
  | .invalidOwnerTransferRequest => "invalid organization owner transfer request"
  | .invalidInviteRequest => "invalid organization invite request"
  | .invalidAcceptance => "invalid invite acceptance request"
  | .invalidJoinRequest => "invalid organization join request"
  | .invalidRole => "invalid organization member role"
  | .invalidMemberStatus => "invalid organization member status"
  | .emptyUpdate => "empty organization member update"
  | .idempotencyKeyRequired => "organization idempotency key is required"
  | .idempotencyConflict => "organization idempotency conflict"
  | .removeReasonRequired => "organization member remove reason required"
  | .permissionDenied => "permission denied"
  | .policy code => code.message
  | .limitExceeded => "organization limit exceeded"
  | .nameConflict => "organization name conflict"
  | .userNotFound => "user not found"
  | .alreadyJoined => "user already joined organization"
  | .recordNotFound => "record not found"
  | .duplicateKey => "duplicated key not allowed"
  | .ownerRepairTargetRequired => "active owner repair target required"
  | .ownerTransferTargetRequired => "active owner transfer target required"
  | .activeOwnerMemberRequired => "organization operation blocked: active owner member required"
  | .uniqueActiveOwnerRequired => "organization operation blocked: unique active owner required"
  | .operationForbidden => "organization member operation forbidden"
  | .disabledByPlatform => "organization member disabled by platform"
  | .memberDisabled => "organization member disabled"
  | .activeTransferTargetRequired => "organization operation blocked: active transfer target required"
  | .responsibleUserInactive => "responsible user must be active member"
  | .responsibleUserRole => "public token responsible user must be organization owner or admin"
  | .inviteNotPending => "invite is not pending"
  | .inviteExpired => "invite expired"
  | .inviteEmailMismatch => "invite email mismatch"
  | .invalidInviteEmail => "invalid invite email"
  | .inviteDeliveryInProgress => "organization invite delivery in progress"
  | .inviteRecipientRejected => "organization invite recipient rejected"
  | .inviteAlreadySent => "pending invite already sent"
  | .inviteDeliveryNotPending => "organization invite delivery is not pending"
  | .onlyPendingInviteRevoked => "only pending invite can be revoked"
  | .confirmationMismatch => "organization confirmation mismatch"
  | .activeLifecycleBlockers => "organization operation blocked: organization has active lifecycle blockers"
  | .invalidUser => "invalid user"
  | .invalidTokenRequest => "invalid organization token request"
  | .invalidTokenResponsibilityRequest => "invalid organization token responsibility request"
  | .invalidTokenStatus => "invalid token status"
  | .invalidTokenVisibility => "invalid token visibility"
  | .tokenLimitReached => "organization token limit reached"
  | .tokenFields message => message
  | .responsibleMemberDisabled => "organization token responsible member disabled"
  | .responsibleUserDisabled => "organization token responsible user disabled"
  | .tokenEnableForbidden => "organization token enable forbidden"

/-- A text field of a request after trimming: left empty, one of the values, or something else. -/
inductive RequestField (α : Type)
  | unset
  | value (a : α)
  | invalid
  deriving DecidableEq

/-- The role of a request that may make an admin or a member; the default is member. -/
def RequestField.memberRole : RequestField Role → Except OrganizationError Role
  | .unset => .ok .member
  | .value .admin => .ok .admin
  | .value .member => .ok .member
  | .value .owner | .invalid => .error .invalidRole

/-! ## Deciding -/

def lockOrganizationForUpdate (s : State) (organizationId : Nat) : Except OrganizationError Organization :=
  match s.organizations.get? organizationId with
  | none => .error .recordNotFound
  | some organization => .ok organization

def getUserRole (s : State) (userId : Nat) : Except OrganizationError Nat :=
  match s.users.get? userId with
  | none => .error .recordNotFound
  | some user => if user.enabled then .ok user.role else .error .permissionDenied

def State.activeMember (s : State) (organizationId userId : Nat) : Option Member :=
  (s.members.find? (organizationId, userId)).filter fun m => m.status = .active

/-- No active record of the platform. -/
def State.canSelfEnable (s : State) (organizationId : Nat) : Bool :=
  !s.disableRecords.any fun _ r => r.organizationId = organizationId ∧ r.active ∧ r.source = .platform

/-- Who asks for which organization, and how. -/
structure Caller where
  operatorUserId : Nat
  organizationId : Nat
  accessMode : AccessMode

def State.policyInput (s : State) (caller : Caller) (platformRole : Nat) (organization : Organization) :
    PolicyInput where
  currentUserId := caller.operatorUserId
  platformRole := platformRole
  organizationId := caller.organizationId
  status := organization.status
  ownerUserId := organization.ownerUserId
  canSelfEnable := s.canSelfEnable caller.organizationId
  member := (s.activeMember caller.organizationId caller.operatorUserId).map fun m => ⟨m.userId, m.role, m.status⟩
  accessMode := caller.accessMode

def PolicyDecision.deniedError (decision : PolicyDecision) : OrganizationError :=
  match decision.code with
  | none | some .accessDenied => .permissionDenied
  | some code => .policy code

def organizationManagementDecisionForLockedOrganization (s : State) (caller : Caller) (organization : Organization)
    (capability : Capability) : Except OrganizationError PolicyDecision := do
  let platformRole ← getUserRole s caller.operatorUserId
  let decision := evaluateOrganizationPolicy (s.policyInput caller platformRole organization)
  ensure decision.allowed decision.deniedError
  ensure (decision.hasCapability capability)
    (if decision.code = some .dissolved then .policy .dissolved else .permissionDenied)
  .ok decision

def lockedOrganizationManagementDecision (s : State) (caller : Caller) (capability : Capability) :
    Except OrganizationError (Organization × PolicyDecision) := do
  let organization ← lockOrganizationForUpdate s caller.organizationId
  let decision ← organizationManagementDecisionForLockedOrganization s caller organization capability
  .ok (organization, decision)

structure OrganizationActor where
  organization : Organization
  platformRole : Nat
  decision : PolicyDecision

def AccessMode.isKnown : AccessMode → Bool
  | .other _ => false
  | .workspace | .management | .readOnly | .admin => true

/-- `getOrganizationActorContextWithTxForAccessMode`, which lets a dissolved organization be read. -/
def getOrganizationActorContext (s : State) (caller : Caller) : Except OrganizationError OrganizationActor := do
  ensure (0 < caller.operatorUserId ∧ 0 < caller.organizationId) .invalidRequest
  ensure caller.accessMode.isKnown (.policy .accessDenied)
  let organization ← lockOrganizationForUpdate s caller.organizationId
  let platformRole ← getUserRole s caller.operatorUserId
  let decision := evaluateOrganizationPolicy (s.policyInput caller platformRole organization)
  ensure decision.allowed
    (match decision.code with
    | none => .permissionDenied
    | some code => .policy code)
  .ok ⟨organization, platformRole, decision⟩

/-! ## Idempotency -/

def requireOrganizationIdempotencyKey (key : String) : Except OrganizationError Unit :=
  ensure (key ≠ "") .idempotencyKeyRequired

/-- `none` is a replay; else the record is `processing`. -/
def prepareOrganizationIdempotency (s : State) (caller : Caller) (key : String) (request : OrganizationRequest) :
    Except OrganizationError (Option State) :=
  match s.idempotency.find? fun r => r.idempotencyKey = key with
  | some (_, existing) =>
    if existing.organizationId ≠ caller.organizationId ∨ existing.createdBy ≠ caller.operatorUserId ∨
        existing.request ≠ request then
      .error .idempotencyConflict
    else if existing.status ≠ .succeeded then
      .error .idempotencyConflict
    else
      .ok none
  | none =>
    .ok (some { s with
      idempotency := s.idempotency.insert
        { idempotencyKey := key, organizationId := caller.organizationId, createdBy := caller.operatorUserId
          request := request } })

def completeOrganizationIdempotency (s : State) (key : String) : State :=
  { s with
    idempotency := s.idempotency.updateWhere (fun r => r.idempotencyKey = key) fun r =>
    { r with status := .succeeded } }

def withOrganizationIdempotency (s : State) (caller : Caller) (key : String) (request : OrganizationRequest)
    (body : State → Except OrganizationError State) : Except OrganizationError State := do
  match ← prepareOrganizationIdempotency s caller key request with
  | none => .ok s
  | some prepared =>
    let s ← body prepared
    .ok (completeOrganizationIdempotency s key)

/-! ## Handing over the keys of a member -/

def ensureOrganizationTokenResponsibleUser (s : State) (organizationId : Nat) (organization : Organization)
    (visibility : TokenVisibility) (targetUserId : Nat) : Except OrganizationError Unit :=
  match s.activeMember organizationId targetUserId, s.users.get? targetUserId with
  | some member, some user =>
    if ¬user.enabled then
      .error .responsibleUserInactive
    else if visibility = .public ∧ organization.ownerUserId ≠ targetUserId ∧ member.role ≠ .admin then
      .error .responsibleUserRole
    else
      .ok ()
  | _, _ => .error .responsibleUserInactive

def Token.heldBy (organizationId userId : Nat) (t : Token) : Bool :=
  t.ofOrganization organizationId ∧ (t.userId = userId ∨ t.responsibleUserId = userId)

/-- By default the owner. -/
def transferTarget (organization : Organization) (transferToUserId : Nat) : Nat :=
  if transferToUserId = 0 then organization.ownerUserId else transferToUserId

def Token.handOver (env : Sources) (toUserId : Nat) (now : Int) (t : Token) : Token :=
  reconcileOrganizationTokenSystemBlocker env now
    { t with userId := toUserId, responsibleUserId := toUserId, updatedAt := now }

/-- The public keys of a user go to another one. -/
def transferOrganizationPublicKeys (s : State) (organizationId : Nat) (organization : Organization)
    (fromUserId transferToUserId : Nat) (now : Int) : Except OrganizationError State :=
  let held (t : Token) : Bool := t.heldBy organizationId fromUserId ∧ t.visibility = .public
  if s.tokens.any fun _ t => held t then do
    let toUserId := transferTarget organization transferToUserId
    ensure (0 < toUserId ∧ toUserId ≠ fromUserId) .activeTransferTargetRequired
    match ensureOrganizationTokenResponsibleUser s organizationId organization .public toUserId with
    | .error _ => .error .activeTransferTargetRequired
    | .ok _ => .ok { s with tokens := s.tokens.updateWhere held (Token.handOver s.toSources toUserId now) }
  else .ok s

/-- Those that are not public are deleted. -/
def transferOrganizationKeys (s : State) (organizationId : Nat) (organization : Organization)
    (fromUserId transferToUserId : Nat) (now : Int) : Except OrganizationError State := do
  let s ← transferOrganizationPublicKeys s organizationId organization fromUserId transferToUserId now
  .ok { s with
    tokens := s.tokens.updateWhere (fun t => t.heldBy organizationId fromUserId ∧ t.visibility ≠ .public) fun t =>
      { t with updatedAt := now, deleted := true } }

/-! ## The operations -/

def maxActiveOrganizationsPerUser : Nat := 20

/-- The row of a member that joins; `none` is a second row of the same user. -/
def insertMember (s : State) (member : Member) : Except OrganizationError State :=
  match s.members.insert member with
  | none => .error .duplicateKey
  | some members => .ok { s with members := members }

/-- The transaction of `CreateOrganization` with the slug that is generated for it. The hook of the row makes the
creator the owner. -/
def createOrganization (config : Config) (s : State) (operatorUserId : Nat) (name slug : String) :
    Except OrganizationError State := do
  ensure (0 < operatorUserId ∧ name ≠ "") .invalidRequest
  ensure (s.users.get? operatorUserId).isSome .recordNotFound
  ensure ((s.organizations.count fun o => o.createdBy = operatorUserId ∧ o.status ≠ .dissolved) <
    maxActiveOrganizationsPerUser) .limitExceeded
  let nameNormalized := config.normalizeOrganizationName name
  ensure (¬s.organizations.any fun _ o => o.nameNormalized = nameNormalized) .nameConflict
  ensure (¬s.organizations.any fun _ o => o.slug = slug) .duplicateKey
  let organization : Organization :=
    { name := name, nameNormalized := nameNormalized, slug := slug, ownerUserId := operatorUserId
      createdBy := operatorUserId }
  insertMember { s with organizations := s.organizations.insert organization }
    { organizationId := s.organizations.next, userId := operatorUserId, role := .owner }

/-- A row that is there already becomes active again. -/
def Member.rejoin (role : Role) (invitedBy : Nat) (m : Member) : Member :=
  { m with role := role, status := .active, disabledSource := none, invitedBy := invitedBy }

theorem Member.key_rejoin (role : Role) (invitedBy : Nat) (m : Member) : (m.rejoin role invitedBy).key = m.key := rfl

def rejoinMember (s : State) (key : Nat × Nat) (role : Role) (invitedBy : Nat) : State :=
  { s with members := s.members.modify key (Member.rejoin role invitedBy) (Member.key_rejoin role invitedBy) }

def addOrganizationMember (s : State) (caller : Caller) (userId : Nat) (role : RequestField Role) :
    Except OrganizationError State := do
  ensure (0 < caller.operatorUserId ∧ 0 < caller.organizationId ∧ 0 < userId) .invalidMemberRequest
  let role ← role.memberRole
  let (_, decision) ← lockedOrganizationManagementDecision s caller .manageMembers
  ensure decision.isPlatform .permissionDenied
  ensure (s.users.get? userId).isSome .userNotFound
  match s.members.find? (caller.organizationId, userId) with
  | some existing =>
    ensure (existing.status ≠ .active ∧ existing.status ≠ .disabled) .alreadyJoined
    .ok (rejoinMember s (caller.organizationId, userId) role caller.operatorUserId)
  | none =>
    insertMember s
      { organizationId := caller.organizationId, userId := userId, role := role, invitedBy := caller.operatorUserId }

def State.activeOwners (s : State) (organizationId : Nat) : Nat :=
  s.members.table.count fun m => m.organizationId = organizationId ∧ m.role = .owner ∧ m.status = .active

def Member.withRole (role : Role) (m : Member) : Member := { m with role := role }

theorem Member.key_withRole (role : Role) (m : Member) : (m.withRole role).key = m.key := rfl

def setMemberRole (s : State) (key : Nat × Nat) (role : Role) : State :=
  { s with members := s.members.modify key (Member.withRole role) (Member.key_withRole role) }

def setOwnerUserId (s : State) (organizationId ownerUserId : Nat) : State :=
  { s with organizations := s.organizations.modify organizationId fun o => { o with ownerUserId := ownerUserId } }

/-- `UPDATE … SET role = admin` of the other active owners. -/
def demoteOtherOwners (s : State) (organizationId ownerUserId : Nat) : State :=
  { s with
    members := s.members.updateWhere
      (fun m => m.organizationId = organizationId ∧ m.role = .owner ∧ m.status = .active ∧ m.userId ≠ ownerUserId)
      (Member.withRole .admin) (Member.key_withRole .admin) }

theorem find?_setMemberRole (s : State) (key k : Nat × Nat) (role : Role) : (setMemberRole s key role).members.find? k =
      if k = key then (s.members.find? k).map (Member.withRole role) else s.members.find? k :=
  Index.find?_modify _ _ _ _ (Member.key_withRole role)

theorem find?_demoteOtherOwners (s : State) (o v : Nat) (k : Nat × Nat) :
    (demoteOtherOwners s o v).members.find? k = (s.members.find? k).map fun m =>
      if decide (m.organizationId = o ∧ m.role = .owner ∧ m.status = .active ∧ m.userId ≠ v) then m.withRole .admin
      else m :=
  Index.find?_updateWhere _ _ _ (Member.key_withRole .admin) _

/-- The platform makes any active member the owner; the owner himself chooses among the others. -/
def transferOrganizationOwner (s : State) (caller : Caller) (ownerUserId : Nat) (reason idempotencyKey : String) :
    Except OrganizationError State := do
  ensure (0 < caller.operatorUserId ∧ 0 < caller.organizationId ∧ 0 < ownerUserId) .invalidOwnerTransferRequest
  requireOrganizationIdempotencyKey idempotencyKey
  let organizationId := caller.organizationId
  let organization ← lockOrganizationForUpdate s organizationId
  withOrganizationIdempotency s caller idempotencyKey (.ownerTransfer ownerUserId reason) fun s => do
    let decision ← organizationManagementDecisionForLockedOrganization s caller organization .transferOwner
    if decision.role = .platformRoot then
      ensure (s.activeMember organizationId ownerUserId).isSome .ownerRepairTargetRequired
      let s := demoteOtherOwners s organizationId ownerUserId
      let s := setOwnerUserId (setMemberRole s (organizationId, ownerUserId) .owner) organizationId ownerUserId
      ensure (s.activeOwners organizationId = 1) .uniqueActiveOwnerRequired
      .ok s
    else if organization.ownerUserId = ownerUserId then
      .ok s
    else
      ensure (s.activeMember organizationId organization.ownerUserId).isSome .activeOwnerMemberRequired
      ensure ((s.activeMember organizationId ownerUserId).any fun m => m.role = .admin ∨ m.role = .member)
        .ownerTransferTargetRequired
      let s := setMemberRole s (organizationId, organization.ownerUserId) .admin
      let s := setOwnerUserId (setMemberRole s (organizationId, ownerUserId) .owner) organizationId ownerUserId
      ensure (s.activeOwners organizationId = 1) .uniqueActiveOwnerRequired
      .ok s

def ensureOrganizationMemberTargetAllowed (decision : PolicyDecision) (organization : Organization)
    (target : Member) : Except OrganizationError Unit := do
  ensure (organization.ownerUserId ≠ target.userId) .operationForbidden
  ensure (¬(target.status = .disabled ∧ target.disabledSource = some .platform ∧ ¬decision.isPlatform))
    .disabledByPlatform
  ensure (¬(target.role = .owner ∧ decision.role ≠ .owner ∧ ¬decision.isPlatform)) .operationForbidden
  ensure (¬(decision.role = .admin ∧ target.role ≠ .member)) .operationForbidden

structure UpdateMemberRequest where
  role : RequestField Role := .unset
  status : RequestField MemberStatus := .unset
  transferToUserId : Nat := 0
  reason : String := ""
  idempotencyKey : String := ""

def UpdateMemberRequest.disables (req : UpdateMemberRequest) : Bool := req.status = .value .disabled

def UpdateMemberRequest.validate (req : UpdateMemberRequest) : Except OrganizationError Unit := do
  ensure (req.role = .unset ∨ req.role = .value .admin ∨ req.role = .value .member) .invalidRole
  ensure (req.status = .unset ∨ req.status = .value .active ∨ req.status = .value .disabled) .invalidMemberStatus
  ensure (¬(req.role = .unset ∧ req.status = .unset)) .emptyUpdate
  if req.disables then requireOrganizationIdempotencyKey req.idempotencyKey else .ok ()

def UpdateMemberRequest.request (req : UpdateMemberRequest) (targetUserId : Nat) : OrganizationRequest :=
  .memberDisable targetUserId (if req.role = .value .member then req.transferToUserId else 0)
    (match req.role with | .value role => some role | _ => none) req.reason

/-- A row that says owner without being the owner's becomes a member. -/
def UpdateMemberRequest.newRole (req : UpdateMemberRequest) (organization : Organization) (target : Member) : Role :=
  match req.role with
  | .value role => role
  | .unset | .invalid =>
    if target.role = .owner ∧ organization.ownerUserId ≠ target.userId then .member else target.role

def UpdateMemberRequest.newStatus (req : UpdateMemberRequest) (target : Member) : MemberStatus :=
  match req.status with
  | .value status => status
  | .unset | .invalid => target.status

def UpdateMemberRequest.newDisabledSource (req : UpdateMemberRequest) (decision : PolicyDecision) (target : Member) :
    Option MemberDisableSource :=
  if req.newStatus target = .active then
    none
  else if req.disables ∧ (decision.isPlatform ∨ target.disabledSource = none) then
    some (if decision.isPlatform then .platform else .organization)
  else target.disabledSource

def UpdateMemberRequest.apply (req : UpdateMemberRequest) (organization : Organization) (decision : PolicyDecision)
    (target : Member) : Member :=
  { target with
    role := req.newRole organization target
    status := req.newStatus target
    disabledSource := req.newDisabledSource decision target }

theorem UpdateMemberRequest.key_apply (req : UpdateMemberRequest) (organization : Organization)
    (decision : PolicyDecision) (m : Member) : (req.apply organization decision m).key = m.key := rfl

/-- The blockers of the member's keys follow his status. -/
def updateMemberDisabledTokenBlockers (env : Sources) (operatorUserId : Nat) (before after : Member) (now : Int)
    (tokens : Table Token) : Table Token :=
  if after.status = .disabled ∧ (before.status ≠ .disabled ∨ before.disabledSource ≠ after.disabledSource) then
    createOrganizationMemberDisabledTokenBlockers env after.organizationId after.userId operatorUserId
      after.disabledSource now tokens
  else if after.status = .active ∧ before.status = .disabled then
    clearOrganizationMemberDisabledTokenBlockers env after.organizationId after.userId now tokens
  else tokens

def saveMember (s : State) (key : Nat × Nat) (g : Member → Member) (hg : ∀ m, (g m).key = m.key) : State :=
  { s with members := s.members.modify key g hg }

/-- A member who is no longer an admin hands over his public keys. -/
def handOverOnDemotion (s : State) (organizationId : Nat) (organization : Organization) (target : Member)
    (req : UpdateMemberRequest) (now : Int) : Except OrganizationError State :=
  if target.role = .admin ∧ req.newRole organization target = .member then
    transferOrganizationPublicKeys s organizationId organization target.userId req.transferToUserId now
  else .ok s

def updateTargetMember (s : State) (caller : Caller) (organization : Organization) (decision : PolicyDecision)
    (target : Member) (req : UpdateMemberRequest) (now : Int) : Except OrganizationError State := do
  ensureOrganizationMemberTargetAllowed decision organization target
  let s ← handOverOnDemotion s caller.organizationId organization target req now
  let s := saveMember s (caller.organizationId, target.userId) (req.apply organization decision)
    (req.key_apply organization decision)
  .ok { s with
    tokens := updateMemberDisabledTokenBlockers s.toSources caller.operatorUserId target
      (req.apply organization decision target) now s.tokens }

def updateOrganizationMember (s : State) (caller : Caller) (targetUserId : Nat) (req : UpdateMemberRequest)
    (now : Int) : Except OrganizationError State := do
  ensure (0 < caller.operatorUserId ∧ 0 < caller.organizationId ∧ 0 < targetUserId) .invalidMemberRequest
  req.validate
  let (organization, decision) ← lockedOrganizationManagementDecision s caller .manageMembers
  match s.members.find? (caller.organizationId, targetUserId) with
  | none => .error .recordNotFound
  | some target =>
    if req.disables then
      withOrganizationIdempotency s caller req.idempotencyKey (req.request targetUserId) fun s =>
        updateTargetMember s caller organization decision target req now
    else
      updateTargetMember s caller organization decision target req now

def Member.remove (m : Member) : Member := { m with status := .removed, disabledSource := none }

theorem Member.key_remove (m : Member) : m.remove.key = m.key := rfl

def Member.exit (m : Member) : Member := { m with status := .exited }

theorem Member.key_exit (m : Member) : m.exit.key = m.key := rfl

structure RemoveMemberRequest where
  transferToUserId : Nat := 0
  reason : String := ""
  idempotencyKey : String := ""

def removeOrganizationMember (s : State) (caller : Caller) (targetUserId : Nat) (req : RemoveMemberRequest)
    (now : Int) : Except OrganizationError State := do
  ensure (0 < caller.operatorUserId ∧ 0 < caller.organizationId ∧ 0 < targetUserId) .invalidMemberRequest
  requireOrganizationIdempotencyKey req.idempotencyKey
  ensure (req.reason ≠ "") .removeReasonRequired
  let organizationId := caller.organizationId
  let (organization, decision) ← lockedOrganizationManagementDecision s caller .manageMembers
  match s.members.find? (organizationId, targetUserId) with
  | none => .error .recordNotFound
  | some target =>
    ensureOrganizationMemberTargetAllowed decision organization target
    withOrganizationIdempotency s caller req.idempotencyKey
      (.memberRemove targetUserId req.transferToUserId req.reason) fun s => do
        let s ← transferOrganizationKeys s organizationId organization targetUserId req.transferToUserId now
        .ok (saveMember s (organizationId, targetUserId) Member.remove Member.key_remove)

def exitOrganization (s : State) (caller : Caller) (req : RemoveMemberRequest) (now : Int) :
    Except OrganizationError State := do
  ensure (0 < caller.operatorUserId ∧ 0 < caller.organizationId) .invalidMemberRequest
  requireOrganizationIdempotencyKey req.idempotencyKey
  let organizationId := caller.organizationId
  let organization ← lockOrganizationForUpdate s organizationId
  withOrganizationIdempotency s caller req.idempotencyKey (.memberExit req.transferToUserId req.reason) fun s => do
    let _ ← organizationManagementDecisionForLockedOrganization s caller organization .exitOrganization
    ensure (s.activeMember organizationId caller.operatorUserId).isSome .permissionDenied
    let s ← transferOrganizationKeys s organizationId organization caller.operatorUserId req.transferToUserId now
    .ok (saveMember s (organizationId, caller.operatorUserId) Member.exit Member.key_exit)

/-- The member row of a user who joins by an invitation. -/
def reactivateOrganizationMember (s : State) (organizationId userId : Nat) (role : Role) (invitedBy : Nat) :
    Except OrganizationError State := do
  ensure (0 < organizationId ∧ 0 < userId) .invalidMemberRequest
  ensure (role = .admin ∨ role = .member) .invalidRole
  match s.members.find? (organizationId, userId) with
  | some member =>
    ensure (member.status ≠ .disabled) .memberDisabled
    .ok (rejoinMember s (organizationId, userId) role invitedBy)
  | none =>
    insertMember s { organizationId := organizationId, userId := userId, role := role, invitedBy := invitedBy }

/-- What is done after the rule of the address is found: a row that is there stays as it is. -/
def joinOrganizationByJoinRule (s : State) (userId ruleOrganizationId : Nat) : Except OrganizationError State := do
  ensure (0 < userId) .invalidJoinRequest
  match s.organizations.get? ruleOrganizationId with
  | none => .ok s
  | some organization =>
    if organization.status ≠ .active then
      .ok s
    else if (s.members.find? (ruleOrganizationId, userId)).isSome then
      .ok s
    else
      insertMember s { organizationId := ruleOrganizationId, userId := userId, role := .member }

/-! ## What the operations do -/

variable {s s' : State} {o u v : Nat} {organization : Organization} {caller : Caller} {decision : PolicyDecision}
  {now : Int} {m target : Member} {req : UpdateMemberRequest}

theorem lockOrganizationForUpdate_ok :
    lockOrganizationForUpdate s o = .ok organization ↔ s.organizations.get? o = some organization := by
  unfold lockOrganizationForUpdate
  split <;> simp_all

variable {capability : Capability} {key : String} {role : RequestField Role}

theorem organizationManagementDecision_ok
    (h : organizationManagementDecisionForLockedOrganization s caller organization capability = .ok decision) :
    ∃ platformRole, decision = evaluateOrganizationPolicy (s.policyInput caller platformRole organization) ∧
      decision.hasCapability capability = true := by
  unfold organizationManagementDecisionForLockedOrganization at h
  simp only [bind_eq_ok] at h
  obtain ⟨platformRole, -, _, -, _, hcapability, h⟩ := h
  cases h
  exact ⟨platformRole, rfl, ensure_eq_ok.mp hcapability⟩

theorem lockedOrganizationManagementDecision_ok
    (h : lockedOrganizationManagementDecision s caller capability = .ok (organization, decision)) :
    s.organizations.get? caller.organizationId = some organization ∧
      organizationManagementDecisionForLockedOrganization s caller organization capability = .ok decision := by
  obtain ⟨_, horganization, h⟩ := bind_eq_ok.mp h
  obtain ⟨_, hdecision, h⟩ := bind_eq_ok.mp h
  cases h
  exact ⟨lockOrganizationForUpdate_ok.mp horganization, hdecision⟩

theorem transferOrganizationPublicKeys_ok (h : transferOrganizationPublicKeys s o organization u v now = .ok s') :
    s' = s ∨ (0 < transferTarget organization v ∧ transferTarget organization v ≠ u ∧
      s' = { s with
        tokens := s.tokens.updateWhere (fun t => t.heldBy o u ∧ t.visibility = .public)
          (Token.handOver s.toSources (transferTarget organization v) now) }) := by
  simp only [transferOrganizationPublicKeys] at h
  split_ifs at h
  · obtain ⟨_, htarget, h⟩ := bind_eq_ok.mp h
    obtain ⟨hpos, hne⟩ := ensure_eq_ok.mp htarget
    split at h
    · cases h
    · cases h
      exact .inr ⟨hpos, hne, rfl⟩
  · cases h
    exact .inl rfl

theorem transferOrganizationPublicKeys_frame (h : transferOrganizationPublicKeys s o organization u v now = .ok s') :
    ∃ tokens, s' = { s with tokens := tokens } := by
  rcases transferOrganizationPublicKeys_ok h with rfl | ⟨-, -, rfl⟩
  · exact ⟨s'.tokens, rfl⟩
  · exact ⟨_, rfl⟩

theorem transferOrganizationKeys_ok (h : transferOrganizationKeys s o organization u v now = .ok s') :
    ∃ s1, transferOrganizationPublicKeys s o organization u v now = .ok s1 ∧
      s' = { s1 with
        tokens := s1.tokens.updateWhere (fun t => t.heldBy o u ∧ t.visibility ≠ .public) fun t =>
          { t with updatedAt := now, deleted := true } } := by
  obtain ⟨s1, hpublic, h⟩ := bind_eq_ok.mp h
  cases h
  exact ⟨s1, hpublic, rfl⟩

theorem transferOrganizationKeys_frame (h : transferOrganizationKeys s o organization u v now = .ok s') :
    ∃ tokens, s' = { s with tokens := tokens } := by
  obtain ⟨_, hpublic, rfl⟩ := transferOrganizationKeys_ok h
  obtain ⟨_, rfl⟩ := transferOrganizationPublicKeys_frame hpublic
  exact ⟨_, rfl⟩

theorem withOrganizationIdempotency_ok {request : OrganizationRequest}
    {body : State → Except OrganizationError State}
    (h : withOrganizationIdempotency s caller key request body = .ok s') :
    s' = s ∨ ∃ i i' r, body { s with idempotency := i } = .ok r ∧ s' = { r with idempotency := i' } := by
  obtain ⟨prepared, hprepared, h⟩ := bind_eq_ok.mp h
  cases prepared with
  | none =>
    cases h
    exact .inl rfl
  | some =>
    obtain ⟨r, hbody, h⟩ := bind_eq_ok.mp h
    cases h
    refine .inr ?_
    unfold prepareOrganizationIdempotency at hprepared
    split at hprepared
    · split_ifs at hprepared
      cases hprepared
    · cases hprepared
      exact ⟨_, _, r, hbody, rfl⟩

theorem insertMember_ok (h : insertMember s m = .ok s') :
    ∃ members, s.members.insert m = some members ∧ s' = { s with members := members } := by
  unfold insertMember at h
  split at h
  · cases h
  · rename_i members hinsert
    cases h
    exact ⟨members, hinsert, rfl⟩

theorem createOrganization_ok {config : Config} {name slug : String}
    (h : createOrganization config s u name slug = .ok s') :
    0 < u ∧ ∃ organization members, organization.ownerUserId = u ∧
      s.members.insert { organizationId := s.organizations.next, userId := u, role := .owner } = some members ∧
      s' = { s with organizations := s.organizations.insert organization, members := members } := by
  unfold createOrganization at h
  simp only [bind_eq_ok] at h
  obtain ⟨_, hrequest, _, -, _, -, _, -, _, -, h⟩ := h
  obtain ⟨members, hinsert, rfl⟩ := insertMember_ok h
  exact ⟨(ensure_eq_ok.mp hrequest).1, _, members, rfl, hinsert, rfl⟩

theorem memberRole_ok {r : Role} (h : role.memberRole = .ok r) : r ≠ .owner := by
  unfold RequestField.memberRole at h
  split at h <;> cases h <;> decide

/-- A user joins: the row he has becomes active, or a new row is made. -/
inductive Joins (s s' : State) (o u : Nat) (role : Role) (invitedBy : Nat) : Prop
  | rejoined (m : Member) (hrow : s.members.find? (o, u) = some m) (hs : s' = rejoinMember s (o, u) role invitedBy)
  | joined (members : Index Member.key)
    (hinsert : s.members.insert { organizationId := o, userId := u, role := role, invitedBy := invitedBy } =
      some members)
    (hs : s' = { s with members := members })

theorem addOrganizationMember_ok (h : addOrganizationMember s caller u role = .ok s') :
    (∃ organization, s.organizations.get? caller.organizationId = some organization) ∧
      (∀ m, s.members.find? (caller.organizationId, u) = some m → m.status ≠ .active) ∧
      ∃ r, r ≠ .owner ∧ Joins s s' caller.organizationId u r caller.operatorUserId := by
  unfold addOrganizationMember at h
  simp only [bind_eq_ok] at h
  obtain ⟨_, -, r, hrole, ⟨organization, _⟩, hlocked, _, -, _, -, h⟩ := h
  have horganization := (lockedOrganizationManagementDecision_ok hlocked).1
  refine ⟨⟨organization, horganization⟩, ?_⟩
  cases hrow : s.members.find? (caller.organizationId, u) with
  | none =>
    simp only [hrow] at h
    obtain ⟨members, hinsert, rfl⟩ := insertMember_ok h
    exact ⟨fun m hm => (by cases hm), r, memberRole_ok hrole, .joined members hinsert rfl⟩
  | some existing =>
    simp only [hrow] at h
    obtain ⟨_, hleft, h⟩ := bind_eq_ok.mp h
    cases h
    refine ⟨fun m hm => ?_, r, memberRole_ok hrole, .rejoined existing hrow rfl⟩
    cases hm
    exact (ensure_eq_ok.mp hleft).1

theorem activeMember_eq_some : s.activeMember o u = some m ↔ s.members.find? (o, u) = some m ∧ m.status = .active := by
  rw [State.activeMember, Option.filter_eq_some_iff, decide_eq_true_iff]

/-- What a transfer writes: nothing, the role of every active owner, or the roles of the two who are concerned. -/
inductive Transfers (s s' : State) (o v : Nat) (organization : Organization) : Prop
  | unchanged (hs : s' = s)
  | byPlatform (m : Member) (htarget : s.activeMember o v = some m)
    (hs : s' = setOwnerUserId (setMemberRole (demoteOtherOwners s o v) (o, v) .owner) o v)
  | byOwner (m : Member) (hother : organization.ownerUserId ≠ v) (htarget : s.activeMember o v = some m)
    (hs : s' = setOwnerUserId (setMemberRole (setMemberRole s (o, organization.ownerUserId) .admin) (o, v) .owner) o v)

theorem transferOrganizationOwner_ok {reason : String} (h : transferOrganizationOwner s caller v reason key = .ok s') :
    ∃ organization, s.organizations.get? caller.organizationId = some organization ∧
      ∃ i s1, s' = { s1 with idempotency := i } ∧ Transfers s s1 caller.organizationId v organization := by
  unfold transferOrganizationOwner at h
  simp only [bind_eq_ok] at h
  obtain ⟨_, -, _, -, organization, horganization, h⟩ := h
  refine ⟨organization, lockOrganizationForUpdate_ok.mp horganization, ?_⟩
  rcases withOrganizationIdempotency_ok h with rfl | ⟨i, i', r, hbody, rfl⟩
  · exact ⟨s'.idempotency, s', rfl, .unchanged rfl⟩
  obtain ⟨_, -, hbody⟩ := bind_eq_ok.mp hbody
  split_ifs at hbody with hroot hsame
  · obtain ⟨_, htarget, hbody⟩ := bind_eq_ok.mp hbody
    obtain ⟨_, -, hbody⟩ := bind_eq_ok.mp hbody
    cases hbody
    obtain ⟨m, hm⟩ := Option.isSome_iff_exists.mp (ensure_eq_ok.mp htarget)
    refine ⟨i', setOwnerUserId (setMemberRole (demoteOtherOwners s _ v) (_, v) .owner) _ v, rfl, .byPlatform m hm rfl⟩
  · cases hbody
    exact ⟨i', s, rfl, .unchanged rfl⟩
  · simp only [bind_eq_ok] at hbody
    obtain ⟨_, -, _, htarget, _, -, hbody⟩ := hbody
    cases hbody
    obtain ⟨m, hm, -⟩ := (Option.any_eq_true _ _).mp (ensure_eq_ok.mp htarget)
    exact ⟨i', setOwnerUserId (setMemberRole (setMemberRole s (_, organization.ownerUserId) .admin) (_, v) .owner) _ v,
      rfl, .byOwner m hsame hm rfl⟩

theorem ensureOrganizationMemberTargetAllowed_ok {u : Unit}
    (h : ensureOrganizationMemberTargetAllowed decision organization target = .ok u) :
    organization.ownerUserId ≠ target.userId := by
  obtain ⟨_, hother, -⟩ := bind_eq_ok.mp h
  exact ensure_eq_ok.mp hother

theorem userId_of_find? {members : Index Member.key} (h : members.find? (o, u) = some m) :
    m.organizationId = o ∧ m.userId = u := by
  have hkey := Index.key_of_find? h
  exact ⟨congrArg Prod.fst hkey, congrArg Prod.snd hkey⟩

theorem UpdateMemberRequest.validate_ok {u : Unit} (h : req.validate = .ok u) :
    (req.role = .unset ∨ req.role = .value .admin ∨ req.role = .value .member) ∧
      (req.status = .unset ∨ req.status = .value .active ∨ req.status = .value .disabled) := by
  obtain ⟨_, hrole, h⟩ := bind_eq_ok.mp h
  obtain ⟨_, hstatus, -⟩ := bind_eq_ok.mp h
  exact ⟨ensure_eq_ok.mp hrole, ensure_eq_ok.mp hstatus⟩

theorem UpdateMemberRequest.newRole_ne_owner {u : Unit} (h : req.validate = .ok u)
    (hother : organization.ownerUserId ≠ target.userId) : req.newRole organization target ≠ .owner := by
  obtain ⟨hrole, -⟩ := UpdateMemberRequest.validate_ok h
  unfold UpdateMemberRequest.newRole
  rcases hrole with hrole | hrole | hrole
  · rw [hrole]
    split_ifs with howner
    · decide
    · intro htarget
      exact howner ⟨htarget, hother⟩
  · simp [hrole]
  · simp [hrole]

theorem updateTargetMember_allowed (h : updateTargetMember s caller organization decision target req now = .ok s') :
    ensureOrganizationMemberTargetAllowed decision organization target = .ok () := by
  obtain ⟨_, hallowed, -⟩ := bind_eq_ok.mp h
  exact hallowed

theorem updateTargetMember_ok (h : updateTargetMember s caller organization decision target req now = .ok s') :
    organization.ownerUserId ≠ target.userId ∧
      ∃ s1 s2, (s1 = s ∨ transferOrganizationPublicKeys s caller.organizationId organization target.userId
          req.transferToUserId now = .ok s1) ∧
        s2 = saveMember s1 (caller.organizationId, target.userId) (req.apply organization decision)
          (req.key_apply organization decision) ∧
        s' = { s2 with
          tokens := updateMemberDisabledTokenBlockers s2.toSources caller.operatorUserId target
            (req.apply organization decision target) now s2.tokens } := by
  refine ⟨ensureOrganizationMemberTargetAllowed_ok (updateTargetMember_allowed h), ?_⟩
  obtain ⟨_, -, h⟩ := bind_eq_ok.mp h
  obtain ⟨s1, htransfer, h⟩ := bind_eq_ok.mp h
  cases h
  refine ⟨s1, _, ?_, rfl, rfl⟩
  unfold handOverOnDemotion at htransfer
  split_ifs at htransfer
  · exact .inr htransfer
  · cases htransfer
    exact .inl rfl

theorem updateOrganizationMember_ok (h : updateOrganizationMember s caller u req now = .ok s') :
    s' = s ∨ ∃ organization decision target i i' s1, req.validate = .ok () ∧
      lockedOrganizationManagementDecision s caller .manageMembers = .ok (organization, decision) ∧
        s.members.find? (caller.organizationId, u) = some target ∧
        updateTargetMember { s with idempotency := i } caller organization decision target req now = .ok s1 ∧
        s' = { s1 with idempotency := i' } := by
  unfold updateOrganizationMember at h
  simp only [bind_eq_ok] at h
  obtain ⟨_, -, _, hvalid, ⟨organization, decision⟩, hlocked, h⟩ := h
  cases hrow : s.members.find? (caller.organizationId, u) with
  | none =>
    simp only [hrow] at h
    cases h
  | some target =>
    simp only [hrow] at h
    split_ifs at h
    · rcases withOrganizationIdempotency_ok h with rfl | ⟨i, i', r, hbody, rfl⟩
      · exact .inl rfl
      · exact .inr ⟨organization, decision, target, i, i', r, hvalid, hlocked, rfl, hbody, rfl⟩
    · exact .inr ⟨organization, decision, target, s.idempotency, s'.idempotency, s', hvalid, hlocked, rfl, h, rfl⟩

theorem removeOrganizationMember_ok {req : RemoveMemberRequest}
    (h : removeOrganizationMember s caller u req now = .ok s') : ∃ organization decision target,
      lockedOrganizationManagementDecision s caller .manageMembers = .ok (organization, decision) ∧
      s.members.find? (caller.organizationId, u) = some target ∧
      ensureOrganizationMemberTargetAllowed decision organization target = .ok () ∧
      (s' = s ∨ ∃ i i' s1, transferOrganizationKeys { s with idempotency := i } caller.organizationId organization u
          req.transferToUserId now = .ok s1 ∧
        s' = { saveMember s1 (caller.organizationId, u) Member.remove Member.key_remove with idempotency := i' }) := by
  unfold removeOrganizationMember at h
  simp only [bind_eq_ok] at h
  obtain ⟨_, -, _, -, _, -, ⟨organization, decision⟩, hlocked, h⟩ := h
  cases hrow : s.members.find? (caller.organizationId, u) with
  | none =>
    simp only [hrow] at h
    cases h
  | some target =>
    simp only [hrow] at h
    obtain ⟨_, hallowed, h⟩ := bind_eq_ok.mp h
    refine ⟨organization, decision, target, hlocked, rfl, hallowed, ?_⟩
    rcases withOrganizationIdempotency_ok h with rfl | ⟨i, i', r, hbody, rfl⟩
    · exact .inl rfl
    · obtain ⟨s1, hkeys, hbody⟩ := bind_eq_ok.mp hbody
      cases hbody
      exact .inr ⟨i, i', s1, hkeys, rfl⟩

theorem removeOrganizationMember_named {req : RemoveMemberRequest}
    (h : removeOrganizationMember s caller u req now = .ok s') : req.idempotencyKey ≠ "" ∧ req.reason ≠ "" := by
  unfold removeOrganizationMember requireOrganizationIdempotencyKey at h
  simp only [bind_eq_ok] at h
  obtain ⟨_, -, _, hkey, _, hreason, -⟩ := h
  exact ⟨ensure_eq_ok.mp hkey, ensure_eq_ok.mp hreason⟩

theorem exitOrganization_ok {req : RemoveMemberRequest} (h : exitOrganization s caller req now = .ok s') :
    s' = s ∨ ∃ organization decision m i i' s1,
      s.organizations.get? caller.organizationId = some organization ∧ 0 < caller.operatorUserId ∧
      organizationManagementDecisionForLockedOrganization s caller organization .exitOrganization = .ok decision ∧
      s.activeMember caller.organizationId caller.operatorUserId = some m ∧
      transferOrganizationKeys { s with idempotency := i } caller.organizationId organization caller.operatorUserId
          req.transferToUserId now = .ok s1 ∧
        s' = { saveMember s1 (caller.organizationId, caller.operatorUserId) Member.exit Member.key_exit with
          idempotency := i' } := by
  unfold exitOrganization at h
  simp only [bind_eq_ok] at h
  obtain ⟨_, hrequest, _, -, organization, horganization, h⟩ := h
  rcases withOrganizationIdempotency_ok h with rfl | ⟨i, i', r, hbody, rfl⟩
  · exact .inl rfl
  · simp only [bind_eq_ok] at hbody
    obtain ⟨decision, hdecision, _, hactive, s1, hkeys, hbody⟩ := hbody
    cases hbody
    obtain ⟨m, hm⟩ := Option.isSome_iff_exists.mp (ensure_eq_ok.mp hactive)
    exact .inr ⟨organization, decision, m, i, i', s1, lockOrganizationForUpdate_ok.mp horganization,
      (ensure_eq_ok.mp hrequest).1, hdecision, hm, hkeys, rfl⟩

theorem reactivateOrganizationMember_ok {role : Role} {invitedBy : Nat}
    (h : reactivateOrganizationMember s o u role invitedBy = .ok s') :
    role ≠ .owner ∧ (∀ m, s.members.find? (o, u) = some m → m.status ≠ .disabled) ∧ Joins s s' o u role invitedBy := by
  obtain ⟨_, -, h⟩ := bind_eq_ok.mp h
  obtain ⟨_, hrole, h⟩ := bind_eq_ok.mp h
  have hrole : role ≠ .owner := by
    rcases ensure_eq_ok.mp hrole with rfl | rfl <;> decide
  refine ⟨hrole, ?_⟩
  cases hrow : s.members.find? (o, u) with
  | none =>
    simp only [hrow] at h
    obtain ⟨members, hinsert, rfl⟩ := insertMember_ok h
    exact ⟨fun m hm => (by cases hm), .joined members hinsert rfl⟩
  | some member =>
    simp only [hrow] at h
    obtain ⟨_, hstatus, h⟩ := bind_eq_ok.mp h
    cases h
    refine ⟨fun m hm => ?_, .rejoined member hrow rfl⟩
    cases hm
    exact ensure_eq_ok.mp hstatus

theorem joinOrganizationByJoinRule_ok (h : joinOrganizationByJoinRule s u o = .ok s') :
    s' = s ∨ ((∃ organization, s.organizations.get? o = some organization) ∧ s.members.find? (o, u) = none ∧
      Joins s s' o u .member 0) := by
  obtain ⟨_, -, h⟩ := bind_eq_ok.mp h
  cases horganization : s.organizations.get? o with
  | none =>
    simp only [horganization] at h
    cases h
    exact .inl rfl
  | some organization =>
    simp only [horganization] at h
    split_ifs at h with hactive hrow
    · cases h
      exact .inl rfl
    · cases h
      exact .inl rfl
    · obtain ⟨members, hinsert, rfl⟩ := insertMember_ok h
      exact .inr ⟨⟨organization, rfl⟩, by simpa using hrow, .joined members hinsert rfl⟩

end CubeRouter.Organization
