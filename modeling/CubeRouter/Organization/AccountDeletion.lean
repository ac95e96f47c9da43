import CubeRouter.Lib.Transactions
import CubeRouter.Organization.Invites
import CubeRouter.Organization.Status

/-!
# Deleting an account

`DeleteUserAccount` of `service/user_account_deletion.go` and the operations on members and keys it meets, statement by
statement. Each runs in a transaction of its own: what is read with `FOR UPDATE` stays locked until its end, other
reads see what is committed. The operations lock the row of their organization first; the deletion locks the user,
asks once for the organizations that refer to him and locks them one after the other.

The audit rows, the data that only the login uses and the caches are left out. A key of organization `0` is a personal
one.
-/

namespace CubeRouter.Organization.Deletion

open Concurrency Transactions Relational Transition

/-! ## Statements -/

inductive Row
  | user (id : Nat)
  | organization (id : Nat)
  | member (organizationId userId : Nat)
  | invite (id : Nat)
  | token (id : Nat)
  deriving DecidableEq

/-- In what way an organization refers to a user. -/
inductive Reference
  | membership
  | ownership
  | key
  deriving DecidableEq

inductive Statement
  /-- The code takes the rows it reads from the answer; those it reads `FOR UPDATE` are `rows`. -/
  | select (rows : State → List Row)
  | references (kind : Reference) (userId : Nat)
  | write (rows : State → List Row) (change : State → State → State)

def Statement.Answer : Statement → Type
  | .select _ => State
  | .references _ _ => List Nat
  | .write _ _ => Unit

def refersTo (userId : Nat) (t : Token) : Bool := ¬t.deleted ∧ (t.userId = userId ∨ t.responsibleUserId = userId)

/-- The three queries of `accountOrganizationReferencesWithTx`. -/
def referencesOf (s : State) (userId : Nat) : Reference → List Nat
  | .membership => (s.members.table.select fun m => m.userId = userId).map fun x => x.2.organizationId
  | .ownership => (s.organizations.select fun o => o.ownerUserId = userId).map Prod.fst
  | .key => (s.tokens.select fun t => t.organizationId ≠ 0 ∧ refersTo userId t).map fun x => x.2.organizationId

def store : Store State Statement Statement.Answer Row where
  locks
    | .select rows, s => rows s
    | .references _ _, _ => []
    | .write rows _, s => rows s
  answer
    | .select _, s => s
    | .references kind userId, s => referencesOf s userId kind
    | .write _ _, _ => ()
  effect
    | .select _, _, s => s
    | .references _ _, _, s => s
    | .write _ change, seen, s => change seen s

/-! ## Transactions -/

inductive AccountError
  | invalidDeletion
  | organization (e : OrganizationError)
  | activeOwner (organizationName : String)
  | organizationKeys (organizationName : String)

/-- `Error` of the errors that only the deletion has. -/
def AccountError.message : AccountError → String
  | .invalidDeletion => "invalid user account deletion request"
  | .organization e => e.message
  | .activeOwner name =>
    "organization operation blocked: organization " ++ name ++
      " still owns this account as its owner; transfer ownership first"
  | .organizationKeys name =>
    "organization operation blocked: organization " ++ name ++
      " still has keys held by this account; hand the keys over first"

def Transaction (α : Type) : Type := Prog Statement Statement.Answer (Except AccountError α)

def Transaction.andThen {α β : Type} (first : Transaction α) (rest : α → Transaction β) : Transaction β :=
  Prog.bind first fun
    | .ok a => rest a
    | .error e => .ret (.error e)

instance : Monad Transaction where
  pure a := .ret (.ok a)
  bind := Transaction.andThen

def fail {α : Type} (e : AccountError) : Transaction α := .ret (.error e)

def lift {α : Type} : Except OrganizationError α → Transaction α
  | .ok a => .ret (.ok a)
  | .error e => .ret (.error (.organization e))

def selectForUpdate (rows : State → List Row) : Transaction State := .call (.select rows) fun s => .ret (.ok s)

def select : Transaction State := selectForUpdate fun _ => []

def references (kind : Reference) (userId : Nat) : Transaction (List Nat) :=
  .call (.references kind userId) fun l => .ret (.ok l)

/-- The rows that are written, and what becomes of the tables given what the statement sees. -/
def write (rows : State → List Row) (change : State → State → State) : Transaction Unit :=
  .call (.write rows change) fun _ => .ret (.ok ())

/-! ## The operations on members and keys -/

def lockOrganization (organizationId : Nat) : Transaction Organization := do
  let s ← selectForUpdate fun _ => [.organization organizationId]
  lift (lockOrganizationForUpdate s organizationId)

def memberRow (s : State) (organizationId userId : Nat) : List Row :=
  if (s.members.find? (organizationId, userId)).isSome then [.member organizationId userId] else []

def activeMemberRow (s : State) (organizationId userId : Nat) : List Row :=
  if (s.activeMember organizationId userId).isSome then [.member organizationId userId] else []

/-- `organizationManagementDecisionForLockedOrganizationWithTx`: the role of the operator is read without a lock, his
member row with one. -/
def managementDecision (caller : Caller) (organization : Organization) (capability : Capability) :
    Transaction PolicyDecision := do
  let s ← select
  let platformRole ← lift (getUserRole s caller.operatorUserId)
  let s ← selectForUpdate fun s => activeMemberRow s caller.organizationId caller.operatorUserId
  let decision := evaluateOrganizationPolicy (s.policyInput caller platformRole organization)
  lift (ensure decision.allowed decision.deniedError)
  lift (ensure (decision.hasCapability capability)
    (if decision.code = some .dissolved then .policy .dissolved else .permissionDenied))
  pure decision

/-- The member row of a user who joins or comes back. -/
def writeMember (member : Member) : Option Member → Transaction Unit
  | some _ =>
    write (fun _ => [.member member.organizationId member.userId]) fun _ s =>
      rejoinMember s (member.organizationId, member.userId) member.role member.invitedBy
  | none =>
    write (fun _ => [.member member.organizationId member.userId]) fun _ s =>
      { s with members := s.members.insertNew member }

def addOrganizationMember (caller : Caller) (userId : Nat) (role : RequestField Role) : Transaction Unit := do
  lift (ensure (0 < caller.operatorUserId ∧ 0 < caller.organizationId ∧ 0 < userId) .invalidMemberRequest)
  let role ← lift role.memberRole
  let organization ← lockOrganization caller.organizationId
  let decision ← managementDecision caller organization .manageMembers
  lift (ensure decision.isPlatform .permissionDenied)
  let s ← select
  lift (ensure (s.users.get? userId).isSome .userNotFound)
  let s ← selectForUpdate fun s => memberRow s caller.organizationId userId
  let existing := s.members.find? (caller.organizationId, userId)
  lift (ensure (existing.all fun m => m.status ≠ .active ∧ m.status ≠ .disabled) .alreadyJoined)
  writeMember
    { organizationId := caller.organizationId, userId := userId, role := role,
      invitedBy := caller.operatorUserId } existing

def inviteRows (config : Config) (s : State) (organizationId : Nat) (token : String) : List Row :=
  (s.invites.select fun r => r.organizationId = organizationId ∧
    r.tokenHash ∈ config.inviteTokenHashes token).map fun x =>
    .invite x.1

/-- `getOrganizationActorContextWithTxForAccessMode`: nothing is locked. -/
def actorContext (caller : Caller) : Transaction OrganizationActor := do
  let s ← select
  let organization ← lift (lockOrganizationForUpdate s caller.organizationId)
  let s ← select
  let platformRole ← lift (getUserRole s caller.operatorUserId)
  let s ← select
  let decision := evaluateOrganizationPolicy (s.policyInput caller platformRole organization)
  lift (ensure decision.allowed
    (match decision.code with
    | none => .permissionDenied
    | some code => .policy code))
  pure ⟨organization, platformRole, decision⟩

/-- The transaction of `AcceptInvite`, after the organization is looked up by the token. -/
def acceptInvite (config : Config) (organizationId : Nat) (token : String) (userId : Nat) (now : Int) :
    Transaction Unit := do
  lift (ensure (token ≠ "" ∧ 0 < userId) .invalidAcceptance)
  let organization ← lockOrganization organizationId
  let s ← selectForUpdate fun s => inviteRows config s organizationId token
  match s.invites.find? fun r => r.organizationId = organizationId ∧ r.tokenHash ∈ config.inviteTokenHashes token with
  | none => fail (.organization .recordNotFound)
  | some (inviteId, invite) =>
    lift (ensure (invite.status = .pending) .inviteNotPending)
    lift (ensure (¬invite.overdue now) .inviteExpired)
    lift (ensure (organization.status ≠ .disabled) (.policy .disabled))
    lift (ensure (organization.status ≠ .dissolved) (.policy .dissolved))
    let s ← select
    match s.users.get? userId with
    | none => fail (.organization .recordNotFound)
    | some user =>
      lift (ensure (config.normalizeEmail user.email = config.normalizeEmail invite.targetEmail) .inviteEmailMismatch)
      write (fun _ => [.invite inviteId]) fun _ s =>
        { s with
          invites := s.invites.modify inviteId fun r =>
            { r with status := .accepted, acceptedUserId := userId, updatedAt := now } }
      lift (ensure (0 < organizationId) .invalidMemberRequest)
      lift (ensure (invite.role = .admin ∨ invite.role = .member) .invalidRole)
      let s ← select
      let existing := s.members.find? (organizationId, userId)
      lift (ensure (existing.all fun m => m.status ≠ .disabled) .memberDisabled)
      writeMember
        { organizationId := organizationId, userId := userId, role := invite.role,
          invitedBy := invite.inviterUserId } existing
      let _ ← actorContext ⟨userId, organizationId, .workspace⟩
      pure ()

/-- `prepareOrganizationIdempotencyWithTx` and `completeOrganizationIdempotencyWithTx` around what is done under the
key; a replay does nothing. -/
def withIdempotency (caller : Caller) (key : String) (request : OrganizationRequest) (body : Transaction Unit) :
    Transaction Unit := do
  let s ← select
  match ← lift (prepareOrganizationIdempotency s caller key request) with
  | none => pure ()
  | some _ =>
    write (fun _ => []) fun _ s =>
      { s with
        idempotency := s.idempotency.insert
          { idempotencyKey := key, organizationId := caller.organizationId, createdBy := caller.operatorUserId
            request := request } }
    body
    write (fun _ => []) fun _ s => completeOrganizationIdempotency s key

def otherOwnerRows (s : State) (organizationId ownerUserId : Nat) : List Row :=
  (s.members.table.select fun m =>
    m.organizationId = organizationId ∧ m.role = .owner ∧ m.status = .active ∧ m.userId ≠ ownerUserId).map fun x =>
      .member organizationId x.2.userId

/-- The writes of `TransferOrganizationOwner` once the rows are locked, and its check. -/
def moveOwnership (organizationId ownerUserId : Nat) : Transaction Unit := do
  write (fun _ => [.member organizationId ownerUserId]) fun _ s => setMemberRole s (organizationId, ownerUserId) .owner
  write (fun _ => [.organization organizationId]) fun _ s => setOwnerUserId s organizationId ownerUserId
  let s ← select
  lift (ensure (s.activeOwners organizationId = 1) .uniqueActiveOwnerRequired)

def transferOrganizationOwner (caller : Caller) (ownerUserId : Nat) (reason idempotencyKey : String) :
    Transaction Unit := do
  lift (ensure (0 < caller.operatorUserId ∧ 0 < caller.organizationId ∧ 0 < ownerUserId) .invalidOwnerTransferRequest)
  lift (requireOrganizationIdempotencyKey idempotencyKey)
  let organizationId := caller.organizationId
  let organization ← lockOrganization organizationId
  withIdempotency caller idempotencyKey (.ownerTransfer ownerUserId reason) do
    let decision ← managementDecision caller organization .transferOwner
    if decision.role = .platformRoot then
      let s ← selectForUpdate fun s => activeMemberRow s organizationId ownerUserId
      lift (ensure (s.activeMember organizationId ownerUserId).isSome .ownerRepairTargetRequired)
      write (fun s => otherOwnerRows s organizationId ownerUserId) fun _ s =>
        demoteOtherOwners s organizationId ownerUserId
      moveOwnership organizationId ownerUserId
    else if organization.ownerUserId = ownerUserId then
      pure ()
    else
      let s ← selectForUpdate fun s => activeMemberRow s organizationId organization.ownerUserId
      lift (ensure (s.activeMember organizationId organization.ownerUserId).isSome .activeOwnerMemberRequired)
      let s ← selectForUpdate fun s => activeMemberRow s organizationId ownerUserId
      lift (ensure ((s.activeMember organizationId ownerUserId).any fun m => m.role = .admin ∨ m.role = .member)
        .ownerTransferTargetRequired)
      write (fun _ => [.member organizationId organization.ownerUserId]) fun _ s =>
        setMemberRole s (organizationId, organization.ownerUserId) .admin
      moveOwnership organizationId ownerUserId

/-- `ensureOrganizationTokenResponsibleUserWithTx`: the query joins the user, whose row is locked with that of the
member. -/
def responsibleUser (organizationId : Nat) (organization : Organization)
    (visibility : TokenVisibility) (targetUserId : Nat)
    (failed : OrganizationError → OrganizationError) : Transaction Unit := do
  let s ← selectForUpdate fun s =>
    if activeMemberEnabled s organizationId targetUserId then
      [.member organizationId targetUserId, .user targetUserId] else []
  lift ((ensureOrganizationTokenResponsibleUser s organizationId organization visibility targetUserId).mapError failed)

/-- The keys become those of another user, each with its blockers reconciled. -/
def handOver (ids : List Nat) (toUserId : Nat) (now : Int) : Transaction Unit :=
  write (fun _ => ids.map .token) fun seen s =>
    { s with tokens := s.tokens.updateIds ids (Token.handOver seen.toSources toUserId now) }

def updateOrganizationTokenResponsibility (caller : Caller) (tokenId responsibleUserId : Nat) (now : Int) :
    Transaction Unit := do
  lift (ensure (0 < caller.operatorUserId ∧ 0 < caller.organizationId ∧ 0 < tokenId ∧ 0 < responsibleUserId)
    .invalidTokenResponsibilityRequest)
  let organizationId := caller.organizationId
  let _ ← lockOrganization organizationId
  lift (ensure caller.accessMode.isKnown (.policy .accessDenied))
  let actor ← actorContext caller
  lift (ensure (¬actor.decision.readOnly)
    (if actor.decision.code = some .dissolved then .policy .dissolved else .permissionDenied))
  lift (ensure actor.canManageAllTokens .permissionDenied)
  lift (ensure (actor.organization.status ≠ .dissolved) (.policy .dissolved))
  let s ← select
  let token ← lift (getOrganizationToken s organizationId tokenId)
  responsibleUser organizationId actor.organization token.visibility responsibleUserId id
  handOver [tokenId] responsibleUserId now

def transferPublicKeys (organizationId : Nat) (organization : Organization)
    (fromUserId transferToUserId : Nat) (now : Int) :
    Transaction Unit := do
  let held (s : State) : List Nat :=
    (s.tokens.select fun t => t.heldBy organizationId fromUserId ∧ t.visibility = .public).map Prod.fst
  let s ← selectForUpdate fun s => (held s).map .token
  if held s = [] then
    pure ()
  else
    let toUserId := transferTarget organization transferToUserId
    lift (ensure (0 < toUserId ∧ toUserId ≠ fromUserId) .activeTransferTargetRequired)
    responsibleUser organizationId organization .public toUserId fun _ => .activeTransferTargetRequired
    handOver (held s) toUserId now

/-- `transferOrganizationKeysWithTx`: those that are not public are deleted. -/
def transferKeys (organizationId : Nat) (organization : Organization) (fromUserId transferToUserId : Nat) (now : Int) :
    Transaction Unit := do
  transferPublicKeys organizationId organization fromUserId transferToUserId now
  let held (s : State) : List Nat :=
    (s.tokens.select fun t => t.heldBy organizationId fromUserId ∧ t.visibility ≠ .public).map Prod.fst
  let s ← selectForUpdate fun s => (held s).map .token
  let ids := held s
  write (fun _ => ids.map .token) fun _ s =>
    { s with tokens := s.tokens.updateIds ids fun t => { t with updatedAt := now, deleted := true } }

def removeOrganizationMember (caller : Caller) (targetUserId : Nat) (req : RemoveMemberRequest) (now : Int) :
    Transaction Unit := do
  lift (ensure (0 < caller.operatorUserId ∧ 0 < caller.organizationId ∧ 0 < targetUserId) .invalidMemberRequest)
  lift (requireOrganizationIdempotencyKey req.idempotencyKey)
  lift (ensure (req.reason ≠ "") .removeReasonRequired)
  let organizationId := caller.organizationId
  let organization ← lockOrganization organizationId
  let decision ← managementDecision caller organization .manageMembers
  let s ← selectForUpdate fun s => memberRow s organizationId targetUserId
  match s.members.find? (organizationId, targetUserId) with
  | none => fail (.organization .recordNotFound)
  | some target =>
    lift (ensureOrganizationMemberTargetAllowed decision organization target)
    withIdempotency caller req.idempotencyKey (.memberRemove targetUserId req.transferToUserId req.reason) do
      transferKeys organizationId organization targetUserId req.transferToUserId now
      write (fun _ => [.member organizationId targetUserId]) fun _ s =>
        saveMember s (organizationId, targetUserId) Member.remove Member.key_remove

/-! ## The deletion -/

def ensureAccountMayLeave (organizationId : Nat) (organization : Organization) (targetUserId : Nat) :
    Transaction Unit :=
  if organization.status = .dissolved then pure ()
  else if organization.ownerUserId = targetUserId then fail (.activeOwner organization.name)
  else do
    let s ← select
    if s.tokens.any fun _ t => t.organizationId = organizationId ∧ refersTo targetUserId t then
      fail (.organizationKeys organization.name)
    else pure ()

def blockedKeyRows (s : State) (organizationId userId : Nat) : List Row :=
  (s.tokens.select fun t => t.blockers.any (Blocker.isActive (memberDisabledKey organizationId userId))).map fun x =>
    .token x.1

/-- A round of `purgeAccountOrganizationMembershipsWithTx`. -/
def purgeMembership (targetUserId : Nat) (now : Int) (organizationId : Nat) : Transaction Unit := do
  let organization ← lockOrganization organizationId
  let s ← selectForUpdate fun s => memberRow s organizationId targetUserId
  ensureAccountMayLeave organizationId organization targetUserId
  if (s.members.find? (organizationId, targetUserId)).isSome then
    write (fun _ => [.member organizationId targetUserId]) fun _ s =>
      { s with members := s.members.deleteWhere fun m => m.key = (organizationId, targetUserId) }
    write (fun s => blockedKeyRows s organizationId targetUserId) fun seen s =>
      { s with
        tokens := clearOrganizationMemberDisabledTokenBlockers seen.toSources organizationId targetUserId now s.tokens }
  else pure ()

def purgeMemberships (targetUserId : Nat) (now : Int) : List Nat → Transaction Unit
  | [] => pure ()
  | organizationId :: rest => do
    purgeMembership targetUserId now organizationId
    purgeMemberships targetUserId now rest

def accountOrganizationReferences (targetUserId : Nat) : Transaction (List Nat) := do
  let memberships ← references .membership targetUserId
  let ownerships ← references .ownership targetUserId
  let keys ← references .key targetUserId
  pure ((memberships ++ ownerships ++ keys).dedup.mergeSort)

/-- `HardDeleteUserWithTx`: the keys go with their blockers. -/
def hardDeleteUser (userId : Nat) : Transaction Unit := do
  let s ← selectForUpdate fun _ => [.user userId]
  lift (ensure (s.users.get? userId).isSome .recordNotFound)
  let ids (s : State) : List Nat := (s.tokens.select fun t => t.userId = userId).map Prod.fst
  write (fun s => (ids s).map .token) fun seen s => { s with tokens := (ids seen).foldl Table.delete s.tokens }
  write (fun _ => [.user userId]) fun _ s => { s with users := s.users.delete userId }

/-- The transaction of `DeleteUserAccount`. -/
def deleteUserAccount (operatorUserId targetUserId : Nat) (now : Int) : Transaction Unit :=
  if operatorUserId = 0 ∨ targetUserId = 0 then fail .invalidDeletion
  else do
    let s ← selectForUpdate fun _ => [.user targetUserId]
    lift (ensure (s.users.get? targetUserId).isSome .recordNotFound)
    let organizationIds ← accountOrganizationReferences targetUserId
    purgeMemberships targetUserId now organizationIds
    hardDeleteUser targetUserId

/-! ## The service -/

inductive Call
  | deleteUserAccount (operatorUserId targetUserId : Nat) (now : Int)
  | addOrganizationMember (caller : Caller) (userId : Nat) (role : RequestField Role)
  | acceptInvite (organizationId : Nat) (token : String) (userId : Nat) (now : Int)
  | transferOrganizationOwner (caller : Caller) (ownerUserId : Nat) (reason idempotencyKey : String)
  | updateOrganizationTokenResponsibility (caller : Caller) (tokenId responsibleUserId : Nat) (now : Int)
  | removeOrganizationMember (caller : Caller) (targetUserId : Nat) (req : RemoveMemberRequest) (now : Int)

def Call.code (config : Config) : Call → Transaction Unit
  | .deleteUserAccount operatorUserId targetUserId now => Deletion.deleteUserAccount operatorUserId targetUserId now
  | .addOrganizationMember caller userId role => Deletion.addOrganizationMember caller userId role
  | .acceptInvite organizationId token userId now => Deletion.acceptInvite config organizationId token userId now
  | .transferOrganizationOwner caller ownerUserId reason idempotencyKey =>
    Deletion.transferOrganizationOwner caller ownerUserId reason idempotencyKey
  | .updateOrganizationTokenResponsibility caller tokenId responsibleUserId now =>
    Deletion.updateOrganizationTokenResponsibility caller tokenId responsibleUserId now
  | .removeOrganizationMember caller targetUserId req now =>
    Deletion.removeOrganizationMember caller targetUserId req now

def service (config : Config) : Service State Statement Statement.Answer Row (Except AccountError Unit) Call where
  toStore := store
  code := Call.code config
  commits
    | .ok _ => true
    | .error _ => false

end CubeRouter.Organization.Deletion
