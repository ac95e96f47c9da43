import CubeRouter.Lib.Index
import CubeRouter.Organization.Policy

/-!
# Organization keys and their blockers

The keys of an organization (`model/token.go` with scope `organization`) and the reasons that keep one from being used
(`service/organization_token_blocker.go`). A blocker is created for a key by a disabled organization, member or user, by
the dissolution of the organization or by hand, and is cleared when its source ends. `reconcile` makes the status of a
key out of its blockers; it also clears those whose source has ended meanwhile.

A row of `Token` carries its blockers in the order of their ids; every query of the source is by the key.
-/

namespace CubeRouter.Organization

open Relational

/-! ## The tables -/

structure User where
  role : Nat := 1
  enabled : Bool := true
  email : String := ""

structure Organization where
  name : String
  nameNormalized : String
  slug : String
  status : OrganizationStatus := .active
  ownerUserId : Nat
  createdBy : Nat
  deriving DecidableEq

/-- `OrganizationMemberDisableSource…`. -/
inductive MemberDisableSource
  | organization
  | platform
  deriving DecidableEq

structure Member where
  organizationId : Nat
  userId : Nat
  role : Role
  status : MemberStatus := .active
  disabledSource : Option MemberDisableSource := none
  invitedBy : Nat := 0
  deriving DecidableEq

/-- `idx_org_user`. -/
def Member.key (m : Member) : Nat × Nat := (m.organizationId, m.userId)

/-- `OrganizationDisableSource…`. -/
inductive DisableSource
  | self
  | platform
  deriving DecidableEq

structure DisableRecord where
  organizationId : Nat
  source : DisableSource
  active : Bool := true
  disabledByUserId : Nat

/-- `common.TokenStatus…`. -/
inductive TokenStatus
  | enabled
  | disabled
  | expired
  | exhausted
  deriving DecidableEq

inductive BlockerReason
  | manualDisabled
  | organizationSelf
  | organizationPlatform
  | organizationDisabled
  | memberDisabled
  | userPlatformDisabled
  | organizationDissolved
  deriving DecidableEq

inductive BlockerRefType
  | disableRecord
  | member
  | organization
  | operator
  | user
  deriving DecidableEq

structure BlockerKey where
  organizationId : Nat
  reason : BlockerReason
  refType : BlockerRefType
  refId : Nat
  deriving DecidableEq

structure Blocker extends BlockerKey where
  active : Bool := true
  /-- `0` is none. -/
  previousStatus : Option TokenStatus
  operatorUserId : Nat
  clearanceLevel : Nat
  disabledAt : Int
  deriving DecidableEq

structure Token where
  organizationId : Nat
  userId : Nat
  responsibleUserId : Nat := 0
  creatorUserId : Nat := 0
  visibility : TokenVisibility := .private
  status : TokenStatus := .enabled
  /-- `0` is none. -/
  previousStatus : Option TokenStatus := none
  disabledBySystems : Bool := false
  systemDisabledReason : Option BlockerReason := none
  systemDisabledRefId : Nat := 0
  systemDisabledAt : Int := 0
  updatedAt : Int := 0
  /-- Deleted softly. -/
  deleted : Bool := false
  blockers : List Blocker := []
  deriving DecidableEq

/-- The tables that decide whether the source of a blocker is still there. -/
structure Sources where
  users : Table User := .empty
  organizations : Table Organization := .empty
  members : Index Member.key := .empty
  disableRecords : Table DisableRecord := .empty

/-! ## The status of a key -/

def Token.responsible (t : Token) : Nat := if t.responsibleUserId = 0 then t.userId else t.responsibleUserId

def Token.activeBlockers (t : Token) : List Blocker := t.blockers.filter Blocker.active

def organizationTokenBlockerMatchesCurrentResponsibility (t : Token) (b : BlockerKey) : Bool :=
  ¬t.deleted ∧ t.organizationId = b.organizationId ∧ t.responsible = b.refId

def Sources.memberDisabled (env : Sources) (organizationId userId : Nat) : Bool :=
  (env.members.find? (organizationId, userId)).any fun m => m.status = .disabled

def Sources.userDisabled (env : Sources) (userId : Nat) : Bool := (env.users.get? userId).any fun u => ¬u.enabled

def organizationTokenBlockerSourceStillActive (env : Sources) (t : Token) (b : BlockerKey) : Bool :=
  match b.reason with
  | .memberDisabled =>
    organizationTokenBlockerMatchesCurrentResponsibility t b && env.memberDisabled b.organizationId b.refId
  | .userPlatformDisabled =>
    organizationTokenBlockerMatchesCurrentResponsibility t b && env.userDisabled b.refId
  | .organizationSelf | .organizationPlatform =>
    (env.disableRecords.get? b.refId).any fun r => r.organizationId = b.organizationId ∧ r.active
  | .organizationDisabled => env.disableRecords.any fun _ r => r.organizationId = b.organizationId ∧ r.active
  | .manualDisabled | .organizationDissolved => true

def organizationTokenPreviousStatusForNewBlocker (t : Token) : TokenStatus :=
  (t.activeBlockers.findSome? Blocker.previousStatus).getD (t.previousStatus.getD t.status)

/-- Of an active blocker with the same key at most the clearance is raised. -/
def ensureOrganizationTokenSystemBlocker (key : BlockerKey) (operatorUserId clearanceLevel : Nat) (now : Int)
    (t : Token) : Token :=
  let existing (b : Blocker) : Bool := b.active ∧ b.toBlockerKey = key
  if t.blockers.any existing then
    { t with
      blockers := t.blockers.modify (t.blockers.findIdx existing) fun b =>
        if b.clearanceLevel < clearanceLevel then
          { b with operatorUserId := operatorUserId, clearanceLevel := clearanceLevel }
        else b }
  else
    { t with
      blockers := t.blockers ++
        [{ toBlockerKey := key
           previousStatus := some (organizationTokenPreviousStatusForNewBlocker t)
           operatorUserId := operatorUserId
           clearanceLevel := clearanceLevel
           disabledAt := now }] }

def BlockerReason.priority : BlockerReason → Nat
  | .organizationDissolved => 100
  | .organizationPlatform | .userPlatformDisabled => 80
  | .organizationSelf | .organizationDisabled => 60
  | .memberDisabled => 40
  | .manualDisabled => 20

/-- The first of the blockers with the highest priority. -/
def selectedOrganizationTokenSystemBlocker (first : Blocker) (rest : List Blocker) : Blocker :=
  rest.foldl (fun selected b => if selected.reason.priority < b.reason.priority then b else selected) first

def BlockerReason.isSystem (reason : BlockerReason) : Bool := reason ≠ .manualDisabled

/-- The blockers after those whose source has ended are cleared. -/
def Token.clearStale (env : Sources) (t : Token) : Token :=
  { t with
    blockers := t.blockers.map fun b =>
      if b.active ∧ ¬organizationTokenBlockerSourceStillActive env t b.toBlockerKey then { b with active := false }
      else b }

/-- A key without blockers gets back the status it had; nothing is written when that is the one it has. -/
def Token.restore (now : Int) (t : Token) : Token :=
  let restoredStatus := t.previousStatus.getD t.status
  if t.status = restoredStatus ∧ ¬t.disabledBySystems ∧ t.systemDisabledReason = none ∧ t.systemDisabledRefId = 0 ∧
      t.systemDisabledAt = 0 ∧ t.previousStatus = none then
    t
  else
    { t with
      status := restoredStatus
      disabledBySystems := false
      systemDisabledReason := none
      systemDisabledRefId := 0
      systemDisabledAt := 0
      previousStatus := none
      updatedAt := now }

def Token.block (now : Int) (first : Blocker) (rest : List Blocker) (t : Token) : Token :=
  let blocker := selectedOrganizationTokenSystemBlocker first rest
  let disabledBySystems := blocker.reason.isSystem
  { t with
    status := .disabled
    disabledBySystems := disabledBySystems
    systemDisabledReason := if disabledBySystems then some blocker.reason else none
    systemDisabledRefId := if disabledBySystems then blocker.refId else 0
    systemDisabledAt := if disabledBySystems then blocker.disabledAt else 0
    previousStatus := some (first.previousStatus.getD t.status)
    updatedAt := now }

def reconcileOrganizationTokenSystemBlocker (env : Sources) (now : Int) (t : Token) : Token :=
  let t := t.clearStale env
  match t.activeBlockers with
  | [] => t.restore now
  | first :: rest => t.block now first rest

/-! ## Creating and clearing the blockers of a source -/

def clearanceMember : Nat := 10
def clearanceOrganizationAdmin : Nat := 50
def clearancePlatform : Nat := 80
def clearanceTerminal : Nat := 100

def DisableSource.reason : DisableSource → BlockerReason
  | .platform => .organizationPlatform
  | .self => .organizationSelf

def DisableSource.clearance : DisableSource → Nat
  | .platform => clearancePlatform
  | .self => clearanceOrganizationAdmin

def memberDisableClearance : Option MemberDisableSource → Nat
  | some .platform => clearancePlatform
  | some .organization | none => clearanceOrganizationAdmin

def Token.ofOrganization (organizationId : Nat) (t : Token) : Bool := ¬t.deleted ∧ t.organizationId = organizationId

def reconcileOrganizationTokenSystemBlockers (env : Sources) (organizationId : Nat) (now : Int)
    (tokens : Table Token) : Table Token :=
  tokens.updateWhere (Token.ofOrganization organizationId) (reconcileOrganizationTokenSystemBlocker env now)

def createOrganizationDisabledTokenBlockers (env : Sources) (recordId : Nat) (record : DisableRecord) (now : Int)
    (tokens : Table Token) : Table Token :=
  reconcileOrganizationTokenSystemBlockers env record.organizationId now <|
    tokens.updateWhere (Token.ofOrganization record.organizationId) <|
      ensureOrganizationTokenSystemBlocker
        { organizationId := record.organizationId, reason := record.source.reason, refType := .disableRecord
          refId := recordId } record.disabledByUserId record.source.clearance now

def createOrganizationDissolvedTokenBlockers (env : Sources) (organizationId operatorUserId : Nat) (now : Int)
    (tokens : Table Token) : Table Token :=
  reconcileOrganizationTokenSystemBlockers env organizationId now <|
    tokens.updateWhere (Token.ofOrganization organizationId) <|
      ensureOrganizationTokenSystemBlocker
        { organizationId := organizationId, reason := .organizationDissolved, refType := .organization
          refId := organizationId } operatorUserId clearanceTerminal now

def memberDisabledKey (organizationId userId : Nat) : BlockerKey where
  organizationId := organizationId
  reason := .memberDisabled
  refType := .member
  refId := userId

/-- The keys of the member and those he is responsible for. -/
def createOrganizationMemberDisabledTokenBlockers (env : Sources) (organizationId userId operatorUserId : Nat)
    (disableSource : Option MemberDisableSource) (now : Int) (tokens : Table Token) : Table Token :=
  tokens.updateWhere
    (fun t => t.ofOrganization organizationId ∧ (t.userId = userId ∨ t.responsibleUserId = userId))
    fun t => reconcileOrganizationTokenSystemBlocker env now <|
      ensureOrganizationTokenSystemBlocker (memberDisabledKey organizationId userId) operatorUserId
        (memberDisableClearance disableSource) now t

def Blocker.isActive (key : BlockerKey) (b : Blocker) : Bool := b.active ∧ b.toBlockerKey = key

def Token.clearBlockers (p : Blocker → Bool) (t : Token) : Token :=
  { t with blockers := t.blockers.map fun b => if p b then { b with active := false } else b }

/-- Only the keys that were blocked are reconciled. -/
def clearOrganizationMemberDisabledTokenBlockers (env : Sources) (organizationId userId : Nat) (now : Int)
    (tokens : Table Token) : Table Token :=
  let isBlocker := Blocker.isActive (memberDisabledKey organizationId userId)
  tokens.updateWhere (fun t => t.blockers.any isBlocker) fun t =>
    let t := t.clearBlockers isBlocker
    if t.ofOrganization organizationId then reconcileOrganizationTokenSystemBlocker env now t else t

def clearOrganizationTokenSystemBlockers (organizationId : Nat) (reason : BlockerReason) (refType : BlockerRefType)
    (refIds : List Nat) (tokens : Table Token) : Table Token :=
  tokens.updateWhere (fun _ => true) <| Token.clearBlockers fun b =>
    b.active ∧ b.organizationId = organizationId ∧ b.reason = reason ∧ b.refType = refType ∧ b.refId ∈ refIds

def isUserBlocker (userId : Nat) (b : Blocker) : Bool :=
  b.active ∧ b.reason = .userPlatformDisabled ∧ b.refType = .user ∧ b.refId = userId

def createOrganizationUserPlatformDisabledTokenBlockers (env : Sources) (userId operatorUserId : Nat) (now : Int)
    (tokens : Table Token) : Table Token :=
  tokens.updateWhere (fun t => ¬t.deleted ∧ t.responsible = userId) fun t =>
    reconcileOrganizationTokenSystemBlocker env now <|
      ensureOrganizationTokenSystemBlocker
        { organizationId := t.organizationId, reason := .userPlatformDisabled, refType := .user, refId := userId }
        operatorUserId clearancePlatform now t

/-- All keys of the organizations that had such a blocker are reconciled. -/
def clearOrganizationUserPlatformDisabledTokenBlockers (env : Sources) (userId : Nat) (now : Int)
    (tokens : Table Token) : Table Token :=
  let blockedOrganization (organizationId : Nat) : Bool :=
    tokens.any fun _ t => t.blockers.any fun b => isUserBlocker userId b ∧ b.organizationId = organizationId
  (tokens.updateWhere (fun _ => true) (Token.clearBlockers (isUserBlocker userId))).updateWhere
    (fun t => ¬t.deleted ∧ 0 < t.organizationId ∧ blockedOrganization t.organizationId)
    (reconcileOrganizationTokenSystemBlocker env now)

/-- The blockers that are checked; the others never become stale. -/
def clearStaleOrganizationTokenSystemBlockers (env : Sources) (tokens : Table Token) : Table Token :=
  tokens.updateWhere (fun _ => true) (Token.clearStale env)

def reconcileAllOrganizationTokenSystemBlockers (env : Sources) (now : Int) (tokens : Table Token) : Table Token :=
  tokens.updateWhere (fun t => ¬t.deleted ∧ 0 < t.organizationId) (reconcileOrganizationTokenSystemBlocker env now)

/-- Creates the blockers of every source that is there, then clears the stale ones. -/
def reconcileOrganizationTokenBlockers (env : Sources) (now : Int) (tokens : Table Token) : Table Token :=
  let tokens := (env.disableRecords.select DisableRecord.active).foldl
    (fun tokens record => createOrganizationDisabledTokenBlockers env record.1 record.2 now tokens) tokens
  let tokens := (env.organizations.select fun o => o.status = .dissolved).foldl
    (fun tokens o => createOrganizationDissolvedTokenBlockers env o.1 0 now tokens) tokens
  let tokens := (env.members.table.select fun m => m.status = .disabled).foldl
    (fun tokens m => createOrganizationMemberDisabledTokenBlockers env m.2.organizationId m.2.userId 0
      m.2.disabledSource now tokens) tokens
  let tokens := (env.users.select fun u => ¬u.enabled).foldl
    (fun tokens u => createOrganizationUserPlatformDisabledTokenBlockers env u.1 0 now tokens) tokens
  reconcileAllOrganizationTokenSystemBlockers env now (clearStaleOrganizationTokenSystemBlockers env tokens)

/-! ## Deleted keys -/

@[simp] theorem Token.deleted_ensure (key : BlockerKey) (operatorUserId clearanceLevel : Nat) (now : Int) (t : Token) :
    (ensureOrganizationTokenSystemBlocker key operatorUserId clearanceLevel now t).deleted = t.deleted := by
  unfold ensureOrganizationTokenSystemBlocker
  dsimp only
  split_ifs <;> rfl

@[simp] theorem Token.deleted_reconcile (env : Sources) (now : Int) (t : Token) :
    (reconcileOrganizationTokenSystemBlocker env now t).deleted = t.deleted := by
  unfold reconcileOrganizationTokenSystemBlocker
  dsimp only
  split
  · unfold Token.restore
    dsimp only
    split_ifs <;> rfl
  · rfl

def StaysDeleted (t t' : Token) : Prop := t.deleted = true → t'.deleted = true

theorem StaysDeleted.refl (t : Token) : StaysDeleted t t := id

theorem StaysDeleted.trans (t t' t'' : Token) (h : StaysDeleted t t') (h' : StaysDeleted t' t'') :
    StaysDeleted t t'' := fun hdeleted => h' (h hdeleted)

/-- Keys are only ever deleted. -/
abbrev KeepsDeleted (tokens tokens' : Table Token) : Prop := tokens.Evolves StaysDeleted tokens'

theorem KeepsDeleted.refl (tokens : Table Token) : KeepsDeleted tokens tokens :=
  Table.Evolves.refl StaysDeleted.refl tokens

theorem KeepsDeleted.trans {tokens tokens' tokens'' : Table Token} (h : KeepsDeleted tokens tokens')
    (h' : KeepsDeleted tokens' tokens'') : KeepsDeleted tokens tokens'' :=
  Table.Evolves.trans StaysDeleted.trans h h'

end CubeRouter.Organization
