import CubeRouter.Organization.Membership

/-!
# Disabling, dissolving and the keys

The operations that block and unblock keys: an organization is disabled by itself or by the platform and dissolved for
good (`service/organization.go`), a user is disabled by the platform (`service/organization_token_blocker.go`), and a
key is changed, handed over or deleted by hand (`service/organization_token.go`).
-/

namespace CubeRouter.Organization

open Relational Transition

/-! ## Organizations and users -/

def ensureOrganizationDisableRecord (s : State) (organizationId : Nat) (source : DisableSource)
    (operatorUserId : Nat) : (Nat × DisableRecord) × State :=
  match s.disableRecords.find? fun r => r.organizationId = organizationId ∧ r.source = source ∧ r.active with
  | some found => (found, s)
  | none =>
    let record : DisableRecord :=
      { organizationId := organizationId, source := source, disabledByUserId := operatorUserId }
    ((s.disableRecords.next, record), { s with disableRecords := s.disableRecords.insert record })

/-- A dissolved organization stays dissolved. -/
def deriveOrganizationStatusFromDisableRecords (s : State) (organizationId : Nat) : State :=
  let disabled := s.disableRecords.any fun _ r => r.organizationId = organizationId ∧ r.active
  { s with
    organizations := s.organizations.modify organizationId fun o =>
      if o.status = .dissolved then o else { o with status := if disabled then .disabled else .active } }

/-- `clearOrganizationDisableRecordsWithTx` with the blockers of the records. -/
def clearOrganizationDisableRecords (s : State) (organizationId : Nat) (source : DisableSource) : State :=
  let ofSource (r : DisableRecord) : Bool := r.organizationId = organizationId ∧ r.source = source ∧ r.active
  { s with
    disableRecords := s.disableRecords.updateWhere ofSource fun r => { r with active := false }
    tokens := clearOrganizationTokenSystemBlockers organizationId source.reason .disableRecord
      ((s.disableRecords.select ofSource).map Prod.fst) s.tokens }

/-- The platform clears the records of both sources. -/
def DisableSource.clears : DisableSource → List DisableSource
  | .self => [.self]
  | .platform => [.platform, .self]

/-- The state with the record of the organization and the status that follows from it. -/
def disabledState (s : State) (caller : Caller) (source : DisableSource) : State :=
  deriveOrganizationStatusFromDisableRecords
    (ensureOrganizationDisableRecord s caller.organizationId source caller.operatorUserId).2 caller.organizationId

def enabledState (s : State) (caller : Caller) (source : DisableSource) : State :=
  deriveOrganizationStatusFromDisableRecords
    (source.clears.foldl (fun s source => clearOrganizationDisableRecords s caller.organizationId source) s)
    caller.organizationId

/-- `DisableOrganization`, `EnableOrganization` and their variants for the platform. -/
def setOrganizationStatus (s : State) (caller : Caller) (source : DisableSource) (disable : Bool)
    (confirmName : String) (now : Int) : Except OrganizationError State := do
  ensure (0 < caller.operatorUserId ∧ 0 < caller.organizationId) .invalidRequest
  ensure (caller.accessMode = match source with | .self => .management | .platform => .admin) .permissionDenied
  let (organization, _) ← lockedOrganizationManagementDecision s caller
    (if disable then .disableOrganization else .enableOrganization)
  ensure (confirmName = organization.slug) .confirmationMismatch
  if disable then
    let record := (ensureOrganizationDisableRecord s caller.organizationId source caller.operatorUserId).1
    let s := disabledState s caller source
    .ok { s with
      tokens := createOrganizationDisabledTokenBlockers s.toSources record.1 record.2 now s.tokens }
  else
    let s := enabledState s caller source
    .ok { s with
      tokens := reconcileOrganizationTokenSystemBlockers s.toSources caller.organizationId now s.tokens }

structure DissolveOrganizationRequest where
  confirmName : String
  reason : String := ""
  idempotencyKey : String

/-- `activeWork` says whether tasks or billing sessions of the organization are under way. -/
def dissolveOrganization (s : State) (caller : Caller) (req : DissolveOrganizationRequest) (activeWork : Bool)
    (now : Int) : Except OrganizationError State := do
  ensure (0 < caller.operatorUserId ∧ 0 < caller.organizationId) .invalidRequest
  requireOrganizationIdempotencyKey req.idempotencyKey
  let organizationId := caller.organizationId
  let organization ← lockOrganizationForUpdate s organizationId
  withOrganizationIdempotency s caller req.idempotencyKey (.dissolve req.confirmName req.reason) fun s => do
    let _ ← organizationManagementDecisionForLockedOrganization s caller organization .dissolveOrganization
    ensure (organization.status ≠ .dissolved) (.policy .dissolved)
    ensure (req.confirmName ≠ "" ∧ (req.confirmName = organization.name ∨ req.confirmName = organization.slug))
      .confirmationMismatch
    ensure (¬activeWork ∧ ¬s.idempotency.any fun _ r => r.organizationId = organizationId ∧ r.status = .processing ∧
      r.idempotencyKey ≠ req.idempotencyKey ∧ (r.expiresAt = 0 ∨ now < r.expiresAt)) .activeLifecycleBlockers
    let s := { s with
      organizations := s.organizations.modify organizationId fun o => { o with status := .dissolved } }
    .ok { s with
      tokens := createOrganizationDissolvedTokenBlockers s.toSources organizationId caller.operatorUserId now s.tokens
      invites := s.invites.updateWhere (fun r => r.organizationId = organizationId ∧ r.status = .pending) fun r =>
        { r with status := .revoked, updatedAt := now } }

/-- The status of a user and the blockers of the keys that he is responsible for. -/
def updateUserStatusAndOrganizationTokenBlockers (s : State) (userId : Nat) (enabled : Bool) (operatorUserId : Nat)
    (now : Int) : Except OrganizationError State := do
  ensure (0 < userId) .invalidUser
  let s := { s with users := s.users.modify userId fun u => { u with enabled := enabled } }
  .ok { s with
    tokens :=
      if enabled then clearOrganizationUserPlatformDisabledTokenBlockers s.toSources userId now s.tokens
      else createOrganizationUserPlatformDisabledTokenBlockers s.toSources userId operatorUserId now s.tokens }

/-! ## Keys -/

def OrganizationActor.canManageAllTokens (actor : OrganizationActor) : Bool :=
  actor.decision.hasCapability .manageOrganizationTokens

def OrganizationActor.hasPlatformAuthority (actor : OrganizationActor) : Bool :=
  actor.decision.accessMode = .admin ∧ actor.decision.isPlatform

def OrganizationActor.isRestricted (actor : OrganizationActor) : Bool :=
  ¬actor.canManageAllTokens ∧ actor.platformRole < roleAdminUser

def OrganizationActor.clearance (actor : OrganizationActor) : Nat :=
  if actor.hasPlatformAuthority then clearancePlatform
  else if actor.canManageAllTokens then clearanceOrganizationAdmin
  else clearanceMember

/-- `organizationPolicyCanManageTokenResource`. -/
def canManageToken (s : State) (caller : Caller) (actor : OrganizationActor) (token : Token) : Bool :=
  let decision := evaluateOrganizationPolicy
    { s.policyInput caller actor.platformRole actor.organization with
      canSelfEnable := true
      resource := some ⟨token.creatorUserId, token.responsibleUserId, token.visibility⟩ }
  decision.allowed && decision.hasCapability .manageResource

def tokenWriteActor (s : State) (caller : Caller) : Except OrganizationError OrganizationActor := do
  let actor ← getOrganizationActorContext s caller
  ensure (¬actor.decision.readOnly)
    (if actor.decision.code = some .dissolved then .policy .dissolved else .permissionDenied)
  .ok actor

def activeMemberEnabled (s : State) (organizationId userId : Nat) : Bool :=
  (s.activeMember organizationId userId).isSome && (s.users.get? userId).any User.enabled

def getOrganizationToken (s : State) (organizationId tokenId : Nat) : Except OrganizationError Token :=
  match (s.tokens.get? tokenId).filter (Token.ofOrganization organizationId) with
  | none => .error .recordNotFound
  | some token => .ok token

structure OrganizationTokenRequest where
  status : RequestField TokenStatus := .unset
  visibility : RequestField TokenVisibility := .unset
  responsibleUserId : Nat := 0
  /-- What the checks of the name, the quota, the group and the models say. -/
  fieldError : Option String := none

def OrganizationTokenRequest.validate (req : OrganizationTokenRequest) (requireStatus : Bool) :
    Except OrganizationError Unit := do
  ensure (requireStatus → req.status = .value .enabled ∨ req.status = .value .disabled) .invalidTokenStatus
  ensure (req.visibility ≠ .invalid) .invalidTokenVisibility
  match req.fieldError with
  | some message => .error (.tokenFields message)
  | none => .ok ()

def ensureOrganizationTokenVisibilityAllowed (actor : OrganizationActor) (req : OrganizationTokenRequest) :
    Except OrganizationError Unit :=
  ensure (req.visibility = .value .public → actor.canManageAllTokens) .permissionDenied

def normalizeOrganizationTokenVisibility : RequestField TokenVisibility → TokenVisibility
  | .value visibility => visibility
  | .unset | .invalid => .private

/-- What a member without the right to manage keys asks for is replaced, but for the name of the key. -/
def normalizeOrganizationMemberTokenRequest (req : OrganizationTokenRequest) (memberUserId : Nat) :
    OrganizationTokenRequest :=
  { req with visibility := .value .private, responsibleUserId := memberUserId }

/-- `maxTokens` is the setting for all owners of keys. -/
def createOrganizationToken (s : State) (caller : Caller) (req : OrganizationTokenRequest) (maxTokens : Nat)
    (now : Int) : Except OrganizationError State := do
  ensure (0 < caller.operatorUserId ∧ 0 < caller.organizationId) .invalidTokenRequest
  let organizationId := caller.organizationId
  let actor ← tokenWriteActor s caller
  ensure (¬actor.hasPlatformAuthority) .permissionDenied
  ensure (actor.canManageAllTokens ∨ req.responsibleUserId = 0 ∨ req.responsibleUserId = caller.operatorUserId)
    .permissionDenied
  ensureOrganizationTokenVisibilityAllowed actor req
  ensure (actor.organization.status ≠ .dissolved) (.policy .dissolved)
  let responsibleUserId := if req.responsibleUserId = 0 then caller.operatorUserId else req.responsibleUserId
  ensureOrganizationTokenResponsibleUser s organizationId actor.organization
    (normalizeOrganizationTokenVisibility req.visibility) responsibleUserId
  let req := if actor.isRestricted then normalizeOrganizationMemberTokenRequest req responsibleUserId else req
  req.validate false
  ensure (s.tokens.count (Token.ofOrganization organizationId) < maxTokens) .tokenLimitReached
  .ok { s with
    tokens := s.tokens.insert
      { organizationId := organizationId, userId := responsibleUserId, responsibleUserId := responsibleUserId
        creatorUserId := caller.operatorUserId, visibility := normalizeOrganizationTokenVisibility req.visibility
        updatedAt := now } }

/-- Only a key that nothing but hands has blocked is enabled by hand. -/
def clearOrganizationTokenManualBlockersForActor (actorClearance : Nat) (token : Token) :
    Except OrganizationError Token :=
  match token.activeBlockers with
  | [] => .ok token
  | first :: rest => do
    let selected := selectedOrganizationTokenSystemBlocker first rest
    ensure (selected.reason ≠ .memberDisabled) .responsibleMemberDisabled
    ensure (selected.reason ≠ .userPlatformDisabled) .responsibleUserDisabled
    (first :: rest).forM fun b => do
      ensure (b.reason = .manualDisabled) .permissionDenied
      let clearance := if b.clearanceLevel = 0 then clearanceOrganizationAdmin else b.clearanceLevel
      ensure (clearance ≤ actorClearance ∧ clearance < clearanceTerminal) .tokenEnableForbidden
    .ok (token.clearBlockers fun b => b.active ∧ b.reason = .manualDisabled)

def enableByHand (actor : OrganizationActor) (req : OrganizationTokenRequest) (token : Token) :
    Except OrganizationError Token :=
  if req.status = .value .enabled then do
    let cleared ← clearOrganizationTokenManualBlockersForActor actor.clearance token
    .ok { cleared with status := .enabled }
  else .ok token

def disableByHand (caller : Caller) (actor : OrganizationActor) (req : OrganizationTokenRequest) (now : Int)
    (token : Token) : Token :=
  if req.status = .value .disabled then
    ensureOrganizationTokenSystemBlocker
      { organizationId := caller.organizationId, reason := .manualDisabled, refType := .operator
        refId := caller.operatorUserId } caller.operatorUserId actor.clearance now token
  else token

/-- A member without the right to all keys keeps the one who is responsible. -/
def OrganizationTokenRequest.newResponsibleUserId (req : OrganizationTokenRequest) (actor : OrganizationActor)
    (token : Token) : Nat :=
  let requested := if actor.isRestricted then token.responsibleUserId else req.responsibleUserId
  if requested ≠ 0 then requested
  else if token.responsibleUserId ≠ 0 then token.responsibleUserId
  else token.userId

def OrganizationTokenRequest.newVisibility (req : OrganizationTokenRequest) (token : Token) : TokenVisibility :=
  match req.visibility with
  | .value visibility => visibility
  | .unset | .invalid => token.visibility

def ensureNewResponsibleUser (s : State) (caller : Caller) (actor : OrganizationActor) (token : Token)
    (visibility : TokenVisibility) (responsibleUserId : Nat) : Except OrganizationError Unit :=
  if actor.canManageAllTokens then
    ensureOrganizationTokenResponsibleUser s caller.organizationId actor.organization visibility responsibleUserId
  else
    ensure (responsibleUserId = token.responsibleUserId) .permissionDenied

def updateOrganizationToken (s : State) (caller : Caller) (tokenId : Nat) (req : OrganizationTokenRequest)
    (now : Int) : Except OrganizationError State := do
  ensure (0 < caller.operatorUserId ∧ 0 < caller.organizationId ∧ 0 < tokenId) .invalidTokenRequest
  let organizationId := caller.organizationId
  let actor ← tokenWriteActor s caller
  ensure (actor.organization.status ≠ .dissolved) (.policy .dissolved)
  ensure (actor.canManageAllTokens ∨ activeMemberEnabled s organizationId caller.operatorUserId)
    .responsibleUserInactive
  let token ← getOrganizationToken s organizationId tokenId
  ensure (actor.canManageAllTokens ∨ (canManageToken s caller actor token ∧
    (req.responsibleUserId = 0 ∨ req.responsibleUserId = token.responsibleUserId))) .permissionDenied
  ensureOrganizationTokenVisibilityAllowed actor req
  req.validate true
  let responsibleUserId := req.newResponsibleUserId actor token
  let visibility := req.newVisibility token
  let enabled ← enableByHand actor req token
  ensureNewResponsibleUser s caller actor token visibility responsibleUserId
  .ok { s with
    tokens := s.tokens.modify tokenId fun _ => reconcileOrganizationTokenSystemBlocker s.toSources now
      { disableByHand caller actor req now enabled with
        visibility := visibility, userId := responsibleUserId, responsibleUserId := responsibleUserId
        updatedAt := now } }

def updateOrganizationTokenResponsibility (s : State) (caller : Caller) (tokenId responsibleUserId : Nat)
    (now : Int) : Except OrganizationError State := do
  ensure (0 < caller.operatorUserId ∧ 0 < caller.organizationId ∧ 0 < tokenId ∧ 0 < responsibleUserId)
    .invalidTokenResponsibilityRequest
  let organizationId := caller.organizationId
  let actor ← tokenWriteActor s caller
  ensure actor.canManageAllTokens .permissionDenied
  ensure (actor.organization.status ≠ .dissolved) (.policy .dissolved)
  let token ← getOrganizationToken s organizationId tokenId
  ensureOrganizationTokenResponsibleUser s organizationId actor.organization token.visibility responsibleUserId
  .ok { s with
    tokens := s.tokens.modify tokenId (Token.handOver s.toSources responsibleUserId now) }

def deleteOrganizationToken (s : State) (caller : Caller) (tokenId : Nat) (now : Int) :
    Except OrganizationError State := do
  ensure (0 < caller.operatorUserId ∧ 0 < caller.organizationId ∧ 0 < tokenId) .invalidTokenRequest
  let organizationId := caller.organizationId
  let actor ← tokenWriteActor s caller
  ensure (actor.organization.status ≠ .dissolved) (.policy .dissolved)
  ensure (actor.canManageAllTokens ∨ activeMemberEnabled s organizationId caller.operatorUserId)
    .responsibleUserInactive
  let token ← getOrganizationToken s organizationId tokenId
  ensure (canManageToken s caller actor token) .permissionDenied
  .ok { s with tokens := s.tokens.modify tokenId fun t => { t with updatedAt := now, deleted := true } }

/-! ## What the operations do -/

variable {s s' : State} {caller : Caller} {now : Int} {i : Nat}

theorem setOrganizationStatus_ok {source : DisableSource} {disable : Bool} {confirmName : String}
    (h : setOrganizationStatus s caller source disable confirmName now = .ok s') :
    (∃ record : Nat × DisableRecord, s' = { disabledState s caller source with
      tokens := createOrganizationDisabledTokenBlockers (disabledState s caller source).toSources record.1 record.2 now
        (disabledState s caller source).tokens }) ∨
    s' = { enabledState s caller source with
      tokens := reconcileOrganizationTokenSystemBlockers (enabledState s caller source).toSources
        caller.organizationId now (enabledState s caller source).tokens } := by
  unfold setOrganizationStatus at h
  simp only [bind_eq_ok] at h
  obtain ⟨_, -, _, -, ⟨_, _⟩, -, _, -, h⟩ := h
  cases disable with
  | true =>
    cases h
    exact .inl ⟨_, rfl⟩
  | false =>
    cases h
    exact .inr rfl

theorem dissolveOrganization_ok {req : DissolveOrganizationRequest} {activeWork : Bool}
    (h : dissolveOrganization s caller req activeWork now = .ok s') :
    s' = s ∨ ∃ i s1, s1 = { s with
        organizations := s.organizations.modify caller.organizationId fun o => { o with status := .dissolved } } ∧
      s' = { s1 with
        idempotency := i
        tokens := createOrganizationDissolvedTokenBlockers s1.toSources caller.organizationId caller.operatorUserId now
          s.tokens
        invites := s.invites.updateWhere (fun r => r.organizationId = caller.organizationId ∧
        r.status = .pending) fun r =>
            { r with status := .revoked, updatedAt := now } } := by
  unfold dissolveOrganization at h
  simp only [bind_eq_ok] at h
  obtain ⟨_, -, _, -, _, -, h⟩ := h
  rcases withOrganizationIdempotency_ok h with rfl | ⟨i, i', r, hbody, rfl⟩
  · exact .inl rfl
  · simp only [bind_eq_ok] at hbody
    obtain ⟨_, -, _, -, _, -, _, -, hbody⟩ := hbody
    cases hbody
    exact .inr ⟨i', _, rfl, rfl⟩

variable {req : OrganizationTokenRequest} {u : Nat}

theorem createOrganizationToken_ok {maxTokens : Nat}
    (h : createOrganizationToken s caller req maxTokens now = .ok s') :
    ∃ token, token.blockers = [] ∧ token.previousStatus = none ∧ s' = { s with tokens := s.tokens.insert token } := by
  unfold createOrganizationToken at h
  simp only [bind_eq_ok] at h
  obtain ⟨_, -, _, -, _, -, _, -, _, -, _, -, _, -, _, -, _, -, h⟩ := h
  cases h
  exact ⟨_, rfl, rfl, rfl⟩

theorem getOrganizationToken_ok {o : Nat} {t : Token} (h : getOrganizationToken s o i = .ok t) :
    s.tokens.get? i = some t ∧ t.ofOrganization o = true := by
  unfold getOrganizationToken at h
  split at h
  · cases h
  · rename_i token hfound
    cases h
    exact Option.filter_eq_some_iff.mp hfound

theorem updateOrganizationToken_ok
    (h : updateOrganizationToken s caller i req now = .ok s') :
    ∃ actor token enabled visibility u, s.tokens.get? i = some token ∧
    token.ofOrganization caller.organizationId = true ∧
      enableByHand actor req token = .ok enabled ∧
      s' = { s with
        tokens := s.tokens.modify i fun _ => reconcileOrganizationTokenSystemBlocker s.toSources now
          { disableByHand caller actor req now enabled with
            visibility := visibility, userId := u, responsibleUserId := u, updatedAt := now } } := by
  unfold updateOrganizationToken at h
  simp only [bind_eq_ok] at h
  obtain ⟨_, -, actor, -, _, -, _, -, token, htoken, _, -, _, -, _, -, enabled, henabled, h⟩ := h
  obtain ⟨hget, hof⟩ := getOrganizationToken_ok htoken
  obtain ⟨_, -, h⟩ := h
  cases h
  exact ⟨actor, token, enabled, _, _, hget, hof, henabled, rfl⟩

theorem updateOrganizationTokenResponsibility_ok
    (h : updateOrganizationTokenResponsibility s caller i u now = .ok s') :
    ∃ token, s.tokens.get? i = some token ∧ token.ofOrganization caller.organizationId = true ∧
      s' = { s with tokens := s.tokens.modify i (Token.handOver s.toSources u now) } := by
  unfold updateOrganizationTokenResponsibility at h
  simp only [bind_eq_ok] at h
  obtain ⟨_, -, _, -, _, -, _, -, token, htoken, _, -, h⟩ := h
  obtain ⟨hget, hof⟩ := getOrganizationToken_ok htoken
  cases h
  exact ⟨token, hget, hof, rfl⟩

theorem deleteOrganizationToken_ok (h : deleteOrganizationToken s caller i now = .ok s') :
    s' = { s with tokens := s.tokens.modify i fun t => { t with updatedAt := now, deleted := true } } := by
  unfold deleteOrganizationToken at h
  simp only [bind_eq_ok] at h
  obtain ⟨_, -, _, -, _, -, _, -, _, -, _, -, h⟩ := h
  cases h
  rfl

theorem updateUserStatus_ok {enabled : Bool} {operator : Nat}
    (h : updateUserStatusAndOrganizationTokenBlockers s u enabled operator now = .ok s') :
    ∃ s1, s1 = { s with users := s.users.modify u fun u => { u with enabled := enabled } } ∧
      s' = { s1 with
        tokens :=
          if enabled then clearOrganizationUserPlatformDisabledTokenBlockers s1.toSources u now s.tokens
          else createOrganizationUserPlatformDisabledTokenBlockers s1.toSources u operator now s.tokens } := by
  obtain ⟨_, -, h⟩ := bind_eq_ok.mp h
  cases h
  exact ⟨_, rfl, rfl⟩

end CubeRouter.Organization
