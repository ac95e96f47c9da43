import CubeRouter.Organization.Membership

/-!
# Invitations

`service/organization_invite.go`. An address has one row in an organization: `CreateEmailInvite` makes it or issues a
new token for it, and the mail is delivered and recorded after that in transactions of their own. Accepting and
revoking lock the organization and the row. `GetInviteByToken` is the public page of an invitation; it reads the row
without a lock, and where it finds it expired it writes that status in a second statement.
-/

namespace CubeRouter.Organization

open Relational Transition

/-! ## Issuing -/

def organizationInviteExpiredAt (config : Config) (now : Int) : Int :=
  if config.inviteTTLSeconds ≤ 0 then 0 else now + config.inviteTTLSeconds

def organizationInviteDeliveryLeaseSeconds : Int := 5 * 60

def Config.inviteTokenHashes (config : Config) (token : String) : List String :=
  let hash := config.hashToken token
  let legacyHash := config.legacyHashToken token
  if legacyHash ≠ "" ∧ legacyHash ≠ hash then [hash, legacyHash] else [hash]

def Invite.overdue (now : Int) (invite : Invite) : Bool := 0 < invite.expiredAt ∧ invite.expiredAt ≤ now

def repairStaleOrganizationInviteDeliveries (s : State) (organizationId : Nat) (now : Int) : State :=
  { s with
    invites := s.invites.updateWhere
      (fun r => r.organizationId = organizationId ∧ r.status = .pending ∧ r.deliveryStatus = .pending ∧
        r.updatedAt ≤ now - organizationInviteDeliveryLeaseSeconds)
      fun r => { r with deliveryStatus := .unknown, updatedAt := now } }

structure CreateInviteRequest where
  email : String
  role : RequestField Role := .unset
  forceRotate : Bool := false
  idempotencyKey : String := ""

/-- `normalizeOrganizationInviteRequest`: the address and the role. -/
def CreateInviteRequest.normalize (config : Config) (req : CreateInviteRequest) :
    Except OrganizationError (String × Role) := do
  let targetEmail := config.normalizeEmail req.email
  ensure (targetEmail ≠ "" ∧ '@' ∈ targetEmail.toList) .invalidInviteEmail
  let role ← req.role.memberRole
  if req.forceRotate then requireOrganizationIdempotencyKey req.idempotencyKey else .ok ()
  .ok (targetEmail, role)

/-- What an idempotency record says of a rotation: the id of the record and that it is new, done or to be resumed. -/
inductive RotationProgress
  | started (recordId : Nat)
  | replay (recordId inviteId : Nat)
  | resume (recordId inviteId : Nat)

def RotationProgress.recordId : RotationProgress → Nat
  | .started recordId => recordId
  | .replay recordId _ => recordId
  | .resume recordId _ => recordId

/-- What is resumed is about the row of the address. -/
def RotationProgress.resumes (existing : Option Nat) : RotationProgress → Bool
  | .resume _ inviteId => existing = some inviteId
  | .started _ | .replay _ _ => true

def prepareOrganizationInviteForceRotateIdempotency (s : State) (caller : Caller) (key : String)
    (request : OrganizationRequest) (now : Int) : Except OrganizationError (RotationProgress × State) := do
  let expiresAt := now + organizationInviteDeliveryLeaseSeconds
  match s.idempotency.find? fun r => r.idempotencyKey = key with
  | none =>
    .ok (.started s.idempotency.next,
      { s with
        idempotency := s.idempotency.insert
          { idempotencyKey := key, organizationId := caller.organizationId, createdBy := caller.operatorUserId
            request := request, expiresAt := expiresAt } })
  | some (recordId, existing) =>
    ensure (existing.organizationId = caller.organizationId ∧ existing.createdBy = caller.operatorUserId ∧
      existing.request = request ∧ 0 < existing.inviteId) .idempotencyConflict
    if existing.status = .succeeded then
      .ok (.replay recordId existing.inviteId, s)
    else
      ensure (¬(existing.status = .processing ∧ now < existing.expiresAt)) .idempotencyConflict
      .ok (.resume recordId existing.inviteId,
        { s with
          idempotency := s.idempotency.modify recordId fun r =>
            { r with status := .processing, expiresAt := expiresAt } })

/-- Only a rotation on demand has a key. -/
def CreateInviteRequest.prepare (req : CreateInviteRequest) (s : State) (caller : Caller) (targetEmail : String)
    (role : Role) (now : Int) : Except OrganizationError (Option RotationProgress × State) :=
  if req.forceRotate then do
    let (progress, s) ← prepareOrganizationInviteForceRotateIdempotency s caller req.idempotencyKey
      (.inviteForceRotate targetEmail role) now
    .ok (some progress, s)
  else .ok (none, s)

def saveOrganizationInviteIdempotencyProgress (s : State) (progress : Option RotationProgress) (inviteId : Nat)
    (now : Int) : State :=
  match progress with
  | none => s
  | some progress =>
    { s with
      idempotency := s.idempotency.modify progress.recordId fun r =>
        { r with
          status := .processing, inviteId := inviteId, expiresAt := now + organizationInviteDeliveryLeaseSeconds } }

/-- `persistedOrganizationEmailInvite`; there is no token when the request is a replay. -/
structure PersistedInvite where
  inviteId : Nat
  organizationId : Nat
  rawToken : Option String
  idempotencyRecordId : Nat := 0

/-- A pending invite is issued again only when its delivery has failed or on demand. -/
def checkPendingInvite (forceRotate : Bool) (now : Int) : Option Invite → Except OrganizationError Unit
  | none => .ok ()
  | some invite =>
    if invite.status = .pending ∧ (invite.expiredAt = 0 ∨ now < invite.expiredAt) then
      match invite.deliveryStatus with
      | .pending => .error .inviteDeliveryInProgress
      | .rejected => .error .inviteRecipientRejected
      | .sent => ensure forceRotate .inviteAlreadySent
      | .failed | .unknown => .ok ()
    else .ok ()

/-- A user with the address is in the organization. -/
def State.hasJoined (config : Config) (s : State) (organizationId : Nat) (targetEmail : String) : Bool :=
  (s.users.find? fun u => config.lower u.email = targetEmail).any fun user =>
    (s.members.find? (organizationId, user.1)).any fun m => m.status = .active ∨ m.status = .disabled

/-- The row with its new token: a new row, or the one of the address. -/
def issueInvite (s : State) (existing : Option Nat) (invite : Invite) : Except OrganizationError (Nat × State) := do
  ensure (¬s.invites.any fun i r => r.tokenHash = invite.tokenHash ∧ existing ≠ some i) .duplicateKey
  match existing with
  | some i => .ok (i, { s with invites := s.invites.modify i fun _ => invite })
  | none => .ok (s.invites.next, { s with invites := s.invites.insert invite })

/-- The end of the transaction: a replay issues nothing. -/
def rotateInvite (config : Config) (s : State) (existing : Option Nat) (progress : Option RotationProgress)
    (invite : Invite) (token : String) (now : Int) : Except OrganizationError (PersistedInvite × State) :=
  match progress with
  | some (.replay recordId inviteId) => do
    ensure (existing = some inviteId) .idempotencyConflict
    .ok (⟨inviteId, invite.organizationId, none, recordId⟩, s)
  | progress => do
    ensure (progress.all (RotationProgress.resumes existing)) .idempotencyConflict
    ensure (¬s.hasJoined config invite.organizationId invite.targetEmail) .alreadyJoined
    let issued ← issueInvite s existing invite
    .ok (⟨issued.1, invite.organizationId, some token, (progress.map RotationProgress.recordId).getD 0⟩,
      saveOrganizationInviteIdempotencyProgress issued.2 progress issued.1 now)

def persistOrganizationEmailInvite (config : Config) (s : State) (caller : Caller) (req : CreateInviteRequest)
    (token : String) (now : Int) : Except OrganizationError (PersistedInvite × State) := do
  ensure (0 < caller.operatorUserId ∧ 0 < caller.organizationId) .invalidInviteRequest
  let (targetEmail, role) ← req.normalize config
  let organizationId := caller.organizationId
  let (_, decision) ← lockedOrganizationManagementDecision s caller .manageInvitations
  ensure (¬decision.isPlatform) .permissionDenied
  let s := repairStaleOrganizationInviteDeliveries s organizationId now
  let existing := s.invites.find? fun r => r.organizationId = organizationId ∧ r.targetEmail = targetEmail
  ensure (existing.all fun x => config.normalizeEmail x.2.targetEmail = targetEmail) .idempotencyConflict
  checkPendingInvite req.forceRotate now (existing.map Prod.snd)
  let prepared ← req.prepare s caller targetEmail role now
  rotateInvite config prepared.2 (existing.map Prod.fst) prepared.1
    { organizationId := organizationId, targetEmail := targetEmail, role := role
      tokenHash := config.hashToken token, inviterUserId := caller.operatorUserId, updatedAt := now
      expiredAt := organizationInviteExpiredAt config now } token now

/-! ## Delivery -/

/-- The transaction before the mail: an invite of a dissolved organization is revoked. -/
def deliverOrganizationEmailInvite (config : Config) (s : State) (persisted : PersistedInvite) (rawToken : String)
    (now : Int) : Except OrganizationError State := do
  let organization ← lockOrganizationForUpdate s persisted.organizationId
  match (s.invites.get? persisted.inviteId).filter fun r => r.organizationId = persisted.organizationId with
  | none => .error .recordNotFound
  | some invite =>
    if organization.status = .dissolved then
      if invite.status = .pending then
        .ok { s with
          invites := s.invites.modify persisted.inviteId fun r => { r with status := .revoked, updatedAt := now } }
      else .ok s
    else if organization.status ≠ .active then
      .ok s
    else
      ensure (invite.status = .pending) .inviteNotPending
      ensure (invite.tokenHash = config.hashToken rawToken) .idempotencyConflict
      ensure (invite.deliveryStatus = .sent ∨ invite.deliveryStatus = .pending) .inviteDeliveryNotPending
      .ok s

def OrganizationRequest.isForceRotate : OrganizationRequest → Bool
  | .inviteForceRotate _ _ => true
  | _ => false

/-- `completeOrganizationInviteDeliveryIdempotencyWithTx` and `failOrganizationInviteDeliveryIdempotencyWithTx`. -/
def finishOrganizationInviteDeliveryIdempotency (s : State) (recordId inviteId : Nat) (sent : Bool) :
    Except OrganizationError State := do
  if recordId = 0 then
    .ok s
  else
    match s.idempotency.get? recordId with
    | none => .error .recordNotFound
    | some record =>
      if sent ∧ record.status = .succeeded then
        .ok s
      else
        ensure (record.request.isForceRotate ∧ record.status = .processing) .idempotencyConflict
        .ok { s with
          idempotency := s.idempotency.modify recordId fun r =>
            if sent then { r with status := .succeeded, inviteId := inviteId, expiresAt := 0 }
            else { r with status := .failed, expiresAt := 0 } }

def finalizeOrganizationInviteDelivery (config : Config) (s : State) (persisted : PersistedInvite) (rawToken : String)
    (deliveryStatus : DeliveryStatus) (now : Int) : Except OrganizationError State := do
  let matching (r : Invite) : Bool := r.organizationId = persisted.organizationId ∧
    r.tokenHash = config.hashToken rawToken ∧ r.deliveryStatus = .pending
  ensure ((s.invites.get? persisted.inviteId).any matching) .idempotencyConflict
  finishOrganizationInviteDeliveryIdempotency
    { s with
      invites := s.invites.modify persisted.inviteId fun r =>
        { r with deliveryStatus := deliveryStatus, updatedAt := now } }
    persisted.idempotencyRecordId persisted.inviteId (deliveryStatus = .sent)

/-! ## Accepting, revoking, looking -/

/-- The transaction of `AcceptInvite`, after `organizationId` is looked up by the token. What it writes of an invite
that is overdue is rolled back with it. -/
def acceptInvite (config : Config) (s : State) (organizationId : Nat) (token : String) (userId : Nat) (now : Int) :
    Except OrganizationError State := do
  ensure (token ≠ "" ∧ 0 < userId) .invalidAcceptance
  let organization ← lockOrganizationForUpdate s organizationId
  match s.invites.find? fun r => r.organizationId = organizationId ∧ r.tokenHash ∈ config.inviteTokenHashes token with
  | none => .error .recordNotFound
  | some (inviteId, invite) =>
    ensure (invite.status = .pending) .inviteNotPending
    ensure (¬invite.overdue now) .inviteExpired
    ensure (organization.status ≠ .disabled) (.policy .disabled)
    ensure (organization.status ≠ .dissolved) (.policy .dissolved)
    match s.users.get? userId with
    | none => .error .recordNotFound
    | some user =>
      ensure (config.normalizeEmail user.email = config.normalizeEmail invite.targetEmail) .inviteEmailMismatch
      let s := { s with
        invites := s.invites.modify inviteId fun r =>
          { r with status := .accepted, acceptedUserId := userId, updatedAt := now } }
      let s ← reactivateOrganizationMember s invite.organizationId userId invite.role invite.inviterUserId
      let _ ← getOrganizationActorContext s ⟨userId, organizationId, .workspace⟩
      .ok s

def revokeInvite (s : State) (caller : Caller) (inviteId : Nat) (now : Int) : Except OrganizationError State := do
  ensure (0 < caller.operatorUserId ∧ 0 < caller.organizationId ∧ 0 < inviteId) .invalidInviteRequest
  let _ ← lockedOrganizationManagementDecision s caller .manageInvitations
  match (s.invites.get? inviteId).filter fun r => r.organizationId = caller.organizationId with
  | none => .error .recordNotFound
  | some invite =>
    ensure (invite.status = .pending) .onlyPendingInviteRevoked
    .ok { s with invites := s.invites.modify inviteId fun r => { r with status := .revoked, updatedAt := now } }

/-- The read of `GetInviteByToken`: the id and the row when it is to be marked as expired. -/
def getInviteByToken (config : Config) (s : State) (token : String) (now : Int) : Option (Nat × Invite) :=
  if token = "" then
    none
  else
    (s.invites.find? fun r => r.tokenHash ∈ config.inviteTokenHashes token).filter fun x =>
      x.2.status = .pending ∧ x.2.overdue now

/-- Its write, which finds the row by its id. -/
def markInviteExpired (s : State) (inviteId : Nat) (now : Int) : State :=
  { s with invites := s.invites.modify inviteId fun r => { r with status := .expired, updatedAt := now } }

/-! ## What the operations do -/

variable {s s' : State} {caller : Caller} {now : Int} {config : Config} {token : String} {persisted : PersistedInvite}

theorem prepareForceRotate_ok {key : String} {request : OrganizationRequest} {progress : RotationProgress}
    (h : prepareOrganizationInviteForceRotateIdempotency s caller key request now = .ok (progress, s')) :
    ∃ i, s' = { s with idempotency := i } := by
  unfold prepareOrganizationInviteForceRotateIdempotency at h
  split at h
  · cases h
    exact ⟨_, rfl⟩
  · obtain ⟨_, -, h⟩ := bind_eq_ok.mp h
    split_ifs at h
    · cases h
      exact ⟨s.idempotency, rfl⟩
    · obtain ⟨_, -, h⟩ := bind_eq_ok.mp h
      cases h
      exact ⟨_, rfl⟩

variable {req : CreateInviteRequest} {progress : Option RotationProgress} {existing : Option Nat} {invite : Invite}
  {rawToken : String} {inviteId : Nat}

theorem CreateInviteRequest.prepare_ok {email : String} {role : Role}
    (h : req.prepare s caller email role now = .ok (progress, s')) :
    ∃ i, s' = { s with idempotency := i } := by
  unfold CreateInviteRequest.prepare at h
  split_ifs at h
  · obtain ⟨⟨_, _⟩, hprepare, h⟩ := bind_eq_ok.mp h
    cases h
    exact prepareForceRotate_ok hprepare
  · cases h
    exact ⟨s.idempotency, rfl⟩

/-- The row with id `i` gets the new token; no other row has its hash. -/
structure Issues (invites invites' : Table Invite) (i : Nat) (invite : Invite) : Prop where
  row : invites'.get? i = some invite
  others : ∀ j, j ≠ i → invites'.get? j = invites.get? j
  fresh : ∀ j r, j ≠ i → invites.get? j = some r → r.tokenHash ≠ invite.tokenHash

theorem issueInvite_ok {i : Nat}
    (hexisting : ∀ j, existing = some j → ∃ r, s.invites.get? j = some r)
    (h : issueInvite s existing invite = .ok (i, s')) :
    ∃ invites, s' = { s with invites := invites } ∧ Issues s.invites invites i invite := by
  obtain ⟨_, hunique, h⟩ := bind_eq_ok.mp h
  have hunique := ensure_eq_ok.mp hunique
  rw [Bool.not_eq_true, Table.any_eq_false_iff] at hunique
  have hfresh : ∀ j r, existing ≠ some j → s.invites.get? j = some r → r.tokenHash ≠ invite.tokenHash := by
    intro j r hj hr hhash
    have hnot := hunique j r hr
    simp [hhash, hj] at hnot
  split at h
  · cases h
    obtain ⟨r, hr⟩ := hexisting i rfl
    refine ⟨_, rfl, ?_, fun j hj => Table.get?_modify_of_ne _ _ hj,
      fun j r hj hr => hfresh j r (by simpa using Ne.symm hj) hr⟩
    rw [Table.get?_modify_self, hr, Option.map_some]
  · cases h
    refine ⟨_, rfl, Table.get?_insert_self _ _, fun j hj => ?_, fun j r hj hr => hfresh j r (by simp) hr⟩
    rw [Table.get?_insert, if_neg hj]

/-- What `CreateEmailInvite` writes besides its idempotency record: nothing but repaired deliveries, or a token. -/
inductive Rotates (config : Config) (invites invites' : Table Invite) (o : Nat) (token : String) (now : Int)
    (persisted : PersistedInvite) : Prop
  | replayed (hinvites : invites' = invites) (htoken : persisted.rawToken = none)
  | issued (invite : Invite) (hissues : Issues invites invites' persisted.inviteId invite)
    (htoken : persisted.rawToken = some token) (hhash : invite.tokenHash = config.hashToken token)
    (hpending : invite.status = .pending) (horganization : invite.organizationId = o)

theorem rotateInvite_ok
    (hexisting : ∀ j, existing = some j → ∃ r, s.invites.get? j = some r)
    (hhash : invite.tokenHash = config.hashToken token) (hpending : invite.status = .pending)
    (h : rotateInvite config s existing progress invite token now = .ok (persisted, s')) :
    ∃ i invites, s' = { s with idempotency := i, invites := invites } ∧
      Rotates config s.invites invites invite.organizationId token now persisted := by
  unfold rotateInvite at h
  split at h
  · obtain ⟨_, -, h⟩ := bind_eq_ok.mp h
    cases h
    exact ⟨s.idempotency, s.invites, rfl, .replayed rfl rfl⟩
  · simp only [bind_eq_ok] at h
    obtain ⟨_, -, _, -, ⟨i, _⟩, hissue, h⟩ := h
    cases h
    obtain ⟨invites, rfl, hissues⟩ := issueInvite_ok hexisting hissue
    have hsave : ∃ record, saveOrganizationInviteIdempotencyProgress { s with invites := invites } progress i now =
        { s with idempotency := record, invites := invites } := by
      unfold saveOrganizationInviteIdempotencyProgress
      split
      · exact ⟨s.idempotency, rfl⟩
      · exact ⟨_, rfl⟩
    obtain ⟨record, hsave⟩ := hsave
    exact ⟨record, invites, hsave, .issued invite hissues rfl hhash hpending rfl⟩

theorem persistOrganizationEmailInvite_ok
    (h : persistOrganizationEmailInvite config s caller req token now = .ok (persisted, s')) :
    ∃ i invites, s' = { s with idempotency := i, invites := invites } ∧
      Rotates config (repairStaleOrganizationInviteDeliveries s caller.organizationId now).invites invites
        caller.organizationId token now persisted := by
  unfold persistOrganizationEmailInvite at h
  simp only [bind_eq_ok] at h
  obtain ⟨_, -, ⟨_, _⟩, -, ⟨_, _⟩, -, _, -, _, -, _, -, ⟨_, _⟩, hprepare, h⟩ := h
  obtain ⟨i, rfl⟩ := CreateInviteRequest.prepare_ok hprepare
  refine Exists.elim (rotateInvite_ok ?_ rfl rfl h) ?_
  · intro j hj
    obtain ⟨⟨_, r⟩, hfound, rfl⟩ := Option.map_eq_some_iff.mp hj
    exact ⟨r, (Table.find?_some hfound).1⟩
  · rintro i' ⟨invites, rfl, hrotates⟩
    exact ⟨i', invites, rfl, hrotates⟩

theorem deliverOrganizationEmailInvite_ok
    (h : deliverOrganizationEmailInvite config s persisted rawToken now = .ok s') :
    s' = s ∨ ((∃ invite, s.invites.get? persisted.inviteId = some invite ∧ invite.status = .pending) ∧ s' = { s with
        invites := s.invites.modify persisted.inviteId fun r => { r with status := .revoked, updatedAt := now } }) := by
  obtain ⟨_, -, h⟩ := bind_eq_ok.mp h
  split at h
  · cases h
  rename_i invite hfound
  have hinvite := (Option.filter_eq_some_iff.mp hfound).1
  split_ifs at h with hdissolved hpending hactive
  · cases h
    exact .inr ⟨⟨invite, hinvite, hpending⟩, rfl⟩
  · cases h
    exact .inl rfl
  · cases h
    exact .inl rfl
  · simp only [bind_eq_ok] at h
    obtain ⟨_, -, _, -, _, -, h⟩ := h
    cases h
    exact .inl rfl

theorem finishOrganizationInviteDeliveryIdempotency_ok {recordId : Nat} {sent : Bool}
    (h : finishOrganizationInviteDeliveryIdempotency s recordId inviteId sent = .ok s') :
    ∃ i, s' = { s with idempotency := i } := by
  unfold finishOrganizationInviteDeliveryIdempotency at h
  by_cases hrecord : recordId = 0
  · rw [if_pos hrecord] at h
    cases h
    exact ⟨s.idempotency, rfl⟩
  · rw [if_neg hrecord] at h
    split at h
    · cases h
    · rename_i record _
      by_cases hdone : sent = true ∧ record.status = .succeeded
      · rw [if_pos hdone] at h
        cases h
        exact ⟨s.idempotency, rfl⟩
      · rw [if_neg hdone] at h
        obtain ⟨_, -, h⟩ := bind_eq_ok.mp h
        cases h
        exact ⟨_, rfl⟩

theorem finalizeOrganizationInviteDelivery_ok {deliveryStatus : DeliveryStatus}
    (h : finalizeOrganizationInviteDelivery config s persisted rawToken deliveryStatus now = .ok s') :
    ∃ i, s' = { s with
      idempotency := i
      invites := s.invites.modify persisted.inviteId fun r =>
        { r with deliveryStatus := deliveryStatus, updatedAt := now } } := by
  obtain ⟨_, -, h⟩ := bind_eq_ok.mp h
  obtain ⟨i, rfl⟩ := finishOrganizationInviteDeliveryIdempotency_ok h
  exact ⟨i, rfl⟩

theorem revokeInvite_ok (h : revokeInvite s caller inviteId now = .ok s') :
    (∃ invite, s.invites.get? inviteId = some invite ∧ invite.status = .pending) ∧
      s' = { s with
        invites := s.invites.modify inviteId fun r => { r with status := .revoked, updatedAt := now } } := by
  obtain ⟨_, -, h⟩ := bind_eq_ok.mp h
  obtain ⟨_, -, h⟩ := bind_eq_ok.mp h
  split at h
  · cases h
  rename_i invite hfound
  have hinvite := (Option.filter_eq_some_iff.mp hfound).1
  obtain ⟨_, hpending, h⟩ := bind_eq_ok.mp h
  cases h
  exact ⟨⟨invite, hinvite, ensure_eq_ok.mp hpending⟩, rfl⟩

/-- What is known of an invite that is accepted. -/
structure Accepts (config : Config) (s : State) (o : Nat) (token : String) (u : Nat) (now : Int)
    (organization : Organization) (i : Nat) (invite : Invite) (user : User) : Prop where
  locked : s.organizations.get? o = some organization
  active : organization.status = .active
  found : s.invites.find? (fun r => r.organizationId = o ∧ r.tokenHash ∈ config.inviteTokenHashes token) =
    some (i, invite)
  pending : invite.status = .pending
  current : invite.overdue now = false
  known : s.users.get? u = some user
  address : config.normalizeEmail user.email = config.normalizeEmail invite.targetEmail

theorem acceptInvite_ok {o : Nat} {u : Nat} (h : acceptInvite config s o token u now = .ok s') :
    ∃ organization i invite user, Accepts config s o token u now organization i invite user ∧
      reactivateOrganizationMember { s with
        invites := s.invites.modify i fun r => { r with status := .accepted, acceptedUserId := u, updatedAt := now } }
        o u invite.role invite.inviterUserId = .ok s' := by
  obtain ⟨_, -, h⟩ := bind_eq_ok.mp h
  obtain ⟨organization, horganization, h⟩ := bind_eq_ok.mp h
  split at h
  · cases h
  rename_i i invite hfound
  simp only [bind_eq_ok] at h
  obtain ⟨_, hpending, _, hcurrent, _, henabled, _, hundissolved, h⟩ := h
  split at h
  · cases h
  rename_i user huser
  simp only [bind_eq_ok] at h
  obtain ⟨_, haddress, _, hmember, _, -, h⟩ := h
  cases h
  have ho : invite.organizationId = o := by
    have hp := (Table.find?_some hfound).2
    exact (of_decide_eq_true hp).1
  rw [ho] at hmember
  have hactive : organization.status = .active := by
    have hdisabled := ensure_eq_ok.mp henabled
    have hdissolved := ensure_eq_ok.mp hundissolved
    cases hstatus : organization.status with
    | active => rfl
    | disabled => exact absurd hstatus hdisabled
    | dissolved => exact absurd hstatus hdissolved
  exact ⟨organization, i, invite, user,
    ⟨lockOrganizationForUpdate_ok.mp horganization, hactive, hfound, ensure_eq_ok.mp hpending,
      by simpa using ensure_eq_ok.mp hcurrent, huser, ensure_eq_ok.mp haddress⟩, hmember⟩

end CubeRouter.Organization
