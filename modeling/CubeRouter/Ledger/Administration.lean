import CubeRouter.Ledger.Conservation

/-!
# Administration of quotas

Two operations of `service/organization.go` and `service/organization_member_quota.go` change quotas beside
the ledger: `AdjustOrganizationQuota` moves the quota of an organization and writes a record of it, and
`UpdateOrganizationMemberQuota` sets the limit of a member within the budget of the organization. Whether
the caller has the capability is decided by the policy of the organization and is an input here: `none` is
a caller that is refused, `some role` one that is let in with that role.
-/

namespace CubeRouter.Ledger

open Relational Transition

/-- The value of an `int` after an operation: sums wrap around. -/
def wrapInt (n : Int) : Int := n.bmod (2 ^ 64)

/-- `OrganizationPolicyDecision.Role`. -/
inductive PolicyRole
  | owner
  | admin
  | member
  | platformAdmin
  | platformRoot
  deriving DecidableEq

def organizationPolicyDecisionIsPlatform (role : PolicyRole) : Bool :=
  role = .platformAdmin ∨ role = .platformRoot

inductive AdministrationError
  | recordNotFound
  | permissionDenied
  | invalidQuotaAdjustment
  | idempotencyKeyRequired
  | idempotencyConflict
  | organizationDissolved
  | quotaBelowUsed
  | invalidMember
  | limitNegative
  | memberRequired
  | memberForbidden
  | memberDisabledByPlatform
  | budgetExceeded
  | sumOutOfRange
  | billing (e : BillingError)

def AdministrationError.message : AdministrationError → String
  | .recordNotFound => "record not found"
  | .permissionDenied => "permission denied"
  | .invalidQuotaAdjustment => "invalid quota adjustment request"
  | .idempotencyKeyRequired => "organization idempotency key is required"
  | .idempotencyConflict => "organization idempotency conflict"
  | .organizationDissolved => "organization dissolved"
  | .quotaBelowUsed => "quota cannot be less than used quota"
  | .invalidMember => "invalid organization member request"
  | .limitNegative => "organization member quota limit must not be negative"
  | .memberRequired => "active or disabled organization member required"
  | .memberForbidden => "organization member operation forbidden"
  | .memberDisabledByPlatform => "organization member disabled by platform"
  | .budgetExceeded => "organization member quota budget exceeded"
  | .sumOutOfRange => "value out of range"
  | .billing e => e.message

/-- The organization under its row lock, and the role the caller is let in with. -/
def lockedOrganizationManagementDecision (db : DB) (organizationId : Nat) (decision : Option PolicyRole) :
    Except AdministrationError (Organization × PolicyRole) :=
  match db.organizations.get? organizationId, decision with
  | none, _ => .error .recordNotFound
  | some _, none => .error .permissionDenied
  | some organization, some role => .ok (organization, role)

/-! ## The quota of the organization -/

structure OrganizationQuotaAdjustmentRequest where
  quotaDelta : Int
  reason : String := ""
  idempotencyKey : String

def requireOrganizationIdempotencyKey (raw : String) : Except AdministrationError String :=
  if trimSpace raw = "" then .error .idempotencyKeyRequired else .ok (trimSpace raw)

/-- `some` for an adjustment that was made before, an error for another one under its key. -/
def findReplayOrganizationQuotaAdjustment (db : DB) (operatorUserId organizationId : Nat)
    (req : OrganizationQuotaAdjustmentRequest) (idempotencyKey : String) :
    Except AdministrationError (Option OrganizationQuotaAdjustment) :=
  match db.adjustments.find? fun a => a.idempotencyKey == idempotencyKey with
  | none => .ok none
  | some (_, existing) =>
    if existing.organizationId ≠ organizationId ∨ existing.operatorUserId ≠ operatorUserId ∨
        existing.quotaDelta ≠ req.quotaDelta ∨ trimSpace existing.reason ≠ trimSpace req.reason then
      .error .idempotencyConflict
    else
      .ok (some existing)

/-- The record of `createOrganizationQuotaAdjustmentBillingRecordTx`. -/
def quotaAdjustmentBillingRecord (adjustment : OrganizationQuotaAdjustment) : OrganizationBillingRecord where
  organizationId := adjustment.organizationId
  recordKey := .adjust adjustment.idempotencyKey
  recordType := .adjustment
  quotaDelta := adjustment.quotaDelta
  usedQuotaDelta := 0
  usageQuota := 0
  quotaBefore := adjustment.quotaBefore
  quotaAfter := adjustment.quotaAfter
  usedQuotaBefore := adjustment.usedQuota
  usedQuotaAfter := adjustment.usedQuota
  responsibleUserId := adjustment.operatorUserId
  createdAt := adjustment.createdAt

def applyQuotaAdjustment (db : DB) (adjustment : OrganizationQuotaAdjustment) :
    Except AdministrationError (OrganizationQuotaAdjustment × DB) :=
  let db := { db with
    organizations := db.organizations.modify adjustment.organizationId fun o =>
      { o with quota := adjustment.quotaAfter, updatedAt := adjustment.createdAt }
    adjustments := db.adjustments.insert adjustment }
  match createOrganizationBillingRecordTx db (quotaAdjustmentBillingRecord adjustment) with
  | .ok db => .ok (adjustment, db)
  | .error e => .error (.billing e)

def adjustOrganizationQuota (operatorUserId organizationId : Nat) (decision : Option PolicyRole)
    (req : OrganizationQuotaAdjustmentRequest) (now : Int) (db : DB) :
    Except AdministrationError (OrganizationQuotaAdjustment × DB) :=
  if operatorUserId = 0 ∨ organizationId = 0 ∨ req.quotaDelta = 0 then
    .error .invalidQuotaAdjustment
  else do
    let idempotencyKey ← requireOrganizationIdempotencyKey req.idempotencyKey
    let (organization, _) ← lockedOrganizationManagementDecision db organizationId decision
    match ← findReplayOrganizationQuotaAdjustment db operatorUserId organizationId req idempotencyKey with
    | some existing => .ok (existing, db)
    | none =>
      if organization.status = .dissolved then
        .error .organizationDissolved
      else
        let quotaAfter := wrapInt (organization.quota + req.quotaDelta)
        if quotaAfter < organization.usedQuota then
          .error .quotaBelowUsed
        else
          applyQuotaAdjustment db
            { organizationId := organizationId
              operatorUserId := operatorUserId
              quotaDelta := req.quotaDelta
              quotaBefore := organization.quota
              quotaAfter := quotaAfter
              usedQuota := organization.usedQuota
              reason := trimSpace req.reason
              idempotencyKey := idempotencyKey
              createdAt := now }

/-! ## The limits of the members -/

/-- `organizationMemberQuotaStatuses`: the members whose limits take part in the budget. -/
def OrganizationMember.budgeted (member : OrganizationMember) : Bool :=
  member.status = .active ∨ member.status = .disabled

/-- The limits of the active and disabled members who are not the owner. -/
def allocatedQuota (db : DB) (organizationId ownerUserId : Nat) : Int :=
  db.members.sum fun m =>
    if m.organizationId = organizationId ∧ m.userId ≠ ownerUserId ∧ m.budgeted then m.quotaLimit else 0

/-- `SELECT SUM`, which is an error when it does not fit into the `int` it is scanned into. -/
def sumOrganizationMemberQuotaLimits (db : DB) (organizationId ownerUserId : Nat) :
    Except AdministrationError Int :=
  let allocated := allocatedQuota db organizationId ownerUserId
  if -2 ^ 63 ≤ allocated ∧ allocated < 2 ^ 63 then .ok allocated else .error .sumOutOfRange

def validateMemberQuotaBudget (currentSum currentLimit newLimit organizationQuota : Int) :
    Except AdministrationError Unit :=
  if newLimit = 0 then
    .ok ()
  else
    let newSum := wrapInt (currentSum - currentLimit + newLimit)
    if organizationQuota < currentSum then
      if currentSum < newSum then .error .budgetExceeded else .ok ()
    else if organizationQuota < newSum then
      .error .budgetExceeded
    else
      .ok ()

def ensureOrganizationMemberTargetAllowed (role : PolicyRole) (organization : Organization)
    (target : OrganizationMember) : Except AdministrationError Unit :=
  if organization.ownerUserId = target.userId then
    .error .memberForbidden
  else if target.status = .disabled ∧ target.disabledSource = .platform ∧
      !organizationPolicyDecisionIsPlatform role then
    .error .memberDisabledByPlatform
  else if target.role = .owner ∧ role ≠ .owner ∧ !organizationPolicyDecisionIsPlatform role then
    .error .memberForbidden
  else if role = .admin ∧ target.role ≠ .member then
    .error .memberForbidden
  else
    .ok ()

/-- The member whose limit is set, under its row lock. -/
def findQuotaMember (db : DB) (organizationId targetUserId : Nat) :
    Except AdministrationError (Nat × OrganizationMember) :=
  match db.members.find? fun m =>
      m.organizationId = organizationId ∧ m.userId = targetUserId ∧ m.budgeted with
  | none => .error .memberRequired
  | some found => .ok found

def updateOrganizationMemberQuota (operatorUserId organizationId : Nat) (decision : Option PolicyRole)
    (targetUserId : Nat) (limit : Int) (db : DB) : Except AdministrationError (Unit × DB) :=
  if operatorUserId = 0 ∨ organizationId = 0 ∨ targetUserId = 0 then
    .error .invalidMember
  else if limit < 0 then
    .error .limitNegative
  else do
    let (organization, role) ← lockedOrganizationManagementDecision db organizationId decision
    let (i, target) ← findQuotaMember db organizationId targetUserId
    let _ ← ensureOrganizationMemberTargetAllowed role organization target
    let allocated ← sumOrganizationMemberQuotaLimits db organizationId organization.ownerUserId
    let _ ← validateMemberQuotaBudget allocated target.quotaLimit limit organization.quota
    .ok ((), { db with members := db.members.modify i fun m => { m with quotaLimit := limit } })

/-! ## Runs -/

/-- The transactions of the ledger and of the administration of quotas. `setOrganizationStatus` is what
disabling, enabling and dissolving an organization do to the row the ledger reads. -/
inductive OrganizationOp
  | ledger (op : LedgerOp)
  | adjustOrganizationQuota (operatorUserId organizationId : Nat) (decision : Option PolicyRole)
      (req : OrganizationQuotaAdjustmentRequest) (now : Int)
  | updateOrganizationMemberQuota (operatorUserId organizationId : Nat) (decision : Option PolicyRole)
      (targetUserId : Nat) (limit : Int)
  | setOrganizationStatus (organizationId : Nat) (status : OrganizationStatus)

def OrganizationOp.apply (db : DB) : OrganizationOp → DB
  | .ledger op => op.apply db
  | .adjustOrganizationQuota operatorUserId organizationId decision req now =>
    commit (Ledger.adjustOrganizationQuota operatorUserId organizationId decision req now) db
  | .updateOrganizationMemberQuota operatorUserId organizationId decision targetUserId limit =>
    commit (Ledger.updateOrganizationMemberQuota operatorUserId organizationId decision targetUserId limit) db
  | .setOrganizationStatus organizationId status =>
    { db with organizations := db.organizations.modify organizationId fun o => { o with status } }

/-! ## What the two operations do -/

variable {db db' : DB} {operatorUserId organizationId targetUserId : Nat} {decision : Option PolicyRole}

theorem lockedOrganizationManagementDecision_ok {organization : Organization} {role : PolicyRole}
    (h : lockedOrganizationManagementDecision db organizationId decision = .ok (organization, role)) :
    db.organizations.get? organizationId = some organization := by
  unfold lockedOrganizationManagementDecision at h
  cases hget : db.organizations.get? organizationId with
  | none =>
    rw [hget] at h
    cases h
  | some =>
    cases decision with
    | none =>
      rw [hget] at h
      cases h
    | some =>
      rw [hget] at h
      cases h
      rfl

theorem adjustOrganizationQuota_ok {req : OrganizationQuotaAdjustmentRequest} {now : Int}
    {adjustment : OrganizationQuotaAdjustment}
    (h : adjustOrganizationQuota operatorUserId organizationId decision req now db = .ok (adjustment, db')) :
    db' = db ∨ ∃ org a, db.organizations.get? organizationId = some org ∧
      a.organizationId = organizationId ∧ a.usedQuota = org.usedQuota ∧ org.usedQuota ≤ a.quotaAfter ∧
      db' = { db with
        organizations := db.organizations.modify organizationId fun o =>
          { o with quota := a.quotaAfter, updatedAt := a.createdAt }
        adjustments := db.adjustments.insert a
        records := db.records.insert (quotaAdjustmentBillingRecord a) } := by
  unfold adjustOrganizationQuota at h
  split_ifs at h
  simp only [bind_eq_ok] at h
  obtain ⟨_, -, ⟨org, _⟩, hlock, replay, -, h3⟩ := h
  cases replay with
  | some =>
    cases h3
    exact .inl rfl
  | none =>
    split_ifs at h3 with hdissolved hlow
    right
    unfold applyQuotaAdjustment at h3
    simp only at h3
    split at h3
    · rename_i db1 hrecord
      obtain rfl := createOrganizationBillingRecordTx_ok hrecord
      refine ⟨org, adjustment, lockedOrganizationManagementDecision_ok hlock, ?_⟩
      cases h3
      exact ⟨rfl, rfl, not_lt.mp hlow, rfl⟩
    · cases h3

theorem findQuotaMember_ok {i : Nat} {target : OrganizationMember}
    (h : findQuotaMember db organizationId targetUserId = .ok (i, target)) :
    db.members.get? i = some target ∧ target.organizationId = organizationId ∧
      target.userId = targetUserId ∧ target.budgeted = true := by
  unfold findQuotaMember at h
  split at h
  · cases h
  · rename_i hfound
    cases h
    obtain ⟨hget, hp⟩ := Table.find?_some hfound
    simpa [hget] using hp

theorem updateOrganizationMemberQuota_ok {limit : Int} {u : Unit}
    (h : updateOrganizationMemberQuota operatorUserId organizationId decision targetUserId limit db = .ok (u, db')) :
    0 ≤ limit ∧ ∃ org i target, db.organizations.get? organizationId = some org ∧
      findQuotaMember db organizationId targetUserId = .ok (i, target) ∧ target.userId ≠ org.ownerUserId ∧
      validateMemberQuotaBudget (allocatedQuota db organizationId org.ownerUserId) target.quotaLimit limit
        org.quota = .ok () ∧
      db' = { db with members := db.members.modify i fun m => { m with quotaLimit := limit } } := by
  unfold updateOrganizationMemberQuota at h
  split_ifs at h with hids hneg
  simp only [bind_eq_ok] at h
  obtain ⟨⟨org, _⟩, hlock, ⟨i, target⟩, htarget, _, hallowed, _, hsum, _, hvalid, h5⟩ := h
  cases h5
  refine ⟨by omega, org, i, target, lockedOrganizationManagementDecision_ok hlock, htarget, ?_, ?_, rfl⟩
  · intro howner
    unfold ensureOrganizationMemberTargetAllowed at hallowed
    rw [if_pos howner.symm] at hallowed
    cases hallowed
  · unfold sumOrganizationMemberQuotaLimits at hsum
    simp only at hsum
    split_ifs at hsum
    cases hsum
    exact hvalid

/-- All that a transaction of the ledger or of the administration can do. -/
inductive OrganizationEffect (db db' : DB) : Prop
  | ledger : LedgerEffect db db' → OrganizationEffect db db'
  | adjusted {org : Organization} {a : OrganizationQuotaAdjustment} :
      db.organizations.get? a.organizationId = some org → a.usedQuota = org.usedQuota →
      org.usedQuota ≤ a.quotaAfter →
      db' = { db with
        organizations := db.organizations.modify a.organizationId fun o =>
          { o with quota := a.quotaAfter, updatedAt := a.createdAt }
        adjustments := db.adjustments.insert a
        records := db.records.insert (quotaAdjustmentBillingRecord a) } → OrganizationEffect db db'
  | limited {i : Nat} {limit : Int} : 0 ≤ limit →
      db' = { db with members := db.members.modify i fun m => { m with quotaLimit := limit } } →
      OrganizationEffect db db'
  | status {id : Nat} {status : OrganizationStatus} :
      db' = { db with organizations := db.organizations.modify id fun o => { o with status } } →
      OrganizationEffect db db'

theorem OrganizationOp.effect (op : OrganizationOp) (db : DB) : OrganizationEffect db (op.apply db) := by
  have hsame : OrganizationEffect db db := .ledger (.nothing rfl)
  cases op with
  | ledger op => exact .ledger (op.effect db)
  | adjustOrganizationQuota =>
    refine commit_invariant hsame fun adjustment db' h => ?_
    rcases adjustOrganizationQuota_ok h with rfl | ⟨org, a, hget, rfl, hused, hle, rfl⟩
    · exact hsame
    · exact .adjusted hget hused hle rfl
  | updateOrganizationMemberQuota =>
    refine commit_invariant hsame fun _ db' h => ?_
    obtain ⟨hlimit, _, i, _, -, -, -, -, rfl⟩ := updateOrganizationMemberQuota_ok h
    exact .limited hlimit rfl
  | setOrganizationStatus _ status => exact .status rfl

/-! ## The ledger over time -/

/-- What may become of a session: it stays whose it is, its reservation only grows, and a closing is final except that
a settled session may be refunded. -/
structure Onward (s s' : OrganizationBillingSession) : Prop where
  owner : s'.idempotencyKey = s.idempotencyKey ∧ s'.organizationId = s.organizationId ∧
    s'.responsibleUserId = s.responsibleUserId
  reserved : s.preConsumedQuota ≤ s'.preConsumedQuota
  closed : ¬s.status.Open → ¬s'.status.Open ∧ s'.preConsumedQuota = s.preConsumedQuota ∧
    s'.settledQuota = s.settledQuota
  refunded : s.status = .refunded → s'.status = .refunded ∧ s'.refundedQuota = s.refundedQuota

theorem Onward.refl (s : OrganizationBillingSession) : Onward s s :=
  ⟨⟨rfl, rfl, rfl⟩, le_rfl, fun h => ⟨h, rfl, rfl⟩, fun h => ⟨h, rfl⟩⟩

theorem Onward.trans (s s' s'' : OrganizationBillingSession) (h : Onward s s') (h' : Onward s' s'') : Onward s s'' := by
  refine ⟨?_, h.reserved.trans h'.reserved, fun hs => ?_, fun hs => ?_⟩
  · simp only [h'.owner, h.owner, and_self]
  · obtain ⟨hs', hpre, hsettled⟩ := h.closed hs
    simpa only [hpre, hsettled] using h'.closed hs'
  · obtain ⟨hs', hrefunded⟩ := h.refunded hs
    simpa only [hrefunded] using h'.refunded hs'

theorem SameAmounts.onward {s s' : OrganizationBillingSession} (h : SameAmounts s s') : Onward s s' := by
  have hstatus : ¬s.status.Open → s'.status = s.status := fun hs => h.status.resolve_right fun hopen => hs hopen.1
  refine ⟨⟨h.1, h.2, h.3⟩, h.4.ge, fun hs => ⟨hstatus hs ▸ hs, h.4, h.5⟩, fun hs => ⟨?_, h.6⟩⟩
  rw [hstatus fun hopen => hopen.2 hs, hs]

theorem LedgerEffect.onward (h : LedgerEffect db db') : Table.Evolves Onward db.sessions db'.sessions := by
  have hmoved : ∀ {id s s' delta}, SessionStep db db' id s s' delta → Onward s s' →
    Table.Evolves Onward db.sessions db'.sessions :=
    fun h hs => h.sessions ▸ .modify .refl fun r hr => Option.mem_unique hr h.get ▸ hs
  cases h with
  | nothing h => exact h ▸ .refl .refl _
  | opened _ h => exact ⟨fun j r hr => ⟨r, h.kept j r hr, .refl r⟩⟩
  | reserved hdelta hopen h =>
    exact hmoved h.step ⟨⟨rfl, rfl, rfl⟩, (lt_add_of_pos_right _ hdelta).le, (absurd hopen ·), (absurd · hopen.2)⟩
  | settled _ hopen h => exact hmoved h.step ⟨⟨rfl, rfl, rfl⟩, le_rfl, (absurd hopen ·), (absurd · hopen.2)⟩
  | refunded hs h => exact hmoved h.step ⟨⟨rfl, rfl, rfl⟩, le_rfl, fun _ => ⟨(·.2 rfl), rfl, rfl⟩, (absurd · hs)⟩
  | leased hdb h => exact hdb ▸ .modify .refl fun s hs => (h s hs).onward

/-- **Sessions only move on**, whatever transactions of the ledger and of the administration commit in whatever order.
-/
theorem sessions_move_on (db : DB) (ops : List OrganizationOp) :
    Table.Evolves Onward db.sessions (run OrganizationOp.apply db ops).sessions := by
  induction ops generalizing db with
  | nil => exact .refl .refl _
  | cons op ops ih =>
    refine .trans Onward.trans ?_ (ih _)
    cases op.effect db with
    | ledger h => exact h.onward
    | adjusted _ _ _ h | limited _ h | status h => rw [h]; exact .refl .refl _

end CubeRouter.Ledger
