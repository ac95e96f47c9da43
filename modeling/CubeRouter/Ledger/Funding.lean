import CubeRouter.Ledger.Organization

/-!
# The operations of the organization ledger

`OrganizationFunding` of `service/organization_funding.go` and its operations in
`service/organization_billing.go`. One request moves two balances, the organization's `used_quota` and
the token's `remain_quota`, in one transaction; the session row is the receipt from which settlement
and refund are computed. Every operation is a function of the in-memory funding value and the database
that returns an error or the new pair.

The in-memory `session` is a copy of a row, with its id; it may be stale, and an operation reads the row
again under a lock before it moves anything.
-/

namespace CubeRouter.Ledger

open Relational Transition

/-- The funding source of one request: its relay info, its ledger session once loaded, and the quota
still held on the token. -/
structure OrganizationFunding where
  relayInfo : RelayInfo
  session : Option (Nat × OrganizationBillingSession) := none
  tokenConsumed : Int := 0
  deriving DecidableEq

def isOrganizationBilling (relayInfo : RelayInfo) : Bool :=
  relayInfo.billingAccountType == .organization && 0 < relayInfo.billingAccountId

/-! ## Identity of a session -/

/-- `unicode.IsSpace`. -/
def isSpace (c : Char) : Bool :=
  let n := c.toNat
  (9 ≤ n && n ≤ 13) || n == 0x20 || n == 0x85 || n == 0xa0 || n == 0x1680 ||
    (0x2000 ≤ n && n ≤ 0x200a) || n == 0x2028 || n == 0x2029 || n == 0x202f || n == 0x205f || n == 0x3000

def trimSpace (s : String) : String :=
  String.ofList (((s.toList.dropWhile isSpace).reverse.dropWhile isSpace).reverse)

/-- The idempotency key with the request id and the task id stored next to it. -/
structure SessionIdentity where
  key : String
  requestId : String
  taskId : String

/-- The request id comes first; a task completed later is found by its origin task id. The operation
is a suffix, so that a surcharge on the same request has a session of its own. -/
def organizationBillingSessionIdentity (relayInfo : RelayInfo) : Except BillingError SessionIdentity :=
  let requestId := trimSpace relayInfo.requestId
  let operation := trimSpace relayInfo.organizationBillingOperation
  let suffix := if operation ≠ "" then ":" ++ operation else ""
  let taskId := trimSpace relayInfo.originTaskId
  if requestId ≠ "" then
    .ok ⟨"request:" ++ requestId ++ suffix, requestId, ""⟩
  else if taskId ≠ "" then
    .ok ⟨"task:" ++ taskId ++ suffix, "", taskId⟩
  else
    .error .idempotencyKeyRequired

/-- The stored session is a replay of this request: same amount, token and identity. -/
def organizationBillingSessionMatches (session : OrganizationBillingSession) (relayInfo : RelayInfo)
    (amount : Int) (identity : SessionIdentity) : Bool :=
  session.organizationId == relayInfo.billingAccountId && session.preConsumedQuota == amount &&
    session.tokenId == relayInfo.tokenId && session.requestId == identity.requestId &&
    session.taskId == identity.taskId

def findSession (db : DB) (key : String) : Option (Nat × OrganizationBillingSession) :=
  db.sessions.find? fun s => s.idempotencyKey == key

/-! ## Keeping the in-memory request in step -/

def syncOrganizationQuotaFromTx (db : DB) (relayInfo : RelayInfo) : Except BillingError RelayInfo :=
  if relayInfo.billingAccountId = 0 then
    .ok relayInfo
  else
    match db.organizations.get? relayInfo.billingAccountId with
    | none => .error .recordNotFound
    | some org => .ok { relayInfo with
        organizationId := relayInfo.billingAccountId
        organizationQuota := org.quota - org.usedQuota }

/-- `f.session = &session` and `syncOrganizationBillingSessionToRelayInfo`. -/
def OrganizationFunding.withSession (f : OrganizationFunding) (id : Nat)
    (session : OrganizationBillingSession) (tokenConsumed : Int) : OrganizationFunding where
  relayInfo := { f.relayInfo with
    organizationBillingSessionId := id
    organizationBillingSessionKey := session.idempotencyKey }
  session := some (id, session)
  tokenConsumed := tokenConsumed

/-- What a session alone says about its request. -/
def organizationBillingRelayInfoFromSession (id : Nat) (session : OrganizationBillingSession) :
    RelayInfo where
  userId := session.responsibleUserId
  tokenId := session.tokenId
  tokenUnlimited := session.tokenUnlimitedQuota
  scopeType := .organization
  scopeId := session.organizationId
  billingAccountType := .organization
  billingAccountId := session.organizationId
  organizationId := session.organizationId
  creatorUserId := session.creatorUserId
  responsibleUserId := session.responsibleUserId
  originModelName := session.modelName
  usingGroup := session.group
  requestId := session.requestId
  organizationBillingSessionId := id
  organizationBillingSessionKey := session.idempotencyKey

def organizationBillingTokenQuotaRelayInfo (id : Nat) (session : OrganizationBillingSession)
    (current : RelayInfo) : RelayInfo :=
  { organizationBillingRelayInfoFromSession id session with isPlayground := current.isPlayground }

/-! ## Writing rows -/

def organizationBillingSessionTTLSeconds (env : Env) : Int :=
  if env.streamingTimeout * 2 ≤ 0 then 60 else env.streamingTimeout * 2

/-- `INSERT` of a session, refused by the unique index on `idempotency_key`. -/
def createOrganizationBillingSession (db : DB) (session : OrganizationBillingSession) :
    Except BillingError DB :=
  match findSession db session.idempotencyKey with
  | some _ => .error .sessionInsertFailure
  | none => .ok { db with sessions := db.sessions.insert session }

/-- The row is locked, so writing the changed columns back is writing the whole session. -/
def saveSession (db : DB) (id : Nat) (session : OrganizationBillingSession) : DB :=
  { db with sessions := db.sessions.modify id fun _ => session }

/-- `INSERT` of a record, refused by the unique index on `record_key`. -/
def createOrganizationBillingRecordTx (db : DB) (record : OrganizationBillingRecord) :
    Except BillingError DB :=
  match db.records.find? fun r => r.recordKey.text == record.recordKey.text with
  | some _ => .error .recordKeyConflict
  | none => .ok { db with records := db.records.insert record }

def buildOrganizationBillingRecordFromSession (id : Nat) (session : OrganizationBillingSession)
    (recordKey : RecordKey) (recordType : RecordType) (usedQuotaDelta usageQuota : Int)
    (before after : Organization) (now : Int) : OrganizationBillingRecord where
  organizationId := session.organizationId
  sessionId := id
  recordKey := recordKey
  requestId := session.requestId
  taskId := session.taskId
  recordType := recordType
  quotaDelta := 0
  usedQuotaDelta := usedQuotaDelta
  usageQuota := usageQuota
  quotaBefore := before.quota
  quotaAfter := after.quota
  usedQuotaBefore := before.usedQuota
  usedQuotaAfter := after.usedQuota
  tokenId := session.tokenId
  tokenName := session.tokenName
  responsibleUserId := session.responsibleUserId
  creatorUserId := session.creatorUserId
  modelName := session.modelName
  group := session.group
  createdAt := now

/-! ## Pre-consuming -/

/-- `some` when the key is taken by the same request, an error when by another one. -/
def OrganizationFunding.reuseOrganizationBillingSession (f : OrganizationFunding) (db : DB)
    (amount : Int) (identity : SessionIdentity) : Except BillingError (Option OrganizationFunding) :=
  match findSession db identity.key with
  | none => .ok none
  | some (id, existing) =>
    if !organizationBillingSessionMatches existing f.relayInfo amount identity then
      .error .sessionConflict
    else do
      let f := f.withSession id existing existing.tokenPreConsumedQuota
      let relayInfo ← syncOrganizationQuotaFromTx db f.relayInfo
      .ok (some { f with relayInfo })

/-- The session row that `PreConsumeWithToken` inserts, with the token the transaction loaded. -/
def newSession (env : Env) (relayInfo : RelayInfo) (token? : Option (Nat × Token)) (amount : Int)
    (identity : SessionIdentity) : OrganizationBillingSession :=
  let tokenUnlimited := token?.elim relayInfo.tokenUnlimited fun t => t.2.unlimitedQuota
  let tokenDeducted := if relayInfo.isPlayground || tokenUnlimited then 0 else amount
  { organizationId := relayInfo.billingAccountId
    idempotencyKey := identity.key
    requestId := identity.requestId
    taskId := identity.taskId
    status := .preConsumed
    preConsumedQuota := amount
    tokenPreConsumedQuota := tokenDeducted
    tokenRemainDeductedQuota := tokenDeducted
    tokenUnlimitedQuota := tokenUnlimited
    tokenId := token?.elim relayInfo.tokenId fun t => t.1
    tokenName := token?.elim "" fun t => t.2.name
    channelId := relayInfo.channelId
    responsibleUserId := relayInfo.responsibleUserId
    creatorUserId := relayInfo.creatorUserId
    modelName := relayInfo.originModelName
    group := relayInfo.usingGroup
    lastHeartbeatAt := env.now
    expiresAt := env.now + organizationBillingSessionTTLSeconds env
    createdAt := env.now
    updatedAt := env.now }

/-- The session after the token movement: what was really deducted replaces the planned amount. -/
def OrganizationBillingSession.deductedAs (session : OrganizationBillingSession) (deducted : Int) :
    OrganizationBillingSession :=
  if deducted ≠ session.tokenPreConsumedQuota then
    { session with tokenPreConsumedQuota := deducted, tokenRemainDeductedQuota := deducted }
  else
    session

/-- A pre-consumption of `0` leaves no record. -/
def recordPreConsume (db : DB) (id : Nat) (session : OrganizationBillingSession) (amount : Int)
    (before after : Organization) (now : Int) : Except BillingError DB :=
  if 0 < amount then
    createOrganizationBillingRecordTx db
      (buildOrganizationBillingRecordFromSession id session (.preConsume id) .preConsume amount 0 before
        after now)
  else
    .ok db

def OrganizationFunding.preConsumeTx (f : OrganizationFunding) (env : Env) (amount : Int)
    (identity : SessionIdentity) (db : DB) : Except BillingError (OrganizationFunding × DB) := do
  let (relayInfo, token?) ← loadTokenForQuotaTx false db.tokens f.relayInfo
  let f := { f with relayInfo }
  match ← f.reuseOrganizationBillingSession db amount identity with
  | some f => .ok (f, db)
  | none =>
    let session := newSession env relayInfo token? amount identity
    let id := db.sessions.next
    let db ← createOrganizationBillingSession db session
    let (before, after, db) ← updateOrganizationUsedQuotaTx db relayInfo.billingAccountId amount false
      true env.now relayInfo.responsibleUserId true
    let (deducted, relayInfo, tokens) ← decreaseTokenQuotaTx env.now false db.tokens relayInfo amount
      (some session.tokenUnlimitedQuota)
    let session := session.deductedAs deducted
    let db := saveSession { db with tokens } id session
    let db ← recordPreConsume db id session amount before after env.now
    let f := { f with relayInfo }.withSession id session deducted
    let relayInfo ← syncOrganizationQuotaFromTx db f.relayInfo
    .ok ({ f with relayInfo }, db)

/-- A concurrent request with the same key may have inserted its session first: the transaction is
rolled back and the session read again. -/
def OrganizationFunding.preConsumeWithToken (f : OrganizationFunding) (env : Env) (amount : Int)
    (db : DB) : Except BillingError (OrganizationFunding × DB) :=
  if !isOrganizationBilling f.relayInfo then
    .ok (f, db)
  else if amount < 0 then
    .error .quotaNegative
  else do
    let identity ← organizationBillingSessionIdentity f.relayInfo
    match f.preConsumeTx env amount identity db with
    | .ok r => .ok r
    | .error .sessionInsertFailure =>
      match ← f.reuseOrganizationBillingSession db amount identity with
      | some f => .ok (f, db)
      | none => .error .sessionInsertFailure
    | .error e => .error e

/-! ## Finding the session again -/

/-- The query of `loadSession`: by id and key when the request carries both, else by the idempotency
key. -/
def lookupSession (db : DB) (relayInfo : RelayInfo) :
    Except BillingError (Option (Nat × OrganizationBillingSession)) :=
  if 0 < relayInfo.organizationBillingSessionId then
    let sessionKey := trimSpace relayInfo.organizationBillingSessionKey
    if sessionKey = "" then
      .error .sessionKeyRequired
    else
      .ok ((db.sessions.get? relayInfo.organizationBillingSessionId).bind fun s =>
        if s.idempotencyKey == sessionKey then some (relayInfo.organizationBillingSessionId, s) else none)
  else do
    let identity ← organizationBillingSessionIdentity relayInfo
    .ok (findSession db identity.key)

def OrganizationFunding.loadSession (f : OrganizationFunding) (db : DB) :
    Except BillingError OrganizationFunding := do
  match ← lookupSession db f.relayInfo with
  | none => .error .sessionNotFound
  | some (id, session) => .ok (f.withSession id session session.tokenRemainDeductedQuota)

/-- The in-memory session, loaded when the funding has none yet. -/
def OrganizationFunding.ensureSession (f : OrganizationFunding) (db : DB) :
    Except BillingError (OrganizationFunding × Nat × OrganizationBillingSession) :=
  match f.session with
  | some (id, session) => .ok (f, id, session)
  | none => do
    let f ← f.loadSession db
    match f.session with
    | some (id, session) => .ok (f, id, session)
    | none => .error .sessionNotFound

/-- `SELECT … FOR UPDATE` of one session. -/
def lockSession (db : DB) (id : Nat) : Except BillingError OrganizationBillingSession :=
  match db.sessions.get? id with
  | none => .error .recordNotFound
  | some session => .ok session

/-! ## Reserving more -/

def OrganizationBillingSession.reserved (session : OrganizationBillingSession) (env : Env)
    (delta deducted : Int) : OrganizationBillingSession :=
  { session with
    preConsumedQuota := session.preConsumedQuota + delta
    tokenPreConsumedQuota := session.tokenPreConsumedQuota + deducted
    tokenRemainDeductedQuota := session.tokenRemainDeductedQuota + deducted
    lastHeartbeatAt := env.now
    expiresAt := env.now + organizationBillingSessionTTLSeconds env
    updatedAt := env.now }

def OrganizationFunding.reserveMoreTx (f : OrganizationFunding) (env : Env) (delta : Int) (id : Nat)
    (db : DB) : Except BillingError (OrganizationFunding × DB) := do
  let session ← lockSession db id
  if session.status = .preConsumed ∨ session.status = .failed then
    let tokenRelayInfo := organizationBillingTokenQuotaRelayInfo id session f.relayInfo
    let (before, after, db) ← updateOrganizationUsedQuotaTx db session.organizationId delta false true
      env.now session.responsibleUserId false
    let (deducted, _, tokens) ← decreaseTokenQuotaTx env.now true db.tokens tokenRelayInfo delta
      (some session.tokenUnlimitedQuota)
    let session := session.reserved env delta deducted
    let db := saveSession { db with tokens } id session
    let db ← createOrganizationBillingRecordTx db
      (buildOrganizationBillingRecordFromSession id session (.reserve id session.preConsumedQuota)
        .preConsume delta 0 before after env.now)
    let f := f.withSession id session session.tokenRemainDeductedQuota
    let relayInfo ← syncOrganizationQuotaFromTx db f.relayInfo
    .ok ({ f with relayInfo }, db)
  else
    -- a session that is settled, refunded or under repair is not topped up, and no error is raised
    .ok (f.withSession id session session.tokenRemainDeductedQuota, db)

def OrganizationFunding.reserveMoreWithToken (f : OrganizationFunding) (env : Env) (delta : Int)
    (db : DB) : Except BillingError (OrganizationFunding × DB) :=
  if !isOrganizationBilling f.relayInfo || delta ≤ 0 then
    .ok (f, db)
  else do
    let (f, id, _) ← f.ensureSession db
    f.reserveMoreTx env delta id db

/-! ## Settling -/

/-- Settling twice with one amount is a replay, with two amounts a conflict. -/
def validateOrganizationSettledQuota (session : OrganizationBillingSession) (actualQuota : Int) :
    Except BillingError Unit :=
  if session.status = .settled ∧ session.settledQuota ≠ actualQuota then
    .error .idempotencyConflict
  else
    .ok ()

def OrganizationBillingSession.settledAs (session : OrganizationBillingSession) (now actualQuota
    tokenDelta : Int) : OrganizationBillingSession :=
  { session with
    status := .settled
    settledQuota := actualQuota
    tokenRemainDeductedQuota :=
      if session.tokenRemainDeductedQuota + tokenDelta < 0 then 0
      else session.tokenRemainDeductedQuota + tokenDelta
    settledAt := now
    updatedAt := now }

/-- The token's share of a settlement; the result is negative when quota went back. -/
def settleTokenQuotaTx (now : Int) (tokens : Table Token) (relayInfo : RelayInfo) (delta : Int)
    (unlimitedQuota : Bool) : Except BillingError (Int × Table Token) :=
  if 0 < delta then do
    let (moved, _, tokens) ← decreaseTokenQuotaTx now true tokens relayInfo delta (some unlimitedQuota)
    .ok (moved, tokens)
  else if delta < 0 then do
    let (moved, _, tokens) ←
      increaseTokenQuotaTx now true tokens relayInfo (-delta) (some unlimitedQuota)
    .ok (-moved, tokens)
  else
    .ok (0, tokens)

def organizationBillingOperationViolationFee : String := "violation_fee"

/-- A violation fee never passes through a channel's relay, so its settlement books the channel. -/
def bookViolationFee (db : DB) (relayInfo : RelayInfo) (session : OrganizationBillingSession)
    (actualQuota : Int) : DB :=
  if relayInfo.organizationBillingOperation = organizationBillingOperationViolationFee ∧
      0 < session.channelId then
    { db with channelUsedQuota := fun c =>
        if c = session.channelId then db.channelUsedQuota c + actualQuota else db.channelUsedQuota c }
  else
    db

def OrganizationFunding.settleTx (f : OrganizationFunding) (env : Env) (actualQuota : Int) (id : Nat)
    (db : DB) : Except BillingError (OrganizationFunding × DB) := do
  let session ← lockSession db id
  let _ ← validateOrganizationSettledQuota session actualQuota
  if session.status = .settled then
    .ok (f.withSession id session session.tokenRemainDeductedQuota, db)
  else if session.status = .refunded then
    .error .sessionAlreadyRefunded
  else
    let tokenRelayInfo := organizationBillingTokenQuotaRelayInfo id session f.relayInfo
    let delta := actualQuota - session.preConsumedQuota
    let (before, after, db) ← updateOrganizationUsedQuotaTx db session.organizationId delta
      (decide (0 < actualQuota)) (decide (0 < delta)) env.now session.responsibleUserId false
    let (tokenDelta, tokens) ← settleTokenQuotaTx env.now db.tokens tokenRelayInfo delta
      session.tokenUnlimitedQuota
    let db := bookViolationFee { db with tokens } f.relayInfo session actualQuota
    let session := session.settledAs env.now actualQuota tokenDelta
    let db := saveSession db id session
    let db ← createOrganizationBillingRecordTx db
      (buildOrganizationBillingRecordFromSession id session (.settle id) .settle delta actualQuota before
        after env.now)
    let f := f.withSession id session session.tokenRemainDeductedQuota
    let synced ← syncOrganizationQuotaFromTx db tokenRelayInfo
    .ok ({ f with relayInfo := { f.relayInfo with
      organizationId := synced.organizationId
      organizationQuota := synced.organizationQuota } }, db)

def OrganizationFunding.settleWithTokenActual (f : OrganizationFunding) (env : Env) (actualQuota : Int)
    (db : DB) : Except BillingError (OrganizationFunding × DB) :=
  if !isOrganizationBilling f.relayInfo then
    .ok (f, db)
  else if actualQuota < 0 then
    .error .settledQuotaNegative
  else do
    let (f, id, session) ← f.ensureSession db
    let _ ← validateOrganizationSettledQuota session actualQuota
    f.settleTx env actualQuota id db

/-- The actual amount is the in-memory session's pre-consumed quota plus the difference. -/
def OrganizationFunding.settleWithToken (f : OrganizationFunding) (env : Env) (delta : Int)
    (db : DB) : Except BillingError (OrganizationFunding × DB) :=
  if !isOrganizationBilling f.relayInfo then
    .ok (f, db)
  else do
    let (f, _, session) ← f.ensureSession db
    f.settleWithTokenActual env (session.preConsumedQuota + delta) db

/-! ## Refunding -/

/-- What a refund gives back: what the session holds less what was refunded before, never negative. -/
def OrganizationBillingSession.refundQuota (session : OrganizationBillingSession) : Int :=
  let refundBasis :=
    if session.status = .settled then session.settledQuota else session.preConsumedQuota
  if refundBasis - session.refundedQuota < 0 then 0 else refundBasis - session.refundedQuota

def OrganizationBillingSession.tokenRefundQuota (session : OrganizationBillingSession) : Int :=
  if session.tokenUnlimitedQuota then session.refundQuota else session.tokenRemainDeductedQuota

def OrganizationBillingSession.refundedWith (session : OrganizationBillingSession) (now tokenRefunded :
    Int) : OrganizationBillingSession :=
  { session with
    status := .refunded
    refundedQuota := session.refundedQuota + session.refundQuota
    tokenRemainDeductedQuota :=
      if session.tokenRemainDeductedQuota - tokenRefunded < 0 then 0
      else session.tokenRemainDeductedQuota - tokenRefunded
    tokenRefunded := true
    refundedAt := now
    updatedAt := now }

/-- The token's share of a refund, given back at most once. -/
def refundTokenQuotaTx (now : Int) (tokens : Table Token) (relayInfo : RelayInfo)
    (session : OrganizationBillingSession) : Except BillingError (Int × Table Token) :=
  if 0 < session.tokenRefundQuota ∧ !session.tokenRefunded then do
    let (moved, _, tokens) ← increaseTokenQuotaTx now true tokens relayInfo session.tokenRefundQuota
      (some session.tokenUnlimitedQuota)
    .ok (moved, tokens)
  else
    .ok (0, tokens)

/-- The transaction of `RefundWithToken`. It passes through a disabled organization. -/
def OrganizationFunding.refundTx (f : OrganizationFunding) (env : Env) (id : Nat) (db : DB) :
    Except BillingError (OrganizationFunding × DB) := do
  let session ← lockSession db id
  if session.status = .refunded then
    .ok (f.withSession id session 0, db)
  else
    let tokenRelayInfo := organizationBillingTokenQuotaRelayInfo id session f.relayInfo
    let (before, after, db) ← updateOrganizationUsedQuotaTx db session.organizationId
      (-session.refundQuota) false false env.now session.responsibleUserId false
    let (tokenRefunded, tokens) ← refundTokenQuotaTx env.now db.tokens tokenRelayInfo session
    let usageQuota := if session.status = .settled then -session.refundQuota else 0
    let refunded := session.refundedWith env.now tokenRefunded
    let db := saveSession { db with tokens } id refunded
    let db ← createOrganizationBillingRecordTx db
      (buildOrganizationBillingRecordFromSession id refunded (.refund id) .refund (-session.refundQuota)
        usageQuota before after env.now)
    let f := f.withSession id refunded refunded.tokenRemainDeductedQuota
    let synced ← syncOrganizationQuotaFromTx db tokenRelayInfo
    .ok ({ f with relayInfo := { f.relayInfo with
      organizationId := synced.organizationId
      organizationQuota := synced.organizationQuota } }, db)

def OrganizationFunding.refundWithToken (f : OrganizationFunding) (env : Env) (db : DB) :
    Except BillingError (OrganizationFunding × DB) :=
  if !isOrganizationBilling f.relayInfo then
    .ok (f, db)
  else do
    let (f, id, _) ← f.ensureSession db
    f.refundTx env id db

/-! ## The lease of a session -/

def touchTTLSeconds (env : Env) (ttlSeconds : Int) : Int :=
  if ttlSeconds ≤ 0 then if env.streamingTimeout ≤ 0 then 60 else env.streamingTimeout else ttlSeconds

/-- The heartbeat of a live request. -/
def touchOrganizationBillingSession (env : Env) (relayInfo : RelayInfo) (ttlSeconds : Int) (db : DB) :
    DB :=
  if relayInfo.organizationBillingSessionId = 0 then
    db
  else
    { db with sessions := db.sessions.modify relayInfo.organizationBillingSessionId fun s =>
        if s.idempotencyKey = relayInfo.organizationBillingSessionKey ∧ s.status = .preConsumed then
          { s with
            lastHeartbeatAt := env.now
            expiresAt := env.now + touchTTLSeconds env ttlSeconds
            updatedAt := env.now }
        else s }

def organizationBillingRepairLeaseSeconds : Int := 60

/-- The `WHERE` of the claiming `UPDATE`: an expired session, or a repair whose lease ran out. -/
def OrganizationBillingSession.claimable (session : OrganizationBillingSession) (now : Int) : Bool :=
  ((session.status = .preConsumed ∨ session.status = .failed) ∧ 0 < session.expiresAt ∧
      session.expiresAt ≤ now) ∨
    (session.status = .repairing ∧
      session.lastHeartbeatAt ≤ now - organizationBillingRepairLeaseSeconds)

def OrganizationBillingSession.claimed (session : OrganizationBillingSession) (now : Int) :
    OrganizationBillingSession :=
  { session with
    status := .repairing
    repairAttempts := session.repairAttempts + 1
    lastHeartbeatAt := now
    expiresAt := now + organizationBillingRepairLeaseSeconds
    updatedAt := now }

/-- `none` when the `UPDATE` matched no row: somebody else has the session. -/
def claimExpiredOrganizationBillingSession (sessionId : Nat) (now : Int) (db : DB) :
    Option OrganizationBillingSession × DB :=
  match db.sessions.get? sessionId with
  | none => (none, db)
  | some session =>
    if session.claimable now then
      (some (session.claimed now), saveSession db sessionId (session.claimed now))
    else
      (none, db)

/-- `true` when the session was still under repair and is now `failed`. -/
def markOrganizationBillingSessionRepairFailed (sessionId : Nat) (message : String) (now : Int)
    (db : DB) : Bool × DB :=
  match db.sessions.get? sessionId with
  | none => (false, db)
  | some session =>
    if session.status = .repairing then
      (true, saveSession db sessionId { session with
        status := .failed
        errorMessage := message
        lastRepairError := message
        expiresAt := now + organizationBillingRepairLeaseSeconds
        updatedAt := now })
    else
      (false, db)

end CubeRouter.Ledger
