import CubeRouter.Lib.Table

/-!
# The rows of the organization ledger

The tables an organization request touches (`model/organization.go`, `model/organization_member.go`,
`model/organization_foundation.go`, `model/token.go`) and the part of `RelayInfo` the ledger reads.
Ids are natural numbers with `0` for "none", as the columns use them; quotas, counters and
timestamps are integers. A row carries the columns that some modelled function reads or writes; the
id of a row is its place in the `Table`.
-/

namespace CubeRouter.Ledger

open Relational

/-- `model.OrganizationStatusActive`, `…Disabled`, `…Dissolved`. -/
inductive OrganizationStatus
  | active
  | disabled
  | dissolved
  deriving DecidableEq

structure Organization where
  status : OrganizationStatus := .active
  quota : Int := 0
  usedQuota : Int := 0
  requestCount : Int := 0
  ownerUserId : Nat := 0
  updatedAt : Int := 0

/-- `model.OrganizationMemberStatus…`. -/
inductive MemberStatus
  | active
  | disabled
  | exited
  | removed
  deriving DecidableEq

/-- `model.OrganizationRole…`. -/
inductive OrganizationRole
  | owner
  | admin
  | member
  deriving DecidableEq

/-- `model.OrganizationMemberDisableSource…`; `unset` is the empty string. -/
inductive MemberDisableSource
  | unset
  | organization
  | platform
  deriving DecidableEq

structure OrganizationMember where
  organizationId : Nat
  userId : Nat
  role : OrganizationRole := .member
  status : MemberStatus := .active
  disabledSource : MemberDisableSource := .unset
  quotaLimit : Int := 0
  usedQuota : Int := 0
  deriving DecidableEq

/-- `model.OrganizationBillingSessionStatus…`. -/
inductive SessionStatus
  | preConsumed
  | repairing
  | settled
  | refunded
  | failed
  deriving DecidableEq

/-- One request's entry in the ledger, found by its unique `idempotencyKey`. -/
structure OrganizationBillingSession where
  organizationId : Nat
  idempotencyKey : String
  requestId : String := ""
  taskId : String := ""
  status : SessionStatus := .preConsumed
  preConsumedQuota : Int := 0
  settledQuota : Int := 0
  refundedQuota : Int := 0
  tokenPreConsumedQuota : Int := 0
  tokenRemainDeductedQuota : Int := 0
  tokenUnlimitedQuota : Bool := false
  tokenRefunded : Bool := false
  tokenId : Nat := 0
  tokenName : String := ""
  channelId : Nat := 0
  responsibleUserId : Nat := 0
  creatorUserId : Nat := 0
  modelName : String := ""
  group : String := ""
  errorMessage : String := ""
  repairAttempts : Nat := 0
  lastRepairError : String := ""
  lastHeartbeatAt : Int := 0
  expiresAt : Int := 0
  settledAt : Int := 0
  refundedAt : Int := 0
  createdAt : Int := 0
  updatedAt : Int := 0
  deriving DecidableEq

/-- What a session holds of its organization's `used_quota`. -/
def OrganizationBillingSession.hold (s : OrganizationBillingSession) : Int :=
  match s.status with
  | .preConsumed | .repairing | .failed => s.preConsumedQuota
  | .settled => s.settledQuota
  | .refunded => 0

/-- `model.OrganizationBillingRecordType…`. -/
inductive RecordType
  | settle
  | preConsume
  | refund
  | adjustment
  deriving DecidableEq

/-- The unique `record_key` of a ledger record, before it is written out as text. -/
inductive RecordKey
  | preConsume (session : Nat)
  | reserve (session : Nat) (preConsumedQuota : Int)
  | settle (session : Nat)
  | refund (session : Nat)
  | adjust (idempotencyKey : String)

/-- The text stored in the column (`strconv.Itoa` writes the numbers). -/
def RecordKey.text : RecordKey → String
  | .preConsume session => "pre_consume:" ++ toString session
  | .reserve session quota => "reserve:" ++ toString session ++ ":" ++ toString quota
  | .settle session => "settle:" ++ toString session
  | .refund session => "refund:" ++ toString session
  | .adjust key => "adjust:" ++ key

structure OrganizationBillingRecord where
  organizationId : Nat
  sessionId : Nat := 0
  recordKey : RecordKey
  requestId : String := ""
  taskId : String := ""
  recordType : RecordType
  quotaDelta : Int := 0
  usedQuotaDelta : Int := 0
  usageQuota : Int := 0
  quotaBefore : Int := 0
  quotaAfter : Int := 0
  usedQuotaBefore : Int := 0
  usedQuotaAfter : Int := 0
  tokenId : Nat := 0
  tokenName : String := ""
  responsibleUserId : Nat := 0
  creatorUserId : Nat := 0
  modelName : String := ""
  group : String := ""
  createdAt : Int := 0

/-- A change of an organization's quota by the platform, found by its unique `idempotencyKey`. -/
structure OrganizationQuotaAdjustment where
  organizationId : Nat
  operatorUserId : Nat
  quotaDelta : Int
  quotaBefore : Int
  quotaAfter : Int
  usedQuota : Int
  reason : String
  idempotencyKey : String
  createdAt : Int

/-- `scope_type` of a token and `BillingAccountType` of a request; `unset` is the empty string. -/
inductive ScopeType
  | unset
  | personal
  | organization
  deriving DecidableEq

/-- A status is a number that a request may set to anything; the four of `common` are named in
`Billing.TokenEdit`. -/
structure Token where
  key : String := ""
  name : String := ""
  userId : Nat := 0
  status : Int := 1
  expiredTime : Int := -1
  remainQuota : Int := 0
  usedQuota : Int := 0
  unlimitedQuota : Bool := false
  modelLimitsEnabled : Bool := false
  modelLimits : String := ""
  allowIps : Option String := some ""
  group : String := ""
  crossGroupRetry : Bool := false
  autoGroups : String := ""
  scopeType : ScopeType := .personal
  scopeId : Nat := 0
  visibility : String := "private"
  organizationId : Nat := 0
  creatorUserId : Nat := 0
  responsibleUserId : Nat := 0
  transferReason : String := ""
  disabledBySystems : Bool := false
  systemDisabledReason : String := ""
  systemDisabledRefId : Nat := 0
  systemDisabledAt : Int := 0
  previousStatus : Int := 0
  accessedTime : Int := 0
  /-- `deleted_at` is set: only an `Unscoped` query sees the row. -/
  deleted : Bool := false

/-- Where the money of a request came from; `unset` is the empty string. -/
inductive BillingSource
  | unset
  | wallet
  | subscription
  | organization
  deriving DecidableEq

/-- The fields of `relaycommon.RelayInfo` that billing reads or writes. `originTaskId` is empty when
there is no `TaskRelayInfo`, `channelId` is `0` when there is no `ChannelMeta`; `userQuota`,
`forcePreConsume` and `subscriptionId` are read by the personal funding sources only. -/
structure RelayInfo where
  requestId : String := ""
  organizationBillingOperation : String := ""
  originTaskId : String := ""
  userId : Nat := 0
  tokenId : Nat := 0
  tokenKey : String := ""
  tokenUnlimited : Bool := false
  isPlayground : Bool := false
  channelId : Nat := 0
  scopeType : ScopeType := .unset
  scopeId : Nat := 0
  billingAccountType : ScopeType := .unset
  billingAccountId : Nat := 0
  organizationId : Nat := 0
  organizationQuota : Int := 0
  creatorUserId : Nat := 0
  responsibleUserId : Nat := 0
  originModelName : String := ""
  usingGroup : String := ""
  organizationBillingSessionId : Nat := 0
  organizationBillingSessionKey : String := ""
  userQuota : Int := 0
  forcePreConsume : Bool := false
  subscriptionId : Nat := 0
  billingSource : BillingSource := .unset
  billingPreference : String := ""
  finalPreConsumedQuota : Int := 0
  deriving DecidableEq

/-- One `UPDATE organizations SET used_quota`: what the row held, the requested delta and what the
statement left there. -/
structure UsedQuotaUpdate where
  organizationId : Nat
  usedBefore : Int
  delta : Int
  usedAfter : Int

/-- The database. `channelUsedQuota` is the `used_quota` column of the channels; `usedQuotaUpdates`
is a history variable that lists every `used_quota` update made so far, newest first. -/
structure DB where
  organizations : Table Organization := .empty
  members : Table OrganizationMember := .empty
  sessions : Table OrganizationBillingSession := .empty
  records : Table OrganizationBillingRecord := .empty
  adjustments : Table OrganizationQuotaAdjustment := .empty
  tokens : Table Token := .empty
  channelUsedQuota : Nat → Int := fun _ => 0
  usedQuotaUpdates : List UsedQuotaUpdate := []

/-- The errors of the billing operations, `gorm.ErrRecordNotFound` among them. -/
inductive BillingError
  | recordNotFound
  | quotaNegative
  | tokenQuotaNegative
  | settledQuotaNegative
  | idempotencyKeyRequired
  | sessionConflict
  | sessionInsertFailure
  | sessionKeyRequired
  | sessionNotFound
  | sessionAlreadyRefunded
  | idempotencyConflict
  | organizationNotActive
  | organizationQuotaNotEnough
  | memberQuotaExceeded
  | tokenScopeInvalid
  | tokenQuotaNotEnough
  | recordKeyConflict
  | walletQuotaExceeds
  | walletQuotaLimitExceeded
  | insufficientWalletQuota
  | invalidUserSubscriptionId
  | requestIdEmpty
  | invalidUserId
  | amountNotPositive
  | subscriptionAlreadyRefunded
  | noActiveSubscription
  | subscriptionQuotaInsufficient
  | subscriptionIdMissing
  | userQuotaNotEnough
  | preConsumeQuotaNegative
  deriving DecidableEq

/-- The text of an error, without the amounts some of them end with. -/
def BillingError.message : BillingError → String
  | .recordNotFound => "record not found"
  | .quotaNegative => "quota cannot be negative"
  | .tokenQuotaNegative => "quota 不能为负数！"
  | .settledQuotaNegative => "settled quota cannot be negative"
  | .idempotencyKeyRequired => "organization billing idempotency key is required"
  | .sessionConflict => "organization billing session conflict"
  | .sessionInsertFailure => "organization billing session insert failed"
  | .sessionKeyRequired => "organization billing session key is required"
  | .sessionNotFound => "organization billing session not found: record not found"
  | .sessionAlreadyRefunded => "organization billing session already refunded"
  | .idempotencyConflict => "organization idempotency conflict"
  | .organizationNotActive => "organization is not active"
  | .organizationQuotaNotEnough => "organization quota is not enough"
  | .memberQuotaExceeded => "organization member quota is not enough"
  | .tokenScopeInvalid => "organization token quota scope is invalid"
  | .tokenQuotaNotEnough => "token quota is not enough"
  | .recordKeyConflict => "UNIQUE constraint failed: organization_billing_records.record_key"
  | .walletQuotaExceeds => "wallet quota exceeds 9007199254740991"
  | .walletQuotaLimitExceeded => "wallet quota limit exceeded"
  | .insufficientWalletQuota => "wallet quota insufficient"
  | .invalidUserSubscriptionId => "invalid userSubscriptionId"
  | .requestIdEmpty => "requestId is empty"
  | .invalidUserId => "invalid userId"
  | .amountNotPositive => "amount must be > 0"
  | .subscriptionAlreadyRefunded => "subscription pre-consume already refunded"
  | .noActiveSubscription => "no active subscription"
  | .subscriptionQuotaInsufficient => "subscription quota insufficient"
  | .subscriptionIdMissing => "subscription id is missing"
  | .userQuotaNotEnough => "用户额度不足"
  | .preConsumeQuotaNegative => "pre-consume quota cannot be negative"

/-- What an operation takes from its surroundings: the clock and `constant.StreamingTimeout`. -/
structure Env where
  now : Int
  streamingTimeout : Int

end CubeRouter.Ledger
