import CubeRouter.Ledger.Effects
import Mathlib.Data.List.Sort

/-!
# Wallets, personal tokens and subscriptions

The balances a personal request moves: `users.quota` (`model/user.go`, `model/quota_reserve.go`),
`tokens.remain_quota` and `used_quota` (`model/token.go`), and `user_subscriptions.amount_used`
(`model/subscription.go`).

With batch update on, a movement is only recorded (`addNewRecord`) and written later; the balance of an
account is therefore its column plus what is recorded and not yet written. With Redis on, a reservation
is decided by the cached balance; what Redis answers is an input here (`CacheAnswer`), because nothing in
this module depends on how the cached value came about.
-/

namespace CubeRouter.Billing

open Relational Transition Ledger

structure User where
  quota : Int := 0
  usedQuota : Int := 0
  requestCount : Int := 0

/-- `active`, `expired` or `cancelled`. -/
inductive SubscriptionStatus
  | active
  | expired
  | cancelled
  deriving DecidableEq

structure UserSubscription where
  userId : Nat
  planId : Nat := 0
  amountTotal : Int := 0
  amountUsed : Int := 0
  endTime : Int := 0
  status : SubscriptionStatus := .active
  allowWalletOverflow : Bool := true
  lastResetTime : Int := 0
  nextResetTime : Int := 0

inductive PreConsumeStatus
  | consumed
  | refunded
  deriving DecidableEq

/-- The receipt of a subscription pre-consumption, found by its unique `requestId`. -/
structure SubscriptionPreConsumeRecord where
  requestId : String
  userId : Nat := 0
  userSubscriptionId : Nat := 0
  preConsumed : Int := 0
  status : PreConsumeStatus := .consumed
  deriving DecidableEq

/-- The whole database, with the movements that batch update has recorded and not yet written. -/
structure World extends DB where
  users : Table User := .empty
  subscriptions : Table UserSubscription := .empty
  preConsumeRecords : Table SubscriptionPreConsumeRecord := .empty
  pendingUserQuota : Nat → Int := fun _ => 0
  pendingTokenQuota : Nat → Int := fun _ => 0
  pendingUsedQuota : Nat → Int := fun _ => 0
  pendingRequestCount : Nat → Int := fun _ => 0
  pendingChannelUsedQuota : Nat → Int := fun _ => 0

/-- `common.RedisEnabled`, `common.BatchUpdateEnabled`, `common.GetTrustQuota()`, and
`maybeResetUserSubscriptionWithPlanTx` at the time of the request: the row with its plan's reset applied,
or an error when the plan cannot be read. -/
structure Settings where
  redisEnabled : Bool := false
  batchUpdateEnabled : Bool := false
  trustQuota : Int := 0
  resetSubscription : UserSubscription → Except BillingError UserSubscription := .ok

/-- What the reservation script answers, after hydration when the hash was missing: `unavailable` stands
for an error and for a hash that is still missing. -/
inductive CacheAnswer
  | ok
  | insufficient
  | unavailable

def maxWalletQuota : Int := 2 ^ 53 - 1

/-! ## The wallet -/

def World.recordUserQuota (w : World) (id : Nat) (value : Int) : World :=
  { w with pendingUserQuota := fun i =>
      if i = id then w.pendingUserQuota i + value else w.pendingUserQuota i }

def World.addUserQuota (w : World) (id : Nat) (value : Int) : World :=
  { w with users := w.users.modify id fun u => { u with quota := u.quota + value } }

/-- `UPDATE users SET quota = quota - ? WHERE id = ? AND quota >= ?`. -/
def reserveUserQuotaDB (w : World) (id : Nat) (quota : Int) : Bool × World :=
  match w.users.get? id with
  | none => (false, w)
  | some user => if quota ≤ user.quota then (true, w.addUserQuota id (-quota)) else (false, w)

def persistUserQuotaDelta (st : Settings) (w : World) (id : Nat) (delta : Int) :
    Except BillingError World :=
  if st.batchUpdateEnabled then
    .ok (w.recordUserQuota id delta)
  else
    match w.users.get? id with
    | none => .error .recordNotFound
    | some _ => .ok (w.addUserQuota id delta)

def tryReserveUserQuota (st : Settings) (answer : CacheAnswer) (w : World) (id : Nat) (quota : Int) :
    Except BillingError (Bool × World) :=
  if quota < 0 then
    .error .tokenQuotaNegative
  else if quota = 0 then
    .ok (true, w)
  else if !st.redisEnabled then
    .ok (reserveUserQuotaDB w id quota)
  else
    match answer with
    | .unavailable => .ok (reserveUserQuotaDB w id quota)
    | .insufficient => .ok (false, w)
    | .ok => do
      let w ← persistUserQuotaDelta st w id (-quota)
      .ok (true, w)

/-- The `UPDATE` of `increaseUserQuota` keeps the wallet within `MaxWalletQuota`. -/
def increaseUserQuota (st : Settings) (w : World) (id : Nat) (quota : Int) : Except BillingError World :=
  if quota < 0 then
    .error .tokenQuotaNegative
  else if maxWalletQuota < quota then
    .error .walletQuotaExceeds
  else if st.batchUpdateEnabled then
    .ok (w.recordUserQuota id quota)
  else
    match w.users.get? id with
    | none => .error .recordNotFound
    | some user =>
      if user.quota ≤ maxWalletQuota - quota then .ok (w.addUserQuota id quota)
      else .error .walletQuotaLimitExceeded

/-- Without a balance check: what is missing becomes debt. -/
def decreaseUserQuota (st : Settings) (w : World) (id : Nat) (quota : Int) : Except BillingError World :=
  if quota < 0 then
    .error .tokenQuotaNegative
  else if st.batchUpdateEnabled then
    .ok (w.recordUserQuota id (-quota))
  else
    .ok (w.addUserQuota id (-quota))

/-- The user's wallet: the column with the recorded movements. -/
def World.walletQuota (w : World) (id : Nat) : Int :=
  (w.users.get? id).elim 0 (fun u => u.quota) + w.pendingUserQuota id

/-! ## The token -/

def World.recordTokenQuota (w : World) (id : Nat) (value : Int) : World :=
  { w with pendingTokenQuota := fun i =>
      if i = id then w.pendingTokenQuota i + value else w.pendingTokenQuota i }

/-- `remain_quota + ?` and `used_quota - ?` of a token that is not soft-deleted. -/
def World.addTokenQuota (w : World) (now : Int) (id : Nat) (value : Int) : World :=
  { w with tokens := w.tokens.modify id fun t =>
      if t.deleted then t
      else { t with
        remainQuota := t.remainQuota + value
        usedQuota := t.usedQuota - value
        accessedTime := now } }

def World.liveToken (w : World) (id : Nat) : Option Token :=
  (w.tokens.get? id).filter fun t => !t.deleted

def reserveTokenQuotaDB (w : World) (now : Int) (id : Nat) (quota : Int) : Bool × World :=
  match w.liveToken id with
  | none => (false, w)
  | some token =>
    if quota ≤ token.remainQuota then (true, w.addTokenQuota now id (-quota)) else (false, w)

def persistTokenQuotaDelta (st : Settings) (w : World) (now : Int) (id : Nat) (delta : Int) :
    Except BillingError World :=
  if st.batchUpdateEnabled then
    .ok (w.recordTokenQuota id delta)
  else
    match w.liveToken id with
    | none => .error .recordNotFound
    | some _ => .ok (w.addTokenQuota now id delta)

/-- The common body of `IncreaseTokenQuota` and `DecreaseTokenQuota`, which differ in the sign. -/
def moveTokenQuota (st : Settings) (w : World) (now : Int) (id : Nat) (quota delta : Int) :
    Except BillingError World :=
  if quota < 0 then
    .error .tokenQuotaNegative
  else if st.batchUpdateEnabled then
    .ok (w.recordTokenQuota id delta)
  else
    .ok (w.addTokenQuota now id delta)

def increaseTokenQuota (st : Settings) (w : World) (now : Int) (id : Nat) (quota : Int) :
    Except BillingError World :=
  moveTokenQuota st w now id quota quota

def decreaseTokenQuota (st : Settings) (w : World) (now : Int) (id : Nat) (quota : Int) :
    Except BillingError World :=
  moveTokenQuota st w now id quota (-quota)

/-- An unlimited token skips the balance check but is booked all the same. -/
def tryReserveTokenQuota (st : Settings) (answer : CacheAnswer) (w : World) (now : Int) (id : Nat)
    (quota : Int) (unlimited : Bool) : Except BillingError (Bool × World) :=
  if quota < 0 then
    .error .tokenQuotaNegative
  else if quota = 0 then
    .ok (true, w)
  else if unlimited then do
    let w ← decreaseTokenQuota st w now id quota
    .ok (true, w)
  else if !st.redisEnabled then
    .ok (reserveTokenQuotaDB w now id quota)
  else
    match answer with
    | .unavailable => .ok (reserveTokenQuotaDB w now id quota)
    | .insufficient => .ok (false, w)
    | .ok => do
      let w ← persistTokenQuotaDelta st w now id (-quota)
      .ok (true, w)

def preConsumeTokenQuota (st : Settings) (answer : CacheAnswer) (w : World) (now : Int)
    (relayInfo : RelayInfo) (quota : Int) : Except BillingError World :=
  if quota < 0 then
    .error .tokenQuotaNegative
  else if relayInfo.isPlayground then
    .ok w
  else do
    let (reserved, w) ←
      tryReserveTokenQuota st answer w now relayInfo.tokenId quota relayInfo.tokenUnlimited
    if reserved then .ok w else .error .tokenQuotaNotEnough

/-- The token's two counters: the columns with the recorded movements. -/
def World.tokenRemain (w : World) (id : Nat) : Int :=
  (w.tokens.get? id).elim 0 (fun t => t.remainQuota) + w.pendingTokenQuota id

def World.tokenUsed (w : World) (id : Nat) : Int :=
  (w.tokens.get? id).elim 0 (fun t => t.usedQuota) - w.pendingTokenQuota id

/-! ## The subscription -/

/-- Positive deltas may overdraw; a negative one stops at `0`. -/
def postConsumeUserSubscriptionDelta (w : World) (userSubscriptionId : Nat) (delta : Int) :
    Except BillingError World :=
  if userSubscriptionId = 0 then
    .error .invalidUserSubscriptionId
  else if delta = 0 then
    .ok w
  else
    match w.subscriptions.get? userSubscriptionId with
    | none => .error .recordNotFound
    | some sub =>
      let newUsed := if sub.amountUsed + delta < 0 then 0 else sub.amountUsed + delta
      .ok { w with subscriptions := w.subscriptions.modify userSubscriptionId fun _ =>
        { sub with amountUsed := newUsed } }

def findPreConsumeRecord (w : World) (requestId : String) :
    Option (Nat × SubscriptionPreConsumeRecord) :=
  w.preConsumeRecords.find? fun r => r.requestId == requestId

def World.markRefunded (w : World) (recordId : Nat) : World :=
  { w with preConsumeRecords := w.preConsumeRecords.modify recordId fun r =>
      { r with status := .refunded } }

structure SubscriptionPreConsumeResult where
  userSubscriptionId : Nat
  preConsumed : Int
  amountTotal : Int
  amountUsedAfter : Int

/-- The subscription can pay for the user now. -/
def UserSubscription.active (sub : UserSubscription) (userId : Nat) (now : Int) : Bool :=
  sub.userId = userId ∧ sub.status = .active ∧ now < sub.endTime

def hasActiveUserSubscription (w : World) (userId : Nat) (now : Int) : Except BillingError Bool :=
  if userId = 0 then .error .invalidUserId
  else .ok (w.subscriptions.find? fun sub => sub.active userId now).isSome

/-- One active subscription that forbids the overflow is enough to keep the wallet out. -/
def userActiveSubscriptionsAllowWalletOverflow (w : World) (userId : Nat) (now : Int) :
    Except BillingError Bool :=
  if userId = 0 then .error .invalidUserId
  else .ok (w.subscriptions.find? fun sub => sub.active userId now && !sub.allowWalletOverflow).isNone

/-- The user's active subscriptions, those that end first in front. -/
def activeSubscriptions (w : World) (userId : Nat) (now : Int) : List (Nat × UserSubscription) :=
  ((List.range w.subscriptions.next).filterMap fun i =>
    (w.subscriptions.get? i).bind fun sub => if sub.active userId now then some (i, sub) else none)
    |>.insertionSort fun a b => a.2.endTime ≤ b.2.endTime

/-- The loop over the candidates: each is reset when it is due, and the first one with enough left is
charged. `amount_total = 0` means no limit. -/
def consumeSubscription (st : Settings) (requestId : String) (userId : Nat) (amount : Int) :
    World → List (Nat × UserSubscription) → Except BillingError (SubscriptionPreConsumeResult × World)
  | _, [] => .error .subscriptionQuotaInsufficient
  | w, (id, candidate) :: rest => do
    let sub ← st.resetSubscription candidate
    let w := { w with subscriptions := w.subscriptions.modify id fun _ => sub }
    if 0 < sub.amountTotal ∧ sub.amountTotal - sub.amountUsed < amount then
      consumeSubscription st requestId userId amount w rest
    else
      let charged := { sub with amountUsed := sub.amountUsed + amount }
      .ok (⟨id, amount, sub.amountTotal, charged.amountUsed⟩,
        { w with
          preConsumeRecords := w.preConsumeRecords.insert
            { requestId, userId, userSubscriptionId := id, preConsumed := amount }
          subscriptions := w.subscriptions.modify id fun _ => charged })

/-- A request id that already has a record is a replay. The insert cannot meet the unique index, since
the same transaction has looked the id up. -/
def preConsumeUserSubscription (st : Settings) (now : Int) (w : World) (requestId : String)
    (userId : Nat) (amount : Int) : Except BillingError (SubscriptionPreConsumeResult × World) :=
  if userId = 0 then
    .error .invalidUserId
  else if trimSpace requestId = "" then
    .error .requestIdEmpty
  else if amount ≤ 0 then
    .error .amountNotPositive
  else
    match findPreConsumeRecord w requestId with
    | some (_, existing) =>
      if existing.status = .refunded then
        .error .subscriptionAlreadyRefunded
      else
        match w.subscriptions.get? existing.userSubscriptionId with
        | none => .error .recordNotFound
        | some sub =>
          .ok (⟨existing.userSubscriptionId, existing.preConsumed, sub.amountTotal, sub.amountUsed⟩, w)
    | none =>
      match activeSubscriptions w userId now with
      | [] => .error .noActiveSubscription
      | subs => consumeSubscription st requestId userId amount w subs

/-- Without database errors the inner transaction and the outer one commit together. -/
def refundSubscriptionPreConsume (w : World) (requestId : String) : Except BillingError World :=
  if trimSpace requestId = "" then
    .error .requestIdEmpty
  else
    match findPreConsumeRecord w requestId with
    | none => .error .recordNotFound
    | some (recordId, record) =>
      if record.status = .refunded then
        .ok w
      else if record.preConsumed ≤ 0 then
        .ok (w.markRefunded recordId)
      else do
        let w ← postConsumeUserSubscriptionDelta w record.userSubscriptionId (-record.preConsumed)
        .ok (w.markRefunded recordId)

def World.amountUsed (w : World) (id : Nat) : Int :=
  (w.subscriptions.get? id).elim 0 fun s => s.amountUsed

def World.organizationUsed (w : World) (id : Nat) : Int :=
  (w.organizations.get? id).elim 0 fun org => org.usedQuota

end CubeRouter.Billing
