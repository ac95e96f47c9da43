import CubeRouter.Billing.Session

/-!
# Charging without a session, and the final settlement

`PostConsumeQuota` (`service/quota.go`) charges an amount at once, to the funding source the request
used and to its token; `consumeOrganizationAndTokenQuotaWithRequestCount`
(`service/organization_billing.go`) is its organization branch. `SettleBilling` (`service/billing.go`)
settles the session of a request, or falls back to `PostConsumeQuota` when there is none.
-/

namespace CubeRouter.Billing

open Relational Transition Ledger

/-! ## Usage counters -/

def updateUserUsedQuota (st : Settings) (w : World) (id : Nat) (quota : Int) : World :=
  if st.batchUpdateEnabled then
    { w with pendingUsedQuota := fun i =>
        if i = id then w.pendingUsedQuota i + quota else w.pendingUsedQuota i }
  else
    { w with users := w.users.modify id fun u => { u with usedQuota := u.usedQuota + quota } }

def updateUserUsedQuotaAndRequestCount (st : Settings) (w : World) (id : Nat) (quota : Int) : World :=
  if st.batchUpdateEnabled then
    let w := updateUserUsedQuota st w id quota
    { w with pendingRequestCount := fun i =>
        if i = id then w.pendingRequestCount i + 1 else w.pendingRequestCount i }
  else
    { w with users := w.users.modify id fun u =>
        { u with usedQuota := u.usedQuota + quota, requestCount := u.requestCount + 1 } }

def updateChannelUsedQuota (st : Settings) (w : World) (id : Nat) (quota : Int) : World :=
  if st.batchUpdateEnabled then
    { w with pendingChannelUsedQuota := fun i =>
        if i = id then w.pendingChannelUsedQuota i + quota else w.pendingChannelUsedQuota i }
  else
    { w with channelUsedQuota := fun i =>
        if i = id then w.channelUsedQuota i + quota else w.channelUsedQuota i }

/-! ## Post-consumption -/

/-- What a charge without a session leaves: `fundingApplied` and `tokenApplied` tell the caller which of
the two balances moved. -/
structure PostConsumed where
  error : Option BillingError := none
  fundingApplied : Bool := false
  tokenApplied : Bool := false
  relayInfo : RelayInfo
  world : World

/-- The token's share inside the transaction. -/
def postConsumeTokenTx (env : Env) (tokens : Table Token) (relayInfo : RelayInfo) (quota : Int) :
    Except BillingError (Int × RelayInfo × Table Token) :=
  if relayInfo.isPlayground then .ok (0, relayInfo, tokens)
  else if 0 < quota then decreaseTokenQuotaTx env.now false tokens relayInfo quota none
  else increaseTokenQuotaTx env.now false tokens relayInfo (-quota) none

/-- Both balances move in one transaction; the ledger gets no session and no record. -/
def consumeOrganizationAndTokenQuotaWithRequestCount (env : Env) (relayInfo : RelayInfo) (quota : Int)
    (incrementRequestCount : Bool) (db : DB) : Except BillingError (RelayInfo × DB) :=
  if !isOrganizationBilling relayInfo || quota = 0 then
    .ok (relayInfo, db)
  else do
    let (_, _, db) ← updateOrganizationUsedQuotaTx db relayInfo.billingAccountId quota
      incrementRequestCount (decide (0 < quota)) env.now relayInfo.responsibleUserId false
    let (_, relayInfo, tokens) ← postConsumeTokenTx env db.tokens relayInfo quota
    let db := { db with tokens }
    let relayInfo ← syncOrganizationQuotaFromTx db relayInfo
    .ok (relayInfo, db)

/-- The wallet or the subscription of a personal request. -/
def postConsumeFunding (st : Settings) (relayInfo : RelayInfo) (quota : Int) (w : World) :
    Except BillingError World :=
  if relayInfo.billingSource = .subscription then
    if relayInfo.subscriptionId = 0 then .error .subscriptionIdMissing
    else if quota = 0 then .ok w
    else postConsumeUserSubscriptionDelta w relayInfo.subscriptionId quota
  else if 0 < quota then decreaseUserQuota st w relayInfo.userId quota
  else increaseUserQuota st w relayInfo.userId (-quota)

def postConsumeToken (st : Settings) (env : Env) (relayInfo : RelayInfo) (quota : Int) (w : World) :
    Except BillingError World :=
  if 0 < quota then decreaseTokenQuota st w env.now relayInfo.tokenId quota
  else increaseTokenQuota st w env.now relayInfo.tokenId (-quota)

def postConsumeQuotaWithResultCount (st : Settings) (env : Env) (relayInfo : RelayInfo) (quota : Int)
    (incrementRequestCount : Bool) (w : World) : PostConsumed :=
  if isOrganizationBilling relayInfo then
    match consumeOrganizationAndTokenQuotaWithRequestCount env relayInfo quota incrementRequestCount
      w.toDB with
    | .error e => { error := some e, relayInfo, world := w }
    | .ok (relayInfo, db) =>
      { fundingApplied := true
        tokenApplied := !relayInfo.isPlayground && 0 < relayInfo.tokenId && !relayInfo.tokenUnlimited
        relayInfo, world := { w with toDB := db } }
  else
    match postConsumeFunding st relayInfo quota w with
    | .error e => { error := some e, relayInfo, world := w }
    | .ok w =>
      if relayInfo.isPlayground then
        { fundingApplied := true, relayInfo, world := w }
      else
        match postConsumeToken st env relayInfo quota w with
        | .error e => { error := some e, fundingApplied := true, relayInfo, world := w }
        | .ok w => { fundingApplied := true, tokenApplied := true, relayInfo, world := w }

def postConsumeQuota (st : Settings) (env : Env) (relayInfo : RelayInfo) (quota : Int) (w : World) :
    PostConsumed :=
  postConsumeQuotaWithResultCount st env relayInfo quota (decide (0 < quota)) w

structure Settlement where
  error : Option BillingError := none
  request : Request
  world : World

def settleBilling (st : Settings) (env : Env) (actualQuota : Int) (r : Request) (w : World) : Settlement :=
  match r.billing with
  | some s =>
    let o := s.settle st env actualQuota w
    ⟨o.error, .withBilling o.session, o.world⟩
  | none =>
    let quotaDelta := actualQuota - r.relayInfo.finalPreConsumedQuota
    if quotaDelta ≠ 0 then
      let p := postConsumeQuota st env r.relayInfo quotaDelta w
      ⟨p.error, { r with relayInfo := p.relayInfo }, p.world⟩
    else
      ⟨none, r, w⟩

end CubeRouter.Billing
