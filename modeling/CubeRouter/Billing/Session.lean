import CubeRouter.Billing.Accounts

/-!
# The billing session of a request

`BillingSession` of `service/billing_session.go` with its three funding sources
(`service/funding_source.go`, `service/organization_funding.go`). A session keeps its own running total
`preConsumedQuota` and four flags; each operation looks at some of them and passes a difference to the
funding source and to the token.

An operation returns what the Go method returns together with the session and the database it leaves
(`Outcome`): after an error the session can be used again.
-/

namespace CubeRouter.Billing

open Relational Transition Ledger

/-! ## Funding sources -/

structure WalletFunding where
  userId : Nat
  /-- What was pre-consumed and reserved on the wallet; a refund gives it back. -/
  consumed : Int := 0
  deriving DecidableEq

structure SubscriptionFunding where
  requestId : String
  userId : Nat
  amount : Int
  subscriptionId : Nat := 0
  preConsumed : Int := 0
  amountTotal : Int := 0
  amountUsedAfter : Int := 0
  deriving DecidableEq

inductive FundingSource
  | wallet (f : WalletFunding)
  | subscription (f : SubscriptionFunding)
  | organization (f : OrganizationFunding)
  deriving DecidableEq

def WalletFunding.preConsume (f : WalletFunding) (st : Settings) (answer : CacheAnswer) (amount : Int)
    (w : World) : Except BillingError (WalletFunding × World) :=
  if amount ≤ 0 then
    .ok (f, w)
  else do
    let (reserved, w) ← tryReserveUserQuota st answer w f.userId amount
    if reserved then .ok ({ f with consumed := amount }, w) else .error .insufficientWalletQuota

def WalletFunding.settle (f : WalletFunding) (st : Settings) (delta : Int) (w : World) :
    Except BillingError World :=
  if delta = 0 then .ok w
  else if 0 < delta then decreaseUserQuota st w f.userId delta
  else increaseUserQuota st w f.userId (-delta)

def WalletFunding.refund (f : WalletFunding) (st : Settings) (w : World) : Except BillingError World :=
  if f.consumed ≤ 0 then .ok w else increaseUserQuota st w f.userId f.consumed

/-- The amount asked for is ignored: the funding was built with its own. -/
def SubscriptionFunding.preConsume (f : SubscriptionFunding) (st : Settings) (now : Int) (w : World) :
    Except BillingError (SubscriptionFunding × World) := do
  let (result, w) ← preConsumeUserSubscription st now w f.requestId f.userId f.amount
  .ok ({ f with
    subscriptionId := result.userSubscriptionId
    preConsumed := result.preConsumed
    amountTotal := result.amountTotal
    amountUsedAfter := result.amountUsedAfter }, w)

def SubscriptionFunding.settle (f : SubscriptionFunding) (delta : Int) (w : World) :
    Except BillingError World :=
  if delta = 0 then .ok w else postConsumeUserSubscriptionDelta w f.subscriptionId delta

/-- `refundWithRetry`: up to `n` attempts, each from the state the last one left. -/
def refundWithRetry (attempt : World → Except BillingError World) : Nat → World →
    Except BillingError World
  | 0, w => .ok w
  | 1, w => attempt w
  | n + 2, w =>
    match attempt w with
    | .ok w => .ok w
    | .error _ => refundWithRetry attempt (n + 1) w

def SubscriptionFunding.refund (f : SubscriptionFunding) (w : World) : Except BillingError World :=
  if f.preConsumed ≤ 0 then .ok w
  else refundWithRetry (fun w => refundSubscriptionPreConsume w f.requestId) 3 w

/-- What the account behind a funding source has paid so far, up to a constant: the wallet is a balance,
the other two are counters. -/
def FundingSource.taken (funding : FundingSource) (w : World) : Int :=
  match funding with
  | .wallet f => -w.walletQuota f.userId
  | .subscription f => w.amountUsed f.subscriptionId
  | .organization f => w.organizationUsed f.relayInfo.billingAccountId

/-! ## The session -/

structure BillingSession where
  relayInfo : RelayInfo
  funding : FundingSource
  preConsumedQuota : Int := 0
  tokenConsumed : Int := 0
  extraReserved : Int := 0
  trusted : Bool := false
  fundingSettled : Bool := false
  settled : Bool := false
  refunded : Bool := false
  deriving DecidableEq

/-- What a method returns (`none` is `nil`), and what it leaves. -/
structure Outcome where
  error : Option BillingError := none
  session : BillingSession
  world : World

def FundingSource.source : FundingSource → BillingSource
  | .wallet _ => .wallet
  | .subscription _ => .subscription
  | .organization _ => .organization

/-- The id of a subscription, `0` for the other sources. -/
def FundingSource.subscriptionId : FundingSource → Nat
  | .subscription f => f.subscriptionId
  | .wallet _ | .organization _ => 0

/-- The request as the funding source last saw it: the ledger keeps a request of its own in step. -/
def BillingSession.currentRelayInfo (s : BillingSession) : RelayInfo :=
  match s.funding with
  | .organization f => f.relayInfo
  | .wallet _ | .subscription _ => s.relayInfo

/-- The compatibility fields of `RelayInfo` that are read again later. -/
def BillingSession.syncRelayInfo (s : BillingSession) : BillingSession :=
  { s with relayInfo := { s.currentRelayInfo with
      finalPreConsumedQuota := s.preConsumedQuota
      billingSource := s.funding.source
      subscriptionId := s.funding.subscriptionId } }

/-- The trust bypass is for wallets only. `tokenQuota` is the `token_quota` of the request context. -/
def BillingSession.shouldTrust (s : BillingSession) (st : Settings) (tokenQuota : Int) : Bool :=
  if s.relayInfo.forcePreConsume then false
  else if st.trustQuota ≤ 0 then false
  else if !(s.relayInfo.tokenUnlimited || st.trustQuota < tokenQuota) then false
  else
    match s.funding with
    | .wallet _ => decide (st.trustQuota < s.relayInfo.userQuota)
    | .subscription _ | .organization _ => false

/-- `funding.PreConsume` of a personal source. -/
def preConsumeFunding (st : Settings) (env : Env) (answer : CacheAnswer) (funding : FundingSource)
    (amount : Int) (w : World) : Except BillingError (FundingSource × World) :=
  match funding with
  | .wallet f => do
    let (f, w) ← f.preConsume st answer amount w
    .ok (.wallet f, w)
  | .subscription f => do
    let (f, w) ← f.preConsume st env.now w
    .ok (.subscription f, w)
  | .organization f => do
    let (f, db) ← f.preConsumeWithToken env amount w.toDB
    .ok (.organization f, { w with toDB := db })

/-- Step 1 for a personal source. -/
def preConsumeToken (st : Settings) (env : Env) (answer : CacheAnswer) (relayInfo : RelayInfo) (quota : Int)
    (w : World) : Except BillingError World :=
  if 0 < quota then preConsumeTokenQuota st answer w env.now relayInfo quota else .ok w

/-- The token of a personal request is reserved first, and given back when the funding source refuses. -/
def BillingSession.preConsumePersonal (s : BillingSession) (st : Settings) (env : Env) (tokenAnswer
    fundingAnswer : CacheAnswer) (quota : Int) (w : World) : Outcome :=
  match preConsumeToken st env tokenAnswer s.relayInfo quota w with
  | .error e => ⟨some e, s, w⟩
  | .ok w =>
    let s := { s with tokenConsumed := if 0 < quota then quota else s.tokenConsumed }
    match preConsumeFunding st env fundingAnswer s.funding quota w with
    | .error e =>
      if 0 < s.tokenConsumed ∧ !s.relayInfo.isPlayground then
        ⟨some e, { s with tokenConsumed := 0 },
          ((increaseTokenQuota st w env.now s.relayInfo.tokenId s.tokenConsumed).toOption).getD w⟩
      else
        ⟨some e, s, w⟩
    | .ok (funding, w) => ⟨none, { s with funding, preConsumedQuota := quota }.syncRelayInfo, w⟩

theorem preConsumePersonal_ok {s s' : BillingSession} {st : Settings} {env : Env}
    {tokenAnswer fundingAnswer : CacheAnswer} {quota : Int} {w w' : World}
    (h : s.preConsumePersonal st env tokenAnswer fundingAnswer quota w = ⟨none, s', w'⟩) :
    ∃ w1 funding, preConsumeToken st env tokenAnswer s.relayInfo quota w = .ok w1 ∧
      preConsumeFunding st env fundingAnswer s.funding quota w1 = .ok (funding, w') ∧
      s' = { s with
        tokenConsumed := if 0 < quota then quota else s.tokenConsumed
        funding
        preConsumedQuota := quota }.syncRelayInfo := by
  unfold BillingSession.preConsumePersonal at h
  split at h
  · cases h
  · rename_i w1 htoken
    simp only at h
    split at h
    · have herror := congrArg Outcome.error h
      simp only [apply_ite Outcome.error, ite_self] at herror
      cases herror
    · rename_i funding w2 hfunding
      cases h
      exact ⟨w1, funding, htoken, hfunding, rfl⟩

/-- A trusted session pre-consumes nothing. -/
def BillingSession.effectiveQuota (s : BillingSession) (st : Settings) (tokenQuota quota : Int) : Int :=
  if s.shouldTrust st tokenQuota then 0 else quota

def BillingSession.preConsume (s : BillingSession) (st : Settings) (env : Env) (tokenAnswer
    fundingAnswer : CacheAnswer) (tokenQuota quota : Int) (w : World) : Outcome :=
  let effectiveQuota := s.effectiveQuota st tokenQuota quota
  let s := { s with trusted := s.shouldTrust st tokenQuota }
  match s.funding with
  | .organization f =>
    match f.preConsumeWithToken env effectiveQuota w.toDB with
    | .error e => ⟨some e, s, w⟩
    | .ok (f, db) =>
      let s := { s with
        funding := .organization f
        tokenConsumed := f.tokenConsumed
        preConsumedQuota := effectiveQuota }
      ⟨none, s.syncRelayInfo, { w with toDB := db }⟩
  | _ => s.preConsumePersonal st env tokenAnswer fundingAnswer effectiveQuota w

/-! ## Reserving more -/

/-- The wallet is debited without a balance check. -/
def reserveFunding (st : Settings) (funding : FundingSource) (delta : Int) (w : World) :
    Except BillingError (FundingSource × World) :=
  match funding with
  | .wallet f => do
    let w ← decreaseUserQuota st w f.userId delta
    .ok (.wallet { f with consumed := f.consumed + delta }, w)
  | .subscription f => do
    let w ← postConsumeUserSubscriptionDelta w f.subscriptionId delta
    .ok (.subscription f, w)
  | .organization _ => .error .sessionNotFound

def rollbackFundingReserve (st : Settings) (funding : FundingSource) (delta : Int) (w : World) :
    FundingSource × World :=
  match funding with
  | .wallet f =>
    match increaseUserQuota st w f.userId delta with
    | .ok w => (.wallet { f with consumed := f.consumed - delta }, w)
    | .error _ => (.wallet f, w)
  | .subscription f =>
    (.subscription f, (postConsumeUserSubscriptionDelta w f.subscriptionId (-delta)).toOption.getD w)
  | .organization f => (.organization f, w)

def reserveToken (st : Settings) (env : Env) (answer : CacheAnswer) (relayInfo : RelayInfo) (delta : Int)
    (w : World) : Except BillingError World :=
  if delta ≤ 0 ∨ relayInfo.isPlayground then .ok w
  else preConsumeTokenQuota st answer w env.now relayInfo delta

/-- The session after a top-up that was made. -/
def BillingSession.toppedUp (s : BillingSession) (funding : FundingSource) (tokenConsumed delta : Int) :
    BillingSession :=
  { s with
    funding
    preConsumedQuota := s.preConsumedQuota + delta
    tokenConsumed
    extraReserved := s.extraReserved + delta }.syncRelayInfo

/-- The two balances of a personal request move one after the other. -/
def BillingSession.reservePersonal (s : BillingSession) (st : Settings) (env : Env) (answer : CacheAnswer)
    (delta : Int) (w : World) : Outcome :=
  match reserveFunding st s.funding delta w with
  | .error e => ⟨some e, s, w⟩
  | .ok (funding, w) =>
    match reserveToken st env answer s.relayInfo delta w with
    | .error e =>
      let r := rollbackFundingReserve st funding delta w
      ⟨some e, { s with funding := r.1 }, r.2⟩
    | .ok w => ⟨none, s.toppedUp funding (s.tokenConsumed + delta) delta, w⟩

def BillingSession.reserve (s : BillingSession) (st : Settings) (env : Env) (answer : CacheAnswer)
    (targetQuota : Int) (w : World) : Outcome :=
  if s.settled ∨ s.refunded ∨ s.trusted ∨ targetQuota ≤ s.preConsumedQuota then
    ⟨none, s, w⟩
  else
    let delta := targetQuota - s.preConsumedQuota
    match s.funding with
    | .organization f =>
      match f.reserveMoreWithToken env delta w.toDB with
      | .error e => ⟨some e, s, w⟩
      | .ok (f, db) => ⟨none, s.toppedUp (.organization f) f.tokenConsumed delta, { w with toDB := db }⟩
    | _ => s.reservePersonal st env answer delta w

/-! ## Settling -/

/-- `funding.Settle` of a personal source. -/
def settleFunding (st : Settings) (funding : FundingSource) (delta : Int) (w : World) :
    Except BillingError World :=
  match funding with
  | .wallet f => f.settle st delta w
  | .subscription f => f.settle delta w
  | .organization _ => .ok w

/-- The token's share; outside playground only. -/
def settleToken (st : Settings) (env : Env) (relayInfo : RelayInfo) (delta : Int) (w : World) :
    Except BillingError World :=
  if relayInfo.isPlayground then .ok w
  else if 0 < delta then decreaseTokenQuota st w env.now relayInfo.tokenId delta
  else increaseTokenQuota st w env.now relayInfo.tokenId (-delta)

/-- The funding source is settled at most once, then the token; whatever becomes of the token, the session
is settled. -/
def BillingSession.settlePersonal (s : BillingSession) (st : Settings) (env : Env) (actualQuota : Int)
    (w : World) : Outcome :=
  if s.settled then
    ⟨none, s, w⟩
  else
    let delta := actualQuota - s.preConsumedQuota
    if delta = 0 then
      ⟨none, { s with settled := true }, w⟩
    else
      match if s.fundingSettled then .ok w else settleFunding st s.funding delta w with
      | .error e => ⟨some e, s, w⟩
      | .ok w =>
        let s := { s with fundingSettled := true, settled := true }
        match settleToken st env s.relayInfo delta w with
        | .error e => ⟨some e, s, w⟩
        | .ok w => ⟨none, s, w⟩

def BillingSession.settle (s : BillingSession) (st : Settings) (env : Env) (actualQuota : Int)
    (w : World) : Outcome :=
  match s.funding with
  | .organization f =>
    if s.settled then
      match f.settleWithTokenActual env actualQuota w.toDB with
      | .error e => ⟨some e, s, w⟩
      | .ok (f, db) => ⟨none, { s with funding := .organization f }, { w with toDB := db }⟩
    else
      match f.settleWithToken env (actualQuota - s.preConsumedQuota) w.toDB with
      | .error e => ⟨some e, s, w⟩
      | .ok (f, db) =>
        ⟨none, { s with
          funding := .organization f
          tokenConsumed := f.tokenConsumed
          fundingSettled := true
          settled := true }, { w with toDB := db }⟩
  | _ => s.settlePersonal st env actualQuota w

/-! ## Refunding -/

def BillingSession.needsRefund (s : BillingSession) : Bool :=
  if s.settled || s.refunded || s.fundingSettled then false
  else if 0 < s.tokenConsumed then true
  else
    match s.funding with
    | .organization _ => decide (0 < s.preConsumedQuota)
    | .subscription f => decide (0 < f.preConsumed)
    | .wallet _ => false

/-- `funding.Refund`; its error is only logged. -/
def refundFunding (st : Settings) (env : Env) (funding : FundingSource) (w : World) : World :=
  match funding with
  | .wallet f => (f.refund st w).toOption.getD w
  | .subscription f => (f.refund w).toOption.getD w
  | .organization f =>
    match f.refundWithToken env w.toDB with
    | .ok (_, db) => { w with toDB := db }
    | .error _ => w

/-- What was reserved on top of a subscription's pre-consumption is given back separately. -/
def refundExtraReserved (s : BillingSession) (w : World) : World :=
  match s.funding with
  | .subscription _ =>
    if 0 < s.extraReserved ∧ 0 < s.relayInfo.subscriptionId then
      (postConsumeUserSubscriptionDelta w s.relayInfo.subscriptionId (-s.extraReserved)).toOption.getD w
    else w
  | _ => w

/-- The token's share of a refund. An unlimited token is skipped, and so is an organization's, whose
ledger gives the token its part. -/
def refundToken (st : Settings) (env : Env) (s : BillingSession) (w : World) : World :=
  match s.funding with
  | .organization _ => w
  | _ =>
    if 0 < s.tokenConsumed ∧ !s.relayInfo.isPlayground ∧ !s.relayInfo.tokenUnlimited then
      (increaseTokenQuota st w env.now s.relayInfo.tokenId s.tokenConsumed).toOption.getD w
    else w

/-- The background work runs to its end before the next operation of the session. -/
def BillingSession.refund (s : BillingSession) (st : Settings) (env : Env) (w : World) :
    BillingSession × World :=
  if s.settled || s.refunded || !s.needsRefund then
    (s, w)
  else
    let s := { s with refunded := true }
    (s, refundToken st env s (refundExtraReserved s (refundFunding st env s.funding w)))

/-- `Refund` looks at `needsRefund` alone: a closed session does not need one. -/
theorem BillingSession.refund_of_needs {s : BillingSession} (h : s.needsRefund = true) (st : Settings)
    (env : Env) (w : World) :
    s.refund st env w = ({ s with refunded := true },
      refundToken st env { s with refunded := true }
        (refundExtraReserved { s with refunded := true } (refundFunding st env s.funding w))) := by
  have hopen : (s.settled || s.refunded || s.fundingSettled) = false := by
    by_contra hclosed
    rw [needsRefund, if_pos (Bool.not_eq_false _ ▸ hclosed)] at h
    cases h
  rw [Bool.or_eq_false_iff] at hopen
  unfold refund
  rw [if_neg (by simp [hopen.1, h])]

theorem BillingSession.refund_of_not_needs {s : BillingSession} (h : s.needsRefund = false) (st : Settings)
    (env : Env) (w : World) : s.refund st env w = (s, w) := by
  unfold refund
  rw [if_pos (by simp [h])]

structure Live where
  session : BillingSession
  world : World

/-! ## Choosing the funding source -/

inductive BillingPreference
  | subscriptionFirst
  | walletFirst
  | subscriptionOnly
  | walletOnly

def normalizeBillingPreference (pref : String) : BillingPreference :=
  match trimSpace pref with
  | "wallet_first" => .walletFirst
  | "subscription_only" => .subscriptionOnly
  | "wallet_only" => .walletOnly
  | _ => .subscriptionFirst

/-- What Redis answers while a session is opened: the cached wallet quota, and the reservation scripts
of the token (once for each funding source that is tried) and of the wallet. -/
structure OpenAnswers where
  userQuota : Option Int := none
  token : BillingSource → CacheAnswer := fun _ => .ok
  wallet : CacheAnswer := .ok

def getUserQuota (st : Settings) (answers : OpenAnswers) (w : World) (id : Nat) : Except BillingError Int :=
  if st.redisEnabled then
    match answers.userQuota with
    | some quota => .ok quota
    | none => .error .recordNotFound
  else
    .ok ((w.users.get? id).elim 0 fun u => u.quota)

/-- The errors that `preConsume` and `tryWallet` report as `insufficient_user_quota`. -/
def insufficientUserQuota : BillingError → Bool
  | .userQuotaNotEnough | .insufficientWalletQuota | .noActiveSubscription
  | .subscriptionQuotaInsufficient => true
  | _ => false

/-- A new session, or an error, with the database that is left. -/
abbrev Opened := Except BillingError BillingSession × World

def BillingSession.open (s : BillingSession) (st : Settings) (env : Env) (answers : OpenAnswers)
    (tokenQuota quota : Int) (w : World) : Opened :=
  let o := s.preConsume st env (answers.token s.funding.source) answers.wallet tokenQuota quota w
  match o.error with
  | some e => (.error e, o.world)
  | none => (.ok o.session, o.world)

def tryWallet (st : Settings) (env : Env) (answers : OpenAnswers) (tokenQuota quota : Int)
    (relayInfo : RelayInfo) (w : World) : Opened :=
  match getUserQuota st answers w relayInfo.userId with
  | .error e => (.error e, w)
  | .ok userQuota =>
    if userQuota ≤ 0 ∨ userQuota - quota < 0 then
      (.error .userQuotaNotEnough, w)
    else
      BillingSession.open
        { relayInfo := { relayInfo with userQuota }, funding := .wallet { userId := relayInfo.userId } }
        st env answers tokenQuota quota w

/-- At least `1` is pre-consumed, and the session counts what the subscription was asked for. -/
def trySubscription (st : Settings) (env : Env) (answers : OpenAnswers) (tokenQuota quota : Int)
    (relayInfo : RelayInfo) (w : World) : Opened :=
  let subConsume := if quota ≤ 0 then 1 else quota
  BillingSession.open
    { relayInfo
      funding := .subscription
        { requestId := relayInfo.requestId, userId := relayInfo.userId, amount := subConsume } }
    st env answers tokenQuota subConsume w

def tryWalletFirst (st : Settings) (env : Env) (answers : OpenAnswers) (tokenQuota quota : Int)
    (relayInfo : RelayInfo) (w : World) : Opened :=
  match tryWallet st env answers tokenQuota quota relayInfo w with
  | (.ok s, w) => (.ok s, w)
  | (.error e, w) =>
    if insufficientUserQuota e then trySubscription st env answers tokenQuota quota relayInfo w
    else (.error e, w)

def trySubscriptionFirst (st : Settings) (env : Env) (answers : OpenAnswers) (tokenQuota quota : Int)
    (relayInfo : RelayInfo) (w : World) : Opened :=
  match hasActiveUserSubscription w relayInfo.userId env.now with
  | .error e => (.error e, w)
  | .ok false => tryWallet st env answers tokenQuota quota relayInfo w
  | .ok true =>
    match trySubscription st env answers tokenQuota quota relayInfo w with
    | (.ok s, w) => (.ok s, w)
    | (.error e, w) =>
      if insufficientUserQuota e then
        match userActiveSubscriptionsAllowWalletOverflow w relayInfo.userId env.now with
        | .error e => (.error e, w)
        | .ok true => tryWallet st env answers tokenQuota quota relayInfo w
        | .ok false => (.error e, w)
      else (.error e, w)

/-- An organization request is paid by the organization; the preference is for personal ones. -/
def newBillingSession (st : Settings) (env : Env) (answers : OpenAnswers) (tokenQuota quota : Int)
    (relayInfo : RelayInfo) (w : World) : Opened :=
  if isOrganizationBilling relayInfo then
    BillingSession.open { relayInfo, funding := .organization { relayInfo } } st env answers tokenQuota
      quota w
  else
    match normalizeBillingPreference relayInfo.billingPreference with
    | .subscriptionOnly => trySubscription st env answers tokenQuota quota relayInfo w
    | .walletOnly => tryWallet st env answers tokenQuota quota relayInfo w
    | .walletFirst => tryWalletFirst st env answers tokenQuota quota relayInfo w
    | .subscriptionFirst => trySubscriptionFirst st env answers tokenQuota quota relayInfo w

/-- A request with its session, once it has one. The session works on the request's own `RelayInfo`. -/
structure Request where
  relayInfo : RelayInfo
  billing : Option BillingSession := none

def Request.withBilling (s : BillingSession) : Request := ⟨s.relayInfo, some s⟩

def preConsumeBilling (st : Settings) (env : Env) (answers : OpenAnswers) (tokenQuota quota : Int)
    (r : Request) (w : World) : Except BillingError Request × World :=
  if quota < 0 then
    (.error .preConsumeQuotaNegative, w)
  else
    match newBillingSession st env answers tokenQuota quota r.relayInfo w with
    | (.ok s, w) => (.ok (.withBilling s), w)
    | (.error e, w) => (.error e, w)

end CubeRouter.Billing
