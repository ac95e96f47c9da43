import CubeRouter.Billing.Realtime

/-!
# Top-up orders

The orders of `model/topup.go`. An order is completed by the callback of its payment provider or by hand, and
closed when its payment failed or ran out. Every completion is one transaction: it locks the order's row,
checks the provider and the status, saves the order as successful and adds the quota to the wallet of its
user, or is rolled back. The seven completions differ in their checks, in what they do with an order that is
already successful, in the amount and in where the order is saved: the parameters of `Completion.run`.

`entries` is a history variable: all that was ever added to or taken from a wallet, with the order it is for.
Money, rates and prices are decimals.
-/

namespace CubeRouter.Payment

open Relational Transition

/-- `common.TopUpStatus…`. -/
inductive TopUpStatus
  | pending
  | success
  | failed
  | expired
  deriving DecidableEq

/-- `PaymentProvider…`; `unset` is the empty string of an old order. -/
inductive PaymentProvider
  | unset
  | epay
  | stripe
  | creem
  | waffo
  | waffoPancake
  | alipay
  | balance
  deriving DecidableEq

structure TopUp where
  userId : Nat
  amount : Int
  money : ℚ := 0
  tradeNo : String
  paymentMethod : String := ""
  paymentProvider : PaymentProvider := .unset
  completeTime : Int := 0
  status : TopUpStatus := .pending
  rate : ℚ := 0
  deriving DecidableEq

/-- The columns of a user that a completion reads or writes. -/
structure User where
  quota : Int := 0
  email : String := ""
  stripeCustomer : String := ""
  deriving DecidableEq

/-- A change of a wallet; `orderId` is `0` for one that no order asked for. -/
structure WalletEntry where
  orderId : Nat
  userId : Nat
  quota : Int

structure DB where
  topUps : Table TopUp := .empty
  users : Table User := .empty
  entries : List WalletEntry := []

/-- The options a completion reads; `cny` is the quota display type `CNY`. -/
structure Settings where
  quotaPerUnit : ℚ := 500000
  price : ℚ := 1
  cny : Bool := false

inductive TopUpError
  | tradeNoMissing
  | orderNoMissing
  | topUpNotFound
  | orderNotFound
  | paymentMethodMismatch
  | topUpStatusInvalid
  | orderStatusInvalid
  | orderNotPending
  | invalidTopUpQuota
  | invalidQuota
  | topUpQuotaLimitExceeded
  | recordNotFound
  | rechargeFailed

def TopUpError.message : TopUpError → String
  | .tradeNoMissing => "未提供支付单号"
  | .orderNoMissing => "未提供订单号"
  | .topUpNotFound => "topup not found"
  | .orderNotFound => "充值订单不存在"
  | .paymentMethodMismatch => "payment method mismatch"
  | .topUpStatusInvalid => "topup status invalid"
  | .orderStatusInvalid => "充值订单状态错误"
  | .orderNotPending => "订单状态不是待支付，无法补单"
  | .invalidTopUpQuota => "invalid top-up quota"
  | .invalidQuota => "无效的充值额度"
  | .topUpQuotaLimitExceeded => "top-up quota limit exceeded"
  | .recordNotFound => "record not found"
  | .rechargeFailed => "充值失败，请稍后重试"

/-! ## The amount of an order -/

/-- The rate stored with the order; `0` falls back to the present price. -/
def topUpRate (settings : Settings) (topUp : TopUp) : ℚ :=
  if 0 < topUp.rate then topUp.rate else settings.price

def rmbTopupAmountToUSD (amount : Int) (exchangeRate : ℚ) : ℚ :=
  Decimal.divRound amount (if exchangeRate ≤ 0 then 1 else exchangeRate) 16

def topupAmountToQuotaDecimal (settings : Settings) (amount : Int) (rate : ℚ) : ℚ :=
  if settings.cny then rmbTopupAmountToUSD amount rate * settings.quotaPerUnit
  else amount * settings.quotaPerUnit

/-- `WalletQuotaFromDecimalStrict` with the check of its callers: an amount that is too large or not positive
is an error. -/
def walletQuota (d : ℚ) : Except TopUpError Int :=
  let quota := Decimal.roundAway d
  if Billing.maxWalletQuota < quota ∨ quota ≤ 0 then .error .invalidTopUpQuota else .ok quota

def displayedQuota (settings : Settings) (topUp : TopUp) : Except TopUpError Int :=
  walletQuota (topupAmountToQuotaDecimal settings topUp.amount (topUpRate settings topUp))

/-- Stripe orders carry dollars in `Money`. -/
def stripeQuota (settings : Settings) (topUp : TopUp) : Except TopUpError Int :=
  walletQuota (topUp.money * settings.quotaPerUnit)

/-- Alipay orders are cut to the range of one request instead of refused. -/
def alipayQuota (settings : Settings) (topUp : TopUp) : Except TopUpError Int :=
  let quota := Billing.quotaFromDecimal
    (topupAmountToQuotaDecimal settings topUp.amount (topUpRate settings topUp))
  if quota ≤ 0 then .error .invalidQuota else .ok quota

/-! ## Completing an order -/

def topUpQuotaMaxCurrent (creditedQuota : Int) : Except TopUpError Int :=
  if creditedQuota ≤ 0 ∨ Billing.maxWalletQuota < creditedQuota then .error .invalidTopUpQuota
  else .ok (Billing.maxWalletQuota - creditedQuota)

/-- One `UPDATE` checks the ceiling of the wallet and adds the quota; `updates` sets further columns. -/
def creditTopUpQuota (db : DB) (userId : Nat) (creditedQuota : Int) (updates : User → User) :
    Except TopUpError DB := do
  let maxCurrentQuota ← topUpQuotaMaxCurrent creditedQuota
  match db.users.get? userId with
  | none => .error .recordNotFound
  | some user =>
    if user.quota ≤ maxCurrentQuota then
      .ok { db with users := db.users.modify userId fun u => { updates u with quota := u.quota + creditedQuota } }
    else
      .error .topUpQuotaLimitExceeded

def findTopUp (db : DB) (tradeNo : String) : Option (Nat × TopUp) :=
  db.topUps.find? fun topUp => topUp.tradeNo == tradeNo

/-- The row is locked, so the save writes the whole order. -/
def saveTopUp (db : DB) (id : Nat) (topUp : TopUp) : DB :=
  { db with topUps := db.topUps.modify id fun _ => topUp }

/-- What distinguishes one completion from another. -/
structure Completion where
  missing : TopUpError := .tradeNoMissing
  /-- The provider the order must be of. -/
  provider : Option PaymentProvider
  notFound : TopUpError := .orderNotFound
  /-- An order that is already successful is no error. -/
  idempotent : Bool
  notPending : TopUpError := .orderStatusInvalid
  /-- The order is saved before its amount is computed. -/
  savesFirst : Bool := false
  quota : TopUp → Except TopUpError Int
  edit : TopUp → TopUp := id
  updates : User → User := id

def TopUp.completed (topUp : TopUp) (now : Int) : TopUp := { topUp with completeTime := now, status := .success }

/-- The writes of a completion, in the order the source makes them. -/
def Completion.write (c : Completion) (now : Int) (id : Nat) (topUp : TopUp) (db : DB) :
    Except TopUpError (Int × DB) :=
  if c.savesFirst then do
    let db := saveTopUp db id (topUp.completed now)
    let quota ← c.quota topUp
    let db ← creditTopUpQuota db topUp.userId quota c.updates
    .ok (quota, db)
  else do
    let quota ← c.quota topUp
    let db := saveTopUp db id (topUp.completed now)
    let db ← creditTopUpQuota db topUp.userId quota c.updates
    .ok (quota, db)

/-- The transaction: `none` when the order was successful before, else the quota that was added. -/
def Completion.run (c : Completion) (now : Int) (tradeNo : String) (db : DB) :
    Except TopUpError (Option Int × DB) :=
  if tradeNo = "" then
    .error c.missing
  else
    match findTopUp db tradeNo with
    | none => .error c.notFound
    | some (id, topUp) =>
      if c.provider.any fun provider => provider ≠ topUp.paymentProvider then
        .error .paymentMethodMismatch
      else if c.idempotent ∧ topUp.status = .success then
        .ok (none, db)
      else if topUp.status ≠ .pending then
        .error c.notPending
      else do
        let (quota, db) ← c.write now id (c.edit topUp) db
        .ok (some quota, { db with entries := ⟨id, topUp.userId, quota⟩ :: db.entries })

/-- The caller sees one text for every failure of the transaction. -/
def rechargeFailed (result : Except TopUpError (Option Int × DB)) : Except TopUpError (Option Int × DB) :=
  match result with
  | .error .tradeNoMissing => .error .tradeNoMissing
  | .error _ => .error .rechargeFailed
  | .ok r => .ok r

/-- The method the provider reports replaces the one of the order. -/
def rechargeEpay (settings : Settings) (now : Int) (tradeNo actualPaymentMethod : String) (db : DB) :
    Except TopUpError (Option Int × DB) :=
  Completion.run
    { provider := some .epay
      notFound := .topUpNotFound
      idempotent := true
      notPending := .topUpStatusInvalid
      quota := displayedQuota settings
      edit := fun topUp =>
        if actualPaymentMethod ≠ "" ∧ topUp.paymentMethod ≠ actualPaymentMethod then
          { topUp with paymentMethod := actualPaymentMethod }
        else topUp } now tradeNo db

def recharge (settings : Settings) (now : Int) (referenceId customerId : String) (db : DB) :
    Except TopUpError (Option Int × DB) :=
  rechargeFailed <| Completion.run
    { provider := some .stripe
      idempotent := false
      savesFirst := true
      quota := stripeQuota settings
      updates := fun user => { user with stripeCustomer := customerId } } now referenceId db

def rechargeAlipay (settings : Settings) (now : Int) (tradeNo : String) (db : DB) :
    Except TopUpError (Option Int × DB) :=
  rechargeFailed <| Completion.run
    { provider := some .alipay
      idempotent := true
      quota := alipayQuota settings } now tradeNo db

/-- An administrator completes an order of any provider. -/
def manualCompleteTopUp (settings : Settings) (now : Int) (tradeNo : String) (db : DB) :
    Except TopUpError (Option Int × DB) :=
  Completion.run
    { missing := .orderNoMissing
      provider := none
      idempotent := true
      notPending := .orderNotPending
      quota := fun topUp =>
        if topUp.paymentProvider = .stripe then stripeQuota settings topUp
        else displayedQuota settings topUp } now tradeNo db

/-- Creem orders carry the quota itself; a user without an address gets the one of the payment. -/
def rechargeCreem (now : Int) (referenceId customerEmail : String) (db : DB) :
    Except TopUpError (Option Int × DB) :=
  rechargeFailed <| Completion.run
    { provider := some .creem
      idempotent := false
      savesFirst := true
      quota := fun topUp => walletQuota topUp.amount
      updates := fun user =>
        if customerEmail ≠ "" ∧ user.email = "" then { user with email := customerEmail } else user }
    now referenceId db

def waffoCompletion (settings : Settings) (provider : PaymentProvider) : Completion where
  provider := some provider
  idempotent := true
  quota := fun topUp => walletQuota (topUp.amount * settings.quotaPerUnit)

def rechargeWaffo (settings : Settings) (now : Int) (tradeNo : String) (db : DB) :
    Except TopUpError (Option Int × DB) :=
  rechargeFailed ((waffoCompletion settings .waffo).run now tradeNo db)

def rechargeWaffoPancake (settings : Settings) (now : Int) (tradeNo : String) (db : DB) :
    Except TopUpError (Option Int × DB) :=
  rechargeFailed ((waffoCompletion settings .waffoPancake).run now tradeNo db)

/-- A pending order is closed; the callers pass `failed` or `expired`. -/
def updatePendingTopUpStatus (tradeNo : String) (expectedPaymentProvider : PaymentProvider)
    (targetStatus : TopUpStatus) (db : DB) : Except TopUpError (Option Int × DB) :=
  if tradeNo = "" then
    .error .tradeNoMissing
  else
    match findTopUp db tradeNo with
    | none => .error .topUpNotFound
    | some (id, topUp) =>
      if expectedPaymentProvider ≠ .unset ∧ topUp.paymentProvider ≠ expectedPaymentProvider then
        .error .paymentMethodMismatch
      else if topUp.status ≠ .pending then
        .error .topUpStatusInvalid
      else
        .ok (none, saveTopUp db id { topUp with status := targetStatus })

end CubeRouter.Payment
