import CubeRouter.Payment.CreditOnce

/-!
# Completing an order by hand

An administrator can complete an order that its provider has not reported. What `Amount` means differs from
provider to provider, and three places decode it: the callback of the provider, `ManualCompleteTopUp` and
`topUpCreditedQuota`, which tells how much a successful order has brought. This module says for which orders the
three agree.

They disagree on Creem orders, whose `Amount` is the quota itself, on Waffo orders while the display type is
`CNY`, and on every amount that leaves the range of one request.
-/

namespace CubeRouter.Payment

open Relational Transition Option

/-- What a successful order has brought. Old orders of the other providers may carry the quota in `Amount`; the
money that was paid tells which it is. -/
def topUpCreditedQuota (settings : Settings) (topUp : TopUp) : Int :=
  match topUp.paymentProvider with
  | .stripe => Billing.quotaFromDecimal (topUp.money * settings.quotaPerUnit)
  | .creem => Billing.quotaFromDecimal topUp.amount
  | .waffo | .waffoPancake => Billing.quotaFromDecimal (topUp.amount * settings.quotaPerUnit)
  | .unset | .epay | .alipay | .balance =>
    let rate := topUpRate settings topUp
    if 0 < topUp.money ∧ 0 < rate ∧
        |topUp.amount - topUp.money / rate * settings.quotaPerUnit| < |topUp.amount - topUp.money| then
      Billing.quotaFromDecimal topUp.amount
    else
      Billing.quotaFromDecimal (topupAmountToQuotaDecimal settings topUp.amount rate)

/-- What the callbacks are told beside the number of the order. -/
structure Notification where
  actualPaymentMethod : String := ""
  customerId : String := ""
  customerEmail : String := ""

/-- The callback of a provider. No callback takes an order of another provider. -/
def providerCallback (settings : Settings) (now : Int) (n : Notification) (provider : PaymentProvider)
    (tradeNo : String) (db : DB) : Except TopUpError (Option Int × DB) :=
  match provider with
  | .epay => rechargeEpay settings now tradeNo n.actualPaymentMethod db
  | .stripe => recharge settings now tradeNo n.customerId db
  | .alipay => rechargeAlipay settings now tradeNo db
  | .creem => rechargeCreem now tradeNo n.customerEmail db
  | .waffo => rechargeWaffo settings now tradeNo db
  | .waffoPancake => rechargeWaffoPancake settings now tradeNo db
  | .unset | .balance => .error .paymentMethodMismatch

/-- `Amount` in the unit of the display type, as quota. -/
def displayedDecimal (settings : Settings) (topUp : TopUp) : ℚ :=
  topupAmountToQuotaDecimal settings topUp.amount (topUpRate settings topUp)

/-- The order is read alike by its callback, by hand and afterwards. -/
def ReadAlike (settings : Settings) (topUp : TopUp) : Prop :=
  match topUp.paymentProvider with
  | .epay => True
  | .stripe => Decimal.roundAway (topUp.money * settings.quotaPerUnit) ≤ Billing.maxQuota
  | .alipay => Decimal.roundAway (displayedDecimal settings topUp) ≤ Billing.maxQuota
  | .creem => Decimal.roundAway (displayedDecimal settings topUp) = topUp.amount ∧ topUp.amount ≤ Billing.maxQuota
  | .waffo | .waffoPancake =>
    Decimal.roundAway (displayedDecimal settings topUp) =
        Decimal.roundAway (topUp.amount * settings.quotaPerUnit) ∧
      Decimal.roundAway (topUp.amount * settings.quotaPerUnit) ≤ Billing.maxQuota
  | .unset | .balance => True

/-! ## When a completion credits -/

/-- The wallet takes the quota. -/
def Creditable (db : DB) (userId : Nat) (quota : Int) : Prop :=
  0 < quota ∧ quota ≤ Billing.maxWalletQuota ∧
    ∃ user, db.users.get? userId = some user ∧ user.quota ≤ Billing.maxWalletQuota - quota

variable {settings : Settings} {db db' : DB} {id userId : Nat} {topUp : TopUp} {tradeNo : String} {now q : Int}

theorem creditTopUpQuota_iff {updates : User → User} :
    (∃ db', creditTopUpQuota db userId q updates = .ok db') ↔ Creditable db userId q := by
  unfold creditTopUpQuota topUpQuotaMaxCurrent Creditable
  by_cases hrange : q ≤ 0 ∨ Billing.maxWalletQuota < q
  · rw [if_pos hrange]
    constructor
    · rintro ⟨db', h⟩
      cases h
    · rintro ⟨hpos, hmax, -⟩
      omega
  · rw [if_neg hrange]
    simp only [bind, Except.bind]
    cases hget : db.users.get? userId with
    | none => simp
    | some user =>
      by_cases hroom : user.quota ≤ Billing.maxWalletQuota - q
      · simp only [hroom, some.injEq, exists_eq_left', and_true]
        constructor
        · intro _
          omega
        · intro _
          exact ⟨_, rfl⟩
      · simp [hroom]

variable {c : Completion} {d : ℚ}

theorem Completion.write_iff :
    (∃ db', c.write now id topUp db = .ok (q, db')) ↔ c.quota topUp = .ok q ∧ Creditable db topUp.userId q := by
  have hsaved : Creditable (saveTopUp db id (topUp.completed now)) topUp.userId q ↔
      Creditable db topUp.userId q := Iff.rfl
  unfold Completion.write
  have hcredits : (∃ db', creditTopUpQuota (saveTopUp db id (topUp.completed now)) topUp.userId q c.updates = .ok db') ↔
      Creditable (saveTopUp db id (topUp.completed now)) topUp.userId q := creditTopUpQuota_iff
  rw [← hsaved, ← hcredits]
  split_ifs
  all_goals
    constructor
    · rintro ⟨db', h⟩
      obtain ⟨_, hq, h1⟩ := bind_eq_ok.mp h
      obtain ⟨db1, hcredit, h2⟩ := bind_eq_ok.mp h1
      cases h2
      exact ⟨hq, _, hcredit⟩
    · rintro ⟨hq, db1, hcredit⟩
      exact ⟨db1, by simp [hq, hcredit, bind, Except.bind]⟩

/-- A completion that credits `q` has found a pending order. -/
theorem Completion.run_credits (hfound : findTopUp db tradeNo = some (id, topUp))
    (h : c.run now tradeNo db = .ok (some q, db')) : tradeNo ≠ "" ∧ topUp.status = .pending ∧
      ∃ db1, c.write now id (c.edit topUp) db = .ok (q, db1) ∧ db'.topUps = db1.topUps := by
  rcases Completion.run_cases h with ⟨hnone, -⟩ | ⟨_, _, _, db1, hsome, hmissing, hfound', hpending, -, hwrite, rfl⟩
  · cases hnone
  · cases hsome
    cases hfound.symm.trans hfound'
    exact ⟨hmissing, hpending, db1, hwrite, rfl⟩

theorem Completion.run_of_write (hmissing : tradeNo ≠ "") (hfound : findTopUp db tradeNo = some (id, topUp))
    (hpending : topUp.status = .pending) (hprovider : ∀ p ∈ c.provider, p = topUp.paymentProvider) {db1 : DB}
    (hwrite : c.write now id (c.edit topUp) db = .ok (q, db1)) : ∃ db', c.run now tradeNo db = .ok (some q, db') := by
  have hmatches : (c.provider.any fun p => decide (p ≠ topUp.paymentProvider)) = false := by
    rw [any_eq_false_iff_get]
    intro hsome
    simpa using hprovider _ (get_mem hsome)
  unfold Completion.run
  rw [if_neg hmissing, hfound]
  simp only
  rw [if_neg (by rw [hmatches]; exact Bool.false_ne_true), if_neg (by simp [hpending]),
    if_neg (not_not.mpr hpending), hwrite]
  exact ⟨_, rfl⟩

theorem Completion.run_row (hfound : findTopUp db tradeNo = some (id, topUp))
    (h : c.run now tradeNo db = .ok (some q, db')) : db'.topUps.get? id = some ((c.edit topUp).completed now) := by
  obtain ⟨-, -, _, hwrite, hrows⟩ := Completion.run_credits hfound h
  obtain ⟨-, rfl⟩ := Completion.write_ok hwrite
  rw [hrows, Table.get?_modify_self, (Table.find?_some hfound).1]
  rfl

/-! ## The three readings -/

/-- What the callback of its provider makes of an order. -/
def callbackQuota (settings : Settings) (topUp : TopUp) : Except TopUpError Int :=
  match topUp.paymentProvider with
  | .epay => displayedQuota settings topUp
  | .stripe => stripeQuota settings topUp
  | .alipay => alipayQuota settings topUp
  | .creem => walletQuota topUp.amount
  | .waffo | .waffoPancake => walletQuota (topUp.amount * settings.quotaPerUnit)
  | .unset | .balance => .error .paymentMethodMismatch

def manualQuota (settings : Settings) (topUp : TopUp) : Except TopUpError Int :=
  if topUp.paymentProvider = .stripe then stripeQuota settings topUp else displayedQuota settings topUp

/-- The providers whose orders `topUpCreditedQuota` reads without a guess. -/
def PaymentProvider.recorded : PaymentProvider → Bool
  | .stripe | .creem | .waffo | .waffoPancake => true
  | .unset | .epay | .alipay | .balance => false

theorem walletQuota_ok_iff : walletQuota d = .ok q ↔ Decimal.roundAway d = q ∧ 0 < q ∧ q ≤ Billing.maxWalletQuota := by
  unfold walletQuota
  simp only
  split_ifs with hbad
  · constructor
    · intro h
      cases h
    · rintro ⟨rfl, hpos, hmax⟩
      omega
  · constructor
    · intro h
      cases h
      omega
    · rintro ⟨rfl, -⟩
      rfl

theorem alipayQuota_ok_iff : alipayQuota settings topUp = .ok q ↔
    Billing.quotaFromDecimal (displayedDecimal settings topUp) = q ∧ 0 < q := by
  unfold alipayQuota displayedDecimal
  simp only
  split_ifs with hbad
  · constructor
    · intro h
      cases h
    · rintro ⟨rfl, hpos⟩
      omega
  · constructor
    · intro h
      cases h
      omega
    · rintro ⟨rfl, -⟩
      rfl

theorem quotaFromDecimal_eq_roundAway_iff (h : 0 < Decimal.roundAway d) :
    Billing.quotaFromDecimal d = Decimal.roundAway d ↔ Decimal.roundAway d ≤ Billing.maxQuota := by
  have hmin : Billing.minQuota < 0 := by decide
  unfold Billing.quotaFromDecimal Decimal.saturate
  split_ifs <;> omega

theorem quotaFromDecimal_pos (h : 0 < Billing.quotaFromDecimal d) : 0 < Decimal.roundAway d := by
  have hmin : Billing.minQuota < 0 := by decide
  unfold Billing.quotaFromDecimal Decimal.saturate at h
  split_ifs at h <;> omega

theorem roundAway_intCast (n : Int) : Decimal.roundAway n = n := by
  unfold Decimal.roundAway
  split_ifs
  · have hfloor : ⌊-(n : ℚ) + 1 / 2⌋ = -n := by
      rw [Int.floor_eq_iff]
      push_cast
      constructor <;> linarith
    rw [hfloor, neg_neg]
  · rw [Int.floor_eq_iff]
    constructor <;> linarith

/-- Given what the callback credits, the other two readings agree with it exactly for the orders that are read
alike. -/
theorem readAlike_iff (h : callbackQuota settings topUp = .ok q) : (manualQuota settings topUp = .ok q ∧
      (topUp.paymentProvider.recorded = true → topUpCreditedQuota settings topUp = q)) ↔ ReadAlike settings topUp := by
  unfold callbackQuota at h
  unfold manualQuota ReadAlike topUpCreditedQuota
  cases hprovider : topUp.paymentProvider with
  | unset | balance => simp [hprovider] at h
  | epay =>
    simp only [hprovider] at h
    simp [h, PaymentProvider.recorded]
  | stripe =>
    simp only [hprovider] at h
    obtain ⟨rfl, hpos, -⟩ := walletQuota_ok_iff.mp h
    simp only [if_true, PaymentProvider.recorded, true_implies, h, true_and]
    exact quotaFromDecimal_eq_roundAway_iff hpos
  | creem =>
    simp only [hprovider] at h
    obtain ⟨rfl, hpos, hmax⟩ := walletQuota_ok_iff.mp h
    simp only [reduceCtorEq, if_false, PaymentProvider.recorded, true_implies]
    rw [quotaFromDecimal_eq_roundAway_iff hpos, displayedQuota, walletQuota_ok_iff, roundAway_intCast]
    rw [roundAway_intCast] at hpos hmax
    exact and_congr_left fun _ => and_iff_left ⟨hpos, hmax⟩
  | waffo | waffoPancake =>
    simp only [hprovider] at h
    obtain ⟨rfl, hpos, hmax⟩ := walletQuota_ok_iff.mp h
    simp only [reduceCtorEq, if_false, PaymentProvider.recorded, true_implies]
    rw [quotaFromDecimal_eq_roundAway_iff hpos, displayedQuota, walletQuota_ok_iff]
    exact and_congr_left fun _ => and_iff_left ⟨hpos, hmax⟩
  | alipay =>
    simp only [hprovider] at h
    obtain ⟨rfl, hpos⟩ := alipayQuota_ok_iff.mp h
    have hround := quotaFromDecimal_pos hpos
    have hwallet : Billing.maxQuota ≤ Billing.maxWalletQuota := by decide
    simp only [reduceCtorEq, if_false, PaymentProvider.recorded, false_implies, and_true]
    rw [displayedQuota, walletQuota_ok_iff, ← quotaFromDecimal_eq_roundAway_iff hround]
    constructor
    · rintro ⟨hsame, -⟩
      exact hsame.symm
    · intro hsame
      have hle := (quotaFromDecimal_eq_roundAway_iff hround).mp hsame
      exact ⟨hsame.symm, hpos, by rw [hsame]; omega⟩

/-- What a callback that credits says about its order. -/
structure Credited (settings : Settings) (db db' : DB) (tradeNo : String) (id : Nat) (topUp : TopUp) (q : Int) :
    Prop where
  tradeNo : tradeNo ≠ ""
  pending : topUp.status = .pending
  quota : callbackQuota settings topUp = .ok q
  creditable : Creditable db topUp.userId q
  row : ∃ completed, db'.topUps.get? id = some completed ∧ completed.paymentProvider = topUp.paymentProvider ∧
    topUpCreditedQuota settings completed = topUpCreditedQuota settings topUp

theorem Completion.run_credited (hfound : findTopUp db tradeNo = some (id, topUp))
    (hedit : ∃ m, c.edit topUp = { topUp with paymentMethod := m })
    (hquota : ∀ m, c.quota { topUp with paymentMethod := m } = callbackQuota settings topUp)
    (h : c.run now tradeNo db = .ok (some q, db')) : Credited settings db db' tradeNo id topUp q := by
  obtain ⟨m, hm⟩ := hedit
  obtain ⟨hmissing, hpending, db1, hwrite, -⟩ := Completion.run_credits hfound h
  obtain ⟨hq, hcreditable⟩ := Completion.write_iff.mp ⟨db1, hwrite⟩
  have hrow := Completion.run_row hfound h
  rw [hm] at hq hcreditable hrow
  exact ⟨hmissing, hpending, (hquota m).symm.trans hq, hcreditable, _, hrow, rfl, rfl⟩

theorem providerCallback_credited {n : Notification} (hfound : findTopUp db tradeNo = some (id, topUp))
    (h : providerCallback settings now n topUp.paymentProvider tradeNo db = .ok (some q, db')) :
    Credited settings db db' tradeNo id topUp q := by
  have hkept : ∃ m, topUp = { topUp with paymentMethod := m } := ⟨topUp.paymentMethod, rfl⟩
  unfold providerCallback at h
  cases hprovider : topUp.paymentProvider with
  | unset | balance => simp [hprovider] at h
  | epay =>
    simp only [hprovider] at h
    refine Completion.run_credited hfound ?_ (fun m => ?_) h
    · simp only
      split_ifs
      · exact ⟨n.actualPaymentMethod, rfl⟩
      · exact hkept
    · rw [callbackQuota, hprovider]
      rfl
  | stripe | alipay =>
    simp only [hprovider] at h
    refine Completion.run_credited hfound hkept (fun m => ?_) (rechargeFailed_ok h)
    rw [callbackQuota, hprovider]
    rfl
  | creem =>
    simp only [hprovider] at h
    refine Completion.run_credited hfound hkept (fun m => ?_) (rechargeFailed_ok h)
    rw [callbackQuota, hprovider]
  | waffo | waffoPancake =>
    simp only [hprovider] at h
    refine Completion.run_credited hfound hkept (fun m => ?_) (rechargeFailed_ok h)
    rw [callbackQuota, hprovider]
    rfl

/-- An order that its callback can credit is completed by hand exactly with the amount that is read by hand. -/
theorem manualCompleteTopUp_iff (hfound : findTopUp db tradeNo = some (id, topUp)) (hmissing : tradeNo ≠ "")
    (hpending : topUp.status = .pending) (hcreditable : Creditable db topUp.userId q) :
    (∃ db', manualCompleteTopUp settings now tradeNo db = .ok (some q, db')) ↔ manualQuota settings topUp = .ok q := by
  constructor
  · rintro ⟨db', h⟩
    obtain ⟨-, -, db1, hwrite, -⟩ := Completion.run_credits hfound h
    exact (Completion.write_iff.mp ⟨db1, hwrite⟩).1
  · intro hq
    let byHand : Completion :=
      { missing := .orderNoMissing
        provider := none
        idempotent := true
        notPending := .orderNotPending
        quota := manualQuota settings }
    obtain ⟨db1, hwrite⟩ : ∃ db1, byHand.write now id topUp db = .ok (q, db1) :=
      Completion.write_iff.mpr ⟨hq, hcreditable⟩
    exact Completion.run_of_write hmissing hfound hpending (fun p hp => nomatch hp) hwrite

/-- **Completing by hand.** Take an order that the callback of its provider would credit with `q`. An
administrator credits the same `q`, and `topUpCreditedQuota` of the completed order is `q`, if and only if the
order is read alike. -/
theorem manual_credits_alike_iff (settings : Settings) (now now' : Int) (n : Notification) (tradeNo : String)
    (db db' : DB) (id : Nat) (topUp : TopUp) (q : Int) (hfound : findTopUp db tradeNo = some (id, topUp))
    (hcallback : providerCallback settings now n topUp.paymentProvider tradeNo db = .ok (some q, db')) :
    ((∃ db'', manualCompleteTopUp settings now' tradeNo db = .ok (some q, db'')) ∧
      ∀ completed, db'.topUps.get? id = some completed → completed.paymentProvider.recorded = true →
        topUpCreditedQuota settings completed = q) ↔ ReadAlike settings topUp := by
  have hcredited := providerCallback_credited hfound hcallback
  obtain ⟨row, hrow, hprovider, hsame⟩ := hcredited.row
  rw [← readAlike_iff hcredited.quota,
    manualCompleteTopUp_iff hfound hcredited.tradeNo hcredited.pending hcredited.creditable]
  refine and_congr_right fun _ => ?_
  constructor
  · intro h hrecorded
    rw [← hsame]
    exact h row hrow (hprovider ▸ hrecorded)
  · intro h completed hget hrecorded
    obtain rfl : row = completed := mem_unique hrow hget
    rw [hsame]
    exact h (hprovider ▸ hrecorded)

/-! A Creem order over 1000 units of quota. Its callback adds these; by hand they are taken for dollars. -/

def creemOrder : TopUp := { userId := 1, amount := 1000, tradeNo := "C1", paymentProvider := .creem }

def creemOrders : DB := { topUps := Table.empty.insert creemOrder, users := Table.empty.insert {} }

theorem creem_order_multiplied_by_hand :
    (providerCallback {} 10 {} .creem "C1" creemOrders).toOption.map Prod.fst = some (some 1000) ∧
      (manualCompleteTopUp {} 10 "C1" creemOrders).toOption.map Prod.fst = some (some 500000000) := by
  constructor <;> decide +kernel

/-- The Waffo order of two dollars. -/
theorem manual_credits_alike_waffo :
    ReadAlike {} sampleOrder ∧ ∃ db'', manualCompleteTopUp {} 11 "W1" sampleOrders = .ok (some 1000000, db'') := by
  have halike : ReadAlike {} sampleOrder := by
    show Decimal.roundAway (displayedDecimal {} sampleOrder) = Decimal.roundAway (2 * 500000) ∧
      Decimal.roundAway (2 * 500000) ≤ Billing.maxQuota
    decide +kernel
  have hcallback : (providerCallback {} 10 {} .waffo "W1" sampleOrders).toOption.map Prod.fst =
      some (some 1000000) := by decide +kernel
  obtain ⟨⟨r, db'⟩, hr, heq⟩ := map_eq_some_iff.mp hcallback
  obtain rfl : r = some 1000000 := heq
  exact ⟨halike, ((manual_credits_alike_iff {} 10 11 {} "W1" sampleOrders db' 1 sampleOrder 1000000
    (by decide +kernel) (toOption_eq_some.mp hr)).mpr halike).1⟩

end CubeRouter.Payment
