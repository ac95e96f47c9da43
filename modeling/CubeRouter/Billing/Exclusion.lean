import CubeRouter.Billing.WalletSession

/-!
# Settling and refunding exclude each other

A personal session is called with `Settle`, `Refund` and `Reserve` in any order. The first `Settle` or
`Refund` that takes effect should close it: what its funding source has paid is then fixed. `Held` says
what an open session's source has paid and that it can be given back, `SessionOpen` and `SessionClosed`
are the two phases, and `Watched.step_phase` says how each call moves between them.

`Settle` looks at `settled` and not at `refunded`: after a refund it still books the difference to the
running total that was given back. `net_fixed_once_closed` therefore asks that no such call is made.
-/

namespace CubeRouter.Billing

open Relational Transition Ledger List Option

/-- The session `trySubscription` builds. -/
def BillingSession.forSubscription (relayInfo : RelayInfo) (amount : Int) : BillingSession where
  relayInfo := relayInfo
  funding := .subscription { requestId := relayInfo.requestId, userId := relayInfo.userId, amount }

variable {st : Settings} {env : Env} {base held extra delta : Int} {funding : FundingSource} {w w' : World}

/-! ## What a funding source holds -/

structure WalletHeld (st : Settings) (base held : Int) (f : WalletFunding) (w : World) : Prop where
  consumed : f.consumed = held
  taken : -w.walletQuota f.userId = base + held
  room : ∃ u, w.users.get? f.userId = some u ∧
    (st.batchUpdateEnabled = false → u.quota + held ≤ maxWalletQuota)

/-- `extra` was reserved on top of the pre-consumption, whose record is still there. -/
structure SubscriptionHeld (base held extra : Int) (f : SubscriptionFunding) (w : World) : Prop where
  row : (w.subscriptions.get? f.subscriptionId).isSome
  used : w.amountUsed f.subscriptionId = base + held
  base_nonneg : 0 ≤ base
  split : held = f.preConsumed + extra
  extra_nonneg : 0 ≤ extra
  preConsumed : 0 < f.preConsumed
  requestId : trimSpace f.requestId ≠ ""
  record : ∃ i r, findPreConsumeRecord w f.requestId = some (i, r) ∧ r.status = .consumed ∧
    r.preConsumed = f.preConsumed ∧ r.userSubscriptionId = f.subscriptionId

/-- The account has paid `held` on top of `base`, and the funding source knows how to give it back. -/
def Held (st : Settings) (base held extra : Int) (funding : FundingSource) (w : World) : Prop :=
  match funding with
  | .wallet f => WalletHeld st base held f w
  | .subscription f => SubscriptionHeld base held extra f w
  | .organization _ => False

theorem Held.taken (h : Held st base held extra funding w) : funding.taken w = base + held := by
  cases funding with
  | wallet => exact WalletHeld.taken h
  | subscription => exact SubscriptionHeld.used h
  | organization => exact h.elim

theorem taken_tokenFrame (h : TokenFrame w w') : funding.taken w' = funding.taken w := by
  obtain ⟨_, _, rfl⟩ := h
  cases funding <;> rfl

theorem Held.tokenFrame (h : Held st base held extra funding w) (hframe : TokenFrame w w') :
    Held st base held extra funding w' := by
  obtain ⟨_, _, rfl⟩ := hframe
  cases funding with
  | wallet f =>
    have h' : WalletHeld st base held f w := h
    exact ⟨h'.consumed, h'.taken, h'.room⟩
  | subscription f =>
    have h' : SubscriptionHeld base held extra f w := h
    exact ⟨h'.row, h'.used, h'.base_nonneg, h'.split, h'.extra_nonneg, h'.preConsumed, h'.requestId, h'.record⟩
  | organization => exact h.elim

theorem WalletHeld.moved {f : WalletFunding} (h : WalletHeld st base held f w)
    (hmoved : WalletMoved st w w' f.userId (-delta)) :
    WalletHeld st base (held + delta) { f with consumed := held + delta } w' := by
  have hbefore := h.taken
  have hwallet := hmoved.wallet
  obtain ⟨u, hu, hroom⟩ := h.room
  obtain ⟨u', hu', hcolumn⟩ := hmoved.stored u hu
  refine ⟨rfl, ?_, u', hu', fun hoff => ?_⟩
  · show -w'.walletQuota f.userId = base + (held + delta)
    omega
  · have hle := hroom hoff
    have heq := hcolumn hoff
    omega

variable {f : SubscriptionFunding}

theorem SubscriptionHeld.moved (h : SubscriptionHeld base held extra f w)
    (hmoved : SubscriptionMoved w w' f.subscriptionId delta) (hextra : 0 ≤ extra + delta) :
    SubscriptionHeld base (held + delta) (extra + delta) f w' := by
  have hused := hmoved.used
  have hbefore := h.used
  have hsplit := h.split
  have hrow := hmoved.row
  obtain ⟨_, rfl⟩ := hmoved.frame
  exact ⟨hrow, by omega, h.base_nonneg, by omega, hextra, h.preConsumed, h.requestId, h.record⟩

/-! ## The calls on the funding source -/

theorem Held.reserveFunding (h : Held st base held extra funding w) (hheld : 0 ≤ held) (hdelta : 0 < delta) :
    ∃ funding' w', reserveFunding st funding delta w = .ok (funding', w') ∧
      funding'.taken = funding.taken ∧ funding'.subscriptionId = funding.subscriptionId ∧
      Held st base (held + delta) (extra + delta) funding' w' := by
  cases funding with
  | wallet f =>
    have h' : WalletHeld st base held f w := h
    obtain ⟨u, hu, -⟩ := h'.room
    obtain ⟨w', hok, hmoved⟩ := decreaseUserQuota_moved st hu hdelta.le
    refine ⟨.wallet { f with consumed := held + delta }, w', ?_, rfl, rfl, h'.moved hmoved⟩
    rw [Billing.reserveFunding, hok, ← h'.consumed]
    rfl
  | subscription f =>
    have h' : SubscriptionHeld base held extra f w := h
    have hused := h'.used
    have hbase := h'.base_nonneg
    have hextra := h'.extra_nonneg
    obtain ⟨w', hok, hmoved⟩ := postConsumeUserSubscriptionDelta_moved h'.row
      (by omega : 0 ≤ w.amountUsed f.subscriptionId + delta)
    refine ⟨.subscription f, w', ?_, rfl, rfl, h'.moved hmoved (by omega)⟩
    rw [Billing.reserveFunding, hok]
    rfl
  | organization => exact h.elim

theorem Held.rollbackFundingReserve (h : Held st base (held + delta) (extra + delta) funding w)
    (hheld : 0 ≤ held) (hextra : 0 ≤ extra) (hdelta : 0 < delta) (hmax : delta ≤ maxWalletQuota) :
    (rollbackFundingReserve st funding delta w).1.taken = funding.taken ∧
      (rollbackFundingReserve st funding delta w).1.subscriptionId = funding.subscriptionId ∧
      Held st base held extra (rollbackFundingReserve st funding delta w).1
        (rollbackFundingReserve st funding delta w).2 := by
  cases funding with
  | wallet f =>
    have h' : WalletHeld st base (held + delta) f w := h
    obtain ⟨u, hu, hroom⟩ := h'.room
    have hfits : st.batchUpdateEnabled = false → u.quota + delta ≤ maxWalletQuota := by
      intro hoff
      have hle := hroom hoff
      omega
    obtain ⟨w', hok, hmoved⟩ := increaseUserQuota_moved hu hdelta.le hmax hfits
    rw [← neg_neg delta] at hmoved
    have hback := h'.moved hmoved
    rw [add_neg_cancel_right] at hback
    rw [Billing.rollbackFundingReserve, hok]
    refine ⟨rfl, rfl, ?_⟩
    show WalletHeld st base held { f with consumed := f.consumed - delta } w'
    rw [h'.consumed, add_sub_cancel_right]
    exact hback
  | subscription f =>
    have h' : SubscriptionHeld base (held + delta) (extra + delta) f w := h
    have hused := h'.used
    have hbase := h'.base_nonneg
    obtain ⟨_, hok, hmoved⟩ := postConsumeUserSubscriptionDelta_moved h'.row
      (by omega : 0 ≤ w.amountUsed f.subscriptionId + -delta)
    have hback := h'.moved hmoved (by omega)
    rw [add_neg_cancel_right, add_neg_cancel_right] at hback
    rw [Billing.rollbackFundingReserve, hok]
    exact ⟨rfl, rfl, hback⟩
  | organization => exact h.elim

theorem Held.settleFunding (h : Held st base held extra funding w) (hlow : 0 ≤ held + delta)
    (hmax : -delta ≤ maxWalletQuota) :
    ∃ w', settleFunding st funding delta w = .ok w' ∧ funding.taken w' = base + (held + delta) ∧
      w'.tokens = w.tokens ∧ w'.pendingTokenQuota = w.pendingTokenQuota := by
  cases funding with
  | wallet f =>
    have h' : WalletHeld st base held f w := h
    obtain ⟨u, hu, hroom⟩ := h'.room
    unfold Billing.settleFunding WalletFunding.settle
    by_cases hzero : delta = 0
    · subst hzero
      exact ⟨w, if_pos rfl, by rw [add_zero]; exact h'.taken, rfl, rfl⟩
    · simp only [if_neg hzero]
      by_cases hpos : 0 < delta
      · obtain ⟨w', hok, hmoved⟩ := decreaseUserQuota_moved st hu hpos.le
        rw [if_pos hpos]
        exact ⟨w', hok, (h'.moved hmoved).taken, hmoved.tokens, hmoved.pendingTokenQuota⟩
      · have hfits : st.batchUpdateEnabled = false → u.quota + -delta ≤ maxWalletQuota := by
          intro hoff
          have hle := hroom hoff
          omega
        obtain ⟨w', hok, hmoved⟩ := increaseUserQuota_moved hu (by omega) hmax hfits
        rw [if_neg hpos]
        exact ⟨w', hok, (h'.moved hmoved).taken, hmoved.tokens, hmoved.pendingTokenQuota⟩
  | subscription f =>
    have h' : SubscriptionHeld base held extra f w := h
    have hused := h'.used
    have hbase := h'.base_nonneg
    unfold Billing.settleFunding SubscriptionFunding.settle
    by_cases hzero : delta = 0
    · subst hzero
      exact ⟨w, if_pos rfl, by rw [add_zero]; exact hused, rfl, rfl⟩
    · obtain ⟨w', hok, hmoved⟩ := postConsumeUserSubscriptionDelta_moved h'.row
        (by omega : 0 ≤ w.amountUsed f.subscriptionId + delta)
      have hmoved' : w'.amountUsed f.subscriptionId = w.amountUsed f.subscriptionId + delta := hmoved.used
      have htaken : w'.amountUsed f.subscriptionId = base + (held + delta) := by omega
      obtain ⟨_, rfl⟩ := hmoved.frame
      simp only [if_neg hzero]
      exact ⟨_, hok, htaken, rfl, rfl⟩
  | organization => exact h.elim

theorem SubscriptionHeld.refund (h : SubscriptionHeld base held extra f w) :
    ∃ w', f.refund w = .ok w' ∧ (w'.subscriptions.get? f.subscriptionId).isSome ∧
      w'.amountUsed f.subscriptionId = base + extra := by
  obtain ⟨i, r, hfound, hstatus, hpre, hsub⟩ := h.record
  have hused := h.used
  have hbase := h.base_nonneg
  have hextra := h.extra_nonneg
  have hsplit := h.split
  have hpos := h.preConsumed
  obtain ⟨w1, hok, hmoved⟩ := postConsumeUserSubscriptionDelta_moved h.row
    (by omega : 0 ≤ w.amountUsed f.subscriptionId + -f.preConsumed)
  have hattempt : refundSubscriptionPreConsume w f.requestId = .ok (w1.markRefunded i) := by
    unfold refundSubscriptionPreConsume
    rw [if_neg h.requestId, hfound]
    simp only
    rw [if_neg (by simp [hstatus]), if_neg (by omega), hpre, hsub, hok]
    rfl
  refine ⟨w1.markRefunded i, ?_, hmoved.row, ?_⟩
  · unfold SubscriptionFunding.refund
    rw [if_neg (by omega), refundWithRetry, hattempt]
  · show w1.amountUsed f.subscriptionId = base + extra
    have hmoved' := hmoved.used
    omega

variable {s : BillingSession} {relayInfo : RelayInfo} {account : World → Int} {σ : Watched} {userId : Nat}

theorem Held.refundFunding (h : Held st base held extra s.funding w)
    (hmax : held ≤ maxWalletQuota) (hheld : 0 ≤ held) (hextra : s.extraReserved = extra)
    (hid : s.relayInfo.subscriptionId = s.funding.subscriptionId) (env : Env) :
    s.funding.taken (refundExtraReserved s (refundFunding st env s.funding w)) = base := by
  unfold refundExtraReserved
  cases hf : s.funding with
  | wallet f =>
    rw [hf] at h
    have h' : WalletHeld st base held f w := h
    obtain ⟨u, hu, hroom⟩ := h'.room
    simp only [Billing.refundFunding, WalletFunding.refund, h'.consumed]
    by_cases hzero : held ≤ 0
    · have htaken := h'.taken
      simp only [if_pos hzero]
      show -w.walletQuota f.userId = base
      omega
    · obtain ⟨w', hok, hmoved⟩ := increaseUserQuota_moved hu hheld hmax hroom
      have hback := (h'.moved (by rwa [neg_neg] : WalletMoved st w w' f.userId (-(-held)))).taken
      simp only [if_neg hzero, hok]
      show -w'.walletQuota f.userId = base
      have hback' : -w'.walletQuota f.userId = base + (held + -held) := hback
      omega
  | subscription f =>
    rw [hf] at h hid
    have h' : SubscriptionHeld base held extra f w := h
    have hid' : s.relayInfo.subscriptionId = f.subscriptionId := hid
    have hbase := h'.base_nonneg
    have hnonneg := h'.extra_nonneg
    obtain ⟨w1, hok, hrow, _⟩ := h'.refund
    obtain ⟨_, hsub⟩ := isSome_iff_exists.mp hrow
    have hpos : 0 < f.subscriptionId := Table.pos_of_get? hsub
    simp only [Billing.refundFunding, hok, hid', hextra, Except.toOption, getD_some]
    by_cases hmore : 0 < extra
    · obtain ⟨w2, hok2, hmoved⟩ := postConsumeUserSubscriptionDelta_moved hrow
        (by omega : 0 ≤ w1.amountUsed f.subscriptionId + -extra)
      rw [if_pos ⟨hmore, hpos⟩, hok2]
      show w2.amountUsed f.subscriptionId = base
      have hmoved' := hmoved.used
      omega
    · rw [if_neg (fun hc => hmore hc.1)]
      show w1.amountUsed f.subscriptionId = base
      omega
  | organization =>
    rw [hf] at h
    exact h.elim

/-! ## The two phases of a session -/

/-- An open session of `account`: its running total is what the source holds. -/
structure SessionOpen (st : Settings) (account : World → Int) (base : Int) (σ : Live) : Prop where
  account : σ.session.funding.taken = account
  held : Held st base σ.session.preConsumedQuota σ.session.extraReserved σ.session.funding σ.world
  flags : σ.session.settled = false ∧ σ.session.fundingSettled = false ∧ σ.session.refunded = false
  tokenConsumed : σ.session.tokenConsumed = σ.session.preConsumedQuota
  subscriptionId : σ.session.relayInfo.subscriptionId = σ.session.funding.subscriptionId
  extra_nonneg : 0 ≤ σ.session.extraReserved
  nonneg : 0 ≤ σ.session.preConsumedQuota
  le_max : σ.session.preConsumedQuota ≤ maxWalletQuota

/-- A closed session: what the account has paid is fixed at `charge`. -/
structure SessionClosed (account : World → Int) (base charge : Int) (σ : Live) : Prop where
  paid : account σ.world = base + charge
  personal : ∀ f, σ.session.funding ≠ .organization f
  flags : σ.session.settled = true ∨ σ.session.refunded = true
  account : σ.session.funding.taken = account

theorem Held.personal (h : Held st base held extra funding w) : ∀ f, funding ≠ .organization f := by
  rintro f rfl
  exact h.elim

theorem settle_personal (hp : ∀ f, s.funding ≠ .organization f) (st : Settings)
    (env : Env) (actual : Int) (w : World) : s.settle st env actual w = s.settlePersonal st env actual w := by
  unfold BillingSession.settle
  cases hf : s.funding with
  | wallet | subscription => rfl
  | organization f => exact absurd hf (hp f)

theorem settleToken_frame (h : settleToken st env relayInfo delta w = .ok w') : TokenFrame w w' := by
  unfold settleToken at h
  split_ifs at h
  · cases h
    exact TokenFrame.refl w
  · exact moveTokenQuota_frame h
  · exact moveTokenQuota_frame h

theorem refundToken_frame (st : Settings) (env : Env) (s : BillingSession) (w : World) :
    TokenFrame w (refundToken st env s w) := by
  have hgive : TokenFrame w ((increaseTokenQuota st w env.now s.relayInfo.tokenId
      s.tokenConsumed).toOption.getD w) := by
    cases hres : increaseTokenQuota st w env.now s.relayInfo.tokenId s.tokenConsumed with
    | error => exact TokenFrame.refl w
    | ok => exact moveTokenQuota_frame hres
  unfold refundToken
  split
  · exact TokenFrame.refl w
  · split_ifs
    · exact hgive
    · exact TokenFrame.refl w

section Phases

variable {account : World → Int} {charge : Int} {σ : Live} {actual : Int}

theorem SessionOpen.settle (h : SessionOpen st account base σ) (env : Env) (hactual : 0 ≤ actual) :
    SessionClosed account base actual
        ⟨(σ.session.settle st env actual σ.world).session, (σ.session.settle st env actual σ.world).world⟩ ∧
      (σ.session.settle st env actual σ.world).session.settled = true := by
  obtain ⟨hsettled, hfs, _⟩ := h.flags
  have hp := h.held.personal
  have hmax := h.le_max
  rw [settle_personal hp, BillingSession.settlePersonal, hsettled]
  by_cases hzero : actual - σ.session.preConsumedQuota = 0
  · rw [if_pos hzero]
    refine ⟨⟨?_, hp, .inl rfl, h.account⟩, rfl⟩
    have htaken := h.held.taken
    rw [h.account] at htaken
    show account σ.world = base + actual
    omega
  · obtain ⟨w1, hok, htaken, -⟩ := h.held.settleFunding
      (by omega : 0 ≤ σ.session.preConsumedQuota + (actual - σ.session.preConsumedQuota)) (by omega)
    rw [h.account] at htaken
    have hpaid : account w1 = base + actual := by omega
    rw [if_neg hzero]
    simp only [hfs, Bool.false_eq_true, if_false, hok]
    cases htoken : settleToken st env σ.session.relayInfo (actual - σ.session.preConsumedQuota) w1 with
    | error => exact ⟨⟨hpaid, hp, .inl rfl, h.account⟩, rfl⟩
    | ok w2 =>
      refine ⟨⟨?_, hp, .inl rfl, h.account⟩, rfl⟩
      show account w2 = base + actual
      rw [← h.account, taken_tokenFrame (settleToken_frame htoken), h.account, hpaid]

theorem SessionOpen.refund (h : SessionOpen st account base σ) (env : Env) : (SessionClosed account base 0
        ⟨(σ.session.refund st env σ.world).1, (σ.session.refund st env σ.world).2⟩ ∧
      (σ.session.refund st env σ.world).1.refunded = true) ∨
      σ.session.refund st env σ.world = (σ.session, σ.world) := by
  cases hneeds : σ.session.needsRefund with
  | false => exact .inr (BillingSession.refund_of_not_needs hneeds st env σ.world)
  | true =>
    rw [BillingSession.refund_of_needs hneeds]
    refine .inl ⟨⟨?_, h.held.personal, .inr rfl, h.account⟩, rfl⟩
    have hback := Held.refundFunding (s := { σ.session with refunded := true }) h.held h.le_max h.nonneg rfl
      h.subscriptionId env
    rw [h.account] at hback
    show account (refundToken st env _ _) = base + 0
    rw [← h.account, taken_tokenFrame (refundToken_frame st env _ _), h.account, add_zero]
    exact hback

/-- `Reserve` keeps an open session open: a top-up the token refuses is taken back. -/
theorem SessionOpen.reserve (h : SessionOpen st account base σ) {c : ReserveCall}
    (hmax : c.targetQuota ≤ maxWalletQuota) : SessionOpen st account base (σ.reserve st c) := by
  obtain ⟨hsettled, hfs, hrefunded⟩ := h.flags
  have hnonneg := h.nonneg
  have hextra := h.extra_nonneg
  by_cases hskip : σ.session.trusted = true ∨ c.targetQuota ≤ σ.session.preConsumedQuota
  · have hsame : σ.reserve st c = σ := by
      unfold Live.reserve BillingSession.reserve
      rw [if_pos (.inr (.inr hskip))]
    rw [hsame]
    exact h
  · rw [not_or, not_le] at hskip
    have hdelta : 0 < c.targetQuota - σ.session.preConsumedQuota := by omega
    have hstep : σ.session.reserve st c.env c.answer c.targetQuota σ.world =
        σ.session.reservePersonal st c.env c.answer (c.targetQuota - σ.session.preConsumedQuota) σ.world := by
      unfold BillingSession.reserve
      rw [if_neg (by simp [hsettled, hrefunded, hskip.1]; omega)]
      cases hf : σ.session.funding with
      | wallet | subscription => rfl
      | organization f => exact absurd hf (h.held.personal f)
    obtain ⟨_, w1, hok, htaken, hid, hheld⟩ := h.held.reserveFunding h.nonneg hdelta
    unfold Live.reserve
    rw [hstep, BillingSession.reservePersonal, hok]
    simp only
    cases htoken : reserveToken st c.env c.answer σ.session.relayInfo
        (c.targetQuota - σ.session.preConsumedQuota) w1 with
    | error e =>
      obtain ⟨htaken', hid', hback⟩ := hheld.rollbackFundingReserve h.nonneg hextra hdelta (by omega)
      exact ⟨(htaken'.trans htaken).trans h.account, hback, ⟨hsettled, hfs, hrefunded⟩, h.tokenConsumed,
        h.subscriptionId.trans (hid'.trans hid).symm, hextra, hnonneg, h.le_max⟩
    | ok w2 =>
      have hframe : TokenFrame w1 w2 := by
        unfold reserveToken at htoken
        split at htoken
        · cases htoken
          exact TokenFrame.refl w1
        · exact preConsumeTokenQuota_frame htoken
      refine ⟨htaken.trans h.account, hheld.tokenFrame hframe, ⟨hsettled, hfs, hrefunded⟩, ?_, rfl, ?_, ?_, ?_⟩
      · exact congrArg (· + (c.targetQuota - σ.session.preConsumedQuota)) h.tokenConsumed
      · exact Int.add_nonneg hextra hdelta.le
      · exact Int.add_nonneg hnonneg hdelta.le
      · show σ.session.preConsumedQuota + (c.targetQuota - σ.session.preConsumedQuota) ≤ maxWalletQuota
        omega

/-! ### A closed session -/

theorem SessionClosed.reserve (h : SessionClosed account base charge σ) (st : Settings) (c : ReserveCall) :
    σ.reserve st c = σ := by
  unfold Live.reserve BillingSession.reserve
  rw [if_pos]
  rcases h.flags with hs | hr
  · exact .inl hs
  · exact .inr (.inl hr)

theorem SessionClosed.refund (h : SessionClosed account base charge σ) (st : Settings) (env : Env) :
    σ.session.refund st env σ.world = (σ.session, σ.world) := by
  unfold BillingSession.refund
  rcases h.flags with hs | hr
  · simp [hs]
  · simp [hr]

/-- Settling the difference moves the funding source: a wallet does not refuse it, and a subscription has what it is
to give back. -/
def FundingSource.moves (st : Settings) (funding : FundingSource) (delta : Int) (w : World) : Bool :=
  match settleFunding st funding delta w with
  | .ok w' => funding.taken w' ≠ funding.taken w
  | .error _ => false

/-- The end of a settlement after a source that has stayed as it was. -/
theorem SessionClosed.settled (h : SessionClosed account base charge σ)
    (hstays : σ.session.funding.taken w = σ.session.funding.taken σ.world) :
    let s := { σ.session with fundingSettled := true, settled := true }
    let r : Outcome := match settleToken st env s.relayInfo delta w with
      | .error e => ⟨some e, s, w⟩
      | .ok w => ⟨none, s, w⟩
    SessionClosed account base charge ⟨r.session, r.world⟩ := by
  have hpaid : account w = base + charge := by rw [← h.paid, ← h.account, hstays]
  intro s r
  cases htoken : settleToken st env s.relayInfo delta w with
  | error => simpa only [r, htoken] using ⟨hpaid, h.personal, .inl rfl, h.account⟩
  | ok w' =>
    have hpaid' : account w' = base + charge := by
      rw [← h.account, taken_tokenFrame (settleToken_frame htoken), h.account, hpaid]
    simpa only [r, htoken] using ⟨hpaid', h.personal, .inl rfl, h.account⟩

/-- `Settle` of a closed session moves nothing, when it is settled already or the source does not take the difference.
-/
theorem SessionClosed.settle (h : SessionClosed account base charge σ) (st : Settings) (env : Env)
    (hok : σ.session.settled = true ∨
      σ.session.funding.moves st (actual - σ.session.preConsumedQuota) σ.world = false) :
      SessionClosed account base charge
        ⟨(σ.session.settle st env actual σ.world).session, (σ.session.settle st env actual σ.world).world⟩ := by
  rw [settle_personal h.personal, BillingSession.settlePersonal]
  by_cases hs : σ.session.settled = true
  · rw [if_pos hs]
    exact h
  simp only [if_neg hs]
  split_ifs with hzero hfs
  · exact ⟨h.paid, h.personal, .inl rfl, h.account⟩
  · exact h.settled rfl
  · cases hw : settleFunding st σ.session.funding (actual - σ.session.preConsumedQuota) σ.world with
    | error => exact h
    | ok w =>
      have hmoves := hok.resolve_left hs
      simp only [FundingSource.moves, hw, decide_eq_false_iff_not, not_not] at hmoves
      exact h.settled hmoves

end Phases

/-! ## Any order of calls -/

inductive SessionCall
  | settle (env : Env) (actual : Int)
  | refund (env : Env)
  | reserve (c : ReserveCall)

/-- A session with the amount at which the first `Settle` or `Refund` that took effect has closed it. -/
structure Watched where
  live : Live
  closed : Option Int := none

/-- `Settle` takes effect when it sets `settled`, `Refund` when it sets `refunded`. -/
def Watched.step (st : Settings) (σ : Watched) : SessionCall → Watched
  | .settle env actual =>
    let o := σ.live.session.settle st env actual σ.live.world
    ⟨⟨o.session, o.world⟩, if σ.closed = none ∧ o.session.settled then some actual else σ.closed⟩
  | .refund env =>
    let r := σ.live.session.refund st env σ.live.world
    ⟨⟨r.1, r.2⟩, if σ.closed = none ∧ r.1.refunded then some 0 else σ.closed⟩
  | .reserve c => ⟨σ.live.reserve st c, σ.closed⟩

/-- The amounts are what quota computations return. -/
def SessionCall.valid : SessionCall → Prop
  | .settle _ actual => 0 ≤ actual
  | .refund _ => True
  | .reserve c => c.targetQuota ≤ maxWalletQuota

/-- The call is no `Settle` that moves the funding source of a refunded session. -/
def Watched.notAfterRefund (st : Settings) (σ : Watched) : SessionCall → Prop
  | .settle _ actual => ¬ (σ.live.session.refunded = true ∧ σ.live.session.settled = false ∧
      σ.live.session.funding.moves st (actual - σ.live.session.preConsumedQuota) σ.live.world = true)
  | .refund _ | .reserve _ => True

instance (st : Settings) (σ : Watched) (c : SessionCall) : Decidable (σ.notAfterRefund st c) :=
  match c with
  | .settle _ actual => inferInstanceAs (Decidable (¬ (σ.live.session.refunded = true ∧ σ.live.session.settled = false ∧
      σ.live.session.funding.moves st (actual - σ.live.session.preConsumedQuota) σ.live.world = true)))
  | .refund _ | .reserve _ => .isTrue trivial

def Watched.Phase (st : Settings) (account : World → Int) (base : Int) (σ : Watched) : Prop :=
  match σ.closed with
  | none => SessionOpen st account base σ.live
  | some charge => SessionClosed account base charge σ.live

theorem Watched.step_phase {c : SessionCall}
    (h : σ.Phase st account base) (hvalid : c.valid) (hcall : σ.notAfterRefund st c) :
    (σ.step st c).Phase st account base ∧
      ∀ charge, σ.closed = some charge → (σ.step st c).closed = some charge := by
  obtain ⟨live, closed⟩ := σ
  cases closed with
  | none =>
    have hopen : SessionOpen st account base live := h
    refine ⟨?_, fun charge hc => by cases hc⟩
    cases c with
    | settle env =>
      obtain ⟨hclosed, hsettled⟩ := hopen.settle env hvalid
      simp only [Watched.step, hsettled]
      exact hclosed
    | refund env =>
      rcases hopen.refund env with ⟨hclosed, hrefunded⟩ | hsame
      · simp only [Watched.step, hrefunded]
        exact hclosed
      · simp only [Watched.step, hsame, hopen.flags.2.2]
        exact hopen
    | reserve => exact hopen.reserve hvalid
  | some charge =>
    have hclosed : SessionClosed account base charge live := h
    cases c with
    | settle env actual =>
      have hok : live.session.settled = true ∨
          live.session.funding.moves st (actual - live.session.preConsumedQuota) live.world = false := by
        by_contra hno
        rw [not_or, Bool.not_eq_true, Bool.not_eq_false] at hno
        refine hcall ⟨?_, hno.1, hno.2⟩
        rcases hclosed.flags with hs | hr
        · exact absurd (hno.1.symm.trans hs) (by decide)
        · exact hr
      exact ⟨hclosed.settle st env hok, fun _ hc => hc⟩
    | refund =>
      simp only [Watched.step, hclosed.refund]
      exact ⟨hclosed, fun _ hc => hc⟩
    | reserve =>
      simp only [Watched.step, hclosed.reserve]
      exact ⟨hclosed, fun _ hc => hc⟩

/-- The phase holds after every run, and a closed session keeps its amount. -/
theorem Watched.Phase.run {calls : List SessionCall} (h : σ.Phase st account base) (hvalid : ∀ c ∈ calls, c.valid)
    (hcalls : Along (Watched.step st) (Watched.notAfterRefund st) σ calls) :
    (Transition.run (Watched.step st) σ calls).Phase st account base ∧ ∀ charge, σ.closed = some charge →
        (Transition.run (Watched.step st) σ calls).closed = some charge := by
  induction calls generalizing σ with
  | nil => exact ⟨h, fun _ hc => hc⟩
  | cons c _ ih =>
    obtain ⟨hphase, hkeep⟩ := Watched.step_phase h (hvalid c mem_cons_self) hcalls.1
    obtain ⟨hphase', hkeep'⟩ := ih hphase (fun d hd => hvalid d (mem_cons_of_mem _ hd)) hcalls.2
    exact ⟨hphase', fun charge hc => hkeep' charge (hkeep charge hc)⟩

/-! ## Opening a session -/

/-- What the theorems about personal sessions assume of the database: the user exists with a column within
the ceiling, the request id is new, and no subscription is used negatively, also not by a reset. -/
structure PersonalAccount (st : Settings) (w₀ : World) (relayInfo : RelayInfo) : Prop where
  user : ∃ u, w₀.users.get? relayInfo.userId = some u ∧ u.quota ≤ maxWalletQuota
  fresh : findPreConsumeRecord w₀ relayInfo.requestId = none
  used : ∀ i sub, w₀.subscriptions.get? i = some sub → 0 ≤ sub.amountUsed
  reset : ∀ sub sub', st.resetSubscription sub = .ok sub' → 0 ≤ sub.amountUsed → 0 ≤ sub'.amountUsed

theorem mem_activeSubscriptions {now : Int} {p : Nat × UserSubscription}
    (h : p ∈ activeSubscriptions w userId now) :
    w.subscriptions.get? p.1 = some p.2 ∧ p.2.active userId now = true := by
  unfold activeSubscriptions at h
  rw [mem_insertionSort, mem_filterMap] at h
  obtain ⟨i, -, hi⟩ := h
  obtain ⟨_, hsub, hp⟩ := bind_eq_some_iff.mp hi
  split at hp
  · rename_i hactive
    cases hp
    exact ⟨hsub, hactive⟩
  · cases hp

theorem consumeSubscription_ok {requestId : String} {amount : Int}
    {result : SubscriptionPreConsumeResult} {candidates : List (Nat × UserSubscription)}
    (hrows : ∀ p ∈ candidates, (w.subscriptions.get? p.1).isSome) (hfresh : findPreConsumeRecord w requestId = none)
    (h : consumeSubscription st requestId userId amount w candidates = .ok (result, w')) :
    result.preConsumed = amount ∧ (w'.subscriptions.get? result.userSubscriptionId).isSome ∧
      (∃ candidate sub, (result.userSubscriptionId, candidate) ∈ candidates ∧ st.resetSubscription candidate = .ok sub ∧
        w'.amountUsed result.userSubscriptionId = sub.amountUsed + amount) ∧
      ∃ i r, findPreConsumeRecord w' requestId = some (i, r) ∧ r.status = .consumed ∧
        r.preConsumed = amount ∧ r.userSubscriptionId = result.userSubscriptionId := by
  induction candidates generalizing w with
  | nil => cases h
  | cons p _ ih =>
    obtain ⟨id, candidate⟩ := p
    have hrow := hrows _ mem_cons_self
    obtain ⟨sub, hsub, h1⟩ := bind_eq_ok.mp h
    -- the candidate's own row is written back, and a row never disappears
    have hkeep : ∀ j, (w.subscriptions.get? j).isSome →
        ((w.subscriptions.modify id fun _ => sub).get? j).isSome := by
      intro j hj
      rw [Table.get?_modify]
      split_ifs
      · simpa using hj
      · exact hj
    split at h1
    · obtain ⟨hpre, hget, ⟨c, s, hmem, hreset, hused⟩, hrecord⟩ :=
        ih (w := { w with subscriptions := w.subscriptions.modify id fun _ => sub })
          (fun q hq => hkeep q.1 (hrows q (mem_cons_of_mem _ hq))) hfresh h1
      exact ⟨hpre, hget, ⟨c, s, mem_cons_of_mem _ hmem, hreset, hused⟩, hrecord⟩
    · cases h1
      have hget : ((w.subscriptions.modify id fun _ => sub).modify id fun _ =>
          { sub with amountUsed := sub.amountUsed + amount }).get? id =
          some { sub with amountUsed := sub.amountUsed + amount } := by
        obtain ⟨s, hs⟩ := isSome_iff_exists.mp (hkeep id hrow)
        rw [Table.get?_modify_self, hs]
        rfl
      refine ⟨rfl, ?_, ⟨candidate, sub, mem_cons_self, hsub, ?_⟩,
        w.preConsumeRecords.next, _, Table.find?_insert_of_none hfresh (by simp), rfl, rfl, rfl⟩
      · simp [hget]
      · simp [World.amountUsed, hget]

theorem preConsumeToken_frame {answer : CacheAnswer} {quota : Int}
    (h : preConsumeToken st env answer relayInfo quota w = .ok w') : TokenFrame w w' := by
  unfold preConsumeToken at h
  split at h
  · exact preConsumeTokenQuota_frame h
  · cases h
    exact .refl w

/-- What the account had paid when the session was opened in `w₀`. A subscription counts from the reset
that its pre-consumption makes when one is due. -/
def FundingSource.takenBefore (st : Settings) (funding : FundingSource) (w₀ : World) : Int :=
  match funding with
  | .subscription f => (w₀.subscriptions.get? f.subscriptionId).elim 0 fun sub =>
      (st.resetSubscription sub).toOption.elim 0 fun sub => sub.amountUsed
  | .wallet _ | .organization _ => funding.taken w₀

theorem takenBefore_subscription {w₀ : World} {candidate sub : UserSubscription}
    (hget : w₀.subscriptions.get? f.subscriptionId = some candidate)
    (hreset : st.resetSubscription candidate = .ok sub) :
    FundingSource.takenBefore st (.subscription f) w₀ = sub.amountUsed := by
  simp [FundingSource.takenBefore, hget, hreset, Except.toOption]

section Created

variable {tokenAnswer fundingAnswer : CacheAnswer} {tokenQuota quota : Int} {w₀ : World}
  {relayInfo : RelayInfo} {σ : Live}

theorem SessionOpen.created_wallet (h₀ : PersonalAccount st w₀ relayInfo) (hquota : 0 ≤ quota)
    (hmax : quota ≤ maxWalletQuota)
    (hopen : (BillingSession.forWallet relayInfo).preConsume st env tokenAnswer fundingAnswer tokenQuota
      quota w₀ = ⟨none, σ.session, σ.world⟩) :
    SessionOpen st σ.session.funding.taken (σ.session.funding.takenBefore st w₀) σ := by
  obtain ⟨_, world⟩ := σ
  have heff : 0 ≤ (BillingSession.forWallet relayInfo).effectiveQuota st tokenQuota quota ∧
      (BillingSession.forWallet relayInfo).effectiveQuota st tokenQuota quota ≤ maxWalletQuota := by
    unfold BillingSession.effectiveQuota
    split_ifs
    · exact ⟨le_rfl, by decide⟩
    · exact ⟨hquota, hmax⟩
  obtain ⟨_, _, htoken, hfunding, rfl⟩ := preConsumePersonal_ok hopen
  obtain ⟨_, _, rfl⟩ := preConsumeToken_frame htoken
  generalize (BillingSession.forWallet relayInfo).effectiveQuota st tokenQuota quota = eff at hfunding heff ⊢
  obtain ⟨⟨f, _⟩, hpre, hrest⟩ := bind_eq_ok.mp hfunding
  cases hrest
  obtain ⟨u, hu, _⟩ := h₀.user
  obtain ⟨rfl, hmoved⟩ := WalletFunding.preConsume_ok heff.1 rfl hpre
  obtain ⟨u', hu', hcolumn⟩ := hmoved.stored u hu
  refine ⟨rfl, ⟨rfl, ?_, u', hu', fun hoff => ?_⟩, ⟨rfl, rfl, rfl⟩, ?_, rfl, le_rfl, heff.1, heff.2⟩
  · have hwallet : world.walletQuota relayInfo.userId = w₀.walletQuota relayInfo.userId + -eff :=
      hmoved.wallet
    show -world.walletQuota relayInfo.userId = -w₀.walletQuota relayInfo.userId + eff
    omega
  · have hrow := hcolumn hoff
    show u'.quota + eff ≤ maxWalletQuota
    omega
  · show (if 0 < eff then eff else 0) = eff
    split_ifs <;> omega

theorem SessionOpen.created_subscription (h₀ : PersonalAccount st w₀ relayInfo) (hmax : quota ≤ maxWalletQuota)
    (hopen : (BillingSession.forSubscription relayInfo quota).preConsume st env tokenAnswer fundingAnswer
      tokenQuota quota w₀ = ⟨none, σ.session, σ.world⟩) :
    SessionOpen st σ.session.funding.taken (σ.session.funding.takenBefore st w₀) σ := by
  obtain ⟨_, _⟩ := σ
  have htrust : (BillingSession.forSubscription relayInfo quota).shouldTrust st tokenQuota = false := by
    unfold BillingSession.shouldTrust
    split_ifs <;> rfl
  have heff : (BillingSession.forSubscription relayInfo quota).effectiveQuota st tokenQuota quota = quota := by
    rw [BillingSession.effectiveQuota, htrust]
    rfl
  obtain ⟨_, _, htoken, hfunding, rfl⟩ := preConsumePersonal_ok hopen
  have hframe := preConsumeToken_frame htoken
  obtain ⟨tokens, pending, rfl⟩ := hframe
  obtain ⟨⟨f, _⟩, hpre, hrest⟩ := bind_eq_ok.mp hfunding
  cases hrest
  obtain ⟨⟨result, _⟩, hconsume, hrest⟩ := bind_eq_ok.mp hpre
  cases hrest
  unfold preConsumeUserSubscription at hconsume
  split at hconsume
  · cases hconsume
  · split at hconsume
    · cases hconsume
    · rename_i hid
      split at hconsume
      · cases hconsume
      · rename_i hpos
        have hfresh : findPreConsumeRecord { w₀ with tokens, pendingTokenQuota := pending }
            relayInfo.requestId = none := h₀.fresh
        simp only [hfresh] at hconsume
        split at hconsume
        · cases hconsume
        · have hrows : ∀ p ∈ activeSubscriptions { w₀ with tokens, pendingTokenQuota := pending }
              relayInfo.userId env.now, w₀.subscriptions.get? p.1 = some p.2 :=
            fun p hp => (mem_activeSubscriptions hp).1
          obtain ⟨hamount, hrow, ⟨candidate, sub, hmem, hreset, hused⟩, i, r, hfound, hstatus, hrpre, hrsub⟩ :=
            consumeSubscription_ok (w := { w₀ with tokens, pendingTokenQuota := pending })
              (fun p hp => isSome_iff_exists.mpr ⟨p.2, hrows p hp⟩) hfresh hconsume
          have hnonneg := h₀.reset candidate sub hreset (h₀.used _ _ (hrows _ hmem))
          simp only at hpos
          rw [heff]
          refine ⟨rfl, ⟨hrow, ?_, ?_, ?_, le_rfl, ?_, hid, i, r, hfound, hstatus, ?_, hrsub⟩,
            ⟨rfl, rfl, rfl⟩, ?_, rfl, le_rfl, ?_, hmax⟩
          · refine hused.trans (congrArg (fun before => before + quota) (Eq.symm ?_))
            exact takenBefore_subscription (hrows _ hmem) hreset
          · exact hnonneg.trans_eq (takenBefore_subscription (hrows _ hmem) hreset).symm
          · show quota = result.preConsumed + 0
            omega
          · show 0 < result.preConsumed
            omega
          · exact hrpre.trans hamount.symm
          · show (if 0 < quota then quota else 0) = quota
            rw [if_pos (by omega)]
          · show 0 ≤ quota
            omega

end Created

/-! ## The net amount -/

/-- **Settling and refunding exclude each other.** A session over a wallet or a subscription is opened by
`preConsume`; then `Settle`, `Refund` and `Reserve` are called in any order, and no refunded session is
settled with another amount than its running total. Once a call has closed the session, at the argument
of the first effective `Settle` or at `0` by a `Refund`, the net amount taken from the account, the
pre-consumed hold included, is that amount in every later state. -/
theorem net_fixed_once_closed (st : Settings) (env : Env) (tokenAnswer fundingAnswer : CacheAnswer)
    (tokenQuota quota : Int) (w₀ : World) (relayInfo : RelayInfo) (s₀ : BillingSession) (σ₀ : Live)
    (done rest : List SessionCall) (charge : Int) (h₀ : PersonalAccount st w₀ relayInfo)
    (hs₀ : s₀ = .forWallet relayInfo ∨ s₀ = .forSubscription relayInfo quota) (hquota : 0 ≤ quota)
    (hmax : quota ≤ maxWalletQuota)
    (hopen : s₀.preConsume st env tokenAnswer fundingAnswer tokenQuota quota w₀ =
      ⟨none, σ₀.session, σ₀.world⟩)
    (hvalid : ∀ c ∈ done ++ rest, c.valid)
    (hcalls : Along (Watched.step st) (Watched.notAfterRefund st) ⟨σ₀, none⟩ (done ++ rest))
    (hclosed : (run (Watched.step st) ⟨σ₀, none⟩ done).closed = some charge) :
    let account := σ₀.session.funding.taken
    (run (Watched.step st) ⟨σ₀, none⟩ (done ++ rest)).closed = some charge ∧
      account (run (Watched.step st) ⟨σ₀, none⟩ (done ++ rest)).live.world - account σ₀.world +
        σ₀.session.preConsumedQuota = charge := by
  intro account
  have hstart : SessionOpen st account (σ₀.session.funding.takenBefore st w₀) σ₀ := by
    rcases hs₀ with rfl | rfl
    · exact SessionOpen.created_wallet h₀ hquota hmax hopen
    · exact SessionOpen.created_subscription h₀ hmax hopen
  generalize σ₀.session.funding.takenBefore st w₀ = base at hstart
  have hbase : account σ₀.world = base + σ₀.session.preConsumedQuota := hstart.held.taken
  rw [along_append] at hcalls
  have hinit : Watched.Phase st account base ⟨σ₀, none⟩ := hstart
  obtain ⟨hphase, -⟩ := hinit.run (fun c hc => hvalid c (mem_append_left _ hc)) hcalls.1
  obtain ⟨hfinal, hkeep⟩ := hphase.run (fun c hc => hvalid c (mem_append_right _ hc)) hcalls.2
  rw [run_append]
  have hstill := hkeep charge hclosed
  refine ⟨hstill, ?_⟩
  have hpaid : SessionClosed account base charge
      (run (Watched.step st) (run (Watched.step st) ⟨σ₀, none⟩ done) rest).live := by
    simpa [Watched.Phase, hstill] using hfinal
  have hvalue := hpaid.paid
  omega

theorem net_fixed_sample :
    let calls : List SessionCall := [.reserve ⟨⟨20, 300⟩, .ok, 150⟩, .settle ⟨30, 300⟩ 130, .refund ⟨31, 300⟩,
      .settle ⟨32, 300⟩ 900]
    (walletOpened false).session.funding.taken
        (run (Watched.step {}) ⟨walletOpened false, none⟩ calls).live.world -
      (walletOpened false).session.funding.taken (walletOpened false).world + 100 = 130 :=
  (net_fixed_once_closed {} ⟨10, 300⟩ .ok .ok 0 100 walletSample (walletRequest false)
    (.forWallet (walletRequest false)) (walletOpened false)
    [.reserve ⟨⟨20, 300⟩, .ok, 150⟩, .settle ⟨30, 300⟩ 130] [.refund ⟨31, 300⟩, .settle ⟨32, 300⟩ 900] 130
    ⟨⟨{ quota := 1000 }, rfl, by decide⟩, by decide +kernel, fun i sub h => (nomatch h),
      fun sub sub' h hn => Except.ok.inj h ▸ hn⟩
    (.inl rfl) (by decide) (by decide)
    (by
      have herror : ((BillingSession.forWallet (walletRequest false)).preConsume {} ⟨10, 300⟩ .ok .ok 0 100
        walletSample).error = none := by decide +kernel
      rw [walletOpened, ← herror])
    (by simp [SessionCall.valid, maxWalletQuota]) (by decide +kernel) (by decide +kernel)).2

/-- `100` are pre-consumed and refunded, then `Settle(150)` is called: it books the difference to the
`100` that were given back, and the wallet has paid `50`, neither `0` nor `150`. -/
theorem settle_after_refund_moves_money :
    let σ := run (Watched.step {}) ⟨walletOpened false, none⟩ [.refund ⟨30, 300⟩]
    let σ' := σ.step {} (.settle ⟨31, 300⟩ 150)
    σ.closed = some 0 ∧ σ.live.world.walletQuota 1 = 1000 ∧ σ'.closed = some 0 ∧
      σ'.live.world.walletQuota 1 = 1000 - 50 := by
  decide +kernel

end CubeRouter.Billing
