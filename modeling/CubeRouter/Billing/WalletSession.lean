import CubeRouter.Billing.Movements
import CubeRouter.Billing.Session

/-!
# A wallet session from beginning to end

A `BillingSession` over a wallet pre-consumes an amount, reserves more any number of times, and ends with
`Settle` or `Refund`. `Charged` says what wallet and token have paid so far and `WalletOpen` that this is
what the session believes; every operation keeps the two in step.

The one gap is the refund of an unlimited token: `TryReserveTokenQuota` books an unlimited token like a
limited one, and `Refund` gives nothing back to it (`walletSession_exact_iff`).
-/

namespace CubeRouter.Billing

open Relational Transition Ledger List

/-- The session `NewBillingSession` builds over a wallet. -/
def BillingSession.forWallet (relayInfo : RelayInfo) : BillingSession where
  relayInfo := relayInfo
  funding := .wallet { userId := relayInfo.userId }

/-! ## What has been paid -/

/-- From `w₀` to `w` the request's wallet has paid `amount` and its token `tokenAmount`. -/
structure Charged (st : Settings) (w₀ : World) (relayInfo : RelayInfo) (w : World)
    (amount tokenAmount : Int) : Prop where
  wallet : w.walletQuota relayInfo.userId = w₀.walletQuota relayInfo.userId - amount
  room : ∃ u, w.users.get? relayInfo.userId = some u ∧
    (st.batchUpdateEnabled = false → u.quota + amount ≤ maxWalletQuota)
  remain : w.tokenRemain relayInfo.tokenId = w₀.tokenRemain relayInfo.tokenId - tokenAmount
  used : w.tokenUsed relayInfo.tokenId = w₀.tokenUsed relayInfo.tokenId + tokenAmount
  live : relayInfo.isPlayground = false → (w.liveToken relayInfo.tokenId).isSome

variable {st : Settings} {env : Env} {w₀ w w' : World} {relayInfo : RelayInfo}
  {amount tokenAmount delta : Int}

theorem Charged.walletMoved (h : Charged st w₀ relayInfo w amount tokenAmount)
    (hmoved : WalletMoved st w w' relayInfo.userId (-delta)) :
    Charged st w₀ relayInfo w' (amount + delta) tokenAmount := by
  have hwallet := hmoved.wallet
  have hbefore := h.wallet
  obtain ⟨u, hu, hroom⟩ := h.room
  obtain ⟨u', hu', hcolumn⟩ := hmoved.stored u hu
  refine ⟨by omega, ⟨u', hu', fun hoff => ?_⟩, ?_, ?_, fun hplay => ?_⟩
  · have hle := hroom hoff
    have heq := hcolumn hoff
    omega
  · rw [hmoved.tokenRemain, h.remain]
  · rw [hmoved.tokenUsed, h.used]
  · rw [hmoved.liveToken]
    exact h.live hplay

theorem Charged.tokenMoved (h : Charged st w₀ relayInfo w amount tokenAmount)
    (hmoved : TokenMoved w w' relayInfo.tokenId (-delta)) :
    Charged st w₀ relayInfo w' amount (tokenAmount + delta) := by
  have hremain := hmoved.remain
  have hused := hmoved.used
  have hremain0 := h.remain
  have hused0 := h.used
  refine ⟨?_, ?_, by omega, by omega, fun hplay => hmoved.live (h.live hplay)⟩
  · rw [hmoved.walletQuota, h.wallet]
  · rw [hmoved.users]
    exact h.room

theorem Charged.decreaseUserQuota (h : Charged st w₀ relayInfo w amount tokenAmount) (hdelta : 0 ≤ delta) :
    ∃ w', decreaseUserQuota st w relayInfo.userId delta = .ok w' ∧
      Charged st w₀ relayInfo w' (amount + delta) tokenAmount := by
  obtain ⟨u, hu, -⟩ := h.room
  obtain ⟨w', hok, hmoved⟩ := decreaseUserQuota_moved st hu hdelta
  exact ⟨w', hok, h.walletMoved hmoved⟩

theorem Charged.increaseUserQuota (h : Charged st w₀ relayInfo w amount tokenAmount) (hdelta : 0 ≤ delta)
    (hle : delta ≤ amount) (hmax : delta ≤ maxWalletQuota) :
    ∃ w', increaseUserQuota st w relayInfo.userId delta = .ok w' ∧
      Charged st w₀ relayInfo w' (amount - delta) tokenAmount := by
  obtain ⟨u, hu, hroom⟩ := h.room
  have hfits : st.batchUpdateEnabled = false → u.quota + delta ≤ maxWalletQuota := by
    intro hoff
    have hu := hroom hoff
    omega
  obtain ⟨w', hok, _⟩ := increaseUserQuota_moved hu hdelta hmax hfits
  refine ⟨w', hok, ?_⟩
  exact h.walletMoved (by rwa [neg_neg])

theorem Charged.decreaseTokenQuota (h : Charged st w₀ relayInfo w amount tokenAmount)
    (hplay : relayInfo.isPlayground = false) (hdelta : 0 ≤ delta) (now : Int) :
    ∃ w', decreaseTokenQuota st w now relayInfo.tokenId delta = .ok w' ∧
      Charged st w₀ relayInfo w' amount (tokenAmount + delta) := by
  obtain ⟨w', hok, hmoved⟩ := decreaseTokenQuota_moved st now (h.live hplay) hdelta
  exact ⟨w', hok, h.tokenMoved hmoved⟩

theorem Charged.increaseTokenQuota (h : Charged st w₀ relayInfo w amount tokenAmount)
    (hplay : relayInfo.isPlayground = false) (hdelta : 0 ≤ delta) (now : Int) :
    ∃ w', increaseTokenQuota st w now relayInfo.tokenId delta = .ok w' ∧
      Charged st w₀ relayInfo w' amount (tokenAmount - delta) := by
  obtain ⟨w', hok, _⟩ := increaseTokenQuota_moved st now (h.live hplay) hdelta
  refine ⟨w', hok, ?_⟩
  exact h.tokenMoved (by rwa [neg_neg])

/-! ## The open session -/

def tokenShare (relayInfo : RelayInfo) (amount : Int) : Int := if relayInfo.isPlayground then 0 else amount

/-- An open wallet session: its running total is what the funding source, and outside playground the
token, have paid. -/
structure WalletOpen (st : Settings) (w₀ : World) (relayInfo : RelayInfo) (σ : Live) : Prop where
  funding : σ.session.funding =
    .wallet { userId := relayInfo.userId, consumed := σ.session.preConsumedQuota }
  tokenConsumed : σ.session.tokenConsumed = σ.session.preConsumedQuota
  flags : σ.session.settled = false ∧ σ.session.fundingSettled = false ∧ σ.session.refunded = false
  isPlayground : σ.session.relayInfo.isPlayground = relayInfo.isPlayground
  tokenId : σ.session.relayInfo.tokenId = relayInfo.tokenId
  tokenUnlimited : σ.session.relayInfo.tokenUnlimited = relayInfo.tokenUnlimited
  trusted : σ.session.trusted = true → σ.session.preConsumedQuota = 0
  nonneg : 0 ≤ σ.session.preConsumedQuota
  le_max : σ.session.preConsumedQuota ≤ maxWalletQuota
  charged : Charged st w₀ relayInfo σ.world σ.session.preConsumedQuota
    (tokenShare relayInfo σ.session.preConsumedQuota)

/-- What the theorems about a wallet session assume of the database: the user exists, with a column
within the ceiling, and so does the token of a request outside playground. -/
structure WalletAccount (w₀ : World) (relayInfo : RelayInfo) : Prop where
  user : ∃ u, w₀.users.get? relayInfo.userId = some u ∧ u.quota ≤ maxWalletQuota
  token : relayInfo.isPlayground = false → (w₀.liveToken relayInfo.tokenId).isSome

theorem WalletAccount.charged (h : WalletAccount w₀ relayInfo) : Charged st w₀ relayInfo w₀ 0 0 := by
  obtain ⟨u, hu, _⟩ := h.user
  exact ⟨by omega, ⟨u, hu, fun _ => by omega⟩, by omega, by omega, h.token⟩

/-! ## Opening -/

variable {answer : CacheAnswer} {quota : Int} {r : RelayInfo} {f : WalletFunding} {σ : Live}

theorem Charged.preConsumeToken (h : Charged st w₀ relayInfo w amount tokenAmount)
    (hid : r.tokenId = relayInfo.tokenId) (hplay : r.isPlayground = relayInfo.isPlayground)
    (hok : preConsumeTokenQuota st answer w env.now r quota = .ok w') :
    Charged st w₀ relayInfo w' amount (tokenAmount + tokenShare relayInfo quota) := by
  have hmoved := preConsumeTokenQuota_moved (by rw [hid, hplay]; exact h.live) hok
  rw [hid, hplay] at hmoved
  refine h.tokenMoved ?_
  unfold tokenShare
  split_ifs at hmoved ⊢ with hp
  · rwa [neg_zero]
  · exact hmoved

theorem WalletFunding.preConsume_ok {amount : Int} {f' : WalletFunding} (hamount : 0 ≤ amount)
    (hzero : f.consumed = 0) (h : f.preConsume st answer amount w = .ok (f', w')) :
    f' = { f with consumed := amount } ∧ WalletMoved st w w' f.userId (-amount) := by
  unfold WalletFunding.preConsume at h
  split at h
  · obtain rfl : amount = 0 := by omega
    cases h
    refine ⟨?_, WalletMoved.refl st w f.userId⟩
    rw [← hzero]
  · obtain ⟨⟨_, _⟩, hreserve, hrest⟩ := bind_eq_ok.mp h
    rcases tryReserveUserQuota_moved hreserve with ⟨rfl, hmoved⟩ | ⟨rfl, -⟩
    · cases hrest
      exact ⟨rfl, hmoved⟩
    · cases hrest

theorem Charged.walletPreConsume (h : Charged st w₀ relayInfo w 0 tokenAmount) (hquota : 0 ≤ quota)
    (hok : WalletFunding.preConsume { userId := relayInfo.userId } st answer quota w = .ok (f, w')) :
    f = { userId := relayInfo.userId, consumed := quota } ∧
      Charged st w₀ relayInfo w' quota tokenAmount := by
  obtain ⟨rfl, hmoved⟩ := WalletFunding.preConsume_ok hquota rfl hok
  have hcharged := h.walletMoved hmoved
  rw [zero_add] at hcharged
  exact ⟨rfl, hcharged⟩

theorem WalletOpen.created {tokenAnswer fundingAnswer : CacheAnswer} {tokenQuota : Int}
    (h₀ : WalletAccount w₀ relayInfo) (hquota : 0 ≤ quota) (hmax : quota ≤ maxWalletQuota)
    (hopen : (BillingSession.forWallet relayInfo).preConsume st env tokenAnswer fundingAnswer tokenQuota
      quota w₀ = ⟨none, σ.session, σ.world⟩) : WalletOpen st w₀ relayInfo σ ∧
      σ.session.trusted = (BillingSession.forWallet relayInfo).shouldTrust st tokenQuota ∧ σ.session.preConsumedQuota =
        (BillingSession.forWallet relayInfo).effectiveQuota st tokenQuota quota := by
  obtain ⟨session, world⟩ := σ
  have heff : 0 ≤ (BillingSession.forWallet relayInfo).effectiveQuota st tokenQuota quota ∧
      (BillingSession.forWallet relayInfo).effectiveQuota st tokenQuota quota ≤ maxWalletQuota ∧
      ((BillingSession.forWallet relayInfo).shouldTrust st tokenQuota = true →
        (BillingSession.forWallet relayInfo).effectiveQuota st tokenQuota quota = 0) := by
    unfold BillingSession.effectiveQuota
    split_ifs with htrust
    · exact ⟨le_rfl, by decide, fun _ => rfl⟩
    · exact ⟨hquota, hmax, fun h => absurd h htrust⟩
  unfold BillingSession.preConsume at hopen
  generalize (BillingSession.forWallet relayInfo).effectiveQuota st tokenQuota quota = eff at hopen heff ⊢
  generalize (BillingSession.forWallet relayInfo).shouldTrust st tokenQuota = trusted at hopen heff ⊢
  obtain ⟨hnonneg, hle, htrusted⟩ := heff
  have hpersonal : BillingSession.preConsumePersonal { BillingSession.forWallet relayInfo with trusted } st
      env tokenAnswer fundingAnswer eff w₀ = ⟨none, session, world⟩ := hopen
  obtain ⟨w1, _, htoken, hfunding, rfl⟩ := preConsumePersonal_ok hpersonal
  have hcharged : Charged st w₀ relayInfo w1 0 (tokenShare relayInfo eff) := by
    unfold preConsumeToken at htoken
    by_cases hpos : 0 < eff
    · rw [if_pos hpos] at htoken
      have hpaid := h₀.charged.preConsumeToken rfl rfl htoken
      rwa [zero_add] at hpaid
    · rw [if_neg hpos] at htoken
      cases htoken
      obtain rfl : eff = 0 := by omega
      have hzero : tokenShare relayInfo 0 = 0 := by simp [tokenShare]
      rw [hzero]
      exact h₀.charged
  obtain ⟨⟨f, _⟩, hpre, hrest⟩ := bind_eq_ok.mp hfunding
  cases hrest
  obtain ⟨rfl, hpaid⟩ := hcharged.walletPreConsume hnonneg hpre
  refine ⟨⟨rfl, ?_, ⟨rfl, rfl, rfl⟩, rfl, rfl, rfl, htrusted, hnonneg, hle, hpaid⟩, rfl, rfl⟩
  show (if 0 < eff then eff else 0) = eff
  split_ifs <;> omega

/-! ## Reserving more -/

structure ReserveCall where
  env : Env
  answer : CacheAnswer := .ok
  targetQuota : Int

def Live.reserve (st : Settings) (σ : Live) (c : ReserveCall) : Live :=
  let o := σ.session.reserve st c.env c.answer c.targetQuota σ.world
  ⟨o.session, o.world⟩

theorem tokenShare_add (relayInfo : RelayInfo) (a b : Int) :
    tokenShare relayInfo (a + b) = tokenShare relayInfo a + tokenShare relayInfo b := by
  unfold tokenShare
  split_ifs <;> omega

theorem Charged.reserveToken (h : Charged st w₀ relayInfo w amount tokenAmount) (hid : r.tokenId = relayInfo.tokenId)
    (hplay : r.isPlayground = relayInfo.isPlayground) (hdelta : 0 < delta)
    (hok : reserveToken st env answer r delta w = .ok w') :
    Charged st w₀ relayInfo w' amount (tokenAmount + tokenShare relayInfo delta) := by
  unfold Billing.reserveToken at hok
  split at hok
  · rename_i hskip
    have hp : relayInfo.isPlayground = true := by
      rcases hskip with _ | hp
      · omega
      · rwa [← hplay]
    cases hok
    simpa [tokenShare, hp] using h
  · exact h.preConsumeToken hid hplay hok

theorem reserveToken_unlimited (st : Settings) (env : Env) (answer : CacheAnswer)
    (h : Charged st w₀ relayInfo w amount tokenAmount) (hid : r.tokenId = relayInfo.tokenId)
    (hplay : r.isPlayground = relayInfo.isPlayground) (hunl : r.tokenUnlimited = true) (hdelta : 0 < delta) :
    ∃ w', reserveToken st env answer r delta w = .ok w' := by
  unfold reserveToken
  by_cases hskip : delta ≤ 0 ∨ r.isPlayground = true
  · rw [if_pos hskip]
    exact ⟨w, rfl⟩
  · rw [if_neg hskip]
    rw [not_or, Bool.not_eq_true, hplay] at hskip
    exact preConsumeTokenQuota_unlimited (by rw [hid]; exact h.live hskip.2) hunl hdelta.le

/-- `Reserve` of an open wallet session: the wallet pays, then the token; when the token refuses, the
wallet gets its part back. -/
theorem WalletOpen.reserve_cases (h : WalletOpen st w₀ relayInfo σ) {c : ReserveCall}
    (hmax : c.targetQuota ≤ maxWalletQuota) (hmore : σ.session.preConsumedQuota < c.targetQuota)
    (htrusted : σ.session.trusted = false) :
    (∃ w', σ.reserve st c = ⟨σ.session, w'⟩ ∧ relayInfo.tokenUnlimited = false ∧
        Charged st w₀ relayInfo w' σ.session.preConsumedQuota (tokenShare relayInfo σ.session.preConsumedQuota)) ∨
      ∃ s' w', σ.reserve st c = ⟨s', w'⟩ ∧ s'.preConsumedQuota = c.targetQuota ∧
        WalletOpen st w₀ relayInfo ⟨s', w'⟩ ∧ s'.trusted = false := by
  obtain ⟨hsettled, hfs, hrefunded⟩ := h.flags
  have hnonneg := h.nonneg
  have hdelta : 0 < c.targetQuota - σ.session.preConsumedQuota := by omega
  have htarget : σ.session.preConsumedQuota + (c.targetQuota - σ.session.preConsumedQuota) =
      c.targetQuota := by omega
  obtain ⟨w1, hdec, hpaid⟩ := h.charged.decreaseUserQuota hdelta.le
  rw [htarget] at hpaid
  have hfunding : reserveFunding st σ.session.funding (c.targetQuota - σ.session.preConsumedQuota) σ.world =
      .ok (.wallet { userId := relayInfo.userId, consumed := c.targetQuota }, w1) := by
    rw [h.funding, reserveFunding, hdec, htarget]
    rfl
  have hstep : σ.session.reserve st c.env c.answer c.targetQuota σ.world =
      σ.session.reservePersonal st c.env c.answer (c.targetQuota - σ.session.preConsumedQuota) σ.world := by
    unfold BillingSession.reserve
    rw [if_neg (by simp [hsettled, hrefunded, htrusted]; omega)]
    simp [h.funding]
  unfold Live.reserve
  rw [hstep, BillingSession.reservePersonal, hfunding]
  simp only
  cases htoken : reserveToken st c.env c.answer σ.session.relayInfo
      (c.targetQuota - σ.session.preConsumedQuota) w1 with
  | error e =>
    obtain ⟨w2, hinc, hback⟩ := hpaid.increaseUserQuota hdelta.le (by omega) (by omega)
    rw [sub_sub_cancel] at hback
    refine .inl ⟨w2, ?_, ?_, hback⟩
    · simp only [rollbackFundingReserve, hinc, sub_sub_cancel]
      rw [← h.funding]
    · by_contra hunl
      obtain ⟨_, hok⟩ := reserveToken_unlimited st c.env c.answer hpaid h.tokenId h.isPlayground
        (h.tokenUnlimited.trans (by simpa using hunl)) hdelta
      rw [htoken] at hok
      cases hok
  | ok w2 =>
    have hboth := hpaid.reserveToken h.tokenId h.isPlayground hdelta htoken
    rw [← tokenShare_add, htarget] at hboth
    refine .inr ⟨_, w2, rfl, htarget, ⟨?_, ?_, ⟨hsettled, hfs, hrefunded⟩, h.isPlayground, h.tokenId,
      h.tokenUnlimited, fun ht => ?_, ?_, ?_, ?_⟩, htrusted⟩
    · show FundingSource.wallet _ = FundingSource.wallet { userId := relayInfo.userId, consumed :=
        σ.session.preConsumedQuota + (c.targetQuota - σ.session.preConsumedQuota) }
      rw [htarget]
    · exact congrArg (· + (c.targetQuota - σ.session.preConsumedQuota)) h.tokenConsumed
    · exact absurd (htrusted.symm.trans ht) (by decide)
    · exact Int.add_nonneg hnonneg hdelta.le
    · exact htarget.le.trans hmax
    · show Charged st w₀ relayInfo w2 (σ.session.preConsumedQuota +
        (c.targetQuota - σ.session.preConsumedQuota)) (tokenShare relayInfo (σ.session.preConsumedQuota +
          (c.targetQuota - σ.session.preConsumedQuota)))
      rw [htarget]
      exact hboth

theorem WalletOpen.reserve (h : WalletOpen st w₀ relayInfo σ) {c : ReserveCall}
    (hmax : c.targetQuota ≤ maxWalletQuota) :
    WalletOpen st w₀ relayInfo (σ.reserve st c) ∧ (σ.reserve st c).session.trusted = σ.session.trusted ∧
      ((σ.reserve st c).session.preConsumedQuota = σ.session.preConsumedQuota ∨
        (σ.reserve st c).session.preConsumedQuota = c.targetQuota) ∧
      σ.session.preConsumedQuota ≤ (σ.reserve st c).session.preConsumedQuota ∧
      (relayInfo.tokenUnlimited = true → σ.session.trusted = false →
        c.targetQuota ≤ (σ.reserve st c).session.preConsumedQuota) := by
  by_cases hgo : σ.session.preConsumedQuota < c.targetQuota ∧ σ.session.trusted = false
  · obtain ⟨hmore, htrusted⟩ := hgo
    rcases h.reserve_cases hmax hmore htrusted with ⟨_, hstep, hlim, hback⟩ | ⟨s', _, hstep, hpre, hopen, ht⟩
    · rw [hstep]
      refine ⟨⟨h.funding, h.tokenConsumed, h.flags, h.isPlayground, h.tokenId, h.tokenUnlimited, h.trusted,
        h.nonneg, h.le_max, hback⟩, rfl, .inl rfl, le_rfl, fun hunl => ?_⟩
      exact absurd (hlim.symm.trans hunl) (by decide)
    · rw [hstep]
      refine ⟨hopen, ht.trans htrusted.symm, .inr hpre, ?_, fun _ _ => ?_⟩
      · show σ.session.preConsumedQuota ≤ s'.preConsumedQuota
        omega
      · show c.targetQuota ≤ s'.preConsumedQuota
        omega
  · have hskip : σ.session.trusted = true ∨ c.targetQuota ≤ σ.session.preConsumedQuota := by
      by_contra hno
      rw [not_or, not_le, Bool.not_eq_true] at hno
      exact hgo ⟨hno.2, hno.1⟩
    have hsame : σ.reserve st c = σ := by
      unfold Live.reserve BillingSession.reserve
      rw [if_pos (.inr (.inr hskip))]
    rw [hsame]
    refine ⟨h, rfl, .inl rfl, le_rfl, fun _ htrusted => ?_⟩
    rcases hskip with ht | hle
    · exact absurd (htrusted.symm.trans ht) (by decide)
    · exact hle

/-- The running total after any number of `Reserve` calls. It is positive only if something was asked
for, and for an unlimited token, which is never refused, exactly then. -/
theorem WalletOpen.run (h : WalletOpen st w₀ relayInfo σ) {calls : List ReserveCall}
    (hmax : ∀ c ∈ calls, c.targetQuota ≤ maxWalletQuota) :
    WalletOpen st w₀ relayInfo (Transition.run (Live.reserve st) σ calls) ∧ (relayInfo.tokenUnlimited = true →
        (0 < (Transition.run (Live.reserve st) σ calls).session.preConsumedQuota ↔ 0 < σ.session.preConsumedQuota ∨
            σ.session.trusted = false ∧ ∃ c ∈ calls, 0 < c.targetQuota)) := by
  induction calls generalizing σ with
  | nil => exact ⟨h, fun _ => by simp⟩
  | cons c _ ih =>
    obtain ⟨hopen, htrusted, hpre, _, hunl⟩ := h.reserve (hmax c mem_cons_self)
    obtain ⟨hfinal, hpos⟩ := ih hopen fun d hd => hmax d (mem_cons_of_mem _ hd)
    refine ⟨hfinal, fun hu => ?_⟩
    rw [run_cons, hpos hu, htrusted]
    constructor
    · rintro (hp | ⟨ht, d, hd, hd'⟩)
      · rcases hpre with _ | _
        · exact .inl (by omega)
        · -- a top-up was made, so the session is not trusted
          refine .inr ⟨?_, c, mem_cons_self, by omega⟩
          by_contra ht
          have hzero := hopen.trusted (htrusted.trans (by simpa using ht))
          omega
      · exact .inr ⟨ht, d, mem_cons_of_mem _ hd, hd'⟩
    · rintro (hp | ⟨ht, d, hd, hd'⟩)
      · exact .inl (by omega)
      · rcases mem_cons.mp hd with rfl | hd
        · have htop := hunl hu ht
          exact .inl (by omega)
        · exact .inr ⟨ht, d, hd, hd'⟩

/-! ## Settling -/

theorem Charged.walletSettle (h : Charged st w₀ relayInfo w amount tokenAmount) (hle : -delta ≤ amount)
    (hmax : -delta ≤ maxWalletQuota) (f : WalletFunding) (hf : f.userId = relayInfo.userId) :
    ∃ w', f.settle st delta w = .ok w' ∧ Charged st w₀ relayInfo w' (amount + delta) tokenAmount := by
  unfold WalletFunding.settle
  rw [hf]
  by_cases hzero : delta = 0
  · subst hzero
    exact ⟨w, if_pos rfl, by rwa [add_zero]⟩
  · rw [if_neg hzero]
    by_cases hpos : 0 < delta
    · rw [if_pos hpos]
      exact h.decreaseUserQuota hpos.le
    · rw [if_neg hpos]
      obtain ⟨w', hok, hback⟩ := h.increaseUserQuota (by omega) hle hmax
      rw [sub_neg_eq_add] at hback
      exact ⟨w', hok, hback⟩

theorem Charged.settleToken (h : Charged st w₀ relayInfo w amount tokenAmount) (env : Env)
    (hid : r.tokenId = relayInfo.tokenId) (hplay : r.isPlayground = relayInfo.isPlayground) (delta : Int) :
    ∃ w', settleToken st env r delta w = .ok w' ∧
      Charged st w₀ relayInfo w' amount (tokenAmount + tokenShare relayInfo delta) := by
  unfold Billing.settleToken tokenShare
  rw [hid, hplay]
  by_cases hp : relayInfo.isPlayground = true
  · rw [if_pos hp, if_pos hp]
    exact ⟨w, rfl, by rwa [add_zero]⟩
  · have hoff : relayInfo.isPlayground = false := by simpa using hp
    rw [if_neg hp, if_neg hp]
    by_cases hpos : 0 < delta
    · rw [if_pos hpos]
      exact h.decreaseTokenQuota hoff hpos.le env.now
    · rw [if_neg hpos]
      obtain ⟨w', hok, hback⟩ := h.increaseTokenQuota hoff (by omega : 0 ≤ -delta) env.now
      rw [sub_neg_eq_add] at hback
      exact ⟨w', hok, hback⟩

theorem WalletOpen.settle (h : WalletOpen st w₀ relayInfo σ) (env : Env) {actual : Int} (hactual : 0 ≤ actual) :
    ∃ s' w', σ.session.settle st env actual σ.world = ⟨none, s', w'⟩ ∧ s'.settled = true ∧
      Charged st w₀ relayInfo w' actual (tokenShare relayInfo actual) := by
  obtain ⟨hsettled, hfs, -⟩ := h.flags
  have hmax := h.le_max
  have hpersonal : σ.session.settle st env actual σ.world =
      σ.session.settlePersonal st env actual σ.world := by
    unfold BillingSession.settle
    simp [h.funding]
  rw [hpersonal, BillingSession.settlePersonal]
  simp only [h.funding, hsettled, hfs, Bool.false_eq_true, if_false]
  by_cases hzero : actual - σ.session.preConsumedQuota = 0
  · rw [if_pos hzero]
    obtain rfl : actual = σ.session.preConsumedQuota := by omega
    exact ⟨_, _, rfl, rfl, h.charged⟩
  · have hsum : σ.session.preConsumedQuota + (actual - σ.session.preConsumedQuota) = actual := by omega
    obtain ⟨_, hfunding, hpaid⟩ := h.charged.walletSettle
      (by omega : -(actual - σ.session.preConsumedQuota) ≤ σ.session.preConsumedQuota) (by omega)
      { userId := relayInfo.userId, consumed := σ.session.preConsumedQuota } rfl
    obtain ⟨_, htoken, hboth⟩ := hpaid.settleToken env h.tokenId h.isPlayground (actual - σ.session.preConsumedQuota)
    rw [← tokenShare_add, hsum] at hboth
    rw [if_neg hzero]
    simp only [settleFunding, hfunding, htoken]
    exact ⟨_, _, rfl, rfl, hboth⟩

/-! ## Refunding -/

/-- What the token is still charged after a refund: an unlimited one gets nothing back. -/
def keptShare (relayInfo : RelayInfo) (amount : Int) : Int :=
  if relayInfo.tokenUnlimited then tokenShare relayInfo amount else 0

theorem Charged.refundToken (env : Env) {s : BillingSession}
    (h : Charged st w₀ relayInfo w amount (tokenShare relayInfo s.tokenConsumed)) (hpos : 0 < s.tokenConsumed)
    (hid : s.relayInfo.tokenId = relayInfo.tokenId) (hplay : s.relayInfo.isPlayground = relayInfo.isPlayground)
    (hunl : s.relayInfo.tokenUnlimited = relayInfo.tokenUnlimited) (hf : s.funding = .wallet f) :
    Charged st w₀ relayInfo (refundToken st env s w) amount (keptShare relayInfo s.tokenConsumed) := by
  unfold Billing.refundToken
  simp only [hf, hid, hplay, hunl]
  by_cases hp : relayInfo.isPlayground = true
  · have hkept : keptShare relayInfo s.tokenConsumed = tokenShare relayInfo s.tokenConsumed := by
      simp [keptShare, tokenShare, hp]
    rw [if_neg (by simp [hp]), hkept]
    exact h
  · by_cases hu : relayInfo.tokenUnlimited = true
    · have hkept : keptShare relayInfo s.tokenConsumed = tokenShare relayInfo s.tokenConsumed := by
        simp [keptShare, hu]
      rw [if_neg (by simp [hu]), hkept]
      exact h
    · have hkept : keptShare relayInfo s.tokenConsumed =
          tokenShare relayInfo s.tokenConsumed - s.tokenConsumed := by
        simp [keptShare, tokenShare, hp, hu]
      obtain ⟨_, hok, hback⟩ := h.increaseTokenQuota (by simpa using hp) hpos.le env.now
      rw [if_pos (by simp [hpos, hp, hu]), hok, hkept]
      exact hback

theorem WalletOpen.needsRefund (h : WalletOpen st w₀ relayInfo σ) :
    σ.session.needsRefund = decide (0 < σ.session.preConsumedQuota) := by
  obtain ⟨hsettled, hfs, hrefunded⟩ := h.flags
  unfold BillingSession.needsRefund
  rw [if_neg (by simp [hsettled, hfs, hrefunded]), h.tokenConsumed, h.funding]
  split_ifs with hpos
  · exact (decide_eq_true hpos).symm
  · exact (decide_eq_false hpos).symm

theorem WalletOpen.refund (h : WalletOpen st w₀ relayInfo σ) (env : Env) :
    Charged st w₀ relayInfo (σ.session.refund st env σ.world).2 0 (keptShare relayInfo σ.session.preConsumedQuota) := by
  have hnonneg := h.nonneg
  have hcharged := h.charged
  by_cases hpos : 0 < σ.session.preConsumedQuota
  · obtain ⟨w1, hinc, hback⟩ := hcharged.increaseUserQuota h.nonneg le_rfl h.le_max
    rw [sub_self] at hback
    have hfunding : refundFunding st env σ.session.funding σ.world = w1 := by
      rw [h.funding, refundFunding, WalletFunding.refund, if_neg (not_le.mpr hpos), hinc]
      rfl
    have hextra : refundExtraReserved { σ.session with refunded := true } w1 = w1 := by
      simp [refundExtraReserved, h.funding]
    rw [BillingSession.refund_of_needs (by rw [h.needsRefund, decide_eq_true hpos]), hfunding, hextra]
    rw [← h.tokenConsumed] at hback hpos ⊢
    exact Charged.refundToken env hback hpos h.tokenId h.isPlayground h.tokenUnlimited h.funding
  · have hzero : σ.session.preConsumedQuota = 0 := by omega
    have hkept : keptShare relayInfo 0 = tokenShare relayInfo 0 := by simp [keptShare, tokenShare]
    rw [BillingSession.refund_of_not_needs (by rw [h.needsRefund, decide_eq_false hpos])]
    rw [hzero] at hcharged ⊢
    rw [hkept]
    exact hcharged

/-! ## The whole session -/

inductive Ending
  | settle (env : Env) (actual : Int)
  | refund (env : Env)

def Ending.charge : Ending → Int
  | .settle _ actual => actual
  | .refund _ => 0

def Live.finish (st : Settings) (σ : Live) : Ending → World
  | .settle env actual => (σ.session.settle st env actual σ.world).world
  | .refund env => (σ.session.refund st env σ.world).2

/-- From `w₀` to `w` the wallet has paid `charge`, and outside playground the token too; in playground the
token has paid nothing. -/
structure ChargedOnce (w₀ : World) (relayInfo : RelayInfo) (w : World) (charge : Int) : Prop where
  wallet : w.walletQuota relayInfo.userId = w₀.walletQuota relayInfo.userId - charge
  remain : w.tokenRemain relayInfo.tokenId = w₀.tokenRemain relayInfo.tokenId - tokenShare relayInfo charge
  used : w.tokenUsed relayInfo.tokenId = w₀.tokenUsed relayInfo.tokenId + tokenShare relayInfo charge

/-- The refund of an unlimited token that was booked: outside playground, unless the session is trusted
or nothing was ever asked for. -/
def Ending.losesToken (relayInfo : RelayInfo) (trusted : Bool) (quota : Int) (calls : List ReserveCall) :
    Ending → Prop
  | .settle .. => False
  | .refund _ => relayInfo.tokenUnlimited = true ∧ relayInfo.isPlayground = false ∧ trusted = false ∧
      (0 < quota ∨ ∃ c ∈ calls, 0 < c.targetQuota)

/-- **A wallet session is exact.** A wallet session is opened by `preConsume`, asked to reserve more any
number of times, and ended by `Settle` or `Refund`. Wallet and token have then paid exactly what the
ending says, if and only if the session did not end with the refund of an unlimited token that was
booked. -/
theorem walletSession_exact_iff (st : Settings) (env : Env) (tokenAnswer fundingAnswer : CacheAnswer)
    (tokenQuota quota : Int) (w₀ : World) (relayInfo : RelayInfo) (σ₀ : Live) (calls : List ReserveCall)
    (ending : Ending) (h₀ : WalletAccount w₀ relayInfo) (hquota : 0 ≤ quota)
    (hmax : quota ≤ maxWalletQuota) (hcalls : ∀ c ∈ calls, c.targetQuota ≤ maxWalletQuota)
    (hcharge : 0 ≤ ending.charge)
    (hopen : (BillingSession.forWallet relayInfo).preConsume st env tokenAnswer fundingAnswer tokenQuota
      quota w₀ = ⟨none, σ₀.session, σ₀.world⟩) :
    ChargedOnce w₀ relayInfo ((run (Live.reserve st) σ₀ calls).finish st ending) ending.charge ↔
      ¬ ending.losesToken relayInfo ((BillingSession.forWallet relayInfo).shouldTrust st tokenQuota) quota calls := by
  obtain ⟨hstart, htrusted, hpre⟩ := WalletOpen.created h₀ hquota hmax hopen
  obtain ⟨hfinal, hpos⟩ := hstart.run hcalls
  cases ending with
  | settle env' actual =>
    have hactual : 0 ≤ actual := hcharge
    obtain ⟨_, _, hsettle, -, hpaid⟩ := hfinal.settle env' hactual
    simp only [Live.finish, hsettle, Ending.losesToken, not_false_eq_true, iff_true]
    exact ⟨hpaid.wallet, hpaid.remain, hpaid.used⟩
  | refund env' =>
    have hpaid := hfinal.refund env'
    have hshare : tokenShare relayInfo 0 = 0 := by simp [tokenShare]
    -- the token is exact when it keeps no share of the running total
    have hexact : ChargedOnce w₀ relayInfo
          ((run (Live.reserve st) σ₀ calls).session.refund st env' (run (Live.reserve st) σ₀ calls).world).2 0 ↔
        keptShare relayInfo (run (Live.reserve st) σ₀ calls).session.preConsumedQuota = 0 := by
      have hremain := hpaid.remain
      have hused := hpaid.used
      constructor
      · intro h
        have hback := h.remain
        omega
      · intro hkept
        rw [hkept] at hremain hused
        exact ⟨hpaid.wallet, by rw [hshare]; exact hremain, by rw [hshare]; exact hused⟩
    show ChargedOnce w₀ relayInfo _ 0 ↔ _
    rw [Live.finish, hexact, Ending.losesToken, keptShare, tokenShare]
    have hnonneg := hfinal.nonneg
    by_cases hunl : relayInfo.tokenUnlimited = true
    · by_cases hplay : relayInfo.isPlayground = true
      · simp [hplay]
      · rw [if_pos hunl, if_neg hplay]
        have hiff := hpos hunl
        rw [hpre, htrusted, BillingSession.effectiveQuota] at hiff
        have hbooked : 0 < (run (Live.reserve st) σ₀ calls).session.preConsumedQuota ↔
            (BillingSession.forWallet relayInfo).shouldTrust st tokenQuota = false ∧
              (0 < quota ∨ ∃ c ∈ calls, 0 < c.targetQuota) := by
          rw [hiff]
          cases (BillingSession.forWallet relayInfo).shouldTrust st tokenQuota <;> simp
        have hoff : relayInfo.isPlayground = false := by simpa using hplay
        simp only [hunl, hoff, true_and, ← hbooked]
        omega
    · simp [hunl]

def walletSample : World where
  users := Table.empty.insert { quota := 1000 }
  tokens := Table.empty.insert { key := "k", remainQuota := 500 }

def walletRequest (tokenUnlimited : Bool) : RelayInfo := { userId := 1, tokenId := 1, tokenUnlimited }

def walletOpened (tokenUnlimited : Bool) : Live :=
  let o := (BillingSession.forWallet (walletRequest tokenUnlimited)).preConsume {} ⟨10, 300⟩ .ok .ok 0 100
    walletSample
  ⟨o.session, o.world⟩

theorem walletSession_exact_sample : ChargedOnce walletSample (walletRequest false)
      ((run (Live.reserve {}) (walletOpened false) [⟨⟨20, 300⟩, .ok, 150⟩, ⟨⟨21, 300⟩, .ok, 900⟩]).finish {}
        (.settle ⟨30, 300⟩ 130)) 130 :=
  (walletSession_exact_iff {} ⟨10, 300⟩ .ok .ok 0 100 walletSample (walletRequest false)
    (walletOpened false) [⟨⟨20, 300⟩, .ok, 150⟩, ⟨⟨21, 300⟩, .ok, 900⟩] (.settle ⟨30, 300⟩ 130)
    ⟨⟨{ quota := 1000 }, rfl, by decide⟩, fun _ => by decide +kernel⟩ (by decide) (by decide)
    (by
      intro c hc
      rcases mem_cons.mp hc with rfl | hc
      · decide
      · rcases mem_cons.mp hc with rfl | hc
        · decide
        · cases hc)
    (by decide)
    (by
      have herror : ((BillingSession.forWallet (walletRequest false)).preConsume {} ⟨10, 300⟩ .ok .ok 0 100
        walletSample).error = none := by decide +kernel
      rw [walletOpened, ← herror])).mpr (by simp [Ending.losesToken])

/-- With an unlimited token `100` are pre-consumed and refunded: the wallet is whole again, and the token
has lost `100` of its remaining quota and shows `100` used. -/
theorem refund_keeps_unlimited_token_charged :
    let w := (walletOpened true).finish {} (.refund ⟨30, 300⟩)
    w.walletQuota 1 = 1000 ∧ w.tokenRemain 1 = 500 - 100 ∧ w.tokenUsed 1 = 0 + 100 ∧
      ¬ ChargedOnce walletSample (walletRequest true) w 0 := by
  intro w
  have hremain : w.tokenRemain 1 = 500 - 100 := by decide +kernel
  refine ⟨by decide +kernel, hremain, by decide +kernel, fun h => ?_⟩
  have hback : w.tokenRemain 1 = 500 := h.remain
  omega

end CubeRouter.Billing
