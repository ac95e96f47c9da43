import CubeRouter.Billing.Exclusion

/-!
# Which account pays

`NewBillingSession` tries the funding sources of a personal request in the order of its preference. A
source that refuses has given the token's reservation back (`Restored`), so the session that opens in the
end holds what it would hold had it been tried first. `PersonalOpen` is the state it leaves: the funding
source, and outside playground the token, have paid the running total since `w₀`.

`direct` counts what the request is charged besides its session.
-/

namespace CubeRouter.Billing

open Relational Transition Ledger

variable {st : Settings} {env : Env} {w₀ w w' : World} {relayInfo : RelayInfo} {id : Nat}
  {amount delta quota : Int} {answer : CacheAnswer}

/-! ## The token -/

/-- Since `w₀` the token `id` has paid `amount`. -/
structure TokenPaid (w₀ w : World) (id : Nat) (amount : Int) : Prop where
  live : (w.liveToken id).isSome
  remain : w.tokenRemain id = w₀.tokenRemain id - amount
  used : w.tokenUsed id = w₀.tokenUsed id + amount

theorem TokenPaid.refl (h : (w.liveToken id).isSome) : TokenPaid w w id 0 :=
  ⟨h, (sub_zero _).symm, (add_zero _).symm⟩

theorem TokenPaid.moved (h : TokenPaid w₀ w id amount) (hmoved : TokenMoved w w' id (-delta)) :
    TokenPaid w₀ w' id (amount + delta) := by
  have hremain := hmoved.remain
  have hused := hmoved.used
  have hremain0 := h.remain
  have hused0 := h.used
  exact ⟨hmoved.live h.live, by omega, by omega⟩

variable {w1 : World} {s : BillingSession} {requestId : String} {userId : Nat} {result : SubscriptionPreConsumeResult}

theorem TokenPaid.trans (h : TokenPaid w₀ w1 id 0) (h' : TokenPaid w1 w id amount) : TokenPaid w₀ w id amount := by
  have hremain := h.remain
  have hused := h.used
  have hremain' := h'.remain
  have hused' := h'.used
  exact ⟨h'.live, by omega, by omega⟩

theorem TokenPaid.congr (h : TokenPaid w₀ w id amount) (htokens : w'.tokens = w.tokens)
    (hpending : w'.pendingTokenQuota = w.pendingTokenQuota) : TokenPaid w₀ w' id amount := by
  refine ⟨?_, ?_, ?_⟩
  · rw [World.liveToken, htokens]
    exact h.live
  · rw [World.tokenRemain, htokens, hpending]
    exact h.remain
  · rw [World.tokenUsed, htokens, hpending]
    exact h.used

theorem preConsumeToken_paid (hplay : relayInfo.isPlayground = false)
    (hlive : (w.liveToken relayInfo.tokenId).isSome) (hquota : 0 ≤ quota)
    (h : preConsumeToken st env answer relayInfo quota w = .ok w') : TokenPaid w w' relayInfo.tokenId quota := by
  unfold preConsumeToken at h
  split at h
  · have hmoved := preConsumeTokenQuota_moved (fun _ => hlive) h
    rw [if_neg (by simp [hplay])] at hmoved
    have hpaid := (TokenPaid.refl hlive).moved hmoved
    rwa [zero_add] at hpaid
  · obtain rfl : quota = 0 := by omega
    cases h
    exact .refl hlive

theorem preConsumeToken_same (hskip : ¬ (0 < quota ∧ relayInfo.isPlayground = false))
    (h : preConsumeToken st env answer relayInfo quota w = .ok w') : w' = w := by
  unfold preConsumeToken at h
  by_cases hpos : 0 < quota
  · have hplay : relayInfo.isPlayground = true := by
      by_contra hne
      exact hskip ⟨hpos, by simpa using hne⟩
    rw [if_pos hpos, preConsumeTokenQuota, if_neg (by omega), if_pos hplay] at h
    cases h
    rfl
  · rw [if_neg hpos] at h
    cases h
    rfl

/-! ## A source that refuses -/

/-- The balances in `w` are those in `w₀`. -/
structure Restored (relayInfo : RelayInfo) (w₀ w : World) : Prop where
  frame : TokenFrame w₀ w
  token : relayInfo.isPlayground = false → (w₀.liveToken relayInfo.tokenId).isSome →
    TokenPaid w₀ w relayInfo.tokenId 0

theorem Restored.refl (relayInfo : RelayInfo) (w : World) : Restored relayInfo w w :=
  ⟨.refl w, fun _ hlive => .refl hlive⟩

theorem TokenFrame.trans (h : TokenFrame w₀ w1) (h' : TokenFrame w1 w) : TokenFrame w₀ w := by
  obtain ⟨_, _, rfl⟩ := h
  obtain ⟨_, _, rfl⟩ := h'
  exact ⟨_, _, rfl⟩

theorem Restored.trans (h : Restored relayInfo w₀ w1) (h' : Restored relayInfo w1 w) : Restored relayInfo w₀ w :=
  ⟨h.frame.trans h'.frame, fun hplay hlive =>
    (h.token hplay hlive).trans (h'.token hplay (h.token hplay hlive).live)⟩

/-- The token's reservation is given back when the funding source refuses. -/
theorem preConsumePersonal_restored {tokenAnswer fundingAnswer : CacheAnswer}
    (hzero : s.tokenConsumed = 0) (hquota : 0 ≤ quota)
    (herror : (s.preConsumePersonal st env tokenAnswer fundingAnswer quota w).error ≠ none) :
    Restored s.relayInfo w (s.preConsumePersonal st env tokenAnswer fundingAnswer quota w).world := by
  unfold BillingSession.preConsumePersonal at herror ⊢
  cases htoken : preConsumeToken st env tokenAnswer s.relayInfo quota w with
  | error => exact .refl _ _
  | ok w1 =>
    simp only [htoken] at herror ⊢
    cases hfunding : preConsumeFunding st env fundingAnswer s.funding quota w1 with
    | ok =>
      rw [hfunding] at herror
      exact absurd rfl herror
    | error =>
      simp only
      have hframe := preConsumeToken_frame htoken
      by_cases htaken : 0 < quota ∧ s.relayInfo.isPlayground = false
      · rw [if_pos (by simp [htaken.1, htaken.2]), if_pos htaken.1]
        constructor
        · cases hback : increaseTokenQuota st w1 env.now s.relayInfo.tokenId quota with
          | error => exact hframe
          | ok => exact hframe.trans (moveTokenQuota_frame hback)
        · intro hplay hlive
          have hpaid := preConsumeToken_paid hplay hlive hquota htoken
          obtain ⟨_, hback, hmoved⟩ := increaseTokenQuota_moved st env.now hpaid.live hquota
          rw [← neg_neg quota] at hmoved
          have hnone := hpaid.moved hmoved
          rw [add_neg_cancel] at hnone
          rw [hback]
          exact hnone
      · obtain rfl := preConsumeToken_same htaken htoken
        rw [if_neg]
        · exact .refl _ _
        · rintro ⟨hpos, hplay⟩
          split_ifs at hpos with hq
          · exact htaken ⟨hq, by simpa using hplay⟩
          · omega

/-! ## A source that pays -/

theorem consumeSubscription_frame {candidates : List (Nat × UserSubscription)}
    (h : consumeSubscription st requestId userId amount w candidates = .ok (result, w')) :
    ∃ subscriptions preConsumeRecords, w' = { w with subscriptions, preConsumeRecords } := by
  induction candidates generalizing w with
  | nil => cases h
  | cons p _ ih =>
    obtain ⟨_, -, hrest⟩ := bind_eq_ok.mp h
    split at hrest
    · obtain ⟨_, _, rfl⟩ := ih hrest
      exact ⟨_, _, rfl⟩
    · cases hrest
      exact ⟨_, _, rfl⟩

theorem preConsumeUserSubscription_frame {now : Int}
    (h : preConsumeUserSubscription st now w requestId userId amount = .ok (result, w')) :
    ∃ subscriptions preConsumeRecords, w' = { w with subscriptions, preConsumeRecords } := by
  unfold preConsumeUserSubscription at h
  split_ifs at h
  split at h
  · split_ifs at h
    split at h
    · cases h
    · cases h
      exact ⟨_, _, rfl⟩
  · split at h
    · cases h
    · exact consumeSubscription_frame h

/-- The open session of a personal request: its funding source, and outside playground the token, have
paid its running total and `direct` since `w₀`. -/
structure PersonalOpen (st : Settings) (w₀ : World) (relayInfo : RelayInfo) (direct : Int)
    (s : BillingSession) (w : World) : Prop where
  session : SessionOpen st s.funding.taken (s.funding.takenBefore st w₀ + direct) ⟨s, w⟩
  personal : isOrganizationBilling s.relayInfo = false
  source : s.relayInfo.billingSource = s.funding.source
  payer : ∀ f, s.funding = .wallet f → f.userId = s.relayInfo.userId
  isPlayground : s.relayInfo.isPlayground = relayInfo.isPlayground
  tokenId : s.relayInfo.tokenId = relayInfo.tokenId
  token : relayInfo.isPlayground = false → TokenPaid w₀ w relayInfo.tokenId (s.preConsumedQuota + direct)

theorem PersonalAccount.restored (h : PersonalAccount st w₀ relayInfo) (hframe : TokenFrame w₀ w) :
    PersonalAccount st w relayInfo := by
  obtain ⟨_, _, rfl⟩ := hframe
  exact ⟨h.user, h.fresh, h.used, h.reset⟩

theorem takenBefore_frame (funding : FundingSource) (h : TokenFrame w₀ w) :
    funding.takenBefore st w = funding.takenBefore st w₀ := by
  obtain ⟨_, _, rfl⟩ := h
  cases funding <;> rfl

theorem preConsumeFunding_personal {funding funding' : FundingSource} (hp : ∀ f, funding ≠ .organization f)
    (h : preConsumeFunding st env answer funding quota w = .ok (funding', w')) :
    w'.tokens = w.tokens ∧ w'.pendingTokenQuota = w.pendingTokenQuota ∧
      ∀ f', funding' = .wallet f' → ∃ f, funding = .wallet f ∧ f'.userId = f.userId := by
  cases funding with
  | wallet f =>
    obtain ⟨⟨f1, w1⟩, hpre, hrest⟩ := bind_eq_ok.mp h
    cases hrest
    unfold WalletFunding.preConsume at hpre
    split at hpre
    · cases hpre
      exact ⟨rfl, rfl, fun f' hf => ⟨f, rfl, by cases hf; rfl⟩⟩
    · obtain ⟨⟨_, w2⟩, hreserve, hlast⟩ := bind_eq_ok.mp hpre
      rcases tryReserveUserQuota_moved hreserve with ⟨rfl, hmoved⟩ | ⟨rfl, -⟩
      · cases hlast
        exact ⟨hmoved.tokens, hmoved.pendingTokenQuota, fun f' hf => ⟨f, rfl, by cases hf; rfl⟩⟩
      · cases hlast
  | subscription =>
    obtain ⟨⟨_, _⟩, hpre, hrest⟩ := bind_eq_ok.mp h
    cases hrest
    obtain ⟨⟨_, _⟩, hconsume, hlast⟩ := bind_eq_ok.mp hpre
    cases hlast
    obtain ⟨_, _, rfl⟩ := preConsumeUserSubscription_frame hconsume
    exact ⟨rfl, rfl, fun f' hf => by cases hf⟩
  | organization f => exact absurd rfl (hp f)

theorem syncRelayInfo_personal (hp : ∀ f, s.funding ≠ .organization f) :
    s.syncRelayInfo.relayInfo = { s.relayInfo with
      finalPreConsumedQuota := s.preConsumedQuota
      billingSource := s.funding.source
      subscriptionId := s.funding.subscriptionId } := by
  unfold BillingSession.syncRelayInfo BillingSession.currentRelayInfo
  cases hf : s.funding with
  | wallet | subscription => rfl
  | organization f => exact absurd hf (hp f)

/-- What `NewBillingSession` assumes of a personal request: an account that can pay, and outside
playground a token. -/
structure Payable (st : Settings) (w₀ : World) (relayInfo : RelayInfo) : Prop where
  account : PersonalAccount st w₀ relayInfo
  personal : isOrganizationBilling relayInfo = false
  token : relayInfo.isPlayground = false → (w₀.liveToken relayInfo.tokenId).isSome

section Tries

variable {answers : OpenAnswers} {tokenQuota : Int} {s s0 : BillingSession} {w1 : World}
  {tokenAnswer fundingAnswer : CacheAnswer}

theorem preConsume_personal (hkind : ∀ f, s0.funding ≠ .organization f) :
    s0.preConsume st env tokenAnswer fundingAnswer tokenQuota quota w =
      { s0 with trusted := s0.shouldTrust st tokenQuota }.preConsumePersonal st env tokenAnswer
        fundingAnswer (s0.effectiveQuota st tokenQuota quota) w := by
  unfold BillingSession.preConsume
  cases hf : s0.funding with
  | wallet | subscription => rfl
  | organization f => exact absurd hf (hkind f)

theorem effectiveQuota_nonneg (s : BillingSession) (st : Settings) (tokenQuota : Int) (hquota : 0 ≤ quota) :
    0 ≤ s.effectiveQuota st tokenQuota quota := by
  unfold BillingSession.effectiveQuota
  split_ifs
  · exact le_rfl
  · exact hquota

theorem PersonalOpen.created (h0 : Payable st w₀ relayInfo) (hrestored : Restored relayInfo w₀ w1)
    (hpersonal : isOrganizationBilling s0.relayInfo = false)
    (hplay : s0.relayInfo.isPlayground = relayInfo.isPlayground)
    (htoken : s0.relayInfo.tokenId = relayInfo.tokenId)
    (hpayer : ∀ f, s0.funding = .wallet f → f.userId = s0.relayInfo.userId)
    (hkind : ∀ f, s0.funding ≠ .organization f) (hquota : 0 ≤ quota)
    (hopen : s0.preConsume st env tokenAnswer fundingAnswer tokenQuota quota w1 = ⟨none, s, w⟩)
    (hsession : SessionOpen st s.funding.taken (s.funding.takenBefore st w1) ⟨s, w⟩) :
    PersonalOpen st w₀ relayInfo 0 s w := by
  have hp := hsession.held.personal
  rw [takenBefore_frame _ hrestored.frame] at hsession
  have heff := effectiveQuota_nonneg s0 st tokenQuota hquota
  rw [preConsume_personal hkind] at hopen
  generalize s0.effectiveQuota st tokenQuota quota = eff at hopen heff
  obtain ⟨w2, funding, hpre, hfunding, rfl⟩ := preConsumePersonal_ok hopen
  obtain ⟨htokens, hpending, hwallet⟩ := preConsumeFunding_personal hkind hfunding
  have hsync := syncRelayInfo_personal (s := { s0 with
    trusted := s0.shouldTrust st tokenQuota
    tokenConsumed := if 0 < eff then eff else s0.tokenConsumed
    funding
    preConsumedQuota := eff }) hp
  refine ⟨by rwa [add_zero], ?_, ?_, fun f hf => ?_, ?_, ?_, fun hoff => ?_⟩
  · rw [hsync]
    exact hpersonal
  · rfl
  · obtain ⟨f0, hf0, huser⟩ := hwallet f hf
    rw [hsync, huser]
    exact hpayer f0 hf0
  · rw [hsync]
    exact hplay
  · rw [hsync]
    exact htoken
  · have hrest := hrestored.token hoff (h0.token hoff)
    have hpaid := preConsumeToken_paid (hplay.trans hoff) (by rw [htoken]; exact hrest.live) heff hpre
    have hpaid' : TokenPaid w1 w2 relayInfo.tokenId eff := htoken ▸ hpaid
    show TokenPaid w₀ w relayInfo.tokenId (eff + 0)
    rw [add_zero]
    exact (hrest.trans hpaid').congr htokens hpending

/-- How a try ends: `Q` holds of the session it opens, or `R` of the database an error leaves. -/
def Ends (Q : BillingSession → World → Prop) (R : World → Prop) : Opened → Prop
  | (.ok s, w) => Q s w
  | (.error _, w) => R w

variable {Q : BillingSession → World → Prop} {R : World → Prop}

theorem open_ends (s0 : BillingSession)
    (hcreated : ∀ s w, s0.preConsume st env (answers.token s0.funding.source) answers.wallet tokenQuota
      quota w1 = ⟨none, s, w⟩ → Q s w)
    (hrefused : (s0.preConsume st env (answers.token s0.funding.source) answers.wallet
      tokenQuota quota w1).error ≠ none →
      R (s0.preConsume st env (answers.token s0.funding.source) answers.wallet tokenQuota quota w1).world) :
    Ends Q R (s0.open st env answers tokenQuota quota w1) := by
  unfold BillingSession.open
  generalize s0.preConsume st env (answers.token s0.funding.source) answers.wallet tokenQuota quota w1 = o
    at hcreated hrefused ⊢
  obtain ⟨error, s, w⟩ := o
  cases error with
  | none => exact hcreated s w rfl
  | some => exact hrefused (by simp)

/-- A try ends with an open session, or with the balances as they were. -/
def Tried (st : Settings) (w₀ : World) (relayInfo : RelayInfo) : Opened → Prop
  | (.ok s, w) => PersonalOpen st w₀ relayInfo 0 s w
  | (.error _, w) => Restored relayInfo w₀ w

theorem tryWallet_tried (h0 : Payable st w₀ relayInfo) (hrestored : Restored relayInfo w₀ w1)
    (hquota : 0 ≤ quota) (hmax : quota ≤ maxWalletQuota) :
    Tried st w₀ relayInfo (tryWallet st env answers tokenQuota quota relayInfo w1) := by
  unfold tryWallet
  split
  · exact hrestored
  · rename_i userQuota hread
    split
    · exact hrestored
    · have hacc := h0.account.restored hrestored.frame
      have haccount : PersonalAccount st w1 { relayInfo with userQuota } :=
        ⟨hacc.user, hacc.fresh, hacc.used, hacc.reset⟩
      have hkind : ∀ f, (BillingSession.forWallet { relayInfo with userQuota }).funding ≠ .organization f :=
        fun f hf => by cases hf
      refine open_ends (.forWallet { relayInfo with userQuota }) (fun s w hopen => ?_)
        fun herror => hrestored.trans ?_
      · refine PersonalOpen.created h0 hrestored h0.personal rfl rfl (fun f hf => ?_) hkind hquota hopen
          (SessionOpen.created_wallet (σ := ⟨s, w⟩) haccount hquota hmax hopen)
        cases hf
        rfl
      · have hback := preConsumePersonal_restored rfl (effectiveQuota_nonneg _ st tokenQuota hquota) herror
        exact ⟨hback.frame, hback.token⟩

theorem trySubscription_tried (h0 : Payable st w₀ relayInfo) (hrestored : Restored relayInfo w₀ w1)
    (hmax : quota ≤ maxWalletQuota) :
    Tried st w₀ relayInfo (trySubscription st env answers tokenQuota quota relayInfo w1) := by
  unfold trySubscription
  generalize hsub : (if quota ≤ 0 then 1 else quota) = subConsume
  have hbounds : 0 ≤ subConsume ∧ subConsume ≤ maxWalletQuota := by
    subst hsub
    split_ifs
    · exact ⟨by decide, by decide⟩
    · exact ⟨by omega, hmax⟩
  have haccount := h0.account.restored hrestored.frame
  have hkind : ∀ f, (BillingSession.forSubscription relayInfo subConsume).funding ≠ .organization f :=
    fun f hf => by cases hf
  refine open_ends (.forSubscription relayInfo subConsume) (fun s w hopen => ?_) fun herror => hrestored.trans ?_
  · exact PersonalOpen.created h0 hrestored h0.personal rfl rfl (fun f hf => by cases hf) hkind hbounds.1
      hopen (SessionOpen.created_subscription (σ := ⟨s, w⟩) haccount hbounds.2 hopen)
  · exact preConsumePersonal_restored rfl (effectiveQuota_nonneg _ st tokenQuota hbounds.1) herror

/-- The order of the tries does not matter for what holds of each of them. -/
theorem newBillingSession_ends (hpersonal : isOrganizationBilling relayInfo = false) (hstart : R w₀)
    (hwallet : ∀ w1, R w1 → Ends Q R (tryWallet st env answers tokenQuota quota relayInfo w1))
    (hsubscription : ∀ w1, R w1 → Ends Q R (trySubscription st env answers tokenQuota quota relayInfo w1)) :
    Ends Q R (newBillingSession st env answers tokenQuota quota relayInfo w₀) := by
  unfold newBillingSession
  rw [if_neg (by simp [hpersonal])]
  split
  · exact hsubscription w₀ hstart
  · exact hwallet w₀ hstart
  · have htried := hwallet w₀ hstart
    unfold tryWalletFirst
    split
    · rename_i s w hok
      rwa [hok] at htried
    · rename_i e w herror
      rw [herror] at htried
      split_ifs
      · exact hsubscription w htried
      · exact htried
  · have htried := hsubscription w₀ hstart
    unfold trySubscriptionFirst
    split
    · exact hstart
    · exact hwallet w₀ hstart
    · split
      · rename_i s w hok
        rwa [hok] at htried
      · rename_i e w herror
        rw [herror] at htried
        split_ifs
        · split
          · exact htried
          · exact hwallet w htried
          · exact htried
        · exact htried

/-- Whatever the preference and whichever source refuses first, the session that opens has paid its hold
on top of the balances of `w₀`. -/
theorem newBillingSession_tried (env : Env) (answers : OpenAnswers) (tokenQuota : Int)
    (h0 : Payable st w₀ relayInfo) (hquota : 0 ≤ quota) (hmax : quota ≤ maxWalletQuota) :
    Tried st w₀ relayInfo (newBillingSession st env answers tokenQuota quota relayInfo w₀) :=
  newBillingSession_ends h0.personal (Restored.refl relayInfo w₀)
    (fun _ hw1 => tryWallet_tried h0 hw1 hquota hmax) fun _ hw1 => trySubscription_tried h0 hw1 hmax

theorem preConsumeBilling_personal {r r1 : Request} (h0 : Payable st w₀ r.relayInfo) (hmax : quota ≤ maxWalletQuota)
    (h : preConsumeBilling st env answers tokenQuota quota r w₀ = (.ok r1, w)) :
    ∃ s, r1 = .withBilling s ∧ PersonalOpen st w₀ r.relayInfo 0 s w := by
  unfold preConsumeBilling at h
  split at h
  · cases h
  · rename_i hneg
    have htried := newBillingSession_tried env answers tokenQuota h0 (not_lt.mp hneg) hmax
    split at h
    · rename_i s w' hok
      rw [hok] at htried
      cases h
      exact ⟨s, rfl, htried⟩
    · cases h

end Tries

end CubeRouter.Billing
