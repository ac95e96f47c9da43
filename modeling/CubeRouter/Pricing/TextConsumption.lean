import CubeRouter.Billing.ChannelUsage
import CubeRouter.Billing.RealtimeCharge
import CubeRouter.Pricing.TieredTokens

/-!
# What a text request leaves in the usage counters

`PostTextConsumeQuota` of `service/text_quota.go` computes one quota, adds it to the counters of the user and of the
channel, passes it to `SettleBilling` and logs it. A tiered snapshot replaces the quota after the tokens have been
counted; the counters are touched only when the usage itself is billable.

Token statistics, notices and the text of the log are left out. An expression evaluates to a number or fails.
-/

namespace CubeRouter.Pricing

open Relational Transition Ledger Billing
open Streams.Snapshots (ReportedUsage Usage)

/-! ## Tiered settlement -/

structure BillingSnapshot where
  tieredExpr : Bool := true
  exprString : String := ""
  groupRatio : ℚ := 1
  estimatedQuotaAfterGroup : Int := 0
  quotaPerUnit : ℚ := 500000
  taskUsageBilling : Bool := false

/-- What the expression engine answers: the variables that an expression uses, and its value on a request of the given
variables, `none` for an error. -/
structure TieredEngine where
  usedVars : String → String → Bool := fun _ _ => false
  runExpr : String → TokenParams → Option ℚ := fun _ _ => none

structure TieredResult where
  actualQuotaBeforeGroup : ℚ
  actualQuotaAfterGroup : Int

def quotaConversion (exprOutput : ℚ) (snap : BillingSnapshot) : ℚ :=
  if snap.taskUsageBilling then exprOutput * snap.quotaPerUnit else exprOutput / 1000000 * snap.quotaPerUnit

def computeTieredQuota (te : TieredEngine) (snap : BillingSnapshot) (tp : TokenParams) : Option TieredResult :=
  (te.runExpr snap.exprString tp).map fun cost =>
    { actualQuotaBeforeGroup := quotaConversion cost snap
      actualQuotaAfterGroup := quotaFromDecimal (quotaConversion cost snap * snap.groupRatio) }

/-- An expression that fails is settled with what was pre-consumed, or else with the estimate. -/
def tryTieredSettle (te : TieredEngine) (snap : Option BillingSnapshot)
    (finalPreConsumedQuota : Int) (tp : TokenParams) :
    Option (Int × Option TieredResult) :=
  match snap.filter fun snap => snap.tieredExpr with
  | none => none
  | some snap =>
    match computeTieredQuota te snap tp with
    | none => some (if finalPreConsumedQuota ≤ 0 then snap.estimatedQuotaAfterGroup else finalPreConsumedQuota, none)
    | some result => some (result.actualQuotaAfterGroup, some result)

def composeTieredTextQuota (snap : Option BillingSnapshot) (s : TextQuotaSummary) (tieredQuota : Int)
    (result : Option TieredResult) : Int :=
  if s.toolCallSurchargeQuota = 0 then tieredQuota
  else
    match result, snap with
    | some result, some snap =>
      quotaFromDecimal (result.actualQuotaBeforeGroup * snap.groupRatio + s.toolCallSurchargeQuota)
    | _, _ => quotaFromDecimal (tieredQuota + s.toolCallSurchargeQuota)

/-! ## Consuming the quota -/

/-- A native payload of the provider comes before the counts next to it. -/
def effectiveBillingUsage (toUpper : String → String) (usage : ReportedUsage ℚ) : Usage ℚ :=
  (usage.billingUsage.bind fun b => b.canonicalUsage toUpper).getD usage.toUsage

/-- What a text request is charged by. `usage` is `none` when the upstream has reported nothing; `toUpper` is
`strings.ToUpper`. -/
structure TextCharge where
  ps : PriceSetting := {}
  engine : TieredEngine := {}
  toUpper : String → String := id
  info : TextInfo
  snapshot : Option BillingSnapshot := none
  usage : Option (ReportedUsage ℚ)

def TextCharge.billingUsage (x : TextCharge) : Option (Usage ℚ) := x.usage.map (effectiveBillingUsage x.toUpper)

def TextCharge.summary (x : TextCharge) : TextQuotaSummary := calculateTextQuotaSummary x.ps x.info x.billingUsage

/-- `TryTieredSettle` on the variables of the usage; without a usage it is not asked. -/
def TextCharge.tiered (x : TextCharge) (finalPreConsumedQuota : Int) : Option (Int × Option TieredResult) :=
  x.billingUsage.bind fun u =>
    tryTieredSettle x.engine x.snapshot finalPreConsumedQuota (buildTieredTokenParams u x.summary.isClaudeUsageSemantic
      fun name => x.snapshot.elim false fun snap => x.engine.usedVars snap.exprString name)

def TextCharge.quota (x : TextCharge) (finalPreConsumedQuota : Int) : Int :=
  match x.tiered finalPreConsumedQuota with
  | none => x.summary.quota
  | some (tieredQuota, result) => composeTieredTextQuota x.snapshot x.summary tieredQuota result

/-- The usage counters of the user, unless an organization pays, and of the channel. -/
def countTextUsage (st : Settings) (relayInfo : RelayInfo) (s : TextQuotaSummary) (quota : Int) (w : World) : World :=
  if ¬ s.hasBillableUsage then w
  else
    let w := if isOrganizationBilling relayInfo then w
      else updateUserUsedQuotaAndRequestCount st w relayInfo.userId quota
    updateChannelUsedQuota st w relayInfo.channelId quota

/-- What `PostTextConsumeQuota` leaves; `quota` is what it passes to `SettleBilling` and writes to the log. -/
structure TextSettlement where
  error : Option BillingError := none
  quota : Int
  request : Request
  world : World

def postTextConsumeQuota (st : Settings) (env : Env) (x : TextCharge) (r : Request) (w : World) : TextSettlement :=
  let quota := x.quota r.relayInfo.finalPreConsumedQuota
  let o := settleBilling st env quota r (countTextUsage st r.relayInfo x.summary quota w)
  ⟨o.error, quota, o.request, o.world⟩

/-! ## The counters -/

/-- `used_quota` of a user with the recorded movements. -/
def userUsed (w : World) (id : Nat) : Int := (w.users.get? id).elim 0 (fun u => u.usedQuota) + w.pendingUsedQuota id

structure SameUsage (w w' : World) : Prop where
  user : ∀ id, userUsed w' id = userUsed w id
  channel : SameChannels w w'

variable {st : Settings} {env : Env} {w w' : World}

theorem SameUsage.refl (w : World) : SameUsage w w := ⟨fun _ => rfl, fun _ => rfl⟩

theorem SameUsage.trans {w'' : World} (h : SameUsage w w') (h' : SameUsage w' w'') : SameUsage w w'' :=
  ⟨fun id => (h'.user id).trans (h.user id), h.channel.trans h'.channel⟩

theorem sameUsage_of_tokenFrame (h : TokenFrame w w') : SameUsage w w' := by
  refine ⟨?_, h.sameChannels⟩
  obtain ⟨_, _, rfl⟩ := h
  exact fun _ => rfl

theorem addUserQuota_sameUsage {id : Nat} {value : Int} : SameUsage w (w.addUserQuota id value) := by
  refine ⟨fun i => ?_, fun _ => rfl⟩
  unfold userUsed World.addUserQuota
  simp only [Table.get?_modify]
  split_ifs
  · cases w.users.get? i <;> rfl
  · rfl

variable {id : Nat} {quota : Int}

theorem decreaseUserQuota_sameUsage (h : decreaseUserQuota st w id quota = .ok w') : SameUsage w w' := by
  unfold decreaseUserQuota at h
  split_ifs at h
  · cases h
    exact ⟨fun _ => rfl, fun _ => rfl⟩
  · cases h
    exact addUserQuota_sameUsage

theorem increaseUserQuota_sameUsage (h : increaseUserQuota st w id quota = .ok w') : SameUsage w w' := by
  unfold increaseUserQuota at h
  split_ifs at h
  · cases h
    exact ⟨fun _ => rfl, fun _ => rfl⟩
  · split at h
    · cases h
    · split_ifs at h
      cases h
      exact addUserQuota_sameUsage

variable {delta : Int} {relayInfo : RelayInfo}

theorem postConsumeUserSubscriptionDelta_sameUsage
    (h : postConsumeUserSubscriptionDelta w id delta = .ok w') : SameUsage w w' := by
  unfold postConsumeUserSubscriptionDelta at h
  split_ifs at h
  · cases h
    exact SameUsage.refl w
  · split at h
    · cases h
    · cases h
      exact ⟨fun _ => rfl, fun _ => rfl⟩

theorem settleFunding_sameUsage {funding : FundingSource} (h : settleFunding st funding delta w = .ok w') :
    SameUsage w w' := by
  cases funding with
  | wallet =>
    simp only [settleFunding, WalletFunding.settle] at h
    split_ifs at h
    · cases h
      exact SameUsage.refl w
    · exact decreaseUserQuota_sameUsage h
    · exact increaseUserQuota_sameUsage h
  | subscription =>
    simp only [settleFunding, SubscriptionFunding.settle] at h
    split_ifs at h
    · cases h
      exact SameUsage.refl w
    · exact postConsumeUserSubscriptionDelta_sameUsage h
  | organization =>
    cases h
    exact SameUsage.refl w

theorem settlePersonal_sameUsage {s : BillingSession} {actualQuota : Int} :
    SameUsage w (s.settlePersonal st env actualQuota w).world := by
  have hfunding {w' : World} (h : (if s.fundingSettled then .ok w
      else settleFunding st s.funding (actualQuota - s.preConsumedQuota) w) = .ok w') : SameUsage w w' := by
    split_ifs at h
    · cases h
      exact SameUsage.refl w
    · exact settleFunding_sameUsage h
  unfold BillingSession.settlePersonal
  by_cases hsettled : s.settled = true
  · rw [if_pos hsettled]
    exact SameUsage.refl w
  rw [if_neg hsettled]
  dsimp only
  by_cases hdelta : actualQuota - s.preConsumedQuota = 0
  · rw [if_pos hdelta]
    exact SameUsage.refl w
  rw [if_neg hdelta]
  split
  · exact SameUsage.refl w
  · rename_i w1 hw1
    split
    · exact hfunding hw1
    · rename_i w2 htoken
      exact (hfunding hw1).trans (sameUsage_of_tokenFrame (settleToken_frame htoken))

theorem postConsumeFunding_sameUsage (h : postConsumeFunding st relayInfo quota w = .ok w') : SameUsage w w' := by
  unfold postConsumeFunding at h
  split_ifs at h
  · cases h
    exact SameUsage.refl w
  · exact postConsumeUserSubscriptionDelta_sameUsage h
  · exact decreaseUserQuota_sameUsage h
  · exact increaseUserQuota_sameUsage h

theorem postConsumeQuota_sameUsage (h : isOrganizationBilling relayInfo = false) (quota : Int) :
    SameUsage w (postConsumeQuota st env relayInfo quota w).world := by
  unfold postConsumeQuota postConsumeQuotaWithResultCount
  rw [if_neg (by simp [h])]
  split
  · exact SameUsage.refl w
  · rename_i w1 hfunding
    split_ifs
    · exact postConsumeFunding_sameUsage hfunding
    · split
      · exact postConsumeFunding_sameUsage hfunding
      · rename_i w2 htoken
        exact (postConsumeFunding_sameUsage hfunding).trans (sameUsage_of_tokenFrame (postConsumeToken_frame htoken))

/-- The request is billed to its own user, who has a row. -/
structure PersonalRequest (r : Request) (w : World) : Prop where
  scope : isOrganizationBilling r.relayInfo = false
  funding : ∀ s, r.billing = some s → ∀ f, s.funding ≠ .organization f
  user : (w.users.get? r.relayInfo.userId).isSome = true

variable {r : Request}

theorem settleBilling_sameUsage (scope : isOrganizationBilling r.relayInfo = false)
    (funding : ∀ s, r.billing = some s → ∀ f, s.funding ≠ .organization f) (actualQuota : Int) :
    SameUsage w (settleBilling st env actualQuota r w).world := by
  unfold settleBilling
  split
  · rename_i s hs
    rw [settle_personal (funding s hs)]
    exact settlePersonal_sameUsage
  · dsimp only
    split_ifs
    · exact postConsumeQuota_sameUsage scope _
    · exact SameUsage.refl w

theorem userUsed_updateUserUsedQuotaAndRequestCount (h : (w.users.get? id).isSome = true) (quota : Int) :
    userUsed (updateUserUsedQuotaAndRequestCount st w id quota) id = userUsed w id + quota := by
  obtain ⟨_, huser⟩ := Option.isSome_iff_exists.mp h
  unfold updateUserUsedQuotaAndRequestCount updateUserUsedQuota userUsed
  split_ifs
  · simp only [if_true]
    omega
  · simp only [Table.get?_modify_self, huser, Option.map_some, Option.elim_some]
    omega

theorem updateUserUsedQuotaAndRequestCount_sameChannels (id : Nat) (quota : Int) :
    SameChannels w (updateUserUsedQuotaAndRequestCount st w id quota) := by
  unfold updateUserUsedQuotaAndRequestCount updateUserUsedQuota
  split_ifs <;> exact fun _ => rfl

theorem userUsed_updateChannelUsedQuota (id i : Nat) (quota : Int) :
    userUsed (updateChannelUsedQuota st w id quota) i = userUsed w i := by
  unfold updateChannelUsedQuota
  split_ifs <;> rfl

theorem countTextUsage_counts (st : Settings) (h : PersonalRequest r w) {s : TextQuotaSummary} :
    userUsed (countTextUsage st r.relayInfo s quota w) r.relayInfo.userId =
        userUsed w r.relayInfo.userId + (if s.hasBillableUsage then quota else 0) ∧
      (countTextUsage st r.relayInfo s quota w).channelUsed r.relayInfo.channelId =
        w.channelUsed r.relayInfo.channelId + if s.hasBillableUsage then quota else 0 := by
  unfold countTextUsage
  by_cases hbillable : s.hasBillableUsage
  · simp only [hbillable, not_true_eq_false, if_false, h.scope, Bool.false_eq_true]
    rw [userUsed_updateChannelUsedQuota, userUsed_updateUserUsedQuotaAndRequestCount h.user,
      channelUsed_updateChannelUsedQuota,
      if_pos rfl, updateUserUsedQuotaAndRequestCount_sameChannels]
    exact ⟨rfl, rfl⟩
  · simp [hbillable]

/-! ## What is settled -/

/-- The counters of the user and of the channel have moved by the quota that was settled and logged. -/
def RecordsSettled (st : Settings) (env : Env) (x : TextCharge) (r : Request) (w : World) : Prop :=
  let o := postTextConsumeQuota st env x r w
  userUsed o.world r.relayInfo.userId - userUsed w r.relayInfo.userId = o.quota ∧
    o.world.channelUsed r.relayInfo.channelId - w.channelUsed r.relayInfo.channelId = o.quota

/-- What the expression charges, `0` where none is asked. -/
def TextCharge.tieredQuota (x : TextCharge) (finalPreConsumedQuota : Int) : Int :=
  (x.tiered finalPreConsumedQuota).elim 0 fun tiered => tiered.1

theorem recordsSettled_cases (h : PersonalRequest r w) (x : TextCharge) :
    RecordsSettled st env x r w ↔ x.summary.hasBillableUsage ∨ x.quota r.relayInfo.finalPreConsumedQuota = 0 := by
  have hsame : SameUsage _ (postTextConsumeQuota st env x r w).world := settleBilling_sameUsage h.scope h.funding _
  obtain ⟨huser, hchannel⟩ := countTextUsage_counts st h
  unfold RecordsSettled
  simp only
  rw [hsame.user, hsame.channel, huser, hchannel]
  show _ - _ = x.quota _ ∧ _ - _ = x.quota _ ↔ _
  split_ifs with hbillable
  · simp only [hbillable, true_or, iff_true]
    omega
  · simp only [hbillable, false_or]
    omega

theorem quota_of_unbillable {x : TextCharge} (h : ¬ x.summary.hasBillableUsage) (finalPreConsumedQuota : Int) :
    x.quota finalPreConsumedQuota = x.tieredQuota finalPreConsumedQuota := by
  have hsurcharge : x.summary.toolCallSurchargeQuota = 0 := by
    by_contra hne
    exact h (.inr hne)
  have hsummary : x.summary.quota = 0 := if_pos h
  unfold TextCharge.quota TextCharge.tieredQuota
  cases x.tiered finalPreConsumedQuota with
  | none => exact hsummary
  | some => exact if_pos hsurcharge

/-- What is settled is recorded if and only if the usage is billable, by the counts it reports or by its tool calls,
or the tiered expression charges nothing. -/
theorem recordsSettled_iff (st : Settings) (env : Env) (x : TextCharge) (r : Request) (w : World)
    (h : PersonalRequest r w) :
    RecordsSettled st env x r w ↔
      (countText x.ps x.info x.billingUsage).hasBillableUsage ∨
      x.tieredQuota r.relayInfo.finalPreConsumedQuota = 0 := by
  rw [recordsSettled_cases h, ← hasBillableUsage_calculateTextQuotaSummary]
  show x.summary.hasBillableUsage ∨ _ ↔ x.summary.hasBillableUsage ∨ _
  by_cases hbillable : x.summary.hasBillableUsage
  · simp [hbillable]
  · rw [quota_of_unbillable hbillable]

/-- A price for each call, whatever its tokens. -/
def flatExpression : TextCharge where
  engine := { runExpr := fun _ _ => some 1000000 }
  info := { relayModeResponses := true, priceData := { modelRatio := 1 } }
  snapshot := some { exprString := "tier(\"flat\", 1000000)" }
  usage := some {}

def personalWorld : World where
  users := Table.empty.insert { quota := 1000000 }

def personalRequest : Request where
  relayInfo := { userId := 1, channelId := 3, isPlayground := true }

theorem personalRequest_personal : PersonalRequest personalRequest personalWorld where
  scope := rfl
  funding s hs := by simp [personalRequest] at hs
  user := rfl

/-- Ten tokens are billable, whatever the expression charges for them. -/
theorem flatExpression_recorded :
    RecordsSettled {} ⟨0, 0⟩ { flatExpression with usage := some { promptTokens := 10 } }
    personalRequest personalWorld :=
  (recordsSettled_iff {} ⟨0, 0⟩ { flatExpression with usage := some { promptTokens := 10 } }
    personalRequest personalWorld
    personalRequest_personal).mpr (.inl (.inl (by decide)))

/-- The price of a call is settled for a usage of no tokens, and no counter moves. -/
theorem flatExpression_not_recorded :
    (postTextConsumeQuota {} ⟨0, 0⟩ flatExpression personalRequest personalWorld).error = none ∧
      ¬ RecordsSettled {} ⟨0, 0⟩ flatExpression personalRequest personalWorld := by
  refine ⟨by decide +kernel, ?_⟩
  intro h
  have huser : userUsed (postTextConsumeQuota {} ⟨0, 0⟩ flatExpression personalRequest personalWorld).world 1 -
      userUsed personalWorld 1 = 500000 := h.1.trans (by decide +kernel)
  revert huser
  decide +kernel

end CubeRouter.Pricing
