import CubeRouter.Pricing.TextQuota

/-!
# A larger request never costs less

Of two usages that differ in the tokens of the prompt and of the completion, the larger one is charged at least as
much. Every stage of the charge keeps the order: the clamp of the base tokens, the products with ratios that are not
negative, the charge of one where a ratio applies, rounding, and the cut to the quota bounds.
-/

namespace CubeRouter.Pricing

open List

open Billing (quotaFromDecimal quotaFromDecimal_nonneg)
open Streams.Snapshots (Usage)

/-- The price of a call counts where it is used. -/
structure PriceData.NonNegative (pd : PriceData) : Prop where
  modelRatio : 0 ≤ pd.modelRatio
  groupRatio : 0 ≤ pd.groupRatio
  completionRatio : 0 ≤ pd.completionRatio
  modelPrice : pd.usePrice = true → 0 ≤ pd.modelPrice

/-- `v` has at least the prompt and the completion tokens of `u`; in everything else that is charged they agree. -/
structure Grown (u v : Usage ℚ) : Prop where
  prompt : u.promptTokens ≤ v.promptTokens
  completion : u.completionTokens ≤ v.completionTokens
  semantic : v.usageSemantic = u.usageSemantic
  source : v.usageSource = u.usageSource
  cached : v.promptTokensDetails.cachedTokens = u.promptTokensDetails.cachedTokens
  cacheCreation : cacheCreationTokensTotal v.promptTokensDetails = cacheCreationTokensTotal u.promptTokensDetails
  split5m : v.claudeCacheCreation5mTokens = u.claudeCacheCreation5mTokens
  split1h : v.claudeCacheCreation1hTokens = u.claudeCacheCreation1hTokens
  image : v.promptTokensDetails.imageTokens = u.promptTokensDetails.imageTokens
  audio : v.promptTokensDetails.audioTokens = u.promptTokensDetails.audioTokens

def TextQuotaSummary.withTokens (s : TextQuotaSummary) (promptTokens completionTokens : Int) : TextQuotaSummary :=
  { s with promptTokens, completionTokens, totalTokens := promptTokens + completionTokens }

variable {ps : PriceSetting} {info : TextInfo} {pd : PriceData} {u v : Usage ℚ} {textOnly : Bool}
  {s : TextQuotaSummary} {p c : Int}

/-! ## Tool calls -/

def ToolSurchargeItem.Positive (item : ToolSurchargeItem) : Prop := 0 < item.count ∧ 0 < item.price

theorem collectToolSurchargeItem_positive {items : List ToolSurchargeItem}
    (h : ∀ item ∈ items, item.Positive) (name : String)
    (count : Int) (modelName : String) :
    ∀ item ∈ collectToolSurchargeItem ps items name count modelName, item.Positive := by
  unfold collectToolSurchargeItem
  simp only
  split_ifs with hcount hprice
  · exact h
  · exact h
  · intro item hitem
    rcases mem_append.mp hitem with hitem | hitem
    · exact h item hitem
    · obtain rfl := mem_singleton.mp hitem
      exact ⟨not_le.mp hcount, not_le.mp hprice⟩

theorem mergeToolSurchargeItem_positive {merged : List ToolSurchargeItem} {item : ToolSurchargeItem}
    (h : ∀ i ∈ merged, i.Positive) (hitem : item.Positive) : ∀ i ∈ mergeToolSurchargeItem merged item, i.Positive := by
  have happend : ∀ i ∈ merged ++ [item], i.Positive := by
    intro i hi
    rcases mem_append.mp hi with hi | hi
    · exact h i hi
    · exact mem_singleton.mp hi ▸ hitem
  unfold mergeToolSurchargeItem
  split
  · exact happend
  · rename_i last hlast
    by_cases hsame : last.name = item.name ∧ last.price = item.price
    · rw [if_pos hsame]
      intro i hi
      rcases mem_append.mp hi with hi | hi
      · exact h i (mem_of_mem_dropLast hi)
      · obtain rfl := mem_singleton.mp hi
        obtain ⟨_, hprice⟩ := h last (mem_of_getLast? hlast)
        refine ⟨?_, hprice⟩
        have hmax : 0 < maxInt := by decide
        have hcount' := hitem.1
        dsimp only
        split_ifs <;> omega
    · rw [if_neg hsame]
      exact happend

theorem textToolSurchargeItems_positive (ps : PriceSetting) (info : TextInfo) :
    ∀ item ∈ textToolSurchargeItems ps info, item.Positive := by
  have hcollect (tools : List (String × Int)) (items : List ToolSurchargeItem) (h : ∀ item ∈ items, item.Positive) :
      ∀ item ∈ tools.foldl (fun items tool => collectToolSurchargeItem ps items tool.1 tool.2
        info.getBillingModelName) items,
        item.Positive := by
    induction tools generalizing items with
    | nil => exact h
    | cons _ _ ih => exact ih _ (collectToolSurchargeItem_positive h _ _ _)
  have hmerge (items merged : List ToolSurchargeItem) (h : ∀ item ∈ items, item.Positive)
    (hmerged : ∀ item ∈ merged, item.Positive) :
      ∀ item ∈ items.foldl mergeToolSurchargeItem merged, item.Positive := by
    induction items generalizing merged with
    | nil => exact hmerged
    | cons item _ ih =>
      apply ih
      · intro i hi
        exact h i (mem_cons_of_mem _ hi)
      · exact mergeToolSurchargeItem_positive hmerged (h item mem_cons_self)
  unfold textToolSurchargeItems mergeToolSurchargeItems
  apply hmerge
  · intro item hitem
    rw [mem_insertionSort] at hitem
    revert item
    have hbuilt := hcollect info.builtInTools [] (fun _ h => absurd h not_mem_nil)
    split_ifs
    all_goals
      repeat apply collectToolSurchargeItem_positive
      exact hbuilt
  · exact fun _ h => absurd h not_mem_nil

theorem calculateTextToolCallSurcharge_nonneg (hunit : 0 ≤ ps.quotaPerUnit) (hgroup : 0 ≤ info.priceData.groupRatio) :
    0 ≤ calculateTextToolCallSurcharge ps info := by
  apply sum_nonneg
  intro cost hcost
  obtain ⟨item, hitem, rfl⟩ := mem_map.mp hcost
  obtain ⟨hcount, hprice⟩ := textToolSurchargeItems_positive ps info item hitem
  have hcount' : (0 : ℚ) ≤ item.count := by exact_mod_cast hcount.le
  exact mul_nonneg (mul_nonneg (div_nonneg (mul_nonneg hprice.le hcount') (by norm_num)) hgroup) hunit

/-! ## The charge -/

theorem quotaFromDecimal_mono {x y : ℚ} (h : x ≤ y) : quotaFromDecimal x ≤ quotaFromDecimal y :=
  Decimal.saturate_mono (by decide) (Decimal.roundAway_mono h)

/-- What is taken out of the prompt, whatever the prompt is. -/
def asideTokens (ps : PriceSetting) (textOnly : Bool) (s : TextQuotaSummary) : Int :=
  (if s.cacheTokens ≠ 0 ∧ !textOnly then s.cacheTokens else 0) +
    (if (s.cacheCreationTokens ≠ 0 ∨ s.hasSplitCacheCreationTokens) ∧ !textOnly then s.cacheCreationTokens else 0) +
    (if s.imageTokens ≠ 0 then s.imageTokens else 0) +
    if s.audioTokens ≠ 0 ∧ 0 < audioInputPrice ps s then s.audioTokens else 0

theorem baseTokens_eq (ps : PriceSetting) (textOnly : Bool) (s : TextQuotaSummary) :
    baseTokens ps textOnly s = max 0 (s.promptTokens - asideTokens ps textOnly s) := by
  have hcut (P : Prop) [Decidable P] (a b : Int) : (if P then a - b else a) = a - if P then b else 0 := by
    split_ifs <;> omega
  have hmax (a : Int) : (if a < 0 then 0 else a) = max 0 a := by omega
  simp only [baseTokens, hcut, hmax]
  rw [asideTokens, ← sub_sub, ← sub_sub, ← sub_sub]

theorem baseTokens_withTokens (h : s.promptTokens ≤ p) :
    baseTokens ps textOnly s ≤ baseTokens ps textOnly (s.withTokens p c) := by
  rw [baseTokens_eq, baseTokens_eq]
  apply max_le_max_left
  show s.promptTokens - asideTokens ps textOnly s ≤ p - asideTokens ps textOnly s
  omega

/-- Before the charge of one. -/
def computedDecimal (ps : PriceSetting) (pd : PriceData) (textOnly : Bool) (s : TextQuotaSummary) : ℚ :=
  if pd.usePrice then perCallDecimal ps pd s else meteredDecimal ps pd textOnly s

section Order

variable (hpd : pd.NonNegative)

include hpd

theorem ratio_nonneg : 0 ≤ pd.ratio := mul_nonneg hpd.modelRatio hpd.groupRatio

theorem meteredDecimal_withTokens (hp : s.promptTokens ≤ p) (hc : s.completionTokens ≤ c) :
    meteredDecimal ps pd textOnly s ≤ meteredDecimal ps pd textOnly (s.withTokens p c) := by
  have hbase : (baseTokens ps textOnly s : ℚ) ≤ baseTokens ps textOnly (s.withTokens p c) := by
    exact_mod_cast baseTokens_withTokens hp
  have hcompletion : s.completionTokens * pd.completionRatio ≤ c * pd.completionRatio :=
    mul_le_mul_of_nonneg_right (by exact_mod_cast hc) hpd.completionRatio
  unfold meteredDecimal
  simp only [pd.applyOtherRatiosToDecimal_eq]
  apply add_le_add_left
  apply mul_le_mul_of_nonneg_right _ pd.otherRatioMultiplier_pos.le
  apply add_le_add_left
  apply mul_le_mul_of_nonneg_right _ (ratio_nonneg hpd)
  apply add_le_add _ hcompletion
  exact add_le_add_left (add_le_add_left (add_le_add_left hbase _) _) _

theorem computedDecimal_withTokens (hp : s.promptTokens ≤ p) (hc : s.completionTokens ≤ c) :
    computedDecimal ps pd textOnly s ≤ computedDecimal ps pd textOnly (s.withTokens p c) := by
  unfold computedDecimal
  split_ifs
  · exact le_rfl
  · exact meteredDecimal_withTokens hpd hp hc

variable (hunit : 0 ≤ ps.quotaPerUnit) (hsurcharge : 0 ≤ s.toolCallSurchargeQuota)

include hunit hsurcharge

theorem perCallDecimal_nonneg (husePrice : pd.usePrice = true) : 0 ≤ perCallDecimal ps pd s := by
  unfold perCallDecimal
  rw [pd.applyOtherRatiosToDecimal_eq]
  exact add_nonneg (mul_nonneg (mul_nonneg (mul_nonneg (hpd.modelPrice husePrice) hunit) hpd.groupRatio)
    pd.otherRatioMultiplier_pos.le) hsurcharge

theorem meteredDecimal_nonneg (haudio : 0 ≤ s.audioTokens) (hratio : pd.ratio = 0) :
    0 ≤ meteredDecimal ps pd textOnly s := by
  have hinput : 0 ≤ audioInputQuota ps pd s := by
    unfold audioInputQuota
    split_ifs with hprice
    · have haudio' : (0 : ℚ) ≤ s.audioTokens := by exact_mod_cast haudio
      exact mul_nonneg (mul_nonneg (mul_nonneg (div_nonneg hprice.2.le (by norm_num)) haudio') hpd.groupRatio) hunit
    · exact le_rfl
  unfold meteredDecimal
  simp only [pd.applyOtherRatiosToDecimal_eq, hratio, mul_zero, zero_add]
  exact add_nonneg (mul_nonneg hinput pd.otherRatioMultiplier_pos.le) hsurcharge

theorem computedDecimal_nonneg (haudio : 0 ≤ s.audioTokens) (hratio : pd.ratio = 0) :
    0 ≤ computedDecimal ps pd textOnly s := by
  unfold computedDecimal
  split_ifs with husePrice
  · exact perCallDecimal_nonneg hpd hunit hsurcharge husePrice
  · exact meteredDecimal_nonneg hpd hunit hsurcharge haudio hratio

/-- What is rounded is the computed amount, which is not negative where a ratio applies, or `1` in place of nothing. -/
theorem chargedDecimal_cases : (chargedDecimal ps pd textOnly s = computedDecimal ps pd textOnly s ∧
        (pd.ratio ≠ 0 → 0 ≤ computedDecimal ps pd textOnly s)) ∨
      (pd.ratio ≠ 0 ∧ chargedDecimal ps pd textOnly s = 1 ∧ computedDecimal ps pd textOnly s ≤ 0) := by
  unfold chargedDecimal computedDecimal
  by_cases husePrice : pd.usePrice = true
  · rw [if_pos husePrice, if_pos husePrice]
    exact .inl ⟨rfl, fun _ => perCallDecimal_nonneg hpd hunit hsurcharge husePrice⟩
  · rw [if_neg husePrice, if_neg husePrice]
    dsimp only
    split_ifs with hlow
    · exact .inr ⟨hlow.1, rfl, hlow.2⟩
    · exact .inl ⟨rfl, fun hratio => (not_le.mp fun hle => hlow ⟨hratio, hle⟩).le⟩

/-- Both rules for the smallest charge say one thing: where a ratio applies, at least one is charged. -/
theorem textQuota_of_billable (h : s.hasBillableUsage) : textQuota ps pd textOnly s =
      if pd.ratio ≠ 0 then max 1 (quotaFromDecimal (computedDecimal ps pd textOnly s))
      else quotaFromDecimal (computedDecimal ps pd textOnly s) := by
  have hone : quotaFromDecimal 1 = 1 := by decide +kernel
  have hzero : quotaFromDecimal 0 = 0 := by decide +kernel
  unfold textQuota
  simp only
  rw [if_neg (not_not.mpr h)]
  rcases chargedDecimal_cases hpd hunit hsurcharge with ⟨hcharged, hnonneg⟩ | ⟨hratio, hcharged, hlow⟩
  · rw [hcharged]
    by_cases hratio : pd.ratio = 0
    · simp [hratio]
    · have hquota := quotaFromDecimal_nonneg (hnonneg hratio)
      rw [if_pos hratio]
      by_cases hfree : quotaFromDecimal (computedDecimal ps pd textOnly s) = 0
      · rw [if_pos ⟨hratio, hfree⟩, hfree]
        rfl
      · rw [if_neg fun h => hfree h.2]
        omega
  · have hquota : quotaFromDecimal (computedDecimal ps pd textOnly s) ≤ 0 := hzero ▸ quotaFromDecimal_mono hlow
    rw [hcharged, hone, if_neg (by simp), if_pos hratio]
    omega

theorem textQuota_nonneg (haudio : 0 ≤ s.audioTokens) : 0 ≤ textQuota ps pd textOnly s := by
  by_cases h : s.hasBillableUsage
  · rw [textQuota_of_billable hpd hunit hsurcharge h]
    split_ifs with hratio
    · omega
    · exact quotaFromDecimal_nonneg (computedDecimal_nonneg hpd hunit hsurcharge haudio (not_not.mp hratio))
  · rw [textQuota_of_unbillable h]

theorem textQuota_withTokens (haudio : 0 ≤ s.audioTokens) (htotal : s.totalTokens = s.promptTokens + s.completionTokens)
    (hp : s.promptTokens ≤ p) (hc : s.completionTokens ≤ c) :
    textQuota ps pd textOnly s ≤ textQuota ps pd textOnly (s.withTokens p c) := by
  by_cases h : s.hasBillableUsage
  · have hgrown : (s.withTokens p c).hasBillableUsage := by
      rcases h with h | h
      · exact .inl (by show 0 < p + c; omega)
      · exact .inr h
    have hle : quotaFromDecimal (computedDecimal ps pd textOnly s) ≤
        quotaFromDecimal (computedDecimal ps pd textOnly (s.withTokens p c)) :=
      quotaFromDecimal_mono (computedDecimal_withTokens hpd hp hc)
    rw [textQuota_of_billable hpd hunit hsurcharge h,
      textQuota_of_billable (s := s.withTokens p c) hpd hunit hsurcharge hgrown]
    split_ifs
    · exact max_le_max_left 1 hle
    · exact hle
  · rw [textQuota_of_unbillable h]
    exact textQuota_nonneg hpd hunit hsurcharge haudio

end Order

/-! ## The summary -/

theorem usageSemanticFromUsage_of_grown (h : Grown u v) :
    usageSemanticFromUsage info (some v) = usageSemanticFromUsage info (some u) := by
  simp [usageSemanticFromUsage, h.semantic]

theorem isLegacyClaudeDerivedOpenAIUsage_of_grown (h : Grown u v) :
    isLegacyClaudeDerivedOpenAIUsage info v = isLegacyClaudeDerivedOpenAIUsage info u := by
  simp [isLegacyClaudeDerivedOpenAIUsage, h.semantic, h.source, h.split5m, h.split1h]

theorem countText_of_grown (h : Grown u v) :
    countText ps info (some v) = (countText ps info (some u)).withTokens v.promptTokens v.completionTokens := by
  simp [countText, TextQuotaSummary.withTokens, usageOrEstimate, usageSemanticFromUsage_of_grown h, h.cached,
      h.cacheCreation, h.split5m, h.split1h, h.image, h.audio]

/-- No charge is negative, the larger request never costs less, and a billable usage is free only without a ratio. -/
theorem quota_monotone (ps : PriceSetting) (info : TextInfo) (u v : Usage ℚ) (h : Grown u v)
    (hpd : info.priceData.NonNegative)
    (hunit : 0 ≤ ps.quotaPerUnit) (haudio : 0 ≤ u.promptTokensDetails.audioTokens)
    (hchannel : info.channelType ≠ some channelTypeOpenRouter) :
    0 ≤ (calculateTextQuotaSummary ps info (some u)).quota ∧
      (calculateTextQuotaSummary ps info (some u)).quota ≤ (calculateTextQuotaSummary ps info (some v)).quota ∧
      ((calculateTextQuotaSummary ps info (some u)).hasBillableUsage →
        (calculateTextQuotaSummary ps info (some u)).quota = 0 →
        info.priceData.modelRatio * info.priceData.groupRatio = 0) := by
  have hsurcharge : 0 ≤ (countText ps info (some u)).toolCallSurchargeQuota :=
    calculateTextToolCallSurcharge_nonneg hunit hpd.groupRatio
  rw [calculateTextQuotaSummary_quota hchannel, calculateTextQuotaSummary_quota hchannel, countText_of_grown h]
  refine ⟨textQuota_nonneg hpd hunit hsurcharge haudio, ?_, ?_⟩
  · show _ ≤ textQuota ps info.priceData (_ || isLegacyClaudeDerivedOpenAIUsage info v) _
    rw [isLegacyClaudeDerivedOpenAIUsage_of_grown h]
    exact textQuota_withTokens hpd hunit hsurcharge haudio rfl h.prompt h.completion
  · intro hbillable hfree
    by_contra hratio
    exact textQuota_ne_zero (hasBillableUsage_calculateTextQuotaSummary.mp hbillable) hratio hfree

def monotonePrices : TextInfo where
  relayModeResponses := true
  priceData := { modelRatio := 1, completionRatio := 4, cacheRatio := 1 / 2 }

def cachedPrompt (promptTokens completionTokens : Int) : Usage ℚ where
  promptTokens
  completionTokens
  promptTokensDetails := { cachedTokens := 10 }

/-- Ten cached tokens exceed the smaller prompt. -/
theorem quota_monotone_cached : 0 ≤ (calculateTextQuotaSummary {} monotonePrices (some (cachedPrompt 4 0))).quota ∧
      (calculateTextQuotaSummary {} monotonePrices (some (cachedPrompt 4 0))).quota ≤
        (calculateTextQuotaSummary {} monotonePrices (some (cachedPrompt 20 3))).quota ∧
      ((calculateTextQuotaSummary {} monotonePrices (some (cachedPrompt 4 0))).hasBillableUsage →
        (calculateTextQuotaSummary {} monotonePrices (some (cachedPrompt 4 0))).quota = 0 →
          monotonePrices.priceData.modelRatio * monotonePrices.priceData.groupRatio = 0) :=
  quota_monotone {} monotonePrices (cachedPrompt 4 0) (cachedPrompt 20 3)
    ⟨by decide, by decide, rfl, rfl, rfl, rfl, rfl, rfl, rfl, rfl⟩
    ⟨by decide +kernel, by decide +kernel, by decide +kernel, nofun⟩ (by decide +kernel) (by decide) nofun

end CubeRouter.Pricing
