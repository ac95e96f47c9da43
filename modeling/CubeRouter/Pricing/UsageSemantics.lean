import CubeRouter.Pricing.TextQuota

/-!
# The two conventions of usage

A request that used `t` tokens of plain text, read `r` from the cache and wrote `w` to it, and got `c` tokens back,
reports the prompt as `t + r + w` in the OpenAI convention and as `t` in the Claude one. Both should cost the same.
What is compared is the whole charge, for any price by token.

The test for a billable usage adds up the prompt and the completion as they were reported: in the Claude convention a
request whose whole input went through the cache and whose completion is empty counts as unused.
-/

namespace CubeRouter.Pricing

open Billing (quotaFromDecimal)
open Streams.Snapshots (Usage)

def TextInfo.withFormat (info : TextInfo) (format : RelayFormat) : TextInfo :=
  { info with finalRequestRelayFormat := some format }

/-- Text only: the tokens of the prompt as reported, cached, written to the cache without a split, and of the
completion. -/
structure TextUsage (u : Usage ℚ) (promptTokens cachedTokens cacheCreationTokens completionTokens : Nat) : Prop where
  prompt : u.promptTokens = promptTokens
  cached : u.promptTokensDetails.cachedTokens = cachedTokens
  cacheCreation : cacheCreationTokensTotal u.promptTokensDetails = cacheCreationTokens
  completion : u.completionTokens = completionTokens
  no5m : u.claudeCacheCreation5mTokens = 0
  no1h : u.claudeCacheCreation1hTokens = 0
  noImage : u.promptTokensDetails.imageTokens = 0
  noAudio : u.promptTokensDetails.audioTokens = 0

variable {ps : PriceSetting} {info : TextInfo} {u : Usage ℚ} {p r w c t : Nat}

/-- The summary of a text usage, but for its quota. -/
def textSummary (info : TextInfo) (claude : Bool) (surcharge : ℚ) (p r w c : Nat) : TextQuotaSummary where
  promptTokens := p
  completionTokens := c
  totalTokens := p + c
  cacheTokens := r
  cacheCreationTokens := w
  modelName := info.getBillingModelName
  isClaudeUsageSemantic := claude
  toolCallSurchargeQuota := surcharge

theorem countText_of_textUsage (h : TextUsage u p r w c) : countText ps info (some u) =
      textSummary info (usageSemanticFromUsage info (some u) = "anthropic")
      (calculateTextToolCallSurcharge ps info) p r w c := by
  simp [countText, textSummary, usageOrEstimate, h.prompt, h.cached, h.cacheCreation, h.completion, h.no5m,
      h.no1h, h.noImage, h.noAudio]

theorem isLegacyClaudeDerivedOpenAIUsage_of_textUsage (h : TextUsage u p r w c) :
    isLegacyClaudeDerivedOpenAIUsage info u = false := by
  simp [isLegacyClaudeDerivedOpenAIUsage, h.no5m, h.no1h]

theorem quota_of_textUsage (info : TextInfo) (h : TextUsage u p r w c)
    (hchannel : info.channelType ≠ some channelTypeOpenRouter)
    (htool : calculateTextToolCallSurcharge ps info = 0) : (calculateTextQuotaSummary ps info (some u)).quota =
      textQuota ps info.priceData (usageSemanticFromUsage info (some u) = "anthropic")
        (textSummary info (usageSemanticFromUsage info (some u) = "anthropic") 0 p r w c) := by
  rw [calculateTextQuotaSummary_quota hchannel]
  simp only [usageOrEstimate, Option.getD_some]
  rw [isLegacyClaudeDerivedOpenAIUsage_of_textUsage h, countText_of_textUsage h, htool, Bool.or_false]
  rfl

theorem baseTokens_openai : baseTokens ps false (textSummary info false 0 (t + r + w) r w c) = t := by
  simp only [baseTokens, textSummary, ne_eq, not_true_eq_false, false_and, ↓reduceIte, Int.natCast_eq_zero,
    TextQuotaSummary.hasSplitCacheCreationTokens, lt_self_iff_false, or_self, or_false,
    Bool.not_false, and_true, ite_not]
  split_ifs <;> omega

theorem baseTokens_claude : baseTokens ps true (textSummary info true 0 t r w c) = t := by
  simp [baseTokens, textSummary]

theorem cachedCreationTokensWithRatio_textSummary (pd : PriceData) (claude : Bool) :
    cachedCreationTokensWithRatio pd claude (textSummary info claude 0 p r w c) = w * pd.cacheCreationRatio := by
  unfold cachedCreationTokensWithRatio
  by_cases hw : w = 0
  · simp [textSummary, TextQuotaSummary.hasSplitCacheCreationTokens, hw]
  · rw [if_pos (.inl (by simpa [textSummary] using hw))]
    cases claude <;> simp [textSummary]

theorem meteredDecimal_same (pd : PriceData) : meteredDecimal ps pd true (textSummary info true 0 t r w c) =
      meteredDecimal ps pd false (textSummary info false 0 (t + r + w) r w c) := by
  unfold meteredDecimal
  simp only [baseTokens_openai, baseTokens_claude, cachedCreationTokensWithRatio_textSummary]
  rfl

theorem chargedDecimal_same {pd : PriceData} (husePrice : pd.usePrice = false) :
    chargedDecimal ps pd true (textSummary info true 0 t r w c) =
      chargedDecimal ps pd false (textSummary info false 0 (t + r + w) r w c) := by
  simp [chargedDecimal, husePrice, meteredDecimal_same]

/-- The two charges differ in the test for a billable usage alone. -/
theorem textQuota_same (pd : PriceData) (husePrice : pd.usePrice = false) (h : 0 < t + c) :
    textQuota ps pd true (textSummary info true 0 t r w c) =
      textQuota ps pd false (textSummary info false 0 (t + r + w) r w c) := by
  have hclaude : (textSummary info true 0 t r w c).hasBillableUsage := .inl (by simp only [textSummary]; omega)
  have hopenai : (textSummary info false 0 (t + r + w) r w c).hasBillableUsage :=
    .inl (by simp only [textSummary]; omega)
  simp only [textQuota, chargedDecimal_same husePrice, hclaude, hopenai]

theorem textQuota_of_free (pd : PriceData) (husePrice : pd.usePrice = false) (hratio : pd.ratio = 0) (claude : Bool) :
    textQuota ps pd claude (textSummary info claude 0 p r w c) = 0 := by
  have hmetered : meteredDecimal ps pd claude (textSummary info claude 0 p r w c) = 0 := by
    unfold meteredDecimal
    simp only [pd.applyOtherRatiosToDecimal_eq, hratio, mul_zero, audioInputQuota, textSummary]
    simp
  have hcharged : chargedDecimal ps pd claude (textSummary info claude 0 p r w c) = 0 := by
    simp [chargedDecimal, husePrice, hmetered, hratio]
  have hquota : quotaFromDecimal 0 = 0 := by decide +kernel
  simp [textQuota, hcharged, hquota, hratio]

/-- The same request is charged alike in both conventions if and only if some of its tokens are plain text or
completion, or a ratio is `0`. -/
theorem same_quota_iff (ps : PriceSetting) (info : TextInfo) (f g : RelayFormat) (u v : Usage ℚ) (t r w c : Nat)
    (hu : TextUsage u (t + r + w) r w c) (hv : TextUsage v t r w c)
    (hopenai : usageSemanticFromUsage (info.withFormat f) (some u) ≠ "anthropic")
    (hclaude : usageSemanticFromUsage (info.withFormat g) (some v) = "anthropic") (hcount : 0 < t + r + w + c)
    (husePrice : info.priceData.usePrice = false) (htool : calculateTextToolCallSurcharge ps info = 0)
    (hchannel : info.channelType ≠ some channelTypeOpenRouter) :
    (calculateTextQuotaSummary ps (info.withFormat f) (some u)).quota =
        (calculateTextQuotaSummary ps (info.withFormat g) (some v)).quota ↔ 0 < t + c ∨ info.priceData.ratio = 0 := by
  rw [quota_of_textUsage (info.withFormat f) hu hchannel htool,
    quota_of_textUsage (info.withFormat g) hv hchannel htool,
     decide_eq_false hopenai, decide_eq_true hclaude]
  show textQuota ps info.priceData false (textSummary info false 0 (t + r + w) r w c) =
    textQuota ps info.priceData true (textSummary info true 0 t r w c) ↔ _
  by_cases hplain : 0 < t + c
  · exact iff_of_true (textQuota_same _ husePrice hplain).symm (.inl hplain)
  · by_cases hratio : info.priceData.ratio = 0
    · rw [textQuota_of_free _ husePrice hratio, textQuota_of_free _ husePrice hratio]
      exact iff_of_true rfl (.inr hratio)
    · have hunbillable : ¬ (textSummary info true 0 t r w c).hasBillableUsage := by
        rintro (htotal | htool)
        · simp only [textSummary] at htotal
          omega
        · exact htool rfl
      have hbillable : (textSummary info false 0 (t + r + w) r w c).hasBillableUsage :=
        .inl (by simp only [textSummary]; omega)
      rw [textQuota_of_unbillable hunbillable]
      exact iff_of_false (textQuota_ne_zero hbillable hratio) (by simp [hplain, hratio])

def cachedPrices : TextInfo where
  originModelName := "claude"
  relayModeResponses := true
  priceData := { modelRatio := 1, completionRatio := 5, cacheRatio := 1 / 10, cacheCreationRatio := 5 / 4 }

def cachedUsage (usageSemantic : String) (promptTokens completionTokens : Int) : Usage ℚ where
  promptTokens
  completionTokens
  usageSemantic
  promptTokensDetails := { cachedTokens := 1000 }

theorem cachedUsage_textUsage {usageSemantic : String} {p c : Nat} :
    TextUsage (cachedUsage usageSemantic p c) p 1000 0 c :=
  ⟨rfl, rfl, rfl, rfl, rfl, rfl, rfl, rfl⟩

/-- Ten tokens of text after a thousand that are read from the cache, and two tokens back. -/
theorem same_quota_of_text :
    (calculateTextQuotaSummary {} (cachedPrices.withFormat .openai) (some (cachedUsage "openai" 1010 2))).quota =
      (calculateTextQuotaSummary {} (cachedPrices.withFormat .claude) (some (cachedUsage "" 10 2))).quota :=
  (same_quota_iff {} cachedPrices .openai .claude (cachedUsage "openai" 1010 2) (cachedUsage "" 10 2) 10 1000 0 2
    cachedUsage_textUsage cachedUsage_textUsage (by decide) (by decide) (by decide) rfl
    (by decide +kernel) nofun).mpr (.inl (by decide))

/-- The whole prompt is read from the cache and nothing is written back. -/
theorem cached_prompt_free_for_claude :
    (calculateTextQuotaSummary {} (cachedPrices.withFormat .openai) (some (cachedUsage "openai" 1000 0))).quota = 100 ∧
      (calculateTextQuotaSummary {} (cachedPrices.withFormat .claude)
      (some (cachedUsage "anthropic" 0 0))).quota = 0 := by
  decide +kernel

end CubeRouter.Pricing
