import CubeRouter.Pricing.Monotone
import CubeRouter.Pricing.UsageSemantics

/-!
# The estimate before a request

`ModelPriceHelper` of `relay/helper/price.go` for a model that is priced by ratios: what is held before the request is
sent. The estimate takes every input token at the full price and all completion tokens that the request allows. It is
truncated, and the charge is rounded and at least one, so the charge may exceed it by one.
-/

namespace CubeRouter.Pricing

open Billing (quotaFromDecimal minQuota maxQuota)
open Streams.Snapshots (Usage)

inductive PriceError
  | modelPriceNotConfigured (matchName : String)
  | quotaClamp (original : ℚ)

/-- `int(value)`. -/
def truncate (value : ℚ) : Int := if value < 0 then ⌈value⌉ else ⌊value⌋

def quotaFromFloatStrict (value : ℚ) : Except PriceError Int :=
  if maxQuota < value ∨ value < minQuota then .error (.quotaClamp value) else .ok (truncate value)

/-- `GetModelRatio` gives the ratio, whether there is one, and the name it was looked up under. -/
structure RatioTable where
  getModelRatio : String → ℚ × Bool × String
  getCompletionRatio : String → ℚ
  getCacheRatio : String → ℚ
  getCreateCacheRatio : String → ℚ
  getImageRatio : String → ℚ
  preConsumedQuota : Int := 500
  enableFreeModelPreConsume : Bool := true

def defaultPreConsumeMaxTokens : Int := 8192

def claudeCacheCreation1hMultiplier : ℚ := 6 / 3.75

/-- The price with what is to be held for it. -/
structure PricedRequest extends PriceData where
  freeModel : Bool
  quotaToPreConsume : Int

/-- The branch of a model without a price by call, a price table and a billing expression. -/
def modelPriceHelper (rt : RatioTable) (acceptUnsetRatioModel : Bool) (billingModelName : String) (groupRatio : ℚ)
    (promptTokens maxTokens : Int) : Except PriceError PricedRequest :=
  let promptTokensFloor := max promptTokens rt.preConsumedQuota
  let (modelRatio, success, matchName) := rt.getModelRatio billingModelName
  if ¬success ∧ ¬acceptUnsetRatioModel then .error (.modelPriceNotConfigured matchName)
  else
    let completionRatio := rt.getCompletionRatio billingModelName
    let cacheCreationRatio := rt.getCreateCacheRatio billingModelName
    let completionTokens := if maxTokens = 0 then defaultPreConsumeMaxTokens else maxTokens
    let ratio := modelRatio * groupRatio
    match quotaFromFloatStrict ((promptTokensFloor + completionTokens * completionRatio) * ratio) with
    | .error e => .error e
    | .ok quota =>
      let freeModel := !rt.enableFreeModelPreConsume && (groupRatio = 0 || modelRatio = 0)
      .ok
        -- what `GetModelPrice` gives for a model that has none
        { modelPrice := -1
          modelRatio
          completionRatio
          cacheRatio := rt.getCacheRatio billingModelName
          cacheCreationRatio
          cacheCreation5mRatio := cacheCreationRatio
          cacheCreation1hRatio := cacheCreationRatio * claudeCacheCreation1hMultiplier
          imageRatio := rt.getImageRatio billingModelName
          groupRatio
          freeModel
          quotaToPreConsume := if freeModel then 0 else quota }

variable {rt : RatioTable} {priced : PricedRequest} {y : ℚ}

theorem modelPriceHelper_ok {accept : Bool} {name : String} {groupRatio : ℚ} {promptTokens maxTokens : Int}
    (h : modelPriceHelper rt accept name groupRatio promptTokens maxTokens = .ok priced) :
    priced.usePrice = false ∧ priced.otherRatios = [] ∧ (priced.freeModel = true → priced.ratio = 0) ∧
      ∃ quota, quotaFromFloatStrict (((max promptTokens rt.preConsumedQuota : Int) +
          ((if maxTokens = 0 then defaultPreConsumeMaxTokens else maxTokens : Int) : ℚ) * priced.completionRatio) *
          priced.ratio) =
        .ok quota ∧ priced.quotaToPreConsume = if priced.freeModel then 0 else quota := by
  simp only [modelPriceHelper] at h
  by_cases hunset : ¬(rt.getModelRatio name).2.1 ∧ ¬accept
  · rw [if_pos hunset] at h
    cases h
  rw [if_neg hunset] at h
  split at h
  · cases h
  · rename_i quota hquota
    cases h
    refine ⟨rfl, rfl, fun hfree => ?_, quota, hquota, rfl⟩
    simp only [Bool.and_eq_true, Bool.or_eq_true, decide_eq_true_eq] at hfree
    exact mul_eq_zero.mpr hfree.2.symm

theorem quotaFromFloatStrict_ok {quota : Int} (hy : 0 ≤ y) (h : quotaFromFloatStrict y = .ok quota) : quota = ⌊y⌋ := by
  unfold quotaFromFloatStrict at h
  split_ifs at h
  cases h
  exact if_neg (not_lt.mpr hy)

variable {ps : PriceSetting} {pd : PriceData} {textOnly : Bool} {s : TextQuotaSummary}

theorem textQuota_le (husePrice : pd.usePrice = false) (hy : 0 ≤ y) (hmetered : meteredDecimal ps pd textOnly s ≤ y) :
    textQuota ps pd textOnly s ≤ ⌊y⌋ + 1 := by
  have hfloor : 0 ≤ ⌊y⌋ := Int.floor_nonneg.mpr hy
  have hround : quotaFromDecimal y ≤ ⌊y⌋ + 1 := by
    have haway : Decimal.roundAway y ≤ ⌊y⌋ + 1 := by
      rw [Decimal.roundAway, if_neg (not_lt.mpr hy), ← Int.floor_add_one]
      exact Int.floor_mono (by linarith)
    have hmin : minQuota ≤ 0 := by decide
    unfold quotaFromDecimal Decimal.saturate
    split_ifs <;> omega
  have hcharged : quotaFromDecimal (chargedDecimal ps pd textOnly s) ≤ ⌊y⌋ + 1 := by
    have hone : quotaFromDecimal 1 = 1 := by decide +kernel
    simp only [chargedDecimal, husePrice, Bool.false_eq_true, ↓reduceIte]
    split_ifs
    · omega
    · exact (quotaFromDecimal_mono hmetered).trans hround
  unfold textQuota
  dsimp only
  split_ifs <;> omega

variable {info : TextInfo} {u : Usage ℚ} {p r c : Nat}

/-- The input of a text usage; the Claude convention does not count cached tokens to the prompt. -/
def inputTokens (claude : Bool) (p r : Nat) : Nat := if claude then p + r else max p r

theorem meteredDecimal_le {floor completion : ℚ} {claude : Bool} (hpd : pd.NonNegative) (hother : pd.otherRatios = [])
    (hcache : pd.cacheRatio ≤ 1) (hfloor : (inputTokens claude p r : ℚ) ≤ floor) (hcompletion : (c : ℚ) ≤ completion) :
    meteredDecimal ps pd claude (textSummary info claude 0 p r 0 c) ≤
      (floor + completion * pd.completionRatio) * pd.ratio := by
  generalize hs : textSummary info claude 0 p r 0 c = s
  have hbase : (baseTokens ps claude s : ℚ) + r ≤ inputTokens claude p r := by
    have hint : baseTokens ps claude s + r ≤ inputTokens claude p r := by
      subst hs
      cases claude <;> simp only [baseTokens, textSummary, inputTokens] <;> simp <;> split_ifs <;> omega
    exact_mod_cast hint
  have hread : cachedTokensWithRatio pd s ≤ r := by
    have hcached : s.cacheTokens = r := hs ▸ rfl
    have hr : (0 : ℚ) ≤ r := Nat.cast_nonneg r
    unfold cachedTokensWithRatio
    rw [hcached]
    split_ifs
    · exact_mod_cast mul_le_of_le_one_right hr hcache
    · exact hr
  have hweighted := mul_le_mul_of_nonneg_right hcompletion hpd.completionRatio
  have hsum : baseTokens ps claude s + cachedTokensWithRatio pd s + c * pd.completionRatio ≤
      floor + completion * pd.completionRatio := by linarith
  have hexact :
    meteredDecimal ps pd claude s = (baseTokens ps claude s + cachedTokensWithRatio pd s + c * pd.completionRatio) *
      pd.ratio := by
    subst hs
    unfold meteredDecimal
    rw [cachedCreationTokensWithRatio_textSummary]
    simp [PriceData.applyOtherRatiosToDecimal, hother, imageTokensWithRatio, audioInputQuota, textSummary]
  rw [hexact]
  exact mul_le_mul_of_nonneg_right hsum (ratio_nonneg hpd)

/-- **The hold covers the charge**: a text usage within the estimate of the prompt and the completion tokens that the
request allows is charged at most one more than was to be held for it. -/
theorem estimate_covers_charge (rt : RatioTable) (ps : PriceSetting) (info : TextInfo)
    (acceptUnsetRatioModel : Bool) (groupRatio : ℚ)
    (promptTokens : Int) (maxTokens : Nat) (priced : PricedRequest) (u : Usage ℚ) (p r c : Nat)
    (hpriced : modelPriceHelper rt acceptUnsetRatioModel info.getBillingModelName groupRatio
      promptTokens maxTokens = .ok priced)
    (hprice : info.priceData = priced.toPriceData) (hratios : info.priceData.NonNegative)
    (hcache : info.priceData.cacheRatio ≤ 1)
    (hchannel : info.channelType ≠ some channelTypeOpenRouter) (htool : calculateTextToolCallSurcharge ps info = 0)
    (hu : TextUsage u p r 0 c)
    (hinput : inputTokens (usageSemanticFromUsage info (some u) = "anthropic") p r ≤ promptTokens)
    (hcompletion : (c : Int) ≤ if maxTokens = 0 then defaultPreConsumeMaxTokens else maxTokens) :
    (calculateTextQuotaSummary ps info (some u)).quota ≤ priced.quotaToPreConsume + 1 := by
  obtain ⟨husePrice, hother, hfree, _, hquota, hhold⟩ := modelPriceHelper_ok hpriced
  rw [hprice] at hratios hcache
  rw [quota_of_textUsage info hu hchannel htool, hprice]
  generalize decide (usageSemanticFromUsage info (some u) = "anthropic") = claude at *
  simp only [Nat.cast_eq_zero] at hquota
  generalize (if maxTokens = 0 then defaultPreConsumeMaxTokens else maxTokens) = completionTokens at hquota hcompletion
  have hfloor : (inputTokens claude p r : ℚ) ≤ (max promptTokens rt.preConsumedQuota : Int) := by
    exact_mod_cast hinput.trans (le_max_left _ _)
  have hallowed : (c : ℚ) ≤ completionTokens := by exact_mod_cast hcompletion
  have hweighted := mul_nonneg ((Nat.cast_nonneg c).trans hallowed) hratios.completionRatio
  have hestimate := mul_nonneg (add_nonneg ((Nat.cast_nonneg _).trans hfloor) hweighted) (ratio_nonneg hratios)
  have hmetered : meteredDecimal ps priced.toPriceData claude (textSummary info claude 0 p r 0 c) ≤ _ :=
    meteredDecimal_le hratios hother hcache hfloor hallowed
  have hcharge := textQuota_le husePrice hestimate hmetered
  rw [hhold]
  cases hmodel : priced.freeModel with
  | false => rwa [if_neg Bool.false_ne_true, quotaFromFloatStrict_ok hestimate hquota]
  | true =>
    rw [textQuota_of_free _ husePrice (hfree hmodel), if_pos rfl]
    exact zero_le_one

def plainRatios : RatioTable where
  getModelRatio _ := (1 / 2, true, "")
  getCompletionRatio _ := 4
  getCacheRatio _ := 1 / 10
  getCreateCacheRatio _ := 5 / 4
  getImageRatio _ := 1

def estimate : Except PriceError PricedRequest := modelPriceHelper plainRatios false "" 1 1000 0

def estimated : PricedRequest := (estimate.toOption).getD { freeModel := false, quotaToPreConsume := 0 }

theorem ok_estimated : estimate = .ok estimated := by
  have hok : estimate.isOk = true := by decide +kernel
  unfold estimated
  cases h : estimate with
  | ok => rfl
  | error => rw [h] at hok; cases hok

def estimatedInfo : TextInfo := { priceData := estimated.toPriceData }

def cachedChat : Usage ℚ where
  promptTokens := 999
  completionTokens := 8000
  promptTokensDetails := { cachedTokens := 100 }

theorem estimate_covers_charge_cachedChat :
    (calculateTextQuotaSummary {} estimatedInfo (some cachedChat)).quota ≤ estimated.quotaToPreConsume + 1 :=
  estimate_covers_charge plainRatios {} estimatedInfo false 1 1000 0 estimated cachedChat 999 100 8000 ok_estimated rfl
    ⟨by decide +kernel, by decide +kernel, by decide +kernel, fun husePrice => absurd husePrice (by decide +kernel)⟩
      (by decide +kernel) (fun h => by cases h)
    (by decide +kernel) ⟨rfl, rfl, by decide, rfl, rfl, rfl, rfl, rfl⟩ (by decide) (by decide)

end CubeRouter.Pricing
