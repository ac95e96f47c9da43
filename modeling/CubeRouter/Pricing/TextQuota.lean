import CubeRouter.Billing.Realtime
import CubeRouter.Streams.Snapshots

/-!
# The quota of a text request

`calculateTextQuotaSummary` of `service/text_quota.go`. Prices and ratios are decimals, token counts are integers. A
ratio of the settings is what it is when the request is settled (`PriceSetting`).

Two conventions of usage meet here: with the OpenAI one `promptTokens` counts the whole input, with the Claude one
only the plain text. What was cut by the quota bounds is noted for the administrator and plays no part in the charge.
-/

namespace CubeRouter.Pricing

open Billing (quotaFromDecimal minQuota maxQuota)
open Streams.Snapshots (Usage InputTokenDetails)

/-! ## Prices -/

structure PriceData where
  modelPrice : ℚ := -1
  modelRatio : ℚ := 0
  completionRatio : ℚ := 0
  cacheRatio : ℚ := 0
  cacheCreationRatio : ℚ := 0
  cacheCreation5mRatio : ℚ := 0
  cacheCreation1hRatio : ℚ := 0
  imageRatio : ℚ := 0
  otherRatios : List (String × ℚ) := []
  usePrice : Bool := false
  groupRatio : ℚ := 1

/-- `GetToolPriceForModel` takes the tool and the model. -/
structure PriceSetting where
  quotaPerUnit : ℚ := 500000
  getToolPriceForModel : String → String → ℚ := fun _ _ => 0
  getGeminiInputAudioPricePerMillionTokens : String → ℚ := fun _ => 0
  getDefaultModelRatio : String → Option ℚ := fun _ => none

def isValidOtherRatio (ratio : ℚ) : Bool := 0 < ratio

def PriceData.applyOtherRatiosToDecimal (pd : PriceData) (value : ℚ) : ℚ :=
  pd.otherRatios.foldl (fun value r => if isValidOtherRatio r.2 ∧ r.2 ≠ 1 then value * r.2 else value) value

def PriceData.otherRatioMultiplier (pd : PriceData) : ℚ :=
  pd.otherRatios.foldl (fun multiplier r => if isValidOtherRatio r.2 ∧ r.2 ≠ 1 then multiplier * r.2 else multiplier) 1

theorem PriceData.applyOtherRatiosToDecimal_eq (pd : PriceData) (value : ℚ) :
    pd.applyOtherRatiosToDecimal value = value * pd.otherRatioMultiplier := by
  have hfold (l : List (String × ℚ)) (x : ℚ) :
      l.foldl (fun value r => if isValidOtherRatio r.2 ∧ r.2 ≠ 1 then value * r.2 else value) (value * x) =
        value * l.foldl (fun multiplier r => if isValidOtherRatio r.2 ∧
          r.2 ≠ 1 then multiplier * r.2 else multiplier) x := by
    induction l generalizing x with
    | nil => rfl
    | cons r _ ih =>
      rw [List.foldl_cons, List.foldl_cons, ← ih]
      split_ifs
      · rw [mul_assoc]
      · rfl
  have hone := hfold pd.otherRatios 1
  rwa [mul_one] at hone

/-- An invalid ratio is passed over, so that the product stays positive. -/
theorem PriceData.otherRatioMultiplier_pos (pd : PriceData) : 0 < pd.otherRatioMultiplier := by
  have hfold (l : List (String × ℚ)) (x : ℚ) (hx : 0 < x) :
      0 < l.foldl (fun multiplier r => if isValidOtherRatio r.2 ∧ r.2 ≠ 1 then multiplier * r.2 else multiplier) x := by
    induction l generalizing x with
    | nil => exact hx
    | cons r _ ih =>
      apply ih
      dsimp only
      split_ifs with h
      · exact mul_pos hx (of_decide_eq_true h.1)
      · exact hx
  exact hfold _ 1 one_pos

def PriceData.ratio (pd : PriceData) : ℚ := pd.modelRatio * pd.groupRatio

/-! ## The request -/

inductive RelayFormat
  | openai
  | claude
  | gemini
  | openaiResponses
  | openaiResponsesCompaction
  | openaiAlphaSearch
  | openaiAudio
  | openaiImage
  | openaiRealtime
  | rerank
  | embedding
  | task
  | mjProxy
  deriving DecidableEq

def channelTypeOpenRouter : Nat := 20

/-- The fields of `RelayInfo` and of the request's context that the text path reads. `builtInTools` are the calls of
each tool of `ResponsesUsageInfo`; `channelType` is `none` without channel data. -/
structure TextInfo where
  originModelName : String := ""
  billingModelName : String := ""
  relayFormat : RelayFormat := .openai
  requestConversionChain : List RelayFormat := []
  finalRequestRelayFormat : Option RelayFormat := none
  relayModeResponses : Bool := false
  channelType : Option Nat := none
  estimatePromptTokens : Int := 0
  priceData : PriceData := {}
  builtInTools : List (String × Int) := []
  claudeWebSearchRequests : Int := 0
  geminiGoogleSearchCall : Bool := false

def TextInfo.getFinalRequestRelayFormat (info : TextInfo) : RelayFormat :=
  info.finalRequestRelayFormat.getD (info.requestConversionChain.getLast?.getD info.relayFormat)

def TextInfo.getBillingModelName (info : TextInfo) : String :=
  if info.billingModelName ≠ "" then info.billingModelName else info.originModelName

def usageSemanticFromUsage (info : TextInfo) (usage : Option (Usage ℚ)) : String :=
  let formatSemantic := if info.getFinalRequestRelayFormat = .claude then "anthropic" else "openai"
  match usage with
  | none => formatSemantic
  | some u => if u.usageSemantic ≠ "" then u.usageSemantic else formatSemantic

def isLegacyClaudeDerivedOpenAIUsage (info : TextInfo) (usage : Usage ℚ) : Bool :=
  if info.getFinalRequestRelayFormat = .claude then false
  else if usage.usageSource ≠ "" ∨ usage.usageSemantic ≠ "" then false
  else 0 < usage.claudeCacheCreation5mTokens || 0 < usage.claudeCacheCreation1hTokens

def cacheCreationTokensTotal (d : InputTokenDetails) : Int :=
  let total := if d.cachedCreationTokens < d.cacheWriteTokens then d.cacheWriteTokens else d.cachedCreationTokens
  if total < 0 then 0 else total

theorem cacheCreationTokensTotal_nonneg (d : InputTokenDetails) : 0 ≤ cacheCreationTokensTotal d := by
  unfold cacheCreationTokensTotal
  simp only
  split_ifs <;> omega

/-! ## Tool calls -/

structure ToolSurchargeItem where
  name : String
  count : Int
  price : ℚ

def maxInt : Int := 2 ^ 63 - 1

def collectToolSurchargeItem (ps : PriceSetting) (items : List ToolSurchargeItem) (name : String)
    (count : Int) (modelName : String) :
    List ToolSurchargeItem :=
  if count ≤ 0 then items
  else
    let price := ps.getToolPriceForModel name modelName
    if price ≤ 0 then items else items ++ [⟨name, count, price⟩]

/-- Calls of one tool at one price become one line. -/
def mergeToolSurchargeItem (merged : List ToolSurchargeItem) (item : ToolSurchargeItem) : List ToolSurchargeItem :=
  match merged.getLast? with
  | none => merged ++ [item]
  | some last =>
    if last.name = item.name ∧ last.price = item.price then
      merged.dropLast ++ [{ last with
        count := if maxInt - last.count < item.count then maxInt else last.count + item.count }]
    else merged ++ [item]

def mergeToolSurchargeItems (items : List ToolSurchargeItem) : List ToolSurchargeItem :=
  (items.insertionSort fun a b => a.name < b.name ∨ a.name = b.name ∧ a.price ≤ b.price).foldl mergeToolSurchargeItem []

def textToolSurchargeItems (ps : PriceSetting) (info : TextInfo) : List ToolSurchargeItem :=
  let modelName := info.getBillingModelName
  let items := info.builtInTools.foldl (fun items tool => collectToolSurchargeItem ps items tool.1 tool.2 modelName) []
  let items := if !info.relayModeResponses ∧ modelName.endsWith "search-preview"
    then collectToolSurchargeItem ps items "web_search_preview" 1 modelName else items
  let items := collectToolSurchargeItem ps items "web_search" info.claudeWebSearchRequests modelName
  let items := if info.geminiGoogleSearchCall then collectToolSurchargeItem ps items
    "google_search" 1 modelName else items
  mergeToolSurchargeItems items

def calculateTextToolCallSurcharge (ps : PriceSetting) (info : TextInfo) : ℚ :=
  ((textToolSurchargeItems ps info).map fun item =>
    item.price * item.count / 1000 * info.priceData.groupRatio * ps.quotaPerUnit).sum

/-! ## The summary -/

structure TextQuotaSummary where
  promptTokens : Int := 0
  completionTokens : Int := 0
  totalTokens : Int := 0
  cacheTokens : Int := 0
  cacheCreationTokens : Int := 0
  cacheCreationTokens5m : Int := 0
  cacheCreationTokens1h : Int := 0
  imageTokens : Int := 0
  audioTokens : Int := 0
  modelName : String := ""
  quota : Int := 0
  isClaudeUsageSemantic : Bool := false
  toolCallSurchargeQuota : ℚ := 0

def TextQuotaSummary.hasBillableUsage (s : TextQuotaSummary) : Prop := 0 < s.totalTokens ∨ s.toolCallSurchargeQuota ≠ 0

instance (s : TextQuotaSummary) : Decidable s.hasBillableUsage := inferInstanceAs (Decidable (_ ∨ _))

def TextQuotaSummary.hasSplitCacheCreationTokens (s : TextQuotaSummary) : Prop :=
  0 < s.cacheCreationTokens5m ∨ 0 < s.cacheCreationTokens1h

instance (s : TextQuotaSummary) : Decidable s.hasSplitCacheCreationTokens := inferInstanceAs (Decidable (_ ∨ _))

def cacheWriteTokensTotal (s : TextQuotaSummary) : Int :=
  if s.hasSplitCacheCreationTokens then
    let splitCacheWriteTokens := s.cacheCreationTokens5m + s.cacheCreationTokens1h
    if splitCacheWriteTokens < s.cacheCreationTokens then s.cacheCreationTokens else splitCacheWriteTokens
  else s.cacheCreationTokens

/-- Without a usage the estimate of the prompt is charged. -/
def usageOrEstimate (info : TextInfo) (usage : Option (Usage ℚ)) : Usage ℚ :=
  usage.getD { promptTokens := info.estimatePromptTokens, totalTokens := info.estimatePromptTokens }

/-- The counts of a usage as they were reported. -/
def countText (ps : PriceSetting) (info : TextInfo) (usage : Option (Usage ℚ)) : TextQuotaSummary :=
  let u := usageOrEstimate info usage
  { promptTokens := u.promptTokens
    completionTokens := u.completionTokens
    totalTokens := u.promptTokens + u.completionTokens
    cacheTokens := u.promptTokensDetails.cachedTokens
    cacheCreationTokens := cacheCreationTokensTotal u.promptTokensDetails
    cacheCreationTokens5m := u.claudeCacheCreation5mTokens
    cacheCreationTokens1h := u.claudeCacheCreation1hTokens
    imageTokens := u.promptTokensDetails.imageTokens
    audioTokens := u.promptTokensDetails.audioTokens
    modelName := info.getBillingModelName
    isClaudeUsageSemantic := usageSemanticFromUsage info usage = "anthropic"
    toolCallSurchargeQuota := calculateTextToolCallSurcharge ps info }

def hasCustomModelRatio (ps : PriceSetting) (modelName : String) (currentRatio : ℚ) : Bool :=
  match ps.getDefaultModelRatio modelName with
  | none => true
  | some defaultRatio => currentRatio ≠ defaultRatio

/-- A value that was cut, as a quotient by zero is, counts as `-1`. -/
def calcOpenRouterCacheCreateTokens (ps : PriceSetting) (u : Usage ℚ) (pd : PriceData) : Int :=
  if pd.cacheCreationRatio = 1 then 0
  else
    let quotaPrice := pd.modelRatio / ps.quotaPerUnit
    let promptCacheCreatePrice := quotaPrice * pd.cacheCreationRatio
    let promptCacheReadPrice := quotaPrice * pd.cacheRatio
    let completionPrice := quotaPrice * pd.completionRatio
    if promptCacheCreatePrice - quotaPrice = 0 then -1
    else
      let value := (u.cost.getD 0 - u.promptTokens * quotaPrice +
        u.promptTokensDetails.cachedTokens * (quotaPrice - promptCacheReadPrice) -
        u.completionTokens * completionPrice) /
        (promptCacheCreatePrice - quotaPrice)
      let quota := Decimal.roundAway value
      if maxQuota < quota ∨ quota < minQuota then -1 else quota

def isOpenRouterClaudeBilling (info : TextInfo) (s : TextQuotaSummary) : Bool :=
  info.channelType = some channelTypeOpenRouter ∧ s.isClaudeUsageSemantic

/-- OpenRouter reports the whole input also in the Claude convention. The cost is a float or missing, so that the
comparison with the integer `0` never holds. -/
def adjustOpenRouter (ps : PriceSetting) (info : TextInfo) (u : Usage ℚ) (s : TextQuotaSummary) : TextQuotaSummary :=
  if isOpenRouterClaudeBilling info s then
    let promptTokens := s.promptTokens - s.cacheTokens
    let isUsingCustomSettings := info.priceData.usePrice || hasCustomModelRatio ps s.modelName info.priceData.modelRatio
    let maybeCacheCreationTokens := calcOpenRouterCacheCreateTokens ps u info.priceData
    let cacheCreationTokens :=
      if s.cacheCreationTokens = 0 ∧ info.priceData.cacheCreationRatio ≠ 1 ∧ !isUsingCustomSettings ∧
        0 ≤ maybeCacheCreationTokens ∧ maybeCacheCreationTokens ≤ promptTokens
      then maybeCacheCreationTokens else s.cacheCreationTokens
    { s with cacheCreationTokens, promptTokens := promptTokens - cacheCreationTokens }
  else s

/-! ## The charge -/

section Charge

variable (ps : PriceSetting) (pd : PriceData) (textOnly : Bool) (s : TextQuotaSummary)

def audioInputPrice : ℚ := if s.audioTokens ≠ 0 then ps.getGeminiInputAudioPricePerMillionTokens s.modelName else 0

/-- The tokens at the base price: with `textOnly` the prompt has never counted the cached ones. The counts of prefixes
can come to more than the prompt. -/
def baseTokens : Int :=
  let base := s.promptTokens
  let base := if s.cacheTokens ≠ 0 ∧ !textOnly then base - s.cacheTokens else base
  let base := if (s.cacheCreationTokens ≠ 0 ∨ s.hasSplitCacheCreationTokens) ∧
    !textOnly then base - s.cacheCreationTokens else base
  let base := if s.imageTokens ≠ 0 then base - s.imageTokens else base
  let base := if s.audioTokens ≠ 0 ∧ 0 < audioInputPrice ps s then base - s.audioTokens else base
  if base < 0 then 0 else base

def cachedTokensWithRatio : ℚ := if s.cacheTokens ≠ 0 then s.cacheTokens * pd.cacheRatio else 0

def cachedCreationTokensWithRatio : ℚ :=
  if s.cacheCreationTokens ≠ 0 ∨ s.hasSplitCacheCreationTokens then
    if !textOnly then s.cacheCreationTokens * pd.cacheCreationRatio
    else
      let remaining := s.cacheCreationTokens - s.cacheCreationTokens5m - s.cacheCreationTokens1h
      let remaining := if remaining < 0 then 0 else remaining
      remaining * pd.cacheCreationRatio + s.cacheCreationTokens5m * pd.cacheCreation5mRatio +
        s.cacheCreationTokens1h * pd.cacheCreation1hRatio
  else 0

def imageTokensWithRatio : ℚ := if s.imageTokens ≠ 0 then s.imageTokens * pd.imageRatio else 0

def audioInputQuota : ℚ :=
  if s.audioTokens ≠ 0 ∧ 0 < audioInputPrice ps s then
    audioInputPrice ps s / 1000000 * s.audioTokens * pd.groupRatio * ps.quotaPerUnit
  else 0

def meteredDecimal : ℚ :=
  let promptQuota := baseTokens ps textOnly s + cachedTokensWithRatio pd s + imageTokensWithRatio pd s +
    cachedCreationTokensWithRatio pd textOnly s
  let completionQuota := s.completionTokens * pd.completionRatio
  pd.applyOtherRatiosToDecimal ((promptQuota + completionQuota) * pd.ratio + audioInputQuota ps pd s) +
    s.toolCallSurchargeQuota

def perCallDecimal : ℚ :=
  pd.applyOtherRatiosToDecimal (pd.modelPrice * ps.quotaPerUnit * pd.groupRatio) + s.toolCallSurchargeQuota

def chargedDecimal : ℚ :=
  if pd.usePrice then perCallDecimal ps pd s
  else
    let quotaCalculateDecimal := meteredDecimal ps pd textOnly s
    if pd.ratio ≠ 0 ∧ quotaCalculateDecimal ≤ 0 then 1 else quotaCalculateDecimal

/-- A billable usage of a model with a ratio costs something. -/
def textQuota : Int :=
  let quota := quotaFromDecimal (chargedDecimal ps pd textOnly s)
  if ¬ s.hasBillableUsage then 0
  else if pd.ratio ≠ 0 ∧ quota = 0 then 1
  else quota

end Charge

def calculateTextQuotaSummary (ps : PriceSetting) (info : TextInfo) (usage : Option (Usage ℚ)) : TextQuotaSummary :=
  let u := usageOrEstimate info usage
  let s := adjustOpenRouter ps info u (countText ps info usage)
  { s with quota := textQuota ps info.priceData (s.isClaudeUsageSemantic || isLegacyClaudeDerivedOpenAIUsage info u) s }

/-! ## Reading a charge -/

section Reading

variable {ps : PriceSetting} {info : TextInfo} {usage : Option (Usage ℚ)} {pd : PriceData}
  {textOnly : Bool} {s : TextQuotaSummary}

theorem isOpenRouterClaudeBilling_eq_false (h : info.channelType ≠ some channelTypeOpenRouter) (s : TextQuotaSummary) :
    isOpenRouterClaudeBilling info s = false := by
  simp [isOpenRouterClaudeBilling, h]

theorem calculateTextQuotaSummary_quota (h : info.channelType ≠ some channelTypeOpenRouter) :
    (calculateTextQuotaSummary ps info usage).quota =
      textQuota ps info.priceData ((countText ps info usage).isClaudeUsageSemantic ||
        isLegacyClaudeDerivedOpenAIUsage info (usageOrEstimate info usage)) (countText ps info usage) := by
  have hplain : adjustOpenRouter ps info (usageOrEstimate info usage)
    (countText ps info usage) = countText ps info usage :=
    if_neg (by simp [isOpenRouterClaudeBilling_eq_false h])
  unfold calculateTextQuotaSummary
  simp [hplain]

theorem hasBillableUsage_calculateTextQuotaSummary :
    (calculateTextQuotaSummary ps info usage).hasBillableUsage ↔ (countText ps info usage).hasBillableUsage := by
  have hadjusted (u : Usage ℚ) (s : TextQuotaSummary) :
    (adjustOpenRouter ps info u s).hasBillableUsage ↔ s.hasBillableUsage := by
    unfold adjustOpenRouter
    split_ifs <;> rfl
  exact hadjusted _ _

theorem textQuota_of_unbillable (h : ¬ s.hasBillableUsage) : textQuota ps pd textOnly s = 0 := if_pos h

theorem textQuota_ne_zero (h : s.hasBillableUsage) (hratio : pd.ratio ≠ 0) : textQuota ps pd textOnly s ≠ 0 := by
  unfold textQuota
  simp only
  split_ifs with hzero
  · exact one_ne_zero
  · intro hquota
    exact hzero ⟨hratio, hquota⟩

end Reading

end CubeRouter.Pricing
