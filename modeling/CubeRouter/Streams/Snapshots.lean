import CubeRouter.Ledger.Funding
import Mathlib.Algebra.Order.Group.Int
import Mathlib.Logic.Function.Basic

/-!
# Usage snapshots

`dto/usage_merge.go` and `dto/billing_usage.go`: a stream reports what it has used as cumulative snapshots, in the
dialect of its provider, and `ResponseStreamState.rememberUsage` of `relayconvert/response_registry.go` merges them as
often as it meets them. The native payload inside a `BillingUsage` carries no `BillingUsage` of its own, and what
`CanonicalUsage` puts next to its counts, a copy of the `BillingUsage`, is left out.
-/

namespace CubeRouter.Streams.Snapshots

open Ledger (trimSpace)

def BillingUsageSourceClaudeMessages : String := "claude_messages"

def BillingUsageSourceGeminiChat : String := "gemini_chat"

def BillingUsageSourceOAIChat : String := "oai_chat"

def BillingUsageSourceOAIResponses : String := "oai_responses"

def BillingUsageSemanticAnthropic : String := "anthropic"

def BillingUsageSemanticGemini : String := "gemini"

def BillingUsageSemanticOpenAI : String := "openai"

/-! ## Snapshots -/

structure InputTokenDetails where
  cachedTokens : Int := 0
  cachedCreationTokens : Int := 0
  cacheWriteTokens : Int := 0
  textTokens : Int := 0
  audioTokens : Int := 0
  imageTokens : Int := 0

structure OutputTokenDetails where
  textTokens : Int := 0
  audioTokens : Int := 0
  imageTokens : Int := 0
  reasoningTokens : Int := 0

/-- `κ` is the type of `Cost`. -/
structure Usage (κ : Type) where
  promptTokens : Int := 0
  completionTokens : Int := 0
  totalTokens : Int := 0
  promptCacheHitTokens : Int := 0
  usageSemantic : String := ""
  usageSource : String := ""
  promptTokensDetails : InputTokenDetails := {}
  completionTokenDetails : OutputTokenDetails := {}
  inputTokens : Int := 0
  outputTokens : Int := 0
  inputTokensDetails : Option InputTokenDetails := none
  outputTokensDetails : Option OutputTokenDetails := none
  claudeCacheCreation5mTokens : Int := 0
  claudeCacheCreation1hTokens : Int := 0
  cost : Option κ := none

structure ClaudeCacheCreationUsage where
  ephemeral5mInputTokens : Int := 0
  ephemeral1hInputTokens : Int := 0

structure ClaudeServerToolUse where
  webSearchRequests : Int := 0
  webFetchRequests : Int := 0
  codeExecutionRequests : Int := 0
  toolSearchRequests : Int := 0

structure ClaudeUsage where
  inputTokens : Int := 0
  cacheCreationInputTokens : Int := 0
  cacheReadInputTokens : Int := 0
  outputTokens : Int := 0
  cacheCreation : Option ClaudeCacheCreationUsage := none
  claudeCacheCreation5mTokens : Int := 0
  claudeCacheCreation1hTokens : Int := 0
  serverToolUse : Option ClaudeServerToolUse := none

structure GeminiPromptTokensDetails where
  modality : String
  tokenCount : Int

structure GeminiUsageMetadata where
  promptTokenCount : Int := 0
  toolUsePromptTokenCount : Int := 0
  candidatesTokenCount : Int := 0
  totalTokenCount : Int := 0
  thoughtsTokenCount : Int := 0
  cachedContentTokenCount : Int := 0
  promptTokensDetails : List GeminiPromptTokensDetails := []
  toolUsePromptTokensDetails : List GeminiPromptTokensDetails := []
  candidatesTokensDetails : List GeminiPromptTokensDetails := []

structure BillingUsage (κ : Type) where
  source : String := ""
  semantic : String := ""
  estimated : Bool := false
  openAIUsage : Option (Usage κ) := none
  claudeUsage : Option ClaudeUsage := none
  geminiUsageMetadata : Option GeminiUsageMetadata := none

/-- A usage as the converters hand it on. -/
structure ReportedUsage (κ : Type) extends Usage κ where
  billingUsage : Option (BillingUsage κ) := none

/-! ## Merging -/

/-- A later count that is positive overwrites the current one. -/
def overlay (current incoming : Int) : Int := if 0 < incoming then incoming else current

def mergeInputTokenDetails (current incoming : InputTokenDetails) : InputTokenDetails where
  cachedTokens := overlay current.cachedTokens incoming.cachedTokens
  cachedCreationTokens := overlay current.cachedCreationTokens incoming.cachedCreationTokens
  cacheWriteTokens := overlay current.cacheWriteTokens incoming.cacheWriteTokens
  textTokens := overlay current.textTokens incoming.textTokens
  audioTokens := overlay current.audioTokens incoming.audioTokens
  imageTokens := overlay current.imageTokens incoming.imageTokens

def InputTokenDetails.positive (d : InputTokenDetails) : Bool :=
  0 < d.cachedTokens || 0 < d.cachedCreationTokens || 0 < d.cacheWriteTokens || 0 < d.textTokens || 0 < d.audioTokens ||
    0 < d.imageTokens

section OpenAI

variable {κ : Type} [Zero κ] [DecidableEq κ]

def raiseTotal (total : Int) (parts : List Int) : Int :=
  parts.foldl (fun total part => if total < part then part else total) total

/-- `MergeUsageNonZero`, but for `BillingUsage`. -/
def mergeUsage (current incoming : Usage κ) : Usage κ :=
  let promptTokens := overlay current.promptTokens incoming.promptTokens
  let completionTokens := overlay current.completionTokens incoming.completionTokens
  let inputTokens := overlay current.inputTokens incoming.inputTokens
  let outputTokens := overlay current.outputTokens incoming.outputTokens
  { current with
    promptTokens
    completionTokens
    totalTokens := raiseTotal (overlay current.totalTokens incoming.totalTokens)
      [promptTokens + completionTokens, inputTokens + outputTokens]
    promptCacheHitTokens := overlay current.promptCacheHitTokens incoming.promptCacheHitTokens
    inputTokens
    outputTokens
    claudeCacheCreation5mTokens := overlay current.claudeCacheCreation5mTokens incoming.claudeCacheCreation5mTokens
    claudeCacheCreation1hTokens := overlay current.claudeCacheCreation1hTokens incoming.claudeCacheCreation1hTokens
    promptTokensDetails := mergeInputTokenDetails current.promptTokensDetails incoming.promptTokensDetails
    inputTokensDetails :=
      match incoming.inputTokensDetails with
      | some details =>
        if details.positive then some (mergeInputTokenDetails (current.inputTokensDetails.getD {}) details)
        else current.inputTokensDetails
      | none => current.inputTokensDetails
    completionTokenDetails :=
      { textTokens := overlay current.completionTokenDetails.textTokens incoming.completionTokenDetails.textTokens
        audioTokens := overlay current.completionTokenDetails.audioTokens incoming.completionTokenDetails.audioTokens
        imageTokens := overlay current.completionTokenDetails.imageTokens incoming.completionTokenDetails.imageTokens
        reasoningTokens :=
        overlay current.completionTokenDetails.reasoningTokens incoming.completionTokenDetails.reasoningTokens }
    usageSemantic := if incoming.usageSemantic ≠ "" then incoming.usageSemantic else current.usageSemantic
    usageSource := if incoming.usageSource ≠ "" then incoming.usageSource else current.usageSource
    cost := if incoming.cost.any (· ≠ 0) then incoming.cost else current.cost }

end OpenAI

def mergeClaudeUsage (current incoming : ClaudeUsage) : ClaudeUsage where
  inputTokens := overlay current.inputTokens incoming.inputTokens
  cacheCreationInputTokens := overlay current.cacheCreationInputTokens incoming.cacheCreationInputTokens
  cacheReadInputTokens := overlay current.cacheReadInputTokens incoming.cacheReadInputTokens
  outputTokens := overlay current.outputTokens incoming.outputTokens
  cacheCreation := incoming.cacheCreation.or current.cacheCreation
  claudeCacheCreation5mTokens :=
    match incoming.cacheCreation with
    | some cacheCreation => cacheCreation.ephemeral5mInputTokens
    | none => overlay current.claudeCacheCreation5mTokens incoming.claudeCacheCreation5mTokens
  claudeCacheCreation1hTokens :=
    match incoming.cacheCreation with
    | some cacheCreation => cacheCreation.ephemeral1hInputTokens
    | none => overlay current.claudeCacheCreation1hTokens incoming.claudeCacheCreation1hTokens
  serverToolUse :=
    match incoming.serverToolUse with
    | none => current.serverToolUse
    | some use =>
      let held := current.serverToolUse.getD {}
      some
        { webSearchRequests := overlay held.webSearchRequests use.webSearchRequests
          webFetchRequests := overlay held.webFetchRequests use.webFetchRequests
          codeExecutionRequests := overlay held.codeExecutionRequests use.codeExecutionRequests
          toolSearchRequests := overlay held.toolSearchRequests use.toolSearchRequests }

section Gemini

-- `strings.ToUpper`
variable (toUpper : String → String)

def normalizeGeminiModality (modality : String) : String := toUpper (trimSpace modality)

/-- The loop of `mergeGeminiTokenDetails`; `indexes` is where a modality stands. -/
def mergeGeminiTokenDetailsLoop (merged : List GeminiPromptTokensDetails) (indexes : String → Option Nat) :
    List GeminiPromptTokensDetails → List GeminiPromptTokensDetails
  | [] => merged
  | detail :: incoming =>
    if detail.tokenCount ≤ 0 then mergeGeminiTokenDetailsLoop merged indexes incoming
    else
      let key := normalizeGeminiModality toUpper detail.modality
      match indexes key with
      | some index =>
        mergeGeminiTokenDetailsLoop (merged.modify index
          fun d => { d with tokenCount := d.tokenCount + detail.tokenCount }) indexes
          incoming
      | none =>
        mergeGeminiTokenDetailsLoop (merged ++ [detail]) (Function.update indexes key (some merged.length)) incoming

def geminiIndexes (details : List GeminiPromptTokensDetails) : String → Option Nat :=
  details.zipIdx.foldl (fun indexes d => Function.update indexes
    (normalizeGeminiModality toUpper d.1.modality) (some d.2))
    fun _ => none

def mergeGeminiTokenDetails (current incoming : List GeminiPromptTokensDetails) : List GeminiPromptTokensDetails :=
  mergeGeminiTokenDetailsLoop toUpper current (geminiIndexes toUpper current) incoming

def mergeGeminiUsageMetadata (current incoming : GeminiUsageMetadata) : GeminiUsageMetadata :=
  let promptTokenCount := overlay current.promptTokenCount incoming.promptTokenCount
  let toolUsePromptTokenCount := overlay current.toolUsePromptTokenCount incoming.toolUsePromptTokenCount
  let candidatesTokenCount := overlay current.candidatesTokenCount incoming.candidatesTokenCount
  let thoughtsTokenCount :=
    if 0 < incoming.candidatesTokenCount then incoming.thoughtsTokenCount
    else overlay current.thoughtsTokenCount incoming.thoughtsTokenCount
  { promptTokenCount
    toolUsePromptTokenCount
    candidatesTokenCount
    thoughtsTokenCount
    totalTokenCount := raiseTotal (overlay current.totalTokenCount incoming.totalTokenCount)
      [promptTokenCount + toolUsePromptTokenCount + candidatesTokenCount + thoughtsTokenCount]
    cachedContentTokenCount := overlay current.cachedContentTokenCount incoming.cachedContentTokenCount
    promptTokensDetails := mergeGeminiTokenDetails toUpper current.promptTokensDetails incoming.promptTokensDetails
    toolUsePromptTokensDetails :=
      mergeGeminiTokenDetails toUpper current.toolUsePromptTokensDetails incoming.toolUsePromptTokensDetails
    candidatesTokensDetails :=
    mergeGeminiTokenDetails toUpper current.candidatesTokensDetails incoming.candidatesTokensDetails }

end Gemini

section Billing

variable {κ : Type} [Zero κ] [DecidableEq κ] (toUpper : String → String)

/-- `strings.EqualFold` of ASCII texts: letters beyond ASCII, which it folds as well, are compared as they are. -/
def equalFold (s t : String) : Bool := s.toList.map Char.toLower = t.toList.map Char.toLower

def sameBillingUsageDialect (current incoming : BillingUsage κ) : Bool :=
  if current.source ≠ "" ∧ incoming.source ≠ "" ∧ ¬equalFold current.source incoming.source then false
  else if current.semantic ≠ "" ∧ incoming.semantic ≠ "" ∧ ¬equalFold current.semantic incoming.semantic then false
  else
    current.openAIUsage.isSome && incoming.openAIUsage.isSome || current.claudeUsage.isSome &&
      incoming.claudeUsage.isSome ||
      current.geminiUsageMetadata.isSome && incoming.geminiUsageMetadata.isSome

/-- `MergeBillingUsageNonZero` with a snapshot that is not nil. -/
def mergeBillingUsage (current : Option (BillingUsage κ)) (incoming : BillingUsage κ) : BillingUsage κ :=
  match current with
  | none => incoming
  | some current =>
    let estimated := current.estimated || incoming.estimated
    if ¬sameBillingUsageDialect current incoming then { incoming with estimated }
    else
      let merged : BillingUsage κ := { current with
        source := if incoming.source ≠ "" then incoming.source else current.source
        semantic := if incoming.semantic ≠ "" then incoming.semantic else current.semantic
        estimated }
      match current.openAIUsage, incoming.openAIUsage with
      | some u, some v => { merged with openAIUsage := some (mergeUsage u v) }
      | _, _ =>
        match current.claudeUsage, incoming.claudeUsage with
        | some u, some v => { merged with claudeUsage := some (mergeClaudeUsage u v) }
        | _, _ =>
          match current.geminiUsageMetadata, incoming.geminiUsageMetadata with
          | some u, some v => { merged with geminiUsageMetadata := some (mergeGeminiUsageMetadata toUpper u v) }
          | _, _ => merged

/-- `MergeUsageNonZero`. -/
def mergeReportedUsage (current incoming : ReportedUsage κ) : ReportedUsage κ :=
  { mergeUsage current.toUsage incoming.toUsage with
    billingUsage :=
      match incoming.billingUsage with
      | some b => some (mergeBillingUsage toUpper current.billingUsage b)
      | none => current.billingUsage }

/-- `ResponseStreamState.rememberUsage`. -/
def rememberUsage (remembered usage : Option (ReportedUsage κ)) : Option (ReportedUsage κ) :=
  match usage with
  | some u => some (mergeReportedUsage toUpper (remembered.getD {}) u)
  | none => remembered

end Billing

/-! ## What is settled -/

section Canonical

variable {κ : Type}

def InputTokenDetails.counts (d : InputTokenDetails) : List Int :=
  [d.cachedTokens, d.cachedCreationTokens, d.cacheWriteTokens, d.textTokens, d.imageTokens, d.audioTokens]

def OutputTokenDetails.counts (d : OutputTokenDetails) : List Int :=
  [d.reasoningTokens, d.textTokens, d.imageTokens, d.audioTokens]

def hasOpenAIUsageTokens (u : Usage κ) : Bool :=
  [u.promptTokens, u.completionTokens, u.totalTokens, u.inputTokens, u.outputTokens, u.promptCacheHitTokens,
      u.claudeCacheCreation5mTokens, u.claudeCacheCreation1hTokens].any (· ≠ 0) ||
    u.promptTokensDetails.counts.any (· ≠ 0) || u.completionTokenDetails.counts.any (· ≠ 0) ||
    (u.inputTokensDetails.any fun d => d.counts.any (· ≠ 0))

def hasClaudeUsageTokens (u : ClaudeUsage) : Bool :=
  [u.inputTokens, u.outputTokens, u.cacheCreationInputTokens, u.cacheReadInputTokens, u.claudeCacheCreation5mTokens,
      u.claudeCacheCreation1hTokens].any (· ≠ 0) ||
    u.cacheCreation.any fun c => c.ephemeral5mInputTokens ≠ 0 || c.ephemeral1hInputTokens ≠ 0

def hasGeminiUsageMetadataTokens (m : GeminiUsageMetadata) : Bool :=
  [m.promptTokenCount, m.toolUsePromptTokenCount, m.candidatesTokenCount, m.totalTokenCount, m.thoughtsTokenCount,
      m.cachedContentTokenCount].any (· ≠ 0) ||
    (m.promptTokensDetails ++ m.toolUsePromptTokensDetails ++ m.candidatesTokensDetails).any (·.tokenCount ≠ 0)

/-- The value, or what stands in for it when it is not there. -/
def orIfZero (value default : Int) : Int := if value = 0 ∧ 0 < default then default else value

/-- `InputTokensDetails` fills what `PromptTokensDetails` leaves out. -/
def fillDetails (inputTokensDetails : Option InputTokenDetails) (promptTokensDetails : InputTokenDetails) :
    InputTokenDetails :=
  match inputTokensDetails with
  | some filled => mergeInputTokenDetails filled promptTokensDetails
  | none => promptTokensDetails

def canonicalOpenAIUsage (source : String) (u : Usage κ) : Usage κ :=
  let details := fillDetails u.inputTokensDetails u.promptTokensDetails
  let promptTokens := orIfZero u.promptTokens u.inputTokens
  let completionTokens := orIfZero u.completionTokens u.outputTokens
  { u with
    promptTokensDetails := { details with cachedTokens := orIfZero details.cachedTokens u.promptCacheHitTokens }
    promptTokens
    completionTokens
    inputTokens := orIfZero u.inputTokens promptTokens
    outputTokens := orIfZero u.outputTokens completionTokens
    totalTokens := if u.totalTokens = 0 then promptTokens + completionTokens else u.totalTokens
    usageSemantic := BillingUsageSemanticOpenAI
    usageSource := source }

def canonicalClaudeUsage (u : ClaudeUsage) : Usage κ where
  promptTokens := u.inputTokens
  completionTokens := u.outputTokens
  totalTokens := u.inputTokens + u.outputTokens
  inputTokens := u.inputTokens + u.cacheReadInputTokens + u.cacheCreationInputTokens
  outputTokens := u.outputTokens
  usageSemantic := BillingUsageSemanticAnthropic
  usageSource := BillingUsageSourceClaudeMessages
  claudeCacheCreation5mTokens := (u.cacheCreation.map (·.ephemeral5mInputTokens)).getD u.claudeCacheCreation5mTokens
  claudeCacheCreation1hTokens := (u.cacheCreation.map (·.ephemeral1hInputTokens)).getD u.claudeCacheCreation1hTokens
  promptTokensDetails := { cachedTokens := u.cacheReadInputTokens, cachedCreationTokens := u.cacheCreationInputTokens }

section Gemini

variable (toUpper : String → String)

def addGeminiInputTokenDetail (details : InputTokenDetails) (detail : GeminiPromptTokensDetails) : InputTokenDetails :=
  let modality := normalizeGeminiModality toUpper detail.modality
  if modality = "AUDIO" then { details with audioTokens := details.audioTokens + detail.tokenCount }
  else if modality = "IMAGE" then { details with imageTokens := details.imageTokens + detail.tokenCount }
  else if modality = "TEXT" then { details with textTokens := details.textTokens + detail.tokenCount }
  else details

def addGeminiOutputTokenDetail (details : OutputTokenDetails) (detail : GeminiPromptTokensDetails) :
    OutputTokenDetails :=
  let modality := normalizeGeminiModality toUpper detail.modality
  if modality = "IMAGE" then { details with imageTokens := details.imageTokens + detail.tokenCount }
  else if modality = "AUDIO" then { details with audioTokens := details.audioTokens + detail.tokenCount }
  else if modality = "TEXT" then { details with textTokens := details.textTokens + detail.tokenCount }
  else details

def canonicalGeminiUsage (m : GeminiUsageMetadata) : Usage κ :=
  let promptTokens := m.promptTokenCount + m.toolUsePromptTokenCount
  let completionTokens := m.candidatesTokenCount + m.thoughtsTokenCount
  let details := (m.promptTokensDetails ++ m.toolUsePromptTokensDetails).foldl (addGeminiInputTokenDetail toUpper)
    { cachedTokens := m.cachedContentTokenCount }
  { promptTokens
    completionTokens :=
      if m.totalTokenCount ≠ 0 ∧ completionTokens ≤ 0 then max
      (m.totalTokenCount - promptTokens) 0 else completionTokens
    totalTokens := if m.totalTokenCount = 0 then promptTokens + completionTokens else m.totalTokenCount
    usageSemantic := BillingUsageSemanticGemini
    usageSource := BillingUsageSourceGeminiChat
    completionTokenDetails := m.candidatesTokensDetails.foldl (addGeminiOutputTokenDetail toUpper)
      { reasoningTokens := m.thoughtsTokenCount }
    promptTokensDetails :=
      if 0 < promptTokens ∧ details.textTokens = 0 ∧
      details.audioTokens = 0 then { details with textTokens := promptTokens }
      else details }

def BillingUsage.canonicalUsage (b : BillingUsage κ) : Option (Usage κ) :=
  let source := trimSpace b.source
  let semantic := trimSpace b.semantic
  let openAI := b.openAIUsage.filter fun u => hasOpenAIUsageTokens u && (equalFold source BillingUsageSourceOAIChat ||
    equalFold source BillingUsageSourceOAIResponses || equalFold semantic BillingUsageSemanticOpenAI)
  let claude := b.claudeUsage.filter fun u =>
    hasClaudeUsageTokens u && (equalFold source BillingUsageSourceClaudeMessages ||
    equalFold semantic BillingUsageSemanticAnthropic)
  let gemini := b.geminiUsageMetadata.filter fun m => hasGeminiUsageMetadataTokens m &&
    (equalFold source BillingUsageSourceGeminiChat || equalFold semantic BillingUsageSemanticGemini)
  ((openAI.map (canonicalOpenAIUsage b.source)).or (claude.map canonicalClaudeUsage)).or
    (gemini.map (canonicalGeminiUsage toUpper))

end Gemini

end Canonical

end CubeRouter.Streams.Snapshots
