import CubeRouter.Pricing.TextQuota

/-!
# The token variables of a tiered expression

`BuildTieredTokenParams` of `service/tiered_settle.go`. `p` and `c` stand for the tokens that the expression does not
price by a variable of their own, and `len` for the whole input. The counts are floats that hold integers.

Two tests for the Claude convention are made here: the caller's, by the tag of the usage or else by the format of the
request, decides what is subtracted, and a second one, by the tag alone, decides which counts of cache writes are
read. With the tag the unsplit rest of the writes is not read, without it the split is not.
-/

namespace CubeRouter.Pricing

open Streams.Snapshots (Usage)

structure TokenParams where
  p : Int
  c : Int
  len : Int
  cr : Int
  cc : Int
  cc1h : Int
  img : Int
  imgO : Int
  ai : Int
  ao : Int
  deriving DecidableEq

/-- What a variable takes out, if the expression uses it. -/
def referenced (usedVars : String → Bool) (name : String) (count : Int) : Int := if usedVars name then count else 0

def buildTieredTokenParams (u : Usage ℚ) (isClaudeUsageSemantic : Bool) (usedVars : String → Bool) : TokenParams :=
  let p := u.promptTokens
  let c := u.completionTokens
  let cr := u.promptTokensDetails.cachedTokens
  let cc5m := if u.usageSemantic = "anthropic" then u.claudeCacheCreation5mTokens
    else cacheCreationTokensTotal u.promptTokensDetails
  let cc1h := if u.usageSemantic = "anthropic" then u.claudeCacheCreation1hTokens else 0
  let img := u.promptTokensDetails.imageTokens
  let ai := u.promptTokensDetails.audioTokens
  let imgO := u.completionTokenDetails.imageTokens
  let ao := u.completionTokenDetails.audioTokens
  let len := if isClaudeUsageSemantic then p + cr + cc5m + cc1h else p
  let p := if isClaudeUsageSemantic then p
    else p - referenced usedVars "cr" cr - referenced usedVars "cc" cc5m - referenced usedVars "cc1h" cc1h -
      referenced usedVars "img" img - referenced usedVars "ai" ai
  let c := if isClaudeUsageSemantic then c else c - referenced usedVars "img_o" imgO - referenced usedVars "ao" ao
  { p := if p < 0 then 0 else p
    c := if c < 0 then 0 else c
    len, cr, cc := cc5m, cc1h, img, imgO, ai, ao }

def TokenParams.referencedInput (tp : TokenParams) (usedVars : String → Bool) : Int :=
  referenced usedVars "cr" tp.cr + referenced usedVars "cc" tp.cc + referenced usedVars "cc1h" tp.cc1h +
    referenced usedVars "img" tp.img + referenced usedVars "ai" tp.ai

def TokenParams.referencedOutput (tp : TokenParams) (usedVars : String → Bool) : Int :=
  referenced usedVars "img_o" tp.imgO + referenced usedVars "ao" tp.ao

/-- In the OpenAI convention the variables that are used partition the two totals. -/
structure TokenParams.Partition (tp : TokenParams) (u : Usage ℚ) (usedVars : String → Bool) : Prop where
  input : tp.referencedInput usedVars ≤ u.promptTokens → tp.p + tp.referencedInput usedVars = u.promptTokens
  output : tp.referencedOutput usedVars ≤ u.completionTokens → tp.c + tp.referencedOutput usedVars = u.completionTokens
  len : tp.len = u.promptTokens

/-- In the Claude convention the prompt is plain text, and every token of the cache is in one of its variables. -/
structure TokenParams.Cover (tp : TokenParams) (u : Usage ℚ) (cacheWriteTokens : Int) : Prop where
  text : tp.p = u.promptTokens
  cache : tp.cr + tp.cc + tp.cc1h = u.promptTokensDetails.cachedTokens + cacheWriteTokens
  len : tp.len = tp.p + tp.cr + tp.cc + tp.cc1h

def CountsOnce (ps : PriceSetting) (info : TextInfo) (u : Usage ℚ) (usedVars : String → Bool) : Prop :=
  if usageSemanticFromUsage info (some u) = "anthropic" then
    (buildTieredTokenParams u true usedVars).Cover u (cacheWriteTokensTotal (countText ps info (some u)))
  else (buildTieredTokenParams u false usedVars).Partition u usedVars

variable {u : Usage ℚ} {usedVars : String → Bool}

theorem partition_buildTieredTokenParams (u : Usage ℚ) (usedVars : String → Bool) :
    (buildTieredTokenParams u false usedVars).Partition u usedVars := by
  refine ⟨?_, ?_, rfl⟩
  · simp only [buildTieredTokenParams, TokenParams.referencedInput, Bool.false_eq_true, if_false]
    split_ifs <;> omega
  · simp only [buildTieredTokenParams, TokenParams.referencedOutput, Bool.false_eq_true, if_false]
    split_ifs <;> omega

/-- The cache writes that the variables are given, by the tag of the usage. -/
def readCacheWrites (u : Usage ℚ) : Int :=
  if u.usageSemantic = "anthropic" then u.claudeCacheCreation5mTokens + u.claudeCacheCreation1hTokens
  else cacheCreationTokensTotal u.promptTokensDetails

theorem cover_iff (cacheWriteTokens : Int) : (buildTieredTokenParams u true usedVars).Cover u cacheWriteTokens ↔
      0 ≤ u.promptTokens ∧ readCacheWrites u = cacheWriteTokens := by
  have hwrites : (buildTieredTokenParams u true usedVars).cc +
    (buildTieredTokenParams u true usedVars).cc1h = readCacheWrites u := by
    simp only [buildTieredTokenParams, readCacheWrites]
    split_ifs <;> omega
  have hp : (buildTieredTokenParams u true usedVars).p = max 0 u.promptTokens := by
    simp only [buildTieredTokenParams, if_true]
    omega
  have hcr : (buildTieredTokenParams u true usedVars).cr = u.promptTokensDetails.cachedTokens := rfl
  have hlen : (buildTieredTokenParams u true usedVars).len =
      u.promptTokens + (buildTieredTokenParams u true usedVars).cr + (buildTieredTokenParams u true usedVars).cc +
        (buildTieredTokenParams u true usedVars).cc1h := rfl
  constructor
  · rintro ⟨htext, hcache, -⟩
    omega
  · rintro ⟨hprompt, hread⟩
    exact ⟨by omega, by omega, by omega⟩

theorem readCacheWrites_eq_iff (ps : PriceSetting) (info : TextInfo) (u : Usage ℚ) :
    readCacheWrites u = cacheWriteTokensTotal (countText ps info (some u)) ↔ if u.usageSemantic = "anthropic" then
        cacheCreationTokensTotal u.promptTokensDetails ≤ u.claudeCacheCreation5mTokens + u.claudeCacheCreation1hTokens
      else u.claudeCacheCreation5mTokens + u.claudeCacheCreation1hTokens ≤
      cacheCreationTokensTotal u.promptTokensDetails := by
  have htotal := cacheCreationTokensTotal_nonneg u.promptTokensDetails
  simp only [readCacheWrites, cacheWriteTokensTotal, TextQuotaSummary.hasSplitCacheCreationTokens,
    countText, usageOrEstimate,
    Option.getD_some]
  split_ifs <;> omega

/-- The OpenAI convention always counts every token once. The Claude one does exactly when the prompt is a count and
the tag of the usage picks the counts that hold all cache writes: the split with the tag, the total without it. -/
theorem countsOnce_iff (ps : PriceSetting) (info : TextInfo) (u : Usage ℚ) (usedVars : String → Bool) :
    CountsOnce ps info u usedVars ↔ (usageSemanticFromUsage info (some u) = "anthropic" → 0 ≤ u.promptTokens ∧
          if u.usageSemantic = "anthropic" then
            cacheCreationTokensTotal u.promptTokensDetails ≤
            u.claudeCacheCreation5mTokens + u.claudeCacheCreation1hTokens
          else u.claudeCacheCreation5mTokens + u.claudeCacheCreation1hTokens ≤
          cacheCreationTokensTotal u.promptTokensDetails) := by
  unfold CountsOnce
  by_cases hclaude : usageSemanticFromUsage info (some u) = "anthropic"
  · rw [if_pos hclaude, cover_iff, readCacheWrites_eq_iff]
    simp [hclaude]
  · rw [if_neg hclaude]
    exact iff_of_true (partition_buildTieredTokenParams u usedVars) fun h => absurd h hclaude

/-- A thousand tokens written to the cache, in a usage that does not split them. -/
theorem unsplit_cache_writes_dropped :
    ¬CountsOnce {} {} { promptTokens := 10, usageSemantic := "anthropic",
                        promptTokensDetails := { cachedCreationTokens := 1000 } }
      (fun name => name = "cc") := by
  intro h
  have hcache : (0 : Int) + 0 + 0 = 0 + 1000 := TokenParams.Cover.cache h
  exact absurd hcache (by decide)

end CubeRouter.Pricing
