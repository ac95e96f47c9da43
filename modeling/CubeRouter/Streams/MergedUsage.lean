import CubeRouter.Streams.Snapshots
import Mathlib.Data.List.Chain
import Mathlib.Data.List.Forall2

/-!
# Merged usage

Snapshots of one stream are cumulative: no count ever falls. Merged as often as one likes, in their order, they leave
the counts of the last one, but for totals that are raised to their parts, for what an overlay does not see, and for
the details of Gemini, which are added up (`merged_usage_iff`).
-/

namespace CubeRouter.Streams.Snapshots

open List Option Function

open Ledger (trimSpace)

/-! ## Counts that do not fall -/

def Grows (a b : List Int) : Prop := List.Forall₂ (fun x y => 0 ≤ x ∧ x ≤ y) a b

theorem overlay_of_le {x y : Int} (h : 0 ≤ x ∧ x ≤ y) : overlay x y = y := by
  unfold overlay
  split_ifs <;> omega

theorem Grows.self {a b : List Int} (h : Grows a b) : Grows b b := by
  induction h with
  | nil => exact .nil
  | cons hxy _ ih => exact .cons ⟨hxy.1.trans hxy.2, le_rfl⟩ ih

theorem mergeInputTokenDetails_of_grows {a b : InputTokenDetails} (h : Grows a.counts b.counts) :
    mergeInputTokenDetails a b = b := by
  simp only [Grows, InputTokenDetails.counts, forall₂_cons] at h
  obtain ⟨h₁, h2, h3, h4, h₅, h6, -⟩ := h
  simp only [mergeInputTokenDetails, overlay_of_le h₁, overlay_of_le h2, overlay_of_le h3,
    overlay_of_le h4, overlay_of_le h₅,
    overlay_of_le h6]

def mergeAll {X : Type} (merge : X → X → X) (l : List X) : Option X :=
  l.foldl (fun m u => some ((m.map fun m => merge m u).getD u)) none

theorem mergeAll_concat {X : Type} {merge : X → X → X} {l : List X} {m u : X} (h : mergeAll merge l = some m) :
    mergeAll merge (l ++ [u]) = some (merge m u) := by
  unfold mergeAll at h ⊢
  rw [foldl_append, h]
  rfl

/-- What one merge preserves holds of all of them. The snapshots before the last one are `earlier`. -/
theorem mergeAll_chain {X : Type} {merge : X → X → X} {R : X → X → Prop} {P : List X → X → X → Prop}
    (hstart : ∀ u v, R u v → P [u] v (merge u v))
    (hstep : ∀ earlier u v m, R u v → P earlier u m → P (earlier ++ [u]) v (merge m v)) {earlier : List X} {last : X}
    (hearlier : earlier ≠ []) (h : (earlier ++ [last]).IsChain R) :
    ∃ m, mergeAll merge (earlier ++ [last]) = some m ∧ P earlier last m := by
  induction earlier using List.reverseRecOn generalizing last with
  | nil => exact absurd rfl hearlier
  | append_singleton earlier u ih =>
    have hlast : R u last := by
      rw [append_assoc] at h
      exact isChain_cons_cons.mp (isChain_append.mp h).2.1 |>.1
    cases hnil : earlier with
    | nil => exact ⟨merge u last, rfl, hstart u last hlast⟩
    | cons =>
      rw [← hnil]
      obtain ⟨m, hm, hP⟩ := ih (by simp [hnil]) (isChain_append.mp h).1
      exact ⟨merge m last, mergeAll_concat hm, hstep earlier u last m hlast hP⟩

/-! ## OpenAI -/

section OpenAI

variable {κ : Type} [Zero κ] [DecidableEq κ] {first u v m : Usage κ}

def Usage.counts (u : Usage κ) : List Int :=
  [u.promptTokens, u.completionTokens, u.totalTokens, u.promptCacheHitTokens, u.inputTokens, u.outputTokens,
      u.claudeCacheCreation5mTokens, u.claudeCacheCreation1hTokens] ++
    u.completionTokenDetails.counts ++ (u.outputTokensDetails.getD {}).counts

/-- No count falls, with the details and the cost; details that are not there count nothing. -/
structure Usage.Cumulative (u v : Usage κ) : Prop where
  counts : Grows u.counts v.counts
  promptTokensDetails : Grows u.promptTokensDetails.counts v.promptTokensDetails.counts
  inputTokensDetails : Grows (u.inputTokensDetails.getD {}).counts (v.inputTokensDetails.getD {}).counts
  cost : u.cost.any (· ≠ 0) → v.cost.any (· ≠ 0)

def Usage.parts (u : Usage κ) : Int := max (u.promptTokens + u.completionTokens) (u.inputTokens + u.outputTokens)

theorem raiseTotal_pair (total a b : Int) : raiseTotal total [a, b] = max total (max a b) := by
  simp only [raiseTotal, foldl_cons, foldl_nil]
  split_ifs <;> omega

/-- The merge so far has the counts of the last snapshot, but for a total of at most `total` and what it keeps of the
first. -/
structure Usage.Follows (first u m : Usage κ) (total : Int) : Prop where
  rest : m = { u with
    totalTokens := total
    inputTokensDetails := m.inputTokensDetails
    outputTokensDetails := first.outputTokensDetails
    usageSemantic := m.usageSemantic
    usageSource := m.usageSource
    cost := m.cost }
  details : m.inputTokensDetails.getD {} = u.inputTokensDetails.getD {}
  cost : m.cost.filter (· ≠ 0) = u.cost.filter (· ≠ 0)

variable {d : Option InputTokenDetails}

theorem mergedDetails_getD {e : Option InputTokenDetails}
    (h : Grows (d.getD {}).counts (e.getD {}).counts) :
    (match e with
      | some details => if details.positive then some (mergeInputTokenDetails (d.getD {}) details) else d
      | none => d).getD {} = e.getD {} := by
  have hzero (x : InputTokenDetails) (hx : Grows (d.getD {}).counts x.counts) (hnot : x.positive = false) :
    d.getD {} = x := by
    simp only [Grows, InputTokenDetails.counts, forall₂_cons] at hx
    simp only [InputTokenDetails.positive, Bool.or_eq_false_iff, decide_eq_false_iff_not] at hnot
    obtain ⟨⟨⟨⟨⟨_, _⟩, _⟩, _⟩, _⟩, _⟩ := hnot
    obtain ⟨_, _, _, _, _, _, -⟩ := hx
    generalize d.getD {} = y at *
    obtain ⟨_, _, _, _, _, _⟩ := y
    obtain ⟨_, _, _, _, _, _⟩ := x
    simp only [InputTokenDetails.mk.injEq]
    dsimp only at *
    omega
  cases e with
  | none => exact hzero {} h rfl
  | some details =>
    dsimp only
    split_ifs with hpositive
    · exact mergeInputTokenDetails_of_grows h
    · exact hzero details h (by simpa using hpositive)

theorem Usage.Follows.merge {total : Int} (h : first.Follows u m total) (htotal : total ≤ max u.totalTokens u.parts)
    (hc : u.Cumulative v) : first.Follows v (mergeUsage m v) (max v.totalTokens v.parts) := by
  obtain ⟨hrest, hdetails, hcost⟩ := h
  have hcounts := hc.counts
  simp only [Grows, Usage.counts, OutputTokenDetails.counts, cons_append, nil_append, forall₂_cons] at hcounts
  obtain ⟨hp, hcompletion, _, hhit, hi, ho, h5, h1, hr, htext, himage, haudio, -⟩ := hcounts
  refine ⟨?_, ?_, ?_⟩
  · generalize m.inputTokensDetails = d, m.usageSemantic = semantic, m.usageSource = source, m.cost = cost at hrest
    subst hrest
    have hraised : raiseTotal (overlay total v.totalTokens)
      [v.promptTokens + v.completionTokens, v.inputTokens + v.outputTokens] =
        max v.totalTokens v.parts := by
      rw [raiseTotal_pair]
      unfold Usage.parts overlay at *
      split_ifs <;> omega
    simp only [mergeUsage, overlay_of_le hp, overlay_of_le hcompletion, overlay_of_le hhit,
      overlay_of_le hi, overlay_of_le ho,
      overlay_of_le h5, overlay_of_le h1, overlay_of_le hr, overlay_of_le htext,
      overlay_of_le himage, overlay_of_le haudio,
      mergeInputTokenDetails_of_grows hc.promptTokensDetails, hraised]
  · exact mergedDetails_getD (by rw [hdetails]; exact hc.inputTokensDetails)
  · have hkept := hc.cost
    dsimp only [mergeUsage]
    split_ifs with hv
    · rfl
    · have hu : ¬u.cost.any (· ≠ 0) := fun hu => hv (hkept hu)
      have hnone {c : Option κ} (hc : ¬c.any (· ≠ 0)) : c.filter (· ≠ 0) = none := by
        cases c with
        | none => rfl
        | some x =>
          have hx : x = 0 := by simpa using hc
          simp [hx, Option.filter]
      rw [hcost, hnone hu, hnone hv]

theorem Usage.follows_start (hc : u.Cumulative v) : u.Follows v (mergeUsage u v) (max v.totalTokens v.parts) := by
  have hself : u.Follows u u u.totalTokens := ⟨rfl, rfl, rfl⟩
  exact hself.merge (le_max_left _ _) hc

theorem Usage.Cumulative.self (h : u.Cumulative v) : v.Cumulative v :=
  ⟨h.counts.self, h.promptTokensDetails.self, h.inputTokensDetails.self, id⟩

theorem Usage.follows_mergeAll {earlier : List (Usage κ)} {last : Usage κ} (hearlier : earlier ≠ [])
    (h : (earlier ++ [last]).IsChain Usage.Cumulative) :
    ∃ m, mergeAll mergeUsage (earlier ++ [last]) = some m ∧ last.Cumulative last ∧
      ∃ first, earlier.head? = some first ∧ first.Follows last m (max last.totalTokens last.parts) := by
  refine mergeAll_chain (P := fun earlier u m => u.Cumulative u ∧
    ∃ first, earlier.head? = some first ∧ first.Follows u m (max u.totalTokens u.parts)) ?_ ?_ hearlier h
  · intro u v hc
    exact ⟨hc.self, u, rfl, Usage.follows_start hc⟩
  · rintro earlier u v m hc ⟨-, first, hfirst, hfollows⟩
    refine ⟨hc.self, first, ?_, hfollows.merge le_rfl hc⟩
    rw [head?_append, hfirst]
    rfl

/-- Details that are not there count nothing, and no more does a cost of zero. -/
def Usage.nilIsZero (u : Usage κ) : Usage κ :=
  { u with
    inputTokensDetails := some (u.inputTokensDetails.getD {})
    outputTokensDetails := some (u.outputTokensDetails.getD {})
    cost := u.cost.filter (· ≠ 0) }

/-- The total is no less than the parts, or it is not given and what is settled for it is what the parts come to. -/
def Usage.TotalCovers (u : Usage κ) : Prop :=
  u.parts ≤ u.totalTokens ∨
    u.totalTokens = 0 ∧ orIfZero u.promptTokens u.inputTokens + orIfZero u.completionTokens u.outputTokens = u.parts

theorem fillDetails_eq {p : InputTokenDetails} (hp : Grows p.counts p.counts) :
    fillDetails d p = mergeInputTokenDetails (d.getD {}) p := by
  cases d with
  | some => rfl
  | none =>
    have hzero : Grows ({} : InputTokenDetails).counts p.counts := by
      simp only [Grows, InputTokenDetails.counts, forall₂_cons] at hp ⊢
      simp [hp.1.1, hp.2.1.1, hp.2.2.1.1, hp.2.2.2.1.1, hp.2.2.2.2.1.1, hp.2.2.2.2.2.1.1]
    exact (mergeInputTokenDetails_of_grows hzero).symm

theorem canonicalOpenAIUsage_iff {source : String} (h : first.Follows u m (max u.totalTokens u.parts))
    (hc : u.Cumulative u) :
    (canonicalOpenAIUsage source m).nilIsZero = (canonicalOpenAIUsage source u).nilIsZero ↔
      u.TotalCovers ∧ first.outputTokensDetails.getD {} = u.outputTokensDetails.getD {} := by
  obtain ⟨hrest, hdetails, hcost⟩ := h
  have hcounts := hc.counts
  simp only [Grows, Usage.counts, OutputTokenDetails.counts, cons_append, nil_append, forall₂_cons] at hcounts
  obtain ⟨_, _, _, -, _, _, -⟩ := hcounts
  have hsettled : (if max u.totalTokens u.parts = 0 then
        orIfZero u.promptTokens u.inputTokens + orIfZero u.completionTokens u.outputTokens
        else max u.totalTokens u.parts) =
      (if u.totalTokens = 0 then
        orIfZero u.promptTokens u.inputTokens + orIfZero u.completionTokens u.outputTokens else u.totalTokens) ↔
        u.TotalCovers := by
    unfold Usage.TotalCovers Usage.parts orIfZero
    split_ifs <;> omega
  generalize m.inputTokensDetails = d, m.usageSemantic = semantic, m.usageSource = src,
    m.cost = cost at hrest hdetails hcost
  subst hrest
  simp only [canonicalOpenAIUsage, Usage.nilIsZero, fillDetails_eq hc.promptTokensDetails,
    hdetails, hcost, Usage.mk.injEq,
    true_and, and_true, Option.some.injEq, hsettled]

theorem hasOpenAIUsageTokens_follows (h : first.Follows u m (max u.totalTokens u.parts)) (hc : u.Cumulative u) :
    hasOpenAIUsageTokens m = hasOpenAIUsageTokens u := by
  obtain ⟨hrest, hdetails, -⟩ := h
  have hcounts := hc.counts
  simp only [Grows, Usage.counts, OutputTokenDetails.counts, cons_append, nil_append, forall₂_cons] at hcounts
  obtain ⟨_, _, _, -, _, _, -⟩ := hcounts
  have hany (d : Option InputTokenDetails) :
    (d.any fun d => d.counts.any (· ≠ 0)) = (d.getD {}).counts.any (· ≠ 0) := by
    cases d <;> rfl
  have hcounted : [u.promptTokens, u.completionTokens, max u.totalTokens u.parts, u.inputTokens,
    u.outputTokens, u.promptCacheHitTokens,
        u.claudeCacheCreation5mTokens, u.claudeCacheCreation1hTokens].any (· ≠ 0) =
      [u.promptTokens, u.completionTokens, u.totalTokens, u.inputTokens, u.outputTokens, u.promptCacheHitTokens,
        u.claudeCacheCreation5mTokens, u.claudeCacheCreation1hTokens].any (· ≠ 0) := by
    unfold Usage.parts
    rw [Bool.eq_iff_iff]
    simp only [any_cons, any_nil, Bool.or_eq_true, decide_eq_true_eq, Bool.false_eq_true, or_false]
    omega
  generalize m.inputTokensDetails = d, m.usageSemantic = semantic, m.usageSource = src, m.cost = cost at hrest hdetails
  subst hrest
  simp only [hasOpenAIUsageTokens, hcounted, hany, hdetails]

end OpenAI

/-! ## Claude -/

section Claude

variable {u v m : ClaudeUsage}

def ClaudeCacheCreationUsage.counts (c : ClaudeCacheCreationUsage) : List Int :=
  [c.ephemeral5mInputTokens, c.ephemeral1hInputTokens]

def ClaudeUsage.counts (u : ClaudeUsage) : List Int :=
  [u.inputTokens, u.outputTokens, u.cacheCreationInputTokens, u.cacheReadInputTokens, u.claudeCacheCreation5mTokens,
      u.claudeCacheCreation1hTokens] ++ (u.cacheCreation.getD {}).counts

def ClaudeUsage.Cumulative (u v : ClaudeUsage) : Prop := Grows u.counts v.counts

/-- The merge so far has the counts of the last snapshot. Its sub-object is the last one that was given; when the last
snapshot has none, it counts nothing. The flat counts may be those of the sub-object. -/
structure ClaudeUsage.Follows (earlier : List ClaudeUsage) (u m : ClaudeUsage) : Prop where
  inputTokens : m.inputTokens = u.inputTokens
  outputTokens : m.outputTokens = u.outputTokens
  cacheCreationInputTokens : m.cacheCreationInputTokens = u.cacheCreationInputTokens
  cacheReadInputTokens : m.cacheReadInputTokens = u.cacheReadInputTokens
  given : ∀ c, u.cacheCreation = some c → m.cacheCreation = some c ∧
    (m.claudeCacheCreation5mTokens = u.claudeCacheCreation5mTokens ∨
      m.claudeCacheCreation5mTokens = c.ephemeral5mInputTokens) ∧
    (m.claudeCacheCreation1hTokens = u.claudeCacheCreation1hTokens ∨
      m.claudeCacheCreation1hTokens = c.ephemeral1hInputTokens)
  missing : u.cacheCreation = none → m.claudeCacheCreation5mTokens = u.claudeCacheCreation5mTokens ∧
    m.claudeCacheCreation1hTokens = u.claudeCacheCreation1hTokens ∧
    m.cacheCreation = if earlier.any (·.cacheCreation.isSome) then some {} else none

/-- After a merge the flat counts are those of the sub-object when there is one. -/
def ClaudeUsage.Synced (u m : ClaudeUsage) : Prop := ∀ c, u.cacheCreation = some c →
  m.claudeCacheCreation5mTokens = c.ephemeral5mInputTokens ∧ m.claudeCacheCreation1hTokens = c.ephemeral1hInputTokens

theorem ClaudeUsage.follows_self (u : ClaudeUsage) : ClaudeUsage.Follows [] u u :=
  ⟨rfl, rfl, rfl, rfl, fun _ hc => ⟨hc, .inl rfl, .inl rfl⟩, fun hnone => ⟨rfl, rfl, hnone⟩⟩

variable {earlier : List ClaudeUsage}

theorem ClaudeUsage.Follows.merge (h : ClaudeUsage.Follows earlier u m) (hc : u.Cumulative v) :
    ClaudeUsage.Follows (earlier ++ [u]) v (mergeClaudeUsage m v) ∧ v.Synced (mergeClaudeUsage m v) := by
  simp only [ClaudeUsage.Cumulative, Grows, ClaudeUsage.counts,
    ClaudeCacheCreationUsage.counts, cons_append, nil_append,
    forall₂_cons] at hc
  obtain ⟨hi, ho, hcreation, hread, hflat5, hflat1, hsub5, hsub1, -⟩ := hc
  have hsynced : v.Synced (mergeClaudeUsage m v) := by
    intro c hgiven
    simp only [mergeClaudeUsage, hgiven, and_self]
  refine ⟨⟨?_, ?_, ?_, ?_, fun c hgiven => ?_, fun hnone => ?_⟩, hsynced⟩
  · rw [mergeClaudeUsage, h.inputTokens, overlay_of_le hi]
  · rw [mergeClaudeUsage, h.outputTokens, overlay_of_le ho]
  · rw [mergeClaudeUsage, h.cacheCreationInputTokens, overlay_of_le hcreation]
  · rw [mergeClaudeUsage, h.cacheReadInputTokens, overlay_of_le hread]
  · exact ⟨by simp only [mergeClaudeUsage, hgiven, some_or], .inr (hsynced c hgiven).1, .inr (hsynced c hgiven).2⟩
  · simp only [mergeClaudeUsage, hnone, none_or, getD_none] at hsub5 hsub1 ⊢
    rw [any_append, any_cons, any_nil, Bool.or_false]
    cases hu : u.cacheCreation with
    | none =>
      obtain ⟨h5, h1, hsub⟩ := h.missing hu
      rw [h5, h1, overlay_of_le hflat5, overlay_of_le hflat1, hsub]
      simp
    | some c =>
      -- its counts have not fallen to nothing, so they were nothing
      obtain ⟨hsub, _, _⟩ := h.given c hu
      rw [hu, getD_some] at hsub5 hsub1
      obtain ⟨c5, c1⟩ := c
      dsimp only at *
      obtain rfl : c5 = 0 := by omega
      obtain rfl : c1 = 0 := by omega
      rw [overlay_of_le (by omega), overlay_of_le (by omega), hsub]
      simp

theorem ClaudeUsage.follows_mergeAll {last : ClaudeUsage} (hearlier : earlier ≠ [])
    (h : (earlier ++ [last]).IsChain ClaudeUsage.Cumulative) :
    ∃ m, mergeAll mergeClaudeUsage (earlier ++ [last]) = some m ∧ last.Cumulative last ∧
      ClaudeUsage.Follows earlier last m ∧ last.Synced m := by
  refine mergeAll_chain (P := fun earlier u m => u.Cumulative u ∧ ClaudeUsage.Follows earlier u m ∧
    u.Synced m) ?_ ?_ hearlier h
  · intro u v hc
    exact ⟨Grows.self hc, (ClaudeUsage.follows_self u).merge hc⟩
  · rintro earlier u v m hc ⟨-, hfollows, -⟩
    exact ⟨Grows.self hc, hfollows.merge hc⟩

/-- A sub-object that the last snapshot leaves out must not hide flat counts, and one that counts nothing must not be
all there is but for flat counts. -/
def ClaudeUsage.Holds (earlier : List ClaudeUsage) (u : ClaudeUsage) : Prop :=
  match u.cacheCreation with
  | none => (∀ x ∈ earlier, x.cacheCreation = none) ∨ u.claudeCacheCreation5mTokens = 0 ∧
      u.claudeCacheCreation1hTokens = 0
  | some c =>
    u.claudeCacheCreation5mTokens = 0 ∧ u.claudeCacheCreation1hTokens = 0 ∨ c ≠ {} ∨
      u.inputTokens ≠ 0 ∨ u.outputTokens ≠ 0 ∨
      u.cacheCreationInputTokens ≠ 0 ∨ u.cacheReadInputTokens ≠ 0

def settleClaude (κ : Type) (u : ClaudeUsage) : Option (Usage κ) :=
  if hasClaudeUsageTokens u then some (canonicalClaudeUsage u) else none

theorem settled_eq_iff {α : Type} {p q : Bool} {x y : α} :
    (if p then some x else none) = (if q then some y else none) ↔ p = q ∧ (q = true → x = y) := by
  cases p <;> cases q <;> simp

variable {κ : Type}

theorem canonicalClaudeUsage_iff (h : ClaudeUsage.Follows earlier u m) :
    (canonicalClaudeUsage m : Usage κ) = canonicalClaudeUsage u ↔
      (m.cacheCreation.map (·.ephemeral5mInputTokens)).getD m.claudeCacheCreation5mTokens =
          (u.cacheCreation.map (·.ephemeral5mInputTokens)).getD u.claudeCacheCreation5mTokens ∧
        (m.cacheCreation.map (·.ephemeral1hInputTokens)).getD m.claudeCacheCreation1hTokens =
          (u.cacheCreation.map (·.ephemeral1hInputTokens)).getD u.claudeCacheCreation1hTokens := by
  simp only [canonicalClaudeUsage, h.inputTokens, h.outputTokens, h.cacheCreationInputTokens, h.cacheReadInputTokens,
    Usage.mk.injEq, true_and, and_true]

theorem settleClaude_iff (h : ClaudeUsage.Follows earlier u m) (hsynced : u.Synced m) :
    settleClaude κ m = settleClaude κ u ↔ ClaudeUsage.Holds earlier u := by
  unfold settleClaude ClaudeUsage.Holds
  rw [settled_eq_iff, canonicalClaudeUsage_iff h]
  unfold hasClaudeUsageTokens
  rw [h.inputTokens, h.outputTokens, h.cacheCreationInputTokens, h.cacheReadInputTokens]
  cases hu : u.cacheCreation with
  | none =>
    obtain ⟨h5, h1, hsub⟩ := h.missing hu
    rw [h5, h1, hsub]
    by_cases hany : earlier.any (·.cacheCreation.isSome)
    · have hnot : ¬∀ x ∈ earlier, x.cacheCreation = none := by
        obtain ⟨x, hx, hsome⟩ := any_eq_true.mp hany
        intro hall
        rw [hall x hx] at hsome
        cases hsome
      rw [if_pos hany, or_iff_right hnot]
      simp only [any_cons, any_nil, any_some, any_none, map_some, map_none, getD_some,
        getD_none, Bool.or_eq_true, decide_eq_true_eq, ne_eq, not_true_eq_false, Bool.or_false, decide_false, true_and]
      omega
    · have hall : ∀ x ∈ earlier, x.cacheCreation = none := by
        intro x hx
        by_contra hsome
        exact hany (any_eq_true.mpr ⟨x, hx, isSome_iff_ne_none.mpr hsome⟩)
      rw [if_neg hany]
      exact iff_of_true ⟨rfl, fun _ => ⟨rfl, rfl⟩⟩ (.inl hall)
  | some c =>
    obtain ⟨hsub, -, -⟩ := h.given c hu
    obtain ⟨h5, h1⟩ := hsynced c hu
    obtain ⟨_, _⟩ := c
    rw [hsub, h5, h1, Bool.eq_iff_iff]
    simp only [any_cons, any_nil, any_some, map_some, getD_some, Bool.or_eq_true, decide_eq_true_eq,
      Bool.false_eq_true, or_false, ne_eq, ClaudeCacheCreationUsage.mk.injEq, and_self, implies_true, and_true]
    omega

end Claude

/-! ## Gemini -/

section Gemini

variable (toUpper : String → String) {u v m : GeminiUsageMetadata}
  {details incoming : List GeminiPromptTokensDetails} {key : String}

/-- What the details count for a modality. -/
def countOf (details : List GeminiPromptTokensDetails) (key : String) : Int :=
  (details.map fun d => if normalizeGeminiModality toUpper d.modality = key then d.tokenCount else 0).sum

theorem countOf_cons (d : GeminiPromptTokensDetails) : countOf toUpper (d :: details) key =
    (if normalizeGeminiModality toUpper d.modality = key then d.tokenCount else 0) + countOf toUpper details key := by
  simp [countOf]

theorem countOf_append :
    countOf toUpper (details ++ incoming) key = countOf toUpper details key + countOf toUpper incoming key := by
  simp [countOf]

theorem countOf_modify {index : Nat} {d : GeminiPromptTokensDetails} (hd : details[index]? = some d) (count : Int) :
    countOf toUpper (details.modify index fun d => { d with tokenCount := d.tokenCount + count }) key =
      countOf toUpper details key + if normalizeGeminiModality toUpper d.modality = key then count else 0 := by
  induction details generalizing index with
  | nil => cases hd
  | cons x l ih =>
    cases index with
    | zero =>
      cases hd
      simp only [countOf, modify_zero_cons, map_cons, sum_cons]
      split_ifs <;> omega
    | succ index =>
      have htail : countOf toUpper (l.modify index fun d => { d with tokenCount := d.tokenCount + count }) key =
        countOf toUpper l key + if normalizeGeminiModality toUpper d.modality = key then count else 0 := ih hd
      simp only [countOf, modify_succ_cons, map_cons, sum_cons] at htail ⊢
      omega

/-- Where a modality is said to stand it does. -/
def Indexed (details : List GeminiPromptTokensDetails) (indexes : String → Option Nat) : Prop :=
  ∀ key index, indexes key = some index → ∃ d, details[index]? = some d ∧
    normalizeGeminiModality toUpper d.modality = key

theorem geminiIndexes_indexed (details : List GeminiPromptTokensDetails) :
    Indexed toUpper details (geminiIndexes toUpper details) := by
  have hloop (l : List (GeminiPromptTokensDetails × Nat)) (indexes : String → Option Nat)
    (hl : ∀ x ∈ l, details[x.2]? = some x.1)
      (h : Indexed toUpper details indexes) : Indexed toUpper details
        (l.foldl (fun indexes d => Function.update indexes (normalizeGeminiModality toUpper d.1.modality)
          (some d.2)) indexes) := by
    induction l generalizing indexes with
    | nil => exact h
    | cons x l ih =>
      refine ih _ (fun y hy => hl y (mem_cons_of_mem _ hy)) fun key index hindex => ?_
      dsimp only at hindex
      by_cases hkey : key = normalizeGeminiModality toUpper x.1.modality
      · subst hkey
        rw [update_self] at hindex
        cases hindex
        exact ⟨x.1, hl x mem_cons_self, rfl⟩
      · rw [update_of_ne hkey] at hindex
        exact h key index hindex
  exact hloop _ _ (fun x hx => by simpa using (mem_zipIdx_iff_getElem?.mp hx)) fun key index hindex => by cases hindex

theorem countOf_merge (hincoming : ∀ d ∈ incoming, 0 ≤ d.tokenCount) :
    countOf toUpper (mergeGeminiTokenDetails toUpper details incoming) key =
      countOf toUpper details key + countOf toUpper incoming key := by
  have hloop (indexes : String → Option Nat) (h : Indexed toUpper details indexes) :
      countOf toUpper (mergeGeminiTokenDetailsLoop toUpper details indexes incoming) key =
        countOf toUpper details key + countOf toUpper incoming key := by
    induction incoming generalizing details indexes with
    | nil => simp [mergeGeminiTokenDetailsLoop, countOf]
    | cons x l ih =>
      have htail := fun d hd => hincoming d (mem_cons_of_mem _ hd)
      unfold mergeGeminiTokenDetailsLoop
      split_ifs with hzero
      · have hcount : x.tokenCount = 0 := le_antisymm hzero (hincoming x mem_cons_self)
        rw [ih htail indexes h, countOf_cons, hcount]
        simp
      · dsimp only
        cases hindex : indexes (normalizeGeminiModality toUpper x.modality) with
        | some =>
          obtain ⟨d, hd, hmodality⟩ := h _ _ hindex
          rw [ih htail, countOf_modify toUpper hd, countOf_cons, hmodality]
          · omega
          · intro key' index' hindex'
            obtain ⟨d', hd', hmodality'⟩ := h key' index' hindex'
            rw [getElem?_modify, hd']
            refine ⟨_, rfl, ?_⟩
            split_ifs <;> exact hmodality'
        | none =>
          rw [ih htail, countOf_append, countOf_cons toUpper x]
          · simp [countOf]
            omega
          · intro key' index' hindex'
            by_cases hkey : key' = normalizeGeminiModality toUpper x.modality
            · subst hkey
              rw [update_self] at hindex'
              cases hindex'
              exact ⟨x, getElem?_concat_length, rfl⟩
            · rw [update_of_ne hkey] at hindex'
              obtain ⟨d', hd', hmodality'⟩ := h key' index' hindex'
              exact ⟨d', by rw [List.getElem?_append_left (List.getElem?_eq_some_iff.mp hd').1, hd'], hmodality'⟩
  exact hloop _ (geminiIndexes_indexed toUpper details)

theorem mergeGeminiTokenDetails_nonneg (hdetails : ∀ d ∈ details, 0 ≤ d.tokenCount) :
    ∀ d ∈ mergeGeminiTokenDetails toUpper details incoming, 0 ≤ d.tokenCount := by
  unfold mergeGeminiTokenDetails
  generalize geminiIndexes toUpper details = indexes
  induction incoming generalizing details indexes with
  | nil => exact hdetails
  | cons x l ih =>
    unfold mergeGeminiTokenDetailsLoop
    split_ifs with hzero
    · exact ih hdetails indexes
    · dsimp only
      split
      · refine ih (fun d hd => ?_) indexes
        obtain ⟨n, hn⟩ := mem_iff_getElem?.mp hd
        rw [getElem?_modify] at hn
        obtain ⟨d', hd', rfl⟩ := map_eq_some_iff.mp hn
        have := hdetails d' (mem_of_getElem? hd')
        split_ifs
        · dsimp only
          omega
        · exact this
      · refine ih (fun d hd => ?_) _
        rcases mem_append.mp hd with hd | hd
        · exact hdetails d hd
        · obtain rfl := mem_singleton.mp hd
          omega

theorem countOf_nonneg (key : String) (h : ∀ d ∈ details, 0 ≤ d.tokenCount) : 0 ≤ countOf toUpper details key := by
  refine sum_nonneg fun x hx => ?_
  obtain ⟨d, hd, rfl⟩ := mem_map.mp hx
  split_ifs
  · exact h d hd
  · exact le_rfl

theorem countOf_flatMap_eq_zero {f : GeminiUsageMetadata → List GeminiPromptTokensDetails}
    {l : List GeminiUsageMetadata}
    (h : ∀ x ∈ l, ∀ d ∈ f x, 0 ≤ d.tokenCount) :
    countOf toUpper (l.flatMap f) key = 0 ↔ ∀ x ∈ l, countOf toUpper (f x) key = 0 := by
  induction l with
  | nil => simp [countOf]
  | cons x l ih =>
    have htail := fun y hy => h y (mem_cons_of_mem _ hy)
    have hx := countOf_nonneg toUpper key (h x mem_cons_self)
    have hl : 0 ≤ countOf toUpper (l.flatMap f) key := by
      refine countOf_nonneg toUpper key fun d hd => ?_
      obtain ⟨y, hy, hd⟩ := mem_flatMap.mp hd
      exact htail y hy d hd
    rw [flatMap_cons, countOf_append, forall_mem_cons, ← ih htail]
    omega

theorem any_tokenCount (h : ∀ d ∈ details, 0 ≤ d.tokenCount) :
    details.any (·.tokenCount ≠ 0) = true ↔ ∃ key, countOf toUpper details key ≠ 0 := by
  constructor
  · intro hany
    obtain ⟨d, hd, hcount⟩ := any_eq_true.mp hany
    refine ⟨normalizeGeminiModality toUpper d.modality, ?_⟩
    obtain ⟨l, r, rfl⟩ := append_of_mem hd
    have hl := countOf_nonneg toUpper (normalizeGeminiModality toUpper d.modality)
      fun x hx => h x (mem_append_left _ hx)
    have hr := countOf_nonneg toUpper (normalizeGeminiModality toUpper d.modality)
      fun x hx => h x (mem_append_right _ (mem_cons_of_mem _ hx))
    have hpos := h d hd
    rw [countOf_append, countOf_cons, if_pos rfl]
    simp only [ne_eq, decide_not, Bool.not_eq_true', decide_eq_false_iff_not] at hcount
    omega
  · rintro ⟨key, hkey⟩
    by_contra hnone
    refine hkey (sum_eq_zero fun x hx => ?_)
    obtain ⟨d, hd, rfl⟩ := mem_map.mp hx
    have hcount : d.tokenCount = 0 := by
      by_contra hne
      exact hnone (any_eq_true.mpr ⟨d, hd, decide_eq_true hne⟩)
    simp [hcount]

/-- No modality counts less later on. -/
structure DetailsGrow (details later : List GeminiPromptTokensDetails) : Prop where
  nonneg : ∀ d ∈ details, 0 ≤ d.tokenCount
  laterNonneg : ∀ d ∈ later, 0 ≤ d.tokenCount
  grows : ∀ key, countOf toUpper details key ≤ countOf toUpper later key

/-- What the details of the snapshots come to together. -/
structure Added (earlier u m : List GeminiPromptTokensDetails) : Prop where
  counted : ∀ key, countOf toUpper m key = countOf toUpper earlier key + countOf toUpper u key
  nonneg : ∀ d ∈ m, 0 ≤ d.tokenCount
  earlierNonneg : ∀ d ∈ earlier, 0 ≤ d.tokenCount
  before : ∀ key, countOf toUpper u key = 0 → countOf toUpper earlier key = 0

variable {toUpper} {before earlier later merged : List GeminiPromptTokensDetails}

theorem DetailsGrow.self (h : DetailsGrow toUpper details later) : DetailsGrow toUpper later later :=
  ⟨h.laterNonneg, h.laterNonneg, fun _ => le_rfl⟩

theorem Added.start (h : DetailsGrow toUpper details later) : Added toUpper [] details details :=
  ⟨fun key => by simp [countOf], h.nonneg, fun d hd => by simp at hd, fun key _ => rfl⟩

theorem Added.merge (h : Added toUpper before details merged) (hgrow : DetailsGrow toUpper details later) :
    Added toUpper (before ++ details) later (mergeGeminiTokenDetails toUpper merged later) where
  counted key := by rw [countOf_merge toUpper hgrow.laterNonneg, h.counted, countOf_append]
  nonneg := mergeGeminiTokenDetails_nonneg toUpper h.nonneg
  earlierNonneg d hd := (mem_append.mp hd).elim (h.earlierNonneg d) (hgrow.nonneg d)
  before key hzero := by
    have hle := hgrow.grows key
    have hdetails := countOf_nonneg toUpper key hgrow.nonneg
    have hthis : countOf toUpper details key = 0 := by omega
    rw [countOf_append, hthis, h.before key hthis, add_zero]

theorem Added.append {before' details' merged' : List GeminiPromptTokensDetails}
    (h : Added toUpper before details merged)
    (hdetails : ∀ d ∈ details, 0 ≤ d.tokenCount) (h' : Added toUpper before' details' merged')
    (hdetails' : ∀ d ∈ details', 0 ≤ d.tokenCount) :
    Added toUpper (before ++ before') (details ++ details') (merged ++ merged') where
  counted key := by
    rw [countOf_append, countOf_append, countOf_append, h.counted, h'.counted]
    omega
  nonneg d hd := (mem_append.mp hd).elim (h.nonneg d) (h'.nonneg d)
  earlierNonneg d hd := (mem_append.mp hd).elim (h.earlierNonneg d) (h'.earlierNonneg d)
  before key hzero := by
    have hleft := countOf_nonneg toUpper key hdetails
    have hright := countOf_nonneg toUpper key hdetails'
    rw [countOf_append] at hzero ⊢
    rw [h.before key (by omega), h'.before key (by omega), add_zero]

theorem Added.nonneg_pair (h : Added toUpper before details merged) (key : String)
    (hdetails : ∀ d ∈ details, 0 ≤ d.tokenCount) :
    0 ≤ countOf toUpper details key ∧ 0 ≤ countOf toUpper before key ∧
      (countOf toUpper details key = 0 → countOf toUpper before key = 0) :=
  ⟨countOf_nonneg toUpper key hdetails, countOf_nonneg toUpper key h.earlierNonneg, h.before key⟩

theorem Added.any_eq (h : Added toUpper earlier details merged) (hdetails : ∀ d ∈ details, 0 ≤ d.tokenCount) :
    merged.any (·.tokenCount ≠ 0) = details.any (·.tokenCount ≠ 0) := by
  rw [Bool.eq_iff_iff, any_tokenCount toUpper h.nonneg, any_tokenCount toUpper hdetails]
  refine exists_congr fun key => ?_
  have hcounted := h.counted key
  have hbefore := h.before key
  have hearlier := countOf_nonneg toUpper key h.earlierNonneg
  have hthis := countOf_nonneg toUpper key hdetails
  omega

def GeminiUsageMetadata.counts (u : GeminiUsageMetadata) : List Int :=
  [u.promptTokenCount, u.toolUsePromptTokenCount, u.candidatesTokenCount, u.totalTokenCount, u.thoughtsTokenCount,
    u.cachedContentTokenCount]

variable (toUpper) in
/-- No count falls, in no modality. -/
structure GeminiUsageMetadata.Cumulative (u v : GeminiUsageMetadata) : Prop where
  counts : Grows u.counts v.counts
  promptTokensDetails : DetailsGrow toUpper u.promptTokensDetails v.promptTokensDetails
  toolUsePromptTokensDetails : DetailsGrow toUpper u.toolUsePromptTokensDetails v.toolUsePromptTokensDetails
  candidatesTokensDetails : DetailsGrow toUpper u.candidatesTokensDetails v.candidatesTokensDetails

def GeminiUsageMetadata.parts (u : GeminiUsageMetadata) : Int :=
  u.promptTokenCount + u.toolUsePromptTokenCount + u.candidatesTokenCount + u.thoughtsTokenCount

variable (toUpper) in
/-- The merge so far has the counts of the last snapshot, but for its total, and the details of all of them. -/
structure GeminiUsageMetadata.Follows (earlier : List GeminiUsageMetadata) (u m : GeminiUsageMetadata) (total : Int) :
    Prop where
  rest : m = { u with
    totalTokenCount := total
    promptTokensDetails := m.promptTokensDetails
    toolUsePromptTokensDetails := m.toolUsePromptTokensDetails
    candidatesTokensDetails := m.candidatesTokensDetails }
  promptTokensDetails :
    Added toUpper (earlier.flatMap (·.promptTokensDetails)) u.promptTokensDetails m.promptTokensDetails
  toolUsePromptTokensDetails :
    Added toUpper (earlier.flatMap (·.toolUsePromptTokensDetails)) u.toolUsePromptTokensDetails
      m.toolUsePromptTokensDetails
  candidatesTokensDetails :
    Added toUpper (earlier.flatMap (·.candidatesTokensDetails)) u.candidatesTokensDetails m.candidatesTokensDetails

theorem GeminiUsageMetadata.Cumulative.self (h : u.Cumulative toUpper v) : v.Cumulative toUpper v :=
  ⟨h.counts.self, h.promptTokensDetails.self, h.toolUsePromptTokensDetails.self, h.candidatesTokensDetails.self⟩

theorem GeminiUsageMetadata.Follows.merge {earlier : List GeminiUsageMetadata} {total : Int}
    (h : u.Follows toUpper earlier m total)
    (htotal : total ≤ max u.totalTokenCount u.parts) (hc : u.Cumulative toUpper v) :
    v.Follows toUpper (earlier ++ [u]) (mergeGeminiUsageMetadata toUpper m v) (max v.totalTokenCount v.parts) := by
  obtain ⟨hrest, hprompt, htool, hcandidates⟩ := h
  have hcounts := hc.counts
  simp only [Grows, GeminiUsageMetadata.counts, forall₂_cons] at hcounts
  obtain ⟨hp, ht, hcand, _, hth, hcached, -⟩ := hcounts
  refine ⟨?_, ?_, ?_, ?_⟩
  · generalize m.promptTokensDetails = d, m.toolUsePromptTokensDetails = d', m.candidatesTokensDetails = d'' at hrest
    subst hrest
    have hthoughts : (if 0 < v.candidatesTokenCount then v.thoughtsTokenCount else
        overlay u.thoughtsTokenCount v.thoughtsTokenCount) = v.thoughtsTokenCount := by
      rw [overlay_of_le hth, ite_self]
    have hraised : raiseTotal (overlay total v.totalTokenCount)
        [v.promptTokenCount + v.toolUsePromptTokenCount + v.candidatesTokenCount + v.thoughtsTokenCount] =
          max v.totalTokenCount v.parts := by
      simp only [raiseTotal, foldl_cons, foldl_nil]
      unfold GeminiUsageMetadata.parts overlay at *
      split_ifs <;> omega
    simp only [mergeGeminiUsageMetadata, overlay_of_le hp, overlay_of_le ht, overlay_of_le hcand,
      overlay_of_le hcached, hthoughts,
      hraised]
  · simpa [mergeGeminiUsageMetadata] using hprompt.merge hc.promptTokensDetails
  · simpa [mergeGeminiUsageMetadata] using htool.merge hc.toolUsePromptTokensDetails
  · simpa [mergeGeminiUsageMetadata] using hcandidates.merge hc.candidatesTokensDetails

theorem GeminiUsageMetadata.follows_start (hc : u.Cumulative toUpper v) :
    v.Follows toUpper [u] (mergeGeminiUsageMetadata toUpper u v) (max v.totalTokenCount v.parts) := by
  have hself : u.Follows toUpper [] u u.totalTokenCount :=
    ⟨rfl, Added.start hc.promptTokensDetails, Added.start hc.toolUsePromptTokensDetails,
      Added.start hc.candidatesTokensDetails⟩
  exact hself.merge (le_max_left _ _) hc

theorem GeminiUsageMetadata.follows_mergeAll {earlier : List GeminiUsageMetadata} {last : GeminiUsageMetadata}
    (hearlier : earlier ≠ []) (h : (earlier ++ [last]).IsChain (GeminiUsageMetadata.Cumulative toUpper)) :
    ∃ m, mergeAll (mergeGeminiUsageMetadata toUpper) (earlier ++ [last]) = some m ∧ last.Cumulative toUpper last ∧
      last.Follows toUpper earlier m (max last.totalTokenCount last.parts) := by
  refine mergeAll_chain (P := fun earlier u m => u.Cumulative toUpper u ∧
    u.Follows toUpper earlier m (max u.totalTokenCount u.parts)) ?_ ?_ hearlier h
  · intro u v hc
    exact ⟨hc.self, GeminiUsageMetadata.follows_start hc⟩
  · rintro earlier u v m hc ⟨-, hfollows⟩
    exact ⟨hc.self, hfollows.merge le_rfl hc⟩

theorem hasGeminiUsageMetadataTokens_follows {earlier : List GeminiUsageMetadata}
    (h : u.Follows toUpper earlier m (max u.totalTokenCount u.parts)) (hc : u.Cumulative toUpper u) :
    hasGeminiUsageMetadataTokens m = hasGeminiUsageMetadataTokens u := by
  obtain ⟨hrest, hprompt, htool, hcandidates⟩ := h
  have hcounts := hc.counts
  simp only [Grows, GeminiUsageMetadata.counts, forall₂_cons] at hcounts
  obtain ⟨_, _, _, _, _, -⟩ := hcounts
  have hcounted : [u.promptTokenCount, u.toolUsePromptTokenCount, u.candidatesTokenCount, max u.totalTokenCount u.parts,
        u.thoughtsTokenCount, u.cachedContentTokenCount].any (· ≠ 0) =
      [u.promptTokenCount, u.toolUsePromptTokenCount, u.candidatesTokenCount, u.totalTokenCount, u.thoughtsTokenCount,
        u.cachedContentTokenCount].any (· ≠ 0) := by
    unfold GeminiUsageMetadata.parts
    rw [Bool.eq_iff_iff]
    simp only [any_cons, any_nil, Bool.or_eq_true, decide_eq_true_eq, Bool.false_eq_true, or_false]
    omega
  unfold hasGeminiUsageMetadataTokens
  simp only [any_append, hprompt.any_eq hc.promptTokensDetails.nonneg,
    htool.any_eq hc.toolUsePromptTokensDetails.nonneg,
    hcandidates.any_eq hc.candidatesTokensDetails.nonneg]
  rw [hrest, hcounted]

theorem foldl_addGeminiInputTokenDetail (l : List GeminiPromptTokensDetails) (start : InputTokenDetails) :
    l.foldl (addGeminiInputTokenDetail toUpper) start = { start with
      audioTokens := start.audioTokens + countOf toUpper l "AUDIO"
      imageTokens := start.imageTokens + countOf toUpper l "IMAGE"
      textTokens := start.textTokens + countOf toUpper l "TEXT" } := by
  induction l generalizing start with
  | nil => simp [countOf]
  | cons d l ih =>
    rw [foldl_cons, ih]
    simp only [countOf_cons]
    unfold addGeminiInputTokenDetail
    split_ifs <;> simp_all [add_assoc]

theorem foldl_addGeminiOutputTokenDetail (l : List GeminiPromptTokensDetails) (start : OutputTokenDetails) :
    l.foldl (addGeminiOutputTokenDetail toUpper) start = { start with
      audioTokens := start.audioTokens + countOf toUpper l "AUDIO"
      imageTokens := start.imageTokens + countOf toUpper l "IMAGE"
      textTokens := start.textTokens + countOf toUpper l "TEXT" } := by
  induction l generalizing start with
  | nil => simp [countOf]
  | cons d l ih =>
    rw [foldl_cons, ih]
    simp only [countOf_cons]
    unfold addGeminiOutputTokenDetail
    split_ifs <;> simp_all [add_assoc]

variable (toUpper) in
/-- Nothing is counted for the modalities that are billed. -/
def GeminiUsageMetadata.Bare (x : GeminiUsageMetadata) : Prop := ∀ key ∈ ["AUDIO", "IMAGE", "TEXT"],
  countOf toUpper x.promptTokensDetails key = 0 ∧ countOf toUpper x.toolUsePromptTokensDetails key = 0 ∧
    countOf toUpper x.candidatesTokensDetails key = 0

variable (toUpper) in
/-- The total is not below the parts, if it is given, and no snapshot before the last one has details that are billed.
-/
def GeminiUsageMetadata.Holds (earlier : List GeminiUsageMetadata) (u : GeminiUsageMetadata) : Prop :=
  (u.parts ≤ u.totalTokenCount ∨ u.totalTokenCount = 0) ∧ ∀ x ∈ earlier, x.Bare toUpper

variable (toUpper) in
def settleGemini (κ : Type) (m : GeminiUsageMetadata) : Option (Usage κ) :=
  if hasGeminiUsageMetadataTokens m then some (canonicalGeminiUsage toUpper m) else none

/-- The details of the earlier snapshots count nothing for the modality. -/
def Silent (toUpper : String → String) (earlier : List GeminiUsageMetadata) (key : String) : Prop :=
  countOf toUpper (earlier.flatMap (·.promptTokensDetails)) key = 0 ∧
    countOf toUpper (earlier.flatMap (·.toolUsePromptTokensDetails)) key = 0 ∧
    countOf toUpper (earlier.flatMap (·.candidatesTokensDetails)) key = 0

theorem GeminiUsageMetadata.Follows.bare_iff {earlier : List GeminiUsageMetadata} {total : Int}
    (h : u.Follows toUpper earlier m total) :
    (∀ x ∈ earlier, x.Bare toUpper) ↔ ∀ key ∈ ["AUDIO", "IMAGE", "TEXT"], Silent toUpper earlier key := by
  have hall {f : GeminiUsageMetadata → List GeminiPromptTokensDetails}
    (hf : ∀ d ∈ earlier.flatMap f, 0 ≤ d.tokenCount) :
      ∀ x ∈ earlier, ∀ d ∈ f x, 0 ≤ d.tokenCount := fun x hx d hd => hf d (mem_flatMap.mpr ⟨x, hx, hd⟩)
  unfold Silent
  simp only [countOf_flatMap_eq_zero toUpper (hall h.promptTokensDetails.earlierNonneg),
    countOf_flatMap_eq_zero toUpper (hall h.toolUsePromptTokensDetails.earlierNonneg),
    countOf_flatMap_eq_zero toUpper (hall h.candidatesTokensDetails.earlierNonneg)]
  exact ⟨fun hbare key hkey => ⟨fun x hx => (hbare x hx key hkey).1, fun x hx => (hbare x hx key hkey).2.1,
      fun x hx => (hbare x hx key hkey).2.2⟩,
    fun hsilent x hx key hkey => ⟨(hsilent key hkey).1 x hx, (hsilent key hkey).2.1 x hx, (hsilent key hkey).2.2 x hx⟩⟩

/-- What is left out for a prompt is its text; that does not hide what was added. -/
theorem textDefault_iff (prompt cached i i' : Int) {a t a' t' : Int} (ha : 0 ≤ a ∧ 0 ≤ a' ∧ (a = 0 → a' = 0))
    (ht : 0 ≤ t ∧ 0 ≤ t' ∧ (t = 0 → t' = 0)) :
    (if 0 < prompt ∧ t' + t = 0 ∧ a' + a = 0 then
        ({ cachedTokens := cached, textTokens := prompt, audioTokens := a' + a, imageTokens := i' + i } :
          InputTokenDetails)
      else { cachedTokens := cached, textTokens := t' + t, audioTokens := a' + a, imageTokens := i' + i }) =
      (if 0 < prompt ∧ t = 0 ∧ a = 0 then
        { cachedTokens := cached, textTokens := prompt, audioTokens := a, imageTokens := i }
      else { cachedTokens := cached, textTokens := t, audioTokens := a, imageTokens := i }) ↔
      a' = 0 ∧ i' = 0 ∧ t' = 0 := by
  split_ifs <;> simp only [InputTokenDetails.mk.injEq, true_and] <;> omega

theorem canonicalGeminiUsage_iff {κ : Type} {earlier : List GeminiUsageMetadata}
    (h : u.Follows toUpper earlier m (max u.totalTokenCount u.parts)) (hc : u.Cumulative toUpper u) :
    (canonicalGeminiUsage toUpper m : Usage κ) = canonicalGeminiUsage toUpper u ↔ u.Holds toUpper earlier := by
  unfold GeminiUsageMetadata.Holds
  rw [h.bare_iff]
  obtain ⟨hrest, hprompt, htool, hout⟩ := h
  have hin := hprompt.append hc.promptTokensDetails.nonneg htool hc.toolUsePromptTokensDetails.nonneg
  have hcounts := hc.counts
  simp only [Grows, GeminiUsageMetadata.counts, forall₂_cons] at hcounts
  obtain ⟨_, _, _, _, _, -⟩ := hcounts
  have hsilent (key : String) : Silent toUpper earlier key ↔
      countOf toUpper (earlier.flatMap (·.promptTokensDetails) ++ earlier.flatMap
        (·.toolUsePromptTokensDetails)) key = 0 ∧
        countOf toUpper (earlier.flatMap (·.candidatesTokensDetails)) key = 0 := by
    have h₁ := countOf_nonneg toUpper key hprompt.earlierNonneg
    have h2 := countOf_nonneg toUpper key htool.earlierNonneg
    rw [countOf_append]
    unfold Silent
    omega
  simp only [forall_mem_cons, not_mem_nil, false_implies, implies_true, and_true, hsilent]
  have hnonneg (key : String) := hin.nonneg_pair key (by
    intro d hd
    exact (mem_append.mp hd).elim (hc.promptTokensDetails.nonneg d) (hc.toolUsePromptTokensDetails.nonneg d))
  have hdetails := textDefault_iff (u.promptTokenCount + u.toolUsePromptTokenCount) u.cachedContentTokenCount
    (countOf toUpper (u.promptTokensDetails ++ u.toolUsePromptTokensDetails) "IMAGE")
    (countOf toUpper (earlier.flatMap (·.promptTokensDetails) ++ earlier.flatMap
      (·.toolUsePromptTokensDetails)) "IMAGE")
    (hnonneg "AUDIO") (hnonneg "TEXT")
  have htotals : (if max u.totalTokenCount u.parts ≠ 0 ∧ u.candidatesTokenCount + u.thoughtsTokenCount ≤ 0 then
        max (max u.totalTokenCount u.parts - (u.promptTokenCount + u.toolUsePromptTokenCount)) 0
        else u.candidatesTokenCount + u.thoughtsTokenCount) =
      (if u.totalTokenCount ≠ 0 ∧ u.candidatesTokenCount + u.thoughtsTokenCount ≤ 0 then
        max (u.totalTokenCount - (u.promptTokenCount + u.toolUsePromptTokenCount)) 0
        else u.candidatesTokenCount + u.thoughtsTokenCount) ∧
      (if max u.totalTokenCount u.parts = 0 then
        u.promptTokenCount + u.toolUsePromptTokenCount + (u.candidatesTokenCount + u.thoughtsTokenCount)
        else max u.totalTokenCount u.parts) =
      (if u.totalTokenCount = 0 then
        u.promptTokenCount + u.toolUsePromptTokenCount + (u.candidatesTokenCount + u.thoughtsTokenCount)
        else u.totalTokenCount) ↔ u.parts ≤ u.totalTokenCount ∨ u.totalTokenCount = 0 := by
    unfold GeminiUsageMetadata.parts
    split_ifs <;> omega
  have hmerged : (canonicalGeminiUsage toUpper m : Usage κ) = canonicalGeminiUsage toUpper { u with
      totalTokenCount := max u.totalTokenCount u.parts
      promptTokensDetails := m.promptTokensDetails
      toolUsePromptTokensDetails := m.toolUsePromptTokensDetails
      candidatesTokensDetails := m.candidatesTokensDetails } := by
    rw [← hrest]
  rw [hmerged]
  simp only [canonicalGeminiUsage, foldl_addGeminiInputTokenDetail, foldl_addGeminiOutputTokenDetail, hin.counted,
    hout.counted, Usage.mk.injEq, true_and, and_true, zero_add, hdetails, OutputTokenDetails.mk.injEq, add_eq_right,
    ← htotals]
  tauto

theorem settleGemini_iff {κ : Type} {earlier : List GeminiUsageMetadata}
    (h : u.Follows toUpper earlier m (max u.totalTokenCount u.parts)) (hc : u.Cumulative toUpper u) :
    settleGemini toUpper κ m = settleGemini toUpper κ u ↔
    (hasGeminiUsageMetadataTokens u → u.Holds toUpper earlier) := by
  unfold settleGemini
  rw [settled_eq_iff, hasGeminiUsageMetadataTokens_follows h hc, canonicalGeminiUsage_iff h hc]
  exact and_iff_right rfl

end Gemini

/-! ## Remembered snapshots -/

section Remembered

variable {κ X : Type} {toUpper : String → String}

def openAIBilling (source : String) (estimated : Bool) (u : Usage κ) : BillingUsage κ where
  source
  semantic := BillingUsageSemanticOpenAI
  estimated
  openAIUsage := some u

def claudeBilling (κ : Type) (estimated : Bool) (u : ClaudeUsage) : BillingUsage κ where
  source := BillingUsageSourceClaudeMessages
  semantic := BillingUsageSemanticAnthropic
  estimated
  claudeUsage := some u

def geminiBilling (κ : Type) (estimated : Bool) (u : GeminiUsageMetadata) : BillingUsage κ where
  source := BillingUsageSourceGeminiChat
  semantic := BillingUsageSemanticGemini
  estimated
  geminiUsageMetadata := some u

theorem canonicalUsage_openAIBilling (source : String) (e : Bool) (u : Usage κ) :
    (openAIBilling source e u).canonicalUsage toUpper =
      if hasOpenAIUsageTokens u then some (canonicalOpenAIUsage source u) else none := by
  have hsemantic : equalFold (trimSpace BillingUsageSemanticOpenAI) BillingUsageSemanticOpenAI = true := by decide
  simp [BillingUsage.canonicalUsage, openAIBilling, hsemantic, Option.filter]

theorem canonicalUsage_claudeBilling (e : Bool) (u : ClaudeUsage) :
    (claudeBilling κ e u).canonicalUsage toUpper = settleClaude κ u := by
  have hsemantic : equalFold (trimSpace BillingUsageSemanticAnthropic) BillingUsageSemanticAnthropic = true := by decide
  simp [BillingUsage.canonicalUsage, claudeBilling, settleClaude, hsemantic, Option.filter]

theorem canonicalUsage_geminiBilling (e : Bool) (u : GeminiUsageMetadata) :
    (geminiBilling κ e u).canonicalUsage toUpper = settleGemini toUpper κ u := by
  have hsemantic : equalFold (trimSpace BillingUsageSemanticGemini) BillingUsageSemanticGemini = true := by decide
  simp [BillingUsage.canonicalUsage, geminiBilling, settleGemini, hsemantic, Option.filter]

/-- The reports carry the snapshots, in their order; a report may carry none. -/
def Carries (billing : Bool → X → BillingUsage κ) (reports : List (ReportedUsage κ)) (snapshots : List X) : Prop :=
  List.Forall₂ (fun b x => ∃ estimated, b = billing estimated x) (reports.filterMap (·.billingUsage)) snapshots

variable [Zero κ] [DecidableEq κ] {reports : List (ReportedUsage κ)}

variable (toUpper) in
def rememberAll (reports : List (ReportedUsage κ)) : Option (ReportedUsage κ) :=
  reports.foldl (fun remembered usage => rememberUsage toUpper remembered (some usage)) none

variable (toUpper) in
def settled (reports : List (ReportedUsage κ)) : Option (Usage κ) :=
  ((rememberAll toUpper reports).bind (·.billingUsage)).bind (·.canonicalUsage toUpper)

theorem equalFold_self (s : String) : equalFold s s = true := decide_eq_true rfl

theorem merge_openAIBilling (source : String) (e e' : Bool) (u v : Usage κ) :
    mergeBillingUsage toUpper (some (openAIBilling source e u)) (openAIBilling source e' v) =
      openAIBilling source (e || e') (mergeUsage u v) := by
  have hsame : sameBillingUsageDialect (openAIBilling source e u) (openAIBilling source e' v) = true := by
    simp [sameBillingUsageDialect, openAIBilling, equalFold_self]
  have hsource : (if (openAIBilling source e' v).source ≠ "" then (openAIBilling source e' v).source
    else (openAIBilling source e u).source) = source := ite_self source
  simp only [mergeBillingUsage, hsame, hsource, not_true_eq_false, if_false]
  rfl

theorem merge_claudeBilling (e e' : Bool) (u v : ClaudeUsage) :
    mergeBillingUsage toUpper (some (claudeBilling κ e u)) (claudeBilling κ e' v) =
      claudeBilling κ (e || e') (mergeClaudeUsage u v) := by
  have hsame : sameBillingUsageDialect (claudeBilling κ e u) (claudeBilling κ e' v) = true := by
    simp [sameBillingUsageDialect, claudeBilling, equalFold_self]
  simp only [mergeBillingUsage, hsame, not_true_eq_false, if_false]
  rfl

theorem merge_geminiBilling (e e' : Bool) (u v : GeminiUsageMetadata) :
    mergeBillingUsage toUpper (some (geminiBilling κ e u)) (geminiBilling κ e' v) =
      geminiBilling κ (e || e') (mergeGeminiUsageMetadata toUpper u v) := by
  have hsame : sameBillingUsageDialect (geminiBilling κ e u) (geminiBilling κ e' v) = true := by
    simp [sameBillingUsageDialect, geminiBilling, equalFold_self]
  simp only [mergeBillingUsage, hsame, not_true_eq_false, if_false]
  rfl

variable (toUpper) in
theorem rememberUsage_billingUsage (r : Option (ReportedUsage κ)) (u : ReportedUsage κ) :
    (rememberUsage toUpper r (some u)).bind (·.billingUsage) =
      match u.billingUsage with
      | some b => some (mergeBillingUsage toUpper (r.bind (·.billingUsage)) b) | none => r.bind (·.billingUsage) := by
  cases r <;> cases hu : u.billingUsage <;> simp [rememberUsage, mergeReportedUsage, hu]

variable {billing : Bool → X → BillingUsage κ} {merge : X → X → X} {snapshots : List X} {m : X}

/-- Where merging the carriers merges what they carry, the carrier that is remembered goes on as its snapshot does. -/
theorem rememberUsage_carries
    (hmerge : ∀ e e' x y, mergeBillingUsage toUpper (some (billing e x)) (billing e' y) = billing (e || e') (merge x y))
    (h : Carries billing reports snapshots) (r : Option (ReportedUsage κ)) (o : Option X)
    (hro : o = none ∧ r.bind (·.billingUsage) = none ∨ ∃ x e, o = some x ∧ r.bind (·.billingUsage) = some (billing e x))
    (hm : snapshots.foldl (fun m u => some ((m.map fun m => merge m u).getD u)) o = some m) :
    ∃ estimated, (reports.foldl (fun remembered usage => rememberUsage toUpper remembered (some usage)) r).bind
      (·.billingUsage) = some (billing estimated m) := by
  unfold Carries at h
  induction reports generalizing snapshots r o with
  | nil =>
    cases h
    obtain ⟨ho, -⟩ | ⟨x, e, ho, hr⟩ := hro
    · rw [ho] at hm
      cases hm
    · rw [ho] at hm
      cases hm
      exact ⟨e, hr⟩
  | cons u _ ih =>
    have hu := rememberUsage_billingUsage toUpper r u
    cases hb : u.billingUsage with
    | none =>
      rw [filterMap_cons_none hb] at h
      rw [hb] at hu
      exact ih h _ o (by rwa [hu]) hm
    | some =>
      rw [filterMap_cons_some hb] at h
      rw [hb] at hu
      cases h with
      | cons hx h =>
        obtain ⟨e', rfl⟩ := hx
        refine ih h _ _ (.inr ?_) hm
        obtain ⟨ho, hr⟩ | ⟨x, e, ho, hr⟩ := hro
        · refine ⟨_, e', rfl, ?_⟩
          rw [hu, hr, ho]
          rfl
        · refine ⟨_, e || e', rfl, ?_⟩
          rw [hu, hr, ho]
          exact congrArg some (hmerge _ _ _ _)

theorem rememberAll_carries
    (hmerge : ∀ e e' x y, mergeBillingUsage toUpper (some (billing e x)) (billing e' y) = billing (e || e') (merge x y))
    (h : Carries billing reports snapshots) (hm : mergeAll merge snapshots = some m) :
    ∃ estimated, (rememberAll toUpper reports).bind (·.billingUsage) = some (billing estimated m) :=
  rememberUsage_carries hmerge h none none (.inl ⟨rfl, rfl⟩) hm

variable {settle : X → Option (Usage κ)}

theorem settled_eq
    (hmerge : ∀ e e' x y, mergeBillingUsage toUpper (some (billing e x)) (billing e' y) = billing (e || e') (merge x y))
    (h : Carries billing reports snapshots) (hm : mergeAll merge snapshots = some m)
    (hsettle : ∀ e x, (billing e x).canonicalUsage toUpper = settle x) : settled toUpper reports = settle m := by
  obtain ⟨e, he⟩ := rememberAll_carries hmerge h hm
  rw [settled, he]
  exact hsettle e m

/-- The total covers the parts, and the last snapshot has the output details of the first. -/
def Usage.Holds (earlier : List (Usage κ)) (last : Usage κ) : Prop :=
  last.TotalCovers ∧ ∀ first, earlier.head? = some first →
    first.outputTokensDetails.getD {} = last.outputTokensDetails.getD {}

/-- What is settled is compared as `f` sees it. A single snapshot is settled as it is. -/
theorem settled_iff
    (hmerge : ∀ e e' x y, mergeBillingUsage toUpper (some (billing e x)) (billing e' y) = billing (e || e')
      (merge x y)) (hsettle : ∀ e x, (billing e x).canonicalUsage toUpper = settle x) {earlier : List X}
    {last : X} (h : Carries billing reports (earlier ++ [last])) {Y : Type} (f : Option (Usage κ) → Y) {P : Prop}
    (hmerged : earlier ≠ [] → ∃ m, mergeAll merge (earlier ++ [last]) = some m ∧ (f (settle m) = f (settle last) ↔ P)) :
    f (settled toUpper reports) = f ((billing false last).canonicalUsage toUpper) ↔ earlier = [] ∨ P := by
  rw [hsettle]
  by_cases hnil : earlier = []
  · subst hnil
    rw [settled_eq hmerge h rfl hsettle]
    exact iff_of_true rfl (.inl rfl)
  · obtain ⟨m, hm, hiff⟩ := hmerged hnil
    rw [settled_eq hmerge h hm hsettle, hiff, or_iff_right hnil]

/-- What is settled for the snapshots of a stream is what the last one alone comes to, in each dialect just when the
condition of that dialect holds. -/
theorem merged_usage_iff (toUpper : String → String) (reports : List (ReportedUsage κ)) :
    (∀ source earlier last, Carries (openAIBilling source) reports (earlier ++ [last]) →
      (earlier ++ [last]).IsChain Usage.Cumulative →
      ((settled toUpper reports).map Usage.nilIsZero =
          ((openAIBilling source false last).canonicalUsage toUpper).map Usage.nilIsZero ↔
        earlier = [] ∨ (hasOpenAIUsageTokens last → Usage.Holds earlier last))) ∧
    (∀ earlier last, Carries (claudeBilling κ) reports (earlier ++ [last]) →
      (earlier ++ [last]).IsChain ClaudeUsage.Cumulative →
      (settled toUpper reports = (claudeBilling κ false last).canonicalUsage toUpper ↔
        earlier = [] ∨ ClaudeUsage.Holds earlier last)) ∧
    ∀ earlier last, Carries (geminiBilling κ) reports (earlier ++ [last]) →
      (earlier ++ [last]).IsChain (GeminiUsageMetadata.Cumulative toUpper) →
      (settled toUpper reports = (geminiBilling κ false last).canonicalUsage toUpper ↔
        earlier = [] ∨ (hasGeminiUsageMetadataTokens last → last.Holds toUpper earlier)) := by
  refine ⟨fun source earlier last hcarries hchain => ?_, fun earlier last hcarries hchain => ?_,
    fun earlier last hcarries hchain => ?_⟩
  · refine settled_iff (merge_openAIBilling source) (canonicalUsage_openAIBilling source) hcarries
      (·.map Usage.nilIsZero)
      fun hnil => ?_
    obtain ⟨m, hm, hlast, _, hfirst, hfollows⟩ := Usage.follows_mergeAll hnil hchain
    refine ⟨m, hm, ?_⟩
    rw [hasOpenAIUsageTokens_follows hfollows hlast]
    cases hasOpenAIUsageTokens last with
    | false => simp
    | true =>
      simp only [if_true, map_some, Option.some.injEq, canonicalOpenAIUsage_iff hfollows hlast,
        true_implies, Usage.Holds, hfirst,
        forall_eq']
  · refine settled_iff merge_claudeBilling canonicalUsage_claudeBilling hcarries id fun hnil => ?_
    obtain ⟨m, hm, -, hfollows, hsynced⟩ := ClaudeUsage.follows_mergeAll hnil hchain
    exact ⟨m, hm, settleClaude_iff hfollows hsynced⟩
  · refine settled_iff merge_geminiBilling canonicalUsage_geminiBilling hcarries id fun hnil => ?_
    obtain ⟨m, hm, hlast, hfollows⟩ := GeminiUsageMetadata.follows_mergeAll hnil hchain
    exact ⟨m, hm, settleGemini_iff hfollows hlast⟩

end Remembered

section Examples

/-- `strings.ToUpper` on ASCII. -/
def upper (s : String) : String := String.ofList (s.toList.map Char.toUpper)

def reportsOf {X : Type} (billing : Bool → X → BillingUsage Int) (l : List X) : List (ReportedUsage Int) :=
  l.map fun x => { billingUsage := some (billing false x) }

theorem carries_reportsOf {X : Type} {billing : Bool → X → BillingUsage Int} {l : List X} :
    Carries billing (reportsOf billing l) l := by
  induction l with
  | nil => exact .nil
  | cons x l ih => exact .cons ⟨false, rfl⟩ ih

def chatUsage (completionTokens : Int) : Usage Int :=
  { promptTokens := 5, completionTokens, totalTokens := 5 + completionTokens }

def claudeUsage (outputTokens : Int) : ClaudeUsage := { inputTokens := 5, outputTokens }

def geminiUsage (candidatesTokenCount : Int) : GeminiUsageMetadata :=
  { promptTokenCount := 5, candidatesTokenCount, totalTokenCount := 5 + candidatesTokenCount }

theorem chain_pair {X : Type} {R : X → X → Prop} {x y : X} (h : R x y) :
    ([x] ++ [y]).IsChain R := .cons_cons h (.singleton y)

/-- Two snapshots of each dialect, the second one larger. -/
theorem merged_usage_iff_twoSnapshots :
    (settled upper (reportsOf (openAIBilling BillingUsageSourceOAIChat) [chatUsage 1, chatUsage 3])).map
    Usage.nilIsZero =
        ((openAIBilling BillingUsageSourceOAIChat false (chatUsage 3)).canonicalUsage upper).map Usage.nilIsZero ∧
      settled upper (reportsOf (claudeBilling Int) [claudeUsage 1, claudeUsage 3]) =
        (claudeBilling Int false (claudeUsage 3)).canonicalUsage upper ∧
      settled upper (reportsOf (geminiBilling Int) [geminiUsage 1, geminiUsage 3]) =
        (geminiBilling Int false (geminiUsage 3)).canonicalUsage upper := by
  have hnil : DetailsGrow upper [] [] := ⟨nofun, nofun, fun _ => le_rfl⟩
  refine ⟨((merged_usage_iff upper _).1 _ [chatUsage 1] (chatUsage 3) carries_reportsOf
    (chain_pair ⟨?_, ?_, ?_, ?_⟩)).mpr
      (.inr fun _ => ⟨.inl ?_, ?_⟩),
    ((merged_usage_iff upper _).2.1 [claudeUsage 1] (claudeUsage 3) carries_reportsOf (chain_pair ?_)).mpr
    (.inr (.inl ?_)),
    ((merged_usage_iff upper _).2.2 [geminiUsage 1] (geminiUsage 3) carries_reportsOf
      (chain_pair ⟨?_, hnil, hnil, hnil⟩)).mpr (.inr fun _ => ⟨.inl ?_, ?_⟩)⟩
  · simp [Grows, Usage.counts, OutputTokenDetails.counts, chatUsage]
  · simp [Grows, InputTokenDetails.counts, chatUsage]
  · simp [Grows, InputTokenDetails.counts, chatUsage]
  · simp [chatUsage]
  · decide
  · intro first hfirst
    cases hfirst
    rfl
  · simp [ClaudeUsage.Cumulative, Grows, ClaudeUsage.counts, ClaudeCacheCreationUsage.counts, claudeUsage]
  · simp [claudeUsage]
  · simp [Grows, GeminiUsageMetadata.counts, geminiUsage]
  · decide
  · simp [GeminiUsageMetadata.Bare, countOf, geminiUsage]

def audioUsage : GeminiUsageMetadata :=
  { promptTokenCount := 100, totalTokenCount := 100, promptTokensDetails := [⟨"AUDIO", 100⟩] }

/-- Merged into itself it is settled as one of 200. -/
theorem audio_merged_twice :
    Carries (geminiBilling Int) (reportsOf (geminiBilling Int) [audioUsage, audioUsage]) [audioUsage, audioUsage] ∧
      [audioUsage, audioUsage].IsChain (GeminiUsageMetadata.Cumulative upper) ∧
      (settled upper (reportsOf (geminiBilling Int) [audioUsage, audioUsage])).map
      (·.promptTokensDetails.audioTokens) = some 200 ∧
      ((geminiBilling Int false audioUsage).canonicalUsage upper).map (·.promptTokensDetails.audioTokens) = some 100 ∧
      settled upper (reportsOf (geminiBilling Int) [audioUsage, audioUsage]) ≠
        (geminiBilling Int false audioUsage).canonicalUsage upper := by
  have hdetails : DetailsGrow upper audioUsage.promptTokensDetails audioUsage.promptTokensDetails :=
    ⟨by simp [audioUsage], by simp [audioUsage], fun _ => le_rfl⟩
  have hnil : DetailsGrow upper [] [] := ⟨nofun, nofun, fun _ => le_rfl⟩
  have htwice : (settled upper (reportsOf (geminiBilling Int) [audioUsage, audioUsage])).map
    (·.promptTokensDetails.audioTokens) =
      some 200 := by decide
  have hone : ((geminiBilling Int false audioUsage).canonicalUsage upper).map
    (·.promptTokensDetails.audioTokens) = some 100 := by decide
  refine ⟨carries_reportsOf, chain_pair ⟨?_, hdetails, hnil, hnil⟩, htwice, hone, fun heq => ?_⟩
  · simp [Grows, GeminiUsageMetadata.counts, audioUsage]
  · rw [heq, hone] at htwice
    cases htwice

end Examples

end CubeRouter.Streams.Snapshots
