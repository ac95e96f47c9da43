import CubeRouter.Streams.ChatToClaude

/-!
# The blocks of a converted Chat stream

What the state says about the blocks that are open is what the stream that was sent says (`Blocks`). Each step of the
converter keeps it, and so a stream that has ended is well formed.
-/

namespace CubeRouter.Streams.ChatToClaude

open Keyed Strings List Nat Function

/-! ## Phases -/

/-- No block is open, and those from `n` on have not been used. -/
def Idle (n : Nat) (t : Nat → Phase) : Prop := ∀ i, (∀ type, t i ≠ .opened type) ∧ (n ≤ i → t i = .unused)

/-- Only the block before `n` is open. -/
def OneOpen (type : BlockType) (index : Nat) (t : Nat → Phase) : Prop :=
  t index = .opened type ∧ Idle (index + 1) (Function.update t index .stopped)

def ClaudeStreamToolCall.phase (tool : ClaudeStreamToolCall) : Phase :=
  if tool.started then .opened .toolUse else .unused

/-- The blocks from `n` on are those of the tool calls. -/
abbrev ToolRow : Nat → List ClaudeStreamToolCall → (Nat → Phase) → Prop :=
  Row ClaudeStreamToolCall.blockIndex ClaudeStreamToolCall.phase

/-- Besides the tool calls no block is open, and none behind them has been used. -/
def ToolsOpen (base : Nat) (tools : List ClaudeStreamToolCall) (t : Nat → Phase) : Prop :=
  ToolRow base tools t ∧ (∀ i < base, ∀ type, t i ≠ .opened type) ∧ ∀ i, base + tools.length ≤ i → t i = .unused

variable {t : Nat → Phase} {n i : Nat} {tool : ClaudeStreamToolCall} {tools : List ClaudeStreamToolCall}

/-! ## Stopping -/

section Converter

variable {Usage ClaudeUsage : Type} (k : Kit Usage ClaudeUsage) {sent : List (ClaudeResponse ClaudeUsage)}

theorem open_startToolBlock (h : Open sent t) (hunused : t tool.blockIndex = .unused) :
    Open (sent ++ startToolBlock k tool) (Function.update t tool.blockIndex (.opened .toolUse)) := by
  have hstarted := h.blockStart hunused
    (.toolUse (normalizeToolUseID tool.id tool.name k.toolUseToken tool.blockIndex) tool.name)
  unfold startToolBlock
  split_ifs
  · exact hstarted
  · have hdelta := hstarted.blockDelta (.inputJson tool.pendingArguments) (update_self ..)
    simpa [ContentBlock.type] using hdelta

theorem open_startPendingToolBlocks (h : Open sent t) (hrow : ToolRow n tools t) :
    ∃ t', Open (sent ++ tools.flatMap fun tool => (startPendingToolBlock k tool).1) t' ∧
      ToolRow n (tools.map fun tool => (startPendingToolBlock k tool).2) t' ∧
      ∀ i, i < n ∨ n + tools.length ≤ i → t' i = t i := by
  induction tools generalizing n sent t with
  | nil => exact ⟨t, by simpa using h, trivial, fun _ _ => rfl⟩
  | cons tool _ ih =>
    obtain ⟨rfl, hphase, hrest⟩ := hrow
    have hunused (hnot : ¬(tool.started = true ∨ tool.name = [])) : t tool.blockIndex = .unused := by
      rw [hphase, ClaudeStreamToolCall.phase, if_neg fun hstarted => hnot (.inl hstarted)]
    have hfirst : ∃ t1, Open (sent ++ (startPendingToolBlock k tool).1) t1 ∧
        t1 tool.blockIndex = (startPendingToolBlock k tool).2.phase ∧
        (startPendingToolBlock k tool).2.blockIndex = tool.blockIndex ∧ ∀ i, i ≠ tool.blockIndex → t1 i = t i := by
      unfold startPendingToolBlock
      split_ifs with hnot hid
      · exact ⟨t, by simpa using h, hphase, rfl, fun _ _ => rfl⟩
      · exact ⟨_, open_startToolBlock k h (hunused hnot), update_self .., rfl, fun i hi => update_of_ne hi ..⟩
      · exact ⟨_, open_startToolBlock k h (hunused hnot), update_self .., rfl, fun i hi => update_of_ne hi ..⟩
    obtain ⟨_, hopen, hphase1, hindex1, hsame1⟩ := hfirst
    obtain ⟨t', hopen', hrow', hsame'⟩ := ih hopen (hrest.congr fun i hle _ => hsame1 i (by omega))
    refine ⟨t', by simpa using hopen', ⟨hindex1, ?_, hrow'⟩, fun i hi => ?_⟩
    · rw [hsame' _ (.inl (lt_succ_self _)), hphase1]
    · rw [length_cons] at hi
      rw [hsame' i (by omega), hsame1 i (by omega)]

theorem open_stopToolBlocks (h : Open sent t) (hrow : ToolRow n tools t) :
    ∃ t', Open (sent ++ (tools.filter fun tool => tool.started).map fun tool => generateStopBlock tool.blockIndex) t' ∧
      (∀ i, n ≤ i → i < n + tools.length → ∀ type, t' i ≠ .opened type) ∧
      ∀ i, i < n ∨ n + tools.length ≤ i → t' i = t i := by
  induction tools generalizing n sent t with
  | nil => exact ⟨t, by simpa using h, fun i hle hlt => absurd hlt (not_lt.mpr hle), fun _ _ => rfl⟩
  | cons tool _ ih =>
    obtain ⟨rfl, hphase, hrest⟩ := hrow
    have hfirst : ∃ t1, Open (sent ++ if tool.started then [generateStopBlock tool.blockIndex] else []) t1 ∧
        (∀ type, t1 tool.blockIndex ≠ .opened type) ∧ ∀ i, i ≠ tool.blockIndex → t1 i = t i := by
      unfold ClaudeStreamToolCall.phase at hphase
      split_ifs at hphase ⊢ with hstarted
      · exact ⟨_, h.blockStop hphase, by simp, fun i hi => update_of_ne hi ..⟩
      · exact ⟨t, by simpa using h, by simp [hphase], fun _ _ => rfl⟩
    obtain ⟨_, hopen, hclosed1, hsame1⟩ := hfirst
    obtain ⟨t', hopen', hclosed', hsame'⟩ := ih hopen (hrest.congr fun i hle _ => hsame1 i (by omega))
    refine ⟨t', ?_, fun i hle hlt => ?_, fun i hi => ?_⟩
    · rw [filter_cons]
      split_ifs at hopen' ⊢ <;> simpa using hopen'
    · rcases eq_or_lt_of_le hle with rfl | hlater
      · rw [hsame' _ (.inl (lt_succ_self _))]
        exact hclosed1
      · exact hclosed' i hlater (by rw [length_cons] at hlt; omega)
    · rw [length_cons] at hi
      rw [hsame' i (by omega), hsame1 i (by omega)]

def Blocks (state : ClaudeConvertInfo Usage) (t : Nat → Phase) : Prop :=
  match state.lastMessagesType with
  | .none => Idle state.index t
  | .text => OneOpen .text state.index t
  | .thinking => OneOpen .thinking state.index t
  | .tools => state.toolCalls ≠ [] ∧ ToolsOpen state.toolCallBaseIndex state.toolCalls t

/-- The message has not ended, and its blocks are as the state says. -/
def Kept (c : Conv Usage ClaudeUsage) : Prop := c.state.done = false ∧ ∃ t, Open c.sent t ∧ Blocks c.state t

/-- The first block that has not been used. -/
def nextIndex (state : ClaudeConvertInfo Usage) : Nat :=
  match state.lastMessagesType with
  | .none => state.index
  | .text | .thinking => state.index + 1
  | .tools => state.toolCallBaseIndex + state.toolCalls.length

variable {c : Conv Usage ClaudeUsage}

theorem open_appendStopOpenBlocks (h : Open c.sent t) (hblocks : Blocks c.state t) :
    ∃ t', Open (appendStopOpenBlocks k c).sent t' ∧ Idle (nextIndex c.state) t' := by
  unfold appendStopOpenBlocks startPendingToolBlocks nextIndex Conv.send
  unfold Blocks at hblocks
  cases htype : c.state.lastMessagesType with
  | none =>
    rw [htype] at hblocks
    exact ⟨t, by simpa [htype, stopOpenBlocks] using h, hblocks⟩
  | text | thinking =>
    rw [htype] at hblocks
    refine ⟨_, ?_, hblocks.2⟩
    simpa [htype, stopOpenBlocks, generateStopBlock] using h.blockStop hblocks.1
  | tools =>
    rw [htype] at hblocks
    obtain ⟨hne, hrow, hbefore, hafter⟩ := hblocks
    obtain ⟨_, hopen1, hrow1, hsame1⟩ := open_startPendingToolBlocks k h hrow
    obtain ⟨t', hopen', hclosed', hsame'⟩ := open_stopToolBlocks hopen1 hrow1
    rw [length_map] at hclosed' hsame'
    refine ⟨t', by simpa [htype, stopOpenBlocks, hne] using hopen', fun i => ⟨fun type => ?_, fun hle => ?_⟩⟩
    · rcases lt_or_ge i c.state.toolCallBaseIndex with hlow | hhigh
      · rw [hsame' i (.inl hlow), hsame1 i (.inl hlow)]
        exact hbefore i hlow type
      · rcases lt_or_ge i (c.state.toolCallBaseIndex + c.state.toolCalls.length) with hin | hout
        · exact hclosed' i hhigh hin type
        · rw [hsame' i (.inr hout), hsame1 i (.inr hout), hafter i hout]
          simp
    · rw [hsame' i (.inr hle), hsame1 i (.inr hle)]
      exact hafter i hle

theorem state_appendStopOpenBlocks : (appendStopOpenBlocks k c).state.lastMessagesType = c.state.lastMessagesType ∧
      (appendStopOpenBlocks k c).state.done = c.state.done ∧
      nextIndex (appendStopOpenBlocks k c).state = nextIndex c.state := by
  unfold appendStopOpenBlocks startPendingToolBlocks Conv.send nextIndex
  split_ifs
  · exact ⟨rfl, rfl, by simp⟩
  · exact ⟨rfl, rfl, rfl⟩

/-! ## Content -/

theorem kept_stopOpenBlocksAndAdvance (h : Kept c) :
    Kept (stopOpenBlocksAndAdvance k c) ∧ (stopOpenBlocksAndAdvance k c).state.lastMessagesType = .none := by
  obtain ⟨hdone, t, hopen, hblocks⟩ := h
  obtain ⟨t', hopen', hidle⟩ := open_appendStopOpenBlocks k hopen hblocks
  obtain ⟨htype, hdone', hnext⟩ := state_appendStopOpenBlocks k (c := c)
  unfold stopOpenBlocksAndAdvance
  split_ifs with hnone
  · exact ⟨⟨hdone, t, hopen, hblocks⟩, hnone⟩
  · rw [← hnext] at hidle
    unfold nextIndex at hidle
    rw [htype] at hidle
    dsimp only [Conv.set]
    rw [htype]
    cases hc : c.state.lastMessagesType with
    | none => exact absurd hc hnone
    | text | thinking | tools => exact ⟨⟨hdone'.trans hdone, t', hopen', by simpa [hc, Blocks] using hidle⟩, rfl⟩

/-- The type of block that a type of message has open. -/
def LastMessagesType.block : LastMessagesType → Option BlockType
  | .text => some .text
  | .thinking => some .thinking
  | .none | .tools => Option.none

theorem blocks_of_block {state : ClaudeConvertInfo Usage} {type : BlockType}
    (htype : state.lastMessagesType.block = some type) : Blocks state t ↔ OneOpen type state.index t := by
  unfold Blocks
  cases hstate : state.lastMessagesType <;> rw [hstate] at htype <;> cases htype <;> rfl

theorem kept_ensureBlock (h : Kept c) (type : LastMessagesType) (block : ContentBlock)
    (hblock : type.block = some block.type) :
    Kept (ensureBlock k type block c) ∧ (ensureBlock k type block c).state.lastMessagesType = type := by
  unfold ensureBlock
  split_ifs with hsame
  · exact ⟨h, hsame⟩
  · obtain ⟨⟨hdone, t, hopen, hblocks⟩, hnone⟩ := kept_stopOpenBlocksAndAdvance k h
    unfold Blocks at hblocks
    rw [hnone] at hblocks
    refine ⟨⟨hdone, _, hopen.blockStart ((hblocks _).2 (le_refl _)) block, ?_⟩, rfl⟩
    refine (blocks_of_block (by exact hblock)).mpr ⟨update_self .., fun i => ?_⟩
    dsimp only [Conv.set, Conv.send]
    rw [update_idem]
    by_cases hi : i = (stopOpenBlocksAndAdvance k c).state.index
    · subst hi
      exact ⟨by simp, fun hle => absurd hle (by omega)⟩
    · rw [update_of_ne hi]
      exact ⟨(hblocks i).1, fun hle => (hblocks i).2 (by omega)⟩

theorem kept_sendDelta (h : Kept c) (delta : BlockDelta) (hblock : c.state.lastMessagesType.block = some delta.type) :
    Kept (c.send [.contentBlockDelta c.state.index delta]) := by
  obtain ⟨hdone, t, hopen, hblocks⟩ := h
  exact ⟨hdone, t, hopen.blockDelta delta ((blocks_of_block hblock).mp hblocks).1, hblocks⟩

theorem kept_appendCitationDeltas (h : Kept c) (raw : Text) : Kept (appendCitationDeltas k raw c) := by
  unfold appendCitationDeltas
  dsimp only
  split_ifs
  · exact h
  · obtain ⟨hkept, htype⟩ := kept_ensureBlock k h .text .text rfl
    generalize ensureBlock k .text .text c = c at hkept htype
    induction k.chatAnnotationsToClaude raw generalizing c with
    | nil => simpa [Conv.send] using hkept
    | cons citation citations ih =>
      have hsent := kept_sendDelta hkept (.citations citation) (by rw [htype]; rfl)
      simpa [Conv.send] using ih (c.send _) hsent htype

/-! ## Tool calls -/

theorem open_sendToolCall (h : Open sent t) (hphase : t tool.blockIndex = tool.phase) (arguments : Text) :
    ∃ t', Open (sent ++ (sendToolCall k tool arguments).1) t' ∧
      t' tool.blockIndex = (sendToolCall k tool arguments).2.phase ∧
      (sendToolCall k tool arguments).2.blockIndex = tool.blockIndex ∧ ∀ i, i ≠ tool.blockIndex → t' i = t i := by
  unfold sendToolCall
  split_ifs with hstart hdelta
  · rw [ClaudeStreamToolCall.phase, if_neg (by simp [hstart.1])] at hphase
    exact ⟨_, open_startToolBlock k h hphase, update_self .., rfl, fun i hi => update_of_ne hi ..⟩
  · refine ⟨t, h.blockDelta (.inputJson arguments) ?_, hphase, rfl, fun _ _ => rfl⟩
    rwa [ClaudeStreamToolCall.phase, if_pos hdelta.1] at hphase
  · exact ⟨t, by simpa using h, hphase, rfl, fun _ _ => rfl⟩

/-- The converter is at tool calls, of which there may be none yet. -/
structure AtTools (c : Conv Usage ClaudeUsage) : Prop where
  done : c.state.done = false
  type : c.state.lastMessagesType = .tools
  tools : ∃ t, Open c.sent t ∧ ToolsOpen c.state.toolCallBaseIndex c.state.toolCalls t

theorem atTools_receiveToolCall (h : AtTools c) (hi : c.state.toolCalls[i]? = some tool) (toolIndex : Int)
    (toolCall : ToolCallResponse) : AtTools (receiveToolCall k i tool toolIndex toolCall c) ∧
      (receiveToolCall k i tool toolIndex toolCall c).state.toolCalls ≠ [] := by
  obtain ⟨hdone, htype, t, hopen, hrow, hbefore, hafter⟩ := h
  obtain ⟨hindex, hphase⟩ := hrow.get hi
  have hlt : i < c.state.toolCalls.length := (List.getElem?_eq_some_iff.mp hi).1
  have hreceived : t (tool.receive toolCall).blockIndex = (tool.receive toolCall).phase :=
    (congrArg t hindex).trans hphase
  obtain ⟨t', hopen', hphase', hindex', hsame⟩ := open_sendToolCall k hopen hreceived toolCall.arguments
  have hindex'' : (tool.receive toolCall).blockIndex = c.state.toolCallBaseIndex + i := hindex
  rw [hindex''] at hphase' hindex' hsame
  refine ⟨⟨hdone, htype, t', hopen', hrow.set hindex' hphase' hsame, fun j hj => ?_, fun j hj => ?_⟩, fun hnil => ?_⟩
  · have hlow : j < c.state.toolCallBaseIndex := hj
    rw [hsame j (by omega)]
    exact hbefore j hj
  · simp only [receiveToolCall, length_set] at hj
    rw [hsame j (by omega)]
    exact hafter j hj
  · simp only [receiveToolCall, set_eq_nil_iff] at hnil
    rw [hnil] at hlt
    exact absurd hlt (not_lt_zero i)

theorem atTools_applyToolCall (h : AtTools c) (n : Nat) (toolCall : ToolCallResponse) :
    AtTools (applyToolCall k c n toolCall) ∧ (applyToolCall k c n toolCall).state.toolCalls ≠ [] := by
  unfold applyToolCall
  dsimp only
  split
  · rename_i i hfound
    have hlt : ∃ tool, c.state.toolCalls[i]? = some tool := by
      unfold findToolCall at hfound
      dsimp only at hfound
      split at hfound
      · cases hfound
      · split at hfound
        · cases hfound
        · rename_i tool htool
          split_ifs at hfound
          cases hfound
          exact ⟨tool, htool⟩
    obtain ⟨_, htool⟩ := hlt
    rw [htool]
    exact atTools_receiveToolCall k h htool _ toolCall
  · obtain ⟨hdone, htype, t, hopen, hrow, hbefore, hafter⟩ := h
    generalize hnew :
      ({ blockIndex := c.state.toolCallBaseIndex + c.state.toolCalls.length } : ClaudeStreamToolCall) = new
    have hphase : new.phase = .unused := hnew ▸ rfl
    have hindex : new.blockIndex = c.state.toolCallBaseIndex + c.state.toolCalls.length := hnew ▸ rfl
    have hat : AtTools (c.set { c.state with toolCalls := c.state.toolCalls ++ [new] }) := by
      refine ⟨hdone, htype, t, hopen, row_concat.mpr ⟨hrow, hindex, ?_⟩, hbefore, fun i hi => hafter i ?_⟩
      · rw [hphase]
        exact hafter _ (le_refl _)
      · simp only [Conv.set, length_append] at hi
        omega
    exact atTools_receiveToolCall k hat (by simp [Conv.set]) _ toolCall

theorem atTools_applyToolCallsFrom (h : AtTools c) (n : Nat) (toolCalls : List ToolCallResponse)
    (hne : toolCalls ≠ [] ∨ c.state.toolCalls ≠ []) :
    AtTools (applyToolCallsFrom k c n toolCalls) ∧ (applyToolCallsFrom k c n toolCalls).state.toolCalls ≠ [] := by
  induction toolCalls generalizing c n with
  | nil => exact ⟨h, hne.resolve_left fun hnot => hnot rfl⟩
  | cons toolCall _ ih =>
    obtain ⟨hat, hsome⟩ := atTools_applyToolCall k h n toolCall
    exact ih hat (n + 1) (.inr hsome)

theorem kept_applyToolCalls (h : Kept c) {toolCalls : List ToolCallResponse} (hne : toolCalls ≠ []) :
    Kept (applyToolCalls k toolCalls c) := by
  unfold applyToolCalls
  generalize hc : (if c.state.lastMessagesType = .tools then c else _) = c1
  have hat : AtTools c1 := by
    subst hc
    split_ifs with htools
    · obtain ⟨hdone, t, hopen, hblocks⟩ := h
      unfold Blocks at hblocks
      rw [htools] at hblocks
      exact ⟨hdone, htools, t, hopen, hblocks.2⟩
    · obtain ⟨⟨hdone, t, hopen, hblocks⟩, hnone⟩ := kept_stopOpenBlocksAndAdvance k h
      unfold Blocks at hblocks
      rw [hnone] at hblocks
      exact ⟨hdone, rfl, t, hopen, trivial, fun i _ => (hblocks i).1, fun i hi => (hblocks i).2 hi⟩
  obtain ⟨⟨hdone, htype, t, hopen, htools⟩, hsome⟩ := atTools_applyToolCallsFrom k hat 0 toolCalls (.inl hne)
  refine ⟨hdone, t, hopen, ?_⟩
  simp only [htype]
  exact ⟨hsome, htools⟩

/-! ## Chunks -/

theorem kept_applyDelta (h : Kept c) (delta : Delta) : Kept (applyDelta k delta c) := by
  unfold applyDelta
  split_ifs with htools hreasoning hcontent
  · exact kept_applyToolCalls k h htools
  · obtain ⟨hkept, htype⟩ := kept_ensureBlock k h .thinking .thinking rfl
    exact kept_sendDelta hkept (.thinking delta.reasoning) (by rw [htype]; rfl)
  · obtain ⟨hkept, htype⟩ := kept_ensureBlock k h .text .text rfl
    exact kept_sendDelta hkept (.text delta.content) (by rw [htype]; rfl)
  · exact h

def Ended (c : Conv Usage ClaudeUsage) : Prop := c.state.done = true ∧ WellFormed c.sent

theorem ended_endMessage (h : Kept c) (usage : Option ClaudeUsage) (stopReason : Text) :
    Ended (endMessage k usage stopReason c) := by
  obtain ⟨-, t, hopen, hblocks⟩ := h
  obtain ⟨_, hopen', hidle⟩ := open_appendStopOpenBlocks k hopen hblocks
  exact ⟨rfl, hopen'.close (fun index => (hidle index).1) usage stopReason⟩

theorem kept_set (h : Kept c) (usage : Option Usage) (finishReason : Text) :
    Kept (c.set { c.state with usage := usage, finishReason := finishReason }) := h

theorem kept_clientVisible (h : Kept c) (incoming : Option Usage) :
    Kept (c.set (clientVisibleClaudeStreamUsage k c.state incoming).2) := by
  unfold clientVisibleClaudeStreamUsage
  cases incoming with
  | none => cases c.state.usage <;> exact h
  | some => cases c.state.usage <;> exact kept_set h _ _

theorem kept_or_ended_applyUsage (h : Kept c) (incoming : Option Usage) :
    Kept (applyUsage k incoming c) ∨ Ended (applyUsage k incoming c) := by
  have hset := kept_clientVisible k h incoming
  unfold applyUsage
  dsimp only
  split
  · exact .inl hset
  · exact .inr (ended_endMessage k hset _ _)

theorem kept_or_ended_applyChoice (h : Kept c) (choice : Choice) (incoming : Option Usage) :
    Kept (applyChoice k choice incoming c) ∨ Ended (applyChoice k choice incoming c) := by
  unfold applyChoice
  dsimp only
  generalize hc : (if isDoneChunk choice then _ else c) = c1
  have hkept : Kept c1 := by
    subst hc
    split_ifs
    · exact kept_set h _ _
    · exact h
  have hcontent := kept_appendCitationDeltas k (kept_applyDelta k hkept choice.delta) choice.delta.annotations
  have hset := kept_clientVisible k hcontent incoming
  split_ifs
  · split
    · exact .inl hset
    · exact .inr (ended_endMessage k hset _ _)
  · exact .inl hcontent

theorem kept_startMessage (chunk : Chunk Usage) : Kept (startMessage k chunk {}) := by
  have hidle : Idle 0 fun _ => Phase.unused := fun _ => ⟨by simp, fun _ => rfl⟩
  unfold startMessage
  split
  · split_ifs <;> exact ⟨rfl, _, open_start _ _ _, hidle⟩
  · exact ⟨rfl, _, open_start _ _ _, hidle⟩

theorem stream_of_done (h : c.state.done = true) (n : Nat) (chunk : Chunk Usage) :
    streamResponseOpenAI2Claude k n chunk c = c := by
  unfold streamResponseOpenAI2Claude
  rw [if_pos h]

theorem finalize_of_done (h : c.state.done = true) : finalizeStreamResponseOpenAI2Claude k c = c := by
  unfold finalizeStreamResponseOpenAI2Claude
  rw [if_pos h]

/-- What a chunk means for a message that has started. -/
theorem kept_or_ended_stream (h : Kept c ∨ Ended c) {n : Nat} (hn : n ≠ 1) (chunk : Chunk Usage) :
    Kept (streamResponseOpenAI2Claude k n chunk c) ∨ Ended (streamResponseOpenAI2Claude k n chunk c) := by
  rcases h with hkept | hended
  · unfold streamResponseOpenAI2Claude
    rw [if_neg (by simp [hkept.1])]
    simp only [hn]
    split
    · exact kept_or_ended_applyUsage k hkept _
    · exact kept_or_ended_applyChoice k hkept _ _
  · rw [stream_of_done k hended.1]
    exact .inr hended

theorem kept_or_ended_first (chunk : Chunk Usage) :
    Kept (streamResponseOpenAI2Claude k 1 chunk {}) ∨ Ended (streamResponseOpenAI2Claude k 1 chunk {}) := by
  have hkept := kept_startMessage k chunk
  unfold streamResponseOpenAI2Claude
  simp only [Bool.false_eq_true, if_false]
  split
  · exact kept_or_ended_applyUsage k hkept _
  · exact kept_or_ended_applyChoice k hkept _ _

theorem kept_or_ended_streamFrom (h : Kept c ∨ Ended c) {n : Nat} (hn : 1 < n) (chunks : List (Chunk Usage)) :
    Kept (streamFrom k c n chunks) ∨ Ended (streamFrom k c n chunks) := by
  induction chunks generalizing c n with
  | nil => exact h
  | cons chunk _ ih => exact ih (kept_or_ended_stream k h (by omega) chunk) (by omega)

theorem ended_finalize (first : Chunk Usage) (chunks : List (Chunk Usage)) :
    Ended (finalizeStreamResponseOpenAI2Claude k (streamFrom k {} 1 (first :: chunks))) := by
  have hstream := kept_or_ended_streamFrom k (kept_or_ended_first k first) (lt_succ_self 1) chunks
  rw [streamFrom]
  rcases hstream with hkept | hended
  · unfold finalizeStreamResponseOpenAI2Claude
    rw [if_neg (by simp [hkept.1])]
    exact ended_endMessage k hkept _ _
  · rw [finalize_of_done k hended.1]
    exact hended

end Converter

end CubeRouter.Streams.ChatToClaude
