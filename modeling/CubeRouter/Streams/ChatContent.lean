import CubeRouter.Streams.ChatToClaude

/-!
# What a converted Chat stream says

The text and the thinking that the client is sent, and when they are those of the chunks. All but the branch that was
taken for a delta is `Quiet`; a chunk that closes the message is known from the usage that it and the first chunk
report.
-/

namespace CubeRouter.Streams.ChatToClaude

open Strings List

/-! ## Sums of pieces -/

section Pieces

variable {α β : Type} {f g : α → List β}

theorem length_flatMap_le {l : List α} (h : ∀ x ∈ l, f x = [] ∨ f x = g x) :
    (l.flatMap f).length ≤ (l.flatMap g).length := by
  induction l with
  | nil => simp
  | cons x l ih =>
    obtain ⟨hx, hl⟩ := forall_mem_cons.mp h
    simp only [flatMap_cons, length_append]
    have hle := ih hl
    rcases hx with hx | hx <;> simp only [hx, length_nil] <;> omega

/-- Where each piece is kept or dropped, the whole is kept only if each piece is. -/
theorem flatMap_eq_flatMap_iff {l : List α} (h : ∀ x ∈ l, f x = [] ∨ f x = g x) :
    l.flatMap f = l.flatMap g ↔ ∀ x ∈ l, f x = g x := by
  induction l with
  | nil => simp
  | cons x l ih =>
    obtain ⟨hx, hl⟩ := forall_mem_cons.mp h
    simp only [flatMap_cons, forall_mem_cons]
    constructor
    · intro heq
      have hsame : f x = g x := by
        rcases hx with hx | hx
        · have hle := length_flatMap_le hl
          have hlength := congrArg List.length heq
          simp only [hx, length_append, length_nil] at hlength
          rw [hx, eq_nil_of_length_eq_zero (show (g x).length = 0 by omega)]
        · exact hx
      rw [hsame] at heq
      exact ⟨hsame, (ih hl).mp (append_cancel_left heq)⟩
    · rintro ⟨hsame, hrest⟩
      rw [hsame, (ih hl).mpr hrest]

end Pieces

/-! ## What is said -/

variable {Usage ClaudeUsage υ : Type}

/-- What an event says, where `part` is what is counted of a delta. -/
def spoken (part : BlockDelta → Text) : ClaudeResponse υ → Text
  | .contentBlockDelta _ delta => part delta
  | _ => []

def said (part : BlockDelta → Text) (l : List (ClaudeResponse υ)) : Text := l.flatMap (spoken part)

def textPart : BlockDelta → Text
  | .text text => text
  | _ => []

def thinkingPart : BlockDelta → Text
  | .thinking thinking => thinking
  | _ => []

/-- Neither arguments nor citations are counted. -/
structure OfContent (part : BlockDelta → Text) : Prop where
  inputJson : ∀ partialJson, part (.inputJson partialJson) = []
  citations : ∀ citation, part (.citations citation) = []

theorem ofContent_textPart : OfContent textPart := ⟨fun _ => rfl, fun _ => rfl⟩

theorem ofContent_thinkingPart : OfContent thinkingPart := ⟨fun _ => rfl, fun _ => rfl⟩

variable {part : BlockDelta → Text}

@[simp] theorem said_nil : said part ([] : List (ClaudeResponse υ)) = [] := rfl

@[simp] theorem said_append (l l' : List (ClaudeResponse υ)) : said part (l ++ l') = said part l ++ said part l' :=
  flatMap_append

@[simp] theorem said_cons (r : ClaudeResponse υ) (l : List (ClaudeResponse υ)) :
    said part (r :: l) = spoken part r ++ said part l :=
  flatMap_cons

theorem said_eq_nil {l : List (ClaudeResponse υ)} (h : ∀ r ∈ l, spoken part r = []) : said part l = [] :=
  flatMap_eq_nil_iff.mpr h

variable {c c' c'' : Conv Usage ClaudeUsage}

/-- Nothing is said, and neither the usage nor the end of the message is touched. -/
structure Quiet (part : BlockDelta → Text) (c c' : Conv Usage ClaudeUsage) : Prop where
  usage : c'.state.usage = c.state.usage
  done : c'.state.done = c.state.done
  said : said part c'.sent = said part c.sent

theorem Quiet.refl (c : Conv Usage ClaudeUsage) : Quiet part c c := ⟨rfl, rfl, rfl⟩

theorem Quiet.trans (h : Quiet part c c') (h' : Quiet part c' c'') : Quiet part c c'' :=
  ⟨h'.usage.trans h.usage, h'.done.trans h.done, h'.said.trans h.said⟩

theorem quiet_send {l : List (ClaudeResponse ClaudeUsage)} (h : said part l = []) : Quiet part c (c.send l) := by
  refine ⟨rfl, rfl, ?_⟩
  rw [Conv.send, said_append, h, append_nil]

theorem Quiet.set (h : Quiet part c c') {state : ClaudeConvertInfo Usage} (husage : state.usage = c'.state.usage)
    (hdone : state.done = c'.state.done) : Quiet part c (c'.set state) :=
  ⟨husage.trans h.usage, hdone.trans h.done, h.said⟩

section Converter

variable (k : Kit Usage ClaudeUsage)

theorem said_startToolBlock (hpart : OfContent part) (tool : ClaudeStreamToolCall) :
    said part (startToolBlock k tool) = [] := by
  unfold startToolBlock
  split_ifs <;> simp [spoken, hpart.inputJson]

theorem said_startPendingToolBlock (hpart : OfContent part) (tool : ClaudeStreamToolCall) :
    said part (startPendingToolBlock k tool).1 = [] := by
  unfold startPendingToolBlock
  split_ifs
  · rfl
  · exact said_startToolBlock k hpart _
  · exact said_startToolBlock k hpart _

theorem quiet_startPendingToolBlocks (hpart : OfContent part) : Quiet part c (startPendingToolBlocks k c) := by
  unfold startPendingToolBlocks
  split_ifs
  · refine ⟨rfl, rfl, ?_⟩
    rw [said_append]
    have hnone : said part (c.state.toolCalls.flatMap fun tool => (startPendingToolBlock k tool).1) = [] := by
      induction c.state.toolCalls with
      | nil => rfl
      | cons _ _ ih => simp [said_startPendingToolBlock k hpart, ih]
    rw [hnone, append_nil]
  · exact Quiet.refl c

theorem mem_stopOpenBlocks {state : ClaudeConvertInfo Usage} {r : ClaudeResponse ClaudeUsage}
    (hr : r ∈ stopOpenBlocks state) :
    ∃ index, r = generateStopBlock index := by
  unfold stopOpenBlocks at hr
  split at hr
  · exact ⟨_, mem_singleton.mp hr⟩
  · exact ⟨_, mem_singleton.mp hr⟩
  · split_ifs at hr
    · obtain ⟨_, -, rfl⟩ := mem_map.mp hr
      exact ⟨_, rfl⟩
    · obtain ⟨_, -, rfl⟩ := mem_map.mp hr
      exact ⟨_, rfl⟩
  · cases hr

theorem said_stopOpenBlocks (state : ClaudeConvertInfo Usage) :
    said part (stopOpenBlocks state : List (ClaudeResponse ClaudeUsage)) = [] := by
  apply said_eq_nil
  intro r hr
  obtain ⟨_, rfl⟩ := mem_stopOpenBlocks hr
  rfl

theorem quiet_appendStopOpenBlocks (hpart : OfContent part) : Quiet part c (appendStopOpenBlocks k c) :=
  (quiet_startPendingToolBlocks k hpart).trans (quiet_send (said_stopOpenBlocks _))

theorem quiet_stopOpenBlocksAndAdvance (hpart : OfContent part) : Quiet part c (stopOpenBlocksAndAdvance k c) := by
  unfold stopOpenBlocksAndAdvance
  split_ifs
  · exact Quiet.refl c
  · have hstopped := quiet_appendStopOpenBlocks k (c := c) hpart
    dsimp only
    split
    · exact hstopped.set rfl rfl
    · exact hstopped.set rfl rfl

theorem quiet_ensureBlock (hpart : OfContent part) (type : LastMessagesType) {block : ContentBlock} :
    Quiet part c (ensureBlock k type block c) := by
  unfold ensureBlock
  split_ifs
  · exact Quiet.refl c
  · have hstarted := (quiet_stopOpenBlocksAndAdvance k (c := c) hpart).trans
      (quiet_send (l := [.contentBlockStart (stopOpenBlocksAndAdvance k c).state.index block]) rfl)
    exact hstarted.set rfl rfl

theorem quiet_appendCitationDeltas (hpart : OfContent part) (raw : Text) :
    Quiet part c (appendCitationDeltas k raw c) := by
  unfold appendCitationDeltas
  dsimp only
  split_ifs
  · exact Quiet.refl c
  · refine (quiet_ensureBlock k hpart .text).trans (quiet_send (said_eq_nil fun r hr => ?_))
    obtain ⟨citation, -, rfl⟩ := mem_map.mp hr
    exact hpart.citations citation

theorem said_sendToolCall (hpart : OfContent part) (tool : ClaudeStreamToolCall) (arguments : Text) :
    said part (sendToolCall k tool arguments).1 = [] := by
  unfold sendToolCall
  split_ifs
  · exact said_startToolBlock k hpart tool
  · simp [spoken, hpart.inputJson]
  · rfl

theorem quiet_receiveToolCall (hpart : OfContent part) (i : Nat) (tool : ClaudeStreamToolCall) (toolIndex : Int)
    (toolCall : ToolCallResponse) : Quiet part c (receiveToolCall k i tool toolIndex toolCall c) := by
  refine ⟨rfl, rfl, ?_⟩
  rw [receiveToolCall, said_append, said_sendToolCall k hpart, append_nil]

theorem quiet_applyToolCall (hpart : OfContent part) (n : Nat) (toolCall : ToolCallResponse) :
    Quiet part c (applyToolCall k c n toolCall) := by
  unfold applyToolCall
  dsimp only
  split
  · split
    · exact quiet_receiveToolCall k hpart _ _ _ _
    · exact Quiet.refl c
  · refine Quiet.trans ?_ (quiet_receiveToolCall k hpart _ _ _ _)
    exact (Quiet.refl c).set rfl rfl

theorem quiet_applyToolCallsFrom (hpart : OfContent part) (n : Nat) (toolCalls : List ToolCallResponse) :
    Quiet part c (applyToolCallsFrom k c n toolCalls) := by
  induction toolCalls generalizing c n with
  | nil => exact Quiet.refl c
  | cons toolCall _ ih => exact (quiet_applyToolCall k hpart n toolCall).trans (ih (n + 1))

theorem quiet_applyToolCalls (hpart : OfContent part) (toolCalls : List ToolCallResponse) :
    Quiet part c (applyToolCalls k toolCalls c) := by
  have hentered : Quiet part c
      (if c.state.lastMessagesType = .tools then c
      else
        (stopOpenBlocksAndAdvance k c).set { (stopOpenBlocksAndAdvance k c).state with
          lastMessagesType := .tools
          toolCallBaseIndex := (stopOpenBlocksAndAdvance k c).state.index
          toolCallMaxIndexOffset := 0
          toolCalls := []
          toolCallByIndex := fun _ => .none
          toolCallByID := fun _ => .none }) := by
    split_ifs
    · exact Quiet.refl c
    · exact (quiet_stopOpenBlocksAndAdvance k hpart).set rfl rfl
  exact (hentered.trans (quiet_applyToolCallsFrom k hpart 0 toolCalls)).set rfl rfl

/-! ## Deltas -/

/-- What the branch that is taken for a delta says. -/
def Delta.taken (part : BlockDelta → Text) (delta : Delta) : Text :=
  if delta.toolCalls ≠ [] then []
  else if delta.reasoning ≠ [] then part (.thinking delta.reasoning)
  else if delta.content ≠ [] then part (.text delta.content)
  else []

/-- A step that says `t`. -/
structure Speaks (part : BlockDelta → Text) (t : Text) (c c' : Conv Usage ClaudeUsage) : Prop where
  usage : c'.state.usage = c.state.usage
  done : c'.state.done = c.state.done
  said : said part c'.sent = said part c.sent ++ t

theorem Quiet.speaks (h : Quiet part c c') : Speaks part [] c c' := ⟨h.usage, h.done, by rw [h.said, append_nil]⟩

theorem Quiet.then {t : Text} (h : Quiet part c c') (h' : Speaks part t c' c'') : Speaks part t c c'' :=
  ⟨h'.usage.trans h.usage, h'.done.trans h.done, by rw [h'.said, h.said]⟩

theorem Speaks.then {t : Text} (h : Speaks part t c c') (h' : Quiet part c' c'') : Speaks part t c c'' :=
  ⟨h'.usage.trans h.usage, h'.done.trans h.done, by rw [h'.said, h.said]⟩

theorem speaks_send (index : Nat) (delta : BlockDelta) :
    Speaks part (part delta) c (c.send [.contentBlockDelta index delta]) :=
  ⟨rfl, rfl, by simp [Conv.send, spoken]⟩

theorem speaks_applyDelta (hpart : OfContent part) (delta : Delta) :
    Speaks part (delta.taken part) c (applyDelta k delta c) := by
  unfold applyDelta Delta.taken
  split_ifs
  · exact (quiet_applyToolCalls k hpart delta.toolCalls).speaks
  · exact (quiet_ensureBlock k hpart .thinking).then (speaks_send _ _)
  · exact (quiet_ensureBlock k hpart .text).then (speaks_send _ _)
  · exact (Quiet.refl c).speaks

/-! ## Chunks -/

theorem clientVisible_spec (state : ClaudeConvertInfo Usage) (incoming : Option Usage) :
    (clientVisibleClaudeStreamUsage k state incoming).1.isSome = (incoming.isSome || state.usage.isSome) ∧
      (clientVisibleClaudeStreamUsage k state incoming).2.usage.isSome = (incoming.isSome || state.usage.isSome) ∧
      (clientVisibleClaudeStreamUsage k state incoming).2.done = state.done := by
  unfold clientVisibleClaudeStreamUsage
  cases incoming <;> cases husage : state.usage <;> simp [husage]

/-- A chunk that ends the message, where the usage is known or not before it. -/
def Chunk.closes (usageKnown : Bool) (chunk : Chunk Usage) : Bool :=
  (match chunk.choices with
    | [] => true
    | choice :: _ => isDoneChunk choice) && (chunk.usage.isSome || usageKnown)

def Chunk.taken (part : BlockDelta → Text) (chunk : Chunk Usage) : Text :=
  match chunk.choices with
  | [] => []
  | choice :: _ => choice.delta.taken part

/-- What a call does to a message that has not ended. -/
structure Advances (part : BlockDelta → Text) (closes : Bool) (t : Text) (c c' : Conv Usage ClaudeUsage) : Prop where
  done : c'.state.done = closes
  usage : closes = false → c'.state.usage.isSome = c.state.usage.isSome
  said : said part c'.sent = said part c.sent ++ t

theorem said_endMessage (hpart : OfContent part) (usage : Option ClaudeUsage) (stopReason : Text) :
    said part (endMessage k usage stopReason c).sent = said part c.sent := by
  unfold endMessage
  simp only [Conv.set, Conv.send, said_append]
  rw [(quiet_appendStopOpenBlocks k hpart).said]
  simp [spoken]

theorem advances_end (hpart : OfContent part) (hdone : c.state.done = false) (incoming : Option Usage)
    (reason : ClaudeConvertInfo Usage → Text) : Advances part (incoming.isSome || c.state.usage.isSome) [] c
      (match clientVisibleClaudeStreamUsage k c.state incoming with
      | (none, state) => c.set state | (some usage, state) =>
      endMessage k (some usage) (reason state) (c.set state)) := by
  obtain ⟨hvisible, husage, hstate⟩ := clientVisible_spec k c.state incoming
  generalize clientVisibleClaudeStreamUsage k c.state incoming = visible at hvisible husage hstate ⊢
  rw [← hvisible]
  obtain ⟨usage, _⟩ := visible
  cases usage with
  | none =>
    refine ⟨hstate.trans hdone, fun _ => husage.trans ?_, by simp [Conv.set]⟩
    cases incoming with
    | none => rfl
    | some => simp at hvisible
  | some =>
    refine ⟨rfl, fun hnot => (by cases hnot), ?_⟩
    rw [append_nil]
    exact said_endMessage k hpart _ _

theorem advances_applyUsage (hpart : OfContent part) (hdone : c.state.done = false) (incoming : Option Usage) :
    Advances part (incoming.isSome || c.state.usage.isSome) [] c (applyUsage k incoming c) := by
  have hend := advances_end k hpart hdone incoming fun state => orEndTurn (stopReasonOpenAI2Claude state.finishReason)
  unfold applyUsage
  generalize clientVisibleClaudeStreamUsage k c.state incoming = visible at hend ⊢
  obtain ⟨usage, _⟩ := visible
  cases usage <;> exact hend

theorem advances_applyChoice (hpart : OfContent part) (hdone : c.state.done = false) (choice : Choice)
    (incoming : Option Usage) :
    Advances part (isDoneChunk choice && (incoming.isSome || c.state.usage.isSome)) (choice.delta.taken part) c
      (applyChoice k choice incoming c) := by
  unfold applyChoice
  dsimp only
  generalize hc1 :
    (if isDoneChunk choice then c.set { c.state with finishReason := choice.finishReason.getD [] } else c) = c1
  have hquiet : Quiet part c c1 := by
    subst hc1
    split_ifs
    · exact (Quiet.refl c).set rfl rfl
    · exact Quiet.refl c
  obtain ⟨husage2, hdone2, hsaid2⟩ := hquiet.then
    ((speaks_applyDelta k hpart choice.delta).then (quiet_appendCitationDeltas k hpart choice.delta.annotations))
  generalize appendCitationDeltas k choice.delta.annotations
    (applyDelta k choice.delta c1) = c2 at husage2 hdone2 hsaid2 ⊢
  have hopen : c2.state.done = false := hdone2.trans hdone
  obtain ⟨hend, hend', hsaid⟩ := advances_end k hpart hopen incoming fun state =>
    stopReasonOpenAI2Claude state.finishReason
  rw [append_nil] at hsaid
  rw [husage2] at hend hend'
  rw [hopen]
  cases isDoneChunk choice with
  | false => exact ⟨hopen, fun _ => congrArg Option.isSome husage2, hsaid2⟩
  | true =>
    generalize clientVisibleClaudeStreamUsage k c2.state incoming = visible at hend hend' hsaid ⊢
    obtain ⟨usage, _⟩ := visible
    cases usage <;> exact ⟨hend, hend', hsaid.trans hsaid2⟩

/-- The usage of the first chunk is recorded only if it has tokens. -/
def reportsTokens (chunk : Chunk Usage) : Bool := chunk.usage.any k.hasOpenAIUsageTokens

theorem startMessage_spec (part : BlockDelta → Text) (chunk : Chunk Usage) :
    (startMessage k chunk {}).state.done = false ∧
    (startMessage k chunk {}).state.usage.isSome = reportsTokens k chunk ∧
      said part (startMessage k chunk {}).sent = [] := by
  unfold startMessage reportsTokens
  cases chunk.usage with
  | none => exact ⟨rfl, rfl, rfl⟩
  | some =>
    dsimp only
    split_ifs with htokens
    · exact ⟨rfl, by simp [Conv.set, htokens], rfl⟩
    · exact ⟨rfl, by simp [Conv.send, htokens], rfl⟩

theorem advances_respond (hpart : OfContent part) (hdone : c.state.done = false) (chunk : Chunk Usage) :
    Advances part (chunk.closes c.state.usage.isSome) (chunk.taken part) c
      (match chunk.choices with
      | [] => applyUsage k chunk.usage c | choice :: _ => applyChoice k choice chunk.usage c) := by
  unfold Chunk.closes Chunk.taken
  cases chunk.choices with
  | nil => exact advances_applyUsage k hpart hdone chunk.usage
  | cons choice => exact advances_applyChoice k hpart hdone choice chunk.usage

variable {n : Nat} {chunks : List (Chunk Usage)}

theorem advances_stream (hpart : OfContent part) (hdone : c.state.done = false) (hn : n ≠ 1) (chunk : Chunk Usage) :
    Advances part (chunk.closes c.state.usage.isSome) (chunk.taken part) c
      (streamResponseOpenAI2Claude k n chunk c) := by
  unfold streamResponseOpenAI2Claude
  simp only [hdone, hn]
  exact advances_respond k hpart hdone chunk

theorem advances_first (hpart : OfContent part) (chunk : Chunk Usage) :
    let c := streamResponseOpenAI2Claude k 1 chunk {}
    c.state.done = chunk.closes (reportsTokens k chunk) ∧
      (chunk.closes (reportsTokens k chunk) = false → c.state.usage.isSome = reportsTokens k chunk) ∧
      said part c.sent = chunk.taken part := by
  obtain ⟨hdone, husage, hsaid⟩ := startMessage_spec k part chunk
  obtain ⟨hdone', husage', hsaid'⟩ := advances_respond k hpart hdone chunk
  rw [husage] at hdone' husage'
  rw [hsaid] at hsaid'
  exact ⟨hdone', husage', hsaid'⟩

/-! ## Streams -/

def AllArrive (c : Conv Usage ClaudeUsage) : Nat → List (Chunk Usage) → Prop
  | _, [] => True
  | n, chunk :: chunks => c.state.done = false ∧ AllArrive (streamResponseOpenAI2Claude k n chunk c) (n + 1) chunks

def OnlyLastCloses (usageKnown : Bool) (chunks : List (Chunk Usage)) : Prop :=
  ∀ chunk ∈ chunks.dropLast, chunk.closes usageKnown = false

theorem onlyLastCloses_cons {usageKnown : Bool} {chunk next : Chunk Usage} :
    OnlyLastCloses usageKnown (chunk :: next :: chunks) ↔
      chunk.closes usageKnown = false ∧ OnlyLastCloses usageKnown (next :: chunks) := by
  simp [OnlyLastCloses]

theorem allArrive_iff {known : Bool} (hknown : c.state.done = false → c.state.usage.isSome = known)
    (hn : n ≠ 1 ∧ n ≠ 0) (chunk : Chunk Usage) (chunks : List (Chunk Usage)) :
    AllArrive k c n (chunk :: chunks) ↔ c.state.done = false ∧ OnlyLastCloses known (chunk :: chunks) := by
  induction chunks generalizing c n chunk with
  | nil => simp [AllArrive, OnlyLastCloses]
  | cons _ _ ih =>
    rw [AllArrive, onlyLastCloses_cons]
    refine and_congr_right fun hdone => ?_
    obtain ⟨hdone', husage', -⟩ := advances_stream k ofContent_textPart hdone hn.1 chunk
    rw [hknown hdone] at hdone' husage'
    rw [ih (fun hopen => (husage' (hdone'.symm.trans hopen))) (by omega), hdone']

theorem said_streamFrom (hpart : OfContent part) (hn : n ≠ 1 ∧ n ≠ 0) (harrive : AllArrive k c n chunks) :
    said part (streamFrom k c n chunks).sent = said part c.sent ++ chunks.flatMap (Chunk.taken part) := by
  induction chunks generalizing c n with
  | nil => simp [streamFrom]
  | cons chunk _ ih =>
    obtain ⟨hdone, hrest⟩ := harrive
    rw [streamFrom, ih (by omega) hrest, (advances_stream k hpart hdone hn.1 chunk).said, append_assoc, flatMap_cons]

theorem allArrive_first_iff (first : Chunk Usage) (chunks : List (Chunk Usage)) :
    AllArrive k ({} : Conv Usage ClaudeUsage) 1 (first :: chunks) ↔
    OnlyLastCloses (reportsTokens k first) (first :: chunks) := by
  obtain ⟨hdone, husage, -⟩ := advances_first k ofContent_textPart first
  cases chunks with
  | nil => simp [AllArrive, OnlyLastCloses]
  | cons =>
    rw [AllArrive, onlyLastCloses_cons, allArrive_iff k (fun h => husage (hdone.symm.trans h)) (by omega), hdone]
    simp

theorem said_finalize (hpart : OfContent part) :
    said part (finalizeStreamResponseOpenAI2Claude k c).sent = said part c.sent := by
  unfold finalizeStreamResponseOpenAI2Claude
  split_ifs
  · rfl
  · exact said_endMessage k hpart _ _

theorem said_stream (hpart : OfContent part) {first : Chunk Usage}
    (harrive : AllArrive k ({} : Conv Usage ClaudeUsage) 1 (first :: chunks)) :
    said part (finalizeStreamResponseOpenAI2Claude k (streamFrom k {} 1 (first :: chunks))).sent =
      (first :: chunks).flatMap (Chunk.taken part) := by
  rw [said_finalize k hpart, streamFrom, said_streamFrom k hpart (by omega) harrive.2,
    (advances_first k hpart first).2.2,
    flatMap_cons]

end Converter

/-! ## What is dropped -/

def Chunk.content (chunk : Chunk Usage) : Text := chunk.choices.flatMap fun choice => choice.delta.content

def Chunk.reasoning (chunk : Chunk Usage) : Text := chunk.choices.flatMap fun choice => choice.delta.reasoning

def Delta.OneKind (delta : Delta) : Prop :=
  (delta.toolCalls ≠ [] → delta.reasoning = [] ∧ delta.content = []) ∧ (delta.reasoning ≠ [] → delta.content = [])

theorem Delta.taken_text (delta : Delta) :
    delta.taken textPart = if delta.toolCalls ≠ [] ∨ delta.reasoning ≠ [] then [] else delta.content := by
  unfold taken
  by_cases htools : delta.toolCalls = [] <;> by_cases hreasoning : delta.reasoning = [] <;>
    by_cases hcontent : delta.content = [] <;>
    simp [htools, hreasoning, textPart]

theorem Delta.taken_thinking (delta : Delta) :
    delta.taken thinkingPart = if delta.toolCalls ≠ [] then [] else delta.reasoning := by
  unfold taken
  by_cases htools : delta.toolCalls = [] <;> by_cases hreasoning : delta.reasoning = [] <;>
    by_cases hcontent : delta.content = [] <;>
    simp [htools, thinkingPart]

theorem Delta.oneKind_iff (delta : Delta) :
    delta.OneKind ↔ delta.taken textPart = delta.content ∧ delta.taken thinkingPart = delta.reasoning := by
  rw [taken_text, taken_thinking, OneKind]
  by_cases htools : delta.toolCalls = [] <;> by_cases hreasoning : delta.reasoning = [] <;>
    simp [htools, hreasoning]

variable {chunk : Chunk Usage}

/-- Of a choice more than the first would be dropped as well: there is one choice. -/
theorem choices_of_one (hone : chunk.choices.length ≤ 1) : chunk.choices = [] ∨ ∃ choice, chunk.choices = [choice] := by
  match hchoices : chunk.choices with
  | [] => exact .inl rfl
  | [choice] => exact .inr ⟨choice, rfl⟩
  | _ :: _ :: _ => simp [hchoices] at hone

theorem Chunk.taken_text (hone : chunk.choices.length ≤ 1) :
    chunk.taken textPart = [] ∨ chunk.taken textPart = chunk.content := by
  unfold taken content
  rcases choices_of_one hone with hnone | ⟨_, hchoice⟩
  · simp [hnone]
  · simp only [hchoice, Delta.taken_text]
    split_ifs <;> simp

theorem Chunk.taken_thinking (hone : chunk.choices.length ≤ 1) :
    chunk.taken thinkingPart = [] ∨ chunk.taken thinkingPart = chunk.reasoning := by
  unfold taken reasoning
  rcases choices_of_one hone with hnone | ⟨_, hchoice⟩
  · simp [hnone]
  · simp only [hchoice, Delta.taken_thinking]
    split_ifs <;> simp

theorem Chunk.oneKind_iff (hone : chunk.choices.length ≤ 1) : (∀ choice ∈ chunk.choices, choice.delta.OneKind) ↔
      chunk.taken textPart = chunk.content ∧ chunk.taken thinkingPart = chunk.reasoning := by
  unfold taken content reasoning
  rcases choices_of_one hone with hnone | ⟨_, hchoice⟩
  · simp [hnone]
  · simp [hchoice, Delta.oneKind_iff]

theorem content_iff (k : Kit Usage ClaudeUsage) {first : Chunk Usage} {chunks : List (Chunk Usage)}
    (hone : ∀ chunk ∈ first :: chunks, chunk.choices.length ≤ 1) :
    let sent := (finalizeStreamResponseOpenAI2Claude k (streamFrom k {} 1 (first :: chunks))).sent
    (AllArrive k ({} : Conv Usage ClaudeUsage) 1 (first :: chunks) ∧
        said textPart sent = (first :: chunks).flatMap Chunk.content ∧
        said thinkingPart sent = (first :: chunks).flatMap Chunk.reasoning) ↔
      OnlyLastCloses (reportsTokens k first) (first :: chunks) ∧
        ∀ chunk ∈ first :: chunks, ∀ choice ∈ chunk.choices, choice.delta.OneKind := by
  intro sent
  rw [← allArrive_first_iff k]
  refine and_congr_right fun harrive => ?_
  rw [show said textPart sent = _ from said_stream k ofContent_textPart harrive,
    show said thinkingPart sent = _ from said_stream k ofContent_thinkingPart harrive,
    flatMap_eq_flatMap_iff fun chunk hchunk => chunk.taken_text (hone chunk hchunk),
    flatMap_eq_flatMap_iff fun chunk hchunk => chunk.taken_thinking (hone chunk hchunk), ← forall₂_and]
  exact forall₂_congr fun chunk hchunk => (Chunk.oneKind_iff (hone chunk hchunk)).symm

end CubeRouter.Streams.ChatToClaude
