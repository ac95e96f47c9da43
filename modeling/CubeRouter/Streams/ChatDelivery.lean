import CubeRouter.Streams.ChatRuns
import Mathlib.Data.List.Forall2

/-!
# What of a Chat stream is delivered

Text and thinking are delivered when the content of each delta is of one kind and only the last chunk closes the
message, and then the calls are when no run of tool calls is broken.
-/

namespace CubeRouter.Streams.ChatToClaude

open Strings

section Converter

variable {Usage ClaudeUsage : Type} (k : Kit Usage ClaudeUsage) {c : Conv Usage ClaudeUsage}
  {log : CallLog} {run : Option Nat}

/-! ## One chunk -/

theorem Follows.set (h : Follows c log run) (usage : Option Usage) (finishReason : Text) :
    Follows (c.set { c.state with usage := usage, finishReason := finishReason }) log run := by
  obtain ⟨hsound, hrun⟩ := h
  cases run with
  | none => exact ⟨hsound, hrun⟩
  | some =>
    obtain ⟨blocks, htype, hlength, htools, hindex, hid, hearlier, hsorted, hbelow, heach, hothers⟩ := hrun
    exact ⟨hsound, blocks, htype, hlength, htools, hindex, hid, hearlier, hsorted, hbelow, heach, hothers⟩

theorem follows_applyDelta (h : Follows c log run) {delta : Delta}
    (hrun : InRun (run.getD log.calls.length) log 0 delta.toolCalls) :
    Follows (applyDelta k delta c) (log.addFrom 0 delta.toolCalls)
      (if delta.toolCalls ≠ [] then some (run.getD log.calls.length)
      else if delta.reasoning ≠ [] ∨ delta.content ≠ [] then none else run) := by
  unfold applyDelta
  by_cases htools : delta.toolCalls ≠ []
  · rw [if_pos htools, if_pos htools]
    exact follows_applyToolCalls k h hrun
  · rw [if_neg htools, if_neg htools]
    rw [not_not] at htools
    rw [htools]
    by_cases hreasoning : delta.reasoning ≠ []
    · rw [if_pos hreasoning, if_pos (.inl hreasoning)]
      exact ⟨h.1, (settled_ensureBlock k h (by simp) (by simp [ContentBlock.type])).send
        fun index => noTool_delta index _ (by simp [BlockDelta.type])⟩
    · rw [if_neg hreasoning]
      by_cases hcontent : delta.content ≠ []
      · rw [if_pos hcontent, if_pos (.inr hcontent)]
        exact ⟨h.1, (settled_ensureBlock k h (by simp) (by simp [ContentBlock.type])).send
          fun index => noTool_delta index _ (by simp [BlockDelta.type])⟩
      · rw [if_neg hcontent, if_neg (by simp [hreasoning, hcontent])]
        exact h

theorem follows_appendCitationDeltas (h : Follows c log run) (raw : Text) :
    Follows (appendCitationDeltas k raw c) log (if k.chatAnnotationsToClaude raw ≠ [] then none else run) := by
  unfold appendCitationDeltas
  by_cases hcitations : k.chatAnnotationsToClaude raw = []
  · simp only [hcitations]
    exact h
  · simp only [hcitations, ne_eq]
    refine ⟨h.1, (settled_ensureBlock k h (by simp) (by simp [ContentBlock.type])).send
      fun index => noTool_of_forall fun r hr => ?_⟩
    obtain ⟨_, -, rfl⟩ := List.mem_map.mp hr
    exact noTool_delta index _ (by simp [BlockDelta.type])

theorem delivers_endMessage (h : Follows c log run) (usage : Option ClaudeUsage) (stopReason : Text) :
    ∃ blocks, Delivers blocks (endMessage k usage stopReason c).sent log.calls := by
  obtain ⟨blocks, hdelivers⟩ := h.delivers k
  exact ⟨blocks, hdelivers.frame fun index => ⟨rfl, rfl⟩⟩

/-- Where the message goes on the converter is where the stream is; where it has ended all calls have their blocks. -/
def Keeps (c : Conv Usage ClaudeUsage) (log : CallLog) (run : Option Nat) : Prop :=
  (c.state.done = false ∧ Follows c log run) ∨ (c.state.done = true ∧ ∃ blocks, Delivers blocks c.sent log.calls)

theorem keeps_end (h : Follows c log run) (hdone : c.state.done = false) (incoming : Option Usage)
    (reason : ClaudeConvertInfo Usage → Text) : Keeps
      (match clientVisibleClaudeStreamUsage k c.state incoming with
      | (none, state) => c.set state
      | (some usage, state) => endMessage k (some usage) (reason state) (c.set state)) log run := by
  have hset : Follows (c.set (clientVisibleClaudeStreamUsage k c.state incoming).2) log run ∧
      (clientVisibleClaudeStreamUsage k c.state incoming).2.done = false := by
    unfold clientVisibleClaudeStreamUsage
    cases incoming with
    | none => cases c.state.usage <;> exact ⟨h, hdone⟩
    | some incoming =>
      have hmerged := h.set (some (k.mergeUsageNonZero c.state.usage incoming)) c.state.finishReason
      cases husage : c.state.usage <;> rw [husage] at hmerged <;> exact ⟨hmerged, hdone⟩
  generalize clientVisibleClaudeStreamUsage k c.state incoming = visible at hset ⊢
  obtain ⟨usage, _⟩ := visible
  cases usage with
  | none => exact .inl ⟨hset.2, hset.1⟩
  | some => exact .inr ⟨rfl, delivers_endMessage k hset.1 _ _⟩

theorem keeps_respond (h : Follows c log run) (hdone : c.state.done = false) {chunk : Chunk Usage}
    (hrun : InRun (run.getD log.calls.length) log 0 chunk.toolCalls) : Keeps
      (match chunk.choices with
      | [] => applyUsage k chunk.usage c | choice :: _ => applyChoice k choice chunk.usage c)
      (log.addFrom 0 chunk.toolCalls) (nextRun k log run chunk) := by
  unfold Chunk.toolCalls nextRun at *
  cases hchoices : chunk.choices with
  | nil =>
    have hend := keeps_end k h hdone chunk.usage fun state => orEndTurn (stopReasonOpenAI2Claude state.finishReason)
    unfold applyUsage
    generalize clientVisibleClaudeStreamUsage k c.state chunk.usage = visible at hend ⊢
    obtain ⟨usage, state⟩ := visible
    cases usage <;> exact hend
  | cons choice =>
    rw [hchoices] at hrun
    unfold applyChoice
    dsimp only
    generalize hc1 :
      (if isDoneChunk choice then c.set { c.state with finishReason := choice.finishReason.getD [] } else c) = c1
    have hfinished : Follows c1 log run := by
      subst hc1
      split_ifs
      · exact h.set c.state.usage (choice.finishReason.getD [])
      · exact h
    have hopen1 : c1.state.done = false := by
      subst hc1
      split_ifs <;> exact hdone
    have hfollows := follows_appendCitationDeltas k (follows_applyDelta k hfinished hrun) choice.delta.annotations
    have hopen : (appendCitationDeltas k choice.delta.annotations (applyDelta k choice.delta c1)).state.done = false :=
      ((speaks_applyDelta k ofContent_textPart choice.delta).then
        (quiet_appendCitationDeltas k ofContent_textPart choice.delta.annotations)).done.trans hopen1
    generalize appendCitationDeltas k choice.delta.annotations (applyDelta k choice.delta c1) = c2 at hfollows hopen ⊢
    rw [hopen]
    cases isDoneChunk choice with
    | false => exact .inl ⟨hopen, hfollows⟩
    | true =>
      have hend := keeps_end k hfollows hopen chunk.usage fun state => stopReasonOpenAI2Claude state.finishReason
      generalize clientVisibleClaudeStreamUsage k c2.state chunk.usage = visible at hend ⊢
      obtain ⟨usage, _⟩ := visible
      cases usage <;> exact hend

/-! ## Streams -/

theorem keeps_streamFrom {chunks : List (Chunk Usage)} (h : Keeps c log run) {n : Nat} (hn : 1 < n)
    (harrive : AllArrive k c n chunks) (hunbroken : Unbroken k log run chunks) :
    ∃ run', Keeps (streamFrom k c n chunks)
      (chunks.foldl (fun log chunk => log.addFrom 0 chunk.toolCalls) log) run' := by
  induction chunks generalizing c log run n with
  | nil => exact ⟨run, h⟩
  | cons chunk _ ih =>
    obtain ⟨hdone, hrest⟩ := harrive
    obtain ⟨hrun, hunbroken⟩ := hunbroken
    have hfollows : Follows c log run := by
      rcases h with ⟨-, hfollows⟩ | ⟨hended, -⟩
      · exact hfollows
      · exact absurd (hdone.symm.trans hended) (by simp)
    have hchunk := keeps_respond k hfollows hdone hrun
    have hstep : streamResponseOpenAI2Claude k n chunk c =
        match chunk.choices with
        | [] => applyUsage k chunk.usage c
        | choice :: _ => applyChoice k choice chunk.usage c := by
      have hlater : n ≠ 1 := by omega
      unfold streamResponseOpenAI2Claude
      cases chunk.choices with
      | nil => simp [hdone, hlater]
      | cons => simp [hdone, hlater]
    rw [← hstep] at hchunk
    exact ih hchunk (by omega) hrest hunbroken

theorem follows_start (chunk : Chunk Usage) : Follows (startMessage k chunk {}) {} none := by
  have hsettled : Settled (startMessage k chunk {}) {} := by
    unfold startMessage
    split
    · split_ifs <;> exact ⟨by simp [Conv.set, Conv.send], [], ⟨rfl, .nil, by simp, fun index _ => ⟨rfl, rfl⟩⟩, by simp⟩
    · exact ⟨by simp [Conv.send], [], ⟨rfl, .nil, by simp, fun index _ => ⟨rfl, rfl⟩⟩, by simp⟩
  exact ⟨⟨by simp, by simp⟩, hsettled⟩

theorem delivers_stream {first : Chunk Usage} {chunks : List (Chunk Usage)}
    (harrive : AllArrive k ({} : Conv Usage ClaudeUsage) 1 (first :: chunks))
    (hunbroken : Unbroken k {} none (first :: chunks)) :
    ∃ blocks, Delivers blocks (finalizeStreamResponseOpenAI2Claude k (streamFrom k {} 1 (first :: chunks))).sent
      (callsOf (first :: chunks)).calls := by
  have hfirst := keeps_respond k (follows_start k first) (startMessage_spec k textPart first).1 hunbroken.1
  obtain ⟨_, hkeeps⟩ := keeps_streamFrom k (n := 2) hfirst (by omega) harrive.2 hunbroken.2
  unfold finalizeStreamResponseOpenAI2Claude
  rcases hkeeps with ⟨hopen, hfollows⟩ | ⟨hdone, hdelivers⟩
  · have hopen' : (streamFrom k {} 1 (first :: chunks)).state.done = false := hopen
    rw [hopen', if_neg (by simp)]
    exact delivers_endMessage k hfollows _ _
  · have hdone' : (streamFrom k {} 1 (first :: chunks)).state.done = true := hdone
    rw [if_pos hdone']
    exact hdelivers

/-- Text, thinking and all chunks arrive exactly when each delta is of one kind and no chunk but the last closes the
message; with unbroken runs each call then has one block, with its arguments. -/
theorem chat_stream_delivered (first : Chunk Usage) (chunks : List (Chunk Usage))
    (hone : ∀ chunk ∈ first :: chunks, chunk.choices.length ≤ 1)
    (hnamed : ∀ call ∈ (callsOf (first :: chunks)).calls, call.name ≠ []) :
    let sent := (finalizeStreamResponseOpenAI2Claude k (streamFrom k {} 1 (first :: chunks))).sent
    let whole := OnlyLastCloses (reportsTokens k first) (first :: chunks) ∧
      ∀ chunk ∈ first :: chunks, ∀ choice ∈ chunk.choices, choice.delta.OneKind
    ((AllArrive k ({} : Conv Usage ClaudeUsage) 1 (first :: chunks) ∧
        said textPart sent = (first :: chunks).flatMap Chunk.content ∧
        said thinkingPart sent = (first :: chunks).flatMap Chunk.reasoning) ↔ whole) ∧
      (whole → Unbroken k {} none (first :: chunks) →
        ∃ blocks : List Nat, blocks.Nodup ∧
          List.Forall₂ (fun index (call : Call) => ToolUse index [call.name] call.arguments sent) blocks
          (callsOf (first :: chunks)).calls ∧
          ∀ index, index ∉ blocks → NoTool index sent) := by
  intro sent whole
  have hcontent := content_iff k hone
  refine ⟨hcontent, fun hwhole hunbroken => ?_⟩
  obtain ⟨blocks, hlength, hsorted, heach, hothers⟩ := delivers_stream k (hcontent.mpr hwhole).1 hunbroken
  refine ⟨blocks, hsorted.imp fun hlt => Nat.ne_of_lt hlt, ?_, hothers⟩
  refine List.forall₂_iff_get.mpr ⟨hlength, fun i hi hi' => ?_⟩
  have hdelivered := heach i _ _ (List.getElem?_eq_getElem hi) (List.getElem?_eq_getElem hi')
  have hname := hnamed _ (List.getElem_mem hi')
  unfold Delivered at hdelivered
  rw [if_neg hname, if_neg hname] at hdelivered
  exact hdelivered

end Converter

/-- A text, a call in two fragments, and the usage after the finish reason. -/
theorem chat_stream_delivered_call :
    let k : Kit Int Int :=
      { usageFromOpenAI := id, mergeUsageNonZero := fun _ usage => usage,
        mergeClaudeUsageNonZero := fun _ usage => usage,
        hasOpenAIUsageTokens := fun usage => usage > 0, estimatedUsage := 0, uuid := fun _ => [], toolUseToken := [],
        chatAnnotationsToClaude := fun _ => [] }
    let first : Chunk Int := { choices := [{ delta := { content := text "a" } }] }
    let chunks : List (Chunk Int) :=
      [{ choices := [{ delta := { toolCalls :=
          [{ index := some 0, id := text "call_1", name := text "f", arguments := text "1" }] } }] },
        { choices := [{ delta := { toolCalls := [{ index := some 0, arguments := text "2" }] } }] },
        { choices := [{ finishReason := some (text "tool_calls") }] }, { usage := some 5 }]
    let sent := (finalizeStreamResponseOpenAI2Claude k (streamFrom k {} 1 (first :: chunks))).sent
    said textPart sent = text "a" ∧
      ∃ blocks :
        List Nat, List.Forall₂ (fun index (call : Call) => ToolUse index [call.name] call.arguments sent) blocks
        [{ id := text "call_1", name := text "f", arguments := text "12" }] := by
  intro k first chunks sent
  have hdelivered := chat_stream_delivered k first chunks (by decide) (by decide)
  have hwhole : OnlyLastCloses (reportsTokens k first) (first :: chunks) ∧
      ∀ chunk ∈ first :: chunks, ∀ choice ∈ chunk.choices, choice.delta.OneKind := by
    refine ⟨by unfold OnlyLastCloses; decide, by unfold Delta.OneKind; decide⟩
  have hunbroken : Unbroken k {} none (first :: chunks) := by
    refine ⟨trivial, ⟨fun i hi => (by cases hi), trivial⟩, ⟨fun i _ => Nat.zero_le i, trivial⟩,
      trivial, trivial, trivial⟩
  obtain ⟨blocks, -, hblocks, -⟩ := hdelivered.2 hwhole hunbroken
  exact ⟨(hdelivered.1.mpr hwhole).2.1, blocks, hblocks⟩

/-- The text of a chunk that has a tool call as well is dropped. -/
theorem text_beside_call_dropped :
    let k : Kit Int Int :=
      { usageFromOpenAI := id, mergeUsageNonZero := fun _ usage => usage,
        mergeClaudeUsageNonZero := fun _ usage => usage,
        hasOpenAIUsageTokens := fun usage => usage > 0, estimatedUsage := 0, uuid := fun _ => [], toolUseToken := [],
        chatAnnotationsToClaude := fun _ => [] }
    let first : Chunk Int :=
      { choices := [{ delta := { content := text "a", toolCalls :=
        [{ id := text "call_1", name := text "f", arguments := text "1" }] } }] }
    let chunks : List (Chunk Int) := [{ choices := [{ finishReason := some (text "tool_calls") }] }]
    (∀ chunk ∈ first :: chunks, chunk.choices.length ≤ 1) ∧
      (∀ call ∈ (callsOf (first :: chunks)).calls, call.name ≠ []) ∧
      ¬(said textPart (finalizeStreamResponseOpenAI2Claude k (streamFrom k {} 1 (first :: chunks))).sent =
        (first :: chunks).flatMap Chunk.content) := by
  decide

end CubeRouter.Streams.ChatToClaude
