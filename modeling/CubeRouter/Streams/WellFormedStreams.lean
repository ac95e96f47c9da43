import CubeRouter.Streams.ChatBlocks
import CubeRouter.Streams.ResponsesBlocks

/-!
# Claude streams are well formed

Both converters put a whole message on the stream, and nothing after it.
-/

namespace CubeRouter.Streams

open Strings Transition

theorem claude_streams_well_formed {Usage ClaudeUsage : Type} :
    (∀ (k : ChatToClaude.Kit Usage ClaudeUsage) (first : ChatToClaude.Chunk Usage)
      (chunks : List (ChatToClaude.Chunk Usage)),
      let c := ChatToClaude.finalizeStreamResponseOpenAI2Claude k (ChatToClaude.streamFrom k {} 1 (first :: chunks))
      WellFormed c.sent ∧ (∀ n chunk, ChatToClaude.streamResponseOpenAI2Claude k n chunk c = c) ∧
        ChatToClaude.finalizeStreamResponseOpenAI2Claude k c = c) ∧
    ∀ (k : ResponsesToClaude.Kit Usage ClaudeUsage) (estimatedInputTokens : Int) (id model : Text)
      (events : List (ResponsesToClaude.ResponsesEvent Usage)) (c c' : ResponsesToClaude.Conv Usage ClaudeUsage),
      ResponsesToClaude.convertChunks k estimatedInputTokens events
        { state := ResponsesToClaude.newResponsesToClaudeStreamState id model } = .ok c →
      ResponsesToClaude.finalize k estimatedInputTokens c = .ok c' →
      WellFormed c'.sent ∧ (∀ event, ResponsesToClaude.convertChunk k estimatedInputTokens event c' = .ok c') ∧
        ResponsesToClaude.finalize k estimatedInputTokens c' = .ok c' := by
  constructor
  · intro k first chunks
    obtain ⟨hdone, hformed⟩ := ChatToClaude.ended_finalize k first chunks
    exact ⟨hformed, ChatToClaude.stream_of_done k hdone, ChatToClaude.finalize_of_done k hdone⟩
  · intro k estimatedInputTokens id model events c c' hevents hfinal
    obtain ⟨hdone, hformed⟩ := ResponsesToClaude.ended_finalize hevents hfinal
    exact ⟨hformed, ResponsesToClaude.convertChunk_of_done hdone, ResponsesToClaude.finalize_of_done hdone⟩

/-- A text that comes in two pieces, and a call whose name comes after its arguments. -/
theorem claude_streams_well_formed_late_name :
    let k : ResponsesToClaude.Kit Int Int :=
      { usageFromOpenAI := id, inputTokens := id, usageOfInputTokens := id, mergeUsageNonZero := fun _ usage => usage,
        usageFromResponsesUsage := id, toolUseToken := [], unmarshal := some, annotationsToClaude := fun _ _ => [] }
    let events : List (ResponsesToClaude.ResponsesEvent Int) :=
      [{ type := .outputTextDelta, delta := text "a" }, { type := .outputTextDelta, delta := text "b" },
        { type := .argumentsDelta, delta := text "1", outputIndex := some 1 },
        { type := .outputItemDone, outputIndex := some 1,
          item := some { type := .functionCall, callId := text "call_1", name := text "f", arguments := text "12" } }]
    let state := ResponsesToClaude.newResponsesToClaudeStreamState (text "resp_1") (text "m")
    ∃ c c', ResponsesToClaude.convertChunks k 7 events { state } = .ok c ∧ ResponsesToClaude.finalize k 7 c = .ok c' ∧
      WellFormed c'.sent := by
  intro k events state
  have hruns : (do
      ResponsesToClaude.finalize k 7 (← ResponsesToClaude.convertChunks k 7 events { state })).toOption.isSome := by
    decide
  obtain ⟨c', hc'⟩ := Option.isSome_iff_exists.mp hruns
  obtain ⟨c, hevents, hfinal⟩ := bind_eq_ok.mp (toOption_eq_some.mp hc')
  exact ⟨c, c', hevents, hfinal, (claude_streams_well_formed.2 k 7 _ _ events c c' hevents hfinal).1⟩

end CubeRouter.Streams
