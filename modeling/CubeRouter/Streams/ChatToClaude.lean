import CubeRouter.Streams.Claude

/-!
# From Chat chunks to a Claude stream

`relayconvert/internal/oai_chat/to_claude_messages_resp.go`. The responses that the calls return are appended to one
list, `sent`. A pointer to a tool call is its place in `toolCalls`. What the converter does with usages, the tokens
and ids that it draws, and how it reads annotations (`shared/claude/usage.go`, `dto/usage_merge.go`, `kitutil`,
`citations.go`) is the parameter `Kit`: an input of the stream.
-/

namespace CubeRouter.Streams.ChatToClaude

open Strings

/-! ## Chunks -/

structure ToolCallResponse where
  index : Option Int := none
  id : Text := []
  name : Text := []
  arguments : Text := []

structure Delta where
  /-- `GetReasoningContent` and `GetContentString`: empty when there is none. -/
  reasoning : Text := []
  content : Text := []
  toolCalls : List ToolCallResponse := []
  annotations : Text := []

structure Choice where
  delta : Delta := {}
  finishReason : Option Text := none

structure Chunk (Usage : Type) where
  id : Text := []
  model : Text := []
  choices : List Choice := []
  usage : Option Usage := none

structure Kit (Usage ClaudeUsage : Type) where
  usageFromOpenAI : Usage → ClaudeUsage
  mergeUsageNonZero : Option Usage → Usage → Usage
  mergeClaudeUsageNonZero : ClaudeUsage → ClaudeUsage → ClaudeUsage
  hasOpenAIUsageTokens : Usage → Bool
  /-- The estimated prompt tokens, and no output. -/
  estimatedUsage : ClaudeUsage
  /-- `GetUUID` for the tool call of a block. -/
  uuid : Nat → Text
  toolUseToken : Text
  chatAnnotationsToClaude : Text → List Text

/-! ## The state -/

structure ClaudeStreamToolCall where
  blockIndex : Nat
  id : Text := []
  name : Text := []
  pendingArguments : Text := []
  started : Bool := false

inductive LastMessagesType
  | none
  | text
  | tools
  | thinking
  deriving DecidableEq

structure ClaudeConvertInfo (Usage : Type) where
  lastMessagesType : LastMessagesType := .none
  index : Nat := 0
  usage : Option Usage := none
  finishReason : Text := []
  done : Bool := false
  toolCallBaseIndex : Nat := 0
  toolCallMaxIndexOffset : Nat := 0
  toolCalls : List ClaudeStreamToolCall := []
  toolCallByIndex : Int → Option Nat := fun _ => .none
  toolCallByID : Text → Option Nat := fun _ => .none

/-- The state, and all that has been returned. -/
structure Conv (Usage ClaudeUsage : Type) where
  state : ClaudeConvertInfo Usage := {}
  sent : List (ClaudeResponse ClaudeUsage) := []

variable {Usage ClaudeUsage : Type}

def Conv.send (c : Conv Usage ClaudeUsage) (responses : List (ClaudeResponse ClaudeUsage)) : Conv Usage ClaudeUsage :=
  { c with sent := c.sent ++ responses }

def Conv.set (c : Conv Usage ClaudeUsage) (state : ClaudeConvertInfo Usage) : Conv Usage ClaudeUsage :=
  { c with state := state }

/-! ## Blocks -/

def generateStopBlock (index : Nat) : ClaudeResponse ClaudeUsage := .contentBlockStop index

def stopOpenBlocks (state : ClaudeConvertInfo Usage) : List (ClaudeResponse ClaudeUsage) :=
  match state.lastMessagesType with
  | .text | .thinking => [generateStopBlock state.index]
  | .tools =>
    if state.toolCalls = [] then
      (List.range (state.toolCallMaxIndexOffset + 1)).map fun offset =>
        generateStopBlock (state.toolCallBaseIndex + offset)
    else (state.toolCalls.filter fun tool => tool.started).map fun tool => generateStopBlock tool.blockIndex
  | .none => []

section Converter

variable (k : Kit Usage ClaudeUsage)

/-- The start of the block of a tool call, and the arguments that have come before it. -/
def startToolBlock (tool : ClaudeStreamToolCall) : List (ClaudeResponse ClaudeUsage) :=
  .contentBlockStart tool.blockIndex
      (.toolUse (normalizeToolUseID tool.id tool.name k.toolUseToken tool.blockIndex) tool.name) ::
    if tool.pendingArguments = [] then [] else [.contentBlockDelta tool.blockIndex (.inputJson tool.pendingArguments)]

def ClaudeStreamToolCall.start (tool : ClaudeStreamToolCall) : ClaudeStreamToolCall :=
  { tool with started := true, pendingArguments := [] }

/-- One turn of the loop of `startPendingToolBlocks`. -/
def startPendingToolBlock (tool : ClaudeStreamToolCall) : List (ClaudeResponse ClaudeUsage) × ClaudeStreamToolCall :=
  if tool.started ∨ tool.name = [] then ([], tool)
  else
    let tool := if tool.id = [] then { tool with id := text "toolu_" ++ k.uuid tool.blockIndex } else tool
    (startToolBlock k tool, tool.start)

def startPendingToolBlocks (c : Conv Usage ClaudeUsage) : Conv Usage ClaudeUsage :=
  if c.state.lastMessagesType = .tools then
    { state := { c.state with toolCalls := c.state.toolCalls.map fun tool => (startPendingToolBlock k tool).2 }
      sent := c.sent ++ c.state.toolCalls.flatMap fun tool => (startPendingToolBlock k tool).1 }
  else c

def appendStopOpenBlocks (c : Conv Usage ClaudeUsage) : Conv Usage ClaudeUsage :=
  let c := startPendingToolBlocks k c
  c.send (stopOpenBlocks c.state)

def stopOpenBlocksAndAdvance (c : Conv Usage ClaudeUsage) : Conv Usage ClaudeUsage :=
  if c.state.lastMessagesType = .none then c
  else
    let c := appendStopOpenBlocks k c
    c.set
      (match c.state.lastMessagesType with
      | .tools =>
        { c.state with
          lastMessagesType := .none
          index := c.state.toolCallBaseIndex + c.state.toolCalls.length
          toolCallBaseIndex := 0
          toolCallMaxIndexOffset := 0
          toolCalls := []
          toolCallByIndex := fun _ => .none
          toolCallByID := fun _ => .none }
      | _ => { c.state with lastMessagesType := .none, index := c.state.index + 1 })

/-- A text or thinking block, if the last one is of another type. -/
def ensureBlock (type : LastMessagesType) (block : ContentBlock) (c : Conv Usage ClaudeUsage) :
    Conv Usage ClaudeUsage :=
  if c.state.lastMessagesType = type then c
  else
    let c := stopOpenBlocksAndAdvance k c
    (c.send [.contentBlockStart c.state.index block]).set { c.state with lastMessagesType := type }

def appendCitationDeltas (raw : Text) (c : Conv Usage ClaudeUsage) : Conv Usage ClaudeUsage :=
  let citations := k.chatAnnotationsToClaude raw
  if citations = [] then c
  else
    let c := ensureBlock k .text .text c
    c.send (citations.map fun citation => .contentBlockDelta c.state.index (.citations citation))

def clientVisibleClaudeStreamUsage (state : ClaudeConvertInfo Usage) (incoming : Option Usage) :
    Option ClaudeUsage × ClaudeConvertInfo Usage :=
  let prior := state.usage.map k.usageFromOpenAI
  let converted := incoming.map k.usageFromOpenAI
  let state :=
    match incoming with
    | some incoming => { state with usage := some (k.mergeUsageNonZero state.usage incoming) }
    | none => state
  match prior, converted with
  | none, _ => (converted, state)
  | some prior, none => (some prior, state)
  | some prior, some converted => (some (k.mergeClaudeUsageNonZero prior converted), state)

/-! ## Tool calls -/

/-- The tool call that a fragment continues. -/
def findToolCall (state : ClaudeConvertInfo Usage) (incomingID : Text) (toolIndex : Int) : Option Nat :=
  let found := (if incomingID = [] then none else state.toolCallByID incomingID).or (state.toolCallByIndex toolIndex)
  match found with
  | none => none
  | some i =>
    match state.toolCalls[i]? with
    | none => none
    | some tool => if incomingID ≠ [] ∧ tool.id ≠ [] ∧ tool.id ≠ incomingID then none else some i

/-- What a fragment adds to a tool call before its block is looked at. -/
def ClaudeStreamToolCall.receive (tool : ClaudeStreamToolCall) (toolCall : ToolCallResponse) : ClaudeStreamToolCall :=
  let incomingID := trimSpace toolCall.id
  { tool with
    id := if tool.id = [] then incomingID else tool.id
    name := if tool.name = [] then trimSpace toolCall.name else tool.name
    pendingArguments := if tool.started then tool.pendingArguments else tool.pendingArguments ++ toolCall.arguments }

def sendToolCall (tool : ClaudeStreamToolCall) (arguments : Text) :
    List (ClaudeResponse ClaudeUsage) × ClaudeStreamToolCall :=
  if tool.started = false ∧ tool.id ≠ [] ∧ tool.name ≠ [] then (startToolBlock k tool, tool.start)
  else if tool.started ∧ arguments ≠ [] then ([.contentBlockDelta tool.blockIndex (.inputJson arguments)], tool)
  else ([], tool)

/-- The tool call at a place receives a fragment. -/
def receiveToolCall (i : Nat) (tool : ClaudeStreamToolCall) (toolIndex : Int) (toolCall : ToolCallResponse)
    (c : Conv Usage ClaudeUsage) : Conv Usage ClaudeUsage :=
  let incomingID := trimSpace toolCall.id
  let sent := sendToolCall k (tool.receive toolCall) toolCall.arguments
  { state := { c.state with
      toolCalls := c.state.toolCalls.set i sent.2
      toolCallByIndex := Function.update c.state.toolCallByIndex toolIndex (some i)
      toolCallByID :=
        if tool.id = [] ∧ incomingID ≠ [] then Function.update c.state.toolCallByID incomingID (some i)
        else c.state.toolCallByID }
    sent := c.sent ++ sent.1 }

/-- One turn of the loop over the tool calls of a chunk, for the one at place `n`. -/
def applyToolCall (c : Conv Usage ClaudeUsage) (n : Nat) (toolCall : ToolCallResponse) : Conv Usage ClaudeUsage :=
  let toolIndex := toolCall.index.getD n
  match findToolCall c.state (trimSpace toolCall.id) toolIndex with
  | some i =>
    match c.state.toolCalls[i]? with
    | some tool => receiveToolCall k i tool toolIndex toolCall c
    | none => c
  | none =>
    let tool : ClaudeStreamToolCall := { blockIndex := c.state.toolCallBaseIndex + c.state.toolCalls.length }
    receiveToolCall k c.state.toolCalls.length tool toolIndex toolCall
      (c.set { c.state with toolCalls := c.state.toolCalls ++ [tool] })

def applyToolCallsFrom (c : Conv Usage ClaudeUsage) : Nat → List ToolCallResponse → Conv Usage ClaudeUsage
  | _, [] => c
  | n, toolCall :: toolCalls => applyToolCallsFrom (applyToolCall k c n toolCall) (n + 1) toolCalls

def applyToolCalls (toolCalls : List ToolCallResponse) (c : Conv Usage ClaudeUsage) : Conv Usage ClaudeUsage :=
  let c :=
    if c.state.lastMessagesType = .tools then c
    else
      let c := stopOpenBlocksAndAdvance k c
      c.set { c.state with
        lastMessagesType := .tools
        toolCallBaseIndex := c.state.index
        toolCallMaxIndexOffset := 0
        toolCalls := []
        toolCallByIndex := fun _ => .none
        toolCallByID := fun _ => .none }
  let c := applyToolCallsFrom k c 0 toolCalls
  c.set { c.state with
    toolCallMaxIndexOffset := c.state.toolCalls.length - 1
    index :=
      if c.state.toolCalls = [] then c.state.index else c.state.toolCallBaseIndex + c.state.toolCalls.length - 1 }

/-! ## The stream -/

def stopReasonOpenAI2Claude (reason : Text) : Text := openAIFinishReasonToClaudeStopReason reason

def orEndTurn (reason : Text) : Text := if reason = [] then text "end_turn" else reason

def endMessage (usage : Option ClaudeUsage) (stopReason : Text) (c : Conv Usage ClaudeUsage) : Conv Usage ClaudeUsage :=
  let c := appendStopOpenBlocks k c
  (c.send [.messageDelta usage stopReason, .messageStop]).set { c.state with done := true }

def startMessage (chunk : Chunk Usage) (c : Conv Usage ClaudeUsage) : Conv Usage ClaudeUsage :=
  match chunk.usage with
  | some usage =>
    if k.hasOpenAIUsageTokens usage then
      (c.send [.messageStart chunk.id chunk.model (some (k.usageFromOpenAI usage))]).set
        { c.state with usage := some (k.mergeUsageNonZero c.state.usage usage) }
    else c.send [.messageStart chunk.id chunk.model (some k.estimatedUsage)]
  | none => c.send [.messageStart chunk.id chunk.model (some k.estimatedUsage)]

/-- A chunk without choices. -/
def applyUsage (incoming : Option Usage) (c : Conv Usage ClaudeUsage) : Conv Usage ClaudeUsage :=
  let (usage, state) := clientVisibleClaudeStreamUsage k c.state incoming
  match usage with
  | none => c.set state
  | some usage => endMessage k (some usage) (orEndTurn (stopReasonOpenAI2Claude state.finishReason)) (c.set state)

/-- The content of a delta: one branch is taken. -/
def applyDelta (delta : Delta) (c : Conv Usage ClaudeUsage) : Conv Usage ClaudeUsage :=
  if delta.toolCalls ≠ [] then applyToolCalls k delta.toolCalls c
  else if delta.reasoning ≠ [] then
    let c := ensureBlock k .thinking .thinking c
    c.send [.contentBlockDelta c.state.index (.thinking delta.reasoning)]
  else if delta.content ≠ [] then
    let c := ensureBlock k .text .text c
    c.send [.contentBlockDelta c.state.index (.text delta.content)]
  else c

def isDoneChunk (choice : Choice) : Bool := choice.finishReason.getD [] ≠ []

def applyChoice (choice : Choice) (incoming : Option Usage) (c : Conv Usage ClaudeUsage) : Conv Usage ClaudeUsage :=
  let c := if isDoneChunk choice then c.set { c.state with finishReason := choice.finishReason.getD [] } else c
  let c := appendCitationDeltas k choice.delta.annotations (applyDelta k choice.delta c)
  if isDoneChunk choice ∨ c.state.done then
    let (usage, state) := clientVisibleClaudeStreamUsage k c.state incoming
    match usage with
    | none => c.set state
    | some usage => endMessage k (some usage) (stopReasonOpenAI2Claude state.finishReason) (c.set state)
  else c

/-- The count is the one that was incremented for this chunk. -/
def streamResponseOpenAI2Claude (sendResponseCount : Nat) (chunk : Chunk Usage) (c : Conv Usage ClaudeUsage) :
    Conv Usage ClaudeUsage :=
  if c.state.done then c
  else
    let c := if sendResponseCount = 1 then startMessage k chunk c else c
    match chunk.choices with
    | [] => applyUsage k chunk.usage c
    | choice :: _ => applyChoice k choice chunk.usage c

def finalizeStreamResponseOpenAI2Claude (c : Conv Usage ClaudeUsage) : Conv Usage ClaudeUsage :=
  if c.state.done then c
  else endMessage k (clientVisibleClaudeStreamUsage k c.state none).1
    (orEndTurn (stopReasonOpenAI2Claude c.state.finishReason)) c

def streamFrom (c : Conv Usage ClaudeUsage) : Nat → List (Chunk Usage) → Conv Usage ClaudeUsage
  | _, [] => c
  | n, chunk :: chunks => streamFrom (streamResponseOpenAI2Claude k n chunk c) (n + 1) chunks

end Converter

end CubeRouter.Streams.ChatToClaude
