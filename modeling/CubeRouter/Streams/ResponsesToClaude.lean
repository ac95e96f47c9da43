import CubeRouter.Streams.Claude

/-!
# From Responses events to a Claude stream

`relayconvert/internal/oai_responses/to_claude_messages_stream_resp.go`. As for Chat chunks the responses of all calls
are one list, a pointer to a block is its place in `blocks`, and `Kit` has what is read from usages and annotations. A
call that returns an error has no state: nothing is promised of the calls behind it.
-/

namespace CubeRouter.Streams.ResponsesToClaude

open Strings

/-! ## Events -/

inductive OutputType
  | message
  | reasoning
  | functionCall
  | customToolCall
  | other

structure OutputContent where
  isOutputText : Bool := true
  text : Text := []
  annotations : List Text := []

structure ResponsesOutput where
  type : OutputType
  id : Text := []
  role : Text := []
  content : List OutputContent := []
  /-- The texts of the summary. -/
  summary : List Text := []
  callId : Text := []
  name : Text := []
  /-- `ArgumentsString`. -/
  arguments : Text := []

structure ResponsesResponse (Usage : Type) where
  id : Text := []
  model : Text := []
  status : Text := []
  incompleteReason : Text := []
  output : List ResponsesOutput := []
  usage : Option Usage := none

inductive EventType
  | created
  | reasoningDelta
  | reasoningDone
  | outputTextDelta
  | outputTextDone
  | annotationAdded
  | outputItemAdded
  | outputItemDone
  | argumentsDelta
  | argumentsDone
  /-- `response.completed`, `response.done` and `response.incomplete`. -/
  | completed
  | failed
  | error
  | other

structure ResponsesEvent (Usage : Type) where
  type : EventType
  response : Option (ResponsesResponse Usage) := none
  message : Text := []
  delta : Text := []
  arguments : Option Text := none
  text : Option Text := none
  item : Option ResponsesOutput := none
  annotationJson : Text := []
  outputIndex : Option Int := none
  itemID : Text := []

structure Kit (Usage ClaudeUsage : Type) where
  usageFromOpenAI : Usage → ClaudeUsage
  inputTokens : ClaudeUsage → Int
  usageOfInputTokens : Int → ClaudeUsage
  mergeUsageNonZero : Option Usage → Usage → Usage
  usageFromResponsesUsage : Usage → Usage
  toolUseToken : Text
  /-- `Unmarshal` of an annotation. -/
  unmarshal : Text → Option Text
  annotationsToClaude : List Text → Text → List Text

inductive ConvertError
  /-- "Responses output item changed from %s to %s" -/
  | changed (kind kind' : BlockType)
  /-- "invalid Responses stream annotation: %w" -/
  | annotationInvalid
  /-- "responses stream error: %s" -/
  | stream (message : Text)

/-! ## The state -/

structure Block where
  index : Nat
  kind : BlockType
  itemID : Text := []
  callID : Text := []
  name : Text := []
  started : Bool := false
  stopped : Bool := false
  value : Text := []
  /-- How much of the value has been sent. -/
  sentBytes : Nat := 0
  annotationCount : Nat := 0
  needsReasoningBreak : Bool := false

structure StreamState (Usage : Type) where
  id : Text := []
  model : Text := []
  usage : Option Usage := none
  sentMessageStart : Bool := false
  done : Bool := false
  sawToolCall : Bool := false
  nextBlockIndex : Nat := 0
  blocks : List Block := []
  byOutputIndex : Int → Option Nat := fun _ => none
  byItemID : Text → Option Nat := fun _ => none
  lastByKind : BlockType → Option Nat := fun _ => none

def newResponsesToClaudeStreamState {Usage : Type} (id model : Text) : StreamState Usage where
  id := trimSpace id
  model := trimSpace model

structure Conv (Usage ClaudeUsage : Type) where
  state : StreamState Usage := {}
  sent : List (ClaudeResponse ClaudeUsage) := []

variable {Usage ClaudeUsage : Type}

def Conv.send (c : Conv Usage ClaudeUsage) (responses : List (ClaudeResponse ClaudeUsage)) : Conv Usage ClaudeUsage :=
  { c with sent := c.sent ++ responses }

def Conv.set (c : Conv Usage ClaudeUsage) (state : StreamState Usage) : Conv Usage ClaudeUsage :=
  { c with state := state }

def Conv.setBlock (c : Conv Usage ClaudeUsage) (i : Nat) (block : Block) : Conv Usage ClaudeUsage :=
  { c with state := { c.state with blocks := c.state.blocks.set i block } }

def Conv.withBlock (c : Conv Usage ClaudeUsage) (i : Nat) (f : Block → Conv Usage ClaudeUsage) :
    Conv Usage ClaudeUsage :=
  match c.state.blocks[i]? with
  | some block => f block
  | none => c

section Converter

variable (k : Kit Usage ClaudeUsage) (estimatedInputTokens : Int)

/-! ## Blocks -/

def applyResponseMetadata (response : Option (ResponsesResponse Usage)) (state : StreamState Usage) :
    StreamState Usage :=
  match response with
  | none => state
  | some response =>
    { state with
      id := if response.id = [] then state.id else response.id
      model := if response.model = [] then state.model else response.model
      usage :=
        match response.usage with
        | none => state.usage
        | some usage => some (k.mergeUsageNonZero state.usage (k.usageFromResponsesUsage usage)) }

def ensureMessageStart (c : Conv Usage ClaudeUsage) : Conv Usage ClaudeUsage :=
  if c.state.sentMessageStart then c
  else
    let inputTokens :=
      match c.state.usage with
      | some usage => k.inputTokens (k.usageFromOpenAI usage)
      | none => estimatedInputTokens
    (c.send [.messageStart c.state.id c.state.model (some (k.usageOfInputTokens inputTokens))]).set
      { c.state with sentMessageStart := true }

def responseStreamEventItemID (event : ResponsesEvent Usage) : Text :=
  let itemID := trimSpace ((event.item.map ResponsesOutput.id).getD [])
  if itemID = [] then trimSpace event.itemID else itemID

def findBlock (state : StreamState Usage) (event : ResponsesEvent Usage) : Option Nat :=
  (event.outputIndex.bind state.byOutputIndex).or
    (if responseStreamEventItemID event = [] then none else state.byItemID (responseStreamEventItemID event))

def Block.applyMetadata (block : Block) (event : ResponsesEvent Usage) : Block :=
  let itemID := responseStreamEventItemID event
  let block := if itemID = [] then block else { block with itemID := itemID }
  match event.item with
  | none => block
  | some item =>
    { block with
      callID :=
        if trimSpace item.callId ≠ [] then trimSpace item.callId
        else if block.callID = [] then trimSpace item.id
        else block.callID
      name := if trimSpace item.name = [] then block.name else trimSpace item.name }

/-- The block at a place takes what the event says of it. -/
def applyBlockMetadata (i : Nat) (block : Block) (event : ResponsesEvent Usage) (kind : BlockType)
    (c : Conv Usage ClaudeUsage) : Conv Usage ClaudeUsage :=
  let itemID := responseStreamEventItemID event
  { c with state := { c.state with
      blocks := c.state.blocks.set i (block.applyMetadata event)
      byOutputIndex :=
        match event.outputIndex with
        | some outputIndex => Function.update c.state.byOutputIndex outputIndex (some i)
        | none => c.state.byOutputIndex
      byItemID := if itemID = [] then c.state.byItemID else Function.update c.state.byItemID itemID (some i)
      lastByKind := Function.update c.state.lastByKind kind (some i) } }

/-- The last block of the kind, for an event that says neither index nor item. -/
def lastBlock (state : StreamState Usage) (event : ResponsesEvent Usage) (kind : BlockType) : Option Nat :=
  match state.lastByKind kind with
  | none => none
  | some i =>
    match state.blocks[i]? with
    | none => none
    | some last =>
      if last.stopped = false ∧ event.outputIndex = none ∧ responseStreamEventItemID event = [] then some i else none

def ensureBlock (event : ResponsesEvent Usage) (kind : BlockType) (c : Conv Usage ClaudeUsage) :
    Except ConvertError (Nat × Conv Usage ClaudeUsage) :=
  match (findBlock c.state event).or (lastBlock c.state event kind) with
  | some i =>
    match c.state.blocks[i]? with
    | none => .ok (i, c)
    | some block =>
      if block.kind = kind then .ok (i, applyBlockMetadata i block event kind c) else .error (.changed block.kind kind)
  | none =>
    let i := c.state.blocks.length
    let block : Block := { index := c.state.nextBlockIndex, kind := kind }
    .ok (i, applyBlockMetadata i block event kind (c.set { c.state with
      blocks := c.state.blocks ++ [block]
      nextBlockIndex := c.state.nextBlockIndex + 1 }))

/-- What a block that starts is started with; a tool call is not started before it has a name. -/
def Block.content (block : Block) : Option ContentBlock :=
  match block.kind with
  | .text => some .text
  | .thinking => some .thinking
  | .toolUse =>
    if block.name = [] then none
    else
      let callID := if block.callID = [] then block.itemID else block.callID
      some (.toolUse (normalizeToolUseID callID block.name k.toolUseToken block.index) block.name)

def startBlock (i : Nat) (c : Conv Usage ClaudeUsage) : Conv Usage ClaudeUsage :=
  c.withBlock i fun block =>
    if block.started ∨ block.stopped then c
    else
      match block.content k with
      | none => c
      | some content =>
        let c := c.set { c.state with sawToolCall := c.state.sawToolCall ∨ block.kind = .toolUse }
        let c := ensureMessageStart k estimatedInputTokens (c.setBlock i { block with started := true })
        c.send [.contentBlockStart block.index content]

def blockDelta (kind : BlockType) (delta : Text) : BlockDelta :=
  match kind with
  | .text => .text delta
  | .thinking => .thinking delta
  | .toolUse => .inputJson delta

/-- What has not been sent of the value of a block that has started. -/
def flushValue (i : Nat) (c : Conv Usage ClaudeUsage) : Conv Usage ClaudeUsage :=
  c.withBlock i fun block =>
    if block.started = false ∨ block.value.length ≤ block.sentBytes then c
    else
      (c.setBlock i { block with sentBytes := block.value.length }).send
        [.contentBlockDelta block.index (blockDelta block.kind (block.value.drop block.sentBytes))]

def flushBlock (i : Nat) (c : Conv Usage ClaudeUsage) : Conv Usage ClaudeUsage :=
  c.withBlock i fun block =>
    if block.stopped then c else flushValue i (startBlock k estimatedInputTokens i c)

def appendDelta (i : Nat) (delta : Text) (c : Conv Usage ClaudeUsage) : Conv Usage ClaudeUsage :=
  c.withBlock i fun block =>
    if block.stopped ∨ delta = [] then c
    else flushBlock k estimatedInputTokens i (c.setBlock i { block with value := block.value ++ delta })

def mergeFinalValue (i : Nat) (finalValue : Text) (c : Conv Usage ClaudeUsage) : Conv Usage ClaudeUsage :=
  c.withBlock i fun block =>
    if block.stopped then c
    else
      let value :=
        if block.value = [] then finalValue
        else if hasPrefix finalValue block.value then block.value ++ finalValue.drop block.value.length
        else block.value
      flushBlock k estimatedInputTokens i (c.setBlock i { block with value := value })

/-- The stop of a block that has started. -/
def finishBlock (i : Nat) (c : Conv Usage ClaudeUsage) : Conv Usage ClaudeUsage :=
  c.withBlock i fun block =>
    if block.started then (c.setBlock i { block with stopped := true }).send [.contentBlockStop block.index] else c

def stopBlock (i : Nat) (c : Conv Usage ClaudeUsage) : Conv Usage ClaudeUsage :=
  c.withBlock i fun block =>
    if block.stopped then c
    else finishBlock i (startBlock k estimatedInputTokens i (flushBlock k estimatedInputTokens i c))

def sendCitations (i : Nat) (citations : List Text) (c : Conv Usage ClaudeUsage) : Conv Usage ClaudeUsage :=
  c.withBlock i fun block => c.send (citations.map fun citation => .contentBlockDelta block.index (.citations citation))

def appendAnnotations (i : Nat) (annotations : List Text) (snapshot : Bool) (c : Conv Usage ClaudeUsage) :
    Conv Usage ClaudeUsage :=
  c.withBlock i fun block =>
    if block.kind ≠ .text ∨ block.stopped ∨ annotations = [] ∨
      (snapshot ∧ annotations.length ≤ block.annotationCount) then c
    else
      let remaining := if snapshot then annotations.drop block.annotationCount else annotations
      let count := if snapshot then annotations.length else block.annotationCount + annotations.length
      let c := c.setBlock i { block with annotationCount := count }
      let citations := k.annotationsToClaude remaining block.value
      if citations = [] then c else sendCitations i citations (startBlock k estimatedInputTokens i c)

/-! ## Items -/

/-- `appendSeparatedText`: pieces are kept apart by an empty line. -/
def appendSeparatedText (builder piece : Text) : Text :=
  if piece = [] then builder
  else if builder = [] then piece
  else
    let trailing := min 2 (builder.reverse.takeWhile (· = '\n')).length
    let leading := min 2 (piece.takeWhile (· = '\n')).length
    builder ++ List.replicate (2 - trailing - leading) '\n' ++ piece

def reasoningOutputText (output : ResponsesOutput) : Text :=
  let contents := output.content.map OutputContent.text
  (if contents.any (· ≠ []) then contents else output.summary).foldl appendSeparatedText []

def itemKind (item : ResponsesOutput) : Option BlockType :=
  match item.type with
  | .reasoning => some .thinking
  | .message => if item.role ≠ [] ∧ item.role ≠ text "assistant" then none else some .text
  | .functionCall | .customToolCall => some .toolUse
  | .other => none

def mergeItem (i : Nat) (item : ResponsesOutput) (kind : BlockType) (c : Conv Usage ClaudeUsage) :
    Conv Usage ClaudeUsage :=
  match kind with
  | .thinking => mergeFinalValue k estimatedInputTokens i (reasoningOutputText item) c
  | .text =>
    let contents := item.content.filter OutputContent.isOutputText
    appendAnnotations k estimatedInputTokens i (contents.flatMap OutputContent.annotations) true
      (mergeFinalValue k estimatedInputTokens i (contents.flatMap OutputContent.text) c)
  | .toolUse => mergeFinalValue k estimatedInputTokens i item.arguments c

def applyOutputItem (event : ResponsesEvent Usage) (stop : Bool) (c : Conv Usage ClaudeUsage) :
    Except ConvertError (Conv Usage ClaudeUsage) :=
  match event.item with
  | none => .ok c
  | some item =>
    match itemKind item with
    | none => .ok c
    | some kind => do
      let (i, c) ← ensureBlock event kind c
      let c := mergeItem k estimatedInputTokens i item kind c
      return if stop then stopBlock k estimatedInputTokens i c else c

/-- The items of a response, from an output index on. -/
def applyOutput (c : Conv Usage ClaudeUsage) : Nat → List ResponsesOutput → Except ConvertError (Conv Usage ClaudeUsage)
  | _, [] => .ok c
  | n, item :: items => do
    let event := { type := .other, outputIndex := some (n : Int), itemID := item.id, item := some item }
    applyOutput (← applyOutputItem k estimatedInputTokens event true c) (n + 1) items

def stopBlocks (c : Conv Usage ClaudeUsage) : Conv Usage ClaudeUsage :=
  (List.range c.state.blocks.length).foldl (fun c i => stopBlock k estimatedInputTokens i c) c

def responsesClaudeStopReason (response : Option (ResponsesResponse Usage)) (sawToolCall : Bool) : Text :=
  match response with
  | some response =>
    if trimSpace response.status = text "incomplete" then
      openAIFinishReasonToClaudeStopReason
        (if trimSpace response.incompleteReason = text "content_filter" then text "content_filter" else text "length")
    else if sawToolCall then text "tool_use"
    else text "end_turn"
  | none => if sawToolCall then text "tool_use" else text "end_turn"

def finish (response : Option (ResponsesResponse Usage)) (c : Conv Usage ClaudeUsage) :
    Except ConvertError (Conv Usage ClaudeUsage) :=
  if c.state.done then .ok c
  else do
    let c := c.set (applyResponseMetadata k response c.state)
    let c ← applyOutput k estimatedInputTokens c 0 ((response.map ResponsesResponse.output).getD [])
    let c := ensureMessageStart k estimatedInputTokens (stopBlocks k estimatedInputTokens c)
    let stopReason := responsesClaudeStopReason response c.state.sawToolCall
    return (c.send [.messageDelta (c.state.usage.map k.usageFromOpenAI) stopReason, .messageStop]).set
      { c.state with done := true }

/-! ## The stream -/

def separatedResponsesDelta (delta : Text) : Text :=
  if hasPrefix delta (text "\n\n") then delta
  else if hasPrefix delta (text "\n") then text "\n" ++ delta
  else text "\n\n" ++ delta

def reasoningDelta (i : Nat) (delta : Text) (c : Conv Usage ClaudeUsage) : Conv Usage ClaudeUsage :=
  c.withBlock i fun block =>
    if block.needsReasoningBreak ∧ delta ≠ [] then
      appendDelta k estimatedInputTokens i (separatedResponsesDelta delta)
        (c.setBlock i { block with needsReasoningBreak := false })
    else appendDelta k estimatedInputTokens i delta c

def reasoningDone (i : Nat) (value : Option Text) (c : Conv Usage ClaudeUsage) : Conv Usage ClaudeUsage :=
  let c :=
    match value with
    | some value => mergeFinalValue k estimatedInputTokens i value c
    | none => c
  c.withBlock i fun block => if block.value = [] then c else c.setBlock i { block with needsReasoningBreak := true }

/-- A final value, where the event has one. -/
def mergeOptional (i : Nat) (value : Option Text) (c : Conv Usage ClaudeUsage) : Conv Usage ClaudeUsage :=
  match value with
  | some value => mergeFinalValue k estimatedInputTokens i value c
  | none => c

def streamError (event : ResponsesEvent Usage) (type : Text) : ConvertError :=
  .stream (if trimSpace event.message = [] then type else trimSpace event.message)

def convertChunk (event : ResponsesEvent Usage) (c : Conv Usage ClaudeUsage) :
    Except ConvertError (Conv Usage ClaudeUsage) :=
  if c.state.done then .ok c
  else
    let c := c.set (applyResponseMetadata k event.response c.state)
    match event.type with
    | .created => .ok (ensureMessageStart k estimatedInputTokens c)
    | .reasoningDelta => do
      let (i, c) ← ensureBlock event .thinking c
      return reasoningDelta k estimatedInputTokens i event.delta c
    | .reasoningDone => do
      let (i, c) ← ensureBlock event .thinking c
      return reasoningDone k estimatedInputTokens i event.text c
    | .outputTextDelta => do
      let (i, c) ← ensureBlock event .text c
      return appendDelta k estimatedInputTokens i event.delta c
    | .outputTextDone => do
      let (i, c) ← ensureBlock event .text c
      return mergeOptional k estimatedInputTokens i event.text c
    | .annotationAdded => do
      let (i, c) ← ensureBlock event .text c
      match k.unmarshal event.annotationJson with
      | none => .error .annotationInvalid
      | some decoded => .ok (appendAnnotations k estimatedInputTokens i [decoded] false c)
    | .outputItemAdded => applyOutputItem k estimatedInputTokens event false c
    | .outputItemDone => applyOutputItem k estimatedInputTokens event true c
    | .argumentsDelta => do
      let (i, c) ← ensureBlock event .toolUse c
      return appendDelta k estimatedInputTokens i event.delta c
    | .argumentsDone => do
      let (i, c) ← ensureBlock event .toolUse c
      return mergeOptional k estimatedInputTokens i event.arguments c
    | .completed => finish k estimatedInputTokens event.response c
    | .failed => .error (streamError event (text "response.failed"))
    | .error => .error (streamError event (text "response.error"))
    | .other => .ok c

def finalize (c : Conv Usage ClaudeUsage) : Except ConvertError (Conv Usage ClaudeUsage) :=
  if c.state.done then .ok c else finish k estimatedInputTokens none c

def convertChunks : List (ResponsesEvent Usage) → Conv Usage ClaudeUsage → Except ConvertError (Conv Usage ClaudeUsage)
  | [], c => .ok c
  | event :: events, c => do convertChunks events (← convertChunk k estimatedInputTokens event c)

end Converter

end CubeRouter.Streams.ResponsesToClaude
