import CubeRouter.Streams.ChatContent

/-!
# The tool calls of a converted Chat stream

The calls of a stream are what its fragments say (`CallLog`), over the whole stream. The converter keeps track of them
for one run of chunks with tool calls only; while no fragment goes back behind the run (`Unbroken`) it has the same
calls, and each gets one block with its arguments.
-/

namespace CubeRouter.Streams.ChatToClaude

open Strings List

/-! ## The calls of a stream -/

structure Call where
  id : Text := []
  name : Text := []
  arguments : Text := []

/-- The calls in the order in which they came up, and which of them an index and an id last stood for. -/
structure CallLog where
  calls : List Call := []
  byIndex : Int → Option Nat := fun _ => none
  byID : Text → Option Nat := fun _ => none

/-- A fragment continues the call of its id, or else the last one at its index. With another id it begins a call. -/
def CallLog.find (log : CallLog) (id : Text) (index : Int) : Option Nat :=
  match (if id = [] then none else log.byID id).or (log.byIndex index) with
  | none => none
  | some i =>
    match log.calls[i]? with
    | none => none
    | some call => if id ≠ [] ∧ call.id ≠ [] ∧ call.id ≠ id then none else some i

def Call.extend (call : Call) (toolCall : ToolCallResponse) : Call where
  id := if call.id = [] then trimSpace toolCall.id else call.id
  name := if call.name = [] then trimSpace toolCall.name else call.name
  arguments := call.arguments ++ toolCall.arguments

def CallLog.put (log : CallLog) (i : Nat) (call : Call) (index : Int) (toolCall : ToolCallResponse) : CallLog where
  calls := log.calls.set i (call.extend toolCall)
  byIndex := Function.update log.byIndex index (some i)
  byID :=
    if call.id = [] ∧ trimSpace toolCall.id ≠ [] then Function.update log.byID
      (trimSpace toolCall.id) (some i) else log.byID

/-- The fragment at place `n` of its chunk. -/
def CallLog.add (log : CallLog) (n : Nat) (toolCall : ToolCallResponse) : CallLog :=
  let index := toolCall.index.getD n
  match log.find (trimSpace toolCall.id) index with
  | some i =>
    match log.calls[i]? with
    | some call => log.put i call index toolCall
    | none => log
  | none => CallLog.put { log with calls := log.calls ++ [{}] } log.calls.length {} index toolCall

def CallLog.addFrom (log : CallLog) : Nat → List ToolCallResponse → CallLog
  | _, [] => log
  | n, toolCall :: toolCalls => (log.add n toolCall).addFrom (n + 1) toolCalls

def Chunk.toolCalls {Usage : Type} (chunk : Chunk Usage) : List ToolCallResponse :=
  match chunk.choices with
  | [] => []
  | choice :: _ => choice.delta.toolCalls

def callsOf {Usage : Type} (chunks : List (Chunk Usage)) : CallLog :=
  chunks.foldl (fun log chunk => log.addFrom 0 chunk.toolCalls) {}

/-! ## Runs -/

/-- No fragment goes back behind the call `start`. -/
def InRun (start : Nat) (log : CallLog) : Nat → List ToolCallResponse → Prop
  | _, [] => True
  | n, toolCall :: toolCalls =>
    (∀ i, log.find (trimSpace toolCall.id) (toolCall.index.getD n) = some i → start ≤ i) ∧
      InRun start (log.add n toolCall) (n + 1) toolCalls

section Runs

variable {Usage ClaudeUsage : Type} (k : Kit Usage ClaudeUsage)

/-- The first call of the run of tool calls that goes on behind a chunk, if one does. -/
def nextRun (log : CallLog) (run : Option Nat) (chunk : Chunk Usage) : Option Nat :=
  match chunk.choices with
  | [] => run
  | choice :: _ =>
    if k.chatAnnotationsToClaude choice.delta.annotations ≠ [] then none
    else if choice.delta.toolCalls ≠ [] then some (run.getD log.calls.length)
    else if choice.delta.reasoning ≠ [] ∨ choice.delta.content ≠ [] then none
    else run

/-- The fragments of a call come in one run. -/
def Unbroken (log : CallLog) (run : Option Nat) : List (Chunk Usage) → Prop
  | [] => True
  | chunk :: chunks =>
    InRun (run.getD log.calls.length) log 0 chunk.toolCalls ∧
      Unbroken (log.addFrom 0 chunk.toolCalls) (nextRun k log run chunk) chunks

end Runs

/-! ## Tool blocks -/

variable {Usage ClaudeUsage υ : Type}

def toolNames (index : Nat) (l : List (ClaudeResponse υ)) : List Text :=
  l.flatMap fun
    | .contentBlockStart i (.toolUse _ name) => if i = index then [name] else []
    | _ => []

def inputJson (index : Nat) (l : List (ClaudeResponse υ)) : Text :=
  l.flatMap fun
    | .contentBlockDelta i (.inputJson partialJson) => if i = index then partialJson else []
    | _ => []

structure ToolUse (index : Nat) (names : List Text) (arguments : Text) (l : List (ClaudeResponse υ)) : Prop where
  names : toolNames index l = names
  arguments : inputJson index l = arguments

abbrev NoTool (index : Nat) (l : List (ClaudeResponse υ)) : Prop := ToolUse index [] [] l

variable {index : Nat} {names names' : List Text} {arguments arguments' : Text} {l l' : List (ClaudeResponse υ)}

theorem noTool_nil : NoTool index ([] : List (ClaudeResponse υ)) := ⟨rfl, rfl⟩

theorem ToolUse.append (h : ToolUse index names arguments l) (h' : ToolUse index names' arguments' l') :
    ToolUse index (names ++ names') (arguments ++ arguments') (l ++ l') :=
  ⟨by rw [toolNames, flatMap_append, ← toolNames, ← toolNames, h.names, h'.names],
    by rw [inputJson, flatMap_append, ← inputJson, ← inputJson, h.arguments, h'.arguments]⟩

theorem ToolUse.frame (h : ToolUse index names arguments l) (h' : NoTool index l') :
    ToolUse index names arguments (l ++ l') := by
  simpa using h.append h'

theorem noTool_of_forall (h : ∀ r ∈ l, NoTool index [r]) : NoTool index l := by
  induction l with
  | nil => exact noTool_nil
  | cons r l ih =>
    obtain ⟨hr, hl⟩ := forall_mem_cons.mp h
    simpa using hr.append (ih hl)

section Converter

variable (k : Kit Usage ClaudeUsage) {tool : ClaudeStreamToolCall} {call : Call}

theorem toolUse_startToolBlock (tool : ClaudeStreamToolCall) :
    ToolUse tool.blockIndex [tool.name] tool.pendingArguments (startToolBlock k tool) ∧
      ∀ index, index ≠ tool.blockIndex → NoTool index (startToolBlock k tool) := by
  unfold startToolBlock
  refine ⟨⟨?_, ?_⟩, fun index hindex => ⟨?_, ?_⟩⟩
  · split_ifs <;> simp [toolNames]
  · split_ifs with hpending <;> simp [inputJson, hpending]
  · split_ifs <;> simp [toolNames, Ne.symm hindex]
  · split_ifs <;> simp [inputJson, Ne.symm hindex]

theorem noTool_stopOpenBlocks (index : Nat) (state : ClaudeConvertInfo Usage) :
    NoTool index (stopOpenBlocks state : List (ClaudeResponse ClaudeUsage)) := by
  refine noTool_of_forall fun r hr => ?_
  obtain ⟨_, rfl⟩ := mem_stopOpenBlocks hr
  exact ⟨rfl, rfl⟩

/-- The tool call whose block is at `index` stands for the call. -/
structure Tracks (sent : List (ClaudeResponse ClaudeUsage)) (index : Nat) (tool : ClaudeStreamToolCall)
    (call : Call) : Prop where
  blockIndex : tool.blockIndex = index
  id : tool.id = call.id
  name : tool.name = call.name
  started : tool.started = true → tool.name ≠ [] ∧ ToolUse index [call.name] call.arguments sent
  pending : tool.started = false → tool.pendingArguments = call.arguments ∧ NoTool index sent

variable {sent l : List (ClaudeResponse ClaudeUsage)}

theorem Tracks.frame (h : Tracks sent index tool call) (hl : NoTool index l) : Tracks (sent ++ l) index tool call where
  blockIndex := h.blockIndex
  id := h.id
  name := h.name
  started hstarted := ⟨(h.started hstarted).1, (h.started hstarted).2.frame hl⟩
  pending hpending := ⟨(h.pending hpending).1, (h.pending hpending).2.frame hl⟩

theorem Tracks.receive (h : Tracks sent index tool call) (toolCall : ToolCallResponse) :
    let step := sendToolCall k (tool.receive toolCall) toolCall.arguments
    Tracks (sent ++ step.1) index step.2 (call.extend toolCall) ∧ ∀ other, other ≠ index → NoTool other step.1 := by
  obtain ⟨hindex, hid, hname, hstarted, hpending⟩ := h
  have hid' : (tool.receive toolCall).id = (call.extend toolCall).id := by
    simp [ClaudeStreamToolCall.receive, Call.extend, hid]
  have hname' : (tool.receive toolCall).name = (call.extend toolCall).name := by
    simp [ClaudeStreamToolCall.receive, Call.extend, hname]
  have hindex' : (tool.receive toolCall).blockIndex = index := hindex
  unfold sendToolCall
  split_ifs with hstart hdelta
  · -- the block starts with all that has come
    obtain ⟨hargs, hnone⟩ := hpending hstart.1
    have hpending' : (tool.receive toolCall).pendingArguments = (call.extend toolCall).arguments := by
      have hnot : tool.started = false := hstart.1
      simp [ClaudeStreamToolCall.receive, Call.extend, hnot, hargs]
    obtain ⟨huse, hothers⟩ := toolUse_startToolBlock k (tool.receive toolCall)
    rw [hindex'] at huse hothers
    refine ⟨⟨hindex, hid', hname', fun _ => ⟨hstart.2.2, ?_⟩, fun hnot => (by cases hnot)⟩, hothers⟩
    rw [← hname', ← hpending']
    simpa using hnone.append huse
  · -- the block gets the arguments of the fragment
    have hrunning : tool.started = true := hdelta.1
    obtain ⟨hne, huse⟩ := hstarted hrunning
    have hsame : (call.extend toolCall).name = call.name := by
      simp [Call.extend, hname ▸ hne]
    refine ⟨⟨hindex, hid', hname', fun _ => ⟨?_, ?_⟩, fun hnot => ?_⟩, fun other hother => ⟨rfl, ?_⟩⟩
    · rw [hname', hsame, ← hname]
      exact hne
    · rw [hsame]
      have hone : ToolUse index [] toolCall.arguments
          ([.contentBlockDelta (tool.receive toolCall).blockIndex (.inputJson toolCall.arguments)] : List
            (ClaudeResponse ClaudeUsage)) :=
        ⟨rfl, by simp [inputJson, hindex']⟩
      simpa [Call.extend] using huse.append hone
    · exact absurd (hrunning.symm.trans hnot) (by simp)
    · simp [inputJson, hindex', Ne.symm hother]
  · -- nothing is sent
    refine ⟨⟨hindex, hid', hname', fun hrunning => ?_, fun hnot => ?_⟩, fun other _ => noTool_nil⟩
    · have hrunning' : tool.started = true := hrunning
      obtain ⟨hne, huse⟩ := hstarted hrunning'
      have hempty : toolCall.arguments = [] := by
        by_contra hargs
        exact hdelta ⟨hrunning, hargs⟩
      have hsame : call.extend toolCall = { call with id := (call.extend toolCall).id } := by
        simp [Call.extend, hname ▸ hne, hempty]
      refine ⟨?_, ?_⟩
      · rw [hname', hsame, ← hname]
        exact hne
      · rw [hsame]
        simpa using huse
    · have hnot' : tool.started = false := hnot
      obtain ⟨hargs, hnone⟩ := hpending hnot'
      refine ⟨?_, by simpa using hnone⟩
      simp [ClaudeStreamToolCall.receive, Call.extend, hnot', hargs]

/-! ## Delivery -/

/-- The block of a call that has a name, with its arguments. -/
def Delivered (sent : List (ClaudeResponse ClaudeUsage)) (index : Nat) (call : Call) : Prop :=
  ToolUse index (if call.name = [] then [] else [call.name]) (if call.name = [] then [] else call.arguments) sent

theorem Delivered.frame (h : Delivered sent index call) (hl : NoTool index l) : Delivered (sent ++ l) index call :=
  ToolUse.frame h hl

theorem Tracks.deliver (h : Tracks sent index tool call) :
    Delivered (sent ++ (startPendingToolBlock k tool).1) index call ∧
      ∀ other, other ≠ index → NoTool other (startPendingToolBlock k tool).1 := by
  obtain ⟨hindex, -, hname, hstarted, hpending⟩ := h
  have hstart (tool' : ClaudeStreamToolCall) (hnot : ¬(tool.started = true ∨ tool.name = []))
    (hindex' : tool'.blockIndex = index)
      (hname' : tool'.name = tool.name) (hargs' : tool'.pendingArguments = tool.pendingArguments) :
      Delivered (sent ++ startToolBlock k tool') index call ∧ ∀ other, other ≠ index →
        NoTool other (startToolBlock k tool') := by
    rw [not_or, Bool.not_eq_true] at hnot
    obtain ⟨hargs, hnone⟩ := hpending hnot.1
    obtain ⟨huse, hothers⟩ := toolUse_startToolBlock k tool'
    rw [hindex'] at huse hothers
    rw [hname', hname, hargs', hargs] at huse
    refine ⟨?_, hothers⟩
    unfold Delivered
    rw [if_neg (hname ▸ hnot.2), if_neg (hname ▸ hnot.2)]
    simpa using hnone.append huse
  unfold startPendingToolBlock
  split_ifs with hnot hid
  · refine ⟨?_, fun _ _ => noTool_nil⟩
    rw [append_nil]
    unfold Delivered
    rcases Bool.eq_false_or_eq_true tool.started with hrunning | hidle
    · obtain ⟨hne, _⟩ := hstarted hrunning
      rwa [if_neg (hname ▸ hne), if_neg (hname ▸ hne)]
    · have hnone : call.name = [] := hname ▸ hnot.resolve_left (by simp [hidle])
      rw [if_pos hnone, if_pos hnone]
      exact (hpending hidle).2
  · exact hstart _ hnot hindex rfl rfl
  · exact hstart _ hnot hindex rfl rfl

/-- Tool calls with consecutive blocks are all delivered, and nothing is sent for other blocks. -/
theorem deliver_all {n : Nat} {tools : List ClaudeStreamToolCall}
    (h : ∀ j tool, tools[j]? = some tool → ∃ call, Tracks sent (n + j) tool call) :
    (∀ j tool call, tools[j]? = some tool → Tracks sent (n + j) tool call →
        Delivered (sent ++ tools.flatMap fun tool => (startPendingToolBlock k tool).1) (n + j) call) ∧
      ∀ index, index < n ∨ n + tools.length ≤ index →
      NoTool index (tools.flatMap fun tool => (startPendingToolBlock k tool).1) := by
  induction tools generalizing n sent with
  | nil => exact ⟨fun j tool call hj => by simp at hj, fun _ _ => noTool_nil⟩
  | cons first tools ih =>
    obtain ⟨_, hfirst⟩ := h 0 first rfl
    obtain ⟨_, hothers⟩ := hfirst.deliver k
    have hrest : ∀ j tool, tools[j]? = some tool → ∃ call,
        Tracks (sent ++ (startPendingToolBlock k first).1) (n + 1 + j) tool call := by
      intro j tool hj
      obtain ⟨call, hcall⟩ := h (j + 1) tool hj
      rw [show n + (j + 1) = n + 1 + j by omega] at hcall
      exact ⟨call, hcall.frame (hothers _ (by omega))⟩
    obtain ⟨hdeliver', hothers'⟩ := ih hrest
    simp only [flatMap_cons, ← append_assoc]
    refine ⟨fun j tool call hj hcall => ?_, fun index hindex => ?_⟩
    · cases j with
      | zero =>
        cases hj
        exact (hcall.deliver k).1.frame (hothers' _ (by omega))
      | succ j =>
        rw [show n + (j + 1) = n + 1 + j by omega] at hcall ⊢
        exact hdeliver' j tool call hj (hcall.frame (hothers _ (by omega)))
    · rw [length_cons] at hindex
      exact ToolUse.frame (hothers index (by omega)) (hothers' index (by omega))

end Converter

end CubeRouter.Streams.ChatToClaude
