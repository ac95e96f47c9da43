import CubeRouter.Streams.ChatToolCalls

/-!
# Runs of tool calls

While tool calls come the converter knows those of the run, and the log knows all (`Running`). At the end of a run the
calls have their blocks (`Delivers`).
-/

namespace CubeRouter.Streams.ChatToClaude

open Strings List Option Function

/-! ## The log -/

/-- What the log has noted are its calls. -/
structure CallLog.Sound (log : CallLog) : Prop where
  byIndex : ∀ index i, log.byIndex index = some i → i < log.calls.length
  byID : ∀ id i, log.byID id = some i → id ≠ [] ∧ ∃ call, log.calls[i]? = some call ∧ call.id = id

variable {log : CallLog} {call : Call} {i : Nat}

theorem CallLog.Sound.put (h : log.Sound) (hcall : log.calls[i]? = some call) (index : Int)
    (toolCall : ToolCallResponse) :
    (log.put i call index toolCall).Sound := by
  have hi : i < log.calls.length := (List.getElem?_eq_some_iff.mp hcall).1
  have hkept (id : Text) (j : Nat) (hid : log.byID id = some j) :
      id ≠ [] ∧ ∃ call', (log.put i call index toolCall).calls[j]? = some call' ∧ call'.id = id := by
    obtain ⟨hne, call', hcall', hid'⟩ := h.byID id j hid
    refine ⟨hne, ?_⟩
    by_cases hj : j = i
    · subst hj
      cases hcall.symm.trans hcall'
      exact ⟨call.extend toolCall, by simp [CallLog.put, hi], by simp [Call.extend, hid', hne]⟩
    · exact ⟨call', by simpa [CallLog.put, getElem?_set_ne (Ne.symm hj)] using hcall', hid'⟩
  refine ⟨fun other j hj => ?_, fun id j hj => ?_⟩
  · simp only [CallLog.put, length_set] at hj ⊢
    by_cases hother : other = index
    · rw [hother, update_self] at hj
      cases hj
      exact hi
    · rw [update_of_ne hother] at hj
      exact h.byIndex other j hj
  · by_cases hnew : (call.id = [] ∧ trimSpace toolCall.id ≠ []) ∧ id = trimSpace toolCall.id
    · obtain ⟨hset, rfl⟩ := hnew
      simp only [CallLog.put, if_pos hset, update_self] at hj
      cases hj
      exact ⟨hset.2, call.extend toolCall, by simp [CallLog.put, hi], by simp [Call.extend, hset.1]⟩
    · refine hkept id j ?_
      simp only [CallLog.put] at hj
      split_ifs at hj with hset
      · rwa [update_of_ne fun heq => hnew ⟨hset, heq⟩] at hj
      · exact hj

theorem CallLog.Sound.append (h : log.Sound) (call : Call) :
    CallLog.Sound { log with calls := log.calls ++ [call] } := by
  refine ⟨fun index j hj => ?_, fun id j hj => ?_⟩
  · have hlt := h.byIndex index j hj
    simp only [length_append]
    omega
  · obtain ⟨hne, call', hcall', hid⟩ := h.byID id j hj
    refine ⟨hne, call', ?_, hid⟩
    have hlt := (List.getElem?_eq_some_iff.mp hcall').1
    simpa [getElem?_append_left hlt] using hcall'

theorem CallLog.Sound.add (h : log.Sound) (n : Nat) (toolCall : ToolCallResponse) : (log.add n toolCall).Sound := by
  unfold CallLog.add
  dsimp only
  split
  · split
    · rename_i hcall
      exact h.put hcall _ _
    · exact h
  · exact (h.append {}).put (by simp) _ _

theorem CallLog.Sound.addFrom (h : log.Sound) (n : Nat) (toolCalls : List ToolCallResponse) :
    (log.addFrom n toolCalls).Sound := by
  induction toolCalls generalizing log n with
  | nil => exact h
  | cons toolCall _ ih => exact ih (h.add n toolCall) (n + 1)

/-! ## A run -/

section Converter

variable {Usage ClaudeUsage : Type} (k : Kit Usage ClaudeUsage) {c : Conv Usage ClaudeUsage}
  {start : Nat} {blocks : List Nat}

/-- The place in the run of a call that is not before it. -/
def later (start i : Nat) : Option Nat := if start ≤ i then some (i - start) else none

/-- The converter is at a run of tool calls that began with the call `start`; the earlier calls have their blocks. -/
structure Running (start : Nat) (blocks : List Nat) (c : Conv Usage ClaudeUsage) (log : CallLog) : Prop where
  type : c.state.lastMessagesType = .tools
  length : start + c.state.toolCalls.length = log.calls.length
  tools : ∀ j tool, c.state.toolCalls[j]? = some tool →
    ∃ call, log.calls[start + j]? = some call ∧ Tracks c.sent (c.state.toolCallBaseIndex + j) tool call
  byIndex : ∀ index, c.state.toolCallByIndex index = (log.byIndex index).bind (later start)
  byID : ∀ id, c.state.toolCallByID id = (log.byID id).bind (later start)
  earlier : blocks.length = start
  sorted : blocks.Pairwise (· < ·)
  below : ∀ b ∈ blocks, b < c.state.toolCallBaseIndex
  each : ∀ (i b : Nat) (call : Call), blocks[i]? = some b → log.calls[i]? = some call → Delivered c.sent b call
  others : ∀ index, index ∉ blocks →
    index < c.state.toolCallBaseIndex ∨ c.state.toolCallBaseIndex + c.state.toolCalls.length ≤ index →
      NoTool index c.sent

/-- In the run the converter finds the call that the log finds. -/
theorem findToolCall_eq (h : Running start blocks c log) (hsound : log.Sound) {id : Text} {index : Int}
    (hrun : ∀ i, log.find id index = some i → start ≤ i) :
    findToolCall c.state id index = (log.find id index).map (· - start) := by
  unfold findToolCall
  rw [h.byIndex, h.byID]
  have hat (i : Nat) (hi : start ≤ i) (hlt : i < log.calls.length) :
    ∃ tool call, c.state.toolCalls[i - start]? = some tool ∧
      log.calls[i]? = some call ∧ tool.id = call.id := by
    have hlength := h.length
    obtain ⟨tool, htool⟩ : ∃ tool, c.state.toolCalls[i - start]? = some tool :=
      ⟨_, getElem?_eq_getElem (show i - start < c.state.toolCalls.length by omega)⟩
    obtain ⟨call, hcall, htracks⟩ := h.tools _ tool htool
    rw [show start + (i - start) = i by omega] at hcall
    exact ⟨tool, call, htool, hcall, htracks.id⟩
  by_cases hid : id ≠ [] ∧ (log.byID id).isSome
  · -- the call of the id
    obtain ⟨hne, hsome⟩ := hid
    obtain ⟨i, hi⟩ := isSome_iff_exists.mp hsome
    obtain ⟨-, call, hcall, hsame⟩ := hsound.byID id i hi
    have hfind : log.find id index = some i := by
      simp [CallLog.find, hne, hi, hcall, hsame]
    obtain ⟨tool, _, htool, hcall', hsame'⟩ := hat i (hrun i hfind) (List.getElem?_eq_some_iff.mp hcall).1
    cases hcall.symm.trans hcall'
    rw [hfind]
    simp [hne, hi, later, hrun i hfind, htool, hsame', hsame]
  · -- the last call at the index
    have hnone : (if id = [] then none else log.byID id) = none := by
      split_ifs with hempty
      · rfl
      · simpa [hempty] using hid
    have hnone' : (if id = [] then none else (log.byID id).bind (later start)) = none := by
      split_ifs at hnone ⊢ with hempty
      · rfl
      · rw [hnone]
        rfl
    unfold CallLog.find at hrun ⊢
    rw [hnone, none_or] at hrun ⊢
    rw [hnone', none_or]
    cases hi : log.byIndex index with
    | none => rfl
    | some i =>
      rw [hi] at hrun
      by_cases hle : start ≤ i
      · obtain ⟨_, call, htool, hcall, hsame⟩ := hat i hle (hsound.byIndex index i hi)
        simp only [bind_some, later, if_pos hle, htool, hcall, hsame]
        split_ifs <;> rfl
      · have hlt := hsound.byIndex index i hi
        obtain ⟨call, hcall⟩ : ∃ call, log.calls[i]? = some call := ⟨_, getElem?_eq_getElem hlt⟩
        simp only [hcall] at hrun ⊢
        simp only [bind_some, later]
        split_ifs at hrun ⊢ with hother
        · rfl
        · exact absurd (hrun i rfl) hle

variable {tool : ClaudeStreamToolCall} {j : Nat}

theorem bind_update_later {ι : Type} [DecidableEq ι] {f : ι → Option Nat} {g : ι → Option Nat}
    (h : ∀ x, f x = (g x).bind (later start)) (x y : ι) :
    Function.update f x (some j) y = (Function.update g x (some (start + j)) y).bind (later start) := by
  by_cases hy : y = x
  · subst hy
    simp [later]
  · rw [update_of_ne hy, update_of_ne hy, h]

theorem Running.receive (h : Running start blocks c log) (hj : c.state.toolCalls[j]? = some tool)
    (hcall : log.calls[start + j]? = some call) (index : Int) (toolCall : ToolCallResponse) :
    Running start blocks (receiveToolCall k j tool index toolCall c) (log.put (start + j) call index toolCall) := by
  have htracks : Tracks c.sent (c.state.toolCallBaseIndex + j) tool call := by
    obtain ⟨call', hcall', htracks⟩ := h.tools j tool hj
    cases hcall.symm.trans hcall'
    exact htracks
  have hlt : j < c.state.toolCalls.length := (List.getElem?_eq_some_iff.mp hj).1
  have hlt' : start + j < log.calls.length := (List.getElem?_eq_some_iff.mp hcall).1
  obtain ⟨hreceived, hothers⟩ := htracks.receive k toolCall
  refine ⟨h.type, ?_, fun j' tool' hj' => ?_, fun other => ?_, fun id => ?_, h.earlier, h.sorted, h.below,
    fun i b call' hb hcall' => ?_, fun other hnot hother => ?_⟩
  · simpa [receiveToolCall, CallLog.put] using h.length
  · by_cases hsame : j' = j
    · subst hsame
      rw [receiveToolCall, getElem?_set_self hlt] at hj'
      cases hj'
      exact ⟨call.extend toolCall, by simp [CallLog.put, hlt'], hreceived⟩
    · rw [receiveToolCall, getElem?_set_ne (Ne.symm hsame)] at hj'
      obtain ⟨call', hcall', htracks'⟩ := h.tools j' tool' hj'
      refine ⟨call', ?_, htracks'.frame (hothers _ (by omega))⟩
      rw [CallLog.put, getElem?_set_ne (by omega)]
      exact hcall'
  · exact bind_update_later h.byIndex index other
  · simp only [receiveToolCall, CallLog.put, htracks.id]
    split_ifs
    · exact bind_update_later h.byID _ id
    · exact h.byID id
  · have hi : i < start := h.earlier ▸ (List.getElem?_eq_some_iff.mp hb).1
    rw [CallLog.put, getElem?_set_ne (by omega)] at hcall'
    have hbelow := h.below b (mem_of_getElem? hb)
    exact (h.each i b call' hb hcall').frame (hothers b (by omega))
  · simp only [receiveToolCall, length_set] at hother
    exact ToolUse.frame (h.others other hnot hother) (hothers other (by omega))

theorem Running.begin (h : Running start blocks c log) : Running start blocks
      (c.set { c.state with
        toolCalls := c.state.toolCalls ++ [{ blockIndex := c.state.toolCallBaseIndex + c.state.toolCalls.length }] })
      { log with calls := log.calls ++ [{}] } := by
  refine ⟨h.type, ?_, fun j tool hj => ?_, h.byIndex, h.byID, h.earlier, h.sorted, h.below,
    fun i b call hb hcall => ?_, fun index hnot hindex => ?_⟩
  · have hlength := h.length
    simp only [Conv.set, length_append, length_singleton]
    omega
  · dsimp only [Conv.set] at hj
    by_cases hlt : j < c.state.toolCalls.length
    · rw [List.getElem?_append_left hlt] at hj
      obtain ⟨call, hcall, htracks⟩ := h.tools j tool hj
      refine ⟨call, ?_, htracks⟩
      rw [List.getElem?_append_left (List.getElem?_eq_some_iff.mp hcall).1]
      exact hcall
    · rw [getElem?_append_right (by omega), getElem?_singleton] at hj
      split_ifs at hj with hlast
      cases hj
      obtain rfl : j = c.state.toolCalls.length := by omega
      refine ⟨{}, ?_, rfl, rfl, rfl, fun hstarted => (by cases hstarted),
        fun _ => ⟨rfl, h.others _ (fun hmem => ?_) (.inr ?_)⟩⟩
      · rw [h.length]
        simp
      · have hbelow := h.below _ hmem
        dsimp only [Conv.set] at hbelow
        omega
      · exact le_rfl
  · have hi : i < start := h.earlier ▸ (List.getElem?_eq_some_iff.mp hb).1
    have hlength := h.length
    rw [List.getElem?_append_left (by omega)] at hcall
    exact h.each i b call hb hcall
  · refine h.others index hnot ?_
    simp only [Conv.set, length_append] at hindex
    omega

variable {n : Nat} {toolCalls : List ToolCallResponse} {l : List (ClaudeResponse ClaudeUsage)}

theorem running_applyToolCall (h : Running start blocks c log) (hsound : log.Sound) {toolCall : ToolCallResponse}
    (hrun : ∀ i, log.find (trimSpace toolCall.id) (toolCall.index.getD n) = some i → start ≤ i) :
    Running start blocks (applyToolCall k c n toolCall) (log.add n toolCall) := by
  have hfind := findToolCall_eq h hsound hrun
  unfold applyToolCall CallLog.add
  dsimp only
  rw [hfind]
  cases hlog : log.find (trimSpace toolCall.id) (toolCall.index.getD n) with
  | none =>
    have hnew : (c.state.toolCalls ++ [({ blockIndex := c.state.toolCallBaseIndex + c.state.toolCalls.length } :
        ClaudeStreamToolCall)])[c.state.toolCalls.length]? = some _ := getElem?_concat_length
    have hnew' : (log.calls ++ [({} : Call)])[start + c.state.toolCalls.length]? = some ({} : Call) := by
      rw [h.length]
      exact getElem?_concat_length
    have hreceived := h.begin.receive k hnew hnew' (toolCall.index.getD n) toolCall
    rwa [h.length] at hreceived
  | some i =>
    have hle := hrun i hlog
    have hlength := h.length
    have hlt : i < log.calls.length := by
      by_contra hnot
      unfold CallLog.find at hlog
      split at hlog
      · cases hlog
      · split at hlog
        · cases hlog
        · rename_i hcall
          split_ifs at hlog
          cases hlog
          exact hnot (List.getElem?_eq_some_iff.mp hcall).1
    obtain ⟨call, hcall⟩ : ∃ call, log.calls[i]? = some call := ⟨_, getElem?_eq_getElem hlt⟩
    obtain ⟨tool, htool⟩ : ∃ tool, c.state.toolCalls[i - start]? = some tool :=
      ⟨_, getElem?_eq_getElem (show i - start < c.state.toolCalls.length by omega)⟩
    simp only [map_some, htool, hcall]
    have hi : start + (i - start) = i := by omega
    rw [← hi] at hcall
    have hreceived := h.receive k htool hcall (toolCall.index.getD n) toolCall
    rwa [hi] at hreceived

theorem running_applyToolCallsFrom (h : Running start blocks c log) (hsound : log.Sound)
    (hrun : InRun start log n toolCalls) :
    Running start blocks (applyToolCallsFrom k c n toolCalls) (log.addFrom n toolCalls) := by
  induction toolCalls generalizing c log n with
  | nil => exact h
  | cons toolCall _ ih => exact ih (running_applyToolCall k h hsound hrun.1) (hsound.add n toolCall) hrun.2

/-! ## The end of a run -/

structure Delivers (blocks : List Nat) (sent : List (ClaudeResponse ClaudeUsage)) (calls : List Call) : Prop where
  length : blocks.length = calls.length
  sorted : blocks.Pairwise (· < ·)
  each : ∀ (i b : Nat) (call : Call), blocks[i]? = some b → calls[i]? = some call → Delivered sent b call
  others : ∀ index, index ∉ blocks → NoTool index sent

theorem Delivers.frame {sent : List (ClaudeResponse ClaudeUsage)} {calls : List Call} (h : Delivers blocks sent calls)
    (hl : ∀ index, NoTool index l) : Delivers blocks (sent ++ l) calls :=
  ⟨h.length, h.sorted, fun i b call hb hcall => (h.each i b call hb hcall).frame (hl b),
    fun index hindex => ToolUse.frame (h.others index hindex) (hl index)⟩

theorem Running.delivers (h : Running start blocks c log) :
    Delivers (blocks ++ List.range' c.state.toolCallBaseIndex c.state.toolCalls.length)
      (appendStopOpenBlocks k c).sent log.calls := by
  have hsent : (appendStopOpenBlocks k c).sent =
      c.sent ++ (c.state.toolCalls.flatMap fun tool => (startPendingToolBlock k tool).1) ++
        stopOpenBlocks (startPendingToolBlocks k c).state := by
    unfold appendStopOpenBlocks
    simp [Conv.send, startPendingToolBlocks, h.type]
  rw [hsent]
  obtain ⟨hdelivered, hothers⟩ := deliver_all k fun j tool hj => (h.tools j tool hj).imp fun _ hcall => hcall.2
  refine Delivers.frame ⟨?_, ?_, fun i b call hb hcall => ?_, fun index hindex => ?_⟩ fun index =>
    noTool_stopOpenBlocks index _
  · rw [length_append, length_range', h.earlier, h.length]
  · refine pairwise_append.mpr ⟨h.sorted, pairwise_lt_range', fun b hb b' hb' => ?_⟩
    have hbelow := h.below b hb
    have hle := (mem_range'_1.mp hb').1
    omega
  · have hearlier := h.earlier
    by_cases hi : i < start
    · rw [getElem?_append_left (by omega)] at hb
      have hbelow := h.below b (mem_of_getElem? hb)
      exact (h.each i b call hb hcall).frame (hothers b (.inl hbelow))
    · rw [getElem?_append_right (by omega), hearlier] at hb
      have hj : i - start < c.state.toolCalls.length := by
        have hlt := (List.getElem?_eq_some_iff.mp hb).1
        rwa [length_range'] at hlt
      rw [getElem?_range' hj, Nat.one_mul] at hb
      cases hb
      obtain ⟨tool, htool⟩ : ∃ tool, c.state.toolCalls[i - start]? = some tool := ⟨_, getElem?_eq_getElem hj⟩
      obtain ⟨_, hcall', htracks⟩ := h.tools _ tool htool
      rw [show start + (i - start) = i by omega] at hcall'
      cases hcall.symm.trans hcall'
      exact hdelivered _ tool call htool htracks
  · rw [mem_append, not_or, mem_range'_1] at hindex
    have hout : index < c.state.toolCallBaseIndex ∨
      c.state.toolCallBaseIndex + c.state.toolCalls.length ≤ index := by omega
    exact ToolUse.frame (h.others index hindex.1 hout) (hothers index hout)

/-! ## Chunks -/

/-- The converter is not at tool calls, and all calls have their blocks. -/
def Settled (c : Conv Usage ClaudeUsage) (log : CallLog) : Prop :=
  c.state.lastMessagesType ≠ .tools ∧ ∃ blocks, Delivers blocks c.sent log.calls ∧ ∀ b ∈ blocks, b < c.state.index

/-- The converter is where the stream is: in the run, or in none. -/
def Follows (c : Conv Usage ClaudeUsage) (log : CallLog) (run : Option Nat) : Prop :=
  log.Sound ∧
    match run with
    | none => Settled c log
    | some start => ∃ blocks, Running start blocks c log

variable {run : Option Nat}

theorem Settled.send (h : Settled c log) (hl : ∀ index, NoTool index l) : Settled (c.send l) log := by
  obtain ⟨htype, blocks, hdelivers, hbelow⟩ := h
  exact ⟨htype, blocks, hdelivers.frame hl, hbelow⟩

theorem Follows.delivers (h : Follows c log run) :
    ∃ blocks, Delivers blocks (appendStopOpenBlocks k c).sent log.calls := by
  obtain ⟨-, hrun⟩ := h
  cases run with
  | none =>
    obtain ⟨htype, blocks, hdelivers, -⟩ := hrun
    refine ⟨blocks, ?_⟩
    unfold appendStopOpenBlocks startPendingToolBlocks
    rw [if_neg htype]
    exact hdelivers.frame fun index => noTool_stopOpenBlocks index _
  | some =>
    obtain ⟨_, hrunning⟩ := hrun
    exact ⟨_, hrunning.delivers k⟩

theorem Follows.type (h : Follows c log run) : c.state.lastMessagesType = .tools ↔ run.isSome := by
  obtain ⟨-, hrun⟩ := h
  cases run with
  | none => simpa using hrun.1
  | some => simpa using hrun.choose_spec.type

theorem settled_advance (h : Follows c log run) :
    Settled (stopOpenBlocksAndAdvance k c) log ∧ (stopOpenBlocksAndAdvance k c).state.lastMessagesType = .none := by
  unfold stopOpenBlocksAndAdvance
  split_ifs with hnone
  · have htype := h.type
    obtain ⟨-, hrun⟩ := h
    cases run with
    | none => exact ⟨hrun, hnone⟩
    | some => simp [hnone] at htype
  · obtain ⟨-, hrun⟩ := h
    cases run with
    | none =>
      obtain ⟨htype, blocks, hdelivers, hbelow⟩ := hrun
      have happended : appendStopOpenBlocks k c = c.send (stopOpenBlocks c.state) := by
        unfold appendStopOpenBlocks startPendingToolBlocks
        rw [if_neg htype]
      have hsettled : Delivers blocks (c.sent ++ stopOpenBlocks c.state) log.calls :=
        hdelivers.frame fun index => noTool_stopOpenBlocks index c.state
      rw [happended]
      dsimp only [Conv.set, Conv.send]
      split
      · rename_i htools
        exact absurd htools htype
      · exact ⟨⟨by simp, blocks, hsettled, fun b hb => Nat.lt_succ_of_lt (hbelow b hb)⟩, rfl⟩
    | some =>
      obtain ⟨_, hrunning⟩ := hrun
      have hdelivers := hrunning.delivers k
      have hstate : (appendStopOpenBlocks k c).state.lastMessagesType = .tools ∧
          (appendStopOpenBlocks k c).state.toolCallBaseIndex = c.state.toolCallBaseIndex ∧
          (appendStopOpenBlocks k c).state.toolCalls.length = c.state.toolCalls.length := by
        unfold appendStopOpenBlocks startPendingToolBlocks Conv.send
        rw [if_pos hrunning.type]
        exact ⟨hrunning.type, rfl, by simp⟩
      obtain ⟨htype, hbase, hlength⟩ := hstate
      dsimp only [Conv.set]
      rw [htype]
      refine ⟨⟨by simp, _, hdelivers, fun b hb => ?_⟩, rfl⟩
      dsimp only
      rw [hbase, hlength]
      rcases mem_append.mp hb with hearlier | hrun
      · have hbelow := hrunning.below b hearlier
        omega
      · exact (mem_range'_1.mp hrun).2

theorem settled_ensureBlock (h : Follows c log run) {type : LastMessagesType}
    (htype : type ≠ .tools) {block : ContentBlock}
    (hblock : block.type ≠ .toolUse) : Settled (ensureBlock k type block c) log := by
  unfold ensureBlock
  split_ifs with hsame
  · have hrun := h.type
    obtain ⟨-, hsettled⟩ := h
    cases run with
    | none => exact hsettled
    | some =>
      rw [hsame] at hrun
      exact absurd (hrun.mpr rfl) htype
  · obtain ⟨⟨-, blocks, hdelivers, hbelow⟩, -⟩ := settled_advance k h
    refine ⟨htype, blocks, hdelivers.frame fun index => ⟨?_, rfl⟩, hbelow⟩
    cases block with
    | text | thinking => rfl
    | toolUse => exact absurd rfl hblock

theorem noTool_delta (index i : Nat) {delta : BlockDelta} (hdelta : delta.type ≠ .toolUse) :
    NoTool index ([.contentBlockDelta i delta] : List (ClaudeResponse ClaudeUsage)) := by
  cases delta with
  | inputJson => exact absurd rfl hdelta
  | text | thinking | citations => exact ⟨rfl, rfl⟩

theorem follows_applyToolCalls (h : Follows c log run) (hrun : InRun (run.getD log.calls.length) log 0 toolCalls) :
    Follows (applyToolCalls k toolCalls c) (log.addFrom 0 toolCalls) (some (run.getD log.calls.length)) := by
  have htype := h.type
  refine ⟨h.1.addFrom 0 toolCalls, ?_⟩
  unfold applyToolCalls
  generalize hc : (if c.state.lastMessagesType = .tools then c else _) = c1
  have hentered : ∃ blocks, Running (run.getD log.calls.length) blocks c1 log := by
    subst hc
    cases run with
    | some =>
      rw [if_pos (htype.mpr rfl)]
      exact h.2
    | none =>
      rw [if_neg (by simp [htype])]
      obtain ⟨⟨-, blocks, hdelivers, hbelow⟩, -⟩ := settled_advance k h
      refine ⟨blocks, rfl, rfl, fun j tool hj => ?_, fun index => ?_, fun id => ?_, hdelivers.length,
        hdelivers.sorted, hbelow,
        hdelivers.each, fun index hnot _ => hdelivers.others index hnot⟩
      · simp [Conv.set] at hj
      · cases hi : log.byIndex index with
        | none => rfl
        | some i =>
          have hlt := h.1.byIndex index i hi
          simp [Conv.set, later, hlt]
      · cases hi : log.byID id with
        | none => rfl
        | some i =>
          obtain ⟨-, _, hcall, -⟩ := h.1.byID id i hi
          have hlt := (List.getElem?_eq_some_iff.mp hcall).1
          simp [Conv.set, later, hlt]
  obtain ⟨blocks, hentered⟩ := hentered
  obtain ⟨htools, hlength, heach, hindex, hid, hearlier, hsorted, hbelow, hblocks, hothers⟩ :=
    running_applyToolCallsFrom k hentered h.1 hrun
  exact ⟨blocks, htools, hlength, heach, hindex, hid, hearlier, hsorted, hbelow, hblocks, hothers⟩

end Converter

end CubeRouter.Streams.ChatToClaude
