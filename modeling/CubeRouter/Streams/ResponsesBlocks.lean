import CubeRouter.Lib.Run
import CubeRouter.Streams.ResponsesToClaude

/-!
# The blocks of a converted Responses stream

A block of the state knows its phase: whether it has been started and stopped. What is done to the block at one place
(`Step`) leaves all other blocks and keeps the phases those of the stream that was sent.
-/

namespace CubeRouter.Streams.ResponsesToClaude

open Keyed Strings Transition

def Block.phase (b : Block) : Phase := if b.stopped then .stopped else if b.started then .opened b.kind else .unused

variable {Usage ClaudeUsage : Type} {c c' c'' : Conv Usage ClaudeUsage} {i : Nat} {b : Block}

/-- A stream whose message may not have started yet. -/
def Begun (c : Conv Usage ClaudeUsage) (t : Nat → Phase) : Prop :=
  if c.state.sentMessageStart then Open c.sent t else c.sent = [] ∧ t = fun _ => .unused

/-- The message has not ended, and the blocks of the state are in the phases of the stream. -/
structure Kept (c : Conv Usage ClaudeUsage) : Prop where
  done : c.state.done = false
  next : c.state.nextBlockIndex = c.state.blocks.length
  phases : ∃ t, Begun c t ∧ Row Block.index Block.phase 0 c.state.blocks t ∧
    ∀ i, c.state.blocks.length ≤ i → t i = .unused

/-! ## What may be sent -/

theorem begun_of_started {t : Nat → Phase} (h : Begun c t) (hphase : t i ≠ .unused) :
    c.state.sentMessageStart = true ∧ Open c.sent t := by
  unfold Begun at h
  split_ifs at h with hstart
  · exact ⟨hstart, h⟩
  · rw [h.2] at hphase
    exact absurd rfl hphase

theorem withBlock_eq (h : c.state.blocks[i]? = some b) (f : Block → Conv Usage ClaudeUsage) :
    c.withBlock i f = f b := by
  unfold Conv.withBlock
  rw [h]

theorem setBlock_getElem? (h : c.state.blocks[i]? = some b) (b' : Block) :
    (c.setBlock i b').state.blocks[i]? = some b' :=
  List.getElem?_set_self (List.getElem?_eq_some_iff.mp h).1

variable {b' : Block}

theorem kept_setBlock (h : Kept c) (hb : c.state.blocks[i]? = some b) (hindex : b'.index = b.index)
    (hphase : b'.phase = b.phase) : Kept (c.setBlock i b') := by
  obtain ⟨hdone, hnext, t, hbegun, hrow, hafter⟩ := h
  obtain ⟨hi, ht⟩ := hrow.get hb
  refine ⟨hdone, hnext.trans (by simp [Conv.setBlock]), t, hbegun,
    hrow.set (hindex.trans hi) (ht.trans hphase.symm) fun _ _ => rfl,
    fun j hj => hafter j (by simpa [Conv.setBlock] using hj)⟩

theorem kept_action (h : Kept c) (hb : c.state.blocks[i]? = some b) (hstart : c.state.sentMessageStart = true)
    {r : ClaudeResponse ClaudeUsage} {a : Action} (hr : r.action = some (b.index, a)) (hindex : b'.index = b.index)
    (hphase : b.phase.next a = some b'.phase) : Kept ((c.setBlock i b').send [r]) := by
  obtain ⟨hdone, hnext, t, hbegun, hrow, hafter⟩ := h
  obtain ⟨hi, ht⟩ := hrow.get hb
  have hlt : i < c.state.blocks.length := (List.getElem?_eq_some_iff.mp hb).1
  rw [Nat.zero_add] at hi ht
  unfold Begun at hbegun
  rw [if_pos hstart] at hbegun
  rw [hi] at hr
  rw [← ht] at hphase
  refine ⟨hdone, hnext.trans (by simp [Conv.setBlock, Conv.send]), Function.update t i b'.phase, ?_, ?_, fun j hj => ?_⟩
  · simp only [Conv.setBlock, hstart]
    exact hbegun.action hr hphase
  · refine hrow.set (by omega) ?_ fun j hj => Function.update_of_ne (by omega) ..
    rw [Nat.zero_add, Function.update_self]
  · have hj' : c.state.blocks.length ≤ j := by simpa [Conv.setBlock, Conv.send] using hj
    rw [Function.update_of_ne (by omega)]
    exact hafter j hj'

theorem kept_delta (h : Kept c) (hb : c.state.blocks[i]? = some b) (hstarted : b.started = true)
    (hstopped : b.stopped = false) (delta : BlockDelta) (htype : delta.type = b.kind) (hindex : b'.index = b.index)
    (hphase : b'.phase = b.phase) : Kept ((c.setBlock i b').send [.contentBlockDelta b.index delta]) := by
  have hopened : b.phase = .opened b.kind := by simp [Block.phase, hstarted, hstopped]
  obtain ⟨t, hbegun, hrow, -⟩ := h.phases
  have hstart := (begun_of_started hbegun (i := i) (by
    have ht := (hrow.get hb).2
    rw [Nat.zero_add] at ht
    rw [ht, hopened]
    simp)).1
  refine kept_action h hb hstart rfl hindex ?_
  rw [hphase, hopened]
  simp [Phase.next, htype]

section Converter

variable {k : Kit Usage ClaudeUsage} {estimatedInputTokens : Int}

theorem kept_ensureMessageStart (h : Kept c) : Kept (ensureMessageStart k estimatedInputTokens c) ∧
      (ensureMessageStart k estimatedInputTokens c).state.sentMessageStart = true ∧
      (ensureMessageStart k estimatedInputTokens c).state.blocks = c.state.blocks := by
  unfold ensureMessageStart
  split_ifs with hstart
  · exact ⟨h, hstart, rfl⟩
  · obtain ⟨hdone, hnext, t, hbegun, hrow, hafter⟩ := h
    unfold Begun at hbegun
    rw [if_neg hstart] at hbegun
    refine ⟨⟨hdone, hnext, t, ?_, hrow, hafter⟩, rfl, rfl⟩
    simp only [Conv.send, hbegun.1]
    rw [hbegun.2]
    exact open_start _ _ _

theorem ensureMessageStart_setBlock (b : Block) :
    ensureMessageStart k estimatedInputTokens (c.setBlock i b) =
    (ensureMessageStart k estimatedInputTokens c).setBlock i b := by
  unfold ensureMessageStart Conv.setBlock
  split_ifs <;> rfl

/-! ## One block -/

/-- What is done to the block at a place: the others stay, and this one is not stopped by it. -/
structure Step (i : Nat) (c c' : Conv Usage ClaudeUsage) : Prop where
  kept : Kept c → Kept c'
  length : c'.state.blocks.length = c.state.blocks.length
  like : ∀ b, c.state.blocks[i]? = some b → ∃ b', c'.state.blocks[i]? = some b' ∧
    b'.kind = b.kind ∧ b'.stopped = b.stopped
  others : ∀ j, j ≠ i → c'.state.blocks[j]? = c.state.blocks[j]?

theorem Step.refl (i : Nat) (c : Conv Usage ClaudeUsage) : Step i c c :=
  ⟨id, rfl, fun b hb => ⟨b, hb, rfl, rfl⟩, fun _ _ => rfl⟩

theorem Step.trans (h : Step i c c') (h' : Step i c' c'') : Step i c c'' where
  kept hc := h'.kept (h.kept hc)
  length := h'.length.trans h.length
  like b hb := by
    obtain ⟨b', hb', hkind, hstopped⟩ := h.like b hb
    obtain ⟨b'', hb'', hkind', hstopped'⟩ := h'.like b' hb'
    exact ⟨b'', hb'', hkind'.trans hkind, hstopped'.trans hstopped⟩
  others j hj := (h'.others j hj).trans (h.others j hj)

theorem step_setBlock (hb : c.state.blocks[i]? = some b) (hindex : b'.index = b.index) (hkind : b'.kind = b.kind)
    (hstopped : b'.stopped = b.stopped) (hstarted : b'.started = b.started) : Step i c (c.setBlock i b') where
  kept h := kept_setBlock h hb hindex (by simp only [Block.phase, hkind, hstopped, hstarted])
  length := by simp [Conv.setBlock]
  like b0 hb0 := by
    cases hb.symm.trans hb0
    exact ⟨b', setBlock_getElem? hb b', hkind, hstopped⟩
  others j hj := List.getElem?_set_ne (Ne.symm hj)

theorem step_withBlock {f : Block → Conv Usage ClaudeUsage} (h : ∀ b, c.state.blocks[i]? = some b → Step i c (f b)) :
    Step i c (c.withBlock i f) := by
  cases hb : c.state.blocks[i]? with
  | none =>
    unfold Conv.withBlock
    rw [hb]
    exact Step.refl i c
  | some b =>
    rw [withBlock_eq hb]
    exact h b hb

theorem content_type {block : Block} {content : ContentBlock} (h : block.content k = some content) :
    content.type = block.kind := by
  unfold Block.content at h
  split at h
  · rename_i hkind
    cases h
    exact hkind.symm
  · rename_i hkind
    cases h
    exact hkind.symm
  · rename_i hkind
    split_ifs at h with hname hcall
    · cases h
      exact hkind.symm
    · cases h
      exact hkind.symm

theorem startBlock_spec (hb : c.state.blocks[i]? = some b) : Step i c (startBlock k estimatedInputTokens i c) ∧
      ∃ b', (startBlock k estimatedInputTokens i c).state.blocks[i]? = some b' ∧
        (b.content k ≠ none → b.stopped = false → b'.started = true) := by
  unfold startBlock
  rw [withBlock_eq hb]
  split_ifs with hover
  · exact ⟨Step.refl i c, b, hb, fun _ hstopped => hover.resolve_right (by simp [hstopped])⟩
  · rw [not_or, Bool.not_eq_true, Bool.not_eq_true] at hover
    cases hcontent : b.content k with
    | none => exact ⟨Step.refl i c, b, hb, fun hnot => absurd rfl hnot⟩
    | some =>
      dsimp only
      rw [ensureMessageStart_setBlock]
      generalize hc0 : c.set { c.state with sawToolCall := c.state.sawToolCall ∨ b.kind = .toolUse } = c0
      have hkept0 (h : Kept c) : Kept c0 := hc0 ▸ ⟨h.done, h.next, h.phases⟩
      have hblocks0 : c0.state.blocks = c.state.blocks := hc0 ▸ rfl
      have hblocks : (ensureMessageStart k estimatedInputTokens c0).state.blocks = c.state.blocks := by
        rw [← hblocks0]
        unfold ensureMessageStart
        split_ifs <;> rfl
      have hb1 : (ensureMessageStart k estimatedInputTokens c0).state.blocks[i]? = some b := hblocks.symm ▸ hb
      refine ⟨⟨fun h => ?_, ?_, fun b0 hb0 => ?_, fun j hj => ?_⟩, { b with started := true }, setBlock_getElem? hb1 _,
        fun _ _ => rfl⟩
      · obtain ⟨hkept, hstart, -⟩ := kept_ensureMessageStart (hkept0 h)
        refine kept_action hkept hb1 hstart rfl rfl ?_
        simp [Block.phase, hover.1, hover.2, Phase.next, content_type hcontent]
      · simp [Conv.send, Conv.setBlock, hblocks]
      · cases hb.symm.trans hb0
        exact ⟨_, setBlock_getElem? hb1 _, rfl, rfl⟩
      · refine (List.getElem?_set_ne (Ne.symm hj)).trans ?_
        rw [hblocks]

theorem step_startBlock : Step i c (startBlock k estimatedInputTokens i c) := by
  cases hb : c.state.blocks[i]? with
  | none =>
    unfold startBlock Conv.withBlock
    rw [hb]
    exact Step.refl i c
  | some => exact (startBlock_spec hb).1

theorem blockDelta_type (kind : BlockType) (delta : Text) : (blockDelta kind delta).type = kind := by cases kind <;> rfl

theorem step_flushValue (hstopped : ∀ b, c.state.blocks[i]? = some b → b.stopped = false) :
    Step i c (flushValue i c) := by
  refine step_withBlock fun b hb => ?_
  split_ifs with hnothing
  · exact Step.refl i c
  · rw [not_or, Bool.not_eq_false] at hnothing
    have hset : Step i c (c.setBlock i { b with sentBytes := b.value.length }) := step_setBlock hb rfl rfl rfl rfl
    refine ⟨fun h => ?_, hset.length, hset.like, hset.others⟩
    exact kept_delta h hb hnothing.1 (hstopped b hb) _ (blockDelta_type _ _) rfl rfl

theorem step_flushBlock : Step i c (flushBlock k estimatedInputTokens i c) := by
  refine step_withBlock fun b hb => ?_
  split_ifs with hstopped
  · exact Step.refl i c
  · have hstart : Step i c (startBlock k estimatedInputTokens i c) := step_startBlock
    refine hstart.trans (step_flushValue fun b' hb' => ?_)
    obtain ⟨_, hb'', -, hsame⟩ := hstart.like b hb
    cases hb'.symm.trans hb''
    rw [hsame]
    simpa using hstopped

theorem step_appendDelta (delta : Text) : Step i c (appendDelta k estimatedInputTokens i delta c) := by
  refine step_withBlock fun b hb => ?_
  split_ifs
  · exact Step.refl i c
  · refine Step.trans ?_ (step_flushBlock)
    exact step_setBlock hb rfl rfl rfl rfl

theorem step_mergeFinalValue (finalValue : Text) :
    Step i c (mergeFinalValue k estimatedInputTokens i finalValue c) := by
  refine step_withBlock fun b hb => ?_
  by_cases hstopped : b.stopped
  · rw [if_pos hstopped]
    exact Step.refl i c
  · rw [if_neg hstopped]
    refine Step.trans ?_ (step_flushBlock)
    exact step_setBlock hb rfl rfl rfl rfl

theorem step_sendCitations (citations : List Text)
    (hopen : ∀ b, c.state.blocks[i]? = some b → b.started = true ∧ b.stopped = false ∧ b.kind = .text) :
    Step i c (sendCitations i citations c) := by
  refine step_withBlock fun b hb => ?_
  obtain ⟨hstarted, hstopped, hkind⟩ := hopen b hb
  refine ⟨fun h => ?_, rfl, fun b' hb' => ⟨b', hb', rfl, rfl⟩, fun _ _ => rfl⟩
  have hsame (c : Conv Usage ClaudeUsage) (hb : c.state.blocks[i]? = some b) : c.setBlock i b = c := by
    obtain ⟨_, rfl⟩ := List.getElem?_eq_some_iff.mp hb
    simp [Conv.setBlock]
  clear hopen
  induction citations generalizing c with
  | nil => simpa [Conv.send] using h
  | cons citation citations ih =>
    have hone := kept_delta h hb hstarted hstopped (.citations citation) hkind.symm rfl rfl
    rw [hsame c hb] at hone
    have hrest := ih (c := c.send [.contentBlockDelta b.index (.citations citation)]) hb hone
    simpa [Conv.send] using hrest

theorem step_appendAnnotations (annotations : List Text) (snapshot : Bool) :
    Step i c (appendAnnotations k estimatedInputTokens i annotations snapshot c) := by
  refine step_withBlock fun b hb => ?_
  dsimp only
  by_cases hnothing : b.kind ≠ .text ∨ b.stopped ∨ annotations = [] ∨
    (snapshot ∧ annotations.length ≤ b.annotationCount)
  · rw [if_pos hnothing]
    exact Step.refl i c
  · rw [if_neg hnothing]
    simp only [not_or, not_not, Bool.not_eq_true] at hnothing
    obtain ⟨hkind, hstopped, -⟩ := hnothing
    generalize hb' : ({ b with annotationCount := _ } : Block) = b'
    have hset : Step i c (c.setBlock i b') := hb' ▸ step_setBlock hb rfl rfl rfl rfl
    have hkind' : b'.kind = .text := hb' ▸ hkind
    have hstopped' : b'.stopped = false := hb' ▸ hstopped
    generalize k.annotationsToClaude _ b.value = citations
    by_cases hcitations : citations = []
    · rw [if_pos hcitations]
      exact hset
    · rw [if_neg hcitations]
      obtain ⟨hstart, _, hb'', hstarted⟩ := startBlock_spec (setBlock_getElem? hb b')
      refine hset.trans (hstart.trans (step_sendCitations _ fun b0 hb0 => ?_))
      cases hb0.symm.trans hb''
      obtain ⟨_, hb1, hkind1, hstopped1⟩ := hstart.like b' (setBlock_getElem? hb b')
      cases hb1.symm.trans hb''
      exact ⟨hstarted (by simp [Block.content, hkind']) hstopped', hstopped1.trans hstopped', hkind1.trans hkind'⟩

/-! ## Items -/

theorem step_mergeItem (item : ResponsesOutput) (kind : BlockType) :
    Step i c (mergeItem k estimatedInputTokens i item kind c) := by
  cases kind with
  | thinking => exact step_mergeFinalValue _
  | text => exact (step_mergeFinalValue _).trans (step_appendAnnotations _ _)
  | toolUse => exact step_mergeFinalValue _

def Block.Closed (b : Block) : Prop := b.started = true → b.stopped = true

theorem stopBlock_spec : (Kept c → Kept (stopBlock k estimatedInputTokens i c)) ∧
      (stopBlock k estimatedInputTokens i c).state.blocks.length = c.state.blocks.length ∧
      (∀ j, j ≠ i → (stopBlock k estimatedInputTokens i c).state.blocks[j]? = c.state.blocks[j]?) ∧
      ∀ b, (stopBlock k estimatedInputTokens i c).state.blocks[i]? = some b → b.Closed := by
  unfold stopBlock
  cases hb : c.state.blocks[i]? with
  | none =>
    unfold Conv.withBlock
    rw [hb]
    exact ⟨id, rfl, fun _ _ => rfl, fun b hb' => by cases hb.symm.trans hb'⟩
  | some b =>
    rw [withBlock_eq hb]
    split_ifs with hstopped
    · refine ⟨id, rfl, fun _ _ => rfl, fun b' hb' => ?_⟩
      cases hb.symm.trans hb'
      exact fun _ => hstopped
    · have hstep : Step i c (startBlock k estimatedInputTokens i (flushBlock k estimatedInputTokens i c)) :=
        step_flushBlock.trans step_startBlock
      generalize startBlock k estimatedInputTokens i (flushBlock k estimatedInputTokens i c) = c' at hstep
      obtain ⟨b', hb', -, hstopped'⟩ := hstep.like b hb
      have hopen : b'.stopped = false := hstopped'.trans (by simpa using hstopped)
      unfold finishBlock
      rw [withBlock_eq hb']
      split_ifs with hstarted
      · have hset := setBlock_getElem? hb' { b' with stopped := true }
        refine ⟨fun h => ?_, ?_, fun j hj => ?_, fun b0 hb0 => ?_⟩
        · have hkept := hstep.kept h
          obtain ⟨t, hbegun, hrow, -⟩ := hkept.phases
          have hphase : b'.phase = .opened b'.kind := by simp [Block.phase, hopen, hstarted]
          have ht := (hrow.get hb').2
          have hstart := (begun_of_started hbegun (i := 0 + i) (by rw [ht, hphase]; simp)).1
          refine kept_action hkept hb' hstart rfl rfl ?_
          rw [hphase]
          rfl
        · rw [← hstep.length]
          simp [Conv.send, Conv.setBlock]
        · exact (List.getElem?_set_ne (Ne.symm hj)).trans (hstep.others j hj)
        · cases hset.symm.trans hb0
          exact fun _ => rfl
      · refine ⟨hstep.kept, hstep.length, hstep.others, fun b0 hb0 => ?_⟩
        cases hb'.symm.trans hb0
        exact fun hstarted' => absurd hstarted' hstarted

theorem applyMetadata_index (b : Block) (event : ResponsesEvent Usage) : (b.applyMetadata event).index = b.index := by
  unfold Block.applyMetadata
  cases event.item <;> dsimp only <;> split_ifs <;> rfl

theorem applyMetadata_phase (b : Block) (event : ResponsesEvent Usage) : (b.applyMetadata event).phase = b.phase := by
  have hsame : (b.applyMetadata event).kind = b.kind ∧ (b.applyMetadata event).started = b.started ∧
      (b.applyMetadata event).stopped = b.stopped := by
    unfold Block.applyMetadata
    cases event.item <;> dsimp only <;> split_ifs <;> exact ⟨rfl, rfl, rfl⟩
  obtain ⟨hkind, hstarted, hstopped⟩ := hsame
  unfold Block.phase
  rw [hkind, hstarted, hstopped]

theorem kept_applyBlockMetadata (h : Kept c) (hb : c.state.blocks[i]? = some b) (event : ResponsesEvent Usage)
    (kind : BlockType) : Kept (applyBlockMetadata i b event kind c) := by
  obtain ⟨hdone, hnext, hphases⟩ := kept_setBlock h hb (applyMetadata_index b event) (applyMetadata_phase b event)
  exact ⟨hdone, hnext, hphases⟩

theorem kept_newBlock (h : Kept c) (kind : BlockType) :
    Kept (c.set { c.state with
      blocks := c.state.blocks ++ [{ index := c.state.nextBlockIndex, kind := kind }]
      nextBlockIndex := c.state.nextBlockIndex + 1 }) := by
  obtain ⟨hdone, hnext, t, hbegun, hrow, hafter⟩ := h
  have hhere := hafter c.state.blocks.length le_rfl
  refine ⟨hdone, ?_, t, hbegun, row_concat.mpr ⟨hrow, ?_, ?_⟩, fun i hi => hafter i ?_⟩
  · simp [Conv.set, hnext]
  · rw [hnext, Nat.zero_add]
  · rw [Nat.zero_add, hhere]
    rfl
  · simp only [Conv.set, List.length_append] at hi
    omega

variable {event : ResponsesEvent Usage} {kind : BlockType} {events : List (ResponsesEvent Usage)}

theorem kept_ensureBlock (h : Kept c) (hr : ensureBlock event kind c = .ok (i, c')) : Kept c' := by
  unfold ensureBlock at hr
  split at hr
  · split at hr
    · cases hr
      exact h
    · rename_i i block hblock
      split_ifs at hr
      cases hr
      exact kept_applyBlockMetadata h hblock event kind
  · cases hr
    exact kept_applyBlockMetadata (kept_newBlock h kind) (by simp [Conv.set]) event kind

theorem kept_applyOutputItem (h : Kept c) {stop : Bool}
    (hr : applyOutputItem k estimatedInputTokens event stop c = .ok c') : Kept c' := by
  unfold applyOutputItem at hr
  split at hr
  · cases hr
    exact h
  · split at hr
    · cases hr
      exact h
    · obtain ⟨⟨i, _⟩, hensured, hr⟩ := bind_eq_ok.mp hr
      have hensured' := kept_ensureBlock h hensured
      split_ifs at hr
      · cases hr
        exact stopBlock_spec.1 ((step_mergeItem _ _).kept hensured')
      · cases hr
        exact (step_mergeItem _ _).kept hensured'

theorem kept_applyOutput (h : Kept c) {n : Nat} {items : List ResponsesOutput}
    (hr : applyOutput k estimatedInputTokens c n items = .ok c') : Kept c' := by
  induction items generalizing c n with
  | nil =>
    cases hr
    exact h
  | cons _ _ ih =>
    obtain ⟨_, hitem, hrest⟩ := bind_eq_ok.mp hr
    exact ih (kept_applyOutputItem h hitem) hrest

/-! ## The end -/

def Ended (c : Conv Usage ClaudeUsage) : Prop := c.state.done = true ∧ WellFormed c.sent

theorem kept_applyResponseMetadata (h : Kept c) (response : Option (ResponsesResponse Usage)) :
    Kept (c.set (applyResponseMetadata k response c.state)) := by
  obtain ⟨hdone, hnext, hphases⟩ := h
  cases response with
  | none | some => exact ⟨hdone, hnext, hphases⟩

theorem stopBlock_range (n : Nat) :
    let c' := (List.range n).foldl (fun c i => stopBlock k estimatedInputTokens i c) c
    (Kept c → Kept c') ∧ c'.state.blocks.length = c.state.blocks.length ∧
      ∀ i < n, ∀ b, c'.state.blocks[i]? = some b → b.Closed := by
  induction n with
  | zero => exact ⟨id, rfl, fun i hi => absurd hi (Nat.not_lt_zero i)⟩
  | succ n ih =>
    obtain ⟨hkept, hlength, hclosed⟩ := ih
    intro c'
    have hc' : c' = stopBlock k estimatedInputTokens n
      ((List.range n).foldl (fun c i => stopBlock k estimatedInputTokens i c) c) := by
      show (List.range (n + 1)).foldl _ c = _
      rw [List.range_succ, List.foldl_append]
      rfl
    rw [hc']
    obtain ⟨hkept', hlength', hothers, hclosed'⟩ := stopBlock_spec (i := n)
      (c := (List.range n).foldl (fun c i => stopBlock k estimatedInputTokens i c) c)
    refine ⟨fun h => hkept' (hkept h), hlength'.trans hlength, fun i hi b hb => ?_⟩
    by_cases heq : i = n
    · subst heq
      exact hclosed' b hb
    · rw [hothers i heq] at hb
      exact hclosed i (by omega) b hb

theorem kept_stopBlocks (h : Kept c) :
    Kept (stopBlocks k estimatedInputTokens c) ∧
    ∀ b ∈ (stopBlocks k estimatedInputTokens c).state.blocks, b.Closed := by
  obtain ⟨hkept, hlength, hclosed⟩ := stopBlock_range (c := c) c.state.blocks.length
  refine ⟨hkept h, fun b hb => ?_⟩
  obtain ⟨i, hi, hget⟩ := List.getElem_of_mem hb
  exact hclosed i (hlength ▸ hi) b (List.getElem?_eq_some_iff.mpr ⟨hi, hget⟩)

theorem phase_of_closed (h : b.Closed) (type : BlockType) : b.phase ≠ .opened type := by
  unfold Block.phase
  split_ifs with hstopped hstarted
  · simp
  · exact absurd (h hstarted) hstopped
  · simp

theorem ended_endMessage (h : Kept c) (hstart : c.state.sentMessageStart = true)
    (hclosed : ∀ b ∈ c.state.blocks, b.Closed)
    (usage : Option ClaudeUsage) (stopReason : Text) :
    Ended ((c.send [.messageDelta usage stopReason, .messageStop]).set { c.state with done := true }) := by
  obtain ⟨t, hbegun, hrow, hafter⟩ := h.phases
  unfold Begun at hbegun
  rw [if_pos hstart] at hbegun
  refine ⟨rfl, hbegun.close (fun i type => ?_) usage stopReason⟩
  cases hb : c.state.blocks[i]? with
  | none =>
    rw [hafter i (List.getElem?_eq_none_iff.mp hb)]
    simp
  | some b =>
    have ht := (hrow.get hb).2
    rw [Nat.zero_add] at ht
    rw [ht]
    exact phase_of_closed (hclosed b (List.mem_of_getElem? hb)) type

theorem ended_finish (h : Kept c) {response : Option (ResponsesResponse Usage)}
    (hr : finish k estimatedInputTokens response c = .ok c') : Ended c' := by
  unfold finish at hr
  rw [if_neg (by simp [h.done])] at hr
  obtain ⟨_, houtput, hr⟩ := bind_eq_ok.mp hr
  cases hr
  obtain ⟨hstopped, hclosed⟩ := kept_stopBlocks (kept_applyOutput (kept_applyResponseMetadata h response) houtput)
  obtain ⟨hstarted, hstart, hblocks⟩ := kept_ensureMessageStart hstopped
  exact ended_endMessage hstarted hstart (fun b hb => hclosed b (hblocks ▸ hb)) _ _

/-! ## The stream -/

theorem step_mergeOptional (value : Option Text) : Step i c (mergeOptional k estimatedInputTokens i value c) := by
  cases value with
  | none => exact Step.refl i c
  | some value => exact step_mergeFinalValue value

theorem step_reasoningDelta (delta : Text) : Step i c (reasoningDelta k estimatedInputTokens i delta c) := by
  refine step_withBlock fun b hb => ?_
  split_ifs
  · refine Step.trans ?_ (step_appendDelta _)
    exact step_setBlock hb rfl rfl rfl rfl
  · exact step_appendDelta delta

theorem step_reasoningDone (value : Option Text) : Step i c (reasoningDone k estimatedInputTokens i value c) := by
  have hmerged : Step i c (mergeOptional k estimatedInputTokens i value c) := step_mergeOptional value
  refine hmerged.trans (step_withBlock fun b hb => ?_)
  split_ifs
  · exact Step.refl i _
  · exact step_setBlock hb rfl rfl rfl rfl

theorem kept_ensured (h : Kept c) {rest : Nat × Conv Usage ClaudeUsage → Except ConvertError (Conv Usage ClaudeUsage)}
    (hrest : ∀ i c1, rest (i, c1) = .ok c' → Step i c1 c') (hr : (do rest (← ensureBlock event kind c)) = .ok c') :
    Kept c' := by
  obtain ⟨⟨i, c1⟩, hensured, hr⟩ := bind_eq_ok.mp hr
  exact (hrest i c1 hr).kept (kept_ensureBlock h hensured)

theorem kept_or_ended_convertChunk (h : Kept c) (hr : convertChunk k estimatedInputTokens event c = .ok c') :
    Kept c' ∨ Ended c' := by
  unfold convertChunk at hr
  rw [if_neg (by simp [h.done])] at hr
  have hmetadata : Kept (c.set (applyResponseMetadata k event.response c.state)) := kept_applyResponseMetadata h _
  generalize c.set (applyResponseMetadata k event.response c.state) = c0 at hr hmetadata
  dsimp only at hr
  split at hr
  case h_1 =>
    cases hr
    exact .inl (kept_ensureMessageStart hmetadata).1
  case h_2 =>
    refine .inl (kept_ensured hmetadata (fun i c1 h => ?_) hr)
    cases h
    exact step_reasoningDelta _
  case h_3 =>
    refine .inl (kept_ensured hmetadata (fun i c1 h => ?_) hr)
    cases h
    exact step_reasoningDone _
  case h_4 =>
    refine .inl (kept_ensured hmetadata (fun i c1 h => ?_) hr)
    cases h
    exact step_appendDelta _
  case h_5 =>
    refine .inl (kept_ensured hmetadata (fun i c1 h => ?_) hr)
    cases h
    exact step_mergeOptional _
  case h_6 =>
    refine .inl (kept_ensured hmetadata (fun i c1 h => ?_) hr)
    split at h
    · cases h
    · cases h
      exact step_appendAnnotations _ _
  case h_7 => exact .inl (kept_applyOutputItem hmetadata hr)
  case h_8 => exact .inl (kept_applyOutputItem hmetadata hr)
  case h_9 =>
    refine .inl (kept_ensured hmetadata (fun i c1 h => ?_) hr)
    cases h
    exact step_appendDelta _
  case h_10 =>
    refine .inl (kept_ensured hmetadata (fun i c1 h => ?_) hr)
    cases h
    exact step_mergeOptional _
  case h_11 => exact .inr (ended_finish hmetadata hr)
  case h_12 => cases hr
  case h_13 => cases hr
  case h_14 =>
    cases hr
    exact .inl hmetadata

theorem convertChunk_of_done (h : c.state.done = true) (event : ResponsesEvent Usage) :
    convertChunk k estimatedInputTokens event c = .ok c := by
  unfold convertChunk
  rw [if_pos h]

theorem finalize_of_done (h : c.state.done = true) : finalize k estimatedInputTokens c = .ok c := by
  unfold finalize
  rw [if_pos h]

theorem kept_or_ended_convertChunks (h : Kept c ∨ Ended c)
    (hr : convertChunks k estimatedInputTokens events c = .ok c') : Kept c' ∨ Ended c' := by
  induction events generalizing c with
  | nil =>
    cases hr
    exact h
  | cons _ _ ih =>
    obtain ⟨_, hevent, hrest⟩ := bind_eq_ok.mp hr
    rcases h with hkept | hended
    · exact ih (kept_or_ended_convertChunk hkept hevent) hrest
    · rw [convertChunk_of_done hended.1] at hevent
      cases hevent
      exact ih (.inr hended) hrest

theorem kept_start (id model : Text) :
    Kept ({ state := newResponsesToClaudeStreamState id model } : Conv Usage ClaudeUsage) :=
  ⟨rfl, rfl, fun _ => .unused, ⟨rfl, rfl⟩, trivial, fun _ _ => rfl⟩

theorem ended_finalize {id model : Text}
    (hevents : convertChunks k estimatedInputTokens events
      { state := newResponsesToClaudeStreamState id model } = .ok c)
    (hfinal : finalize k estimatedInputTokens c = .ok c') : Ended c' := by
  rcases kept_or_ended_convertChunks (.inl (kept_start id model)) hevents with hkept | hended
  · unfold finalize at hfinal
    rw [if_neg (by simp [hkept.done])] at hfinal
    exact ended_finish hkept hfinal
  · rw [finalize_of_done hended.1] at hfinal
    cases hfinal
    exact hended

end Converter

end CubeRouter.Streams.ResponsesToClaude
