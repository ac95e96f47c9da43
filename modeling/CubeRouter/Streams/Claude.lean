import CubeRouter.Lib.Keyed
import CubeRouter.Lib.Text

/-!
# Claude event streams

The events that a client of the Claude Messages API is sent (`dto.ClaudeResponse`), and when a stream of them is well
formed: the message starts, its content blocks start, get deltas of their own type and stop, and the message ends. A
stream that is still being written is `Open` with the phase of every block; what may be appended to it is said by one
lemma for each event.
-/

namespace CubeRouter.Streams

open Keyed Strings List

inductive BlockType
  | text
  | thinking
  | toolUse
  deriving DecidableEq

inductive ContentBlock
  | text
  | thinking
  | toolUse (id name : Text)

inductive BlockDelta
  | text (text : Text)
  | thinking (thinking : Text)
  | inputJson (partialJson : Text)
  | citations (citation : Text)

/-- The usage `υ` is the one of the message. -/
inductive ClaudeResponse (υ : Type)
  | messageStart (id model : Text) (usage : Option υ)
  | contentBlockStart (index : Nat) (block : ContentBlock)
  | contentBlockDelta (index : Nat) (delta : BlockDelta)
  | contentBlockStop (index : Nat)
  | messageDelta (usage : Option υ) (stopReason : Text)
  | messageStop

/-- `reasonmap`; the reasons are ASCII. -/
def openAIFinishReasonToClaudeStopReason (finishReason : Text) : Text :=
  let lower := finishReason.map Char.toLower
  if lower = text "stop" then text "end_turn"
  else if lower = text "stop_sequence" then text "stop_sequence"
  else if lower = text "length" ∨ lower = text "max_tokens" then text "max_tokens"
  else if lower = text "content_filter" then text "refusal"
  else if lower = text "tool_calls" then text "tool_use"
  else finishReason

/-- `kitutil.NormalizeToolUseID`. -/
def normalizeToolUseID (id name responseToken : Text) (ordinal : Nat) : Text :=
  if name = [] then id
  else if hasPrefix id (text "call_") ∨ hasPrefix id (text "toolu_bdrk_") ∨ hasPrefix id (text "toolu_vrtx_") then id
  else if ¬hasPrefix id (name ++ text "_") ∧ ¬hasPrefix id (text "toolu_" ++ name ++ text "_") then id
  else text "toolu_" ++ responseToken ++ text "_" ++ text (toString ordinal)

def ContentBlock.type : ContentBlock → BlockType
  | .text => .text
  | .thinking => .thinking
  | .toolUse _ _ => .toolUse

def BlockDelta.type : BlockDelta → BlockType
  | .text _ | .citations _ => .text
  | .thinking _ => .thinking
  | .inputJson _ => .toolUse

/-! ## Blocks -/

inductive Action
  | start (type : BlockType)
  | delta (type : BlockType)
  | stop

inductive Phase
  | unused
  | opened (type : BlockType)
  | stopped

def Phase.next : Phase → Action → Option Phase
  | .unused, .start type => some (.opened type)
  | .opened type, .delta type' => if type = type' then some (.opened type) else none
  | .opened _, .stop => some .stopped
  | _, _ => none

/-- A block that was used: started once, deltas of its type, stopped once. -/
def BlockLife (l : List Action) : Prop := ∃ type n, l = .start type :: (List.replicate n (.delta type) ++ [.stop])

theorem follow_opened {k : BlockType} {l : List Action} {p : Phase} (h : follow Phase.next (.opened k) l = some p) :
    (p = .opened k ∧ l = List.replicate l.length (.delta k)) ∨
      p = .stopped ∧ ∃ n, l = List.replicate n (.delta k) ++ [.stop] := by
  induction l with
  | nil =>
    cases h
    exact .inl ⟨rfl, rfl⟩
  | cons a l ih =>
    cases a with
    | start => cases h
    | delta k' =>
      by_cases heq : k = k'
      · subst heq
        simp only [follow, Phase.next] at h
        rcases ih h with ⟨hp, hl⟩ | ⟨hp, n, hl⟩
        · refine .inl ⟨hp, ?_⟩
          rw [length_cons, replicate_succ, ← hl]
        · exact .inr ⟨hp, n + 1, by rw [hl, replicate_succ, cons_append]⟩
      · simp [follow, Phase.next, heq] at h
    | stop =>
      cases l with
      | nil =>
        cases h
        exact .inr ⟨rfl, 0, rfl⟩
      | cons b => cases b <;> cases h

theorem blockLife_of_follow {l : List Action} {p : Phase} (h : follow Phase.next .unused l = some p)
    (hclosed : ∀ type, p ≠ .opened type) : l = [] ∨ BlockLife l := by
  cases l with
  | nil => exact .inl rfl
  | cons a =>
    cases a with
    | start type =>
      rcases follow_opened (k := type) h with ⟨rfl, -⟩ | ⟨-, n, rfl⟩
      · exact absurd rfl (hclosed type)
      · exact .inr ⟨type, n, rfl⟩
    | delta => cases h
    | stop => cases h

/-! ## Streams -/

variable {υ : Type}

/-- The block that an event is about and what it does to it. -/
def ClaudeResponse.action : ClaudeResponse υ → Option (Nat × Action)
  | .contentBlockStart index block => some (index, .start block.type)
  | .contentBlockDelta index delta => some (index, .delta delta.type)
  | .contentBlockStop index => some (index, .stop)
  | .messageStart _ _ _ | .messageDelta _ _ | .messageStop => none

/-- One `message_start`, the blocks, one `message_delta` and one `message_stop`. -/
def WellFormed (l : List (ClaudeResponse υ)) : Prop :=
  ∃ id model startUsage body usage stopReason,
    l = .messageStart id model startUsage :: (body ++ [.messageDelta usage stopReason, .messageStop]) ∧
      (∀ r ∈ body, r.action.isSome) ∧
      ∀ index, let life := project index (body.filterMap ClaudeResponse.action); life = [] ∨ BlockLife life

def Open (l : List (ClaudeResponse υ)) (t : Nat → Phase) : Prop :=
  ∃ id model usage body, l = .messageStart id model usage :: body ∧ (∀ r ∈ body, r.action.isSome) ∧
    Plays Phase.next (fun _ => .unused) (body.filterMap ClaudeResponse.action) t

variable {l : List (ClaudeResponse υ)} {t : Nat → Phase} {index : Nat}

theorem open_start (id model : Text) (usage : Option υ) : Open [.messageStart id model usage] fun _ => .unused :=
  ⟨id, model, usage, [], rfl, by simp, Plays.nil _⟩

theorem Open.action (h : Open l t) {r : ClaudeResponse υ} {a : Action} {p : Phase} (hr : r.action = some (index, a))
    (hp : (t index).next a = some p) : Open (l ++ [r]) (Function.update t index p) := by
  obtain ⟨id, model, usage, body, rfl, hbody, hplays⟩ := h
  refine ⟨id, model, usage, body ++ [r], rfl, fun r' hr' => ?_, ?_⟩
  · rcases mem_append.mp hr' with hold | hnew
    · exact hbody r' hold
    · rw [mem_singleton.mp hnew, hr]
      rfl
  · simpa [hr] using hplays.concat hp

theorem Open.blockStart (h : Open l t) (hunused : t index = .unused) (block : ContentBlock) :
    Open (l ++ [.contentBlockStart index block]) (Function.update t index (.opened block.type)) :=
  h.action rfl (by rw [hunused]; rfl)

theorem Open.blockDelta (h : Open l t) (delta : BlockDelta) (hopened : t index = .opened delta.type) :
    Open (l ++ [.contentBlockDelta index delta]) t := by
  have hstep := h.action (r := .contentBlockDelta index delta) (p := .opened delta.type) rfl
    (by simp [hopened, Phase.next])
  rwa [← hopened, Function.update_eq_self] at hstep

theorem Open.blockStop (h : Open l t) {type : BlockType} (hopened : t index = .opened type) :
    Open (l ++ [.contentBlockStop index]) (Function.update t index .stopped) :=
  h.action rfl (by rw [hopened]; rfl)

theorem Open.close (h : Open l t) (hclosed : ∀ index type, t index ≠ .opened type)
    (usage : Option υ) (stopReason : Text) :
    WellFormed (l ++ [.messageDelta usage stopReason, .messageStop]) := by
  obtain ⟨id, model, startUsage, body, rfl, hbody, hplays⟩ := h
  exact ⟨id, model, startUsage, body, usage, stopReason, rfl, hbody,
    fun index => blockLife_of_follow (hplays index) (hclosed index)⟩

/-! ## Rows of blocks -/

section Row

variable {β : Type} {blockIndex : β → Nat} {phase : β → Phase} {n i : Nat} {b : β} {bs : List β} {t' : Nat → Phase}

/-- The blocks from `n` on are these, in these phases. -/
def Row (blockIndex : β → Nat) (phase : β → Phase) : Nat → List β → (Nat → Phase) → Prop
  | _, [], _ => True
  | n, b :: bs, t => blockIndex b = n ∧ t n = phase b ∧ Row blockIndex phase (n + 1) bs t

theorem Row.congr (h : Row blockIndex phase n bs t) (hsame : ∀ i, n ≤ i → i < n + bs.length → t' i = t i) :
    Row blockIndex phase n bs t' := by
  induction bs generalizing n with
  | nil => trivial
  | cons b _ ih =>
    obtain ⟨hindex, hphase, hrest⟩ := h
    refine ⟨hindex, (hsame n (Nat.le_refl n) (by simp)).trans hphase, ih hrest fun i hle hlt => ?_⟩
    exact hsame i (by omega) (by rw [length_cons]; omega)

theorem Row.get (h : Row blockIndex phase n bs t) (hi : bs[i]? = some b) :
    blockIndex b = n + i ∧ t (n + i) = phase b := by
  induction bs generalizing n i with
  | nil => simp at hi
  | cons _ _ ih =>
    cases i with
    | zero =>
      cases hi
      exact ⟨h.1, h.2.1⟩
    | succ i =>
      have hrest := ih h.2.2 hi
      rwa [show n + (i + 1) = n + 1 + i by omega]

theorem row_concat : Row blockIndex phase n (bs ++ [b]) t ↔
    Row blockIndex phase n bs t ∧ blockIndex b = n + bs.length ∧ t (n + bs.length) = phase b := by
  induction bs generalizing n with
  | nil => simp [Row]
  | cons _ bs ih =>
    simp [Row, ih, and_assoc, show n + 1 + bs.length = n + (bs.length + 1) by omega]

theorem Row.set (h : Row blockIndex phase n bs t) (hindex : blockIndex b = n + i) (hphase : t' (n + i) = phase b)
    (hsame : ∀ j, j ≠ n + i → t' j = t j) : Row blockIndex phase n (bs.set i b) t' := by
  induction bs generalizing n i with
  | nil => trivial
  | cons _ _ ih =>
    obtain ⟨hfirst, hphase', hrest⟩ := h
    cases i with
    | zero => exact ⟨hindex, hphase, hrest.congr fun j hle _ => hsame j (by omega)⟩
    | succ i =>
      have hmove : n + (i + 1) = n + 1 + i := by omega
      rw [hmove] at hindex hphase hsame
      exact ⟨hfirst, (hsame n (by omega)).trans hphase', ih hrest hindex hphase hsame⟩

end Row

end CubeRouter.Streams
