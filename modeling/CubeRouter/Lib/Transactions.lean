import CubeRouter.Lib.Process

/-!
# Database transactions that interleave

A transaction runs its statements one at a time on what it sees: the latest committed database with its own writes on
top of it (read committed). The rows that a statement locks stay locked until the transaction ends, and a statement
that asks for a row another transaction has locked waits. What a transaction writes is carried out on the committed
database when it commits; a transaction that fails, or that the database aborts, leaves nothing.

`Guard` is the proof rule. It gives every transaction an invariant in terms of the committed database; a statement keeps
that of its own transaction, and a commit keeps those of the transactions that hold other locks. `Plan` describes such
an invariant by the stages the code goes through.
-/

namespace Transactions

open Concurrency Transition List

/-- Statements `ι` with answers `ρ` on a database `σ` with rows to lock `L`. -/
structure Store (σ ι : Type) (ρ : ι → Type) (L : Type) where
  locks : ι → σ → List L
  answer : (i : ι) → σ → ρ i
  /-- Which rows are written is decided where the statement runs, on the database it sees. -/
  effect : ι → σ → σ → σ

/-- An open transaction. -/
structure Tx (σ ι : Type) (ρ : ι → Type) (L α : Type) where
  rest : Prog ι ρ α
  held : List L := []
  writes : σ → σ := id
  /-- Its statements with their answers, the latest first. -/
  log : List (Sigma ρ) := []

inductive Slot (σ ι : Type) (ρ : ι → Type) (L α β : Type)
  | running (call : β) (tx : Tx σ ι ρ L α)
  /-- Without an outcome when the database has aborted it. -/
  | ended (call : β) (outcome : Option α)

structure World (σ ι : Type) (ρ : ι → Type) (L α β : Type) where
  db : σ
  /-- In the order in which they began. -/
  slots : List (Slot σ ι ρ L α β) := []

inductive Event (β : Type)
  | begin (call : β)
  | advance (j : Nat)
  | abort (j : Nat)
  deriving Repr

structure Service (σ ι : Type) (ρ : ι → Type) (L α β : Type) extends Store σ ι ρ L where
  code : β → Prog ι ρ α
  commits : α → Bool

variable {σ ι : Type} {ρ : ι → Type} {L α β : Type} [DecidableEq L]

def Slot.holds (l : L) : Slot σ ι ρ L α β → Bool
  | .running _ tx => l ∈ tx.held
  | .ended _ _ => false

def World.free (w : World σ ι ρ L α β) (j : Nat) (l : L) : Bool :=
  w.slots.zipIdx.all fun x => x.2 = j || !x.1.holds l

def Tx.execute (m : Store σ ι ρ L) (db : σ) (tx : Tx σ ι ρ L α) (i : ι) (rest : ρ i → Prog ι ρ α) : Tx σ ι ρ L α where
  rest := rest (m.answer i (tx.writes db))
  held := m.locks i (tx.writes db) ++ tx.held
  writes s := m.effect i (tx.writes db) (tx.writes s)
  log := ⟨i, m.answer i (tx.writes db)⟩ :: tx.log

def Service.step (m : Service σ ι ρ L α β) (w : World σ ι ρ L α β) : Event β → World σ ι ρ L α β
  | .begin call => { w with slots := w.slots ++ [.running call { rest := m.code call }] }
  | .advance j =>
    match w.slots[j]? with
    | some (.running call tx) =>
      match tx.rest with
      | .ret a =>
        { db := if m.commits a then tx.writes w.db else w.db, slots := w.slots.set j (.ended call (some a)) }
      | .call i rest =>
        if (m.locks i (tx.writes w.db)).all (w.free j) then
          { w with slots := w.slots.set j (.running call (tx.execute m.toStore w.db i rest)) }
        else w
    | _ => w
  | .abort j =>
    match w.slots[j]? with
    | some (.running call _) => { w with slots := w.slots.set j (.ended call none) }
    | _ => w

/-! ## What a step can do -/

inductive StepCase (m : Service σ ι ρ L α β) (w : World σ ι ρ L α β) (e : Event β) : World σ ι ρ L α β → Prop
  | same : StepCase m w e w
  | began (call : β) : StepCase m w e { w with slots := w.slots ++ [.running call { rest := m.code call }] }
  | stepped (j : Nat) (call : β) (tx : Tx σ ι ρ L α) (i : ι) (rest : ρ i → Prog ι ρ α)
      (hj : w.slots[j]? = some (.running call tx)) (hrest : tx.rest = .call i rest)
      (hfree : ∀ l ∈ m.locks i (tx.writes w.db), w.free j l = true) :
      StepCase m w e { w with slots := w.slots.set j (.running call (tx.execute m.toStore w.db i rest)) }
  | closed (j : Nat) (call : β) (tx : Tx σ ι ρ L α) (outcome : Option α) (hj : w.slots[j]? = some (.running call tx))
      (hfailed : ∀ a, outcome = some a → m.commits a = false) :
      StepCase m w e { w with slots := w.slots.set j (.ended call outcome) }
  | committed (j : Nat) (call : β) (tx : Tx σ ι ρ L α) (a : α) (he : e = .advance j)
      (hj : w.slots[j]? = some (.running call tx)) (hrest : tx.rest = .ret a) (ha : m.commits a = true) :
      StepCase m w e { db := tx.writes w.db, slots := w.slots.set j (.ended call (some a)) }

theorem Service.step_cases (m : Service σ ι ρ L α β) (w : World σ ι ρ L α β) (e : Event β) :
    StepCase m w e (m.step w e) := by
  cases e with
  | begin call => exact .began call
  | advance j =>
    unfold Service.step
    dsimp only
    split
    · rename_i call tx hj
      split
      · rename_i a hrest
        by_cases ha : m.commits a = true
        · rw [if_pos ha]
          exact .committed j call tx a rfl hj hrest ha
        · rw [if_neg ha]
          refine .closed j call tx (some a) hj fun b hb => ?_
          cases hb
          exact Bool.eq_false_iff.mpr ha
      · rename_i i rest hrest
        split_ifs with hfree
        · exact .stepped j call tx i rest hj hrest (all_eq_true.mp hfree)
        · exact .same
    · exact .same
  | abort j =>
    unfold Service.step
    dsimp only
    split
    · rename_i call tx hj
      exact .closed j call tx none hj nofun
    · exact .same

/-! ## Locks -/

def World.Exclusive (w : World σ ι ρ L α β) : Prop := ∀ (j k : Nat) (call call' : β) (tx tx' : Tx σ ι ρ L α), j ≠ k →
  w.slots[j]? = some (.running call tx) → w.slots[k]? = some (.running call' tx') → ∀ l ∈ tx.held, l ∉ tx'.held

variable {w : World σ ι ρ L α β} {j k : Nat} {call : β} {tx : Tx σ ι ρ L α}

theorem World.free_iff {l : L} (h : w.free j l = true)
    (hk : w.slots[k]? = some (.running call tx)) (hne : k ≠ j) : l ∉ tx.held := by
  have hmem : (Slot.running call tx, k) ∈ w.slots.zipIdx := mem_zipIdx_iff_getElem?.mpr hk
  have hfree := all_eq_true.mp h _ hmem
  simpa [Slot.holds, hne] using hfree

omit [DecidableEq L] in
theorem getElem?_set_running {slots : List (Slot σ ι ρ L α β)} {slot : Slot σ ι ρ L α β}
    (h : (slots.set j slot)[k]? = some (.running call tx)) :
    k = j ∧ slot = .running call tx ∨ k ≠ j ∧ slots[k]? = some (.running call tx) := by
  rw [getElem?_set] at h
  split_ifs at h with hk hlt
  · exact .inl ⟨hk.symm, Option.some.inj h⟩
  · exact .inr ⟨Ne.symm hk, h⟩

theorem World.Exclusive.step {m : Service σ ι ρ L α β} (h : w.Exclusive) (e : Event β) : (m.step w e).Exclusive := by
  have hclose {db : σ} {j : Nat} {call : β} {outcome : Option α} :
      World.Exclusive { db := db, slots := w.slots.set j (.ended call outcome) } := by
    intro j' k' call' call'' tx' tx'' hne hj' hk'
    obtain ⟨-, hslot⟩ | ⟨-, hj'⟩ := getElem?_set_running hj'
    · cases hslot
    obtain ⟨-, hslot⟩ | ⟨-, hk'⟩ := getElem?_set_running hk'
    · cases hslot
    exact h j' k' call' call'' tx' tx'' hne hj' hk'
  have hcase := m.step_cases w e
  generalize m.step w e = w' at hcase ⊢
  cases hcase with
  | same => exact h
  | began call =>
    have hold {k : Nat} {call' : β} {tx : Tx σ ι ρ L α}
        (hk : (w.slots ++ [Slot.running call { rest := m.code call }])[k]? = some (.running call' tx)) :
        w.slots[k]? = some (.running call' tx) ∨ tx.held = [] := by
      rw [getElem?_append] at hk
      split_ifs at hk
      · exact .inl hk
      · obtain ⟨_, heq⟩ := List.getElem?_eq_some_iff.mp hk
        simp only [getElem_singleton] at heq
        cases heq
        exact .inr rfl
    intro j k call' call'' tx tx' hne hj hk l hl
    obtain hj | hnil := hold hj
    · obtain hk | hnil := hold hk
      · exact h j k call' call'' tx tx' hne hj hk l hl
      · simp [hnil]
    · rw [hnil] at hl
      cases hl
  | stepped j _ _ i _ hj _ hfree =>
    intro j' k' call' call'' tx' tx'' hne hj' hk' l hl
    obtain ⟨heq, hslot⟩ | ⟨hnej, hold⟩ := getElem?_set_running hj'
    · cases hslot
      obtain ⟨heq', -⟩ | ⟨hnek, hother⟩ := getElem?_set_running hk'
      · exact absurd (heq.trans heq'.symm) hne
      · obtain hl | hl := mem_append.mp hl
        · exact World.free_iff (hfree l hl) hother hnek
        · exact h j k' _ _ _ _ hnek.symm hj hother l hl
    · obtain ⟨_, hslot⟩ | ⟨-, hother⟩ := getElem?_set_running hk'
      · cases hslot
        intro hmem
        obtain hmem | hmem := mem_append.mp hmem
        · exact World.free_iff (hfree l hmem) hold hnej hl
        · exact h j' j _ _ _ _ hnej hold hj l hl hmem
      · exact h _ _ _ _ _ _ hne hold hother l hl
  | closed | committed => exact hclose

/-! ## The rule -/

/-- An invariant of each open transaction in terms of the committed database, and what is assumed of a step. -/
structure Guard (m : Service σ ι ρ L α β) where
  good : σ → β → Tx σ ι ρ L α → Prop
  allows : World σ ι ρ L α β → Event β → Prop
  begins : ∀ s call, good s call { rest := m.code call }
  executes : ∀ s call tx i rest, good s call tx → tx.rest = .call i rest → good s call (tx.execute m.toStore s i rest)
  commits : ∀ (w : World σ ι ρ L α β) (j : Nat) (call : β) (tx : Tx σ ι ρ L α), allows w (.advance j) →
    w.slots[j]? = some (.running call tx) → (∃ a, tx.rest = .ret a ∧ m.commits a = true) → good w.db call tx →
    ∀ (k : Nat) (call' : β) (tx' : Tx σ ι ρ L α), w.slots[k]? = some (.running call' tx') →
      (∀ l ∈ tx.held, l ∉ tx'.held) → good w.db call' tx' → good (tx.writes w.db) call' tx'

structure Guard.Holds {m : Service σ ι ρ L α β} (c : Guard m) (w : World σ ι ρ L α β) : Prop where
  good : ∀ (k : Nat) (call : β) (tx : Tx σ ι ρ L α), w.slots[k]? = some (.running call tx) → c.good w.db call tx
  exclusive : w.Exclusive

theorem Guard.Holds.step {m : Service σ ι ρ L α β} {c : Guard m} (h : c.Holds w) {e : Event β}
    (he : c.allows w e) : c.Holds (m.step w e) := by
  have hexclusive := h.exclusive.step (m := m) e
  have hcase := m.step_cases w e
  generalize m.step w e = w' at hcase hexclusive ⊢
  cases hcase with
  | same => exact h
  | began =>
    refine ⟨fun k call' tx hk => ?_, hexclusive⟩
    rw [getElem?_append] at hk
    split_ifs at hk
    · exact h.good k call' tx hk
    · obtain ⟨_, heq⟩ := List.getElem?_eq_some_iff.mp hk
      simp only [getElem_singleton] at heq
      cases heq
      exact c.begins _ _
  | stepped j _ _ i _ hj hrest =>
    refine ⟨fun k call' tx' hk => ?_, hexclusive⟩
    obtain ⟨rfl, hslot⟩ | ⟨-, hk⟩ := getElem?_set_running hk
    · cases hslot
      exact c.executes _ _ _ _ _ (h.good _ _ _ hj) hrest
    · exact h.good k call' tx' hk
  | closed =>
    refine ⟨fun k call' tx' hk => ?_, hexclusive⟩
    obtain ⟨-, hslot⟩ | ⟨-, hk⟩ := getElem?_set_running hk
    · cases hslot
    · exact h.good k call' tx' hk
  | committed j call tx a heq hj hrest ha =>
    subst heq
    refine ⟨fun k call' tx' hk => ?_, hexclusive⟩
    obtain ⟨-, hslot⟩ | ⟨hne, hk⟩ := getElem?_set_running hk
    · cases hslot
    · exact c.commits w j call tx he hj ⟨a, hrest, ha⟩ (h.good j call tx hj) k call' tx' hk
        (h.exclusive j k call call' tx tx' hne.symm hj hk) (h.good k call' tx' hk)

omit [DecidableEq L] in
theorem Guard.holds_start {m : Service σ ι ρ L α β} (c : Guard m) (s : σ) : c.Holds { db := s } where
  good k call tx hk := by cases hk
  exclusive j k call call' tx tx' hne hj := by cases hj

/-! ## Code that goes through stages -/

/-- What a transaction knows at a stage, `enters`, and which stage follows a statement, `moves`. Both are about the
committed database and the one it sees. -/
structure Plan (m : Store σ ι ρ L) (S : Type) where
  enters : S → σ → σ → Prop
  moves : S → ι → σ → σ → S → Prop

variable {m : Store σ ι ρ L} {S γ δ : Type} (plan : Plan m S) {stage : S} {p : Prog ι ρ γ}

/-- From the stage on the code goes to one stage after the other, and ends as `post` says. -/
def Plan.Follows (post : γ → S → Prop) : S → Prog ι ρ γ → Prop
  | stage, .ret a => post a stage
  | stage, .call i rest => ∀ db seen, plan.enters stage db seen →
      ∃ next, plan.moves stage i db seen next ∧ Follows post next (rest (m.answer i seen))

variable {plan} {post : γ → S → Prop} {post' : δ → S → Prop}

omit [DecidableEq L] in
theorem Plan.Follows.bind (h : plan.Follows post stage p) {f : γ → Prog ι ρ δ}
    (hf : ∀ a next, post a next → plan.Follows post' next (f a)) : plan.Follows post' stage (p.bind f) := by
  induction p generalizing stage with
  | ret a => exact hf a stage h
  | call i _ ih =>
    intro db seen henters
    obtain ⟨next, hmoves, hrest⟩ := h db seen henters
    exact ⟨next, hmoves, ih _ hrest⟩

omit [DecidableEq L] in
theorem Plan.Follows.weaken {post' : γ → S → Prop} (h : plan.Follows post stage p)
    (hpost : ∀ a next, post a next → post' a next) : plan.Follows post' stage p := by
  induction p generalizing stage with
  | ret a => exact hpost a stage h
  | call i _ ih =>
    intro db seen henters
    obtain ⟨next, hmoves, hrest⟩ := h db seen henters
    exact ⟨next, hmoves, ih _ hrest⟩

end Transactions
