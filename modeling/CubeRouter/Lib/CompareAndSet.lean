import Mathlib.Data.Option.Basic
import Mathlib.Tactic.SplitIfs

/-!
# Guarded writes

`UPDATE … WHERE id = ? AND status = ?` writes a whole row if its status is still the one the writer has read.
Databases differ in whether a row that matches and stays as it is counts as affected, so that is a parameter, as
is a failure of the database.
-/

namespace Relational

inductive Update
  | failed
  | lost
  | won
  deriving DecidableEq

variable {ρ σ : Type*} [DecidableEq ρ] [DecidableEq σ]

/-- Write `new` over `row` if the status of `row` is `expected`. -/
def compareAndSet (status : ρ → σ) (dbError noopCounts : Bool) (row : Option ρ) (new : ρ) (expected : σ) :
    Update × Option ρ :=
  if dbError then
    (.failed, row)
  else
    match row with
    | none => (.lost, none)
    | some stored =>
      if status stored = expected then (if stored = new ∧ ¬noopCounts then .lost else .won, some new)
      else (.lost, some stored)

theorem compareAndSet_cases (status : ρ → σ) (dbError noopCounts : Bool) (row : Option ρ) (new : ρ) (expected : σ) :
    ((compareAndSet status dbError noopCounts row new expected).1 ≠ .won ∧
      (compareAndSet status dbError noopCounts row new expected).2 = row) ∨
    ∃ stored, row = some stored ∧ status stored = expected ∧
      (compareAndSet status dbError noopCounts row new expected).2 = some new ∧
      (stored ≠ new → (compareAndSet status dbError noopCounts row new expected).1 = .won) := by
  unfold compareAndSet
  split_ifs
  · exact .inl ⟨by simp, rfl⟩
  · cases row with
    | none => exact .inl ⟨by simp, rfl⟩
    | some stored =>
      by_cases hstatus : status stored = expected
      · refine .inr ⟨stored, rfl, hstatus, ?_, ?_⟩
        · simp [hstatus]
        · intro hne
          simp [hstatus, hne]
      · refine .inl ⟨?_, ?_⟩
        · simp only [hstatus]
          exact fun h => nomatch h
        · simp [hstatus]

end Relational
