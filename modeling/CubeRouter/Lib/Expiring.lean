import Mathlib.Data.Int.Order.Basic
import Mathlib.Data.Option.Basic
import Mathlib.Tactic.SplitIfs

/-!
# Keys that expire

A value in Redis with the time up to which it is kept. Whether it is still there is asked with the clock: `live`. A key
that is given a time that has passed is deleted at once.
-/

namespace Expiring

/-- A value and the last time at which it is there. -/
structure Key (α : Type) where
  value : α
  expires : Int

variable {α : Type}

def live (now : Int) (k : Option (Key α)) : Option α := (k.filter fun k => now ≤ k.expires).map Key.value

/-- `SET` or `HSET`, and `PEXPIREAT`. -/
def put (now : Int) (value : α) (expires : Int) : Option (Key α) :=
  if expires ≤ now then none else some ⟨value, expires⟩

variable {now : Int} {k : Option (Key α)} {a : α}

theorem live_eq_some_iff : live now k = some a ↔ ∃ x, k = some x ∧ now ≤ x.expires ∧ x.value = a := by
  simp [live, and_assoc]

theorem live_eq_none_iff : live now k = none ↔ ∀ x, k = some x → x.expires < now := by
  cases k with
  | none => simp [live]
  | some => simp [live]

@[simp] theorem live_none (now : Int) : live now (none : Option (Key α)) = none := rfl

theorem put_eq_some_iff {expires : Int} {value : α} {x : Key α} :
    put now value expires = some x ↔ now < expires ∧ x = ⟨value, expires⟩ := by
  unfold put
  split_ifs with h
  · simp [h]
  · simp only [Option.some.injEq, Int.not_le.mp h, true_and]
    exact eq_comm

theorem live_later {now' : Int} (h : live now' k = some a) (hle : now ≤ now') : live now k = some a := by
  obtain ⟨x, hk, hnow, hx⟩ := live_eq_some_iff.mp h
  exact live_eq_some_iff.mpr ⟨x, hk, Int.le_trans hle hnow, hx⟩

end Expiring
