import Mathlib.Data.Int.Order.Basic

/-!
# Catching up with the time

A schedule says for each time which one comes next, if any. Catching up moves from one time to the next while that is
not after now. It may go on for ever; where the schedule advances it ends, and it makes no difference whether it stops
on the way (`To.tail`).
-/

namespace CatchUp

/-- From one time to the last one that is reached by now. -/
inductive To (next : Int → Option Int) (now : Int) : Int → Int → Prop
  | stop {b : Int} (h : ∀ t, next b = some t → now < t) : To next now b b
  | step {b t b' : Int} (hnext : next b = some t) (hle : t ≤ now) (h : To next now t b') : To next now b b'

def Advancing (next : Int → Option Int) : Prop := ∀ b t, next b = some t → b < t

variable {next : Int → Option Int} {now now' b b' b1 b2 t : Int}

theorem To.unique (h1 : To next now b b1) (h2 : To next now b b2) : b1 = b2 := by
  induction h1 with
  | stop h =>
    cases h2 with
    | stop => rfl
    | step hnext hle => exact absurd hle (not_le.mpr (h _ hnext))
  | step hnext hle h ih =>
    cases h2 with
    | stop h' => exact absurd hle (not_le.mpr (h' _ hnext))
    | step hnext' _ h' =>
      obtain rfl := Option.mem_unique hnext hnext'
      exact ih h'

theorem Advancing.exists_to (hnext : Advancing next) (now b : Int) : ∃ b', To next now b b' := by
  obtain ⟨n, hn⟩ : ∃ n : Nat, (now - b).toNat ≤ n := ⟨_, Nat.le_refl _⟩
  induction n generalizing b with
  | zero =>
    refine ⟨b, .stop fun t ht => ?_⟩
    have := hnext b t ht
    omega
  | succ n ih =>
    by_cases hdue : ∃ t, next b = some t ∧ t ≤ now
    · obtain ⟨t, ht, hle⟩ := hdue
      have := hnext b t ht
      obtain ⟨b', hb'⟩ := ih t (by omega)
      exact ⟨b', .step ht hle hb'⟩
    · exact ⟨b, .stop fun t ht => not_le.mp fun hle => hdue ⟨t, ht, hle⟩⟩

theorem To.tail (hle : now ≤ now') (h1 : To next now b b1) (h2 : To next now' b b2) : To next now' b1 b2 := by
  induction h1 with
  | stop => exact h2
  | step hnext hdue h ih =>
    cases h2 with
    | stop hwaits => exact absurd (hwaits _ hnext) (not_lt.mpr (le_trans hdue hle))
    | step hnext' _ hrest =>
      obtain rfl := Option.mem_unique hnext hnext'
      exact ih hrest

theorem To.after (h : To next now b b') : ∀ t, next b' = some t → now < t := by
  induction h with
  | stop h => exact h
  | step _ _ h ih => exact ih

theorem To.last (h : To next now b b') : b' = b ∨ b' ≤ now := by
  induction h with
  | stop => exact .inl rfl
  | step _ hle h ih =>
    rcases ih with rfl | hlast
    · exact .inr hle
    · exact .inr hlast

theorem To.reached {P : Int → Prop} (hP : ∀ b t, P b → next b = some t → P t) (h : To next now b b') (hb : P b) :
    P b' := by
  induction h with
  | stop => exact hb
  | step hnext _ h ih => exact ih (hP _ _ hb hnext)

theorem not_to_of_stuck (hstuck : next b = some b) (hle : b ≤ now) : ¬To next now b b' := by
  intro h
  induction h with
  | stop h => exact absurd hle (not_le.mpr (h _ hstuck))
  | step hnext _ h ih =>
    obtain rfl := Option.mem_unique hstuck hnext
    exact ih hstuck hle

end CatchUp
