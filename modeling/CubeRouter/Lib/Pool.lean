import Mathlib.Algebra.Order.BigOperators.Group.List
import Mathlib.Data.List.Perm.Basic

/-!
# Pools of running calls

Calls that run at the same time are a list; the scheduler picks one by its index, lets it take an atomic
step and puts back what the step leaves of it, with the calls it has started. A quantity spread over the
calls is a `weight`, and `weight_get` splits off the share of the call that is picked.
-/

namespace Pool

open List

variable {π M : Type*} [AddCommMonoid M]

/-- The sum of `w` over the calls of a pool. -/
def weight (w : π → M) (l : List π) : M := (l.map w).sum

variable (w : π → M)

@[simp] theorem weight_nil : weight w [] = 0 := rfl

@[simp] theorem weight_cons (c : π) (l : List π) : weight w (c :: l) = w c + weight w l := by
  simp [weight]

@[simp] theorem weight_append (l l' : List π) : weight w (l ++ l') = weight w l + weight w l' := by
  simp [weight]

variable {l : List π} {i : Nat} {c : π}

theorem weight_get (h : l[i]? = some c) : weight w l = weight w (l.eraseIdx i) + w c := by
  obtain ⟨hi, rfl⟩ := List.getElem?_eq_some_iff.mp h
  have hperm := (getElem_cons_eraseIdx_perm hi).map w
  rw [weight, ← hperm.sum_eq, map_cons, sum_cons, add_comm, weight]

theorem countP_get (p : π → Bool) (h : l[i]? = some c) :
    l.countP p = (l.eraseIdx i).countP p + if p c then 1 else 0 := by
  obtain ⟨hi, rfl⟩ := List.getElem?_eq_some_iff.mp h
  rw [← (getElem_cons_eraseIdx_perm hi).countP_eq p, countP_cons]

theorem mem_eraseIdx_of_ne {α : Type*} {l : List α} {a b : α} (hi : l[i]? = some b) (ha : a ∈ l) (hne : a ≠ b) :
    a ∈ l.eraseIdx i := by
  obtain ⟨hlt, rfl⟩ := List.getElem?_eq_some_iff.mp hi
  have hperm := (getElem_cons_eraseIdx_perm hlt).mem_iff.mpr ha
  exact (mem_cons.mp hperm).resolve_left hne

theorem countP_replace (p : π → Bool) (h : l[i]? = some c) (c' : π) :
    (l.eraseIdx i ++ [c']).countP p + (if p c then 1 else 0) = l.countP p + if p c' then 1 else 0 := by
  rw [countP_get p h, countP_append, countP_singleton]
  omega

theorem weight_nonneg [PartialOrder M] [IsOrderedAddMonoid M] {w : π → M} (hw : ∀ c, 0 ≤ w c)
    (l : List π) : 0 ≤ weight w l := by
  refine sum_nonneg fun x hx => ?_
  obtain ⟨c, -, rfl⟩ := mem_map.mp hx
  exact hw c

end Pool
