import CubeRouter.Routing.Selection
import Mathlib.Algebra.BigOperators.Ring.List

/-!
# Weighted choice

Both selectors subtract the weights from a random number below their sum. `GetRandomSatisfiedChannel` stops when what
is left is negative, and there each channel is taken for as many numbers as it weighs. `GetChannel` stops when it is
zero already: the first ability is taken for one number too many and the last one for one too few. So the choice is
exact only where the first and the last ability are the same (`weighted_choice_is_exact_iff`).
-/

namespace CubeRouter.Routing.Selection

open Strings Tiers List Nat

/-- The smoothing factor and the smoothing adjustment. -/
def smoothing (targetChannels : List (Nat × Channel)) : Nat × Nat :=
  let sumWeight := (targetChannels.map fun c => c.2.getWeight).sum
  if sumWeight = 0 then (1, 100)
  else if sumWeight / targetChannels.length < 10 then (100, 0)
  else (1, 0)

def effectiveWeight (targetChannels : List (Nat × Channel)) (c : Nat × Channel) : Nat :=
  c.2.getWeight * (smoothing targetChannels).1 + (smoothing targetChannels).2

def totalWeight (targetChannels : List (Nat × Channel)) : Nat :=
  let sumWeight := (targetChannels.map fun c => c.2.getWeight).sum
  (if sumWeight = 0 then targetChannels.length * 100 else sumWeight) * (smoothing targetChannels).1

def Ability.effectiveWeight (a : Ability) : Nat := a.weight + 10

def weightSum (abilities : List Ability) : Nat := (abilities.map Ability.effectiveWeight).sum

theorem drawSmoothed_eq (random : Nat) (l : List (Nat × Channel)) :
    drawSmoothed random l = drawBelow (effectiveWeight l) (random % totalWeight l : Nat) l := by
  unfold drawSmoothed drawBelow effectiveWeight totalWeight smoothing
  dsimp only
  split_ifs <;> rfl

theorem sum_effectiveWeight (l : List (Nat × Channel)) : (l.map (effectiveWeight l)).sum = totalWeight l := by
  have hsum : (l.map (effectiveWeight l)).sum =
      (l.map fun c => c.2.getWeight).sum * (smoothing l).1 + l.length * (smoothing l).2 := by
    unfold effectiveWeight
    rw [sum_map_add, sum_map_mul_right, map_const', sum_replicate_nat]
  rw [hsum]
  unfold totalWeight smoothing
  dsimp only
  split_ifs with hzero <;> simp <;> omega

theorem totalWeight_pos {l : List (Nat × Channel)} (hl : l ≠ []) : 0 < totalWeight l := by
  have hlength : 0 < l.length := length_pos_iff.mpr hl
  unfold totalWeight smoothing
  dsimp only
  split_ifs <;> omega

theorem drawAbility_eq (random : Nat) (l : List Ability) :
    drawAbility random l = drawToZero Ability.effectiveWeight (random % weightSum l : Nat) l := rfl

theorem effectiveWeight_pos (a : Ability) : 0 < a.effectiveWeight := Nat.add_pos_right a.weight (by decide)

theorem weightSum_pos {l : List Ability} (hl : l ≠ []) : 0 < weightSum l := by
  obtain ⟨a, l, rfl⟩ := exists_cons_of_ne_nil hl
  exact Nat.add_pos_left (effectiveWeight_pos a) _

theorem ways_drawAbility {l : List Ability} (hl : l ≠ []) (a : Ability) :
    ways (drawAbility · l) (weightSum l) a + (if l.getLast? = some a then 1 else 0) =
      l.countP (· = a) * a.effectiveWeight + (if l.head? = some a then 1 else 0) := by
  rw [← ways_to_zero effectiveWeight_pos hl a, ← weightSum]
  congr 1
  refine ways_congr (fun r hr => ?_) a
  rw [drawAbility_eq, mod_eq_of_lt hr]

/-- With the cache the choice is exact for all weights. -/
theorem drawSmoothed_exact {l : List (Nat × Channel)} (hl : l ≠ []) :
    Exact (drawSmoothed · l) (totalWeight l) (effectiveWeight l) l := by
  have hways : ∀ c, ways (drawSmoothed · l) (totalWeight l) c = l.countP (· = c) * effectiveWeight l c := by
    intro c
    rw [← ways_below, sum_effectiveWeight]
    refine ways_congr (fun r hr => ?_) c
    rw [drawSmoothed_eq, mod_eq_of_lt hr]
  have hmod : ∀ r, drawSmoothed r l = drawSmoothed (r % totalWeight l) l := by
    intro r
    rw [drawSmoothed_eq, drawSmoothed_eq, mod_mod]
  constructor
  · intro random
    obtain ⟨c, hc⟩ := exists_drawSmoothed hl random
    exact ⟨c, mem_of_draw hc, hc⟩
  · exact fun c _ => hways c
  · intro c hc
    rw [exists_choose_iff (totalWeight_pos hl) hmod, hways c]
    exact mul_pos_iff_of_pos_left (countP_eq_pos hc)

/-- Without the cache the choice is exact where the ability that gains a number is the one that loses it. -/
theorem drawAbility_exact_iff {l : List Ability} (hl : l ≠ []) :
    Exact (drawAbility · l) (weightSum l) Ability.effectiveWeight l ↔ l.head? = l.getLast? := by
  constructor
  · intro h
    obtain ⟨a, _, rfl⟩ := exists_cons_of_ne_nil hl
    have hways := ways_drawAbility hl a
    rw [h.ways a mem_cons_self, head?_cons, if_pos rfl] at hways
    by_contra hne
    rw [if_neg fun hlast => hne hlast.symm] at hways
    omega
  · intro hsame
    have hways : ∀ a, ways (drawAbility · l) (weightSum l) a = l.countP (· = a) * a.effectiveWeight := by
      intro a
      have := ways_drawAbility hl a
      rw [hsame] at this
      exact add_right_cancel this
    have hmod : ∀ r, drawAbility r l = drawAbility (r % weightSum l) l := by
      intro r
      rw [drawAbility_eq, drawAbility_eq, mod_mod]
    constructor
    · intro random
      obtain ⟨a, ha⟩ := exists_drawAbility hl random
      exact ⟨a, mem_of_draw ha, ha⟩
    · exact fun a _ => hways a
    · intro a ha
      rw [exists_choose_iff (weightSum_pos hl) hmod, hways a]
      exact mul_pos_iff_of_pos_left (countP_eq_pos ha)

/-- The choice of both selectors is exact for a tier if and only if the first and the last ability are the same. -/
theorem weighted_choice_is_exact_iff (targetChannels : List (Nat × Channel)) (abilities : List Ability)
    (hchannels : targetChannels ≠ []) (habilities : abilities ≠ []) :
    (Exact (drawSmoothed · targetChannels) (totalWeight targetChannels)
      (effectiveWeight targetChannels) targetChannels ∧
        Exact (drawAbility · abilities) (weightSum abilities) Ability.effectiveWeight abilities) ↔
      abilities.head? = abilities.getLast? := by
  rw [← drawAbility_exact_iff habilities]
  exact and_iff_right (drawSmoothed_exact hchannels)

def weighing (id weight : Nat) : Ability where
  group := text "default"
  model := text "gpt-4o"
  channelId := id
  enabled := true
  priority := some 0
  weight := weight

theorem single_ability_is_exact :
    (Exact (drawSmoothed · [(1, gizmo)]) (totalWeight [(1, gizmo)]) (effectiveWeight [(1, gizmo)]) [(1, gizmo)] ∧
        Exact (drawAbility · [weighing 1 5]) (weightSum [weighing 1 5]) Ability.effectiveWeight [weighing 1 5]) ↔
      [weighing 1 5].head? = [weighing 1 5].getLast? :=
  weighted_choice_is_exact_iff [(1, gizmo)] [weighing 1 5] (cons_ne_nil _ _) (cons_ne_nil _ _)

/-- Two abilities of weight 0 are not taken equally often. -/
theorem first_ability_is_favoured : ways (drawAbility · [weighing 1 0, weighing 2 0]) 20 (weighing 1 0) = 11 ∧
      ways (drawAbility · [weighing 1 0, weighing 2 0]) 20 (weighing 2 0) = 9 ∧
      ¬∀ l : List Ability, l ≠ [] → Exact (drawAbility · l) (weightSum l) Ability.effectiveWeight l := by
  refine ⟨by decide +kernel, by decide +kernel, fun h => ?_⟩
  have hways := (h [weighing 1 0, weighing 2 0] (cons_ne_nil _ _)).ways (weighing 1 0) mem_cons_self
  revert hways
  decide +kernel

end CubeRouter.Routing.Selection
