import Mathlib.Algebra.Ring.Int.Defs
import Mathlib.Algebra.Ring.Nat
import Mathlib.Data.List.Sort

/-!
# Tiers and weighted draws

Candidates are ranked by a value, and an attempt takes the candidates with one value: the highest for the first
attempt, the next for the second, and the lowest for all attempts past the last value. Two lists with the same values
give every attempt the same value (`tierAt_congr`). Among the candidates of a tier one is drawn by its weight: of the
random numbers below the sum of the weights each candidate is drawn by as many as it weighs (`ways_below`). A draw
that stops at zero already takes one number from the last candidate and gives it to the first (`ways_to_zero`).
-/

namespace Tiers

open List Nat

/-! ## The value of an attempt -/

section Values

variable {α : Type*} [LinearOrder α]

def sortDesc (l : List α) : List α := l.mergeSort fun a b => decide (a ≥ b)

/-- The value of the attempt, or nothing when the index is out of range. -/
def tierAt (values : List α) (attempt : Int) : Option α :=
  let sorted := sortDesc values
  let attempt := if attempt ≥ sorted.length then (sorted.length : Int) - 1 else attempt
  if attempt < 0 then none else sorted[attempt.toNat]?

def distinct (l : List α) : List α := l.foldl (fun seen a => if a ∈ seen then seen else seen ++ [a]) []

variable {l : List α} {a : α}

theorem mem_sortDesc : a ∈ sortDesc l ↔ a ∈ l := mem_mergeSort

theorem sortDesc_pairwise : (sortDesc l).Pairwise (· ≥ ·) := pairwise_mergeSort' (· ≥ ·) l

variable {l' : List α} {attempt : Int}

theorem sortDesc_congr (hl : l.Nodup) (hl' : l'.Nodup) (h : ∀ a, a ∈ l ↔ a ∈ l') : sortDesc l = sortDesc l' := by
  refine Perm.eq_of_pairwise (fun a b _ _ hab hba => le_antisymm hba hab) sortDesc_pairwise sortDesc_pairwise ?_
  have hperm : l.Perm l' := (perm_ext_iff_of_nodup hl hl').mpr h
  exact (mergeSort_perm l _).trans (hperm.trans (mergeSort_perm l' _).symm)

theorem tierAt_congr (hl : l.Nodup) (hl' : l'.Nodup) (h : ∀ a, a ∈ l ↔ a ∈ l') (attempt : Int) :
    tierAt l attempt = tierAt l' attempt := by
  unfold tierAt
  rw [sortDesc_congr hl hl' h]

theorem mem_of_tierAt (h : tierAt l attempt = some a) : a ∈ l := by
  unfold tierAt at h
  dsimp only at h
  split at h
  · split at h
    · cases h
    · exact mem_sortDesc.mp (mem_of_getElem? h)
  · split at h
    · cases h
    · exact mem_sortDesc.mp (mem_of_getElem? h)

theorem exists_tierAt (hl : l ≠ []) (h : 0 ≤ attempt) : ∃ a, tierAt l attempt = some a := by
  have hlength : 0 < (sortDesc l).length := by
    rw [sortDesc, length_mergeSort]
    exact length_pos_iff.mpr hl
  have hinside : (if attempt ≥ (sortDesc l).length then ((sortDesc l).length : Int) - 1 else attempt).toNat <
      (sortDesc l).length := by
    split_ifs <;> omega
  unfold tierAt
  dsimp only
  rw [if_neg (by split_ifs <;> omega), getElem?_eq_getElem hinside]
  exact ⟨_, rfl⟩

theorem distinct_spec (seen : List α) (h : seen.Nodup) :
    (l.foldl (fun seen a => if a ∈ seen then seen else seen ++ [a]) seen).Nodup ∧
      ∀ a, a ∈ l.foldl (fun seen a => if a ∈ seen then seen else seen ++ [a]) seen ↔ a ∈ seen ∨ a ∈ l := by
  induction l generalizing seen with
  | nil => simpa using h
  | cons b l ih =>
    rw [foldl_cons]
    split_ifs with hb
    · obtain ⟨hnodup, hmem⟩ := ih seen h
      refine ⟨hnodup, fun a => ?_⟩
      rw [hmem, mem_cons]
      constructor
      · rintro (ha | ha)
        · exact .inl ha
        · exact .inr (.inr ha)
      · rintro (ha | rfl | ha)
        · exact .inl ha
        · exact .inl hb
        · exact .inr ha
    · have hnew : (seen ++ [b]).Nodup := by
        rw [nodup_append]
        refine ⟨h, nodup_singleton b, ?_⟩
        intro a ha c hc heq
        rw [mem_singleton.mp hc] at heq
        exact hb (heq ▸ ha)
      obtain ⟨hnodup, hmem⟩ := ih (seen ++ [b]) hnew
      refine ⟨hnodup, fun a => ?_⟩
      rw [hmem, mem_append, mem_singleton, mem_cons, or_assoc]

theorem nodup_distinct (l : List α) : (distinct l).Nodup := (distinct_spec [] nodup_nil).1

theorem mem_distinct : a ∈ distinct l ↔ a ∈ l := by
  rw [distinct, (distinct_spec [] nodup_nil).2]
  simp

end Values

/-! ## The draw -/

section Draw

variable {β : Type*} {stop : Int → Bool} {weight : β → Int}

/-- The weights are subtracted one by one until `stop`. -/
def draw (stop : Int → Bool) (weight : β → Int) : Int → List β → Option β
  | _, [] => none
  | r, b :: l => if stop (r - weight b) then some b else draw stop weight (r - weight b) l

variable {r : Int} {l : List β}

theorem mem_of_draw {b : β} (h : draw stop weight r l = some b) : b ∈ l := by
  induction l generalizing r with
  | nil => cases h
  | cons c l ih =>
    rw [draw] at h
    split_ifs at h
    · cases h
      exact mem_cons_self
    · exact mem_cons_of_mem c (ih h)

theorem exists_draw (hstop : ∀ n, n < 0 → stop n = true) (hr : 0 ≤ r)
    (h : r < (l.map weight).sum) : ∃ b, draw stop weight r l = some b := by
  induction l generalizing r with
  | nil =>
    rw [map_nil, sum_nil] at h
    omega
  | cons c l ih =>
    rw [map_cons, sum_cons] at h
    rw [draw]
    split_ifs with hc
    · exact ⟨c, rfl⟩
    · have hnonneg : 0 ≤ r - weight c := by
        by_contra hneg
        exact hc (hstop _ (by omega))
      exact ih hnonneg (by omega)

end Draw

/-! ## The numbers that draw a candidate -/

section Ways

variable {β : Type*} [DecidableEq β] {weight : β → Nat}

/-- How many of the first `n` numbers choose `b`. -/
def ways (choose : Nat → Option β) (n : Nat) (b : β) : Nat := (List.range n).countP fun r => choose r = some b

/-- Of the numbers below `total` each candidate is chosen by as many as it weighs, and every number chooses one. -/
structure Exact (choose : Nat → Option β) (total : Nat) (weight : β → Nat) (l : List β) : Prop where
  finds : ∀ random, ∃ b ∈ l, choose random = some b
  ways : ∀ b ∈ l, ways choose total b = l.countP (· = b) * weight b
  selectable : ∀ b ∈ l, (∃ random, choose random = some b) ↔ 0 < weight b

variable {n : Nat} {l : List β} {choose : Nat → Option β} {b : β} {r : Nat}

theorem ways_congr {choose' : Nat → Option β} (h : ∀ r < n, choose r = choose' r) (b : β) :
    ways choose n b = ways choose' n b := by
  refine countP_congr fun r hr => ?_
  rw [h r (mem_range.mp hr)]

theorem ways_add (choose : Nat → Option β) (m n : Nat) (b : β) :
    ways choose (m + n) b = ways choose m b + ways (fun r => choose (m + r)) n b := by
  unfold ways
  rw [range_add, countP_append, countP_map]
  rfl

theorem ways_const {c : β} : ways (fun _ => some c) n b = if c = b then n else 0 := by
  unfold ways
  split_ifs with h
  · rw [countP_eq_length.mpr fun _ _ => decide_eq_true (congrArg some h), length_range]
  · exact countP_eq_zero.mpr fun _ _ hsome => h (Option.some.inj (of_decide_eq_true hsome))

theorem countP_eq_pos (h : b ∈ l) : 0 < l.countP (· = b) :=
  countP_pos_iff.mpr ⟨b, h, decide_eq_true rfl⟩

theorem exists_choose_iff (hn : 0 < n) (hmod : ∀ r, choose r = choose (r % n)) (b : β) :
    (∃ r, choose r = some b) ↔ 0 < ways choose n b := by
  unfold ways
  rw [countP_pos_iff]
  constructor
  · rintro ⟨r, hr⟩
    exact ⟨r % n, mem_range.mpr (mod_lt r hn), decide_eq_true (hmod r ▸ hr)⟩
  · rintro ⟨r, -, hr⟩
    exact ⟨r, of_decide_eq_true hr⟩

abbrev drawBelow (weight : β → Nat) (r : Int) (l : List β) : Option β :=
  draw (fun r => decide (r < 0)) (fun b => (weight b : Int)) r l

abbrev drawToZero (weight : β → Nat) (r : Int) (l : List β) : Option β :=
  draw (fun r => decide (r ≤ 0)) (fun b => (weight b : Int)) r l

omit [DecidableEq β] in
theorem drawBelow_of_lt (h : r < weight b) (l : List β) : drawBelow weight r (b :: l) = some b := by
  rw [drawBelow, draw, if_pos (decide_eq_true (by omega))]

omit [DecidableEq β] in
theorem drawBelow_add : drawBelow weight (weight b + r : Nat) (b :: l) = drawBelow weight r l := by
  have hrest : ((weight b + r : Nat) : Int) - weight b = r := by omega
  rw [drawBelow, draw, hrest, if_neg fun hneg => absurd (of_decide_eq_true hneg) (by omega)]

theorem ways_below (weight : β → Nat) (l : List β) (b : β) :
    ways (fun r => drawBelow weight r l) (l.map weight).sum b = l.countP (· = b) * weight b := by
  induction l with
  | nil => rw [countP_nil, zero_mul]; rfl
  | cons c l ih =>
    have hfirst : ways (fun r : Nat => drawBelow weight r (c :: l)) (weight c) b = if c = b then weight c else 0 :=
      (ways_congr (fun r hr => drawBelow_of_lt hr l) b).trans ways_const
    have hrest : (fun r : Nat => drawBelow weight (weight c + r : Nat) (c :: l)) =
        fun r : Nat => drawBelow weight r l :=
      funext fun r => drawBelow_add
    rw [map_cons, sum_cons, ways_add, hfirst, hrest, ih, countP_cons]
    by_cases h : c = b
    · rw [h, if_pos rfl, if_pos (decide_eq_true rfl), add_mul, one_mul, add_comm]
    · rw [if_neg h, decide_eq_false h, if_neg Bool.false_ne_true, zero_add, add_zero]

omit [DecidableEq β] in
theorem drawToZero_succ (weight : β → Nat) (r : Int) (l : List β) :
    drawToZero weight (r + 1) l = drawBelow weight r l := by
  induction l generalizing r with
  | nil => rfl
  | cons b l ih =>
    have hstop : r + 1 - weight b ≤ 0 ↔ r - weight b < 0 := by omega
    have hrest : drawToZero weight (r + 1 - weight b) l = drawBelow weight (r - weight b) l := by
      rw [← ih, sub_add_eq_add_sub]
    rw [drawToZero, draw, drawBelow, draw]
    simp only [hstop]
    exact congrArg (ite _ (some b)) hrest

omit [DecidableEq β] in
theorem drawToZero_zero (weight : β → Nat) (l : List β) : drawToZero weight 0 l = l.head? := by
  cases l with
  | nil => rfl
  | cons => rw [drawToZero, draw, if_pos (decide_eq_true (by omega)), head?_cons]

omit [DecidableEq β] in
theorem drawBelow_last (hpos : ∀ b, 0 < weight b) (hn : n + 1 = (l.map weight).sum) :
    drawBelow weight n l = l.getLast? := by
  induction l generalizing n with
  | nil => rw [map_nil, sum_nil] at hn; omega
  | cons b l ih =>
    rw [map_cons, sum_cons] at hn
    cases l with
    | nil =>
      rw [map_nil, sum_nil] at hn
      exact drawBelow_of_lt (by omega) []
    | cons c l =>
      have hc := hpos c
      have hsum : weight c ≤ ((c :: l).map weight).sum := by
        exact le_add_right _ _
      obtain ⟨m, rfl⟩ : ∃ m, n = weight b + m := ⟨n - weight b, by omega⟩
      rw [drawBelow_add, ih (by omega), getLast?_cons_cons]

theorem ways_to_zero (hpos : ∀ b, 0 < weight b) (hl : l ≠ []) (b : β) :
    ways (fun r => drawToZero weight r l) (l.map weight).sum b + (if l.getLast? = some b then 1 else 0) =
      l.countP (· = b) * weight b + (if l.head? = some b then 1 else 0) := by
  obtain ⟨n, hn⟩ : ∃ n, n + 1 = (l.map weight).sum := by
    obtain ⟨c, l, rfl⟩ := exists_cons_of_ne_nil hl
    have hc := hpos c
    rw [map_cons, sum_cons]
    exact ⟨weight c + (l.map weight).sum - 1, by omega⟩
  have hshift : (fun r : Nat => drawToZero weight (1 + r : Nat) l) = fun r : Nat => drawBelow weight r l := by
    funext r
    rw [add_comm, cast_succ, drawToZero_succ]
  have hzero : ways (fun r : Nat => drawToZero weight r l) 1 b = if l.head? = some b then 1 else 0 := by
    rw [← drawToZero_zero weight]
    unfold ways
    simp
  have hlast : ways (fun r : Nat => drawBelow weight (n + r : Nat) l) 1 b = if l.getLast? = some b then 1 else 0 := by
    rw [← drawBelow_last hpos hn]
    unfold ways
    simp
  have hbelow := ways_below weight l b
  rw [← hn, ways_add, hlast] at hbelow
  rw [← hn, add_comm n 1, ways_add, hzero, hshift]
  omega

end Ways

end Tiers
