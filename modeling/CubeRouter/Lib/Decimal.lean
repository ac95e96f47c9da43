import Mathlib.Algebra.Order.Round
import Mathlib.Data.Rat.Floor
import Mathlib.Tactic.Linarith

/-!
# Rounding decimals to bounded integers

Decimals are rationals: sums and products are exact. `roundAway` rounds to the nearest integer, halves
away from zero, and `saturate` cuts the result to an interval.
-/

namespace Decimal

def roundAway (x : ℚ) : Int := if x < 0 then -⌊-x + 1 / 2⌋ else ⌊x + 1 / 2⌋

def divRound (x y : ℚ) (places : Nat) : ℚ := roundAway (x / y * 10 ^ places) / 10 ^ places

def saturate (lo hi n : Int) : Int := if hi < n then hi else if n < lo then lo else n

variable {x : ℚ}

theorem roundAway_nonneg (h : 0 ≤ x) : 0 ≤ roundAway x := by
  rw [roundAway, if_neg (not_lt.mpr h)]
  exact Int.floor_nonneg.mpr (by linarith)

theorem roundAway_eq_zero_iff (h : 0 ≤ x) : roundAway x = 0 ↔ x < 1 / 2 := by
  rw [roundAway, if_neg (not_lt.mpr h), Int.floor_eq_zero_iff, Set.mem_Ico]
  constructor
  · rintro ⟨-, hlt⟩
    linarith
  · intro hlt
    constructor <;> linarith

theorem roundAway_mono {y : ℚ} (h : x ≤ y) : roundAway x ≤ roundAway y := by
  unfold roundAway
  split_ifs with hx hy hy
  · exact neg_le_neg (Int.floor_mono (by linarith))
  · have hlow : 0 ≤ ⌊-x + 1 / 2⌋ := Int.floor_nonneg.mpr (by linarith)
    have hhigh : 0 ≤ ⌊y + 1 / 2⌋ := Int.floor_nonneg.mpr (by linarith)
    omega
  · linarith
  · exact Int.floor_mono (by linarith)

theorem roundAway_neg (x : ℚ) : roundAway (-x) = -roundAway x := by
  unfold roundAway
  rcases lt_trichotomy x 0 with hx | rfl | hx
  · rw [if_neg (by linarith), if_pos hx, neg_neg]
  · norm_num
  · rw [if_pos (by linarith), if_neg (by linarith), neg_neg]

theorem le_roundAway_iff {n : Int} (hn : 0 < n) : n ≤ roundAway x ↔ n - 1 / 2 ≤ x := by
  have hone : (1 : ℚ) ≤ n := by exact_mod_cast hn
  unfold roundAway
  split_ifs with hx
  · have hfloor : 0 ≤ ⌊-x + 1 / 2⌋ := Int.floor_nonneg.mpr (by linarith)
    constructor <;> intro h
    · omega
    · linarith
  · rw [Int.le_floor]
    constructor <;> intro h <;> linarith

theorem roundAway_nonpos (h : x < 1 / 2) : roundAway x ≤ 0 := by
  by_contra hpos
  have hhalf := (le_roundAway_iff one_pos).mp (not_le.mp hpos)
  push_cast at hhalf
  linarith

variable {lo hi n : Int}

theorem saturate_mono {m : Int} (h : lo ≤ hi) (hle : m ≤ n) : saturate lo hi m ≤ saturate lo hi n := by
  unfold saturate
  split_ifs <;> omega

theorem saturate_nonneg (hhi : 0 ≤ hi) (hn : 0 ≤ n) : 0 ≤ saturate lo hi n := by
  unfold saturate
  split_ifs <;> omega

theorem saturate_eq_zero_iff (hlo : lo ≤ 0) (hhi : 0 < hi) (hn : 0 ≤ n) : saturate lo hi n = 0 ↔ n = 0 := by
  unfold saturate
  split_ifs <;> omega

end Decimal
