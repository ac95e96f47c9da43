import Mathlib.Data.List.GetD
import Mathlib.Data.List.Nodup
import Mathlib.Data.List.Rotate

/-!
# Taking turns

Some of the positions below `n` are enabled, and a cursor goes round over all of them. A turn is the first enabled
position from the cursor on, and it leaves the cursor behind that position. From any cursor the turns are the enabled
positions in cyclic order (`turns_eq`).
-/

namespace RoundRobin

open List Nat

variable (enabled : Nat → Bool) (n : Nat)

/-- The enabled positions in their order. -/
def members : List Nat := (List.range n).filter enabled

def next (cursor : Nat) : Option Nat := ((List.range n).map fun i => (cursor + i) % n).find? enabled

/-- The number of the enabled positions that the cursor has passed. -/
def place (cursor : Nat) : Nat := ((List.range cursor).filter enabled).length

def turns : Nat → Nat → List Nat
  | 0, _ => []
  | m + 1, cursor =>
    match next enabled n cursor with
    | none => []
    | some i => i :: turns m ((i + 1) % n)

variable {enabled n} {i cursor : Nat}

theorem mem_members : i ∈ members enabled n ↔ i < n ∧ enabled i = true := by
  rw [members, mem_filter, mem_range]

theorem nodup_members : (members enabled n).Nodup := nodup_range.filter _

theorem rotate_range : (List.range n).map (fun i => (cursor + i) % n) = (List.range n).rotate cursor := by
  refine ext_getElem (by simp) fun i h h' => ?_
  simp [Nat.add_comm]

theorem filter_rotate (h : cursor ≤ n) :
    ((List.range n).rotate cursor).filter enabled = (members enabled n).rotate (place enabled cursor) := by
  have hsplit : (List.range n) = List.range cursor ++ (List.range n).drop cursor := by
    conv_lhs => rw [← take_append_drop cursor (List.range n)]
    rw [take_range, min_eq_left h]
  have hmembers : members enabled n =
      (List.range cursor).filter enabled ++ ((List.range n).drop cursor).filter enabled := by
    rw [members, ← filter_append, ← hsplit]
  rw [hmembers, place, rotate_append_length_eq, rotate_eq_drop_append_take (by simpa using h),
    filter_append, take_range, min_eq_left h]

theorem next_eq (h : cursor ≤ n) :
    next enabled n cursor = (members enabled n)[place enabled cursor % (members enabled n).length]? := by
  rw [next, rotate_range, ← head?_filter, filter_rotate h]
  rcases eq_nil_or_concat (members enabled n) with hnil | ⟨l, a, hl⟩
  · rw [hnil, rotate_nil]
    rfl
  · have hpos : 0 < (members enabled n).length := by
      rw [hl, length_concat]
      exact Nat.succ_pos _
    rw [head?_eq_getElem?, getElem?_rotate hpos, Nat.zero_add]

theorem place_member {j : Nat} (h : (members enabled n)[j]? = some i) : place enabled i = j := by
  obtain ⟨hi, henabled⟩ := mem_members.mp (mem_of_getElem? h)
  have hplace : (members enabled n)[place enabled i]? = some i := by
    have hsplit : List.range n = List.range i ++ (List.range (n - i)).map (i + ·) := by
      rw [← range_add, Nat.add_sub_cancel' hi.le]
    obtain ⟨m, hm⟩ : ∃ m, n - i = m + 1 := ⟨n - i - 1, by omega⟩
    rw [members, hsplit, hm, range_succ_eq_map, filter_append, place, getElem?_append_right le_rfl,
      Nat.sub_self, map_cons, Nat.add_zero, filter_cons_of_pos henabled, getElem?_cons_zero]
  exact (List.getElem?_inj (List.getElem?_eq_some_iff.mp hplace).1 nodup_members).mp (hplace.trans h.symm)

theorem place_next (hcursor : cursor ≤ n) (h : next enabled n cursor = some i) :
    place enabled ((i + 1) % n) % (members enabled n).length = (place enabled cursor + 1) %
      (members enabled n).length := by
  rw [next_eq hcursor] at h
  obtain ⟨hi, henabled⟩ := mem_members.mp (mem_of_getElem? h)
  have hplace := place_member h
  have hsucc : place enabled (i + 1) = place enabled cursor % (members enabled n).length + 1 := by
    rw [← hplace, place, range_succ, filter_append, length_append, filter_singleton, henabled]
    rfl
  by_cases hlast : i + 1 = n
  · -- the last position is the last member, and the cursor starts again
    have hall : (members enabled n).length = place enabled (i + 1) := by rw [hlast]; rfl
    have hzero : place enabled 0 = 0 := rfl
    rw [hlast, mod_self, hzero, zero_mod, ← mod_add_mod, ← hsucc, hall, mod_self]
  · have hlt : i + 1 < n := lt_of_le_of_ne hi hlast
    rw [mod_eq_of_lt hlt, hsucc, mod_add_mod]

theorem exists_next (hsome : members enabled n ≠ []) (h : cursor ≤ n) :
    ∃ i ∈ members enabled n, next enabled n cursor = some i := by
  have hlt := mod_lt (place enabled cursor) (length_pos_iff.mpr hsome)
  exact ⟨_, getElem_mem hlt, (next_eq h).trans (getElem?_eq_getElem hlt)⟩

theorem drop_turns (hsome : members enabled n ≠ []) (m k : Nat) (h : cursor ≤ n) :
    ∃ cursor' ≤ n, (turns enabled n (m + k) cursor).drop m = turns enabled n k cursor' := by
  induction m generalizing cursor with
  | zero => exact ⟨cursor, h, by rw [Nat.zero_add, drop_zero]⟩
  | succ m ih =>
    obtain ⟨i, hi, hnext⟩ := exists_next hsome h
    have hlt := (mem_members.mp hi).1
    have hle : (i + 1) % n ≤ n := (mod_lt _ (by omega)).le
    obtain ⟨cursor', hcursor', hdrop⟩ := ih hle
    refine ⟨cursor', hcursor', ?_⟩
    rw [Nat.add_right_comm, turns, hnext]
    exact hdrop

theorem turns_eq (hsome : members enabled n ≠ []) (m : Nat) (h : cursor ≤ n) :
    turns enabled n m cursor = (List.range m).map fun j =>
      (members enabled n).getD ((place enabled cursor + j) % (members enabled n).length) 0 := by
  have hpos : 0 < (members enabled n).length := length_pos_iff.mpr hsome
  induction m generalizing cursor with
  | zero => rfl
  | succ m ih =>
    have hlt := mod_lt (place enabled cursor) hpos
    have hnext : next enabled n cursor = _ := next_eq h
    rw [getElem?_eq_getElem hlt] at hnext
    have hplace := place_next h hnext
    have hi := (mem_members.mp (getElem_mem hlt)).1
    rw [turns, hnext]
    dsimp only
    rw [ih (mod_lt _ (by omega)).le, range_succ_eq_map, map_cons, map_map]
    congr 1
    · rw [Nat.add_zero, getD_eq_getElem _ _ hlt]
    · refine map_congr_left fun j _ => ?_
      dsimp only [Function.comp]
      rw [← Nat.mod_add_mod, hplace, Nat.mod_add_mod, Nat.add_right_comm, Nat.add_assoc]

theorem turns_length (hsome : members enabled n ≠ []) (h : cursor ≤ n) :
    turns enabled n (members enabled n).length cursor = (members enabled n).rotate (place enabled cursor) := by
  have hpos : 0 < (members enabled n).length := length_pos_iff.mpr hsome
  rw [turns_eq hsome _ h]
  refine ext_getElem (by simp) fun j hj hj' => ?_
  rw [getElem_map, getElem_range, getElem_rotate, getD_eq_getElem _ _ (Nat.mod_lt _ hpos)]
  simp [Nat.add_comm]

end RoundRobin
