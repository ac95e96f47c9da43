import Mathlib.Algebra.BigOperators.Group.Finset.Basic
import Mathlib.Algebra.Order.BigOperators.Group.Finset
import Mathlib.Tactic.Abel

/-!
# Tables with an auto-increment primary key

`Table ρ` is a database table of rows `ρ`: row ids are handed out in order by `insert`, a row is changed in place by
`modify` (`UPDATE … WHERE id = ?`) or `updateWhere`, and removed by `delete`. By `row_fresh` no id at or above the next
one is in use, so that the rows form a finite set and `sum` (a `SELECT SUM(f)`) is defined; by `row_zero` ids start at
`1`, so that `0` can stand for "no row". `sum_modify` and `sum_insert` say what the two writes do to every such sum.
-/

namespace Relational

open List Option

/-- A table of rows found by id; `0` and the ids from `next` on are unused. -/
structure Table (ρ : Type*) where
  next : Nat
  row : Nat → Option ρ
  next_pos : 0 < next
  row_zero : row 0 = none
  row_fresh : ∀ i, next ≤ i → row i = none

namespace Table

variable {ρ : Type*}

/-- The empty table; the first row will get id `1`. -/
def empty : Table ρ := ⟨1, fun _ => none, Nat.one_pos, rfl, fun _ _ => rfl⟩

/-- `SELECT * WHERE id = i`. -/
def get? (t : Table ρ) (i : Nat) : Option ρ := t.row i

/-- `UPDATE … WHERE id = i`: nothing happens when there is no such row. -/
def modify (t : Table ρ) (i : Nat) (g : ρ → ρ) : Table ρ where
  next := t.next
  row j := if j = i then (t.row j).map g else t.row j
  next_pos := t.next_pos
  row_zero := by simp [t.row_zero]
  row_fresh j hj := by simp [t.row_fresh j hj]

/-- `INSERT`: the new row gets id `t.next`. -/
def insert (t : Table ρ) (r : ρ) : Table ρ where
  next := t.next + 1
  row j := if j = t.next then some r else t.row j
  next_pos := Nat.succ_pos _
  row_zero := by rw [if_neg t.next_pos.ne, t.row_zero]
  row_fresh j hj := by
    rw [if_neg (by omega)]
    exact t.row_fresh j (by omega)

/-- `UPDATE … WHERE p`. -/
def updateWhere (t : Table ρ) (p : ρ → Bool) (g : ρ → ρ) : Table ρ where
  next := t.next
  row j := (t.row j).map fun r => if p r then g r else r
  next_pos := t.next_pos
  row_zero := by simp [t.row_zero]
  row_fresh j hj := by simp [t.row_fresh j hj]

/-- `UPDATE … WHERE id IN ids`. -/
def updateIds (t : Table ρ) (ids : List Nat) (g : ρ → ρ) : Table ρ where
  next := t.next
  row j := if j ∈ ids then (t.row j).map g else t.row j
  next_pos := t.next_pos
  row_zero := by simp [t.row_zero]
  row_fresh j hj := by simp [t.row_fresh j hj]

/-- `DELETE WHERE id = i`. -/
def delete (t : Table ρ) (i : Nat) : Table ρ where
  next := t.next
  row j := if j = i then none else t.row j
  next_pos := t.next_pos
  row_zero := by simp [t.row_zero]
  row_fresh j hj := by simp [t.row_fresh j hj]

/-- `DELETE WHERE p`. -/
def deleteWhere (t : Table ρ) (p : ρ → Bool) : Table ρ where
  next := t.next
  row j := (t.row j).filter fun r => !p r
  next_pos := t.next_pos
  row_zero := by simp [t.row_zero]
  row_fresh j hj := by simp [t.row_fresh j hj]

/-- Some row matches, seen with its id. -/
def any (t : Table ρ) (p : Nat → ρ → Bool) : Bool := (List.range t.next).any fun i => (t.row i).any (p i)

/-- `SELECT * WHERE p ORDER BY key DESC, id DESC LIMIT 1`. -/
def latest? (t : Table ρ) (p : ρ → Bool) (key : ρ → Int) : Option ρ :=
  (List.range t.next).foldl (fun best i =>
    match t.row i with
    | some r => if p r && best.all fun b => key b ≤ key r then some r else best
    | none => best) none

/-- `SELECT * WHERE p ORDER BY id LIMIT 1`, with the id of the row. -/
def find? (t : Table ρ) (p : ρ → Bool) : Option (Nat × ρ) :=
  (List.range t.next).findSome? fun i => (t.row i).bind fun r => if p r then some (i, r) else none

/-- `SELECT * WHERE p ORDER BY id`, with the ids. -/
def select (t : Table ρ) (p : ρ → Bool) : List (Nat × ρ) :=
  (List.range t.next).filterMap fun i => (t.row i).bind fun r => if p r then some (i, r) else none

/-- `SELECT SUM(f)`. -/
def sum {M : Type*} [AddCommMonoid M] (t : Table ρ) (f : ρ → M) : M :=
  ∑ i ∈ Finset.range t.next, (t.row i).elim 0 f

/-- `SELECT COUNT(*) WHERE p`. -/
def count (t : Table ρ) (p : ρ → Bool) : Nat := t.sum fun r => if p r then 1 else 0

/-! ## Reading after a write -/

@[simp] theorem next_modify (t : Table ρ) (i : Nat) (g : ρ → ρ) : (t.modify i g).next = t.next := rfl

@[simp] theorem next_insert (t : Table ρ) (r : ρ) : (t.insert r).next = t.next + 1 := rfl

theorem get?_modify (t : Table ρ) (i j : Nat) (g : ρ → ρ) :
    (t.modify i g).get? j = if j = i then (t.get? j).map g else t.get? j := rfl

@[simp] theorem get?_modify_self (t : Table ρ) (i : Nat) (g : ρ → ρ) : (t.modify i g).get? i = (t.get? i).map g := by
  rw [get?_modify, if_pos rfl]

variable {i : Nat} {t : Table ρ} {r : ρ} {p : ρ → Bool} {g : ρ → ρ} {j : Nat}

theorem get?_modify_of_ne (t : Table ρ) (g : ρ → ρ) (h : j ≠ i) : (t.modify i g).get? j = t.get? j := by
  rw [get?_modify, if_neg h]

theorem get?_insert (t : Table ρ) (r : ρ) (j : Nat) :
    (t.insert r).get? j = if j = t.next then some r else t.get? j := rfl

@[simp] theorem get?_insert_self (t : Table ρ) (r : ρ) : (t.insert r).get? t.next = some r := by
  rw [get?_insert, if_pos rfl]

theorem get?_updateWhere (t : Table ρ) (p : ρ → Bool) (g : ρ → ρ) (j : Nat) :
    (t.updateWhere p g).get? j = (t.get? j).map fun r => if p r then g r else r := rfl

theorem get?_updateIds (t : Table ρ) (ids : List Nat) (g : ρ → ρ) (j : Nat) :
    (t.updateIds ids g).get? j = if j ∈ ids then (t.get? j).map g else t.get? j := rfl

theorem get?_delete (t : Table ρ) (i j : Nat) : (t.delete i).get? j = if j = i then none else t.get? j := rfl

@[simp] theorem delete_modify_self (t : Table ρ) (i : Nat) (g : ρ → ρ) : (t.modify i g).delete i = t.delete i := by
  have hrow : (fun j => if j = i then none else if j = i then (t.row j).map g else t.row j) =
      fun j => if j = i then none else t.row j := by
    funext j
    split_ifs <;> rfl
  simp only [delete, modify, hrow]

theorem get?_foldl_delete (t : Table ρ) (ids : List Nat) (j : Nat) :
    (ids.foldl delete t).get? j = if j ∈ ids then none else t.get? j := by
  induction ids generalizing t with
  | nil => simp
  | cons id _ ih =>
    rw [foldl_cons, ih, get?_delete]
    by_cases hj : j = id
    · simp [hj]
    · simp [hj]

theorem get?_deleteWhere (t : Table ρ) (p : ρ → Bool) (j : Nat) :
    (t.deleteWhere p).get? j = (t.get? j).filter fun r => !p r := rfl

theorem lt_next_of_get? (h : t.get? i = some r) : i < t.next := by
  by_contra hge
  have hnone : t.get? i = none := t.row_fresh i (by omega)
  rw [hnone] at h
  cases h

theorem pos_of_get? (h : t.get? i = some r) : 0 < i := by
  rcases Nat.eq_zero_or_pos i with rfl | hpos
  · rw [get?, t.row_zero] at h
    cases h
  · exact hpos

theorem get?_insert_of_get? {r' : ρ} (h : t.get? i = some r) : (t.insert r').get? i = some r := by
  rw [get?_insert, if_neg (lt_next_of_get? h).ne, h]

/-! ## Searching -/

theorem find?_some (h : t.find? p = some (i, r)) : t.get? i = some r ∧ p r = true := by
  obtain ⟨j, -, hj⟩ := exists_of_findSome?_eq_some h
  obtain ⟨_, hr', hp⟩ := bind_eq_some_iff.mp hj
  split_ifs at hp with hpr
  cases hp
  exact ⟨hr', hpr⟩

theorem find?_eq_none_iff : t.find? p = none ↔ ∀ i r, t.get? i = some r → p r = false := by
  simp only [find?, findSome?_eq_none_iff, mem_range, bind_eq_none_iff]
  constructor
  · intro h i r hr
    have hp := h i (lt_next_of_get? hr) r hr
    by_contra hne
    rw [if_pos (by simpa using hne)] at hp
    cases hp
  · intro h i _ r hr
    rw [if_neg (by simp [h i r hr])]

theorem mem_select_iff : (i, r) ∈ t.select p ↔ t.get? i = some r ∧ p r = true := by
  rw [select, mem_filterMap]
  constructor
  · rintro ⟨j, -, hj⟩
    obtain ⟨row, hrow, hrest⟩ := bind_eq_some_iff.mp hj
    split_ifs at hrest with hp
    obtain ⟨rfl, rfl⟩ := Prod.mk.inj (Option.some.inj hrest)
    exact ⟨hrow, hp⟩
  · rintro ⟨hget, hp⟩
    refine ⟨i, mem_range.mpr (lt_next_of_get? hget), ?_⟩
    rw [show t.row i = some r from hget, bind_some, if_pos hp]

theorem select_ids_lt (t : Table ρ) (p : ρ → Bool) : (t.select p).Pairwise fun x y => x.1 < y.1 := by
  rw [select, pairwise_filterMap]
  refine pairwise_lt_range.imp fun hlt x hx y hy => ?_
  obtain ⟨r, -, hr⟩ := bind_eq_some_iff.mp hx
  obtain ⟨_, -, hr'⟩ := bind_eq_some_iff.mp hy
  split_ifs at hr hr'
  cases hr
  cases hr'
  exact hlt

theorem any_iff {p : Nat → ρ → Bool} : t.any p = true ↔ ∃ i r, t.get? i = some r ∧ p i r = true := by
  simp only [any, List.any_eq_true, List.mem_range, Option.any_eq_true]
  constructor
  · rintro ⟨i, -, r, hr, hp⟩
    exact ⟨i, r, hr, hp⟩
  · rintro ⟨i, r, hr, hp⟩
    exact ⟨i, lt_next_of_get? hr, r, hr, hp⟩

theorem any_eq_false_iff {p : Nat → ρ → Bool} : t.any p = false ↔ ∀ i r, t.get? i = some r → p i r = false := by
  rw [← Bool.not_eq_true, any_iff]
  push Not
  simp

theorem latest?_spec (t : Table ρ) (p : ρ → Bool) (key : ρ → Int) :
    (∀ r, t.latest? p key = some r → p r = true ∧ ∃ i, t.get? i = some r) ∧
      (t.latest? p key = none → ∀ i r, t.get? i = some r → p r = false) := by
  suffices h : ∀ (n : Nat) (best : Option ρ),
      best = (List.range n).foldl (fun best i =>
        match t.row i with
        | some r => if p r && best.all fun b => key b ≤ key r then some r else best
        | none => best) none →
      (∀ r, best = some r → p r = true ∧ ∃ i, t.get? i = some r) ∧
        (best = none → ∀ i r, i < n → t.get? i = some r → p r = false) by
    obtain ⟨hsome, hnone⟩ := h t.next (t.latest? p key) rfl
    exact ⟨hsome, fun hn i r hr => hnone hn i r (lt_next_of_get? hr) hr⟩
  intro n
  induction n with
  | zero =>
    rintro best rfl
    exact ⟨fun r h => (nomatch h), fun _ i r hi => absurd hi (Nat.not_lt_zero i)⟩
  | succ n ih =>
    intro best hbest
    rw [range_succ, foldl_append] at hbest
    obtain ⟨hsome, hnone⟩ := ih _ rfl
    simp only [foldl_cons, foldl_nil] at hbest
    split at hbest
    · rename_i r hr
      split_ifs at hbest with hp
      · subst hbest
        rw [Bool.and_eq_true] at hp
        refine ⟨fun r' h => ?_, fun h => nomatch h⟩
        cases h
        exact ⟨hp.1, n, hr⟩
      · subst hbest
        refine ⟨hsome, fun hn i r' hi hr' => ?_⟩
        rcases Nat.lt_succ_iff_lt_or_eq.mp hi with hlt | rfl
        · exact hnone hn i r' hlt hr'
        · rw [hn] at hp
          obtain rfl : r = r' := mem_unique hr hr'
          simpa using hp
    · rename_i hr
      subst hbest
      refine ⟨hsome, fun hn i r' hi hr' => ?_⟩
      rcases Nat.lt_succ_iff_lt_or_eq.mp hi with hlt | rfl
      · exact hnone hn i r' hlt hr'
      · exact nomatch hr.symm.trans hr'

theorem find?_insert_of_none (h : t.find? p = none) (hr : p r = true) : (t.insert r).find? p = some (t.next, r) := by
  have hold : ∀ i ∈ List.range t.next, ((t.insert r).row i).bind
      (fun r => if p r then some (i, r) else none) = none := by
    intro i hi
    have hne : i ≠ t.next := (mem_range.mp hi).ne
    simp only [insert, if_neg hne]
    exact findSome?_eq_none_iff.mp h i hi
  rw [find?, next_insert, range_succ, findSome?_append, findSome?_eq_none_iff.mpr hold]
  simp [insert, hr]

theorem find?_modify_map (t : Table ρ) (hp : ∀ r, p (g r) = p r) (j : Nat) :
    (t.modify j g).find? p = (t.find? p).map fun x => if x.1 = j then (x.1, g x.2) else x := by
  rw [find?, find?, map_findSome?, next_modify]
  congr 1
  funext k
  cases hrow : t.row k with
  | none => simp [modify, hrow]
  | some r =>
    by_cases hk : k = j
    · subst hk
      by_cases hpr : p r = true <;> simp [modify, hrow, hp, hpr]
    · by_cases hpr : p r = true <;> simp [modify, hrow, hk, hpr]

theorem find?_modify (hp : ∀ r, p (g r) = p r) (h : t.find? p = some (i, r)) :
    (t.modify i g).find? p = some (i, g r) := by
  rw [find?_modify_map t hp, h, map_some, if_pos rfl]

theorem find?_modify_of_ne (hp : ∀ r, p (g r) = p r) (h : t.find? p = some (i, r)) (hij : i ≠ j) :
    (t.modify j g).find? p = some (i, r) := by
  rw [find?_modify_map t hp, h, map_some, if_neg hij]

/-! ## Sums over all rows -/

section Sum

variable {M : Type*}

theorem sum_insert [AddCommMonoid M] (t : Table ρ) (r : ρ) (f : ρ → M) : (t.insert r).sum f = t.sum f + f r := by
  have hold : ∀ i ∈ Finset.range t.next, ((t.insert r).row i).elim 0 f = (t.row i).elim 0 f := by
    intro i hi
    have hne : i ≠ t.next := (Finset.mem_range.mp hi).ne
    simp only [insert, if_neg hne]
  rw [sum, next_insert, Finset.sum_range_succ, Finset.sum_congr rfl hold]
  simp [sum, insert]

variable {i : Nat} {t : Table ρ} {f : ρ → M}

theorem sum_modify [AddCommGroup M] (t : Table ρ) (g : ρ → ρ) (f : ρ → M) (h : t.get? i = some r) :
    (t.modify i g).sum f = t.sum f + (f (g r) - f r) := by
  have hi : i ∈ Finset.range t.next := Finset.mem_range.mpr (lt_next_of_get? h)
  have hrow : t.row i = some r := h
  have hold : ∀ j ∈ (Finset.range t.next).erase i,
      ((t.modify i g).row j).elim 0 f = (t.row j).elim 0 f := by
    intro j hj
    simp only [modify, if_neg (Finset.ne_of_mem_erase hj)]
  rw [sum, sum, next_modify, ← Finset.add_sum_erase _ _ hi, ← Finset.add_sum_erase _ _ hi, Finset.sum_congr rfl hold]
  simp only [modify, if_true, hrow, map_some, elim_some]
  abel

theorem sum_delete [AddCommMonoid M] (t : Table ρ) (f : ρ → M) (h : t.get? i = some r) :
    t.sum f = (t.delete i).sum f + f r := by
  have hi : i ∈ Finset.range t.next := Finset.mem_range.mpr (lt_next_of_get? h)
  have hrow : t.row i = some r := h
  have hold : ∀ j ∈ (Finset.range t.next).erase i, ((t.delete i).row j).elim 0 f = (t.row j).elim 0 f := by
    intro j hj
    simp only [delete, if_neg (Finset.ne_of_mem_erase hj)]
  have hdeleted : (t.delete i).sum f = ∑ j ∈ (Finset.range t.next).erase i, (t.row j).elim 0 f := by
    rw [sum, show (t.delete i).next = t.next from rfl, ← Finset.add_sum_erase _ _ hi, Finset.sum_congr rfl hold]
    simp [delete]
  rw [hdeleted, sum, ← Finset.sum_erase_add _ _ hi, hrow, elim_some]

theorem sum_modify_congr [AddCommMonoid M] (h : ∀ r, t.get? i = some r → f (g r) = f r) :
    (t.modify i g).sum f = t.sum f := by
  refine Finset.sum_congr rfl fun j _ => ?_
  by_cases hj : j = i
  · subst hj
    cases hr : t.row j with
    | none => simp [modify, hr]
    | some r => simp [modify, hr, h r hr]
  · simp only [modify, if_neg hj]

theorem sum_eq_zero [AddCommMonoid M] (h : ∀ i r, t.get? i = some r → f r = 0) : t.sum f = 0 := by
  refine Finset.sum_eq_zero fun i _ => ?_
  cases hr : t.row i with
  | none => rfl
  | some r => exact h i r hr

variable [AddCommGroup M] [PartialOrder M] [IsOrderedAddMonoid M]

theorem sum_nonneg (h : ∀ i r, t.get? i = some r → 0 ≤ f r) : 0 ≤ t.sum f := by
  refine Finset.sum_nonneg fun i _ => ?_
  cases hr : t.row i with
  | none => exact le_rfl
  | some r => exact h i r hr

end Sum

theorem count_insert (t : Table ρ) (r : ρ) (p : ρ → Bool) : (t.insert r).count p = t.count p + if p r then 1 else 0 :=
  sum_insert t r _

theorem count_delete (t : Table ρ) (p : ρ → Bool) (h : t.get? i = some r) :
    t.count p = (t.delete i).count p + if p r then 1 else 0 :=
  sum_delete t _ h

theorem count_delete_le (t : Table ρ) (i : Nat) (p : ρ → Bool) : (t.delete i).count p ≤ t.count p := by
  show ∑ j ∈ Finset.range t.next, ((t.delete i).row j).elim 0 _ ≤ ∑ j ∈ Finset.range t.next, (t.row j).elim 0 _
  refine Finset.sum_le_sum fun j _ => ?_
  by_cases hj : j = i
  · simp [delete, if_pos hj]
  · simp only [delete, if_neg hj, le_refl]

theorem count_eq_zero_iff : t.count p = 0 ↔ ∀ i r, t.get? i = some r → p r = false := by
  constructor
  · intro h i r hget
    have hdelete := count_delete t p hget
    by_contra hp
    rw [if_pos (by simpa using hp)] at hdelete
    omega
  · intro h
    refine sum_eq_zero fun i r hget => ?_
    rw [h i r hget]
    rfl

theorem count_modify_le (h : ∀ r, t.get? i = some r → p (g r) = true → p r = true) :
    (t.modify i g).count p ≤ t.count p := by
  show ∑ j ∈ Finset.range t.next, ((t.modify i g).row j).elim 0 _ ≤ ∑ j ∈ Finset.range t.next, (t.row j).elim 0 _
  refine Finset.sum_le_sum fun j _ => ?_
  by_cases hj : j = i
  · subst hj
    cases hr : t.row j with
    | none => simp [modify, hr]
    | some r =>
      simp only [modify, if_true, hr, map_some, elim_some]
      split_ifs with hg hp
      · exact le_rfl
      · exact absurd (h r hr hg) hp
      · exact Nat.zero_le 1
      · exact le_rfl
  · simp only [modify, if_neg hj, le_refl]

/-! ## Rows that evolve -/

/-- Every row is still there, and `R` relates what it was to what it is. -/
structure Evolves (R : ρ → ρ → Prop) (t t' : Table ρ) : Prop where
  row : ∀ i r, t.get? i = some r → ∃ r', t'.get? i = some r' ∧ R r r'

namespace Evolves

variable {R : ρ → ρ → Prop} {t t' t'' : Table ρ}

theorem refl (hR : ∀ r, R r r) (t : Table ρ) : Evolves R t t := ⟨fun _ r hr => ⟨r, hr, hR r⟩⟩

theorem trans (hR : ∀ a b c, R a b → R b c → R a c) (h : Evolves R t t') (h' : Evolves R t' t'') : Evolves R t t'' := by
  refine ⟨fun i r hr => ?_⟩
  obtain ⟨r', hr', hR'⟩ := h.row i r hr
  obtain ⟨r'', hr'', hR''⟩ := h'.row i r' hr'
  exact ⟨r'', hr'', hR r r' r'' hR' hR''⟩

theorem updateWhere (hR : ∀ r, R r r)
    (h : ∀ i r, t.get? i = some r → p r = true → R r (g r)) : Evolves R t (t.updateWhere p g) := by
  refine ⟨fun i r hr => ⟨if p r then g r else r, by rw [get?_updateWhere, hr, map_some], ?_⟩⟩
  split_ifs with hp
  · exact h i r hr hp
  · exact hR r

theorem modify (hR : ∀ r, R r r) {j : Nat} (h : ∀ r, t.get? j = some r → R r (g r)) : Evolves R t (t.modify j g) := by
  refine ⟨fun i r hr => ?_⟩
  by_cases hi : i = j
  · subst hi
    exact ⟨g r, by rw [get?_modify_self, hr, map_some], h r hr⟩
  · exact ⟨r, by rw [get?_modify_of_ne _ _ hi, hr], hR r⟩

theorem insert (hR : ∀ r, R r r) (t : Table ρ) (r : ρ) : Evolves R t (t.insert r) :=
  ⟨fun _ s hs => ⟨s, get?_insert_of_get? hs, hR s⟩⟩

theorem foldl {α : Type*} (hR : ∀ r, R r r) (hR' : ∀ a b c, R a b → R b c → R a c) {f : Table ρ → α → Table ρ}
    (h : ∀ t a, Evolves R t (f t a)) (l : List α) (t : Table ρ) : Evolves R t (l.foldl f t) := by
  induction l generalizing t with
  | nil => exact refl hR t
  | cons a l ih => exact trans hR' (h t a) (ih (f t a))

end Evolves

end Table

end Relational
