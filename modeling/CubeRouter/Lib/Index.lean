import CubeRouter.Lib.Table

/-!
# Tables with a unique index

`Index key` is a table whose rows differ in `key`, as the unique index of a database makes it: a second row with the
key of another cannot be inserted. So a row is found by its key, and what a write does is said by what is found
afterwards at each key (`find?_modify`, `find?_updateWhere`, `find?_insert`).
-/

namespace Relational

open Option

structure Index {ρ κ : Type*} (key : ρ → κ) where
  table : Table ρ
  unique : ∀ i j r r', table.get? i = some r → table.get? j = some r' → key r = key r' → i = j

namespace Index

variable {ρ κ : Type*} {key : ρ → κ}

def empty : Index key := ⟨.empty, fun _ _ _ _ h => by cases h⟩

/-- `UPDATE … WHERE p`, of columns outside the index. -/
def updateWhere (x : Index key) (p : ρ → Bool) (g : ρ → ρ) (hg : ∀ r, key (g r) = key r) : Index key where
  table := x.table.updateWhere p g
  unique i j r r' hi hj hkey := by
    obtain ⟨s, hs, rfl⟩ := Option.map_eq_some_iff.mp hi
    obtain ⟨s', hs', rfl⟩ := Option.map_eq_some_iff.mp hj
    have hsame : ∀ t, key (if p t then g t else t) = key t := by
      intro t
      split_ifs
      · exact hg t
      · rfl
    rw [hsame, hsame] at hkey
    exact x.unique i j s s' hs hs' hkey

/-- `DELETE WHERE id = i`. -/
def delete (x : Index key) (i : Nat) : Index key where
  table := x.table.delete i
  unique j l r r' hj hl hkey := by
    rw [Table.get?_delete] at hj hl
    split_ifs at hj hl
    exact x.unique j l r r' hj hl hkey

/-- `DELETE WHERE p`. -/
def deleteWhere (x : Index key) (p : ρ → Bool) : Index key where
  table := x.table.deleteWhere p
  unique j l r r' hj hl hkey := by
    rw [Table.get?_deleteWhere, Option.filter_eq_some_iff] at hj hl
    exact x.unique j l r r' hj.1 hl.1 hkey

variable [DecidableEq κ]

def find? (x : Index key) (k : κ) : Option ρ := (x.table.find? fun r => key r = k).map Prod.snd

/-- `UPDATE … WHERE key = k`. -/
def modify (x : Index key) (k : κ) (g : ρ → ρ) (hg : ∀ r, key (g r) = key r) : Index key :=
  x.updateWhere (fun r => key r = k) g hg

variable {x : Index key} {k : κ} {r : ρ}

theorem find?_eq_some_iff : x.find? k = some r ↔ ∃ i, x.table.get? i = some r ∧ key r = k := by
  rw [find?, map_eq_some_iff]
  constructor
  · rintro ⟨⟨i, s⟩, hfound, rfl⟩
    obtain ⟨hget, hkey⟩ := Table.find?_some hfound
    exact ⟨i, hget, by simpa using hkey⟩
  · rintro ⟨i, hget, hkey⟩
    cases hfound : x.table.find? fun r => key r = k with
    | none =>
      have hnone := Table.find?_eq_none_iff.mp hfound i r hget
      simp [hkey] at hnone
    | some found =>
      obtain ⟨j, s⟩ := found
      obtain ⟨hget', hkey'⟩ := Table.find?_some hfound
      have hkey' : key s = k := by simpa using hkey'
      have hsame : key r = key s := hkey.trans hkey'.symm
      obtain rfl : i = j := x.unique i j r s hget hget' hsame
      obtain rfl : r = s := mem_unique hget hget'
      exact ⟨(i, r), rfl, rfl⟩

theorem find?_eq_none_iff : x.find? k = none ↔ ∀ i r, x.table.get? i = some r → key r ≠ k := by
  constructor
  · intro hnone i r hget hkey
    rw [find?_eq_some_iff.mpr ⟨i, hget, hkey⟩] at hnone
    cases hnone
  · intro h
    cases hfound : x.find? k with
    | none => rfl
    | some r =>
      obtain ⟨i, hget, hkey⟩ := find?_eq_some_iff.mp hfound
      exact absurd hkey (h i r hget)

theorem key_of_find? (h : x.find? k = some r) : key r = k := by
  obtain ⟨-, -, hkey⟩ := find?_eq_some_iff.mp h
  exact hkey

/-- `INSERT`; `none` is a violation of the index. -/
def insert (x : Index key) (r : ρ) : Option (Index key) :=
  if h : x.find? (key r) = none then
    some {
      table := x.table.insert r
      unique := fun i j s s' hi hj hkey => by
        have hfresh := find?_eq_none_iff.mp h
        rw [Table.get?_insert] at hi hj
        split_ifs at hi hj with hnext hnext' hnext'
        · rw [hnext, hnext']
        · cases hi
          exact absurd hkey.symm (hfresh j s' hj)
        · cases hj
          exact absurd hkey (hfresh i s hi)
        · exact x.unique i j s s' hi hj hkey }
  else none

theorem find?_updateWhere (x : Index key) (p : ρ → Bool) (g : ρ → ρ) (hg : ∀ r, key (g r) = key r) (k : κ) :
    (x.updateWhere p g hg).find? k = (x.find? k).map fun r => if p r then g r else r := by
  have hsame : ∀ t, key (if p t then g t else t) = key t := by
    intro t
    split_ifs
    · exact hg t
    · rfl
  cases hfound : x.find? k with
  | none =>
    refine find?_eq_none_iff.mpr fun i r hget hkey => ?_
    obtain ⟨s, hs, rfl⟩ := map_eq_some_iff.mp hget
    rw [hsame] at hkey
    exact find?_eq_none_iff.mp hfound i s hs hkey
  | some =>
    obtain ⟨i, hget, hkey⟩ := find?_eq_some_iff.mp hfound
    refine find?_eq_some_iff.mpr ⟨i, ?_, by rw [hsame, hkey]⟩
    show (x.table.updateWhere p g).get? i = _
    rw [Table.get?_updateWhere, hget]
    rfl

theorem find?_modify (x : Index key) (k k' : κ) (g : ρ → ρ) (hg : ∀ r, key (g r) = key r) :
    (x.modify k g hg).find? k' = if k' = k then (x.find? k').map g else x.find? k' := by
  rw [modify, find?_updateWhere]
  cases hfound : x.find? k' with
  | none => simp
  | some =>
    have hkey := key_of_find? hfound
    split_ifs with hk
    · simp [hkey, hk]
    · simp [hkey, hk]

theorem find?_modify_self (x : Index key) (k : κ) (g : ρ → ρ) (hg : ∀ r, key (g r) = key r) :
    (x.modify k g hg).find? k = (x.find? k).map g := by
  rw [find?_modify, if_pos rfl]

theorem find?_modify_of_ne (x : Index key) {k' : κ} (g : ρ → ρ) (hg : ∀ r, key (g r) = key r) (h : k' ≠ k) :
    (x.modify k g hg).find? k' = x.find? k' := by
  rw [find?_modify, if_neg h]

theorem find?_insert {x' : Index key} (h : x.insert r = some x') (k : κ) :
    x'.find? k = if k = key r then some r else x.find? k := by
  unfold insert at h
  split_ifs at h with hfresh
  cases h
  split_ifs with hk
  · exact find?_eq_some_iff.mpr ⟨x.table.next, Table.get?_insert_self _ _, hk.symm⟩
  · cases hfound : x.find? k with
    | none =>
      refine find?_eq_none_iff.mpr fun i s hget hkey => ?_
      rw [Table.get?_insert] at hget
      split_ifs at hget
      · cases hget
        exact hk hkey.symm
      · exact find?_eq_none_iff.mp hfound i s hget hkey
    | some =>
      obtain ⟨i, hget, hkey⟩ := find?_eq_some_iff.mp hfound
      exact find?_eq_some_iff.mpr ⟨i, Table.get?_insert_of_get? hget, hkey⟩

theorem find?_empty (k : κ) : (empty : Index key).find? k = none :=
  find?_eq_none_iff.mpr fun _ _ h => by cases h

theorem find?_deleteWhere (x : Index key) (p : ρ → Bool) (k : κ) :
    (x.deleteWhere p).find? k = (x.find? k).filter fun r => !p r := by
  cases hfound : x.find? k with
  | none =>
    refine find?_eq_none_iff.mpr fun i r hget hkey => ?_
    change (x.table.deleteWhere p).get? i = some r at hget
    rw [Table.get?_deleteWhere, filter_eq_some_iff] at hget
    exact find?_eq_none_iff.mp hfound i r hget.1 hkey
  | some r =>
    obtain ⟨i, hget, hkey⟩ := find?_eq_some_iff.mp hfound
    cases hp : p r with
    | false =>
      rw [filter_some_pos (by simp [hp])]
      refine find?_eq_some_iff.mpr ⟨i, ?_, hkey⟩
      exact filter_eq_some_iff.mpr ⟨hget, by simp [hp]⟩
    | true =>
      rw [filter_some_neg (by simp [hp])]
      refine find?_eq_none_iff.mpr fun j s hget' hkey' => ?_
      obtain ⟨hget', hp'⟩ := filter_eq_some_iff.mp hget'
      obtain rfl := x.unique i j r s hget hget' (hkey.trans hkey'.symm)
      obtain rfl := mem_unique hget hget'
      simp [hp] at hp'

/-- `INSERT … ON CONFLICT DO NOTHING`. -/
def insertNew (x : Index key) (r : ρ) : Index key := (x.insert r).getD x

theorem find?_insertNew (x : Index key) (r : ρ) (k : κ) :
    (x.insertNew r).find? k = if k = key r ∧ x.find? k = none then some r else x.find? k := by
  unfold insertNew
  cases hinsert : x.insert r with
  | none =>
    have htaken : x.find? (key r) ≠ none := by
      intro hfree
      rw [insert, dif_pos hfree] at hinsert
      cases hinsert
    rw [getD_none, if_neg]
    rintro ⟨rfl, hfree⟩
    exact htaken hfree
  | some =>
    have hfree : x.find? (key r) = none := by
      unfold insert at hinsert
      split_ifs at hinsert with hfree
      exact hfree
    rw [getD_some, find?_insert hinsert]
    by_cases hk : k = key r
    · subst hk
      rw [if_pos rfl, if_pos ⟨rfl, hfree⟩]
    · rw [if_neg hk, if_neg fun h => hk h.1]

theorem find?_foldl_insertNew (x : Index key) (rows : List ρ) (k : κ) :
    (rows.foldl insertNew x).find? k = (x.find? k).or (rows.find? fun r => key r = k) := by
  induction rows generalizing x with
  | nil => simp
  | cons r _ ih =>
    rw [List.foldl_cons, ih, find?_insertNew]
    by_cases hk : key r = k
    · subst hk
      cases hfree : x.find? (key r) <;> simp
    · simp [hk, Ne.symm hk]

end Index

end Relational
