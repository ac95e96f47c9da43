import Mathlib.Data.List.Basic
import Mathlib.Logic.Function.Basic

/-!
# Protocols that run side by side

An automaton `next : φ → α → Option φ` says what may happen to one thing. In a stream things of many kinds of keys
take their steps interleaved: `Plays` says that for each key the steps of this key, taken alone, are a run of the
automaton, and to which phase they lead. A step of one key is appended by `Plays.concat` and leaves the phases of all
others.
-/

namespace Keyed

variable {ι φ α : Type} [DecidableEq ι]

def project (i : ι) (l : List (ι × α)) : List α := l.filterMap fun e => if e.1 = i then some e.2 else none

@[simp] theorem project_nil (i : ι) : project i ([] : List (ι × α)) = [] := rfl

theorem project_append (i : ι) (l l' : List (ι × α)) : project i (l ++ l') = project i l ++ project i l' :=
  List.filterMap_append

theorem project_singleton (i j : ι) (a : α) : project i [(j, a)] = if j = i then [a] else [] := by
  unfold project
  split_ifs with h <;> simp [h]

/-- Where the steps lead, if each may be taken. -/
def follow (next : φ → α → Option φ) : φ → List α → Option φ
  | p, [] => some p
  | p, a :: l => next p a >>= fun p => follow next p l

variable {next : φ → α → Option φ}

theorem follow_append (p : φ) (l l' : List α) :
    follow next p (l ++ l') = follow next p l >>= fun p => follow next p l' := by
  induction l generalizing p with
  | nil => rfl
  | cons a l ih => simp only [List.cons_append, follow, ih, bind_assoc]

theorem follow_concat {p q : φ} {l : List α} (h : follow next p l = some q) (a : α) :
    follow next p (l ++ [a]) = next q a := by
  rw [follow_append, h]
  simp [follow]

/-- From the phases `t` the steps lead every key to its phase in `t'`. -/
def Plays (next : φ → α → Option φ) (t : ι → φ) (l : List (ι × α)) (t' : ι → φ) : Prop :=
  ∀ i, follow next (t i) (project i l) = some (t' i)

theorem Plays.nil (t : ι → φ) : Plays next t [] t := fun _ => rfl

theorem Plays.concat {t t' : ι → φ} {l : List (ι × α)} (h : Plays next t l t') {i : ι} {a : α} {p : φ}
    (hp : next (t' i) a = some p) : Plays next t (l ++ [(i, a)]) (Function.update t' i p) := by
  intro j
  rw [project_append, project_singleton]
  split_ifs with hj
  · subst hj
    rw [follow_concat (h i), hp, Function.update_self]
  · rw [List.append_nil, h j, Function.update_of_ne (Ne.symm hj)]

end Keyed
