import CubeRouter.Lib.Text

/-!
# Paths in JSON trees

A path is the list of its segments. At an object a segment names a member, at an array a number names an element
(`step`), and below a node that has no such child `set?` builds what is missing: a number makes an array, which is
padded with nulls, any other segment an object. An existing scalar gives way to the new container; only an array
cannot take a member, and there `set?` fails. `delete` of what does not exist changes nothing.

The steps that a path takes from a node are its `place`. What `set?` and `delete` leave alone is stated over places:
`follow_set?` and `follow_delete`.
-/

namespace JsonTree

open Strings (Text)
open List hiding lookup

/-- Numbers are taken as the numbers they are read as. -/
inductive Json
  | null
  | bool (b : Bool)
  | number (n : Rat)
  | string (s : Text)
  | array (elements : List Json)
  | object (members : List (Text × Json))

inductive Step
  | key (k : Text)
  | index (i : Nat)
  deriving DecidableEq

/-- An index is written in digits. -/
def readIndex (s : Text) : Option Nat := if s ≠ [] ∧ s.all Char.isDigit then some (Nat.ofDigitChars 10 s 0) else none

theorem readIndex_toDigits (i : Nat) : readIndex (Nat.toDigits 10 i) = some i := by
  have hdigits : (Nat.toDigits 10 i).all Char.isDigit = true := by
    rw [all_eq_true]
    intro c hc
    exact Nat.isDigit_of_mem_toDigits (by decide) (by decide) hc
  rw [readIndex, if_pos ⟨Nat.toDigits_ne_nil, hdigits⟩, Nat.ofDigitChars_ten_toDigits]

section Members

variable {α β : Type} [DecidableEq α]

def lookup (k : α) : List (α × β) → Option β
  | [] => none
  | m :: ms => if m.1 = k then some m.2 else lookup k ms

/-- The value of the first member of this name is replaced, or a new member is appended. -/
def assign (k : α) (v : β) : List (α × β) → List (α × β)
  | [] => [(k, v)]
  | m :: ms => if m.1 = k then (k, v) :: ms else m :: assign k v ms

def erase (k : α) : List (α × β) → List (α × β)
  | [] => []
  | m :: ms => if m.1 = k then ms else m :: erase k ms

theorem lookup_cons (k : α) (m : α × β) (ms : List (α × β)) :
    lookup k (m :: ms) = if m.1 = k then some m.2 else lookup k ms := rfl

@[simp] theorem lookup_nil (k : α) : lookup k ([] : List (α × β)) = none := rfl

theorem lookup_assign (k k' : α) (v : β) (ms : List (α × β)) :
    lookup k' (assign k v ms) = if k = k' then some v else lookup k' ms := by
  induction ms with
  | nil => rw [assign, lookup_cons]
  | cons m _ ih =>
    rw [assign]
    split_ifs with hm hk hk
    · rw [lookup_cons, if_pos hk]
    · rw [lookup_cons, lookup_cons, if_neg hk, hm, if_neg hk]
    · rw [lookup_cons, ih, if_pos hk, if_neg (hk ▸ hm)]
    · rw [lookup_cons, lookup_cons, ih, if_neg hk]

variable {k : α} {ms : List (α × β)} {v : β}

theorem lookup_erase_of_ne {k' : α} (h : k ≠ k') (ms : List (α × β)) : lookup k' (erase k ms) = lookup k' ms := by
  induction ms with
  | nil => rfl
  | cons m _ ih =>
    rw [erase, lookup_cons]
    split_ifs with hm hm'
    · exact absurd (hm.symm.trans hm') h
    · rfl
    · rw [lookup_cons, if_pos ‹_›]
    · rw [lookup_cons, if_neg ‹_›, ih]

theorem lookup_eq_none_iff : lookup k ms = none ↔ k ∉ ms.map Prod.fst := by
  induction ms with
  | nil => simp
  | cons m _ ih =>
    rw [lookup_cons]
    by_cases h : m.1 = k
    · simp [h]
    · simp [h, ih, Ne.symm h]

theorem lookup_erase_self (h : (ms.map Prod.fst).Nodup) : lookup k (erase k ms) = none := by
  induction ms with
  | nil => rfl
  | cons m _ ih =>
    rw [map_cons, nodup_cons] at h
    rw [erase]
    split_ifs with hm
    · exact lookup_eq_none_iff.mpr (hm ▸ h.1)
    · rw [lookup_cons, if_neg hm, ih h.2]

theorem lookup_of_mem {m : α × β} (hkeys : (ms.map Prod.fst).Nodup) (h : m ∈ ms) : lookup m.1 ms = some m.2 := by
  induction ms with
  | nil => cases h
  | cons m' _ ih =>
    rw [map_cons, nodup_cons] at hkeys
    rw [lookup_cons]
    rcases mem_cons.mp h with rfl | h
    · rw [if_pos rfl]
    · have hne : m'.1 ≠ m.1 := by
        intro heq
        exact hkeys.1 (heq ▸ mem_map_of_mem h)
      rw [if_neg hne, ih hkeys.2 h]

theorem mem_of_lookup (h : lookup k ms = some v) : (k, v) ∈ ms := by
  induction ms with
  | nil => simp at h
  | cons m _ ih =>
    rw [lookup_cons] at h
    split_ifs at h with hm
    · rw [← hm, ← Option.some.inj h]
      exact mem_cons_self
    · exact mem_cons_of_mem m (ih h)

theorem assign_self (h : lookup k ms = some v) : assign k v ms = ms := by
  induction ms with
  | nil => cases h
  | cons m _ ih =>
    rw [lookup_cons] at h
    rw [assign]
    split_ifs at h ⊢ with hm
    · rw [← hm, ← Option.some.inj h]
    · rw [ih h]

theorem assign_assign (k : α) (u v : β) (ms : List (α × β)) : assign k v (assign k u ms) = assign k v ms := by
  induction ms with
  | nil => rw [assign, assign, assign, if_pos rfl]
  | cons m _ ih =>
    rw [assign, assign]
    split_ifs with hm
    · rw [assign, if_pos rfl]
    · rw [assign, if_neg hm, ih]

theorem erase_of_none (h : lookup k ms = none) : erase k ms = ms := by
  induction ms with
  | nil => rfl
  | cons m _ ih =>
    rw [lookup_cons] at h
    rw [erase]
    split_ifs at h ⊢ with hm
    rw [ih h]

theorem erase_sublist (k : α) (ms : List (α × β)) : (erase k ms).Sublist ms := by
  induction ms with
  | nil => exact Sublist.refl []
  | cons m ms ih =>
    rw [erase]
    split_ifs
    · exact sublist_cons_self m ms
    · exact ih.cons_cons m

theorem length_erase (h : lookup k ms = some v) : (erase k ms).length + 1 = ms.length := by
  induction ms with
  | nil => cases h
  | cons m _ ih =>
    rw [lookup_cons] at h
    rw [erase]
    split_ifs at h ⊢ with hm
    · rfl
    · rw [length_cons, length_cons, ih h]

theorem map_fst_assign (v : β) (h : k ∈ ms.map Prod.fst) : (assign k v ms).map Prod.fst = ms.map Prod.fst := by
  induction ms with
  | nil => simp at h
  | cons m ms ih =>
    rw [assign]
    split_ifs with hm
    · simp [hm]
    · have hmem : k ∈ ms.map Prod.fst := by simpa [Ne.symm hm] using h
      simp [ih hmem]

end Members

/-- Elements up to the position are made up by nulls. -/
def put (i : Nat) (v : Json) (xs : List Json) : List Json :=
  if i < xs.length then xs.set i v else xs ++ List.replicate (i - xs.length) .null ++ [v]

theorem getElem?_put_self (i : Nat) (v : Json) (xs : List Json) : (put i v xs)[i]? = some v := by
  unfold put
  split_ifs with h
  · simp [h]
  · rw [getElem?_append_right (by simp; omega)]
    have hlength : i - (xs ++ List.replicate (i - xs.length) Json.null).length = 0 := by simp; omega
    rw [hlength]
    rfl

theorem getElem?_put_of_ne {i j : Nat} {x : Json} (h : i ≠ j) (v : Json) {xs : List Json} (hx : xs[j]? = some x) :
    (put i v xs)[j]? = some x := by
  unfold put
  split_ifs with hlt
  · rw [getElem?_set_ne h, hx]
  · have hj : j < xs.length := (List.getElem?_eq_some_iff.mp hx).1
    rw [append_assoc, getElem?_append_left hj, hx]

/-- The child that a segment names at a node, or would name if the node were made for it. -/
def step (s : Text) : Json → Step
  | .object _ => .key s
  | _ => match readIndex s with
    | some i => .index i
    | none => .key s

def child? : Step → Json → Option Json
  | .key k, .object ms => lookup k ms
  | .index i, .array xs => xs[i]?
  | _, _ => none

def putChild (v : Json) : Step → Json → Option Json
  | .key k, .object ms => some (.object (assign k v ms))
  | .index _, .object _ => none
  | .index i, .array xs => some (.array (put i v xs))
  | .key _, .array _ => none
  | .key k, _ => some (.object [(k, v)])
  | .index i, _ => some (.array (put i v []))

def removeChild : Step → Json → Json
  | .key k, .object ms => .object (erase k ms)
  | .index i, .array xs => .array (xs.eraseIdx i)
  | _, node => node

def get? : List Text → Json → Option Json
  | [], node => some node
  | s :: path, node => child? (step s node) node >>= get? path

/-- Below a node without the child the rest of the path is built from nothing. -/
def set? (v : Json) : List Text → Json → Option Json
  | [], _ => some v
  | s :: path, node =>
    set? v path ((child? (step s node) node).getD .null) >>= fun c => putChild c (step s node) node

def delete : List Text → Json → Json
  | [], node => node
  | [s], node => removeChild (step s node) node
  | s :: t :: path, node =>
    match child? (step s node) node with
    | some c => (putChild (delete (t :: path) c) (step s node) node).getD node
    | none => node

/-- The steps that a path takes, through what `set?` would build where the tree ends. -/
def place : List Text → Json → List Step
  | [], _ => []
  | s :: path, node => step s node :: place path ((child? (step s node) node).getD .null)

def follow : List Step → Json → Option Json
  | [], node => some node
  | s :: p, node => child? s node >>= follow p

section Children

variable {v x node node' : Json} {s t : Step}

theorem child?_putChild_self (h : putChild v s node = some node') : child? s node' = some v := by
  cases s <;> cases node <;> cases h
  all_goals simp only [child?]
  case key.object k ms => rw [lookup_assign, if_pos rfl]
  case index.array i xs => exact getElem?_put_self i v xs
  all_goals first | exact getElem?_put_self _ v [] | rw [lookup_cons, if_pos rfl]

theorem child?_putChild_of_ne (h : putChild v s node = some node') (hne : s ≠ t) (hx : child? t node = some x) :
    child? t node' = some x := by
  cases t <;> cases node <;> try cases hx
  case key.object k ms =>
    cases s <;> cases h
    rw [child?, lookup_assign, if_neg fun heq => hne (congrArg Step.key heq)]
    exact hx
  case index.array i xs =>
    cases s <;> cases h
    exact getElem?_put_of_ne (fun heq => hne (congrArg Step.index heq)) v hx

theorem child?_putChild_congr (h : putChild v s node = some node') (hs : child? s node = some x) (hne : s ≠ t) :
    child? t node' = child? t node := by
  cases s <;> cases node <;> try cases hs
  case key.object k ms =>
    cases h
    cases t with
    | key k' => exact (lookup_assign k k' v ms).trans (if_neg fun heq => hne (congrArg Step.key heq))
    | index => rfl
  case index.array i xs =>
    have hlt : i < xs.length := (List.getElem?_eq_some_iff.mp hs).1
    cases h
    cases t with
    | key => rfl
    | index =>
      rw [put, if_pos hlt]
      exact getElem?_set_ne fun heq => hne (congrArg Step.index heq)

theorem putChild_putChild (h : putChild v s node = some node') (hs : child? s node = some x) (c : Json) :
    putChild c s node' = putChild c s node := by
  cases s <;> cases node <;> try cases hs
  case key.object k ms =>
    cases h
    exact congrArg (some ∘ Json.object) (assign_assign k v c ms)
  case index.array i xs =>
    have hlt : i < xs.length := (List.getElem?_eq_some_iff.mp hs).1
    cases h
    rw [put, if_pos hlt, putChild, putChild, put, put, length_set, if_pos hlt, if_pos hlt, set_set]

theorem step_putChild (h : putChild v s node = some node') (hx : child? t node = some x) (u : Text) :
    step u node' = step u node := by
  cases node with
  | object | array =>
    cases s <;> cases h
    rfl
  | _ => cases t <;> cases hx

theorem step_putChild_self {u : Text} (h : putChild v (step u node) node = some node') :
    step u node' = step u node := by
  cases node with
  | object =>
    cases h
    rfl
  | array xs =>
    cases hstep : step u (.array xs) with
    | key =>
      rw [hstep] at h
      cases h
    | index =>
      rw [hstep] at h
      cases h
      exact hstep
  | _ =>
    cases hu : readIndex u <;> simp only [step, hu] at h ⊢ <;> cases h <;> rfl

theorem putChild_of_child? (h : child? s node = some x) : ∃ node', putChild v s node = some node' := by
  cases s <;> cases node <;> first | exact ⟨_, rfl⟩ | cases h

end Children

section Paths

variable {v x y node node' : Json}

theorem follow_append (p q : List Step) (node : Json) : follow (p ++ q) node = follow p node >>= follow q := by
  induction p generalizing node with
  | nil => rfl
  | cons s p ih =>
    rw [cons_append, follow, follow, bind_assoc]
    exact bind_congr ih

variable {path : List Text} {s : Step} {q : List Step}

theorem get?_set? (h : set? v path node = some node') : get? path node' = some v := by
  induction path generalizing node node' with
  | nil =>
    cases h
    rfl
  | cons s _ ih =>
    obtain ⟨c, hc, hput⟩ := Option.bind_eq_some_iff.mp h
    rw [get?, step_putChild_self hput, child?_putChild_self hput]
    exact ih hc

theorem length_place (path : List Text) (node : Json) : (place path node).length = path.length := by
  induction path generalizing node with
  | nil => rfl
  | cons s _ ih => rw [place, length_cons, ih, length_cons]

theorem key_mem_place {k : Text} (h : Step.key k ∈ place path node) : k ∈ path := by
  induction path generalizing node with
  | nil => cases h
  | cons s _ ih =>
    rcases mem_cons.mp h with hstep | h
    · have hs : k = s := by
        cases node <;> simp only [step] at hstep <;> (try split at hstep) <;> cases hstep <;> rfl
      exact hs ▸ mem_cons_self
    · exact mem_cons_of_mem s (ih h)

def Apart (p q : List Step) : Prop := ¬p <+: q ∧ ¬q <+: p

theorem apart_cons {t : Step} {p : List Step} : Apart (s :: p) (t :: q) ↔ s ≠ t ∨ Apart p q := by
  unfold Apart
  grind

theorem not_apart_nil (p : List Step) : ¬Apart p [] := fun h => h.2 nil_prefix

theorem not_nil_apart (p : List Step) : ¬Apart [] p := fun h => h.1 nil_prefix

theorem follow_set? (h : set? v path node = some node') (hq : Apart (place path node) q) (hx : follow q node = some x) :
    follow q node' = some x := by
  induction path generalizing node node' q with
  | nil => exact absurd hq (not_nil_apart q)
  | cons s _ ih =>
    cases q with
    | nil => exact absurd hq (not_apart_nil _)
    | cons t =>
      obtain ⟨c, hc, hput⟩ := Option.bind_eq_some_iff.mp h
      obtain ⟨d, hd, hd'⟩ := Option.bind_eq_some_iff.mp hx
      rw [follow]
      by_cases hst : step s node = t
      · subst hst
        rw [hd] at hc
        rw [child?_putChild_self hput]
        rw [place, hd] at hq
        exact ih hc ((apart_cons.mp hq).resolve_left (fun hne => hne rfl)) hd'
      · rw [child?_putChild_of_ne hput hst hd]
        exact hd'

theorem step_removeChild (s : Step) (u : Text) (node : Json) : step u (removeChild s node) = step u node := by
  cases s <;> cases node <;> rfl

theorem removeChild_of_none (h : child? s node = none) : removeChild s node = node := by
  cases s <;> cases node <;> try rfl
  case key.object k ms => exact congrArg Json.object (erase_of_none h)
  case index.array i xs => exact congrArg Json.array (eraseIdx_of_length_le (getElem?_eq_none_iff.mp h))

theorem removeChild_ne (h : child? s node = some x) : removeChild s node ≠ node := by
  intro heq
  cases s <;> cases node <;> try cases h
  case key.object k ms =>
    have hlength := length_erase h
    rw [Json.object.inj heq] at hlength
    omega
  case index.array i xs =>
    have hlt : i < xs.length := (List.getElem?_eq_some_iff.mp h).1
    have hlength := congrArg List.length (Json.array.inj heq)
    rw [length_eraseIdx_of_lt hlt] at hlength
    omega

theorem putChild_self (h : child? s node = some x) : putChild x s node = some node := by
  cases s <;> cases node <;> try cases h
  case key.object k ms => exact congrArg (some ∘ Json.object) (assign_self h)
  case index.array i xs =>
    obtain ⟨hlt, hget⟩ := List.getElem?_eq_some_iff.mp h
    rw [putChild, put, if_pos hlt, ← hget, set_getElem_self]

theorem set?_self (h : get? path node = some v) : set? v path node = some node := by
  induction path generalizing node with
  | nil => exact h.symm
  | cons s _ ih =>
    obtain ⟨c, hc, hget⟩ := Option.bind_eq_some_iff.mp h
    rw [set?, hc, Option.getD_some, ih hget]
    exact putChild_self hc

/-- Where a node is found after the one at `p` is deleted: later elements of its array move up. -/
def shift : List Step → List Step → List Step
  | [.index i], .index j :: q => .index (if i < j then j - 1 else j) :: q
  | s :: t :: p, u :: q => if s = u then u :: shift (t :: p) q else u :: q
  | _, q => q

theorem child?_removeChild_key {k k' : Text} (h : k ≠ k') :
    child? (.key k') (removeChild (.key k) node) = child? (.key k') node := by
  cases node with
  | object ms => exact lookup_erase_of_ne h ms
  | _ => rfl

theorem child?_removeChild_index (i j : Nat) :
    child? (.index j) (removeChild (.index i) node) = child? (.index (if j < i then j else j + 1)) node := by
  cases node with
  | array =>
    simp only [removeChild, child?, getElem?_eraseIdx]
    split_ifs <;> rfl
  | _ => rfl

theorem follow_shift_removeChild {t : Step} (hne : s ≠ t) (hx : follow (t :: q) node = some x) :
    follow (shift [s] (t :: q)) (removeChild s node) = some x := by
  obtain ⟨d, hd, hd'⟩ := Option.bind_eq_some_iff.mp hx
  cases s with
  | key k =>
    have hchild : child? t (removeChild (.key k) node) = some d := by
      cases t with
      | key => rw [child?_removeChild_key fun heq => hne (congrArg Step.key heq), hd]
      | index => cases node <;> exact hd
    exact Option.bind_eq_some_iff.mpr ⟨d, hchild, hd'⟩
  | index i =>
    cases t with
    | key k =>
      have hchild : child? (.key k) (removeChild (.index i) node) = some d := by
        cases node <;> exact hd
      exact Option.bind_eq_some_iff.mpr ⟨d, hchild, hd'⟩
    | index j =>
      have hij : i ≠ j := fun heq => hne (congrArg Step.index heq)
      refine Option.bind_eq_some_iff.mpr ⟨d, ?_, hd'⟩
      rw [child?_removeChild_index, ← hd]
      congr 2
      split_ifs <;> omega

theorem delete_cons_of_child? {s : Text} (t : Text) (path : List Text) {c : Json}
    (h : child? (step s node) node = some c) :
    putChild (delete (t :: path) c) (step s node) node = some (delete (s :: t :: path) node) := by
  obtain ⟨_, hnode'⟩ := putChild_of_child? (v := delete (t :: path) c) h
  rw [delete, h]
  dsimp only
  rw [hnode']
  rfl

theorem delete_eq_self_iff (hne : path ≠ []) : delete path node = node ↔ get? path node = none := by
  induction path, node using delete.induct with
  | case1 => exact absurd rfl hne
  | case2 s node =>
    rw [delete, get?]
    cases h : child? (step s node) node with
    | none => exact ⟨fun _ => rfl, fun _ => removeChild_of_none h⟩
    | some => exact ⟨fun heq => absurd heq (removeChild_ne h), fun hnone => by cases hnone⟩
  | case3 s t path _ c hc ih =>
    have hput := delete_cons_of_child? t path hc
    have ih := ih (cons_ne_nil t path)
    rw [get?, hc]
    change _ ↔ get? (t :: path) c = none
    rw [← ih]
    constructor
    · intro heq
      rw [heq] at hput
      have hchild := child?_putChild_self hput
      exact (Option.mem_unique hc hchild).symm
    · intro heq
      rw [heq, putChild_self hc] at hput
      exact (Option.some.inj hput).symm
  | case4 s t _ _ hnone =>
    rw [delete, get?, hnone]
    exact ⟨fun _ => rfl, fun _ => rfl⟩

theorem follow_delete (hq : Apart (place path node) q) (hx : follow q node = some x) :
    follow (shift (place path node) q) (delete path node) = some x := by
  induction path, node using delete.induct generalizing q with
  | case1 => exact absurd hq (not_nil_apart q)
  | case2 =>
    cases q with
    | nil => exact absurd hq (not_apart_nil _)
    | cons t q =>
      refine follow_shift_removeChild ?_ hx
      exact (apart_cons.mp hq).resolve_right (not_nil_apart q)
  | case3 s t path _ c hc ih =>
    cases q with
    | nil => exact absurd hq (not_apart_nil _)
    | cons =>
      have hput := delete_cons_of_child? t path hc
      rw [place, hc, Option.getD_some] at hq ⊢
      obtain ⟨d, hd, hd'⟩ := Option.bind_eq_some_iff.mp hx
      rw [place, shift]
      split_ifs with hu
      · subst hu
        have heq : c = d := Option.mem_unique hc hd
        subst heq
        rw [follow, child?_putChild_self hput]
        exact ih ((apart_cons.mp hq).resolve_left (fun hne => hne rfl)) hd'
      · rw [follow, child?_putChild_of_ne hput hu hd]
        exact hd'
  | case4 s t _ node hnone =>
    cases q with
    | nil => exact absurd hq (not_apart_nil _)
    | cons u =>
      have hu : step s node ≠ u := by
        rintro rfl
        rw [follow, hnone] at hx
        cases hx
      rw [place, place, shift, if_neg hu, delete, hnone]
      exact hx

end Paths

inductive Distinct : Json → Prop
  | null : Distinct .null
  | bool (b : Bool) : Distinct (.bool b)
  | number (n : Rat) : Distinct (.number n)
  | string (s : Text) : Distinct (.string s)
  | array {xs : List Json} : (∀ x ∈ xs, Distinct x) → Distinct (.array xs)
  | object {ms : List (Text × Json)} : (ms.map Prod.fst).Nodup → (∀ m ∈ ms, Distinct m.2) → Distinct (.object ms)

theorem Distinct.child {s : Step} {node c : Json} (h : Distinct node) (hc : child? s node = some c) : Distinct c := by
  cases h with
  | array hall =>
    cases s with
    | key => cases hc
    | index => exact hall c (mem_of_getElem? hc)
  | object _ hall =>
    cases s with
    | key k => exact hall (k, c) (mem_of_lookup hc)
    | index => cases hc
  | _ => cases s <;> cases hc

theorem Distinct.get? {path : List Text} {node x : Json} (hdistinct : Distinct node) (h : get? path node = some x) :
    Distinct x := by
  induction path generalizing node with
  | nil => exact Option.some.inj h ▸ hdistinct
  | cons s _ ih =>
    obtain ⟨c, hc, hget⟩ := Option.bind_eq_some_iff.mp h
    exact ih (hdistinct.child hc) hget

structure Document where
  root : Json
  distinct : Distinct root

end JsonTree
