import CubeRouter.Override.NegativeIndex

/-!
# Moving a field

`moveValue` sets the value at `to` and then deletes `from` in the body that has changed. What lies apart from both
paths is left alone, up to the elements that move up when `from` is an element (`follow_delete_set?`). The value is
found at `to` unless the deletion meets what was set: then `to` is `from` or below it, is a later element of the array
of `from`, or holds `from` inside the value (`Spared`, `move_keeps_iff`).
-/

namespace CubeRouter.Override

open Strings JsonTree Option

def setBytes (body : Json) (path : Text) (v : Json) : Option Json :=
  if path = [] then none else set? v (segments path) body

def deleteBytes (body : Json) (path : Text) : Option Json :=
  if path = [] then none else some (delete (segments path) body)

def moveValue (body : Json) (fromPath toPath : Text) : Option Json := do
  let sourceValue ← get? (segments fromPath) body
  let result ← setBytes body toPath sourceValue
  deleteBytes result fromPath

/-- `applyOperations` with the mode `move`. -/
def applyMove (body : Json) (opFrom opTo : Text) : Option Json :=
  moveValue body (processNegativeIndex body opFrom) (processNegativeIndex body opTo)

/-- The value is at `to`, and the nodes apart from both places are where they were, or one place up in their array. -/
structure Moved (body result : Json) (fromPath toPath : List Text) : Prop where
  present : get? toPath result = get? fromPath body
  others : ∀ q x, Apart (place fromPath body) q → Apart (place toPath body) q → follow q body = some x →
    follow (shift (place fromPath body) q) result = some x

/-- The deletion of `from` does not meet the value at `to`, or uncovers the same value. -/
def Spared (v : Json) : List Text → List Text → Json → Prop
  | [], _, _ => True
  | s :: rest, [], _ => get? (s :: rest) v = none
  | [s], t :: path, node =>
    match step s node, step t node with
    | .index i, .index j => i ≤ j → (child? (.index (j + 1)) node >>= get? path) = some v
    | a, b => a ≠ b
  | s :: s' :: rest, t :: path, node =>
    step s node = step t node → ∀ c ∈ child? (step s node) node, Spared v (s' :: rest) path c

section Trees

variable {v x node result : Json} {s t : Text} {fromPath toPath : List Text}

theorem getElem?_put_later {i j : Nat} {xs : List Json} (c : Json) (h : i < j) : (put i c xs)[j]? = xs[j]? := by
  unfold put
  split_ifs with hi
  · exact List.getElem?_set_ne (by omega)
  · rw [List.getElem?_eq_none (by simp; omega), List.getElem?_eq_none (by omega)]

theorem get?_removeChild (hdistinct : Distinct node) (hx : child? (step s node) node = some x)
    (h : set? v (t :: toPath) node = some result) :
    get? (t :: toPath) (removeChild (step s node) result) = some v ↔ Spared v [s] (t :: toPath) node := by
  obtain ⟨c, hc, hput⟩ := bind_eq_some_iff.mp h
  have hset := get?_set? hc
  rw [get?, step_removeChild, step_putChild hput hx, Spared]
  cases node with
  | object ms =>
    obtain rfl : Json.object (assign t c ms) = result := some.inj hput
    cases hdistinct with
    | object hkeys _ =>
      change (lookup t (erase s (assign t c ms)) >>= get? toPath) = some v ↔ Step.key s ≠ Step.key t
      by_cases hst : s = t
      · subst hst
        have hmem : s ∈ ms.map Prod.fst := by
          by_contra hnot
          have hnone : child? (step s (.object ms)) (.object ms) = none := lookup_eq_none_iff.mpr hnot
          exact some_ne_none x (hx.symm.trans hnone)
        rw [lookup_erase_self ((map_fst_assign c hmem).symm ▸ hkeys)]
        exact ⟨fun heq => absurd heq.symm (some_ne_none v), fun hne => absurd rfl hne⟩
      · rw [lookup_erase_of_ne hst, lookup_assign, if_pos rfl]
        exact ⟨fun _ heq => hst (Step.key.inj heq), fun _ => hset⟩
  | array xs =>
    cases hs : step s (.array xs) with
    | key =>
      rw [hs] at hx
      cases hx
    | index i =>
      cases ht : step t (.array xs) with
      | key =>
        rw [ht] at hput
        cases hput
      | index j =>
        rw [ht] at hput
        obtain rfl : Json.array (put j c xs) = result := some.inj hput
        rw [child?_removeChild_index]
        by_cases hij : j < i
        · rw [if_pos hij]
          change ((put j c xs)[j]? >>= get? toPath) = some v ↔ _
          rw [getElem?_put_self]
          exact ⟨fun _ hle => absurd hij (Nat.not_lt.mpr hle), fun _ => hset⟩
        · rw [if_neg hij]
          change ((put j c xs)[j + 1]? >>= get? toPath) = some v ↔ (i ≤ j → (xs[j + 1]? >>= get? toPath) = some v)
          rw [getElem?_put_later c (Nat.lt_succ_self j)]
          exact ⟨fun heq _ => heq, fun hall => hall (Nat.not_lt.mp hij)⟩
  | _ => cases hs : readIndex s <;> simp only [step, hs] at hx <;> cases hx

theorem child?_set? {d : Json} (hd : child? (step s node) node = some d) (h : set? v (t :: toPath) node = some result) :
    step s result = step s node ∧ ∃ d', child? (step s result) result = some d' ∧
      (step s node = step t node ∧ set? v toPath d = some d' ∨ step s node ≠ step t node ∧ d' = d) := by
  obtain ⟨c, hc, hput⟩ := bind_eq_some_iff.mp h
  have hs := step_putChild hput hd s
  refine ⟨hs, ?_⟩
  rw [hs]
  by_cases hst : step s node = step t node
  · rw [← hst] at hput hc
    rw [hd] at hc
    exact ⟨c, child?_putChild_self hput, .inl ⟨hst, hc⟩⟩
  · exact ⟨d, child?_putChild_of_ne hput (Ne.symm hst) hd, .inr ⟨hst, rfl⟩⟩

theorem get?_delete_iff (hdistinct : Distinct node) (hx : get? fromPath node = some x)
    (h : set? v toPath node = some result) :
    get? toPath (delete fromPath result) = some v ↔ Spared v fromPath toPath node := by
  induction fromPath generalizing toPath node result with
  | nil =>
    exact ⟨fun _ => trivial, fun _ => get?_set? h⟩
  | cons s rest ih =>
    cases toPath with
    | nil =>
      obtain rfl : v = result := some.inj h
      rw [get?, Spared, some_inj, ← delete_eq_self_iff (List.cons_ne_nil s rest)]
    | cons t =>
      obtain ⟨d, hd, hrest⟩ := bind_eq_some_iff.mp hx
      cases rest with
      | nil =>
        rw [delete, (child?_set? hd h).1]
        exact get?_removeChild hdistinct hd h
      | cons s' rest =>
        obtain ⟨hs, d', hd', hcase⟩ := child?_set? hd h
        have hdelete := delete_cons_of_child? s' rest hd'
        have ht := step_putChild hdelete hd' t
        rw [get?, ht, Spared, hd]
        obtain ⟨c, hc, hput⟩ := bind_eq_some_iff.mp h
        rw [step_putChild hput hd t]
        rcases hcase with ⟨hst, hset⟩ | ⟨hst, rfl⟩
        · -- both paths go on below one child
          have hbelow := child?_putChild_self hdelete
          rw [hs] at hbelow
          rw [← hst, hbelow]
          refine (ih (hdistinct.child hd) hrest hset).trans ⟨fun hspared _ d' hd' => ?_, fun hall => hall rfl d rfl⟩
          exact some.inj hd' ▸ hspared
        · have hfound : child? (step t node) (delete (s :: s' :: rest) result) = some c :=
            child?_putChild_of_ne hdelete (hs ▸ hst) (child?_putChild_self hput)
          rw [hfound]
          exact ⟨fun _ heq => absurd heq hst, fun _ => get?_set? hc⟩

theorem follow_delete_set? {q : List Step} {y : Json} (hx : get? fromPath node = some x)
    (h : set? v toPath node = some result) (hfrom : Apart (place fromPath node) q) (hto : Apart (place toPath node) q)
    (hy : follow q node = some y) : follow (shift (place fromPath node) q) (delete fromPath result) = some y := by
  induction fromPath generalizing toPath node result q with
  | nil => exact absurd hfrom (not_nil_apart q)
  | cons s rest ih =>
    have hset := follow_set? h hto hy
    cases toPath with
    | nil => exact absurd hto (not_nil_apart q)
    | cons =>
      cases q with
      | nil => exact absurd hfrom (not_apart_nil _)
      | cons u q =>
        obtain ⟨d, hd, hrest⟩ := bind_eq_some_iff.mp hx
        obtain ⟨hs, _, hd', hcase⟩ := child?_set? hd h
        rw [place, hd, getD_some] at hfrom ⊢
        cases rest with
        | nil =>
          rw [delete, hs]
          exact follow_shift_removeChild ((apart_cons.mp hfrom).resolve_right (not_nil_apart q)) hset
        | cons s' rest =>
          have hdelete := delete_cons_of_child? s' rest hd'
          rw [place, shift, ← place]
          split_ifs with hu
          · subst hu
            have hfrom' := (apart_cons.mp hfrom).resolve_left fun hne => hne rfl
            rw [follow, hd] at hy
            rw [follow, ← hs, child?_putChild_self hdelete]
            rcases hcase with ⟨hst, hset'⟩ | ⟨hst, rfl⟩
            · rw [place, ← hst, hd, getD_some] at hto
              exact ih hrest hset' hfrom' ((apart_cons.mp hto).resolve_left fun hne => hne rfl) hy
            · exact follow_delete hfrom' hy
          · obtain ⟨b, hb, hb'⟩ := bind_eq_some_iff.mp hset
            rw [follow, child?_putChild_of_ne hdelete (hs ▸ hu) hb]
            exact hb'

end Trees

/-- A move keeps the value exactly when the deletion spares it; the nodes apart from both paths it always keeps. -/
theorem move_keeps_iff (body : Document) {opFrom opTo : Text} {result v : Json}
    (hmove : applyMove body.root opFrom opTo = some result)
    (hv : get? (segments (processNegativeIndex body.root opFrom)) body.root = some v) :
    Moved body.root result (segments (processNegativeIndex body.root opFrom))
        (segments (processNegativeIndex body.root opTo)) ↔
      Spared v (segments (processNegativeIndex body.root opFrom)) (segments (processNegativeIndex body.root opTo))
        body.root := by
  unfold applyMove moveValue at hmove
  rw [hv, bind_eq_bind, bind_some] at hmove
  obtain ⟨_, hset, hdelete⟩ := bind_eq_some_iff.mp hmove
  unfold setBytes at hset
  unfold deleteBytes at hdelete
  split_ifs at hset hdelete
  obtain rfl := some.inj hdelete
  have hiff := get?_delete_iff body.distinct hv hset
  rw [← hiff]
  constructor
  · exact fun h => h.present.trans hv
  · exact fun h => ⟨h.trans hv.symm, fun q x hfrom hto hx => follow_delete_set? hv hset hfrom hto hx⟩

/-- Between two members the value is kept. -/
theorem move_keeps_member :
    Moved (.object [(text "a", .bool true)]) (.object [(text "b", .bool true)]) [text "a"] [text "b"] := by
  have hdistinct : Distinct (.object [(text "a", .bool true)]) :=
    .object (by decide) (List.forall_mem_singleton.mpr (.bool true))
  have hmove : applyMove (.object [(text "a", .bool true)]) (text "a") (text "b") =
    some (.object [(text "b", .bool true)]) := rfl
  refine (move_keeps_iff ⟨_, hdistinct⟩ hmove (v := .bool true) rfl).mpr ?_
  change Step.key (text "a") ≠ Step.key (text "b")
  decide

/-- A field that is moved to itself is deleted. -/
theorem moved_to_itself_is_lost :
    applyMove (.object [(text "a", .bool true)]) (text "a") (text "a") = some (.object []) ∧
      ¬Moved (.object [(text "a", .bool true)]) (.object []) [text "a"] [text "a"] := by
  refine ⟨rfl, fun h => ?_⟩
  cases h.present

end CubeRouter.Override
