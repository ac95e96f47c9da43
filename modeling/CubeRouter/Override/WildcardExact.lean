import CubeRouter.Override.WildcardLoop

/-!
# When wildcard operations touch their matches

An operation hits exactly the nodes that its wildcard path matches when the paths of the matches say what was matched
(`Named`): no name on the way contains a dot, every index is written in digits, and the path is not empty. A deletion
also passes over a blank path, and a last `*` must match no second element of an array (`Direct`). Then the loop is
`everyMatch`. In every other body some operation goes wrong: a deletion leaves a member without a visible name, or an
element that has moved up; or a value that is set does not arrive behind a dot, or is refused at an array or an empty
path (`wildcard_exact_iff`).
-/

namespace CubeRouter.Override

open Strings JsonTree Option
open List hiding lookup lookup_cons

/-- A last `*` matches no second element. -/
def Single (parts : List Text) (node : Json) : Prop :=
  ∀ s ∈ parts.getLast?, trimSpace s = wildcard → ∀ w ∈ walks parts node, ∀ b ∈ w.getLast?, ∀ i, b.2 ≠ .index (i + 1)

/-- The path of every match leads to it. -/
def Named (parts : List Text) (body : Json) : Prop := ∀ w ∈ walks parts body, Plain w ∧ join (texts w) ≠ []

/-- No deletion passes over a match, or moves a later one. -/
structure Direct (parts : List Text) (body : Json) : Prop where
  plain : ∀ w ∈ walks parts body, Plain w
  visible : ∀ w ∈ walks parts body, trimSpace (join (texts w)) ≠ []
  single : Single parts body

/-! ## The operations at a path -/

section Operations

variable {kit : Kit} {op : ParamOperation} {body : Json} {path : Text}

theorem setBytes_eq (hpath : path ≠ []) (v : Json) : setBytes body path v = set? v (segments path) body := if_neg hpath

theorem changeString_eq (hpath : path ≠ []) (f : Text → Option Text) :
    changeString body path f = modifyAt (stringEffect f) (segments path) body := by
  unfold changeString modifyAt
  cases get? (segments path) body with
  | none => rfl
  | some node =>
    cases node with
    | string s =>
      change (f s >>= _) = (f s).map _ >>= _
      cases f s with
      | none => rfl
      | some => exact setBytes_eq hpath _
    | _ => rfl

theorem ensureStringAffix_eq (hpath : path ≠ []) {value : Json} {isPrefix : Bool} :
    ensureStringAffix kit body path value isPrefix =
      modifyAt (stringEffect fun s => ((required kit value).filter (· ≠ [])).map fun p =>
        if isPrefix then if hasPrefix s p then s else p ++ s else if hasSuffix s p then s else s ++ p)
        (segments path) body := by
  unfold ensureStringAffix modifyAt
  cases hget : get? (segments path) body with
  | none => rfl
  | some node =>
    cases node with
    | string s =>
      cases required kit value with
      | none => rfl
      | some p =>
        dsimp only
        by_cases hnil : p = []
        · rw [if_pos hnil, hnil]
          rfl
        · have hfilter : (some p).filter (fun x => decide (x ≠ [])) = some p := by simp [hnil]
          rw [if_neg hnil, hfilter, setBytes_eq hpath, setBytes_eq hpath]
          change _ = set? (.string (if isPrefix then if hasPrefix s p then s else p ++ s
            else if hasSuffix s p then s else s ++ p)) (segments path) body
          split_ifs
          · exact (set?_self hget).symm
          · rfl
          · exact (set?_self hget).symm
          · rfl
    | _ => rfl

theorem applyAt_eq (hpath : path ≠ []) (hvisible : op.mode = .delete → trimSpace path ≠ []) :
    applyAt kit op body path = modifyAt (effect kit op) (segments path) body := by
  unfold applyAt effect
  cases hmode : op.mode with
  | delete => exact (if_neg (hvisible hmode)).trans (if_neg hpath)
  | set =>
    rw [setBytes_eq hpath, modifyAt]
    cases hget : get? (segments path) body with
    | none =>
      rw [if_neg fun h => by cases h.2]
      exact congrArg (set? · (segments path) body) (ite_self _).symm
    | some =>
      cases op.keepOrigin with
      | true => exact (set?_self hget).symm
      | false => rfl
  | ensurePrefix => exact ensureStringAffix_eq hpath
  | ensureSuffix => exact ensureStringAffix_eq hpath
  | _ => exact changeString_eq hpath _

end Operations

/-! ## Direct paths -/

variable {l : List Text} {body : Json} {path : Text}

theorem uniq_of_nodup (h : l.Nodup) : uniq l = l := by
  have hall : ∀ (l seen : List Text), l.Nodup → (∀ x ∈ l, x ∉ seen) →
      l.foldl (fun seen x => if x ∈ seen then seen else seen ++ [x]) seen = seen ++ l := by
    intro l
    induction l with
    | nil => exact fun seen _ _ => (append_nil seen).symm
    | cons x l ih =>
      intro seen hnodup hnew
      rw [nodup_cons] at hnodup
      rw [foldl_cons, if_neg (hnew x mem_cons_self), ih _ hnodup.2, append_assoc, singleton_append]
      intro y hy hmem
      rcases mem_append.mp hmem with hmem | hmem
      · exact hnew y (mem_cons_of_mem x hy) hmem
      · exact hnodup.1 (mem_singleton.mp hmem ▸ hy)
  exact hall l [] h fun x _ => not_mem_nil

theorem mem_uniq {x : Text} : x ∈ uniq l ↔ x ∈ l := by
  have hall : ∀ (l seen : List Text),
      x ∈ l.foldl (fun seen x => if x ∈ seen then seen else seen ++ [x]) seen ↔ x ∈ seen ∨ x ∈ l := by
    intro l
    induction l with
    | nil => simp
    | cons y l ih =>
      intro seen
      rw [foldl_cons, ih]
      split_ifs with hy
      · grind
      · grind
  rw [uniq, hall]
  simp

section Direct

variable {kit : Kit} {op : ParamOperation} {node body : Json} {parts : List Text}

theorem nodup_branch_texts (h : Distinct node) (segment : Text) : ((branches segment node).map Prod.fst).Nodup := by
  refine nodup_branches_map Prod.fst (fun a b heq => heq) (fun a b heq => ?_) h segment
  have hread := congrArg readIndex heq
  rw [readIndex_toDigits, readIndex_toDigits] at hread
  exact some.inj hread

theorem nodup_texts (h : Distinct node) (parts : List Text) : ((walks parts node).map texts).Nodup := by
  induction parts, node using walks.induct with
  | case1 => exact nodup_singleton _
  | case2 s node =>
    have hmap : (walks [s] node).map texts = ((branches (trimSpace s) node).map Prod.fst).map fun t => [t] := by
      rw [walks, List.map_map, List.map_map]
      rfl
    rw [hmap]
    exact (nodup_branch_texts h _).map fun a b heq => singleton_inj.mp heq
  | case3 s t rest node ih =>
    rw [walks, map_flatMap, nodup_flatMap]
    constructor
    · intro b hb
      cases hc : child? b.2 node with
      | none => exact nodup_nil
      | some c =>
        have hmap : ((walks (t :: rest) c).map (b :: ·)).map texts =
            ((walks (t :: rest) c).map texts).map (b.1 :: ·) := by
          rw [List.map_map, List.map_map]
          rfl
        rw [hmap]
        exact (ih c (h.child hc)).map fun _ _ heq => (cons.inj heq).2
    · have htexts := nodup_branch_texts h (trimSpace s)
      rw [List.Nodup, pairwise_map] at htexts
      refine htexts.imp fun {a b} hne => disjoint_left.mpr ?_
      intro q ha hb
      dsimp only at ha hb
      have hhead : ∀ (b : Text × Step) (l : List (List (Text × Step))),
          q ∈ (l.map (b :: ·)).map texts → q.head? = some b.1 := by
        intro b l hb
        obtain ⟨w, hw, rfl⟩ := mem_map.mp hb
        obtain ⟨_, -, rfl⟩ := mem_map.mp hw
        rfl
      cases hca : child? a.2 node with
      | none => rw [hca] at ha; cases ha
      | some _ =>
        cases hcb : child? b.2 node with
        | none => rw [hcb] at hb; cases hb
        | some _ =>
          rw [hca] at ha
          rw [hcb] at hb
          exact hne (some.inj ((hhead a _ ha).symm.trans (hhead b _ hb)))

theorem segments_texts {w : List (Text × Step)} (hw : w ∈ walks parts node) (hne : parts ≠ [])
    (hdots : ∀ b ∈ w, '.' ∉ b.1) : segments (join (texts w)) = texts w := by
  apply segments_join
  · intro s hs
    obtain ⟨b, hb, rfl⟩ := mem_map.mp hs
    exact hdots b hb
  · intro hnil
    have hlength := length_of_mem_walks hw
    rw [map_eq_nil_iff.mp hnil] at hlength
    exact hne (eq_nil_of_length_eq_zero hlength.symm)

theorem expand_eq (body : Json) (path : Text) :
    expandWildcardPaths body path = uniq ((walks (segments path) body).map fun w => join (texts w)) := by
  rw [expandWildcardPaths, collect_eq]
  rfl

theorem foldlM_expand (hdistinct : Distinct body) {path : Text} (hnamed : Named (segments path) body)
    (hvisible : op.mode = .delete → ∀ w ∈ walks (segments path) body, trimSpace (join (texts w)) ≠ []) :
    (expandWildcardPaths body path).foldlM (applyAt kit op) body = inTurn (effect kit op) (segments path) body := by
  have hne := segments_ne_nil path
  have hplain : ∀ w ∈ walks (segments path) body, Plain w := fun w hw => (hnamed w hw).1
  have hsegments : ∀ w ∈ walks (segments path) body, segments (join (texts w)) = texts w :=
    fun w hw => segments_texts hw hne fun b hb => (hplain w hw b hb).1
  have hnodup : ((walks (segments path) body).map fun w => join (texts w)).Nodup := by
    have htexts := nodup_texts hdistinct (segments path)
    rw [List.Nodup, pairwise_map] at htexts ⊢
    refine htexts.imp_of_mem fun {v w} hv hw hdiffer heq => hdiffer ?_
    rw [← hsegments v hv, ← hsegments w hw, heq]
  rw [expand_eq, uniq_of_nodup hnodup, ← loop_eq hne hdistinct hplain, loop, foldlM_map]
  have hall : ∀ (ws : List (List (Text × Step))) (n : Json), (∀ w ∈ ws, w ∈ walks (segments path) body) →
      ws.foldlM (fun n w => applyAt kit op n (join (texts w))) n =
        ws.foldlM (fun n w => modifyAt (effect kit op) (texts w) n) n := by
    intro ws
    induction ws with
    | nil => exact fun _ _ => rfl
    | cons w _ ih =>
      intro n hws
      have hw := hws w mem_cons_self
      rw [foldlM_cons, foldlM_cons, applyAt_eq (hnamed w hw).2 fun h => hvisible h w hw, hsegments w hw]
      exact bind_congr fun n' => ih n' fun w' hw' => hws w' (mem_cons_of_mem w hw')
  exact hall _ body fun _ hw => hw

end Direct

/-! ## Effects at the children -/

section Children

variable {e e' : Effect} {node result : Json} {segment : Text} {b : Text × Step} {ms : List (Text × Json)}
  {xs : List Json} {c d : Json}

theorem eachMember_total (he : ∀ x, ∃ r, e x = some r) : ∃ ms', eachMember e ms = some ms' := by
  induction ms with
  | nil => exact ⟨[], rfl⟩
  | cons m _ ih =>
    obtain ⟨r, hr⟩ := he (some m.2)
    obtain ⟨_, hms'⟩ := ih
    exact ⟨_, by rw [eachMember, hr, hms']; rfl⟩

theorem eachElement_total (he : ∀ x, ∃ r, e x = some r) : ∃ xs', eachElement e xs = some xs' := by
  induction xs with
  | nil => exact ⟨[], rfl⟩
  | cons x _ ih =>
    obtain ⟨r, hr⟩ := he (some x)
    obtain ⟨_, hxs'⟩ := ih
    exact ⟨_, by rw [eachElement, hr, hxs']; rfl⟩

theorem atChildren_total (he : ∀ x, ∃ r, e x = some r) (segment : Text) (node : Json) :
    ∃ result, atChildren e segment node = some result := by
  unfold atChildren
  split_ifs
  · exact ⟨node, rfl⟩
  · cases node with
    | object ms =>
      obtain ⟨ms', hms'⟩ := eachMember_total he
      exact ⟨.object ms', congrArg (Option.map Json.object) hms'⟩
    | array xs =>
      obtain ⟨xs', hxs'⟩ := eachElement_total he
      exact ⟨.array xs', congrArg (Option.map Json.array) hxs'⟩
    | _ => exact ⟨_, rfl⟩
  · cases node with
    | object ms =>
      obtain ⟨r, hr⟩ := he (lookup segment ms)
      dsimp only
      rw [updateMember, hr]
      exact ⟨_, rfl⟩
    | array xs =>
      dsimp only
      cases elementIndex? segment xs.length with
      | none => exact ⟨_, rfl⟩
      | some i =>
        obtain ⟨r, hr⟩ := he xs[i]?
        dsimp only
        rw [updateElement, hr]
        exact ⟨_, rfl⟩
    | _ => exact ⟨_, rfl⟩

theorem below_total {f : Json → Option Json} (hf : ∀ c, ∃ d, f c = some d) (x : Option Json) :
    ∃ r, below f x = some r := by
  cases x with
  | none => exact ⟨none, rfl⟩
  | some c =>
    obtain ⟨d, hd⟩ := hf c
    exact ⟨some d, by rw [below, hd]; rfl⟩

theorem lookup_eachMember {k : Text} {ms' : List (Text × Json)} (h : eachMember e ms = some ms')
    (hc : lookup k ms = some c) (hd : e (some c) = some (some d)) : lookup k ms' = some d := by
  induction ms generalizing ms' with
  | nil => cases hc
  | cons m _ ih =>
    obtain ⟨r, hr, hmap⟩ := bind_eq_some_iff.mp h
    obtain ⟨_, hrest, rfl⟩ := map_eq_some_iff.mp hmap
    rw [lookup_cons] at hc
    split_ifs at hc with hm
    · obtain rfl := some.inj hc
      obtain rfl := mem_unique hr hd
      exact if_pos hm
    · have hlater := ih hrest hc
      cases r with
      | none => exact hlater
      | some => exact (if_neg hm).trans hlater

theorem getElem?_eachElement {i : Nat} {xs' : List Json} (hkeeps : ∀ c, e (some c) ≠ some none)
    (h : eachElement e xs = some xs') (hc : xs[i]? = some c) (hd : e (some c) = some (some d)) : xs'[i]? = some d := by
  induction xs generalizing xs' i with
  | nil => cases hc
  | cons x _ ih =>
    obtain ⟨r, hr, hmap⟩ := bind_eq_some_iff.mp h
    obtain ⟨rest, hrest, rfl⟩ := map_eq_some_iff.mp hmap
    cases r with
    | none => exact absurd hr (hkeeps x)
    | some =>
      cases i with
      | zero =>
        obtain rfl : x = c := some.inj hc
        exact mem_unique hr hd
      | succ i =>
        have hlater : rest[i]? = some d := ih hrest hc
        exact hlater

theorem child?_atChildren {x : Option Json} (hkeeps : ∀ c, e (some c) ≠ some none)
    (hb : b ∈ branches segment node) (h : atChildren e segment node = some result) (hx : child? b.2 node = x)
    (hd : e x = some (some d)) : child? b.2 result = some d := by
  unfold branches at hb
  unfold atChildren at h
  split_ifs at hb h
  · cases hb
  · cases node with
    | object =>
      obtain ⟨k, hk, rfl⟩ := mem_map.mp hb
      obtain ⟨ms', hms', rfl⟩ := map_eq_some_iff.mp h
      have hlookup := child?_sortedKeys hk
      rw [hlookup] at hx
      exact lookup_eachMember hms' hlookup (hx ▸ hd)
    | array =>
      obtain ⟨i, hi, rfl⟩ := mem_map.mp hb
      obtain ⟨xs', hxs', rfl⟩ := map_eq_some_iff.mp h
      have hget := child?_range (mem_range.mp hi)
      rw [hget] at hx
      exact getElem?_eachElement hkeeps hxs' hget (hx ▸ hd)
    | _ => cases hb
  · cases node with
    | object ms =>
      obtain rfl := mem_singleton.mp hb
      obtain ⟨_, hms', rfl⟩ := map_eq_some_iff.mp h
      obtain ⟨r, hr, rfl⟩ := map_eq_some_iff.mp hms'
      have hlookup : lookup segment ms = x := hx
      rw [hlookup, hd] at hr
      obtain rfl := some.inj hr
      exact (lookup_assign segment segment d ms).trans (if_pos rfl)
    | array xs =>
      dsimp only at hb h
      cases hindex : elementIndex? segment xs.length with
      | none =>
        rw [hindex] at hb
        cases hb
      | some i =>
        rw [hindex] at hb h
        obtain rfl := mem_singleton.mp hb
        obtain ⟨_, hxs', rfl⟩ := map_eq_some_iff.mp h
        obtain ⟨r, hr, rfl⟩ := map_eq_some_iff.mp hxs'
        have hget : xs[i]? = x := hx
        rw [hget, hd] at hr
        obtain rfl := some.inj hr
        exact getElem?_put_self i d xs
    | _ => cases hb

theorem atChildren_congr (hdistinct : Distinct node)
    (h : ∀ b ∈ branches segment node, e (child? b.2 node) = e' (child? b.2 node)) :
    atChildren e segment node = atChildren e' segment node := by
  unfold branches at h
  unfold atChildren
  split_ifs at h ⊢
  · rfl
  · cases hdistinct with
    | @object ms hkeys _ =>
      have hall : ∀ l : List (Text × Json), (∀ m ∈ l, m ∈ ms) → eachMember e l = eachMember e' l := by
        intro l
        induction l with
        | nil => exact fun _ => rfl
        | cons m l ih =>
          intro hl
          have hm := hl m mem_cons_self
          have hkey : m.1 ∈ sortedKeys ms := (perm_insertionSort _ _).mem_iff.mpr (mem_map_of_mem hm)
          have heq := h _ (mem_map_of_mem hkey)
          rw [show child? (.key m.1) (.object ms) = some m.2 from lookup_of_mem hkeys hm] at heq
          rw [eachMember, eachMember, heq, ih fun m' hm' => hl m' (mem_cons_of_mem m hm')]
      exact congrArg (Option.map Json.object) (hall ms fun _ hm => hm)
    | @array xs _ =>
      have hall : ∀ l : List Json, (∀ x ∈ l, x ∈ xs) → eachElement e l = eachElement e' l := by
        intro l
        induction l with
        | nil => exact fun _ => rfl
        | cons x l ih =>
          intro hl
          obtain ⟨i, hi, hget⟩ := getElem_of_mem (hl x mem_cons_self)
          have heq := h _ (mem_map_of_mem (mem_range.mpr hi))
          rw [show child? (.index i) (.array xs) = some x from List.getElem?_eq_some_iff.mpr ⟨hi, hget⟩] at heq
          rw [eachElement, eachElement, heq, ih fun x' hx' => hl x' (mem_cons_of_mem x hx')]
      exact congrArg (Option.map Json.array) (hall xs fun _ hx => hx)
    | _ => rfl
  · cases node with
    | object ms =>
      have heq : e (lookup segment ms) = e' (lookup segment ms) := h _ (mem_singleton_self _)
      dsimp only
      rw [updateMember, updateMember, heq]
    | array xs =>
      dsimp only at h ⊢
      cases hindex : elementIndex? segment xs.length with
      | none => rfl
      | some i =>
        rw [hindex] at h
        have heq : e xs[i]? = e' xs[i]? := h _ (mem_singleton_self _)
        dsimp only
        rw [updateElement, updateElement, heq]
    | _ => rfl

end Children

/-! ## Deletions -/

section Deletions

variable {node body : Json} {parts : List Text}

/-- `deleteValue` is the effect that removes. -/
def removal : Effect := fun _ => some none

theorem everyMatch_total {e : Effect} (he : ∀ x, ∃ r, e x = some r) (parts : List Text) (node : Json) :
    ∃ result, everyMatch e parts node = some result := by
  induction parts, node using walks.induct with
  | case1 node => exact ⟨node, rfl⟩
  | case2 s node => exact atChildren_total he (trimSpace s) node
  | case3 s t _ node ih => exact atChildren_total (below_total ih) (trimSpace s) node

theorem foldlM_removal (is : List Nat) (xs : List Json) :
    is.foldlM (fun ys i => updateElement removal i ys) xs = some (is.foldl List.eraseIdx xs) := by
  induction is generalizing xs with
  | nil => rfl
  | cons i _ ih => exact ih (xs.eraseIdx i)

/-- The first removal moves the second element to the front, and there it stays. -/
theorem removals_eq_nil_iff (xs : List Json) : (List.range xs.length).foldl List.eraseIdx xs = [] ↔ xs.length ≤ 1 := by
  have hstays : ∀ (is : List Nat) (y : Json) (ys : List Json), (∀ i ∈ is, 1 ≤ i) →
      is.foldl List.eraseIdx (y :: ys) ≠ [] := by
    intro is
    induction is with
    | nil => exact fun y ys _ => cons_ne_nil y ys
    | cons i _ ih =>
      intro y ys hpos
      obtain ⟨j, rfl⟩ := Nat.exists_eq_add_of_le' (hpos i mem_cons_self)
      exact ih y (ys.eraseIdx j) fun k hk => hpos k (mem_cons_of_mem _ hk)
  cases xs with
  | nil => simp
  | cons x xs =>
    cases xs with
    | nil => exact ⟨fun _ => Nat.le_refl 1, fun _ => rfl⟩
    | cons y ys =>
      have hrange : List.range (x :: y :: ys).length = 0 :: List.range' 1 (ys.length + 1) := by
        rw [range_eq_range', length_cons, length_cons, range'_succ]
      rw [hrange, foldl_cons]
      refine iff_of_false (hstays _ y ys fun i hi => (mem_range'_1.mp hi).1) ?_
      simp

theorem childrenInTurn_removal {segment : Text} : ∃ result, childrenInTurn removal segment node = some result := by
  have htotal := atChildren_total (e := removal) (fun _ => ⟨none, rfl⟩) segment node
  cases node with
  | array =>
    change ∃ result, (if segment = wildcard then _ else _) = some result
    split_ifs
    · rw [foldlM_removal]
      exact ⟨_, rfl⟩
    · exact htotal
  | _ => exact htotal

theorem inTurn_removal (node : Json) : ∃ result, inTurn removal parts node = some result := by
  induction parts, node using walks.induct with
  | case1 node => exact ⟨node, rfl⟩
  | case2 s node => exact childrenInTurn_removal
  | case3 s t _ node ih => exact atChildren_total (below_total ih) (trimSpace s) node

theorem eachElement_removal {xs : List Json} : eachElement removal xs = some [] := by
  induction xs with
  | nil => rfl
  | cons x _ ih =>
    rw [eachElement, ih]
    rfl

theorem children_removal_iff (s : Text) (node : Json) :
    childrenInTurn removal (trimSpace s) node = atChildren removal (trimSpace s) node ↔ Single [s] node := by
  have hsingle : Single [s] node ↔
      (trimSpace s = wildcard → ∀ b ∈ branches (trimSpace s) node, ∀ i, b.2 ≠ .index (i + 1)) := by
    constructor
    · intro h hstar b hb
      exact h s rfl hstar [b] (mem_map_of_mem hb) b rfl
    · intro h s' hs' hstar w hw b hb
      obtain rfl := some.inj hs'
      obtain ⟨b', hb', rfl⟩ := mem_map.mp hw
      obtain rfl := some.inj hb
      exact h hstar b' hb'
  rw [hsingle]
  by_cases hstar : trimSpace s = wildcard
  · cases node with
    | array xs =>
      have hnil : wildcard ≠ [] := by decide
      have hin : childrenInTurn removal (trimSpace s) (.array xs) =
          some (.array ((List.range xs.length).foldl List.eraseIdx xs)) := by
        refine (if_pos hstar).trans ?_
        rw [foldlM_removal]
        rfl
      have hat : atChildren removal (trimSpace s) (.array xs) = some (.array []) := by
        refine (if_neg (hstar ▸ hnil)).trans ((if_pos hstar).trans ?_)
        exact congrArg (Option.map Json.array) eachElement_removal
      have hbranches : branches (trimSpace s) (.array xs) =
          (List.range xs.length).map fun index => (Nat.toDigits 10 index, .index index) :=
        (if_neg (hstar ▸ hnil)).trans (if_pos hstar)
      rw [hin, hat, hbranches, some_inj, Json.array.injEq, removals_eq_nil_iff]
      constructor
      · intro hle _ b hb i hi
        obtain ⟨j, hj, rfl⟩ := mem_map.mp hb
        have hlt := mem_range.mp hj
        cases hi
        omega
      · intro hall
        by_contra hgt
        have hmem : 1 ∈ List.range xs.length := mem_range.mpr (by omega)
        exact hall hstar _ (mem_map_of_mem hmem) 0 rfl
    | _ =>
      refine iff_of_true rfl fun _ b hb i hi => ?_
      rcases mem_branches hb with ⟨hkey, -⟩ | ⟨_, _, -, harray, -⟩
      · cases hkey.symm.trans hi
      · cases harray
  · exact iff_of_true (childrenInTurn_of_literal hstar node) fun h => absurd h hstar

/-- Removing in turn removes what everywhere at once does, when the last `*` meets no second element. -/
theorem removal_iff (hdistinct : Distinct node) :
    inTurn removal parts node = everyMatch removal parts node ↔ Single parts node := by
  induction parts, node using walks.induct with
  | case1 => exact iff_of_true rfl fun s hs => by cases hs
  | case2 s node => exact children_removal_iff s node
  | case3 s t rest node ih =>
    rw [inTurn, everyMatch]
    constructor
    · intro heq s' hs' hstar w hw b hb
      obtain ⟨b', hb', hmem⟩ := mem_flatMap.mp hw
      cases hc : child? b'.2 node with
      | none =>
        rw [hc] at hmem
        cases hmem
      | some c =>
        rw [hc] at hmem
        obtain ⟨w', hw', rfl⟩ := mem_map.mp hmem
        obtain ⟨d, hd⟩ := inTurn_removal c
        obtain ⟨_, hd'⟩ := everyMatch_total (e := removal) (fun _ => ⟨none, rfl⟩) (t :: rest) c
        obtain ⟨_, hresult⟩ := atChildren_total (below_total inTurn_removal) (trimSpace s) node
        have hchild := child?_atChildren (below_keeps _) hb' hresult hc (congrArg (Option.map some) hd)
        have hchild' := child?_atChildren (below_keeps _) hb' (heq ▸ hresult) hc (congrArg (Option.map some) hd')
        obtain rfl := mem_unique hchild hchild'
        refine (ih c (hdistinct.child hc)).mp (hd.trans hd'.symm) s' hs' hstar w' hw' b ?_
        cases w' with
        | nil => cases length_of_mem_walks hw'
        | cons => exact hb
    · intro hsingle
      refine atChildren_congr hdistinct fun b hb => ?_
      cases hc : child? b.2 node with
      | none => rfl
      | some c =>
        refine congrArg (Option.map some) ((ih c (hdistinct.child hc)).mpr fun s' hs' hstar w hw b' hb' => ?_)
        refine hsingle s' hs' hstar (b :: w) (walks_below hb hc hw) b' ?_
        cases w with
        | nil => cases hb'
        | cons => exact hb'

end Deletions

/-! ## Values that are set -/

section Values

variable {v : Json} {node node' : Json} {parts : List Text}

theorem follow_everyMatch (hne : parts ≠ []) (v : Json) :
    ∃ result, everyMatch (fun _ => some (some v)) parts node = some result ∧
      ∀ w ∈ walks parts node, follow (w.map Prod.snd) result = some v := by
  induction parts, node using walks.induct with
  | case1 => exact absurd rfl hne
  | case2 s node =>
    obtain ⟨result, hresult⟩ := atChildren_total (fun _ => ⟨some v, rfl⟩) (trimSpace s) node
    refine ⟨result, hresult, fun w hw => ?_⟩
    obtain ⟨b, hb, rfl⟩ := mem_map.mp hw
    have hchild := child?_atChildren (fun _ h => by cases h) hb hresult rfl rfl
    exact bind_eq_some_iff.mpr ⟨v, hchild, rfl⟩
  | case3 s t rest node ih =>
    have hbelow := below_total fun c => (ih c (cons_ne_nil t rest)).imp fun _ h => h.1
    obtain ⟨result, hresult⟩ := atChildren_total hbelow (trimSpace s) node
    refine ⟨result, hresult, fun w hw => ?_⟩
    obtain ⟨b, hb, hmem⟩ := mem_flatMap.mp hw
    cases hc : child? b.2 node with
    | none =>
      rw [hc] at hmem
      cases hmem
    | some c =>
      rw [hc] at hmem
      obtain ⟨w', hw', rfl⟩ := mem_map.mp hmem
      obtain ⟨d, hd, hfollow⟩ := ih c (cons_ne_nil t rest)
      have hchild := child?_atChildren (below_keeps _) hb hresult hc (congrArg (Option.map some) hd)
      exact bind_eq_some_iff.mpr ⟨d, hchild, hfollow w' hw'⟩

variable {xs : List Json}

theorem follow_array {path : List Text} {p : List Step} (h : set? v path node = some node')
    (hp : follow p node = some (.array xs)) (hlength : p.length < path.length) :
    ∃ ys, follow p node' = some (.array ys) := by
  induction p generalizing path node node' with
  | nil =>
    obtain rfl := some.inj hp
    cases path with
    | nil => cases hlength
    | cons s =>
      obtain ⟨c, -, hput⟩ := bind_eq_some_iff.mp h
      cases hs : step s (.array xs) with
      | key =>
        rw [hs] at hput
        cases hput
      | index =>
        rw [hs] at hput
        exact ⟨_, congrArg some (some.inj hput).symm⟩
  | cons t p ih =>
    cases path with
    | nil => cases hlength
    | cons s =>
      obtain ⟨c, hc, hput⟩ := bind_eq_some_iff.mp h
      obtain ⟨d, hd, hd'⟩ := bind_eq_some_iff.mp hp
      by_cases hst : step s node = t
      · subst hst
        rw [hd] at hc
        obtain ⟨ys, hys⟩ := ih hc hd' (Nat.lt_of_succ_lt_succ hlength)
        exact ⟨ys, bind_eq_some_iff.mpr ⟨c, child?_putChild_self hput, hys⟩⟩
      · exact ⟨xs, bind_eq_some_iff.mpr ⟨d, child?_putChild_of_ne hput hst hd, hd'⟩⟩

theorem set?_refused {u : List (Text × Step)} {s : Text} {rest : List Text}
    (hu : ∀ b ∈ u, b.2 = .key b.1 ∨ ∃ i, b.2 = .index i ∧ readIndex b.1 = some i) (hs : readIndex s = none)
    (h : follow (u.map Prod.snd) node = some (.array xs)) : set? v (texts u ++ s :: rest) node = none := by
  induction u generalizing node with
  | nil =>
    obtain rfl := some.inj h
    have hstep : step s (.array xs) = .key s := by simp only [step, hs]
    rw [texts, map_nil, nil_append, set?, hstep]
    cases set? v rest _ <;> rfl
  | cons b u ih =>
    obtain ⟨c, hc, hfollow⟩ := bind_eq_some_iff.mp h
    have hstep : step b.1 node = b.2 := by
      rcases hu b mem_cons_self with hkey | ⟨i, hindex, hread⟩
      · rw [hkey] at hc ⊢
        cases node with
        | object => rfl
        | _ => cases hc
      · rw [hindex] at hc ⊢
        cases node with
        | array => simp [step, hread]
        | _ => cases hc
    have hlater := ih (fun b' hb' => hu b' (mem_cons_of_mem b hb')) hfollow
    change set? v (b.1 :: (texts u ++ s :: rest)) node = none
    rw [set?, hstep, hc, getD_some, hlater]
    rfl

end Values

/-! ## Walks and their paths -/

section Paths

variable {node body : Json} {parts path : List Text} {w u rest : List (Text × Step)} {b : Text × Step}

theorem exists_branch (hw : w ∈ walks parts node) (h : w = u ++ b :: rest) :
    ∃ s ∈ parts, ∃ n, follow (u.map Prod.snd) node = some n ∧ b ∈ branches (trimSpace s) n := by
  induction parts, node using walks.induct generalizing w u with
  | case1 =>
    rw [mem_singleton.mp hw] at h
    cases u <;> cases h
  | case2 s node =>
    obtain ⟨b', hb', rfl⟩ := mem_map.mp hw
    cases u with
    | nil =>
      obtain ⟨rfl, -⟩ := cons.inj h
      exact ⟨s, mem_cons_self, node, rfl, hb'⟩
    | cons a u => cases u <;> cases (cons.inj h).2
  | case3 s t _ node ih =>
    obtain ⟨b', hb', hmem⟩ := mem_flatMap.mp hw
    cases hc : child? b'.2 node with
    | none =>
      rw [hc] at hmem
      cases hmem
    | some c =>
      rw [hc] at hmem
      obtain ⟨_, hw', rfl⟩ := mem_map.mp hmem
      cases u with
      | nil =>
        obtain ⟨rfl, -⟩ := cons.inj h
        exact ⟨s, mem_cons_self, node, rfl, hb'⟩
      | cons =>
        obtain ⟨rfl, heq⟩ := cons.inj h
        obtain ⟨s', hs', n, hfollow, hb⟩ := ih c hw' heq
        exact ⟨s', mem_cons_of_mem s hs', n, bind_eq_some_iff.mpr ⟨c, hc, hfollow⟩, hb⟩

theorem not_dot_trimSpace {s : Text} (h : '.' ∉ s) : '.' ∉ trimSpace s := fun hmem =>
  h ((dropWhile_sublist isSpace).subset ((List.rdropWhile_prefix isSpace (s.dropWhile isSpace)).subset hmem))

theorem not_dot_toDigits (i : Nat) : '.' ∉ Nat.toDigits 10 i :=
  fun hmem => absurd (isDigit_toDigits i _ hmem) (by decide)

variable {segment : Text}

/-- A dot comes from a name that a `*` has matched. -/
theorem child_of_dot (hsegment : '.' ∉ segment) (hb : b ∈ branches segment node) (hdot : '.' ∈ b.1) :
    b.2 = .key b.1 ∧ ∃ c, child? b.2 node = some c := by
  unfold branches at hb
  split_ifs at hb
  · cases hb
  · cases node with
    | object =>
      obtain ⟨k, hk, rfl⟩ := mem_map.mp hb
      exact ⟨rfl, _, child?_sortedKeys hk⟩
    | array =>
      obtain ⟨i, -, rfl⟩ := mem_map.mp hb
      exact absurd hdot (not_dot_toDigits i)
    | _ => cases hb
  · cases node with
    | object =>
      obtain rfl := mem_singleton.mp hb
      exact absurd hdot hsegment
    | array =>
      obtain ⟨i, -, rfl⟩ := mem_map.mp hb
      exact absurd hdot hsegment
    | _ => cases hb

theorem readIndex_of_branch {i : Nat} (hb : b ∈ branches segment node) (hi : b.2 = .index i) :
    readIndex b.1 = some i ∨ readIndex b.1 = none := by
  unfold branches at hb
  split_ifs at hb
  · cases hb
  · cases node with
    | object =>
      obtain ⟨k, -, rfl⟩ := mem_map.mp hb
      cases hi
    | array =>
      obtain ⟨j, -, rfl⟩ := mem_map.mp hb
      obtain rfl := Step.index.inj hi
      exact .inl (readIndex_toDigits j)
    | _ => cases hb
  · cases node with
    | object =>
      obtain rfl := mem_singleton.mp hb
      cases hi
    | array =>
      obtain ⟨j, hj, rfl⟩ := mem_map.mp hb
      obtain rfl := Step.index.inj hi
      cases hread : readIndex segment with
      | none => exact .inr rfl
      | some n =>
        have hatoi : atoi? segment = some (n : Int) := by
          unfold atoi?
          split
          · cases hread
          · cases hread
          · rw [hread]
            rfl
        have hindex := mem_toList.mp hj
        simp only [elementIndex?, hatoi] at hindex
        split_ifs at hindex
        exact .inl (congrArg some ((Int.toNat_natCast n).symm.trans (some.inj hindex)))
    | _ => cases hb

theorem length_le_segments (l : List Text) : l.length ≤ (segments (join l)).length := by
  induction l with
  | nil => exact Nat.zero_le _
  | cons s l =>
    cases l with
    | nil => exact length_pos_iff.mpr (segments_ne_nil _)
    | cons t l =>
      have hjoin : join (s :: t :: l) = s ++ '.' :: join (t :: l) := by
        rfl
      have hpos := length_pos_iff.mpr (segments_ne_nil s)
      rw [hjoin, segments, splitOn_append_cons_self, length_append, length_cons]
      change _ + 1 ≤ (segments s).length + (segments (join (t :: l))).length
      omega

end Paths

/-! ## What goes wrong elsewhere -/

section Failures

variable {node body : Json} {path : Text}

theorem foldlM_keeps {α β : Type} {f : β → α → Option β} {P : β → Prop} {l : List α} {b r : β}
    (hstep : ∀ a ∈ l, ∀ b b', P b → f b a = some b' → P b') (hb : P b) (h : l.foldlM f b = some r) :
    P r ∧ ∀ a ∈ l, ∃ b b', P b ∧ f b a = some b' := by
  induction l generalizing b with
  | nil => exact ⟨some.inj h ▸ hb, fun a ha => by cases ha⟩
  | cons a l ih =>
    obtain ⟨b', hb', hrest⟩ := bind_eq_some_iff.mp h
    obtain ⟨hr, hall⟩ := ih (fun a' ha' => hstep a' (mem_cons_of_mem a ha')) (hstep a mem_cons_self b b' hb hb') hrest
    refine ⟨hr, fun a' ha' => ?_⟩
    rcases mem_cons.mp ha' with rfl | ha'
    · exact ⟨b, b', hb, hb'⟩
    · exact hall a' ha'

variable {p : Text} {v : Json}

theorem mem_expand (hp : p ∈ expandWildcardPaths body path) :
    ∃ w ∈ walks (segments path) body, p = join (texts w) := by
  rw [expand_eq, mem_uniq] at hp
  obtain ⟨w, hw, heq⟩ := mem_map.mp hp
  exact ⟨w, hw, heq.symm⟩

/-- A value is set at every match. -/
def Sets (path : Text) (body : Json) (v : Json) : Prop :=
  (expandWildcardPaths body path).foldlM (fun n p => setBytes n p v) body =
    everyMatch (fun _ => some (some v)) (segments path) body

theorem set?_of_setBytes {node' : Json} (h : setBytes node p v = some node') :
    set? v (segments p) node = some node' := by
  unfold setBytes at h
  split_ifs at h
  exact h

theorem not_dot_of_sets (h : ∀ v, Sets path body v) : ∀ w ∈ walks (segments path) body, ∀ b ∈ w, '.' ∉ b.1 := by
  intro w hw b hb hdot
  obtain ⟨u, rest, hsplit⟩ := append_of_mem hb
  obtain ⟨s, hs, n, hfollow, hbranch⟩ := exists_branch hw hsplit
  obtain ⟨hkey, c, hc⟩ := child_of_dot (not_dot_trimSpace (not_dot_of_mem_segments hs)) hbranch hdot
  have hplace : follow (u.map Prod.snd ++ [b.2]) body = some c := by
    rw [follow_append, hfollow]
    exact bind_eq_some_iff.mpr ⟨n, rfl, bind_eq_some_iff.mpr ⟨c, hc, rfl⟩⟩
  have hlater : ∀ v, follow (rest.map Prod.snd) c = some v := by
    intro v
    obtain ⟨r, hr, hmatch⟩ := follow_everyMatch (segments_ne_nil path) v
    have hstays := (foldlM_keeps (P := fun n => follow (u.map Prod.snd ++ [b.2]) n = some c) ?_ hplace
      ((h v).trans hr)).1
    · have hvalue := hmatch w hw
      rw [hsplit, map_append, map_cons, append_cons, follow_append, hstays] at hvalue
      exact hvalue
    · intro p hp n n' hn hset
      obtain ⟨w', hw', rfl⟩ := mem_expand hp
      have habsent : b.2 ∉ place (segments (join (texts w'))) n := fun hmem =>
        not_dot_of_mem_segments (key_mem_place (hkey ▸ hmem)) hdot
      refine follow_set? (set?_of_setBytes hset) ⟨fun hinitial => ?_, fun hinitial => ?_⟩ hn
      · have hlength := length_le_segments (texts w')
        rw [texts, length_map, length_of_mem_walks hw', ← length_of_mem_walks hw, hsplit, length_append,
          length_cons] at hlength
        have heq := hinitial.eq_of_length_le (by
          rw [length_place, length_append, length_map, length_singleton]
          change _ ≤ (segments (join (w'.map Prod.fst))).length
          omega)
        exact habsent (heq ▸ mem_append_right _ mem_cons_self)
      · exact habsent (hinitial.subset (mem_append_right _ mem_cons_self))
  cases (hlater .null).symm.trans (hlater (.bool true))

theorem named_of_sets (h : Sets path body v) : ∀ w ∈ walks (segments path) body, join (texts w) ≠ [] := by
  intro w hw hnil
  obtain ⟨r, hr⟩ := everyMatch_total (fun x => ⟨some v, rfl⟩) (segments path) body
  have hmem : [] ∈ expandWildcardPaths body path := by
    rw [expand_eq, mem_uniq]
    exact hnil ▸ mem_map_of_mem hw
  obtain ⟨_, _, -, hset⟩ :=
    (foldlM_keeps (P := fun _ => True) (fun _ _ _ _ _ _ => trivial) trivial (h.trans hr)).2 [] hmem
  cases hset

/-- With a sign the element is not found again, and the array is no object to set a member of. -/
theorem readIndex_of_sets (h : Sets path body v) (hdots : ∀ w ∈ walks (segments path) body, ∀ b ∈ w, '.' ∉ b.1) :
    ∀ w ∈ walks (segments path) body, ∀ b ∈ w, ∀ i, b.2 = .index i → readIndex b.1 = some i := by
  intro w hw
  have hsegments : segments (join (texts w)) = texts w := segments_texts hw (segments_ne_nil path) (hdots w hw)
  have hfirst : ∀ n, ∀ u b rest, u.length = n → w = u ++ b :: rest → ∀ i, b.2 = .index i → readIndex b.1 = some i := by
    intro n
    induction n using Nat.strong_induction_on with
    | _ n ih =>
      intro u b rest hn hsplit i hi
      have hu : ∀ a ∈ u, a.2 = .key a.1 ∨ ∃ i, a.2 = .index i ∧ readIndex a.1 = some i := by
        intro a ha
        obtain ⟨u1, u2, rfl⟩ := append_of_mem ha
        rw [length_append, length_cons] at hn
        have hshorter : w = u1 ++ a :: (u2 ++ b :: rest) := by rw [hsplit, append_assoc, cons_append]
        obtain ⟨_, -, _, -, hbranch⟩ := exists_branch hw hshorter
        rcases mem_branches hbranch with ⟨hkey, -⟩ | ⟨j, _, hj, -⟩
        · exact .inl hkey
        · exact .inr ⟨j, hj, ih u1.length (by omega) u1 a _ rfl hshorter j hj⟩
      obtain ⟨s, -, _, hfollow, hbranch⟩ := exists_branch hw hsplit
      refine (readIndex_of_branch hbranch hi).resolve_right fun hnone => ?_
      have harray : ∃ xs, follow (u.map Prod.snd) body = some (.array xs) := by
        rcases mem_branches hbranch with ⟨hkey, -⟩ | ⟨_, xs, -, rfl, -⟩
        · cases hkey.symm.trans hi
        · exact ⟨xs, hfollow⟩
      obtain ⟨r, hr, -⟩ := follow_everyMatch (segments_ne_nil path) v
      have hall := (foldlM_keeps (P := fun n => ∃ xs, follow (u.map Prod.snd) n = some (.array xs)) ?_ harray
        (h.trans hr)).2
      · have hmem : join (texts w) ∈ expandWildcardPaths body path := by
          rw [expand_eq, mem_uniq]
          exact mem_map_of_mem hw
        obtain ⟨n', n'', ⟨xs, hxs⟩, hset⟩ := hall _ hmem
        have hset := set?_of_setBytes hset
        rw [hsegments, hsplit, texts, map_append, map_cons] at hset
        cases hset.symm.trans (set?_refused hu hnone hxs)
      · rintro p hp n' n'' ⟨xs, hxs⟩ hset
        obtain ⟨w', hw', rfl⟩ := mem_expand hp
        refine follow_array (set?_of_setBytes hset) hxs ?_
        have hlength := length_le_segments (texts w')
        rw [texts, length_map, length_of_mem_walks hw', ← length_of_mem_walks hw, hsplit, length_append,
          length_cons] at hlength
        rw [length_map]
        change _ < (segments (join (w'.map Prod.fst))).length
        omega
  intro b hb
  obtain ⟨u, rest, hsplit⟩ := append_of_mem hb
  exact hfirst u.length u b rest rfl hsplit

theorem isSpace_of_trimSpace {s : Text} (h : trimSpace s = []) : ∀ c ∈ s, isSpace c = true := by
  have hall := rdropWhile_eq_nil_iff.mp h
  have hnil : s.dropWhile isSpace = [] := by
    cases hs : s.dropWhile isSpace with
    | nil => rfl
    | cons c =>
      have hhead := head?_dropWhile_not isSpace s
      rw [hs] at hhead hall
      have hnot : isSpace c = false := hhead
      cases (hall c mem_cons_self).symm.trans hnot
  exact dropWhile_eq_nil_iff.mp hnil

theorem delete_keeps_member {k : Text} {p : List Text} {ms : List (Text × Json)} (hk : lookup k ms ≠ none)
    (hp : p ≠ [k]) : ∃ ms', delete p (.object ms) = .object ms' ∧ lookup k ms' ≠ none := by
  cases p with
  | nil => exact ⟨ms, rfl, hk⟩
  | cons s p =>
    cases p with
    | nil =>
      have hne : s ≠ k := fun heq => hp (heq ▸ rfl)
      exact ⟨erase s ms, rfl, by rwa [lookup_erase_of_ne hne]⟩
    | cons t p =>
      cases hc : child? (step s (.object ms)) (.object ms) with
      | none =>
        rw [delete, hc]
        exact ⟨ms, rfl, hk⟩
      | some c =>
        have hput := delete_cons_of_child? t p hc
        refine ⟨assign s (delete (t :: p) c) ms, (some.inj hput).symm, ?_⟩
        rw [lookup_assign]
        split_ifs
        · exact some_ne_none _
        · exact hk

theorem visible_of_removes (h : (expandWildcardPaths body path).foldlM deleteValue body =
    everyMatch removal (segments path) body) : ∀ w ∈ walks (segments path) body, trimSpace (join (texts w)) ≠ [] := by
  intro w hw hblank
  have hspaces := isSpace_of_trimSpace hblank
  cases hparts : segments path with
  | nil => exact segments_ne_nil path hparts
  | cons s rest =>
    cases rest with
    | cons =>
      have hlength := length_of_mem_walks hw
      rw [hparts] at hlength
      have hdot : '.' ∈ join (texts w) := by
        obtain _ | ⟨a, _ | ⟨b, w⟩⟩ := w
        · cases hlength
        · cases hlength
        · rw [texts, map_cons, map_cons, join, intercalate_cons_cons]
          simp
      exact absurd (hspaces _ hdot) (by decide)
    | nil =>
      rw [hparts] at hw h
      obtain ⟨b, hb, rfl⟩ := mem_map.mp hw
      have hname : join (texts [b]) = b.1 := intercalate_singleton
      rw [hname] at hblank hspaces
      unfold branches at hb
      split_ifs at hb with hnil hstar
      · cases hb
      · cases body with
        | object ms =>
          obtain ⟨k, hk, rfl⟩ := mem_map.mp hb
          have hlookup : lookup k ms ≠ none := by
            rw [show lookup k ms = some _ from child?_sortedKeys hk]
            exact some_ne_none _
          have heach : ∀ ms, eachMember removal ms = some [] := by
            intro ms
            induction ms with
            | nil => rfl
            | cons m _ ih => rw [eachMember, removal, ih]; rfl
          have hall : everyMatch removal [s] (.object ms) = some (.object []) :=
            (if_neg hnil).trans ((if_pos hstar).trans (congrArg (Option.map Json.object) (heach ms)))
          have hkeeps := (foldlM_keeps (P := fun n => ∃ ms', n = .object ms' ∧ lookup k ms' ≠ none) ?_
            ⟨ms, rfl, hlookup⟩ (h.trans hall)).1
          · obtain ⟨ms', hms', hstays⟩ := hkeeps
            obtain rfl := Json.object.inj hms'
            exact hstays rfl
          · rintro p - _ n' ⟨ms', rfl, hstays⟩ hdelete
            unfold deleteValue at hdelete
            split_ifs at hdelete with hp
            · exact ⟨ms', (some.inj hdelete).symm, hstays⟩
            · unfold deleteBytes at hdelete
              split_ifs at hdelete
              obtain ⟨ms'', hms'', hstays'⟩ := delete_keeps_member (p := segments p) hstays fun heq => hp (by
                have hjoin := join_segments p
                rw [heq] at hjoin
                rw [← hjoin]
                exact (congrArg trimSpace intercalate_singleton).trans hblank)
              exact ⟨ms'', (some.inj hdelete).symm.trans hms'', hstays'⟩
        | array =>
          obtain ⟨i, -, rfl⟩ := mem_map.mp hb
          obtain ⟨c, hc⟩ := exists_mem_of_ne_nil (Nat.toDigits 10 i) Nat.toDigits_ne_nil
          have hdigit := isDigit_toDigits i c hc
          have hspace := hspaces c hc
          rw [Char.isDigit_iff_toNat] at hdigit
          have hzero : '0'.toNat = 48 := rfl
          have hnine : '9'.toNat = 57 := rfl
          simp only [isSpace, decide_eq_true_eq] at hspace
          omega
        | _ => cases hb
      · have hliteral : b.1 = trimSpace s := by
          cases body with
          | object => exact congrArg Prod.fst (mem_singleton.mp hb)
          | array =>
            obtain ⟨i, -, rfl⟩ := mem_map.mp hb
            rfl
          | _ => cases hb
        rw [hliteral, trimSpace_trimSpace] at hblank
        exact hnil hblank

end Failures

/-! ## The operation -/

theorem star_replaceIndex {result negIndex : Text} (h : IsNegative negIndex) (hstar : '*' ∈ result) :
    '*' ∈ replaceIndex body path result negIndex := by
  rw [replaceIndex_eq]
  split
  · split_ifs
    · by_cases hinside : '.' :: negIndex <:+: result
      · obtain ⟨d, rfl, -, hd⟩ := h.shape
        have habsent : ('.' :: '-' :: d).count '*' = 0 := by
          have hdigits : '*' ∉ d := fun hmem => absurd (hd _ hmem) (by decide)
          rw [count_eq_zero]
          simp [hdigits]
        have hcount := fun new => count_replaceFirst hinside (cons_ne_nil _ _) new '*'
        rw [habsent] at hcount
        rw [← count_pos_iff] at hstar ⊢
        rw [← Nat.add_zero (List.count _ _), hcount]
        omega
      · rwa [replaceFirst_of_absent hinside]
    · exact hstar
  · exact hstar

theorem star_processNegativeIndex (hstar : '*' ∈ path) : '*' ∈ processNegativeIndex body path := by
  have hall : ∀ (l : List Text) (result : Text), (∀ negIndex ∈ l, IsNegative negIndex) → '*' ∈ result →
      '*' ∈ l.foldl (replaceIndex body path) result := by
    intro l
    induction l with
    | nil => exact fun _ _ h => h
    | cons a l ih =>
      intro result hneg hresult
      exact ih _ (fun x hx => hneg x (mem_cons_of_mem a hx)) (star_replaceIndex (hneg a mem_cons_self) hresult)
  exact hall _ path (fun _ h => (infix_of_mem_negativeNumbers h).1) hstar

section Operation

variable {kit : Kit} {op : ParamOperation}

theorem stringEffect_keeps {f : Text → Option Text} {c : Json} : stringEffect f (some c) ≠ some none := by
  cases c with
  | string =>
    intro h
    obtain ⟨t, -, ht⟩ := map_eq_some_iff.mp h
    cases ht
  | _ => exact fun h => by cases h

theorem effect_keeps (h : op.mode ≠ .delete) (c : Json) : effect kit op (some c) ≠ some none := by
  unfold effect
  cases hmode : op.mode with
  | delete => exact absurd hmode h
  | set => exact fun hset => by cases hset
  | _ => exact stringEffect_keeps

theorem effect_of_delete (h : op.mode = .delete) : effect kit op = removal := by
  unfold effect
  rw [h]
  rfl

/-- An operation at a wildcard path touches the matches, whatever it does, exactly when the paths lead to them; one
that may delete, exactly when no deletion is in the way of another. -/
theorem wildcard_exact_iff (kit : Kit) (body : Document) {path : Text} (hstar : '*' ∈ path) :
    let parts := segments (processNegativeIndex body.root path)
    let Exact (op : ParamOperation) := applyOperation kit op body.root = everyMatch (effect kit op) parts body.root
    ((∀ op : ParamOperation, op.path = path → op.mode ≠ .delete → Exact op) ↔ Named parts body.root) ∧
      ((∀ op : ParamOperation, op.path = path → Exact op) ↔ Direct parts body.root) := by
  intro parts Exact
  have hresolve : ∀ op : ParamOperation, op.path = path → applyOperation kit op body.root =
      (expandWildcardPaths body.root (processNegativeIndex body.root path)).foldlM (applyAt kit op) body.root := by
    rintro op rfl
    rw [applyOperation, resolveOperationPaths, if_neg (not_not_intro (star_processNegativeIndex hstar))]
  have hkept : (∀ op : ParamOperation, op.path = path → op.mode ≠ .delete → Exact op) ↔ Named parts body.root := by
    constructor
    · intro h
      have hsets : ∀ v, Sets (processNegativeIndex body.root path) body.root v := fun v =>
        (hresolve ⟨path, .set, v, false, [], []⟩ rfl).symm.trans (h _ rfl fun hmode => by cases hmode)
      have hdots := not_dot_of_sets hsets
      exact fun w hw => ⟨fun b hb => ⟨hdots w hw b hb, readIndex_of_sets (hsets .null) hdots w hw b hb⟩,
        named_of_sets (hsets .null) w hw⟩
    · intro hnamed op hop hmode
      show applyOperation kit op body.root = _
      rw [hresolve op hop, foldlM_expand body.distinct hnamed fun h => absurd h hmode]
      exact inTurn_of_keeps (effect_keeps hmode) body.root
  refine ⟨hkept, fun h => ?_, fun hdirect op hop => ?_⟩
  · have hnamed := hkept.mp fun op hop _ => h op hop
    have hremoves := (hresolve ⟨path, .delete, .null, false, [], []⟩ rfl).symm.trans (h _ rfl)
    have hvisible := visible_of_removes hremoves
    refine ⟨fun w hw => (hnamed w hw).1, hvisible, (removal_iff body.distinct).mp ?_⟩
    exact (foldlM_expand body.distinct hnamed fun _ => hvisible).symm.trans hremoves
  · have hnamed : Named parts body.root := fun w hw =>
      ⟨hdirect.plain w hw, fun hnil => hdirect.visible w hw (by rw [hnil]; rfl)⟩
    by_cases hmode : op.mode = .delete
    · show applyOperation kit op body.root = _
      rw [hresolve op hop, foldlM_expand body.distinct hnamed fun _ => hdirect.visible, effect_of_delete hmode]
      exact (removal_iff body.distinct).mpr hdirect.single
    · exact hkept.mpr hnamed op hop hmode

end Operation

def twoTags : Document where
  root := .object [(text "tags", .array [.string (text "x"), .string (text "y")])]
  distinct := .object (nodup_singleton _) (forall_mem_singleton.mpr (.array fun x hx => by
    rcases mem_cons.mp hx with rfl | hx
    · exact .string _
    · exact mem_singleton.mp hx ▸ .string _))

/-- Some operation fails at two elements. -/
theorem tags_not_direct : ¬∀ op : ParamOperation, op.path = text "tags.*" → applyOperation sprintKit op twoTags.root =
      everyMatch (effect sprintKit op) (segments (processNegativeIndex twoTags.root (text "tags.*"))) twoTags.root := by
  intro hall
  have h := (wildcard_exact_iff sprintKit twoTags (by decide)).2.mp hall
  exact h.single (text "*") rfl rfl [(text "tags", .key (text "tags")), (text "1", .index 1)] (by decide) _ rfl 0 rfl

/-- To delete all tags is to delete the first one. -/
theorem second_tag_stays :
    let op : ParamOperation := ⟨text "tags.*", .delete, .null, false, [], []⟩
    applyOperation sprintKit op twoTags.root = some (.object [(text "tags", .array [.string (text "y")])]) ∧
      everyMatch (effect sprintKit op) (segments op.path) twoTags.root = some (.object [(text "tags", .array [])]) :=
  ⟨rfl, rfl⟩

end CubeRouter.Override
