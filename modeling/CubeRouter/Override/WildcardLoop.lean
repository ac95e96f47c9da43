import CubeRouter.Override.Wildcard

/-!
# The loop over wildcard paths

`walks` are the matches with the step that each text was meant as, and `modifyAt` is an operation at one of their paths.
When every text is read as its step (`Plain`), the loop over the paths is a walk over the children in turn
(`loop_eq`). It differs from `everyMatch` only where a last `*` removes elements: each removal moves the later ones
up.
-/

namespace CubeRouter.Override

open Strings JsonTree
open List hiding lookup

/-- The children that one segment names, with the text for each. -/
def branches (segment : Text) (node : Json) : List (Text × Step) :=
  if segment = [] then []
  else if segment = wildcard then
    match node with
    | .object ms => (sortedKeys ms).map fun key => (key, .key key)
    | .array xs => (List.range xs.length).map fun index => (Nat.toDigits 10 index, .index index)
    | _ => []
  else
    match node with
    | .object _ => [(segment, .key segment)]
    | .array xs => (elementIndex? segment xs.length).toList.map fun index => (segment, .index index)
    | _ => []

def walks : List Text → Json → List (List (Text × Step))
  | [], _ => [[]]
  | [s], node => (branches (trimSpace s) node).map fun b => [b]
  | s :: t :: rest, node => (branches (trimSpace s) node).flatMap fun b =>
    match child? b.2 node with
    | some c => (walks (t :: rest) c).map (b :: ·)
    | none => []

def texts (w : List (Text × Step)) : List Text := w.map Prod.fst

def Plain (w : List (Text × Step)) : Prop := ∀ b ∈ w, '.' ∉ b.1 ∧ ∀ i, b.2 = .index i → readIndex b.1 = some i

def modifyAt (e : Effect) (path : List Text) (node : Json) : Option Json :=
  e (get? path node) >>= fun
    | some c => set? c path node
    | none => some (delete path node)

def loop (e : Effect) (parts : List Text) (node : Json) : Option Json :=
  (walks parts node).foldlM (fun n w => modifyAt e (texts w) n) node

def updateChild (e : Effect) (s : Step) (node : Json) : Option Json :=
  e (child? s node) >>= fun
    | some c => putChild c s node
    | none => some (removeChild s node)

/-- The loop at the children: elements are looked up where the earlier removals have moved them. -/
def childrenInTurn (e : Effect) (segment : Text) (node : Json) : Option Json :=
  match node with
  | .array xs =>
    if segment = wildcard then ((List.range xs.length).foldlM (fun ys i => updateElement e i ys) xs).map .array
    else atChildren e segment (.array xs)
  | _ => atChildren e segment node

def inTurn (e : Effect) : List Text → Json → Option Json
  | [], node => some node
  | [s], node => childrenInTurn e (trimSpace s) node
  | s :: t :: rest, node => atChildren (below (inTurn e (t :: rest))) (trimSpace s) node

/-! ## Paths of walks -/

section Walks

variable {node : Json} {b : Text × Step} {segment : Text} {i : Nat}

theorem elementIndex?_lt {n : Nat} (h : elementIndex? segment n = some i) : i < n := by
  unfold elementIndex? at h
  split at h
  · split_ifs at h with hrange
    obtain rfl := Option.some.inj h
    omega
  · cases h

theorem mem_branches (h : b ∈ branches segment node) : (b.2 = .key b.1 ∧ ∃ ms, node = .object ms) ∨
    ∃ i xs, b.2 = .index i ∧ node = .array xs ∧ i < xs.length := by
  unfold branches at h
  split_ifs at h
  · cases h
  · cases node with
    | object ms =>
      obtain ⟨k, -, rfl⟩ := mem_map.mp h
      exact .inl ⟨rfl, ms, rfl⟩
    | array xs =>
      obtain ⟨i, hi, rfl⟩ := mem_map.mp h
      exact .inr ⟨i, xs, rfl, rfl, mem_range.mp hi⟩
    | _ => cases h
  · cases node with
    | object ms =>
      obtain rfl := mem_singleton.mp h
      exact .inl ⟨rfl, ms, rfl⟩
    | array xs =>
      obtain ⟨i, hi, rfl⟩ := mem_map.mp h
      exact .inr ⟨i, xs, rfl, rfl, elementIndex?_lt (Option.mem_toList.mp hi)⟩
    | _ => cases h

theorem step_of_branch (h : b ∈ branches segment node) (hplain : ∀ i, b.2 = .index i → readIndex b.1 = some i) :
    step b.1 node = b.2 := by
  rcases mem_branches h with ⟨hkey, _, rfl⟩ | ⟨i, _, hindex, rfl, -⟩
  · exact hkey.symm
  · simp [step, hplain i hindex, hindex]

/-- The children differ in what differs for two names and for two positions. -/
theorem nodup_branches_map {β : Type} (f : Text × Step → β) (hkey : ∀ a b, f (a, .key a) = f (b, .key b) → a = b)
    (hindex : ∀ i j, f (Nat.toDigits 10 i, .index i) = f (Nat.toDigits 10 j, .index j) → i = j) (h : Distinct node)
    (segment : Text) : ((branches segment node).map f).Nodup := by
  unfold branches
  split_ifs
  · exact nodup_nil
  · cases h with
    | object hkeys _ =>
      rw [map_map]
      exact ((perm_insertionSort _ _).nodup_iff.mpr hkeys).map hkey
    | array =>
      rw [map_map]
      exact nodup_range.map hindex
    | _ => exact nodup_nil
  · cases node with
    | object => exact nodup_singleton _
    | array xs =>
      dsimp only
      cases elementIndex? segment xs.length with
      | none => exact nodup_nil
      | some => exact nodup_singleton _
    | _ => exact nodup_nil

theorem nodup_branches (h : Distinct node) (segment : Text) : ((branches segment node).map Prod.snd).Nodup :=
  nodup_branches_map Prod.snd (fun _ _ heq => Step.key.inj heq) (fun _ _ heq => Step.index.inj heq) h segment

theorem length_of_mem_walks {parts : List Text} {w : List (Text × Step)} (h : w ∈ walks parts node) :
    w.length = parts.length := by
  induction parts, node using walks.induct generalizing w with
  | case1 =>
    rw [mem_singleton.mp h]
    rfl
  | case2 =>
    obtain ⟨b, -, rfl⟩ := mem_map.mp h
    rfl
  | case3 s t _ _ ih =>
    obtain ⟨b, -, hw⟩ := mem_flatMap.mp h
    split at hw
    · obtain ⟨_, hw', rfl⟩ := mem_map.mp hw
      exact congrArg Nat.succ (ih _ hw')
    · cases hw

theorem child?_sortedKeys {ms : List (Text × Json)} {key : Text} (h : key ∈ sortedKeys ms) :
    child? (.key key) (.object ms) = some ((lookup key ms).getD .null) := by
  have hmem : key ∈ ms.map Prod.fst := (perm_insertionSort _ _).mem_iff.mp h
  cases hlookup : lookup key ms with
  | none => exact absurd hmem (lookup_eq_none_iff.mp hlookup)
  | some => exact hlookup

theorem child?_range {xs : List Json} (h : i < xs.length) :
    child? (.index i) (.array xs) = some (xs.getD i .null) := by
  rw [child?, getD_eq_getElem?_getD, getElem?_eq_getElem h, Option.getD_some]

theorem collect_last (s : Text) (node : Json) (pre : List Text) :
    collectWildcardPaths [s] node pre = (branches (trimSpace s) node).map fun b => join (pre ++ [b.1]) := by
  unfold branches
  rw [collectWildcardPaths.eq_def]
  dsimp only
  split_ifs with hnil hstar hlast
  · rfl
  · cases node with
    | object | array =>
      rw [map_map, map_eq_flatMap]
      rfl
    | _ => rfl
  · cases node with
    | object => rfl
    | array xs =>
      dsimp only
      cases elementIndex? (trimSpace s) xs.length <;> rfl
    | _ => rfl
  · exact absurd rfl hlast

theorem collect_cons (s t : Text) (rest : List Text) (node : Json) (pre : List Text) :
    collectWildcardPaths (s :: t :: rest) node pre = (branches (trimSpace s) node).flatMap fun b =>
      match child? b.2 node with
      | some c => collectWildcardPaths (t :: rest) c (pre ++ [b.1]) | none => [] := by
  unfold branches
  rw [collectWildcardPaths.eq_def]
  dsimp only
  split_ifs with hnil hstar hlast
  · rfl
  · cases node with
    | object =>
      rw [flatMap_map]
      refine flatMap_congr fun key hkey => ?_
      rw [child?_sortedKeys hkey]
    | array =>
      rw [flatMap_map]
      refine flatMap_congr fun i hi => ?_
      rw [child?_range (mem_range.mp hi)]
    | _ => rfl
  · cases hlast
  · cases node with
    | object =>
      rw [flatMap_singleton]
      rfl
    | array xs =>
      dsimp only
      cases hindex : elementIndex? (trimSpace s) xs.length with
      | none => rfl
      | some => simp [child?_range (elementIndex?_lt hindex)]
    | _ => rfl

theorem collect_eq (parts : List Text) (node : Json) (pre : List Text) :
    collectWildcardPaths parts node pre = (walks parts node).map fun w => join (pre ++ texts w) := by
  induction parts, node using walks.induct generalizing pre with
  | case1 => exact congrArg (fun l => [join l]) (append_nil pre).symm
  | case2 =>
    rw [collect_last, walks, map_map]
    rfl
  | case3 s t _ node ih =>
    rw [collect_cons, walks, map_flatMap]
    refine flatMap_congr fun b _ => ?_
    cases child? b.2 node with
    | none => rfl
    | some =>
      dsimp only
      rw [ih, map_map]
      refine map_congr_left fun w _ => ?_
      rw [append_assoc]
      rfl

end Walks

/-! ## Child by child -/

section Loop

variable {e : Effect} {node n : Json} {s t : Text}

theorem modifyAt_last (e : Effect) (s : Text) (node : Json) :
    modifyAt e [s] node = updateChild e (step s node) node := by
  have hget : get? [s] node = child? (step s node) node := by
    rw [get?]
    cases child? (step s node) node <;> rfl
  rw [modifyAt, updateChild, hget]
  refine bind_congr fun r => ?_
  cases r <;> rfl

variable {c : Json} {ks : List Text} {ms : List (Text × Json)} {k : Text}

theorem modifyAt_cons (h : child? (step s node) node = some c) (e : Effect) (t : Text) (path : List Text) :
    modifyAt e (s :: t :: path) node = modifyAt e (t :: path) c >>= fun d => putChild d (step s node) node := by
  have hget : get? (s :: t :: path) node = get? (t :: path) c := by
    rw [get?, h]
    rfl
  rw [modifyAt, modifyAt, hget, bind_assoc]
  refine bind_congr fun r => ?_
  cases r with
  | none => exact (delete_cons_of_child? t path h).symm
  | some d =>
    change set? d (s :: t :: path) node = set? d (t :: path) c >>= _
    rw [set?, h]
    rfl

variable {b : Text × Step} {bs : List (Text × Step)} {rest parts : List Text} {segment : Text}

theorem foldlM_below {ws : List (List (Text × Step))} (hws : ∀ w ∈ ws, w ≠ [])
    (hstep : step b.1 n = b.2) (hc : child? b.2 n = some c) (e : Effect) :
    (ws.map (b :: ·)).foldlM (fun n w => modifyAt e (texts w) n) n =
      ws.foldlM (fun n w => modifyAt e (texts w) n) c >>= fun d => putChild d b.2 n := by
  induction ws generalizing n c with
  | nil => exact (putChild_self hc).symm
  | cons w ws ih =>
    obtain ⟨b', w, rfl⟩ := exists_cons_of_ne_nil (hws w mem_cons_self)
    have hfirst : modifyAt e (texts (b :: b' :: w)) n = modifyAt e (texts (b' :: w)) c >>= fun d =>
      putChild d b.2 n := by
      have hcons := modifyAt_cons (hstep ▸ hc) e b'.1 (texts w)
      rw [hstep] at hcons
      exact hcons
    rw [map_cons, foldlM_cons, foldlM_cons, hfirst, bind_assoc, bind_assoc]
    refine bind_congr fun d => ?_
    obtain ⟨n', hn'⟩ := putChild_of_child? (v := d) hc
    rw [hn']
    change (ws.map (b :: ·)).foldlM (fun n w => modifyAt e (texts w) n) n' = _
    have hfound := child?_putChild_self hn'
    rw [ih (fun w hw => hws w (mem_cons_of_mem _ hw)) ((step_putChild hn' hc b.1).trans hstep) hfound]
    exact bind_congr fun d' => putChild_putChild hn' hc d'

theorem updateChild_below {s : Step} (f : Json → Option Json) (node : Json) : updateChild (below f) s node =
    match child? s node with
    | some c => f c >>= fun d => putChild d s node | none => some node := by
  unfold updateChild
  cases h : child? s node with
  | none =>
    change some (removeChild s node) = some node
    rw [removeChild_of_none h]
  | some c =>
    dsimp only [below]
    cases f c <;> rfl

/-- The walks through several children are run child by child. -/
theorem foldlM_branches (hne : rest ≠ []) (f : Json → Option Json)
    (hf : ∀ b ∈ bs, ∀ c, child? b.2 node = some c → loop e rest c = f c)
    (hsteps : ∀ b ∈ bs, ∀ c, child? b.2 node = some c → walks rest c ≠ [] → step b.1 n = b.2)
    (hdistinct : (bs.map Prod.snd).Nodup) (hsame : ∀ b ∈ bs, child? b.2 n = child? b.2 node) :
    (bs.flatMap fun b => match child? b.2 node with
      | some c => (walks rest c).map (b :: ·) | none => []).foldlM (fun n w => modifyAt e (texts w) n) n =
      bs.foldlM (fun n b => updateChild (below f) b.2 n) n := by
  induction bs generalizing n with
  | nil => rfl
  | cons b bs ih =>
    rw [map_cons, nodup_cons] at hdistinct
    have hfrest : ∀ b' ∈ bs, ∀ c, child? b'.2 node = some c → loop e rest c = f c :=
      fun b' hb' => hf b' (mem_cons_of_mem b hb')
    have hrest : ∀ b' ∈ bs, ∀ c, child? b'.2 node = some c → walks rest c ≠ [] → step b'.1 n = b'.2 :=
      fun b' hb' => hsteps b' (mem_cons_of_mem b hb')
    rw [flatMap_cons, foldlM_append, foldlM_cons, updateChild_below, hsame b mem_cons_self]
    cases hc : child? b.2 node with
    | none =>
      exact ih hfrest hrest hdistinct.2 fun b' hb' => hsame b' (mem_cons_of_mem b hb')
    | some c =>
      have hchild : child? b.2 n = some c := (hsame b mem_cons_self).trans hc
      have hblock : ((walks rest c).map (b :: ·)).foldlM (fun n w => modifyAt e (texts w) n) n =
          f c >>= fun d => putChild d b.2 n := by
        rw [← hf b mem_cons_self c hc]
        by_cases hwalks : walks rest c = []
        · rw [loop, hwalks]
          exact (putChild_self hchild).symm
        · have hws : ∀ w ∈ walks rest c, w ≠ [] := by
            rintro w hw rfl
            exact hne (eq_nil_of_length_eq_zero (length_of_mem_walks hw).symm)
          exact foldlM_below hws (hsteps b mem_cons_self c hc hwalks) hchild e
      rw [hblock, bind_assoc, bind_assoc]
      refine bind_congr fun d => ?_
      obtain ⟨_, hn'⟩ := putChild_of_child? (v := d) hchild
      rw [hn']
      refine ih hfrest (fun b' hb' c' hc' hw' => (step_putChild hn' hchild b'.1).trans (hrest b' hb' c' hc' hw'))
        hdistinct.2 fun b' hb' => ?_
      have hother : b.2 ≠ b'.2 := fun heq => hdistinct.1 (heq ▸ mem_map_of_mem hb')
      rw [child?_putChild_congr hn' hchild hother, hsame b' (mem_cons_of_mem b hb')]

theorem foldlM_last (hcontainer : (∃ ms, n = .object ms) ∨ ∃ xs, n = .array xs)
    (hsteps : ∀ b ∈ bs, step b.1 n = b.2) (e : Effect) :
    bs.foldlM (fun n b => modifyAt e [b.1] n) n = bs.foldlM (fun n b => updateChild e b.2 n) n := by
  induction bs generalizing n with
  | nil => rfl
  | cons b _ ih =>
    rw [foldlM_cons, foldlM_cons, modifyAt_last, hsteps b mem_cons_self]
    cases hupdate : updateChild e b.2 n with
    | none => rfl
    | some n' =>
      have hkind : ((∃ ms, n' = .object ms) ∨ ∃ xs, n' = .array xs) ∧ ∀ u, step u n' = step u n := by
        obtain ⟨r, -, hr⟩ := Option.bind_eq_some_iff.mp hupdate
        rcases hcontainer with ⟨_, rfl⟩ | ⟨_, rfl⟩
        · cases r <;> cases hb : b.2 <;> rw [hb] at hr <;> cases hr <;> exact ⟨.inl ⟨_, rfl⟩, fun _ => rfl⟩
        · cases r <;> cases hb : b.2 <;> rw [hb] at hr <;> cases hr <;> exact ⟨.inr ⟨_, rfl⟩, fun _ => rfl⟩
      exact ih hkind.1 fun b' hb' => (hkind.2 b'.1).trans (hsteps b' (mem_cons_of_mem b hb'))

/-- Only the members of these names. -/
def membersOf (e : Effect) (ks : List Text) : List (Text × Json) → Option (List (Text × Json))
  | [] => some []
  | m :: ms => (if m.1 ∈ ks then e (some m.2) else some (some m.2)) >>= fun r =>
    (membersOf e ks ms).map fun ms' => (r.map (m.1, ·)).toList ++ ms'

theorem membersOf_all (h : ∀ m ∈ ms, m.1 ∈ ks) : membersOf e ks ms = eachMember e ms := by
  induction ms with
  | nil => rfl
  | cons m _ ih =>
    rw [membersOf, eachMember, if_pos (h m mem_cons_self), ih fun m' hm' => h m' (mem_cons_of_mem m hm')]

theorem membersOf_nil : membersOf e [] ms = some ms := by
  induction ms with
  | nil => rfl
  | cons m _ ih =>
    rw [membersOf, if_neg not_mem_nil, ih]
    rfl

theorem membersOf_cons_of_absent (h : k ∉ ms.map Prod.fst) : membersOf e (k :: ks) ms = membersOf e ks ms := by
  induction ms with
  | nil => rfl
  | cons m _ ih =>
    rw [map_cons, mem_cons, not_or] at h
    have hiff : m.1 ∈ k :: ks ↔ m.1 ∈ ks := by simp [Ne.symm h.1]
    rw [membersOf, membersOf, ih h.2]
    simp [hiff]

theorem updateMember_membersOf (hk : k ∉ ks) (hkeys : (ms.map Prod.fst).Nodup) (hmem : k ∈ ms.map Prod.fst) :
    updateMember e k ms >>= membersOf e ks = membersOf e (k :: ks) ms := by
  induction ms with
  | nil => cases hmem
  | cons m ms ih =>
    rw [map_cons, nodup_cons] at hkeys
    by_cases hm : m.1 = k
    · have habsent : k ∉ ms.map Prod.fst := hm ▸ hkeys.1
      have hlookup : lookup k (m :: ms) = some m.2 := if_pos hm
      have herase : erase k (m :: ms) = ms := if_pos hm
      rw [updateMember, hlookup, membersOf, if_pos (hm ▸ mem_cons_self), membersOf_cons_of_absent habsent]
      cases he : e (some m.2) with
      | none => rfl
      | some r =>
        cases r with
        | none =>
          change membersOf e ks (erase k (m :: ms)) = _
          rw [herase]
          exact Option.map_id'.symm
        | some c =>
          have hassign : assign k c (m :: ms) = (k, c) :: ms := if_pos hm
          change membersOf e ks (assign k c (m :: ms)) = _
          rw [hassign, membersOf, if_neg hk, hm]
    · have hrest : k ∈ ms.map Prod.fst := (mem_cons.mp hmem).resolve_left (Ne.symm hm)
      have hiff : m.1 ∈ k :: ks ↔ m.1 ∈ ks := by simp [hm]
      have hcons : updateMember e k (m :: ms) = (updateMember e k ms).map (m :: ·) := by
        have hlookup : lookup k (m :: ms) = lookup k ms := if_neg hm
        rw [updateMember, updateMember, hlookup, Option.map_map]
        congr 1
        funext r
        cases r with
        | none => exact if_neg hm
        | some => exact if_neg hm
      rw [hcons, membersOf, ← ih hkeys.2 hrest]
      simp only [hiff]
      cases updateMember e k ms with
      | none => cases (if m.1 ∈ ks then e (some m.2) else some (some m.2)) <;> rfl
      | some => rfl

theorem updateMember_keys {ms' : List (Text × Json)} (h : updateMember e k ms = some ms')
    (hkeys : (ms.map Prod.fst).Nodup) (hmem : k ∈ ms.map Prod.fst) :
    (ms'.map Prod.fst).Nodup ∧ ∀ k' ∈ ms.map Prod.fst, k' ≠ k → k' ∈ ms'.map Prod.fst := by
  obtain ⟨r, -, rfl⟩ := Option.map_eq_some_iff.mp h
  cases r with
  | some c =>
    rw [map_fst_assign c hmem]
    exact ⟨hkeys, fun k' hk' _ => hk'⟩
  | none =>
    refine ⟨?_, fun k' hk' hne => ?_⟩
    · exact hkeys.sublist ((erase_sublist k ms).map Prod.fst)
    · by_contra habsent
      have hlookup := lookup_eq_none_iff.mpr habsent
      rw [lookup_erase_of_ne (Ne.symm hne)] at hlookup
      exact lookup_eq_none_iff.mp hlookup hk'

theorem foldlM_updateMember (hks : ks.Nodup) (hkeys : (ms.map Prod.fst).Nodup) (hall : ∀ k ∈ ks, k ∈ ms.map Prod.fst) :
    ks.foldlM (fun ms k => updateMember e k ms) ms = membersOf e ks ms := by
  induction ks generalizing ms with
  | nil => exact membersOf_nil.symm
  | cons k _ ih =>
    rw [nodup_cons] at hks
    have hk := hall k mem_cons_self
    rw [foldlM_cons, ← updateMember_membersOf hks.1 hkeys hk]
    cases hupdate : updateMember e k ms with
    | none => rfl
    | some =>
      obtain ⟨hkeys', hothers⟩ := updateMember_keys hupdate hkeys hk
      refine ih hks.2 hkeys' fun k' hk' => hothers k' (hall k' (mem_cons_of_mem k hk')) ?_
      rintro rfl
      exact hks.1 hk'

theorem foldlM_object (ks : List Text) (ms : List (Text × Json)) (e : Effect) :
    ks.foldlM (fun n k => updateChild e (.key k) n) (.object ms) =
      (ks.foldlM (fun ms k => updateMember e k ms) ms).map Json.object := by
  induction ks generalizing ms with
  | nil => rfl
  | cons k _ ih =>
    have hfirst : updateChild e (.key k) (.object ms) = (updateMember e k ms).map .object := by
      change (e (lookup k ms) >>= _) = _
      rw [updateMember, Option.map_map]
      cases e (lookup k ms) with
      | none => rfl
      | some r => cases r <;> rfl
    rw [foldlM_cons, foldlM_cons, hfirst]
    cases updateMember e k ms with
    | none => rfl
    | some ms' => exact ih ms'

theorem foldlM_array (is : List Nat) (xs : List Json) (e : Effect) :
    is.foldlM (fun n i => updateChild e (.index i) n) (.array xs) =
      (is.foldlM (fun ys i => updateElement e i ys) xs).map Json.array := by
  induction is generalizing xs with
  | nil => rfl
  | cons i _ ih =>
    have hfirst : updateChild e (.index i) (.array xs) = (updateElement e i xs).map .array := by
      change (e xs[i]? >>= _) = _
      rw [updateElement, Option.map_map]
      cases e xs[i]? with
      | none => rfl
      | some r => cases r <;> rfl
    rw [foldlM_cons, foldlM_cons, hfirst]
    cases updateElement e i xs with
    | none => rfl
    | some ys => exact ih ys

theorem childrenInTurn_of_literal (h : segment ≠ wildcard) (node : Json) :
    childrenInTurn e segment node = atChildren e segment node := by
  cases node with
  | array => exact if_neg h
  | _ => rfl

theorem foldlM_children (hdistinct : Distinct node) (segment : Text) (e : Effect) :
    (branches segment node).foldlM (fun n b => updateChild e b.2 n) node = childrenInTurn e segment node := by
  by_cases hnil : segment = []
  · have hbranches : branches segment node = [] := if_pos hnil
    have hat : atChildren e segment node = some node := if_pos hnil
    have hne : segment ≠ wildcard := by
      rw [hnil]
      decide
    rw [hbranches, childrenInTurn_of_literal hne, hat]
    rfl
  · by_cases hstar : segment = wildcard
    · cases hdistinct with
      | @object ms hkeys _ =>
        have hperm : (sortedKeys ms).Perm (ms.map Prod.fst) := perm_insertionSort _ _
        have hbranches : branches segment (.object ms) = (sortedKeys ms).map fun key => (key, .key key) :=
          (if_neg hnil).trans (if_pos hstar)
        have hat : childrenInTurn e segment (.object ms) = (eachMember e ms).map .object :=
          (if_neg hnil).trans (if_pos hstar)
        have hall : ∀ m ∈ ms, m.1 ∈ sortedKeys ms := fun m hm => hperm.mem_iff.mpr (mem_map_of_mem hm)
        rw [hbranches, hat, foldlM_map, foldlM_object, foldlM_updateMember (hperm.nodup_iff.mpr hkeys) hkeys
          (fun k hk => hperm.mem_iff.mp hk), membersOf_all hall]
      | @array xs =>
        have hbranches : branches segment (.array xs) =
            (List.range xs.length).map fun index => (Nat.toDigits 10 index, .index index) :=
          (if_neg hnil).trans (if_pos hstar)
        rw [hbranches, foldlM_map, foldlM_array]
        exact (if_pos hstar).symm
      | _ =>
        unfold branches childrenInTurn atChildren
        rw [if_neg hnil, if_pos hstar, if_neg hnil, if_pos hstar]
        rfl
    · rw [childrenInTurn_of_literal hstar]
      unfold branches atChildren
      rw [if_neg hnil, if_neg hstar, if_neg hnil, if_neg hstar]
      cases node with
      | object ms =>
        have hone := foldlM_object [segment] ms e
        exact hone.trans (congrArg _ (bind_pure _))
      | array xs =>
        dsimp only
        cases elementIndex? segment xs.length with
        | none => rfl
        | some i =>
          have hone := foldlM_array [i] xs e
          exact hone.trans (congrArg _ (bind_pure _))
      | _ => rfl

/-- In an object, and where no element is removed, the order does not matter. -/
theorem childrenInTurn_of_keeps (hkeeps : ∀ c, e (some c) ≠ some none) :
    childrenInTurn e segment node = atChildren e segment node := by
  by_cases hstar : segment = wildcard
  · cases node with
    | array xs =>
      have hall : ∀ (xs ys : List Json), (List.range' ys.length xs.length).foldlM (fun zs i => updateElement e i zs)
          (ys ++ xs) = (eachElement e xs).map (ys ++ ·) := by
        intro xs
        induction xs with
        | nil => exact fun ys => rfl
        | cons x xs ih =>
          intro ys
          have hget : (ys ++ x :: xs)[ys.length]? = some x := by simp
          rw [length_cons, range'_succ, foldlM_cons, updateElement, hget, eachElement]
          cases he : e (some x) with
          | none => rfl
          | some r =>
            cases r with
            | none => exact absurd he (hkeeps x)
            | some c =>
              have hput : put ys.length c (ys ++ x :: xs) = (ys ++ [c]) ++ xs := by
                rw [put, if_pos (by simp)]
                simp
              have hlater := ih (ys ++ [c])
              rw [length_append, length_singleton] at hlater
              change List.foldlM _ (put ys.length c (ys ++ x :: xs)) _ = _
              rw [hput, hlater]
              change _ = ((eachElement e xs).map _).map _
              rw [Option.map_map]
              congr 1
              funext zs
              simp
      have hrange := hall xs []
      have hat : atChildren e segment (.array xs) = (eachElement e xs).map .array := by
        have hne : segment ≠ [] := by
          rw [hstar]
          decide
        exact (if_neg hne).trans (if_pos hstar)
      refine (if_pos hstar : childrenInTurn e segment (.array xs) = _).trans ?_
      rw [hat, range_eq_range']
      exact congrArg (Option.map Json.array) (hrange.trans Option.map_id')
    | _ => rfl
  · exact childrenInTurn_of_literal hstar node

theorem below_keeps (f : Json → Option Json) (c : Json) : below f (some c) ≠ some none := by
  rw [below]
  cases f c with
  | none => exact fun h => Option.some_ne_none _ h.symm
  | some d => exact fun h => Option.some_ne_none d (Option.some.inj h)

theorem walks_below {w : List (Text × Step)}
    (hb : b ∈ branches (trimSpace s) node) (hc : child? b.2 node = some c) (hw : w ∈ walks (t :: rest) c) :
    b :: w ∈ walks (s :: t :: rest) node := by
  refine mem_flatMap.mpr ⟨b, hb, ?_⟩
  rw [hc]
  exact mem_map_of_mem hw

/-- The loop over the walks is the walk over the children in turn. -/
theorem loop_eq (hne : parts ≠ []) (hdistinct : Distinct node)
    (hplain : ∀ w ∈ walks parts node, Plain w) (e : Effect) : loop e parts node = inTurn e parts node := by
  induction parts, node using walks.induct with
  | case1 => exact absurd rfl hne
  | case2 s node =>
    rw [inTurn, ← foldlM_children hdistinct, loop, walks, foldlM_map]
    change (branches (trimSpace s) node).foldlM (fun n b => modifyAt e [b.1] n) node = _
    cases hbranches : branches (trimSpace s) node with
    | nil => rfl
    | cons b =>
      rw [← hbranches]
      have hcontainer : (∃ ms, node = .object ms) ∨ ∃ xs, node = .array xs := by
        rcases mem_branches (hbranches ▸ mem_cons_self : b ∈ branches (trimSpace s) node) with
          ⟨-, hobject⟩ | ⟨i, xs, -, harray, -⟩
        · exact .inl hobject
        · exact .inr ⟨xs, harray⟩
      refine foldlM_last hcontainer (fun b' hb' => step_of_branch hb' ?_) e
      exact (hplain [b'] (mem_map_of_mem hb') b' (mem_singleton_self b')).2
  | case3 s t rest _ ih =>
    rw [inTurn, ← childrenInTurn_of_keeps (below_keeps _), ← foldlM_children hdistinct, loop, walks]
    refine foldlM_branches (cons_ne_nil t rest) _ ?_ ?_ (nodup_branches hdistinct _) fun _ _ => rfl
    · intro b hb c hc
      refine ih c (cons_ne_nil t rest) (hdistinct.child hc) fun w hw b' hb' => ?_
      exact hplain (b :: w) (walks_below hb hc hw) b' (mem_cons_of_mem b hb')
    · intro b hb c hc hwalks
      obtain ⟨w, hw⟩ := exists_mem_of_ne_nil _ hwalks
      exact step_of_branch hb (hplain (b :: w) (walks_below hb hc hw) b mem_cons_self).2

theorem inTurn_of_keeps (hkeeps : ∀ c, e (some c) ≠ some none) (node : Json) :
    inTurn e parts node = everyMatch e parts node := by
  induction parts, node using walks.induct with
  | case1 => rfl
  | case2 s node => exact childrenInTurn_of_keeps hkeeps
  | case3 s t rest _ ih =>
    have heq : inTurn e (t :: rest) = everyMatch e (t :: rest) := funext ih
    rw [inTurn, everyMatch, heq]

end Loop

end CubeRouter.Override
