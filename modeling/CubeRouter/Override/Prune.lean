import CubeRouter.Override.Wildcard

/-!
# Pruning objects

`pruneObjectsNode` asks the conditions about an object as it is before anything inside it is removed. So one run removes
what matched at the start, `strip`, and not what matches only afterwards: an object whose verdict changes with the
removals inside it stays, and a second run would remove it.
-/

namespace CubeRouter.Override

open Strings JsonTree
open List hiding lookup

/-- `gjson`: a path read in a value, in all its syntax, and `Result.String`. -/
structure Gjson where
  get : Json → Text → Option Json
  string : Json → Text

structure ConditionOperation where
  path : Text
  mode : Text
  value : Json
  invert : Bool
  passMissingKey : Bool

structure PruneObjectsOptions where
  conditions : List ConditionOperation
  logic : Text
  recursive : Bool

/-! ## Options -/

def fullCondition (path : Text) (value : Json) : ConditionOperation := ⟨path, text "full", value, false, false⟩

def stringField (k : String) (ms : List (Text × Json)) : Text :=
  match lookup (text k) ms with
  | some (.string s) => s
  | _ => []

def boolField (k : String) (ms : List (Text × Json)) (default : Bool) : Bool :=
  match lookup (text k) ms with
  | some (.bool b) => b
  | _ => default

/-- Each entry of a map asks one path for a value. -/
def entryConditions (entries : List (Text × Json)) : List ConditionOperation :=
  entries.filterMap fun m =>
    let path := Strings.trimSpace m.1
    if path = [] then none else some (fullCondition path m.2)

def parseCondition : Json → Option ConditionOperation
  | .object itemMap =>
    let path := stringField "path" itemMap
    let mode := stringField "mode" itemMap
    if Strings.trimSpace path = [] ∨ Strings.trimSpace mode = [] then none
    else some ⟨path, mode, (lookup (text "value") itemMap).getD .null, boolField "invert" itemMap false,
      boolField "pass_missing_key" itemMap false⟩
  | _ => none

def parseConditionOperations : Json → Option (List ConditionOperation)
  | .object typed => if (entryConditions typed).isEmpty then none else some (entryConditions typed)
  | .array items => items.mapM parseCondition
  | _ => none

def parsePruneObjectsOptions : Json → Option PruneObjectsOptions
  | .string raw =>
    let v := Strings.trimSpace raw
    if v = [] then none else some ⟨[fullCondition (text "type") (.string v)], text "AND", true⟩
  | .object raw => do
    let logic := stringField "logic" raw
    let conditions ← match lookup (text "conditions") raw with
      | some condRaw => parseConditionOperations condRaw
      | none => some []
    let wheres ← match lookup (text "where") raw with
      | some (.object whereMap) => some (entryConditions whereMap)
      | some _ => none
      | none => some []
    let types := (lookup (text "type") raw).toList.map (fullCondition (text "type"))
    if (conditions ++ wheres ++ types).isEmpty then none
    else some ⟨conditions ++ wheres ++ types, if Strings.trimSpace logic = [] then text "AND" else logic,
      boolField "recursive" raw true⟩
  | _ => none

/-! ## Conditions -/

section Conditions

variable (kit : Kit) (gjson : Gjson)

/-- The one type that gjson has for containers. -/
def isJSON : Json → Bool
  | .array _ | .object _ => true
  | _ => false

def compareEqual : Json → Json → Option Bool
  | .null, .null => some true
  | .null, _ | _, .null => some false
  | .bool a, .bool b => some (a = b)
  | .number a, .number b => some (a = b)
  | .string a, .string b => some (a = b)
  | a, b => if isJSON a && isJSON b then some (gjson.string a = gjson.string b) else none

def compareNumeric (operator : Rat → Rat → Bool) : Json → Json → Option Bool
  | .number a, .number b => some (operator a b)
  | _, _ => none

def compareGjsonValues (jsonValue targetValue : Json) (mode : Text) : Option Bool :=
  let a := gjson.string jsonValue
  let b := gjson.string targetValue
  if mode = text "full" then compareEqual gjson jsonValue targetValue
  else if mode = text "prefix" then some (hasPrefix a b)
  else if mode = text "suffix" then some (hasSuffix a b)
  else if mode = text "contains" then some (contains a b)
  else if mode = text "gt" then compareNumeric (fun x y => y < x) jsonValue targetValue
  else if mode = text "gte" then compareNumeric (fun x y => y ≤ x) jsonValue targetValue
  else if mode = text "lt" then compareNumeric (fun x y => x < y) jsonValue targetValue
  else if mode = text "lte" then compareNumeric (fun x y => x ≤ y) jsonValue targetValue
  else none

/-- `context` is `none` for the empty text. -/
def checkSingleCondition (data : Json) (context : Option Json) (condition : ConditionOperation) : Option Bool :=
  let value := gjson.get data (processNegativeIndex data condition.path)
  match if value.isNone then context >>= (gjson.get · condition.path) else value with
  | none => some condition.passMissingKey
  | some value => (compareGjsonValues gjson value condition.value (kit.toLower condition.mode)).map fun result =>
    if condition.invert then !result else result

def checkConditions (data : Json) (context : Option Json) (conditions : List ConditionOperation) (logic : Text) :
    Option Bool :=
  if conditions.isEmpty then some true
  else (conditions.mapM (checkSingleCondition kit gjson data context)).map fun results =>
    if kit.toUpper logic = text "AND" then results.all id else results.any id

/-! ## The objects -/

variable (options : PruneObjectsOptions) (context : Option Json)

def shouldPruneObject (node : Json) : Option Bool :=
  checkConditions kit gjson node context options.conditions options.logic

mutual

/-- What the node becomes, and whether it is dropped. -/
def pruneObjectsNode (isRoot : Bool) : Json → Option (Json × Bool)
  | .array value => (pruneElements value).map fun result => (.array result, false)
  | .object value => do
    let shouldDrop ← shouldPruneObject kit gjson options context (.object value)
    if shouldDrop && !isRoot then some (.null, true)
    else if !options.recursive then some (.object value, false)
    else (pruneMembers value).map fun result => (.object result, false)
  | node => some (node, false)

def pruneElements : List Json → Option (List Json)
  | [] => some []
  | item :: value => do
    let (next, drop) ← pruneObjectsNode false item
    let result ← pruneElements value
    if drop then some result else some (next :: result)

def pruneMembers : List (Text × Json) → Option (List (Text × Json))
  | [] => some []
  | (key, child) :: value => do
    let (next, drop) ← pruneObjectsNode false child
    let result ← pruneMembers value
    if drop then some result else some ((key, next) :: result)

end

def pruneObjects (data : Json) (path : Text) (value : Json) : Option Json := do
  let options ← parsePruneObjectsOptions value
  if path = [] then
    let (cleaned, _) ← pruneObjectsNode kit gjson options context true data
    some cleaned
  else
    match get? (segments path) data with
    | none => some data
    | some target =>
      let (cleaned, _) ← pruneObjectsNode kit gjson options context true target
      setBytes data path cleaned

end Conditions

/-! ## What pruning is for -/

section Strip

variable (m : Json → Bool)

mutual

/-- Every node that `m` holds of is gone with what is inside it. -/
def strip : Json → Json
  | .array xs => .array (stripElements xs)
  | .object ms => .object (stripMembers ms)
  | node => node

def stripElements : List Json → List Json
  | [] => []
  | x :: xs => if m x then stripElements xs else strip x :: stripElements xs

def stripMembers : List (Text × Json) → List (Text × Json)
  | [] => []
  | (k, c) :: ms => if m c then stripMembers ms else (k, strip c) :: stripMembers ms

end

theorem stripElements_eq (xs : List Json) : stripElements m xs = (xs.filter (!m ·)).map (strip m) := by
  induction xs with
  | nil => rfl
  | cons x _ ih =>
    rw [stripElements, filter_cons, ih]
    cases m x <;> rfl

theorem stripMembers_eq (ms : List (Text × Json)) :
    stripMembers m ms = (ms.filter (!m ·.2)).map fun member => (member.1, strip m member.2) := by
  induction ms with
  | nil => rfl
  | cons member _ ih =>
    rw [stripMembers, filter_cons, ih]
    cases m member.2 <;> rfl

/-- Elements are stripped as members are. -/
theorem map_stripElements (xs : List Json) :
    (stripElements m xs).map (Prod.mk []) = stripMembers m (xs.map (Prod.mk [])) := by
  simp [stripElements_eq, stripMembers_eq, filter_map, Function.comp_def]

inductive Kept (root : Json) : Json → Prop
  | root : Kept root root
  | child {node c : Json} {s : Step} : Kept root node → child? s node = some c → m c = false → Kept root c

variable {node x : Json}

theorem Kept.trans {m : Json → Bool} {root : Json} (h : Kept m root node) (hx : Kept m node x) : Kept m root x := by
  induction hx with
  | root => exact h
  | child _ hc hstays ih => exact .child ih hc hstays

theorem distinct_strip (h : Distinct node) : Distinct (strip m node) := by
  induction h with
  | array _ ih =>
    rw [strip, stripElements_eq]
    refine .array fun x hx => ?_
    obtain ⟨y, hy, rfl⟩ := mem_map.mp hx
    exact ih y (mem_of_mem_filter hy)
  | object hkeys _ ih =>
    rw [strip, stripMembers_eq]
    refine .object ?_ fun member hmember => ?_
    · rw [map_map]
      exact hkeys.sublist (filter_sublist.map Prod.fst)
    · obtain ⟨member', hmember', rfl⟩ := mem_map.mp hmember
      exact ih member' (mem_of_mem_filter hmember')
  | null => exact .null
  | bool b => exact .bool b
  | number n => exact .number n
  | string s => exact .string s

theorem not_of_strip_eq (h : strip m node = node) {p : List Step} (hp : p ≠ [])
    (hx : follow p node = some x) : m x = false := by
  have hfixed : ∀ {α : Type} {f : α → Bool} {g : α → α} {l : List α}, (l.filter f).map g = l →
    ∀ a ∈ l, f a = true ∧ g a = a := by
    intro α f g l hl
    have hlength := congrArg List.length hl
    rw [length_map] at hlength
    have hall := filter_eq_self.mp (filter_sublist.eq_of_length hlength)
    rw [filter_eq_self.mpr hall] at hl
    exact fun a ha => ⟨hall a ha, map_inj_left.mp (hl.trans (map_id l).symm) a ha⟩
  induction p generalizing node with
  | nil => exact absurd rfl hp
  | cons s p ih =>
    obtain ⟨c, hc, hfollow⟩ := Option.bind_eq_some_iff.mp hx
    have hchild : m c = false ∧ strip m c = c := by
      cases s with
      | key k =>
        cases node with
        | object =>
          rw [strip, stripMembers_eq] at h
          obtain ⟨hstays, heq⟩ := hfixed (Json.object.inj h) (k, c) (mem_of_lookup hc)
          exact ⟨by simpa using hstays, (Prod.mk.inj heq).2⟩
        | _ => cases hc
      | index =>
        cases node with
        | array =>
          rw [strip, stripElements_eq] at h
          obtain ⟨hstays, heq⟩ := hfixed (Json.array.inj h) c (mem_of_getElem? hc)
          exact ⟨by simpa using hstays, heq⟩
        | _ => cases hc
    cases p with
    | nil =>
      obtain rfl := Option.some.inj hfollow
      exact hchild.1
    | cons t p => exact ih hchild.2 (cons_ne_nil t p) hfollow

end Strip

/-! ## One run -/

section Run

variable (kit : Kit) (gjson : Gjson) (options : PruneObjectsOptions) (context : Option Json)

/-- An object that satisfies the conditions as it stands. -/
def matched : Json → Bool
  | .object ms => shouldPruneObject kit gjson options context (.object ms) = some true
  | _ => false

/-- The removals inside an object that stays do not change the verdict on it. -/
def Undisturbed (node : Json) : Prop :=
  ∀ ms, Kept (matched kit gjson options context) node (.object ms) →
    shouldPruneObject kit gjson options context (strip (matched kit gjson options context) (.object ms)) =
      shouldPruneObject kit gjson options context (.object ms)

/-- What a run makes of a node, and what a second run makes of that. -/
structure Pruned (isRoot : Bool) (node : Json) (r : Json × Bool) : Prop where
  drop : r.2 = (matched kit gjson options context node && !isRoot)
  next : r.2 = false → r.1 = strip (matched kit gjson options context) node
  again : r.2 = false → Undisturbed kit gjson options context node →
    pruneObjectsNode kit gjson options context isRoot (strip (matched kit gjson options context) node) =
      some (strip (matched kit gjson options context) node, false)

variable {kit gjson options context} {node : Json} {isRoot : Bool} {r : Json × Bool}

theorem Undisturbed.child {c : Json} {s : Step} (h : Undisturbed kit gjson options context node)
    (hc : child? s node = some c) (hstays : matched kit gjson options context c = false) :
    Undisturbed kit gjson options context c :=
  fun ms hms => h ms ((Kept.child .root hc hstays).trans hms)

theorem pruneMembers_ok {ms ns : List (Text × Json)}
    (ih : ∀ m ∈ ms, ∀ r, pruneObjectsNode kit gjson options context false m.2 = some r →
      Pruned kit gjson options context false m.2 r) (h : pruneMembers kit gjson options context ms = some ns) :
    ns = stripMembers (matched kit gjson options context) ms ∧
      ((∀ m ∈ ms, matched kit gjson options context m.2 = false → Undisturbed kit gjson options context m.2) →
        pruneMembers kit gjson options context (stripMembers (matched kit gjson options context) ms) =
          some (stripMembers (matched kit gjson options context) ms)) := by
  induction ms generalizing ns with
  | nil =>
    cases h
    exact ⟨rfl, fun _ => rfl⟩
  | cons m ms ihl =>
    obtain ⟨⟨next, drop⟩, hx, hrest⟩ := Option.bind_eq_some_iff.mp h
    obtain ⟨result, hresult, heq⟩ := Option.bind_eq_some_iff.mp hrest
    have hpruned := ih m mem_cons_self _ hx
    obtain ⟨hlist, hlater⟩ := ihl (fun m' hm' => ih m' (mem_cons_of_mem m hm')) hresult
    have hdrop : drop = matched kit gjson options context m.2 := hpruned.drop.trans (Bool.and_true _)
    rw [stripMembers, ← hdrop]
    cases drop with
    | true => exact ⟨(Option.some.inj heq).symm.trans hlist, fun hall => hlater (forall_mem_cons.mp hall).2⟩
    | false =>
      have hnext : next = strip (matched kit gjson options context) m.2 := hpruned.next rfl
      rw [← (Option.some.inj heq : (m.1, next) :: result = ns), hnext, hlist]
      refine ⟨rfl, fun hall => ?_⟩
      obtain ⟨hfirst, hall⟩ := forall_mem_cons.mp hall
      have hagain := hpruned.again rfl (hfirst hdrop.symm)
      change pruneMembers kit gjson options context ((m.1, strip _ m.2) :: stripMembers _ ms) = _
      rw [pruneMembers, hagain, hlater hall]
      rfl

/-- Elements are pruned as members are. -/
theorem pruneElements_eq (xs : List Json) : pruneElements kit gjson options context xs =
    (pruneMembers kit gjson options context (xs.map (Prod.mk []))).map (List.map Prod.snd) := by
  induction xs with
  | nil => rfl
  | cons x xs ih =>
    rw [pruneElements, map_cons, pruneMembers, ih]
    cases pruneObjectsNode kit gjson options context false x with
    | none => rfl
    | some r =>
      cases pruneMembers kit gjson options context (xs.map (Prod.mk [])) with
      | none => rfl
      | some => cases hdrop : r.2 <;> simp [hdrop]

theorem pruneObjectsNode_ok (hrecursive : options.recursive = true) (hdistinct : Distinct node)
    (h : pruneObjectsNode kit gjson options context isRoot node = some r) :
    Pruned kit gjson options context isRoot node r := by
  induction hdistinct generalizing isRoot r with
  | @array _ _ ih =>
    obtain ⟨_, hresult, rfl⟩ := Option.map_eq_some_iff.mp h
    rw [pruneElements_eq] at hresult
    obtain ⟨_, hmembers, rfl⟩ := Option.map_eq_some_iff.mp hresult
    obtain ⟨hlist, hlater⟩ := pruneMembers_ok (forall_mem_map.mpr fun x hx r => ih x hx) hmembers
    rw [← map_stripElements] at hlist hlater
    refine ⟨rfl, fun _ => ?_, fun _ hund => ?_⟩
    · simp [hlist, strip]
    · have hagain := hlater (forall_mem_map.mpr fun x hx hstays => by
        obtain ⟨i, hi⟩ := getElem?_of_mem hx
        exact hund.child (s := .index i) hi hstays)
      rw [strip, pruneObjectsNode, pruneElements_eq, hagain]
      simp
  | @object ms hkeys _ ih =>
    obtain ⟨verdict, hverdict, hrest⟩ := Option.bind_eq_some_iff.mp h
    have hmatched : matched kit gjson options context (.object ms) = verdict := by
      rw [matched, hverdict]
      cases verdict <;> rfl
    by_cases hdrop : (verdict && !isRoot) = true
    · rw [if_pos hdrop] at hrest
      obtain rfl := Option.some.inj hrest
      exact ⟨hmatched ▸ hdrop.symm, (fun hfalse => by cases hfalse), (fun hfalse => by cases hfalse)⟩
    · rw [if_neg hdrop, hrecursive] at hrest
      obtain ⟨_, hresult, rfl⟩ := Option.map_eq_some_iff.mp hrest
      obtain ⟨hlist, hlater⟩ := pruneMembers_ok (fun m hm r => ih m hm) hresult
      refine ⟨?_, fun _ => congrArg Json.object hlist, fun _ hund => ?_⟩
      · rw [hmatched]
        exact (Bool.not_eq_true _).mp hdrop |>.symm
      · have hagain := hlater fun m hm hstays => hund.child (s := .key m.1) (lookup_of_mem hkeys hm) hstays
        have hsame := hund ms .root
        rw [hverdict] at hsame
        rw [strip] at hsame ⊢
        rw [pruneObjectsNode, hsame]
        change (if (verdict && !isRoot) = true then _ else _) = _
        rw [if_neg hdrop, hrecursive, hagain]
        rfl
  | _ =>
    obtain rfl := Option.some.inj h
    exact ⟨rfl, fun _ => rfl, fun _ _ => rfl⟩

/-- The empty path is the whole body. -/
def pruneTarget (data : Json) (path : Text) : Option Json := if path = [] then some data else get? (segments path) data

def replaceTarget (data : Json) (path : Text) (v : Json) : Option Json :=
  if path = [] then some v else setBytes data path v

variable {path : Text} {data v : Json}

theorem pruneObjects_eq {value : Json} (hoptions : parsePruneObjectsOptions value = some options)
    (data : Json) : pruneObjects kit gjson context data path value =
      match pruneTarget data path with
      | none => some data
      | some target => pruneObjectsNode kit gjson options context true target >>= fun r =>
        replaceTarget data path r.1 := by
  unfold pruneObjects pruneTarget replaceTarget
  rw [hoptions]
  change (if path = [] then _ else _) = _
  split_ifs
  · rfl
  · cases get? (segments path) data <;> rfl

theorem pruneTarget_replaceTarget {result : Json} (h : replaceTarget data path v = some result) :
    pruneTarget result path = some v := by
  unfold replaceTarget setBytes at h
  unfold pruneTarget
  split_ifs at h ⊢
  · exact h.symm
  · exact get?_set? h

theorem replaceTarget_self (h : pruneTarget data path = some v) : replaceTarget data path v = some data := by
  unfold pruneTarget at h
  unfold replaceTarget setBytes
  split_ifs at h ⊢
  · exact h.symm
  · exact set?_self h

end Run

def plainPaths : Gjson where
  get data path := get? (segments path) data
  string := sprintKit.sprint

def typeOrName : Json := .object [(text "logic", .string (text "OR")), (text "conditions", .array [
  .object [(text "path", .string (text "type")), (text "mode", .string (text "full")),
  (text "value", .string (text "x"))],
  .object [(text "path", .string (text "b.type")), (text "mode", .string (text "full")),
  (text "value", .string (text "y")),
    (text "pass_missing_key", .bool true)]])]

def nestedBlocks (inner : List (Text × Json)) : Json := .object [(text "a", .object inner)]

def typedBlock : Document where
  root := .object [(text "a", .object [(text "type", .string (text "x"))])]
  distinct := .object (List.nodup_singleton _)
    (List.forall_mem_singleton.mpr (.object (List.nodup_singleton _) (List.forall_mem_singleton.mpr (.string _))))

end CubeRouter.Override
