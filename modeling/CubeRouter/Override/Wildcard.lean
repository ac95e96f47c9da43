import CubeRouter.Override.Move
import Mathlib.Data.Char
import Mathlib.Data.List.Lex
import Mathlib.Data.List.Sort

/-!
# Wildcard operations

`collectWildcardPaths` walks the body once and writes every match as a path with dots. The operations are then applied
to these paths one after the other, each path read again in the body that the earlier ones have left. `everyMatch` is
the operation on all matches at once: along the segments, at each child that the last one names.

`WildcardLoop` compares the two.
-/

namespace CubeRouter.Override

open Strings JsonTree

/-- `lo.Uniq`. -/
def uniq (l : List Text) : List Text := l.foldl (fun seen x => if x ∈ seen then seen else seen ++ [x]) []

/-- `strconv.Atoi`; what overflows is beyond every array. -/
def atoi? : Text → Option Int
  | '-' :: s => (readIndex s).map fun n => -(n : Int)
  | '+' :: s => (readIndex s).map fun n => (n : Int)
  | s => (readIndex s).map fun n => (n : Int)

def wildcard : Text := text "*"

def sortedKeys (ms : List (Text × Json)) : List Text := (ms.map Prod.fst).insertionSort (· ≤ ·)

/-- The position of an element that a segment names at an array of this length. -/
def elementIndex? (segment : Text) (length : Nat) : Option Nat :=
  match atoi? segment with
  | some index => if index < 0 ∨ index ≥ length then none else some index.toNat
  | none => none

def collectWildcardPaths : List Text → Json → List Text → List Text
  | [], _, pre => [join pre]
  | s :: rest, node, pre =>
    let segment := trimSpace s
    if segment = [] then []
    else if segment = wildcard then
      match node with
      | .object ms => (sortedKeys ms).flatMap fun key =>
        collectWildcardPaths rest ((lookup key ms).getD .null) (pre ++ [key])
      | .array xs => (List.range xs.length).flatMap fun index =>
        collectWildcardPaths rest (xs.getD index .null) (pre ++ [Nat.toDigits 10 index])
      | _ => []
    else
      match node with
      | .object ms =>
        if rest = [] then [join (pre ++ [segment])]
        else match lookup segment ms with
          | some next => collectWildcardPaths rest next (pre ++ [segment])
          | none => []
      | .array xs =>
        match elementIndex? segment xs.length with
        | some index =>
          if rest = [] then [join (pre ++ [segment])]
          else collectWildcardPaths rest (xs.getD index .null) (pre ++ [segment])
        | none => []
      | _ => []

def expandWildcardPaths (body : Json) (path : Text) : List Text := uniq (collectWildcardPaths (segments path) body [])

def resolveOperationPaths (body : Json) (path : Text) : List Text :=
  if '*' ∉ path then [path] else expandWildcardPaths body path

/-! ## The operations at one path -/

/-- How `%v` writes a value, the case tables and the regular expressions. -/
structure Kit where
  sprint : Json → Text
  toLower : Text → Text
  toUpper : Text → Text
  compileReplace : Text → Option (Text → Text → Text)

/-- `%v` of a text is the text; the other tables are not asked. -/
def sprintKit : Kit where
  sprint
    | .string s => s
    | _ => []
  toLower := id
  toUpper := id
  compileReplace _ := none

inductive Mode
  | delete
  | set
  | trimPrefix
  | trimSuffix
  | ensurePrefix
  | ensureSuffix
  | trimSpace
  | toLower
  | toUpper
  | replace
  | regexReplace

structure ParamOperation where
  path : Text
  mode : Mode
  value : Json
  keepOrigin : Bool
  from_ : Text
  to_ : Text

def deleteValue (body : Json) (path : Text) : Option Json :=
  if trimSpace path = [] then some body else deleteBytes body path

/-- The string at the path is replaced; every other value is an error. -/
def changeString (body : Json) (path : Text) (f : Text → Option Text) : Option Json :=
  match get? (segments path) body with
  | some (.string s) => f s >>= fun t => setBytes body path (.string t)
  | _ => none

/-- `nil` is refused. -/
def required (kit : Kit) : Json → Option Text
  | .null => none
  | value => some (kit.sprint value)

def trimStringValue (kit : Kit) (body : Json) (path : Text) (value : Json) (isPrefix : Bool) : Option Json :=
  changeString body path fun current => (required kit value).map fun valueStr =>
    if isPrefix then Strings.trimPrefix current valueStr else Strings.trimSuffix current valueStr

def ensureStringAffix (kit : Kit) (body : Json) (path : Text) (value : Json) (isPrefix : Bool) : Option Json :=
  match get? (segments path) body with
  | some (.string current) =>
    match required kit value with
    | some valueStr =>
      if valueStr = [] then none
      else if isPrefix then
        if hasPrefix current valueStr then some body else setBytes body path (.string (valueStr ++ current))
      else if hasSuffix current valueStr then some body
      else setBytes body path (.string (current ++ valueStr))
    | none => none
  | _ => none

def transformStringValue (body : Json) (path : Text) (transform : Text → Text) : Option Json :=
  changeString body path fun current => some (transform current)

/-- `strings.ReplaceAll` of a text that is not empty. -/
def replaceAll (old new : Text) : Nat → Text → Text
  | _, [] => []
  | skip + 1, _ :: s => replaceAll old new skip s
  | 0, c :: s =>
    if hasPrefix (c :: s) old then new ++ replaceAll old new (old.length - 1) s else c :: replaceAll old new 0 s

def replaceStringValue (body : Json) (path from_ to_ : Text) : Option Json :=
  changeString body path fun current => if from_ = [] then none else some (replaceAll from_ to_ 0 current)

def regexReplaceStringValue (kit : Kit) (body : Json) (path pattern replacement : Text) : Option Json :=
  changeString body path fun current =>
    if pattern = [] then none else (kit.compileReplace pattern).map fun re => re current replacement

def applyAt (kit : Kit) (op : ParamOperation) (body : Json) (path : Text) : Option Json :=
  match op.mode with
  | .delete => deleteValue body path
  | .set =>
    if op.keepOrigin ∧ (get? (segments path) body).isSome then some body else setBytes body path op.value
  | .trimPrefix => trimStringValue kit body path op.value true
  | .trimSuffix => trimStringValue kit body path op.value false
  | .ensurePrefix => ensureStringAffix kit body path op.value true
  | .ensureSuffix => ensureStringAffix kit body path op.value false
  | .trimSpace => transformStringValue body path Strings.trimSpace
  | .toLower => transformStringValue body path kit.toLower
  | .toUpper => transformStringValue body path kit.toUpper
  | .replace => replaceStringValue body path op.from_ op.to_
  | .regexReplace => regexReplaceStringValue kit body path op.from_ op.to_

/-- One operation of `applyOperations` whose conditions are met. -/
def applyOperation (kit : Kit) (op : ParamOperation) (body : Json) : Option Json :=
  (resolveOperationPaths body (processNegativeIndex body op.path)).foldlM (applyAt kit op) body

/-! ## The operations on all matches -/

/-- What becomes of a node: an error, nothing, or a new value. -/
abbrev Effect := Option Json → Option (Option Json)

def stringEffect (f : Text → Option Text) : Effect
  | some (.string s) => (f s).map fun t => some (.string t)
  | _ => none

def effect (kit : Kit) (op : ParamOperation) : Effect :=
  match op.mode with
  | .delete => fun _ => some none
  | .set => fun node => some (some (if op.keepOrigin then node.getD op.value else op.value))
  | .trimPrefix => stringEffect fun s => (required kit op.value).map (Strings.trimPrefix s)
  | .trimSuffix => stringEffect fun s => (required kit op.value).map (Strings.trimSuffix s)
  | .ensurePrefix => stringEffect fun s => ((required kit op.value).filter (· ≠ [])).map fun p =>
    if hasPrefix s p then s else p ++ s
  | .ensureSuffix => stringEffect fun s => ((required kit op.value).filter (· ≠ [])).map fun p =>
    if hasSuffix s p then s else s ++ p
  | .trimSpace => stringEffect fun s => some (Strings.trimSpace s)
  | .toLower => stringEffect fun s => some (kit.toLower s)
  | .toUpper => stringEffect fun s => some (kit.toUpper s)
  | .replace => stringEffect fun s => if op.from_ = [] then none else some (replaceAll op.from_ op.to_ 0 s)
  | .regexReplace => stringEffect fun s =>
    if op.from_ = [] then none else (kit.compileReplace op.from_).map fun re => re s op.to_

def updateMember (e : Effect) (k : Text) (ms : List (Text × Json)) : Option (List (Text × Json)) :=
  (e (lookup k ms)).map fun
    | some c => assign k c ms
    | none => erase k ms

def updateElement (e : Effect) (i : Nat) (xs : List Json) : Option (List Json) :=
  (e xs[i]?).map fun
    | some c => put i c xs
    | none => xs.eraseIdx i

def eachMember (e : Effect) : List (Text × Json) → Option (List (Text × Json))
  | [] => some []
  | m :: ms => e (some m.2) >>= fun r => (eachMember e ms).map fun ms' => (r.map (m.1, ·)).toList ++ ms'

def eachElement (e : Effect) : List Json → Option (List Json)
  | [] => some []
  | x :: xs => e (some x) >>= fun r => (eachElement e xs).map fun xs' => r.toList ++ xs'

def atChildren (e : Effect) (segment : Text) (node : Json) : Option Json :=
  if segment = [] then some node
  else if segment = wildcard then
    match node with
    | .object ms => (eachMember e ms).map .object
    | .array xs => (eachElement e xs).map .array
    | _ => some node
  else
    match node with
    | .object ms => (updateMember e segment ms).map .object
    | .array xs =>
      match elementIndex? segment xs.length with
      | some index => (updateElement e index xs).map .array
      | none => some node
    | _ => some node

/-- Below a child that exists. -/
def below (f : Json → Option Json) : Effect
  | some c => (f c).map some
  | none => some none

def everyMatch (e : Effect) : List Text → Json → Option Json
  | [], node => some node
  | [s], node => atChildren e (trimSpace s) node
  | s :: t :: rest, node => atChildren (below (everyMatch e (t :: rest))) (trimSpace s) node

end CubeRouter.Override
