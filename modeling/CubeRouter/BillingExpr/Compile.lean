import CubeRouter.Lib.Text
import Mathlib.Data.Rat.Defs

/-!
# Compiling a billing expression

`pkg/billingexpr/compile.go` from the syntax tree on: the parser, the printer and the type check of the expression
language are parameters. `requestRulePatcher` turns each conditional that multiplies by a number when the request
meets a condition into a call of `_trace` or `_trace_int`, which have the condition as an argument.
-/

namespace CubeRouter.BillingExpr

open Strings (Text text trimSpace)

inductive UnaryOperator
  | neg | plus | not

inductive Operator
  | add | sub | mul | div | eq | ne | lt | le | gt | ge | and | or

/-- The nodes that billing expressions are built from. A call is of a function by its name. Any other node is one of a
kind with its children; variables that an expression declares are left out. -/
inductive Node
  | nil
  | identifier (value : String)
  | integer (value : Int)
  | float (value : ℚ)
  | bool (value : Bool)
  | string (value : Text)
  | unary (operator : UnaryOperator) (node : Node)
  | binary (operator : Operator) (left right : Node)
  | call (callee : String) (arguments : List Node)
  | conditional (ternary : Bool) (cond exp1 exp2 : Node)
  | other (kind : String) (children : List Node)

structure RequestRuleTrace where
  cond : Text
  multiplier : ℚ
  matched : Bool := false

def requestRuleTraceFunction : String := "_trace"

def requestRuleTraceIntFunction : String := "_trace_int"

mutual

/-- The identifiers in the order of `ast.Walk`. -/
def Node.identifiers : Node → List String
  | .identifier value => [value]
  | .unary _ node => node.identifiers
  | .binary _ left right => left.identifiers ++ right.identifiers
  | .call callee arguments => callee :: identifiersOf arguments
  | .conditional _ cond exp1 exp2 => cond.identifiers ++ exp1.identifiers ++ exp2.identifiers
  | .other _ children => identifiersOf children
  | _ => []

def identifiersOf : List Node → List String
  | [] => []
  | node :: nodes => node.identifiers ++ identifiersOf nodes

end

def usesRequestProbe (node : Node) : Bool :=
  node.identifiers.any (· ∈ ["param", "header", "hour", "minute", "weekday", "month", "day"])

def requestRuleNumber : Node → Option ℚ
  | .integer value => some value
  | .float value => some value
  | _ => none

/-- The multiplier, when the conditional is a request rule. -/
def requestRule (ternary : Bool) (cond exp1 exp2 : Node) : Option ℚ :=
  if ternary && usesRequestProbe cond then
    match requestRuleNumber exp1, requestRuleNumber exp2 with
    | some multiplier, some fallback => if fallback = 1 then some multiplier else none
    | _, _ => none
  else none

/-- The traced call: on integers alone the multiplier stays the integer it is. -/
def traceCall (ruleIndex : Nat) (cond : Node) (multiplier : ℚ) : Node → Node → Node
  | .integer value, .integer _ => .call requestRuleTraceIntFunction [.integer ruleIndex, cond, .integer value]
  | _, _ => .call requestRuleTraceFunction [.integer ruleIndex, cond, .float multiplier]

def visit (str : Node → Text) (rules : List RequestRuleTrace) (ternary : Bool) (cond exp1 exp2 : Node) :
    Node × List RequestRuleTrace :=
  match requestRule ternary cond exp1 exp2 with
  | none => (.conditional ternary cond exp1 exp2, rules)
  | some multiplier =>
    (traceCall rules.length cond multiplier exp1 exp2, rules ++ [{ cond := str cond, multiplier := multiplier }])

mutual

/-- `ast.Walk` visits a node after its children. -/
def Node.patch (str : Node → Text) (rules : List RequestRuleTrace) : Node → Node × List RequestRuleTrace
  | .unary operator node =>
    let node := node.patch str rules
    (.unary operator node.1, node.2)
  | .binary operator left right =>
    let left := left.patch str rules
    let right := right.patch str left.2
    (.binary operator left.1 right.1, right.2)
  | .call callee arguments =>
    let arguments := patchAll str rules arguments
    (.call callee arguments.1, arguments.2)
  | .conditional ternary cond exp1 exp2 =>
    let cond := cond.patch str rules
    let exp1 := exp1.patch str cond.2
    let exp2 := exp2.patch str exp1.2
    visit str exp2.2 ternary cond.1 exp1.1 exp2.1
  | .other kind children =>
    let children := patchAll str rules children
    (.other kind children.1, children.2)
  | node => (node, rules)

def patchAll (str : Node → Text) (rules : List RequestRuleTrace) : List Node → List Node × List RequestRuleTrace
  | [] => ([], rules)
  | node :: nodes =>
    let node := node.patch str rules
    let nodes := patchAll str node.2 nodes
    (node.1 :: nodes.1, nodes.2)

end

inductive CompileError
  | reserved (identifier : String)
  | compile (message : String)

def isReserved (identifier : String) : Bool := identifier ∈ [requestRuleTraceFunction, requestRuleTraceIntFunction]

structure CachedEntry where
  prog : Node
  requestRules : List RequestRuleTrace

/-- `compileEntryFromCacheByHash` of an expression that is not cached. The last reserved identifier is the one
reported. -/
def compileEntry (str : Node → Text) (check : Node → Except String Unit) (node : Node) :
    Except CompileError CachedEntry :=
  let patched := node.patch str []
  match (node.identifiers.filter isReserved).getLast? with
  | some identifier => .error (.reserved identifier)
  | none =>
    match check patched.1 with
    | .error message => .error (.compile message)
    | .ok () => .ok { prog := patched.1, requestRules := patched.2 }

/-! ## What an expression uses -/

def literalKey (callee : String) : List Node → List Text
  | [.string value] => if callee = "u" then [trimSpace value] else []
  | _ => []

mutual

/-- The literal arguments of `u`. -/
def Node.usageKeys : Node → List Text
  | .unary _ node => node.usageKeys
  | .binary _ left right => left.usageKeys ++ right.usageKeys
  | .call callee arguments => literalKey callee arguments ++ usageKeysOf arguments
  | .conditional _ cond exp1 exp2 => cond.usageKeys ++ exp1.usageKeys ++ exp2.usageKeys
  | .other _ children => usageKeysOf children
  | _ => []

def usageKeysOf : List Node → List Text
  | [] => []
  | node :: nodes => node.usageKeys ++ usageKeysOf nodes

end

def extractUsedVars (prog : Node) (name : String) : Bool := name ∈ prog.identifiers ∧ ¬isReserved name

def extractUsedUsageKeys (prog : Node) (key : Text) : Bool := key ∈ prog.usageKeys

end CubeRouter.BillingExpr
