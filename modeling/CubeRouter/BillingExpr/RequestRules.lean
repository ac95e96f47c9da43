import CubeRouter.BillingExpr.Compile
import Mathlib.Data.Rat.Floor

/-!
# Running a billing expression

`runProgram` of `pkg/billingexpr/run.go`. The values and the operators of the expression language are a parameter, and
numbers are exact. Next to the trace a run notes which request rules of the program have met their condition, as
conditionals that are not yet rewritten, and which have a condition that is no bool. Without the latter the rewritten
program takes the same values, stops with the same error and marks just the rules that are met. With one the program
itself stops, but a call of the tracer takes the nil of a missing parameter for `false`.
-/

namespace CubeRouter.BillingExpr

open List

open Strings (Text text trimSpace contains)

/-- What the expression language does with its values. -/
structure Lang (V E : Type) where
  nil : V
  number : ℚ → V
  bool : Bool → V
  string : Text → V
  isNil : V → Bool
  unary : UnaryOperator → V → Except E V
  binary : Operator → V → V → Except E V
  condition : V → Except E Bool
  boolArgument : V → Except E Bool
  intArgument : V → Except E Int
  numberArgument : V → Except E ℚ
  stringArgument : V → Except E Text
  asFloat64 : V → Except E ℚ
  other : String → List V → Except E V
  /-- Whether a node of this kind leaves its next child out, once it has the values of those before. -/
  skips : String → List V → Bool
  sprint : V → Text
  unknown : String → E

structure TokenParams where
  p : ℚ := 0
  c : ℚ := 0
  len : ℚ := 0
  cr : ℚ := 0
  cc : ℚ := 0
  cc1h : ℚ := 0
  img : ℚ := 0
  imgO : ℚ := 0
  ai : ℚ := 0
  ao : ℚ := 0

/-- `body` reads a path of the body when there is one, and `clock` is the time in a zone. -/
structure RequestInput (V : Type) where
  headers : List (Text × Text) := []
  body : Text → Option V := fun _ => none
  usage : Text → Option V := fun _ => none
  clock : String → Text → Int := fun _ _ => 0
  toLower : Text → Text := id

def normalizeHeaders (toLower : Text → Text) (headers : List (Text × Text)) : List (Text × Text) :=
  (headers.map fun h => (toLower (trimSpace h.1), trimSpace h.2)).filter fun h => h.1 ≠ [] ∧ h.2 ≠ []

structure TraceResult where
  matchedTier : Text := []
  requestRules : List RequestRuleTrace := []
  cost : ℚ := 0

/-- A trace with the numbers of the request rules that have met their condition, and of those whose condition was no
bool. -/
structure Observed where
  trace : TraceResult
  decided : List Nat := []
  misread : List Nat := []

variable {V E : Type} (lang : Lang V E) (params : TokenParams) (request : RequestInput V)

def tokenVariable : String → Option V
  | "p" => some (lang.number params.p)
  | "c" => some (lang.number params.c)
  | "len" => some (lang.number params.len)
  | "cr" => some (lang.number params.cr)
  | "cc" => some (lang.number params.cc)
  | "cc1h" => some (lang.number params.cc1h)
  | "img" => some (lang.number params.img)
  | "img_o" => some (lang.number params.imgO)
  | "ai" => some (lang.number params.ai)
  | "ao" => some (lang.number params.ao)
  | _ => none

/-- The functions without a side effect. -/
def function : String → List V → Except E V
  | "header", [key] => do
    let key ← lang.stringArgument key
    let headers := normalizeHeaders request.toLower request.headers
    return lang.string ((headers.reverse.lookup (request.toLower (trimSpace key))).getD [])
  | "param", [path] => do
    let path := trimSpace (← lang.stringArgument path)
    return if path = [] then lang.nil else (request.body path).getD lang.nil
  | "u", [name] => do return (request.usage (trimSpace (← lang.stringArgument name))).getD lang.nil
  | "has", [source, substr] => do
    let substr ← lang.stringArgument substr
    return lang.bool (!lang.isNil source && substr ≠ [] && contains (lang.sprint source) substr)
  | "max", [x, y] => do return lang.number (max (← lang.numberArgument x) (← lang.numberArgument y))
  | "min", [x, y] => do return lang.number (min (← lang.numberArgument x) (← lang.numberArgument y))
  | "abs", [x] => do return lang.number |← lang.numberArgument x|
  | "ceil", [x] => do return lang.number ⌈← lang.numberArgument x⌉
  | "floor", [x] => do return lang.number ⌊← lang.numberArgument x⌋
  | f, [tz] =>
    if f ∈ ["hour", "minute", "weekday", "month", "day"] then do
      return lang.number (request.clock f (trimSpace (← lang.stringArgument tz)))
    else .error (lang.unknown f)
  | f, _ => .error (lang.unknown f)

/-- A computation that leaves its trace also when it fails. -/
abbrev Eval (E α : Type) := ExceptT E (StateM Observed) α

def lift {α : Type} (x : Except E α) : Eval E α := ExceptT.mk (pure x)

def observe (f : Observed → Observed) : Eval E Unit := ExceptT.mk fun o => (.ok (), f o)

def tier (name : Text) (value : ℚ) : Eval E V := do
  observe fun o => { o with trace := { o.trace with matchedTier := name, cost := value } }
  return lang.number value

/-- `_trace` and `_trace_int` have one body. -/
def traceRule (ruleIndex : Int) (matched : Bool) (multiplier : ℚ) : Eval E V :=
  if matched then do
    observe fun o => { o with trace.requestRules :=
      if 0 ≤ ruleIndex then o.trace.requestRules.modify ruleIndex.toNat fun r =>
      { r with matched := true } else o.trace.requestRules }
    return lang.number multiplier
  else return lang.number 1

def callFunction (f : String) (arguments : List V) : Eval E V :=
  if f = "tier" then
    match arguments with
    | [name, value] => do tier lang (← lift (lang.stringArgument name)) (← lift (lang.numberArgument value))
    | _ => lift (.error (lang.unknown f))
  else if f = requestRuleTraceFunction then
    match arguments with
    | [ruleIndex, matched, multiplier] => do
      traceRule lang (← lift (lang.intArgument ruleIndex)) (← lift (lang.boolArgument matched))
        (← lift (lang.numberArgument multiplier))
    | _ => lift (.error (lang.unknown f))
  else if f = requestRuleTraceIntFunction then
    match arguments with
    | [ruleIndex, matched, multiplier] => do
      traceRule lang (← lift (lang.intArgument ruleIndex)) (← lift (lang.boolArgument matched))
        ((← lift (lang.intArgument multiplier)) : Int)
    | _ => lift (.error (lang.unknown f))
  else lift (function lang request f arguments)

mutual

def Node.ruleCount : Node → Nat
  | .unary _ node => node.ruleCount
  | .binary _ left right => left.ruleCount + right.ruleCount
  | .call _ arguments => ruleCountOf arguments
  | .conditional ternary cond exp1 exp2 =>
    cond.ruleCount + exp1.ruleCount + exp2.ruleCount + if (requestRule ternary cond exp1 exp2).isSome then 1 else 0
  | .other _ children => ruleCountOf children
  | _ => 0

def ruleCountOf : List Node → Nat
  | [] => 0
  | node :: nodes => node.ruleCount + ruleCountOf nodes

end

/-- The condition of a conditional, which may be a rule. -/
def decideRule (rule : Option Nat) (value : V) : Eval E Bool :=
  match lang.condition value with
  | .ok holds => do
    observe fun o => { o with decided := if holds then rule.toList ++ o.decided else o.decided }
    return holds
  | .error e => do
    observe fun o => { o with misread := rule.toList ++ o.misread }
    lift (.error e)

mutual

/-- The value of a node that `n` conditionals which are rewritten come before, in the order of the patcher. -/
def Node.eval : Node → Nat → Eval E V
  | .nil, _ => return lang.nil
  | .identifier value, _ => lift ((tokenVariable lang params value).elim (.error (lang.unknown value)) .ok)
  | .integer value, _ => return lang.number value
  | .float value, _ => return lang.number value
  | .bool value, _ => return lang.bool value
  | .string value, _ => return lang.string value
  | .unary operator node, n => do lift (lang.unary operator (← node.eval n))
  | .binary .and left right, n => do
    let value ← left.eval n
    if ← lift (lang.condition value) then right.eval (n + left.ruleCount) else return value
  | .binary .or left right, n => do
    let value ← left.eval n
    if ← lift (lang.condition value) then return value else right.eval (n + left.ruleCount)
  | .binary operator left right, n => do
    lift (lang.binary operator (← left.eval n) (← right.eval (n + left.ruleCount)))
  | .call callee arguments, n => do callFunction lang request callee (← evalAll arguments n)
  | .conditional ternary cond exp1 exp2, n => do
    let value ← cond.eval n
    let rule := (requestRule ternary cond exp1 exp2).map fun _ => n + cond.ruleCount + exp1.ruleCount + exp2.ruleCount
    if ← decideRule lang rule value then exp1.eval (n + cond.ruleCount)
    else exp2.eval (n + cond.ruleCount + exp1.ruleCount)
  | .other kind children, n => evalOther kind children n []

def evalAll : List Node → Nat → Eval E (List V)
  | [], _ => return []
  | node :: nodes, n => do
    let value ← node.eval n
    return value :: (← evalAll nodes (n + node.ruleCount))

def evalOther (kind : String) : List Node → Nat → List V → Eval E V
  | [], _, values => lift (lang.other kind values)
  | node :: nodes, n, values =>
    if lang.skips kind values then evalOther kind nodes (n + node.ruleCount) values
    else do
      let value ← node.eval n
      evalOther kind nodes (n + node.ruleCount) (values ++ [value])

end

/-- The program is compiled `AsFloat64`. -/
def runProgram (prog : Node) (requestRules : List RequestRuleTrace) : Except E ℚ × Observed :=
  (do lift (lang.asFloat64 (← prog.eval lang params request 0)) : Eval E ℚ)
    { trace := { requestRules := requestRules } }

/-! ## The patcher -/

section Patch

variable {str : Node → Text} {rules : List RequestRuleTrace} {node cond exp1 exp2 : Node}
  {ternary : Bool} {multiplier : ℚ}

theorem requestRule_some (h : requestRule ternary cond exp1 exp2 = some multiplier) :
    requestRuleNumber exp1 = some multiplier ∧ requestRuleNumber exp2 = some 1 := by
  unfold requestRule at h
  split at h
  · split at h
    · rename_i m fallback hm hfallback
      split_ifs at h with hone
      cases h
      exact ⟨hm, hone ▸ hfallback⟩
    · cases h
  · cases h

theorem identifiers_of_number (h : requestRuleNumber node = some multiplier) : node.identifiers = [] := by
  cases node <;> first | rfl | cases h

theorem requestRuleNumber_patch (node : Node) :
    requestRuleNumber (node.patch str rules).1 = requestRuleNumber node := by
  cases node with
  | conditional =>
    simp only [Node.patch, visit]
    split
    · rfl
    · unfold traceCall
      split <;> rfl
  | _ => rfl

def isProbe (identifier : String) : Bool :=
  identifier ∈ ["param", "header", "hour", "minute", "weekday", "month", "day"]

theorem identifiers_traceCall (ruleIndex : Nat) :
    (traceCall ruleIndex cond multiplier exp1 exp2).identifiers.filter (!isReserved ·) =
    cond.identifiers.filter (!isReserved ·) := by
  unfold traceCall
  split <;> simp [Node.identifiers, identifiersOf, isReserved]

theorem usageKeys_traceCall (ruleIndex : Nat) :
    (traceCall ruleIndex cond multiplier exp1 exp2).usageKeys = cond.usageKeys := by
  unfold traceCall
  split <;> simp [Node.usageKeys, usageKeysOf, literalKey]

theorem usageKeys_of_number (h : requestRuleNumber node = some multiplier) : node.usageKeys = [] := by
  cases node <;> first | rfl | cases h

theorem literalKey_patchAll (callee : String) (arguments : List Node) (rules : List RequestRuleTrace) :
    literalKey callee (patchAll str rules arguments).1 = literalKey callee arguments := by
  cases arguments with
  | nil => rfl
  | cons node nodes =>
    cases nodes with
    | nil =>
      cases node with
      | conditional =>
        simp only [patchAll, Node.patch, visit]
        split
        · rfl
        · unfold traceCall
          split <;> rfl
      | _ => rfl
    | cons => simp [patchAll, literalKey]

mutual

theorem uses_patch (node : Node) (rules : List RequestRuleTrace) :
    (node.patch str rules).1.identifiers.filter (!isReserved ·) = node.identifiers.filter (!isReserved ·) ∧
      (node.patch str rules).1.usageKeys = node.usageKeys := by
  cases node with
  | unary _ node => exact uses_patch node rules
  | binary _ left right =>
    simp [Node.patch, Node.identifiers, Node.usageKeys, uses_patch left, uses_patch right]
  | call callee arguments =>
    obtain ⟨hidentifiers, hkeys⟩ := uses_patchAll arguments rules
    simp [Node.patch, Node.identifiers, Node.usageKeys, literalKey_patchAll, filter_cons, hidentifiers, hkeys]
  | conditional _ cond exp1 exp2 =>
    simp only [Node.patch, visit]
    split
    · simp [Node.identifiers, Node.usageKeys, uses_patch cond, uses_patch exp1, uses_patch exp2]
    · rename_i multiplier hrule
      obtain ⟨h1, h2⟩ := requestRule_some hrule
      rw [requestRuleNumber_patch] at h1 h2
      simp [identifiers_traceCall, usageKeys_traceCall, uses_patch cond, Node.identifiers, Node.usageKeys,
        identifiers_of_number h1,
        identifiers_of_number h2, usageKeys_of_number h1, usageKeys_of_number h2]
  | other _ children => exact uses_patchAll children rules
  | _ => exact ⟨rfl, rfl⟩

theorem uses_patchAll (nodes : List Node) (rules : List RequestRuleTrace) :
    (identifiersOf (patchAll str rules nodes).1).filter (!isReserved ·) = (identifiersOf nodes).filter (!isReserved ·) ∧
      usageKeysOf (patchAll str rules nodes).1 = usageKeysOf nodes := by
  cases nodes with
  | nil => exact ⟨rfl, rfl⟩
  | cons node nodes => simp [patchAll, identifiersOf, usageKeysOf, uses_patch node, uses_patchAll nodes]

end

theorem any_identifiers_patch (node : Node) (rules : List RequestRuleTrace) :
    (node.patch str rules).1.identifiers.any isProbe = node.identifiers.any isProbe := by
  have hfilter : ∀ l : List String, l.any isProbe = (l.filter (!isReserved ·)).any isProbe := by
    intro l
    rw [any_filter]
    congr 1
    funext name
    grind [isProbe, isReserved, requestRuleTraceFunction, requestRuleTraceIntFunction]
  rw [hfilter, (uses_patch node rules).1, ← hfilter]

theorem requestRule_patch (rules1 rules2 rules3 : List RequestRuleTrace) :
    requestRule ternary (cond.patch str rules1).1 (exp1.patch str rules2).1 (exp2.patch str rules3).1 =
      requestRule ternary cond exp1 exp2 := by
  have hprobe : usesRequestProbe (cond.patch str rules1).1 = usesRequestProbe cond := any_identifiers_patch cond rules1
  simp only [requestRule, hprobe, requestRuleNumber_patch]

mutual

theorem length_patch (node : Node) (rules : List RequestRuleTrace) :
    (node.patch str rules).2.length = rules.length + node.ruleCount := by
  cases node with
  | unary _ node => exact length_patch node rules
  | binary _ left right =>
    simp [Node.patch, Node.ruleCount, length_patch left, length_patch right, Nat.add_assoc]
  | call _ arguments => exact length_patchAll arguments rules
  | conditional _ cond exp1 exp2 =>
    simp only [Node.patch, visit, requestRule_patch, Node.ruleCount]
    split <;> rename_i hrule <;>
      simp [hrule, length_patch cond, length_patch exp1, length_patch exp2, Nat.add_assoc]
  | other _ children => exact length_patchAll children rules
  | _ => rfl

theorem length_patchAll (nodes : List Node) (rules : List RequestRuleTrace) :
    (patchAll str rules nodes).2.length = rules.length + ruleCountOf nodes := by
  cases nodes with
  | nil => rfl
  | cons node nodes => simp only [patchAll, ruleCountOf, length_patch node, length_patchAll nodes, Nat.add_assoc]

end

mutual

theorem unmatched_patch (node : Node) (rules : List RequestRuleTrace) (h : ∀ r ∈ rules, r.matched = false) :
    ∀ r ∈ (node.patch str rules).2, r.matched = false := by
  cases node with
  | unary _ node => exact unmatched_patch node rules h
  | binary _ left right => exact unmatched_patch right _ (unmatched_patch left rules h)
  | call _ arguments => exact unmatched_patchAll arguments rules h
  | conditional _ cond exp1 exp2 =>
    have hchildren := unmatched_patch exp2 _ (unmatched_patch exp1 _ (unmatched_patch cond rules h))
    simp only [Node.patch, visit]
    split
    · exact hchildren
    · exact forall_mem_append.mpr ⟨hchildren, forall_mem_singleton.mpr rfl⟩
  | other _ children => exact unmatched_patchAll children rules h
  | _ => exact h

theorem unmatched_patchAll (nodes : List Node) (rules : List RequestRuleTrace) (h : ∀ r ∈ rules, r.matched = false) :
    ∀ r ∈ (patchAll str rules nodes).2, r.matched = false := by
  cases nodes with
  | nil => exact h
  | cons node nodes => exact unmatched_patchAll nodes _ (unmatched_patch node rules h)

end

theorem compileEntry_ok {check : Node → Except String Unit} {entry : CachedEntry}
    (h : compileEntry str check node = .ok entry) :
    entry.prog = (node.patch str []).1 ∧ entry.requestRules = (node.patch str []).2 ∧
      ∀ name ∈ node.identifiers, ¬isReserved name := by
  unfold compileEntry at h
  dsimp only at h
  split at h
  · cases h
  · rename_i hnone
    split at h
    · cases h
    · cases h
      exact ⟨rfl, rfl, filter_eq_nil_iff.mp (getLast?_eq_none_iff.mp hnone)⟩

end Patch

/-! ## The rewritten program -/

section Traced

variable {all : List RequestRuleTrace} {o o' : Observed} {α β : Type} {x y : Eval E α} {f g : α → Eval E β}

/-- The trace of the rewritten program against what the source program has noted. -/
structure Marked (all : List RequestRuleTrace) (o o' : Observed) : Prop where
  matchedTier : o.trace.matchedTier = o'.trace.matchedTier
  cost : o.trace.cost = o'.trace.cost
  requestRules : o.trace.requestRules = all.mapIdx fun i r => { r with matched := decide (i ∈ o'.decided) }
  misread : o'.misread = []

/-- The run has stopped at a rule whose condition is no bool. -/
def Misreads (r : Except E α × Observed) : Prop := r.2.misread ≠ [] ∧ ∃ e, r.1 = .error e

/-- One outcome, and the traces stay in step, until the source program stops at a rule whose condition is no bool. -/
def Follows (all : List RequestRuleTrace) (x y : Eval E α) : Prop :=
  ∀ o o', Marked all o o' → ((x o).1 = (y o').1 ∧ Marked all (x o).2 (y o').2) ∨ Misreads (y o')

theorem Follows.lift (a : Except E α) : Follows all (lift a) (lift a) := fun _ _ h => .inl ⟨rfl, h⟩

theorem Follows.pure (a : α) : Follows all (pure a : Eval E α) (pure a) := fun _ _ h => .inl ⟨rfl, h⟩

theorem Follows.observe {u v : Observed → Observed} (h : ∀ o o', Marked all o o' → Marked all (u o) (v o')) :
    Follows all (observe u : Eval E Unit) (observe v) := fun o o' hmarked => .inl ⟨rfl, h o o' hmarked⟩

theorem bind_apply (x : Eval E α) (f : α → Eval E β) (o : Observed) :
    (x >>= f) o = match x o with
      | (.ok a, o1) => f a o1 | (.error e, o1) => (.error e, o1) := by
  change ExceptT.bindCont f (x o).1 (x o).2 = _
  obtain ⟨a | a, _⟩ := x o <;> rfl

theorem Follows.bind (hx : Follows all x y) (hf : ∀ a, Follows all (f a) (g a)) : Follows all (x >>= f) (y >>= g) := by
  intro o o' hmarked
  have hstep := hx o o' hmarked
  rw [bind_apply, bind_apply]
  generalize x o = outcome, y o' = outcome' at hstep
  obtain ⟨a, o1⟩ := outcome
  obtain ⟨b, o2⟩ := outcome'
  rcases hstep with ⟨rfl, hrest⟩ | ⟨hmisread, e, rfl⟩
  · cases a with
    | ok a => exact hf a o1 o2 hrest
    | error => exact .inl ⟨rfl, hrest⟩
  · exact .inr ⟨hmisread, e, rfl⟩

theorem Follows.tier (name : Text) (value : ℚ) : Follows all (tier lang name value) (tier lang name value) :=
  .bind (.observe fun _ _ h => ⟨rfl, rfl, h.requestRules, h.misread⟩) fun _ => .pure _

theorem Follows.undecided (value : V) : Follows all (decideRule lang none value) (decideRule lang none value) := by
  unfold decideRule
  split
  · refine .bind (.observe fun _ _ h => ⟨h.matchedTier, h.cost, ?_, h.misread⟩) fun _ => .pure _
    simpa using h.requestRules
  · exact .bind (.observe fun _ _ h => ⟨h.matchedTier, h.cost, h.requestRules, h.misread⟩) fun _ => .lift _

theorem Marked.decide (h : Marked all o o') (k : Nat) : Marked all
      { o with trace.requestRules := if (0 : Int) ≤ k then
          o.trace.requestRules.modify (k : Int).toNat fun r => { r with matched := true } else o.trace.requestRules }
      { o' with decided := k :: o'.decided } where
  matchedTier := h.matchedTier
  cost := h.cost
  misread := h.misread
  requestRules := by
    simp only [Int.natCast_nonneg, if_true, h.requestRules]
    refine ext_getElem? fun i => ?_
    simp only [getElem?_modify, getElem?_mapIdx]
    cases all[i]? with
    | none => rfl
    | some =>
      by_cases hi : k = i
      · simp [hi]
      · simp [hi, Ne.symm hi]

theorem Follows.function {callee : String} (arguments : List V) (htrace : callee ≠ requestRuleTraceFunction)
    (hint : callee ≠ requestRuleTraceIntFunction) :
    Follows all (callFunction lang request callee arguments) (callFunction lang request callee arguments) := by
  unfold callFunction
  rw [if_neg htrace, if_neg hint]
  split
  · split
    · exact .bind (.lift _) fun _ => .bind (.lift _) fun _ => .tier lang _ _
    · exact .lift _
  · exact .lift _

variable {node cond exp1 exp2 : Node} {multiplier : ℚ} {lang params request}

theorem eval_of_number (h : requestRuleNumber node = some multiplier) (n : Nat) :
    node.eval lang params request n = pure (lang.number multiplier) := by
  cases node <;> cases h <;> rfl

/-- Numbers and bools are what they are, and nothing but a bool is a condition. -/
structure Lang.Exact (lang : Lang V E) : Prop where
  intArgument : ∀ i : Int, lang.intArgument (lang.number i) = .ok i
  numberArgument : ∀ x, lang.numberArgument (lang.number x) = .ok x
  condition : ∀ value b, lang.condition value = .ok b ↔ value = lang.bool b
  boolArgument : ∀ b, lang.boolArgument (lang.bool b) = .ok b

theorem callFunction_trace (k : Nat) (value : V) (hexact : lang.Exact) (multiplier : ℚ) :
    callFunction lang request requestRuleTraceFunction [lang.number (k : Int), value, lang.number multiplier] = (do
      traceRule lang k (← lift (lang.boolArgument value)) multiplier) := by
  unfold callFunction
  simp only [hexact.intArgument, hexact.numberArgument]
  rfl

theorem callFunction_traceInt (k : Nat) (value : V) (hexact : lang.Exact) (multiplier : Int) :
    callFunction lang request requestRuleTraceIntFunction [lang.number (k : Int), value, lang.number multiplier] = (do
      traceRule lang k (← lift (lang.boolArgument value)) multiplier) := by
  unfold callFunction
  simp only [hexact.intArgument]
  rfl

theorem eval_traceCall (hexact : lang.Exact) (h : requestRuleNumber exp1 = some multiplier) (k n : Nat) :
    (traceCall k cond multiplier exp1 exp2).eval lang params request n = (do
      traceRule lang k (← lift (lang.boolArgument (← cond.eval lang params request n))) multiplier) := by
  unfold traceCall
  split
  · cases h
    simp only [Node.eval, evalAll, pure_bind, bind_assoc, callFunction_traceInt k _ hexact]
    rfl
  · simp only [Node.eval, evalAll, pure_bind, bind_assoc, callFunction_trace k _ hexact]
    rfl

theorem follows_rule (hexact : lang.Exact) {k m n : Nat}
    {cond' : Node} (hcond : Follows all (cond'.eval lang params request m) (cond.eval lang params request n))
    {ternary : Bool} (hrule : requestRule ternary cond exp1 exp2 = some multiplier) (n1 n2 : Nat) {exp1' exp2' : Node}
    (hexp1 : requestRuleNumber exp1' = some multiplier) :
    Follows all ((traceCall k cond' multiplier exp1' exp2').eval lang params request m) (do
      let value ← cond.eval lang params request n
      if ← decideRule lang (some k) value then exp1.eval lang params request n1
      else exp2.eval lang params request n2) := by
  obtain ⟨h1, h2⟩ := requestRule_some hrule
  rw [eval_traceCall hexact hexp1, eval_of_number h1, eval_of_number h2]
  refine .bind hcond fun value => ?_
  unfold decideRule
  cases hdecided : lang.condition value with
  | error e => exact fun o o' _ => .inr ⟨cons_ne_nil k o'.misread, e, rfl⟩
  | ok holds =>
    obtain rfl := (hexact.condition value holds).mp hdecided
    rw [hexact.boolArgument]
    cases holds with
    | false => exact fun o o' h => .inl ⟨rfl, h⟩
    | true => exact fun o o' h => .inl ⟨rfl, h.decide k⟩

mutual

/-- The patched node does as the node itself, with the rules before it numbered in the patcher's order. -/
theorem follows_patch (hexact : lang.Exact) (str : Node → Text) (node : Node) (rules : List RequestRuleTrace)
    (m : Nat) (h : ∀ name ∈ node.identifiers, ¬isReserved name) :
    Follows all ((node.patch str rules).1.eval lang params request m) (node.eval lang params request rules.length) := by
  cases node with
  | unary _ node => exact .bind (follows_patch hexact str node rules m h) fun _ => .lift _
  | binary operator left right =>
    simp only [Node.identifiers, forall_mem_append] at h
    have hleft := follows_patch hexact str left rules m h.1
    have hright := fun m => follows_patch hexact str right (left.patch str rules).2 m h.2
    simp only [length_patch] at hright
    cases operator with
    | and =>
      refine .bind hleft fun value => .bind (.lift _) fun holds => ?_
      cases holds with
      | true => exact hright _
      | false => exact .pure _
    | or =>
      refine .bind hleft fun value => .bind (.lift _) fun holds => ?_
      cases holds with
      | true => exact .pure _
      | false => exact hright _
    | _ =>
      exact .bind hleft fun _ => .bind (hright _) fun _ => .lift _
  | call _ arguments =>
    simp only [Node.identifiers, forall_mem_cons] at h
    have hcallee := h.1
    simp only [isReserved, mem_cons, not_mem_nil, or_false, decide_eq_true_eq, not_or] at hcallee
    exact .bind (follows_patchAll hexact str arguments rules m h.2) fun values =>
      .function lang request values hcallee.1 hcallee.2
  | conditional ternary cond exp1 exp2 =>
    simp only [Node.identifiers, forall_mem_append] at h
    have hcond := fun m => follows_patch hexact str cond rules m h.1.1
    have hexp1 := fun m => follows_patch hexact str exp1 (cond.patch str rules).2 m h.1.2
    have hexp2 := fun m => follows_patch hexact str exp2 (exp1.patch str (cond.patch str rules).2).2 m h.2
    simp only [length_patch] at hexp1 hexp2
    simp only [Node.patch, visit, requestRule_patch]
    cases hrule : requestRule ternary cond exp1 exp2 with
    | none =>
      simp only [Node.eval, requestRule_patch, hrule]
      refine .bind (hcond _) fun value => .bind (.undecided lang value) fun holds => ?_
      cases holds with
      | true => exact hexp1 _
      | false => exact hexp2 _
    | some multiplier =>
      have hnumber : requestRuleNumber (exp1.patch str (cond.patch str rules).2).1 = some multiplier := by
        rw [requestRuleNumber_patch]
        exact (requestRule_some hrule).1
      simp only [Node.eval, hrule, length_patch]
      exact follows_rule hexact (hcond m) hrule _ _ hnumber
  | other kind children => exact follows_patchOther hexact str kind children rules m [] h
  | identifier => exact .lift _
  | _ => exact .pure _

theorem follows_patchAll (hexact : lang.Exact) (str : Node → Text) (nodes : List Node)
    (rules : List RequestRuleTrace) (m : Nat)
    (h : ∀ name ∈ identifiersOf nodes, ¬isReserved name) :
    Follows all (evalAll lang params request (patchAll str rules nodes).1 m)
      (evalAll lang params request nodes rules.length) := by
  cases nodes with
  | nil => exact .pure _
  | cons node nodes =>
    simp only [identifiersOf, forall_mem_append] at h
    have htail := fun m => follows_patchAll hexact str nodes (node.patch str rules).2 m h.2
    simp only [length_patch] at htail
    simp only [patchAll, evalAll]
    exact .bind (follows_patch hexact str node rules m h.1) fun _ => .bind (htail _) fun _ => .pure _

theorem follows_patchOther (hexact : lang.Exact) (str : Node → Text) (kind : String) (nodes : List Node)
    (rules : List RequestRuleTrace) (m : Nat) (values : List V) (h : ∀ name ∈ identifiersOf nodes, ¬isReserved name) :
    Follows all (evalOther lang params request kind (patchAll str rules nodes).1 m values)
      (evalOther lang params request kind nodes rules.length values) := by
  cases nodes with
  | nil => exact .lift _
  | cons node nodes =>
    simp only [identifiersOf, forall_mem_append] at h
    have htail := fun m values => follows_patchOther hexact str kind nodes (node.patch str rules).2 m values h.2
    simp only [length_patch] at htail
    simp only [patchAll, evalOther]
    split
    · exact htail _ values
    · exact .bind (follows_patch hexact str node rules m h.1) fun _ => htail _ _

end

theorem Marked.start (h : ∀ r ∈ all, r.matched = false) :
    Marked all { trace := { requestRules := all } } { trace := {} } where
  matchedTier := rfl
  cost := rfl
  misread := rfl
  requestRules := by
    refine ext_getElem? fun i => ?_
    rw [getElem?_mapIdx]
    cases hr : all[i]? with
    | none => rfl
    | some r => simp [← h r (mem_of_getElem? hr)]

end Traced

/-- The traced run gives the number or the error of the plain one and its tier, and just the rules that the plain run
has found to be met are marked. -/
structure Keeps (count : Nat) (traced plain : Except E ℚ × Observed) : Prop where
  price : traced.1 = plain.1
  matchedTier : traced.2.trace.matchedTier = plain.2.trace.matchedTier
  cost : traced.2.trace.cost = plain.2.trace.cost
  length : traced.2.trace.requestRules.length = count
  rules : ∀ i rule, traced.2.trace.requestRules[i]? = some rule → (rule.matched = true ↔ i ∈ plain.2.decided)

inductive Value
  | nil
  | number (x : ℚ)
  | bool (b : Bool)
  | string (s : Text)
  deriving DecidableEq

def Value.asBool : Value → Except Text Bool
  | .bool b => .ok b
  | _ => .error (text "not a bool")

def Value.asNumber : Value → Except Text ℚ
  | .number x => .ok x
  | _ => .error (text "not a number")

def plainLang : Lang Value Text where
  nil := .nil
  number := .number
  bool := .bool
  string := .string
  isNil v := v = .nil
  unary operator v :=
    match operator with
    | .neg => return .number (-(← v.asNumber))
    | .plus => return .number (← v.asNumber)
    | .not => return .bool !(← v.asBool)
  binary operator v w :=
    match operator with
    | .add => return .number ((← v.asNumber) + (← w.asNumber))
    | .sub => return .number ((← v.asNumber) - (← w.asNumber))
    | .mul => return .number ((← v.asNumber) * (← w.asNumber))
    | .div => return .number ((← v.asNumber) / (← w.asNumber))
    | .eq => return .bool (v = w)
    | .ne => return .bool (v ≠ w)
    | .lt => return .bool ((← v.asNumber) < (← w.asNumber))
    | .le => return .bool ((← v.asNumber) ≤ (← w.asNumber))
    | .gt => return .bool ((← w.asNumber) < (← v.asNumber))
    | .ge => return .bool ((← w.asNumber) ≤ (← v.asNumber))
    | .and | .or => .error []
  condition := Value.asBool
  boolArgument
    | .nil => .ok false
    | v => v.asBool
  intArgument v := return (← v.asNumber).num
  numberArgument := Value.asNumber
  stringArgument
    | .string s => .ok s
    | _ => .error (text "not a string")
  asFloat64 := Value.asNumber
  other kind _ := .error (text kind)
  skips _ _ := false
  sprint
    | .string s => s
    | _ => []
  unknown f := text f

/-- `p * 2 * (header("x-tier") == "fast" ? 3 : 1)`. -/
def fastTier : Node :=
  .binary .mul (.binary .mul (.identifier "p") (.integer 2))
    (.conditional true (.binary .eq (.call "header" [.string (text "x-tier")]) (.string (text "fast")))
      (.integer 3) (.integer 1))

def fastTierEntry : CachedEntry where
  prog := (fastTier.patch (fun _ => []) []).1
  requestRules := (fastTier.patch (fun _ => []) []).2

theorem plainLang_exact : plainLang.Exact where
  intArgument _ := rfl
  numberArgument _ := rfl
  condition value b := by cases value <;> simp [plainLang, Value.asBool]
  boolArgument _ := rfl

/-- `p * (param("vip") ? 2 : 1)`. -/
def vipRule : Node :=
  .binary .mul (.identifier "p") (.conditional true (.call "param" [.string (text "vip")]) (.integer 2) (.integer 1))

end CubeRouter.BillingExpr
