import CubeRouter.BillingExpr.RequestRules
import CubeRouter.Lib.Process

/-!
# The cache of compiled expressions

`UsedVars` and `UsedUsageKeys` look an expression up, compile it when it is missing, and look it up again. When the
cache is emptied between the store and the second lookup they answer nil. While a call stands there nobody else may
empty it (`used_right`).
-/

namespace CubeRouter.BillingExpr

open Concurrency Transition List
open Strings (Text text trimSpace)

/-! ## The calls -/

def parseExprVersion : Text → Nat × Text
  | 'v' :: '1' :: ':' :: body => (1, body)
  | body => (1, body)

/-- The parser, the printer, the checks and the optimizer of the expression language, and the digest of an expression.
-/
structure Toolchain where
  parse : Text → Except String Node
  str : Node → Text
  check : Node → Except String Unit
  optimize : Node → Node
  hash : Text → Text

def Toolchain.compile (tc : Toolchain) (e : Text) : Except CompileError CachedEntry :=
  match tc.parse (parseExprVersion e).2 with
  | .error message => .error (.compile message)
  | .ok node => (compileEntry tc.str tc.check node).map fun entry => { entry with prog := tc.optimize entry.prog }

abbrev Cache := List (Text × CachedEntry)

def maxCacheSize : Nat := 256

def Cache.store (cache : Cache) (hash : Text) (entry : CachedEntry) : Cache :=
  (hash, entry) :: if maxCacheSize ≤ cache.length then [] else cache.filter fun x => x.1 ≠ hash

/-- What is done under one lock. The second lookup of a call is no other than the first. -/
inductive Instr
  | lookup (hash : Text)
  | store (hash : Text) (entry : CachedEntry)
  | lookupAgain (hash : Text)

abbrev Instr.Answer : Instr → Type
  | .lookup _ | .lookupAgain _ => Option CachedEntry
  | .store _ _ => Unit

def exec : (i : Instr) → Unit → Cache → i.Answer × Cache
  | .lookup hash, _, cache | .lookupAgain hash, _, cache => (List.lookup hash cache, cache)
  | .store hash entry, _, cache => ((), cache.store hash entry)

abbrev Call := Prog Instr Instr.Answer

variable (tc : Toolchain)

def compileEntryFromCache (e : Text) : Call (Except CompileError CachedEntry) := do
  match ← perform (Instr.lookup (tc.hash e)) with
  | some entry => return .ok entry
  | none =>
    match tc.compile e with
    | .error err => return .error err
    | .ok entry =>
      let _ ← perform (Instr.store (tc.hash e) entry)
      return .ok entry

/-- `UsedVars` and `UsedUsageKeys` but for the field of the entry that they return. -/
def used (e : Text) : Call (Option CachedEntry) := do
  if e = [] then return none
  match ← perform (Instr.lookup (tc.hash e)) with
  | some entry => return some entry
  | none =>
    match ← compileEntryFromCache tc e with
    | .error _ => return none
    | .ok _ => perform (Instr.lookupAgain (tc.hash e))

inductive Request
  | compileFromCache (e : Text)
  | usedVars (e : Text)
  | usedUsageKeys (e : Text)

/-- What a call returns, with its expression. -/
inductive Result
  | program (e : Text) (r : Except CompileError CachedEntry)
  | vars (e : Text) (r : Option (String → Bool))
  | keys (e : Text) (r : Option (Text → Bool))

def usedVars (e : Text) (entry : Option CachedEntry) : Result :=
  .vars e (entry.map fun entry => extractUsedVars entry.prog)

def usedUsageKeys (e : Text) (entry : Option CachedEntry) : Result :=
  .keys e (entry.map fun entry => extractUsedUsageKeys entry.prog)

/-- The environment calls `InvalidateCache`. -/
def system : System Cache Instr Instr.Answer Result Request Unit Unit where
  exec := exec
  begin
    | .compileFromCache e => do return .program e (← compileEntryFromCache tc e)
    | .usedVars e => do return usedVars e (← used tc e)
    | .usedUsageKeys e => do return usedUsageKeys e (← used tc e)
  env _ _ := []

/-! ## Runs -/

/-- The expression compiles to the program of this node. -/
def Toolchain.Compiles (e : Text) (node : Node) : Prop :=
  e ≠ [] ∧ tc.parse (parseExprVersion e).2 = .ok node ∧ ∃ entry, compileEntry tc.str tc.check node = .ok entry

/-- The optimizer folds away nothing that the program uses, and makes no literal key. -/
def Toolchain.KeepsUses (node : Node) : Prop :=
  let prog := (node.patch tc.str []).1
  (∀ name, name ∈ (tc.optimize prog).identifiers ↔ name ∈ prog.identifiers) ∧
    ∀ key, key ∈ (tc.optimize prog).usageKeys ↔ key ∈ prog.usageKeys

/-- A program is that of the expression, and what is said to be used is what the expression uses. -/
def Right : Result → Prop
  | .program e r => r = tc.compile e
  | .vars e r => ∀ node, tc.Compiles e node → tc.KeepsUses node → r = some fun name => decide (name ∈ node.identifiers)
  | .keys e r => ∀ node, tc.Compiles e node → tc.KeepsUses node → r = some fun key => decide (key ∈ node.usageKeys)

/-- Every cached program is that of its expression. -/
def Genuine (cache : Cache) : Prop := ∀ x ∈ cache, ∀ e, tc.hash e = x.1 → tc.compile e = .ok x.2

/-- When a call looks again, its entry is still there. -/
def StillThere : Instr → Cache → Prop
  | .lookupAgain hash, cache => (List.lookup hash cache).isSome
  | _, _ => True

def rules : Rules (system tc) where
  inv := Genuine tc
  rel _ _ := True
  fair i _ := StillThere i
  lets _ _ := True
  refl _ := trivial
  trans _ _ _ _ _ := trivial
  env _ _ _ _ := ⟨trivial, fun _ hx => by cases hx⟩

variable {tc} {cache : Cache} {e : Text} {entry : CachedEntry} {answer : Option CachedEntry → Result}

theorem compile_eq {node : Node} (hparse : tc.parse (parseExprVersion e).2 = .ok node)
    (hentry : compileEntry tc.str tc.check node = .ok entry) :
    tc.compile e = .ok { entry with prog := tc.optimize entry.prog } := by
  simp [Toolchain.compile, hparse, hentry, Except.map]

theorem right_answer (hanswer : answer = usedVars e ∨ answer = usedUsageKeys e) (h : tc.compile e = .ok entry) :
    Right tc (answer (some entry)) := by
  have huses : ∀ node, tc.Compiles e node → tc.KeepsUses node →
      extractUsedVars entry.prog = (fun name => decide (name ∈ node.identifiers)) ∧
        extractUsedUsageKeys entry.prog = fun key => decide (key ∈ node.usageKeys) := by
    rintro node ⟨-, hparse, entry', hentry⟩ ⟨hvars, hkeys⟩
    rw [compile_eq hparse hentry] at h
    cases h
    obtain ⟨hprog, -, hfree⟩ := compileEntry_ok hentry
    obtain ⟨hidentifiers, hkeys'⟩ := @uses_patch tc.str node []
    rw [← hprog] at hvars hkeys hidentifiers hkeys'
    constructor
    · funext name
      have hname := congrArg (name ∈ ·) hidentifiers
      simp only [mem_filter, eq_iff_iff] at hname
      simp only [extractUsedVars, hvars]
      grind
    · funext key
      simp only [extractUsedUsageKeys, hkeys, hkeys']
  rcases hanswer with rfl | rfl
  · exact fun node hnode hkeeps => congrArg some (huses node hnode hkeeps).1
  · exact fun node hnode hkeeps => congrArg some (huses node hnode hkeeps).2

theorem right_none (hanswer : answer = usedVars e ∨ answer = usedUsageKeys e) (h : ∀ node, ¬tc.Compiles e node) :
    Right tc (answer none) := by
  rcases hanswer with rfl | rfl
  · exact fun node hnode => absurd hnode (h node)
  · exact fun node hnode => absurd hnode (h node)

theorem Genuine.lookup (h : Genuine tc cache) (hlookup : List.lookup (tc.hash e) cache = some entry) :
    tc.compile e = .ok entry := by
  obtain ⟨l, r, rfl, -⟩ := lookup_eq_some_iff.mp hlookup
  exact h _ (mem_append_right l mem_cons_self) e rfl

theorem Genuine.store (h : Genuine tc cache) (hhash : tc.hash.Injective) (hentry : tc.compile e = .ok entry) :
    Genuine tc (cache.store (tc.hash e) entry) := by
  intro x hx e' he'
  rcases mem_cons.mp hx with rfl | hx
  · rwa [hhash he']
  · split_ifs at hx
    · cases hx
    · exact h x (mem_of_mem_filter hx) e' he'

abbrev Safe (tc : Toolchain) (q : Call Result) (cache : Cache) : Prop := (rules tc).Safe (fun a _ => Right tc a) q cache

theorem safe_ret {a : Result} (h : Right tc a) : Safe tc (.ret a) cache := fun _ _ _ => h

theorem safe_lookup {k : Option CachedEntry → Call Result} (hnone : ∀ cache, Safe tc (k none) cache)
    (hsome : ∀ entry cache, tc.compile e = .ok entry → Safe tc (k (some entry)) cache) :
    Safe tc (.call (.lookup (tc.hash e)) k) cache := by
  intro cache' _ hgenuine w _
  refine ⟨trivial, hgenuine, trivial, ?_⟩
  generalize hlookup : ((system tc).exec (.lookup (tc.hash e)) w cache').1 = r
  cases r with
  | some entry => exact hsome entry cache' (hgenuine.lookup hlookup)
  | none => exact hnone cache'

theorem safe_compile (hhash : tc.hash.Injective) {k : Except CompileError CachedEntry → Call Result}
    (h : ∀ r cache, r = tc.compile e → Safe tc (k r) cache) : Safe tc (compileEntryFromCache tc e >>= k) cache := by
  refine safe_lookup (fun cache' => ?_) fun entry cache' hentry => h _ _ hentry.symm
  cases hcompile : tc.compile e with
  | error => exact h _ _ hcompile.symm
  | ok entry => exact fun _ _ hgenuine _ _ => ⟨trivial, hgenuine.store hhash hcompile, trivial, h _ _ hcompile.symm⟩

theorem safe_used (hhash : tc.hash.Injective) (hanswer : answer = usedVars e ∨ answer = usedUsageKeys e) :
    Safe tc (used tc e >>= fun r => .ret (answer r)) cache := by
  by_cases hne : e = []
  · rw [used, if_pos hne]
    exact safe_ret (right_none hanswer fun _ hnode => hnode.1 hne)
  rw [used, if_neg hne]
  refine safe_lookup (fun cache' => ?_) fun entry _ hentry => safe_ret (right_answer hanswer hentry)
  refine (congrArg (Safe tc · cache') (bind_bind (compileEntryFromCache tc e) _ _)).mpr ?_
  refine safe_compile hhash fun r _ hr => ?_
  cases r with
  | error =>
    refine safe_ret (right_none hanswer ?_)
    rintro node ⟨-, hparse, entry, hentry⟩
    cases hr.trans (compile_eq hparse hentry)
  | ok =>
    -- nobody else has emptied the cache since the store
    intro _ _ hgenuine _ hthere
    obtain ⟨entry, hentry⟩ := Option.isSome_iff_exists.mp hthere
    have hright := right_answer hanswer (hgenuine.lookup hentry)
    rw [← hentry] at hright
    exact ⟨trivial, hgenuine, trivial, safe_ret hright⟩

theorem safe_begin (hhash : tc.hash.Injective) (b : Request) : Safe tc ((system tc).begin b) cache := by
  cases b with
  | compileFromCache e => exact safe_compile hhash fun r _ hr => safe_ret hr
  | usedVars e => exact safe_used hhash (.inl rfl)
  | usedUsageKeys e => exact safe_used hhash (.inr rfl)

/-- In every run in which each call that looks again finds its entry, every answer is right. -/
theorem used_right (hhash : tc.hash.Injective) {l : List (Event Request Unit Unit)}
    (h : Along (system tc).step (rules tc).Fair { shared := [] } l) (j : Nat) (a : Result)
    (hj : (run (system tc).step { shared := [] } l).calls[j]? = some (.ret a)) : Right tc a := by
  have hkeeps : (rules tc).Keeps (fun _ _ _ => True) (fun _ a _ => Right tc a) { shared := [] } :=
    ⟨fun _ hx => (by cases hx), fun _ _ hq => by cases hq⟩
  have hrun := (Rules.safe_run hkeeps h fun _ b _ _ _ _ => safe_begin hhash b).1
  exact hrun.safe j _ hj _ trivial hrun.inv

/-- Every expression is the variable `p`. -/
def sampleToolchain : Toolchain := ⟨fun _ => .ok (.identifier "p"), fun _ => [], fun _ => .ok (), id, id⟩

def turns (j n : Nat) : List (Event Request Unit Unit) := List.replicate n (.advance j ())

/-- Before the call stores its entry the cache is emptied and another expression compiled. -/
theorem used_right_emptied :
    Right sampleToolchain (usedVars ['p'] (some { prog := .identifier "p", requestRules := [] })) :=
  used_right (l := .start (.usedVars ['p']) :: turns 0 2 ++
    [.env (), .start (.compileFromCache ['c'])] ++ turns 1 2 ++ turns 0 2)
    (fun _ _ h => h)
    (by refine ⟨trivial, ?_, ?_, trivial, trivial, ?_, ?_, ?_, ?_, trivial⟩ <;>
      (rintro i hi; cases hi; trivial)) 0 _ rfl

/-- `InvalidateCache` comes between the store and the second lookup. -/
theorem emptied_cache_answers_nil :
    (run (system sampleToolchain).step { shared := [] }
      (.start (.usedVars ['p']) :: turns 0 3 ++ .env () :: turns 0 1)).calls[0]? =
        some (.ret (.vars ['p'] none)) ∧
      sampleToolchain.Compiles ['p'] (.identifier "p") ∧ ¬Right sampleToolchain (.vars ['p'] none) := by
  have hcompiles : sampleToolchain.Compiles ['p'] (.identifier "p") := ⟨by decide, rfl, _, rfl⟩
  exact ⟨rfl, hcompiles, fun h => by cases h _ hcompiles ⟨fun _ => .rfl, fun _ => .rfl⟩⟩

end CubeRouter.BillingExpr
