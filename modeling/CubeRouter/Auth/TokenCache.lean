import CubeRouter.Auth.Session

/-!
# The token cache

`model/token_cache.go`, with its readers and writers in `model/token.go`: the hash of a token is filled from the
database when it is cold, and a change of the token raises a fence before it deletes the hash. The fence is a key of
its own that is left to expire; while it is there nothing is filled. The store is that of one key. What a token has
counted changes in the row and in the hash at any time, and is kept apart from its settings.
-/

namespace CubeRouter.Auth.TokenCache

open Concurrency Expiring

/-- Milliseconds. -/
def tokenCacheFence : Int := 10 * 1000

def tokenCacheScopeVersion : Int := 1

def tokenCacheTTLSeconds (redisKeyCacheSeconds : Int) : Int :=
  if redisKeyCacheSeconds ≤ 0 then 60 else redisKeyCacheSeconds

/-- The columns that a change of the token writes; `ι` is how `AllowIps` is held. -/
structure Settings (ι : Type) where
  id : Int
  userId : Int
  status : Int := 1
  name : String := ""
  createdTime : Int := 0
  expiredTime : Int := -1
  unlimitedQuota : Bool := false
  modelLimitsEnabled : Bool := false
  modelLimits : String := ""
  allowIps : ι
  group : String := ""
  crossGroupRetry : Bool := false
  autoGroups : String := ""
  scopeType : String := "personal"
  scopeId : Int := 0
  visibility : String := "private"
  organizationId : Int := 0
  creatorUserId : Int := 0
  responsibleUserId : Int := 0
  transferReason : String := ""
  disabledBySystems : Bool := false
  systemDisabledReason : String := ""
  systemDisabledRefId : Int := 0
  systemDisabledAt : Int := 0
  previousStatus : Int := 0

structure Counters where
  accessedTime : Int := 0
  remainQuota : Int := 0
  usedQuota : Int := 0

structure Token where
  settings : Settings (Option String)
  counters : Counters := {}

structure TokenHash where
  settings : Settings String
  counters : Counters
  cacheScopeVersion : Int

section Settings

variable {ι : Type}

/-- A column that is zero or empty is filled with a default. -/
def orElse {α : Type} [DecidableEq α] (empty value default : α) : α := if value = empty then default else value

def normalizeTokenScope (t : Settings ι) : Settings ι :=
  let t := { t with scopeType := orElse "" t.scopeType "personal" }
  if t.scopeType = "personal" then
    { t with
      scopeId := orElse 0 t.scopeId t.userId
      creatorUserId := orElse 0 t.creatorUserId t.userId
      responsibleUserId := orElse 0 t.responsibleUserId t.userId
      visibility := orElse "" t.visibility "private" }
  else if t.scopeType = "organization" then
    { t with
      scopeId := orElse 0 t.scopeId t.organizationId
      visibility := orElse "" t.visibility "private" }
  else t

/-- A pointer that is nil is written as the empty text. -/
def Settings.write (t : Settings (Option String)) : Settings String := { t with allowIps := t.allowIps.getD "" }

/-- The empty text is read as a pointer that is nil. -/
def Settings.read (t : Settings String) : Settings (Option String) :=
  { t with allowIps := if t.allowIps = "" then none else some t.allowIps }

theorem Settings.write_read (t : Settings String) : t.read.write = t := by
  have hips : (if t.allowIps = "" then none else some t.allowIps).getD "" = t.allowIps := by
    split_ifs with h
    · exact h.symm
    · rfl
  unfold Settings.read Settings.write
  rw [hips]

end Settings

/-! ## The store -/

structure Store where
  clock : Int
  row : Option Token
  hash : Option (Key TokenHash) := none
  fence : Option (Key Unit) := none
  /-- The settings that have been committed, and when. Nothing reads them. -/
  history : List (Int × Option (Settings (Option String)))

inductive Instr
  | readHash
  /-- The answer says when the row was read. -/
  | readRow
  /-- `readAt` is only there for who reads a run. -/
  | initToken (token : Token) (readAt : Int)
  /-- The answer says when the fence was raised. -/
  | setFence
  | deleteHash
  /-- The answer is the place of the commit in the history, and nothing if there is none; `fencedAt` is for who reads
  a run. -/
  | commit (fencedAt : Option Int) (f : Option Token → Option Token)

@[reducible] def Instr.Answer : Instr → Type
  | .readHash => Option TokenHash
  | .readRow => Option Token × Int
  | .initToken _ _ => Option Nat
  | .setFence => Option Int
  | .deleteHash => Bool
  | .commit _ _ => Option Nat

structure Choice where
  redis : Fate := .done
  commit : Bool := true

section Scripts

variable (redisKeyCacheSeconds : Int)

def Store.cacheExpires (s : Store) : Int := s.clock + tokenCacheTTLSeconds redisKeyCacheSeconds * 1000

/-- The script of `cacheInitToken`. -/
def Store.initToken (s : Store) (token : Token) : Nat × Store :=
  if (live s.clock s.fence).isSome then (0, s)
  else
    match live s.clock s.hash with
    | some hash => (2, { s with hash := put s.clock hash (s.cacheExpires redisKeyCacheSeconds) })
    | none =>
      let hash : TokenHash := ⟨token.settings.write, token.counters, tokenCacheScopeVersion⟩
      (1, { s with hash := put s.clock hash (s.cacheExpires redisKeyCacheSeconds) })

def Store.setFence (s : Store) : Store := { s with fence := put s.clock () (s.clock + tokenCacheFence) }

def Store.commit (s : Store) (f : Option Token → Option Token) : Store :=
  { s with
    row := f s.row
    history := s.history ++ [(s.clock, (f s.row).map Token.settings)] }

def reach {α : Type} (fate : Fate) (failed : α) (r : α × Store) (s : Store) : α × Store :=
  match fate with
  | .done => r
  | .failed => (failed, s)
  | .lost => (failed, r.2)

def exec : (i : Instr) → Choice → Store → i.Answer × Store
  | .readHash, w, s => (if w.redis = .done then live s.clock s.hash else none, s)
  | .readRow, _, s => ((s.row, s.clock), s)
  | .initToken token _, w, s =>
    let r := s.initToken redisKeyCacheSeconds token
    reach w.redis none (some r.1, r.2) s
  | .setFence, w, s => reach w.redis none (some s.clock, s.setFence) s
  | .deleteHash, w, s => reach w.redis false (true, { s with hash := none }) s
  | .commit _ f, w, s => if w.commit then (some s.history.length, s.commit f) else (none, s)

end Scripts

/-! ## Calls -/

abbrev Call (α : Type) := Prog Instr Instr.Answer α

/-- `cacheGetTokenByKey`; nothing for every reason to go to the database. -/
def cacheGetTokenByKey : Call (Option Token) := do
  match ← perform Instr.readHash with
  | none => return none
  | some hash =>
    if hash.settings.id ≤ 0 then return none
    else if hash.cacheScopeVersion < tokenCacheScopeVersion then return none
    else return some ⟨hash.settings.read, hash.counters⟩

/-- `GetTokenByKey` from the database. -/
def loadToken : Call (Option Token) := do
  match ← perform Instr.readRow with
  | (none, _) => return none
  | (some row, readAt) =>
    let token : Token := { row with settings := normalizeTokenScope row.settings }
    let _ ← perform (Instr.initToken token readAt)
    return some token

def getTokenByKey (fromDB : Bool) : Call (Option Token) := do
  if fromDB then loadToken
  else
    match ← cacheGetTokenByKey with
    | some token => return some token
    | none => loadToken

/-- When the fence was raised, if both commands have got through. -/
def invalidateTokenCacheForMutation : Call (Option Int) := do
  match ← perform Instr.setFence with
  | none => return none
  | some fencedAt => if ← perform Instr.deleteHash then return some fencedAt else return none

/-- `Update`, `SelectUpdate`, `Delete` and `BatchDeleteTokens`: the invalidation comes before the write. -/
def mutateToken (f : Option Token → Option Token) : Call (Option Nat × Bool) := do
  let fencedAt ← invalidateTokenCacheForMutation
  return (← perform (Instr.commit fencedAt f), fencedAt.isSome)

/-- A transaction, and `InvalidateTokenCache` after its commit. -/
def commitThenInvalidate (f : Option Token → Option Token) : Call (Option Nat × Bool) := do
  let n ← perform (Instr.commit none f)
  return (n, (← invalidateTokenCacheForMutation).isSome)

inductive Request
  | get (fromDB : Bool)
  | mutate (f : Option Token → Option Token)
  | commitThenInvalidate (f : Option Token → Option Token)

inductive Answer
  | token (r : Option Token)
  /-- The place of the change in the history, and whether the cache was invalidated. -/
  | mutated (r : Option Nat × Bool)

def Request.call : Request → Call Answer
  | .get fromDB => do return .token (← getTokenByKey fromDB)
  | .mutate f => do return .mutated (← mutateToken f)
  | .commitThenInvalidate f => do return .mutated (← TokenCache.commitThenInvalidate f)

/-- Time that passes, and what others do to the counters: the two scripts of `model/quota_reserve.go` and the column
update. -/
inductive Change
  | tick (n : Nat)
  | tryReserve (id amount now : Int)
  | applyDelta (id delta now : Int)
  | increaseQuota (quota now : Int)

def Counters.move (c : Counters) (delta now : Int) : Counters :=
  { remainQuota := c.remainQuota + delta, usedQuota := c.usedQuota - delta, accessedTime := now }

/-- The counters of the hash, if it is that of the token and `p` holds of them. -/
def Store.moveHash (s : Store) (id delta now : Int) (p : Counters → Bool) : Store :=
  match s.hash with
  | some k =>
    if s.clock ≤ k.expires ∧ k.value.settings.id = id ∧ p k.value.counters then
      { s with hash := some { k with value := { k.value with counters := k.value.counters.move delta now } } }
    else s
  | none => s

def Change.apply : Change → Store → Store
  | .tick n, s => { s with clock := s.clock + n }
  | .tryReserve id amount now, s => s.moveHash id (-amount) now fun c => amount ≤ c.remainQuota
  | .applyDelta id delta now, s => s.moveHash id delta now fun _ => true
  | .increaseQuota quota now, s => { s with row := s.row.map fun t => { t with counters := t.counters.move quota now } }

def tokens (redisKeyCacheSeconds : Int) : System Store Instr Instr.Answer Answer Request Choice Change where
  exec := exec redisKeyCacheSeconds
  begin := Request.call
  env := Change.apply

theorem initToken_keeps (redisKeyCacheSeconds : Int) (s : Store) (w : Choice) (token : Token)
    (readAt : Int) (hash : TokenHash)
    (h : live s.clock s.hash = some hash) :
    live s.clock ((exec redisKeyCacheSeconds (.initToken token readAt) w s).2.hash) = some hash := by
  have hkept : live s.clock (s.initToken redisKeyCacheSeconds token).2.hash = some hash := by
    unfold Store.initToken
    split_ifs
    · exact h
    · rw [h]
      have hexpires : s.clock < s.cacheExpires redisKeyCacheSeconds := by
        unfold Store.cacheExpires tokenCacheTTLSeconds
        split_ifs <;> omega
      exact live_eq_some_iff.mpr ⟨_, put_eq_some_iff.mpr ⟨hexpires, rfl⟩, Int.le_of_lt hexpires, rfl⟩
  obtain ⟨fate, _⟩ := w
  cases fate with
  | done => exact hkept
  | failed => exact h
  | lost => exact hkept

end CubeRouter.Auth.TokenCache
