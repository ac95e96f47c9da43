import CubeRouter.Lib.Pool
import CubeRouter.Lib.Run

/-!
# A wallet with Redis and batch updates

With Redis and batch updates on, the balance of a user lives in three places: the column `users.quota`,
the entry of the user in the batch buffer of the process, and the field `Quota` of the Redis hash. This
module has the operations on the three as the source has them (`model/quota_reserve.go`,
`model/user_cache.go`, `model/utils.go`, `model/user.go`), cut where another goroutine can come in
between: a Lua script, a statement of the database and a critical section of the buffer are one step.
-/

namespace CubeRouter.Quota

/-! ## The stores -/

/-- The three copies of a user's balance. `cache` is `none` while the hash does not exist; a script that
creates the hash always writes `Quota` with it. -/
structure Stores where
  quota : Int
  buffer : Int64
  cache : Option Int

/-- An amount that has passed the sign check of the function it was given to. -/
structure Amount where
  val : Int64
  nonneg : 0 ≤ val

def Amount.toInt (a : Amount) : Int := a.val.toInt

/-- How the store a step talks to answers: as asked, with an error, or with an authorization version
that is newer than the one at hand (the fence of `GetUserCache`). -/
inductive Answer where
  | ok
  | failed
  | fenced
deriving DecidableEq

inductive CacheQuotaResult where
  | insufficient
  | ok
  | miss
deriving DecidableEq

/-- The entry of the buffer after a record; a sum that leaves the range of `int` is cut. -/
def addNewRecord (old value : Int64) : Int64 :=
  let sum := old + value
  if (0 < value ∧ sum < old) ∨ (value < 0 ∧ old < sum) then
    if 0 < value then Int64.maxValue else Int64.minValue
  else
    sum

def Stores.record (st : Stores) (value : Int64) : Stores :=
  { st with buffer := addNewRecord st.buffer value }

/-- `userQuotaReserveScript`; `none` is a Redis error. -/
def cacheTryReserveUserQuota (st : Stores) (answer : Answer) (amount : Int) :
    Option CacheQuotaResult × Stores :=
  if answer = .failed then
    (none, st)
  else
    match st.cache with
    | none => (some .miss, st)
    | some quota =>
      if quota < amount then (some .insufficient, st)
      else (some .ok, { st with cache := some (quota - amount) })

/-- `userQuotaDeltaScript`, which leaves a missing hash alone. -/
def cacheApplyUserQuotaDelta (st : Stores) (answer : Answer) (delta : Int) : Stores :=
  if answer = .failed then st else { st with cache := st.cache.map (· + delta) }

/-- With batch updates on, the delta is queued and there is no error to compensate. -/
def persistUserQuotaDelta (st : Stores) (delta : Int64) : Stores := st.record delta

/-- `UPDATE users SET quota = quota - ? WHERE id = ? AND quota >= ?`. -/
def reserveUserQuotaDB (st : Stores) (answer : Answer) (quota : Int) : Bool × Stores :=
  if answer = .failed then
    (false, st)
  else if quota ≤ st.quota then
    (true, { st with quota := st.quota - quota })
  else
    (false, st)

/-! ## `GetUserCache` -/

/-- Where a call of `GetUserCache` stands: before it looks into Redis, before it reads the row, before it
writes the hash with the `quota` of the row it has read. -/
inductive Hydration where
  | lookup
  | readRow
  | populate (row : Int)

/-- What a step of `GetUserCache` leads to: its next step, a user, or an error. -/
inductive Hydrated where
  | next (at_ : Hydration)
  | returned
  | refused

/-- `HSET Quota` of `populateUserCache`, only if the hash has no `Quota`. -/
def Stores.populate (st : Stores) (row : Int) : Stores :=
  { st with cache := some (st.cache.getD row) }

def Hydration.step (st : Stores) (answer : Answer) : Hydration → Hydrated × Stores
  | .lookup =>
    if answer = .ok ∧ st.cache.isSome then (.returned, st) else (.next .readRow, st)
  | .readRow =>
    match answer with
    | .ok => (.next (.populate st.quota), st)
    | .failed => (.refused, st)
    | .fenced => (.refused, st)
  | .populate row =>
    match answer with
    | .ok => (.returned, st.populate row)
    | .failed => (.returned, st)
    | .fenced => (.refused, st)

/-! ## The calls -/

/-- Where a call of `TryReserveUserQuota` stands: before the script, in the hydration after a miss,
before the second try of the script, before the statement of the database, or before the record of what
the script has granted. -/
inductive Reservation where
  | script
  | hydrate (at_ : Hydration)
  | retry
  | fallback
  | persist

/-- A running call: a reservation, a reader, a `DecreaseUserQuota` before its record, a goroutine of
`goQuotaCacheUpdate`, or a `batchUpdate` with the share it has taken out of the buffer. -/
inductive Call where
  | tryReserve (quota : Amount) (at_ : Reservation)
  | getUserCache (at_ : Hydration)
  | decrease (quota : Amount)
  | cacheDelta (delta : Int)
  | flush (share : Int64)

/-- A step of `TryReserveUserQuota` after its sign check. -/
def Reservation.step (st : Stores) (answer : Answer) (quota : Amount) : Reservation → Stores × List Call
  | .script =>
    match cacheTryReserveUserQuota st answer quota.toInt with
    | (none, st) => (st, [.tryReserve quota .fallback])
    | (some .miss, st) => (st, [.tryReserve quota (.hydrate .lookup)])
    | (some .insufficient, st) => (st, [])
    | (some .ok, st) => (st, [.tryReserve quota .persist])
  | .hydrate at_ =>
    match at_.step st answer with
    | (.next at_, st) => (st, [.tryReserve quota (.hydrate at_)])
    | (.returned, st) => (st, [.tryReserve quota .retry])
    | (.refused, st) => (st, [.tryReserve quota .fallback])
  | .retry =>
    match cacheTryReserveUserQuota st answer quota.toInt with
    | (none, st) => (st, [.tryReserve quota .fallback])
    | (some .miss, st) => (st, [.tryReserve quota .fallback])
    | (some .insufficient, st) => (st, [])
    | (some .ok, st) => (st, [.tryReserve quota .persist])
  | .fallback => ((reserveUserQuotaDB st answer quota.toInt).2, [])
  | .persist => (persistUserQuotaDelta st (-quota.val), [])

def Call.step (st : Stores) (answer : Answer) : Call → Stores × List Call
  | .tryReserve quota at_ => at_.step st answer quota
  | .getUserCache at_ =>
    match at_.step st answer with
    | (.next at_, st) => (st, [.getUserCache at_])
    | (.returned, st) => (st, [])
    | (.refused, st) => (st, [])
  | .decrease quota => (st.record (-quota.val), [])
  | .cacheDelta delta => (cacheApplyUserQuotaDelta st answer delta, [])
  | .flush share =>
    -- a failed `UPDATE` queues the share again
    if answer = .failed then
      (if share = 0 then st else st.record share, [])
    else
      ({ st with quota := st.quota + share.toInt }, [])

/-! ## The wallet -/

structure Wallet where
  stores : Stores
  calls : List Call

def maxWalletQuota : Int64 := 9007199254740991

/-- What can happen next: a call begins, a running call takes its next step, or the hash goes (its time
is over, or `invalidateUserCache` deletes it). -/
inductive Event where
  | tryReserveUserQuota (quota : Int64)
  | increaseUserQuota (quota : Int64)
  | decreaseUserQuota (quota : Int64)
  | getUserCache
  | batchUpdate
  | expire
  | advance (i : Nat) (answer : Answer)

def Wallet.start (s : Wallet) (calls : List Call) : Wallet := { s with calls := s.calls ++ calls }

/-- `IncreaseUserQuota` has queued its record before the goroutine of its cache delta exists,
`DecreaseUserQuota` the other way round. -/
def step (s : Wallet) : Event → Wallet
  | .tryReserveUserQuota quota =>
    if h : 0 < quota then s.start [.tryReserve ⟨quota, Int64.le_of_lt h⟩ .script] else s
  | .increaseUserQuota quota =>
    if 0 ≤ quota ∧ quota ≤ maxWalletQuota then
      { s with stores := s.stores.record quota }.start [.cacheDelta quota.toInt]
    else
      s
  | .decreaseUserQuota quota =>
    if h : 0 ≤ quota then s.start [.cacheDelta (-quota.toInt), .decrease ⟨quota, h⟩] else s
  | .getUserCache => s.start [.getUserCache .lookup]
  | .batchUpdate => { s with stores := { s.stores with buffer := 0 } }.start [.flush s.stores.buffer]
  | .expire => { s with stores := { s.stores with cache := none } }
  | .advance i answer =>
    match s.calls[i]? with
    | none => s
    | some call =>
      let (stores, next) := call.step s.stores answer
      { stores := stores, calls := s.calls.eraseIdx i ++ next }

/-- The reservation that an event decides. The script and the statement of the database check and take in
one step, and the call they are made for returns `true`; nothing to reserve is `true` at once. -/
def reserved (s : Wallet) : Event → Option Int
  | .tryReserveUserQuota quota => if quota = 0 then some 0 else none
  | .advance i answer =>
    match s.calls[i]? with
    | some (.tryReserve quota .script) | some (.tryReserve quota .retry) =>
      if (cacheTryReserveUserQuota s.stores answer quota.toInt).1 = some .ok then some quota.toInt
      else none
    | some (.tryReserve quota .fallback) =>
      if (reserveUserQuotaDB s.stores answer quota.toInt).1 then some quota.toInt else none
    | _ => none
  | _ => none

end CubeRouter.Quota
