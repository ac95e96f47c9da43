import CubeRouter.Lib.Expiring
import CubeRouter.Lib.Run
import CubeRouter.Lib.Window
import Mathlib.Algebra.Ring.Int.Defs
import Mathlib.Algebra.Ring.Nat

/-!
# The model request rate limit

`middleware/model-rate-limit.go` with its two stores: lists and a token bucket in Redis, and the queues of
`common/rate-limit.go` in memory. The keys are those of one user. Times are in milliseconds, the resolution of the times
that are written to Redis; the queues in memory and the token bucket count whole seconds. Redis itself does not fail.
-/

namespace CubeRouter.Limits

open Expiring

structure Limits where
  /-- In seconds. -/
  duration : Int
  totalMaxCount : Nat
  successMaxCount : Nat

inductive Verdict
  | allowed
  | totalLimit
  | successLimit
  /-- `rate_limit_check_failed`. -/
  | failed
  deriving DecidableEq

def unix (now : Int) : Int := now / 1000

/-! ## The settings -/

def maxInt64 : Int := 2 ^ 63 - 1

/-- What is left of a number in 64 bits. -/
def int64 (n : Int) : Int := n.bmod (2 ^ 64)

def rateLimitDurationSeconds (durationMinutes : Int) : Int :=
  if durationMinutes ≤ 0 then 0
  else if maxInt64 / 60 < durationMinutes then maxInt64
  else durationMinutes * 60

def rateLimitCapacity (count durationSeconds : Int) : Int :=
  if count ≤ 0 ∨ durationSeconds ≤ 0 then 0
  else if maxInt64 / durationSeconds < count then maxInt64
  else count * durationSeconds

/-- `time.Duration(minutes) * time.Minute`, in nanoseconds. -/
def minutesDuration (durationMinutes : Int) : Int := int64 (durationMinutes * 60000000000)

/-- The seconds of an `EXPIRE`. -/
def expireSeconds (durationMinutes : Int) : Int :=
  let d := minutesDuration durationMinutes
  if 0 < d ∧ d < 1000000000 then 1 else d.tdiv 1000000000

/-- The key of the successes lives for the duration, unless the nanoseconds of the minutes overflow. -/
theorem expireSeconds_eq {durationMinutes : Int} (hpos : 0 < durationMinutes) (hbound : durationMinutes ≤ 153722867) :
    expireSeconds durationMinutes = rateLimitDurationSeconds durationMinutes := by
  have hwrap : minutesDuration durationMinutes = durationMinutes * 60 * 1000000000 := by
    unfold minutesDuration int64
    rw [Int.bmod_eq_of_le] <;> omega
  have hdiv : (durationMinutes * 60 * 1000000000).tdiv 1000000000 = durationMinutes * 60 :=
    Int.mul_tdiv_cancel _ (by decide)
  simp only [rateLimitDurationSeconds, expireSeconds, maxInt64, hwrap, hdiv]
  split_ifs <;> omega

/-! ## Redis -/

structure RedisStore where
  /-- `rateLimit:MRRLS:<id>`, the last one first. -/
  successes : Option (Key (List Int)) := none
  /-- `rateLimit:<id>`: the tokens and when they were counted. -/
  bucket : Option (Int × Int) := none

def RedisStore.times (s : RedisStore) (now : Int) : List Int := (live now s.successes).getD []

section Redis

variable (durationMinutes : Int)

/-- The times are set for as long as the setting says. -/
def RedisStore.expire (s : RedisStore) (now : Int) (times : List Int) : RedisStore :=
  { s with successes := put now times (now + expireSeconds durationMinutes * 1000) }

def checkRedisRateLimit (now : Int) (maxCount : Nat) (duration : Int) (s : RedisStore) : Option Bool × RedisStore :=
  if maxCount = 0 then (some true, s)
  else
    let times := s.times now
    if times.length < maxCount then (some true, s)
    else
      match times.getLast? with
      | none => (none, s)
      | some oldTime =>
        if (now - oldTime).tdiv 1000 < duration then (some false, s.expire durationMinutes now times)
        else (some true, s)

def recordRedisRequest (now : Int) (maxCount : Nat) (s : RedisStore) : RedisStore :=
  if maxCount = 0 then s else s.expire durationMinutes now ((now :: s.times now).take maxCount)

/-- `rate_limit.lua`. -/
def allow (nowInSeconds requested rate capacity : Int) (bucket : Option (Int × Int)) : Bool × Int × Int :=
  let tokens :=
    match bucket with
    | none => capacity
    | some (tokens, lastTime) => min capacity (tokens + (nowInSeconds - lastTime) * rate)
  if requested ≤ tokens then (true, tokens - requested, nowInSeconds) else (false, tokens, nowInSeconds)

def arriveRedis (limits : Limits) (now : Int) (s : RedisStore) : Verdict × RedisStore :=
  match checkRedisRateLimit durationMinutes now limits.successMaxCount limits.duration s with
  | (none, s) => (.failed, s)
  | (some false, s) => (.successLimit, s)
  | (some true, s) =>
    if 0 < limits.totalMaxCount then
      let (allowed, bucket) := allow (unix now) limits.duration limits.totalMaxCount
        (rateLimitCapacity limits.totalMaxCount limits.duration) s.bucket
      (if allowed then .allowed else .totalLimit, { s with bucket := some bucket })
    else (.allowed, s)

end Redis

/-! ## Memory -/

/-- A queue of `InMemoryRateLimiter`, the oldest first; nothing where the key is missing. -/
abbrev Queue := Option (List Int)

/-- `InMemoryRateLimiter.Request`. No queue is empty, so that there is always an oldest. -/
def request (now : Int) (maxRequestNum : Nat) (duration : Int) : Queue → Bool × Queue
  | none => (true, some [now])
  | some queue =>
    if queue.length < maxRequestNum then (true, some (queue ++ [now]))
    else
      match queue with
      | [] => (false, some [])
      | oldest :: rest => if duration ≤ now - oldest then (true, some (rest ++ [now]))
          else (false, some (oldest :: rest))

/-- What `clearExpiredItems` leaves of a queue. -/
def clearExpired (now expiration : Int) : Queue → Queue
  | none => none
  | some queue =>
    match queue.getLast? with
    | none => none
    | some newest => if expiration < now - newest then none else some queue

structure MemoryStore where
  /-- `MRRL<id>`, `MRRLS<id>_check` and `MRRLS<id>`. -/
  total : Queue := none
  check : Queue := none
  success : Queue := none

def arriveMemory (limits : Limits) (now : Int) (s : MemoryStore) : Verdict × MemoryStore :=
  let total := request (unix now) limits.totalMaxCount limits.duration s.total
  if 0 < limits.totalMaxCount ∧ total.1 = false then (.totalLimit, s)
  else
    let s := if 0 < limits.totalMaxCount then { s with total := total.2 } else s
    let check := request (unix now) limits.successMaxCount limits.duration s.check
    (if check.1 then .allowed else .successLimit, { s with check := check.2 })

def recordMemory (limits : Limits) (now : Int) (s : MemoryStore) : MemoryStore :=
  { s with success := (request (unix now) limits.successMaxCount limits.duration s.success).2 }

/-- The clean-up is only started for an expiration that is positive. -/
def clean (expiration now : Int) (s : MemoryStore) : MemoryStore :=
  if 0 < expiration then
    { total := clearExpired (unix now) expiration s.total
      check := clearExpired (unix now) expiration s.check
      success := clearExpired (unix now) expiration s.success }
  else s

/-! ## Requests -/

/-- What a handler does before the request, after one that succeeded, and now and then. -/
structure Handler (σ : Type) where
  arrive : Int → σ → Verdict × σ
  record : Int → σ → σ
  clean : Int → σ → σ

def redisRateLimitHandler (limits : Limits) (durationMinutes : Int) : Handler RedisStore where
  arrive := arriveRedis durationMinutes limits
  record now := recordRedisRequest durationMinutes now limits.successMaxCount
  clean _ s := s

/-- The expiration is that of whoever called `Init` first: the limiter is shared. -/
def memoryRateLimitHandler (limits : Limits) (expiration : Int) : Handler MemoryStore where
  arrive := arriveMemory limits
  record := recordMemory limits
  clean := clean expiration

structure Attempt where
  start : Int
  finish : Int
  succeeded : Bool
  deriving DecidableEq

structure State (σ : Type) where
  store : σ
  clock : Int
  /-- When the request that is being processed was let through. -/
  flight : Option Int := none
  /-- The last one first. Nothing reads them. -/
  attempts : List Attempt := []

/-- Each event with the time since the one before. -/
inductive Event
  | arrive (wait : Nat)
  | finish (wait : Nat) (status : Nat)
  | clean (wait : Nat)

section System

variable {σ : Type} (h : Handler σ)

/-- Requests do not overlap: the next one comes when the one before is through. -/
def step (s : State σ) : Event → State σ
  | .arrive wait =>
    let now := s.clock + wait
    match s.flight with
    | some _ => { s with clock := now }
    | none =>
      let (verdict, store) := h.arrive now s.store
      { s with store := store, clock := now, flight := if verdict = .allowed then some now else none }
  | .finish wait status =>
    let now := s.clock + wait
    match s.flight with
    | none => { s with clock := now }
    | some start =>
      { store := if status < 400 then h.record now s.store else s.store
        clock := now
        flight := none
        attempts := ⟨start, now, status < 400⟩ :: s.attempts }
  | .clean wait => { s with store := h.clean (s.clock + wait) s.store, clock := s.clock + wait }

def verdict (s : State σ) : Event → Option Verdict
  | .arrive wait =>
    match s.flight with
    | some _ => none
    | none => some (h.arrive (s.clock + wait) s.store).1
  | _ => none

end System

def successes (attempts : List Attempt) : List Int := (attempts.filter Attempt.succeeded).map Attempt.finish

end CubeRouter.Limits
