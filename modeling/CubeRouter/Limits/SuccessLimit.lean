import CubeRouter.Limits.ModelRateLimit

/-!
# The limit on successes

In Redis the times of the successes are the log that the check looks at. In memory the check has a queue of its own,
into which every request goes that it lets through, at the time of its check and whatever becomes of it: it limits
attempts.
-/

namespace CubeRouter.Limits

open Expiring Transition Window List Option Nat

def Event.wait : Event → Nat
  | .arrive wait | .finish wait _ | .clean wait => wait

/-- A request that is rejected for the limit finds as many successes within the last `duration` as the limit allows. -/
def Justified {σ : Type} (h : Handler σ) (limits : Limits) (s : State σ) (e : Event) : Prop :=
  verdict h s e = some .successLimit → 0 < limits.successMaxCount ∧
    limits.successMaxCount ≤ recent (limits.duration * 1000) (s.clock + e.wait) (successes s.attempts)

/-- No window of `duration` has more successes than the limit allows, where there is one. -/
def Limited {σ : Type} (limits : Limits) (s : State σ) : Prop :=
  0 < limits.successMaxCount → Sparse (limits.duration * 1000) limits.successMaxCount (successes s.attempts)

theorem step_arrive {σ : Type} {h : Handler σ} {s : State σ} {wait : Nat} {v : Verdict} {store : σ}
    (hflight : s.flight = none)
    (harrive : h.arrive (s.clock + wait) s.store = (v, store)) :
    step h s (.arrive wait) = { s with
        store := store
        clock := s.clock + wait
        flight := if v = .allowed then some (s.clock + wait) else none } ∧
      verdict h s (.arrive wait) = some v := by
  simp [step, verdict, hflight, harrive]

theorem step_finish {σ : Type} {h : Handler σ} {s : State σ} {start : Int} (hflight : s.flight = some start)
    (wait status : Nat) : step h s (.finish wait status) = {
      store := if status < 400 then h.record (s.clock + wait) s.store else s.store
      clock := s.clock + wait
      flight := none
      attempts := ⟨start, s.clock + wait, status < 400⟩ :: s.attempts } := by
  simp [step, hflight]

theorem successes_cons (a : Attempt) (attempts : List Attempt) :
    successes (a :: attempts) = if a.succeeded then a.finish :: successes attempts else successes attempts := by
  unfold successes
  split_ifs with h <;> simp [h]

/-- A request that was let through when there was room may succeed. -/
theorem sparse_successes_cons {d start : Int} {n : Nat} {attempts : List Attempt} (h : Sparse d n (successes attempts))
    (hfew : recent d start (successes attempts) < n) {finish : Int} (hstart : start ≤ finish) (succeeded : Bool) :
    Sparse d n (successes (⟨start, finish, succeeded⟩ :: attempts)) := by
  rw [successes_cons]
  split_ifs
  · exact h.cons hfew hstart
  · exact h

/-! ## Redis -/

section Redis

variable {limits : Limits} {durationMinutes now now' : Int} {s : RedisStore} {l : List Int}

/-- The times in Redis are the log of the successes, now and later. -/
def Logged (limits : Limits) (now : Int) (s : RedisStore) (l : List Int) : Prop :=
  ∀ t, now ≤ t → Log (limits.duration * 1000) limits.successMaxCount t (s.times t) l

theorem Logged.later (h : Logged limits now s l) (hle : now ≤ now') : Logged limits now' s l :=
  fun t ht => h t (Int.le_trans hle ht)

theorem logged_expire (hduration : limits.duration ≤ expireSeconds durationMinutes) (hpositive : 0 < limits.duration)
    {q : List Int} (h : Log (limits.duration * 1000) limits.successMaxCount now q l) :
    Logged limits now (s.expire durationMinutes now q) l := by
  intro t ht
  have hput : (s.expire durationMinutes now q).successes = some ⟨q, now + expireSeconds durationMinutes * 1000⟩ :=
    put_eq_some_iff.mpr ⟨by omega, rfl⟩
  unfold RedisStore.times
  rw [hput]
  by_cases hlive : t ≤ now + expireSeconds durationMinutes * 1000
  · have hvalue : live t (some (⟨q, now + expireSeconds durationMinutes * 1000⟩ : Key (List Int))) = some q :=
      live_eq_some_iff.mpr ⟨_, rfl, hlive, rfl⟩
    rw [hvalue]
    exact h.later ht
  · have hgone : live t (some (⟨q, now + expireSeconds durationMinutes * 1000⟩ : Key (List Int))) = none :=
      live_eq_none_iff.mpr fun x hx => by
        cases hx
        exact Int.not_le.mp hlive
    rw [hgone]
    refine (h.later ht).clear fun x hx => ?_
    have hpast := h.past x hx
    omega

theorem checkRedisRateLimit_logged (hduration : limits.duration ≤ expireSeconds durationMinutes)
    (hpositive : 0 < limits.duration) (hlimit : 0 < limits.successMaxCount) (h : Logged limits now s l) :
    Logged limits now (checkRedisRateLimit durationMinutes now limits.successMaxCount limits.duration s).2 l ∧
      ((checkRedisRateLimit durationMinutes now limits.successMaxCount limits.duration s).1 = some false →
        limits.successMaxCount ≤ recent (limits.duration * 1000) now l) ∧
      ((checkRedisRateLimit durationMinutes now limits.successMaxCount limits.duration s).1 = some true →
        recent (limits.duration * 1000) now l < limits.successMaxCount) := by
  have hlog := h now (Int.le_refl now)
  unfold checkRedisRateLimit
  dsimp only
  rw [if_neg (by omega)]
  split_ifs with hroom
  · exact ⟨h, fun hr => (by simp at hr), fun _ => lt_of_le_of_lt hlog.recent_le hroom⟩
  · have hlength := hlog.length
    rcases eq_nil_or_concat (s.times now) with hnil | ⟨_, oldest, hq⟩
    · rw [hnil, length_nil] at hroom
      omega
    · rw [hq] at hlog hroom hlength ⊢
      simp only [concat_eq_append, length_append, length_singleton] at hlog hroom hlength ⊢
      have hpast : oldest ≤ now := hlog.past oldest (mem_append_right _ (mem_singleton.mpr rfl))
      simp only [getLast?_append, getLast?_singleton, some_or]
      rw [Int.tdiv_eq_ediv_of_nonneg (by omega)]
      split_ifs with hrecent
      · have hall := hlog.recent_of_oldest (by omega)
        exact ⟨logged_expire hduration hpositive hlog, fun _ => by omega, fun hr => (by simp at hr)⟩
      · have hfew := hlog.recent_of_stale (by omega)
        exact ⟨h, fun hr => (by simp at hr), fun _ => by omega⟩

theorem recordRedisRequest_logged (hduration : limits.duration ≤ expireSeconds durationMinutes)
    (hpositive : 0 < limits.duration) (h : Logged limits now s l)
    (hfew : recent (limits.duration * 1000) now l < limits.successMaxCount) :
    Logged limits now (recordRedisRequest durationMinutes now limits.successMaxCount s) (now :: l) := by
  unfold recordRedisRequest
  rw [if_neg (by omega)]
  exact logged_expire hduration hpositive ((h now (Int.le_refl now)).push hfew)

theorem arriveRedis_logged (hduration : limits.duration ≤ expireSeconds durationMinutes)
    (hpositive : 0 < limits.duration)
    (hlimit : 0 < limits.successMaxCount) (h : Logged limits now s l) :
    Logged limits now (arriveRedis durationMinutes limits now s).2 l ∧
      ((arriveRedis durationMinutes limits now s).1 = .successLimit →
        limits.successMaxCount ≤ recent (limits.duration * 1000) now l) ∧
      ((arriveRedis durationMinutes limits now s).1 = .allowed →
        recent (limits.duration * 1000) now l < limits.successMaxCount) := by
  obtain ⟨hlogged, hrefused, hpassed⟩ := checkRedisRateLimit_logged hduration hpositive hlimit h
  unfold arriveRedis
  rcases hcheck : checkRedisRateLimit durationMinutes now limits.successMaxCount limits.duration s with ⟨verdict, _⟩
  rw [hcheck] at hlogged hrefused hpassed
  cases verdict with
  | none => exact ⟨hlogged, fun hv => (by cases hv), fun hv => (by cases hv)⟩
  | some passed =>
    cases passed with
    | false => exact ⟨hlogged, fun _ => hrefused rfl, fun hv => (by cases hv)⟩
    | true =>
      dsimp only
      split_ifs
      · exact ⟨hlogged, fun hv => (by cases hv), fun _ => hpassed rfl⟩
      · exact ⟨hlogged, fun hv => (by cases hv), fun _ => hpassed rfl⟩
      · exact ⟨hlogged, fun hv => (by cases hv), fun _ => hpassed rfl⟩

theorem arriveRedis_unlimited (hlimit : limits.successMaxCount = 0) :
    (arriveRedis durationMinutes limits now s).1 ≠ .successLimit := by
  unfold arriveRedis checkRedisRateLimit
  rw [if_pos hlimit]
  dsimp only
  split_ifs <;> simp

theorem redis_unlimited (hlimit : limits.successMaxCount = 0) {s : State RedisStore} {e : Event} :
    verdict (redisRateLimitHandler limits durationMinutes) s e ≠ some .successLimit := by
  unfold verdict
  split
  · split
    · simp
    · exact fun hv => arriveRedis_unlimited hlimit (Option.some.inj hv)
  · simp

structure RedisKept (limits : Limits) (s : State RedisStore) : Prop where
  logged : Logged limits s.clock s.store (successes s.attempts)
  /-- The request that is being processed was let through when it had room. -/
  flight : ∀ start, s.flight = some start →
    start ≤ s.clock ∧ recent (limits.duration * 1000) start (successes s.attempts) < limits.successMaxCount
  sparse : Sparse (limits.duration * 1000) limits.successMaxCount (successes s.attempts)

theorem redisKept_step (hduration : limits.duration ≤ expireSeconds durationMinutes) (hpositive : 0 < limits.duration)
    (hlimit : 0 < limits.successMaxCount) {s : State RedisStore} (h : RedisKept limits s) (e : Event) :
    RedisKept limits (step (redisRateLimitHandler limits durationMinutes) s e) ∧
      Justified (redisRateLimitHandler limits durationMinutes) limits s e := by
  have hnow (wait : Nat) : s.clock ≤ s.clock + wait := Int.le_add_of_nonneg_right (Int.natCast_nonneg wait)
  have hlater (wait : Nat) (start : Int) (hs : s.flight = some start) : start ≤ s.clock + wait ∧
      recent (limits.duration * 1000) start (successes s.attempts) < limits.successMaxCount :=
    ⟨Int.le_trans (h.flight start hs).1 (hnow wait), (h.flight start hs).2⟩
  cases e with
  | clean wait => exact ⟨⟨h.logged.later (hnow wait), hlater wait, h.sparse⟩, fun hv => by cases hv⟩
  | arrive wait =>
    unfold Justified step verdict
    dsimp only
    cases hflight : s.flight with
    | some =>
      exact ⟨⟨h.logged.later (hnow wait), fun t ht => hlater wait t (hflight ▸ ht), h.sparse⟩, fun hv => by cases hv⟩
    | none =>
      obtain ⟨hlogged, hrefused, hallowed⟩ :=
        arriveRedis_logged hduration hpositive hlimit (h.logged.later (hnow wait))
      refine ⟨⟨hlogged, fun start hs => ?_, h.sparse⟩, fun hv => ⟨hlimit, hrefused (Option.some.inj hv)⟩⟩
      split_ifs at hs with hpassed
      cases hs
      exact ⟨le_rfl, hallowed hpassed⟩
  | finish wait status =>
    refine ⟨?_, fun hv => by cases hv⟩
    unfold step
    cases hflight : s.flight with
    | none => exact ⟨h.logged.later (hnow wait), fun start hs => (by simp at hs), h.sparse⟩
    | some start =>
      obtain ⟨hstart, hfew⟩ := hlater wait start hflight
      refine ⟨?_, fun _ hs => (by cases hs), sparse_successes_cons h.sparse hfew hstart _⟩
      simp only [successes_cons, decide_eq_true_eq]
      split_ifs
      · have hfew' := lt_of_le_of_lt (recent_anti hstart) hfew
        exact recordRedisRequest_logged hduration hpositive (h.logged.later (hnow wait)) hfew'
      · exact h.logged.later (hnow wait)

end Redis

/-! ## Memory -/

section Memory

variable {limits : Limits} {expiration now now' : Int} {l : List Int} {k : Nat}

/-- A queue as a log: the last one first. -/
def times (queue : Queue) : List Int := (queue.getD []).reverse

/-- A queue for no requests at all still has one. -/
def room (maxRequestNum : Nat) : Nat := max maxRequestNum 1

variable {d : Int} {queue : Queue}

theorem request_allowed (h : Log d (room k) now (times queue) l) (hqueue : queue ≠ some [])
    (hfew : recent d now l < room k) : (request now k d queue).1 = true ∧ (request now k d queue).2 ≠ some [] ∧
      Log d (room k) now (times (request now k d queue).2) (now :: l) := by
  have hpush := h.push hfew
  have hone : 1 ≤ room k := le_max_right k 1
  have hlength := h.length
  cases queue with
  | none =>
    refine ⟨rfl, by simp [request], ?_⟩
    rwa [take_of_length_le (by simpa [times] using hone)] at hpush
  | some queue =>
    simp only [times, getD_some, length_reverse] at hpush hlength
    unfold request
    dsimp only
    split_ifs with hroom
    · refine ⟨rfl, by simp, ?_⟩
      have hmax : k ≤ room k := le_max_left k 1
      rw [take_of_length_le (by simp; omega)] at hpush
      simpa [times] using hpush
    · cases queue with
      | nil => exact absurd rfl hqueue
      | cons oldest rest =>
        have hfull : rest.length + 1 = room k := by
          simp only [length_cons, room] at hlength hroom ⊢
          omega
        have hlog : Log d (room k) now (rest.reverse ++ [oldest]) l := by simpa [times] using h
        have hold : d ≤ now - oldest := by
          by_contra hrecent
          have hall := hlog.recent_of_oldest (Int.not_le.mp hrecent)
          simp only [length_reverse] at hall
          omega
        have htake : (now :: (oldest :: rest).reverse).take (room k) = now :: rest.reverse := by
          rw [reverse_cons, ← cons_append, take_append_of_le_length (by simp; omega),
            take_of_length_le (by simp; omega)]
        rw [htake] at hpush
        dsimp only
        rw [if_pos hold]
        exact ⟨rfl, by simp, by simpa [times] using hpush⟩

theorem request_refused (h : Log d (room k) now (times queue) l) (hqueue : queue ≠ some [])
    (hfull : room k ≤ recent d now l) : request now k d queue = (false, queue) := by
  have hcount := h.recent_le
  have hlength := h.length
  have hone : 1 ≤ room k := le_max_right k 1
  have hmax : k ≤ room k := le_max_left k 1
  cases queue with
  | none =>
    simp only [times, getD_none, reverse_nil, length_nil] at hcount
    omega
  | some queue =>
    cases queue with
    | nil => exact absurd rfl hqueue
    | cons oldest rest =>
      have hlog : Log d (room k) now (rest.reverse ++ [oldest]) l := by simpa [times] using h
      simp only [times, getD_some, length_reverse, length_cons] at hcount hlength
      have hrecent : ¬d ≤ now - oldest := fun hold => by
        have hfew := hlog.recent_of_stale hold
        simp only [length_reverse] at hfew
        omega
      unfold request
      dsimp only
      rw [if_neg (by simp; omega), if_neg hrecent]

theorem clearExpired_log (h : Log d k now (times queue) l) (hqueue : queue ≠ some [])
    (hkept : ∀ newest ∈ queue.bind List.getLast?, expiration < now - newest → d ≤ now - newest) :
    Log d k now (times (clearExpired now expiration queue)) l ∧ clearExpired now expiration queue ≠ some [] := by
  cases queue with
  | none => exact ⟨h, by simp [clearExpired]⟩
  | some queue =>
    rcases eq_nil_or_concat queue with rfl | ⟨rest, newest, rfl⟩
    · exact absurd rfl hqueue
    · have hlast : (rest.concat newest).getLast? = some newest := by simp
      unfold clearExpired
      dsimp only
      rw [hlast]
      dsimp only
      split_ifs with hexpired
      · refine ⟨h.clear fun x hx => ?_, by simp⟩
        have hold := hkept newest hlast hexpired
        have hle : x ≤ newest := by
          have hsorted := h.sorted
          simp only [times, getD_some, concat_eq_append, reverse_append, reverse_singleton,
            singleton_append, pairwise_cons] at hsorted hx
          rcases mem_cons.mp hx with rfl | hx'
          · exact le_rfl
          · exact hsorted.1 x hx'
        omega
      · exact ⟨h, hqueue⟩

/-- The requests that the check has let through, in whole seconds. -/
def admitted (s : State MemoryStore) : List Int := (s.flight.toList ++ s.attempts.map Attempt.start).map unix

/-- The attempts that were let through within the last `duration`, in whole seconds. -/
def counted (limits : Limits) (now : Int) (attempts : List Attempt) : List Attempt :=
  attempts.filter fun a => unix now - unix a.start < limits.duration

/-- The total limit does not reject the request before. -/
def Reaches (limits : Limits) (now : Int) (s : MemoryStore) : Prop :=
  limits.totalMaxCount = 0 ∨ (request (unix now) limits.totalMaxCount limits.duration s.total).1 = true

/-- A request that comes when the limit is used up by attempts finds that all of these succeeded, and that there is a
limit. One that comes before finds no success within the last `duration` that was let through before. The clean-up
removes no queue in which an attempt still counts. -/
def Faithful (limits : Limits) (expiration : Int) (s : State MemoryStore) : Event → Prop
  | .arrive wait =>
    let now := s.clock + wait
    s.flight = none → Reaches limits now s.store →
      if limits.successMaxCount ≤ (counted limits now s.attempts).length then
        (∀ a ∈ counted limits now s.attempts, a.succeeded) ∧
          (limits.successMaxCount = 0 → counted limits now s.attempts = [])
      else ∀ a ∈ s.attempts, a.succeeded → now - a.finish < limits.duration * 1000 → a ∈ counted limits now s.attempts
  | .finish _ _ => True
  | .clean wait => 0 < expiration → ∀ newest ∈ s.store.check.bind List.getLast?,
      expiration < unix (s.clock + wait) - newest → limits.duration ≤ unix (s.clock + wait) - newest

instance (limits : Limits) (now : Int) (s : MemoryStore) : Decidable (Reaches limits now s) :=
  inferInstanceAs (Decidable (_ ∨ _))

instance (limits : Limits) (expiration : Int) (s : State MemoryStore) : DecidablePred (Faithful limits expiration s)
  | .arrive _ => inferInstanceAs (Decidable (_ → _ → if limits.successMaxCount ≤ _ then _ ∧ _ else ∀ a ∈ s.attempts, _))
  | .finish _ _ => .isTrue trivial
  | .clean _ => inferInstanceAs (Decidable (0 < expiration → ∀ newest ∈ s.store.check.bind List.getLast?, _))

structure MemoryKept (limits : Limits) (s : State MemoryStore) : Prop where
  log : Log limits.duration (room limits.successMaxCount) (unix s.clock) (times s.store.check) (admitted s)
  check : s.store.check ≠ some []
  attempts : ∀ a ∈ s.attempts, a.start ≤ a.finish
  flight : ∀ start, s.flight = some start → start ≤ s.clock ∧
    (0 < limits.successMaxCount → recent (limits.duration * 1000) start (successes s.attempts) < limits.successMaxCount)
  sparse : Limited limits s

theorem arriveMemory_of_reaches {s : MemoryStore} (h : Reaches limits now s) : ∃ total, arriveMemory limits now s =
      (if (request (unix now) limits.successMaxCount limits.duration s.check).1 then .allowed else .successLimit,
        { s with total := total, check := (request (unix now) limits.successMaxCount limits.duration s.check).2 }) := by
  unfold arriveMemory
  rcases Nat.eq_zero_or_pos limits.totalMaxCount with _ | hpositive
  · have hno : ¬0 < limits.totalMaxCount := by omega
    exact ⟨s.total, by simp [hno]⟩
  · have hpassed := h.resolve_left (by omega)
    exact ⟨_, by simp [hpositive, hpassed]; rfl⟩

theorem arriveMemory_of_not_reaches {s : MemoryStore} (h : ¬Reaches limits now s) :
    arriveMemory limits now s = (.totalLimit, s) := by
  unfold arriveMemory
  simp only [Reaches, not_or, Bool.not_eq_true] at h
  rw [if_pos ⟨by omega, h.2⟩]

theorem recent_starts (attempts : List Attempt) :
    recent limits.duration (unix now) ((attempts.map Attempt.start).map unix) =
    (counted limits now attempts).length := by
  unfold recent counted
  rw [List.map_map, List.countP_map, ← List.countP_eq_length_filter]
  rfl

theorem recent_successes (d : Int) (attempts : List Attempt) :
    recent d now (successes attempts) = attempts.countP fun a => a.succeeded ∧ now - a.finish < d := by
  unfold recent successes
  rw [countP_map, countP_filter]
  congr 1
  funext a
  simp [Bool.and_comm]

theorem recent_successes_le {attempts : List Attempt}
    (h : ∀ a ∈ attempts, a.succeeded → now - a.finish < d → a ∈ counted limits now attempts) :
    recent d now (successes attempts) ≤ (counted limits now attempts).length := by
  rw [recent_successes, counted, ← countP_eq_length_filter]
  refine countP_mono_left fun a ha hcounts => ?_
  simp only [decide_eq_true_eq] at hcounts
  exact (mem_filter.mp (h a ha hcounts.1 hcounts.2)).2

theorem le_recent_successes {attempts : List Attempt} (hordered : ∀ a ∈ attempts, a.start ≤ a.finish)
    (h : ∀ a ∈ counted limits now attempts, a.succeeded) :
    (counted limits now attempts).length ≤ recent (limits.duration * 1000) now (successes attempts) := by
  rw [recent_successes, counted, ← countP_eq_length_filter]
  refine countP_mono_left fun a ha hcounts => ?_
  have hsucceeded := h a (mem_filter.mpr ⟨ha, hcounts⟩)
  have hle := hordered a ha
  simp only [decide_eq_true_eq] at hcounts ⊢
  unfold unix at hcounts
  exact ⟨hsucceeded, by omega⟩

theorem unix_mono (h : now ≤ now') : unix now ≤ unix now' := by
  unfold unix
  omega

theorem memoryKept_arrive {s : State MemoryStore} (h : MemoryKept limits s) {wait : Nat} (hflight : s.flight = none)
    (hfaithful : Faithful limits expiration s (.arrive wait)) :
    MemoryKept limits (step (memoryRateLimitHandler limits expiration) s (.arrive wait)) ∧
      Justified (memoryRateLimitHandler limits expiration) limits s (.arrive wait) := by
  have hnow : s.clock ≤ s.clock + wait := Int.le_add_of_nonneg_right (Int.natCast_nonneg wait)
  have hlog := h.log.later (unix_mono hnow)
  have hadmitted : admitted s = (s.attempts.map Attempt.start).map unix := by
    rw [admitted, hflight]
    rfl
  have hrecent : recent limits.duration (unix (s.clock + wait)) (admitted s) =
      (counted limits (s.clock + wait) s.attempts).length := hadmitted ▸ recent_starts s.attempts
  have hmax : limits.successMaxCount ≤ room limits.successMaxCount := le_max_left _ _
  have hone : 1 ≤ room limits.successMaxCount := le_max_right _ _
  unfold Justified
  by_cases hreaches : Reaches limits (s.clock + wait) s.store
  · obtain ⟨_, harrive⟩ := arriveMemory_of_reaches hreaches
    have hmeets := hfaithful hflight hreaches
    obtain ⟨hstep, hverdict⟩ := step_arrive (h := memoryRateLimitHandler limits expiration) hflight harrive
    rw [hstep, hverdict]
    by_cases hfew : recent limits.duration (unix (s.clock + wait)) (admitted s) < room limits.successMaxCount
    · obtain ⟨hallowed, hcheck, hpushed⟩ := request_allowed hlog h.check hfew
      rw [hallowed]
      refine ⟨⟨?_, hcheck, h.attempts, fun start hs => ?_, h.sparse⟩, fun hv => by cases hv⟩
      · simpa [admitted, hflight] using hpushed
      · cases hs
        refine ⟨le_rfl, fun hlimit => ?_⟩
        dsimp only
        have hroom : room limits.successMaxCount = limits.successMaxCount := max_eq_left hlimit
        rw [if_neg (by omega)] at hmeets
        have hle := recent_successes_le hmeets
        omega
    · have hrefused := request_refused hlog h.check (not_lt.mp hfew)
      rw [hrefused]
      rw [if_pos (by omega)] at hmeets
      refine ⟨⟨?_, h.check, h.attempts, fun start hs => by simp at hs, h.sparse⟩, fun _ => ?_⟩
      · simpa [admitted, hflight] using hlog
      · have hle := le_recent_successes h.attempts hmeets.1
        have hroom : room limits.successMaxCount ≤ (counted limits (s.clock + wait) s.attempts).length := by omega
        refine ⟨Nat.pos_of_ne_zero fun hzero => ?_, Nat.le_trans hmax (Nat.le_trans hroom hle)⟩
        rw [hmeets.2 hzero, length_nil] at hrecent
        omega
  · obtain ⟨hstep, hverdict⟩ := step_arrive (h := memoryRateLimitHandler limits expiration) hflight
      (arriveMemory_of_not_reaches hreaches)
    rw [hstep, hverdict]
    refine ⟨⟨?_, h.check, h.attempts, fun start hs => by simp at hs, h.sparse⟩, fun hv => by cases hv⟩
    simpa [admitted, hflight] using hlog

theorem memoryKept_step {s : State MemoryStore} (h : MemoryKept limits s) {e : Event}
    (hfaithful : Faithful limits expiration s e) :
    MemoryKept limits (step (memoryRateLimitHandler limits expiration) s e) ∧
      Justified (memoryRateLimitHandler limits expiration) limits s e := by
  have hnow (wait : Nat) : s.clock ≤ s.clock + wait := Int.le_add_of_nonneg_right (Int.natCast_nonneg wait)
  have hlog (wait : Nat) := h.log.later (unix_mono (hnow wait))
  have hlater (wait : Nat) (start : Int) (hs : s.flight = some start) : start ≤ s.clock + wait ∧
      (0 < limits.successMaxCount → recent (limits.duration * 1000) start
        (successes s.attempts) < limits.successMaxCount) :=
    ⟨Int.le_trans (h.flight start hs).1 (hnow wait), (h.flight start hs).2⟩
  cases e with
  | clean wait =>
    refine ⟨?_, fun hv => by cases hv⟩
    unfold step memoryRateLimitHandler clean
    split_ifs with hexpires
    · obtain ⟨hcleared, hcheck⟩ := clearExpired_log (hlog wait) h.check (hfaithful hexpires)
      exact ⟨hcleared, hcheck, h.attempts, hlater wait, h.sparse⟩
    · exact ⟨hlog wait, h.check, h.attempts, hlater wait, h.sparse⟩
  | arrive wait =>
    cases hflight : s.flight with
    | none => exact memoryKept_arrive h hflight hfaithful
    | some =>
      unfold Justified step verdict
      simp only [hflight]
      refine ⟨⟨?_, h.check, h.attempts, fun t ht => hlater wait t (hflight ▸ ht), h.sparse⟩, fun hv => by cases hv⟩
      simpa [admitted, hflight] using hlog wait
  | finish wait status =>
    refine ⟨?_, fun hv => by cases hv⟩
    cases hflight : s.flight with
    | none =>
      unfold step
      simp only [hflight]
      exact ⟨by simpa [admitted, hflight] using hlog wait, h.check, h.attempts, fun _ hs => (by cases hs), h.sparse⟩
    | some start =>
      obtain ⟨hstart, hfew⟩ := hlater wait start hflight
      have hlog' : Log limits.duration (room limits.successMaxCount) (unix (s.clock + wait)) (times s.store.check)
          (unix start :: (s.attempts.map Attempt.start).map unix) := by
        simpa [admitted, hflight] using hlog wait
      have hordered : ∀ a ∈ ⟨start, s.clock + wait, decide (status < 400)⟩ :: s.attempts, a.start ≤ a.finish :=
        forall_mem_cons.mpr ⟨hstart, h.attempts⟩
      rw [step_finish hflight]
      have hcheck : (if status < 400 then (memoryRateLimitHandler limits expiration).record (s.clock + wait) s.store
          else s.store).check = s.store.check := by
        split_ifs <;> rfl
      refine ⟨?_, ?_, hordered, fun _ hs => (by cases hs),
        fun hlimit => sparse_successes_cons (h.sparse hlimit) (hfew hlimit) hstart _⟩
      · rwa [hcheck]
      · rw [hcheck]
        exact h.check

end Memory

/-! ## Runs -/

def start {σ : Type} (store : σ) (clock : Int) : State σ := { store := store, clock := clock }

/-- The handler in Redis limits the successes as long as its key is kept for the duration. The one in memory does
where no event has its queue of attempts differ from the successes. -/
theorem success_limit (limits : Limits) (durationMinutes expiration clock : Int) (events : List Event)
    (hduration : 1 ≤ limits.duration) :
    (limits.duration ≤ expireSeconds durationMinutes →
      let h := redisRateLimitHandler limits durationMinutes
      Along (step h) (Justified h limits) (start {} clock) events ∧
      Limited limits (run (step h) (start {} clock) events)) ∧
    let h := memoryRateLimitHandler limits expiration
    Along (step h) (Faithful limits expiration) (start {} clock) events →
      Along (step h) (Justified h limits) (start {} clock) events ∧
        Limited limits (run (step h) (start {} clock) events) := by
  refine ⟨fun hexpire => ?_, fun hfaithful => ?_⟩
  · rcases Nat.eq_zero_or_pos limits.successMaxCount with hnone | hlimit
    · exact ⟨along_of_split fun _ _ _ _ hv => absurd hv (redis_unlimited hnone),
        fun hlimit => absurd hnone (Nat.pos_iff_ne_zero.mp hlimit)⟩
    · have hstart : RedisKept limits (start {} clock) :=
        ⟨fun t _ => log_nil _ _ t, fun _ hs => (by cases hs), sparse_nil _ _⟩
      have hstep (s : State RedisStore) (e : Event) (h : RedisKept limits s) (_ : True) :=
        redisKept_step hexpire hduration hlimit h e
      exact ⟨along_of_invariant (fun s e h he => (hstep s e h he).1) (fun s e h he => (hstep s e h he).2) hstart
        (along_true _ _), fun _ => (run_invariant (fun s e h he => (hstep s e h he).1) hstart (along_true _ _)).sparse⟩
  · have hstart : MemoryKept limits (start {} clock) :=
      ⟨log_nil _ _ _, nofun, nofun, nofun, fun _ => sparse_nil _ _⟩
    have hstep (s : State MemoryStore) (e : Event) (h : MemoryKept limits s) (he : Faithful limits expiration s e) :=
      memoryKept_step h he
    exact ⟨along_of_invariant (fun s e h he => (hstep s e h he).1)
      (fun s e h he => (hstep s e h he).2) hstart hfaithful,
      (run_invariant (fun s e h he => (hstep s e h he).1) hstart hfaithful).sparse⟩

/-! ## Two attempts -/

def once (successMaxCount : Nat) : Limits := { duration := 60, totalMaxCount := 0, successMaxCount := successMaxCount }

def twice (first pause second status : Nat) : List Event :=
  [.arrive 0, .finish first status, .arrive pause, .finish second status]

theorem success_limit_twice :
    let h := memoryRateLimitHandler (once 1) 1200
    let h' := redisRateLimitHandler (once 1) 1
    (Along (step h') (Justified h' (once 1)) (start {} 0) (twice 100 1000 100 500) ∧
        Limited (once 1) (run (step h') (start {} 0) (twice 100 1000 100 500))) ∧
      Along (step h) (Justified h (once 1)) (start {} 0) (twice 100 1000 100 200) ∧
        Limited (once 1) (run (step h) (start {} 0) (twice 100 1000 100 200)) :=
  ⟨(success_limit (once 1) 1 1200 0 (twice 100 1000 100 500) (by decide)).1 (by decide),
    (success_limit (once 1) 1 1200 0 (twice 100 1000 100 200) (by decide)).2 (by decide)⟩

/-- Rejected for the limit are a request after one that failed, and one without a limit; two successes within one
second are let through when the first one took long. -/
theorem attempts_are_limited :
    let h (k : Nat) := memoryRateLimitHandler (once k) 1200
    ¬Along (step (h 1)) (Justified (h 1) (once 1)) (start {} 0) (twice 100 1000 100 500) ∧
      ¬Along (step (h 0)) (Justified (h 0) (once 0)) (start {} 0) (twice 100 1000 100 200) ∧
      ¬Limited (once 1) (run (step (h 1)) (start {} 0) (twice 59900 100 100 200)) := by
  refine ⟨fun hjustified => ?_, fun hjustified => ?_, fun hlimited => ?_⟩
  · exact absurd (hjustified.2.2.1 rfl) (by decide)
  · exact absurd (hjustified.2.2.1 rfl).1 (by decide)
  · exact absurd (hlimited (by decide) 59900) (by decide)

end CubeRouter.Limits
