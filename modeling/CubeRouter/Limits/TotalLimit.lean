import CubeRouter.Lib.TokenBucket
import CubeRouter.Limits.ModelRateLimit

/-!
# The limit on all requests

The script in Redis keeps a token bucket in which a request costs the seconds of the limit and a second gains as many
tokens as requests are allowed. So the bucket is refilled in just the time that the limit counts: no span admits more
than the limit and its share of it, and no request is refused while the limit is not reached
(`token_bucket_is_tight`).
-/

namespace CubeRouter.Limits

open TokenBucket Transition Window

/-- A call of `Allow` for a key, as `redisRateLimitHandler` makes it. -/
def allowCall (totalMax duration : Int) (s : TokenBucket.State) (now : Int) : TokenBucket.State :=
  let (allowed, bucket) := allow now duration totalMax (rateLimitCapacity totalMax duration) s.bucket
  { bucket := some bucket, admitted := if allowed then now :: s.admitted else s.admitted }

def calls (totalMax duration : Int) (times : List Int) : TokenBucket.State := run (allowCall totalMax duration) {} times

theorem rateLimitCapacity_eq {count durationSeconds : Int} (hcount : 0 < count) (hduration : 0 < durationSeconds)
    (hfits : count * durationSeconds ≤ maxInt64) :
    rateLimitCapacity count durationSeconds = count * durationSeconds := by
  unfold rateLimitCapacity
  have hbelow : count ≤ maxInt64 / durationSeconds := (Int.le_ediv_iff_mul_le hduration).mpr hfits
  rw [if_neg (by omega), if_neg (by omega)]

section Bucket

variable {totalMax duration : Int} (hmax : 0 < totalMax) (hduration : 0 < duration)

def totalParams : Params where
  cost := duration
  rate := totalMax
  capacity := totalMax * duration
  cost_nonneg := hduration.le
  rate_nonneg := hmax.le
  capacity_nonneg := Int.mul_nonneg hmax.le hduration.le

theorem allow_eq (bucket : Bucket) (now : Int) : allow now duration totalMax (totalMax * duration) bucket =
      if admits (totalParams hmax hduration) bucket now then
        (true, level (totalParams hmax hduration) bucket now - duration, now)
      else (false, level (totalParams hmax hduration) bucket now, now) := by
  unfold allow admits level totalParams
  simp only [decide_eq_true_eq]
  cases bucket <;> rfl

variable (hfits : totalMax * duration ≤ maxInt64)
include hfits

theorem allowCall_eq : allowCall totalMax duration = serve (totalParams hmax hduration) := by
  funext s now
  unfold allowCall serve
  rw [rateLimitCapacity_eq hmax hduration hfits, allow_eq hmax hduration]
  split_ifs <;> rfl

theorem calls_eq (times : List Int) :
    calls totalMax duration times = run (serve (totalParams hmax hduration)) {} times := by
  rw [calls, allowCall_eq hmax hduration hfits]

end Bucket

/-- After any calls the tokens are within the capacity, no span has admitted more than the limit and its share of it,
and a call finds its tokens while fewer requests than the limit were admitted within the duration. -/
theorem token_bucket_is_tight (totalMax duration : Int) (hmax : 0 < totalMax) (hduration : 0 < duration)
    (hfits : totalMax * duration ≤ maxInt64) (times : List Int) (hsorted : times.Pairwise (· ≤ ·)) :
    (∀ tokens last, (calls totalMax duration times).bucket = some (tokens, last) →
        0 ≤ tokens ∧ tokens ≤ rateLimitCapacity totalMax duration) ∧ (∀ t w, 0 ≤ w →
        (((calls totalMax duration times).admitted.countP fun x => t ≤ x ∧ x ≤ t + w : Nat) : Int) ≤
          totalMax + totalMax * w / duration) ∧
      ∀ now, (∀ x ∈ times, x ≤ now) → (recent duration now (calls totalMax duration times).admitted : Int) < totalMax →
        (allow now duration totalMax (rateLimitCapacity totalMax duration) (calls totalMax duration times).bucket).1 =
          true := by
  rw [rateLimitCapacity_eq hmax hduration hfits, calls_eq hmax hduration hfits]
  have hbounded := run_bounded (totalParams hmax hduration) hsorted
  refine ⟨fun tokens last hb => ⟨hbounded.nonneg _ hb, hbounded.le_capacity _ hb⟩,
    fun t w hw => ?_, fun now hnow hfew => ?_⟩
  · have hpaid : duration * (((run (serve (totalParams hmax hduration)) {} times).admitted.countP fun x =>
        t ≤ x ∧ x ≤ t + w : Nat) : Int) ≤ totalMax * duration + totalMax * w :=
      run_paid_le (totalParams hmax hduration) hsorted t hw
    rw [← sub_le_iff_le_add', Int.le_ediv_iff_mul_le hduration, Int.sub_mul]
    rw [mul_comm] at hpaid
    exact Int.sub_left_le_of_le_add hpaid
  · have hlater : Later (run (serve (totalParams hmax hduration)) {} times) now := fun b hb =>
      hnow b.2 (bucket_run (totalParams hmax hduration) times b hb)
    have hlevel : totalMax * duration -
        duration * (recent duration now (run (serve (totalParams hmax hduration)) {} times).admitted : Nat) ≤
          level (totalParams hmax hduration) (run (serve (totalParams hmax hduration)) {} times).bucket now :=
      run_refills (totalParams hmax hduration) hsorted le_rfl now hlater
    -- fewer than the limit leave one request's tokens
    have hone : duration * 1 ≤ duration *
        (totalMax - (recent duration now (run (serve (totalParams hmax hduration)) {} times).admitted : Nat)) :=
      Int.mul_le_mul_of_nonneg_left (by omega) hduration.le
    have hadmits : admits (totalParams hmax hduration) (run (serve (totalParams hmax hduration)) {} times).bucket now =
        true := by
      refine decide_eq_true (le_trans ?_ hlevel)
      change duration ≤ _
      linarith
    rw [allow_eq hmax hduration, if_pos hadmits]

/-- Two requests a minute. -/
theorem token_bucket_is_tight_sample : (∀ tokens last, (calls 2 60 [0, 10, 20, 50]).bucket = some (tokens, last) →
        0 ≤ tokens ∧ tokens ≤ rateLimitCapacity 2 60) ∧ (∀ t w, 0 ≤ w →
        (((calls 2 60 [0, 10, 20, 50]).admitted.countP fun x => t ≤ x ∧ x ≤ t + w : Nat) : Int) ≤ 2 + 2 * w / 60) ∧
      ∀ now, (∀ x ∈ [0, 10, 20, 50], x ≤ now) → (recent 60 now (calls 2 60 [0, 10, 20, 50]).admitted : Int) < 2 →
        (allow now 60 2 (rateLimitCapacity 2 60) (calls 2 60 [0, 10, 20, 50]).bucket).1 = true :=
  token_bucket_is_tight 2 60 (by decide) (by decide) (by decide) [0, 10, 20, 50] (by decide)

end CubeRouter.Limits
