import CubeRouter.Lib.Run
import CubeRouter.Lib.Window
import Mathlib.Data.List.Induction
import Mathlib.Tactic.Linarith
import Mathlib.Tactic.Ring

/-!
# Token buckets

A bucket holds tokens up to its capacity and gains `rate` of them a second; a request is admitted when it finds its
cost in the bucket, and pays it. What is counted is only brought up to date when a request comes. From both sides the
admitted requests are those of the tokens: in any span of time they cost no more than a full bucket and what it gains
in the span (`run_paid_le`), and a bucket that is refilled within the time `d` is short of no more than what was
admitted within the last `d` (`run_refills`).
-/

namespace TokenBucket

open Transition Window List Option Int

structure Params where
  cost : Int
  rate : Int
  capacity : Int
  cost_nonneg : 0 ≤ cost
  rate_nonneg : 0 ≤ rate
  capacity_nonneg : 0 ≤ capacity

/-- The tokens with the time at which they were counted, or nothing before the first request. -/
abbrev Bucket := Option (Int × Int)

structure State where
  bucket : Bucket := none
  /-- When requests were admitted, the last one first. -/
  admitted : List Int := []

variable (p : Params)

def level (bucket : Bucket) (now : Int) : Int :=
  match bucket with
  | none => p.capacity
  | some (tokens, last) => min p.capacity (tokens + (now - last) * p.rate)

def admits (bucket : Bucket) (now : Int) : Bool := p.cost ≤ level p bucket now

def serve (s : State) (now : Int) : State :=
  if admits p s.bucket now then
    { bucket := some (level p s.bucket now - p.cost, now), admitted := now :: s.admitted }
  else { s with bucket := some (level p s.bucket now, now) }

/-- The bucket was counted in the past. -/
def Later (s : State) (now : Int) : Prop := ∀ b ∈ s.bucket, b.2 ≤ now

/-- The tokens are within the bounds, and nothing was admitted after they were counted. -/
structure Bounded (s : State) : Prop where
  nonneg : ∀ b ∈ s.bucket, 0 ≤ b.1
  le_capacity : ∀ b ∈ s.bucket, b.1 ≤ p.capacity
  past : ∀ b ∈ s.bucket, ∀ x ∈ s.admitted, x ≤ b.2
  fresh : s.bucket = none → s.admitted = []

/-- What was paid in the span of `w` from `t` on. -/
def paid (t w : Int) (s : State) : Int := p.cost * (s.admitted.countP fun x => t ≤ x ∧ x ≤ t + w : Nat)

/-- What was paid in the span, with what is left while it lasts, comes from a full bucket and what it gained since. -/
def Spends (t w : Int) (s : State) : Prop :=
  ∀ b ∈ s.bucket, t ≤ b.2 →
    paid p t w s + (if b.2 ≤ t + w then b.1 else 0) ≤ p.capacity + p.rate * min (b.2 - t) w

/-- The bucket is short of no more than was paid within the last `d`. -/
def Refills (d : Int) (s : State) : Prop :=
  ∀ now, Later s now → p.capacity - p.cost * (recent d now s.admitted : Nat) ≤ level p s.bucket now

variable {p} {s : State} {now t w d : Int}

theorem level_le_capacity (bucket : Bucket) (now : Int) : level p bucket now ≤ p.capacity := by
  cases bucket with
  | none => exact le_rfl
  | some => exact min_le_left _ _

theorem level_nonneg (h : Bounded p s) (hlater : Later s now) : 0 ≤ level p s.bucket now := by
  cases hb : s.bucket with
  | none => exact p.capacity_nonneg
  | some b =>
    have htokens := h.nonneg b hb
    have hgain := mul_nonneg (sub_nonneg.mpr (hlater b hb)) p.rate_nonneg
    exact le_min p.capacity_nonneg (add_nonneg htokens hgain)

theorem serve_cases {p : Params} : (p.cost ≤ level p s.bucket now ∧
        serve p s now = { bucket := some (level p s.bucket now - p.cost, now), admitted := now :: s.admitted }) ∨
      (level p s.bucket now < p.cost ∧
        serve p s now = { s with bucket := some (level p s.bucket now, now) }) := by
  unfold serve admits
  split_ifs with h
  · exact .inl ⟨of_decide_eq_true h, rfl⟩
  · exact .inr ⟨not_le.mp fun hle => h (decide_eq_true hle), rfl⟩

theorem bounded_serve (h : Bounded p s) (hlater : Later s now) : Bounded p (serve p s now) := by
  have hle := level_le_capacity (p := p) s.bucket now
  have hnonneg := level_nonneg h hlater
  have hcost := p.cost_nonneg
  have hpast : ∀ x ∈ s.admitted, x ≤ now := by
    intro x hx
    cases hb : s.bucket with
    | none => rw [h.fresh hb] at hx; cases hx
    | some b => exact (h.past b hb x hx).trans (hlater b hb)
  obtain ⟨hadmits, hstep⟩ | ⟨-, hstep⟩ := serve_cases <;> rw [hstep]
  · refine ⟨?_, ?_, ?_, fun hnone => (some_ne_none _ hnone).elim⟩ <;> rintro b hb <;> cases hb
    · exact sub_nonneg.mpr hadmits
    · exact (sub_le_self _ hcost).trans hle
    · intro x hx
      obtain rfl | hx := mem_cons.mp hx
      · exact le_rfl
      · exact hpast x hx
  · refine ⟨?_, ?_, ?_, fun hnone => (some_ne_none _ hnone).elim⟩ <;> rintro b hb <;> cases hb
    · exact hnonneg
    · exact hle
    · exact hpast

/-! ## What a span costs -/

theorem paid_eq_zero (h : ∀ x ∈ s.admitted, x < t) : paid p t w s = 0 := by
  unfold paid
  rw [countP_eq_zero.mpr, Nat.cast_zero, mul_zero]
  intro x hx hin
  exact absurd (of_decide_eq_true hin).1 (not_le.mpr (h x hx))

variable {bucket : Bucket} {later : Int}

theorem paid_cons (hin : t ≤ now ∧ now ≤ t + w) :
    paid p t w { bucket := bucket, admitted := now :: s.admitted } = paid p t w s + p.cost := by
  unfold paid
  rw [countP_cons_of_pos (by simpa using hin)]
  push_cast
  ring

/-- The bucket was not counted since the span began. -/
def Before (t : Int) (s : State) : Prop := ∀ b ∈ s.bucket, b.2 < t

theorem paid_of_before (h : Bounded p s) (hbefore : Before t s) : paid p t w s = 0 := by
  refine paid_eq_zero fun x hx => ?_
  cases hb : s.bucket with
  | none => rw [h.fresh hb] at hx; cases hx
  | some b => exact (h.past b hb x hx).trans_lt (hbefore b hb)

theorem paid_add_level (h : Bounded p s) (hspends : Spends p t w s) (hlater : Later s now) (ht : t ≤ now)
    (hw : now ≤ t + w) : paid p t w s + level p s.bucket now ≤ p.capacity + p.rate * (now - t) := by
  have hgain : 0 ≤ p.rate * (now - t) := mul_nonneg p.rate_nonneg (sub_nonneg.mpr ht)
  by_cases hbefore : Before t s
  · rw [paid_of_before h hbefore, zero_add]
    exact (level_le_capacity s.bucket now).trans (le_add_of_nonneg_right hgain)
  · unfold Before at hbefore
    push Not at hbefore
    obtain ⟨b, hb, hsince⟩ := hbefore
    have hlast := hlater b hb
    have hold := hspends b hb hsince
    rw [if_pos (by omega), min_eq_left (by omega)] at hold
    have hlevel : level p s.bucket now ≤ b.1 + (now - b.2) * p.rate := by
      rw [mem_def.mp hb]
      exact min_le_right _ _
    calc paid p t w s + level p s.bucket now
        ≤ paid p t w s + (b.1 + (now - b.2) * p.rate) := Int.add_le_add_left hlevel _
      _ ≤ p.capacity + p.rate * (b.2 - t) + (now - b.2) * p.rate := by linarith
      _ = p.capacity + p.rate * (now - t) := by ring

theorem paid_le (hw : 0 ≤ w) (h : Bounded p s) (hspends : Spends p t w s) : paid p t w s ≤ p.capacity + p.rate * w := by
  have hgain : 0 ≤ p.rate * w := mul_nonneg p.rate_nonneg hw
  by_cases hbefore : Before t s
  · rw [paid_of_before h hbefore]
    exact add_nonneg p.capacity_nonneg hgain
  · unfold Before at hbefore
    push Not at hbefore
    obtain ⟨b, hb, hsince⟩ := hbefore
    have hold := hspends b hb hsince
    have hmin : p.rate * min (b.2 - t) w ≤ p.rate * w := mul_le_mul_of_nonneg_left (min_le_right _ _) p.rate_nonneg
    have htokens := h.nonneg b hb
    split_ifs at hold <;> linarith

theorem spends_serve (hw : 0 ≤ w) (h : Bounded p s) (hspends : Spends p t w s) (hlater : Later s now) :
    Spends p t w (serve p s now) := by
  have hall := paid_le hw h hspends
  have hcount : t ≤ now → now ≤ t + w → _ := paid_add_level h hspends hlater
  obtain ⟨-, hstep⟩ | ⟨-, hstep⟩ := serve_cases <;> rw [hstep] <;> rintro b hb ht <;> cases hb <;> dsimp only at ht ⊢
  · split_ifs with hin
    · rw [paid_cons ⟨ht, hin⟩, min_eq_left (by omega)]
      have := hcount ht hin
      linarith
    · have hout : paid p t w { bucket := some (level p s.bucket now - p.cost, now), admitted := now :: s.admitted } =
          paid p t w s := by
        unfold paid
        rw [countP_cons_of_neg (by simp [hin])]
      rw [hout, min_eq_right (by omega), add_zero]
      exact hall
  · split_ifs with hin
    · rw [min_eq_left (by omega)]
      exact hcount ht hin
    · rw [min_eq_right (by omega), add_zero]
      exact hall

/-! ## What the bucket is short of -/

theorem level_later (h : now ≤ later) : level p bucket later ≤ level p bucket now + (later - now) * p.rate := by
  have hgain : 0 ≤ (later - now) * p.rate := mul_nonneg (sub_nonneg.mpr h) p.rate_nonneg
  cases bucket with
  | none => exact le_add_of_nonneg_right hgain
  | some =>
    unfold level
    rw [← min_add_add_right]
    refine min_le_min (le_add_of_nonneg_right hgain) (le_of_eq ?_)
    ring

theorem level_full (hd : p.capacity ≤ p.rate * d) {tokens : Int} (htokens : 0 ≤ tokens) (h : d ≤ later - now) :
    level p (some (tokens, now)) later = p.capacity := by
  have hgain : p.rate * d ≤ (later - now) * p.rate := by
    rw [mul_comm]
    exact mul_le_mul_of_nonneg_right h p.rate_nonneg
  exact min_eq_left (by linarith)

theorem refills_serve (hd : p.capacity ≤ p.rate * d) (hbounded : Bounded p s)
    (h : Refills p d s) (hlater : Later s now) :
    Refills p d (serve p s now) := by
  have hnonneg := (bounded_serve hbounded hlater).nonneg
  have hpaid : ∀ n : Nat, 0 ≤ p.cost * n := fun n => mul_nonneg p.cost_nonneg (natCast_nonneg n)
  have hbefore : ∀ later, now ≤ later →
      p.capacity - p.cost * (recent d later s.admitted : Nat) ≤ level p s.bucket now + (later - now) * p.rate := by
    intro later hle
    have hold := h later fun b hb => (hlater b hb).trans hle
    exact hold.trans (level_later hle)
  intro later hafter
  obtain ⟨-, hstep⟩ | ⟨-, hstep⟩ := serve_cases <;> rw [hstep] at hnonneg hafter ⊢ <;>
    have hle : now ≤ later := hafter _ rfl
  · have htokens := hnonneg _ rfl
    by_cases hrecent : later - now < d
    · rw [recent_cons, if_pos hrecent]
      have hold := hbefore later hle
      have hnow := hpaid (recent d later s.admitted + 1)
      push_cast at hnow ⊢
      exact le_min (by linarith) (by linarith)
    · rw [level_full hd htokens (not_lt.mp hrecent)]
      exact sub_le_self _ (hpaid _)
  · have htokens := hnonneg _ rfl
    by_cases hrecent : later - now < d
    · exact le_min (sub_le_self _ (hpaid _)) (hbefore later hle)
    · rw [level_full hd htokens (not_lt.mp hrecent)]
      exact sub_le_self _ (hpaid _)

/-! ## Runs -/

theorem bounded_start {p : Params} : Bounded p {} :=
  ⟨fun b hb => absurd hb (not_mem_none b), fun b hb => absurd hb (not_mem_none b),
    fun b hb => absurd hb (not_mem_none b), fun _ => rfl⟩

theorem spends_start {p : Params} : Spends p t w {} :=
  fun b hb => absurd hb (not_mem_none b)

theorem refills_start {p : Params} : Refills p d {} := fun _ _ =>
  sub_le_self _ (mul_nonneg p.cost_nonneg (natCast_nonneg _))

theorem bucket_run (p : Params) (times : List Int) : ∀ b ∈ (run (serve p) {} times).bucket, b.2 ∈ times := by
  induction times using List.reverseRecOn with
  | nil => exact fun b hb => absurd hb (not_mem_none b)
  | append_singleton times now =>
    intro b hb
    rw [run_append] at hb
    obtain ⟨-, hstep⟩ | ⟨-, hstep⟩ := serve_cases
    all_goals
      rw [run_cons, run_nil, hstep] at hb
      cases hb
      exact mem_append_right _ (mem_singleton.mpr rfl)

variable {times : List Int}

theorem along_later {p : Params} (h : times.Pairwise (· ≤ ·)) : Along (serve p) Later {} times := by
  refine along_of_split fun done now rest hsplit b hb => ?_
  rw [hsplit, pairwise_append] at h
  exact h.2.2 b.2 (bucket_run p done b hb) now mem_cons_self

theorem run_bounded (p : Params) (h : times.Pairwise (· ≤ ·)) : Bounded p (run (serve p) {} times) :=
  run_invariant (fun _ _ hbounded hlater => bounded_serve hbounded hlater) bounded_start (along_later h)

/-- What is admitted in a span costs no more than a full bucket and what it gains in the span. -/
theorem run_paid_le (p : Params) (h : times.Pairwise (· ≤ ·)) (t : Int) (hw : 0 ≤ w) :
    paid p t w (run (serve p) {} times) ≤ p.capacity + p.rate * w := by
  have hspends : Bounded p (run (serve p) {} times) ∧ Spends p t w (run (serve p) {} times) :=
    run_invariant (I := fun s => Bounded p s ∧ Spends p t w s)
      (fun _ _ hinv hlater => ⟨bounded_serve hinv.1 hlater, spends_serve hw hinv.1 hinv.2 hlater⟩)
      ⟨bounded_start, spends_start⟩ (along_later h)
  exact paid_le hw hspends.1 hspends.2

theorem run_refills (p : Params) (h : times.Pairwise (· ≤ ·)) (hd : p.capacity ≤ p.rate * d) :
    Refills p d (run (serve p) {} times) := by
  have hrefills : Bounded p (run (serve p) {} times) ∧ Refills p d (run (serve p) {} times) :=
    run_invariant (I := fun s => Bounded p s ∧ Refills p d s)
      (fun _ _ hinv hlater => ⟨bounded_serve hinv.1 hlater, refills_serve hd hinv.1 hinv.2 hlater⟩)
      ⟨bounded_start, refills_start⟩ (along_later h)
  exact hrefills.2

end TokenBucket
