import CubeRouter.Lib.CatchUp
import CubeRouter.Lib.Gregorian
import CubeRouter.Subscription.Group

/-!
# The reset schedule

`calcNextResetTime` and `maybeResetUserSubscriptionWithPlanTx` of `model/subscription.go`. A subscription with a reset
period gets its quota back at each boundary of the period; the loop catches up with the boundaries that have passed. The
step of a custom period is a `time.Duration`, which counts nanoseconds and wraps around.

The location is the one of the process, as `time.Unix` has it.
-/

namespace CubeRouter.Subscription.Reset

open Ledger (trimSpace)
open Gregorian Option

inductive ResetPeriod
  | never
  | daily
  | weekly
  | monthly
  | custom
  deriving DecidableEq

def normalizeResetPeriod (period : String) : ResetPeriod :=
  match trimSpace period with
  | "daily" => .daily
  | "weekly" => .weekly
  | "monthly" => .monthly
  | "custom" => .custom
  | _ => .never

structure SubscriptionPlan where
  quotaResetPeriod : String
  quotaResetCustomSeconds : Int := 0

/-- The columns of a subscription that a reset reads. -/
structure UserSubscription where
  amountUsed : Int := 0
  startTime : Int
  endTime : Int := 0
  lastResetTime : Int := 0
  nextResetTime : Int := 0

/-! ## The next reset -/

def midnight (loc : Location) (base : Int) : Int := loc.ofLocal (Date.ofDays (loc.day base)).days 0

/-- Monday is `1` and Sunday `7`. -/
def daysUntilMonday (loc : Location) (base : Int) : Int :=
  let weekday := weekday (loc.day base)
  8 - if weekday = 0 then 7 else weekday

def monthBegin (loc : Location) (base : Int) : Int :=
  loc.ofLocal (Date.days { Date.ofDays (loc.day base) with day := 1 }) 0

/-- The boundary after `base`, before the end of the subscription is looked at. -/
def uncutResetTime (loc : Location) (plan : SubscriptionPlan) (base : Int) : Option Int :=
  match normalizeResetPeriod plan.quotaResetPeriod with
  | .never => none
  | .daily => some (loc.addDate (midnight loc base) 0 0 1)
  | .weekly => some (loc.addDate (midnight loc base) 0 0 (daysUntilMonday loc base))
  | .monthly => some (loc.addDate (monthBegin loc base) 0 1 0)
  | .custom =>
    if plan.quotaResetCustomSeconds ≤ 0 then none
    else some (addDuration base plan.quotaResetCustomSeconds 1)

def calcNextResetTime (loc : Location) (plan : SubscriptionPlan) (endUnix base : Int) : Int :=
  match uncutResetTime loc plan base with
  | none => 0
  | some next => if 0 < endUnix ∧ endUnix < next then 0 else next

/-! ## The reset -/

/-- The last reset, or the start when there was none. -/
def UserSubscription.base (sub : UserSubscription) : Int :=
  if sub.lastResetTime ≤ 0 then sub.startTime else sub.lastResetTime

def UserSubscription.spent (sub : UserSubscription) (amountUsed : Int) : UserSubscription := { sub with amountUsed }

@[simp] theorem UserSubscription.spent_base (sub : UserSubscription) (amountUsed : Int) :
    (sub.spent amountUsed).base = sub.base :=
  rfl

@[simp] theorem UserSubscription.spent_endTime (sub : UserSubscription) (amountUsed : Int) :
    (sub.spent amountUsed).endTime = sub.endTime := rfl

@[simp] theorem UserSubscription.spent_nextResetTime (sub : UserSubscription) (amountUsed : Int) :
    (sub.spent amountUsed).nextResetTime = sub.nextResetTime := rfl

/-- The loop, which may need more rounds than it is given. -/
def catchUp (loc : Location) (plan : SubscriptionPlan) (endUnix now : Int) :
    Nat → Int → Int → Bool → Option (Int × Int × Bool)
  | 0, _, _, _ => none
  | rounds + 1, base, next, advanced =>
    if 0 < next ∧ next ≤ now then
      catchUp loc plan endUnix now rounds next (calcNextResetTime loc plan endUnix next) true
    else some (base, next, advanced)

def maybeResetUserSubscriptionWithPlan (loc : Location) (plan : SubscriptionPlan) (now : Int) (rounds : Nat)
    (sub : UserSubscription) : Option UserSubscription :=
  if 0 < sub.nextResetTime ∧ now < sub.nextResetTime then some sub
  else if normalizeResetPeriod plan.quotaResetPeriod = .never then some sub
  else
    match catchUp loc plan sub.endTime now rounds sub.base (calcNextResetTime loc plan sub.endTime sub.base) false with
    | none => none
    | some (base, next, advanced) =>
      if !advanced then
        if sub.nextResetTime = 0 ∧ 0 < next then some { sub with nextResetTime := next, lastResetTime := base }
        else some sub
      else some { sub with amountUsed := 0, lastResetTime := base, nextResetTime := next }

/-- The reset at `now` ends and leaves `sub'`. -/
def Resets (loc : Location) (plan : SubscriptionPlan) (now : Int) (sub sub' : UserSubscription) : Prop :=
  ∃ rounds, maybeResetUserSubscriptionWithPlan loc plan now rounds sub = some sub'

/-! ## What the schedule is for -/

/-- The boundary after `base` that the plan means: a custom period is so many seconds long. -/
def boundaryAfter (loc : Location) (plan : SubscriptionPlan) (base : Int) : Option Int :=
  if normalizeResetPeriod plan.quotaResetPeriod = .custom then some (base + plan.quotaResetCustomSeconds)
  else uncutResetTime loc plan base

def InLife (endUnix t : Int) : Prop := 0 < t ∧ (endUnix ≤ 0 ∨ t ≤ endUnix)

instance (endUnix t : Int) : Decidable (InLife endUnix t) := inferInstanceAs (Decidable (_ ∧ _))

/-- The boundaries after `base`, up to the end of the subscription. -/
inductive Boundary (loc : Location) (plan : SubscriptionPlan) (endUnix base : Int) : Int → Prop
  | first {t : Int} (h : boundaryAfter loc plan base = some t) (hlife : InLife endUnix t) :
      Boundary loc plan endUnix base t
  | later {s t : Int} (hs : Boundary loc plan endUnix base s) (h : boundaryAfter loc plan s = some t)
      (hlife : InLife endUnix t) : Boundary loc plan endUnix base t

def Due (loc : Location) (plan : SubscriptionPlan) (sub : UserSubscription) (now : Int) : Prop :=
  ∃ t, Boundary loc plan sub.endTime sub.base t ∧ sub.base < t ∧ t ≤ now

/-- The resets of `sub` from its base on end, keep to the schedule of the plan, and do not depend on when they are
made. -/
structure KeepsSchedule (loc : Location) (plan : SubscriptionPlan) (sub : UserSubscription) : Prop where
  ends : ∀ now, sub.base ≤ now → ∃ sub', Resets loc plan now sub sub'
  next : ∀ now sub', sub.base ≤ now → Resets loc plan now sub sub' → sub'.nextResetTime = 0 ∨ now < sub'.nextResetTime
  last : ∀ now sub', sub.base ≤ now → Resets loc plan now sub sub' → sub'.lastResetTime ≤ now
  path : ∀ now₁ now₂ sub₁ sub₂, sub.base ≤ now₁ → now₁ ≤ now₂ → Resets loc plan now₁ sub sub₁ →
    Resets loc plan now₂ sub sub₂ →
    ∃ sub', Resets loc plan now₂ sub₁ sub' ∧ sub'.lastResetTime = sub₂.lastResetTime ∧
      sub'.nextResetTime = sub₂.nextResetTime
  used : ∀ now amountUsed sub', sub.base ≤ now → Resets loc plan now (sub.spent amountUsed) sub' →
    (Due loc plan sub now → sub'.amountUsed = 0) ∧ (¬Due loc plan sub now → sub'.amountUsed = amountUsed)

/-! ## The loop -/

section Loop

variable {loc : Location} {plan : SubscriptionPlan} {sub sub' : UserSubscription} {endUnix now base b next t : Int}
  {advanced after : Bool}

/-- The resets that the loop takes: those in the life of the subscription. -/
def schedule (loc : Location) (plan : SubscriptionPlan) (endUnix base : Int) : Option Int :=
  let next := calcNextResetTime loc plan endUnix base
  if 0 < next then some next else none

theorem schedule_eq_some : schedule loc plan endUnix base = some t ↔
    uncutResetTime loc plan base = some t ∧ InLife endUnix t := by
  unfold schedule calcNextResetTime InLife
  cases uncutResetTime loc plan base with
  | none => simp
  | some =>
    simp only [ite_none_right_eq_some, some.injEq]
    split_ifs <;> omega

theorem calcNextResetTime_of_schedule (h : schedule loc plan endUnix base = some t) :
    calcNextResetTime loc plan endUnix base = t := by
  unfold schedule at h
  simp only [ite_none_right_eq_some, some.injEq] at h
  exact h.2

theorem calcNextResetTime_of_none (h : schedule loc plan endUnix base = none) :
    calcNextResetTime loc plan endUnix base ≤ 0 := by
  unfold schedule at h
  simp only [ite_eq_right_iff, reduceCtorEq, imp_false, not_lt] at h
  exact h

theorem catchUp_to {rounds : Nat}
    (h : catchUp loc plan endUnix now rounds base (calcNextResetTime loc plan endUnix base) advanced =
      some (b, next, after)) :
    CatchUp.To (schedule loc plan endUnix) now base b ∧ next = calcNextResetTime loc plan endUnix b ∧
      (after = true ↔ advanced = true ∨ 0 < calcNextResetTime loc plan endUnix base ∧
        calcNextResetTime loc plan endUnix base ≤ now) := by
  induction rounds generalizing base advanced with
  | zero => cases h
  | succ _ ih =>
    unfold catchUp at h
    split_ifs at h with hdue
    · have hnext : schedule loc plan endUnix base = some (calcNextResetTime loc plan endUnix base) := if_pos hdue.1
      obtain ⟨hto, hlast, hafter⟩ := ih h
      exact ⟨.step hnext hdue.2 hto, hlast, by simp [hafter, hdue]⟩
    · simp only [some.injEq, Prod.mk.injEq] at h
      obtain ⟨rfl, rfl, rfl⟩ := h
      have hwaits (t : Int) (ht : schedule loc plan endUnix base = some t) : now < t := by
        have hpos := (schedule_eq_some.mp ht).2.1
        have hcalc := calcNextResetTime_of_schedule ht
        omega
      exact ⟨.stop hwaits, rfl, by simp [hdue]⟩

theorem exists_catchUp (h : CatchUp.To (schedule loc plan endUnix) now base b) (advanced : Bool) :
    ∃ rounds r, catchUp loc plan endUnix now rounds base
      (calcNextResetTime loc plan endUnix base) advanced = some r := by
  induction h generalizing advanced with
  | @stop b hwaits =>
    have hstop : ¬(0 < calcNextResetTime loc plan endUnix b ∧ calcNextResetTime loc plan endUnix b ≤ now) := by
      rintro ⟨hpos, hle⟩
      exact absurd hle (not_le.mpr (hwaits _ (if_pos hpos)))
    exact ⟨1, _, if_neg hstop⟩
  | @step b t _ hnext hle h ih =>
    obtain ⟨rounds, r, hr⟩ := ih true
    refine ⟨rounds + 1, r, ?_⟩
    have hpos := (schedule_eq_some.mp hnext).2.1
    unfold catchUp
    rw [calcNextResetTime_of_schedule hnext, if_pos ⟨hpos, hle⟩]
    exact hr

/-! ## What a reset does -/

theorem resets_early (hpos : 0 < sub.nextResetTime) (hearly : now < sub.nextResetTime) :
    Resets loc plan now sub sub' ↔ sub' = sub := by
  have hrun (rounds : Nat) : maybeResetUserSubscriptionWithPlan loc plan now rounds sub = some sub :=
    if_pos ⟨hpos, hearly⟩
  constructor
  · rintro ⟨rounds, h⟩
    exact some.inj (h.symm.trans (hrun rounds))
  · rintro rfl
    exact ⟨0, hrun 0⟩

theorem schedule_never (hnever : normalizeResetPeriod plan.quotaResetPeriod = .never) :
    schedule loc plan endUnix base = none := by
  simp [schedule, calcNextResetTime, uncutResetTime, hnever]

/-- What the reset makes of the end of the loop. -/
def caughtUp (loc : Location) (plan : SubscriptionPlan) (now : Int) (sub : UserSubscription) (base : Int) :
    UserSubscription :=
  let first := calcNextResetTime loc plan sub.endTime sub.base
  if 0 < first ∧ first ≤ now then
    { sub with amountUsed := 0, lastResetTime := base, nextResetTime := calcNextResetTime loc plan sub.endTime base }
  else if sub.nextResetTime = 0 ∧ 0 < first then { sub with nextResetTime := first, lastResetTime := sub.base }
  else sub

theorem resets_late (hlate : ¬(0 < sub.nextResetTime ∧ now < sub.nextResetTime)) : Resets loc plan now sub sub' ↔
      ∃ b, CatchUp.To (schedule loc plan sub.endTime) now sub.base b ∧ sub' = caughtUp loc plan now sub b := by
  have hstays (b : Int) (h : CatchUp.To (schedule loc plan sub.endTime) now sub.base b)
      (hfirst : ¬(0 < calcNextResetTime loc plan sub.endTime sub.base ∧
        calcNextResetTime loc plan sub.endTime sub.base ≤ now)) :
      b = sub.base := by
    cases h with
    | stop => rfl
    | step ht hle =>
      have hpos := (schedule_eq_some.mp ht).2.1
      rw [calcNextResetTime_of_schedule ht] at hfirst
      exact absurd ⟨hpos, hle⟩ hfirst
  have hrun {rounds : Nat} {r : UserSubscription}
      (h : maybeResetUserSubscriptionWithPlan loc plan now rounds sub = some r) :
      ∃ b, CatchUp.To (schedule loc plan sub.endTime) now sub.base b ∧ r = caughtUp loc plan now sub b := by
    unfold maybeResetUserSubscriptionWithPlan at h
    split_ifs at h with hnever
    · have hnone : schedule loc plan sub.endTime sub.base = none := schedule_never hnever
      have hfirst := calcNextResetTime_of_none hnone
      refine ⟨sub.base, .stop (by simp [hnone]), ?_⟩
      unfold caughtUp
      rw [if_neg (by omega), if_neg (by omega)]
      exact (some.inj h).symm
    · split at h
      · cases h
      · rename_i base next advanced hloop
        obtain ⟨hto, rfl, hafter⟩ := catchUp_to hloop
        refine ⟨base, hto, ?_⟩
        unfold caughtUp
        simp only [Bool.false_eq_true, false_or] at hafter
        by_cases hadvanced : advanced = true
        · rw [if_pos (hafter.mp hadvanced)]
          rw [if_neg (by simp [hadvanced])] at h
          exact (some.inj h).symm
        · have hfirst := mt hafter.mpr hadvanced
          obtain rfl := hstays base hto hfirst
          rw [if_neg hfirst]
          rw [if_pos (by simpa using hadvanced)] at h
          split_ifs at h ⊢ <;> exact (some.inj h).symm
  constructor
  · rintro ⟨rounds, h⟩
    exact hrun h
  · rintro ⟨b, hto, rfl⟩
    obtain ⟨rounds, ⟨_, _, _⟩, hloop⟩ := exists_catchUp hto false
    have hsome : ∃ r, maybeResetUserSubscriptionWithPlan loc plan now rounds sub = some r := by
      unfold maybeResetUserSubscriptionWithPlan
      rw [if_neg hlate, hloop]
      dsimp only
      split_ifs <;> exact ⟨_, rfl⟩
    obtain ⟨r, hr⟩ := hsome
    obtain ⟨_, hto', rfl⟩ := hrun hr
    obtain rfl := hto.unique hto'
    exact ⟨rounds, hr⟩

theorem resets_due (hlate : ¬(0 < sub.nextResetTime ∧ now < sub.nextResetTime))
    (hfirst : schedule loc plan sub.endTime sub.base = some t) (hle : t ≤ now) :
    Resets loc plan now sub sub' ↔ ∃ b, CatchUp.To (schedule loc plan sub.endTime) now sub.base b ∧ sub' = { sub with
        amountUsed := 0, lastResetTime := b, nextResetTime := calcNextResetTime loc plan sub.endTime b } := by
  have hpos := (schedule_eq_some.mp hfirst).2.1
  have hdue : 0 < t ∧ t ≤ now := ⟨hpos, hle⟩
  rw [resets_late hlate]
  simp only [caughtUp, calcNextResetTime_of_schedule hfirst, if_pos hdue]

theorem resets_undue (hlate : ¬(0 < sub.nextResetTime ∧ now < sub.nextResetTime))
    (hfirst : ∀ t, schedule loc plan sub.endTime sub.base = some t → now < t) : Resets loc plan now sub sub' ↔ sub' =
      if sub.nextResetTime = 0 ∧ 0 < calcNextResetTime loc plan sub.endTime sub.base then
        { sub with nextResetTime := calcNextResetTime loc plan sub.endTime sub.base, lastResetTime := sub.base }
      else sub := by
  have hnot : ¬(0 < calcNextResetTime loc plan sub.endTime sub.base ∧
      calcNextResetTime loc plan sub.endTime sub.base ≤ now) := by
    rintro ⟨hpos, hle⟩
    exact absurd hle (not_le.mpr (hfirst _ (if_pos hpos)))
  rw [resets_late hlate]
  simp only [caughtUp, if_neg hnot]
  exact ⟨fun ⟨_, _, h⟩ => h, fun h => ⟨sub.base, .stop hfirst, h⟩⟩

end Loop

end CubeRouter.Subscription.Reset
