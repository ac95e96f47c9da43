import CubeRouter.Subscription.ResetSchedule
import Mathlib.Data.Int.LeastGreatest

/-!
# When resets keep to the schedule

Catching up in one go or in several ends at the same place, if it ends. It ends when the boundaries of the plan go on
or come to a last one (`LeadsOn`); a location whose clock skips a midnight can send the daily step back to the day it
came from. A custom period that overflows makes the code's step smaller than the period, zero or negative, and then
the subscription is safe only when no reset falls into its life, or when its marker happens to hide the wrong ones.
-/

namespace CubeRouter.Subscription.Reset

open Gregorian Option

variable {loc : Location} {plan : SubscriptionPlan} {sub sub' : UserSubscription} {now b t n B : Int}

/-- The clock of the location finds a later midnight and a later first of the month after each second. -/
structure CalendarAdvances (loc : Location) : Prop where
  daily : ∀ base, base < loc.addDate (midnight loc base) 0 0 1
  weekly : ∀ base, base < loc.addDate (midnight loc base) 0 0 (daysUntilMonday loc base)
  monthly : ∀ base, base < loc.addDate (monthBegin loc base) 0 1 0

theorem calendarAdvances_fixed (offset : Int) : CalendarAdvances (.fixed offset) := by
  have hmidnight (base days : Int) (hdays : 1 ≤ days) :
      base < (Location.fixed offset).addDate (midnight (.fixed offset) base) 0 0 days := by
    unfold Location.addDate midnight
    rw [Date.days_ofDays, Location.day_ofLocal_fixed offset _ le_rfl (by decide),
      Location.clock_ofLocal_fixed offset _ le_rfl (by decide)]
    refine Location.lt_ofLocal_fixed offset base ?_
    have hday := Date.days_ofDays ((Location.fixed offset).day base)
    unfold Date.days at hday ⊢
    dsimp only
    rw [add_zero, add_zero]
    omega
  refine ⟨fun base => hmidnight base 1 le_rfl, fun base => hmidnight base _ ?_, fun base => ?_⟩
  · unfold daysUntilMonday weekday
    dsimp only
    split_ifs <;> omega
  · unfold Location.addDate monthBegin
    rw [Location.day_ofLocal_fixed offset _ le_rfl (by decide),
      Location.clock_ofLocal_fixed offset _ le_rfl (by decide)]
    refine Location.lt_ofLocal_fixed offset base ?_
    generalize (Location.fixed offset).day base = d
    have hmonth := (monthIndex_spec d).2
    have hbegin : Date.days { Date.ofDays d with day := 1 } = monthStart (monthIndex d) := by
      unfold Date.days
      dsimp only
      rw [Date.month_ofDays]
      omega
    have hsame : monthIndex (monthStart (monthIndex d)) = monthIndex d := monthIndex_eq le_rfl (monthStart_lt_succ _)
    rw [hbegin]
    unfold Date.days
    have hindex := Date.month_ofDays (monthStart (monthIndex d))
    have hday : (Date.ofDays (monthStart (monthIndex d))).day = 1 := by
      unfold Date.ofDays
      dsimp only
      rw [hsame]
      omega
    dsimp only
    rw [show 12 * ((Date.ofDays (monthStart (monthIndex d))).year + 0) +
      ((Date.ofDays (monthStart (monthIndex d))).month + 1) - 3
      = monthIndex d + 1 by omega, hday]
    omega

theorem UserSubscription.base_pos (hstart : 0 < sub.startTime) : 0 < sub.base := by
  unfold UserSubscription.base
  split_ifs <;> omega

/-! ## Boundaries -/

/-- `B` is the first boundary of the plan after the base. -/
structure FirstBoundary (loc : Location) (plan : SubscriptionPlan) (sub : UserSubscription) (B : Int) : Prop where
  boundary : Boundary loc plan sub.endTime sub.base B
  after : sub.base < B
  least : ∀ t, Boundary loc plan sub.endTime sub.base t → sub.base < t → B ≤ t

/-- `t` is the last boundary before the end of the subscription. -/
def Last (loc : Location) (plan : SubscriptionPlan) (endUnix t : Int) : Prop :=
  ∀ s, boundaryAfter loc plan t = some s → s = 0 ∨ 0 < endUnix ∧ endUnix < s

/-- From `B` on the boundaries of the plan go on for ever, or come to a last one. -/
def LeadsOn (loc : Location) (plan : SubscriptionPlan) (sub : UserSubscription) (B : Int) : Prop :=
  ∀ now, B ≤ now → ∃ t, Boundary loc plan sub.endTime sub.base t ∧ (now < t ∨ Last loc plan sub.endTime t)

theorem FirstBoundary.due_iff (h : FirstBoundary loc plan sub B) (now : Int) : Due loc plan sub now ↔ B ≤ now :=
  ⟨fun ⟨t, ht, hafter, hle⟩ => (h.least t ht hafter).trans hle, fun hle => ⟨B, h.boundary, h.after, hle⟩⟩

theorem Due.exists_first (h : Due loc plan sub now) : ∃ B, FirstBoundary loc plan sub B := by
  obtain ⟨t, ht, hafter, -⟩ := h
  obtain ⟨B, ⟨hB, hlt⟩, hleast⟩ := Int.exists_least_of_bdd
    (P := fun t => Boundary loc plan sub.endTime sub.base t ∧ sub.base < t)
      ⟨sub.base, fun _ h => h.2.le⟩ ⟨t, ht, hafter⟩
  exact ⟨B, hB, hlt, fun t ht hafter => hleast t ⟨ht, hafter⟩⟩

variable {endUnix base : Int}

theorem Boundary.inLife (h : Boundary loc plan endUnix base t) : InLife endUnix t := by
  cases h with
  | first _ hlife | later _ _ hlife => exact hlife

theorem Boundary.exists_first (h : Boundary loc plan endUnix base t) :
    ∃ s, boundaryAfter loc plan base = some s ∧ InLife endUnix s := by
  induction h with
  | first h hlife => exact ⟨_, h, hlife⟩
  | later _ _ _ ih => exact ih

section Advancing

variable (hadvances : ∀ base t, boundaryAfter loc plan base = some t → base < t)
include hadvances

theorem firstBoundary_of_advances (hB : boundaryAfter loc plan sub.base = some B) (hlife : InLife sub.endTime B) :
    FirstBoundary loc plan sub B := by
  have hleast (t : Int) (ht : Boundary loc plan sub.endTime sub.base t) : B ≤ t := by
    induction ht with
    | first h => exact (mem_unique hB h).le
    | later _ h _ ih => exact ih.trans (hadvances _ _ h).le
  exact ⟨.first hB hlife, hadvances _ _ hB, fun t ht _ => hleast t ht⟩

theorem leadsOn_of_advances (hB : boundaryAfter loc plan sub.base = some B) (hlife : InLife sub.endTime B) :
    LeadsOn loc plan sub B := by
  intro now hnow
  let next (b : Int) : Option Int := (boundaryAfter loc plan b).filter fun t => decide (InLife sub.endTime t)
  have hnext {b t : Int} : next b = some t ↔ boundaryAfter loc plan b = some t ∧ InLife sub.endTime t := by
    rw [filter_eq_some_iff, decide_eq_true_eq]
  have hadvancing : CatchUp.Advancing next := fun b t ht => hadvances b t (hnext.mp ht).1
  obtain ⟨b, hto⟩ := hadvancing.exists_to now sub.base
  have hreached : b = sub.base ∨ Boundary loc plan sub.endTime sub.base b := by
    refine hto.reached (P := fun b => b = sub.base ∨ Boundary loc plan sub.endTime sub.base b) ?_ (.inl rfl)
    rintro b t (rfl | hb) ht
    · exact .inr (.first (hnext.mp ht).1 (hnext.mp ht).2)
    · exact .inr (.later hb (hnext.mp ht).1 (hnext.mp ht).2)
  rcases hreached with rfl | hb
  · exact absurd (hto.after B (hnext.mpr ⟨hB, hlife⟩)) (not_lt.mpr hnow)
  · by_cases hmore : ∃ t, next b = some t
    · obtain ⟨t, ht⟩ := hmore
      exact ⟨t, .later hb (hnext.mp ht).1 (hnext.mp ht).2, .inl (hto.after t ht)⟩
    · refine ⟨b, hb, .inr fun s hs => .inr ?_⟩
      have hover : ¬InLife sub.endTime s := fun h => hmore ⟨s, hnext.mpr ⟨hs, h⟩⟩
      have hpos := hb.inLife.1
      have hlt := hadvances b s hs
      unfold InLife at hover
      omega

end Advancing

/-! ## The step of a plan -/

/-- The step of a custom period, as the duration counts it. -/
def customStep (seconds : Int) : Int := wrapInt64 (seconds * (1 * 1000000000)) / 1000000000

variable {seconds m step : Int}

theorem customStep_eq (hpos : 0 < seconds) (hfits : seconds * 1000000000 < 2 ^ 63) : customStep seconds = seconds := by
  unfold customStep wrapInt64
  omega

theorem customStep_lt (hoverflow : 2 ^ 63 ≤ seconds * 1000000000) : customStep seconds < seconds := by
  unfold customStep wrapInt64
  omega

/-- The code takes a smaller step, which may be zero or negative. -/
structure Overflowing (loc : Location) (plan : SubscriptionPlan) (step seconds : Int) : Prop where
  pos : 0 < seconds
  lt : step < seconds
  uncut : ∀ base, uncutResetTime loc plan base = some (base + step)
  boundary : ∀ base, boundaryAfter loc plan base = some (base + seconds)

/-- The code takes the steps that the plan means, or a custom period overflows. -/
theorem exact_or_overflowing
    (hcustom : normalizeResetPeriod plan.quotaResetPeriod = .custom → 0 < plan.quotaResetCustomSeconds) :
    (∀ base, boundaryAfter loc plan base = uncutResetTime loc plan base) ∨
      Overflowing loc plan (customStep plan.quotaResetCustomSeconds) plan.quotaResetCustomSeconds := by
  by_cases hperiod : normalizeResetPeriod plan.quotaResetPeriod = .custom
  · have hpos := hcustom hperiod
    have huncut (base : Int) :
        uncutResetTime loc plan base = some (base + customStep plan.quotaResetCustomSeconds) := by
      unfold uncutResetTime
      rw [hperiod]
      exact if_neg (not_le.mpr hpos)
    have hboundary (base : Int) :
      boundaryAfter loc plan base = some (base + plan.quotaResetCustomSeconds) := if_pos hperiod
    by_cases hfits : plan.quotaResetCustomSeconds * 1000000000 < 2 ^ 63
    · rw [customStep_eq hpos hfits] at huncut
      exact .inl fun base => (hboundary base).trans (huncut base).symm
    · exact .inr ⟨hpos, customStep_lt (not_lt.mp hfits), huncut, hboundary⟩
  · exact .inl fun base => if_neg hperiod

theorem boundary_advances (hloc : CalendarAdvances loc)
    (hcustom : normalizeResetPeriod plan.quotaResetPeriod = .custom → 0 < plan.quotaResetCustomSeconds) (base t : Int)
    (ht : boundaryAfter loc plan base = some t) : base < t := by
  unfold boundaryAfter at ht
  split_ifs at ht with hperiod
  · have hpos := hcustom hperiod
    have := some.inj ht
    omega
  · unfold uncutResetTime at ht
    cases hp : normalizeResetPeriod plan.quotaResetPeriod with
    | never =>
      rw [hp] at ht
      cases ht
    | daily =>
      rw [hp] at ht
      exact some.inj ht ▸ hloc.daily base
    | weekly =>
      rw [hp] at ht
      exact some.inj ht ▸ hloc.weekly base
    | monthly =>
      rw [hp] at ht
      exact some.inj ht ▸ hloc.monthly base
    | custom => exact absurd hp hperiod

theorem Overflowing.advances (hover : Overflowing loc plan step seconds) (base t : Int)
    (ht : boundaryAfter loc plan base = some t) : base < t := by
  rw [hover.boundary] at ht
  have := some.inj ht
  have := hover.pos
  omega

/-! ## Subscriptions that keep to the schedule -/

/-- Neither the code nor the plan finds a boundary in the life of the subscription. -/
theorem keepsSchedule_quiet (hlast : sub.lastResetTime ≤ sub.base) (hmarker : sub.nextResetTime = 0)
    (hquiet : schedule loc plan sub.endTime sub.base = none)
    (hdue : ∀ now, ¬Due loc plan sub now) : KeepsSchedule loc plan sub := by
  have hfirst := calcNextResetTime_of_none hquiet
  have hstays (now amountUsed : Int) (sub' : UserSubscription) :
      Resets loc plan now (sub.spent amountUsed) sub' ↔ sub' = sub.spent amountUsed := by
    have hnot : ¬((sub.spent amountUsed).nextResetTime = 0 ∧
        0 < calcNextResetTime loc plan (sub.spent amountUsed).endTime (sub.spent amountUsed).base) :=
      not_and_of_not_right _ (not_lt.mpr hfirst)
    rw [resets_undue (by simp [hmarker]) (by simp [hquiet]), if_neg hnot]
  constructor
  · exact fun now _ => ⟨sub, (hstays now sub.amountUsed sub).mpr rfl⟩
  · intro now sub' _ h
    rw [(hstays now sub.amountUsed sub').mp h]
    exact .inl hmarker
  · intro now sub' hnow h
    rw [(hstays now sub.amountUsed sub').mp h]
    exact hlast.trans hnow
  · intro now₁ now₂ sub1 sub2 _ _ h1 h2
    rw [(hstays now₁ sub.amountUsed sub1).mp h1, (hstays now₂ sub.amountUsed sub2).mp h2]
    exact ⟨sub, (hstays now₂ sub.amountUsed sub).mpr rfl, rfl, rfl⟩
  · intro now amountUsed sub' _ h
    rw [(hstays now amountUsed sub').mp h]
    exact ⟨fun hd => absurd hd (hdue now), fun _ => rfl⟩

theorem resets_again {b₁ b₂ : Int} (hpos : 0 < b₁) (hlast : sub.lastResetTime = b₁)
    (hnext : sub.nextResetTime = calcNextResetTime loc plan sub.endTime b₁)
    (hrest : CatchUp.To (schedule loc plan sub.endTime) now b₁ b₂) :
    ∃ sub', Resets loc plan now sub sub' ∧ sub'.lastResetTime = b₂ ∧
      sub'.nextResetTime = calcNextResetTime loc plan sub.endTime b₂ := by
  have hbase : sub.base = b₁ := by
    unfold UserSubscription.base
    rw [hlast, if_neg (not_le.mpr hpos)]
  by_cases hearly : 0 < sub.nextResetTime ∧ now < sub.nextResetTime
  · obtain rfl : b₁ = b₂ := CatchUp.To.unique (.stop fun t ht => by
      rw [← calcNextResetTime_of_schedule ht, ← hnext]
      exact hearly.2) hrest
    exact ⟨sub, (resets_early hearly.1 hearly.2).mpr rfl, hlast, hnext⟩
  · refine ⟨_, (resets_late hearly).mpr ⟨b₂, by rwa [hbase], rfl⟩, ?_⟩
    by_cases hagain : 0 < calcNextResetTime loc plan sub.endTime b₁ ∧ calcNextResetTime loc plan sub.endTime b₁ ≤ now
    · simp only [caughtUp, hbase, if_pos hagain, and_self]
    · obtain rfl : b₁ = b₂ := CatchUp.To.unique (.stop fun t ht => by
        have hpos := (schedule_eq_some.mp ht).2.1
        have := calcNextResetTime_of_schedule ht
        omega) hrest
      have hover : ¬(sub.nextResetTime = 0 ∧ 0 < calcNextResetTime loc plan sub.endTime b₁) := by omega
      simp only [caughtUp, hbase, if_neg hagain, if_neg hover]
      exact ⟨hlast, hnext⟩

/-- The loop from the base on: it starts with the reset at `n`, and from the boundary `B` of the plan on it ends, with
no reset left to make. -/
structure Loops (loc : Location) (plan : SubscriptionPlan) (sub : UserSubscription) (n B : Int) : Prop where
  first : schedule loc plan sub.endTime sub.base = some n
  le : n ≤ B
  life : InLife sub.endTime B
  ends : ∀ now, B ≤ now → ∃ b, CatchUp.To (schedule loc plan sub.endTime) now sub.base b ∧
    (calcNextResetTime loc plan sub.endTime b = 0 ∨ now < calcNextResetTime loc plan sub.endTime b)

/-- The marker keeps the code from a reset before the boundary `B`. -/
def Marked (sub : UserSubscription) (n B : Int) : Prop := sub.nextResetTime = B ∨ sub.nextResetTime = 0 ∧ n = B

section Loops

variable (hloops : Loops loc plan sub n B) (hmarked : Marked sub n B)
include hloops hmarked

theorem resets_from (amountUsed : Int) (hnow : B ≤ now) : Resets loc plan now (sub.spent amountUsed) sub' ↔
      ∃ b, CatchUp.To (schedule loc plan sub.endTime) now sub.base b ∧ sub' = { sub with
        amountUsed := 0, lastResetTime := b, nextResetTime := calcNextResetTime loc plan sub.endTime b } := by
  have hlate : ¬(0 < (sub.spent amountUsed).nextResetTime ∧ now < (sub.spent amountUsed).nextResetTime) := by
    rw [UserSubscription.spent_nextResetTime]
    rcases hmarked with h | h <;> omega
  exact resets_due hlate hloops.first (hloops.le.trans hnow)

theorem resets_before (amountUsed : Int) (hnow : now < B) : Resets loc plan now (sub.spent amountUsed) sub' ↔ sub' =
      if sub.nextResetTime = 0 then { sub.spent amountUsed with nextResetTime := B, lastResetTime := sub.base }
      else sub.spent amountUsed := by
  have hpos := hloops.life.1
  rcases hmarked with hmarker | ⟨hmarker, rfl⟩
  · rw [if_neg (by omega)]
    exact resets_early (by rw [UserSubscription.spent_nextResetTime]; omega)
      (by rw [UserSubscription.spent_nextResetTime]; omega)
  · rw [if_pos hmarker, resets_undue (by simp [hmarker]) fun t ht => ?_]
    · simp only [UserSubscription.spent_base, UserSubscription.spent_endTime, UserSubscription.spent_nextResetTime,
        calcNextResetTime_of_schedule hloops.first]
      rw [if_pos ⟨hmarker, hpos⟩]
    · obtain rfl := mem_unique hloops.first ht
      exact hnow

theorem resets_before_same {sub1 : UserSubscription} (hbase : 0 < sub.base) (hnow : now < B)
    (h : Resets loc plan now sub sub1) :
    sub1.base = sub.base ∧ sub1.endTime = sub.endTime ∧ sub1.nextResetTime = B := by
  rw [(resets_before hloops hmarked sub.amountUsed hnow).mp h]
  split_ifs with hzero
  · exact ⟨if_neg (not_le.mpr hbase), rfl, rfl⟩
  · exact ⟨rfl, rfl, hmarked.resolve_right fun h => hzero h.1⟩

theorem keepsSchedule_of_loops (hbase : 0 < sub.base) (hlast : sub.lastResetTime ≤ sub.base)
    (hdue : ∀ now, Due loc plan sub now ↔ B ≤ now) : KeepsSchedule loc plan sub := by
  constructor
  · intro now _
    by_cases hnow : now < B
    · exact ⟨_, (resets_before hloops hmarked sub.amountUsed hnow).mpr rfl⟩
    · obtain ⟨b, hto, -⟩ := hloops.ends now (not_lt.mp hnow)
      exact ⟨_, (resets_from hloops hmarked sub.amountUsed (not_lt.mp hnow)).mpr ⟨b, hto, rfl⟩⟩
  · intro now sub' _ h
    by_cases hnow : now < B
    · right
      rw [(resets_before_same hloops hmarked hbase hnow h).2.2]
      exact hnow
    · obtain ⟨b, hto, rfl⟩ := (resets_from hloops hmarked sub.amountUsed (not_lt.mp hnow)).mp h
      obtain ⟨_, hto', hended⟩ := hloops.ends now (not_lt.mp hnow)
      rwa [hto.unique hto']
  · intro now sub' hge h
    by_cases hnow : now < B
    · rw [(resets_before hloops hmarked sub.amountUsed hnow).mp h]
      split_ifs
      · exact hge
      · exact hlast.trans hge
    · obtain ⟨b, hto, rfl⟩ := (resets_from hloops hmarked sub.amountUsed (not_lt.mp hnow)).mp h
      rcases hto.last with rfl | hb
      · exact hge
      · exact hb
  · intro now₁ now₂ sub1 sub2 hge hle12 h1 h2
    by_cases hnow1 : now₁ < B
    · obtain ⟨hbase1, hend1, hnext1⟩ := resets_before_same hloops hmarked hbase hnow1 h1
      by_cases hnow2 : now₂ < B
      · refine ⟨sub1, (resets_early (hnext1 ▸ hloops.life.1) (hnext1 ▸ hnow2)).mpr rfl, ?_⟩
        rw [(resets_before hloops hmarked sub.amountUsed hnow1).mp h1,
          (resets_before hloops hmarked sub.amountUsed hnow2).mp h2]
        exact ⟨rfl, rfl⟩
      · obtain ⟨b₂, hto2, rfl⟩ := (resets_from hloops hmarked sub.amountUsed (not_lt.mp hnow2)).mp h2
        have hfirst1 : schedule loc plan sub1.endTime sub1.base = some n := by rw [hend1, hbase1, hloops.first]
        refine ⟨_, (resets_due (by omega) hfirst1 (hloops.le.trans (not_lt.mp hnow2))).mpr ⟨b₂, ?_, rfl⟩, rfl, ?_⟩
        · rwa [hend1, hbase1]
        · rw [hend1]
    · have hnow1 : B ≤ now₁ := not_lt.mp hnow1
      obtain ⟨b₁, hto1, rfl⟩ := (resets_from hloops hmarked sub.amountUsed hnow1).mp h1
      obtain ⟨b₂, hto2, rfl⟩ := (resets_from hloops hmarked sub.amountUsed (hnow1.trans hle12)).mp h2
      have hpos : 0 < b₁ := hto1.reached (fun _ _ _ ht => (schedule_eq_some.mp ht).2.1) hbase
      exact resets_again hpos rfl rfl (hto1.tail hle12 hto2)
  · intro now amountUsed sub' _ h
    rw [hdue now]
    by_cases hnow : now < B
    · rw [(resets_before hloops hmarked amountUsed hnow).mp h]
      refine ⟨fun hB => absurd hB (not_le.mpr hnow), fun _ => ?_⟩
      split_ifs <;> rfl
    · obtain ⟨b, _, rfl⟩ := (resets_from hloops hmarked amountUsed (not_lt.mp hnow)).mp h
      exact ⟨fun _ => rfl, fun hB => absurd (not_lt.mp hnow) hB⟩

end Loops

/-- The loop of a code that takes the plan's steps stops before a boundary, or has come to it. -/
theorem Boundary.to_or (hexact : ∀ base, boundaryAfter loc plan base = uncutResetTime loc plan base)
    (h : Boundary loc plan sub.endTime sub.base t) :
    (∃ b s, CatchUp.To (schedule loc plan sub.endTime) now sub.base b ∧
      schedule loc plan sub.endTime b = some s ∧ now < s) ∨
    t ≤ now ∧ ∀ b, CatchUp.To (schedule loc plan sub.endTime) now t b →
      CatchUp.To (schedule loc plan sub.endTime) now sub.base b := by
  have hwaits {b s : Int} (hs : schedule loc plan sub.endTime b = some s) (hlate : now < s) (s' : Int)
      (hs' : schedule loc plan sub.endTime b = some s') : now < s' := by
    obtain rfl := mem_unique hs hs'
    exact hlate
  induction h with
  | @first t h hlife =>
    have hnext : schedule loc plan sub.endTime sub.base = some t := schedule_eq_some.mpr ⟨hexact _ ▸ h, hlife⟩
    by_cases hle : t ≤ now
    · exact .inr ⟨hle, fun b hto => .step hnext hle hto⟩
    · exact .inl ⟨sub.base, t, .stop (hwaits hnext (not_le.mp hle)), hnext, not_le.mp hle⟩
  | @later s t _ h hlife ih =>
    have hnext : schedule loc plan sub.endTime s = some t := schedule_eq_some.mpr ⟨hexact _ ▸ h, hlife⟩
    rcases ih with hstops | ⟨-, hreaches⟩
    · exact .inl hstops
    · by_cases hle : t ≤ now
      · exact .inr ⟨hle, fun b hto => hreaches b (.step hnext hle hto)⟩
      · exact .inl ⟨s, t, hreaches s (.stop (hwaits hnext (not_le.mp hle))), hnext, not_le.mp hle⟩

theorem loops_of_leadsOn (hexact : ∀ base, boundaryAfter loc plan base = uncutResetTime loc plan base)
    (hn : uncutResetTime loc plan sub.base = some n) (hB : FirstBoundary loc plan sub B) (hle : n ≤ B)
    (hleads : LeadsOn loc plan sub B) : Loops loc plan sub n B := by
  obtain ⟨_, hfirst, hlife⟩ := hB.boundary.exists_first
  obtain rfl := mem_unique hn ((hexact _).symm.trans hfirst)
  refine ⟨schedule_eq_some.mpr ⟨hn, hlife⟩, hle, hB.boundary.inLife, fun now hnow => ?_⟩
  obtain ⟨t, ht, hlater⟩ := hleads now hnow
  rcases ht.to_or hexact with ⟨b, s, hto, hs, hlt⟩ | ⟨hdue, hreaches⟩
  · exact ⟨b, hto, .inr ((calcNextResetTime_of_schedule hs).symm ▸ hlt)⟩
  · -- the loop has come to the last boundary
    have hlast := hlater.resolve_left (not_lt.mpr hdue)
    have hzero : calcNextResetTime loc plan sub.endTime t = 0 := by
      unfold calcNextResetTime
      cases hs : uncutResetTime loc plan t with
      | none => rfl
      | some s =>
        have := hlast s ((hexact t).trans hs)
        dsimp only
        split_ifs <;> omega
    refine ⟨t, hreaches t (.stop fun s hs => ?_), .inl hzero⟩
    have hpos := (schedule_eq_some.mp hs).2.1
    rw [← calcNextResetTime_of_schedule hs, hzero] at hpos
    exact absurd hpos (lt_irrefl 0)

theorem loops_of_advances (hadvances : ∀ base t, uncutResetTime loc plan base = some t → base < t)
    (hbase : 0 < sub.base)
    (hn : uncutResetTime loc plan sub.base = some n) (hle : n ≤ B) (hlife : InLife sub.endTime B) :
    Loops loc plan sub n B := by
  have hmoves := hadvances _ _ hn
  have hadvancing : CatchUp.Advancing (schedule loc plan sub.endTime) :=
    fun b t ht => hadvances b t (schedule_eq_some.mp ht).1
  refine ⟨schedule_eq_some.mpr ⟨hn, by omega, hlife.2.imp_right hle.trans⟩, hle, hlife, fun now _ => ?_⟩
  obtain ⟨b, hto⟩ := hadvancing.exists_to now sub.base
  refine ⟨b, hto, ?_⟩
  by_cases hpos : 0 < calcNextResetTime loc plan sub.endTime b
  · exact .inr (hto.after _ (if_pos hpos))
  · left
    have hb : 0 < b := hto.reached (fun _ _ _ ht => (schedule_eq_some.mp ht).2.1) hbase
    unfold calcNextResetTime at hpos ⊢
    cases ht : uncutResetTime loc plan b with
    | none => rfl
    | some t =>
      have := hadvances b t ht
      rw [ht] at hpos
      dsimp only at hpos ⊢
      split_ifs at hpos ⊢ <;> omega

/-- With a negative step the loop runs down to the last multiple of the step. -/
theorem to_runsDown (hover : Overflowing loc plan (-m) seconds) (hm : 0 < m) (k : Nat)
    (hnow : m * k ≤ now) (hend : endUnix ≤ 0 ∨ m * k ≤ endUnix) :
    CatchUp.To (schedule loc plan endUnix) now (m * k + m) m := by
  induction k with
  | zero =>
    rw [Nat.cast_zero, mul_zero, zero_add]
    refine .stop fun t ht => ?_
    obtain ⟨huncut, _, -⟩ := schedule_eq_some.mp ht
    rw [hover.uncut] at huncut
    have := some.inj huncut
    omega
  | succ k ih =>
    have hprod : 0 ≤ m * (k : Int) := Int.mul_nonneg hm.le (Int.natCast_nonneg k)
    have hnext : m * ((k + 1 : Nat) : Int) = m * k + m := by
      push_cast
      rw [mul_add, mul_one]
    rw [hnext] at hnow hend ⊢
    generalize m * (k : Int) = x at ih hprod hnow hend ⊢
    refine .step (t := x + m) (schedule_eq_some.mpr ⟨?_, by omega, hend⟩) hnow (ih (by omega) (by omega))
    rw [hover.uncut]
    congr 1
    omega

theorem loops_of_runsDown (hover : Overflowing loc plan (-m) seconds) (hm : 0 < m) (hn : 0 < sub.base + -m)
    (hdvd : m ∣ sub.base) (hlife : InLife sub.endTime (sub.base + seconds)) :
    Loops loc plan sub (sub.base + -m) (sub.base + seconds) := by
  have hpos := hover.pos
  have hto (now : Int) (hnow : sub.base + seconds ≤ now) :
    CatchUp.To (schedule loc plan sub.endTime) now sub.base m := by
    obtain ⟨c, hc⟩ := hdvd
    have hcpos : 0 < c := by
      by_contra hneg
      have := Int.mul_nonpos_of_nonneg_of_nonpos hm.le (not_lt.mp hneg)
      omega
    obtain ⟨k, rfl⟩ : ∃ k : Nat, c = k + 1 := ⟨(c - 1).toNat, by omega⟩
    rw [mul_add, mul_one] at hc
    have hdown : CatchUp.To (schedule loc plan sub.endTime) now (m * k + m) m :=
      to_runsDown hover hm k (by omega) (hlife.2.imp_right fun h => by omega)
    rwa [← hc] at hdown
  refine ⟨schedule_eq_some.mpr ⟨hover.uncut _, hn, hlife.2.imp_right fun h => by omega⟩,
    by have := hover.lt; omega, hlife,
    fun now hnow => ⟨m, hto now hnow, .inl ?_⟩⟩
  unfold calcNextResetTime
  rw [hover.uncut]
  dsimp only
  split_ifs <;> omega

/-! ## What keeping to the schedule says of the first reset -/

section Keeps

variable (hkeeps : KeepsSchedule loc plan sub) (hge : sub.base ≤ now)
include hkeeps hge

theorem KeepsSchedule.no_marker (hlate : sub.nextResetTime ≤ now)
    (hfirst : ∀ t, schedule loc plan sub.endTime sub.base = some t → now < t) : sub.nextResetTime = 0 := by
  by_contra hmarker
  have hrun : Resets loc plan now sub sub := by
    rw [resets_undue (by omega) hfirst, if_neg fun h => hmarker h.1]
  have := hkeeps.next now sub hge hrun
  omega

theorem KeepsSchedule.due (hlate : sub.nextResetTime ≤ now) (hfirst : schedule loc plan sub.endTime sub.base = some t)
    (hle : t ≤ now) : Due loc plan sub now := by
  obtain ⟨_, hrun⟩ := hkeeps.ends now hge
  obtain ⟨b, hto, -⟩ := (resets_due (by omega) hfirst hle).mp hrun
  have hlate1 : ¬(0 < (sub.spent 1).nextResetTime ∧ now < (sub.spent 1).nextResetTime) := by
    rw [UserSubscription.spent_nextResetTime]
    omega
  by_contra hnot
  have hused := (hkeeps.used now 1 _ hge ((resets_due hlate1 hfirst hle).mpr ⟨b, hto, rfl⟩)).2 hnot
  exact absurd hused Int.zero_ne_one

theorem KeepsSchedule.not_due_early (hpos : 0 < sub.nextResetTime) (hearly : now < sub.nextResetTime) :
    ¬Due loc plan sub now := by
  intro hdue
  have hpos1 : 0 < (sub.spent 1).nextResetTime := hpos
  have hearly1 : now < (sub.spent 1).nextResetTime := hearly
  have hrun : Resets loc plan now (sub.spent 1) (sub.spent 1) := (resets_early hpos1 hearly1).mpr rfl
  have hused : (sub.spent 1).amountUsed = 0 := (hkeeps.used now 1 (sub.spent 1) hge hrun).1 hdue
  exact Int.one_ne_zero hused

theorem KeepsSchedule.not_due_waits (hlate : sub.nextResetTime ≤ now)
    (hfirst : ∀ t, schedule loc plan sub.endTime sub.base = some t → now < t) : ¬Due loc plan sub now := by
  intro hdue
  have hlate1 : ¬(0 < (sub.spent 1).nextResetTime ∧ now < (sub.spent 1).nextResetTime) := by
    rw [UserSubscription.spent_nextResetTime]
    omega
  obtain ⟨sub', hsub', hrun⟩ : ∃ sub', sub'.amountUsed = 1 ∧ Resets loc plan now (sub.spent 1) sub' := by
    refine ⟨_, ?_, (resets_undue hlate1 hfirst).mpr rfl⟩
    split_ifs
    · rfl
    · rfl
  have hused := (hkeeps.used now 1 sub' hge hrun).1 hdue
  omega

end Keeps

/-! ## Exactly when -/

/-- Neither the first reset of the code nor the first boundary of the plan is in the life of the subscription, and
there is no marker. Otherwise the plan has a first boundary after the base and leads on from it; the code's first
reset is that boundary, or an earlier one that a marker at the boundary hides; and the code's step is that of the
plan, or leads on, or down to zero. -/
def FollowsPlan (loc : Location) (plan : SubscriptionPlan) (sub : UserSubscription) : Prop :=
  sub.nextResetTime = 0 ∧ (∀ n, uncutResetTime loc plan sub.base = some n → ¬InLife sub.endTime n) ∧
      (∀ B, boundaryAfter loc plan sub.base = some B → ¬InLife sub.endTime B) ∨
    ∃ n B, uncutResetTime loc plan sub.base = some n ∧ FirstBoundary loc plan sub B ∧ LeadsOn loc plan sub B ∧ n ≤ B ∧
      Marked sub n B ∧ (uncutResetTime loc plan sub.base = boundaryAfter loc plan sub.base ∨ sub.base < n ∨
        0 < n ∧ n < sub.base ∧ sub.base - n ∣ sub.base)

theorem keepsSchedule_of_followsPlan
    (h : (∀ base, boundaryAfter loc plan base = uncutResetTime loc plan base) ∨ Overflowing loc plan step seconds)
    (hbase : 0 < sub.base) (hlast : sub.lastResetTime ≤ sub.base) (hfollows : FollowsPlan loc plan sub) :
    KeepsSchedule loc plan sub := by
  rcases hfollows with ⟨hmarker, hn, hB⟩ | ⟨n, B, hn, hB, hleads, hle, hmarked, hstep⟩
  · refine keepsSchedule_quiet hlast hmarker (eq_none_iff_forall_ne_some.mpr fun t ht => ?_) ?_
    · exact hn t (schedule_eq_some.mp ht).1 (schedule_eq_some.mp ht).2
    · rintro now ⟨t, ht, -⟩
      obtain ⟨s, hs, hlife⟩ := ht.exists_first
      exact hB s hs hlife
  · have hkeeps (hloops : Loops loc plan sub n B) : KeepsSchedule loc plan sub :=
      keepsSchedule_of_loops hloops hmarked hbase hlast hB.due_iff
    rcases h with hexact | hover
    · exact hkeeps (loops_of_leadsOn hexact hn hB hle hleads)
    · obtain rfl : sub.base + step = n := some.inj ((hover.uncut _).symm.trans hn)
      obtain ⟨s, hs, hlife⟩ := hB.boundary.exists_first
      obtain rfl : sub.base + seconds = s := some.inj ((hover.boundary _).symm.trans hs)
      have hsecond := firstBoundary_of_advances hover.advances hs hlife
      obtain rfl : B = sub.base + seconds :=
        le_antisymm (hB.least _ hsecond.boundary hsecond.after) (hsecond.least _ hB.boundary hB.after)
      have hlt := hover.lt
      rcases hstep with hsame | hforward | ⟨hpos, _, hdvd⟩
      · rw [hn, hs] at hsame
        have := some.inj hsame
        omega
      · refine hkeeps (loops_of_advances (fun base t ht => ?_) hbase hn (by omega) hlife)
        rw [hover.uncut] at ht
        have := some.inj ht
        omega
      · obtain ⟨m, rfl⟩ : ∃ m, step = -m := ⟨-step, (neg_neg step).symm⟩
        rw [show sub.base - (sub.base + -m) = m by omega] at hdvd
        exact hkeeps (loops_of_runsDown hover (by omega) hpos hdvd hlife)

theorem dvd_of_runsDown (hover : Overflowing loc plan (-m) seconds) (hm : 0 < m) (hkeeps : KeepsSchedule loc plan sub)
    (hlife : InLife sub.endTime (sub.base + -m)) (hge : sub.base ≤ now) (hlate : sub.nextResetTime ≤ now) :
    m ∣ sub.base := by
  have hfirst : schedule loc plan sub.endTime sub.base = some (sub.base + -m) :=
    schedule_eq_some.mpr ⟨hover.uncut _, hlife⟩
  obtain ⟨_, hrun⟩ := hkeeps.ends now hge
  obtain ⟨b, hto, rfl⟩ := (resets_due (by omega) hfirst (by omega)).mp hrun
  obtain ⟨hle, hdvd⟩ : b ≤ sub.base ∧ m ∣ sub.base - b := by
    refine hto.reached (P := fun b => b ≤ sub.base ∧ m ∣ sub.base - b) (fun b t hb ht => ?_)
      ⟨le_rfl, by rw [Int.sub_self]; exact Int.dvd_zero m⟩
    have huncut := (schedule_eq_some.mp ht).1
    rw [hover.uncut] at huncut
    obtain rfl := some.inj huncut
    refine ⟨by omega, ?_⟩
    rw [show sub.base - (b + -m) = sub.base - b + m by omega]
    exact Int.dvd_add hb.2 (Int.dvd_refl m)
  have hcalc : calcNextResetTime loc plan sub.endTime b = b + -m := by
    have hcut : ¬(0 < sub.endTime ∧ sub.endTime < b + -m) := by
      have := hlife.2
      omega
    unfold calcNextResetTime
    rw [hover.uncut]
    exact if_neg hcut
  have hnext := hkeeps.next now _ hge hrun
  dsimp only at hnext
  obtain rfl : b = m := by omega
  have hsum := Int.dvd_add hdvd (Int.dvd_refl b)
  rwa [Int.sub_add_cancel] at hsum

theorem not_resets_of_stuck (hlate : ¬(0 < sub.nextResetTime ∧ now < sub.nextResetTime))
    (hstuck : schedule loc plan sub.endTime sub.base = some sub.base) (hge : sub.base ≤ now) :
    ¬Resets loc plan now sub sub' := by
  intro h
  obtain ⟨b, hto, -⟩ := (resets_due hlate hstuck hge).mp h
  exact CatchUp.not_to_of_stuck hstuck hge hto

/-- A location whose clock goes from 24:00 to 1:00: the midnight of the daily step is 23:00 of the day before. -/
example (now : Int) (hge : 1725764400 ≤ now) (sub' : UserSubscription) :
    ¬Resets ⟨fun t => if t < 1725768000 then ⟨-14400, 0, 1725768000⟩ else ⟨-10800, 1725768000, 2 ^ 63 - 1⟩⟩
      { quotaResetPeriod := "daily" } now { startTime := 1725764400 } sub' :=
  not_resets_of_stuck (fun h => absurd h.1 (by decide)) (by decide) hge

/-- Where the code takes the plan's steps, the loop ends at a boundary. -/
theorem KeepsSchedule.leadsOn (hkeeps : KeepsSchedule loc plan sub)
    (hexact : ∀ base, boundaryAfter loc plan base = uncutResetTime loc plan base)
    (hfirst : schedule loc plan sub.endTime sub.base = some n) (hle : n ≤ B) (hmarker : sub.nextResetTime ≤ B)
    (hge : sub.base ≤ B) : LeadsOn loc plan sub B := by
  intro now hnow
  obtain ⟨_, hrun⟩ := hkeeps.ends now (hge.trans hnow)
  obtain ⟨b, hto, rfl⟩ := (resets_due (by omega) hfirst (hle.trans hnow)).mp hrun
  have hnext := hkeeps.next now _ (hge.trans hnow) hrun
  have hsome {b t : Int} (ht : schedule loc plan sub.endTime b = some t) :
      boundaryAfter loc plan b = some t ∧ InLife sub.endTime t := by
    rw [hexact]
    exact schedule_eq_some.mp ht
  have hb : Boundary loc plan sub.endTime sub.base b := by
    cases hto with
    | stop hwaits => exact absurd (hwaits n hfirst) (not_lt.mpr (hle.trans hnow))
    | step ht _ hto =>
      exact hto.reached (fun _ _ hb ht => .later hb (hsome ht).1 (hsome ht).2) (.first (hsome ht).1 (hsome ht).2)
  dsimp only at hnext
  cases hs : schedule loc plan sub.endTime b with
  | some t => exact ⟨t, .later hb (hsome hs).1 (hsome hs).2, .inl (hto.after t hs)⟩
  | none =>
    have hzero : calcNextResetTime loc plan sub.endTime b = 0 := by
      have := calcNextResetTime_of_none hs
      have := hb.inLife.1
      have := hto.last
      omega
    refine ⟨b, hb, .inr fun s hs => ?_⟩
    unfold calcNextResetTime at hzero
    rw [← hexact, hs] at hzero
    dsimp only at hzero
    split_ifs at hzero <;> omega

theorem followsPlan_of_keepsSchedule
    (h : (∀ base, boundaryAfter loc plan base = uncutResetTime loc plan base) ∨ Overflowing loc plan step seconds)
    (hkeeps : KeepsSchedule loc plan sub) : FollowsPlan loc plan sub := by
  cases hfirst : schedule loc plan sub.endTime sub.base with
  | none =>
    have hnone (now : Int) (t : Int) (ht : schedule loc plan sub.endTime sub.base = some t) : now < t := by
      cases hfirst.symm.trans ht
    have hmarker := hkeeps.no_marker (le_max_left _ _) (le_max_right _ _) (hnone (max sub.base sub.nextResetTime))
    have hlife {n : Int} (hn : uncutResetTime loc plan sub.base = some n) : ¬InLife sub.endTime n := by
      intro hlife
      cases hfirst.symm.trans (schedule_eq_some.mpr ⟨hn, hlife⟩)
    refine .inl ⟨hmarker, fun n => hlife, fun B hB hBlife => ?_⟩
    rcases h with hexact | hover
    · exact hlife ((hexact _).symm.trans hB) hBlife
    · have hafter := hover.advances _ _ hB
      exact hkeeps.not_due_waits hafter.le (by have := hBlife.1; omega) (hnone B) ⟨B, .first hB hBlife, hafter, le_rfl⟩
  | some n =>
    obtain ⟨hn, hnlife⟩ := schedule_eq_some.mp hfirst
    have hwaits (now : Int) (hnow : now < n) (t : Int) (ht : schedule loc plan sub.endTime sub.base = some t) :
      now < t := by
      obtain rfl := mem_unique hfirst ht
      exact hnow
    -- the reset at `n` is made at some time, so the plan has a boundary after the base
    have hreached := hkeeps.due (le_max_left sub.base (max sub.nextResetTime n))
      ((le_max_left _ _).trans (le_max_right _ _)) hfirst ((le_max_right _ _).trans (le_max_right _ _))
    obtain ⟨B, hB⟩ := hreached.exists_first
    have hlt := hB.after
    have hBpos := hB.boundary.inLife.1
    have hdueB : Due loc plan sub B := (hB.due_iff B).mpr le_rfl
    have hmarker : sub.nextResetTime ≤ B := by
      by_contra hlate
      exact hkeeps.not_due_early hlt.le (by omega) (not_le.mp hlate) hdueB
    have hle : n ≤ B := by
      by_contra hlate
      exact hkeeps.not_due_waits hlt.le hmarker (hwaits B (not_le.mp hlate)) hdueB
    have hmarked : Marked sub n B := by
      by_contra hnot
      unfold Marked at hnot
      have hbefore : sub.nextResetTime ≤ B - 1 := by omega
      have hundue : ¬Due loc plan sub (B - 1) := by
        rw [hB.due_iff]
        omega
      by_cases hlast : n ≤ B - 1
      · exact hundue (hkeeps.due (by omega) hbefore hfirst hlast)
      · have hzero := hkeeps.no_marker (by omega) hbefore (hwaits (B - 1) (not_le.mp hlast))
        omega
    refine .inr ⟨n, B, hn, hB, ?_⟩
    rcases h with hexact | hover
    · exact ⟨hkeeps.leadsOn hexact hfirst hle hmarker hlt.le, hle, hmarked, .inl (hexact _).symm⟩
    · obtain rfl : sub.base + step = n := some.inj ((hover.uncut _).symm.trans hn)
      obtain ⟨s, hs, hlife⟩ := hB.boundary.exists_first
      have hsecond := firstBoundary_of_advances hover.advances hs hlife
      obtain rfl : B = s := le_antisymm (hB.least _ hsecond.boundary hsecond.after)
        (hsecond.least _ hB.boundary hB.after)
      refine ⟨leadsOn_of_advances hover.advances hs hlife, hle, hmarked, .inr ?_⟩
      rcases lt_trichotomy step 0 with _ | rfl | _
      · obtain ⟨m, rfl⟩ : ∃ m, step = -m := ⟨-step, (neg_neg step).symm⟩
        have hdvd := dvd_of_runsDown hover (by omega) hkeeps hnlife hlt.le hmarker
        refine .inr ⟨hnlife.1, by omega, ?_⟩
        rwa [show sub.base - (sub.base + -m) = m by omega]
      · obtain ⟨_, hrun⟩ := hkeeps.ends B hlt.le
        rw [add_zero] at hfirst
        exact absurd hrun (not_resets_of_stuck (by omega) hfirst hlt.le)
      · exact .inl (by omega)

/-- Resets keep to the schedule exactly when the subscription follows its plan. -/
theorem reset_schedule_iff
    (hcustom : normalizeResetPeriod plan.quotaResetPeriod = .custom → 0 < plan.quotaResetCustomSeconds)
    (hstart : 0 < sub.startTime) : KeepsSchedule loc plan sub ↔ FollowsPlan loc plan sub := by
  have hplan := @exact_or_overflowing loc plan hcustom
  have hlast : sub.lastResetTime ≤ sub.base := by
    unfold UserSubscription.base
    split_ifs <;> omega
  exact ⟨followsPlan_of_keepsSchedule hplan, keepsSchedule_of_followsPlan hplan
    (UserSubscription.base_pos hstart) hlast⟩

/-- Where the calendar advances, a subscription that is at its first boundary follows the plan. -/
theorem followsPlan_of_advances (hloc : CalendarAdvances loc)
    (hcustom : normalizeResetPeriod plan.quotaResetPeriod = .custom → 0 < plan.quotaResetCustomSeconds)
    (hsame : uncutResetTime loc plan sub.base = boundaryAfter loc plan sub.base)
    (hB : boundaryAfter loc plan sub.base = some B)
    (hlife : InLife sub.endTime B) (hmarker : sub.nextResetTime = B ∨ sub.nextResetTime = 0) :
    FollowsPlan loc plan sub := by
  have hadvances := boundary_advances hloc hcustom
  refine .inr ⟨B, B, hsame.trans hB, firstBoundary_of_advances hadvances hB hlife, ?_, le_rfl, ?_, .inl hsame⟩
  · exact leadsOn_of_advances hadvances hB hlife
  · exact hmarker.imp_right fun h => ⟨h, rfl⟩

/-- A daily plan in UTC. -/
theorem reset_schedule_daily : KeepsSchedule (.fixed 0) { quotaResetPeriod := "daily" } { startTime := 86400 } :=
  (reset_schedule_iff (by decide) (by decide)).mpr
    (followsPlan_of_advances (B := 172800) (calendarAdvances_fixed 0) (by decide) (by decide)
      (by decide) (by decide) (.inr rfl))

/-- A custom period of `2 ^ 55` seconds is a step of zero: no reset comes to an end. -/
theorem zero_step_never_ends :
    let plan : SubscriptionPlan := { quotaResetPeriod := "custom", quotaResetCustomSeconds := 2 ^ 55 }
    let sub : UserSubscription := { startTime := 1000 }
    (∀ now, 1000 ≤ now → ∀ sub', ¬Resets (.fixed 0) plan now sub sub') ∧ ¬KeepsSchedule (.fixed 0) plan sub := by
  intro plan sub
  have hnever (now : Int) (hnow : 1000 ≤ now) (sub' : UserSubscription) : ¬Resets (.fixed 0) plan now sub sub' :=
    not_resets_of_stuck (fun h => absurd h.1 (by decide)) (by decide) hnow
  refine ⟨hnever, fun h => ?_⟩
  obtain ⟨sub', hrun⟩ := h.ends 1000 (by decide)
  exact hnever 1000 le_rfl sub' hrun

end CubeRouter.Subscription.Reset
