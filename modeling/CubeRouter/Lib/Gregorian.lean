import Mathlib.Algebra.Ring.Int.Defs
import Mathlib.Data.Int.Order.Basic
import Mathlib.Order.Monotone.Basic
import Mathlib.Tactic.SplitIfs

/-!
# Dates and locations

Days are counted from 1970-01-01, months from March of the year 0, so that the leap day is the last of its year. A
location says for each second which offset holds there, and since and until when; a date with a clock time is turned
into seconds by the offset found near it, which at a transition can be the wrong one.
-/

namespace Gregorian

/-! ## Years and months -/

def yearStart (y : Int) : Int := 365 * y + y / 4 - y / 100 + y / 400 - 719468

def monthStart (k : Int) : Int := yearStart (k / 12) + (153 * (k % 12) + 2) / 5

/-- The year that begins in March and holds the day; the mean length of a year is at most one year off. -/
def yearIndex (d : Int) : Int :=
  let y := 400 * (d + 719468) / 146097
  if d < yearStart y then y - 1 else if yearStart (y + 1) ≤ d then y + 1 else y

def monthIndex (d : Int) : Int :=
  let y := yearIndex d
  12 * y + (5 * (d - yearStart y) + 2) / 153

theorem yearStart_bounds (y : Int) :
    146097 * y - 800 < 400 * (yearStart y + 719468) ∧ 400 * (yearStart y + 719468) < 146097 * y + 400 := by
  unfold yearStart
  omega

theorem yearStart_succ (y : Int) : yearStart y + 365 ≤ yearStart (y + 1) ∧ yearStart (y + 1) ≤ yearStart y + 366 := by
  unfold yearStart
  omega

theorem yearIndex_spec (d : Int) : yearStart (yearIndex d) ≤ d ∧ d < yearStart (yearIndex d + 1) := by
  unfold yearIndex
  dsimp only
  generalize hy : 400 * (d + 719468) / 146097 = y
  have hbefore := yearStart_bounds (y - 1)
  have hafter := yearStart_bounds (y + 1 + 1)
  split_ifs with hlow hhigh
  · rw [Int.sub_add_cancel]
    omega
  · omega
  · omega

theorem monthStart_lt_succ (k : Int) : monthStart k < monthStart (k + 1) := by
  unfold monthStart
  by_cases hlast : k % 12 = 11
  · rw [show (k + 1) / 12 = k / 12 + 1 by omega]
    have := (yearStart_succ (k / 12)).1
    omega
  · rw [show (k + 1) / 12 = k / 12 by omega]
    omega

theorem monthIndex_spec (d : Int) : monthStart (monthIndex d) ≤ d ∧ d < monthStart (monthIndex d + 1) := by
  obtain ⟨hlow, hhigh⟩ := yearIndex_spec d
  have hlength := (yearStart_succ (yearIndex d)).2
  unfold monthIndex
  dsimp only
  generalize yearIndex d = y at hlow hhigh hlength ⊢
  unfold monthStart
  generalize hm : (5 * (d - yearStart y) + 2) / 153 = m
  rw [show (12 * y + m) / 12 = y by omega, show (12 * y + m) % 12 = m by omega]
  refine ⟨by omega, ?_⟩
  by_cases hlast : m = 11
  · rw [show (12 * y + m + 1) / 12 = y + 1 by omega]
    omega
  · rw [show (12 * y + m + 1) / 12 = y by omega, show (12 * y + m + 1) % 12 = m + 1 by omega]
    omega

theorem monthStart_lt_iff {j k : Int} : monthStart j < monthStart k ↔ j < k :=
  (strictMono_int_of_lt_succ monthStart_lt_succ).lt_iff_lt

theorem monthIndex_eq {d k : Int} (hlow : monthStart k ≤ d) (hhigh : d < monthStart (k + 1)) : monthIndex d = k := by
  obtain ⟨hlow', hhigh'⟩ := monthIndex_spec d
  have hle := monthStart_lt_iff.mp (lt_of_le_of_lt hlow' hhigh)
  have hge := monthStart_lt_iff.mp (lt_of_le_of_lt hlow hhigh')
  omega

/-! ## Dates -/

structure Date where
  year : Int
  month : Int
  day : Int

def Date.ofDays (d : Int) : Date :=
  let k := monthIndex d
  ⟨(k + 2) / 12, (k + 2) % 12 + 1, d - monthStart k + 1⟩

/-- Months and days beyond their range are carried over. -/
def Date.days (date : Date) : Int := monthStart (12 * date.year + date.month - 3) + (date.day - 1)

theorem Date.month_ofDays (d : Int) : 12 * (Date.ofDays d).year + (Date.ofDays d).month - 3 = monthIndex d := by
  unfold Date.ofDays
  dsimp only
  omega

theorem Date.days_ofDays (d : Int) : (Date.ofDays d).days = d := by
  unfold Date.days
  rw [Date.month_ofDays]
  unfold Date.ofDays
  dsimp only
  omega

/-- Monday is `1`, Sunday `0`. -/
def weekday (d : Int) : Int := (d + 4) % 7

/-! ## Locations -/

/-- An offset to UTC, and the seconds from which and before which it holds. -/
structure Zone where
  offset : Int
  since : Int
  until_ : Int

structure Location where
  lookup : Int → Zone

namespace Location

variable (loc : Location)

def day (t : Int) : Int := (t + (loc.lookup t).offset) / 86400

def clock (t : Int) : Int := (t + (loc.lookup t).offset) % 86400

/-- The offset is looked up as if the local time were UTC, and once more when it does not hold there. -/
def ofLocal (days clock : Int) : Int :=
  let unix := 86400 * days + clock
  let zone := loc.lookup unix
  if zone.offset ≠ 0 then
    let utc := unix - zone.offset
    if utc < zone.since ∨ zone.until_ ≤ utc then unix - (loc.lookup utc).offset else utc
  else unix

def addDate (t years months days : Int) : Int :=
  let date := Date.ofDays (loc.day t)
  loc.ofLocal (Date.days ⟨date.year + years, date.month + months, date.day + days⟩) (loc.clock t)

def fixed (offset : Int) : Location := ⟨fun _ => ⟨offset, -2 ^ 63, 2 ^ 63 - 1⟩⟩

variable (offset : Int)

theorem ofLocal_fixed (days clock : Int) : (fixed offset).ofLocal days clock = 86400 * days + clock - offset := by
  unfold ofLocal fixed
  dsimp only
  split_ifs <;> omega

theorem day_ofLocal_fixed {clock : Int} (days : Int) (h : 0 ≤ clock) (h' : clock < 86400) :
    (fixed offset).day ((fixed offset).ofLocal days clock) = days := by
  rw [ofLocal_fixed]
  unfold day fixed
  dsimp only
  omega

theorem clock_ofLocal_fixed {clock : Int} (days : Int) (h : 0 ≤ clock) (h' : clock < 86400) :
    (fixed offset).clock ((fixed offset).ofLocal days clock) = clock := by
  rw [ofLocal_fixed]
  unfold Location.clock fixed
  dsimp only
  omega

theorem lt_ofLocal_fixed (t : Int) {days : Int} (h : (fixed offset).day t < days) :
    t < (fixed offset).ofLocal days 0 := by
  rw [ofLocal_fixed]
  unfold day fixed at h
  dsimp only at h
  omega

end Location

end Gregorian
