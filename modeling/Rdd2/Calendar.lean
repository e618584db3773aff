import Mathlib.Order.Basic
import Mathlib.Tactic.Common
import Mathlib.Tactic.IntervalCases

/-!
# The proleptic Gregorian calendar

Dates of any year, their successor, and their number of days from 1970-01-01.
A `Date` is valid by construction. `dayNumber` counts the days of the years,
months and days before it, and is what counting by `next` gives: it is zero at
the epoch (`dayNumber_epoch`) and goes up by one with each day (`dayNumber_next`).
-/

namespace Calendar

/-! ## Years and months -/

def Leap (y : Int) : Prop := y % 4 = 0 ∧ (y % 100 ≠ 0 ∨ y % 400 = 0)

instance (y : Int) : Decidable (Leap y) := inferInstanceAs (Decidable (_ ∧ _))

def daysInMonth (y : Int) : Nat → Nat
  | 2 => if Leap y then 29 else 28
  | 4 | 6 | 9 | 11 => 30
  | 1 | 3 | 5 | 7 | 8 | 10 | 12 => 31
  | _ => 0

/-- The days of the year before the month, the months counted from 1. -/
def daysBeforeMonth (y : Int) : Nat → Nat
  | 0 | 1 => 0
  | m + 2 => daysBeforeMonth y (m + 1) + daysInMonth y (m + 1)

theorem daysBeforeMonth_succ (y : Int) {m : Nat} (hm : 0 < m) :
    daysBeforeMonth y (m + 1) = daysBeforeMonth y m + daysInMonth y m := by
  obtain ⟨k, rfl⟩ := Nat.exists_eq_succ_of_ne_zero (Nat.ne_of_gt hm)
  rfl

theorem daysInMonth_pos (y : Int) {m : Nat} (hm : 0 < m) (hm' : m ≤ 12) : 0 < daysInMonth y m := by
  interval_cases m <;> simp only [daysInMonth, Nat.zero_lt_succ]
  split <;> decide

theorem daysInMonth_le (y : Int) (m : Nat) : daysInMonth y m ≤ 31 := by
  unfold daysInMonth
  split <;> (try split) <;> decide

theorem daysBeforeMonth_twelve (y : Int) :
    daysBeforeMonth y 12 + 31 = if Leap y then 366 else 365 := by
  simp only [daysBeforeMonth, daysInMonth]
  split <;> rfl

def daysBeforeYear (y : Int) : Int :=
  365 * (y - 1970) + ((y - 1) / 4 - (y - 1) / 100 + (y - 1) / 400) - 477

theorem daysBeforeYear_succ (y : Int) :
    daysBeforeYear (y + 1) = daysBeforeYear y + if Leap y then 366 else 365 := by
  by_cases hleap : Leap y
  · rw [if_pos hleap]
    unfold Leap at hleap
    unfold daysBeforeYear
    omega
  · rw [if_neg hleap]
    unfold Leap at hleap
    unfold daysBeforeYear
    omega

/-! ## Dates -/

@[ext] structure Date where
  year : Int
  month : Nat
  day : Nat
  month_pos : 0 < month
  month_le : month ≤ 12
  day_pos : 0 < day
  day_le : day ≤ daysInMonth year month

def Date.first (y : Int) (m : Nat) (hm : 0 < m) (hm' : m ≤ 12) : Date :=
  ⟨y, m, 1, hm, hm', Nat.one_pos, daysInMonth_pos y hm hm'⟩

def epoch : Date := Date.first 1970 1 (by decide) (by decide)

def Date.next (d : Date) : Date :=
  if h : d.day < daysInMonth d.year d.month then
    { d with day := d.day + 1, day_pos := Nat.succ_pos _, day_le := h }
  else if h : d.month < 12 then .first d.year (d.month + 1) (Nat.succ_pos _) h
  else .first (d.year + 1) 1 (by decide) (by decide)

/-- The number of days from 1970-01-01. -/
def Date.dayNumber (d : Date) : Int :=
  daysBeforeYear d.year + daysBeforeMonth d.year d.month + (d.day - 1)

theorem dayNumber_epoch : epoch.dayNumber = 0 := by decide

theorem dayNumber_next (d : Date) : d.next.dayNumber = d.dayNumber + 1 := by
  have hday := d.day_le
  unfold Date.next
  split
  · simp only [Date.dayNumber]
    omega
  · rename_i hlast
    split
    · have hmonth := daysBeforeMonth_succ d.year d.month_pos
      simp only [Date.dayNumber, Date.first, hmonth]
      omega
    · have htwelve : d.month = 12 := by
        have := d.month_le
        omega
      have hyear := daysBeforeYear_succ d.year
      have hdays := daysBeforeMonth_twelve d.year
      rw [htwelve] at hlast hday
      simp only [daysInMonth] at hlast hday
      simp only [Date.dayNumber, Date.first, htwelve, hyear, daysBeforeMonth]
      split at hdays <;> rename_i hleap <;>
        simp only [if_pos, if_neg, hleap, not_false_eq_true, daysBeforeMonth] at hdays ⊢ <;> omega

/-- From the year 1970 on. -/
theorem dayNumber_nonneg {d : Date} (h : 1970 ≤ d.year) : 0 ≤ d.dayNumber := by
  have hday := d.day_pos
  unfold Date.dayNumber daysBeforeYear
  omega

end Calendar
