import Mathlib.Algebra.Group.Int.Defs
import Mathlib.Order.Basic
import Mathlib.Tactic.Common
import Rdd2.Calendar

/-!
# The time of a fix

`days_from_civil` of `subsys/gnss_source/gnss_onboard.c`, and the time stamp
`publish_nav_pvt` makes of it. The year is a signed 64-bit number, month and day
are unsigned 32-bit ones, and each subexpression is computed in the type C
gives it: `none` stands for a signed overflow, and `-3U` is what it is.

The function counts the year from March. What it computes is the number of days
from 1970-01-01 of the calendar, for every date whose number of days fits
(`daysFromCivil_eq`).
-/

/-! ## Signed arithmetic of C

A signed result that does not fit its type is undefined, so an operation on signed
values answers `none` there: `signed w` lets the values of a type of `w` bits through.
Division and remainder are `Int.tdiv` and `Int.tmod`, which round toward zero. -/

namespace CInt

/-- A result of a signed type of `w` bits. -/
def signed (w : Nat) (x : Int) : Option Int :=
  if -2 ^ (w - 1) ≤ x ∧ x < 2 ^ (w - 1) then some x else none

theorem signed_of_range {w : Nat} {x : Int} (h : -2 ^ (w - 1) ≤ x) (h' : x < 2 ^ (w - 1)) :
    signed w x = some x := if_pos ⟨h, h'⟩

theorem signed_of_ge {w : Nat} {x : Int} (h : 2 ^ (w - 1) ≤ x) : signed w x = none :=
  if_neg fun hrange => Int.not_lt.mpr h hrange.2

/-- Division by a positive number, a negative dividend being moved down first,
rounds down. -/
theorem tdiv_floor (x : Int) {k : Int} (hk : 0 < k) :
    (if x ≥ 0 then x else x - (k - 1)).tdiv k = x / k := by
  split
  · rename_i hx
    exact Int.tdiv_eq_ediv_of_nonneg hx
  · rename_i hx
    have hneg : x - (k - 1) = -(k - 1 - x) := by omega
    rw [hneg, Int.neg_tdiv, Int.tdiv_eq_ediv_of_nonneg (by omega)]
    obtain ⟨hle, hlt⟩ := (Int.ediv_eq_iff_of_pos hk (x := k - 1 - x)).mp rfl
    refine ((Int.ediv_eq_iff_of_pos hk).mpr ?_).symm
    rw [Int.neg_mul]
    omega

end CInt

namespace Rdd2.Ubx

open Calendar CInt

/-! ## The code -/

def daysFromCivil (y : Int) (m d : UInt32) : Option Int := do
  let y ← signed 64 (y - if m ≤ 2 then 1 else 0)
  let shifted ← (if y ≥ 0 then some y else signed 64 (y - 399) : Option Int)
  let era := shifted.tdiv 400
  let eraStart ← signed 64 (era * 400)
  let yearOfEra ← signed 64 (y - eraStart)
  let yoe := UInt32.ofInt yearOfEra
  let doy := (153 * (m + if m > 2 then -3 else 9) + 2) / 5 + d - 1
  let doe := yoe * 365 + yoe / 4 - yoe / 100 + doy
  let eraDays ← signed 64 (era * 146097)
  let days ← signed 64 (eraDays + doe.toNat)
  signed 64 (days - 719468)

/-- The time of `struct ubx_nav_pvt`, as far as it is read. -/
structure NavTime where
  year : UInt16
  month : UInt8
  day : UInt8
  hour : UInt8
  minute : UInt8
  second : UInt8
  valid : UInt8
  deriving DecidableEq, Repr

/-- `time_unix_us`, where `days` is not negative. -/
def unixUs (days : Int) (t : NavTime) : UInt64 :=
  (UInt64.ofInt days * 86400 + t.hour.toUInt64 * 3600 + t.minute.toUInt64 * 60
    + t.second.toUInt64) * 1000000

/-- What `publish_nav_pvt` makes of the time: `time_unix_us`, unless the date is
before 1970. -/
def timeUnixUs (t : NavTime) : Option (Option UInt64) := do
  let days ← daysFromCivil t.year.toNat t.month.toUInt32 t.day.toUInt32
  if days ≥ 0 then some (some (unixUs days t)) else some none

/-! ## Counting from March -/

/-- The days from 1970-01-01 to the first of March of the year. -/
def marchYear (y : Int) : Int :=
  y / 400 * 146097 + (y % 400 * 365 + y % 400 / 4 - y % 400 / 100) - 719468

/-- The days from the first of March to the first of the month. -/
def marchMonth (m : Nat) : Nat := (153 * ((m + 9) % 12) + 2) / 5

theorem marchYear_eq (y : Int) :
    marchYear y = daysBeforeYear y + 59 + if Leap y then 1 else 0 := by
  by_cases hleap : Leap y
  · rw [if_pos hleap]
    unfold Leap at hleap
    unfold marchYear daysBeforeYear
    omega
  · rw [if_neg hleap]
    unfold Leap at hleap
    unfold marchYear daysBeforeYear
    omega

/-- January and February are the last months of the year before. -/
theorem marchYear_pred (y : Int) : marchYear (y - 1) + 306 = daysBeforeYear y := by
  have hyear := daysBeforeYear_succ (y - 1)
  rw [Int.sub_add_cancel] at hyear
  rw [marchYear_eq, hyear]
  split <;> omega

theorem daysBeforeMonth_march (y : Int) {m : Nat} (hm : 2 < m) (hm' : m ≤ 12) :
    (daysBeforeMonth y m : Int) = 59 + (if Leap y then 1 else 0) + marchMonth m := by
  interval_cases m <;> simp only [daysBeforeMonth, daysInMonth, marchMonth] <;> split <;> rfl

theorem daysBeforeMonth_january (y : Int) {m : Nat} (hm : 0 < m) (hm' : m ≤ 2) :
    daysBeforeMonth y m + 306 = marchMonth m := by
  interval_cases m <;> rfl

/-- The year the date is counted in: the one its March is in. -/
def yearFromMarch (d : Date) : Int := d.year - if d.month ≤ 2 then 1 else 0

theorem dayNumber_march (d : Date) :
    d.dayNumber = marchYear (yearFromMarch d) + marchMonth d.month + (d.day - 1) := by
  unfold Date.dayNumber yearFromMarch
  split
  · rename_i hmonth
    have hyear := marchYear_pred d.year
    have hbefore := daysBeforeMonth_january d.year d.month_pos hmonth
    omega
  · rename_i hmonth
    have hyear := marchYear_eq d.year
    have hbefore := daysBeforeMonth_march d.year (Nat.not_le.mp hmonth) d.month_le
    rw [Int.sub_zero]
    omega

/-! ## The computation -/

/-- Months in unsigned arithmetic, `-3U` and all. -/
theorem monthOffset_eq {m : Nat} (hm : 0 < m) (hm' : m ≤ 12) :
    (153 * (UInt32.ofNat m + if UInt32.ofNat m > 2 then -3 else 9) + 2) / 5
      = UInt32.ofNat (marchMonth m) := by
  interval_cases m <;> decide

theorem monthOffset_le (m : Nat) : marchMonth m ≤ 337 := by
  unfold marchMonth
  omega

theorem dayOfYear_toNat {m d : Nat} (hm : 0 < m) (hm' : m ≤ 12) (hd : 0 < d) (hd' : d ≤ 31) :
    ((153 * (UInt32.ofNat m + if UInt32.ofNat m > 2 then -3 else 9) + 2) / 5
      + UInt32.ofNat d - 1).toNat = marchMonth m + (d - 1) := by
  have hle := monthOffset_le m
  rw [monthOffset_eq hm hm', UInt32.toNat_sub, UInt32.toNat_add, UInt32.toNat_ofNat',
    UInt32.toNat_ofNat', UInt32.toNat_one]
  omega

def dayOfEra (yoe doy : UInt32) : UInt32 := yoe * 365 + yoe / 4 - yoe / 100 + doy

theorem dayOfEra_toNat {yoe : Int} (hyoe : 0 ≤ yoe) (hyoe' : yoe < 400) {doy : UInt32}
    (hdoy : doy.toNat < 400) :
    ((dayOfEra (UInt32.ofInt yoe) doy).toNat : Int) = yoe * 365 + yoe / 4 - yoe / 100 + doy.toNat := by
  obtain ⟨n, rfl⟩ := Int.eq_ofNat_of_zero_le hyoe
  have hofInt : (UInt32.ofInt n).toNat = n := by
    rw [UInt32.ofInt, UInt32.toNat_ofNat']
    omega
  rw [dayOfEra, UInt32.toNat_add, UInt32.toNat_sub, UInt32.toNat_add, UInt32.toNat_mul,
    UInt32.toNat_div, UInt32.toNat_div, hofInt]
  have h365 : (365 : UInt32).toNat = 365 := rfl
  have h4 : (4 : UInt32).toNat = 4 := rfl
  have h100 : (100 : UInt32).toNat = 100 := rfl
  rw [h365, h4, h100]
  omega

/-- For every year in this range no result leaves its type. -/
def YearInRange (y : Int) : Prop := -25201000000000000 ≤ y ∧ y ≤ 25201000000000000

/-- Up to its last two sums the computation stays in range. -/
theorem daysFromCivil_run {y y' : Int} {m d doy : UInt32} (hy : y' = y - if m ≤ 2 then 1 else 0)
    (hrange : YearInRange y') (hdoy : doy = (153 * (m + if m > 2 then -3 else 9) + 2) / 5 + d - 1) :
    daysFromCivil y m d =
      (signed 64 (y' / 400 * 146097 + (dayOfEra (UInt32.ofInt (y' % 400)) doy).toNat)).bind
        fun days => signed 64 (days - 719468) := by
  obtain ⟨hlow, hhigh⟩ := hrange
  have hstart : signed 64 (y - if m ≤ 2 then 1 else 0) = some y' := by
    rw [← hy]
    exact signed_of_range (by omega) (by omega)
  have hshifted : (if y' ≥ 0 then some y' else signed 64 (y' - 399))
      = some (if y' ≥ 0 then y' else y' - (400 - 1)) := by
    split
    · rfl
    · exact signed_of_range (by omega) (by omega)
  have hera := tdiv_floor y' (show (0 : Int) < 400 by decide)
  have heraStart : signed 64 (y' / 400 * 400) = some (y' / 400 * 400) :=
    signed_of_range (by omega) (by omega)
  have hyearOfEra : signed 64 (y' - y' / 400 * 400) = some (y' % 400) := by
    rw [signed_of_range (by omega) (by omega)]
    congr 1
    omega
  have heraDays : signed 64 (y' / 400 * 146097) = some (y' / 400 * 146097) :=
    signed_of_range (by omega) (by omega)
  unfold daysFromCivil dayOfEra
  simp only [hstart, hshifted, Option.bind_eq_bind, Option.bind_some, hera, heraStart, hyearOfEra,
    heraDays, ← hdoy]

/-- The days are those of the years and those of the year, from its March on. -/
theorem daysFromCivil_march {y y' : Int} {m d doy : UInt32} (hy : y' = y - if m ≤ 2 then 1 else 0)
    (hrange : YearInRange y') (hdoy : doy = (153 * (m + if m > 2 then -3 else 9) + 2) / 5 + d - 1)
    (hsmall : doy.toNat < 400) : daysFromCivil y m d = some (marchYear y' + doy.toNat) := by
  have hdoe := dayOfEra_toNat (Int.emod_nonneg y' (by decide))
    (Int.emod_lt_of_pos y' (show (0 : Int) < 400 by decide)) hsmall
  rw [daysFromCivil_run hy hrange hdoy, hdoe]
  obtain ⟨hlow, hhigh⟩ := hrange
  unfold marchYear
  rw [signed_of_range (by omega) (by omega), Option.bind_some,
    signed_of_range (by omega) (by omega)]
  congr 1
  omega

/-- No date of a 16-bit year overflows, whether it is in the calendar or not. -/
theorem daysFromCivil_total {y : Int} (hy : 0 ≤ y) (hy' : y < 2 ^ 16) (m d : UInt32) :
    ∃ days, daysFromCivil y m d = some days := by
  generalize hfrom : (y - if m ≤ 2 then 1 else 0) = y'
  have hnear : -1 ≤ y' ∧ y' < 2 ^ 16 := by
    rw [← hfrom]
    split <;> omega
  rw [daysFromCivil_run hfrom.symm ⟨by omega, by omega⟩ rfl]
  have hdoe := (dayOfEra (UInt32.ofInt (y' % 400))
    ((153 * (m + if m > 2 then -3 else 9) + 2) / 5 + d - 1)).toNat_lt
  rw [signed_of_range (by omega) (by omega), Option.bind_some,
    signed_of_range (by omega) (by omega)]
  exact ⟨_, rfl⟩

def civilDays (d : Date) : Option Int :=
  daysFromCivil d.year (UInt32.ofNat d.month) (UInt32.ofNat d.day)

theorem civilDays_eq {d : Date} (hyear : d.year.natAbs * 366 < 2 ^ 63) :
    civilDays d = some d.dayNumber := by
  have hmonth := d.month_le
  have hday := Nat.le_trans d.day_le (daysInMonth_le d.year d.month)
  have hpos := d.day_pos
  have hle := monthOffset_le d.month
  have hdoy := dayOfYear_toNat d.month_pos d.month_le d.day_pos hday
  have hcond : UInt32.ofNat d.month ≤ 2 ↔ d.month ≤ 2 := by
    rw [UInt32.le_iff_toNat_le, UInt32.toNat_ofNat']
    have htwo : (2 : UInt32).toNat = 2 := rfl
    omega
  have hfrom : yearFromMarch d = d.year - if UInt32.ofNat d.month ≤ 2 then 1 else 0 := by
    rw [yearFromMarch]
    simp only [hcond]
  have hrange : YearInRange (yearFromMarch d) := by
    unfold YearInRange yearFromMarch
    split <;> omega
  rw [civilDays, daysFromCivil_march hfrom hrange rfl (by omega), hdoy, dayNumber_march]
  congr 1
  omega

/-! ## The time stamp -/

theorem timeUnixUs_total (t : NavTime) : ∃ us, timeUnixUs t = some us := by
  have hyear := t.year.toNat_lt
  obtain ⟨days, hdays⟩ := daysFromCivil_total (y := t.year.toNat) (by omega) (by omega)
    t.month.toUInt32 t.day.toUInt32
  unfold timeUnixUs
  rw [hdays, Option.bind_eq_bind, Option.bind_some]
  split <;> exact ⟨_, rfl⟩

structure NavTime.On (t : NavTime) (d : Date) : Prop where
  year : (t.year.toNat : Int) = d.year
  month : t.month.toNat = d.month
  day : t.day.toNat = d.day

/-- The microseconds since the beginning of 1970, the date's days before. -/
def NavTime.sinceEpochUs (t : NavTime) (days : Nat) : Nat :=
  (days * 86400 + t.hour.toNat * 3600 + t.minute.toNat * 60 + t.second.toNat) * 1000000

theorem timeUnixUs_eq {t : NavTime} {d : Date} (hon : t.On d) (hepoch : 1970 ≤ d.year) :
    ∃ us, timeUnixUs t = some (some us) ∧ us.toNat = t.sinceEpochUs d.dayNumber.toNat := by
  obtain ⟨hyear, hmonth, hday⟩ := hon
  have hbound := t.year.toNat_lt
  have hyears : daysBeforeYear d.year ≤ 24000000 := by
    unfold daysBeforeYear
    omega
  have hnonneg := dayNumber_nonneg hepoch
  have hsmall : d.dayNumber < 25000000 := by
    have hle := monthOffset_le d.month
    have hday' := Nat.le_trans d.day_le (daysInMonth_le d.year d.month)
    have hmarch : marchYear (yearFromMarch d) ≤ daysBeforeYear d.year + 60 := by
      unfold yearFromMarch
      split
      · have hpred := marchYear_pred d.year
        omega
      · rw [Int.sub_zero, marchYear_eq]
        split <;> omega
    rw [dayNumber_march]
    omega
  have hdays : daysFromCivil t.year.toNat t.month.toUInt32 t.day.toUInt32 = some d.dayNumber := by
    have hcivil := civilDays_eq (d := d) (by omega)
    have hwide (b : UInt8) : UInt32.ofNat b.toNat = b.toUInt32 := UInt32.toNat_inj.mp (by simp)
    rw [civilDays, ← hyear, ← hmonth, ← hday, hwide, hwide] at hcivil
    exact hcivil
  have hofInt : (UInt64.ofInt d.dayNumber).toNat = d.dayNumber.toNat := by
    rw [UInt64.ofInt, UInt64.toNat_ofNat']
    omega
  refine ⟨unixUs d.dayNumber t, ?_, ?_⟩
  · unfold timeUnixUs
    rw [hdays]
    simp only [Option.bind_eq_bind, Option.bind_some, ge_iff_le, hnonneg, if_true]
  · have hhour := t.hour.toNat_lt
    have hminute := t.minute.toNat_lt
    have hsecond := t.second.toNat_lt
    simp only [unixUs, UInt64.toNat_mul, UInt64.toNat_add, hofInt, UInt8.toNat_toUInt64,
      UInt64.reduceToNat]
    unfold NavTime.sinceEpochUs
    omega

/-- `days_from_civil` is exact: on the dates of every year whose days can be
counted it is zero at the epoch, is the number of days from there, and goes up by
one with each day, and no signed result overflows. The time stamp of every time
on a date from 1970 on is exact, too, and does not wrap. -/
theorem calendar_exact :
    civilDays epoch = some 0 ∧
    (∀ d : Date, d.year.natAbs * 366 < 2 ^ 63 → civilDays d = some d.dayNumber ∧
      (d.next.year.natAbs * 366 < 2 ^ 63 → civilDays d.next = some (d.dayNumber + 1))) ∧
    ∀ (t : NavTime) (d : Date), t.On d → 1970 ≤ d.year →
      ∃ us, timeUnixUs t = some (some us) ∧ us.toNat = t.sinceEpochUs d.dayNumber.toNat := by
  refine ⟨?_, ?_, ?_⟩
  · rw [civilDays_eq (by decide), dayNumber_epoch]
  · intro d hyear
    refine ⟨civilDays_eq hyear, fun hnext => ?_⟩
    rw [civilDays_eq hnext, dayNumber_next]
  · intro t d hon hepoch
    exact timeUnixUs_eq hon hepoch

def leapDay : Date := ⟨2000, 2, 29, by decide, by decide, by decide, by decide⟩

theorem calendar_exact_leapDay :
    civilDays leapDay = some 11016 ∧ civilDays leapDay.next = some 11017 ∧
      ∃ us, timeUnixUs ⟨2000, 2, 29, 23, 59, 59, 3⟩ = some (some us) ∧
        us.toNat = 951868799000000 := by
  obtain ⟨-, hdays, htime⟩ := calendar_exact
  obtain ⟨hday, hnext⟩ := hdays leapDay (by decide)
  exact ⟨hday, hnext (by decide), htime ⟨2000, 2, 29, 23, 59, 59, 3⟩ leapDay ⟨rfl, rfl, rfl⟩
    (by decide)⟩

end Rdd2.Ubx
