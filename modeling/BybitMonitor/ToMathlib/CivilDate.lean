import Mathlib.Algebra.Group.Basic
import Mathlib.Algebra.Ring.Int.Defs
import Mathlib.Order.Lattice
import Mathlib.Tactic.SplitIfs

/-!
# Civil dates of the proleptic Gregorian calendar

`CivilDate.ofDays` computes the UTC date of a day counted from 1970-01-01, as C's `gmtime` does,
and `CivilDate.toDays` counts the days back. Years are counted from 1 March, so that a leap day is
the last day of its year and each block of the calendar (400, 100, 4 years, 1 year) is cut off by
one division.

* `CivilDate.toDays_ofDays`: the date determines the day.
* `CivilDate.ofDays_injective`: distinct days have distinct dates.
* `CivilDate.year_ofDays_lt_iff`: the days before a year are those before its 1 January.
-/

/-- A date of the proleptic Gregorian calendar. -/
structure CivilDate where
  year : ℤ
  month : ℕ
  day : ℕ
  deriving DecidableEq, Repr

namespace CivilDate

/-- The day of the era of 400 years that a day lies in, counted from its 1 March. -/
def dayOfEra (days : ℤ) : ℤ := (days + 719468) % 146097

/-- The year of the era, counted from 1 March, and the day of that year, of a day of the era.
The last century of an era and the last year of a block of four are the long ones. -/
def yearOfEra (doe : ℤ) : ℤ × ℤ :=
  let century := min (doe / 36524) 3
  let dayOfCentury := doe - 36524 * century
  let block := dayOfCentury / 1461
  let dayOfBlock := dayOfCentury % 1461
  let year := min (dayOfBlock / 365) 3
  (100 * century + 4 * block + year, dayOfBlock - 365 * year)

/-- The month with index `mp`, where March has index 0. -/
def monthOfMarch (mp : ℤ) : ℕ := (if mp < 10 then mp + 3 else mp - 9).toNat

/-- The index of a month, where March has index 0. -/
def marchOfMonth (month : ℕ) : ℤ := if month ≤ 2 then (month : ℤ) + 9 else (month : ℤ) - 3

/-- January and February belong to the March-based year that began the calendar year before. -/
def yearShift (month : ℕ) : ℤ := if month ≤ 2 then 1 else 0

/-- The date with a given day of a year of an era, both counted from 1 March. -/
def ofYearDay (era year yearDay : ℤ) : CivilDate :=
  -- months from March on have lengths of the pattern 31 30 31 30 31
  let mp := (5 * yearDay + 2) / 153
  { year := year + 400 * era + yearShift (monthOfMarch mp)
    month := monthOfMarch mp
    day := (yearDay - (153 * mp + 2) / 5 + 1).toNat }

/-- The UTC date of the day `days` after 1970-01-01. -/
def ofDays (days : ℤ) : CivilDate :=
  let yearDay := yearOfEra (dayOfEra days)
  ofYearDay ((days + 719468) / 146097) yearDay.1 yearDay.2

/-- The number of days from 1970-01-01 to a date. -/
def toDays (date : CivilDate) : ℤ :=
  let year := date.year - yearShift date.month
  let yoe := year % 400
  let doy := (153 * marchOfMonth date.month + 2) / 5 + date.day - 1
  146097 * (year / 400) + (365 * yoe + yoe / 4 - yoe / 100 + doy) - 719468

theorem dayOfEra_nonneg (days : ℤ) : 0 ≤ dayOfEra days := by
  unfold dayOfEra
  omega

theorem dayOfEra_lt (days : ℤ) : dayOfEra days < 146097 := by
  unfold dayOfEra
  omega

/-- The year of an era lies in `[0, 400)` and the day of the year in `[0, 366)`. -/
theorem yearOfEra_range {doe : ℤ} (h₀ : 0 ≤ doe) (h₁ : doe < 146097) :
    0 ≤ (yearOfEra doe).1 ∧ (yearOfEra doe).1 < 400 ∧
      0 ≤ (yearOfEra doe).2 ∧ (yearOfEra doe).2 < 366 := by
  simp only [yearOfEra]
  omega

/-- The day of the era is recovered from its year and the day of that year. -/
theorem yearOfEra_inverse {doe : ℤ} (h₀ : 0 ≤ doe) (h₁ : doe < 146097) :
    365 * (yearOfEra doe).1 + (yearOfEra doe).1 / 4 - (yearOfEra doe).1 / 100 +
      (yearOfEra doe).2 = doe := by
  simp only [yearOfEra]
  have hc : 0 ≤ min (doe / 36524) 3 ∧ min (doe / 36524) 3 ≤ doe / 36524 := by omega
  have hrest : doe - 36524 * min (doe / 36524) 3 ≤ 36524 := by omega
  generalize min (doe / 36524) 3 = c at hc hrest ⊢
  have hb : 0 ≤ (doe - 36524 * c) / 1461 ∧ (doe - 36524 * c) / 1461 ≤ 24 := by omega
  have hsplit := Int.mul_ediv_add_emod (doe - 36524 * c) 1461
  generalize (doe - 36524 * c) / 1461 = b at hb hsplit ⊢
  have hlt : 0 ≤ (doe - 36524 * c) % 1461 ∧ (doe - 36524 * c) % 1461 < 1461 := by omega
  generalize (doe - 36524 * c) % 1461 = r at hsplit hlt ⊢
  have hy : 0 ≤ min (r / 365) 3 ∧ min (r / 365) 3 ≤ 3 := by omega
  generalize min (r / 365) 3 = y at hy ⊢
  have hdiv4 : (100 * c + 4 * b + y) / 4 = 25 * c + b := by omega
  have hdiv100 : (100 * c + 4 * b + y) / 100 = c := by omega
  rw [hdiv4, hdiv100]
  omega

/-- The months from March to February have the indices 0 to 11. -/
theorem marchOfMonth_monthOfMarch {mp : ℤ} (h₀ : 0 ≤ mp) (h₁ : mp ≤ 11) :
    marchOfMonth (monthOfMarch mp) = mp := by
  unfold marchOfMonth monthOfMarch
  split_ifs <;> omega

/-- Counting the days of a date given by its day of a year of an era. -/
theorem toDays_ofYearDay {era year yearDay : ℤ} (hy₀ : 0 ≤ year) (hy₁ : year < 400)
    (hd₀ : 0 ≤ yearDay) (hd₁ : yearDay < 366) :
    (ofYearDay era year yearDay).toDays =
      146097 * era + (365 * year + year / 4 - year / 100 + yearDay) - 719468 := by
  simp only [ofYearDay, toDays]
  have hmp : 0 ≤ (5 * yearDay + 2) / 153 ∧ (5 * yearDay + 2) / 153 ≤ 11 := by omega
  have hday : (153 * ((5 * yearDay + 2) / 153) + 2) / 5 ≤ yearDay := by omega
  rw [marchOfMonth_monthOfMarch hmp.1 hmp.2, add_sub_cancel_right]
  omega

/-- Counting the days of a computed date gives the day it was computed from. -/
theorem toDays_ofDays (days : ℤ) : (ofDays days).toDays = days := by
  have h₀ := dayOfEra_nonneg days
  have h₁ := dayOfEra_lt days
  obtain ⟨hy₀, hy₁, hd₀, hd₁⟩ := yearOfEra_range h₀ h₁
  have hera : 146097 * ((days + 719468) / 146097) + dayOfEra days = days + 719468 :=
    Int.mul_ediv_add_emod _ _
  rw [ofDays, toDays_ofYearDay hy₀ hy₁ hd₀ hd₁, yearOfEra_inverse h₀ h₁]
  omega

/-- Distinct days have distinct dates. -/
theorem ofDays_injective : Function.Injective ofDays :=
  Function.LeftInverse.injective toDays_ofDays

/-! ## Years -/

/-- From its day 306 on, a year that begins in March lies in the next calendar year. -/
theorem year_ofYearDay {era year yearDay : ℤ} (hd₀ : 0 ≤ yearDay) (hd₁ : yearDay < 366) :
    (ofYearDay era year yearDay).year =
      year + 400 * era + if 306 ≤ yearDay then 1 else 0 := by
  have hmp : 0 ≤ (5 * yearDay + 2) / 153 := by omega
  have hshift : yearShift (monthOfMarch ((5 * yearDay + 2) / 153)) =
      if 306 ≤ yearDay then 1 else 0 := by
    unfold yearShift monthOfMarch
    split_ifs <;> omega
  rw [← hshift]
  rfl

/-- The days before a year are those before its 1 January. -/
theorem year_ofDays_lt_iff {days bound : ℤ} :
    (ofDays days).year < bound ↔ days < toDays ⟨bound, 1, 1⟩ := by
  have h₀ := dayOfEra_nonneg days
  have h₁ := dayOfEra_lt days
  obtain ⟨hy₀, hy₁, hd₀, hd₁⟩ := yearOfEra_range h₀ h₁
  have hdays := toDays_ofDays days
  rw [ofDays, toDays_ofYearDay hy₀ hy₁ hd₀ hd₁] at hdays
  rw [ofDays, year_ofYearDay hd₀ hd₁]
  generalize (days + 719468) / 146097 = era at *
  generalize (yearOfEra (dayOfEra days)).1 = year at *
  generalize (yearOfEra (dayOfEra days)).2 = yearDay at *
  -- 1 January has index 306 in the year that began in March
  have hjanuary : toDays ⟨bound, 1, 1⟩ = 146097 * ((bound - 1) / 400) +
      (365 * ((bound - 1) % 400) + (bound - 1) % 400 / 4 - (bound - 1) % 400 / 100 + 306) -
      719468 := by
    simp [toDays, yearShift, marchOfMonth]
  rw [hjanuary]
  split_ifs <;> omega

/-- A leap day in a year divisible by 400. -/
example : ofDays 11016 = ⟨2000, 2, 29⟩ := by decide

end CivilDate
