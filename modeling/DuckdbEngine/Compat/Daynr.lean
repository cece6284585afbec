/-
Day numbers and weekdays.

`mc_calc_daynr` computes MariaDB's day number from the year, the month and the day.
`to_days`, `weekday` and `dayofweek` do not use it: they start from DuckDB's date, which is
the number of days since 1970-01-01.

The numbers of the calculation are of type `int`; they are integers here, and
`mcCalcDaynrInts` lists them.  Divisions truncate.
-/
import DuckdbEngine.Lib.Calendar

namespace DuckdbEngine.Compat

open Calendar

/-! ### The day number -/

def mcCalcDaysInYear (year : ℕ) : ℕ :=
  if year &&& 3 = 0 ∧ (year % 100 ≠ 0 ∨ year % 400 = 0 ∧ year ≠ 0) then 366 else 365

/-- The year to which January and February are counted. -/
def shiftedYear (year month : ℕ) : ℤ := if month ≤ 2 then (year : ℤ) - 1 else year

def mcCalcDaynr (year month day : ℕ) : ℤ :=
  if year = 0 ∧ month = 0 then 0
  else
    let delsum : ℤ := 365 * year + 31 * (month - 1) + day
    let delsum := if month ≤ 2 then delsum else delsum - (month * 4 + 23 : ℤ).tdiv 10
    let y := shiftedYear year month
    let temp := ((y.tdiv 100 + 1) * 3).tdiv 4
    delsum + y.tdiv 4 - temp

/-- The numbers of type `int` in the calculation. -/
def mcCalcDaynrInts (year month day : ℕ) : List ℤ :=
  let y := shiftedYear year month
  [365 * year, 31 * (month - 1), 365 * year + 31 * (month - 1),
    365 * year + 31 * (month - 1) + day, month * 4, month * 4 + 23,
    y, y.tdiv 100, y.tdiv 100 + 1, (y.tdiv 100 + 1) * 3, ((y.tdiv 100 + 1) * 3).tdiv 4, y.tdiv 4]

def mcCalcWeekday (daynr : ℤ) (sundayFirstDayOfWeek : Bool) : ℤ :=
  (daynr + 5 + if sundayFirstDayOfWeek then 1 else 0).tmod 7

/-! ### DuckDB's dates -/

def epoch : Date := .newYear 1970

/-- `Date::EpochDays` -/
def epochDays (d : Date) : ℤ := d.dayNumber - epoch.dayNumber

/-- `Date::ExtractISODayOfTheWeek`: 1 is Monday, and the day 0 is a Thursday. -/
def extractISODayOfTheWeek (days : ℤ) : ℤ := (days + 3) % 7 + 1

/-- `Timestamp::GetDate` -/
def getDate (micros : ℤ) : ℤ := micros / 86400000000

def mcToDaysEpochOffset : ℤ := 719528

def toDaysDate (days : ℤ) : ℤ := days + mcToDaysEpochOffset

def dayofweekDate (days : ℤ) : ℤ := (extractISODayOfTheWeek days).tmod 7 + 1
def dayofweekTs (micros : ℤ) : ℤ := dayofweekDate (getDate micros)

def weekdayDate (days : ℤ) : ℤ := extractISODayOfTheWeek days - 1
def weekdayTs (micros : ℤ) : ℤ := weekdayDate (getDate micros)

/-! ### The formula and the calendar -/

lemma mcCalcDaysInYear_eq {year : ℕ} (hyear : 1 ≤ year) :
    mcCalcDaysInYear year = daysInYear year := by
  have hand : year &&& 3 = year % 4 := Nat.and_two_pow_sub_one_eq_mod year 2
  have hiff : (year &&& 3 = 0 ∧ (year % 100 ≠ 0 ∨ year % 400 = 0 ∧ year ≠ 0)) ↔ IsLeap year := by
    show _ ↔ year % 4 = 0 ∧ (year % 100 ≠ 0 ∨ year % 400 = 0)
    rw [hand]
    omega
  rw [mcCalcDaysInYear, daysInYear]
  exact if_congr hiff rfl rfl

/-- The leap days up to March of the year `y`. -/
lemma daysBeforeYear_add_daysInYear (y : ℕ) :
    (daysBeforeYear y : ℤ) + daysInYear y = 365 * y + 366 + y / 4 - y / 100 + y / 400 := by
  have hnext := daysBeforeYear_eq (y + 1)
  rw [daysBeforeYear] at hnext
  push_cast at hnext
  omega

/-- Without negative numbers the divisions are those of natural numbers. -/
lemma mcCalcDaynr_eq_ediv {year month day : ℕ} (hmonth : 1 ≤ month)
    (h : 1 ≤ year ∨ 3 ≤ month) :
    let y := shiftedYear year month
    mcCalcDaynr year month day =
      365 * year + 31 * (month - 1) + day - (if month ≤ 2 then 0 else (month * 4 + 23) / 10) +
        y / 4 - (y / 100 + 1) * 3 / 4 := by
  intro y
  have hy : 0 ≤ y := by
    simp only [y, shiftedYear]
    split <;> omega
  simp only [mcCalcDaynr]
  rw [if_neg (by omega), show shiftedYear year month = y from rfl,
    Int.tdiv_eq_ediv_of_nonneg (a := y) hy, Int.tdiv_eq_ediv_of_nonneg (a := y) hy,
    Int.tdiv_eq_ediv_of_nonneg (by omega), Int.tdiv_eq_ediv_of_nonneg (by omega)]
  split <;> omega

/-- Three of four centuries end without a leap day. -/
lemma centuries (y : ℤ) : (y / 100 + 1) * 3 / 4 = y / 100 - y / 400 := by
  have hfour : y / 100 / 4 = y / 400 := Int.ediv_ediv_of_nonneg (by omega)
  rw [← hfour]
  omega

/-- The formula gives the number of the day, the first two months of the year 0 apart, which it
does not take for a leap year. -/
theorem mcCalcDaynr_eq_dayNumber {d : Date} (h : 1 ≤ d.year ∨ 3 ≤ d.month) :
    mcCalcDaynr d.year d.month d.day = d.dayNumber := by
  have hpos := d.month_pos
  have hle := d.month_le
  have hday := d.day_pos
  rw [mcCalcDaynr_eq_ediv hpos h, Date.dayNumber, shiftedYear, centuries]
  rcases Nat.lt_or_ge 2 d.month with hlate | hearly
  · have hmonths := daysOfMonths_eq d.year (m := d.month - 1) (by omega) (by omega)
    have hyear := daysBeforeYear_add_daysInYear d.year
    have hten : 4 * (d.month - 1) + 27 = d.month * 4 + 23 := by omega
    rw [hten] at hmonths
    rw [if_neg (by omega), if_neg (by omega)]
    omega
  · have hyear := daysBeforeYear_eq d.year
    have hmonths := daysOfMonths_of_le_one d.year (m := d.month - 1) (by omega)
    rw [if_pos hearly, if_pos hearly, hmonths]
    omega

lemma dayNumber_epoch : epoch.dayNumber = 719528 := by
  have hyear := daysBeforeYear_eq 1970
  rw [epoch, Date.dayNumber_newYear]
  omega

lemma toDaysDate_epochDays (d : Date) : toDaysDate (epochDays d) = d.dayNumber := by
  rw [toDaysDate, epochDays, dayNumber_epoch, mcToDaysEpochOffset]
  omega

lemma next_year_le (d : Date) : d.year ≤ d.next.year := by
  rw [Date.next]
  split_ifs
  · exact le_rfl
  · exact le_rfl
  · exact Nat.le_succ _

/-- The last year of DuckDB's dates. -/
def maxYear : ℕ := 5881580

lemma tdiv_bounds {y k b : ℤ} (hy : -1 ≤ y) (hb : y ≤ k * b) (hk : 2 ≤ k) (hb' : 0 ≤ b) :
    0 ≤ y.tdiv k ∧ y.tdiv k ≤ b := by
  rcases eq_or_lt_of_le hy with rfl | hpos
  · rw [Int.neg_tdiv, Int.tdiv_eq_zero_of_lt (by omega) (by omega)]
    omega
  · rw [Int.tdiv_eq_ediv_of_nonneg (by omega)]
    refine ⟨Int.ediv_nonneg (by omega) (by omega), Int.ediv_le_of_le_mul (by omega) ?_⟩
    rwa [mul_comm]

lemma mcCalcDaynrInts_fit {d : Date} (hyear : d.year ≤ maxYear) :
    ∀ x ∈ mcCalcDaynrInts d.year d.month d.day, -2 ^ 31 ≤ x ∧ x < 2 ^ 31 := by
  have hm := d.month_pos
  have hm' := d.month_le
  have hd : d.day ≤ 31 := d.day_le.trans (by rw [daysInMonth]; split_ifs <;> decide)
  have hy : -1 ≤ shiftedYear d.year d.month ∧ shiftedYear d.year d.month ≤ 5881580 := by
    rw [maxYear] at hyear
    rw [shiftedYear]
    split <;> omega
  rw [maxYear] at hyear
  simp only [mcCalcDaynrInts, List.forall_mem_cons, List.not_mem_nil, false_imp_iff, implies_true,
    and_true]
  generalize shiftedYear d.year d.month = y at hy
  have hcentury := tdiv_bounds hy.1 (hy.2.trans (by decide : _ ≤ (100 : ℤ) * 58816)) (by decide)
    (by decide)
  have hleap := tdiv_bounds hy.1 (hy.2.trans (by decide : _ ≤ (4 : ℤ) * 1470395)) (by decide)
    (by decide)
  rw [Int.tdiv_eq_ediv_of_nonneg (a := (y.tdiv 100 + 1) * 3) (by omega)]
  omega

lemma epochDays_eq (d : Date) : epochDays d = d.dayNumber - 719528 := by
  rw [epochDays, dayNumber_epoch]
  rfl

/-- The day 0 of the calendar is a Saturday. -/
lemma mcCalcWeekday_dayNumber (d : Date) :
    mcCalcWeekday d.dayNumber false = weekdayDate (epochDays d) := by
  rw [epochDays_eq, mcCalcWeekday, weekdayDate, extractISODayOfTheWeek,
    Int.tmod_eq_emod_of_nonneg (by simp; omega)]
  simp only [Bool.false_eq_true, if_false]
  omega

lemma mcCalcWeekday_dayNumber_sunday (d : Date) :
    mcCalcWeekday d.dayNumber true + 1 = dayofweekDate (epochDays d) := by
  rw [epochDays_eq, mcCalcWeekday, dayofweekDate, extractISODayOfTheWeek,
    Int.tmod_eq_emod_of_nonneg (by simp; omega), Int.tmod_eq_emod_of_nonneg (by omega)]
  simp only [if_true]
  omega

/-- The day number of MariaDB is the one of the calendar and of `to_days`, the next day has the next
number, and the weekdays of both agree, for dates and for time stamps. -/
theorem mcCalcDaynr_agrees (d : Date) (hyear : 1 ≤ d.year) :
    let daynr := mcCalcDaynr d.year d.month d.day
    daynr = epochDays d + 719528 ∧
    daynr = toDaysDate (epochDays d) ∧
    mcCalcDaynr d.next.year d.next.month d.next.day = daynr + 1 ∧
    mcCalcWeekday daynr false = weekdayDate (epochDays d) ∧
    mcCalcWeekday daynr true + 1 = dayofweekDate (epochDays d) ∧
    (∀ micros, getDate micros = epochDays d →
      mcCalcWeekday daynr false = weekdayTs micros ∧
      mcCalcWeekday daynr true + 1 = dayofweekTs micros) ∧
    (d.year ≤ maxYear →
      ∀ x ∈ mcCalcDaynrInts d.year d.month d.day, -2 ^ 31 ≤ x ∧ x < 2 ^ 31) := by
  intro daynr
  have hday : daynr = d.dayNumber := mcCalcDaynr_eq_dayNumber (Or.inl hyear)
  have hnext : mcCalcDaynr d.next.year d.next.month d.next.day = d.next.dayNumber :=
    mcCalcDaynr_eq_dayNumber (Or.inl (hyear.trans (next_year_le d)))
  have hweekday := mcCalcWeekday_dayNumber d
  have hsunday := mcCalcWeekday_dayNumber_sunday d
  rw [hday, hnext, d.dayNumber_next]
  refine ⟨?_, (toDaysDate_epochDays d).symm, Nat.cast_succ _, hweekday, hsunday, ?_,
    mcCalcDaynrInts_fit⟩
  · rw [epochDays_eq]
    omega
  · intro micros hdate
    rw [weekdayTs, dayofweekTs, hdate]
    exact ⟨hweekday, hsunday⟩

def leapDay : Date := ⟨2024, 2, 29, by decide, by decide, by decide, by decide⟩

theorem mcCalcDaynr_leapDay :
    mcCalcDaynr 2024 2 29 = toDaysDate (epochDays leapDay) ∧
    mcCalcDaynr 2024 3 1 = mcCalcDaynr 2024 2 29 + 1 ∧
    mcCalcWeekday (mcCalcDaynr 2024 2 29) false = weekdayDate (epochDays leapDay) :=
  have h := mcCalcDaynr_agrees leapDay (by decide)
  ⟨h.2.1, h.2.2.1, h.2.2.2.1⟩

end DuckdbEngine.Compat
