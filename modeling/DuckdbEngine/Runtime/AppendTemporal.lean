/-
Dates and time stamps of the appender.

A DATE is appended as the number of days since 1970-01-01 and a DATETIME or TIMESTAMP as the
number of microseconds, both computed from MariaDB's day number.  That number is computed
for whatever the fields of the value say, also for zero dates such as 2024-01-00 and for days
that the month does not have, which MariaDB can store.
-/
import DuckdbEngine.Compat.Daynr

namespace DuckdbEngine

open Calendar Compat

/-! ### Values -/

/-- `MYSQL_TIME` of a DATE, DATETIME or TIMESTAMP value, with what MariaDB can store. -/
structure DateTimeValue where
  year : ℕ
  month : ℕ
  day : ℕ
  hour : ℕ
  minute : ℕ
  second : ℕ
  secondPart : ℕ
  year_le : year ≤ 9999
  month_le : month ≤ 12
  day_le : day ≤ 31
  hour_lt : hour < 24
  minute_lt : minute < 60
  second_lt : second < 60
  secondPart_lt : secondPart < 1000000

/-- MariaDB's function, of which `mc_calc_daynr` is a copy. -/
def calcDaynr (year month day : ℕ) : ℤ := mcCalcDaynr year month day

def daysAtTimestart : ℤ := 719528

namespace DateTimeValue

variable (tm : DateTimeValue)

/-- The cases DATE and NEWDATE of `append_mysql_field`. -/
def appendDate : ℤ := calcDaynr tm.year tm.month tm.day - daysAtTimestart

/-- The cases DATETIME, DATETIME2, TIMESTAMP and TIMESTAMP2, which are the same. -/
def appendDatetime : ℤ :=
  let days := calcDaynr tm.year tm.month tm.day - calcDaynr 1970 1 1
  let secs := days * 86400 + tm.hour * 3600 + tm.minute * 60 + tm.second
  secs * 1000000 + tm.secondPart

/-! ### What the numbers denote -/

/-- DuckDB's date has the year, the month and the day of the value. -/
def DateIs (days : ℤ) : Prop :=
  ∃ d : Date, d.year = tm.year ∧ d.month = tm.month ∧ d.day = tm.day ∧ epochDays d = days

/-- The microseconds since midnight. -/
def timeOfDay : ℤ :=
  (tm.hour * 3600 + tm.minute * 60 + tm.second) * 1000000 + tm.secondPart

/-- DuckDB's time stamp has the date and the time of the value. -/
def TimestampIs (micros : ℤ) : Prop :=
  tm.DateIs (getDate micros) ∧ micros % 86400000000 = tm.timeOfDay

/-- The year, the month and the day are a date of the calendar. -/
def IsDate : Prop := 1 ≤ tm.month ∧ 1 ≤ tm.day ∧ tm.day ≤ daysInMonth tm.year tm.month

instance : Decidable tm.IsDate := inferInstanceAs (Decidable (_ ∧ _))

def toDate (h : tm.IsDate) : Date := ⟨tm.year, tm.month, tm.day, h.1, tm.month_le, h.2.1, h.2.2⟩

/-! ### When they are right -/

/-- In the first two months of the year 0, which is not a leap year for the formula, it is one day
ahead. -/
lemma mcCalcDaynr_year_zero {d : Date} (hyear : d.year = 0) (hmonth : d.month ≤ 2) :
    mcCalcDaynr d.year d.month d.day = d.dayNumber + 1 := by
  have hpos := d.month_pos
  have hday := d.day_pos
  have hmonths := daysOfMonths_of_le_one d.year (m := d.month - 1) (by omega)
  have hbefore : daysBeforeYear 0 = 0 := rfl
  have hfour : (((0 : ℕ) : ℤ) - 1).tdiv 4 = 0 := rfl
  have htemp : (((((0 : ℕ) : ℤ) - 1).tdiv 100 + 1) * 3).tdiv 4 = 0 := rfl
  simp only [mcCalcDaynr, Date.dayNumber, shiftedYear, hyear, hmonth, if_true]
  rw [if_neg (by omega), hfour, htemp, ← hyear, hmonths, hyear, hbefore]
  omega

lemma dateIs_appendDate_iff :
    tm.DateIs tm.appendDate ↔ tm.IsDate ∧ ¬(tm.year = 0 ∧ tm.month ≤ 2) := by
  constructor
  · rintro ⟨d, hyear, hmonth, hday, hdays⟩
    rw [appendDate, calcDaynr, ← hyear, ← hmonth, ← hday, epochDays, dayNumber_epoch,
      daysAtTimestart] at hdays
    refine ⟨⟨hmonth ▸ d.month_pos, hday ▸ d.day_pos, ?_⟩, ?_⟩
    · rw [← hyear, ← hmonth, ← hday]
      exact d.day_le
    · rintro ⟨hzero, hearly⟩
      rw [mcCalcDaynr_year_zero (hyear.trans hzero) (by omega)] at hdays
      omega
  · rintro ⟨hdate, hyear⟩
    have hday := mcCalcDaynr_eq_dayNumber (d := tm.toDate hdate) (by
      show 1 ≤ tm.year ∨ 3 ≤ tm.month
      omega)
    refine ⟨tm.toDate hdate, rfl, rfl, rfl, ?_⟩
    rw [epochDays, dayNumber_epoch, ← hday]
    rfl

/-- The time stamp is that of the date that is appended for a DATE, with the time of the value. -/
lemma appendDatetime_eq :
    getDate tm.appendDatetime = tm.appendDate ∧ tm.appendDatetime % 86400000000 = tm.timeOfDay := by
  have hhour := tm.hour_lt
  have hminute := tm.minute_lt
  have hsecond := tm.second_lt
  have hpart := tm.secondPart_lt
  have hepoch : calcDaynr 1970 1 1 = 719528 := by decide
  rw [getDate, appendDatetime, appendDate, timeOfDay, hepoch, daysAtTimestart]
  omega

/-- The appended number denotes the date of the value exactly if that is a date of the calendar, the
first two months of the year 0 apart; for a time stamp the time is right in any case. -/
theorem appended_date_iff :
    (tm.DateIs tm.appendDate ↔ tm.IsDate ∧ ¬(tm.year = 0 ∧ tm.month ≤ 2)) ∧
    (tm.TimestampIs tm.appendDatetime ↔ tm.IsDate ∧ ¬(tm.year = 0 ∧ tm.month ≤ 2)) := by
  refine ⟨tm.dateIs_appendDate_iff, ?_⟩
  rw [TimestampIs, tm.appendDatetime_eq.1, tm.dateIs_appendDate_iff]
  exact and_iff_left tm.appendDatetime_eq.2

end DateTimeValue

/-- A value at midnight. -/
def midnight (year month day : ℕ) (h : year ≤ 9999 ∧ month ≤ 12 ∧ day ≤ 31) : DateTimeValue where
  year := year
  month := month
  day := day
  hour := 0
  minute := 0
  second := 0
  secondPart := 0
  year_le := h.1
  month_le := h.2.1
  day_le := h.2.2
  hour_lt := by decide
  minute_lt := by decide
  second_lt := by decide
  secondPart_lt := by decide

def zeroDate : DateTimeValue := midnight 0 0 0 (by decide)

def zeroDay : DateTimeValue := midnight 2024 1 0 (by decide)

def firstDay : DateTimeValue := midnight 0 1 1 (by decide)

/-- The zero date is stored as 0000-01-01, 2024-01-00 as the last day of 2023, and 0000-01-01 as the
day after it. -/
theorem appended_date_is_another :
    (¬zeroDate.DateIs zeroDate.appendDate ∧ zeroDate.appendDate =
      epochDays ⟨0, 1, 1, by decide, by decide, by decide, by decide⟩) ∧
    (¬zeroDay.DateIs zeroDay.appendDate ∧ ¬zeroDay.TimestampIs zeroDay.appendDatetime ∧
      zeroDay.appendDate = epochDays ⟨2023, 12, 31, by decide, by decide, by decide, by decide⟩) ∧
    (¬firstDay.DateIs firstDay.appendDate ∧ firstDay.appendDate =
      epochDays ⟨0, 1, 2, by decide, by decide, by decide, by decide⟩) := by
  have hzeroDay : ¬zeroDay.DateIs zeroDay.appendDate := by
    rw [DateTimeValue.dateIs_appendDate_iff]
    decide
  refine ⟨⟨?_, ?_⟩, ⟨hzeroDay, ?_, ?_⟩, ?_, ?_⟩
  · rw [DateTimeValue.dateIs_appendDate_iff]
    decide
  · rw [epochDays, dayNumber_epoch]
    decide
  · rintro ⟨hdate, -⟩
    rw [zeroDay.appendDatetime_eq.1] at hdate
    exact hzeroDay hdate
  · rw [epochDays, dayNumber_epoch, ← mcCalcDaynr_eq_dayNumber (Or.inl (by decide))]
    decide
  · rw [DateTimeValue.dateIs_appendDate_iff]
    decide
  · rw [epochDays, dayNumber_epoch]
    decide

end DuckdbEngine
