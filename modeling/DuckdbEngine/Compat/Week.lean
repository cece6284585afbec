/-
`week` and `yearweek` with a mode.

The mode fixes the first day of the week, which week is the first one of a year, and whether
the days before it belong to week 0 or to the last week of the year before.
`mc_calc_week` takes the mode as three flags.  It finds the first week from the weekday of
the first of January; for the days up to the end of that day's week it counts from the year
before.
-/
import DuckdbEngine.Compat.Daynr

namespace DuckdbEngine.Compat

open Calendar

/-! ### The functions -/

/-- `(uint32_t) x` -/
def toUint32 (x : ℤ) : ℕ := (x % 2 ^ 32).toNat

def mcWeekMondayFirst : ℕ := 1
def mcWeekYear : ℕ := 2
def mcWeekFirstWeekday : ℕ := 4

def mcWeekMode (mode : ℕ) : ℕ :=
  let weekFormat := mode &&& 7
  if weekFormat &&& mcWeekMondayFirst = 0 then weekFormat ^^^ mcWeekFirstWeekday else weekFormat

/-- The first of January, on this day of the week, is in a week of the year before. -/
def startsLate (firstWeekday : Bool) (weekday : ℕ) : Bool :=
  firstWeekday && weekday ≠ 0 || !firstWeekday && 4 ≤ weekday

/-- The end of `mc_calc_week`: the week and its year, counted from a year that starts on the day
`firstDaynr`. -/
def countWeeks (weekYear firstWeekday : Bool) (daynr firstDaynr : ℤ) (weekday year : ℕ) : ℕ × ℕ :=
  let days :=
    if startsLate firstWeekday weekday then toUint32 (daynr - (firstDaynr + (7 - weekday)))
    else toUint32 (daynr - (firstDaynr - weekday))
  let nextWeekday := (weekday + mcCalcDaysInYear year) % 7
  if weekYear && 52 * 7 ≤ days &&
      (!firstWeekday && nextWeekday < 4 || firstWeekday && nextWeekday = 0) then (1, year + 1)
  else (days / 7 + 1, year)

/-- `mc_calc_week` with the flags of `week_behaviour`. -/
def calcWeek (mondayFirst weekYear firstWeekday : Bool) (lYear lMonth lDay : ℕ) : ℕ × ℕ :=
  let daynr := mcCalcDaynr lYear lMonth lDay
  let firstDaynr := mcCalcDaynr lYear 1 1
  let weekday := toUint32 (mcCalcWeekday firstDaynr !mondayFirst)
  if lMonth = 1 ∧ lDay ≤ 7 - weekday then
    if !weekYear && startsLate firstWeekday weekday then (0, lYear)
    else
      let year := toUint32 (lYear - 1)
      let days := mcCalcDaysInYear year
      countWeeks true firstWeekday daynr (firstDaynr - days) ((weekday + 53 * 7 - days) % 7) year
  else countWeeks weekYear firstWeekday daynr firstDaynr weekday lYear

def mcCalcWeek (lYear lMonth lDay weekBehaviour : ℕ) : ℕ × ℕ :=
  calcWeek (weekBehaviour &&& mcWeekMondayFirst ≠ 0) (weekBehaviour &&& mcWeekYear ≠ 0)
    (weekBehaviour &&& mcWeekFirstWeekday ≠ 0) lYear lMonth lDay

/-- The date is what `Date::Convert` makes of DuckDB's date. -/
def week2argDate (d : Date) (mode : ℤ) : ℕ :=
  (mcCalcWeek d.year d.month d.day (mcWeekMode (toUint32 mode))).1

def yearweek2argDate (d : Date) (mode : ℤ) : ℕ :=
  let (week, year) := mcCalcWeek d.year d.month d.day (mcWeekMode (toUint32 mode) ||| mcWeekYear)
  toUint32 (week + year * 100)

/-! ### Modes -/

/-- What a mode means. -/
structure WeekMode where
  mondayFirst : Bool
  /-- The first week has at least four days in the year; otherwise it starts in the year. -/
  fourDays : Bool
  /-- Weeks are counted from 1 to 53, otherwise from 0 to 53. -/
  fromOne : Bool
deriving DecidableEq

/-- The modes as MariaDB defines them. -/
def weekModes : List WeekMode :=
  [⟨false, false, false⟩, ⟨true, true, false⟩, ⟨false, false, true⟩, ⟨true, true, true⟩,
    ⟨false, true, false⟩, ⟨true, false, false⟩, ⟨false, true, true⟩, ⟨true, false, true⟩]

def weekModeOf (mode : ℤ) : WeekMode := weekModes.getD (mode % 8).toNat ⟨false, false, false⟩

/-- The days of the calendar are numbered from a Saturday on. -/
def WeekMode.rule (m : WeekMode) : WeekRule where
  shift := if m.mondayFirst then 5 else 6
  slack := if m.fourDays then 3 else 0
  slack_nonneg := by split <;> decide
  slack_le := by split <;> decide

lemma toUint32_of_lt {x : ℤ} (h0 : 0 ≤ x) (h : x < 2 ^ 32) : (toUint32 x : ℤ) = x := by
  rw [toUint32, Int.emod_eq_of_lt h0 h, Int.toNat_of_nonneg h0]

/-- Only the last three bits of the mode count. -/
lemma mcWeekMode_toUint32 (mode : ℤ) :
    mcWeekMode (toUint32 mode) = mcWeekMode (mode % 8).toNat := by
  have hand (n : ℕ) : n &&& 7 = n % 8 := Nat.and_two_pow_sub_one_eq_mod n 3
  have hmod : toUint32 mode % 8 = (mode % 8).toNat % 8 := by
    rw [toUint32]
    omega
  rw [mcWeekMode, mcWeekMode, hand, hand, hmod]

/-- The flags that the mode sets. -/
lemma mcCalcWeek_mcWeekMode (mode : ℤ) (y m d : ℕ) :
    mcCalcWeek y m d (mcWeekMode (toUint32 mode)) =
      calcWeek (weekModeOf mode).mondayFirst (weekModeOf mode).fromOne (!(weekModeOf mode).fourDays)
        y m d ∧
    mcCalcWeek y m d (mcWeekMode (toUint32 mode) ||| mcWeekYear) =
      calcWeek (weekModeOf mode).mondayFirst true (!(weekModeOf mode).fourDays) y m d := by
  rw [mcWeekMode_toUint32, weekModeOf, mcCalcWeek, mcCalcWeek]
  have hlt : (mode % 8).toNat < 8 := by omega
  generalize (mode % 8).toNat = k at hlt
  interval_cases k <;> exact ⟨rfl, rfl⟩

/-! ### Counting from a year -/

/-- The day of the week, from the first day of the week on. -/
def weekdayOf (m : WeekMode) (n : ℕ) : ℤ := (n + m.rule.shift) % 7

section

variable {m : WeekMode} {y : ℕ} {weekday : ℕ} {n : ℤ}

lemma startsLate_iff (weekday : ℕ) :
    startsLate (!m.fourDays) weekday = true ↔ ¬(weekday : ℤ) ≤ m.rule.slack := by
  cases hfour : m.fourDays <;> simp [startsLate, WeekMode.rule, hfour]
  omega

lemma weekOne_eq (hweekday : (weekday : ℤ) = weekdayOf m (daysBeforeYear y)) :
    m.rule.weekOne y =
      if startsLate (!m.fourDays) weekday then (daysBeforeYear y : ℤ) + (7 - weekday)
      else (daysBeforeYear y : ℤ) - weekday := by
  have hweek := m.rule.weekOne_eq_ite y
  rw [weekdayOf] at hweekday
  simp only [← hweekday] at hweek
  rw [hweek]
  by_cases hlate : startsLate (!m.fourDays) weekday = true
  · rw [if_pos hlate, if_neg ((startsLate_iff weekday).1 hlate)]
  · rw [if_neg hlate, if_pos (not_not.1 (mt (startsLate_iff weekday).2 hlate))]

/-- The condition at the end is that the next year's first week starts by the first of January. -/
lemma starts_early_iff (weekday : ℕ) :
    (!(!m.fourDays) && weekday < 4 || (!m.fourDays) && weekday = 0) =
      !startsLate (!m.fourDays) weekday := by
  cases m.fourDays
  · simp [startsLate]
  · rw [Bool.eq_iff_iff]
    simp [startsLate]

/-- The end of the function in terms of the first week. -/
lemma countWeeks_eq (hweekday : (weekday : ℤ) = weekdayOf m (daysBeforeYear y)) (hyear : 1 ≤ y)
    (hlo : m.rule.weekOne y ≤ n) (hn : n - m.rule.weekOne y < 2 ^ 32) (weekYear : Bool) :
    countWeeks weekYear (!m.fourDays) n (daysBeforeYear y) weekday y =
      if weekYear ∧ 364 ≤ n - m.rule.weekOne y ∧
          ¬startsLate (!m.fourDays) ((weekday + daysInYear y) % 7) then (1, y + 1)
      else ((m.rule.weekOf n y).toNat, y) := by
  have hdays : (if startsLate (!m.fourDays) weekday then
        toUint32 (n - (daysBeforeYear y + (7 - weekday)))
      else toUint32 (n - (daysBeforeYear y - weekday))) = toUint32 (n - m.rule.weekOne y) := by
    rw [weekOne_eq hweekday]
    split <;> rfl
  have hcast := toUint32_of_lt (by omega) hn
  simp only [countWeeks]
  rw [hdays, mcCalcDaysInYear_eq hyear, Bool.and_assoc, starts_early_iff, WeekRule.weekOf]
  generalize toUint32 (n - m.rule.weekOne y) = days at hcast ⊢
  rw [← hcast]
  refine if_congr ?_ rfl (Prod.ext ?_ rfl)
  · have hle : 52 * 7 ≤ days ↔ (364 : ℤ) ≤ days := by omega
    simp only [Bool.and_eq_true, decide_eq_true_eq, Bool.not_eq_true', Bool.not_eq_true, hle]
  · show days / 7 + 1 = ((days : ℤ) / 7 + 1).toNat
    omega

/-- The weekday of the next first of January. -/
lemma weekday_succ (hweekday : (weekday : ℤ) = weekdayOf m (daysBeforeYear y)) :
    (((weekday + daysInYear y) % 7 : ℕ) : ℤ) = weekdayOf m (daysBeforeYear (y + 1)) := by
  rw [weekdayOf] at hweekday ⊢
  rw [daysBeforeYear]
  omega

/-- Up to the end of the week of the next first of January, the function finds the year to which
the week belongs and the week. -/
lemma countWeeks_true (hweekday : (weekday : ℤ) = weekdayOf m (daysBeforeYear y)) (hyear : 1 ≤ y)
    (hlo : m.rule.weekOne y ≤ n)
    (hhi : n < daysBeforeYear (y + 1) + 7 - weekdayOf m (daysBeforeYear (y + 1))) :
    let p := countWeeks true (!m.fourDays) n (daysBeforeYear y) weekday y
    m.rule.InYear n p.2 ∧ (p.1 : ℤ) = m.rule.weekOf n p.2 := by
  have hnext := weekOne_eq (weekday_succ hweekday)
  rw [weekday_succ hweekday] at hnext
  have hsucc := m.rule.weekOne_succ y
  have hsucc' := m.rule.weekOne_succ (y + 1)
  have hmem := m.rule.weekOne_mem y
  have hlen := daysInYear_eq y
  have hbefore : daysBeforeYear (y + 1) = daysBeforeYear y + daysInYear y := rfl
  have hday : 0 ≤ weekdayOf m (daysBeforeYear (y + 1)) := Int.emod_nonneg _ (by decide)
  have hpos : 0 ≤ m.rule.weekOf n y := by
    rw [WeekRule.weekOf]
    omega
  rw [countWeeks_eq hweekday hyear hlo (by omega)]
  by_cases hlate : startsLate (!m.fourDays) ((weekday + daysInYear y) % 7) = true
  · rw [if_pos hlate] at hnext
    rw [if_neg fun h => h.2.2 hlate]
    have hbelow : n < m.rule.weekOne (y + 1) := by omega
    exact ⟨⟨hlo, hbelow⟩, Int.toNat_of_nonneg hpos⟩
  · rw [if_neg hlate] at hnext
    by_cases hlast : 364 ≤ n - m.rule.weekOne y
    · have hfirst : m.rule.weekOne (y + 1) ≤ n ∧ n < m.rule.weekOne (y + 1) + 7 := by omega
      have hbelow : n < m.rule.weekOne (y + 1 + 1) := by omega
      rw [if_pos ⟨rfl, hlast, hlate⟩]
      refine ⟨⟨hfirst.1, hbelow⟩, ?_⟩
      show 1 = (n - m.rule.weekOne (y + 1)) / 7 + 1
      omega
    · have hbelow : n < m.rule.weekOne (y + 1) := by omega
      rw [if_neg fun h => hlast h.2.1]
      exact ⟨⟨hlo, hbelow⟩, Int.toNat_of_nonneg hpos⟩

/-- The days up to the end of the week of the first of January are counted from the year before. -/
lemma countWeeks_january (hweekday : (weekday : ℤ) = weekdayOf m (daysBeforeYear (y + 1)))
    (hyear : 1 ≤ y) (hlo : daysBeforeYear (y + 1) ≤ n)
    (hhi : n < daysBeforeYear (y + 1) + 7 - weekday) :
    let days := mcCalcDaysInYear y
    let p := countWeeks true (!m.fourDays) n (daysBeforeYear (y + 1) - days)
      ((weekday + 53 * 7 - days) % 7) y
    m.rule.InYear n p.2 ∧ (p.1 : ℤ) = m.rule.weekOf n p.2 := by
  have hlen := daysInYear_eq y
  have hmem := m.rule.weekOne_mem y
  have hbefore : (daysBeforeYear (y + 1) : ℤ) - daysInYear y = daysBeforeYear y := by
    rw [daysBeforeYear]
    omega
  have hback : (((weekday + 53 * 7 - daysInYear y) % 7 : ℕ) : ℤ) =
      weekdayOf m (daysBeforeYear y) := by
    rw [weekdayOf] at hweekday ⊢
    omega
  simp only [mcCalcDaysInYear_eq hyear, hbefore]
  exact countWeeks_true hback hyear (by omega) (by omega)

end

/-! ### The result -/

section

variable (m : WeekMode) (d : Date)

/-- The function with the day numbers of the calendar. -/
lemma calcWeek_eq (hyear : 2 ≤ d.year) (hmax : d.year < 2 ^ 32) (weekYear : Bool) :
    ∃ weekday : ℕ, (weekday : ℤ) = weekdayOf m (daysBeforeYear d.year) ∧
      calcWeek m.mondayFirst weekYear (!m.fourDays) d.year d.month d.day =
        if (d.dayNumber : ℤ) < daysBeforeYear d.year + 7 - weekday then
          if !weekYear && startsLate (!m.fourDays) weekday then (0, d.year)
          else
            let days := mcCalcDaysInYear (d.year - 1)
            countWeeks true (!m.fourDays) d.dayNumber (daysBeforeYear d.year - days)
              ((weekday + 53 * 7 - days) % 7) (d.year - 1)
        else
          countWeeks weekYear (!m.fourDays) d.dayNumber (daysBeforeYear d.year) weekday d.year := by
  have hday : mcCalcDaynr d.year d.month d.day = d.dayNumber :=
    mcCalcDaynr_eq_dayNumber (Or.inl (by omega))
  have hjan : mcCalcDaynr d.year 1 1 = daysBeforeYear d.year :=
    mcCalcDaynr_eq_dayNumber (d := .newYear d.year) (Or.inl (show 1 ≤ d.year by omega))
  have hweekday : mcCalcWeekday (daysBeforeYear d.year) (!m.mondayFirst) =
      weekdayOf m (daysBeforeYear d.year) := by
    rw [mcCalcWeekday, Int.tmod_eq_emod_of_nonneg (by split <;> omega), weekdayOf]
    cases hmonday : m.mondayFirst <;> simp [WeekMode.rule, hmonday, add_assoc]
  have hnonneg : 0 ≤ weekdayOf m (daysBeforeYear d.year) := Int.emod_nonneg _ (by decide)
  have hlt : weekdayOf m (daysBeforeYear d.year) < 7 := Int.emod_lt_of_pos _ (by decide)
  have hcast := toUint32_of_lt hnonneg (hlt.trans (by decide))
  have hyear' : toUint32 ((d.year : ℤ) - 1) = d.year - 1 := by
    have hcast := toUint32_of_lt (x := (d.year : ℤ) - 1) (by omega) (by omega)
    omega
  refine ⟨_, hcast, ?_⟩
  simp only [calcWeek, hday, hjan, hweekday, hyear']
  generalize toUint32 (weekdayOf m (daysBeforeYear d.year)) = weekday at hcast ⊢
  refine if_congr ?_ rfl rfl
  rw [d.month_eq_one_and_day_le_iff (by omega)]
  omega

/-- With the range from 1 to 53. -/
lemma calcWeek_true (hyear : 2 ≤ d.year) (hmax : d.year < 2 ^ 32) :
    let p := calcWeek m.mondayFirst true (!m.fourDays) d.year d.month d.day
    m.rule.InYear d.dayNumber p.2 ∧ (p.1 : ℤ) = m.rule.weekOf d.dayNumber p.2 := by
  obtain ⟨weekday, hweekday, heq⟩ := calcWeek_eq m d hyear hmax true
  have hmem := d.dayNumber_mem
  rw [heq]
  split
  · next hearly =>
      obtain ⟨y, hy⟩ := Nat.exists_eq_add_of_le' (le_trans one_le_two hyear)
      rw [hy] at hweekday hearly hmem ⊢
      simp only [Nat.add_sub_cancel]
      exact countWeeks_january hweekday (by omega) (by omega) hearly
  · next hlate =>
      have hone := weekOne_eq hweekday
      refine countWeeks_true hweekday (by omega) ?_ ?_
      · split at hone <;> omega
      · have hlt : weekdayOf m (daysBeforeYear (d.year + 1)) < 7 :=
          Int.emod_lt_of_pos _ (by decide)
        omega

/-- With the range from 0 to 53. -/
lemma calcWeek_false (hyear : 2 ≤ d.year) (hmax : d.year < 2 ^ 32) :
    let n : ℤ := d.dayNumber
    ((calcWeek m.mondayFirst false (!m.fourDays) d.year d.month d.day).1 : ℤ) =
      if n < m.rule.weekOne d.year then 0 else m.rule.weekOf n d.year := by
  intro n
  obtain ⟨weekday, hweekday, heq⟩ := calcWeek_eq m d hyear hmax false
  have hmem := d.dayNumber_mem
  have hone := weekOne_eq hweekday
  have hsucc := m.rule.weekOne_succ d.year
  rw [heq]
  split
  · next hearly =>
      by_cases hlate : startsLate (!m.fourDays) weekday = true
      · rw [if_pos hlate] at hone
        rw [if_pos (by simpa using hlate), if_pos (by omega)]
        rfl
      · rw [if_neg hlate] at hone
        have hin : m.rule.InYear n d.year := ⟨by omega, by omega⟩
        rw [if_neg (by simpa using hlate), if_neg (not_lt.2 hin.1)]
        obtain ⟨y, hy⟩ := Nat.exists_eq_add_of_le' (le_trans one_le_two hyear)
        rw [hy] at hweekday hearly hmem hin ⊢
        simp only [Nat.add_sub_cancel]
        obtain ⟨hyearIn, hweek⟩ := countWeeks_january hweekday (by omega) (by omega) hearly
        rw [hyearIn.unique hin] at hweek
        exact hweek
  · next hlate =>
      have hlo : m.rule.weekOne d.year ≤ n := by
        split at hone <;> omega
      have hlen := daysInYear_eq d.year
      have hbefore : daysBeforeYear (d.year + 1) = daysBeforeYear d.year + daysInYear d.year := rfl
      have hnear := m.rule.weekOne_mem d.year
      rw [countWeeks_eq hweekday (by omega) hlo (by omega), if_neg (by simp), if_neg (not_lt.2 hlo)]
      refine Int.toNat_of_nonneg ?_
      rw [WeekRule.weekOf]
      omega

end

/-- The ISO weeks start on Mondays, the first one of a year being the week of the first
Thursday. -/
lemma isLeast_thursday (y : ℕ) :
    IsLeast {t : ℤ | (t + 5) % 7 = 3 ∧ (daysBeforeYear y : ℤ) ≤ t}
      ((weekModeOf 3).rule.weekOne y + 3) := by
  obtain ⟨⟨hstart, hle⟩, hleast⟩ := (weekModeOf 3).rule.isLeast_weekOne y
  have hstart : ((weekModeOf 3).rule.weekOne y + 5) % 7 = 0 := hstart
  have hle : (daysBeforeYear y : ℤ) - 3 ≤ (weekModeOf 3).rule.weekOne y := hle
  refine ⟨⟨by omega, by omega⟩, fun t ⟨hthursday, hin⟩ => ?_⟩
  have hmonday : (weekModeOf 3).rule.weekOne y ≤ t - 3 := by
    refine hleast ⟨?_, ?_⟩
    · show (t - 3 + 5) % 7 = 0
      omega
    · show (daysBeforeYear y : ℤ) - 3 ≤ t - 3
      omega
  omega

/-- `week` and `yearweek` follow the mode: the first week of a year is the first one that the rule
allows, and the week is counted from the start of that week, in the year to which the week belongs
or, with the range from 0 to 53, in the year of the date. -/
theorem week_and_yearweek_follow_mode (d : Date) (hyear : 2 ≤ d.year) (hmax : d.year ≤ 9999)
    (mode : ℤ) :
    let n : ℤ := d.dayNumber
    let rule := (weekModeOf mode).rule
    let p := mcCalcWeek d.year d.month d.day (mcWeekMode (toUint32 mode))
    (∀ y, IsLeast (rule.starts y) (rule.weekOne y)) ∧
    week2argDate d mode = p.1 ∧
    ((weekModeOf mode).fromOne = true →
      (∀ y, rule.InYear n y ↔ y = p.2) ∧ (p.1 : ℤ) = rule.weekOf n p.2) ∧
    ((weekModeOf mode).fromOne = false →
      (p.1 : ℤ) = if n < rule.weekOne d.year then 0 else rule.weekOf n d.year) ∧
    (∃ y, (∀ z, rule.InYear n z ↔ z = y) ∧
      (yearweek2argDate d mode : ℤ) = rule.weekOf n y + y * 100) ∧
    (mode = 3 → ∀ y, IsLeast {t : ℤ | (t + 5) % 7 = 3 ∧ (daysBeforeYear y : ℤ) ≤ t}
      (rule.weekOne y + 3)) := by
  intro n rule p
  obtain ⟨hweek, hyearweek⟩ := mcCalcWeek_mcWeekMode mode d.year d.month d.day
  have htrue := calcWeek_true (weekModeOf mode) d hyear (by omega)
  have hunique {y : ℕ} (hy : rule.InYear n y) (z : ℕ) : rule.InYear n z ↔ z = y :=
    ⟨fun hz => hz.unique hy, fun hz => hz ▸ hy⟩
  refine ⟨rule.isLeast_weekOne, rfl, fun hone => ?_, fun hzero => ?_, ?_, ?_⟩
  · have hp : p = calcWeek _ true _ _ _ _ := hone ▸ hweek
    rw [← hp] at htrue
    exact ⟨hunique htrue.1, htrue.2⟩
  · have hp : p = calcWeek _ false _ _ _ _ := hzero ▸ hweek
    rw [hp]
    exact calcWeek_false (weekModeOf mode) d hyear (by omega)
  · refine ⟨_, hunique htrue.1, ?_⟩
    have hval : yearweek2argDate d mode = toUint32 (_ + _ * 100) :=
      congrArg (fun q : ℕ × ℕ => toUint32 (q.1 + q.2 * 100)) hyearweek
    have hyear' := htrue.1.year_le (z := d.year) (by exact_mod_cast d.dayNumber_mem.2)
    have hrange := htrue.1.weekOf_mem
    rw [hval, toUint32_of_lt (by omega) (by omega), htrue.2]
  · rintro rfl
    exact isLeast_thursday

def newYear2016 : Date := .newYear 2016

/-- The first of January 2016, a Friday, is in the last ISO week of 2015. -/
theorem week_newYear2016 :
    mcCalcWeek 2016 1 1 (mcWeekMode (toUint32 3)) = (53, 2015) ∧
    (weekModeOf 3).rule.InYear newYear2016.dayNumber 2015 :=
  have h := week_and_yearweek_follow_mode newYear2016 (by decide) (by decide) 3
  ⟨by decide, ((h.2.2.1 rfl).1 2015).2 (by decide)⟩

end DuckdbEngine.Compat
