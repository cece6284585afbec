/-
The Gregorian calendar from the year 0 on.

A date is a year, a month and a day of the month.  Days are numbered by adding up the lengths
of the years and of the months before them, the first day of the year 0 being day 0, so that
the next day has the next number (`dayNumber_next`).

Weeks are counted within years by a rule, which fixes the first day of the week and the first
week of a year: `weekOne r y` is the day on which that week starts.
-/
import Mathlib.Order.Bounds.Basic
import Mathlib.Order.Monotone.Basic
import Mathlib.Tactic.IntervalCases

namespace Calendar

/-! ### Years and months -/

def IsLeap (y : ℕ) : Prop := y % 4 = 0 ∧ (y % 100 ≠ 0 ∨ y % 400 = 0)

instance : DecidablePred IsLeap := fun y =>
  inferInstanceAs (Decidable (y % 4 = 0 ∧ (y % 100 ≠ 0 ∨ y % 400 = 0)))

def daysInYear (y : ℕ) : ℕ := if IsLeap y then 366 else 365

def daysInMonth (y m : ℕ) : ℕ :=
  if m = 2 then if IsLeap y then 29 else 28
  else if m = 4 ∨ m = 6 ∨ m = 9 ∨ m = 11 then 30
  else 31

/-- The days of the years before `y`. -/
def daysBeforeYear : ℕ → ℕ
  | 0 => 0
  | y + 1 => daysBeforeYear y + daysInYear y

/-- The days of the first `m` months. -/
def daysOfMonths (y : ℕ) : ℕ → ℕ
  | 0 => 0
  | m + 1 => daysOfMonths y m + daysInMonth y (m + 1)

lemma daysInYear_eq (y : ℕ) : daysInYear y = 365 ∨ daysInYear y = 366 := by
  rw [daysInYear]
  split
  · exact Or.inr rfl
  · exact Or.inl rfl

lemma daysOfMonths_of_le_one (y : ℕ) {m : ℕ} (hm : m ≤ 1) : daysOfMonths y m = 31 * m := by
  interval_cases m <;> rfl

/-- From February on the months are four days in ten months shorter than 31 days. -/
lemma daysOfMonths_eq (y : ℕ) {m : ℕ} (hm : 2 ≤ m) (hm' : m ≤ 12) :
    daysOfMonths y m + (4 * m + 27) / 10 + 365 = 31 * m + daysInYear y := by
  by_cases hleap : IsLeap y
  all_goals interval_cases m <;> simp [daysOfMonths, daysInMonth, daysInYear, hleap]

lemma daysOfMonths_twelve (y : ℕ) : daysOfMonths y 12 = daysInYear y := by
  have hmonths := daysOfMonths_eq y (m := 12) (by decide) le_rfl
  omega

lemma daysOfMonths_mono (y : ℕ) : Monotone (daysOfMonths y) :=
  monotone_nat_of_le_succ fun _ => Nat.le_add_right _ _

lemma daysInYear_add (y : ℕ) :
    daysInYear y + (if y % 100 = 0 then 1 else 0) =
      365 + (if y % 4 = 0 then 1 else 0) + if y % 400 = 0 then 1 else 0 := by
  rw [daysInYear]
  split_ifs with hleap
  all_goals
    simp only [IsLeap] at hleap
    omega

/-- One more multiple of `k` is below the next number if the number is a multiple. -/
lemma multiples_succ (y : ℕ) {j k : ℕ} (hk : j + 1 = k) :
    (y + 1 + j) / k = (y + j) / k + if y % k = 0 then 1 else 0 := by
  have hsucc : y + 1 + j = y + j + 1 := by omega
  have hadd : y + j + 1 = y + k := by omega
  have hdvd : k ∣ y + j + 1 ↔ y % k = 0 := by
    rw [hadd, Nat.dvd_add_self_right, Nat.dvd_iff_mod_eq_zero]
  rw [hsucc, Nat.succ_div]
  simp only [hdvd]

/-- The days before a year, with the leap years counted. -/
lemma daysBeforeYear_eq (y : ℕ) :
    (daysBeforeYear y : ℤ) = 365 * y + (y + 3) / 4 - (y + 99) / 100 + (y + 399) / 400 := by
  have hnat : daysBeforeYear y + (y + 99) / 100 = 365 * y + (y + 3) / 4 + (y + 399) / 400 := by
    induction y with
    | zero => rfl
    | succ y ih =>
        have hdays := daysInYear_add y
        rw [daysBeforeYear, multiples_succ y (k := 4) rfl, multiples_succ y (k := 100) rfl,
          multiples_succ y (k := 400) rfl]
        omega
  omega

/-! ### Dates -/

@[ext]
structure Date where
  year : ℕ
  month : ℕ
  day : ℕ
  month_pos : 1 ≤ month
  month_le : month ≤ 12
  day_pos : 1 ≤ day
  day_le : day ≤ daysInMonth year month

lemma daysInMonth_pos (y m : ℕ) : 1 ≤ daysInMonth y m := by
  rw [daysInMonth]
  split_ifs <;> decide

namespace Date

/-- The first of January. -/
def newYear (y : ℕ) : Date := ⟨y, 1, 1, le_rfl, by decide, le_rfl, daysInMonth_pos _ _⟩

def next (d : Date) : Date :=
  if hday : d.day < daysInMonth d.year d.month then
    { d with day := d.day + 1, day_pos := Nat.succ_pos _, day_le := hday }
  else if hmonth : d.month < 12 then
    ⟨d.year, d.month + 1, 1, Nat.succ_pos _, hmonth, le_rfl, daysInMonth_pos _ _⟩
  else newYear (d.year + 1)

/-- The number of days before the date. -/
def dayNumber (d : Date) : ℕ :=
  daysBeforeYear d.year + daysOfMonths d.year (d.month - 1) + (d.day - 1)

lemma dayNumber_newYear (y : ℕ) : (newYear y).dayNumber = daysBeforeYear y := rfl

variable (d : Date)

theorem dayNumber_next : d.next.dayNumber = d.dayNumber + 1 := by
  obtain ⟨y, m, day, hm, hm', hd, hd'⟩ := d
  obtain ⟨m, rfl⟩ := Nat.exists_eq_add_of_le' hm
  rw [next]
  split
  · simp only [dayNumber]
    omega
  · next hlast =>
      have hlast : ¬day < daysInMonth y (m + 1) := hlast
      split
      · simp only [dayNumber, Nat.add_sub_cancel, daysOfMonths]
        omega
      · next hdec =>
          have hdec : ¬m + 1 < 12 := hdec
          obtain rfl : m = 11 := by omega
          have hlast : daysInMonth y 12 ≤ day := Nat.not_lt.1 hlast
          have hlen : day ≤ daysInMonth y 12 := hd'
          have hyear : daysOfMonths y 11 + daysInMonth y 12 = daysInYear y := daysOfMonths_twelve y
          rw [dayNumber_newYear]
          show daysBeforeYear y + daysInYear y =
            daysBeforeYear y + daysOfMonths y 11 + (day - 1) + 1
          omega

/-- A date lies in its year. -/
lemma dayNumber_mem :
    daysBeforeYear d.year ≤ d.dayNumber ∧ d.dayNumber < daysBeforeYear (d.year + 1) := by
  have hle := d.month_le
  have hpos := d.month_pos
  have hday := d.day_le
  have hday' := d.day_pos
  have hmonth : daysOfMonths d.year (d.month - 1) + daysInMonth d.year d.month ≤
      daysInYear d.year := by
    rw [← daysOfMonths_twelve]
    refine le_trans (le_of_eq ?_) (daysOfMonths_mono d.year hle)
    obtain ⟨m, hm⟩ := Nat.exists_eq_add_of_le' hpos
    rw [hm]
    rfl
  rw [dayNumber, daysBeforeYear]
  omega

/-- The first days of a year, which are in January. -/
lemma month_eq_one_and_day_le_iff {k : ℕ} (hk : k ≤ 31) :
    d.month = 1 ∧ d.day ≤ k ↔ d.dayNumber < daysBeforeYear d.year + k := by
  have hpos := d.month_pos
  have hday := d.day_pos
  rw [dayNumber]
  obtain hjan | hlater : d.month = 1 ∨ 1 ≤ d.month - 1 := by omega
  · have hmonths : daysOfMonths d.year (d.month - 1) = 0 := by
      rw [hjan]
      rfl
    omega
  · have hmonths : 31 ≤ daysOfMonths d.year (d.month - 1) := daysOfMonths_mono d.year hlater
    omega

/-- A later year, or a later month of the year, is later. -/
lemma dayNumber_lt {d e : Date}
    (h : d.year < e.year ∨ d.year = e.year ∧ d.month < e.month) : d.dayNumber < e.dayNumber := by
  rcases h with hyear | ⟨hyear, hmonth⟩
  · have hmono : Monotone daysBeforeYear := monotone_nat_of_le_succ fun _ => Nat.le_add_right _ _
    exact d.dayNumber_mem.2.trans_le ((hmono hyear).trans e.dayNumber_mem.1)
  · have hday := d.day_le
    have hday' := d.day_pos
    have hpos := d.month_pos
    obtain ⟨m, hm⟩ := Nat.exists_eq_add_of_le' hpos
    have hmonths := daysOfMonths_mono d.year (show m + 1 ≤ e.month - 1 by omega)
    rw [dayNumber, dayNumber, ← hyear]
    rw [hm] at hday
    rw [hm, Nat.add_sub_cancel]
    rw [daysOfMonths] at hmonths
    omega

lemma dayNumber_injective : Function.Injective dayNumber := by
  intro d e h
  have hyear : d.year = e.year := by
    rcases Nat.lt_trichotomy d.year e.year with hlt | heq | hlt
    · exact absurd h (dayNumber_lt (Or.inl hlt)).ne
    · exact heq
    · exact absurd h (dayNumber_lt (Or.inl hlt)).ne'
  have hmonth : d.month = e.month := by
    rcases Nat.lt_trichotomy d.month e.month with hlt | heq | hlt
    · exact absurd h (dayNumber_lt (Or.inr ⟨hyear, hlt⟩)).ne
    · exact heq
    · exact absurd h (dayNumber_lt (Or.inr ⟨hyear.symm, hlt⟩)).ne'
  have hday := d.day_pos
  have hday' := e.day_pos
  rw [dayNumber, dayNumber, hyear, hmonth] at h
  exact Date.ext hyear hmonth (by omega)

/-- The date that is so many days after the first one. -/
def ofDayNumber (n : ℕ) : Date := next^[n] (newYear 0)

lemma ofDayNumber_dayNumber (d : Date) : ofDayNumber d.dayNumber = d := by
  refine dayNumber_injective ?_
  have hnumber (n : ℕ) : (ofDayNumber n).dayNumber = n := by
    induction n with
    | zero => rfl
    | succ n ih => rw [ofDayNumber, Function.iterate_succ_apply', dayNumber_next, ← ofDayNumber, ih]
  exact hnumber _

end Date

/-! ### Weeks -/

/-- A day starts a week if it is a multiple of seven after adding `shift`.  The first week of a
year starts at most `slack` days before the year. -/
structure WeekRule where
  shift : ℤ
  slack : ℤ
  slack_nonneg : 0 ≤ slack
  slack_le : slack ≤ 3

namespace WeekRule

variable (r : WeekRule) (y : ℕ)

/-- The days on which a week that may be the first one of the year starts. -/
def starts : Set ℤ := {w | (w + r.shift) % 7 = 0 ∧ (daysBeforeYear y : ℤ) - r.slack ≤ w}

/-- The day on which the first week starts. -/
def weekOne : ℤ :=
  let earliest := (daysBeforeYear y : ℤ) - r.slack
  earliest + -(earliest + r.shift) % 7

theorem isLeast_weekOne : IsLeast (r.starts y) (r.weekOne y) := by
  refine ⟨⟨?_, ?_⟩, fun w ⟨hstart, hle⟩ => ?_⟩
  all_goals
    rw [weekOne]
    omega

lemma weekOne_mem : (daysBeforeYear y : ℤ) - 3 ≤ r.weekOne y ∧
    r.weekOne y ≤ (daysBeforeYear y : ℤ) + 6 := by
  have hslack := r.slack_nonneg
  have hslack' := r.slack_le
  rw [weekOne]
  omega

/-- A year has 52 or 53 weeks. -/
lemma weekOne_succ :
    r.weekOne (y + 1) = r.weekOne y + 364 ∨ r.weekOne (y + 1) = r.weekOne y + 371 := by
  have hslack := r.slack_nonneg
  have hslack' := r.slack_le
  have hyear := daysInYear_eq y
  simp only [weekOne, daysBeforeYear]
  omega

/-- The first week starts on the last start of a week up to the first of January, if that is late
enough, and on the next one otherwise. -/
lemma weekOne_eq_ite :
    let weekday := (daysBeforeYear y + r.shift) % 7
    r.weekOne y = if weekday ≤ r.slack then (daysBeforeYear y : ℤ) - weekday
      else (daysBeforeYear y : ℤ) + (7 - weekday) := by
  have hslack := r.slack_nonneg
  have hslack' := r.slack_le
  intro weekday
  simp only [weekOne, weekday]
  split <;> omega

lemma weekOne_le {y z : ℕ} (h : y ≤ z) : r.weekOne y ≤ r.weekOne z := by
  induction z, h using Nat.le_induction with
  | base => exact Int.le_refl _
  | succ z _ ih => rcases r.weekOne_succ z with hz | hz <;> omega

/-- The years are in the order of their first weeks. -/
lemma lt_of_weekOne_lt {y z : ℕ} (h : r.weekOne y < r.weekOne z) : y < z := by
  by_contra hge
  have hle := r.weekOne_le (Nat.le_of_not_lt hge)
  omega

/-- The day is in a week of the year. -/
def InYear (n : ℤ) (y : ℕ) : Prop := r.weekOne y ≤ n ∧ n < r.weekOne (y + 1)

/-- The week of the year, from the day on which the first one starts. -/
def weekOf (n : ℤ) (y : ℕ) : ℤ := (n - r.weekOne y) / 7 + 1

/-- Every day is in the weeks of one year only. -/
lemma InYear.unique {r : WeekRule} {y z : ℕ} {n : ℤ} (hy : r.InYear n y) (hz : r.InYear n z) :
    y = z := by
  have hyz : y < z + 1 := r.lt_of_weekOne_lt (Int.lt_of_le_of_lt hy.1 hz.2)
  have hzy : z < y + 1 := r.lt_of_weekOne_lt (Int.lt_of_le_of_lt hz.1 hy.2)
  omega

lemma InYear.weekOf_mem {r : WeekRule} {y : ℕ} {n : ℤ} (h : r.InYear n y) :
    1 ≤ r.weekOf n y ∧ r.weekOf n y ≤ 53 := by
  obtain ⟨hlo, hhi⟩ := h
  have hsucc := r.weekOne_succ y
  rw [weekOf]
  omega

/-- The weeks of a year start before the end of the next year. -/
lemma InYear.year_le {r : WeekRule} {y z : ℕ} {n : ℤ} (h : r.InYear n y)
    (hn : n < daysBeforeYear (z + 1)) : y ≤ z + 1 := by
  have hsucc := r.weekOne_succ (z + 1)
  have hmem := r.weekOne_mem (z + 1)
  have hlt : r.weekOne y < r.weekOne (z + 1 + 1) := Int.lt_of_le_of_lt h.1 (by omega)
  have hyear := r.lt_of_weekOne_lt hlt
  omega

end WeekRule

end Calendar
