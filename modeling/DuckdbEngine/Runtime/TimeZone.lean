/-
The time zone of a session.

DuckDB is told the time zone of a session by name.  A named zone is passed on as it is.
The offset of a fixed zone, and the offset that the system's zone has at the moment, are
looked up in a table of the zones `Etc/GMT...`, whose names count hours to the west of
Greenwich; an offset that is not in the table is replaced by `Etc/GMT` with a warning.
-/
import Mathlib.Tactic.IntervalCases
import DuckdbEngine.Compat.Daynr
import DuckdbEngine.Convertor.DmlRoundTrip
import DuckdbEngine.Lib.MachineInt

namespace DuckdbEngine.TimeZone

open Sql MachineInt

/-! ### Names of offsets -/

/-- `timezone_offset_map` after `init_timezone`. -/
def timezoneOffsetMap : List (ℤ × Text) :=
  [(50400, "Etc/GMT-14".toList),
    (46800, "Etc/GMT-13".toList),
    (43200, "Etc/GMT-12".toList),
    (39600, "Etc/GMT-11".toList),
    (36000, "Etc/GMT-10".toList),
    (32400, "Etc/GMT-9".toList),
    (28800, "Etc/GMT-8".toList),
    (25200, "Etc/GMT-7".toList),
    (21600, "Etc/GMT-6".toList),
    (18000, "Etc/GMT-5".toList),
    (14400, "Etc/GMT-4".toList),
    (10800, "Etc/GMT-3".toList),
    (7200, "Etc/GMT-2".toList),
    (3600, "Etc/GMT-1".toList),
    (0, "Etc/GMT".toList),
    (-3600, "Etc/GMT+1".toList),
    (-7200, "Etc/GMT+2".toList),
    (-10800, "Etc/GMT+3".toList),
    (-14400, "Etc/GMT+4".toList),
    (-18000, "Etc/GMT+5".toList),
    (-21600, "Etc/GMT+6".toList),
    (-25200, "Etc/GMT+7".toList),
    (-28800, "Etc/GMT+8".toList),
    (-32400, "Etc/GMT+9".toList),
    (-36000, "Etc/GMT+10".toList),
    (-39600, "Etc/GMT+11".toList),
    (-43200, "Etc/GMT+12".toList)]

def etcGmt : Text := "Etc/GMT".toList

def noTimeZone : Text := "Can't find corresponding duckdb time_zone, using Etc/GMT.".toList

/-- The name, and a warning if there is none for the offset. -/
def getNameByOffset (offset : ℤ) : Text × Option Text :=
  match timezoneOffsetMap.lookup offset with
  | some name => (name, none)
  | none => (etcGmt, some noTimeZone)

/-! ### The offset of the system's zone -/

/-- `struct tm` -/
structure Tm where
  tmYear : ℕ
  tmMon : ℕ
  tmMday : ℕ
  tmHour : ℕ
  tmMin : ℕ
  tmSec : ℕ

/-- The local time is taken for a time of Greenwich; `now` is in seconds since 1970. -/
def getSystemTimezoneOffset (now : ℤ) (lTime : Tm) : ℤ :=
  let days := Compat.mcCalcDaynr (lTime.tmYear + 1900) (lTime.tmMon + 1) lTime.tmMday - 719528
  let seconds := days * 86400 + (lTime.tmHour * 3600 + (lTime.tmMin * 60 + lTime.tmSec) : ℕ)
  seconds - now

/-! ### The zone of a session -/

/-- The conversion `%d` of `sscanf`, with the rest of the text. -/
def scanInt (s : Text) : Option (ℤ × Text) :=
  let (neg, s) := splitSign (s.dropWhile MachineInt.isSpace)
  let ds := s.takeWhile Char.isDigit
  if ds.isEmpty then none
  else
    (MachineInt.signed 32 (if neg then -decimal ds else decimal ds)).map fun n =>
      (n, s.drop ds.length)

/-- `sscanf(s, "%d:%d", &hours, &minutes) >= 1`, with the two numbers; they are 0 if they are not
read. -/
def scanHoursMinutes (s : Text) : Option (ℤ × ℤ) :=
  (scanInt s).map fun (hours, rest) =>
    if rest.head? = some ':' then (hours, ((scanInt rest.tail).map Prod.fst).getD 0)
    else (hours, 0)

/-- What is read of the server and the system. -/
structure Clock where
  now : ℤ
  lTime : Tm

def getTimezoneAccordingThd (clock : Clock) (nameStr : Text) : Text × Option Text :=
  if nameStr = "SYSTEM".toList then
    getNameByOffset (getSystemTimezoneOffset clock.now clock.lTime)
  else if 3 ≤ nameStr.length ∧ (nameStr.head? = some '+' ∨ nameStr.head? = some '-') then
    match scanHoursMinutes nameStr.tail with
    | some (hours, minutes) =>
        let offset := hours * 3600 + minutes * 60
        getNameByOffset (if nameStr.head? = some '-' then -offset else offset)
    | none => (nameStr, none)
  else (nameStr, none)

/-! ### What the names mean -/

/-- The offset of a zone `Etc/GMT...`: the sign is the one of POSIX, positive to the west. -/
def etcOffset (name : Text) : Option ℤ :=
  if name = etcGmt then some 0
  else if name.take 8 = etcGmt ++ ['-'] then some (3600 * decimal (name.drop 8))
  else if name.take 8 = etcGmt ++ ['+'] then some (-(3600 * decimal (name.drop 8)))
  else none

/-- The table has a name for a full hour between -12 and +14. -/
def Named (offset : ℤ) : Prop := offset % 3600 = 0 ∧ -43200 ≤ offset ∧ offset ≤ 50400

lemma etcOffset_of_mem : ∀ e ∈ timezoneOffsetMap, etcOffset e.2 = some e.1 := by decide

lemma named_of_mem : ∀ e ∈ timezoneOffsetMap,
    e.1 % 3600 = 0 ∧ -43200 ≤ e.1 ∧ e.1 ≤ 50400 := by decide

lemma lookup_isSome_of_named {offset : ℤ} (h : Named offset) :
    (timezoneOffsetMap.lookup offset).isSome := by
  obtain ⟨hdvd, hlow, hhigh⟩ := h
  obtain ⟨k, rfl⟩ := Int.dvd_of_emod_eq_zero hdvd
  have hk : -12 ≤ k := by omega
  have hk' : k ≤ 14 := by omega
  interval_cases k <;> rfl

/-- How an offset is reported to DuckDB: by a zone with this offset, or with a warning as
Greenwich. -/
structure Reported (offset : ℤ) (r : Text × Option Text) : Prop where
  exact_iff : r.2 = none ↔ Named offset
  denotes : r.2 = none → etcOffset r.1 = some offset
  fallback : r.2 ≠ none → r = (etcGmt, some noTimeZone)

lemma reported_getNameByOffset (offset : ℤ) : Reported offset (getNameByOffset offset) := by
  rw [getNameByOffset]
  split
  · next name hname =>
      obtain ⟨l₁, l₂, hsplit, -⟩ := List.lookup_eq_some_iff.1 hname
      have hmem : (offset, name) ∈ timezoneOffsetMap := by simp [hsplit]
      exact ⟨iff_of_true rfl (named_of_mem _ hmem), fun _ => etcOffset_of_mem _ hmem,
        fun h => absurd rfl h⟩
  · next hnone =>
      refine ⟨iff_of_false (Option.some_ne_none _) fun h => ?_,
        fun h => absurd h (Option.some_ne_none _), fun _ => rfl⟩
      have hsome := lookup_isSome_of_named h
      rw [hnone] at hsome
      cases hsome

/-! ### Offsets of sessions -/

/-- The local time is that of the given number of seconds since 1970. -/
structure Shows (l : Tm) (seconds : ℤ) (d : Calendar.Date) : Prop where
  year : d.year = l.tmYear + 1900
  month : d.month = l.tmMon + 1
  day : d.day = l.tmMday
  seconds : seconds =
    Compat.epochDays d * 86400 + 3600 * l.tmHour + 60 * l.tmMin + l.tmSec

lemma getSystemTimezoneOffset_eq {l : Tm} {now offset : ℤ} {d : Calendar.Date}
    (h : Shows l (now + offset) d) : getSystemTimezoneOffset now l = offset := by
  have hdays : Compat.mcCalcDaynr (l.tmYear + 1900) (l.tmMon + 1) l.tmMday = d.dayNumber := by
    rw [← h.year, ← h.month, ← h.day]
    exact Compat.mcCalcDaynr_eq_dayNumber (Or.inl (by have := h.year; omega))
  have hseconds := h.seconds
  rw [Compat.epochDays, Compat.dayNumber_epoch] at hseconds
  rw [getSystemTimezoneOffset, hdays]
  push_cast
  omega

/-- A number below 100 with two digits. -/
def twoDigits (n : ℕ) : Text := [digitChar (n / 10), digitChar (n % 10)]

lemma digitVal_digitChar {d : ℕ} (h : d < 10) : digitVal (digitChar d) = d := toNat_digitChar h

lemma decimal_twoDigits {n : ℕ} (h : n < 100) : decimal (twoDigits n) = n := by
  have hdigits : decimal (twoDigits n) =
      10 * digitVal (digitChar (n / 10)) + digitVal (digitChar (n % 10)) := by
    simp only [decimal, twoDigits, List.map_cons, List.map_nil, Positional.horner_cons,
      Positional.horner_nil]
    omega
  rw [hdigits, digitVal_digitChar (by omega), digitVal_digitChar (by omega)]
  omega

lemma isDigit_of_mem_twoDigits {n : ℕ} (h : n < 100) : ∀ c ∈ twoDigits n, c.isDigit = true := by
  simp only [twoDigits, List.forall_mem_cons]
  exact ⟨isDigit_digitChar (by omega), isDigit_digitChar (by omega), by simp⟩

lemma splitSign_digitChar {d : ℕ} (h : d < 10) (s : Text) :
    splitSign ((digitChar d :: s).dropWhile MachineInt.isSpace) = (false, digitChar d :: s) := by
  interval_cases d <;> rfl

/-- A number with two digits is read up to a character that is not a digit. -/
lemma scanInt_twoDigits {n : ℕ} (h : n < 100) (rest : Text)
    (hrest : ∀ c ∈ rest.head?, c.isDigit = false) :
    scanInt (twoDigits n ++ rest) = some ((n : ℤ), rest) := by
  have hsplit := splitSign_digitChar (d := n / 10) (by omega) (digitChar (n % 10) :: rest)
  have htake := Atom.takeWhile_append_of_head (isDigit_of_mem_twoDigits h) hrest
  have hfits : MachineInt.signed 32 (n : ℤ) = some (n : ℤ) := by
    rw [signed_natCast, if_pos (by omega)]
  have hdrop : (twoDigits n ++ rest).drop (twoDigits n).length = rest := List.drop_left
  change splitSign ((twoDigits n ++ rest).dropWhile _) = (false, twoDigits n ++ rest) at hsplit
  rw [scanInt, hsplit]
  dsimp only
  rw [htake, if_neg (by simp [twoDigits]), if_neg Bool.false_ne_true, decimal_twoDigits h, hfits,
    Option.map_some, hdrop]

/-- The name that the server gives to a zone with a fixed offset. -/
def offsetZoneName (offset : ℤ) : Text :=
  (if 0 ≤ offset then '+' else '-') :: twoDigits (offset.natAbs / 3600) ++
    ':' :: twoDigits (offset.natAbs % 3600 / 60)

lemma scanHoursMinutes_eq {h m : ℕ} (hh : h < 100) (hm : m < 100) :
    scanHoursMinutes (twoDigits h ++ ':' :: twoDigits m) = some ((h : ℤ), (m : ℤ)) := by
  have hhours := scanInt_twoDigits hh (':' :: twoDigits m) (by rintro _ ⟨⟩; rfl)
  have hminutes := scanInt_twoDigits hm [] (by rintro _ ⟨⟩)
  rw [List.append_nil] at hminutes
  rw [scanHoursMinutes, hhours, Option.map_some]
  simp [hminutes]

/-- The zone of a session with this name has this offset at the moment. -/
inductive HasOffset (clock : Clock) : Text → ℤ → Prop
  | system (d : Calendar.Date) (offset : ℤ) (h : Shows clock.lTime (clock.now + offset) d) :
      HasOffset clock "SYSTEM".toList offset
  | fixed (offset : ℤ) (hminutes : offset % 60 = 0) (hlt : offset.natAbs < 360000) :
      HasOffset clock (offsetZoneName offset) offset

lemma head?_offsetZoneName (offset : ℤ) :
    (offsetZoneName offset).head? = some (if 0 ≤ offset then '+' else '-') := rfl

lemma tail_offsetZoneName (offset : ℤ) : (offsetZoneName offset).tail =
    twoDigits (offset.natAbs / 3600) ++ ':' :: twoDigits (offset.natAbs % 3600 / 60) := rfl

lemma offsetZoneName_ne_system (offset : ℤ) : offsetZoneName offset ≠ "SYSTEM".toList := by
  intro h
  have hhead := congrArg List.head? h
  rw [head?_offsetZoneName] at hhead
  split at hhead
  · exact absurd hhead (by decide)
  · exact absurd hhead (by decide)

lemma getTimezoneAccordingThd_offsetZoneName (clock : Clock) {offset : ℤ}
    (hminutes : offset % 60 = 0) (hlt : offset.natAbs < 360000) :
    getTimezoneAccordingThd clock (offsetZoneName offset) = getNameByOffset offset := by
  have hscan := scanHoursMinutes_eq (h := offset.natAbs / 3600)
    (m := offset.natAbs % 3600 / 60) (by omega) (by omega)
  have hguard : 3 ≤ (offsetZoneName offset).length ∧
      ((offsetZoneName offset).head? = some '+' ∨ (offsetZoneName offset).head? = some '-') := by
    refine ⟨by simp [offsetZoneName, twoDigits], ?_⟩
    rw [head?_offsetZoneName]
    split
    · exact Or.inl rfl
    · exact Or.inr rfl
  rw [getTimezoneAccordingThd, if_neg (offsetZoneName_ne_system offset), if_pos hguard,
    tail_offsetZoneName, hscan, head?_offsetZoneName]
  dsimp only
  congr 1
  -- hours and minutes make up the absolute value, since it is a number of minutes
  by_cases hsign : 0 ≤ offset
  · rw [if_pos hsign, if_neg (by decide)]
    omega
  · rw [if_neg hsign, if_pos rfl]
    omega

/-- DuckDB is told a zone that has the offset of the session exactly if this is a full hour between
-12 and +14; otherwise it is told Greenwich, and there is a warning. -/
theorem getTimezoneAccordingThd_reported {clock : Clock} {name : Text} {offset : ℤ}
    (h : HasOffset clock name offset) : Reported offset (getTimezoneAccordingThd clock name) := by
  cases h with
  | system d _ hshows =>
      rw [getTimezoneAccordingThd, if_pos rfl, getSystemTimezoneOffset_eq hshows]
      exact reported_getNameByOffset offset
  | fixed _ hminutes hlt =>
      rw [getTimezoneAccordingThd_offsetZoneName clock hminutes hlt]
      exact reported_getNameByOffset offset

/-- A system an hour ahead of Greenwich at 02:16:40 on 1970-01-01, and a session at `+05:30`. -/
theorem getTimezoneAccordingThd_reported_example :
    Reported 3600 (getTimezoneAccordingThd ⟨4600, 70, 0, 1, 2, 16, 40⟩ "SYSTEM".toList) ∧
      Reported 19800 (getTimezoneAccordingThd ⟨4600, 70, 0, 1, 2, 16, 40⟩ "+05:30".toList) :=
  ⟨getTimezoneAccordingThd_reported (.system Compat.epoch 3600
      ⟨rfl, rfl, rfl, by rw [Compat.epochDays, Int.sub_self]; rfl⟩),
    getTimezoneAccordingThd_reported (.fixed 19800 (by decide) (by decide))⟩

end DuckdbEngine.TimeZone
