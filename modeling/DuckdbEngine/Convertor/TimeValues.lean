/-
TIME values between MariaDB and DuckDB.

A TIME value of MariaDB has a sign and up to 838 hours; DuckDB keeps it as a signed number of
microseconds.  The appender, the generated SQL and the direct scan of an external table each
compute that number, and `store_duckdb_time_in_mysql_format` turns it into a TIME value
again, with the numbers beyond the limits of MariaDB replaced by the limits.

A negation whose result does not fit 64 bits gives no result (`none`).
-/
import DuckdbEngine.Convertor.DmlRoundTrip
import DuckdbEngine.CrossEngine.Values

namespace DuckdbEngine

open Sql CrossEngine

/-! ### Encoding -/

/-- The cases TIME and TIME2 of `append_mysql_field`. -/
def appendTime (tm : TimeValue) : ℤ :=
  let micros : ℤ := (tm.hour * 3600 + tm.minute * 60 + tm.second) * 1000000 + tm.secondPart
  if tm.neg then -micros else micros

/-- The cases TIME and TIME2 of `append_field_value_to_sql`. -/
def sqlTimeValue (tm : TimeValue) : SqlValue :=
  let micros : ℤ := (tm.hour * 3600 + tm.minute * 60 + tm.second) * 1000000 + tm.secondPart
  .time (if tm.neg then -micros else micros)

/-- `mariadb_time_from_micros_func`, which takes a BIGINT -/
def mariadbTimeFromMicros (micros : ℤ) : Option ℤ :=
  if IntType.bigint.InRange micros then some micros else none

/-- The name of the function, as a word that is not quoted is read. -/
def mariadbTimeWord : Text := "MARIADB_TIME".toList

/-- The call of `mariadb_time` with a number. -/
def evalTimeLiteral : List Token → Option ℤ
  | [.word f, .symbol l, .number n, .symbol r] =>
      if f = mariadbTimeWord ∧ l = ['('] ∧ r = [')'] then mariadbTimeFromMicros n else none
  | [.word f, .symbol l, .symbol s, .number n, .symbol r] =>
      if f = mariadbTimeWord ∧ l = ['('] ∧ s = ['-'] ∧ r = [')'] then mariadbTimeFromMicros (-n)
      else none
  | _ => none

/-! ### Decoding -/

def timeMaxHour : ℕ := 838
def timeMaxValueSeconds : ℤ := 838 * 3600 + 59 * 60 + 59
def timeMaxSecondPart : ℤ := 999999
def maxMicros : ℤ := timeMaxValueSeconds * 1000000 + timeMaxSecondPart

/-- A value for a TIME field: a TIME, a TIME_NS, or a value of another type with its text. -/
inductive DuckdbTime where
  | time (micros : ℤ)
  | timeNs (nanos : ℤ)
  | other (text : Text)

/-- `calc_time_from_sec`, which keeps the sign -/
def calcTimeFromSec (neg : Bool) (seconds microseconds : ℕ) : TimeValue where
  neg := neg
  hour := seconds / 3600
  minute := seconds % 3600 / 60
  second := seconds % 3600 % 60
  secondPart := microseconds

/-- The number without its sign; the smallest number becomes the largest one. -/
def absMicros (micros : ℤ) : Option ℤ :=
  if micros < 0 then
    if micros = -2 ^ 63 then some (2 ^ 63 - 1)
    else if IntType.bigint.InRange (-micros) then some (-micros) else none
  else some micros

/-- The branch for TIME and TIME_NS. -/
def timeOfMicros (micros : ℤ) : Option TimeValue := do
  let abs ← absMicros micros
  let abs := if abs > maxMicros then maxMicros else abs
  return calcTimeFromSec (micros < 0) (abs.tdiv 1000000).toNat (abs.tmod 1000000).toNat

/-- `store_duckdb_time_in_mysql_format`, up to the storing into the field; `strToDDhhmmssff` reads
other values. -/
def storeDuckdbTimeInMysqlFormat (strToDDhhmmssff : Text → TimeValue) :
    DuckdbTime → Option TimeValue
  | .time micros => timeOfMicros micros
  | .timeNs nanos => timeOfMicros (nanos.tdiv 1000)
  | .other text => some (strToDDhhmmssff text)

/-! ### TIME values -/

/-- The TIME values of MariaDB. -/
structure IsTime (tm : TimeValue) : Prop where
  hour_le : tm.hour ≤ timeMaxHour
  minute_lt : tm.minute < 60
  second_lt : tm.second < 60
  secondPart_lt : tm.secondPart < 1000000
  neg_ne : tm.neg = true → tm.micros ≠ 0

/-- The microseconds without the sign. -/
def absTime (tm : TimeValue) : ℕ :=
  (tm.hour * 3600 + tm.minute * 60 + tm.second) * 1000000 + tm.secondPart

lemma micros_eq (tm : TimeValue) :
    tm.micros = if tm.neg then -(absTime tm : ℤ) else absTime tm := by
  rw [TimeValue.micros, absTime]
  push_cast
  rfl

lemma absTime_le {tm : TimeValue} (h : IsTime tm) : (absTime tm : ℤ) ≤ maxMicros := by
  obtain ⟨hhour, hminute, hsecond, hpart, -⟩ := h
  rw [timeMaxHour] at hhour
  rw [absTime, maxMicros, timeMaxValueSeconds, timeMaxSecondPart]
  omega

lemma calcTimeFromSec_absTime {tm : TimeValue} (h : IsTime tm) :
    calcTimeFromSec tm.neg (absTime tm / 1000000) (absTime tm % 1000000) = tm := by
  obtain ⟨neg, hour, minute, second, part⟩ := tm
  obtain ⟨-, hminute, hsecond, hpart, -⟩ := h
  simp only [absTime, calcTimeFromSec, TimeValue.mk.injEq, true_and] at hminute hsecond hpart ⊢
  omega

lemma absMicros_eq {micros : ℤ} (h : IntType.bigint.InRange micros) :
    ∃ abs, absMicros micros = some abs ∧ 0 ≤ abs ∧ min abs maxMicros = min |micros| maxMicros := by
  obtain ⟨hlo, hhi⟩ : -2 ^ 63 ≤ micros ∧ micros < 2 ^ 64 - 2 ^ 63 := h
  rw [absMicros, maxMicros, timeMaxValueSeconds, timeMaxSecondPart]
  split
  · next hneg =>
      rw [abs_of_neg hneg]
      split
      · exact ⟨_, rfl, by omega, by omega⟩
      · have hfits : IntType.bigint.InRange (-micros) := by
          show -2 ^ 63 ≤ -micros ∧ -micros < 2 ^ 64 - 2 ^ 63
          omega
        exact ⟨_, if_pos hfits, by omega, rfl⟩
  · next hpos =>
      rw [abs_of_nonneg (by omega)]
      exact ⟨_, rfl, by omega, rfl⟩

/-- Decoding takes the nearest number within the limits. -/
lemma timeOfMicros_eq {micros : ℤ} (h : IntType.bigint.InRange micros) {n : ℕ}
    (hn : (n : ℤ) = min |micros| maxMicros) :
    timeOfMicros micros =
      some (calcTimeFromSec (micros < 0) (n / 1000000) (n % 1000000)) := by
  obtain ⟨abs, habs, hpos, hmin⟩ := absMicros_eq h
  have hlimit : (if abs > maxMicros then maxMicros else abs) = n := by
    rw [hn, ← hmin]
    split <;> omega
  rw [timeOfMicros, habs, Option.bind_eq_bind, Option.bind_some]
  simp only [hlimit]
  rw [Int.tdiv_eq_ediv_of_nonneg (by omega), Int.tmod_eq_emod_of_nonneg (by omega)]
  rfl

lemma inRange_micros {tm : TimeValue} (h : IsTime tm) : IntType.bigint.InRange tm.micros := by
  have hle := absTime_le h
  rw [maxMicros, timeMaxValueSeconds, timeMaxSecondPart] at hle
  rw [micros_eq]
  show -2 ^ 63 ≤ _ ∧ _ < 2 ^ 64 - 2 ^ 63
  split <;> omega

lemma timeOfMicros_micros {tm : TimeValue} (h : IsTime tm) : timeOfMicros tm.micros = some tm := by
  have hle := absTime_le h
  have hne := h.neg_ne
  have habs : |tm.micros| = absTime tm := by
    rw [micros_eq]
    split
    · rw [abs_neg, Nat.abs_cast]
    · exact Nat.abs_cast _
  have hsign : decide (tm.micros < 0) = tm.neg := by
    rw [micros_eq] at hne ⊢
    cases hneg : tm.neg
    · simp
    · simp only [hneg, if_true] at hne ⊢
      have hzero := hne trivial
      exact decide_eq_true (by omega)
  rw [timeOfMicros_eq (inRange_micros h) (n := absTime tm) (by omega), hsign,
    calcTimeFromSec_absTime h]

/-! ### The literal -/

/-- The atoms of the call of `mariadb_time`. -/
def timeAtoms (micros : ℤ) : List Atom :=
  [Atom.word "mariadb_time".toList, .symbol '('] ++ valueAtoms (some (.integer 0 micros)) ++
    [Atom.symbol ')']

lemma fits_timeAtoms (micros : ℤ) : Fits (timeAtoms micros) none := by
  have hend : Ends (some ')') := by
    rintro _ ⟨⟩
    decide
  refine fits_append.2 ⟨?_, fits_symbol (by decide) (by decide) trivial⟩
  refine fits_word (valid_word (by decide) (by decide)) rfl (by decide) ?_
  exact fits_symbol (by decide) (by decide) (fits_valueAtoms _ hend)

lemma textOf_timeAtoms (micros : ℤ) :
    appendFieldValueToSql [] (some (.time micros)) = textOf (timeAtoms micros) := by
  have hvalue := appendFieldValueToSql_eq (v := some (.integer 0 micros)) rfl []
  rw [timeAtoms, textOf_append, textOf_append]
  rw [appendFieldValueToSql, List.nil_append, List.nil_append] at hvalue
  rw [← hvalue]
  rfl

/-- The literal stands for the number that it was made of. -/
lemma evalTimeLiteral_tokenize {micros : ℤ} (h : IntType.bigint.InRange micros) :
    evalTimeLiteral (tokenize (appendFieldValueToSql [] (some (.time micros)))) = some micros := by
  have hcall : [Atom.word "mariadb_time".toList, Atom.symbol '('].filterMap Atom.token =
      [.word mariadbTimeWord, .symbol ['(']] := by decide
  have hclose : [Atom.symbol ')'].filterMap Atom.token = [.symbol [')']] := rfl
  have heval : mariadbTimeFromMicros micros = some micros := if_pos h
  rw [textOf_timeAtoms, tokenize_textOf (fits_timeAtoms micros), timeAtoms, List.filterMap_append,
    List.filterMap_append, filterMap_valueAtoms, valueTokens, hcall, hclose]
  split
  · next hneg =>
      show evalTimeLiteral [.word mariadbTimeWord, .symbol ['('], .symbol ['-'],
        .number micros.natAbs, .symbol [')']] = some micros
      rw [evalTimeLiteral, if_pos ⟨rfl, rfl, rfl, rfl⟩, Int.ofNat_natAbs_of_nonpos hneg.le, neg_neg,
        heval]
  · next hpos =>
      show evalTimeLiteral [.word mariadbTimeWord, .symbol ['('], .number micros.natAbs,
        .symbol [')']] = some micros
      rw [evalTimeLiteral, if_pos ⟨rfl, rfl, rfl⟩, Int.natAbs_of_nonneg (not_lt.1 hpos), heval]

/-! ### The round trip -/

/-- The last TIME value, or the first one. -/
def timeLimit (neg : Bool) : TimeValue := ⟨neg, 838, 59, 59, 999999⟩

lemma timeOfMicros_of_gt {micros : ℤ} (h : IntType.bigint.InRange micros)
    (hmax : maxMicros < |micros|) : timeOfMicros micros = some (timeLimit (micros < 0)) := by
  have hlimit : ((3020399999999 : ℕ) : ℤ) = maxMicros := by decide
  rw [timeOfMicros_eq h (n := 3020399999999) (by omega)]
  rfl

/-- What the direct scan puts into a TIME vector. -/
lemma scan_time {F32 F64 D Thd : Type} (db : Duckdb F32 F64 D) (narrow : F64 → F32) (thd : Thd)
    {field : Field} (hfield : isTimeType field.realType = true) (c : Content F64 Thd) :
    (db.fieldToDuckdbValue narrow thd field c).bind (db.setValue (fieldToLogicalType field)) =
      some (.time c.getDate.micros) := by
  rw [Duckdb.fieldToDuckdbValue, fieldToLogicalType]
  cases htype : field.realType
  all_goals first | rfl | (rw [htype] at hfield; cases hfield)

/-- All three encoders make the same number of a TIME value, of which decoding makes the value
again; every number beyond the limits is decoded to the limit with its sign. -/
theorem time_values_round_trip {F32 F64 D Thd : Type} (strToDDhhmmssff : Text → TimeValue)
    (db : Duckdb F32 F64 D) (narrow : F64 → F32) (thd : Thd) :
    (∀ tm, IsTime tm →
      appendTime tm = tm.micros ∧
      evalTimeLiteral (tokenize (appendFieldValueToSql [] (some (sqlTimeValue tm)))) =
        some tm.micros ∧
      (∀ (field : Field) (c : Content F64 Thd), isTimeType field.realType = true →
        c.getDate = tm →
        (db.fieldToDuckdbValue narrow thd field c).bind (db.setValue (fieldToLogicalType field)) =
          some (.time tm.micros)) ∧
      storeDuckdbTimeInMysqlFormat strToDDhhmmssff (.time tm.micros) = some tm) ∧
    (∀ micros, IntType.bigint.InRange micros →
      (maxMicros < micros →
        storeDuckdbTimeInMysqlFormat strToDDhhmmssff (.time micros) = some (timeLimit false)) ∧
      (micros < -maxMicros →
        storeDuckdbTimeInMysqlFormat strToDDhhmmssff (.time micros) = some (timeLimit true))) := by
  have hmax : 0 < maxMicros := by decide
  refine ⟨fun tm htm => ⟨rfl, ?_, ?_, timeOfMicros_micros htm⟩, fun micros hmicros => ⟨?_, ?_⟩⟩
  · exact evalTimeLiteral_tokenize (inRange_micros htm)
  · rintro field c hfield rfl
    exact scan_time db narrow thd hfield c
  · intro hgt
    have hsign : decide (micros < 0) = false := decide_eq_false (by omega)
    rw [storeDuckdbTimeInMysqlFormat, timeOfMicros_of_gt hmicros (lt_abs.2 (Or.inl hgt)), hsign]
  · intro hlt
    have hsign : decide (micros < 0) = true := decide_eq_true (by omega)
    rw [storeDuckdbTimeInMysqlFormat, timeOfMicros_of_gt hmicros (lt_abs.2 (Or.inr (by omega))),
      hsign]

/-- DuckDB without any conversion. -/
def noConversions : Duckdb Unit Unit Unit where
  stringIsValid _ := true
  blobOfString _ := none
  cast _ _ := none
  stringIsValid_of_uuid _ _ := rfl

/-- The value -25:00:00.123456. -/
def minusTwentyFiveHours : TimeValue := ⟨true, 25, 0, 0, 123456⟩

theorem time_values_round_trip_minus :
    evalTimeLiteral
        (tokenize (appendFieldValueToSql [] (some (sqlTimeValue minusTwentyFiveHours)))) =
      some (-90000123456) ∧
    storeDuckdbTimeInMysqlFormat (fun _ => timeLimit false) (.time (-90000123456)) =
      some minusTwentyFiveHours ∧
    storeDuckdbTimeInMysqlFormat (fun _ => timeLimit false) (.time (-2 ^ 63)) =
      some (timeLimit true) :=
  have h := time_values_round_trip (fun _ => timeLimit false) noConversions id ()
  have htime : IsTime minusTwentyFiveHours :=
    ⟨by decide, by decide, by decide, by decide, fun _ => by decide⟩
  ⟨(h.1 _ htime).2.1, (h.1 _ htime).2.2.2, (h.2 (-2 ^ 63) (by decide)).2 (by decide)⟩

end DuckdbEngine
