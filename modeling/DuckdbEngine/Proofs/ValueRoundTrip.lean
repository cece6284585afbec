/-
What is appended for a field is read back.

The column that CREATE TABLE makes for a field has a type that keeps what is appended, and the
value that is stored into the field again is the one that was read: numbers as they are, dates,
time stamps and decimals through the text in which DuckDB prints them, other texts byte by byte.
It takes a date of the calendar from the year 1 on, and a decimal that is not kept as a
double.
-/
import DuckdbEngine.Convertor.DdlRoundTrip
import DuckdbEngine.Convertor.StoredValues

namespace DuckdbEngine

open Sql CrossEngine DigitText Calendar Compat

/-! ### Types -/

section types

variable {cfg : Settings} {field : Field}

lemma lex_typeWord {w : Text} (hw : w ∈ typeWords) :
    lex (w.map Char.toUpper) = [.word (w.map Char.toUpper)] := by
  have hall : ∀ w ∈ typeWords, Fits [.word (w.map Char.toUpper)] (some ' ') ∧
      (w.map Char.toUpper).map Char.toUpper = w.map Char.toUpper := by decide
  obtain ⟨hfits, hupper⟩ := hall w hw
  have htoken : List.filterMap Atom.token [Atom.word (w.map Char.toUpper)] =
      [.word ((w.map Char.toUpper).map Char.toUpper)] := rfl
  have hlex := (closed_textOf hfits).lex_eq
  rwa [textOf_cons, textOf_nil, List.append_nil, htoken, hupper] at hlex

/-- The type of a column whose type has no parameters and no collation. -/
lemma columnType_of_word {w : Text} (huuid : field.isUuid = false)
    (hbase : FieldConvertor.baseType cfg field = w) (hw : w ∈ typeWords)
    (hne : w ≠ "varchar".toList ∨ field.charset = none) :
    FieldConvertor.convertType cfg field = w.map Char.toUpper ∧
      columnType cfg field = typeNames.lookup (w.map Char.toUpper) := by
  have htype : FieldConvertor.convertType cfg field = w.map Char.toUpper := by
    rw [FieldConvertor.convertType, huuid, if_neg Bool.false_ne_true, hbase]
    cases hcs : field.charset with
    | none => rfl
    | some cs =>
        have hvarchar : w ≠ "varchar".toList := hne.resolve_right (by simp [hcs])
        exact congrArg (List.map Char.toUpper) (if_neg hvarchar)
  refine ⟨htype, ?_⟩
  rw [columnType, htype, lex_typeWord hw]
  rfl

lemma columnType_plain (w : Text) {type : LogicalType} (huuid : field.isUuid = false)
    (hbase : FieldConvertor.baseType cfg field = w)
    (hw : w ∈ typeWords ∧ w ≠ "varchar".toList ∧
      typeNames.lookup (w.map Char.toUpper) = some type) :
    columnType cfg field = some type :=
  (columnType_of_word huuid hbase hw.1 (Or.inl hw.2.1)).2.trans hw.2.2

lemma columnType_of_uuid (huuid : field.isUuid = true) : columnType cfg field = some .uuid := by
  have hlex : lex "UUID".toList = [.word "UUID".toList] :=
    (closed_textOf (show Fits [.word "UUID".toList] (some ' ') by decide)).lex_eq
  rw [columnType, FieldConvertor.convertType, huuid, if_pos rfl, hlex]
  rfl

lemma columnType_of_varchar (huuid : field.isUuid = false)
    (hbase : FieldConvertor.baseType cfg field = "varchar".toList) :
    columnType cfg field = some .varchar ∧
      FieldConvertor.convertType cfg field ≠ "BLOB".toList := by
  cases hcs : field.charset with
  | none =>
      obtain ⟨htype, hcolumn⟩ := columnType_of_word huuid hbase (by decide) (Or.inr hcs)
      rw [hcolumn, htype]
      decide
  | some cs =>
      have hall : ∀ co ∈ [collationBinary, collationNocase, collationNocaseNoaccent],
          ∃ as ∈ typeAtoms, typeOf (as.filterMap Atom.token) = some .varchar ∧
            textOf as ≠ "BLOB".toList ∧ Fits as (some ' ') ∧
            ("varchar".toList ++ " COLLATE ".toList ++ co).map Char.toUpper = textOf as := by decide
      obtain ⟨as, -, htype, hne, hfits, htext⟩ := hall _ (getDuckdbCollation_mem cs)
      have hconvert : FieldConvertor.convertType cfg field = textOf as := by
        rw [FieldConvertor.convertType, huuid, if_neg Bool.false_ne_true, hbase, hcs, ← htext]
        rfl
      rw [columnType, hconvert, (closed_textOf hfits).lex_eq]
      exact ⟨htype, hne⟩

lemma columnType_of_decimal {width scale : ℕ} (huuid : field.isUuid = false)
    (hbase : FieldConvertor.baseType cfg field =
      "decimal(".toList ++ natText width ++ ",".toList ++ natText scale ++ ")".toList) :
    columnType cfg field = some (.decimal width scale) := by
  have hne : FieldConvertor.baseType cfg field ≠ "varchar".toList := by
    intro heq
    have hhead := congrArg List.head? (hbase.symm.trans heq)
    rw [List.append_assoc, List.append_assoc, List.append_assoc] at hhead
    exact absurd (Option.some.inj hhead) (by decide)
  have hconvert : FieldConvertor.convertType cfg field = textOf (decimalAtoms width scale) := by
    rw [FieldConvertor.convertType, huuid, if_neg Bool.false_ne_true, ← decimal_toUpper, ← hbase]
    cases field.charset with
    | none => rfl
    | some cs => exact congrArg (List.map Char.toUpper) (if_neg hne)
  have htokens : (decimalAtoms width scale).filterMap Atom.token =
      [.word "DECIMAL".toList, .symbol ['('], .number width, .symbol [','], .number scale,
        .symbol [')']] := by
    show [Token.word _, .symbol ['('], .number (numberOf (natText width)), .symbol [','],
      .number (numberOf (natText scale)), .symbol [')']] = _
    rw [numberOf_natText, numberOf_natText]
    rfl
  rw [columnType, hconvert, (closed_textOf (fits_decimalAtoms width scale)).lex_eq, htokens]
  rfl

/-- The column of an integer field has all values of the field. -/
lemma columnType_of_int {lo hi x : ℤ} (huuid : field.isUuid = false)
    (h : intRange field.unsigned field.realType = some (lo, hi)) (hlo : lo ≤ x) (hhi : x ≤ hi) :
    ∃ t : IntType, columnType cfg field = some (.int t) ∧ t.InRange x := by
  have hbase : ∃ w ∈ typeWords, FieldConvertor.baseType cfg field = w ∧ w ≠ "varchar".toList ∧
      ∃ t : IntType, typeNames.lookup (w.map Char.toUpper) = some (.int t) ∧ t.InRange x := by
    cases hty : field.realType <;> cases hu : field.unsigned <;>
      simp only [intRange, hty, hu, reduceCtorEq, Option.some.injEq, Prod.mk.injEq, if_true,
        Bool.false_eq_true, if_false] at h <;>
      obtain ⟨rfl, rfl⟩ := h
    all_goals
      simp only [FieldConvertor.baseType, hty, hu, if_true, Bool.false_eq_true, if_false]
      refine ⟨_, ?_, rfl, ?_, _, rfl, ?_⟩
      · decide
      · decide
      · simp only [IntType.InRange, IntType.offset, IntType.modulus]
        omega
  obtain ⟨w, hw, hb, hne, t, ht, hx⟩ := hbase
  exact ⟨t, (columnType_of_word huuid hb hw (Or.inl hne)).2.trans ht, hx⟩

end types

/-! ### Dates -/

@[simp] lemma after_cons (c : Char) (s : Text) : after c (c :: s) = some s := if_pos rfl

lemma daysInMonth_le (y m : ℕ) : daysInMonth y m ≤ 31 := by
  rw [daysInMonth]
  split_ifs <;> decide

/-- Behind the text of a date from the year 1 on, the rest is read as the time. -/
lemma readDatetime_dateText {d : Date} (hpos : 1 ≤ d.year) (hle : d.year ≤ 9999) (rest : Text) :
    readDatetime (dateText d ++ rest) =
      DateTimeValue.ofParts d.year d.month d.day ((clockOf rest).getD (0, 0, 0, 0)) := by
  have hyear : d.year < 10 ^ 4 := by omega
  have hmonth : d.month < 10 ^ 2 := by have := d.month_le; omega
  have hday : d.day < 10 ^ 2 := by
    have := d.day_le.trans (daysInMonth_le _ _)
    omega
  have htext : dateText d ++ rest = padded 4 d.year ++
      '-' :: (padded 2 d.month ++ '-' :: (padded 2 d.day ++ rest)) := by
    rw [dateText, if_neg (by omega), if_pos hle, if_neg (by omega)]
    simp only [List.append_assoc, List.cons_append, List.append_nil]
  rw [htext, readDatetime, number_padded (by decide) hyear]
  simp only [Option.bind_eq_bind, Option.bind_some, after_cons]
  rw [number_padded (by decide) hmonth]
  simp only [Option.bind_some, after_cons]
  rw [number_padded (by decide) hday]
  rfl

/-- The microseconds are read from their digits, wherever the zeros end. -/
lemma secondPartOf_text {k : ℕ} (hk : k < 1000000) {rest : Text}
    (hrest : ∀ c ∈ rest.head?, c.isDigit = false ∧ c ≠ '.') :
    secondPartOf ((if k = 0 then [] else '.' :: trimZeros (padded 6 k)) ++ rest) = k := by
  split
  · next hzero =>
      have hafter : after '.' rest = none := by
        cases rest with
        | nil => rfl
        | cons c rest => exact if_neg (hrest c rfl).2
      rw [List.nil_append, secondPartOf, hafter, hzero]
      rfl
  · have htake : ((trimZeros (padded 6 k) ++ rest).take 6).takeWhile Char.isDigit =
        trimZeros (padded 6 k) :=
      takeWhile_take_append (isDigit_trimZeros isDigit_padded)
        ((length_trimZeros_le _).trans (length_padded 6 k).le)
        (Or.inr fun c hc => (hrest c hc).1)
    have hfraction := fraction_trimZeros (padded 6 k)
    rw [length_padded, value_padded, Nat.mod_eq_of_lt (show k < 10 ^ 6 from hk)] at hfraction
    rw [List.cons_append, secondPartOf, after_cons, Option.map_some, htake, hfraction,
      Option.getD_some]

/-- The text of a time of day is read behind a blank. -/
lemma clockOf_timeText {hour minute second part : ℕ} (hhour : hour < 24) (hminute : minute < 60)
    (hsecond : second < 60) (hpart : part < 1000000) {rest : Text}
    (hrest : ∀ c ∈ rest.head?, c.isDigit = false ∧ c ≠ '.') :
    clockOf (' ' :: timeText ((hour * 3600 + minute * 60 + second) * 1000000 + part) ++ rest) =
      some (hour, minute, second, part) := by
  have htext : timeText ((hour * 3600 + minute * 60 + second) * 1000000 + part) ++ rest =
      padded 2 hour ++ ':' :: (padded 2 minute ++ ':' :: (padded 2 second ++
        ((if part = 0 then [] else '.' :: trimZeros (padded 6 part)) ++ rest))) := by
    rw [timeText, show ((hour * 3600 + minute * 60 + second) * 1000000 + part) / 3600000000 = hour
        by omega,
      show ((hour * 3600 + minute * 60 + second) * 1000000 + part) / 60000000 % 60 = minute
        by omega,
      show ((hour * 3600 + minute * 60 + second) * 1000000 + part) / 1000000 % 60 = second by omega,
      show ((hour * 3600 + minute * 60 + second) * 1000000 + part) % 1000000 = part by omega]
    simp only [List.append_assoc, List.cons_append]
  rw [List.cons_append, htext, clockOf]
  simp only [Option.bind_eq_bind, Option.bind_some, after_cons]
  rw [number_padded (by decide) (by omega)]
  simp only [Option.bind_some, after_cons]
  rw [number_padded (by decide) (by omega)]
  simp only [Option.bind_some, after_cons]
  rw [number_padded (by decide) (by omega)]
  simp only [Option.bind_some, secondPartOf_text hpart hrest]
  rfl

lemma dateOfDays_epochDays (d : Date) : dateOfDays (epochDays d) = some d := by
  have hdays : (epochDays d + daysAtTimestart).toNat = d.dayNumber := by
    rw [epochDays_eq, daysAtTimestart]
    omega
  rw [dateOfDays, if_neg (by rw [epochDays_eq, daysAtTimestart]; omega), hdays,
    Date.ofDayNumber_dayNumber]

namespace DateTimeValue

variable {tm : DateTimeValue}

/-- The parts of a value make the value. -/
lemma ofParts_self (h : tm.IsDate) :
    ofParts tm.year tm.month tm.day (tm.hour, tm.minute, tm.second, tm.secondPart) = some tm := by
  rw [ofParts, dif_pos ⟨⟨tm.year_le, tm.month_le, tm.day_le⟩, tm.hour_lt, tm.minute_lt,
    tm.second_lt, tm.secondPart_lt⟩, if_pos (Or.inr h.2.2)]

/-- The day number of a date from the year 1 on is that of the date. -/
lemma dateOfDays_appendDate (h : tm.IsDate) (hyear : 1 ≤ tm.year) :
    dateOfDays tm.appendDate = some (tm.toDate h) := by
  obtain ⟨d, hy, hm, hd, hdays⟩ := tm.dateIs_appendDate_iff.2 ⟨h, by omega⟩
  rw [← hdays, dateOfDays_epochDays]
  exact congrArg some (Date.ext hy hm hd)

/-- A date is read back from its text. -/
lemma strToDatetimeOrDate_dateText (h : tm.IsDate) (hyear : 1 ≤ tm.year)
    (hmidnight : tm.timeOfDay = 0) : strToDatetimeOrDate (dateText (tm.toDate h)) = tm := by
  have hread := readDatetime_dateText (d := tm.toDate h) hyear tm.year_le []
  have hclock : ((clockOf []).getD (0, 0, 0, 0)) =
      (tm.hour, tm.minute, tm.second, tm.secondPart) := by
    rw [timeOfDay] at hmidnight
    show (0, 0, 0, 0) = _
    simp only [Prod.mk.injEq]
    omega
  rw [List.append_nil, hclock] at hread
  rw [strToDatetimeOrDate, hread]
  exact congrArg (Option.getD · zeroDate) (ofParts_self h)

/-- A time stamp is read back from its text, with anything but digits behind it. -/
lemma strToDatetimeOrDate_timestampText (h : tm.IsDate) (hyear : 1 ≤ tm.year) {r : Text}
    (hr : ∀ c ∈ r.head?, c.isDigit = false ∧ c ≠ '.') :
    ∃ s, timestampText tm.appendDatetime = some s ∧ strToDatetimeOrDate (s ++ r) = tm := by
  have htime : (tm.appendDatetime % 86400000000).toNat =
      (tm.hour * 3600 + tm.minute * 60 + tm.second) * 1000000 + tm.secondPart := by
    rw [tm.appendDatetime_eq.2, timeOfDay]
    omega
  refine ⟨_, by rw [timestampText, tm.appendDatetime_eq.1, dateOfDays_appendDate h hyear, htime,
    Option.map_some], ?_⟩
  have hclock := clockOf_timeText tm.hour_lt tm.minute_lt tm.second_lt tm.secondPart_lt hr
  rw [strToDatetimeOrDate, List.append_assoc, readDatetime_dateText (d := tm.toDate h) hyear
    tm.year_le, hclock]
  exact congrArg (Option.getD · zeroDate) (ofParts_self h)

end DateTimeValue

/-! ### Decimals -/

section decimals

variable {i f t : Text} (hi : ∀ c ∈ i, c.isDigit = true) (hf : ∀ c ∈ f, c.isDigit = true)
  (ht : t = '.' :: f ∨ t = [] ∧ f = [])

include hi hf ht

lemma unsignedDecimal_append :
    unsignedDecimal (i ++ t) = value i + value f / 10 ^ f.length := by
  have hint : (i ++ t).takeWhile Char.isDigit = i := by
    rw [List.takeWhile_append_of_pos hi]
    rcases ht with rfl | ⟨rfl, -⟩
    · rw [List.takeWhile_cons_of_neg (by decide), List.append_nil]
    · rw [List.takeWhile_nil, List.append_nil]
  have hfrac : ((after '.' ((i ++ t).drop i.length)).map (List.takeWhile Char.isDigit)).getD [] =
      f := by
    rw [List.drop_left]
    rcases ht with rfl | ⟨rfl, rfl⟩
    · rw [after_cons, Option.map_some, Option.getD_some, List.takeWhile_eq_self_iff.2 hf]
    · rfl
  rw [unsignedDecimal, hint, hfrac]

/-- A number is read from its digits, with its sign in front of them. -/
lemma strToDecimal_append (neg : Prop) [Decidable neg] :
    strToDecimal ((if neg then ['-'] else []) ++ (i ++ t)) =
      (if neg then -1 else 1) * (value i + value f / 10 ^ f.length) := by
  have hsign : (i ++ t).head? ≠ some '-' := by
    intro hhead
    cases i with
    | cons c i =>
        have hc := hi c (List.mem_cons_self ..)
        rw [List.cons_append, List.head?_cons, Option.some.injEq] at hhead
        rw [hhead] at hc
        exact absurd hc (by decide)
    | nil =>
        rcases ht with rfl | ⟨rfl, -⟩
        · exact absurd (Option.some.inj hhead) (by decide)
        · cases hhead
  rw [← unsignedDecimal_append hi hf ht, strToDecimal]
  by_cases hneg : neg
  · rw [if_pos hneg, if_pos hneg]
    exact (neg_one_mul _).symm
  · rw [if_neg hneg, if_neg hneg]
    exact (if_neg hsign).trans (one_mul _).symm

end decimals

/-- The text of a decimal is read as the number; without digits before the point there must be
nothing to write there. -/
lemma strToDecimal_decimalText {width scale : ℕ} {x : ℤ}
    (h : scale < width ∨ x.natAbs < 10 ^ scale) :
    strToDecimal (decimalText width scale x) = x / 10 ^ scale := by
  have hx : (x : ℚ) = (if x < 0 then -1 else 1) * (x.natAbs : ℚ) := by
    rw [Nat.cast_natAbs]
    split
    · next hneg => rw [abs_of_neg hneg, Int.cast_neg, neg_one_mul, neg_neg]
    · next hnonneg => rw [abs_of_nonneg (Int.not_lt.1 hnonneg), one_mul]
  have hpow : (10 : ℚ) ^ scale ≠ 0 := by positivity
  have hsplit : (x.natAbs : ℚ) / 10 ^ scale = (x.natAbs / 10 ^ scale : ℕ) +
      (x.natAbs % 10 ^ scale : ℕ) / 10 ^ scale := by
    have hnat : (x.natAbs : ℚ) =
        (x.natAbs / 10 ^ scale : ℕ) * 10 ^ scale + (x.natAbs % 10 ^ scale : ℕ) := by
      exact_mod_cast (Nat.div_add_mod' x.natAbs (10 ^ scale)).symm
    rw [add_div_eq_mul_add_div _ _ hpow, ← hnat]
  rw [hx, mul_div_assoc, decimalText]
  rcases Nat.eq_zero_or_pos scale with rfl | hpos
  · have hread := strToDecimal_append (i := written x.natAbs) (f := []) (t := [])
      isDigit_written (fun c hc => by cases hc) (Or.inr ⟨rfl, rfl⟩) (x < 0)
    have hnil : value [] = 0 := rfl
    rw [List.append_nil, value_written, hnil, Nat.cast_zero, zero_div, add_zero] at hread
    rw [if_pos rfl, hread, pow_zero, div_one]
  · have hread := strToDecimal_append
      (i := if scale < width then written (x.natAbs / 10 ^ scale) else [])
      (f := padded scale x.natAbs)
      (by
        split
        · exact isDigit_written
        · exact fun c hc => by cases hc)
      isDigit_padded (Or.inl rfl) (x < 0)
    have hint : value (if scale < width then written (x.natAbs / 10 ^ scale) else []) =
        x.natAbs / 10 ^ scale := by
      split
      · exact value_written _
      · next hge => exact (Nat.div_eq_of_lt (h.resolve_left hge)).symm
    rw [hint, value_padded, length_padded, ← hsplit] at hread
    have hscale : scale ≠ 0 := by omega
    rw [if_neg hscale, hread]

/-- A decimal that fits its type is appended as the number without its point. -/
lemma appendDecimal_of_fits {useDouble : Bool} {p : ℕ} {d : MyDecimal} (hfits : d.intg + d.frac ≤ p)
    (hlarge : 38 < p → useDouble = false ∧ (Nat.digits 10 d.intPart).length + d.frac ≤ 38) :
    ∃ T x, appendDecimal useDouble p d.frac d = some (.decimal T x (min p 38) d.frac) ∧
      (x : ℚ) = d.value * 10 ^ d.frac ∧ x.natAbs < 10 ^ min p 38 := by
  have habs : (signed d.sign d.unscaled).natAbs = d.unscaled := by
    rw [signed]
    split <;> omega
  rcases Nat.lt_or_ge 38 p with hp | hp
  · obtain ⟨hdouble, hdigits⟩ := hlarge hp
    have hint : d.intPart < 10 ^ (Nat.digits 10 d.intPart).length :=
      Nat.lt_base_pow_length_digits (by norm_num)
    have hlt : d.unscaled < 10 ^ 38 :=
      (d.unscaled_lt hint).trans_le (Nat.pow_le_pow_right (by norm_num) hdigits)
    refine ⟨.hugeint, signed d.sign d.unscaled, ?_, d.signed_unscaled, ?_⟩
    · have hget := d.getDuckdbDecimal_of_lt (T := .hugeint) (hlt.trans_le (by decide))
      rw [appendDecimal, if_neg (by omega), hdouble, if_neg Bool.false_ne_true,
        myDecimalActualIntg_eq, if_neg (by omega), hget, Option.map_some, Nat.min_eq_right hp.le]
    · rwa [habs, Nat.min_eq_right hp.le]
  · have hlt : d.unscaled < 10 ^ p :=
      (d.unscaled_lt d.intPart_lt).trans_le (Nat.pow_le_pow_right (by norm_num) hfits)
    refine ⟨decimalIntOf p, signed d.sign d.unscaled, ?_, d.signed_unscaled, ?_⟩
    · have hget := d.getDuckdbDecimal_of_lt (hlt.trans_le (pow_le_decimalIntOf hp))
      rw [appendDecimal, if_pos hp, if_neg (by omega), hget, Option.map_some, Nat.min_eq_left hp]
    · rwa [habs, Nat.min_eq_left hp]

/-! ### Fields -/

variable {C F32 F64 U : Type}

/-- The types with a date. -/
def dateTypes : List FieldType := [.date, .newdate, .datetime, .datetime2, .timestamp, .timestamp2]

/-- What the fields of MariaDB promise: a content is within the limits of the field, and what was
read of it is stored as the same content. -/
structure FieldApi.Keeps (api : FieldApi C F64) (field : Field) (c : C) : Prop where
  int : ∀ lo hi, intRange field.unsigned field.realType = some (lo, hi) → ∃ x, lo ≤ x ∧ x ≤ hi ∧
    api.valInt field c = IntType.bigint.wrap x ∧
    api.storeInt field (IntType.bigint.wrap x) field.unsigned = c
  real : field.realType = .float ∨ field.realType = .double →
    api.storeReal field (api.valReal field c) = c
  decimal : field.realType = .newdecimal → (api.valDecimal field c).frac = field.dec ∧
    (api.valDecimal field c).intg + field.dec ≤ field.precision ∧
    ∀ cs text, strToDecimal text = (api.valDecimal field c).value → api.storeText field cs text = c
  date : field.realType ∈ dateTypes → api.storeDate field (api.getDate field c) = c
  midnight : field.realType = .date ∨ field.realType = .newdate →
    (api.getDate field c).timeOfDay = 0
  time : isTimeType field.realType = true → IsTime (api.getTime field c) ∧
    api.storeTime field (api.getTime field c) = c
  /-- A text may be stored in the character set of the field or as bytes, and that of a UUID in the
  one of the system. -/
  text : isStringType field.realType = true → ∀ cs, (cs = .system → field.isUuid = true) →
    api.storeText field cs (api.valStr field c) = c
  uuid : field.isUuid = true → field.realType = .string

/-- The field has a type that can be appended, and DuckDB has the value. -/
structure Storable (cfg : Settings) (api : FieldApi C F64) (db : ColumnDb F32 F64 U) (field : Field)
    (c : C) : Prop where
  supported : field.realType ∉ [.null, .decimal, .varString, .other]
  float : field.realType = .float →
    db.widen (db.narrow (api.valReal field c)) = api.valReal field c
  decimal : field.realType = .newdecimal → 38 < field.precision → cfg.useDoubleForDecimal = false ∧
    (Nat.digits 10 (api.valDecimal field c).intPart).length + field.dec ≤ 38
  date : field.realType ∈ dateTypes →
    (api.getDate field c).IsDate ∧ 1 ≤ (api.getDate field c).year
  uuid : field.isUuid = true →
    ∃ u, db.uuidOf (api.valStr field c) = some u ∧ db.uuidText u = api.valStr field c

/-- The map has the bit of a field whose column has the type BLOB; without a map the type is
computed. -/
def BlobMapFor (cfg : Settings) (field : Field) (i : ℕ) (blobTypeMap : Option (ℕ → Bool)) : Prop :=
  ∀ map, blobTypeMap = some map → isStringType field.realType = true →
    map i = decide (FieldConvertor.convertType cfg field = "BLOB".toList)

section fields

variable {cfg : Settings} {api : FieldApi C F64} {db : ColumnDb F32 F64 U} {field : Field} {c : C}
  {blobTypeMap : Option (ℕ → Bool)} {i : ℕ}

/-- The content is appended to the column and comes back from there. -/
def ReadsBack (cfg : Settings) (api : FieldApi C F64) (db : ColumnDb F32 F64 U)
    (blobTypeMap : Option (ℕ → Bool)) (field : Field) (i : ℕ) (c : C) : Prop :=
  ∃ v, appendColumn cfg api db blobTypeMap field i (some c) = some (some v) ∧
    storeValue api db field v = some c

lemma readsBack_of {a : Appended F32 F64 U} {type : LogicalType} {v : Stored F32 F64 U}
    (ha : appendMysqlField cfg api db blobTypeMap field i (some c) = some (some a))
    (htype : columnType cfg field = some type) (hv : db.appendTo type a = some v)
    (hstore : storeValue api db field v = some c) :
    ReadsBack cfg api db blobTypeMap field i c := by
  refine ⟨v, ?_, hstore⟩
  rw [appendColumn, ha]
  show ((columnType cfg field).bind fun type => db.appendTo type a).map some = _
  rw [htype, Option.bind_some, hv, Option.map_some]

variable (hkeeps : api.Keeps field c) (hs : Storable cfg api db field c)

include hkeeps

lemma isUuid_eq_false (h : field.realType ≠ .string) : field.isUuid = false := by
  cases huuid : field.isUuid with
  | false => rfl
  | true => exact absurd (hkeeps.uuid huuid) h

/-- Only an unsigned BIGINT has numbers that a signed number of 64 bits does not have. -/
lemma readsBack_int {lo hi : ℤ}
    (hrange : intRange field.unsigned field.realType = some (lo, hi)) :
    ReadsBack cfg api db blobTypeMap field i c := by
  have huuid := isUuid_eq_false hkeeps (by
    intro hty
    rw [hty] at hrange
    cases hrange)
  obtain ⟨x, hlo, hhi, hval, hstore⟩ := hkeeps.int lo hi hrange
  obtain ⟨t, htype, hx⟩ : ∃ t : IntType, columnType cfg field = some (.int t) ∧ t.InRange x :=
    columnType_of_int huuid hrange hlo hhi
  by_cases hbig : field.realType = .longlong ∧ field.unsigned = true
  · obtain ⟨hty, hu⟩ := hbig
    have hx64 : IntType.ubigint.InRange x := by
      rw [hty, hu] at hrange
      cases hrange
      simp only [IntType.InRange, IntType.offset, IntType.modulus]
      omega
    have ha : appendMysqlField cfg api db blobTypeMap field i (some c) =
        some (some (.int .ubigint x)) := by
      simp only [appendMysqlField, hty, hu, if_true, hval, IntType.wrap_wrap_bigint,
        IntType.wrap_of_inRange hx64]
    have hback : storeValue api db field (.int t x) = some c := by
      simp only [storeValue, hty, FieldType.type, hu, if_true, ColumnDb.getIntValue, if_pos hx64,
        Option.map_some]
      rw [← hu, hstore]
    exact readsBack_of ha htype (if_pos hx) hback
  · have hx64 : IntType.bigint.InRange x := by
      cases hty : field.realType <;> cases hu : field.unsigned <;>
        simp only [intRange, hty, hu, reduceCtorEq, Option.some.injEq, Prod.mk.injEq, if_true,
          Bool.false_eq_true, if_false, and_self, not_true] at hrange hbig <;>
        obtain ⟨rfl, rfl⟩ := hrange <;>
        simp only [IntType.InRange, IntType.offset, IntType.modulus] <;>
        omega
    rw [IntType.wrap_of_inRange hx64] at hval hstore
    have ha : appendMysqlField cfg api db blobTypeMap field i (some c) =
        some (some (.int .bigint x)) := by
      cases hty : field.realType <;> simp only [intRange, hty, reduceCtorEq] at hrange <;>
        simp_all [appendMysqlField]
    have hback : storeValue api db field (.int t x) = some c := by
      cases hty : field.realType <;> simp only [intRange, hty, reduceCtorEq] at hrange <;>
        simp_all [storeValue, FieldType.type, ColumnDb.getIntValue]
    exact readsBack_of ha htype (if_pos hx) hback

include hs

lemma readsBack_real (h : field.realType = .float ∨ field.realType = .double) :
    ReadsBack cfg api db blobTypeMap field i c := by
  have hstore := hkeeps.real h
  have huuid := isUuid_eq_false hkeeps (by rcases h with h | h <;> rw [h] <;> decide)
  rcases h with hty | hty
  · have htype : columnType cfg field = some .float :=
      columnType_plain "float".toList huuid (by rw [FieldConvertor.baseType, hty]) (by decide)
    refine readsBack_of (a := .float (db.narrow (api.valReal field c))) ?_ htype rfl ?_
    · simp only [appendMysqlField, hty]
    · simp only [storeValue, hty, FieldType.type, ColumnDb.getFloatValue, Option.map_some,
        hs.float hty, hstore]
  · have htype : columnType cfg field = some .double :=
      columnType_plain "double".toList huuid (by rw [FieldConvertor.baseType, hty]) (by decide)
    refine readsBack_of (a := .double (api.valReal field c)) ?_ htype rfl ?_
    · simp only [appendMysqlField, hty]
    · simp only [storeValue, hty, FieldType.type, ColumnDb.getDoubleValue, Option.map_some, hstore]

lemma readsBack_decimal (hty : field.realType = .newdecimal) :
    ReadsBack cfg api db blobTypeMap field i c := by
  have huuid := isUuid_eq_false hkeeps (by rw [hty]; decide)
  obtain ⟨hfrac, hfits, hstore⟩ := hkeeps.decimal hty
  have hlarge := hs.decimal hty
  rw [← hfrac] at hfits hlarge
  obtain ⟨T, x, happend, hvalue, hlt⟩ := appendDecimal_of_fits hfits hlarge
  have htype : columnType cfg field = some (.decimal (min field.precision 38) field.dec) := by
    refine columnType_of_decimal huuid ?_
    simp only [FieldConvertor.baseType, hty]
    rcases Nat.lt_or_ge 38 field.precision with hp | hp
    · obtain ⟨hdouble, hdigits⟩ := hlarge hp
      have hbegin : "decimal(38,".toList = "decimal(".toList ++ natText 38 ++ ",".toList := by
        decide
      rw [if_neg (Nat.not_le.2 hp), hdouble, if_neg Bool.false_ne_true, Nat.min_eq_right hp.le,
        Nat.min_eq_right (by omega), hbegin]
    · rw [if_pos hp, Nat.min_eq_left hp]
  rw [hfrac] at happend
  refine readsBack_of (a := .decimal T x (min field.precision 38) field.dec) ?_ htype
    (if_pos ⟨rfl, rfl⟩) ?_
  · simp only [appendMysqlField, hty, happend]
  · have hpow : (10 : ℚ) ^ field.dec ≠ 0 := by positivity
    have hread : strToDecimal (decimalText (min field.precision 38) field.dec x) =
        (api.valDecimal field c).value := by
      rw [strToDecimal_decimalText, hvalue, hfrac, mul_div_cancel_right₀ _ hpow]
      by_contra hno
      rw [not_or] at hno
      have hle : 10 ^ min field.precision 38 ≤ 10 ^ field.dec :=
        Nat.pow_le_pow_right (by norm_num) (Nat.not_lt.1 hno.1)
      omega
    simp only [storeValue, hty, FieldType.type, ColumnDb.valueAsString, hstore _ _ hread]

/-- The text of a time stamp with time zone ends with `+00`, which is not read. -/
lemma readsBack_date (h : field.realType ∈ dateTypes) :
    ReadsBack cfg api db blobTypeMap field i c := by
  have hstore := hkeeps.date h
  obtain ⟨hdate, hyear⟩ := hs.date h
  have huuid := isUuid_eq_false hkeeps (fun hty => by
    rw [hty] at h
    exact absurd h (by decide))
  simp only [dateTypes, List.mem_cons, List.not_mem_nil, or_false] at h
  rcases h with hty | hty | hty | hty | hty | hty
  case inl | inr.inl =>
    have hread := DateTimeValue.strToDatetimeOrDate_dateText hdate hyear
      (hkeeps.midnight (by rw [hty]; decide))
    have htype : columnType cfg field = some .date :=
      columnType_plain "date".toList huuid (by rw [FieldConvertor.baseType, hty]) (by decide)
    refine readsBack_of (a := .date (api.getDate field c).appendDate)
      (by simp only [appendMysqlField, hty]) htype rfl ?_
    simp only [storeValue, hty, FieldType.type, ColumnDb.valueAsString,
      DateTimeValue.dateOfDays_appendDate hdate hyear, Option.map_some, Option.getD_some, hread,
      hstore]
  case inr.inr.inl | inr.inr.inr.inl =>
    obtain ⟨s, htext, hread⟩ := DateTimeValue.strToDatetimeOrDate_timestampText hdate hyear
      (r := []) (fun c hc => by cases hc)
    rw [List.append_nil] at hread
    have htype : columnType cfg field = some .timestamp :=
      columnType_plain "datetime".toList huuid (by rw [FieldConvertor.baseType, hty]) (by decide)
    refine readsBack_of (a := .timestamp (api.getDate field c).appendDatetime)
      (by simp only [appendMysqlField, hty]) htype rfl ?_
    simp only [storeValue, hty, FieldType.type, ColumnDb.valueAsString, htext, Option.getD_some,
      hread, hstore]
  case inr.inr.inr.inr.inl | inr.inr.inr.inr.inr =>
    obtain ⟨s, htext, hread⟩ := DateTimeValue.strToDatetimeOrDate_timestampText hdate hyear
      (r := "+00".toList) (fun c hc => by cases hc; decide)
    have htype : columnType cfg field = some .timestampTz :=
      columnType_plain "timestamptz".toList huuid (by rw [FieldConvertor.baseType, hty]) (by decide)
    refine readsBack_of (a := .timestamp (api.getDate field c).appendDatetime)
      (by simp only [appendMysqlField, hty]) htype rfl ?_
    simp only [storeValue, hty, FieldType.type, ColumnDb.valueAsString, htext, Option.map_some,
      Option.getD_some, hread, hstore]

omit hs in
lemma readsBack_time (h : isTimeType field.realType = true) :
    ReadsBack cfg api db blobTypeMap field i c := by
  obtain ⟨htime, hstore⟩ := hkeeps.time h
  have huuid := isUuid_eq_false hkeeps (fun hty => by
    rw [hty] at h
    exact absurd h (by decide))
  have hread := timeOfMicros_micros htime
  rw [isTimeType, Bool.or_eq_true, decide_eq_true_iff, decide_eq_true_iff] at h
  rcases h with hty | hty
  all_goals
    have htype : columnType cfg field = some .time :=
      columnType_plain "time".toList huuid (by rw [FieldConvertor.baseType, hty]) (by decide)
    refine readsBack_of (a := .time (api.getTime field c).micros) (by
      simp only [appendMysqlField, hty]; rfl) htype rfl ?_
    simp only [storeValue, hty, FieldType.type, ColumnDb.timeOf, storeDuckdbTimeInMysqlFormat,
      hread, Option.map_some, hstore]

omit hkeeps hs in
lemma isStringType_cases (h : isStringType field.realType = true) :
    (field.realType = .enum ∨ field.realType = .set) ∨
      (field.realType = .bit ∨ field.realType = .geometry) ∨
      field.realType = .blob ∨ field.realType = .varchar ∨ field.realType = .string := by
  rw [isStringType] at h
  cases hty : field.realType <;> simp [hty] at h ⊢

omit hkeeps hs in
variable (api db) in
/-- A text is stored as it is, and only that of a UUID in the character set of the system. -/
lemma storeValue_text (h : isStringType field.realType = true) :
    ∃ cs, (cs = StoreCharset.system → field.isUuid = true) ∧
      ∀ v, storeValue api db field v = some (api.storeText field cs (db.valueAsString v)) := by
  have hstring (hty : field.realType.type = .string ∨ field.realType.type = .varchar) :
      ∃ cs, (cs = StoreCharset.system → field.isUuid = true) ∧
        ∀ v, storeValue api db field v = some (api.storeText field cs (db.valueAsString v)) := by
    refine ⟨if field.isUuid then .system else if field.charset.isSome then .own else .bin, ?_,
      fun v => ?_⟩
    · split_ifs <;> simp_all
    · rcases hty with hty | hty <;> simp only [storeValue, hty] <;> split_ifs <;> rfl
  have hbin (hty : field.realType.type = .blob ∨ field.realType.type = .bit ∨
      field.realType.type = .geometry) :
      ∃ cs, (cs = StoreCharset.system → field.isUuid = true) ∧
        ∀ v, storeValue api db field v = some (api.storeText field cs (db.valueAsString v)) := by
    refine ⟨.bin, nofun, fun v => ?_⟩
    rcases hty with hty | hty | hty <;> simp only [storeValue, hty]
  rcases isStringType_cases h with (hty | hty) | (hty | hty) | hty | hty | hty
  case inl.inl | inl.inr | inr.inr.inr.inl | inr.inr.inr.inr =>
    exact hstring (by rw [hty]; decide)
  all_goals exact hbin (by rw [hty]; decide)

omit hkeeps hs in
variable (cfg) in
/-- The column of a text has the type BLOB or VARCHAR. -/
lemma columnType_of_text (h : isStringType field.realType = true) (huuid : field.isUuid = false) :
    (FieldConvertor.convertType cfg field = "BLOB".toList ∧ columnType cfg field = some .blob) ∨
      FieldConvertor.convertType cfg field ≠ "BLOB".toList ∧
        columnType cfg field = some .varchar := by
  have hblob (hbase : FieldConvertor.baseType cfg field = "blob".toList) :
      FieldConvertor.convertType cfg field = "BLOB".toList ∧ columnType cfg field = some .blob := by
    obtain ⟨htype, hcolumn⟩ := columnType_of_word huuid hbase (by decide) (Or.inl (by decide))
    exact ⟨htype.trans (by decide), hcolumn.trans (by decide)⟩
  have hvarchar (hbase : FieldConvertor.baseType cfg field = "varchar".toList) :
      FieldConvertor.convertType cfg field ≠ "BLOB".toList ∧
        columnType cfg field = some .varchar :=
    (columnType_of_varchar huuid hbase).symm
  rcases isStringType_cases h with (hty | hty) | (hty | hty) | hty | hty | hty
  case inl.inl | inl.inr => exact Or.inr (hvarchar (by rw [FieldConvertor.baseType, hty]))
  case inr.inl.inl | inr.inl.inr => exact Or.inl (hblob (by rw [FieldConvertor.baseType, hty]))
  all_goals
    cases hcs : field.charset.isSome
    · exact Or.inl (hblob (by simp only [FieldConvertor.baseType, hty, hcs]; rfl))
    · exact Or.inr (hvarchar (by simp only [FieldConvertor.baseType, hty, hcs]; rfl))

lemma readsBack_text (h : isStringType field.realType = true)
    (hmap : BlobMapFor cfg field i blobTypeMap) :
    ReadsBack cfg api db blobTypeMap field i c := by
  obtain ⟨cs, hcs, hstore⟩ := storeValue_text api db h
  have hkept := hkeeps.text h cs hcs
  cases huuid : field.isUuid with
  | true =>
      obtain ⟨u, hu, htext⟩ := hs.uuid huuid
      have ha : appendMysqlField cfg api db blobTypeMap field i (some c) =
          some (some (.uuid u)) := by
        simp only [appendMysqlField, hkeeps.uuid huuid, huuid, if_true, hu, Option.map_some]
      refine readsBack_of ha (columnType_of_uuid huuid) rfl ?_
      rw [hstore, ColumnDb.valueAsString, htext, hkept]
  | false =>
      have hblob : isBlob cfg blobTypeMap field i =
          decide (FieldConvertor.convertType cfg field = "BLOB".toList) := by
        cases hm : blobTypeMap with
        | none => rfl
        | some map => exact hmap map hm h
      have ha : appendMysqlField cfg api db blobTypeMap field i (some c) =
          some (some (if decide (FieldConvertor.convertType cfg field = "BLOB".toList) then
            .blob (api.valStr field c) else .string (api.valStr field c))) := by
        rw [← hblob]
        rcases isStringType_cases h with (hty | hty) | (hty | hty) | hty | hty | hty <;>
          simp only [appendMysqlField, hty, huuid, Bool.false_eq_true, if_false]
      rcases columnType_of_text cfg h huuid with ⟨htype, hcolumn⟩ | ⟨htype, hcolumn⟩
      · rw [decide_eq_true htype, if_pos rfl] at ha
        refine readsBack_of ha hcolumn rfl ?_
        rw [hstore, ColumnDb.valueAsString, hkept]
      · rw [decide_eq_false htype, if_neg Bool.false_ne_true] at ha
        refine readsBack_of ha hcolumn rfl ?_
        rw [hstore, ColumnDb.valueAsString, hkept]

/-- Every content that DuckDB can keep comes back from the column of its field. -/
theorem readsBack (hmap : BlobMapFor cfg field i blobTypeMap) :
    ReadsBack cfg api db blobTypeMap field i c := by
  have hint (h : (intRange field.unsigned field.realType).isSome) :
      ReadsBack cfg api db blobTypeMap field i c := by
    obtain ⟨⟨lo, hi⟩, hrange⟩ := Option.isSome_iff_exists.1 h
    exact readsBack_int hkeeps hrange
  have hsupported := hs.supported
  cases hty : field.realType
  case tiny | short | int24 | long | longlong | year =>
    exact hint (by rw [hty]; rfl)
  case float => exact readsBack_real hkeeps hs (Or.inl hty)
  case double => exact readsBack_real hkeeps hs (Or.inr hty)
  case newdecimal => exact readsBack_decimal hkeeps hs hty
  case timestamp | timestamp2 | newdate | date | datetime | datetime2 =>
    exact readsBack_date hkeeps hs (by rw [hty]; decide)
  case time | time2 => exact readsBack_time hkeeps (by rw [hty]; decide)
  case bit | geometry | set | enum | blob | string | varchar =>
    exact readsBack_text hkeeps hs (by rw [hty]; decide) hmap
  case decimal | null | varString | other =>
    rw [hty] at hsupported
    exact absurd (by decide) hsupported

end fields

end DuckdbEngine
