/-
The values of a table's columns.

`append_mysql_field` reads a field of a MariaDB record by a switch over the types of the
fields and appends what it has read to the column that CREATE TABLE has made for the field;
`store_duckdb_field_in_mysql_format` stores a value of a result into a field.  Numbers and
times go back as numbers, everything else as a text: dates, time stamps and decimals in the
form in which DuckDB prints them, which MariaDB reads again.

How MariaDB's fields keep a content is a parameter (`FieldApi`), and so are DuckDB's
conversions between types that differ (`ColumnDb`).  A character of a text is a byte.
-/
import DuckdbEngine.Convertor.DdlText
import DuckdbEngine.Convertor.TimeValues
import DuckdbEngine.Lib.DigitText
import DuckdbEngine.Runtime.AppendTemporal
import DuckdbEngine.Runtime.Decimal

namespace DuckdbEngine

open Sql CrossEngine DigitText Calendar Compat

/-! ### The types of the columns -/

/-- The types without parameters. -/
def typeNames : List (Text × LogicalType) :=
  [("UUID".toList, .uuid), ("TINYINT".toList, .int .tinyint), ("UTINYINT".toList, .int .utinyint),
    ("SMALLINT".toList, .int .smallint), ("USMALLINT".toList, .int .usmallint),
    ("INTEGER".toList, .int .integer), ("UINTEGER".toList, .int .uinteger),
    ("BIGINT".toList, .int .bigint), ("UBIGINT".toList, .int .ubigint), ("FLOAT".toList, .float),
    ("DOUBLE".toList, .double), ("TIMESTAMPTZ".toList, .timestampTz), ("DATE".toList, .date),
    ("TIME".toList, .time), ("DATETIME".toList, .timestamp), ("BLOB".toList, .blob),
    ("VARCHAR".toList, .varchar)]

/-- The type that DuckDB reads; a collation changes nothing of what is stored. -/
def typeOf : List Token → Option LogicalType
  | [.word w] => typeNames.lookup w
  | [.word w, .symbol _, .number width, .symbol _, .number scale, .symbol _] =>
      if w = "DECIMAL".toList then some (.decimal width scale) else none
  | .word w :: .word c :: _ =>
      if w = "VARCHAR".toList ∧ c = "COLLATE".toList then some .varchar else none
  | _ => none

/-- The type of the column that is created for a field. -/
def columnType (cfg : Settings) (field : Field) : Option LogicalType :=
  typeOf (lex (FieldConvertor.convertType cfg field))

/-! ### Values -/

/-- The argument of `Append`. -/
inductive Appended (F32 F64 U : Type) where
  /-- An `int64_t` or a `uint64_t`. -/
  | int (t : IntType) (x : ℤ)
  | float (x : F32)
  | double (x : F64)
  /-- `Value::DECIMAL` -/
  | decimal (T : DecimalInt) (x : ℤ) (width scale : ℕ)
  | date (days : ℤ)
  | timestamp (micros : ℤ)
  | time (micros : ℤ)
  /-- A `string_t`. -/
  | string (s : Text)
  /-- `Value::BLOB` -/
  | blob (s : Text)
  /-- `Value::UUID` -/
  | uuid (u : U)

/-- A value in a column that is not NULL. -/
inductive Stored (F32 F64 U : Type) where
  | int (t : IntType) (x : ℤ)
  | float (x : F32)
  | double (x : F64)
  | decimal (width scale : ℕ) (x : ℤ)
  | date (days : ℤ)
  | timestamp (micros : ℤ)
  | timestampTz (micros : ℤ)
  | time (micros : ℤ)
  | varchar (s : Text)
  | blob (s : Text)
  | uuid (u : U)

variable {C F32 F64 U : Type}

/-- What is left to DuckDB: conversions that are not modelled, and the form of the texts that are
not read again; `none` is an exception. -/
structure ColumnDb (F32 F64 U : Type) where
  widen : F32 → F64
  narrow : F64 → F32
  /-- `Value::UUID` of a text, and its text -/
  uuidOf : Text → Option U
  uuidText : U → Text
  /-- The conversion of an appended value to a type that is not its own. -/
  convert : LogicalType → Appended F32 F64 U → Option (Stored F32 F64 U)
  /-- `GetValue` of a value that has another type -/
  getInt : IntType → Stored F32 F64 U → Option ℤ
  getFloat : Stored F32 F64 U → Option F32
  getDouble : Stored F32 F64 U → Option F64
  /-- `ToString` of other values -/
  text : Stored F32 F64 U → Text

/-- The character set that a text is stored with: `my_charset_bin`, `system_charset_info` or that
of the field. -/
inductive StoreCharset where
  | bin
  | system
  | own
deriving DecidableEq

/-- The fields of MariaDB: what is read of a content, and the content after something has been
stored. -/
structure FieldApi (C F64 : Type) where
  /-- `val_int`, a signed number of 64 bits -/
  valInt : Field → C → ℤ
  valReal : Field → C → F64
  valDecimal : Field → C → MyDecimal
  /-- `get_date` without flags, of the fields with a date and of TIME fields -/
  getDate : Field → C → DateTimeValue
  getTime : Field → C → TimeValue
  valStr : Field → C → Text
  /-- `set_default` -/
  default : Field → C
  /-- `store` with a number of 64 bits and whether it is unsigned -/
  storeInt : Field → ℤ → Bool → C
  storeReal : Field → F64 → C
  /-- `store_time` -/
  storeDate : Field → DateTimeValue → C
  storeTime : Field → TimeValue → C
  storeText : Field → StoreCharset → Text → C
  /-- `str_to_DDhhmmssff` -/
  strToDDhhmmssff : Text → TimeValue

/-! ### Appending -/

section append

variable (cfg : Settings) (api : FieldApi C F64) (db : ColumnDb F32 F64 U)

/-- The types that are read as a text. -/
def isStringType (type : FieldType) : Bool :=
  [.set, .enum, .bit, .geometry, .varchar, .string, .blob].contains type

/-- `build_duckdb_blob_map` -/
def buildDuckdbBlobMap (fields : List Field) (i : ℕ) : Bool :=
  fields[i]?.any fun field =>
    isStringType field.realType && FieldConvertor.convertType cfg field = "BLOB".toList

/-- `is_blob`: the bit of the field, or if there is no map the type of its column. -/
def isBlob (blobTypeMap : Option (ℕ → Bool)) (field : Field) (fieldIndex : ℕ) : Bool :=
  (blobTypeMap.map fun map => map fieldIndex).getD
    (FieldConvertor.convertType cfg field = "BLOB".toList)

/-- `append_mysql_field`: nothing is appended after an error, and SQLNULL for NULL. -/
def appendMysqlField (blobTypeMap : Option (ℕ → Bool)) (field : Field) (fieldIndex : ℕ) :
    Option C → Option (Option (Appended F32 F64 U))
  | none => some none
  | some c =>
      match field.realType with
      | .tiny | .short | .int24 | .long => some (some (.int .bigint (api.valInt field c)))
      | .longlong =>
          some (some (if field.unsigned then
              .int .ubigint (IntType.ubigint.wrap (api.valInt field c))
            else .int .bigint (api.valInt field c)))
      | .float => some (some (.float (db.narrow (api.valReal field c))))
      | .double => some (some (.double (api.valReal field c)))
      | .newdecimal =>
          match appendDecimal cfg.useDoubleForDecimal field.precision field.dec
              (api.valDecimal field c) with
          | some (.decimal T x width scale) => some (some (.decimal T x width scale))
          | some .double => some (some (.double (api.valReal field c)))
          | some .appendError | none => none
      | .date | .newdate => some (some (.date (api.getDate field c).appendDate))
      | .datetime | .datetime2 | .timestamp | .timestamp2 =>
          some (some (.timestamp (api.getDate field c).appendDatetime))
      | .year => some (some (.int .bigint (api.valInt field c)))
      | .time | .time2 => some (some (.time (appendTime (api.getTime field c))))
      | .set | .enum | .bit | .geometry | .varchar | .string | .blob =>
          let tmp := api.valStr field c
          if field.isUuid then (db.uuidOf tmp).map fun u => some (.uuid u)
          else
            some (some (if isBlob cfg blobTypeMap field fieldIndex then .blob tmp else .string tmp))
      | _ => none

/-- DuckDB keeps an appended value in the type of the column. -/
def ColumnDb.appendTo : LogicalType → Appended F32 F64 U → Option (Stored F32 F64 U)
  | .int t, .int _ x => if t.InRange x then some (.int t x) else none
  | .float, .float x => some (.float x)
  | .double, .double x => some (.double x)
  | .decimal width scale, .decimal T x width' scale' =>
      if width' = width ∧ scale' = scale then some (.decimal width scale x)
      else db.convert (.decimal width scale) (.decimal T x width' scale')
  | .date, .date days => some (.date days)
  | .timestamp, .timestamp micros => some (.timestamp micros)
  | .timestampTz, .timestamp micros => some (.timestampTz micros)
  | .time, .time micros => some (.time micros)
  | .varchar, .string s => some (.varchar s)
  | .blob, .blob s => some (.blob s)
  | .uuid, .uuid u => some (.uuid u)
  | type, a => db.convert type a

/-- The value that a column gets for a field. -/
def appendColumn (blobTypeMap : Option (ℕ → Bool)) (field : Field) (fieldIndex : ℕ)
    (content : Option C) : Option (Option (Stored F32 F64 U)) :=
  match appendMysqlField cfg api db blobTypeMap field fieldIndex content with
  | none => none
  | some none => some none
  | some (some a) => ((columnType cfg field).bind fun type => db.appendTo type a).map some

/-- The loop of `append_row_insert` over the fields. -/
def appendColumns (blobTypeMap : Option (ℕ → Bool)) (fields : List Field)
    (record : List (Option C)) : Option (List (Option (Stored F32 F64 U))) :=
  (fields.zipIdx.zip record).mapM fun p => appendColumn cfg api db blobTypeMap p.1.1 p.1.2 p.2

end append

/-! ### Texts of DuckDB -/

/-- `Date::ToString` -/
def dateText (d : Date) : Text :=
  (if d.year = 0 then padded 4 1 else if d.year ≤ 9999 then padded 4 d.year else written d.year) ++
    '-' :: (padded 2 d.month ++
      '-' :: (padded 2 d.day ++ if d.year = 0 then " (BC)".toList else []))

/-- `Time::ToString` of a time of day: the zeros at the end of the microseconds are left out. -/
def timeText (micros : ℕ) : Text :=
  padded 2 (micros / 3600000000) ++ ':' :: (padded 2 (micros / 60000000 % 60) ++
    ':' :: (padded 2 (micros / 1000000 % 60) ++
      if micros % 1000000 = 0 then [] else '.' :: trimZeros (padded 6 (micros % 1000000))))

/-- The date with a number of days since 1970, from the year 0 on. -/
def dateOfDays (days : ℤ) : Option Date :=
  if days < -daysAtTimestart then none else some (Date.ofDayNumber (days + daysAtTimestart).toNat)

/-- `Timestamp::ToString` -/
def timestampText (micros : ℤ) : Option Text :=
  (dateOfDays (getDate micros)).map fun d =>
    dateText d ++ ' ' :: timeText (micros % 86400000000).toNat

/-- `Decimal::ToString`: a number without digits before the point begins with the point. -/
def decimalText (width scale : ℕ) (x : ℤ) : Text :=
  (if x < 0 then ['-'] else []) ++
    if scale = 0 then written x.natAbs
    else (if scale < width then written (x.natAbs / 10 ^ scale) else []) ++
      '.' :: padded scale x.natAbs

/-- `duckdb_value_as_string` -/
def ColumnDb.valueAsString (db : ColumnDb F32 F64 U) : Stored F32 F64 U → Text
  | .varchar s => s
  | .blob s => s
  | .uuid u => db.uuidText u
  | .int _ x => intText 0 x
  | .decimal width scale x => decimalText width scale x
  | .date days => ((dateOfDays days).map dateText).getD (db.text (.date days))
  | .timestamp micros => (timestampText micros).getD (db.text (.timestamp micros))
  | .timestampTz micros =>
      ((timestampText micros).map (· ++ "+00".toList)).getD (db.text (.timestampTz micros))
  | v => db.text v

/-! ### Texts that MariaDB reads -/

/-- What follows the character. -/
def after (c : Char) : Text → Option Text
  | [] => none
  | c' :: s => if c' = c then some s else none

/-- The microseconds: up to six digits behind a point. -/
def secondPartOf (s : Text) : ℕ :=
  ((after '.' s).map fun s => fraction 6 ((s.take 6).takeWhile Char.isDigit)).getD 0

/-- The time behind a date. -/
def clockOf (s : Text) : Option (ℕ × ℕ × ℕ × ℕ) := do
  let s ← after ' ' s
  let (hour, s) ← number 2 s
  let s ← after ':' s
  let (minute, s) ← number 2 s
  let s ← after ':' s
  let (second, s) ← number 2 s
  return (hour, minute, second, secondPartOf s)

/-- The value with these fields, if they are within their bounds and the month has the day. -/
def DateTimeValue.ofParts (year month day : ℕ) (clock : ℕ × ℕ × ℕ × ℕ) : Option DateTimeValue :=
  if h : (year ≤ 9999 ∧ month ≤ 12 ∧ day ≤ 31) ∧
      clock.1 < 24 ∧ clock.2.1 < 60 ∧ clock.2.2.1 < 60 ∧ clock.2.2.2 < 1000000 then
    if month = 0 ∨ day ≤ daysInMonth year month then
      some ⟨year, month, day, clock.1, clock.2.1, clock.2.2.1, clock.2.2.2, h.1.1, h.1.2.1, h.1.2.2,
        h.2.1, h.2.2.1, h.2.2.2.1, h.2.2.2.2⟩
    else none
  else none

def readDatetime (s : Text) : Option DateTimeValue := do
  let (year, s) ← number 4 s
  let s ← after '-' s
  let (month, s) ← number 2 s
  let s ← after '-' s
  let (day, s) ← number 2 s
  DateTimeValue.ofParts year month day ((clockOf s).getD (0, 0, 0, 0))

/-- `str_to_datetime_or_date` on texts of this form; an error leaves the zero date. -/
def strToDatetimeOrDate (s : Text) : DateTimeValue := (readDatetime s).getD zeroDate

/-- The number without a sign: digits, and digits behind a point. -/
def unsignedDecimal (s : Text) : ℚ :=
  let intDigits := s.takeWhile Char.isDigit
  let fracDigits :=
    ((after '.' (s.drop intDigits.length)).map (List.takeWhile Char.isDigit)).getD []
  value intDigits + value fracDigits / 10 ^ fracDigits.length

/-- The number that `Field_new_decimal::store` reads. -/
def strToDecimal (s : Text) : ℚ :=
  if s.head? = some '-' then -unsignedDecimal s.tail else unsignedDecimal s

/-! ### Storing -/

/-- `Field::type` of a field with a `real_type` -/
def FieldType.type : FieldType → FieldType
  | .enum | .set => .string
  | .timestamp2 => .timestamp
  | .datetime2 => .datetime
  | .time2 => .time
  | .newdate => .date
  | t => t

section store

variable (api : FieldApi C F64) (db : ColumnDb F32 F64 U)

/-- `GetValue` with an integer type -/
def ColumnDb.getIntValue (t : IntType) : Stored F32 F64 U → Option ℤ
  | .int _ x => if t.InRange x then some x else none
  | v => db.getInt t v

def ColumnDb.getFloatValue : Stored F32 F64 U → Option F32
  | .float x => some x
  | v => db.getFloat v

def ColumnDb.getDoubleValue : Stored F32 F64 U → Option F64
  | .double x => some x
  | v => db.getDouble v

/-- The value as `store_duckdb_time_in_mysql_format` looks at it. -/
def ColumnDb.timeOf : Stored F32 F64 U → DuckdbTime
  | .time micros => .time micros
  | v => .other (db.valueAsString v)

/-- The branch for a value that is not NULL; `none` is an exception. -/
def storeValue (field : Field) (value : Stored F32 F64 U) : Option C :=
  match field.realType.type with
  | .blob | .geometry | .bit => some (api.storeText field .bin (db.valueAsString value))
  | .varchar | .string | .varString =>
      if field.isUuid then some (api.storeText field .system (db.valueAsString value))
      else if field.charset.isSome then some (api.storeText field .own (db.valueAsString value))
      else some (api.storeText field .bin (db.valueAsString value))
  | .null | .decimal | .enum | .set | .newdecimal =>
      some (api.storeText field .system (db.valueAsString value))
  | .tiny | .year | .short | .int24 | .long =>
      (db.getIntValue .bigint value).map fun v => api.storeInt field v field.unsigned
  | .longlong =>
      if field.unsigned then
        (db.getIntValue .ubigint value).map fun v =>
          api.storeInt field (IntType.bigint.wrap v) field.unsigned
      else (db.getIntValue .bigint value).map fun v => api.storeInt field v field.unsigned
  | .float => (db.getFloatValue value).map fun v => api.storeReal field (db.widen v)
  | .double => (db.getDoubleValue value).map fun v => api.storeReal field v
  | .date | .newdate | .datetime | .datetime2 | .timestamp | .timestamp2 =>
      some (api.storeDate field (strToDatetimeOrDate (db.valueAsString value)))
  | .time | .time2 =>
      (storeDuckdbTimeInMysqlFormat api.strToDDhhmmssff (db.timeOf value)).map (api.storeTime field)
  | .other => none

/-- `store_duckdb_field_in_mysql_format`: the content of the field, `none` for NULL.  A field that
cannot be NULL gets its default. -/
def storeDuckdbFieldInMysqlFormat (field : Field) :
    Option (Stored F32 F64 U) → Option (Option C)
  | none => some (if field.notNull then some (api.default field) else none)
  | some value => (storeValue api db field value).map some

end store

end DuckdbEngine
