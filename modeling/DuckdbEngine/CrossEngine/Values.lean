/-
The values that the two scans of an external table deliver.

The scan with the parent's handler reads a field by a switch over the types of
MariaDB, the one in a fiber reads an item by a switch over the types of DuckDB; both
store what they have read into a vector of the type that the field is mapped to.  An
item of the synthetic SELECT is the field of a second instance of the table, which is
open in the thread of the fiber, so its reading functions return the same as those of
the field, except that a text is rendered under the variables of another thread.

What DuckDB makes of texts is a parameter (`Duckdb`).  Its conversions between integer
types and those to TIME are part of the model: a text is stored into a TIME vector if
it is a time of day, and a TIME value with its microseconds.
-/
import DuckdbEngine.Convertor.Field

namespace DuckdbEngine.CrossEngine

/-! ### The types of DuckDB -/

inductive IntType where
  | tinyint | smallint | integer | bigint
  | utinyint | usmallint | uinteger | ubigint
deriving DecidableEq

namespace IntType

/-- The number of values. -/
def modulus : IntType → ℤ
  | tinyint | utinyint => 2 ^ 8
  | smallint | usmallint => 2 ^ 16
  | integer | uinteger => 2 ^ 32
  | bigint | ubigint => 2 ^ 64

/-- The number of negative values. -/
def offset : IntType → ℤ
  | tinyint => 2 ^ 7
  | smallint => 2 ^ 15
  | integer => 2 ^ 31
  | bigint => 2 ^ 63
  | _ => 0

def InRange (t : IntType) (x : ℤ) : Prop := -t.offset ≤ x ∧ x < t.modulus - t.offset

instance (t : IntType) (x : ℤ) : Decidable (t.InRange x) := inferInstanceAs (Decidable (_ ∧ _))

/-- The conversion of C++ to the type, as by `static_cast`. -/
def wrap (t : IntType) (x : ℤ) : ℤ := (x + t.offset) % t.modulus - t.offset

lemma wrap_of_inRange {t : IntType} {x : ℤ} (h : t.InRange x) : t.wrap x = x := by
  obtain ⟨hlo, hhi⟩ := h
  rw [wrap, Int.emod_eq_of_lt (by omega) (by omega), Int.add_sub_cancel]

/-- A conversion to 64 bits on the way is not noticed. -/
lemma wrap_wrap_bigint (t : IntType) (x : ℤ) : t.wrap (bigint.wrap x) = t.wrap x := by
  cases t <;> simp only [wrap, modulus, offset] <;> omega

lemma wrap_wrap_ubigint (t : IntType) (x : ℤ) : t.wrap (ubigint.wrap x) = t.wrap x := by
  cases t <;> simp only [wrap, modulus, offset] <;> omega

end IntType

/-- `duckdb::LogicalType`, as far as fields are mapped to it. -/
inductive LogicalType where
  | int (t : IntType)
  | float | double
  | decimal (width scale : ℕ)
  | date | time | timestamp | timestampTz
  | blob | varchar | uuid
deriving DecidableEq

def fieldToLogicalType (field : Field) : LogicalType :=
  match field.realType with
  | .tiny => .int (if field.unsigned then .utinyint else .tinyint)
  | .short => .int (if field.unsigned then .usmallint else .smallint)
  | .int24 | .long => .int (if field.unsigned then .uinteger else .integer)
  | .longlong => .int (if field.unsigned then .ubigint else .bigint)
  | .float => .float
  | .double => .double
  | .decimal | .newdecimal =>
      .decimal (if field.precision > 38 then 38 else field.precision) field.dec
  | .date | .newdate => .date
  | .time | .time2 => .time
  | .datetime | .datetime2 => .timestamp
  | .timestamp | .timestamp2 => .timestampTz
  | .year => .int .integer
  | .bit | .geometry => .blob
  | .blob => if field.charset.isSome then .varchar else .blob
  | .string | .varchar | .varString | .set | .enum => if field.isUuid then .uuid else .varchar
  | _ => .varchar

/-! ### What MariaDB holds in a field -/

/-- `MYSQL_TIME` of a TIME value. -/
structure TimeValue where
  neg : Bool
  hour : ℕ
  minute : ℕ
  second : ℕ
  secondPart : ℕ
deriving DecidableEq

/-- The microseconds, as the direct scan computes them. -/
def TimeValue.micros (tm : TimeValue) : ℤ :=
  let micros : ℤ := (tm.hour * 3600 + tm.minute * 60 + tm.second) * 1000000 + tm.secondPart
  if tm.neg then -micros else micros

/-- From 00:00:00 to 24:00:00. -/
def TimeValue.InDay (tm : TimeValue) : Prop := 0 ≤ tm.micros ∧ tm.micros ≤ 24 * 3600 * 1000000

instance (tm : TimeValue) : Decidable tm.InDay := inferInstanceAs (Decidable (_ ∧ _))

/-- A text that `val_str` renders: its bytes, or the text of a TIME value. -/
inductive SqlText where
  | chars (bytes : List UInt8)
  | time (tm : TimeValue)
deriving DecidableEq

/-- What the reading functions return of a field that is not NULL; the text may depend on the
variables of the thread that has the table open, such as the time zone. -/
structure Content (F64 Thd : Type) where
  /-- `val_int`, a signed number of 64 bits -/
  valInt : ℤ
  valReal : F64
  /-- `get_date` without flags -/
  getDate : TimeValue
  valStr : Thd → SqlText

variable {F32 F64 D Thd : Type}

def Content.valUint (c : Content F64 Thd) : ℤ := IntType.ubigint.wrap c.valInt

/-- The smallest and the largest value of the integer types of MariaDB, and of YEAR. -/
def intRange (isUnsigned : Bool) : FieldType → Option (ℤ × ℤ)
  | .tiny => some (if isUnsigned then (0, 2 ^ 8 - 1) else (-2 ^ 7, 2 ^ 7 - 1))
  | .short => some (if isUnsigned then (0, 2 ^ 16 - 1) else (-2 ^ 15, 2 ^ 15 - 1))
  | .int24 => some (if isUnsigned then (0, 2 ^ 24 - 1) else (-2 ^ 23, 2 ^ 23 - 1))
  | .long => some (if isUnsigned then (0, 2 ^ 32 - 1) else (-2 ^ 31, 2 ^ 31 - 1))
  | .longlong => some (if isUnsigned then (0, 2 ^ 64 - 1) else (-2 ^ 63, 2 ^ 63 - 1))
  | .year => some (0, 2155)
  | _ => none

def isTimeType (type : FieldType) : Bool := type = .time || type = .time2

/-- The types that both scans read as a text. -/
def isTextType (type : FieldType) : Bool :=
  (intRange false type).isNone && !isTimeType type && type ≠ .float && type ≠ .double

/-- Every type is read as a text, as a TIME value or as a number. -/
lemma reading_cases (isUnsigned : Bool) (type : FieldType) :
    (isTextType type = true ∧ isTimeType type = false) ∨
      (isTextType type = false ∧ isTimeType type = true) ∨
      (isTextType type = false ∧ isTimeType type = false ∧
        ((∃ lo hi, intRange isUnsigned type = some (lo, hi)) ∨
          type = .float ∨ type = .double)) := by
  cases isUnsigned <;> cases type <;> simp [isTextType, isTimeType, intRange]

/-- The field can hold the content: an integer within its range, a TIME value whose text says the
same, a text otherwise.  The fields of the type UUID are strings. -/
structure Holds (field : Field) (c : Content F64 Thd) : Prop where
  int : ∀ lo hi, intRange field.unsigned field.realType = some (lo, hi) →
    ∃ x, lo ≤ x ∧ x ≤ hi ∧ c.valInt = IntType.bigint.wrap x
  time : isTimeType field.realType = true → ∀ thd, c.valStr thd = .time c.getDate
  text : isTimeType field.realType = false → ∀ thd, ∃ bytes, c.valStr thd = .chars bytes
  uuid : field.isUuid = true → field.realType = .string

/-! ### Values of DuckDB -/

/-- `duckdb::Value` -/
inductive DuckdbValue (F32 F64 D : Type) where
  | null
  | int (t : IntType) (x : ℤ)
  | float (x : F32)
  | double (x : F64)
  | varchar (s : SqlText)
  | blob (bytes : List UInt8)
  | time (micros : ℤ)
  | uuid (d : D)

/-- What a vector holds at a position. -/
inductive Datum (F32 F64 D : Type) where
  | null
  | int (x : ℤ)
  | float (x : F32)
  | double (x : F64)
  | text (s : SqlText)
  | blob (bytes : List UInt8)
  | time (micros : ℤ)
  | other (d : D)
deriving DecidableEq

/-- The conversions of DuckDB that are not modelled; `none` is an exception. -/
structure Duckdb (F32 F64 D : Type) where
  /-- `Value::StringIsValid` -/
  stringIsValid : List UInt8 → Bool
  /-- `Value::BLOB` of a string, which reads escapes -/
  blobOfString : SqlText → Option (List UInt8)
  /-- `DefaultCastAs` -/
  cast : LogicalType → DuckdbValue F32 F64 D → Option D
  /-- The text of a UUID has ASCII characters only. -/
  stringIsValid_of_uuid : ∀ bytes, cast .uuid (.varchar (.chars bytes)) ≠ none →
    stringIsValid bytes = true

namespace Duckdb

variable (db : Duckdb F32 F64 D)

/-- `Value(std::string)` -/
def ofString : SqlText → Option (DuckdbValue F32 F64 D)
  | .chars bytes => if db.stringIsValid bytes then some (.varchar (.chars bytes)) else none
  | .time tm => some (.varchar (.time tm))

/-- `Value::BLOB(std::string)` -/
def blobValue (s : SqlText) : Option (DuckdbValue F32 F64 D) := (db.blobOfString s).map .blob

/-- `Value::UUID(std::string)` reads the text as the cast to UUID does. -/
def uuidValue (s : SqlText) : Option (DuckdbValue F32 F64 D) :=
  (db.cast .uuid (.varchar s)).map .uuid

/-- `Vector::SetValue` -/
def setValue : LogicalType → DuckdbValue F32 F64 D → Option (Datum F32 F64 D)
  | _, .null => some .null
  | .int t, .int t' x => if t' = t ∨ t.InRange x then some (.int x) else none
  | .float, .float x => some (.float x)
  | .double, .double x => some (.double x)
  | .varchar, .varchar s => some (.text s)
  | .blob, .blob bytes => some (.blob bytes)
  | .time, .time micros => some (.time micros)
  | .time, .varchar (.time tm) => if tm.InDay then some (.time tm.micros) else none
  | .uuid, .uuid d => some (.other d)
  | type, v => (db.cast type v).map .other

/-! ### The two switches -/

variable (narrow : F64 → F32) (thd : Thd)

def fieldToDuckdbValue (field : Field) (c : Content F64 Thd) : Option (DuckdbValue F32 F64 D) :=
  match field.realType with
  | .tiny | .short | .int24 | .long | .longlong | .year =>
      some (if field.unsigned then .int .ubigint c.valUint else .int .bigint c.valInt)
  | .float => some (.float (narrow c.valReal))
  | .double => some (.double c.valReal)
  | .decimal | .newdecimal => db.ofString (c.valStr thd)
  | .date | .newdate | .datetime | .datetime2 | .timestamp | .timestamp2 =>
      db.ofString (c.valStr thd)
  | .time | .time2 => some (.time c.getDate.micros)
  | .bit | .geometry => db.blobValue (c.valStr thd)
  | .blob =>
      if field.charset.isSome then db.ofString (c.valStr thd) else db.blobValue (c.valStr thd)
  | _ => if field.isUuid then db.uuidValue (c.valStr thd) else db.ofString (c.valStr thd)

def itemToDuckdbValue (c : Content F64 Thd) : LogicalType → Option (DuckdbValue F32 F64 D)
  | .int .tinyint => some (.int .tinyint (IntType.tinyint.wrap c.valInt))
  | .int .smallint => some (.int .smallint (IntType.smallint.wrap c.valInt))
  | .int .integer => some (.int .integer (IntType.integer.wrap c.valInt))
  | .int .bigint => some (.int .bigint c.valInt)
  | .int .utinyint => some (.int .utinyint (IntType.utinyint.wrap c.valUint))
  | .int .usmallint => some (.int .usmallint (IntType.usmallint.wrap c.valUint))
  | .int .uinteger => some (.int .uinteger (IntType.uinteger.wrap c.valUint))
  | .int .ubigint => some (.int .ubigint c.valUint)
  | .float => some (.float (narrow c.valReal))
  | .double => some (.double c.valReal)
  | .blob => db.blobValue (c.valStr thd)
  | _ => db.ofString (c.valStr thd)

/-- What the scan with the parent's handler stores; a field that is NULL has no content. -/
def directDatum (field : Field) : Option (Content F64 Thd) → Option (Datum F32 F64 D)
  | none => db.setValue (fieldToLogicalType field) .null
  | some c =>
      (db.fieldToDuckdbValue narrow thd field c).bind (db.setValue (fieldToLogicalType field))

/-- What the scan in a fiber stores. -/
def fiberDatum (field : Field) : Option (Content F64 Thd) → Option (Datum F32 F64 D)
  | none => db.setValue (fieldToLogicalType field) .null
  | some c =>
      (db.itemToDuckdbValue narrow thd c (fieldToLogicalType field)).bind
        (db.setValue (fieldToLogicalType field))

/-! ### Integers -/

section

variable {db : Duckdb F32 F64 D} {narrow : F64 → F32} {thd : Thd} {field : Field}
  {c : Content F64 Thd} {x lo hi : ℤ}

lemma itemToDuckdbValue_int (hx : c.valInt = IntType.bigint.wrap x) (t : IntType) :
    db.itemToDuckdbValue narrow thd c (.int t) = some (.int t (t.wrap x)) := by
  cases t <;>
    simp [itemToDuckdbValue, Content.valUint, hx, IntType.wrap_wrap_bigint,
      IntType.wrap_wrap_ubigint]

/-- An integer field is mapped to a type that has all its values, and the direct scan reads it
into a type that has them, too. -/
lemma intRange_spec (h : intRange field.unsigned field.realType = some (lo, hi)) (hlo : lo ≤ x)
    (hhi : x ≤ hi) :
    (∃ t : IntType, fieldToLogicalType field = .int t ∧ t.InRange x) ∧
      if field.unsigned then IntType.ubigint.InRange x else IntType.bigint.InRange x := by
  cases hty : field.realType <;> cases hu : field.unsigned <;>
    simp only [intRange, hty, hu, reduceCtorEq, Option.some.injEq, Prod.mk.injEq, if_true,
      Bool.false_eq_true, if_false] at h <;>
    obtain ⟨rfl, rfl⟩ := h <;>
    simp only [fieldToLogicalType, hty, hu, if_true, Bool.false_eq_true, if_false,
      LogicalType.int.injEq, exists_eq_left', IntType.InRange, IntType.offset, IntType.modulus] <;>
    omega

lemma fieldToDuckdbValue_int (h : intRange field.unsigned field.realType = some (lo, hi)) :
    db.fieldToDuckdbValue narrow thd field c =
      some (if field.unsigned then .int .ubigint c.valUint else .int .bigint c.valInt) := by
  cases hty : field.realType <;> simp [intRange, hty] at h <;> simp [fieldToDuckdbValue, hty]

/-- Both scans store an integer as it is. -/
lemma datum_int (hc : Holds field c)
    (h : intRange field.unsigned field.realType = some (lo, hi)) (session background : Thd) :
    ∃ x, db.directDatum narrow session field (some c) = some (.int x) ∧
      db.fiberDatum narrow background field (some c) = some (.int x) := by
  obtain ⟨x, hlo, hhi, hx⟩ := hc.int lo hi h
  obtain ⟨⟨t, ht, hin⟩, hwide⟩ := intRange_spec h hlo hhi
  refine ⟨x, ?_, ?_⟩
  · rw [directDatum, fieldToDuckdbValue_int h, ht, Content.valUint, hx, IntType.wrap_wrap_bigint]
    split at hwide
    · next hu => simp [hu, IntType.wrap_of_inRange hwide, setValue, hin]
    · next hu => simp [hu, IntType.wrap_of_inRange hwide, setValue, hin]
  · rw [fiberDatum, ht, itemToDuckdbValue_int hx, IntType.wrap_of_inRange hin]
    simp [setValue]

/-! ### Times of day -/

lemma directDatum_time (h : isTimeType field.realType = true) :
    db.directDatum narrow thd field (some c) = some (.time c.getDate.micros) := by
  cases hty : field.realType <;> simp [isTimeType, hty] at h <;>
    simp [directDatum, fieldToDuckdbValue, fieldToLogicalType, hty, setValue]

lemma fiberDatum_time (hc : Holds field c) (h : isTimeType field.realType = true) :
    db.fiberDatum narrow thd field (some c) =
      if c.getDate.InDay then some (.time c.getDate.micros) else none := by
  have hstr := hc.time h thd
  cases hty : field.realType <;> simp [isTimeType, hty] at h <;>
    simp [fiberDatum, itemToDuckdbValue, fieldToLogicalType, hty, hstr, ofString, setValue]

/-! ### Texts -/

/-- The text `s` stored into a vector of the type of the field. -/
def deliver (db : Duckdb F32 F64 D) (field : Field) (s : SqlText) : Option (Datum F32 F64 D) :=
  if fieldToLogicalType field = .blob then (db.blobOfString s).map .blob
  else (db.ofString s).bind (db.setValue (fieldToLogicalType field))

lemma blobValue_bind_setValue (s : SqlText) :
    (db.blobValue s).bind (db.setValue .blob) = (db.blobOfString s).map .blob := by
  cases hb : db.blobOfString s <;> simp [blobValue, hb, setValue]

/-- A text that is read as a UUID at once and one that is cast to it give the same. -/
lemma uuidValue_bind_setValue (bytes : List UInt8) :
    (db.uuidValue (.chars bytes)).bind (db.setValue .uuid) =
      (db.ofString (.chars bytes)).bind (db.setValue .uuid) := by
  rw [uuidValue, ofString]
  cases hd : db.cast .uuid (.varchar (.chars bytes)) with
  | none => split <;> simp [setValue, hd]
  | some d =>
      rw [if_pos (db.stringIsValid_of_uuid bytes (by simp [hd]))]
      simp [setValue, hd]

/-- For a field that is read as a text, the switch over the types of MariaDB follows the type it
is mapped to. -/
lemma fieldToDuckdbValue_text (huuid : field.isUuid = true → field.realType = .string)
    (h : isTextType field.realType = true) :
    db.fieldToDuckdbValue narrow thd field c =
      if fieldToLogicalType field = .blob then db.blobValue (c.valStr thd)
      else if fieldToLogicalType field = .uuid then db.uuidValue (c.valStr thd)
      else db.ofString (c.valStr thd) := by
  by_cases hu : field.isUuid = true
  · simp [fieldToDuckdbValue, fieldToLogicalType, huuid hu, hu]
  · cases hty : field.realType <;> simp [isTextType, isTimeType, intRange, hty] at h <;>
      cases hcs : field.charset.isSome <;>
      simp [fieldToDuckdbValue, fieldToLogicalType, hty, hu, hcs]

lemma itemToDuckdbValue_text (h : isTextType field.realType = true) :
    db.itemToDuckdbValue narrow thd c (fieldToLogicalType field) =
      if fieldToLogicalType field = .blob then db.blobValue (c.valStr thd)
      else db.ofString (c.valStr thd) := by
  cases hty : field.realType <;> simp [isTextType, isTimeType, intRange, hty] at h <;>
    cases hu : field.isUuid <;> cases hcs : field.charset.isSome <;>
    simp [itemToDuckdbValue, fieldToLogicalType, hty, hu, hcs]

lemma directDatum_text (hc : Holds field c) (h : isTextType field.realType = true) :
    db.directDatum narrow thd field (some c) = db.deliver field (c.valStr thd) := by
  have htime : isTimeType field.realType = false := by
    simp only [isTextType, Bool.and_eq_true, Bool.not_eq_true'] at h
    exact h.1.1.2
  obtain ⟨bytes, hstr⟩ := hc.text htime thd
  rw [directDatum, fieldToDuckdbValue_text hc.uuid h, deliver, hstr]
  split
  · next hblob => rw [hblob, blobValue_bind_setValue]
  · split
    · next huuid => rw [huuid, uuidValue_bind_setValue]
    · rfl

lemma fiberDatum_text (h : isTextType field.realType = true) :
    db.fiberDatum narrow thd field (some c) = db.deliver field (c.valStr thd) := by
  rw [fiberDatum, itemToDuckdbValue_text h, deliver]
  split
  · next hblob => rw [hblob, blobValue_bind_setValue]
  · rfl

end

/-! ### Both scans -/

/-- A column of an external table is read alike by both scans exactly if a TIME value is a time
of day and a text, rendered in the thread of the session and in that of the fiber, is stored
as the same value or refused both times. -/
theorem modes_agree_iff (db : Duckdb F32 F64 D) (narrow : F64 → F32) (session background : Thd)
    (field : Field) (c : Option (Content F64 Thd)) (hc : ∀ x ∈ c, Holds field x) :
    db.directDatum narrow session field c = db.fiberDatum narrow background field c ↔
      ∀ x ∈ c, (isTimeType field.realType = true → x.getDate.InDay) ∧
        (isTextType field.realType = true →
          db.deliver field (x.valStr session) = db.deliver field (x.valStr background)) := by
  cases c with
  | none => simp [directDatum, fiberDatum]
  | some c =>
      have hc := hc c rfl
      simp only [Option.mem_some_iff, forall_eq']
      rcases reading_cases field.unsigned field.realType with
        ⟨htext, htime⟩ | ⟨htext, htime⟩ | ⟨htext, htime, hnum⟩
      · rw [directDatum_text hc htext, fiberDatum_text htext]
        simp [htext, htime]
      · rw [directDatum_time htime, fiberDatum_time hc htime]
        simp [htext, htime, eq_comm]
      · simp only [htext, htime, Bool.false_eq_true, false_imp_iff, and_self, iff_true]
        rcases hnum with ⟨lo, hi, h⟩ | h | h
        · obtain ⟨x, hdirect, hfiber⟩ := datum_int hc h session background
          rw [hdirect, hfiber]
        · simp [directDatum, fiberDatum, fieldToDuckdbValue, itemToDuckdbValue,
            fieldToLogicalType, h]
        · simp [directDatum, fiberDatum, fieldToDuckdbValue, itemToDuckdbValue,
            fieldToLogicalType, h]

/-- A TIME column. -/
def timeField : Field where
  fieldName := "t".toList
  realType := .time2
  isUuid := false
  unsigned := false
  precision := 0
  dec := 0
  charset := none
  invisible := .visible
  notNull := false
  priKey := false
  noDefaultValue := false
  autoIncrement := false
  defaultExpr := none
  defaultRecord := none

/-- The content of a TIME column. -/
def timeContent (tm : TimeValue) : Content Unit Unit := ⟨0, (), tm, fun _ => .time tm⟩

lemma holds_timeContent (tm : TimeValue) : Holds timeField (timeContent tm) where
  int := nofun
  time := fun _ _ => rfl
  text := nofun
  uuid := nofun

/-- A DuckDB that casts no texts. -/
def plainDuckdb : Duckdb Unit Unit Unit := ⟨fun _ => true, fun _ => none, fun _ _ => none, nofun⟩

theorem modes_agree_of_endOfDay :
    plainDuckdb.directDatum id () timeField (some (timeContent ⟨false, 24, 0, 0, 0⟩)) =
      plainDuckdb.fiberDatum id () timeField (some (timeContent ⟨false, 24, 0, 0, 0⟩)) := by
  refine (modes_agree_iff plainDuckdb id () () timeField _ ?_).2 ?_
  · rintro x ⟨⟩
    exact holds_timeContent _
  · rintro x ⟨⟩
    exact ⟨fun _ => by decide, nofun⟩

/-- `-01:00:00` and `25:00:00`: the direct scan stores them, the scan in a fiber raises an
error. -/
theorem modes_differ_outside_of_day :
    (plainDuckdb.directDatum id () timeField (some (timeContent ⟨true, 1, 0, 0, 0⟩)) =
        some (.time (-3600000000)) ∧
      plainDuckdb.fiberDatum id () timeField (some (timeContent ⟨true, 1, 0, 0, 0⟩)) = none) ∧
    (plainDuckdb.directDatum id () timeField (some (timeContent ⟨false, 25, 0, 0, 0⟩)) =
        some (.time 90000000000) ∧
      plainDuckdb.fiberDatum id () timeField (some (timeContent ⟨false, 25, 0, 0, 0⟩)) = none) := by
  refine ⟨⟨rfl, rfl⟩, rfl, rfl⟩

end Duckdb

end DuckdbEngine.CrossEngine
