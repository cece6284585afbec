/-
Fields of a MariaDB table and their DuckDB columns.

`FieldConvertor` decides whether a field can be stored in DuckDB, which type its
column gets and which default.  The default of a field is a literal that the server
keeps in the default record of the table, or an expression whose text is found in the
table definition; an expression that draws from a MariaDB sequence is not forwarded.
-/
import DuckdbEngine.Convertor.DmlText

namespace DuckdbEngine

open Sql

/-- `cs_name` of a character set, as far as it is compared with a name. -/
inductive CsName where
  | utf8
  | utf8mb3
  | utf8mb4
  | ascii
  | other
deriving DecidableEq, Repr

/-- A character set with its collation. -/
structure Charset where
  csName : CsName
  /-- `MY_CS_BINSORT` -/
  binSort : Bool
  /-- `MY_CS_LOWER_SORT` -/
  lowerSort : Bool
  /-- `MY_CS_LEVEL_BIT_SECONDARY` of `levels_for_order` -/
  accentSensitive : Bool
  /-- `MY_CS_LEVEL_BIT_TERTIARY` of `levels_for_order` -/
  caseSensitive : Bool
deriving DecidableEq, Repr

def collationBinary : Text := "POSIX".toList
def collationNocase : Text := "NOCASE".toList
def collationNocaseNoaccent : Text := "NOCASE.NOACCENT".toList

def getDuckdbCollation (cs : Charset) : Text :=
  if cs.csName ≠ .utf8mb3 ∧ cs.csName ≠ .utf8mb4 ∧ cs.csName ≠ .ascii then collationBinary
  else if cs.binSort then collationBinary
  else if cs.lowerSort then collationNocase
  else if !cs.caseSensitive && !cs.accentSensitive then collationNocaseNoaccent
  else if !cs.caseSensitive then collationNocase
  else collationBinary

/-- `enum_field_types`; the codes without a case of their own are `other`. -/
inductive FieldType where
  | tiny | short | int24 | long | longlong
  | float | double | decimal | newdecimal
  | timestamp | timestamp2 | newdate | date | time | time2 | datetime | datetime2 | year
  | bit | geometry | null | set | enum
  | blob | string | varchar | varString
  | other
deriving DecidableEq, Repr

/-- `field_visibility_t` -/
inductive Visibility where
  | visible
  | invisibleUser
  | invisibleSystem
  | invisibleFull
deriving DecidableEq, Repr

/-- What the convertors read of a field. -/
structure Field where
  fieldName : Name
  realType : FieldType
  isUuid : Bool
  unsigned : Bool
  /-- The precision and scale of a decimal field. -/
  precision : ℕ
  dec : ℕ
  /-- The character set of a field that has one. -/
  charset : Option Charset
  invisible : Visibility
  notNull : Bool
  priKey : Bool
  noDefaultValue : Bool
  autoIncrement : Bool
  /-- The text of the default expression; it is empty if the text is not available. -/
  defaultExpr : Option Text
  /-- The value in the default record, `none` for NULL. -/
  defaultRecord : Option (List UInt8)
deriving DecidableEq

/-- The global settings that the convertors read. -/
structure Settings where
  useDoubleForDecimal : Bool
  requirePrimaryKey : Bool
  /-- `sortcmp` under the system character set finds a difference. -/
  sortcmp : List UInt8 → List UInt8 → Bool

/-- The errors that the convertors report. -/
inductive DdlError where
  /-- `ER_TABLE_CANT_HANDLE_AUTO_INCREMENT` -/
  | cantHandleAutoIncrement
  /-- `ER_ILLEGAL_HA_CREATE_OPTION` with the option -/
  | illegalCreateOption (notSupported : Text)
  /-- `ER_GET_ERRMSG` with "... is not supported. Try ... '...'" -/
  | notSupported (notSupported tryInstead : Text) (column : Name)
  /-- `ER_REQUIRES_PRIMARY_KEY` -/
  | requiresPrimaryKey
deriving DecidableEq

inductive DdlErrorContext where
  | alter
  | create
deriving DecidableEq, Repr

def reportDuckdbTableStructError (notSupported tryInstead : Text) (column : Name) :
    DdlErrorContext → DdlError
  | .create => .illegalCreateOption notSupported
  | .alter => .notSupported notSupported tryInstead column

/-! ### Defaults -/

def sequenceFuncs : List Text := ["nextval(".toList, "lastval(".toList, "setval(".toList]

/-- The text goes on with a call of `func` somewhere; `prev` is the character before it. -/
def hasCallFrom (func : Text) : Char → Text → Bool
  | _, [] => false
  | prev, c :: s =>
      ((c :: s).take func.length).map Char.toLower = func && !prev.isAlphanum && prev ≠ '_'
        || hasCallFrom func c s

def hasMariadbSequenceFunc (expr : Text) : Bool := sequenceFuncs.any fun f => hasCallFrom f ' ' expr

def getExprDefaultText (field : Field) : Text := field.defaultExpr.getD []

def isSequenceDefault (field : Field) : Bool := hasMariadbSequenceFunc (getExprDefaultText field)

/-- The default record's value as a literal. -/
def getFieldDefaultForDuckdb (field : Field) (castBit : Bool) : Text :=
  match field.defaultRecord with
  | none => "NULL".toList
  | some bytes =>
      if field.realType = .bit then
        squote :: hexBytes bytes ++ squote :: (if castBit then "::BLOB".toList else [])
      else squote :: double squote (bytes.map fun b => Char.ofNat b.toNat) ++ [squote]

/-! ### The convertor -/

/-- A column definition of CREATE TABLE. -/
structure ColumnDef where
  name : Name
  type : Text
  notNull : Bool
  default : Option Text

namespace FieldConvertor

def check (ctx : DdlErrorContext) (field : Field) : Option DdlError :=
  if field.autoIncrement && ctx ≠ .create then some .cantHandleAutoIncrement
  else if field.invisible ≠ .visible then
    some (reportDuckdbTableStructError "INVISIBLE column".toList
      "removing INVISIBLE from column".toList field.fieldName ctx)
  else
    match field.charset with
    | none => none
    | some cs =>
        if cs.csName = .other then
          some (reportDuckdbTableStructError "non-utf8 charset".toList
            "using utf8mb4 charset for column".toList field.fieldName ctx)
        else none

/-- The type without the collation, in lower case. -/
def baseType (cfg : Settings) (field : Field) : Text :=
  match field.realType with
  | .tiny => if field.unsigned then "utinyint".toList else "tinyint".toList
  | .short => if field.unsigned then "usmallint".toList else "smallint".toList
  | .int24 | .long => if field.unsigned then "uinteger".toList else "integer".toList
  | .longlong => if field.unsigned then "ubigint".toList else "bigint".toList
  | .float => "float".toList
  | .double => "double".toList
  | .decimal | .newdecimal =>
      if field.precision ≤ 38 then
        "decimal(".toList ++ natText field.precision ++ ",".toList ++ natText field.dec ++ ")".toList
      else if cfg.useDoubleForDecimal then "double".toList
      else "decimal(38,".toList ++ natText (min 38 field.dec) ++ ")".toList
  | .timestamp | .timestamp2 => "timestamptz".toList
  | .newdate | .date => "date".toList
  | .time | .time2 => "time".toList
  | .datetime | .datetime2 => "datetime".toList
  | .year => "integer".toList
  | .bit | .geometry => "blob".toList
  | .null => []
  | .set | .enum => "varchar".toList
  | .blob | .string | .varchar | .varString =>
      if field.charset.isSome then "varchar".toList else "blob".toList
  | .other => "__unknown_type".toList

def convertType (cfg : Settings) (field : Field) : Text :=
  if field.isUuid then "UUID".toList
  else
    let ret := baseType cfg field
    let ret :=
      match field.charset with
      | some cs =>
          if ret = "varchar".toList then ret ++ " COLLATE ".toList ++ getDuckdbCollation cs else ret
      | none => ret
    ret.map Char.toUpper

/-- The DEFAULT clause of a column definition.  The default record may not be set up yet when
a table is created. -/
def defaultClause (defaultValues : Bool) (field : Field) : Option Text :=
  if field.noDefaultValue || field.autoIncrement then none
  else
    match field.defaultExpr with
    | some expr =>
        if hasMariadbSequenceFunc expr then none
        else if expr.isEmpty then none
        else some ("(".toList ++ expr ++ ")".toList)
    | none =>
        if defaultValues then
          let literal := getFieldDefaultForDuckdb field true
          if literal = "NULL".toList then none else some literal
        else none

def translate (cfg : Settings) (defaultValues : Bool) (field : Field) : Option ColumnDef :=
  if field.invisible = .invisibleSystem ∨ field.invisible = .invisibleFull then none
  else
    some
      { name := field.fieldName
        type := convertType cfg field
        notNull := field.notNull
        default := defaultClause defaultValues field }

end FieldConvertor

end DuckdbEngine
