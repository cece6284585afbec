/-
The texts of the DML convertors.

`InsertConvertor`, `UpdateConvertor` and `DeleteConvertor` print a row operation as an
SQL statement: names as quoted identifiers, numbers as decimals, byte strings as blob
literals of hexadecimal escapes.  Lists are printed with a separator after each element,
and the last separator is cut off again.
-/
import Mathlib.Data.Nat.Digits.Defs
import DuckdbEngine.Handler.RowOps
import DuckdbEngine.Sql.Tokens

namespace DuckdbEngine

open Sql

/-- A value that is not NULL, as `append_field_value_to_sql` distinguishes it by the type of its
field. -/
inductive SqlValue where
  /-- A field of an integer type; with ZEROFILL the text is padded to the width. -/
  | integer (width : ℕ) (v : ℤ)
  /-- The text of a FLOAT, DOUBLE or DECIMAL. -/
  | numeric (text : Text)
  /-- The text of a date, a time stamp or a year. -/
  | temporal (text : Text)
  /-- A TIME in microseconds. -/
  | time (micros : ℤ)
  | uuid (text : Text)
  /-- Bytes for a BLOB column. -/
  | blob (bytes : List UInt8)
  /-- Bytes for a VARCHAR column. -/
  | varchar (bytes : List UInt8)
  | unsupported

/-! ### Numbers and bytes -/

def digitChar (d : ℕ) : Char := Char.ofNat (48 + d)

/-- The decimal digits of a number. -/
def natText (n : ℕ) : Text := if n = 0 then ['0'] else ((Nat.digits 10 n).map digitChar).reverse

/-- `Field::val_str` of an integer field. -/
def intText (width : ℕ) (v : ℤ) : Text :=
  if v < 0 then '-' :: natText v.natAbs
  else List.replicate (width - (natText v.natAbs).length) '0' ++ natText v.natAbs

/-- An upper case hexadecimal digit. -/
def hexDigit (n : ℕ) : Char := if n < 10 then Char.ofNat (48 + n) else Char.ofNat (55 + n)

/-- The escapes of the bytes, without the quotes. -/
def hexBytes (bytes : List UInt8) : Text :=
  bytes.flatMap fun b => [backslash, 'x', hexDigit (b.toNat / 16), hexDigit (b.toNat % 16)]

def toHex (bytes : List UInt8) : Text := squote :: hexBytes bytes ++ squote :: "::BLOB".toList

/-! ### The convertors -/

def appendQuotedIdentifier (query : Text) (name : Name) : Text :=
  query ++ (dquote :: double dquote name ++ [dquote])

def appendFieldValueToSql (query : Text) : Option SqlValue → Text
  | none => query ++ "NULL".toList
  | some (.integer width v) => query ++ intText width v
  | some (.numeric text) => query ++ text
  | some (.temporal text) => query ++ (squote :: text ++ [squote])
  | some (.time micros) => query ++ ("mariadb_time(".toList ++ intText 0 micros ++ ")".toList)
  | some (.uuid text) => query ++ (squote :: text ++ squote :: "::UUID".toList)
  | some (.blob bytes) => query ++ toHex bytes
  | some (.varchar bytes) => query ++ ("DECODE(".toList ++ toHex bytes ++ ")::VARCHAR".toList)
  | some .unsupported => query ++ "__ERROR__".toList

/-- `query.length(query.length() - n)`. -/
def cutEnd (n : ℕ) (query : Text) : Text := query.take (query.length - n)

/-- A loop that appends an element and a separator for each field. -/
def appendEach {ι : Type*} (sep : Text) (item : Text → ι → Text) (query : Text) (fields : List ι) :
    Text :=
  fields.foldl (fun q i => item q i ++ sep) query

inductive DmlKind where
  | insert
  | update
  | delete
deriving DecidableEq

/-- What a convertor reads: the table with the names of its fields, the write set, the record
with the new row and the one with the old row (for a DELETE without an old row, the same
record). -/
structure DmlConvertor where
  table : TableDef SqlValue
  fieldName : ℕ → Name
  name : TableName
  writeSet : ℕ → Bool
  record0 : Record SqlValue
  oldRow : Record SqlValue

namespace DmlConvertor

variable (x : DmlConvertor)

def writeFields : List ℕ := x.table.writeFields x.writeSet

def appendTableName (query : Text) : Text :=
  appendQuotedIdentifier (appendQuotedIdentifier query x.name.dbName ++ ['.']) x.name.tableName

/-- The value of a field of the new row. -/
def newValue (i : ℕ) : Option SqlValue := x.table.fieldVal x.record0 x.record0 i

/-- The value of a field of the old row, as `append_where_value` reads it. -/
def oldValue (i : ℕ) : Option SqlValue := x.table.fieldVal x.record0 x.oldRow i

def generatePrefix (query : Text) : DmlKind → Text
  | .insert => x.appendTableName (query ++ "INSERT INTO ".toList)
  | .update => x.appendTableName (query ++ "UPDATE ".toList) ++ " SET ".toList
  | .delete => x.appendTableName (query ++ "DELETE FROM ".toList)

/-- One `column = value`. -/
def appendAssignment (value : ℕ → Option SqlValue) (query : Text) (i : ℕ) : Text :=
  appendFieldValueToSql (appendQuotedIdentifier query (x.fieldName i) ++ " = ".toList) (value i)

def generateFieldsAndValues (query : Text) : DmlKind → Text
  | .insert =>
      let query :=
        if x.writeFields.isEmpty then query
        else
          cutEnd 2 (appendEach ", ".toList (fun q i => appendQuotedIdentifier q (x.fieldName i))
            (query ++ " (".toList) x.writeFields) ++ ")".toList
      cutEnd 2 (appendEach ", ".toList (fun q i => appendFieldValueToSql q (x.newValue i))
        (query ++ " VALUES (".toList) x.writeFields) ++ ")".toList
  | .update => cutEnd 2 (appendEach ", ".toList (x.appendAssignment x.newValue) query x.writeFields)
  | .delete => query

def generateWhereClause (query : Text) : DmlKind → Text
  | .insert => query
  | _ =>
      if x.table.indexFields.isEmpty then query
      else
        cutEnd 5 (appendEach " AND ".toList (x.appendAssignment x.oldValue)
          (query ++ " WHERE ".toList) x.table.indexFields)

def translate (kind : DmlKind) : Text :=
  x.generateWhereClause (x.generateFieldsAndValues (x.generatePrefix [] kind) kind) kind

end DmlConvertor

end DuckdbEngine
