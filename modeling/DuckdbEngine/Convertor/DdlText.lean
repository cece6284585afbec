/-
The texts of the DDL convertors, and how DuckDB reads them.

The convertors of ALTER TABLE print one statement after another; each one selects the
schema and changes the table.  `CreateTableConvertor` prints a script that creates the
schema, the sequence of an AUTO_INCREMENT column and the table.

DuckDB reads names, and for types and defaults sequences of tokens.  A column definition
is split at the commas outside of parentheses, and its parts are found by their keywords.
-/
import DuckdbEngine.Convertor.Alter
import DuckdbEngine.Convertor.SequenceNames
import DuckdbEngine.Sql.Scripts

namespace DuckdbEngine

open Sql

/-! ### ALTER TABLE -/

def appendStmtAlterTable (output : Text) (t : TableName) : Text :=
  output ++ "USE ".toList ++ quoteDuckdbIdentifier t.dbName ++ ";".toList ++
    "ALTER TABLE ".toList ++ quoteDuckdbIdentifier t.tableName

def appendStmtColumnAdd (output : Text) (t : TableName) (column : Name) (type : Text)
    (default : Option Text) : Text :=
  appendStmtAlterTable output t ++ " ADD COLUMN ".toList ++ quoteDuckdbIdentifier column ++
    " ".toList ++ type ++ (default.elim [] fun d => " DEFAULT ".toList ++ d) ++ ";".toList

def appendStmtColumnDrop (output : Text) (t : TableName) (column : Name) : Text :=
  appendStmtAlterTable output t ++ " DROP COLUMN ".toList ++ quoteDuckdbIdentifier column ++
    ";".toList

def appendStmtColumnChangeType (output : Text) (t : TableName) (column : Name) (type : Text) :
    Text :=
  appendStmtAlterTable output t ++ " ALTER COLUMN ".toList ++ quoteDuckdbIdentifier column ++
    " SET DATA TYPE ".toList ++ type ++ ";".toList

def appendStmtColumnRename (output : Text) (t : TableName) (old new : Name) : Text :=
  appendStmtAlterTable output t ++ " RENAME COLUMN ".toList ++ quoteDuckdbIdentifier old ++
    " TO ".toList ++ quoteDuckdbIdentifier new ++ ";".toList

def appendStmtColumnSetDefault (output : Text) (t : TableName) (column : Name) (value : Text) :
    Text :=
  appendStmtAlterTable output t ++ " ALTER COLUMN ".toList ++ quoteDuckdbIdentifier column ++
    " SET DEFAULT ".toList ++ value ++ ";".toList

/-- The three changes of a column that have no argument. -/
def appendStmtColumnOp (op : Text) (output : Text) (t : TableName) (column : Name) : Text :=
  appendStmtAlterTable output t ++ " ALTER COLUMN ".toList ++ quoteDuckdbIdentifier column ++ op ++
    ";".toList

def appendStmtColumnDropDefault : Text → TableName → Name → Text :=
  appendStmtColumnOp " DROP DEFAULT".toList

def appendStmtColumnSetNotNull : Text → TableName → Name → Text :=
  appendStmtColumnOp " SET NOT NULL".toList

def appendStmtColumnDropNotNull : Text → TableName → Name → Text :=
  appendStmtColumnOp " DROP NOT NULL".toList

def appendStmtTableRename (output : Text) (t : TableName) (new : Name) : Text :=
  appendStmtAlterTable output t ++ " RENAME TO ".toList ++ quoteDuckdbIdentifier new ++ ";".toList

/-- The text of a change. -/
def AlterStmt.append (t : TableName) (output : Text) : AlterStmt → Text
  | .columnAdd n type default => appendStmtColumnAdd output t n type default
  | .columnDrop n => appendStmtColumnDrop output t n
  | .columnRename o n => appendStmtColumnRename output t o n
  | .columnChangeType n type => appendStmtColumnChangeType output t n type
  | .columnAlter n (.setDefault value) => appendStmtColumnSetDefault output t n value
  | .columnAlter n .dropDefault => appendStmtColumnDropDefault output t n
  | .columnAlter n .setNotNull => appendStmtColumnSetNotNull output t n
  | .columnAlter n .dropNotNull => appendStmtColumnDropNotNull output t n

/-- The text of a convertor. -/
def AlterTableConvertor.text (t : TableName) (c : AlterTableConvertor) : Text :=
  c.translate.foldl (AlterStmt.append t) []

/-- The texts that `commit_inplace_alter_table` executes; an empty one is left out. -/
def AlterInplaceInfo.texts (cfg : Settings) (t : TableName) (a : AlterInplaceInfo) : List Text :=
  ((a.convertors cfg).map (AlterTableConvertor.text t)).filter fun sql => !sql.isEmpty

/-! ### CREATE TABLE -/

/-- The text of a column definition. -/
def FieldConvertor.translateText (cfg : Settings) (defaultValues : Bool) (field : Field) : Text :=
  match FieldConvertor.translate cfg defaultValues field with
  | none => []
  | some c =>
      quoteDuckdbIdentifier c.name ++ " ".toList ++ c.type ++
        (if c.notNull then " NOT NULL".toList else []) ++
        (c.default.elim [] fun d => " DEFAULT ".toList ++ d)

namespace CreateTableConvertor

/-- The loop over the fields; the comma stands before all but the first one. -/
def appendColumnDefinition (cfg : Settings) (defaultValues : Bool) (name : TableName) :
    Bool → Text → List Field → Text
  | _, output, [] => output
  | first, output, field :: fields =>
      let output := if first then output else output ++ ",".toList
      let output := output ++ FieldConvertor.translateText cfg defaultValues field
      let output :=
        if field.autoIncrement then output ++ " DEFAULT ".toList ++ autoincNextvalExpr name
        else output
      appendColumnDefinition cfg defaultValues name false output fields

/-- The first value of the sequence: an `int64` that is not 0. -/
def sequenceStart (autoIncrementValue : ℕ) : ℕ :=
  let start := if autoIncrementValue = 0 then 1 else autoIncrementValue
  if 9223372036854775807 < start then 9223372036854775807 else start

def translate (cfg : Settings) (defaultValues : Bool) (name : TableName) (autoIncrementValue : ℕ)
    (fields : List Field) : Text :=
  let result := "CREATE SCHEMA IF NOT EXISTS ".toList ++ quoteDuckdbIdentifier name.dbName ++
    ";".toList
  let result := result ++ "USE ".toList ++ quoteDuckdbIdentifier name.dbName ++ ";".toList
  let result :=
    if fields.any Field.autoIncrement then
      result ++ "CREATE SEQUENCE IF NOT EXISTS ".toList ++ quoteDuckdbIdentifier name.dbName ++
        ".".toList ++ quoteDuckdbIdentifier (autoincSequenceName name.tableName) ++
        " START WITH ".toList ++ natText (sequenceStart autoIncrementValue) ++ ";".toList
    else result
  let result := result ++ "CREATE TABLE ".toList ++ "IF NOT EXISTS ".toList ++
    quoteDuckdbIdentifier name.tableName ++ " (".toList
  appendColumnDefinition cfg defaultValues name true result fields ++ ");".toList

end CreateTableConvertor

/-! ### DuckDB's reading -/

/-- A column definition as DuckDB reads it. -/
structure ReadColumn where
  name : Name
  type : List Token
  notNull : Bool
  default : Option (List Token)
deriving DecidableEq

/-- A change of a table as DuckDB reads it. -/
inductive ReadChange where
  | columnAdd (column : Name) (type : List Token) (default : Option (List Token))
  | columnDrop (column : Name)
  | columnRename (old new : Name)
  | columnChangeType (column : Name) (type : List Token)
  | setDefault (column : Name) (value : List Token)
  | dropDefault (column : Name)
  | setNotNull (column : Name)
  | dropNotNull (column : Name)
  | tableRename (new : Name)
deriving DecidableEq

inductive ReadDdl where
  | use (schema : Name)
  | createSchema (schema : Name)
  | createSequence (name : TableName) (start : ℕ)
  | createTable (table : Name) (columns : List ReadColumn)
  | alterTable (table : Name) (change : ReadChange)
  | truncate (table : Name)
  | dropTable (name : TableName)
  | dropSequence (name : TableName)
deriving DecidableEq

def kw (w : String) : Token := .word w.toList

/-- What follows the keywords. -/
def afterKeywords : List String → List Token → Option (List Token)
  | [], ts => some ts
  | _ :: _, [] => none
  | w :: ws, t :: ts => if t = kw w then afterKeywords ws ts else none

def readUse (ts : List Token) : Option ReadDdl :=
  match afterKeywords ["USE"] ts with
  | some [.ident schema] => some (.use schema)
  | _ => none

def readCreateSchema (ts : List Token) : Option ReadDdl :=
  match afterKeywords ["CREATE", "SCHEMA", "IF", "NOT", "EXISTS"] ts with
  | some [.ident schema] => some (.createSchema schema)
  | _ => none

def readCreateSequence (ts : List Token) : Option ReadDdl :=
  match afterKeywords ["CREATE", "SEQUENCE", "IF", "NOT", "EXISTS"] ts with
  | some [.ident schema, .symbol dot, .ident name, start, within, .number n] =>
      if dot = ['.'] ∧ start = kw "START" ∧ within = kw "WITH" then
        some (.createSequence ⟨schema, name⟩ n)
      else none
  | _ => none

/-- A type, and the default behind the keyword. -/
def readTypeDefault (ts : List Token) : List Token × Option (List Token) :=
  (ts.takeWhile (· ≠ kw "DEFAULT"),
    match ts.dropWhile (· ≠ kw "DEFAULT") with
    | [] => none
    | _ :: value => some value)

def readColumn : List Token → Option ReadColumn
  | .ident name :: ts =>
      let type := ts.takeWhile fun t => t ≠ kw "NOT" ∧ t ≠ kw "DEFAULT"
      let ts := ts.drop type.length
      match afterKeywords ["NOT", "NULL"] ts with
      | some rest =>
          some ⟨name, type, true, afterKeywords ["DEFAULT"] rest⟩
      | none => some ⟨name, type, false, afterKeywords ["DEFAULT"] ts⟩
  | _ => none

def openParen : Token := .symbol ['(']
def closeParen : Token := .symbol [')']
def comma : Token := .symbol [',']

/-- The nesting of parentheses behind a token. -/
def depthAfter (depth : ℕ) (t : Token) : ℕ :=
  if t = openParen then depth + 1 else if t = closeParen then depth - 1 else depth

/-- The parts between the commas outside of parentheses. -/
def splitTop : ℕ → List Token → List (List Token)
  | _, [] => [[]]
  | depth, t :: ts =>
      if t = comma ∧ depth = 0 then [] :: splitTop 0 ts
      else (splitTop (depthAfter depth t) ts).modifyHead (t :: ·)

def readCreateTable (ts : List Token) : Option ReadDdl :=
  match afterKeywords ["CREATE", "TABLE", "IF", "NOT", "EXISTS"] ts with
  | some (.ident table :: paren :: body) =>
      if paren = openParen ∧ body.getLast? = some closeParen then
        ((splitTop 0 body.dropLast).mapM readColumn).map (.createTable table)
      else none
  | _ => none

/-- The part of ALTER TABLE behind the table. -/
def readChange : List Token → Option ReadChange
  | .word a :: .word b :: .ident column :: ts =>
      if kw "ADD" = .word a ∧ kw "COLUMN" = .word b then
        some (.columnAdd column (readTypeDefault ts).1 (readTypeDefault ts).2)
      else if kw "DROP" = .word a ∧ kw "COLUMN" = .word b then
        if ts = [] then some (.columnDrop column) else none
      else if kw "RENAME" = .word a ∧ kw "COLUMN" = .word b then
        match afterKeywords ["TO"] ts with
        | some [.ident new] => some (.columnRename column new)
        | _ => none
      else if kw "RENAME" = .word a ∧ kw "TO" = .word b then
        if ts = [] then some (.tableRename column) else none
      else if kw "ALTER" = .word a ∧ kw "COLUMN" = .word b then
        if ts = [kw "DROP", kw "DEFAULT"] then some (.dropDefault column)
        else if ts = [kw "SET", kw "NOT", kw "NULL"] then some (.setNotNull column)
        else if ts = [kw "DROP", kw "NOT", kw "NULL"] then some (.dropNotNull column)
        else
          match afterKeywords ["SET", "DATA", "TYPE"] ts with
          | some type => some (.columnChangeType column type)
          | none => (afterKeywords ["SET", "DEFAULT"] ts).map (.setDefault column)
      else none
  | _ => none

def readAlterTable (ts : List Token) : Option ReadDdl :=
  match afterKeywords ["ALTER", "TABLE"] ts with
  | some (.ident table :: ts) => (readChange ts).map (.alterTable table)
  | _ => none

def readTruncate (ts : List Token) : Option ReadDdl :=
  match afterKeywords ["TRUNCATE", "TABLE"] ts with
  | some [.ident table] => some (.truncate table)
  | _ => none

def readDropTable (ts : List Token) : Option ReadDdl :=
  match afterKeywords ["DROP", "TABLE", "IF", "EXISTS"] ts with
  | some [.ident schema, .symbol dot, .ident name] =>
      if dot = ['.'] then some (.dropTable ⟨schema, name⟩) else none
  | _ => none

def readDropSequence (ts : List Token) : Option ReadDdl :=
  match afterKeywords ["DROP", "SEQUENCE", "IF", "EXISTS"] ts with
  | some [.ident schema, .symbol dot, .ident name] =>
      if dot = ['.'] then some (.dropSequence ⟨schema, name⟩) else none
  | _ => none

/-- The statement that the tokens are read as. -/
def readDdl (ts : List Token) : Option ReadDdl :=
  readUse ts <|> readCreateSchema ts <|> readCreateSequence ts <|> readCreateTable ts <|>
    readAlterTable ts <|> readTruncate ts <|> readDropTable ts <|> readDropSequence ts

end DuckdbEngine
