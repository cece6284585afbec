/-
The texts of a mixed batch, and how DuckDB executes them.

`Initialize` sends a script that creates the buffer table with the columns of the table
and three more.  The flush sends up to three texts: the two of the merge, which name the
columns, and the one that drops the buffer table.

DuckDB resolves the names of columns in the tables, without regard to case.  The buffer
table has the names of the table followed by those of the auxiliary columns, and its rows
have cells of three kinds.
-/
import DuckdbEngine.Convertor.DdlText
import DuckdbEngine.Lib.NamedTable
import DuckdbEngine.Runtime.DeltaAppender

namespace DuckdbEngine

open Sql NamedTable

variable {V : Type}

/-! ### The texts -/

/-- The names of the columns at the positions. -/
def namesAt (names : List Name) (is : List ℕ) : List Name := project [] is names

namespace DeltaAppender

def deleteFlagName : Name := "#mdb_delete_flag".toList

def rowNoName : Name := "#mdb_row_no".toList

def trxNoName : Name := "#mdb_trx_no".toList

/-- The columns that a buffer table has behind those of its table. -/
def auxNames : List Name := [deleteFlagName, rowNoName, trxNoName]

/-- A list of names in a text. -/
def nameList (names : List Name) : Text := joinWith ", ".toList (names.map quoteDuckdbIdentifier)

/-- The script of `Initialize`. -/
def initializeText (t : TableName) (tmpTableName : Name) : Text :=
  "CREATE TEMPORARY TABLE IF NOT EXISTS main.".toList ++ quoteDuckdbIdentifier tmpTableName ++
    " AS FROM ".toList ++ quoteDuckdbIdentifier t.dbName ++ ".".toList ++
    quoteDuckdbIdentifier t.tableName ++ " LIMIT 0;".toList ++
    "ALTER TABLE main.".toList ++ quoteDuckdbIdentifier tmpTableName ++
    " ADD COLUMN \"#mdb_delete_flag\" BOOL;".toList ++
    "ALTER TABLE main.".toList ++ quoteDuckdbIdentifier tmpTableName ++
    " ADD COLUMN \"#mdb_row_no\" INT;".toList ++
    "ALTER TABLE main.".toList ++ quoteDuckdbIdentifier tmpTableName ++
    " ADD COLUMN \"#mdb_trx_no\" INT;".toList

def appendLatestRowsQuery (ss selectList pkList : Text) (tableName : Name) : Text :=
  ss ++ "SELECT ".toList ++ selectList ++ " FROM main.".toList ++ quoteDuckdbIdentifier tableName ++
    " QUALIFY ROW_NUMBER() OVER (PARTITION BY ".toList ++ pkList ++
    " ORDER BY \"#mdb_row_no\" DESC) = 1 AND NOT \"#mdb_delete_flag\"".toList

def generateQueryText (t : TableName) (colList pkList : Text) (tmpTableName : Name)
    (deleteFlag : Bool) : Text :=
  let ss := "USE ".toList ++ quoteDuckdbIdentifier t.dbName ++ "; ".toList
  if !deleteFlag then
    let ss := ss ++ "INSERT INTO ".toList ++ quoteDuckdbIdentifier t.dbName ++ ".".toList ++
      quoteDuckdbIdentifier t.tableName ++ " ".toList
    appendLatestRowsQuery ss colList pkList tmpTableName ++ ";".toList
  else
    ss ++ "DELETE FROM ".toList ++ quoteDuckdbIdentifier t.dbName ++ ".".toList ++
      quoteDuckdbIdentifier t.tableName ++ " WHERE (".toList ++ pkList ++ ") IN (SELECT ".toList ++
      pkList ++ " FROM main.".toList ++ quoteDuckdbIdentifier tmpTableName ++
      " GROUP BY ".toList ++ pkList ++ ");".toList

/-- The last text of the flush. -/
def dropText (tmpTableName : Name) : Text :=
  "DROP TABLE main.".toList ++ quoteDuckdbIdentifier tmpTableName

def cleanupText (tmpTableName : Name) : Text :=
  "DROP TABLE IF EXISTS main.".toList ++ quoteDuckdbIdentifier tmpTableName ++ ";".toList

/-- The texts of the flush; `names` are the columns of the table. -/
def flushTexts (d : DeltaAppender V) (names : List Name) (idempotentFlag : Bool) : List Text :=
  let colList := nameList names
  let pkList := nameList (namesAt names d.pkList)
  let tmpTable := bufTableName d.name.dbName d.name.tableName
  (if d.hasDelete || idempotentFlag then
      [generateQueryText d.name colList pkList tmpTable true] else [])
    ++ (if d.hasInsert then [generateQueryText d.name colList pkList tmpTable false] else [])
    ++ [dropText tmpTable]

end DeltaAppender

/-! ### DuckDB's reading -/

/-- A statement about a buffer table as DuckDB reads it. -/
inductive ReadBuffer where
  | use (schema : Name)
  | createTemp (x : Name) (source : TableName)
  | addColumn (x column : Name) (type : List Token)
  /-- INSERT INTO with the rows of a SELECT that are the first ones of their partition and do not
  have the flag. -/
  | insertLatest (t : TableName) (columns : List Name) (x : Name) (partition : List Name)
      (order flag : Name)
  /-- DELETE FROM with the rows whose key is in a grouped SELECT. -/
  | deleteIn (t : TableName) (key columns : List Name) (x : Name) (groupBy : List Name)
  | dropTemp (x : Name)
  | dropTempIfExists (x : Name)
deriving DecidableEq

/-- What follows the tokens. -/
def afterTokens : List Token → List Token → Option (List Token)
  | [], ts => some ts
  | _ :: _, [] => none
  | w :: ws, t :: ts => if t = w then afterTokens ws ts else none

/-- Names separated by commas, and what follows them. -/
def readNames : List Token → List Name × List Token
  | .ident n :: .symbol c :: ts =>
      if c = [','] then (n :: (readNames ts).1, (readNames ts).2) else ([n], .symbol c :: ts)
  | .ident n :: ts => ([n], ts)
  | ts => ([], ts)

def dot : Token := .symbol ['.']

def readBufferUse (ts : List Token) : Option ReadBuffer :=
  match afterTokens [kw "USE"] ts with
  | some [.ident schema] => some (.use schema)
  | _ => none

def readCreateTemp (ts : List Token) : Option ReadBuffer :=
  match afterTokens [kw "CREATE", kw "TEMPORARY", kw "TABLE", kw "IF", kw "NOT", kw "EXISTS",
    kw "MAIN", dot] ts with
  | some (.ident x :: ts) =>
      match afterTokens [kw "AS", kw "FROM"] ts with
      | some (.ident schema :: .symbol s :: .ident table :: ts) =>
          if s = ['.'] ∧ ts = [kw "LIMIT", .number 0] then some (.createTemp x ⟨schema, table⟩)
          else none
      | _ => none
  | _ => none

def readAddColumn (ts : List Token) : Option ReadBuffer :=
  match afterTokens [kw "ALTER", kw "TABLE", kw "MAIN", dot] ts with
  | some (.ident x :: ts) =>
      match afterTokens [kw "ADD", kw "COLUMN"] ts with
      | some (.ident column :: type) => some (.addColumn x column type)
      | _ => none
  | _ => none

/-- The SELECT of the newest rows, behind the table that they are inserted into. -/
def readLatest (t : TableName) (ts : List Token) : Option ReadBuffer :=
  match afterTokens [kw "FROM", kw "MAIN", dot] (readNames ts).2 with
  | some (.ident x :: us) =>
      match afterTokens [kw "QUALIFY", kw "ROW_NUMBER", openParen, closeParen, kw "OVER", openParen,
        kw "PARTITION", kw "BY"] us with
      | some us =>
          match afterTokens [kw "ORDER", kw "BY"] (readNames us).2 with
          | some (.ident order :: vs) =>
              match afterTokens [kw "DESC", closeParen, .symbol ['='], .number 1, kw "AND",
                kw "NOT"] vs with
              | some [.ident flag] =>
                  some (.insertLatest t (readNames ts).1 x (readNames us).1 order flag)
              | _ => none
          | _ => none
      | none => none
  | _ => none

def readInsertLatest (ts : List Token) : Option ReadBuffer :=
  match afterTokens [kw "INSERT", kw "INTO"] ts with
  | some (.ident schema :: .symbol s :: .ident table :: ts) =>
      if s = ['.'] then (afterTokens [kw "SELECT"] ts).bind (readLatest ⟨schema, table⟩) else none
  | _ => none

/-- The condition of the DELETE, behind the table. -/
def readIn (t : TableName) (ts : List Token) : Option ReadBuffer :=
  match afterTokens [closeParen, kw "IN", openParen, kw "SELECT"] (readNames ts).2 with
  | some us =>
      match afterTokens [kw "FROM", kw "MAIN", dot] (readNames us).2 with
      | some (.ident x :: vs) =>
          match afterTokens [kw "GROUP", kw "BY"] vs with
          | some vs =>
              if (readNames vs).2 = [closeParen] then
                some (.deleteIn t (readNames ts).1 (readNames us).1 x (readNames vs).1)
              else none
          | none => none
      | _ => none
  | none => none

def readDeleteIn (ts : List Token) : Option ReadBuffer :=
  match afterTokens [kw "DELETE", kw "FROM"] ts with
  | some (.ident schema :: .symbol s :: .ident table :: ts) =>
      if s = ['.'] then (afterTokens [kw "WHERE", openParen] ts).bind (readIn ⟨schema, table⟩)
      else none
  | _ => none

def readDropTemp (ts : List Token) : Option ReadBuffer :=
  match afterTokens [kw "DROP", kw "TABLE", kw "MAIN", dot] ts with
  | some [.ident x] => some (.dropTemp x)
  | _ => none

def readDropTempIfExists (ts : List Token) : Option ReadBuffer :=
  match afterTokens [kw "DROP", kw "TABLE", kw "IF", kw "EXISTS", kw "MAIN", dot] ts with
  | some [.ident x] => some (.dropTempIfExists x)
  | _ => none

/-- The statement that the tokens are read as. -/
def readBuffer (ts : List Token) : Option ReadBuffer :=
  readBufferUse ts <|> readCreateTemp ts <|> readAddColumn ts <|> readInsertLatest ts <|>
    readDeleteIn ts <|> readDropTemp ts <|> readDropTempIfExists ts

/-! ### Cells -/

/-- A cell of a buffer table. -/
inductive BufCell (V : Type) where
  | val (v : Option V)
  | bool (b : Bool)
  | int (n : ℕ)
deriving DecidableEq

namespace BufCell

/-- The order of an INT column. -/
def lt : BufCell V → BufCell V → Bool
  | .int m, .int n => m < n
  | _, _ => false

/-- The value of a cell of the table's own columns. -/
def value : BufCell V → Option (Option V)
  | .val v => some v
  | _ => none

/-- Selected cells as a row of the table. -/
def rowOf (cells : List (BufCell V)) : Option (Row V) := cells.mapM BufCell.value

end BufCell

/-- The cells of a row of the table. -/
def Row.cells (r : Row V) : List (BufCell V) := r.map BufCell.val

/-- The cells of a row of the buffer table. -/
def BufRow.cells (r : BufRow V) : List (BufCell V) :=
  r.cols.map BufCell.val ++ [.bool r.isDelete, .int r.rowNo, .int (r.aux.elim 0 Aux.trxNo)]

/-! ### Execution -/

section Eval

variable [DecidableEq V]

/-- The rows of the SELECT with its QUALIFY, over a table with the columns `cols`. -/
def selectLatest (cols : List Name) (rows : List (List (BufCell V))) (columns partition : List Name)
    (order flag : Name) : Option (List (List (BufCell V))) :=
  (indexes foldCase cols columns).bind fun js =>
    (indexes foldCase cols partition).bind fun ps =>
      (index foldCase cols order).bind fun o =>
        (index foldCase cols flag).map fun f =>
          (rows.filter fun r => NamedTable.rowNumber (.val none) BufCell.lt ps o rows r = 1 ∧
            r.getD f (.val none) = .bool false).map (project (.val none) js)

/-- The row comparison of IN: NULL equals nothing. -/
def cellsEq (k k' : List (BufCell V)) : Bool := k = k' ∧ BufCell.val none ∉ k

/-- The keys of the grouped SELECT; what is selected has to be what is grouped by. -/
def groupedKeys (cols : List Name) (rows : List (List (BufCell V))) (columns groupBy : List Name) :
    Option (List (List (BufCell V))) :=
  if columns = groupBy then
    (indexes foldCase cols columns).map fun js => (rows.map (project (.val none) js)).dedup
  else none

/-- The effect of a statement, where `names` are the columns of the table. -/
def ReadBuffer.eval (names : List Name) (st : Store V) : ReadBuffer → Option (Store V)
  | .use _ => some st
  | .createTemp x _ =>
      (st.temps x).elim (some (st.setTemp x (some (.bare ⟨0, Nat.zero_lt_succ 2⟩))))
        fun _ => some st
  | .addColumn x column _ =>
      -- a column that is there already is an error
      (st.temps x).bind fun T =>
        match T, (DeltaAppender.auxNames.idxOf? column) with
        | .bare j, some i =>
            if i = j && (index foldCase names column).isNone then
              (T.addColumn j).map fun T => st.setTemp x (some T)
            else none
        | _, _ => none
  | .insertLatest t columns x partition order flag =>
      match st.temps x with
      | some (.ready rs) =>
          (selectLatest (names ++ DeltaAppender.auxNames) (rs.map BufRow.cells) columns partition
            order flag).bind fun rows =>
              (rows.mapM BufCell.rowOf).map fun rows =>
                st.setTable t (st.tables t + (rows : List (Row V)))
      | _ => none
  | .deleteIn t key columns x groupBy =>
      (st.temps x).bind fun T =>
        (indexes foldCase names key).bind fun ks =>
          (groupedKeys (names ++ DeltaAppender.auxNames) (T.rows.map BufRow.cells) columns
            groupBy).map fun keys =>
              st.setTable t ((st.tables t).filter fun r =>
                ∀ k ∈ keys, cellsEq (project (.val none) ks (Row.cells r)) k = false)
  | .dropTemp x => (st.temps x).map fun _ => st.setTemp x none
  | .dropTempIfExists x => some (st.setTemp x none)

/-- The effect of a text: the statements one after the other. -/
def execBufferText (names : List Name) (sql : Text) (st : Store V) : Option (Store V) :=
  (readScript readBuffer sql).bind fun script => script.foldlM (ReadBuffer.eval names) st

end Eval

end DuckdbEngine
