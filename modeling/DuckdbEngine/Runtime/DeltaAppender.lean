/-
The batch code: row changes are buffered per table and merged on flush.

A `DeltaAppender` buffers the row changes of one table.  In an insert-only batch it
appends the rows to the table itself.  In a mixed batch it writes to a temporary
buffer table: an inserted row as it is, a deleted row as a marker that holds the
key, and an updated row as the marker of the old key followed by the new row; the
rows are numbered.  The flush of a mixed batch deletes from the table every row
whose key occurs in the buffer table, inserts the newest row of each key unless it
is a marker, and drops the buffer table.

`DeltaAppenders` is the session's map of them, in the order of the table names.

The row number is stored in an INT column; a number that does not fit is one of
the ways in which an append can fail.
-/
import DuckdbEngine.Runtime.Connection

namespace DuckdbEngine

variable {V : Type}

/-! ### The appender of DuckDB -/

/-- A `duckdb::Appender`: the complete rows that it has not written yet, and
whether a row was left incomplete. -/
structure Appender (V : Type) where
  buffer : List (BufRow V)
  incomplete : Bool

namespace Appender

/-- A new appender, and one after `Clear()`. -/
def cleared : Appender V := ⟨[], false⟩

section

variable [DecidableEq V] (env : Env V) (target : Target)

/-- `Flush()`; it throws on an incomplete row. -/
def flush (a : Appender V) (c : Conn V) : Bool × Appender V × Conn V :=
  if a.incomplete then (true, a, c)
  else if a.buffer.isEmpty then (false, a, c)
  else
    match c.step env (.append target a.buffer) with
    | (true, c') => (true, a, c')
    | (false, c') => (false, { a with buffer := [] }, c')

/-- `BeginRow()`, the appends of the columns and `EndRow()`.  Once a row is
incomplete the columns of the next one do not fit any more. -/
def appendRow (a : Appender V) (row : BufRow V) (c : Conn V) : Bool × Appender V × Conn V :=
  if a.incomplete then (true, a, c)
  else
    match env.appendFault c.clock with
    | .clean => (true, a, c.tick)
    | .torn => (true, { a with incomplete := true }, c.tick)
    | .none =>
        let a' : Appender V := { a with buffer := a.buffer ++ [row] }
        if env.autoFlush c.clock then a'.flush env target c.tick else (false, a', c.tick)

/-- The destructor writes the rows that were neither flushed nor cleared, and
swallows the error if that fails. -/
def destroy (a : Appender V) (c : Conn V) : Conn V := (a.flush env target c).2.2

end

end Appender

/-! ### The appender of one table -/

/-- The text `_rds_buf_`. -/
def bufInfix : Name := ['_', 'r', 'd', 's', '_', 'b', 'u', 'f', '_']

/-- The name of the buffer table of a table. -/
def bufTableName (db tb : Name) : Name := db ++ bufInfix ++ tb

structure DeltaAppender (V : Type) where
  /-- The rows go to a buffer table, not to the table itself. -/
  useTmpTable : Bool
  name : TableName
  /-- The primary key columns, read when a buffer table is used. -/
  pkList : List ℕ
  rowCount : ℕ
  hasInsert : Bool
  hasUpdate : Bool
  hasDelete : Bool
  appender : Appender V

namespace DeltaAppender

/-- The name of the buffer table, as DuckDB looks it up. -/
def tmpTableName (d : DeltaAppender V) : CatalogName :=
  .of (bufTableName d.name.dbName d.name.tableName)

/-- Where the rows are appended. -/
def target (d : DeltaAppender V) : Target :=
  if d.useTmpTable then .temp d.tmpTableName else .base d.name

/-- The same batch with another state of the inner appender. -/
def withAppender (d : DeltaAppender V) (a : Appender V) : DeltaAppender V :=
  { d with appender := a }

@[simp] lemma useTmpTable_withAppender (d : DeltaAppender V) (a : Appender V) :
    (d.withAppender a).useTmpTable = d.useTmpTable := rfl

@[simp] lemma name_withAppender (d : DeltaAppender V) (a : Appender V) :
    (d.withAppender a).name = d.name := rfl

@[simp] lemma tmpTableName_withAppender (d : DeltaAppender V) (a : Appender V) :
    (d.withAppender a).tmpTableName = d.tmpTableName := rfl

@[simp] lemma appender_withAppender (d : DeltaAppender V) (a : Appender V) :
    (d.withAppender a).appender = a := rfl

/-- A delete marker: the key columns of the row, and NULL in the others. -/
def markerOf (t : TableDef V) (pk : List ℕ) (record0 old : Record V) : Row V :=
  (List.range t.fields).map fun i => if i ∈ pk then t.fieldVal record0 old i else none

section

variable [DecidableEq V] (env : Env V)

/-- Hand a row to the appender. -/
def append (d : DeltaAppender V) (row : BufRow V) (c : Conn V) :
    Bool × DeltaAppender V × Conn V :=
  match d.appender.appendRow env d.target row c with
  | (e, a, c') => (e, d.withAppender a, c')

def appendRowInsert (d : DeltaAppender V) (record0 : Record V) (trxNo : ℕ) (c : Conn V) :
    Bool × DeltaAppender V × Conn V :=
  let d := { d with rowCount := d.rowCount + 1, hasInsert := true }
  let aux : Option Aux := if d.useTmpTable then some ⟨false, d.rowCount, trxNo⟩ else none
  d.append env ⟨(env.table d.name).rowOf record0, aux⟩ c

/-- The old row is in a buffer of its own for an update and in `record[0]` for a
deletion. -/
def appendRowDelete (d : DeltaAppender V) (record0 : Record V) (trxNo : ℕ)
    (oldRow : Option (Record V)) (c : Conn V) : Bool × DeltaAppender V × Conn V :=
  if d.useTmpTable then
    let d := { d with rowCount := d.rowCount + 1, hasDelete := true }
    let marker := markerOf (env.table d.name) d.pkList record0 (oldRow.getD record0)
    d.append env ⟨marker, some ⟨true, d.rowCount, trxNo⟩⟩ c
  else (true, d, c)

def appendRowUpdate (d : DeltaAppender V) (record0 : Record V) (trxNo : ℕ) (oldRow : Record V)
    (c : Conn V) : Bool × DeltaAppender V × Conn V :=
  match { d with hasUpdate := true }.appendRowDelete env record0 trxNo (some oldRow) c with
  | (true, d', c') => (true, d', c')
  | (false, d', c') => d'.appendRowInsert env record0 trxNo c'

/-- `Initialize` on a new object, `none` if it fails.  A table without a primary key
is found out last, when the buffer table is there. -/
def initializeFor (name : TableName) (useTmpTable : Bool) (c : Conn V) :
    Option (DeltaAppender V) × Conn V :=
  let d : DeltaAppender V := ⟨useTmpTable, name, [], 0, false, false, false, .cleared⟩
  if useTmpTable then
    let x := d.tmpTableName
    match c.exec env (.createTemp x :: Stmt.addColumns x) with
    | (true, c') => (none, c')
    | (false, c') =>
        if env.fails c'.clock then (none, c'.tick)
        else
          match (env.table name).primaryKey with
          | none => (none, c'.tick)
          | some pk => (some { d with pkList := pk }, c'.tick)
  else if env.fails c.clock then (none, c.tick)
  else (some d, c.tick)

/-- The two statements of the merge; each text starts with USE. -/
def generateQuery (d : DeltaAppender V) (deleteFlag : Bool) : List (Stmt V) :=
  [.use d.name.dbName,
    if deleteFlag then .deleteTouched d.name d.pkList d.tmpTableName
    else .insertLatest d.name d.pkList d.tmpTableName]

/-- The statements of the flush of a mixed batch. -/
def flushScript (d : DeltaAppender V) (idempotentFlag : Bool) : List (Stmt V) :=
  (if d.hasDelete || idempotentFlag then d.generateQuery true else [])
    ++ (if d.hasInsert then d.generateQuery false else [])
    ++ [.dropTemp d.tmpTableName]

def flush (d : DeltaAppender V) (idempotentFlag : Bool) (c : Conn V) :
    Bool × DeltaAppender V × Conn V :=
  match d.appender.flush env d.target c with
  | (true, a, c') => (true, d.withAppender a, c')
  | (false, a, c') =>
      if d.useTmpTable then
        match c'.exec env (d.flushScript idempotentFlag) with
        | (e, c'') => (e, d.withAppender a, c'')
      else (false, d.withAppender a, c')

def discard (d : DeltaAppender V) : DeltaAppender V := d.withAppender .cleared

/-- Drop the buffer table `x`, if there is one; errors are ignored. -/
def cleanup (useTmpTable : Bool) (x : CatalogName) (c : Conn V) : Conn V :=
  if useTmpTable then (c.exec env [.dropTempIfExists x]).2 else c

/-- The destructor: the body first, then the member that is the appender. -/
def destroy (d : DeltaAppender V) (c : Conn V) : Conn V :=
  d.appender.destroy env d.target (cleanup env d.useTmpTable d.tmpTableName c)

end

end DeltaAppender

/-! ### The appenders of a session -/

/-- The map from table names to appenders. -/
abbrev DeltaAppenders (V : Type) := KeyedList (DeltaAppender.name (V := V))

namespace DeltaAppenders

/-- Store an appender under its table name. -/
def set (ds : DeltaAppenders V) (d : DeltaAppender V) : DeltaAppenders V :=
  ds.put (fun a b => a.name.Le b.name) d

section

variable [DecidableEq V] (env : Env V)

/-- The destructors of a list of appenders. -/
def destroyItems (ds : List (DeltaAppender V)) (c : Conn V) : Conn V :=
  ds.foldl (fun c d => d.destroy env c) c

/-- Flush one appender after another, up to the first failure. -/
def flushItems (idempotentFlag : Bool) :
    List (DeltaAppender V) → Conn V → Bool × List (DeltaAppender V) × Conn V
  | [], c => (false, [], c)
  | d :: ds, c =>
      match d.flush env idempotentFlag c with
      | (true, d', c') => (true, d' :: ds, c')
      | (false, d', c') =>
          match flushItems idempotentFlag ds c' with
          | (e, ds', c'') => (e, d' :: ds', c'')

lemma name_flush (d : DeltaAppender V) (idem : Bool) (c : Conn V) :
    (d.flush env idem c).2.1.name = d.name := by
  unfold DeltaAppender.flush
  split
  · rfl
  · split <;> rfl

lemma names_flushItems (idem : Bool) (ds : List (DeltaAppender V)) (c : Conn V) :
    (flushItems env idem ds c).2.1.map DeltaAppender.name = ds.map DeltaAppender.name := by
  induction ds generalizing c with
  | nil => rfl
  | cons d ds ih =>
      have hd := name_flush env d idem c
      rcases h : d.flush env idem c with ⟨e, d', c'⟩
      rw [h] at hd
      cases e with
      | true => simpa [flushItems, h] using hd
      | false => simpa [flushItems, h, ih] using hd

def flushAll (ds : DeltaAppenders V) (idempotentFlag : Bool) (c : Conn V) :
    Bool × DeltaAppenders V × Conn V :=
  let r := flushItems env idempotentFlag ds.items c
  if r.1 then
    (true, ⟨r.2.1, by rw [names_flushItems]; exact ds.nodup⟩, r.2.2)
  else (false, KeyedList.empty, destroyItems env r.2.1 r.2.2)

/-- Clear every appender, then destroy them. -/
def discardAll (ds : DeltaAppenders V) (c : Conn V) : Conn V :=
  destroyItems env (ds.items.map DeltaAppender.discard) c

/-- Drop the buffered rows of one table. -/
def deleteAppender (ds : DeltaAppenders V) (name : TableName) (c : Conn V) :
    DeltaAppenders V × Conn V :=
  match ds.find name with
  | none => (ds, c)
  | some d => (ds.erase name, d.discard.destroy env c)

/-- The appender of a table; a new one is created if there is none.  If that fails,
the half-built object is destroyed, which drops the buffer table of that name. -/
def getAppender (ds : DeltaAppenders V) (name : TableName) (insertOnly : Bool) (c : Conn V) :
    Option (DeltaAppender V) × DeltaAppenders V × Conn V :=
  match ds.find name with
  | some d => (some d, ds, c)
  | none =>
      match DeltaAppender.initializeFor env name (!insertOnly) c with
      | (none, c') =>
          (none, ds,
            DeltaAppender.cleanup env (!insertOnly) (bufTableName name.dbName name.tableName) c')
      | (some d, c') => (some d, ds.set d, c')

end

end DeltaAppenders

end DuckdbEngine
