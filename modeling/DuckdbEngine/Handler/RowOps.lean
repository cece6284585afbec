/-
The row operations of the handler: `write_row`, `update_row` and `delete_row`.

A row operation is either buffered in the appender of its table or executed at
once as an SQL statement, which identifies the stored row by the primary key, or by
all columns if there is none.  When the appender cannot take the row, the session
leaves the batch and the operation is executed as SQL after all.

What is going to happen to the row is worked out first (`Plan`): the operation
fails before the row is touched, the row has been buffered, or a statement is to be
executed in the session state reached.
-/
import DuckdbEngine.Handler.Session

namespace DuckdbEngine

variable {V : Type}

/-! ### The convertors of row operations into SQL -/

namespace TableDef

variable (t : TableDef V)

/-- The fields of the write set. -/
def writeFields (ws : ℕ → Bool) : List ℕ := (List.range t.fields).filter fun i => ws i

/-- The row stored by an INSERT that lists the write set only. -/
def insertedRow (ws : ℕ → Bool) (record0 : Record V) : Row V :=
  (List.range t.fields).map fun i =>
    if ws i then t.fieldVal record0 record0 i else t.columnDefault i

/-- The effect of the SET clause on a stored row. -/
def setWritten (ws : ℕ → Bool) (record0 : Record V) (r : Row V) : Row V :=
  (List.range t.fields).map fun i =>
    if ws i then t.fieldVal record0 record0 i else r[i]?.join

/-- The fields in which the two records differ. -/
def calcFieldDifference [DecidableEq V] (old new : Record V) (i : ℕ) : Bool :=
  t.fieldVal old old i ≠ t.fieldVal new new i

def calcRowDifference [DecidableEq V] (old new : Record V) : Bool :=
  (List.range t.fields).any (t.calcFieldDifference old new)

/-- The WHERE clause: `column = value` for every index field; a comparison with NULL
is never true. -/
def whereClause [DecidableEq V] (record0 src : Record V) (r : Row V) : Bool :=
  t.indexFields.all fun i =>
    (t.fieldVal record0 src i).any fun v => r[i]?.join = some v

variable (name : TableName)

/-- An INSERT without columns does not parse. -/
def insertConvertor (ws : ℕ → Bool) (record0 : Record V) : Stmt V :=
  if (t.writeFields ws).isEmpty then .malformed else .insert name (t.insertedRow ws record0)

/-- An UPDATE without columns does not parse. -/
def updateConvertor [DecidableEq V] (ws : ℕ → Bool) (record0 oldRow : Record V) : Stmt V :=
  if (t.writeFields ws).isEmpty then .malformed
  else .update name (t.whereClause record0 oldRow) (t.setWritten ws record0)

def deleteConvertor [DecidableEq V] (record0 : Record V) : Stmt V :=
  .delete name (t.whereClause record0 record0)

end TableDef

/-! ### The row operations -/

/-- A row operation with the contents of the record buffers.  For a write the record
is the one after `update_auto_increment` has filled in the generated id. -/
inductive RowOp (V : Type) where
  | write (t : TableName) (record0 : Record V)
  | update (t : TableName) (oldRow record0 : Record V)
  | delete (t : TableName) (record0 : Record V)

/-- The table of a row operation. -/
def RowOp.table : RowOp V → TableName
  | .write t _ | .update t _ _ | .delete t _ => t

/-- What is going to happen to a statement or row operation. -/
inductive Plan (V : Type) where
  /-- It fails in the state reached. -/
  | fail (e : HaError) (s : Session V)
  /-- The row has been buffered. -/
  | buffered (s : Session V)
  /-- The statement is to be executed in the state reached. -/
  | sql (q : Stmt V) (s : Session V)

/-- The session state that has been reached. -/
def Plan.state : Plan V → Session V
  | .fail _ s | .buffered s | .sql _ s => s

/-- The state in which a statement is submitted to DuckDB, if one is. -/
def Plan.submittedIn : Plan V → Option (Session V)
  | .sql _ s => some s
  | _ => none

namespace Session

variable [DecidableEq V] (env : Env V)

/-- Decide how to write rows.  An insert-only batch is flushed when an operation of
another kind arrives. -/
def getBatchState (s : Session V) (insertOnly : Bool) : Bool × Session V :=
  match
    if s.batchState = .inInsertOnlyBatch ∧ insertOnly = false then s.flushAppenders env
    else (false, s)
  with
  | (true, s) => (true, s)
  | (false, s) =>
      if s.batchState = .undefined then
        (false, { s with
          batchState :=
            if env.dmlInBatch s.conn.clock = false then .notInBatch
            else if insertOnly then .inInsertOnlyBatch
            else .inMixBatch })
      else (false, s)

/-- Buffer the row, or execute a statement: `direct` when the session is not in a
batch, `fallback` when the appender fails. -/
def batchOrSql (s : Session V) (insertOnly : Bool) (append : Session V → Bool × Session V)
    (direct : Session V → Stmt V × Session V) (fallback : Session V → Stmt V) : Plan V :=
  match s.getBatchState env insertOnly with
  | (true, s) => .fail .appendError s
  | (false, s) =>
      if s.batchState = .notInBatch then .sql (direct s).1 (direct s).2
      else
        match append s with
        | (false, s) => .buffered s
        | (true, s) =>
            let s := { s with batchState := .notInBatch }
            .sql (fallback s) s

/-- The INSERT for a record. -/
def insertStmt (s : Session V) (t : TableName) (record0 : Record V) : Stmt V :=
  (env.table t).insertConvertor t (s.writeSet t) record0

/-- The UPDATE for a record. -/
def updateStmt (s : Session V) (t : TableName) (oldRow record0 : Record V) : Stmt V :=
  (env.table t).updateConvertor t (s.writeSet t) record0 oldRow

/-- Outside a batch the write set of the table is narrowed to the modified columns
before the UPDATE is built, and stays narrowed. -/
def narrowWriteSet (s : Session V) (t : TableName) (oldRow record0 : Record V) : Session V :=
  if env.updateModifiedColumnOnly s.conn.clock && (env.table t).calcRowDifference oldRow record0 then
    { s with
      writeSet := Function.update s.writeSet t ((env.table t).calcFieldDifference oldRow record0) }
  else s

/-- A replicated UPDATE needs all the columns. -/
def lacksColumns (s : Session V) (t : TableName) : Bool :=
  s.rowInjection && !(List.range (env.table t).fields).all (s.writeSet t)

/-- What is going to happen to a row operation. -/
def planRow (s : Session V) : RowOp V → Plan V
  | .write t record0 =>
      match s.duckdbRegisterTrx env with
      | (true, s) => .fail .generic s
      | (false, s) =>
          if (env.table t).autoIncrement && env.autoincFails s.conn.clock then
            .fail .autoincError { s with conn := s.conn.tick }
          else
            s.batchOrSql env true (fun s => s.appendRowInsert env t record0)
              (fun s => (s.insertStmt env t record0, s)) (fun s => s.insertStmt env t record0)
  | .update t oldRow record0 =>
      if s.lacksColumns env t then .fail .dmlError s
      else
        match s.duckdbRegisterTrx env with
        | (true, s) => .fail .generic s
        | (false, s) =>
            s.batchOrSql env false (fun s => s.appendRowUpdate env t record0 oldRow)
              (fun s =>
                let s := s.narrowWriteSet env t oldRow record0
                (s.updateStmt env t oldRow record0, s))
              (fun s => s.updateStmt env t oldRow record0)
  | .delete t record0 =>
      match s.duckdbRegisterTrx env with
      | (true, s) => .fail .generic s
      | (false, s) =>
          s.batchOrSql env false (fun s => s.appendRowDelete env t record0)
            (fun s => ((env.table t).deleteConvertor t record0, s))
            (fun _ => (env.table t).deleteConvertor t record0)

/-- Execute a statement; the result is `err` if DuckDB reports an error. -/
def runStmt (s : Session V) (q : Stmt V) (err : HaError) : Option HaError × Session V :=
  match s.conn.exec env [q] with
  | (true, c) => (some err, { s with conn := c })
  | (false, c) => (none, { s with conn := c })

/-- Carry out what was planned. -/
def carryOut (err : HaError) : Plan V → Option HaError × Session V
  | .fail e s => (some e, s)
  | .buffered s => (none, s)
  | .sql q s => s.runStmt env q err

/-- `write_row`, `update_row` or `delete_row`. -/
def rowOp (s : Session V) (op : RowOp V) : Option HaError × Session V :=
  carryOut env .dmlError (s.planRow env op)

end Session

/-! ### The statements of row operations -/

namespace TableDef

variable (t : TableDef V) (name : TableName)

lemma insertConvertor_onRows (ws : ℕ → Bool) (record0 : Record V) :
    (t.insertConvertor name ws record0).OnRows name := by
  unfold insertConvertor
  split
  · trivial
  · rfl

lemma updateConvertor_onRows [DecidableEq V] (ws : ℕ → Bool) (record0 oldRow : Record V) :
    (t.updateConvertor name ws record0 oldRow).OnRows name := by
  unfold updateConvertor
  split
  · trivial
  · rfl

lemma deleteConvertor_onRows [DecidableEq V] (record0 : Record V) :
    (t.deleteConvertor name record0).OnRows name := rfl

end TableDef

namespace Session

variable [DecidableEq V] {env : Env V}

lemma batchOrSql_onRows {s s' : Session V} {q : Stmt V} {t : TableName} {insertOnly : Bool}
    {append : Session V → Bool × Session V} {direct : Session V → Stmt V × Session V}
    {fallback : Session V → Stmt V} (hdirect : ∀ s, (direct s).1.OnRows t)
    (hfallback : ∀ s, (fallback s).OnRows t)
    (h : s.batchOrSql env insertOnly append direct fallback = .sql q s') : q.OnRows t := by
  unfold batchOrSql at h
  split at h
  · cases h
  split at h
  · cases h
    exact hdirect _
  split at h
  · cases h
  · cases h
    exact hfallback _

/-- A row operation that is executed as SQL writes rows of its own table only. -/
lemma planRow_onRows {s s' : Session V} {op : RowOp V} {q : Stmt V}
    (h : s.planRow env op = .sql q s') : q.OnRows op.table := by
  cases op with
  | write t r =>
      simp only [planRow] at h
      split at h
      · cases h
      split at h
      · cases h
      · exact batchOrSql_onRows (fun s => TableDef.insertConvertor_onRows _ _ _ _)
          (fun s => TableDef.insertConvertor_onRows _ _ _ _) h
  | update t o r =>
      simp only [planRow] at h
      split at h
      · cases h
      split at h
      · cases h
      · exact batchOrSql_onRows (fun s => TableDef.updateConvertor_onRows _ _ _ _ _)
          (fun s => TableDef.updateConvertor_onRows _ _ _ _ _) h
  | delete t r =>
      simp only [planRow] at h
      split at h
      · cases h
      · exact batchOrSql_onRows (fun s => TableDef.deleteConvertor_onRows _ _ _)
          (fun s => TableDef.deleteConvertor_onRows _ _ _) h

end Session

end DuckdbEngine
