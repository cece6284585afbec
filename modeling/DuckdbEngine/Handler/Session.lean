/-
A session of the server: its DuckDB context and the transaction callbacks.

The context keeps the appenders of the session and a batch state.  In state
`undefined` the next row operation decides how rows are written: not batched, in
an insert-only batch or in a mixed batch.  The server drives transactions through
the callbacks prepare, commit and rollback; called for a statement inside an
explicit transaction they do nothing.
-/
import DuckdbEngine.Runtime.DeltaAppender

namespace DuckdbEngine

variable {V : Type}

inductive BatchState where
  | undefined
  | notInBatch
  | inInsertOnlyBatch
  | inMixBatch
deriving DecidableEq

/-- The errors that the handler methods return. -/
inductive HaError where
  | generic
  | internalError
  /-- The bare 1 that `rename_table` passes on from a failed flush. -/
  | flushFailed
  | appendError
  | dmlError
  | autoincError
  | createError
  | dropTableError
  | renameError
  | truncateTableError
deriving DecidableEq

/-- The state of a session: the DuckDB context, and what the engine reads of the
state that the server keeps for the session. -/
structure Session (V : Type) where
  conn : Conn V
  batchState : BatchState
  appenders : DeltaAppenders V
  /-- The schema that the context last selected. -/
  currentSchema : Name
  /-- The session's current database. -/
  db : Name
  /-- OPTION_NOT_AUTOCOMMIT or OPTION_BEGIN is set. -/
  explicitTrx : Bool
  /-- The session applies row events. -/
  rowInjection : Bool
  /-- The write sets of the opened tables. -/
  writeSet : TableName → ℕ → Bool

namespace Session

/-- The contents that the session's next statement works on. -/
def store (s : Session V) : Store V := s.conn.store

/-- A session without a transaction on the committed contents `b`. -/
def start (b : Store V) (explicitTrx : Bool) : Session V :=
  ⟨⟨b, none, [], 0⟩, .undefined, KeyedList.empty, [], [], explicitTrx, false, fun _ _ => true⟩

/-- A callback acts for the whole transaction, or for a statement that is its own
transaction. -/
def acts (s : Session V) (all : Bool) : Bool := all || !s.explicitTrx

variable (env : Env V)

/-! ### The context -/

/-- Start a transaction unless one is active. -/
def duckdbRegisterTrx (s : Session V) : Bool × Session V :=
  match s.conn.beginTrx env with
  | (e, c) => (e, { s with conn := c })

def duckdbTransCommit (s : Session V) : Bool × Session V :=
  match s.conn.commitTrx env with
  | (true, c) => (true, { s with conn := c })
  | (false, c) => (false, { s with conn := c, batchState := .undefined })

variable [DecidableEq V]

def flushAppenders (s : Session V) : Bool × Session V :=
  if s.appenders.items.isEmpty then (false, { s with batchState := .undefined })
  else
    match s.appenders.flushAll env false s.conn with
    | (true, ds, c) => (true, { s with appenders := ds, conn := c })
    | (false, ds, c) => (false, { s with appenders := ds, conn := c, batchState := .undefined })

/-- The appenders are cleared and destroyed before the ROLLBACK. -/
def duckdbTransRollback (s : Session V) : Session V :=
  { s with
    conn := (s.appenders.discardAll env s.conn).rollbackTrx
    appenders := KeyedList.empty
    batchState := .undefined }

/-- Select the schema for forwarded statements, unless the context remembers having
selected it; the errors of the two statements are only logged. -/
def configDuckdbEnv (s : Session V) (schema : Name) : Session V :=
  if schema = [] ∨ schema = s.currentSchema then s
  else
    { s with
      currentSchema := schema
      conn := ((s.conn.exec env [.createSchema schema]).2.exec env [.use schema]).2 }

/-- Get the appender of a table and hand a row operation to it. -/
def appendRow (s : Session V) (name : TableName)
    (op : DeltaAppender V → Conn V → Bool × DeltaAppender V × Conn V) : Bool × Session V :=
  match s.appenders.getAppender env name (s.batchState = .inInsertOnlyBatch) s.conn with
  | (none, ds, c) => (true, { s with appenders := ds, conn := c })
  | (some d, ds, c) =>
      match op d c with
      | (e, d', c') => (e, { s with appenders := ds.set d', conn := c' })

def appendRowInsert (s : Session V) (name : TableName) (record0 : Record V) : Bool × Session V :=
  s.appendRow env name fun d c => d.appendRowInsert env record0 0 c

def appendRowUpdate (s : Session V) (name : TableName) (record0 oldRow : Record V) :
    Bool × Session V :=
  s.appendRow env name fun d c => d.appendRowUpdate env record0 0 oldRow c

def appendRowDelete (s : Session V) (name : TableName) (record0 : Record V) : Bool × Session V :=
  s.appendRow env name fun d c => d.appendRowDelete env record0 0 none c

/-! ### The transaction callbacks -/

def duckdbPrepare (s : Session V) (all : Bool) : Bool × Session V :=
  if s.acts all then s.flushAppenders env else (false, s)

def duckdbCommit (s : Session V) (commitTrx : Bool) : Bool × Session V :=
  if s.acts commitTrx then
    match s.flushAppenders env with
    | (true, s) => (true, s.duckdbTransRollback env)
    | (false, s) =>
        match s.duckdbTransCommit env with
        | (true, s) => (true, s.duckdbTransRollback env)
        | (false, s) => (false, s)
  else (false, s)

def duckdbRollback (s : Session V) (rollbackTrx : Bool) : Bool × Session V :=
  if s.acts rollbackTrx then (false, s.duckdbTransRollback env) else (false, s)

/-- The context is deleted when the session ends; its destructor rolls back. -/
def duckdbCloseConnection (s : Session V) : Session V := s.duckdbTransRollback env

end Session

end DuckdbEngine
