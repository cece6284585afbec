/-
The other calls of the server into the engine, and the session as a state machine.

Three paths lead a read of a session to DuckDB: the scan that `rnd_init` starts, an
UPDATE or DELETE that is forwarded as a whole, and a SELECT that is pushed down.
The last two forward the client's text, in which names are looked up in the current
schema of the connection.

The DDL methods send scripts that start with USE.  `Session.step` puts all the
calls together.
-/
import DuckdbEngine.Lib.StepRun
import DuckdbEngine.Handler.RowOps

namespace DuckdbEngine

variable {V : Type}

/-- A statement that reads only. -/
def Stmt.select : Stmt V := .forward fun _ tables => some tables

/-- The calls of the server for one session. -/
inductive Op (V : Type) where
  /-- The client changes the current database. -/
  | changeDb (db : Name)
  /-- The server opens or closes an explicit transaction. -/
  | setExplicitTrx (explicitTrx : Bool)
  /-- The server marks the columns that a statement writes. -/
  | markColumns (t : TableName) (ws : ℕ → Bool)
  | row (op : RowOp V)
  | externalLock
  | rndInit (t : TableName)
  /-- A forwarded UPDATE or DELETE. -/
  | direct (unsafeQuote : Bool) (f : Name → Tables V → Option (Tables V))
  | pushedSelect (unsafeQuote : Bool)
  | deleteAllRows (t : TableName)
  /-- `rejected` is the verdict of the convertor's check. -/
  | create (t : TableName) (autoIncrement rejected : Bool)
  | deleteTable (t : TableName)
  | renameTable (old new : TableName)
  | truncate (t : TableName)
  | prepare (all : Bool)
  | commit (commitTrx : Bool)
  | rollback (rollbackTrx : Bool)

namespace Session

variable [DecidableEq V] (env : Env V)

/-! ### Reads -/

def planRndInit (s : Session V) : Plan V :=
  match s.flushAppenders env with
  | (true, s) => .fail .appendError s
  | (false, s) => .sql .select s

/-- Direct UPDATE and DELETE: the batches are flushed before the text is forwarded. -/
def planDirect (s : Session V) (unsafeQuote : Bool)
    (f : Name → Tables V → Option (Tables V)) : Plan V :=
  if unsafeQuote then .fail .dmlError s
  else
    match s.duckdbRegisterTrx env with
    | (true, s) => .fail .generic s
    | (false, s) =>
        match s.flushAppenders env with
        | (true, s) => .fail .dmlError s
        | (false, s) => .sql (.forward f) (s.configDuckdbEnv env s.db)

/-- A pushed-down SELECT. -/
def planPushedSelect (s : Session V) (unsafeQuote : Bool) : Plan V :=
  if unsafeQuote then .fail .internalError s
  else .sql .select (s.configDuckdbEnv env s.db)

/-- The scan needs all the columns, and marks them. -/
def rndInit (s : Session V) (t : TableName) : Option HaError × Session V :=
  match carryOut env .internalError (s.planRndInit env) with
  | (some e, s) => (some e, s)
  | (none, s) =>
      (none, { s with
        writeSet := Function.update s.writeSet t fun i => s.writeSet t i || i < (env.table t).fields })

/-! ### DDL -/

/-- Start a transaction if there is none and run a script. -/
def runScript (s : Session V) (script : List (Stmt V)) (err : HaError) :
    Option HaError × Session V :=
  match s.duckdbRegisterTrx env with
  | (true, s) => (some .generic, s)
  | (false, s) =>
      match s.conn.exec env script with
      | (true, c) => (some err, { s with conn := c })
      | (false, c) => (none, { s with conn := c })

/-- The text of `CreateTableConvertor::translate`: the sequence must exist before the
table whose column default names it. -/
def createScript (t : TableName) (autoIncrement : Bool) : List (Stmt V) :=
  [.createSchema t.dbName, .use t.dbName]
    ++ (if autoIncrement then [.createSequence t.autoincSequence] else [])
    ++ [.createTable t.tableName (if autoIncrement then some t.autoincSequence else none)]

def create (s : Session V) (t : TableName) (autoIncrement rejected : Bool) :
    Option HaError × Session V :=
  if rejected then
    match s.duckdbRegisterTrx env with
    | (true, s) => (some .generic, s)
    | (false, s) => (some .createError, s)
  else s.runScript env (createScript t autoIncrement) .createError

/-- The name of the sequence is derived from the name that the table has now. -/
def deleteTable (s : Session V) (t : TableName) : Option HaError × Session V :=
  s.runScript env [.dropTable t, .dropSequence t.autoincSequence] .dropTableError

def renameTable (s : Session V) (old new : TableName) : Option HaError × Session V :=
  match s.duckdbRegisterTrx env with
  | (true, s) => (some .generic, s)
  | (false, s) =>
      if new.dbName ≠ old.dbName then (some .renameError, s)
      else
        match s.flushAppenders env with
        | (true, s) => (some .flushFailed, s)
        | (false, s) =>
            match s.conn.exec env [.use old.dbName, .renameTable old.tableName new.tableName] with
            | (true, c) => (some .renameError, { s with conn := c })
            | (false, c) => (none, { s with conn := c })

def truncate (s : Session V) (t : TableName) : Option HaError × Session V :=
  s.runScript env [.use t.dbName, .truncate t.tableName] .truncateTableError

/-- The buffered rows of the table are dropped, not flushed. -/
def deleteAllRows (s : Session V) (t : TableName) : Option HaError × Session V :=
  match s.duckdbRegisterTrx env with
  | (true, s) => (some .generic, s)
  | (false, s) =>
      let r := s.appenders.deleteAppender env t s.conn
      { s with appenders := r.1, conn := r.2 }.runStmt env (.delete t fun _ => true) .dmlError

/-! ### The session as a state machine -/

/-- The return value of a callback. -/
def callbackResult (r : Bool × Session V) : Option HaError × Session V :=
  (if r.1 then some .generic else none, r.2)

/-- One call of the server. -/
def call (s : Session V) : Op V → Option HaError × Session V
  | .changeDb db => (none, { s with db := db })
  | .setExplicitTrx e => (none, { s with explicitTrx := e })
  | .markColumns t ws => (none, { s with writeSet := Function.update s.writeSet t ws })
  | .row op => s.rowOp env op
  | .externalLock => callbackResult (s.duckdbRegisterTrx env)
  | .rndInit t => s.rndInit env t
  | .direct unsafeQuote f => carryOut env .dmlError (s.planDirect env unsafeQuote f)
  | .pushedSelect unsafeQuote =>
      carryOut env .internalError (s.planPushedSelect env unsafeQuote)
  | .deleteAllRows t => s.deleteAllRows env t
  | .create t autoIncrement rejected => s.create env t autoIncrement rejected
  | .deleteTable t => s.deleteTable env t
  | .renameTable old new => s.renameTable env old new
  | .truncate t => s.truncate env t
  | .prepare all => callbackResult (s.duckdbPrepare env all)
  | .commit commitTrx => callbackResult (s.duckdbCommit env commitTrx)
  | .rollback rollbackTrx => callbackResult (s.duckdbRollback env rollbackTrx)

/-- The state after a call. -/
def step (s : Session V) (op : Op V) : Session V := (s.call env op).2

/-- The state after a sequence of calls. -/
def run (s : Session V) (ops : List (Op V)) : Session V := StepRun.run (step env) s ops

lemma run_append (s : Session V) (ops ops' : List (Op V)) :
    s.run env (ops ++ ops') = (s.run env ops).run env ops' :=
  StepRun.run_append _ _ _ _

lemma run_cons (s : Session V) (op : Op V) (ops : List (Op V)) :
    s.run env (op :: ops) = (s.step env op).run env ops := rfl

end Session

end DuckdbEngine
