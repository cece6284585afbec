/-
The calls of a session on the texts that they send.

The session of `Handler.Statements` executes statements; the engine sends texts, in which
names are quoted, and DuckDB parses a text before it executes any of it.  Here the calls
that send a text of the engine's own are stated with that text: the DDL methods, and the
two statements of `config_duckdb_env` that every forwarded statement may need.  The two
machines agree on every run, so that what is known about runs of a session holds of the
texts.
-/
import DuckdbEngine.Convertor.CreateRoundTrip
import DuckdbEngine.Handler.Statements

namespace DuckdbEngine

open Sql

variable {V : Type}

/-! ### Execution of texts -/

/-- The sequence that a default draws from. -/
def sequenceOf : List Token → Option TableName
  | [.word f, .symbol l, .string name, .symbol r] =>
      if f = "NEXTVAL".toList ∧ l = ['('] ∧ r = [')'] then
        match tokenize name with
        | [.ident schema, .symbol dot, .ident sequence] =>
            if dot = ['.'] then some ⟨schema, sequence⟩ else none
        | _ => none
      else none
  | _ => none

/-- The statement of the connection's model; the other changes of a table are those of
`commit_inplace_alter_table`. -/
def ReadDdl.toStmt : ReadDdl → Option (Stmt V)
  | .use schema => some (.use schema)
  | .createSchema schema => some (.createSchema schema)
  | .createSequence name _ => some (.createSequence name)
  | .createTable table columns =>
      some (.createTable table (columns.findSome? fun c => c.default.bind sequenceOf))
  | .alterTable table (.tableRename new) => some (.renameTable table new)
  | .alterTable _ _ => none
  | .truncate table => some (.truncate table)
  | .dropTable name => some (.dropTable name)
  | .dropSequence name => some (.dropSequence name)

/-- The statements of a text. -/
def parse (sql : Text) : Option (List (Stmt V)) :=
  (readScript readDdl sql).bind fun script => script.mapM ReadDdl.toStmt

namespace Conn

variable [DecidableEq V] (env : Env V)

/-- A text that DuckDB does not understand is an error before anything is executed. -/
def duckdbQuery (c : Conn V) (sql : Text) : Bool × Conn V :=
  match parse sql with
  | none => (true, c)
  | some script => c.exec env script

/-- Texts are sent one after the other up to the first error. -/
def queries (c : Conn V) : List Text → Bool × Conn V
  | [] => (false, c)
  | sql :: sqls =>
      match c.duckdbQuery env sql with
      | (true, c') => (true, c')
      | (false, c') => queries c' sqls

lemma exec_append (c : Conn V) (qs qs' : List (Stmt V)) :
    c.exec env (qs ++ qs') =
      match c.exec env qs with
      | (true, c') => (true, c')
      | (false, c') => c'.exec env qs' := by
  induction qs generalizing c with
  | nil => rfl
  | cons q qs ih =>
      rw [List.cons_append, exec, exec]
      split
      · rfl
      · exact ih _

lemma duckdbQuery_eq {sql : Text} {script : List (Stmt V)} (h : parse sql = some script)
    (c : Conn V) : c.duckdbQuery env sql = c.exec env script := by
  rw [duckdbQuery, h]

/-- Texts that are understood are executed as one script. -/
lemma queries_eq {sqls : List Text} {scripts : List (List (Stmt V))}
    (h : List.Forall₂ (fun sql script => parse sql = some script) sqls scripts) (c : Conn V) :
    c.queries env sqls = c.exec env scripts.flatten := by
  induction h generalizing c with
  | nil => rfl
  | cons hsql _ ih =>
      rw [queries, duckdbQuery_eq env hsql, List.flatten_cons, exec_append]
      split
      · rfl
      · exact ih _

end Conn

/-! ### The texts -/

/-- The two texts of `delete_table`. -/
def deleteTableTexts (t : TableName) : List Text :=
  ["DROP TABLE IF EXISTS ".toList ++ quoteDuckdbIdentifier t.dbName ++ ".".toList ++
      quoteDuckdbIdentifier t.tableName,
    "DROP SEQUENCE IF EXISTS ".toList ++ quoteDuckdbIdentifier t.dbName ++ ".".toList ++
      quoteDuckdbIdentifier (autoincSequenceName t.tableName)]

def truncateText (t : TableName) : Text :=
  "USE ".toList ++ quoteDuckdbIdentifier t.dbName ++ ";".toList ++
    "TRUNCATE TABLE ".toList ++ quoteDuckdbIdentifier t.tableName ++ ";".toList

/-- `RenameTableConvertor::translate`. -/
def renameTableText (old new : TableName) : Text := appendStmtTableRename [] old new.tableName

def createSchemaText (schema : Name) : Text :=
  "CREATE SCHEMA IF NOT EXISTS ".toList ++ quoteDuckdbIdentifier schema

def useText (schema : Name) : Text := "USE ".toList ++ quoteDuckdbIdentifier schema

/-! ### The calls with texts -/

/-- The calls of the server; CREATE TABLE has the table and its first value. -/
inductive TextOp (V : Type) (cfg : Settings) where
  | create (t : AcceptedTable cfg) (autoIncrementValue : ℕ)
  | deleteTable (t : TableName)
  | renameTable (old new : TableName)
  | truncate (t : TableName)
  | direct (unsafeQuote : Bool) (f : Name → Tables V → Option (Tables V))
  | pushedSelect (unsafeQuote : Bool)
  /-- A call that sends no text of this kind. -/
  | other (op : Op V)

/-- The call in the session's model. -/
def TextOp.op {cfg : Settings} : TextOp V cfg → Op V
  | .create t _ => .create t.name (t.fields.any Field.autoIncrement) false
  | .deleteTable t => .deleteTable t
  | .renameTable old new => .renameTable old new
  | .truncate t => .truncate t
  | .direct unsafeQuote f => .direct unsafeQuote f
  | .pushedSelect unsafeQuote => .pushedSelect unsafeQuote
  | .other op => op

/-- The default expressions of a created table are complete. -/
def TextOp.Sound {cfg : Settings} : TextOp V cfg → Prop
  | .create t _ => t.TextsSound
  | _ => True

namespace Session

variable [DecidableEq V] (env : Env V)

/-- Start a transaction if there is none and work on the connection. -/
def withTrx (s : Session V) (work : Conn V → Bool × Conn V) (err : HaError) :
    Option HaError × Session V :=
  match s.duckdbRegisterTrx env with
  | (true, s) => (some .generic, s)
  | (false, s) =>
      match work s.conn with
      | (true, c) => (some err, { s with conn := c })
      | (false, c) => (none, { s with conn := c })

def sendTexts (s : Session V) (sqls : List Text) : HaError → Option HaError × Session V :=
  s.withTrx env fun c => c.queries env sqls

/-- The body of `rename_table`, with what is sent in the end. -/
def renameTableWith (work : Conn V → Bool × Conn V) (s : Session V) (old new : TableName) :
    Option HaError × Session V :=
  match s.duckdbRegisterTrx env with
  | (true, s) => (some .generic, s)
  | (false, s) =>
      if new.dbName ≠ old.dbName then (some .renameError, s)
      else
        match s.flushAppenders env with
        | (true, s) => (some .flushFailed, s)
        | (false, s) =>
            match work s.conn with
            | (true, c) => (some .renameError, { s with conn := c })
            | (false, c) => (none, { s with conn := c })

def renameTableByText (s : Session V) (old new : TableName) : Option HaError × Session V :=
  renameTableWith env (fun c => c.duckdbQuery env (renameTableText old new)) s old new

/-- The errors of the two texts are only logged. -/
def configDuckdbEnvByText (s : Session V) (schema : Name) : Session V :=
  if schema = [] ∨ schema = s.currentSchema then s
  else
    { s with
      currentSchema := schema
      conn := ((s.conn.duckdbQuery env (createSchemaText schema)).2.duckdbQuery env
        (useText schema)).2 }

/-- A forwarded UPDATE or DELETE, with what selects the schema. -/
def planDirectWith (config : Session V → Name → Session V) (s : Session V) (unsafeQuote : Bool)
    (f : Name → Tables V → Option (Tables V)) : Plan V :=
  if unsafeQuote then .fail .dmlError s
  else
    match s.duckdbRegisterTrx env with
    | (true, s) => .fail .generic s
    | (false, s) =>
        match s.flushAppenders env with
        | (true, s) => .fail .dmlError s
        | (false, s) => .sql (.forward f) (config s s.db)

def planDirectByText : Session V → Bool → (Name → Tables V → Option (Tables V)) → Plan V :=
  planDirectWith env (configDuckdbEnvByText env)

def planPushedSelectByText (s : Session V) (unsafeQuote : Bool) : Plan V :=
  if unsafeQuote then .fail .internalError s
  else .sql .select (s.configDuckdbEnvByText env s.db)

/-- One call of the server. -/
def callByText {cfg : Settings} (s : Session V) : TextOp V cfg → Option HaError × Session V
  | .create t autoIncrementValue =>
      s.sendTexts env
        [CreateTableConvertor.translate cfg t.defaultValues t.name autoIncrementValue t.fields]
        .createError
  | .deleteTable t => s.sendTexts env (deleteTableTexts t) .dropTableError
  | .renameTable old new => s.renameTableByText env old new
  | .truncate t => s.sendTexts env [truncateText t] .truncateTableError
  | .direct unsafeQuote f => carryOut env .dmlError (s.planDirectByText env unsafeQuote f)
  | .pushedSelect unsafeQuote =>
      carryOut env .internalError (s.planPushedSelectByText env unsafeQuote)
  | .other op => s.call env op

/-- The results of a sequence of calls, and the state after it. -/
def runByText {cfg : Settings} (s : Session V) :
    List (TextOp V cfg) → List (Option HaError) × Session V
  | [] => ([], s)
  | op :: ops =>
      let r := s.callByText env op
      let rs := runByText r.2 ops
      (r.1 :: rs.1, rs.2)

/-- The same for the session's model. -/
def results (s : Session V) : List (Op V) → List (Option HaError)
  | [] => []
  | op :: ops => (s.call env op).1 :: results (s.step env op) ops

end Session

/-! ### The texts are understood -/

lemma parse_closed {t : Text} {ts : List Token} {d : ReadDdl} {q : Stmt V} (ht : Closed t ts)
    (hts : Reads readDdl ts d) (hq : d.toStmt = some q) : parse t = some [q] := by
  have hread := readScript_sent_append [] ht hts
  rw [List.flatMap_nil, List.nil_append, List.map_nil, List.nil_append] at hread
  rw [parse, hread, Option.bind_some, List.mapM_cons, List.mapM_nil, hq]
  rfl

lemma parse_deleteTableTexts (t : TableName) :
    List.Forall₂ (fun sql (script : List (Stmt V)) => parse sql = some script) (deleteTableTexts t)
      [[.dropTable t], [.dropSequence t.autoincSequence]] := by
  have htable : Closed _
      ([kw "DROP", kw "TABLE", kw "IF", kw "EXISTS"] ++ [.ident t.dbName] ++ [.symbol ['.']] ++
        [.ident t.tableName]) :=
    closed_qualified [.word "DROP".toList, .space, .word "TABLE".toList, .space, .word "IF".toList,
      .space, .word "EXISTS".toList] t.dbName t.tableName (by decide) rfl rfl
  have hsequence : Closed _
      ([kw "DROP", kw "SEQUENCE", kw "IF", kw "EXISTS"] ++ [.ident t.dbName] ++ [.symbol ['.']] ++
        [.ident (autoincSequenceName t.tableName)]) :=
    closed_qualified [.word "DROP".toList, .space, .word "SEQUENCE".toList, .space,
      .word "IF".toList, .space, .word "EXISTS".toList] t.dbName (autoincSequenceName t.tableName)
      (by decide) rfl rfl
  refine .cons ?_ (.cons ?_ .nil)
  · exact parse_closed htable ⟨List.cons_ne_nil _ _, by simp [semicolon, kw], rfl⟩ rfl
  · exact parse_closed hsequence ⟨List.cons_ne_nil _ _, by simp [semicolon, kw], rfl⟩ rfl

/-- TRUNCATE with its semicolon. -/
def Sent.truncate (table : Name) : Sent readDdl where
  text := "TRUNCATE TABLE ".toList ++ quoteDuckdbIdentifier table ++ ";".toList
  tokens := [kw "TRUNCATE", kw "TABLE"] ++ [.ident table]
  meaning := .truncate table
  free := (closed_column table [.word "TRUNCATE".toList, .space, .word "TABLE".toList]
    (by decide) (by decide) rfl).append_free free_semicolon rfl (by decide)
  reads := ⟨List.cons_ne_nil _ _, by simp, rfl⟩

@[simp] lemma Sent.text_truncate (table : Name) : (Sent.truncate table).text =
    "TRUNCATE TABLE ".toList ++ quoteDuckdbIdentifier table ++ ";".toList := rfl

/-- RENAME with its semicolon. -/
def Sent.rename (old new : Name) : Sent readDdl where
  text := "ALTER TABLE ".toList ++ quoteDuckdbIdentifier old ++ " RENAME TO ".toList ++
    quoteDuckdbIdentifier new ++ ";".toList
  tokens := [kw "ALTER", kw "TABLE"] ++ [.ident old] ++ [kw "RENAME", kw "TO"] ++ [.ident new]
  meaning := .alterTable old (.tableRename new)
  free := by
    have htable : Closed ("ALTER TABLE ".toList ++ quoteDuckdbIdentifier old)
        ([kw "ALTER", kw "TABLE"] ++ [.ident old]) :=
      closed_column old [.word "ALTER".toList, .space, .word "TABLE".toList]
        (by decide) (by decide) rfl
    have hrename : Free " RENAME TO ".toList [kw "RENAME", kw "TO"] :=
      free_keywords [.space, .word "RENAME".toList, .space, .word "TO".toList]
        (by decide) (by decide) rfl
    exact ((htable.append_free hrename rfl (by decide)).append_closed
      (closed_identifier new)).append_free free_semicolon rfl (by decide)
  reads := ⟨List.cons_ne_nil _ _, by simp [semicolon, kw], rfl⟩

@[simp] lemma Sent.text_rename (old new : Name) : (Sent.rename old new).text =
    "ALTER TABLE ".toList ++ quoteDuckdbIdentifier old ++ " RENAME TO ".toList ++
      quoteDuckdbIdentifier new ++ ";".toList := rfl

lemma parse_sent (xs : List (Sent readDdl)) {sql : Text} {script : List (Stmt V)}
    (hsql : sql = xs.flatMap Sent.text)
    (h : (xs.map Sent.meaning).mapM ReadDdl.toStmt = some script) : parse sql = some script := by
  rw [parse, hsql, readScript_sent, Option.bind_some, h]

lemma parse_truncateText (t : TableName) :
    parse (truncateText t) = some [(Stmt.use t.dbName : Stmt V), .truncate t.tableName] := by
  refine parse_sent [Sent.use t.dbName, Sent.truncate t.tableName] ?_ rfl
  unfold truncateText
  simp only [List.flatMap_cons, List.flatMap_nil, Sent.text_use, Sent.text_truncate,
    List.append_assoc, List.append_nil]

lemma parse_renameTableText (old new : TableName) :
    parse (renameTableText old new) =
      some [(Stmt.use old.dbName : Stmt V), .renameTable old.tableName new.tableName] := by
  refine parse_sent [Sent.use old.dbName, Sent.rename old.tableName new.tableName] ?_ rfl
  simp only [renameTableText, appendStmtTableRename, appendStmtAlterTable, List.flatMap_cons,
    List.flatMap_nil, Sent.text_use, Sent.text_rename, List.append_assoc, List.append_nil,
    List.nil_append]

lemma parse_createSchemaText (schema : Name) :
    parse (createSchemaText schema) = some [(Stmt.createSchema schema : Stmt V)] := by
  have hclosed := closed_column schema
    [.word "CREATE".toList, .space, .word "SCHEMA".toList, .space, .word "IF".toList, .space,
      .word "NOT".toList, .space, .word "EXISTS".toList] (by decide) rfl rfl
  exact parse_closed hclosed (Sent.createSchema schema).reads rfl

lemma parse_useText (schema : Name) :
    parse (useText schema) = some [(Stmt.use schema : Stmt V)] := by
  have hclosed := closed_column schema [.word "USE".toList] (by decide) rfl rfl
  exact parse_closed hclosed (Sent.use schema).reads rfl

/-! ### The default of an AUTO_INCREMENT column -/

lemma sequenceOf_autoincNextvalExpr (name : TableName) :
    sequenceOf (lex (CreateTableConvertor.autoincNextvalExpr name)) =
      some name.autoincSequence := by
  have htokens : tokenize (textOf (sequenceAtoms name)) =
      [.ident name.dbName, .symbol ['.'], .ident (autoincSequenceName name.tableName)] :=
    tokenize_textOf (fits_sequenceAtoms name)
  rw [(free_autoincNextvalExpr name).closed.lex_eq, callTokens, sequenceOf, if_pos ⟨rfl, rfl, rfl⟩,
    htokens]
  rfl

/-- An expression stands in parentheses, and a literal is not a call. -/
lemma sequenceOf_defaultClause {f : Field} (h : f.ExprSound) (defaultValues : Bool) :
    ∀ d ∈ FieldConvertor.defaultClause defaultValues f, sequenceOf (lex d) = none := by
  intro d hd
  rw [FieldConvertor.defaultClause] at hd
  split at hd
  · cases hd
  · cases hexpr : f.defaultExpr with
    | some expr =>
        rw [hexpr] at hd
        dsimp only at hd
        split_ifs at hd <;> cases hd
        have hopen : Free ['('] [openParen] := free_symbol (by decide) (by decide)
        have hclose : Free [')'] [closeParen] := free_symbol (by decide) (by decide)
        have hfree :=
          (hopen.append_closed (h.closed expr hexpr)).append_free hclose rfl (by decide)
        exact congrArg sequenceOf hfree.closed.lex_eq
    | none =>
        rw [hexpr] at hd
        dsimp only at hd
        split_ifs at hd <;> cases hd
        obtain ⟨ts, hclosed, hts⟩ := exists_closed_literal f true
        rw [hclosed.lex_eq]
        rcases hts with rfl | ⟨content, rfl | rfl⟩ <;> rfl

namespace AcceptedTable

variable {cfg : Settings} {t : AcceptedTable cfg}

/-- The default of an AUTO_INCREMENT column is the only one that draws from a sequence. -/
lemma sequenceOf_column (h : t.TextsSound) {f : Field} (hf : f ∈ t.fields) :
    ((t.column f).read.default.bind sequenceOf) =
      if f.autoIncrement then some t.name.autoincSequence else none := by
  rw [ColumnDef.read, column]
  cases f.autoIncrement with
  | true =>
      rw [if_pos rfl, if_pos rfl, Option.map_some, Option.bind_some]
      exact sequenceOf_autoincNextvalExpr t.name
  | false =>
      rw [if_neg Bool.false_ne_true, if_neg Bool.false_ne_true]
      cases hd : FieldConvertor.defaultClause t.defaultValues f with
      | none => rfl
      | some d => exact sequenceOf_defaultClause (h.expr f hf) _ d hd

lemma findSome?_sequenceOf (h : t.TextsSound) {fields : List Field}
    (hfields : ∀ f ∈ fields, f ∈ t.fields) :
    (fields.map fun f => (t.column f).read).findSome? (fun c => c.default.bind sequenceOf) =
      if fields.any Field.autoIncrement then some t.name.autoincSequence else none := by
  induction fields with
  | nil => rfl
  | cons f fields ih =>
      obtain ⟨hf, hrest⟩ := List.forall_mem_cons.1 hfields
      rw [List.map_cons, List.findSome?_cons, sequenceOf_column h hf, ih hrest, List.any_cons]
      cases f.autoIncrement <;> rfl

lemma parse_translate (h : t.TextsSound) (autoIncrementValue : ℕ) :
    parse (CreateTableConvertor.translate cfg t.defaultValues t.name autoIncrementValue t.fields) =
      some (Session.createScript t.name (t.fields.any Field.autoIncrement) : List (Stmt V)) := by
  refine parse_sent _ (translate_eq h autoIncrementValue) ?_
  have hcolumns : t.columns.map ColumnDef.read = t.fields.map fun f => (t.column f).read := by
    rw [columns_eq, List.map_map]
    rfl
  have hsequence := findSome?_sequenceOf h fun f hf => hf
  rw [← hcolumns] at hsequence
  rw [meaning_sent, script, Session.createScript, ← hsequence]
  cases t.fields.any Field.autoIncrement <;> rfl

end AcceptedTable

/-! ### The two machines -/

namespace Session

variable [DecidableEq V] (env : Env V)

lemma sendTexts_eq {sqls : List Text} {scripts : List (List (Stmt V))}
    (h : List.Forall₂ (fun sql script => parse sql = some script) sqls scripts) (s : Session V)
    (err : HaError) : s.sendTexts env sqls err = s.runScript env scripts.flatten err := by
  have hrun : s.runScript env scripts.flatten err =
      s.withTrx env (fun c => c.exec env scripts.flatten) err := rfl
  rw [hrun, sendTexts, funext (Conn.queries_eq env h)]

lemma configDuckdbEnvByText_eq (s : Session V) (schema : Name) :
    s.configDuckdbEnvByText env schema = s.configDuckdbEnv env schema := by
  rw [configDuckdbEnvByText, configDuckdbEnv,
    Conn.duckdbQuery_eq env (parse_createSchemaText schema),
    Conn.duckdbQuery_eq env (parse_useText schema)]

lemma renameTableByText_eq (s : Session V) (old new : TableName) :
    s.renameTableByText env old new = s.renameTable env old new := by
  rw [renameTableByText, funext (Conn.duckdbQuery_eq env (parse_renameTableText old new))]
  rfl

lemma planDirectByText_eq (s : Session V) (unsafeQuote : Bool)
    (f : Name → Tables V → Option (Tables V)) :
    s.planDirectByText env unsafeQuote f = s.planDirect env unsafeQuote f := by
  have hconfig : configDuckdbEnvByText env = configDuckdbEnv (V := V) env :=
    funext fun s => funext (configDuckdbEnvByText_eq env s)
  rw [planDirectByText, hconfig]
  rfl

/-- Each call does the same with its texts. -/
lemma callByText_eq {cfg : Settings} (s : Session V) (op : TextOp V cfg) (h : op.Sound) :
    s.callByText env op = s.call env op.op := by
  cases op with
  | create t autoIncrementValue =>
      rw [callByText, sendTexts_eq env (.cons (AcceptedTable.parse_translate h _) .nil),
        List.flatten_singleton]
      rfl
  | deleteTable t =>
      rw [callByText, sendTexts_eq env (parse_deleteTableTexts t)]
      rfl
  | renameTable old new => exact renameTableByText_eq env s old new
  | truncate t =>
      rw [callByText, sendTexts_eq env (.cons (parse_truncateText t) .nil), List.flatten_singleton]
      rfl
  | direct unsafeQuote f =>
      exact congrArg (carryOut env .dmlError) (planDirectByText_eq env s unsafeQuote f)
  | pushedSelect unsafeQuote =>
      have hplan : s.planPushedSelectByText env unsafeQuote = s.planPushedSelect env unsafeQuote := by
        rw [planPushedSelectByText, planPushedSelect, configDuckdbEnvByText_eq]
      exact congrArg (carryOut env .internalError) hplan
  | other op => rfl

/-- On every sequence of calls, with whatever names and failures, the session that sends the texts of
the DDL methods and of the schema switch returns what the session that executes statements returns,
and ends in the same state.  The other calls of the sequence are the same in both sessions, and the
default expressions of created tables are complete. -/
theorem runByText_eq {cfg : Settings} (s : Session V) (ops : List (TextOp V cfg))
    (h : ∀ op ∈ ops, op.Sound) :
    s.runByText env ops = (s.results env (ops.map TextOp.op), s.run env (ops.map TextOp.op)) := by
  induction ops generalizing s with
  | nil => rfl
  | cons op ops ih =>
      obtain ⟨hop, hops⟩ := List.forall_mem_cons.1 h
      rw [runByText, callByText_eq env s op hop, ih _ hops]
      rfl

/-- A table with quotes and semicolons in its names is created, filled, renamed, queried, truncated
and dropped. -/
theorem runByText_eq_quoted :
    let env : Env ℕ := .reliable fun _ => .keyed 1
    let s : Session ℕ := .start (.ofTables fun _ => 0) true
    let renamed : TableName := ⟨['d', ';'], ['u', dquote]⟩
    let ops : List (TextOp ℕ ⟨true, true, fun v w => v != w⟩) := [.create quotedTable 7,
      .other (.row (.write quotedTable.name fun i => ⟨false, i⟩)),
      .renameTable quotedTable.name renamed, .pushedSelect false, .truncate renamed,
      .deleteTable renamed]
    s.runByText env ops = (s.results env (ops.map TextOp.op), s.run env (ops.map TextOp.op)) ∧
      s.results env (ops.map TextOp.op) = List.replicate 6 none := by
  intro env s renamed ops
  have hsound : ∀ op ∈ ops, op.Sound := by
    intro op hop
    simp only [ops, List.mem_cons, List.not_mem_nil, or_false] at hop
    rcases hop with rfl | rfl | rfl | rfl | rfl | rfl
    · exact quotedTable_textsSound
    all_goals trivial
  exact ⟨runByText_eq env s ops hsound, by decide +kernel⟩

end Session

end DuckdbEngine
