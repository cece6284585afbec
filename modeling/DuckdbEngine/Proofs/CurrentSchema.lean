/-
The schema in which forwarded statements are resolved.

Before a client's text is forwarded the context selects the session's current
database as the schema of the connection, unless it remembers having selected it.
What it remembers goes stale when another USE is sent on the same connection:
CREATE TABLE, RENAME, TRUNCATE and the flush of a mixed batch each start with one.

`UsesAgree` is the condition that those statements name the remembered schema, or
that none is remembered yet.  Under it the connection stays in the remembered
schema through every run, and every forwarded statement is resolved in the
session's database.
-/
import DuckdbEngine.Proofs.SchemaFrame

namespace DuckdbEngine

variable {V : Type} [DecidableEq V] (env : Env V) {P : Name → Prop}

/-! ### The calls of the server -/

namespace Session

/-- The schemas that a flush of the session's appenders selects. -/
def flushSchemas (s : Session V) : List Name :=
  s.appenders.items.flatMap DeltaAppender.flushSchema

/-- The schemas selected by a call other than through the remembered one. -/
def usesOf (s : Session V) : Op V → List Name
  | .row (.write _ _) => []
  | .row _ => if s.batchState = .inInsertOnlyBatch then s.flushSchemas else []
  | .rndInit _ | .direct _ _ => s.flushSchemas
  | .prepare all | .commit all => if s.acts all then s.flushSchemas else []
  | .create t _ rejected => if rejected then [] else [t.dbName]
  | .truncate t => [t.dbName]
  | .renameTable old _ => old.dbName :: s.flushSchemas
  | _ => []

/-- Every schema that the call selects is the one that the context remembers,
unless it remembers none. -/
def UsesAgree (s : Session V) (op : Op V) : Prop :=
  s.currentSchema ≠ [] → ∀ n ∈ s.usesOf op, n = s.currentSchema

/-- The state in which a forwarded statement is submitted. -/
def forwardedIn (env : Env V) (s : Session V) : Op V → Option (Session V)
  | .direct unsafeQuote f => (s.planDirect env unsafeQuote f).submittedIn
  | .pushedSelect unsafeQuote => (s.planPushedSelect env unsafeQuote).submittedIn
  | _ => none

/-- From `s` to `s'` the connection has stayed within the schemas `P`, and the
context remembers the same schema. -/
structure KeepsSchema (P : Name → Prop) (s s' : Session V) : Prop where
  schema : P s.conn.schema → P s'.conn.schema
  currentSchema_eq : s'.currentSchema = s.currentSchema
  db_eq : s'.db = s.db

namespace KeepsSchema

variable {s s' s'' : Session V}

omit [DecidableEq V] in
lemma refl (s : Session V) : KeepsSchema P s s := ⟨fun h => h, rfl, rfl⟩

omit [DecidableEq V] in
lemma trans (h : KeepsSchema P s s') (h' : KeepsSchema P s' s'') : KeepsSchema P s s'' :=
  ⟨fun hs => h'.schema (h.schema hs), h'.currentSchema_eq.trans h.currentSchema_eq,
    h'.db_eq.trans h.db_eq⟩

omit [DecidableEq V] in
lemma duckdbRegisterTrx (s : Session V) : KeepsSchema P s (s.duckdbRegisterTrx env).2 := by
  refine ⟨fun hs => ?_, rfl, rfl⟩
  have h := Conn.schema_beginTrx env s.conn
  rw [← h] at hs
  exact hs

lemma flushAppenders {s : Session V} (hs : ∀ n ∈ s.flushSchemas, P n) :
    KeepsSchema P s (s.flushAppenders env).2 := by
  unfold Session.flushAppenders
  split
  · exact ⟨fun h => h, rfl, rfl⟩
  have hall := fun h : P s.conn.schema => DeltaAppenders.schema_flushAll env hs h
  split <;> rename_i h <;> rw [h] at hall <;> exact ⟨hall, rfl, rfl⟩

lemma duckdbTransRollback (s : Session V) : KeepsSchema P s (s.duckdbTransRollback env) := by
  refine ⟨fun hs => ?_, rfl, rfl⟩
  simpa [Session.duckdbTransRollback, DeltaAppenders.schema_discardAll] using hs

omit [DecidableEq V] in
lemma duckdbTransCommit (s : Session V) : KeepsSchema P s (s.duckdbTransCommit env).2 := by
  have h := Conn.schema_commitTrx env s.conn
  unfold Session.duckdbTransCommit
  split <;> rename_i hc <;> rw [hc] at h <;>
    exact ⟨fun hs => by simpa [← h] using hs, rfl, rfl⟩

lemma appendRow (s : Session V) (name : TableName)
    {op : DeltaAppender V → Conn V → Bool × DeltaAppender V × Conn V}
    (hop : ∀ d c, (op d c).2.2.schema = c.schema) : KeepsSchema P s (s.appendRow env name op).2 := by
  have hget := DeltaAppenders.schema_getAppender env s.appenders name
    (s.batchState = .inInsertOnlyBatch) s.conn
  unfold Session.appendRow
  split <;> rename_i h <;> rw [h] at hget
  · exact ⟨fun hs => by simpa [← hget] using hs, rfl, rfl⟩
  · refine ⟨fun hs => ?_, rfl, rfl⟩
    simpa [hop, ← hget] using hs

lemma getBatchState {s : Session V} {insertOnly : Bool}
    (hs : s.batchState = .inInsertOnlyBatch → insertOnly = false → ∀ n ∈ s.flushSchemas, P n) :
    KeepsSchema P s (s.getBatchState env insertOnly).2 := by
  have hflush : KeepsSchema P s
      (if s.batchState = .inInsertOnlyBatch ∧ insertOnly = false then s.flushAppenders env
        else (false, s)).2 := by
    split
    · rename_i h
      exact flushAppenders env (hs h.1 h.2)
    · exact refl s
  unfold Session.getBatchState
  split <;> rename_i h <;> rw [h] at hflush
  · exact hflush
  split
  · exact hflush.trans ⟨fun h => h, rfl, rfl⟩
  · exact hflush

lemma batchOrSql {s : Session V} {insertOnly : Bool} {append : Session V → Bool × Session V}
    {direct : Session V → Stmt V × Session V} {fallback : Session V → Stmt V}
    (hs : s.batchState = .inInsertOnlyBatch → insertOnly = false → ∀ n ∈ s.flushSchemas, P n)
    (happend : ∀ s, KeepsSchema P s (append s).2) (hdirect : ∀ s, KeepsSchema P s (direct s).2) :
    KeepsSchema P s (s.batchOrSql env insertOnly append direct fallback).state := by
  have hget := getBatchState env hs
  unfold Session.batchOrSql
  split <;> rename_i s₁ h <;> rw [h] at hget
  · exact hget
  split
  · exact hget.trans (hdirect s₁)
  have happ := happend s₁
  split <;> rename_i h' <;> rw [h'] at happ
  · exact hget.trans happ
  · exact (hget.trans happ).trans ⟨fun h => h, rfl, rfl⟩

lemma planRow {s : Session V} {op : RowOp V} (hs : ∀ n ∈ s.usesOf (.row op), P n) :
    KeepsSchema P s (s.planRow env op).state := by
  have hreg := duckdbRegisterTrx (P := P) env s
  -- registering the transaction changes neither the batch state nor the appenders
  have huse : s.usesOf (.row op)
        = (if s.batchState = .inInsertOnlyBatch then s.flushSchemas else []) →
      (s.duckdbRegisterTrx env).2.batchState = .inInsertOnlyBatch → false = false →
        ∀ n ∈ (s.duckdbRegisterTrx env).2.flushSchemas, P n := by
    intro h hb _ n hn
    have hb' : s.batchState = .inInsertOnlyBatch := hb
    refine hs n ?_
    rw [h, if_pos hb']
    exact hn
  cases op with
  | write t r =>
      simp only [Session.planRow]
      split <;> rename_i h <;> rw [h] at hreg
      · exact hreg
      split
      · exact hreg.trans ⟨fun h => h, rfl, rfl⟩
      · refine hreg.trans (batchOrSql env (by simp) (fun s => ?_) fun s => refl s)
        exact appendRow env s t fun d c => DeltaAppender.schema_appendRowInsert env d r 0 c
  | update t o r =>
      have huse := huse rfl
      simp only [Session.planRow]
      split
      · exact refl s
      split <;> rename_i h <;> rw [h] at hreg huse
      · exact hreg
      · refine hreg.trans (batchOrSql env huse (fun s => ?_) fun s => ?_)
        · exact appendRow env s t fun d c => DeltaAppender.schema_appendRowUpdate env d r 0 o c
        · simp only [narrowWriteSet]
          split <;> exact ⟨fun h => h, rfl, rfl⟩
  | delete t r =>
      have huse := huse rfl
      simp only [Session.planRow]
      split <;> rename_i h <;> rw [h] at hreg huse
      · exact hreg
      · refine hreg.trans (batchOrSql env huse (fun s => ?_) fun s => refl s)
        exact appendRow env s t fun d c => DeltaAppender.schema_appendRowDelete env d r 0 none c

lemma runStmt {s : Session V} {q : Stmt V} (hq : ∀ n, q = .use n → P n) (err : HaError) :
    KeepsSchema P s (s.runStmt env q err).2 := by
  have hexec := fun h : P s.conn.schema => Conn.schema_exec env
    (show ∀ n, Stmt.use n ∈ [q] → P n from fun n hn => hq n (List.mem_singleton.1 hn).symm) h
  unfold Session.runStmt
  split <;> rename_i h <;> rw [h] at hexec <;> exact ⟨hexec, rfl, rfl⟩

lemma rowOp {s : Session V} {op : RowOp V} (hs : ∀ n ∈ s.usesOf (.row op), P n) :
    KeepsSchema P s (s.rowOp env op).2 := by
  have hplan := planRow env hs
  unfold Session.rowOp
  cases h : s.planRow env op with
  | fail e s' | buffered s' =>
      rw [h] at hplan
      exact hplan
  | sql q s' =>
      rw [h] at hplan
      refine hplan.trans (runStmt env (fun n hn => ?_) _)
      exact absurd hn ((planRow_onRows h).ne_use n)

lemma planRndInit {s : Session V} (hs : ∀ n ∈ s.flushSchemas, P n) :
    KeepsSchema P s (s.planRndInit env).state := by
  have hflush := flushAppenders env hs
  unfold Session.planRndInit
  split <;> rename_i h <;> rw [h] at hflush <;> exact hflush

lemma runScript {s : Session V} {script : List (Stmt V)} (hs : ∀ n, Stmt.use n ∈ script → P n)
    (err : HaError) : KeepsSchema P s (s.runScript env script err).2 := by
  have hreg := duckdbRegisterTrx (P := P) env s
  unfold Session.runScript
  split <;> rename_i s₁ h <;> rw [h] at hreg
  · exact hreg
  have hexec := fun h : P s₁.conn.schema => Conn.schema_exec env hs h
  split <;> rename_i h' <;> rw [h'] at hexec <;> exact hreg.trans ⟨hexec, rfl, rfl⟩

lemma create {s : Session V} {t : TableName} {autoIncrement rejected : Bool}
    (ht : rejected = false → P t.dbName) :
    KeepsSchema P s (s.create env t autoIncrement rejected).2 := by
  unfold Session.create
  split
  · have hreg := duckdbRegisterTrx (P := P) env s
    split <;> rename_i h <;> rw [h] at hreg <;> exact hreg
  · refine runScript env (fun n hn => ?_) _
    cases autoIncrement <;> simp_all [createScript]

lemma renameTable {s : Session V} {old new : TableName} (ht : P old.dbName)
    (hs : ∀ n ∈ s.flushSchemas, P n) : KeepsSchema P s (s.renameTable env old new).2 := by
  have hreg := duckdbRegisterTrx (P := P) env s
  have hflush := flushAppenders env (s := (s.duckdbRegisterTrx env).2) hs
  unfold Session.renameTable
  split <;> rename_i s₁ h <;> rw [h] at hreg hflush
  · exact hreg
  split
  · exact hreg
  split <;> rename_i s₂ h' <;> rw [h'] at hflush
  · exact hreg.trans hflush
  have hexec := fun h : P s₂.conn.schema => Conn.schema_exec env
    (show ∀ n, Stmt.use n ∈ [.use old.dbName, .renameTable old.tableName new.tableName] → P n by
      simpa using ht) h
  split <;> rename_i h'' <;> rw [h''] at hexec <;>
    exact (hreg.trans hflush).trans ⟨hexec, rfl, rfl⟩

lemma deleteAllRows (s : Session V) (t : TableName) :
    KeepsSchema P s (s.deleteAllRows env t).2 := by
  have hreg := duckdbRegisterTrx (P := P) env s
  unfold Session.deleteAllRows
  split <;> rename_i s₁ h <;> rw [h] at hreg
  · exact hreg
  have hdel : KeepsSchema P s₁
      { s₁ with
        appenders := (s₁.appenders.deleteAppender env t s₁.conn).1
        conn := (s₁.appenders.deleteAppender env t s₁.conn).2 } := by
    refine ⟨fun hP => ?_, rfl, rfl⟩
    unfold DeltaAppenders.deleteAppender
    split
    · exact hP
    · rw [DeltaAppender.schema_destroy]
      exact hP
  refine hreg.trans (hdel.trans (runStmt env (fun n hn => ?_) _))
  cases hn

lemma duckdbCommit {s : Session V} {all : Bool}
    (hs : s.acts all = true → ∀ n ∈ s.flushSchemas, P n) :
    KeepsSchema P s (s.duckdbCommit env all).2 := by
  unfold Session.duckdbCommit
  split
  · rename_i hact
    have hflush := flushAppenders env (hs hact)
    split <;> rename_i s₁ h <;> rw [h] at hflush
    · exact hflush.trans (duckdbTransRollback env s₁)
    have hcommit := duckdbTransCommit (P := P) env s₁
    split <;> rename_i h' <;> rw [h'] at hcommit
    · exact (hflush.trans hcommit).trans (duckdbTransRollback env _)
    · exact hflush.trans hcommit
  · exact refl s

lemma rndInit {s : Session V} (hs : ∀ n ∈ s.flushSchemas, P n) (t : TableName) :
    KeepsSchema P s (s.rndInit env t).2 := by
  have hplan := planRndInit env hs
  have hcarry : KeepsSchema P s (carryOut env .internalError (s.planRndInit env)).2 := by
    unfold Session.planRndInit at hplan ⊢
    split <;> rename_i s₁ h <;> simp only [h] at hplan
    · exact hplan
    · exact hplan.trans (runStmt env (fun n hn => by cases hn) _)
  unfold Session.rndInit
  split <;> rename_i h <;> rw [h] at hcarry
  · exact hcarry
  · exact hcarry.trans ⟨fun h => h, rfl, rfl⟩

/-- A call that forwards nothing keeps the schema within those that it selects and
the one selected before. -/
lemma step {s : Session V} {op : Op V} (hdb : ∀ db, op ≠ .changeDb db)
    (hdirect : ∀ u f, op ≠ .direct u f) (hpushed : ∀ u, op ≠ .pushedSelect u)
    (hs : ∀ n ∈ s.usesOf op, P n) : KeepsSchema P s (s.step env op) := by
  cases op with
  | changeDb db => exact absurd rfl (hdb db)
  | direct u f => exact absurd rfl (hdirect u f)
  | pushedSelect u => exact absurd rfl (hpushed u)
  | setExplicitTrx e | markColumns t ws => exact ⟨fun h => h, rfl, rfl⟩
  | row op => exact rowOp env hs
  | externalLock => exact duckdbRegisterTrx env s
  | rndInit t => exact rndInit env hs t
  | deleteAllRows t => exact deleteAllRows env s t
  | create t a r => exact create env fun hr => hs _ (by simp [usesOf, hr])
  | deleteTable t => exact runScript env (by simp) _
  | renameTable old new =>
      exact renameTable env (hs _ (by simp [usesOf])) fun n hn => hs n (by simp [usesOf, hn])
  | truncate t =>
      refine runScript env (fun n hn => hs n ?_) _
      simpa [usesOf] using hn
  | prepare all =>
      simp only [usesOf] at hs
      simp only [Session.step, call, callbackResult, duckdbPrepare]
      split
      · rename_i hact
        exact flushAppenders env (by simpa [hact] using hs)
      · exact refl s
  | commit all =>
      refine duckdbCommit env fun hact n hn => hs n ?_
      simpa [usesOf, hact] using hn
  | rollback all =>
      simp only [Session.step, call, callbackResult, duckdbRollback]
      split
      · exact duckdbTransRollback env s
      · exact refl s

end KeepsSchema

/-! ### The remembered schema -/

/-- The connection is in the schema that the context remembers. -/
def SchemaInv (s : Session V) : Prop := s.currentSchema ≠ [] → s.conn.schema = s.currentSchema

namespace SchemaInv

variable {s s' : Session V}

omit [DecidableEq V] in
lemma of_keeps (hI : SchemaInv s)
    (h : KeepsSchema (fun n => s.currentSchema ≠ [] → n = s.currentSchema) s s') :
    SchemaInv s' := by
  intro hne
  rw [h.currentSchema_eq] at hne ⊢
  exact h.schema hI hne

/-- Afterwards the connection is in the schema asked for, and that is the one
remembered. -/
lemma configDuckdbEnv (hI : SchemaInv s) (schema : Name) :
    SchemaInv (s.configDuckdbEnv env schema) ∧
      (schema ≠ [] → (s.configDuckdbEnv env schema).conn.schema = schema) := by
  unfold Session.configDuckdbEnv
  split
  · rename_i h
    refine ⟨hI, fun hne => ?_⟩
    obtain rfl := h.resolve_left hne
    exact hI hne
  · have huse : ∀ c : Conn V, (c.exec env [.use schema]).2.schema = schema := fun c => rfl
    exact ⟨fun _ => huse _, fun _ => huse _⟩

/-- A forwarded statement selects no schema itself. -/
lemma forward (hI : SchemaInv s) (f : Name → Tables V → Option (Tables V)) (err : HaError) :
    SchemaInv (s.runStmt env (.forward f) err).2 :=
  hI.of_keeps (KeepsSchema.runStmt env (fun n hn => by cases hn) err)

lemma planDirect (hI : SchemaInv s) {u : Bool} {f : Name → Tables V → Option (Tables V)}
    (h : s.UsesAgree (.direct u f)) :
    SchemaInv (s.planDirect env u f).state ∧
      ∀ s', (s.planDirect env u f).submittedIn = some s' → s.db ≠ [] → s'.conn.schema = s.db := by
  have hreg := KeepsSchema.duckdbRegisterTrx env
    (P := fun n => s.currentSchema ≠ [] → n = s.currentSchema) s
  have hflush := KeepsSchema.flushAppenders env (s := (s.duckdbRegisterTrx env).2)
    (P := fun n => s.currentSchema ≠ [] → n = s.currentSchema) fun n hn hne => h hne n hn
  unfold Session.planDirect
  split
  · exact ⟨hI, by simp [Plan.submittedIn]⟩
  split <;> rename_i s₁ hs₁ <;> rw [hs₁] at hreg hflush
  · exact ⟨hI.of_keeps hreg, by simp [Plan.submittedIn]⟩
  split <;> rename_i s₂ hs₂ <;> rw [hs₂] at hflush
  · exact ⟨hI.of_keeps (hreg.trans hflush), by simp [Plan.submittedIn]⟩
  · have hkeep := hreg.trans hflush
    obtain ⟨hcfg, hschema⟩ := (hI.of_keeps hkeep).configDuckdbEnv env s₂.db
    refine ⟨hcfg, ?_⟩
    rintro s' ⟨⟩ hne
    have hdb : s₂.db = s.db := hkeep.db_eq
    rw [← hdb] at hne ⊢
    exact hschema hne

lemma planPushedSelect (hI : SchemaInv s) (u : Bool) :
    SchemaInv (s.planPushedSelect env u).state ∧
      ∀ s', (s.planPushedSelect env u).submittedIn = some s' → s.db ≠ [] →
        s'.conn.schema = s.db := by
  unfold Session.planPushedSelect
  split
  · exact ⟨hI, by simp [Plan.submittedIn]⟩
  · obtain ⟨hcfg, hschema⟩ := hI.configDuckdbEnv env s.db
    refine ⟨hcfg, ?_⟩
    rintro s' ⟨⟩ hne
    exact hschema hne

lemma carryOut {p : Plan V} (hI : SchemaInv p.state)
    (hp : ∀ q s', p = .sql q s' → ∃ f, q = .forward f) (err : HaError) :
    SchemaInv (carryOut env err p).2 := by
  cases p with
  | fail e s' | buffered s' => exact hI
  | sql q s' =>
      obtain ⟨f, rfl⟩ := hp q s' rfl
      exact hI.forward env f err

/-- One call keeps the invariant, and resolves what it forwards in the session's
database. -/
lemma step (hI : SchemaInv s) {op : Op V} (h : s.UsesAgree op) :
    SchemaInv (s.step env op) ∧
      ∀ s', s.forwardedIn env op = some s' → s.db ≠ [] → s'.conn.schema = s.db := by
  by_cases hdb : ∃ db, op = .changeDb db
  · obtain ⟨db, rfl⟩ := hdb
    exact ⟨hI, by simp [forwardedIn]⟩
  by_cases hdirect : ∃ u f, op = .direct u f
  · obtain ⟨u, f, rfl⟩ := hdirect
    obtain ⟨hstate, hsub⟩ := hI.planDirect env h
    refine ⟨hstate.carryOut env (fun q s' hq => ?_) _, hsub⟩
    unfold Session.planDirect at hq
    split at hq
    · cases hq
    split at hq
    · cases hq
    split at hq
    · cases hq
    · cases hq
      exact ⟨f, rfl⟩
  by_cases hpushed : ∃ u, op = .pushedSelect u
  · obtain ⟨u, rfl⟩ := hpushed
    obtain ⟨hstate, hsub⟩ := hI.planPushedSelect env u
    refine ⟨hstate.carryOut env (fun q s' hq => ?_) _, hsub⟩
    unfold Session.planPushedSelect at hq
    split at hq <;> cases hq
    exact ⟨_, rfl⟩
  -- the remaining calls forward nothing
  simp only [not_exists] at hdb hdirect hpushed
  refine ⟨hI.of_keeps (KeepsSchema.step env hdb hdirect hpushed fun n hn hne => h hne n hn), ?_⟩
  intro s' hs'
  cases op with
  | direct u f => exact absurd rfl (hdirect u f)
  | pushedSelect u => exact absurd rfl (hpushed u)
  | _ => cases hs'

end SchemaInv

/-- In every run of a session in which each CREATE TABLE, RENAME, TRUNCATE and flush
of a mixed batch names the remembered schema, every forwarded statement is submitted
while the current schema of the connection is the session's database. -/
theorem forwarded_in_session_db (b : Store V) (explicitTrx : Bool)
    (ops : List (Op V))
    (h : StepRun.Along (step env) UsesAgree (start b explicitTrx) ops) :
    StepRun.Along (step env)
      (fun s op => ∀ s', s.forwardedIn env op = some s' → s.db ≠ [] → s'.conn.schema = s.db)
      (start b explicitTrx) ops :=
  StepRun.along_of_inv (I := SchemaInv) (fun _ _ hI hop => (hI.step env hop).1)
    (fun _ _ hI hop => (hI.step env hop).2) (fun hne => absurd rfl hne) h

/-- A session that forwards two statements in its database `a`. -/
theorem forwarded_in_session_db_of_two_selects :
    StepRun.Along (step (.reliable fun _ => .keyed (V := ℕ) 0))
      (fun s op => ∀ s', s.forwardedIn (.reliable fun _ => .keyed 0) op = some s' →
        s.db ≠ [] → s'.conn.schema = s.db)
      (start (.ofTables fun _ => 0) false)
      [.changeDb ['a'], .pushedSelect false, .truncate ⟨['a'], ['t']⟩, .pushedSelect false] :=
  forwarded_in_session_db _ _ _ _ (by
    refine ⟨?_, ?_, ?_, ?_, trivial⟩ <;> intro _ n hn
    · cases hn
    · cases hn
    · exact List.mem_singleton.1 hn
    · cases hn)

/-- A TRUNCATE of a table of the schema `b` between two forwarded statements: the
second one is resolved in `b`, though the session's database is `a`. -/
theorem truncate_moves_forwarded_select :
    let env : Env ℕ := .reliable fun _ => .keyed 0
    let s := (start (.ofTables fun _ => 0) false).run env
      [.changeDb ['a'], .pushedSelect false, .truncate ⟨['b'], ['t']⟩]
    s.db = ['a'] ∧
      (s.forwardedIn env (.pushedSelect false)).map (fun s' => s'.conn.schema) = some ['b'] := by
  decide

end Session

end DuckdbEngine
