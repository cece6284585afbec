/-
How a transaction ends.

A transaction of row operations is followed by COMMIT, by ROLLBACK, by the end of the
session, or by PREPARE and then COMMIT or ROLLBACK, and any of the statements that these
send to DuckDB may fail.  Whatever happens, the transaction has either all of its effect
(`Done`) or none (`Undone`), and nothing of it is left in the session.

The callbacks also run at the end of each statement.  Inside an explicit transaction they
do nothing, the rollback of a statement included: the operations of a failed statement
that had succeeded stay in the transaction.
-/
import DuckdbEngine.Proofs.IssueOrder

namespace DuckdbEngine

variable {V : Type} [DecidableEq V]

omit [DecidableEq V] in
/-- The calls that make up the statements of a transaction. -/
def Op.IsRowCall : Op V → Prop
  | .row _ | .markColumns _ _ | .externalLock => True
  | _ => False

namespace Session

variable {env : Env V} {b : Store V} {s s' : Session V}

omit [DecidableEq V] in
/-- The committed contents are `tables`, and nothing of the transaction is left. -/
structure Done (tables : Tables V) (s : Session V) : Prop where
  tables_eq : ∀ t, s.conn.committed.tables t = tables t
  clean : s.Clean

omit [DecidableEq V] in
/-- The committed contents are what they were before the transaction, and nothing of it is
left. -/
structure Undone (b : Store V) (s : Session V) : Prop where
  committed_eq : s.conn.committed = b
  clean : s.Clean

namespace TrxInv

lemma step (h : TrxInv b s) {op : Op V} (hop : op.IsRowCall) : TrxInv b (s.step env op) := by
  cases op with
  | row op => exact h.rowOp env op
  | markColumns t ws => exact ⟨h.committed_eq, h.active, h.owned⟩
  | externalLock => exact h.registers (duckdbRegisterTrx_registers env s)
  | _ => exact hop.elim

lemma run (h : TrxInv b s) {ops : List (Op V)} (hops : ∀ op ∈ ops, op.IsRowCall) :
    TrxInv b (s.run env ops) :=
  StepRun.run_inv (fun _ _ h hop => h.step hop) h (StepRun.along_of_forall _ hops s)

lemma flushAppenders (h : TrxInv b s) {e : Bool} (hflush : s.flushAppenders env = (e, s')) :
    TrxInv b s' := by
  by_cases hnil : s.appenders.items = []
  · simp only [Session.flushAppenders, hnil, List.isEmpty_nil, if_true, Prod.mk.injEq] at hflush
    obtain ⟨-, rfl⟩ := hflush
    exact ⟨h.committed_eq, h.active, h.owned⟩
  · refine h.of_keeps (h.active hnil) ?_
    cases e with
    | false => exact (Keeps.flushAppenders_ok hflush).1
    | true => exact Keeps.flushAppenders_err hflush

lemma undone_rollback (env : Env V) (h : TrxInv b s) (hb : ∀ x, b.tmpRows x = []) :
    Undone b (s.duckdbTransRollback env) := by
  obtain ⟨hcom, hclean⟩ := duckdbTransRollback_clean env hb h.committed_eq h.active
  exact ⟨hcom, hclean⟩

lemma done_commit (h : TrxInv b s) (hb : ∀ x, b.tmpRows x = [])
    (hok : s.duckdbCommit env true = (false, s')) : Done s.flushed s' := by
  obtain ⟨htab, -, hclean⟩ := duckdbCommit_spec env hb h
  rw [hok] at htab hclean
  exact ⟨htab rfl, hclean⟩

lemma undone_commit (h : TrxInv b s) (hb : ∀ x, b.tmpRows x = [])
    (herr : s.duckdbCommit env true = (true, s')) : Undone b s' := by
  obtain ⟨-, hcom, hclean⟩ := duckdbCommit_spec env hb h
  rw [herr] at hcom hclean
  exact ⟨hcom rfl, hclean⟩

end TrxInv

/-- After a successful flush a table holds its merged rows. -/
lemma flushed_of_flushAppenders (h : s.flushAppenders env = (false, s')) :
    s'.flushed = s.flushed := by
  funext t
  have hnone : s'.appenders = KeyedList.empty := by rw [(flushAppenders_ok h).1]
  rw [flushed, hnone, KeyedList.find_empty, Option.elim_none, flushAppenders_flushed h]

/-- Commit and rollback are all or nothing.  After any row operations on any tables, a
COMMIT that succeeds, with or without a PREPARE before it, leaves each table with its
pending rows merged; one that fails, a ROLLBACK and the end of the session leave the
committed contents of the beginning.  Merging the pending rows gives the operations in
issue order, if they are valid and calm. -/
theorem all_or_nothing (env : Env V) {s : Session V} (hclean : s.Clean) {ops : List (Op V)}
    (hops : ∀ op ∈ ops, op.IsRowCall) :
    (∀ s', (s.run env ops).duckdbCommit env true = (false, s') → Done (s.run env ops).flushed s') ∧
    (∀ s', (s.run env ops).duckdbCommit env true = (true, s') → Undone s.conn.committed s') ∧
    (∀ e s', (s.run env ops).duckdbRollback env true = (e, s') → Undone s.conn.committed s') ∧
    Undone s.conn.committed ((s.run env ops).duckdbCloseConnection env) ∧
    (∀ s₁, (s.run env ops).duckdbPrepare env true = (false, s₁) →
      ∀ s', s₁.duckdbCommit env true = (false, s') → Done (s.run env ops).flushed s') ∧
    (∀ e s₁, (s.run env ops).duckdbPrepare env true = (e, s₁) →
      ∀ e' s', s₁.duckdbCommit env true = (true, s') ∨ s₁.duckdbRollback env true = (e', s') →
        Undone s.conn.committed s') ∧
    ((∀ t, RowOp.UniqueKeys env t (s.store.tables t)) →
      StepRun.Along (Traced.step env) (Traced.Admissible env) (Traced.start s) ops →
      (s.run env ops).flushed
        = (StepRun.run (Traced.step env) (Traced.start s) ops).spec) := by
  have hb := hclean.tmpRows_eq
  have hinv : TrxInv s.conn.committed (s.run env ops) := hclean.trxInv.run hops
  have hrollback : ∀ {s₁ s' : Session V} {e : Bool}, TrxInv s.conn.committed s₁ →
      s₁.duckdbRollback env true = (e, s') → Undone s.conn.committed s' := by
    intro s₁ s' e h₁ hr
    rw [duckdbRollback, if_pos (show s₁.acts true = true from rfl)] at hr
    cases hr
    exact h₁.undone_rollback env hb
  refine ⟨fun s' => hinv.done_commit hb, fun s' => hinv.undone_commit hb,
    fun e s' => hrollback hinv, hinv.undone_rollback env hb, ?_, ?_, ?_⟩
  · intro s₁ hprep s' hok
    have hflush : (s.run env ops).flushAppenders env = (false, s₁) := hprep
    rw [← flushed_of_flushAppenders hflush]
    exact (hinv.flushAppenders hflush).done_commit hb hok
  · intro e s₁ hprep e' s' hend
    have hflush : (s.run env ops).flushAppenders env = (e, s₁) := hprep
    have h₁ := hinv.flushAppenders hflush
    rcases hend with herr | hr
    · exact h₁.undone_commit hb herr
    · exact hrollback h₁ hr
  · intro hkeys hadm
    have hrun := Traced.inv_run hclean hkeys hadm
    have hsession : (StepRun.run (Traced.step env) (Traced.start s) ops).session = s.run env ops :=
      Traced.session_run env (Traced.start s) ops
    funext t
    rw [← hsession, hrun.refines.flushed_eq]

/-- A row is inserted and updated, and the transaction is committed. -/
theorem all_or_nothing_of_write_update :
    let env : Env ℕ := .reliable fun _ => .keyed 1
    let t : TableName := ⟨['a'], ['t']⟩
    let row (k v : ℕ) : Record ℕ := fun i => ⟨false, if i = 0 then k else v⟩
    let s : Session ℕ := .start (.ofTables fun _ => 0) true
    let ops : List (Op ℕ) :=
      [.row (.write t (row 1 10)), .row (.update t (row 1 10) (row 1 11))]
    ((s.run env ops).duckdbCommit env true).1 = false ∧
      Done (s.run env ops).flushed ((s.run env ops).duckdbCommit env true).2 ∧
      ((s.run env ops).duckdbCommit env true).2.conn.committed.tables t = {[some 1, some 11]} ∧
      Undone s.conn.committed ((s.run env ops).duckdbCloseConnection env) := by
  intro env t row s ops
  have hok : ((s.run env ops).duckdbCommit env true).1 = false := by decide +kernel
  have heta : ∀ r : Bool × Session ℕ, r.1 = false → r = (false, r.2) := fun r h => Prod.ext h rfl
  have hclean : s.Clean := clean_start (fun _ => rfl) true
  have hops : ∀ op ∈ ops, op.IsRowCall := by simp [ops, Op.IsRowCall]
  obtain ⟨hcommit, -, -, hclose, -⟩ := all_or_nothing env hclean hops
  exact ⟨hok, hcommit _ (heta _ hok), by decide +kernel, hclose⟩

/-! ### The end of a statement -/

/-- Inside an explicit transaction the rollback of a statement undoes nothing.  The
transaction goes on as if there had been no rollback; when it commits, the contents are
those of all row operations that succeeded, the ones of the failed statement included. -/
theorem statement_rollback_undoes_nothing (env : Env V) (s : Session V)
    (pre stmt post : List (Op V)) (hexplicit : (s.run env (pre ++ stmt)).explicitTrx = true) :
    s.run env (pre ++ stmt ++ .rollback false :: post) = s.run env (pre ++ stmt ++ post) ∧
      (s.Clean → (∀ t, RowOp.UniqueKeys env t (s.store.tables t)) →
        StepRun.Along (Traced.step env) (Traced.Admissible env) (Traced.start s)
          (pre ++ stmt ++ post) →
        ∀ s', (s.run env (pre ++ stmt ++ .rollback false :: post)).duckdbCommit env true
            = (false, s') →
          ∀ t, s'.conn.committed.tables t
            = (StepRun.run (Traced.step env) (Traced.start s) (pre ++ stmt ++ post)).spec t) := by
  have hsame : s.run env (pre ++ stmt ++ .rollback false :: post)
      = s.run env (pre ++ stmt ++ post) := by
    have hstep : (s.run env (pre ++ stmt)).step env (.rollback false) = s.run env (pre ++ stmt) := by
      simp [step, call, callbackResult, duckdbRollback, acts, hexplicit]
    rw [run_append, run_cons, hstep, ← run_append]
  refine ⟨hsame, fun hclean hkeys hadm s' hok t => ?_⟩
  have hcom := (Traced.inv_run hclean hkeys hadm).committed_eq hclean.tmpRows_eq
  have hsession : (StepRun.run (Traced.step env) (Traced.start s) (pre ++ stmt ++ post)).session
      = s.run env (pre ++ stmt ++ post) := Traced.session_run env (Traced.start s) _
  rw [hsession, ← hsame, hok] at hcom
  exact hcom rfl t

/-- A statement that inserts one row and is rolled back before the transaction commits. -/
theorem statement_rollback_undoes_nothing_of_one_row :
    let env : Env ℕ := .reliable fun _ => .keyed 1
    let t : TableName := ⟨['a'], ['t']⟩
    let row (k v : ℕ) : Record ℕ := fun i => ⟨false, if i = 0 then k else v⟩
    let s : Session ℕ := .start (.ofTables fun _ => 0) true
    let stmt : List (Op ℕ) := [.row (.write t (row 1 10))]
    s.run env ([] ++ stmt ++ [.rollback false]) = s.run env ([] ++ stmt ++ []) ∧
      ∀ s', (s.run env ([] ++ stmt ++ [.rollback false])).duckdbCommit env true = (false, s') →
        ∀ t, s'.conn.committed.tables t
          = (StepRun.run (Traced.step env) (Traced.start s) ([] ++ stmt ++ [])).spec t := by
  intro env t row s stmt
  have hexplicit : (s.run env ([] ++ stmt)).explicitTrx = true := by decide +kernel
  have hclean : s.Clean := clean_start (fun _ => rfl) true
  have hkeys : ∀ t', RowOp.UniqueKeys env t' (s.store.tables t') := fun _ _ _ => Multiset.nodup_zero
  obtain ⟨hsame, hcommit⟩ := statement_rollback_undoes_nothing env s [] stmt [] hexplicit
  refine ⟨hsame, hcommit hclean hkeys ?_⟩
  simp only [stmt, List.nil_append, List.append_nil, StepRun.along_cons, StepRun.along_nil, and_true]
  refine ⟨?_, calm_of_isNone ?_⟩
  all_goals decide +kernel

/-- A statement of an explicit transaction inserts a row, and then the server finds an error in the
next one, before it calls the engine.  The statement is rolled back and the transaction commits: the
first row is there, whereas the transaction without the statement leaves the table empty. -/
theorem failed_statement_leaves_row :
    let env : Env ℕ := .reliable fun _ => .keyed 1
    let t : TableName := ⟨['a'], ['t']⟩
    let row : Record ℕ := fun i => ⟨false, if i = 0 then 1 else 10⟩
    let s : Session ℕ := .start (.ofTables fun _ => 0) true
    let failed := s.run env [.row (.write t row), .rollback false]
    (s.rowOp env (.write t row)).1 = none ∧ (failed.duckdbCommit env true).1 = false ∧
      (failed.duckdbCommit env true).2.conn.committed.tables t = {[some 1, some 10]} ∧
      (s.duckdbCommit env true).1 = false ∧
      (s.duckdbCommit env true).2.conn.committed.tables t = 0 := by
  decide +kernel

end Session

end DuckdbEngine
