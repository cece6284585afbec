/-
Row operations take effect in the order in which they are issued.

`Traced` runs a session next to the contents that its successful row operations stand
for.  The runs considered are those of a transaction: row operations on any tables, the
marking of columns before each statement, and the callbacks at the end of each statement
of an explicit transaction, which do nothing.

In a run whose operations are all valid and calm the session refines those contents.
When an operation is executed as SQL nothing is pending that it could overtake, and
after a successful COMMIT every table holds the operations in issue order.  Without
calmness this fails: one table without a primary key takes the session out of the batch
while the rows of another table are still buffered (`fallback_overtakes_buffered_row`).
-/
import DuckdbEngine.Proofs.Refinement

namespace DuckdbEngine

variable {V : Type} [DecidableEq V] {env : Env V}

/-- A session, and the contents that its row operations so far stand for. -/
structure Traced (V : Type) where
  session : Session V
  spec : Tables V

namespace Traced

omit [DecidableEq V] in
/-- At the beginning of a transaction. -/
def start (s : Session V) : Traced V := ⟨s, s.store.tables⟩

/-- A row operation counts if it reports no error. -/
def step (env : Env V) (x : Traced V) (op : Op V) : Traced V where
  session := x.session.step env op
  spec :=
    match op with
    | .row op => if (x.session.rowOp env op).1 = none then op.apply env x.spec else x.spec
    | _ => x.spec

/-- The calls of a transaction.  Each row operation is valid and calm; of the callbacks
only those occur that do nothing. -/
def Admissible (env : Env V) (x : Traced V) : Op V → Prop
  | .row op =>
      op.Valid env (x.session.writeSet op.table) (x.spec op.table) ∧ x.session.Calm env op
  | .markColumns _ _ | .externalLock => True
  | .prepare all | .commit all | .rollback all => x.session.acts all = false
  | _ => False

/-- When the operation is executed as SQL, no row of its table is pending. -/
def NotOvertaking (env : Env V) (x : Traced V) (op : Op V) : Prop :=
  ∀ rop q s', op = .row rop → x.session.planRow env rop = .sql q s' →
    ∀ d ∈ s'.appenders.items, d.name = rop.table → d.pending s'.store = []

lemma session_run (env : Env V) (x : Traced V) (ops : List (Op V)) :
    (StepRun.run (step env) x ops).session = x.session.run env ops := by
  induction ops generalizing x with
  | nil => rfl
  | cons op ops ih => exact ih (x.step env op)

/-- The invariant of a run. -/
structure Inv (env : Env V) (b : Store V) (x : Traced V) : Prop where
  trx : Session.TrxInv b x.session
  refines : Session.Refines env x.session x.spec

lemma inv_start {s : Session V} (h : s.Clean)
    (hkeys : ∀ t, RowOp.UniqueKeys env t (s.store.tables t)) :
    Inv env s.conn.committed (start s) := by
  refine ⟨h.trxInv, Session.Refines.of_items_nil ?_ (fun _ => rfl) hkeys⟩
  show s.appenders.items = []
  rw [h.appenders_eq]
  rfl

variable {b : Store V} {x : Traced V} {op : Op V}

/-- Inside an explicit transaction the callbacks of a statement do nothing. -/
lemma step_prepare (env : Env V) {all : Bool} (h : x.session.acts all = false) :
    x.step env (.prepare all) = x := by
  simp [Traced.step, Session.step, Session.call, Session.callbackResult, Session.duckdbPrepare, h]

lemma step_commit (env : Env V) {all : Bool} (h : x.session.acts all = false) :
    x.step env (.commit all) = x := by
  simp [Traced.step, Session.step, Session.call, Session.callbackResult, Session.duckdbCommit, h]

lemma step_rollback (env : Env V) {all : Bool} (h : x.session.acts all = false) :
    x.step env (.rollback all) = x := by
  simp [Traced.step, Session.step, Session.call, Session.callbackResult, Session.duckdbRollback, h]

/-- One call keeps the invariant. -/
lemma Inv.step (h : Inv env b x) (hop : Admissible env x op) : Inv env b (x.step env op) := by
  cases op with
  | row op => exact ⟨h.trx.rowOp env op, (h.refines.rowOp hop.1 hop.2).1⟩
  | markColumns t ws =>
      have htrx := h.trx
      have href := h.refines
      exact ⟨⟨htrx.committed_eq, htrx.active, htrx.owned⟩,
        ⟨⟨href.undefined, href.insertOnly, href.mixed, href.buffers, href.notInBatch, href.wf⟩,
          href.contents_eq, href.keys⟩⟩
  | externalLock =>
      have hreg := Session.duckdbRegisterTrx_registers env x.session
      exact ⟨h.trx.registers hreg, h.refines.registers hreg⟩
  | prepare all => exact (step_prepare env hop).symm ▸ h
  | commit all => exact (step_commit env hop).symm ▸ h
  | rollback all => exact (step_rollback env hop).symm ▸ h
  | _ => exact hop.elim

lemma Inv.notOvertaking (h : Inv env b x) (hop : Admissible env x op) :
    NotOvertaking env x op := by
  rintro rop q s' rfl hplan d hd -
  exact (h.refines.rowOp hop.1 hop.2).2 q s' hplan d hd

/-- The invariant holds at the end of every admissible run. -/
lemma inv_run {s : Session V} (hclean : s.Clean)
    (hkeys : ∀ t, RowOp.UniqueKeys env t (s.store.tables t)) {ops : List (Op V)}
    (hops : StepRun.Along (Traced.step env) (Admissible env) (start s) ops) :
    Inv env s.conn.committed (StepRun.run (Traced.step env) (start s) ops) :=
  StepRun.run_inv (I := Inv env s.conn.committed) (fun _ _ h hop => h.step hop)
    (inv_start hclean hkeys) hops

/-- After a successful COMMIT the committed contents are the ones that the operations
stand for. -/
lemma Inv.committed_eq (h : Inv env b x) (hb : ∀ y, b.tmpRows y = [])
    (hok : (x.session.duckdbCommit env true).1 = false) (t : TableName) :
    (x.session.duckdbCommit env true).2.conn.committed.tables t = x.spec t := by
  rw [(Session.duckdbCommit_spec env hb h.trx).1 hok t, h.refines.flushed_eq]

end Traced

open Traced in
/-- In every run of valid and calm operations of a transaction no operation that is
executed as SQL overtakes a buffered one, and after a successful COMMIT every table holds
the operations applied in issue order. -/
theorem no_operation_overtakes (env : Env V) {s : Session V} (hclean : s.Clean)
    (hkeys : ∀ t, RowOp.UniqueKeys env t (s.store.tables t)) {ops : List (Op V)}
    (hops : StepRun.Along (Traced.step env) (Admissible env) (start s) ops) :
    StepRun.Along (Traced.step env) (NotOvertaking env) (start s) ops ∧
      (((s.run env ops).duckdbCommit env true).1 = false →
        ∀ t, ((s.run env ops).duckdbCommit env true).2.conn.committed.tables t
          = (StepRun.run (Traced.step env) (start s) ops).spec t) := by
  have hrun := inv_run hclean hkeys hops
  have hsession : (StepRun.run (Traced.step env) (start s) ops).session = s.run env ops :=
    session_run env (start s) ops
  refine ⟨?_, ?_⟩
  · exact StepRun.along_of_inv (I := Inv env s.conn.committed) (fun _ _ h hop => h.step hop)
      (fun _ _ h hop => h.notOvertaking hop) (inv_start hclean hkeys) hops
  · intro hok t
    have hcom := hrun.committed_eq hclean.tmpRows_eq
    rw [hsession] at hcom
    exact hcom hok t

/-- A row is inserted and then updated: the first operation goes to an insert-only batch,
which is flushed when the second one starts a mixed batch. -/
theorem no_operation_overtakes_of_write_update :
    let env : Env ℕ := .reliable fun _ => .keyed 1
    let t : TableName := ⟨['a'], ['t']⟩
    let row (k v : ℕ) : Record ℕ := fun i => ⟨false, if i = 0 then k else v⟩
    let s : Session ℕ := .start (.ofTables fun _ => 0) true
    let ops : List (Op ℕ) :=
      [.row (.write t (row 1 10)), .row (.update t (row 1 10) (row 1 11))]
    ((s.run env ops).duckdbCommit env true).1 = false ∧
      ∀ t, ((s.run env ops).duckdbCommit env true).2.conn.committed.tables t
        = (StepRun.run (Traced.step env) (Traced.start s) ops).spec t := by
  intro env t row s ops
  have hok : ((s.run env ops).duckdbCommit env true).1 = false := by decide +kernel
  have hclean : s.Clean := Session.clean_start (fun _ => rfl) true
  have hkeys : ∀ t', RowOp.UniqueKeys env t' (s.store.tables t') := fun _ _ _ => Multiset.nodup_zero
  have hops : StepRun.Along (Traced.step env) (Traced.Admissible env) (Traced.start s) ops := by
    simp only [ops, StepRun.along_cons, StepRun.along_nil, and_true]
    refine ⟨⟨?_, Session.calm_of_isNone ?_⟩, ⟨?_, Session.calm_of_isNone ?_⟩⟩
    all_goals decide +kernel
  exact ⟨hok, (no_operation_overtakes env hclean hkeys hops).2 hok⟩

/-- The row of `t` is updated twice.  In between, an operation on the table `u`, which has
no primary key, cannot be buffered and takes the session out of the batch.  The second
update of `t` is then executed as SQL while the first one is still pending, and the
COMMIT, which succeeds, writes the first update over the second. -/
theorem fallback_overtakes_buffered_row :
    let t : TableName := ⟨['a'], ['t']⟩
    let u : TableName := ⟨['a'], ['u']⟩
    let env : Env ℕ := .reliable fun n => if n = t then .keyed 1 else .keyless 1
    let row (k v : ℕ) : Record ℕ := fun i => ⟨false, if i = 0 then k else v⟩
    let s : Session ℕ := .start (.ofTables fun n =>
      if n = t then {[some 1, some 10]} else {[some 5]}) true
    let ops : List (Op ℕ) :=
      [.row (.update t (row 1 10) (row 1 11)), .row (.update u (row 5 0) (row 6 0))]
    let last : RowOp ℕ := .update t (row 1 11) (row 1 12)
    let s₁ := s.run env ops
    let r := (s₁.rowOp env last).2.duckdbCommit env true
    ((s₁.planRow env last).submittedIn.map fun s' =>
        s'.appenders.items.map fun d => (d.name, (d.pending s'.store).length)) = some [(t, 2)] ∧
      (s₁.rowOp env last).1 = none ∧ r.1 = false ∧
      r.2.conn.committed.tables t = {[some 1, some 11]} ∧
      (StepRun.run (Traced.step env) (Traced.start s) (ops ++ [.row last])).spec t
        = {[some 1, some 12]} := by
  decide +kernel

end DuckdbEngine
