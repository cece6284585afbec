/-
What a row operation can do, said once.

`planRow` of the handler goes through a fixed sequence of steps: start a transaction,
decide the batch state, and then either hand the row to an appender or build a
statement.  The lemmas below invert each step (`flushAppenders_ok`,
`getBatchState_cases`, `appendRow_cases`) and put them together (`planRow_cases`), so
that the invariants of the later modules never look into the handler again.
-/
import DuckdbEngine.Handler.Statements
import DuckdbEngine.Proofs.Appenders

namespace DuckdbEngine

variable {V : Type} [DecidableEq V] {env : Env V}

/-! ### The parts of a row operation -/

namespace RowOp

omit [DecidableEq V] in
/-- A write can go into an insert-only batch. -/
def insertOnly : RowOp V → Bool
  | .write _ _ => true
  | _ => false

/-- Hand the row to an appender of its table. -/
def append (env : Env V) : RowOp V → DeltaAppender V → Conn V → Bool × DeltaAppender V × Conn V
  | .write _ r, d, c => d.appendRowInsert env r 0 c
  | .update _ old r, d, c => d.appendRowUpdate env r 0 old c
  | .delete _ r, d, c => d.appendRowDelete env r 0 none c

/-- The statement outside a batch, and the state in which it is executed. -/
def direct (env : Env V) : RowOp V → Session V → Stmt V × Session V
  | .write t r, s => (s.insertStmt env t r, s)
  | .update t old r, s =>
      let s := s.narrowWriteSet env t old r
      (s.updateStmt env t old r, s)
  | .delete t r, s => ((env.table t).deleteConvertor t r, s)

/-- The statement that replaces an append that failed. -/
def fallback (env : Env V) : RowOp V → Session V → Stmt V
  | .write t r, s => s.insertStmt env t r
  | .update t old r, s => s.updateStmt env t old r
  | .delete t r, _ => (env.table t).deleteConvertor t r

/-- An append hands rows to the appender; one that fails may have handed over none, or
left rows pending. -/
lemma append_wrote {op : RowOp V} {d d' : DeltaAppender V} {c c' : Conn V} {e : Bool}
    (h : op.append env d c = (e, d', c')) :
    ∃ rows, DeltaAppender.Wrote rows d d' c c' ∧
      (e = true → rows = [] ∨ d'.pending c'.store ≠ []) := by
  cases op with
  | write t r =>
      cases e with
      | false => exact ⟨_, (DeltaAppender.appendRowInsert_ok h).1, by simp⟩
      | true =>
          obtain ⟨rows, hw, hrows⟩ := DeltaAppender.appendRowInsert_err h
          exact ⟨rows, hw, fun _ => hrows⟩
  | update t old r =>
      cases e with
      | false =>
          obtain ⟨d₁, c₁, hdel, hins⟩ := DeltaAppender.appendRowUpdate_ok h
          have hflag : DeltaAppender.Wrote [] d { d with hasUpdate := true } c c :=
            DeltaAppender.Wrote.of_eq rfl rfl rfl rfl (Conn.Frame.refl c) rfl
          exact ⟨_, (hflag.trans (DeltaAppender.appendRowDelete_ok hdel).2.1).trans
            (DeltaAppender.appendRowInsert_ok hins).1, by simp⟩
      | true =>
          obtain ⟨rows, hw, hrows⟩ := DeltaAppender.appendRowUpdate_err h
          exact ⟨rows, hw, fun _ => hrows⟩
  | delete t r =>
      cases e with
      | false => exact ⟨_, (DeltaAppender.appendRowDelete_ok h).2.1, by simp⟩
      | true =>
          obtain ⟨rows, hw, hrows⟩ := DeltaAppender.appendRowDelete_err h
          exact ⟨rows, hw, fun _ => hrows⟩

lemma direct_onRows (env : Env V) (op : RowOp V) (s : Session V) : (op.direct env s).1.OnRows op.table := by
  cases op with
  | write t r => exact TableDef.insertConvertor_onRows _ _ _ _
  | update t old r => exact TableDef.updateConvertor_onRows _ _ _ _ _
  | delete t r => exact TableDef.deleteConvertor_onRows _ _ _

lemma fallback_onRows (env : Env V) (op : RowOp V) (s : Session V) : (op.fallback env s).OnRows op.table := by
  cases op with
  | write t r => exact TableDef.insertConvertor_onRows _ _ _ _
  | update t old r => exact TableDef.updateConvertor_onRows _ _ _ _ _
  | delete t r => exact TableDef.deleteConvertor_onRows _ _ _

/-- Outside a batch at most the write set is changed before the statement is executed. -/
lemma direct_state (env : Env V) (op : RowOp V) (s : Session V) :
    ∃ ws, (op.direct env s).2 = { s with writeSet := ws } := by
  cases op with
  | write t r => exact ⟨s.writeSet, rfl⟩
  | update t old r =>
      simp only [direct, Session.narrowWriteSet]
      split
      · exact ⟨_, rfl⟩
      · exact ⟨s.writeSet, rfl⟩
  | delete t r => exact ⟨s.writeSet, rfl⟩

end RowOp

namespace Session

variable {s s' : Session V}

/-- From `s` to `s'` at most a transaction was started. -/
structure Registers (s s' : Session V) : Prop where
  rest_eq : s' = { s with conn := s'.conn }
  committed_eq : s'.conn.committed = s.conn.committed
  store_eq : s'.store = s.store
  active : s.conn.active.isSome → s'.conn.active.isSome

omit [DecidableEq V] in
lemma Registers.refl (s : Session V) : Registers s s := ⟨rfl, rfl, rfl, fun h => h⟩

omit [DecidableEq V] in
lemma Registers.tick (h : Registers s s') :
    Registers s { s' with conn := s'.conn.tick } := by
  refine ⟨?_, h.committed_eq, h.store_eq, h.active⟩
  conv_lhs => rw [h.rest_eq]

omit [DecidableEq V] in
lemma duckdbRegisterTrx_err (h : s.duckdbRegisterTrx env = (true, s')) : Registers s s' := by
  rcases Conn.beginTrx_cases env s.conn with hc | ⟨c, hc, -⟩ <;>
    simp only [duckdbRegisterTrx, hc, Prod.mk.injEq, Bool.false_eq_true, false_and, true_and] at h
  subst h
  exact (Registers.refl s).tick

omit [DecidableEq V] in
lemma duckdbRegisterTrx_ok (h : s.duckdbRegisterTrx env = (false, s')) :
    Registers s s' ∧ s'.conn.active.isSome := by
  rcases Conn.beginTrx_cases env s.conn with hc | ⟨c, hc, hact, hcom, hst, -⟩ <;>
    simp only [duckdbRegisterTrx, hc, Prod.mk.injEq, Bool.true_eq_false, false_and, true_and] at h
  subst h
  exact ⟨⟨rfl, hcom, hst, fun _ => hact⟩, hact⟩

omit [DecidableEq V] in
lemma duckdbRegisterTrx_registers (env : Env V) (s : Session V) :
    Registers s (s.duckdbRegisterTrx env).2 := by
  rcases h : s.duckdbRegisterTrx env with ⟨_ | _, s'⟩
  · exact (duckdbRegisterTrx_ok h).1
  · exact duckdbRegisterTrx_err h

/-! ### The flush of all the appenders -/

/-- A successful flush merges the pending rows of every appender and leaves no appender
behind. -/
lemma flushAppenders_ok (h : s.flushAppenders env = (false, s')) :
    s' = { s with appenders := KeyedList.empty, conn := s'.conn, batchState := .undefined } ∧
      ∃ c, FlushedAll s.appenders.items s.conn c ∧ Conn.OnlyDrops c s'.conn := by
  unfold flushAppenders at h
  split at h
  · rename_i hnil
    have hempty : s.appenders = KeyedList.empty :=
      KeyedList.eq_empty_iff.2 (by simpa using hnil)
    simp only [Prod.mk.injEq, true_and] at h
    subst h
    rw [hempty]
    exact ⟨rfl, s.conn, FlushedAll.nil s.conn, Conn.OnlyDrops.refl s.conn⟩
  · split at h
    · cases h
    · rename_i ds c hall
      cases h
      obtain ⟨rfl, hflushed⟩ := DeltaAppenders.flushAll_ok hall
      exact ⟨rfl, hflushed⟩

/-- A flush that fails may have stopped anywhere; the appenders stay. -/
lemma flushAppenders_err (h : s.flushAppenders env = (true, s')) :
    s' = { s with appenders := s'.appenders, conn := s'.conn } ∧
      DeltaAppenders.FlushStopped s.appenders.items s'.appenders.items s.conn s'.conn := by
  unfold flushAppenders at h
  split at h
  · cases h
  split at h
  · rename_i ds c hall
    cases h
    exact ⟨rfl, DeltaAppenders.flushAll_err hall⟩
  · cases h

/-! ### The batch state -/

/-- The batch state that is chosen when none is set. -/
def chosenBatch (env : Env V) (s : Session V) (insertOnly : Bool) : BatchState :=
  if env.dmlInBatch s.conn.clock = false then .notInBatch
  else if insertOnly then .inInsertOnlyBatch
  else .inMixBatch

lemma getBatchState_err {insertOnly : Bool} (h : s.getBatchState env insertOnly = (true, s')) :
    s.batchState = .inInsertOnlyBatch ∧ s.flushAppenders env = (true, s') := by
  unfold getBatchState at h
  split at h
  · rename_i s₁ hs₁
    split at hs₁
    · rename_i hif
      cases h
      exact ⟨hif.1, hs₁⟩
    · cases hs₁
  · split at h <;> cases h

/-- The appenders of an insert-only batch are flushed first if the operation is of
another kind; then a batch state is chosen if there is none. -/
lemma getBatchState_ok {insertOnly : Bool} (h : s.getBatchState env insertOnly = (false, s')) :
    ∃ s₁, (s₁ = s ∧ (s.batchState = .inInsertOnlyBatch → insertOnly = true) ∨
        s.flushAppenders env = (false, s₁)) ∧
      (s₁.batchState = .undefined ∧ s' = { s₁ with batchState := s₁.chosenBatch env insertOnly } ∨
        s₁.batchState ≠ .undefined ∧ s' = s₁) := by
  unfold getBatchState at h
  split at h
  · cases h
  · rename_i s₁ hs₁
    refine ⟨s₁, ?_, ?_⟩
    · split at hs₁
      · exact Or.inr hs₁
      · rename_i hif
        cases hs₁
        exact Or.inl ⟨rfl, fun hb => by simpa [hb] using hif⟩
    · split at h <;> cases h
      · rename_i hb
        exact Or.inl ⟨hb, rfl⟩
      · rename_i hb
        exact Or.inr ⟨hb, rfl⟩

/-- An operation other than a write never finds itself in an insert-only batch. -/
lemma batchState_ne_of_getBatchState (h : s.getBatchState env false = (false, s')) :
    s'.batchState ≠ .inInsertOnlyBatch := by
  obtain ⟨s₁, hs₁, ⟨-, rfl⟩ | ⟨hne, rfl⟩⟩ := getBatchState_ok h
  · simp only [chosenBatch, Bool.false_eq_true, if_false]
    split <;> simp
  · rcases hs₁ with ⟨rfl, hb⟩ | hflush
    · exact fun hin => by simpa using hb hin
    · rw [(flushAppenders_ok hflush).1] at hne
      exact absurd rfl hne

/-! ### Handing over a row -/

/-- Hand a row operation to the appender of its table. -/
def appendOp (env : Env V) (s : Session V) (op : RowOp V) : Bool × Session V :=
  s.appendRow env op.table (op.append env)

/-- The appender is found or created and takes the row or not, or it cannot be
created. -/
lemma appendOp_cases {op : RowOp V} {e : Bool} (h : s.appendOp env op = (e, s')) :
    (∃ d ds c d' c',
      s.appenders.getAppender env op.table (s.batchState = .inInsertOnlyBatch) s.conn
          = (some d, ds, c) ∧
        op.append env d c = (e, d', c') ∧ s' = { s with appenders := ds.set d', conn := c' }) ∨
      e = true ∧ ∃ ds c,
        s.appenders.getAppender env op.table (s.batchState = .inInsertOnlyBatch) s.conn
            = (none, ds, c) ∧ s' = { s with appenders := ds, conn := c } := by
  unfold appendOp appendRow at h
  split at h
  · rename_i ds c hget
    cases h
    exact Or.inr ⟨rfl, ds, c, hget, rfl⟩
  · rename_i d ds c hget
    rcases hop : op.append env d c with ⟨e', d', c'⟩
    rw [hop] at h
    cases h
    exact Or.inl ⟨d, ds, c, d', c', hget, hop, rfl⟩

/-! ### All together -/

/-- The plan of an operation whose transaction has started in `s`. -/
def batchPlan (env : Env V) (s : Session V) (op : RowOp V) : Plan V :=
  s.batchOrSql env op.insertOnly (fun s => s.appendOp env op) (op.direct env) (op.fallback env)

/-- The operation fails before anything is done for its row, or its transaction starts. -/
lemma planRow_cases (env : Env V) (s : Session V) (op : RowOp V) :
    (∃ e s', s.planRow env op = .fail e s' ∧ Registers s s') ∨
      ∃ s', s.duckdbRegisterTrx env = (false, s') ∧ s.planRow env op = s'.batchPlan env op := by
  rcases hreg : s.duckdbRegisterTrx env with ⟨e, s₁⟩
  cases e with
  | true =>
      have hs₁ := duckdbRegisterTrx_err hreg
      refine Or.inl ?_
      cases op with
      | write t r => exact ⟨.generic, s₁, by simp only [planRow, hreg], hs₁⟩
      | update t old r =>
          by_cases hl : s.lacksColumns env t = true
          · exact ⟨.dmlError, s, by simp only [planRow, hl, if_true], Registers.refl s⟩
          · exact ⟨.generic, s₁, by simp only [planRow, hl, hreg]; rfl, hs₁⟩
      | delete t r => exact ⟨.generic, s₁, by simp only [planRow, hreg], hs₁⟩
  | false =>
      obtain ⟨hs₁, -⟩ := duckdbRegisterTrx_ok hreg
      cases op with
      | write t r =>
          by_cases hauto : ((env.table t).autoIncrement && env.autoincFails s₁.conn.clock) = true
          · exact Or.inl ⟨.autoincError, _, by simp only [planRow, hreg, hauto, if_true], hs₁.tick⟩
          · exact Or.inr ⟨s₁, rfl, by simp only [planRow, hreg, hauto]; rfl⟩
      | update t old r =>
          by_cases hl : s.lacksColumns env t = true
          · exact Or.inl ⟨.dmlError, s, by simp only [planRow, hl, if_true], Registers.refl s⟩
          · exact Or.inr ⟨s₁, rfl, by simp only [planRow, hl, hreg]; rfl⟩
      | delete t r => exact Or.inr ⟨s₁, rfl, by simp only [planRow, hreg]; rfl⟩

/-- What happens to the row once the transaction has started. -/
lemma batchPlan_cases (env : Env V) (s : Session V) (op : RowOp V) :
    (∃ s', s.getBatchState env op.insertOnly = (true, s') ∧
      s.batchPlan env op = .fail .appendError s') ∨
    ∃ s₁, s.getBatchState env op.insertOnly = (false, s₁) ∧
      (s₁.batchState = .notInBatch ∧
          s.batchPlan env op = .sql (op.direct env s₁).1 (op.direct env s₁).2 ∨
        s₁.batchState ≠ .notInBatch ∧
          ((∃ s₂, s₁.appendOp env op = (false, s₂) ∧ s.batchPlan env op = .buffered s₂) ∨
            ∃ s₂, s₁.appendOp env op = (true, s₂) ∧
              s.batchPlan env op = .sql (op.fallback env { s₂ with batchState := .notInBatch })
                { s₂ with batchState := .notInBatch })) := by
  unfold batchPlan batchOrSql
  rcases hget : s.getBatchState env op.insertOnly with ⟨_ | _, s₁⟩
  · refine Or.inr ⟨s₁, rfl, ?_⟩
    by_cases hb : s₁.batchState = .notInBatch
    · exact Or.inl ⟨hb, by simp only [hb, if_true]⟩
    · refine Or.inr ⟨hb, ?_⟩
      rcases happ : s₁.appendOp env op with ⟨_ | _, s₂⟩
      · exact Or.inl ⟨s₂, rfl, by simp only [hb, if_false, happ]⟩
      · exact Or.inr ⟨s₂, rfl, by simp only [hb, if_false, happ]⟩
  · exact Or.inl ⟨s₁, rfl, rfl⟩

end Session

end DuckdbEngine
