/-
The batch state and the appenders of a session agree.

The batch state is kept once per session, but whether an appender writes to its table
or to a buffer table is fixed when the appender is created.  `BatchStateInv` says how the
two belong together.  Every function that changes either of them keeps it
(`BatchStateInv.batchStep`), whatever fails on the way, so it holds after any sequence of
calls.  A row is only handed to an appender after `get_batch_state`, which does not
leave the state undefined, and a COMMIT only follows a flush.
-/
import DuckdbEngine.Proofs.RowPlan

namespace DuckdbEngine

variable {V : Type}

/-! ### The calls -/

/-- The calls of the server, and the functions they are made of that change the batch state or
the appenders. -/
inductive BatchCall (V : Type) where
  | server (op : Op V)
  | getBatchState (insertOnly : Bool)
  /-- `append_row_insert`, `append_row_update` or `append_row_delete` of the context. -/
  | append (op : RowOp V)
  /-- The session leaves the batch after an append has failed. -/
  | fallback
  | flushAppenders
  | deleteAppender (t : TableName)
  | transCommit
  | transRollback (fails : Bool)

namespace Session

variable [DecidableEq V] (env : Env V)

/-- A ROLLBACK that fails: the appenders are gone already, the batch state stays. -/
def duckdbTransRollbackFailed (s : Session V) : Session V :=
  { s with
    conn := (s.appenders.discardAll env s.conn).tick
    appenders := KeyedList.empty }

/-- The state after a call. -/
def batchStep (s : Session V) : BatchCall V → Session V
  | .server op => s.step env op
  | .getBatchState insertOnly => (s.getBatchState env insertOnly).2
  | .append op => (s.appendOp env op).2
  | .fallback => { s with batchState := .notInBatch }
  | .flushAppenders => (s.flushAppenders env).2
  | .deleteAppender t =>
      let r := s.appenders.deleteAppender env t s.conn
      { s with appenders := r.1, conn := r.2 }
  | .transCommit => (s.duckdbTransCommit env).2
  | .transRollback fails =>
      if fails then s.duckdbTransRollbackFailed env else s.duckdbTransRollback env

omit [DecidableEq V] in
/-- An append comes after `get_batch_state`, a COMMIT after a flush. -/
def InOrder (s : Session V) : BatchCall V → Prop
  | .append _ => s.batchState ≠ .undefined
  | .transCommit => s.appenders.items = []
  | _ => True

omit [DecidableEq V] in
/-- The appenders write as the batch state says. -/
structure BatchStateInv (s : Session V) : Prop where
  undefined : s.batchState = .undefined → s.appenders.items = []
  insertOnly : s.batchState = .inInsertOnlyBatch → ∀ d ∈ s.appenders.items, d.useTmpTable = false
  mixed : s.batchState = .inMixBatch → ∀ d ∈ s.appenders.items, d.useTmpTable = true

/-- The appender to which `update_row` or `delete_row` hands its delete marker uses a buffer
table, so `append_row_delete` does not report "Delete requires a mixed batch". -/
def DeletesAccepted (s : Session V) : Prop :=
  ∀ (t : TableName) (s₁ s₂ : Session V), s.duckdbRegisterTrx env = (false, s₁) →
    s₁.getBatchState env false = (false, s₂) → s₂.batchState ≠ .notInBatch →
      ∀ d ds c, s₂.appenders.getAppender env t (s₂.batchState = .inInsertOnlyBatch) s₂.conn
          = (some d, ds, c) → d.useTmpTable = true

variable {env} {s s' : Session V}

/-! ### What each function keeps -/

namespace BatchStateInv

omit [DecidableEq V] in
/-- The appenders may lose members and change in other respects. -/
lemma mono (h : BatchStateInv s) (hstate : s'.batchState = s.batchState)
    (hitems : ∀ d' ∈ s'.appenders.items, ∃ d ∈ s.appenders.items, d'.useTmpTable = d.useTmpTable) :
    BatchStateInv s' := by
  refine ⟨fun hb => ?_, fun hb d' hd' => ?_, fun hb d' hd' => ?_⟩
  · refine List.eq_nil_iff_forall_not_mem.2 fun d' hd' => ?_
    obtain ⟨d, hd, -⟩ := hitems d' hd'
    rw [h.undefined (hstate ▸ hb)] at hd
    cases hd
  · obtain ⟨d, hd, heq⟩ := hitems d' hd'
    rw [heq]
    exact h.insertOnly (hstate ▸ hb) d hd
  · obtain ⟨d, hd, heq⟩ := hitems d' hd'
    rw [heq]
    exact h.mixed (hstate ▸ hb) d hd

omit [DecidableEq V] in
lemma of_empty (h : s.appenders.items = []) : BatchStateInv s :=
  ⟨fun _ => h, by simp [h], by simp [h]⟩

omit [DecidableEq V] in
lemma of_notInBatch (h : s.batchState = .notInBatch) : BatchStateInv s :=
  ⟨by simp [h], by simp [h], by simp [h]⟩

omit [DecidableEq V] in
/-- The connection and the write sets do not matter. -/
lemma of_eq (h : BatchStateInv s) (hstate : s'.batchState = s.batchState)
    (hitems : s'.appenders = s.appenders) : BatchStateInv s' :=
  h.mono hstate fun d hd => ⟨d, hitems ▸ hd, rfl⟩

omit [DecidableEq V] in
lemma registers (h : BatchStateInv s) (hreg : Registers s s') : BatchStateInv s' :=
  h.of_eq (by rw [hreg.rest_eq]) (by rw [hreg.rest_eq])

omit [DecidableEq V] in
lemma duckdbRegisterTrx (env : Env V) (h : BatchStateInv s) :
    BatchStateInv (s.duckdbRegisterTrx env).2 :=
  h.registers (duckdbRegisterTrx_registers env s)

lemma flushAppenders (env : Env V) (h : BatchStateInv s) :
    BatchStateInv (s.flushAppenders env).2 := by
  rcases hf : s.flushAppenders env with ⟨_ | _, s'⟩
  · obtain ⟨hs', -⟩ := flushAppenders_ok hf
    refine of_empty ?_
    rw [hs']
    rfl
  · obtain ⟨hs', hstop⟩ := flushAppenders_err hf
    refine h.mono (by rw [hs']) fun d' hd' => ?_
    obtain ⟨d, hd, heq⟩ := hstop.items_iff.2 d' hd'
    exact ⟨d, hd, by rw [heq, DeltaAppender.useTmpTable_withAppender]⟩

lemma getBatchState (env : Env V) (h : BatchStateInv s) (insertOnly : Bool) :
    BatchStateInv (s.getBatchState env insertOnly).2 := by
  have hflush := h.flushAppenders env
  rcases hg : s.getBatchState env insertOnly with ⟨_ | _, s'⟩
  · obtain ⟨s₁, hs₁, hchoice⟩ := getBatchState_ok hg
    have hinv : BatchStateInv s₁ := by
      rcases hs₁ with ⟨rfl, -⟩ | hf
      · exact h
      · rwa [hf] at hflush
    rcases hchoice with ⟨hundef, rfl⟩ | ⟨-, rfl⟩
    · -- a state is chosen only while there is no appender
      exact of_empty (hinv.undefined hundef)
    · exact hinv
  · rwa [(getBatchState_err hg).2] at hflush

/-- An appender that is found writes as the batch state says, and so does one that is created. -/
lemma of_getAppender (h : BatchStateInv s) (hstate : s.batchState ≠ .undefined) {t : TableName}
    {d : DeltaAppender V} {ds : DeltaAppenders V} {c : Conn V}
    (hget : s.appenders.getAppender env t (s.batchState = .inInsertOnlyBatch) s.conn
      = (some d, ds, c)) :
    BatchStateInv { s with appenders := ds, conn := c } ∧ d ∈ ds.items := by
  rcases DeltaAppenders.getAppender_cases env s.appenders t (s.batchState = .inInsertOnlyBatch)
    s.conn with ⟨d', hfind, heq⟩ | ⟨d', c', -, heq, hnew, -⟩ | ⟨c', -, heq, -⟩
  · cases heq.symm.trans hget
    exact ⟨h.of_eq rfl rfl, (KeyedList.find_eq_some.1 hfind).1⟩
  · cases heq.symm.trans hget
    have huse := hnew.useTmpTable_eq
    have hmem : ∀ e ∈ (s.appenders.set d).items, e = d ∨ e ∈ s.appenders.items := fun e he =>
      ((KeyedList.mem_put _).1 he).imp id And.left
    refine ⟨⟨fun hb => absurd hb hstate, fun hb e he => ?_, fun hb e he => ?_⟩,
      (KeyedList.mem_put _).2 (Or.inl rfl)⟩
    · rcases hmem e he with rfl | he
      · simp_all
      · exact h.insertOnly hb e he
    · rcases hmem e he with rfl | he
      · simp_all
      · exact h.mixed hb e he
  · cases heq.symm.trans hget

lemma appendOp (env : Env V) (h : BatchStateInv s) (hstate : s.batchState ≠ .undefined)
    (op : RowOp V) : BatchStateInv (s.appendOp env op).2 := by
  rcases happ : s.appendOp env op with ⟨e, s'⟩
  rcases appendOp_cases happ with ⟨d, ds, c, d', c', hget, hop, rfl⟩ | ⟨-, ds, c, hget, rfl⟩
  · obtain ⟨hinv, hd⟩ := h.of_getAppender hstate hget
    obtain ⟨rows, hwrote, -⟩ := RowOp.append_wrote hop
    refine hinv.mono rfl fun e he => ?_
    rcases (KeyedList.mem_put _).1 he with rfl | ⟨he, -⟩
    · exact ⟨d, hd, hwrote.useTmpTable_eq⟩
    · exact ⟨e, he, rfl⟩
  · rcases DeltaAppenders.getAppender_cases env s.appenders op.table
      (s.batchState = .inInsertOnlyBatch) s.conn with
        ⟨d, -, heq⟩ | ⟨d, c', -, heq, -⟩ | ⟨c', -, heq, -⟩ <;> cases heq.symm.trans hget
    exact h.of_eq rfl rfl

lemma deleteAppender (h : BatchStateInv s) (t : TableName) :
    BatchStateInv { s with
      appenders := (s.appenders.deleteAppender env t s.conn).1
      conn := (s.appenders.deleteAppender env t s.conn).2 } := by
  unfold DeltaAppenders.deleteAppender
  split
  · exact h.of_eq rfl rfl
  · exact h.mono rfl fun d hd => ⟨d, (List.mem_filter.1 hd).1, rfl⟩

omit [DecidableEq V] in
lemma duckdbTransCommit (env : Env V) (hs : s.appenders.items = []) :
    BatchStateInv (s.duckdbTransCommit env).2 := by
  unfold Session.duckdbTransCommit
  split <;> exact of_empty hs

lemma duckdbTransRollback (s : Session V) : BatchStateInv (s.duckdbTransRollback env) :=
  of_empty rfl

lemma runStmt (h : BatchStateInv s) (q : Stmt V) (err : HaError) :
    BatchStateInv (s.runStmt env q err).2 := by
  unfold Session.runStmt
  split <;> exact h.of_eq rfl rfl

lemma carryOut (env : Env V) {p : Plan V} (h : BatchStateInv p.state) (err : HaError) :
    BatchStateInv (carryOut env err p).2 := by
  cases p with
  | fail e s | buffered s => exact h
  | sql q s => exact h.runStmt q err

/-! ### The calls of the server -/

lemma getBatchState_ne_undefined {insertOnly : Bool}
    (h : s.getBatchState env insertOnly = (false, s')) : s'.batchState ≠ .undefined := by
  obtain ⟨s₁, -, ⟨-, rfl⟩ | ⟨hne, rfl⟩⟩ := getBatchState_ok h
  · simp only [chosenBatch]
    split_ifs <;> simp
  · exact hne

lemma batchPlan (h : BatchStateInv s) (op : RowOp V) :
    BatchStateInv (s.batchPlan env op).state := by
  have hget := h.getBatchState env op.insertOnly
  rcases batchPlan_cases env s op with ⟨s', hs', hplan⟩ | ⟨s₁, hs₁, ⟨-, hplan⟩ | ⟨-, hrest⟩⟩
  · rw [hs'] at hget
    rw [hplan]
    exact hget
  · obtain ⟨ws, hws⟩ := RowOp.direct_state env op s₁
    rw [hs₁] at hget
    rw [hplan, Plan.state, hws]
    exact hget.of_eq rfl rfl
  · rw [hs₁] at hget
    have happ := hget.appendOp env (getBatchState_ne_undefined hs₁) op
    rcases hrest with ⟨s₂, hs₂, hplan⟩ | ⟨s₂, hs₂, hplan⟩
    · rw [hs₂] at happ
      rw [hplan]
      exact happ
    · rw [hplan]
      exact of_notInBatch rfl

lemma rowOp (h : BatchStateInv s) (op : RowOp V) : BatchStateInv (s.rowOp env op).2 := by
  refine carryOut env ?_ _
  rcases planRow_cases env s op with ⟨e, s', hplan, hreg⟩ | ⟨s', hreg, hplan⟩
  · rw [hplan]
    exact h.registers hreg
  · rw [hplan]
    have hinv := h.duckdbRegisterTrx env
    rw [hreg] at hinv
    exact hinv.batchPlan op

lemma configDuckdbEnv (h : BatchStateInv s) (schema : Name) :
    BatchStateInv (s.configDuckdbEnv env schema) := by
  unfold Session.configDuckdbEnv
  split
  · exact h
  · exact h.of_eq rfl rfl

lemma runScript (h : BatchStateInv s) (script : List (Stmt V)) (err : HaError) :
    BatchStateInv (s.runScript env script err).2 := by
  have hreg := h.duckdbRegisterTrx env
  unfold Session.runScript
  split <;> rename_i hs <;> rw [hs] at hreg
  · exact hreg
  split <;> exact hreg.of_eq rfl rfl

lemma planDirect (h : BatchStateInv s) (unsafeQuote : Bool)
    (f : Name → Tables V → Option (Tables V)) :
    BatchStateInv (s.planDirect env unsafeQuote f).state := by
  have hreg := h.duckdbRegisterTrx env
  unfold Session.planDirect
  split
  · exact h
  split <;> rename_i s₁ hs <;> rw [hs] at hreg
  · exact hreg
  have hflush := hreg.flushAppenders env
  split <;> rename_i s₂ hs₂ <;> rw [hs₂] at hflush
  · exact hflush
  · exact hflush.configDuckdbEnv _

lemma rndInit (h : BatchStateInv s) (t : TableName) : BatchStateInv (s.rndInit env t).2 := by
  have hflush := h.flushAppenders env
  have hplan : BatchStateInv (s.planRndInit env).state := by
    unfold planRndInit
    split <;> rename_i hs <;> rw [hs] at hflush <;> exact hflush
  have hcarry := carryOut env hplan .internalError
  unfold Session.rndInit
  split <;> rename_i hs <;> rw [hs] at hcarry
  · exact hcarry
  · exact hcarry.of_eq rfl rfl

lemma renameTable (h : BatchStateInv s) (old new : TableName) :
    BatchStateInv (s.renameTable env old new).2 := by
  have hreg := h.duckdbRegisterTrx env
  unfold Session.renameTable
  split <;> rename_i s₁ hs <;> rw [hs] at hreg
  · exact hreg
  split
  · exact hreg
  have hflush := hreg.flushAppenders env
  split <;> rename_i s₂ hs₂ <;> rw [hs₂] at hflush
  · exact hflush
  split <;> exact hflush.of_eq rfl rfl

lemma deleteAllRows (h : BatchStateInv s) (t : TableName) :
    BatchStateInv (s.deleteAllRows env t).2 := by
  have hreg := h.duckdbRegisterTrx env
  unfold Session.deleteAllRows
  split <;> rename_i s₁ hs <;> rw [hs] at hreg
  · exact hreg
  · exact (hreg.deleteAppender t).runStmt _ _

lemma duckdbCommit (h : BatchStateInv s) (all : Bool) :
    BatchStateInv (s.duckdbCommit env all).2 := by
  unfold Session.duckdbCommit
  split
  · rcases hf : s.flushAppenders env with ⟨_ | _, s₁⟩
    · have hempty : s₁.appenders.items = [] := by
        rw [(flushAppenders_ok hf).1]
        rfl
      have hcommit := duckdbTransCommit env hempty
      dsimp only
      split <;> rename_i hs <;> rw [hs] at hcommit
      · exact duckdbTransRollback _
      · exact hcommit
    · exact duckdbTransRollback _
  · exact h

lemma create (h : BatchStateInv s) (t : TableName) (autoIncrement rejected : Bool) :
    BatchStateInv (s.create env t autoIncrement rejected).2 := by
  have hreg := h.duckdbRegisterTrx env
  unfold Session.create
  split
  · split <;> rename_i hs <;> rw [hs] at hreg <;> exact hreg
  · exact h.runScript _ _

lemma step (h : BatchStateInv s) (op : Op V) : BatchStateInv (s.step env op) := by
  cases op with
  | changeDb db | setExplicitTrx e | markColumns t ws => exact h.of_eq rfl rfl
  | row op => exact h.rowOp op
  | externalLock => exact h.duckdbRegisterTrx env
  | rndInit t => exact h.rndInit t
  | direct u f => exact carryOut env (h.planDirect u f) _
  | pushedSelect u =>
      refine carryOut env ?_ _
      unfold planPushedSelect
      split
      · exact h
      · exact h.configDuckdbEnv _
  | deleteAllRows t => exact h.deleteAllRows t
  | create t a r => exact h.create t a r
  | deleteTable t => exact h.runScript _ _
  | renameTable old new => exact h.renameTable old new
  | truncate t => exact h.runScript _ _
  | prepare all =>
      simp only [Session.step, call, callbackResult, duckdbPrepare]
      split
      · exact h.flushAppenders env
      · exact h
  | commit all => exact h.duckdbCommit all
  | rollback all =>
      simp only [Session.step, call, callbackResult, duckdbRollback]
      split
      · exact duckdbTransRollback s
      · exact h

/-! ### All calls -/

/-- Every call that is made in order keeps the invariant. -/
lemma batchStep (h : BatchStateInv s) {call : BatchCall V} (hcall : s.InOrder call) :
    BatchStateInv (s.batchStep env call) := by
  cases call with
  | server op => exact h.step op
  | getBatchState insertOnly => exact h.getBatchState env insertOnly
  | append op => exact h.appendOp env hcall op
  | fallback => exact of_notInBatch rfl
  | flushAppenders => exact h.flushAppenders env
  | deleteAppender t => exact h.deleteAppender t
  | transCommit => exact duckdbTransCommit env hcall
  | transRollback fails =>
      cases fails with
      | false => exact duckdbTransRollback s
      | true => exact of_empty rfl

/-- After `get_batch_state` for an update or deletion the session is in a mixed batch, if it is
in one at all. -/
lemma deletesAccepted (h : BatchStateInv s) : s.DeletesAccepted env := by
  intro t s₁ s₂ hreg hbatch hne d ds c hget
  have hs₁ := h.duckdbRegisterTrx env
  rw [hreg] at hs₁
  have hs₂ := hs₁.getBatchState env false
  rw [hbatch] at hs₂
  have hundef := getBatchState_ne_undefined hbatch
  have hmixed : s₂.batchState = .inMixBatch := by
    have hinsert := batchState_ne_of_getBatchState hbatch
    cases hb : s₂.batchState <;> simp_all
  obtain ⟨hinv, hd⟩ := hs₂.of_getAppender hundef hget
  exact hinv.mixed hmixed d hd

end BatchStateInv

/-- After any sequence of calls, whatever fails, the appenders write as the batch state says,
and a deletion is never refused for want of a mixed batch. -/
theorem batchStateInv_run (env : Env V) (b : Store V) (explicitTrx : Bool) (calls : List (BatchCall V))
    (hcalls : StepRun.Along (batchStep env) InOrder (start b explicitTrx) calls) :
    BatchStateInv (StepRun.run (batchStep env) (start b explicitTrx) calls) ∧
      DeletesAccepted env (StepRun.run (batchStep env) (start b explicitTrx) calls) := by
  have hinv : BatchStateInv (StepRun.run (batchStep env) (start b explicitTrx) calls) :=
    StepRun.run_inv (fun _ _ h hcall => h.batchStep hcall) (BatchStateInv.of_empty rfl) hcalls
  exact ⟨hinv, hinv.deletesAccepted⟩

/-- An insert-only batch whose ROLLBACK fails, and then a COMMIT and a deletion. -/
def failedRollback (t : TableName) (r : Record V) : List (BatchCall V) :=
  [.getBatchState true, .append (.write t r), .transRollback true, .transCommit,
    .server (.row (.delete t r))]

theorem batchStateInv_run_failedRollback :
    let env : Env ℕ := .reliable fun _ => .keyed 1
    let s := StepRun.run (batchStep env) (start (.ofTables 0) true)
      (failedRollback ⟨[], []⟩ fun _ => ⟨false, 7⟩)
    BatchStateInv s ∧ DeletesAccepted env s :=
  batchStateInv_run _ _ _ _ ⟨trivial, (by decide : BatchState.inInsertOnlyBatch ≠ .undefined),
    trivial, rfl, trivial, trivial⟩

end Session

end DuckdbEngine
