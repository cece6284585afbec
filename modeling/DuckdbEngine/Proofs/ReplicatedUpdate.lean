/-
The write set across the rows of a replicated UPDATE.

The applier marks the columns of the after-image in the table's write set once per
event and then calls `update_row` for every row.  `update_row` refuses a row while the
write set is not complete.  Outside a batch it narrows the write set itself, to the
columns that differ in the current row, and does not restore it.  So the rows behind
one that changes some of the columns are refused.
-/
import DuckdbEngine.Proofs.RowPlan

namespace DuckdbEngine

variable {V : Type}

namespace Session

/-- The write set covers all columns of the table. -/
def Complete (env : Env V) (s : Session V) (t : TableName) : Prop :=
  ∀ i < (env.table t).fields, s.writeSet t i = true

variable [DecidableEq V] (env : Env V)

/-- `update_row` leaves columns out of the write set: it executes the row outside a batch, only
modified columns are to be written, and some columns differ while others do not. -/
def narrows (s : Session V) (t : TableName) (oldRow record0 : Record V) : Bool :=
  match s.duckdbRegisterTrx env with
  | (true, _) => false
  | (false, s) =>
      match s.getBatchState env false with
      | (true, _) => false
      | (false, s) =>
          s.batchState = .notInBatch && env.updateModifiedColumnOnly s.conn.clock &&
            (env.table t).calcRowDifference oldRow record0 &&
            !(List.range (env.table t).fields).all ((env.table t).calcFieldDifference oldRow record0)

/-- The calls for the rows of one event, given by their old and new images. -/
def replicatedCalls (t : TableName) (rows : List (Record V × Record V)) : List (Op V) :=
  rows.map fun r => .row (.update t r.1 r.2)

/-- The call is not refused for want of columns. -/
def Accepted (s : Session V) : Op V → Prop
  | .row (.update t _ _) => s.lacksColumns env t = false
  | _ => True

/-- The call leaves no columns out of the write set. -/
def Widely (s : Session V) : Op V → Prop
  | .row (.update t oldRow record0) => s.narrows env t oldRow record0 = false
  | _ => True

variable {env} {s s' : Session V} {t : TableName}

/-! ### What an update does to the write set -/

/-- From `s` to `s'` the server's marks have not changed. -/
structure SameMarks (s s' : Session V) : Prop where
  writeSet_eq : s'.writeSet = s.writeSet
  rowInjection_eq : s'.rowInjection = s.rowInjection

namespace SameMarks

omit [DecidableEq V] in
lemma trans {s'' : Session V} (h : SameMarks s s') (h' : SameMarks s' s'') : SameMarks s s'' :=
  ⟨h'.writeSet_eq.trans h.writeSet_eq, h'.rowInjection_eq.trans h.rowInjection_eq⟩

omit [DecidableEq V] in
lemma of_registers (h : Registers s s') : SameMarks s s' :=
  ⟨by rw [h.rest_eq], by rw [h.rest_eq]⟩

lemma flushAppenders {e : Bool} (h : s.flushAppenders env = (e, s')) : SameMarks s s' := by
  cases e with
  | false =>
      obtain ⟨hs', -⟩ := flushAppenders_ok h
      exact ⟨by rw [hs'], by rw [hs']⟩
  | true =>
      obtain ⟨hs', -⟩ := flushAppenders_err h
      exact ⟨by rw [hs'], by rw [hs']⟩

lemma getBatchState {insertOnly e : Bool} (h : s.getBatchState env insertOnly = (e, s')) :
    SameMarks s s' := by
  cases e with
  | true => exact flushAppenders (getBatchState_err h).2
  | false =>
      obtain ⟨s₁, hs₁, hs'⟩ := getBatchState_ok h
      have hmarks : SameMarks s s₁ := by
        rcases hs₁ with ⟨rfl, -⟩ | hflush
        · exact ⟨rfl, rfl⟩
        · exact flushAppenders hflush
      rcases hs' with ⟨-, rfl⟩ | ⟨-, rfl⟩
      · exact hmarks.trans ⟨rfl, rfl⟩
      · exact hmarks

lemma appendOp {op : RowOp V} {e : Bool} (h : s.appendOp env op = (e, s')) : SameMarks s s' := by
  rcases appendOp_cases h with ⟨d, ds, c, d', c', -, -, rfl⟩ | ⟨-, ds, c, -, rfl⟩ <;>
    exact ⟨rfl, rfl⟩

lemma runStmt (s : Session V) (q : Stmt V) (err : HaError) :
    SameMarks s (s.runStmt env q err).2 := by
  unfold Session.runStmt
  split <;> exact ⟨rfl, rfl⟩

end SameMarks

omit [DecidableEq V] in
lemma lacksColumns_eq_false (hinj : s.rowInjection = true) :
    s.lacksColumns env t = false ↔ s.Complete env t := by
  simp [lacksColumns, Complete, hinj]

/-- The state behind the narrowing, if the row gets there. -/
lemma narrowWriteSet_marks (env : Env V) (s : Session V) (t : TableName)
    (oldRow record0 : Record V) :
    (s.narrowWriteSet env t oldRow record0).rowInjection = s.rowInjection ∧
      (s.narrowWriteSet env t oldRow record0).writeSet =
        if env.updateModifiedColumnOnly s.conn.clock &&
            (env.table t).calcRowDifference oldRow record0 then
          Function.update s.writeSet t ((env.table t).calcFieldDifference oldRow record0)
        else s.writeSet := by
  unfold narrowWriteSet
  split <;> exact ⟨rfl, rfl⟩

/-- Whether an update that is not refused leaves the marks alone or gets to the place where the
write set is narrowed. -/
lemma update_cases (oldRow record0 : Record V) (hlacks : s.lacksColumns env t = false) :
    (SameMarks s (s.step env (.row (.update t oldRow record0))) ∧
        s.narrows env t oldRow record0 = false) ∨
      ∃ s₂, SameMarks s s₂ ∧
        SameMarks (s₂.narrowWriteSet env t oldRow record0)
          (s.step env (.row (.update t oldRow record0))) ∧
        s.narrows env t oldRow record0 =
          (env.updateModifiedColumnOnly s₂.conn.clock &&
            (env.table t).calcRowDifference oldRow record0 &&
            !(List.range (env.table t).fields).all
              ((env.table t).calcFieldDifference oldRow record0)) := by
  have hstep : ∀ {p : Plan V}, s.planRow env (.update t oldRow record0) = p →
      SameMarks p.state (s.step env (.row (.update t oldRow record0))) := by
    intro p hp
    simp only [step, call, rowOp, hp]
    cases p with
    | fail e s₁ | buffered s₁ => exact ⟨rfl, rfl⟩
    | sql q s₁ => exact SameMarks.runStmt s₁ q _
  rcases hreg : s.duckdbRegisterTrx env with ⟨_ | _, s₁⟩
  case true =>
      have hplan : s.planRow env (.update t oldRow record0) = .fail .generic s₁ := by
        simp [planRow, hlacks, hreg]
      have hs₁ := SameMarks.of_registers (duckdbRegisterTrx_err hreg)
      exact Or.inl ⟨hs₁.trans (hstep hplan), by simp [narrows, hreg]⟩
  case false =>
      have hplan : s.planRow env (.update t oldRow record0) =
          s₁.batchPlan env (.update t oldRow record0) := by
        simp only [planRow, hlacks, hreg]
        rfl
      have hs₁ := SameMarks.of_registers (duckdbRegisterTrx_ok hreg).1
      rcases batchPlan_cases env s₁ (.update t oldRow record0) with
        ⟨s₂, hs₂, hp⟩ | ⟨s₂, hs₂, hrest⟩ <;>
          have hs := hs₁.trans (.getBatchState hs₂) <;>
          simp only [RowOp.insertOnly] at hs₂
      · exact Or.inl ⟨hs.trans (hstep (hplan.trans hp)), by simp [narrows, hreg, hs₂]⟩
      rcases hrest with ⟨hb, hp⟩ | ⟨hb, ⟨s₃, hs₃, hp⟩ | ⟨s₃, hs₃, hp⟩⟩
      · exact Or.inr ⟨s₂, hs, hstep (hplan.trans hp), by simp [narrows, hreg, hs₂, hb]⟩
      · exact Or.inl ⟨(hs.trans (.appendOp hs₃)).trans (hstep (hplan.trans hp)),
          by simp [narrows, hreg, hs₂, hb]⟩
      · have hleave : SameMarks s₃ { s₃ with batchState := .notInBatch } := ⟨rfl, rfl⟩
        exact Or.inl ⟨((hs.trans (.appendOp hs₃)).trans hleave).trans (hstep (hplan.trans hp)),
          by simp [narrows, hreg, hs₂, hb]⟩

/-- An update keeps a complete write set complete exactly if it leaves no column out. -/
lemma complete_step_update (oldRow record0 : Record V) (hinj : s.rowInjection = true)
    (hfull : s.Complete env t) :
    (s.step env (.row (.update t oldRow record0))).rowInjection = true ∧
      ((s.step env (.row (.update t oldRow record0))).Complete env t ↔
        s.narrows env t oldRow record0 = false) := by
  rcases update_cases oldRow record0 ((lacksColumns_eq_false hinj).2 hfull) with
    ⟨hstep, hno⟩ | ⟨s₂, hs₂, hstep, hnarrows⟩
  · refine ⟨hstep.rowInjection_eq.trans hinj, iff_of_true (fun i hi => ?_) hno⟩
    rw [hstep.writeSet_eq]
    exact hfull i hi
  · obtain ⟨hi, hw⟩ := narrowWriteSet_marks env s₂ t oldRow record0
    refine ⟨?_, ?_⟩
    · rw [hstep.rowInjection_eq, hi, hs₂.rowInjection_eq, hinj]
    rw [Complete, hstep.writeSet_eq, hw, hnarrows]
    cases env.updateModifiedColumnOnly s₂.conn.clock &&
        (env.table t).calcRowDifference oldRow record0 with
    | false => simpa [hs₂.writeSet_eq, Complete] using hfull
    | true => simp

/-! ### The rows of an event -/

lemma along_accepted_iff (rows : List (Record V × Record V)) (hinj : s.rowInjection = true)
    (hfull : s.Complete env t) :
    StepRun.Along (step env) (Accepted env) s (replicatedCalls t rows) ↔
      StepRun.Along (step env) (Widely env) s (replicatedCalls t rows.dropLast) := by
  induction rows generalizing s with
  | nil => exact Iff.rfl
  | cons r rows ih =>
      obtain ⟨hinj', hkeep⟩ := complete_step_update r.1 r.2 hinj hfull
      have haccept : Accepted env s (.row (.update t r.1 r.2)) :=
        (lacksColumns_eq_false hinj).2 hfull
      cases rows with
      | nil => simp [replicatedCalls, haccept]
      | cons r' rows =>
          rw [List.dropLast_cons_cons]
          simp only [replicatedCalls, List.map_cons, StepRun.along_cons] at ih ⊢
          by_cases hwide : s.narrows env t r.1 r.2 = false
          · have hrest := ih hinj' (hkeep.2 hwide)
            simp only [haccept, true_and, hrest]
            exact (and_iff_right hwide).symm
          · -- the next row is refused
            have hno : ¬ (s.step env (.row (.update t r.1 r.2))).Complete env t :=
              fun h => hwide (hkeep.1 h)
            rw [← lacksColumns_eq_false hinj'] at hno
            exact iff_of_false (fun h => hno h.2.1) fun h => hwide h.1

/-- All rows of a replicated UPDATE with full images are accepted exactly if no call but the last
narrows the write set; and a call leaves the write set complete exactly if it does not narrow it. -/
theorem replicated_update_accepted_iff (env : Env V) (s : Session V) (t : TableName)
    (rows : List (Record V × Record V)) (hinj : s.rowInjection = true)
    (hfull : s.Complete env t) :
    (StepRun.Along (step env) (Accepted env) s (replicatedCalls t rows) ↔
      StepRun.Along (step env) (Widely env) s (replicatedCalls t rows.dropLast)) ∧
    ∀ oldRow record0, (s.step env (.row (.update t oldRow record0))).Complete env t ↔
      s.narrows env t oldRow record0 = false :=
  ⟨along_accepted_iff rows hinj hfull, fun old new => (complete_step_update old new hinj hfull).2⟩

/-- Two columns, the first of which is the key, and no batches. -/
def unbatched : Env ℕ := { Env.reliable fun _ => .keyed 1 with dmlInBatch := fun _ => false }

/-- The applier's session at the beginning of an event with full images. -/
def applier : Session ℕ := { start (.ofTables 0) true with rowInjection := true }

/-- The row with the given key and value. -/
def keyAndValue (k v : ℕ) : Record ℕ := fun i => ⟨false, if i = 0 then k else v⟩

/-- Two rows; both columns of the first one change, and the key of the second one does not. -/
def wideRows : List (Record ℕ × Record ℕ) :=
  [(keyAndValue 1 10, keyAndValue 3 11), (keyAndValue 2 20, keyAndValue 2 21)]

/-- The first row leaves the write set complete, so that the second one is accepted, too. -/
theorem replicated_update_accepted_of_wideRows :
    applier.Complete unbatched ⟨[], []⟩ ∧
      StepRun.Along (step unbatched) (Accepted unbatched) applier
        (replicatedCalls ⟨[], []⟩ wideRows) := by
  have hfull : applier.Complete unbatched ⟨[], []⟩ := fun _ _ => rfl
  have hiff := replicated_update_accepted_iff unbatched applier ⟨[], []⟩ wideRows rfl hfull
  have hwide : applier.narrows unbatched ⟨[], []⟩ (keyAndValue 1 10) (keyAndValue 3 11) = false := by
    decide +kernel
  exact ⟨hfull, hiff.1.2 ⟨hwide, trivial⟩⟩

/-- Two rows of which the value changes and the key does not. -/
def twoRows : List (Record ℕ × Record ℕ) :=
  [(keyAndValue 1 10, keyAndValue 1 11), (keyAndValue 2 20, keyAndValue 2 21)]

/-- The second row is refused because of what the first one did to the write set. -/
theorem second_update_is_refused :
    applier.Complete unbatched ⟨[], []⟩ ∧
      ¬ StepRun.Along (step unbatched) (Accepted unbatched) applier
        (replicatedCalls ⟨[], []⟩ twoRows) ∧
      ((applier.step unbatched (.row (.update ⟨[], []⟩ (keyAndValue 1 10) (keyAndValue 1 11)))).call
        unbatched (.row (.update ⟨[], []⟩ (keyAndValue 2 20) (keyAndValue 2 21)))).1 =
          some .dmlError := by
  have hlacks : (applier.step unbatched
      (.row (.update ⟨[], []⟩ (keyAndValue 1 10) (keyAndValue 1 11)))).lacksColumns unbatched ⟨[], []⟩
        = true := by
    decide +kernel
  refine ⟨fun _ _ => rfl, fun h => ?_, by decide +kernel⟩
  have hsecond : _ = false := h.2.1
  rw [hlacks] at hsecond
  cases hsecond

end Session

end DuckdbEngine
