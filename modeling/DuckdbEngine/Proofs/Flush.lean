/-
What the flush of one appender does.

A flush that succeeds has merged the pending rows into the table (`merged`), has found
the buffer table and has dropped it.  One that fails has touched the appender's own
tables only; an insert-only batch then has every row either pending or in the table.
-/
import DuckdbEngine.Proofs.Append
import DuckdbEngine.Proofs.Merge

namespace DuckdbEngine

variable {V : Type} [DecidableEq V] {env : Env V}

lemma Conn.exec_append_ok {c c' : Conn V} {qs qs' : List (Stmt V)} :
    c.exec env (qs ++ qs') = (false, c') ↔
      ∃ c₁, c.exec env qs = (false, c₁) ∧ c₁.exec env qs' = (false, c') := by
  induction qs generalizing c with
  | nil => simp
  | cons q qs ih =>
      rcases Conn.step_cases env c q with h | ⟨st, -, h⟩
      · simp [Conn.exec, h]
      · simp [Conn.exec, h, ih]

lemma Conn.exec_singleton_ok {c c' : Conn V} {q : Stmt V} (h : c.exec env [q] = (false, c')) :
    ∃ st, q.eval c.schema c.store = some st ∧ c'.store = st := by
  obtain ⟨st, hst, -, hc⟩ := Conn.exec_cons_ok.1 h
  cases hc
  exact ⟨st, hst, Conn.store_after _ _ _⟩

namespace DeltaAppender

/-! ### The flush of one appender -/

/-- The contents of the table after a flush with the given pending rows. -/
def merged (d : DeltaAppender V) (rows : List (BufRow V)) (b : Multiset (Row V)) :
    Multiset (Row V) :=
  if d.useTmpTable then mergeRows d.pkList d.hasDelete d.hasInsert rows b else b + colsOf rows

omit [DecidableEq V] in
lemma flushScript_within {d : DeltaAppender V} (h : d.useTmpTable = true) (idem : Bool) :
    ∀ q ∈ d.flushScript idem, q.Within d.name d.buf := by
  have hbuf : d.buf = some d.tmpTableName := buf_eq_some.2 ⟨h, rfl⟩
  intro q hq
  simp only [flushScript, generateQuery, List.mem_append] at hq
  rcases hq with (hq | hq) | hq
  · split at hq
    · simp only [List.mem_cons, List.not_mem_nil, or_false] at hq
      rcases hq with rfl | rfl <;> simp [Stmt.Within]
    · simp at hq
  · split at hq
    · simp only [List.mem_cons, List.not_mem_nil, or_false] at hq
      rcases hq with rfl | rfl <;> simp [Stmt.Within]
    · simp at hq
  · rw [List.mem_singleton] at hq
    subst hq
    exact hbuf

lemma exec_deleteQuery_ok {d : DeltaAppender V} {c c' : Conn V}
    (h : c.exec env (d.generateQuery true) = (false, c')) :
    c'.store = c.store.setTable d.name
      (untouchedRows d.pkList (c.store.tmpRows d.tmpTableName) (c.store.tables d.name)) := by
  obtain ⟨st, hst, -, h⟩ := Conn.exec_cons_ok.1 h
  cases hst
  obtain ⟨st, hst, rfl⟩ := Conn.exec_singleton_ok h
  simp only [if_true, Stmt.eval, Conn.store_after, Option.map_eq_some_iff] at hst
  obtain ⟨T, hT, hst⟩ := hst
  rw [← hst]
  simp [Store.tmpRows, hT]

lemma exec_insertQuery_ok {d : DeltaAppender V} {c c' : Conn V}
    (h : c.exec env (d.generateQuery false) = (false, c')) :
    c'.store = c.store.setTable d.name
      (c.store.tables d.name
        + (latestRows d.pkList (c.store.tmpRows d.tmpTableName) : List (Row V))) := by
  obtain ⟨st, hst, -, h⟩ := Conn.exec_cons_ok.1 h
  cases hst
  obtain ⟨st, hst, rfl⟩ := Conn.exec_singleton_ok h
  simp only [Bool.false_eq_true, if_false, Stmt.eval, Conn.store_after] at hst
  split at hst
  · rename_i rs hrs
    rw [← Option.some.inj hst]
    simp [Store.tmpRows, hrs, TmpTable.rows]
  · cases hst

/-- The script of a mixed batch, when it gets to its end. -/
lemma exec_flushScript_ok {d : DeltaAppender V} {c c' : Conn V}
    (h : c.exec env (d.flushScript false) = (false, c')) :
    c'.store.tables d.name = mergeRows d.pkList d.hasDelete d.hasInsert
        (c.store.tmpRows d.tmpTableName) (c.store.tables d.name) ∧
      c.store.temps d.tmpTableName ≠ none ∧ c'.store.temps d.tmpTableName = none := by
  obtain ⟨c₂, h, hdrop⟩ := Conn.exec_append_ok.1 h
  obtain ⟨c₁, hdel, hins⟩ := Conn.exec_append_ok.1 h
  have h₁ : c₁.store = c.store.setTable d.name
      (if d.hasDelete then untouchedRows d.pkList (c.store.tmpRows d.tmpTableName)
        (c.store.tables d.name) else c.store.tables d.name) := by
    cases hd : d.hasDelete with
    | true =>
        simp only [hd, Bool.true_or, if_true] at hdel
        simpa using exec_deleteQuery_ok hdel
    | false =>
        simp only [hd, Bool.or_false, Bool.false_eq_true, if_false, Conn.exec_nil,
          Prod.mk.injEq, true_and] at hdel
        subst hdel
        simp [Store.setTable]
  have h₂ : c₂.store.tables d.name = mergeRows d.pkList d.hasDelete d.hasInsert
      (c.store.tmpRows d.tmpTableName) (c.store.tables d.name) ∧
      c₂.store.temps = c.store.temps := by
    cases hi : d.hasInsert with
    | true =>
        simp only [hi, if_true] at hins
        rw [exec_insertQuery_ok hins, h₁]
        simp [mergeRows]
    | false =>
        simp only [hi, Bool.false_eq_true, if_false, Conn.exec_nil, Prod.mk.injEq, true_and] at hins
        subst hins
        rw [h₁]
        simp [mergeRows]
  obtain ⟨st, hst, rfl⟩ := Conn.exec_singleton_ok hdrop
  simp only [Stmt.eval, Option.map_eq_some_iff] at hst
  obtain ⟨T, hT, hst⟩ := hst
  rw [← hst]
  refine ⟨by rw [Store.tables_setTemp]; exact h₂.1, ?_, by simp⟩
  rw [← h₂.2, hT]
  simp

/-- A successful flush merges the pending rows into the table and drops the buffer
table. -/
lemma flush_ok {d d' : DeltaAppender V} {c c' : Conn V}
    (h : d.flush env false c = (false, d', c')) :
    d' = d.discard ∧ Conn.Frame d.name d.buf c c' ∧
      c'.store.tables d.name = d.merged (d.pending c.store) (c.store.tables d.name) ∧
      (d.useTmpTable = true →
        c.store.temps d.tmpTableName ≠ none ∧ c'.store.temps d.tmpTableName = none) := by
  have hwrote := wrote_flush env d c
  have hcleared : (d.appender.flush env d.target c).1 = false →
      (d.appender.flush env d.target c).2.1 = .cleared := by
    rcases Appender.flush_cases env d.appender d.target c with
      ⟨c₁, h, -⟩ | ⟨hinc, ⟨hnil, h⟩ | ⟨st, -, h⟩⟩
    · simp [h]
    · rw [h]
      intro _
      show d.appender = ⟨[], false⟩
      rw [← hnil, ← hinc]
    · rw [h]
      intro _
      show (⟨[], d.appender.incomplete⟩ : Appender V) = ⟨[], false⟩
      rw [hinc]
  unfold flush at h
  rcases hin : d.appender.flush env d.target c with ⟨e, a, c₁⟩
  rw [hin] at h hwrote hcleared
  cases e with
  | true => cases h
  | false =>
      obtain rfl : a = .cleared := hcleared rfl
      dsimp only at h hwrote
      cases htmp : d.useTmpTable with
      | true =>
          rw [if_pos htmp] at h
          rcases hex : c₁.exec env (d.flushScript false) with ⟨e, c₂⟩
          rw [hex] at h
          cases h
          obtain ⟨htab, hsome, hnone⟩ := exec_flushScript_ok hex
          have hframe := Conn.Frame.exec env (flushScript_within htmp false) c₁
          rw [hex] at hframe
          have hrows : c₁.store.tmpRows d.tmpTableName = d.pending c.store := by
            have hp := hwrote.pending_eq htmp
            rw [pending_of_tmp (by simpa using htmp)] at hp
            simpa [Appender.cleared] using hp
          have hsome' : c.store.temps d.tmpTableName ≠ none := by
            intro hnone'
            -- an append to a missing buffer table would have failed
            have hwritten : c₁.store.temps d.tmpTableName = none := by
              rcases Appender.flush_cases env d.appender d.target c with
                ⟨c₃, h₃, -⟩ | ⟨-, ⟨-, h₃⟩ | ⟨st, hst, h₃⟩⟩
              · rw [hin] at h₃
                cases h₃
              · rw [hin] at h₃
                rw [(Prod.mk.inj (Prod.mk.inj h₃).2).2]
                exact hnone'
              · rw [target_of_tmp htmp] at hst
                obtain ⟨rs, hrs, -⟩ := eval_append_temp hst
                rw [hnone'] at hrs
                cases hrs
            exact hsome hwritten
          refine ⟨rfl, hwrote.frame.trans hframe, ?_, fun _ => ⟨hsome', hnone⟩⟩
          rw [htab, hrows, hwrote.tables_eq htmp, merged, if_pos htmp]
      | false =>
          rw [if_neg (by simp [htmp])] at h
          cases h
          refine ⟨rfl, hwrote.frame, ?_, by simp⟩
          have hadd := hwrote.tables_add htmp
          rw [pending_of_not_tmp (by simpa using htmp)] at hadd
          simpa [merged, htmp, Appender.cleared] using hadd

/-- A flush that fails touches the appender's own tables only; one of an insert-only
batch has lost nothing. -/
lemma flush_err {d d' : DeltaAppender V} {idem : Bool} {c c' : Conn V}
    (h : d.flush env idem c = (true, d', c')) :
    d' = d.withAppender d'.appender ∧ Conn.Frame d.name d.buf c c' ∧
      (d.useTmpTable = false → Wrote [] d d' c c') := by
  have hwrote := wrote_flush env d c
  unfold flush at h
  rcases hin : d.appender.flush env d.target c with ⟨e, a, c₁⟩
  rw [hin] at h hwrote
  cases e with
  | true =>
      cases h
      exact ⟨rfl, hwrote.frame, fun _ => hwrote⟩
  | false =>
      dsimp only at h hwrote
      cases htmp : d.useTmpTable with
      | true =>
          rw [if_pos htmp] at h
          have hframe := Conn.Frame.exec env (flushScript_within htmp idem) c₁
          rcases hex : c₁.exec env (d.flushScript idem) with ⟨e, c₂⟩
          rw [hex] at h hframe
          cases h
          exact ⟨rfl, hwrote.frame.trans hframe, by simp⟩
      | false =>
          rw [if_neg (by simp [htmp])] at h
          cases h

end DeltaAppender

end DuckdbEngine
