/-
What buffering a row does.

`DeltaAppender.pending` are the rows that an appender holds back: those in its
buffer table and those that have not left the appender of DuckDB.  `Wrote rows`
says of two states that `rows` were added to the pending rows and nothing else was
changed; an appender of an insert-only batch may have written pending rows to the
table at any time.  A successful append adds its rows, and one that fails adds
none, or leaves rows pending.
-/
import DuckdbEngine.Runtime.DeltaAppender

namespace DuckdbEngine

variable {V : Type}

/-- The buffer table `x` is there with all its columns. -/
def Store.Ready (st : Store V) (x : CatalogName) : Prop := ∃ rs, st.temps x = some (.ready rs)

/-- The columns of the base table in a list of rows, as a bag. -/
def colsOf (rows : List (BufRow V)) : Multiset (Row V) := (rows.map BufRow.cols : List (Row V))

@[simp] lemma colsOf_nil : colsOf ([] : List (BufRow V)) = 0 := rfl

@[simp] lemma colsOf_append (rows rows' : List (BufRow V)) :
    colsOf (rows ++ rows') = colsOf rows + colsOf rows' := by
  simp [colsOf]

namespace DeltaAppender

/-- The buffer table of an appender that has one. -/
def buf (d : DeltaAppender V) : Option CatalogName :=
  if d.useTmpTable then some d.tmpTableName else none

/-- The rows that have been handed to the appender and have not reached the table. -/
def pending (d : DeltaAppender V) (st : Store V) : List (BufRow V) :=
  (if d.useTmpTable then st.tmpRows d.tmpTableName else []) ++ d.appender.buffer

lemma pending_of_tmp {d : DeltaAppender V} (h : d.useTmpTable = true) (st : Store V) :
    d.pending st = st.tmpRows d.tmpTableName ++ d.appender.buffer := by
  rw [pending, if_pos h]

lemma pending_of_not_tmp {d : DeltaAppender V} (h : d.useTmpTable = false) (st : Store V) :
    d.pending st = d.appender.buffer := by
  simp [pending, h]

lemma buf_eq_some {d : DeltaAppender V} {x : CatalogName} :
    d.buf = some x ↔ d.useTmpTable = true ∧ d.tmpTableName = x := by
  unfold buf
  split <;> simp_all

/-- From `d` and `c` to `d'` and `c'` the rows were handed to the appender. -/
structure Wrote (rows : List (BufRow V)) (d d' : DeltaAppender V) (c c' : Conn V) : Prop where
  useTmpTable_eq : d'.useTmpTable = d.useTmpTable
  name_eq : d'.name = d.name
  pkList_eq : d'.pkList = d.pkList
  frame : Conn.Frame d.name d.buf c c'
  tables_eq : d.useTmpTable = true → c'.store.tables d.name = c.store.tables d.name
  pending_eq : d.useTmpTable = true → d'.pending c'.store = d.pending c.store ++ rows
  ready_iff : d.useTmpTable = true →
    (c'.store.Ready d.tmpTableName ↔ c.store.Ready d.tmpTableName)
  tables_add : d.useTmpTable = false →
    c'.store.tables d.name + colsOf (d'.pending c'.store)
      = c.store.tables d.name + colsOf (d.pending c.store) + colsOf rows

namespace Wrote

variable {rows rows' : List (BufRow V)} {d d' d'' : DeltaAppender V} {c c' c'' : Conn V}

lemma tmpTableName_eq (h : Wrote rows d d' c c') : d'.tmpTableName = d.tmpTableName := by
  rw [tmpTableName, h.name_eq, tmpTableName]

lemma buf_eq (h : Wrote rows d d' c c') : d'.buf = d.buf := by
  rw [buf, h.useTmpTable_eq, h.tmpTableName_eq, buf]

lemma trans (h : Wrote rows d d' c c') (h' : Wrote rows' d' d'' c' c'') :
    Wrote (rows ++ rows') d d'' c c'' where
  useTmpTable_eq := h'.useTmpTable_eq.trans h.useTmpTable_eq
  name_eq := h'.name_eq.trans h.name_eq
  pkList_eq := h'.pkList_eq.trans h.pkList_eq
  frame := by
    have hframe := h'.frame
    rw [h.buf_eq, h.name_eq] at hframe
    exact h.frame.trans hframe
  tables_eq htmp := by
    have htab := h'.tables_eq (h.useTmpTable_eq.trans htmp)
    rw [h.name_eq] at htab
    exact htab.trans (h.tables_eq htmp)
  pending_eq htmp := by
    rw [h'.pending_eq (h.useTmpTable_eq.trans htmp), h.pending_eq htmp, List.append_assoc]
  ready_iff htmp := by
    have hready := h'.ready_iff (h.useTmpTable_eq.trans htmp)
    rw [h.tmpTableName_eq] at hready
    exact hready.trans (h.ready_iff htmp)
  tables_add htmp := by
    have hadd := h'.tables_add (h.useTmpTable_eq.trans htmp)
    rw [h.name_eq] at hadd
    rw [hadd, h.tables_add htmp, colsOf_append, add_assoc]

/-- Counters and flags do not matter. -/
lemma of_eq (huse : d'.useTmpTable = d.useTmpTable) (hname : d'.name = d.name)
    (hpk : d'.pkList = d.pkList) (happ : d'.appender.buffer = d.appender.buffer)
    (hc : Conn.Frame d.name d.buf c c') (hst : c'.store = c.store) : Wrote [] d d' c c' := by
  have hpending : d'.pending c'.store = d.pending c.store := by
    rw [pending, huse, tmpTableName, hname, happ, hst, pending, tmpTableName]
  refine ⟨huse, hname, hpk, hc, fun _ => by rw [hst], fun _ => ?_, fun _ => by rw [hst],
    fun _ => ?_⟩
  · rw [hpending, List.append_nil]
  · rw [hpending, hst, colsOf_nil, add_zero]

end Wrote

end DeltaAppender

/-! ### The appender of DuckDB -/

section

variable [DecidableEq V] {env : Env V}

namespace Appender

/-- What a flush can do: fail without an effect, find nothing to do, or write all the
rows. -/
lemma flush_cases (env : Env V) (a : Appender V) (target : Target) (c : Conn V) :
    (∃ c', a.flush env target c = (true, a, c') ∧ (c' = c ∨ c' = c.tick)) ∨
      a.incomplete = false ∧
        (a.buffer = [] ∧ a.flush env target c = (false, a, c) ∨
          ∃ st, (Stmt.append target a.buffer).eval c.schema c.store = some st ∧
            a.flush env target c
              = (false, { a with buffer := [] }, c.after (.append target a.buffer) st)) := by
  unfold flush
  split
  · exact Or.inl ⟨c, rfl, Or.inl rfl⟩
  rename_i hinc
  have hinc : a.incomplete = false := by simpa using hinc
  split
  · rename_i hempty
    exact Or.inr ⟨hinc, Or.inl ⟨by simpa using hempty, rfl⟩⟩
  rcases Conn.step_cases env c (.append target a.buffer) with h | ⟨st, hst, h⟩
  · rw [h]
    exact Or.inl ⟨c.tick, rfl, Or.inr rfl⟩
  · rw [h]
    exact Or.inr ⟨hinc, Or.inr ⟨st, hst, rfl⟩⟩

end Appender

lemma eval_append_temp {schema : Name} {st st' : Store V} {x : CatalogName} {rows : List (BufRow V)}
    (h : (Stmt.append (.temp x) rows).eval schema st = some st') :
    ∃ rs, st.temps x = some (.ready rs) ∧ st' = st.setTemp x (some (.ready (rs ++ rows))) := by
  simp only [Stmt.eval] at h
  split at h
  · rename_i rs hrs
    cases h
    exact ⟨rs, hrs, rfl⟩
  · cases h

namespace DeltaAppender

omit [DecidableEq V] in
lemma append_within (d : DeltaAppender V) (rows : List (BufRow V)) :
    (Stmt.append d.target rows).Within d.name d.buf := by
  unfold target buf
  split <;> simp [Stmt.Within]

omit [DecidableEq V] in
lemma target_of_tmp {d : DeltaAppender V} (h : d.useTmpTable = true) :
    d.target = .temp d.tmpTableName := by
  simp [target, h]

omit [DecidableEq V] in
lemma target_of_not_tmp {d : DeltaAppender V} (h : d.useTmpTable = false) :
    d.target = .base d.name := by
  simp [target, h]

/-- Writing the rows of the buffer to the target leaves the pending rows of a mixed
batch as they are, and moves those of an insert-only batch to the table. -/
lemma wrote_after {d : DeltaAppender V} {c : Conn V} {st : Store V}
    (h : (Stmt.append d.target d.appender.buffer).eval c.schema c.store = some st) :
    Wrote [] d (d.withAppender { d.appender with buffer := [] }) c
      (c.after (.append d.target d.appender.buffer) st) := by
  have hframe : Conn.Frame d.name d.buf c (c.after (.append d.target d.appender.buffer) st) := by
    obtain ⟨hcat, htab, htmp⟩ := Stmt.eval_within (d.append_within d.appender.buffer) h
    exact ⟨fun b hb => hb.after _ _, by simpa using hcat, by simpa using htab, by simpa using htmp⟩
  refine ⟨rfl, rfl, rfl, hframe, ?_, ?_, ?_, ?_⟩
  · intro htmp
    rw [target_of_tmp htmp] at h
    obtain ⟨rs, -, rfl⟩ := eval_append_temp h
    rw [Conn.store_after, Store.tables_setTemp]
  · intro htmp
    rw [target_of_tmp htmp] at h
    obtain ⟨rs, hrs, rfl⟩ := eval_append_temp h
    have hold : c.store.tmpRows d.tmpTableName = rs := by simp [Store.tmpRows, hrs, TmpTable.rows]
    rw [pending_of_tmp htmp, pending_of_tmp (by simpa using htmp), hold, tmpTableName_withAppender,
      appender_withAppender, Conn.store_after, Store.tmpRows_setTemp_self, Option.elim_some,
      TmpTable.rows]
  · intro htmp
    rw [target_of_tmp htmp] at h
    obtain ⟨rs, hrs, rfl⟩ := eval_append_temp h
    simp [Store.Ready, hrs]
  · intro htmp
    rw [target_of_not_tmp htmp] at h
    cases h
    rw [pending_of_not_tmp htmp, pending_of_not_tmp (by simpa using htmp)]
    simp [colsOf]

/-- The flush of the inner appender. -/
lemma wrote_flush (env : Env V) (d : DeltaAppender V) (c : Conn V) :
    Wrote [] d (d.withAppender (d.appender.flush env d.target c).2.1) c
      (d.appender.flush env d.target c).2.2 := by
  rcases Appender.flush_cases env d.appender d.target c with
    ⟨c', h, rfl | rfl⟩ | ⟨-, ⟨-, h⟩ | ⟨st, hst, h⟩⟩
  · rw [h]
    exact Wrote.of_eq rfl rfl rfl rfl (Conn.Frame.refl c') rfl
  · rw [h]
    exact Wrote.of_eq rfl rfl rfl rfl (Conn.Frame.tick c) rfl
  · rw [h]
    exact Wrote.of_eq rfl rfl rfl rfl (Conn.Frame.refl c) rfl
  · rw [h]
    exact wrote_after hst

/-! ### Handing a row to the appender -/

omit [DecidableEq V] in
lemma wrote_push (d : DeltaAppender V) (row : BufRow V) {c c' : Conn V}
    (hc : Conn.Frame d.name d.buf c c') (hst : c'.store = c.store) :
    Wrote [row] d (d.withAppender { d.appender with buffer := d.appender.buffer ++ [row] }) c c' := by
  have hpending : (d.withAppender { d.appender with buffer := d.appender.buffer ++ [row] }).pending
      c'.store = d.pending c.store ++ [row] := by
    simp [pending, hst]
  refine ⟨rfl, rfl, rfl, hc, fun _ => by rw [hst], fun _ => hpending, fun _ => by rw [hst], ?_⟩
  intro _
  rw [hpending, hst, colsOf_append, add_assoc]

/-- The append of the row was not refused: the row is in the buffer, and the
appender may flush by itself. -/
lemma wrote_push_flush (env : Env V) (d : DeltaAppender V) (row : BufRow V) (c : Conn V) :
    ∃ e a c',
      ({ d.appender with buffer := d.appender.buffer ++ [row] } : Appender V).flush env d.target
          c.tick = (e, a, c') ∧
        Wrote [row] d (d.withAppender a) c c' ∧
        (e = true → (d.withAppender a).pending c'.store ≠ []) := by
  have hpush := d.wrote_push row (Conn.Frame.tick c) rfl
  have hflush := hpush.trans (wrote_flush env _ c.tick)
  simp only [appender_withAppender, List.append_nil] at hflush
  rcases Appender.flush_cases env
      { d.appender with buffer := d.appender.buffer ++ [row] } d.target c.tick with
    ⟨c', h, -⟩ | ⟨-, ⟨hnil, -⟩ | ⟨st, -, h⟩⟩
  · refine ⟨true, _, c', h, ?_, fun _ => by simp [pending]⟩
    have htarget : (d.withAppender { d.appender with buffer := d.appender.buffer ++ [row] }).target
        = d.target := rfl
    rw [htarget, h] at hflush
    exact hflush
  · simp at hnil
  · refine ⟨false, _, _, h, ?_, by simp⟩
    have htarget : (d.withAppender { d.appender with buffer := d.appender.buffer ++ [row] }).target
        = d.target := rfl
    rw [htarget, h] at hflush
    exact hflush

/-- What an append can do: add the row, or fail.  When it fails the row is either not
there or pending. -/
lemma append_cases (env : Env V) (d : DeltaAppender V) (row : BufRow V) (c : Conn V) :
    ∃ e a c', d.append env row c = (e, d.withAppender a, c') ∧
      (e = false ∧ Wrote [row] d (d.withAppender a) c c' ∨
        e = true ∧ ∃ rows, Wrote rows d (d.withAppender a) c c' ∧
          (rows = [] ∨ (d.withAppender a).pending c'.store ≠ [])) := by
  unfold append Appender.appendRow
  by_cases hinc : d.appender.incomplete = true
  · rw [if_pos hinc]
    exact ⟨true, d.appender, c, rfl, Or.inr ⟨rfl, [],
      Wrote.of_eq rfl rfl rfl rfl (Conn.Frame.refl c) rfl, Or.inl rfl⟩⟩
  rw [if_neg hinc]
  cases env.appendFault c.clock with
  | clean =>
      exact ⟨true, d.appender, c.tick, rfl, Or.inr ⟨rfl, [],
        Wrote.of_eq rfl rfl rfl rfl (Conn.Frame.tick c) rfl, Or.inl rfl⟩⟩
  | torn =>
      exact ⟨true, { d.appender with incomplete := true }, c.tick, rfl, Or.inr ⟨rfl, [],
        Wrote.of_eq rfl rfl rfl rfl (Conn.Frame.tick c) rfl, Or.inl rfl⟩⟩
  | none =>
      dsimp only
      by_cases hauto : env.autoFlush c.clock = true
      · obtain ⟨e, a, c', h, hwrote, hpend⟩ := d.wrote_push_flush env row c
        rw [if_pos hauto, h]
        refine ⟨e, a, c', rfl, ?_⟩
        cases e with
        | false => exact Or.inl ⟨rfl, hwrote⟩
        | true => exact Or.inr ⟨rfl, _, hwrote, Or.inr (hpend rfl)⟩
      · rw [if_neg hauto]
        exact ⟨false, _, c.tick, rfl, Or.inl ⟨rfl, d.wrote_push row (Conn.Frame.tick c) rfl⟩⟩

/-! ### The three row operations -/

/-- The appender has been given rows, or none, by a call that failed. -/
def WroteOnError (d d' : DeltaAppender V) (c c' : Conn V) : Prop :=
  ∃ rows, Wrote rows d d' c c' ∧ (rows = [] ∨ d'.pending c'.store ≠ [])

omit [DecidableEq V] in
/-- An inserted row as it is handed to the appender. -/
def insertRow (env : Env V) (d : DeltaAppender V) (r : Record V) (n : ℕ) : BufRow V :=
  ⟨(env.table d.name).rowOf r, if d.useTmpTable then some ⟨false, d.rowCount + 1, n⟩ else none⟩

omit [DecidableEq V] in
/-- A delete marker as it is handed to the appender. -/
def markerRow (env : Env V) (d : DeltaAppender V) (r old : Record V) (n : ℕ) : BufRow V :=
  ⟨markerOf (env.table d.name) d.pkList r old, some ⟨true, d.rowCount + 1, n⟩⟩

lemma appendRowInsert_ok {d d' : DeltaAppender V} {r : Record V} {n : ℕ} {c c' : Conn V}
    (h : d.appendRowInsert env r n c = (false, d', c')) :
    Wrote [d.insertRow env r n] d d' c c' ∧ d'.rowCount = d.rowCount + 1 ∧
      d'.hasInsert = true ∧ d'.hasDelete = d.hasDelete := by
  have hflags : Wrote [] d { d with rowCount := d.rowCount + 1, hasInsert := true } c c :=
    Wrote.of_eq rfl rfl rfl rfl (Conn.Frame.refl c) rfl
  obtain ⟨e, a, c₁, heq, ⟨rfl, hwrote⟩ | ⟨rfl, -⟩⟩ := append_cases env
    { d with rowCount := d.rowCount + 1, hasInsert := true } (d.insertRow env r n) c
  · cases heq.symm.trans h
    exact ⟨hflags.trans hwrote, rfl, rfl, rfl⟩
  · cases heq.symm.trans h

lemma appendRowInsert_err {d d' : DeltaAppender V} {r : Record V} {n : ℕ} {c c' : Conn V}
    (h : d.appendRowInsert env r n c = (true, d', c')) : WroteOnError d d' c c' := by
  have hflags : Wrote [] d { d with rowCount := d.rowCount + 1, hasInsert := true } c c :=
    Wrote.of_eq rfl rfl rfl rfl (Conn.Frame.refl c) rfl
  obtain ⟨e, a, c₁, heq, ⟨rfl, -⟩ | ⟨rfl, rows, hwrote, hrows⟩⟩ := append_cases env
    { d with rowCount := d.rowCount + 1, hasInsert := true } (d.insertRow env r n) c
  · cases heq.symm.trans h
  · cases heq.symm.trans h
    exact ⟨rows, hflags.trans hwrote, hrows⟩

lemma appendRowDelete_ok {d d' : DeltaAppender V} {r : Record V} {n : ℕ} {old : Option (Record V)}
    {c c' : Conn V} (h : d.appendRowDelete env r n old c = (false, d', c')) :
    d.useTmpTable = true ∧ Wrote [d.markerRow env r (old.getD r) n] d d' c c' ∧
      d'.rowCount = d.rowCount + 1 ∧ d'.hasInsert = d.hasInsert ∧ d'.hasDelete = true := by
  unfold appendRowDelete at h
  split at h
  · rename_i htmp
    have hflags : Wrote [] d { d with rowCount := d.rowCount + 1, hasDelete := true } c c :=
      Wrote.of_eq rfl rfl rfl rfl (Conn.Frame.refl c) rfl
    obtain ⟨e, a, c₁, heq, ⟨rfl, hwrote⟩ | ⟨rfl, -⟩⟩ := append_cases env
      { d with rowCount := d.rowCount + 1, hasDelete := true } (d.markerRow env r (old.getD r) n) c
    · cases heq.symm.trans h
      exact ⟨htmp, hflags.trans hwrote, rfl, rfl, rfl⟩
    · cases heq.symm.trans h
  · cases h

lemma appendRowDelete_err {d d' : DeltaAppender V} {r : Record V} {n : ℕ}
    {old : Option (Record V)} {c c' : Conn V}
    (h : d.appendRowDelete env r n old c = (true, d', c')) : WroteOnError d d' c c' := by
  unfold appendRowDelete at h
  split at h
  · have hflags : Wrote [] d { d with rowCount := d.rowCount + 1, hasDelete := true } c c :=
      Wrote.of_eq rfl rfl rfl rfl (Conn.Frame.refl c) rfl
    obtain ⟨e, a, c₁, heq, ⟨rfl, -⟩ | ⟨rfl, rows, hwrote, hrows⟩⟩ := append_cases env
      { d with rowCount := d.rowCount + 1, hasDelete := true } (d.markerRow env r (old.getD r) n) c
    · cases heq.symm.trans h
    · cases heq.symm.trans h
      exact ⟨rows, hflags.trans hwrote, hrows⟩
  · cases h
    exact ⟨[], Wrote.of_eq rfl rfl rfl rfl (Conn.Frame.refl c) rfl, Or.inl rfl⟩

/-- An update is a deletion followed by an insertion. -/
lemma appendRowUpdate_ok {d d' : DeltaAppender V} {r old : Record V} {n : ℕ} {c c' : Conn V}
    (h : d.appendRowUpdate env r n old c = (false, d', c')) :
    ∃ d₁ c₁, { d with hasUpdate := true }.appendRowDelete env r n (some old) c = (false, d₁, c₁) ∧
      d₁.appendRowInsert env r n c₁ = (false, d', c') := by
  unfold appendRowUpdate at h
  split at h
  · cases h
  · rename_i d₁ c₁ hdel
    exact ⟨d₁, c₁, hdel, h⟩

lemma appendRowUpdate_err {d d' : DeltaAppender V} {r old : Record V} {n : ℕ} {c c' : Conn V}
    (h : d.appendRowUpdate env r n old c = (true, d', c')) : WroteOnError d d' c c' := by
  have hflags : Wrote [] d { d with hasUpdate := true } c c :=
    Wrote.of_eq rfl rfl rfl rfl (Conn.Frame.refl c) rfl
  unfold appendRowUpdate at h
  split at h
  · rename_i hdel
    cases h
    obtain ⟨rows, hwrote, hrows⟩ := appendRowDelete_err hdel
    exact ⟨rows, hflags.trans hwrote, hrows⟩
  · -- the marker is pending when the new row is refused
    rename_i d₁ c₁ hdel
    obtain ⟨htmp, hwrote, -⟩ := appendRowDelete_ok hdel
    obtain ⟨rows, hwrote', -⟩ := appendRowInsert_err h
    have hall := (hflags.trans hwrote).trans hwrote'
    refine ⟨_, hall, Or.inr ?_⟩
    rw [hall.pending_eq htmp]
    simp

end DeltaAppender

end

end DuckdbEngine
