/-
A mixed batch applies its operations one after another.

`MixedWf` is the invariant of an appender with a buffer table: its pending rows are
numbered in ascending order, their keys contain no NULL, the flags record which
kinds of rows were buffered, and as long as no marker was buffered no row of the
table has a key of the batch.  `contents` is what the table would hold if the
pending rows had been applied to it one by one.  Each of the three row operations
keeps the invariant and changes `contents` as the operation says, and the flush
turns `contents` into the contents of the table.
-/
import DuckdbEngine.Lib.StepRun
import DuckdbEngine.Proofs.Appenders

namespace DuckdbEngine

variable {V : Type} [DecidableEq V] {env : Env V}

namespace DeltaAppender

/-- The contents of the table with the pending rows applied in order. -/
def contents (d : DeltaAppender V) (st : Store V) : Multiset (Row V) :=
  if d.useTmpTable then
    KeyedLog.replay (keyOf d.pkList) (st.tables d.name)
      ((d.pending st).map (BufRow.change d.pkList))
  else st.tables d.name + colsOf (d.pending st)

/-- The invariant of a mixed batch. -/
structure MixedWf (env : Env V) (d : DeltaAppender V) (st : Store V) : Prop where
  pk_eq : (env.table d.name).primaryKey = some d.pkList
  sorted : (d.pending st).Pairwise fun r q => r.rowNo < q.rowNo
  bounded : ∀ r ∈ d.pending st, r.rowNo ≤ d.rowCount
  keys : ∀ r ∈ d.pending st, none ∉ keyOf d.pkList r.cols
  hasDelete : ∀ r ∈ d.pending st, r.isDelete = true → d.hasDelete = true
  hasInsert : ∀ r ∈ d.pending st, r.isDelete = false → d.hasInsert = true
  untouched : d.hasDelete = false →
    ∀ x ∈ st.tables d.name, ∀ r ∈ d.pending st, keyOf d.pkList r.cols ≠ keyOf d.pkList x

omit [DecidableEq V] in
lemma MixedWf.of_pending_nil {d : DeltaAppender V} {st : Store V}
    (hpk : (env.table d.name).primaryKey = some d.pkList) (h : d.pending st = []) :
    MixedWf env d st := by
  refine ⟨hpk, ?_, ?_, ?_, ?_, ?_, ?_⟩ <;> simp [h]

lemma contents_of_pending_nil {d : DeltaAppender V} {st : Store V} (h : d.pending st = []) :
    d.contents st = st.tables d.name := by
  simp [contents, h]

/-- The flush makes the contents of the table what sequential application gives. -/
lemma MixedWf.merged_eq {d : DeltaAppender V} {st : Store V} (h : MixedWf env d st)
    (htmp : d.useTmpTable = true) :
    d.merged (d.pending st) (st.tables d.name) = d.contents st := by
  rw [merged, if_pos htmp, contents, if_pos htmp]
  refine mergeRows_eq_replay h.sorted h.keys h.untouched fun hins r hr => ?_
  by_contra hdel
  have := h.hasInsert r hr (by simpa using hdel)
  simp [hins] at this

/-- Before a marker is buffered the rows of the table are all in the contents. -/
lemma MixedWf.mem_contents {d : DeltaAppender V} {st : Store V} (h : MixedWf env d st)
    (htmp : d.useTmpTable = true) (hdel : d.hasDelete = false) {x : Row V}
    (hx : x ∈ st.tables d.name) : x ∈ d.contents st := by
  rw [← h.merged_eq htmp, merged, if_pos htmp, mergeRows, hdel]
  exact Multiset.mem_add.2 (Or.inl (by simpa using hx))

/-! ### One row more -/

omit [DecidableEq V] in
/-- A row with the next number keeps the order and the flags. -/
lemma MixedWf.snoc {d d' : DeltaAppender V} {c c' : Conn V} {row : BufRow V}
    (h : MixedWf env d c.store) (htmp : d.useTmpTable = true) (hw : Wrote [row] d d' c c')
    (hcount : d'.rowCount = d.rowCount + 1) (hno : row.rowNo = d.rowCount + 1)
    (hkey : none ∉ keyOf d.pkList row.cols)
    (hdel : d'.hasDelete = (d.hasDelete || row.isDelete))
    (hins : d'.hasInsert = (d.hasInsert || !row.isDelete))
    (hnew : d'.hasDelete = false →
      ∀ x ∈ c.store.tables d.name, keyOf d.pkList row.cols ≠ keyOf d.pkList x) :
    MixedWf env d' c'.store := by
  have hpend := hw.pending_eq htmp
  have htab := hw.tables_eq htmp
  refine ⟨?_, ?_, ?_, ?_, ?_, ?_, ?_⟩
  · rw [hw.name_eq, hw.pkList_eq]
    exact h.pk_eq
  · rw [hpend, List.pairwise_append]
    refine ⟨h.sorted, List.pairwise_singleton _ _, fun r hr q hq => ?_⟩
    have hle := h.bounded r hr
    rw [List.mem_singleton.1 hq, hno]
    omega
  · rw [hpend]
    intro r hr
    rcases List.mem_append.1 hr with hr | hr
    · have hle := h.bounded r hr
      omega
    · rw [List.mem_singleton.1 hr, hno, hcount]
  · rw [hpend, hw.pkList_eq]
    intro r hr
    rcases List.mem_append.1 hr with hr | hr
    · exact h.keys r hr
    · rw [List.mem_singleton.1 hr]
      exact hkey
  · rw [hpend, hdel]
    intro r hr hrdel
    rcases List.mem_append.1 hr with hr | hr
    · rw [h.hasDelete r hr hrdel, Bool.true_or]
    · rw [← List.mem_singleton.1 hr, hrdel, Bool.or_true]
  · rw [hpend, hins]
    intro r hr hrdel
    rcases List.mem_append.1 hr with hr | hr
    · rw [h.hasInsert r hr hrdel, Bool.true_or]
    · rw [← List.mem_singleton.1 hr, hrdel]
      simp
  · intro hd' x hx r hr
    rw [hw.name_eq, htab] at hx
    rw [hpend] at hr
    rw [hw.pkList_eq]
    rcases List.mem_append.1 hr with hr | hr
    · have hd : d.hasDelete = false := by
        rw [hd'] at hdel
        simpa using (Bool.or_eq_false_iff.1 hdel.symm).1
      exact h.untouched hd x hx r hr
    · rw [List.mem_singleton.1 hr]
      exact hnew hd' x hx

lemma contents_snoc {d d' : DeltaAppender V} {c c' : Conn V} {row : BufRow V}
    (htmp : d.useTmpTable = true) (hw : Wrote [row] d d' c c') :
    d'.contents c'.store
      = KeyedLog.apply (keyOf d.pkList) (d.contents c.store) (row.change d.pkList) := by
  rw [contents, if_pos (hw.useTmpTable_eq.trans htmp), hw.name_eq, hw.pkList_eq,
    hw.tables_eq htmp, hw.pending_eq htmp, List.map_append, KeyedLog.replay_append, contents,
    if_pos htmp]
  rfl

/-! ### The row operations -/

omit [DecidableEq V] in
/-- A marker has the key of the row that it deletes. -/
lemma keyOf_markerOf {t : TableDef V} {pk : List ℕ} (hpk : t.primaryKey = some pk)
    (r old : Record V) : keyOf pk (markerOf t pk r old) = keyOf pk (t.rowOf old) := by
  rw [t.keyOf_rowOf hpk]
  refine List.map_congr_left fun i hi => ?_
  rw [markerOf, TableDef.getElem?_map_range _ (t.pk_lt hpk i hi), if_pos hi,
    TableDef.fieldVal_of_pk hpk hi, Option.join_some]

variable {d d' : DeltaAppender V} {c c' : Conn V} {r old : Record V} {n : ℕ}

/-- Buffering an inserted row.  Its key must not be in the table while the DELETE
statement of the merge would be skipped. -/
lemma MixedWf.appendRowInsert (h : MixedWf env d c.store) (htmp : d.useTmpTable = true)
    (hok : d.appendRowInsert env r n c = (false, d', c'))
    (hnew : d.hasDelete = false →
      ∀ x ∈ d.contents c.store, keyOf d.pkList x ≠ keyOf d.pkList ((env.table d.name).rowOf r)) :
    MixedWf env d' c'.store ∧
      d'.contents c'.store = KeyedLog.apply (keyOf d.pkList) (d.contents c.store)
        (.put ((env.table d.name).rowOf r)) := by
  obtain ⟨hw, hcount, hins, hdel⟩ := appendRowInsert_ok hok
  have hdel' : (d.insertRow env r n).isDelete = false := by simp [insertRow, BufRow.isDelete, htmp]
  refine ⟨h.snoc htmp hw hcount ?_ ?_ ?_ ?_ ?_, ?_⟩
  · simp [insertRow, BufRow.rowNo, htmp]
  · exact TableDef.none_notMem_keyOf_rowOf h.pk_eq r
  · rw [hdel, hdel', Bool.or_false]
  · rw [hins, hdel', Bool.not_false, Bool.or_true]
  · intro hd x hx
    rw [hdel] at hd
    exact (hnew hd x (h.mem_contents htmp hd hx)).symm
  · rw [contents_snoc htmp hw, BufRow.change, hdel']
    rfl

lemma MixedWf.appendRowDelete {o : Option (Record V)} (h : MixedWf env d c.store)
    (hok : d.appendRowDelete env r n o c = (false, d', c')) :
    MixedWf env d' c'.store ∧ d'.hasDelete = true ∧
      d'.contents c'.store = KeyedLog.apply (keyOf d.pkList) (d.contents c.store)
        (.del (keyOf d.pkList ((env.table d.name).rowOf (o.getD r)))) := by
  obtain ⟨htmp, hw, hcount, hins, hdel⟩ := appendRowDelete_ok hok
  have hdel' : (d.markerRow env r (o.getD r) n).isDelete = true := rfl
  have hkey : keyOf d.pkList (d.markerRow env r (o.getD r) n).cols
      = keyOf d.pkList ((env.table d.name).rowOf (o.getD r)) := keyOf_markerOf h.pk_eq r (o.getD r)
  refine ⟨h.snoc htmp hw hcount rfl ?_ ?_ ?_ ?_, hdel, ?_⟩
  · rw [hkey]
    exact TableDef.none_notMem_keyOf_rowOf h.pk_eq _
  · rw [hdel, hdel', Bool.or_true]
  · rw [hins, hdel', Bool.not_true, Bool.or_false]
  · intro hd
    rw [hdel] at hd
    cases hd
  · rw [contents_snoc htmp hw, BufRow.change, hdel', if_pos rfl, hkey]

lemma MixedWf.appendRowUpdate (h : MixedWf env d c.store)
    (hok : d.appendRowUpdate env r n old c = (false, d', c')) :
    MixedWf env d' c'.store ∧
      d'.contents c'.store = KeyedLog.apply (keyOf d.pkList)
        (KeyedLog.apply (keyOf d.pkList) (d.contents c.store)
          (.del (keyOf d.pkList ((env.table d.name).rowOf old))))
        (.put ((env.table d.name).rowOf r)) := by
  obtain ⟨d₁, c₁, hdel, hins⟩ := appendRowUpdate_ok hok
  have hd : MixedWf env { d with hasUpdate := true } c.store :=
    ⟨h.pk_eq, h.sorted, h.bounded, h.keys, h.hasDelete, h.hasInsert, h.untouched⟩
  obtain ⟨hd₁, hflag, hcontents⟩ := hd.appendRowDelete hdel
  obtain ⟨htmp, hw, -⟩ := appendRowDelete_ok hdel
  obtain ⟨hd', hcontents'⟩ := hd₁.appendRowInsert (hw.useTmpTable_eq.trans htmp) hins
    (fun hflag' => by rw [hflag] at hflag'; cases hflag')
  have hname : d₁.name = d.name := hw.name_eq
  have hpk : d₁.pkList = d.pkList := hw.pkList_eq
  refine ⟨hd', ?_⟩
  rw [hcontents', hcontents, hname, hpk]
  rfl

end DeltaAppender

/-! ### A batch of operations on a finite map -/

/-- A row operation as it reaches the appender of a table. -/
inductive BufOp (V : Type) where
  | insert (r : Record V)
  | update (old r : Record V)
  | delete (r : Record V)

namespace BufOp

/-- Hand the operation to the appender. -/
def buffer (env : Env V) (d : DeltaAppender V) (c : Conn V) :
    BufOp V → Bool × DeltaAppender V × Conn V
  | .insert r => d.appendRowInsert env r 0 c
  | .update old r => d.appendRowUpdate env r 0 old c
  | .delete r => d.appendRowDelete env r 0 none c

/-- Hand over one operation after another, up to the first error. -/
def bufferAll (env : Env V) : List (BufOp V) → DeltaAppender V → Conn V →
    Bool × DeltaAppender V × Conn V
  | [], d, c => (false, d, c)
  | op :: ops, d, c =>
      match op.buffer env d c with
      | (true, d', c') => (true, d', c')
      | (false, d', c') => bufferAll env ops d' c'

variable (t : TableDef V) (pk : List ℕ)

/-- The effect of the operation on a finite map from keys to rows. -/
def apply (m : List (Option V) → Option (Row V)) : BufOp V → List (Option V) → Option (Row V)
  | .insert r => Function.update m (keyOf pk (t.rowOf r)) (some (t.rowOf r))
  | .update old r =>
      Function.update (Function.update m (keyOf pk (t.rowOf old)) none)
        (keyOf pk (t.rowOf r)) (some (t.rowOf r))
  | .delete r => Function.update m (keyOf pk (t.rowOf r)) none

omit [DecidableEq V] in
/-- The operation can be applied: an inserted key is absent, a deleted key is present,
and the key of an updated row is present and its new key is the same or absent. -/
def Valid (m : List (Option V) → Option (Row V)) : BufOp V → Prop
  | .insert r => m (keyOf pk (t.rowOf r)) = none
  | .update old r =>
      (m (keyOf pk (t.rowOf old))).isSome ∧
        (keyOf pk (t.rowOf r) = keyOf pk (t.rowOf old) ∨ m (keyOf pk (t.rowOf r)) = none)
  | .delete r => (m (keyOf pk (t.rowOf r))).isSome

instance (m : List (Option V) → Option (Row V)) (op : BufOp V) : Decidable (Valid t pk m op) :=
  match op with
  | .insert r => inferInstanceAs (Decidable (m (keyOf pk (t.rowOf r)) = none))
  | .update old r =>
      inferInstanceAs (Decidable ((m (keyOf pk (t.rowOf old))).isSome ∧
        (keyOf pk (t.rowOf r) = keyOf pk (t.rowOf old) ∨ m (keyOf pk (t.rowOf r)) = none)))
  | .delete r => inferInstanceAs (Decidable (m (keyOf pk (t.rowOf r))).isSome)

variable {t pk} {d d' : DeltaAppender V} {c c' : Conn V}
  {m : List (Option V) → Option (Row V)}

/-- The state of a batch on a table whose contents, with the batch applied, are the
map `m`. -/
structure Holds (env : Env V) (name : TableName) (pk : List ℕ) (d : DeltaAppender V) (c : Conn V)
    (m : List (Option V) → Option (Row V)) : Prop where
  tmp : d.useTmpTable = true
  name_eq : d.name = name
  pkList_eq : d.pkList = pk
  wf : DeltaAppender.MixedWf env d c.store
  isMap : KeyedLog.IsMap (keyOf pk) (d.contents c.store) m

/-- Buffering an operation applies it to the map. -/
lemma Holds.buffer {name : TableName} {op : BufOp V} (h : Holds env name pk d c m)
    (hvalid : Valid (env.table name) pk m op) (hok : op.buffer env d c = (false, d', c')) :
    Holds env name pk d' c' (apply (env.table name) pk m op) := by
  obtain ⟨htmp, rfl, rfl, hwf, hmap⟩ := h
  cases op with
  | insert r =>
      obtain ⟨hw, -⟩ := DeltaAppender.appendRowInsert_ok hok
      obtain ⟨hwf', hcontents⟩ := hwf.appendRowInsert htmp hok fun _ => hmap.key_ne hvalid
      refine ⟨hw.useTmpTable_eq.trans htmp, hw.name_eq, hw.pkList_eq, hwf', ?_⟩
      rw [hcontents]
      exact hmap.apply_put _
  | update old r =>
      obtain ⟨d₁, c₁, hdel, hins⟩ := DeltaAppender.appendRowUpdate_ok hok
      obtain ⟨-, hw, -⟩ := DeltaAppender.appendRowDelete_ok hdel
      obtain ⟨hw', -⟩ := DeltaAppender.appendRowInsert_ok hins
      obtain ⟨hwf', hcontents⟩ := hwf.appendRowUpdate hok
      refine ⟨(hw'.useTmpTable_eq.trans hw.useTmpTable_eq).trans htmp,
        hw'.name_eq.trans hw.name_eq, hw'.pkList_eq.trans hw.pkList_eq, hwf', ?_⟩
      rw [hcontents]
      exact (hmap.apply_del _).apply_put _
  | delete r =>
      obtain ⟨-, hw, -⟩ := DeltaAppender.appendRowDelete_ok hok
      obtain ⟨hwf', -, hcontents⟩ := hwf.appendRowDelete hok
      refine ⟨hw.useTmpTable_eq.trans htmp, hw.name_eq, hw.pkList_eq, hwf', ?_⟩
      rw [hcontents]
      exact hmap.apply_del _

lemma Holds.bufferAll {name : TableName} {ops : List (BufOp V)} (h : Holds env name pk d c m)
    (hvalid : StepRun.Along (apply (env.table name) pk) (Valid (env.table name) pk) m ops)
    (hok : BufOp.bufferAll env ops d c = (false, d', c')) :
    Holds env name pk d' c' (StepRun.run (apply (env.table name) pk) m ops) := by
  induction ops generalizing d c m with
  | nil =>
      cases hok
      exact h
  | cons op ops ih =>
      obtain ⟨hop, hops⟩ := hvalid
      rcases hb : op.buffer env d c with ⟨e, d₁, c₁⟩
      simp only [BufOp.bufferAll, hb] at hok
      cases e with
      | true => cases hok
      | false => exact ih (h.buffer hop hb) hops hok

end BufOp

/-- The merge of a mixed batch is sequential application: an appender with a buffer
table is created for a table whose contents are a finite map, operations that are each
valid when issued are buffered, and the flush succeeds; then the contents of the table
are the map with the operations applied one after another. -/
theorem mixed_batch_sequential (env : Env V) (name : TableName) {pk : List ℕ}
    {c c₁ c₂ c₃ : Conn V} {d d₂ d₃ : DeltaAppender V} {m : List (Option V) → Option (Row V)}
    {ops : List (BufOp V)} (hpk : (env.table name).primaryKey = some pk)
    (hmap : KeyedLog.IsMap (keyOf pk) (c.store.tables name) m)
    (hvalid : StepRun.Along (BufOp.apply (env.table name) pk) (BufOp.Valid (env.table name) pk)
      m ops)
    (hinit : DeltaAppender.initializeFor env name true c = (some d, c₁))
    (hbuf : BufOp.bufferAll env ops d c₁ = (false, d₂, c₂))
    (hflush : d₂.flush env false c₂ = (false, d₃, c₃)) :
    KeyedLog.IsMap (keyOf pk) (c₃.store.tables name)
      (StepRun.run (BufOp.apply (env.table name) pk) m ops) := by
  obtain ⟨-, -, htab, hrows, hnew⟩ := DeltaAppender.initializeFor_spec env name true c
  rw [hinit] at htab hrows hnew
  obtain ⟨hd, hready, -⟩ := hnew d rfl
  obtain ⟨-, -, hnil⟩ := hready rfl
  have hpkd : d.pkList = pk := Option.some.inj ((hd.pkList_eq rfl).symm.trans hpk)
  have hpending : d.pending c₁.store = [] := by
    rw [DeltaAppender.pending_of_tmp hd.useTmpTable_eq, hd.buffer_eq, hrows, hnil]
    rfl
  have hstart : BufOp.Holds env name pk d c₁ m := by
    refine ⟨hd.useTmpTable_eq, hd.name_eq, hpkd, ?_, ?_⟩
    · refine DeltaAppender.MixedWf.of_pending_nil ?_ hpending
      rw [hd.name_eq, hd.pkList_eq rfl]
    · rw [DeltaAppender.contents_of_pending_nil hpending, hd.name_eq, htab]
      exact hmap
  have hend := hstart.bufferAll hvalid hbuf
  obtain ⟨-, -, hmerged, -⟩ := DeltaAppender.flush_ok hflush
  rw [hend.wf.merged_eq hend.tmp, hend.name_eq] at hmerged
  rw [hmerged]
  exact hend.isMap

/-- Two rows are inserted, the first moves to another key and the second is deleted. -/
theorem mixed_batch_sequential_of_four_ops :
    let env : Env ℕ := .reliable fun _ => .keyed 1
    let name : TableName := ⟨['a'], ['t']⟩
    let row (k v : ℕ) : Record ℕ := fun i => ⟨false, if i = 0 then k else v⟩
    let ops : List (BufOp ℕ) :=
      [.insert (row 1 10), .insert (row 2 20), .update (row 1 10) (row 3 11), .delete (row 2 20)]
    let c : Conn ℕ := ⟨.ofTables fun _ => 0, none, [], 0⟩
    let r := DeltaAppender.initializeFor env name true c
    ∃ d, r.1 = some d ∧
      let r₂ := BufOp.bufferAll env ops d r.2
      let r₃ := r₂.2.1.flush env false r₂.2.2
      r₂.1 = false ∧ r₃.1 = false ∧
        KeyedLog.IsMap (keyOf [0]) (r₃.2.2.store.tables name)
          (StepRun.run (BufOp.apply (env.table name) [0]) (fun _ => none) ops) := by
  intro env name row ops c r
  have hsome : ∀ r : Option (DeltaAppender ℕ) × Conn ℕ, ∀ h, r = (some (r.1.get h), r.2) :=
    fun r h => Prod.ext (Option.some_get h).symm rfl
  have hok : ∀ r : Bool × DeltaAppender ℕ × Conn ℕ, r.1 = false → r = (false, r.2.1, r.2.2) :=
    fun r h => Prod.ext h rfl
  refine ⟨r.1.get (by decide +kernel), (Option.some_get _).symm, ?_⟩
  intro r₂ r₃
  have h₂ : r₂.1 = false := by decide +kernel
  have h₃ : r₃.1 = false := by decide +kernel
  refine ⟨h₂, h₃, mixed_batch_sequential env name rfl KeyedLog.IsMap.zero ?_ (hsome r _)
    (hok r₂ h₂) (hok r₃ h₃)⟩
  exact ⟨by decide, by decide, by decide, by decide, trivial⟩

end DuckdbEngine
