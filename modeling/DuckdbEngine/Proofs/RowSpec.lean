/-
What a row operation means.

`RowOp.effect` is the effect of an operation on the rows of its table, without regard to
how the engine carries it out: a row is added, replaced or removed.  In a table with a
primary key the old row is the one that the server passes; in a table without one it is
every row that the WHERE clause of the statement identifies.

An operation is `Valid` when the server may issue it: the key of a new row is free, the
old row is in the table, and the columns outside the write set hold what the statement
leaves there.  The SQL statement of a valid operation has its effect
(`eval_stmt`), and so has an append to a mixed batch (`MixedWf.append_effect`).
-/
import DuckdbEngine.Proofs.MixedBatch
import DuckdbEngine.Proofs.RowPlan

namespace DuckdbEngine

variable {V : Type} [DecidableEq V] {env : Env V}

/-! ### The WHERE clause -/

namespace TableDef

variable {t : TableDef V} {pk : List ℕ}

/-- With a primary key the WHERE clause compares the keys. -/
lemma whereClause_eq_true_iff (hpk : t.primaryKey = some pk) (record0 src : Record V) (x : Row V) :
    t.whereClause record0 src x = true ↔ keyOf pk x = keyOf pk (t.rowOf src) := by
  rw [keyOf_rowOf hpk, keyOf, List.map_inj_left, whereClause, List.all_eq_true, indexFields, hpk,
    Option.getD_some]
  refine forall₂_congr fun i hi => ?_
  rw [fieldVal_of_pk hpk hi]
  simp

omit [DecidableEq V] in
/-- A row in which the written columns have been set is the new row, if the new row
agrees with it elsewhere. -/
lemma setWritten_eq {ws : ℕ → Bool} {r : Record V} {x : Row V}
    (h : ∀ i < t.fields, ws i = false → x[i]?.join = t.fieldVal r r i) :
    t.setWritten ws r x = t.rowOf r := by
  refine List.map_congr_left fun i hi => ?_
  cases hw : ws i with
  | true => simp
  | false => simpa [hw] using h i (List.mem_range.1 hi) hw

/-- Without a primary key a row that the WHERE clause identifies has the values of the old
row in all columns. -/
lemma join_eq_of_whereClause (hpk : t.primaryKey = none) {r old : Record V} {x : Row V}
    (hx : t.whereClause r old x = true) {i : ℕ} (hi : i < t.fields)
    (hsame : t.fieldVal r r i = t.fieldVal old old i) : x[i]?.join = t.fieldVal r r i := by
  rw [whereClause, List.all_eq_true, indexFields, hpk, Option.getD_none] at hx
  have hxi := hx i (List.mem_range.2 hi)
  unfold fieldVal at hsame hxi ⊢
  -- a column that is NULL in the new row cannot be matched
  cases hn : t.nullable i <;> cases h0 : (r i).isNull <;> cases ho : (old i).isNull <;>
    simp_all

end TableDef

/-! ### Effects -/

namespace RowOp

/-- The effect of the operation on the rows of its table. -/
def effect (env : Env V) : RowOp V → Multiset (Row V) → Multiset (Row V)
  | .write t r, b => b + {(env.table t).rowOf r}
  | .update t old r, b =>
      match (env.table t).primaryKey with
      | some _ => b.erase ((env.table t).rowOf old) + {(env.table t).rowOf r}
      | none =>
          b.filter (fun x => (env.table t).whereClause r old x = false)
            + (b.filter fun x => (env.table t).whereClause r old x = true).map
                fun _ => (env.table t).rowOf r
  | .delete t r, b =>
      match (env.table t).primaryKey with
      | some _ => b.erase ((env.table t).rowOf r)
      | none => b.filter fun x => (env.table t).whereClause r r x = false

/-- The effect of the operation on the contents of all tables. -/
def apply (env : Env V) (tables : Tables V) (op : RowOp V) : Tables V :=
  Function.update tables op.table (op.effect env (tables op.table))

/-- The operation can be applied to a table with the rows `b` under the write set `ws`. -/
def Valid (env : Env V) (ws : ℕ → Bool) (b : Multiset (Row V)) : RowOp V → Prop
  | .write t r =>
      (∀ pk ∈ (env.table t).primaryKey,
        ∀ x ∈ b, keyOf pk x ≠ keyOf pk ((env.table t).rowOf r)) ∧
      ∀ i < (env.table t).fields, ws i = false →
        (env.table t).fieldVal r r i = (env.table t).columnDefault i
  | .update t old r =>
      (∀ pk ∈ (env.table t).primaryKey, (env.table t).rowOf old ∈ b ∧
        (keyOf pk ((env.table t).rowOf r) = keyOf pk ((env.table t).rowOf old) ∨
          ∀ x ∈ b, keyOf pk x ≠ keyOf pk ((env.table t).rowOf r))) ∧
      ∀ i < (env.table t).fields, ws i = false →
        (env.table t).fieldVal r r i = (env.table t).fieldVal old old i
  | .delete t r => ∀ pk ∈ (env.table t).primaryKey, (env.table t).rowOf r ∈ b

instance (env : Env V) (ws : ℕ → Bool) (b : Multiset (Row V)) (op : RowOp V) :
    Decidable (Valid env ws b op) :=
  match op with
  | .write t r =>
      inferInstanceAs (Decidable ((∀ pk ∈ (env.table t).primaryKey,
        ∀ x ∈ b, keyOf pk x ≠ keyOf pk ((env.table t).rowOf r)) ∧
      ∀ i < (env.table t).fields, ws i = false →
        (env.table t).fieldVal r r i = (env.table t).columnDefault i))
  | .update t old r =>
      inferInstanceAs (Decidable ((∀ pk ∈ (env.table t).primaryKey, (env.table t).rowOf old ∈ b ∧
        (keyOf pk ((env.table t).rowOf r) = keyOf pk ((env.table t).rowOf old) ∨
          ∀ x ∈ b, keyOf pk x ≠ keyOf pk ((env.table t).rowOf r))) ∧
      ∀ i < (env.table t).fields, ws i = false →
        (env.table t).fieldVal r r i = (env.table t).fieldVal old old i))
  | .delete t r =>
      inferInstanceAs (Decidable (∀ pk ∈ (env.table t).primaryKey, (env.table t).rowOf r ∈ b))

omit [DecidableEq V] in
/-- The keys of the table are unique, if it has a primary key. -/
def UniqueKeys (env : Env V) (t : TableName) (b : Multiset (Row V)) : Prop :=
  ∀ pk, (env.table t).primaryKey = some pk → (b.map (keyOf pk)).Nodup

variable {b : Multiset (Row V)} {ws : ℕ → Bool}

/-- The key of the new row of a valid update is free once the old row is gone. -/
lemma Valid.update_free {t : TableName} {old r : Record V} {pk : List ℕ}
    (h : Valid env ws b (.update t old r)) (hpk : (env.table t).primaryKey = some pk)
    (hb : (b.map (keyOf pk)).Nodup) :
    ∀ x ∈ b.erase ((env.table t).rowOf old), keyOf pk x ≠ keyOf pk ((env.table t).rowOf r) := by
  obtain ⟨hold, hnew⟩ := h.1 pk hpk
  intro x hx
  rcases hnew with hsame | hfree
  · rw [← KeyedLog.filter_key_ne_eq_erase (keyOf pk) hb hold, ← hsame] at hx
    exact (Multiset.mem_filter.1 hx).2
  · exact hfree x (Multiset.mem_of_mem_erase hx)

/-- A valid operation keeps the keys unique. -/
lemma Valid.uniqueKeys {op : RowOp V} (h : Valid env ws b op) (hb : UniqueKeys env op.table b) :
    UniqueKeys env op.table (op.effect env b) := by
  intro pk hpk
  have hnodup := hb pk hpk
  -- a row with a free key is added
  have hadd : ∀ (b' : Multiset (Row V)) (x : Row V), (b'.map (keyOf pk)).Nodup →
      (∀ y ∈ b', keyOf pk y ≠ keyOf pk x) → ((b' + {x}).map (keyOf pk)).Nodup := by
    intro b' x hb' hx
    rw [Multiset.map_add, Multiset.map_singleton, add_comm, Multiset.singleton_add,
      Multiset.nodup_cons]
    refine ⟨fun hmem => ?_, hb'⟩
    obtain ⟨y, hy, hyx⟩ := Multiset.mem_map.1 hmem
    exact hx y hy hyx
  have herase : ∀ x, ((b.erase x).map (keyOf pk)).Nodup := fun x =>
    Multiset.nodup_of_le (Multiset.map_le_map (Multiset.erase_le x b)) hnodup
  cases op with
  | write t r => exact hadd b _ hnodup (h.1 pk hpk)
  | update t old r =>
      have hpk' : (env.table t).primaryKey = some pk := hpk
      simp only [effect, hpk']
      exact hadd _ _ (herase _) (h.update_free hpk' hnodup)
  | delete t r =>
      have hpk' : (env.table t).primaryKey = some pk := hpk
      simp only [effect, hpk']
      exact herase _

lemma Valid.uniqueKeys_apply {op : RowOp V} {tables : Tables V}
    (h : Valid env ws (tables op.table) op) (hkeys : ∀ t, UniqueKeys env t (tables t))
    (t : TableName) : UniqueKeys env t (op.apply env tables t) := by
  rw [apply]
  by_cases ht : t = op.table
  · subst ht
    rw [Function.update_self]
    exact h.uniqueKeys (hkeys _)
  · rw [Function.update_of_ne ht]
    exact hkeys t

/-! ### The statement of an operation -/

/-- The statement for the operation under the write set `ws`. -/
def stmt (env : Env V) (ws : ℕ → Bool) : RowOp V → Stmt V
  | .write t r => (env.table t).insertConvertor t ws r
  | .update t old r => (env.table t).updateConvertor t ws r old
  | .delete t r => (env.table t).deleteConvertor t r

lemma fallback_eq_stmt (op : RowOp V) (s : Session V) :
    op.fallback env s = op.stmt env (s.writeSet op.table) := by
  cases op <;> rfl

lemma direct_eq_stmt (op : RowOp V) (s : Session V) :
    (op.direct env s).1 = op.stmt env ((op.direct env s).2.writeSet op.table) := by
  cases op <;> rfl

/-- Narrowing the write set to the modified columns keeps an operation valid. -/
lemma Valid.direct {op : RowOp V} {s : Session V} (h : Valid env (s.writeSet op.table) b op) :
    Valid env ((op.direct env s).2.writeSet op.table) b op := by
  cases op with
  | write t r => exact h
  | delete t r => exact h
  | update t old r =>
      refine ⟨h.1, fun i hi hws => ?_⟩
      simp only [RowOp.direct, Session.narrowWriteSet, RowOp.table] at hws
      split at hws
      · simp only [Function.update_self, TableDef.calcFieldDifference, decide_eq_false_iff_not,
          not_not] at hws
        exact hws.symm
      · exact h.2 i hi hws

/-- The statement of a valid operation has its effect. -/
lemma Valid.eval_stmt {op : RowOp V} {schema : Name} {st st' : Store V}
    (h : Valid env ws (st.tables op.table) op) (hb : UniqueKeys env op.table (st.tables op.table))
    (heval : (op.stmt env ws).eval schema st = some st') :
    st' = st.setTable op.table (op.effect env (st.tables op.table)) := by
  cases op with
  | write t r =>
      simp only [stmt, TableDef.insertConvertor] at heval
      split at heval
      · cases heval
      · have hrow : (env.table t).insertedRow ws r = (env.table t).rowOf r := by
          refine List.map_congr_left fun i hi => ?_
          cases hw : ws i with
          | true => simp
          | false => simpa [hw] using (h.2 i (List.mem_range.1 hi) hw).symm
        rw [hrow] at heval
        exact (Option.some.inj heval).symm
  | update t old r =>
      simp only [stmt, TableDef.updateConvertor] at heval
      split at heval
      · cases heval
      rw [← Option.some.inj heval]
      show st.setTable t _ = st.setTable t _
      congr 1
      simp only [effect]
      cases hpk : (env.table t).primaryKey with
      | none =>
          simp only
          congr 1
          refine Multiset.map_congr rfl fun x hx => ?_
          refine TableDef.setWritten_eq fun i hi hw => ?_
          exact TableDef.join_eq_of_whereClause hpk (Multiset.mem_filter.1 hx).2 hi (h.2 i hi hw)
      | some pk =>
          obtain ⟨hold, -⟩ := h.1 pk hpk
          have hnodup := hb pk hpk
          have hset : (env.table t).setWritten ws r ((env.table t).rowOf old)
              = (env.table t).rowOf r := by
            refine TableDef.setWritten_eq fun i hi hw => ?_
            rw [TableDef.rowOf, TableDef.getElem?_image _ hi, Option.join_some]
            exact (h.2 i hi hw).symm
          have hrest : (st.tables t).filter (fun x => ¬ keyOf pk x = keyOf pk ((env.table t).rowOf old))
              = (st.tables t).erase ((env.table t).rowOf old) :=
            KeyedLog.filter_key_ne_eq_erase (keyOf pk) hnodup hold
          have hone : (st.tables t).filter (fun x => keyOf pk x = keyOf pk ((env.table t).rowOf old))
              = {(env.table t).rowOf old} :=
            KeyedLog.filter_key_eq_singleton (keyOf pk) hnodup hold
          simp only [← Bool.not_eq_true, TableDef.whereClause_eq_true_iff hpk]
          rw [hrest, hone, Multiset.map_singleton, hset]
          rfl
  | delete t r =>
      simp only [stmt, TableDef.deleteConvertor, Stmt.eval] at heval
      rw [← Option.some.inj heval]
      show st.setTable t _ = st.setTable t _
      congr 1
      simp only [effect]
      cases hpk : (env.table t).primaryKey with
      | none => rfl
      | some pk =>
          simp only [← Bool.not_eq_true, TableDef.whereClause_eq_true_iff hpk]
          exact KeyedLog.filter_key_ne_eq_erase (keyOf pk) (hb pk hpk) (h pk hpk)

end RowOp

/-! ### An append to a mixed batch -/

/-- Buffering a valid operation in a mixed batch has its effect on the contents of the
table. -/
lemma DeltaAppender.MixedWf.append_effect {op : RowOp V} {ws : ℕ → Bool} {d d' : DeltaAppender V}
    {c c' : Conn V} (h : MixedWf env d c.store) (htmp : d.useTmpTable = true)
    (hname : d.name = op.table) (hvalid : op.Valid env ws (d.contents c.store))
    (hkeys : RowOp.UniqueKeys env op.table (d.contents c.store))
    (hok : op.append env d c = (false, d', c')) :
    MixedWf env d' c'.store ∧ d'.contents c'.store = op.effect env (d.contents c.store) := by
  have hpk : (env.table op.table).primaryKey = some d.pkList := by
    rw [← hname]
    exact h.pk_eq
  have hnodup := hkeys _ hpk
  cases op with
  | write t r =>
      obtain rfl : d.name = t := hname
      have hfree := hvalid.1 _ hpk
      obtain ⟨hwf, hcontents⟩ := h.appendRowInsert htmp hok fun _ => hfree
      refine ⟨hwf, hcontents.trans ?_⟩
      rw [KeyedLog.apply, KeyedLog.filter_key_ne_of_absent (keyOf d.pkList) hfree]
      rfl
  | update t old r =>
      obtain rfl : d.name = t := hname
      have hpk' : (env.table d.name).primaryKey = some d.pkList := hpk
      obtain ⟨hwf, hcontents⟩ := h.appendRowUpdate hok
      refine ⟨hwf, hcontents.trans ?_⟩
      simp only [RowOp.effect, hpk']
      have hdel : KeyedLog.apply (keyOf d.pkList) (d.contents c.store)
          (.del (keyOf d.pkList ((env.table d.name).rowOf old)))
          = (d.contents c.store).erase ((env.table d.name).rowOf old) :=
        KeyedLog.filter_key_ne_eq_erase (keyOf d.pkList) hnodup (hvalid.1 _ hpk).1
      rw [hdel, KeyedLog.apply,
        KeyedLog.filter_key_ne_of_absent (keyOf d.pkList) (hvalid.update_free hpk' hnodup)]
  | delete t r =>
      obtain rfl : d.name = t := hname
      have hpk' : (env.table d.name).primaryKey = some d.pkList := hpk
      obtain ⟨hwf, -, hcontents⟩ := h.appendRowDelete hok
      refine ⟨hwf, hcontents.trans ?_⟩
      simp only [RowOp.effect, hpk']
      exact KeyedLog.filter_key_ne_eq_erase (keyOf d.pkList) hnodup (hvalid _ hpk)

end DuckdbEngine
