/-
The DuckDB connection of a session.

The engine talks to DuckDB in SQL statements and through appenders.  `Stmt` lists
the statements it emits and `Stmt.eval` gives what each of them does to the
contents of a database (`Store`): the base tables are bags of rows, since the
tables the engine creates carry no primary key constraint, and the buffer tables
of the batch code are lists of rows.  DuckDB ignores the case of names: the buffer
tables, whose names the engine puts together, are kept under folded names, as the
catalog is.  The contents of a base table are addressed by the name that MariaDB has
for it.  Keys are compared as values: those of a VARCHAR column are taken up to the
collation of the column.

A connection works on the contents its transaction sees, if one is active, and
on the committed contents otherwise.  Statements may fail: `Env.fails` says which
of the calls made on the connection fails for a reason outside the model, and a
failed statement has no effect.  USE does not fail, and neither does ROLLBACK.  A
failed COMMIT has no effect either, and may or may not end the transaction.
-/
import Mathlib.Algebra.Order.Group.Multiset
import DuckdbEngine.Runtime.Catalog

namespace DuckdbEngine

variable {V : Type}

/-! ### Contents -/

/-- The auxiliary columns of a buffer table: `#mdb_delete_flag`, `#mdb_row_no` and
`#mdb_trx_no`. -/
structure Aux where
  deleteFlag : Bool
  rowNo : ℕ
  trxNo : ℕ

/-- A row handed to an appender: the columns of the base table and, in a buffer
table, the auxiliary columns. -/
structure BufRow (V : Type) where
  cols : Row V
  aux : Option Aux

/-- The row is a delete marker. -/
def BufRow.isDelete (r : BufRow V) : Bool := r.aux.any Aux.deleteFlag

/-- The row number, which orders the versions of a key. -/
def BufRow.rowNo (r : BufRow V) : ℕ := r.aux.elim 0 Aux.rowNo

/-- A buffer table.  Until its three auxiliary columns have been added nothing is
appended to it. -/
inductive TmpTable (V : Type) where
  | bare (columns : Fin 3)
  | ready (rows : List (BufRow V))

/-- The rows of a buffer table. -/
def TmpTable.rows : TmpTable V → List (BufRow V)
  | .bare _ => []
  | .ready rs => rs

/-- The contents of the base tables. -/
abbrev Tables (V : Type) := TableName → Multiset (Row V)

/-- What a transaction sees and changes. -/
structure Store (V : Type) where
  tables : Tables V
  /-- The session's temporary tables; DuckDB ignores the case of their names. -/
  temps : CatalogName → Option (TmpTable V)
  catalog : Catalog

namespace Store

/-- The contents given by their base tables, with nothing else in the database. -/
def ofTables (tables : Tables V) : Store V := ⟨tables, fun _ => none, Catalog.empty⟩

/-- The rows of the buffer table `x`; none if there is no such table. -/
def tmpRows (st : Store V) (x : CatalogName) : List (BufRow V) :=
  (st.temps x).elim [] TmpTable.rows

def setTable (st : Store V) (t : TableName) (b : Multiset (Row V)) : Store V :=
  { st with tables := Function.update st.tables t b }

def setTemp (st : Store V) (x : CatalogName) (T : Option (TmpTable V)) : Store V :=
  { st with temps := Function.update st.temps x T }

@[simp] lemma tables_setTable (st : Store V) (t : TableName) (b : Multiset (Row V)) :
    (st.setTable t b).tables = Function.update st.tables t b := rfl

@[simp] lemma temps_setTable (st : Store V) (t : TableName) (b : Multiset (Row V)) :
    (st.setTable t b).temps = st.temps := rfl

@[simp] lemma catalog_setTable (st : Store V) (t : TableName) (b : Multiset (Row V)) :
    (st.setTable t b).catalog = st.catalog := rfl

@[simp] lemma tmpRows_setTable (st : Store V) (t : TableName) (b : Multiset (Row V)) :
    (st.setTable t b).tmpRows = st.tmpRows := rfl

@[simp] lemma tables_setTemp (st : Store V) (x : CatalogName) (T : Option (TmpTable V)) :
    (st.setTemp x T).tables = st.tables := rfl

@[simp] lemma temps_setTemp (st : Store V) (x : CatalogName) (T : Option (TmpTable V)) :
    (st.setTemp x T).temps = Function.update st.temps x T := rfl

@[simp] lemma catalog_setTemp (st : Store V) (x : CatalogName) (T : Option (TmpTable V)) :
    (st.setTemp x T).catalog = st.catalog := rfl

lemma tmpRows_setTemp_self (st : Store V) (x : CatalogName) (T : Option (TmpTable V)) :
    (st.setTemp x T).tmpRows x = T.elim [] TmpTable.rows := by
  simp [tmpRows]

lemma tmpRows_setTemp_of_ne (st : Store V) {x y : CatalogName} (h : y ≠ x) (T : Option (TmpTable V)) :
    (st.setTemp x T).tmpRows y = st.tmpRows y := by
  simp [tmpRows, h]

end Store

/-! ### Statements -/

/-- Where an appender writes. -/
inductive Target where
  | base (t : TableName)
  | temp (x : CatalogName)

/-- The statements that the engine sends to DuckDB, and the flush of an appender. -/
inductive Stmt (V : Type) where
  | use (schema : Name)
  | createSchema (schema : Name)
  /-- CREATE TEMPORARY TABLE IF NOT EXISTS main.x AS FROM ... LIMIT 0 -/
  | createTemp (x : CatalogName)
  /-- ALTER TABLE main.x ADD COLUMN, for the auxiliary column `j`. -/
  | addColumn (x : CatalogName) (j : Fin 3)
  | dropTemp (x : CatalogName)
  | dropTempIfExists (x : CatalogName)
  | append (target : Target) (rows : List (BufRow V))
  /-- DELETE FROM t WHERE (pk) IN (SELECT pk FROM main.x GROUP BY pk) -/
  | deleteTouched (t : TableName) (pk : List ℕ) (x : CatalogName)
  /-- INSERT INTO t SELECT ... FROM main.x QUALIFY ROW_NUMBER() OVER (PARTITION BY pk
  ORDER BY "#mdb_row_no" DESC) = 1 AND NOT "#mdb_delete_flag" -/
  | insertLatest (t : TableName) (pk : List ℕ) (x : CatalogName)
  | insert (t : TableName) (row : Row V)
  | update (t : TableName) (cond : Row V → Bool) (set : Row V → Row V)
  | delete (t : TableName) (cond : Row V → Bool)
  /-- A text that does not parse. -/
  | malformed
  | createSequence (s : TableName)
  /-- CREATE TABLE IF NOT EXISTS; the name is looked up in the current schema. -/
  | createTable (table : Name) (sequence : Option TableName)
  /-- ALTER TABLE ... RENAME TO; the names are looked up in the current schema. -/
  | renameTable (old new : Name)
  /-- TRUNCATE TABLE; the name is looked up in the current schema. -/
  | truncate (table : Name)
  | dropTable (t : TableName)
  | dropSequence (s : TableName)
  /-- The text of a client statement; its names are looked up in the current schema. -/
  | forward (f : Name → Tables V → Option (Tables V))

section Eval

variable [DecidableEq V]

/-- The row comparison of IN: NULL equals nothing. -/
def sqlRowEq (k k' : List (Option V)) : Bool := k = k' ∧ none ∉ k

/-- ROW_NUMBER() OVER (PARTITION BY pk ORDER BY "#mdb_row_no" DESC).  The row
numbers of a buffer table are distinct, so that ties need not be broken. -/
def rowNumber (pk : List ℕ) (rows : List (BufRow V)) (r : BufRow V) : ℕ :=
  1 + rows.countP fun q => keyOf pk q.cols = keyOf pk r.cols ∧ r.rowNo < q.rowNo

/-- The newest row of each key, unless that is a delete marker. -/
def latestRows (pk : List ℕ) (rows : List (BufRow V)) : List (Row V) :=
  (rows.filter fun r => rowNumber pk rows r = 1 ∧ r.isDelete = false).map BufRow.cols

/-- The rows whose key does not occur in the buffer table. -/
def untouchedRows (pk : List ℕ) (rows : List (BufRow V)) (b : Multiset (Row V)) :
    Multiset (Row V) :=
  b.filter fun r => ∀ q ∈ rows, sqlRowEq (keyOf pk r) (keyOf pk q.cols) = false

/-- Adding the auxiliary columns one after another; a column that is there already
is an error. -/
def TmpTable.addColumn : TmpTable V → Fin 3 → Option (TmpTable V)
  | .bare 0, 0 => some (.bare 1)
  | .bare 1, 1 => some (.bare 2)
  | .bare 2, 2 => some (.ready [])
  | _, _ => none

/-- The statements that add the auxiliary columns to a new buffer table. -/
abbrev Stmt.addColumns (x : CatalogName) : List (Stmt V) :=
  [.addColumn x 0, .addColumn x 1, .addColumn x 2]

/-- The effect of a statement on the contents, `none` if DuckDB refuses it. -/
def Stmt.eval (schema : Name) (st : Store V) : Stmt V → Option (Store V)
  | .use _ | .createSchema _ => some st
  | .createTemp x =>
      match st.temps x with
      | none => some (st.setTemp x (some (.bare 0)))
      | some _ => some st
  | .addColumn x j =>
      ((st.temps x).bind fun T => T.addColumn j).map fun T => st.setTemp x (some T)
  | .dropTemp x => (st.temps x).map fun _ => st.setTemp x none
  | .dropTempIfExists x => some (st.setTemp x none)
  | .append (.base t) rows =>
      some (st.setTable t (st.tables t + (rows.map BufRow.cols : List (Row V))))
  | .append (.temp x) rows =>
      match st.temps x with
      | some (.ready rs) => some (st.setTemp x (some (.ready (rs ++ rows))))
      | _ => none
  | .deleteTouched t pk x =>
      (st.temps x).map fun T => st.setTable t (untouchedRows pk T.rows (st.tables t))
  | .insertLatest t pk x =>
      match st.temps x with
      | some (.ready rs) =>
          some (st.setTable t (st.tables t + (latestRows pk rs : List (Row V))))
      | _ => none
  | .insert t row => some (st.setTable t (st.tables t + {row}))
  | .update t cond set =>
      some (st.setTable t
        ((st.tables t).filter (fun r => cond r = false)
          + ((st.tables t).filter fun r => cond r = true).map set))
  | .delete t cond => some (st.setTable t ((st.tables t).filter fun r => cond r = false))
  | .malformed => none
  | .createSequence s => some { st with catalog := st.catalog.createSequence s }
  | .createTable table sequence =>
      (st.catalog.createTable ⟨schema, table⟩ sequence).map fun cat => { st with catalog := cat }
  | .renameTable old new =>
      (st.catalog.renameTable ⟨schema, old⟩ ⟨schema, new⟩).map fun cat =>
        { (st.setTable ⟨schema, old⟩ 0).setTable ⟨schema, new⟩ (st.tables ⟨schema, old⟩) with
          catalog := cat }
  | .truncate table => some (st.setTable ⟨schema, table⟩ 0)
  | .dropTable t => some { st.setTable t 0 with catalog := st.catalog.dropTable t }
  | .dropSequence s =>
      (st.catalog.dropSequence s).map fun cat => { st with catalog := cat }
  | .forward f => (f schema st.tables).map fun tables => { st with tables := tables }

end Eval

/-- The statement touches at most the rows of the table `t` and the buffer table
`x`. -/
def Stmt.Within (t : TableName) (x : Option CatalogName) : Stmt V → Prop
  | .use _ | .createSchema _ | .malformed => True
  | .createTemp y | .addColumn y _ | .dropTemp y | .dropTempIfExists y
  | .append (.temp y) _ => x = some y
  | .append (.base t') _ | .deleteTouched t' _ _ | .insertLatest t' _ _ | .insert t' _
  | .update t' _ _ | .delete t' _ => t' = t
  | _ => False

/-- The statement writes rows of the table `t` and does nothing else. -/
def Stmt.OnRows (t : TableName) : Stmt V → Prop
  | .malformed => True
  | .insert t' _ | .update t' _ _ | .delete t' _ => t' = t
  | _ => False

lemma Stmt.OnRows.within {t : TableName} {q : Stmt V} (h : q.OnRows t) : q.Within t none := by
  cases q <;> first | exact h | exact h.elim

lemma Stmt.OnRows.ne_use {t : TableName} {q : Stmt V} (h : q.OnRows t) (s : Name) :
    q ≠ .use s := by
  rintro rfl
  exact h

lemma Stmt.eval_within [DecidableEq V] {t : TableName} {x : Option CatalogName} {q : Stmt V}
    (hq : q.Within t x) {schema : Name} {st st' : Store V} (h : q.eval schema st = some st') :
    st'.catalog = st.catalog ∧ (∀ t', t' ≠ t → st'.tables t' = st.tables t') ∧
      ∀ y, x ≠ some y → st'.temps y = st.temps y := by
  have hset : ∀ b, (st.setTable t b).catalog = st.catalog ∧
      (∀ t', t' ≠ t → (st.setTable t b).tables t' = st.tables t') ∧
      ∀ y, x ≠ some y → (st.setTable t b).temps y = st.temps y := by
    intro b
    refine ⟨rfl, fun t' ht' => ?_, fun _ _ => rfl⟩
    exact Function.update_of_ne ht' b st.tables
  have htmp : ∀ z T, x = some z → (st.setTemp z T).catalog = st.catalog ∧
      (∀ t', t' ≠ t → (st.setTemp z T).tables t' = st.tables t') ∧
      ∀ y, x ≠ some y → (st.setTemp z T).temps y = st.temps y := by
    rintro z T rfl
    refine ⟨rfl, fun _ _ => rfl, fun y hy => ?_⟩
    have hyz : y ≠ z := fun h => hy (by rw [h])
    rw [Store.temps_setTemp, Function.update_of_ne hyz]
  cases q <;> simp only [Stmt.Within] at hq <;> simp only [Stmt.eval] at h
  case use | createSchema => cases h; simp
  case malformed => simp at h
  case createTemp z =>
    split at h <;> cases h
    · exact htmp z _ hq
    · simp
  case addColumn z j =>
    simp only [Option.map_eq_some_iff] at h
    obtain ⟨T, -, rfl⟩ := h
    exact htmp z _ hq
  case dropTemp z =>
    simp only [Option.map_eq_some_iff] at h
    obtain ⟨T, -, rfl⟩ := h
    exact htmp z _ hq
  case dropTempIfExists z => cases h; exact htmp z _ hq
  case append target rows =>
    cases target with
    | base t' => subst hq; cases h; exact hset _
    | temp z =>
        simp only at h
        split at h <;> cases h
        exact htmp z _ hq
  case deleteTouched t' pk z =>
    subst hq
    simp only [Option.map_eq_some_iff] at h
    obtain ⟨T, -, rfl⟩ := h
    exact hset _
  case insertLatest t' pk z =>
    subst hq
    split at h <;> cases h
    exact hset _
  case insert | update | delete => subst hq; cases h; exact hset _

/-- The current schema after a statement. -/
def Stmt.schemaAfter (schema : Name) : Stmt V → Name
  | .use s => s
  | _ => schema

/-- Every statement but USE may fail. -/
def Stmt.mayFail : Stmt V → Bool
  | .use _ => false
  | _ => true

end DuckdbEngine
