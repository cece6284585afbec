/-
Tables, record buffers and rows.

The server hands rows to the engine in record buffers: for every field of the
table a null flag and a stored value.  The engine turns them into rows of a
DuckDB table, lists of nullable values.  A field that was declared NOT NULL has
no null flag at all, so what is read for it is never NULL; primary key columns
are such fields, which is part of a `TableDef`.

For an UPDATE the server keeps the new row in `record[0]` and passes the old row
as a second buffer.  The engine reads the old values by moving the field's value
pointer into that buffer, but the null flag is still the one of `record[0]`.
`TableDef.image` keeps the two sources apart.
-/
import Mathlib.Data.List.Nodup
import Mathlib.Data.List.Basic

namespace DuckdbEngine

/-- An identifier: a schema, table, column or sequence name. -/
abbrev Name := List Char

/-- A table name as the engine takes it from the server's path of the table. -/
structure TableName where
  dbName : Name
  tableName : Name
deriving DecidableEq

/-- The order in which an ordered map over pairs of schema and table name is
iterated. -/
def TableName.Le (a b : TableName) : Prop :=
  a.dbName < b.dbName ∨ a.dbName = b.dbName ∧ ¬ b.tableName < a.tableName

instance : DecidableRel TableName.Le := fun a b =>
  inferInstanceAs (Decidable (a.dbName < b.dbName ∨ a.dbName = b.dbName ∧ ¬ b.tableName < a.tableName))

/-- A field of a record buffer. -/
structure Cell (V : Type) where
  isNull : Bool
  raw : V

/-- A record buffer, by field index. -/
abbrev Record (V : Type) := ℕ → Cell V

/-- A row of a DuckDB table. -/
abbrev Row (V : Type) := List (Option V)

/-- What the engine reads of the definition of an opened table. -/
structure TableDef (V : Type) where
  /-- The number of fields. -/
  fields : ℕ
  /-- The field has a null flag, that is, it was not declared NOT NULL. -/
  nullable : ℕ → Bool
  /-- The fields of the primary key in key order, `none` for a table without one. -/
  primaryKey : Option (List ℕ)
  /-- The defaults of the columns of the DuckDB table. -/
  columnDefault : ℕ → Option V
  /-- Some field has the AUTO_INCREMENT flag. -/
  autoIncrement : Bool
  pk_lt : ∀ {pk}, primaryKey = some pk → ∀ i ∈ pk, i < fields
  pk_not_nullable : ∀ {pk}, primaryKey = some pk → ∀ i ∈ pk, nullable i = false

/-- The key of a row: its values in the primary key columns. -/
def keyOf {V : Type} (pk : List ℕ) (r : Row V) : List (Option V) := pk.map fun i => r[i]?.join

namespace TableDef

variable {V : Type} (t : TableDef V)

/-- What is read for field `i` when the null flags are those of `record0` and the
value pointer points into `src`. -/
def fieldVal (record0 src : Record V) (i : ℕ) : Option V :=
  if t.nullable i && (record0 i).isNull then none else some (src i).raw

/-- All the fields, read as `fieldVal` reads them. -/
def image (record0 src : Record V) : Row V := (List.range t.fields).map (t.fieldVal record0 src)

/-- The row that a record buffer holds. -/
def rowOf (r : Record V) : Row V := t.image r r

/-- A table of `n + 1` fields whose first field is the primary key. -/
def keyed (n : ℕ) : TableDef V where
  fields := n + 1
  nullable i := i ≠ 0
  primaryKey := some [0]
  columnDefault _ := none
  autoIncrement := false
  pk_lt h i hi := by cases h; simp_all
  pk_not_nullable h i hi := by cases h; simp_all

/-- A table of `n` fields without a primary key. -/
def keyless (n : ℕ) : TableDef V where
  fields := n
  nullable _ := true
  primaryKey := none
  columnDefault _ := none
  autoIncrement := false
  pk_lt h := by cases h
  pk_not_nullable h := by cases h

/-- The fields that identify the stored row in a WHERE clause: those of the
primary key, or all of them if there is none. -/
def indexFields : List ℕ := t.primaryKey.getD (List.range t.fields)

lemma getElem?_map_range {α : Type} (f : ℕ → α) {n i : ℕ} (hi : i < n) :
    ((List.range n).map f)[i]? = some (f i) := by
  rw [List.getElem?_map, List.getElem?_range hi, Option.map_some]

lemma getElem?_image {record0 src : Record V} {i : ℕ} (hi : i < t.fields) :
    (t.image record0 src)[i]? = some (t.fieldVal record0 src i) :=
  getElem?_map_range _ hi

@[simp] lemma length_image (record0 src : Record V) : (t.image record0 src).length = t.fields := by
  simp [image]

variable {t}

/-- A primary key field is read as the stored value, whatever the null flags say. -/
lemma fieldVal_of_pk {pk : List ℕ} (hpk : t.primaryKey = some pk) {i : ℕ} (hi : i ∈ pk)
    (record0 src : Record V) : t.fieldVal record0 src i = some (src i).raw := by
  simp [fieldVal, t.pk_not_nullable hpk i hi]

lemma keyOf_image {pk : List ℕ} (hpk : t.primaryKey = some pk) (record0 src : Record V) :
    keyOf pk (t.image record0 src) = pk.map fun i => some (src i).raw := by
  refine List.map_congr_left fun i hi => ?_
  rw [t.getElem?_image (t.pk_lt hpk i hi), fieldVal_of_pk hpk hi, Option.join_some]

lemma keyOf_rowOf {pk : List ℕ} (hpk : t.primaryKey = some pk) (r : Record V) :
    keyOf pk (t.rowOf r) = pk.map fun i => some (r i).raw :=
  keyOf_image hpk r r

/-- The key of a stored record has no NULL in it. -/
lemma none_notMem_keyOf_rowOf {pk : List ℕ} (hpk : t.primaryKey = some pk) (r : Record V) :
    none ∉ keyOf pk (t.rowOf r) := by
  rw [keyOf_rowOf hpk]
  simp

end TableDef

end DuckdbEngine
