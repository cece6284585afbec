/-
The columns of a DuckDB table under ALTER TABLE.

DuckDB executes one change of a table at a time.  A column has a type, a NOT NULL
constraint, a default and the values of the rows.  Names are looked up without regard
to case, so the columns are kept under case-folded names.  What DuckDB makes of the
text of a default is a parameter: whether it binds for a column of some type, and
which value an added column gets from it.
-/
import DuckdbEngine.Lib.KeyedEdits
import DuckdbEngine.Runtime.Catalog
import DuckdbEngine.Sql.Region

namespace DuckdbEngine

open KeyedEdits Sql

variable {V : Type}

/-- A column of a DuckDB table. -/
structure Column (V : Type) where
  type : Text
  notNull : Bool
  default : Option Text
  /-- The values, by row. -/
  data : List (Option V)

/-- The columns of a table, under case-folded names. -/
abbrev Columns (V : Type) := KeyedEdits.Store Name (Column V)

/-- The behaviour of DuckDB that ALTER TABLE depends on. -/
structure AlterEnv (V : Type) where
  /-- The value that the text of a default has as a value of a type, if there is one. -/
  evalDefault : (type text : Text) → Option (Option V)
  /-- The text of a default can be bound for a column of a type. -/
  bindsDefault : (type text : Text) → Bool
  /-- Converts a value from one type to another. -/
  castValue : (old new : Text) → Option V → Option (Option V)
  /-- Registering the transaction, BEGIN or COMMIT fails. -/
  registerFails : Bool
  beginFails : Bool
  commitFails : Bool

/-- `ALTER TABLE ... ALTER COLUMN ...`, except for a change of the type. -/
inductive ColumnChange where
  | setDefault (value : Text)
  | dropDefault
  | setNotNull
  | dropNotNull
deriving DecidableEq

/-- A change of a table. -/
inductive AlterStmt where
  | columnAdd (column : Name) (type : Text) (default : Option Text)
  | columnDrop (column : Name)
  | columnRename (old new : Name)
  | columnChangeType (column : Name) (type : Text)
  | columnAlter (column : Name) (change : ColumnChange)
deriving DecidableEq

namespace ColumnChange

/-- The column admits the change. -/
def guard (env : AlterEnv V) : ColumnChange → Column V → Bool
  | .setDefault value, c => env.bindsDefault c.type value
  | .setNotNull, c => c.data.all Option.isSome
  | _, _ => true

def upd : ColumnChange → Column V → Column V
  | .setDefault value, c => { c with default := some value }
  | .dropDefault, c => { c with default := none }
  | .setNotNull, c => { c with notNull := true }
  | .dropNotNull, c => { c with notNull := false }

@[simp] lemma type_upd (ch : ColumnChange) (c : Column V) : (ch.upd c).type = c.type := by
  cases ch <;> rfl

@[simp] lemma data_upd (ch : ColumnChange) (c : Column V) : (ch.upd c).data = c.data := by
  cases ch <;> rfl

/-- Whether a column admits a change depends on its type and its data, which other changes
leave alone. -/
lemma guard_upd (env : AlterEnv V) (ch ch' : ColumnChange) (c : Column V) :
    ch.guard env (ch'.upd c) = ch.guard env c := by
  cases ch <;> simp only [guard, type_upd, data_upd]

/-- The nullability that a change brings about. -/
def nullability : ColumnChange → Option Bool
  | .setNotNull => some true
  | .dropNotNull => some false
  | _ => none

lemma notNull_upd (ch : ColumnChange) (c : Column V) :
    (ch.upd c).notNull = ch.nullability.getD c.notNull := by
  cases ch <;> rfl

end ColumnChange

/-- A column that is added to a table: all rows get the value of the default. -/
def newColumn (env : AlterEnv V) (rows : ℕ) (type : Text) (default : Option Text) :
    Option (Column V) :=
  let value := match default with
    | none => some none
    | some text => env.evalDefault type text
  value.map fun v => ⟨type, false, default, List.replicate rows v⟩

lemma newColumn_eq_some {env : AlterEnv V} {rows : ℕ} {type : Text} {default : Option Text}
    {c : Column V} (h : newColumn env rows type default = some c) :
    c.type = type ∧ c.notNull = false := by
  obtain ⟨v, -, rfl⟩ := Option.map_eq_some_iff.1 h
  exact ⟨rfl, rfl⟩

/-- The columns after a change, `none` if DuckDB refuses it. -/
def AlterStmt.exec (env : AlterEnv V) (rows : ℕ) (cols : Columns V) : AlterStmt → Option (Columns V)
  | .columnAdd n type default => (newColumn env rows type default).bind (add cols (foldCase n))
  | .columnDrop n => drop cols (foldCase n)
  | .columnRename o n => move cols (foldCase o) (foldCase n)
  | .columnChangeType n type =>
      (cols.lookup (foldCase n)).bind fun c =>
        (c.data.mapM (env.castValue c.type type)).map fun data =>
          cols.insert (foldCase n) { c with type := type, data := data }
  | .columnAlter n change => modify (change.guard env) change.upd cols (foldCase n)

/-- The columns after a list of changes. -/
def execAll (env : AlterEnv V) (rows : ℕ) (cols : Columns V) (stmts : List AlterStmt) :
    Option (Columns V) :=
  stmts.foldlM (AlterStmt.exec env rows) cols

section ExecAll

variable {env : AlterEnv V} {rows : ℕ} {cols cols' : Columns V}

lemma execAll_append {ss ss' : List AlterStmt} :
    execAll env rows cols (ss ++ ss') = some cols' ↔
      ∃ t, execAll env rows cols ss = some t ∧ execAll env rows t ss' = some cols' := by
  rw [execAll, List.foldlM_append]
  exact Option.bind_eq_some_iff

lemma execAll_drop (ns : List Name) :
    execAll env rows cols (ns.map .columnDrop) = dropAll cols (ns.map foldCase) := by
  rw [execAll, List.foldlM_map, dropAll, List.foldlM_map]
  rfl

lemma execAll_rename (ps : List (Name × Name)) :
    execAll env rows cols (ps.map fun p => .columnRename p.1 p.2) =
      moveAll cols (ps.map fun p => (foldCase p.1, foldCase p.2)) := by
  rw [execAll, List.foldlM_map, moveAll, List.foldlM_map]
  rfl

end ExecAll

/-! ### Changes in place -/

/-- Changes of columns, one after another. -/
def alterAll (env : AlterEnv V) (cols : Columns V) (xs : List (Name × ColumnChange)) :
    Option (Columns V) :=
  modifyAll (fun x => foldCase x.1) (fun x => x.2.guard env) (fun x => x.2.upd) cols xs

/-- What the changes make of the column `k`. -/
def Column.alter (xs : List (Name × ColumnChange)) (k : Name) (c : Column V) : Column V :=
  changed (fun x : Name × ColumnChange => foldCase x.1) (fun x => x.2.upd) k xs c

section AlterAll

variable {env : AlterEnv V} {cols cols' : Columns V} {xs ys : List (Name × ColumnChange)}
  {k : Name} {c : Column V}

lemma execAll_alter {rows : ℕ} :
    execAll env rows cols (xs.map fun x => .columnAlter x.1 x.2) = alterAll env cols xs :=
  List.foldlM_map ..

/-- The changes succeed if each of them is admitted by the column as it is at the start. -/
lemma alterAll_isSome_iff : (∃ cols', alterAll env cols xs = some cols') ↔
    ∀ x ∈ xs, ∃ c, cols.lookup (foldCase x.1) = some c ∧ x.2.guard env c :=
  modifyAll_isSome_iff fun x y c => ColumnChange.guard_upd env x.2 y.2 c

lemma lookup_alterAll (h : alterAll env cols xs = some cols') (k : Name) :
    cols'.lookup k = (cols.lookup k).map (Column.alter xs k) :=
  lookup_modifyAll h k

lemma Column.alter_append : Column.alter (xs ++ ys) k c = Column.alter ys k (Column.alter xs k c) := by
  simp only [Column.alter, changed, List.filter_append, List.foldl_append]

/-- Changes of other columns have no effect. -/
lemma Column.alter_of_forall_ne (h : ∀ x ∈ xs, foldCase x.1 ≠ k) : Column.alter xs k c = c := by
  rw [Column.alter, changed, List.filter_eq_nil_iff.2 (by simpa using h), List.foldl_nil]

@[simp] lemma Column.type_alter : (Column.alter xs k c).type = c.type :=
  changed_view (fun x c => x.2.type_upd c) k xs c

@[simp] lemma Column.data_alter : (Column.alter xs k c).data = c.data :=
  changed_view (fun x c => x.2.data_upd c) k xs c

lemma ColumnChange.guard_alter (ch : ColumnChange) :
    ch.guard env (Column.alter xs k c) = ch.guard env c := by
  cases ch <;> simp only [ColumnChange.guard, Column.type_alter, Column.data_alter]

end AlterAll

/-- Some change of the list sets the nullability of the column `k`. -/
def setsNullability (k : Name) (xs : List (Name × ColumnChange)) : Bool :=
  xs.any fun x => foldCase x.1 = k && x.2.nullability.isSome

/-- The nullability of a column after a list of changes, if all that concern it bring about
the same one. -/
lemma Column.notNull_alter {xs : List (Name × ColumnChange)} {k : Name} {b : Bool}
    (hb : ∀ x ∈ xs, foldCase x.1 = k → ∀ b' ∈ x.2.nullability, b' = b) (c : Column V) :
    (Column.alter xs k c).notNull = if setsNullability k xs then b else c.notNull := by
  induction xs generalizing c with
  | nil => rfl
  | cons x xs ih =>
      have ih := ih fun y hy => hb y (List.mem_cons_of_mem x hy)
      rw [setsNullability, List.any_cons, ← setsNullability]
      by_cases hk : foldCase x.1 = k
      · rw [Column.alter, changed, List.filter_cons_of_pos (by simpa using hk), List.foldl_cons,
          ← changed, ← Column.alter, ih, ColumnChange.notNull_upd]
        cases hx : x.2.nullability with
        | none => simp
        | some b' =>
            have : b' = b := hb x List.mem_cons_self hk b' hx
            simp [hk, this]
      · rw [Column.alter, changed, List.filter_cons_of_neg (by simpa using hk), ← changed,
          ← Column.alter, ih]
        simp [hk]

end DuckdbEngine
