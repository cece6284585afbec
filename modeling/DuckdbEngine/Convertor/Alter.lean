/-
In-place ALTER TABLE.

The server describes an ALTER TABLE by the old and the altered table and a list of
`Create_field`s, one for each column of the altered table.  Such an entry refers to
the old field it comes from, if the column is not added, and for CHANGE, MODIFY and
RENAME COLUMN it has the old name as the statement spells it.  Five convertors derive
DuckDB statements from this description, each one for its kind of change, and
`commit_inplace_alter_table` executes them one after another in one transaction.

What the server guarantees about the description is part of `AlterInplaceInfo`.
-/
import DuckdbEngine.Convertor.Field
import DuckdbEngine.Runtime.Columns

namespace DuckdbEngine

open Sql

/-- `strcasecmp` finds two names equal. -/
def sameName (m n : Name) : Bool := foldCase m = foldCase n

/-- The case-folded name of a field. -/
def Field.key (f : Field) : Name := foldCase f.fieldName

/-- An entry of `Alter_info::create_list`, the definition of a column of the altered table. -/
structure CreateField where
  fieldName : Name
  /-- The field of the old table that the column comes from. -/
  field : Option Field
  /-- The old name in CHANGE, MODIFY or RENAME COLUMN. -/
  change : Option Name
  notNull : Bool
  noDefaultValue : Bool
  /-- ON UPDATE CURRENT_TIMESTAMP -/
  onUpdate : Bool

/-- The case-folded name of the column. -/
def CreateField.key (e : CreateField) : Name := foldCase e.fieldName

/-- An entry of `Alter_info::drop_list`. -/
structure AlterDrop where
  isColumn : Bool
  name : Name

def AlterDrop.key (d : AlterDrop) : Name := foldCase d.name

/-- What the engine is told about an ALTER TABLE. -/
structure AlterInplaceInfo where
  oldTable : List Field
  newTable : List Field
  createList : List CreateField
  dropList : List AlterDrop
  /-- The flags of `Alter_info`: CHANGE or MODIFY COLUMN, ALTER COLUMN ... DEFAULT, ADD INDEX or
  PRIMARY KEY, FIRST or AFTER. -/
  changeColumn : Bool
  changeColumnDefault : Bool
  addIndex : Bool
  columnOrder : Bool
  errorIfNotEmpty : Bool
  databaseChanged : Bool
  /-- The old table has a primary key. -/
  hasPrimaryKey : Bool
  old_nodup : (oldTable.map Field.key).Nodup
  new_nodup : (createList.map CreateField.key).Nodup
  /-- The altered table is made from the list of definitions. -/
  created : List.Forall₂ (fun e f => f.fieldName = e.fieldName ∧ f.notNull = e.notNull)
    createList newTable
  createList_ne : createList ≠ []
  field_mem : ∀ e ∈ createList, ∀ f ∈ e.field, f ∈ oldTable
  field_inj : ∀ e ∈ createList, ∀ e' ∈ createList, ∀ f, e.field = some f → e'.field = some f → e = e'
  change_field : ∀ e ∈ createList, ∀ c ∈ e.change, ∃ f ∈ e.field, foldCase c = f.key
  renamed_change : ∀ e ∈ createList, ∀ f ∈ e.field, e.key ≠ f.key → e.change.isSome
  drop_mem : ∀ d ∈ dropList, d.isColumn →
    ∃ f ∈ oldTable, (∀ e ∈ createList, e.field ≠ some f) ∧ f.key = d.key
  drop_nodup : ((dropList.filter AlterDrop.isColumn).map AlterDrop.key).Nodup

/-- A convertor: the result of `check` and the statements of `translate`. -/
structure AlterTableConvertor where
  check : Option DdlError
  translate : List AlterStmt

def isTypeChanged (_newField : CreateField) (_oldField : Field) : Bool := false

def isNullableChange (newField : CreateField) (oldField : Field) : Bool :=
  oldField.notNull != newField.notNull

def isNameChanged (newField : CreateField) : Bool :=
  match newField.change with
  | none => false
  | some change => !sameName newField.fieldName change

/-- The field of the new table with the name of the definition. -/
def findField (newField : CreateField) (newTable : List Field) : Option Field :=
  newTable.find? fun f => sameName f.fieldName newField.fieldName

namespace AlterInplaceInfo

variable (cfg : Settings) (a : AlterInplaceInfo)

/-! ### ADD COLUMN -/

/-- The definitions of added columns with their fields in the new table. -/
def columnsToAdd : List (CreateField × Field) :=
  a.createList.filterMap fun e =>
    if e.field.isSome then none else (findField e a.newTable).map fun f => (e, f)

/-- The DEFAULT clause of an added column. -/
def addDefault (newField : CreateField) (field : Field) : Option Text :=
  if newField.onUpdate then some "CURRENT_TIMESTAMP".toList
  else if !field.noDefaultValue then
    if isSequenceDefault field then none else some (getFieldDefaultForDuckdb field false)
  else if field.notNull then some (getFieldDefaultForDuckdb field false)
  else none

def addColumnConvertor : AlterTableConvertor :=
  let setNotNull := a.columnsToAdd.filter fun p => p.1.notNull
  let dropDefault := setNotNull.filter fun p => p.2.noDefaultValue
  { check := a.columnsToAdd.findSome? fun p => FieldConvertor.check .alter p.2
    translate :=
      a.columnsToAdd.map (fun p =>
        .columnAdd p.1.fieldName (FieldConvertor.convertType cfg p.2) (addDefault p.1 p.2)) ++
      setNotNull.map (fun p => .columnAlter p.1.fieldName .setNotNull) ++
      dropDefault.map (fun p => .columnAlter p.1.fieldName .dropDefault) }

/-! ### DROP COLUMN -/

/-- The old names of changed columns, as the statement spells them. -/
def renamedOldNames : List Name := a.createList.filterMap CreateField.change

def columnsToDrop : List Field :=
  if a.dropList.isEmpty then
    a.oldTable.filter fun f =>
      f.fieldName ∉ a.renamedOldNames &&
        !a.newTable.any fun f' => sameName f'.fieldName f.fieldName
  else
    (a.dropList.filter AlterDrop.isColumn).filterMap fun d =>
      a.oldTable.find? fun f => sameName f.fieldName d.name

def dropColumnConvertor : AlterTableConvertor where
  check :=
    if cfg.requirePrimaryKey && a.columnsToDrop.any Field.priKey then some .requiresPrimaryKey
    else none
  translate := a.columnsToDrop.map fun f => .columnDrop f.fieldName

/-! ### CHANGE, MODIFY and RENAME COLUMN -/

/-- The definitions of changed columns with the old field and the field in the new table. -/
def changedColumns : List (CreateField × Field × Field) :=
  a.createList.filterMap fun e =>
    if e.change.isNone then none
    else
      match e.field, findField e a.newTable with
      | some old, some new => some (e, old, new)
      | _, _ => none

/-- The statement about the default of a changed column. -/
def changeDefault (newField : CreateField) (old field : Field) : Option ColumnChange :=
  if newField.noDefaultValue then some .dropDefault
  else if field.noDefaultValue then none
  else
    let newExpr := getExprDefaultText field
    if hasMariadbSequenceFunc newExpr then
      if newExpr ≠ getExprDefaultText old then some .dropDefault else none
    else if !newExpr.isEmpty then some (.setDefault ("(".toList ++ newExpr ++ ")".toList))
    else some (.setDefault (getFieldDefaultForDuckdb field true))

def changeColumnConvertor : AlterTableConvertor :=
  let columns := a.changedColumns
  let nullable := columns.filter fun p => isNullableChange p.1 p.2.1
  { check := columns.findSome? fun p => FieldConvertor.check .alter p.2.2
    translate :=
      (columns.filter fun p => isNameChanged p.1).map
        (fun p => .columnRename p.2.1.fieldName p.1.fieldName) ++
      (columns.filter fun p => isTypeChanged p.1 p.2.1).map
        (fun p => .columnChangeType p.2.2.fieldName (FieldConvertor.convertType cfg p.2.2)) ++
      columns.filterMap (fun p =>
        (changeDefault p.1 p.2.1 p.2.2).map (.columnAlter p.1.fieldName)) ++
      (nullable.filter fun p => !p.1.notNull).map
        (fun p => .columnAlter p.1.fieldName .dropNotNull) ++
      (nullable.filter fun p => p.1.notNull).map
        (fun p => .columnAlter p.1.fieldName .setNotNull) }

/-! ### ALTER COLUMN ... DEFAULT -/

/-- The change of the default of a column, found by comparing the old and the new field. -/
def defaultChange (old new : Field) : Option ColumnChange :=
  let set := some (ColumnChange.setDefault
    (if (getExprDefaultText new).isEmpty then getFieldDefaultForDuckdb new true
     else "(".toList ++ getExprDefaultText new ++ ")".toList))
  if !old.noDefaultValue && new.noDefaultValue then some .dropDefault
  else if !new.noDefaultValue && old.noDefaultValue then
    if isSequenceDefault new then some .dropDefault else set
  else if !old.noDefaultValue && !new.noDefaultValue then
    let oldExpr := getExprDefaultText old
    let newExpr := getExprDefaultText new
    if !oldExpr.isEmpty || !newExpr.isEmpty then
      if oldExpr ≠ newExpr then
        if hasMariadbSequenceFunc newExpr then some .dropDefault else set
      else none
    else
      match old.defaultRecord, new.defaultRecord with
      | none, none => none
      | some _, none => some .dropDefault
      | none, some _ => set
      | some v, some w => if cfg.sortcmp v w then set else none
  else none

/-- The columns whose default changes. -/
def changedDefaults : List (Name × ColumnChange) :=
  a.newTable.filterMap fun new =>
    (a.oldTable.find? fun old => sameName old.fieldName new.fieldName).bind fun old =>
      (defaultChange cfg old new).map fun c => (new.fieldName, c)

def changeColumnDefaultConvertor : AlterTableConvertor where
  check := none
  translate :=
    ((a.changedDefaults cfg).filter fun x => x.2 = .dropDefault).map
      (fun x => .columnAlter x.1 x.2) ++
    ((a.changedDefaults cfg).filter fun x => x.2 ≠ .dropDefault).map
      (fun x => .columnAlter x.1 x.2)

/-! ### ADD PRIMARY KEY -/

def changeColumnForPrimaryKeyConvertor : AlterTableConvertor where
  check := none
  translate := (a.newTable.filter fun f => f.priKey && f.notNull).map
    fun f => .columnAlter f.fieldName .setNotNull

/-! ### The handler -/

/-- A field of the old table that no column of the altered table comes from. -/
def Dropped (f : Field) : Prop := f ∈ a.oldTable ∧ ∀ e ∈ a.createList, e.field ≠ some f

/-- `ALTER_ADD_COLUMN`: the server finds a column without an old field. -/
def addColumn : Bool := a.createList.any fun e => e.field.isNone

/-- `ALTER_DROP_COLUMN`: the server finds an old field without a column. -/
def dropColumn : Bool := a.oldTable.any fun f => !a.createList.any fun e => e.field = some f

/-- `ALTER_COLUMN_NAME`: the server finds a column with another name than its old field. -/
def columnName : Bool :=
  a.createList.any fun e => e.field.any fun f => !sameName f.fieldName e.fieldName

inductive InplaceResult where
  | notSupported
  | error (e : DdlError)
  | noLock
deriving DecidableEq

def checkIfSupportedInplaceAlter : InplaceResult :=
  if a.databaseChanged then .notSupported
  else if a.columnOrder then .notSupported
  else if a.errorIfNotEmpty then .notSupported
  else if cfg.requirePrimaryKey && !a.hasPrimaryKey then .error .requiresPrimaryKey
  else .noLock

def convertors : List AlterTableConvertor :=
  (if a.addColumn then [a.addColumnConvertor cfg] else []) ++
  (if a.dropColumn then [a.dropColumnConvertor cfg] else []) ++
  (if a.changeColumn || a.columnName then [a.changeColumnConvertor cfg] else []) ++
  (if a.changeColumnDefault then [a.changeColumnDefaultConvertor cfg] else []) ++
  (if a.addIndex then [a.changeColumnForPrimaryKeyConvertor] else [])

/-- The statements in the order in which they are executed. -/
def statements : List AlterStmt := (a.convertors cfg).flatMap AlterTableConvertor.translate

/-- Returns whether there was an error, and the columns afterwards.  The statements run in a
transaction of a connection of their own, which is rolled back if one of them fails. -/
def commitInplaceAlterTable {V : Type} (env : AlterEnv V) (rows : ℕ) (commit : Bool)
    (cols : Columns V) : Bool × Columns V :=
  if !commit then (false, cols)
  else if env.registerFails then (true, cols)
  else if (a.convertors cfg).any fun c => c.check.isSome then (true, cols)
  else if (a.statements cfg).isEmpty then (false, cols)
  else if env.beginFails then (true, cols)
  else
    match execAll env rows cols (a.statements cfg) with
    | none => (true, cols)
    | some cols' => if env.commitFails then (true, cols) else (false, cols')

end AlterInplaceInfo

end DuckdbEngine
