/-
The two ways to insert a row.

Outside a batch `write_row` executes an INSERT that lists the columns of the write set only,
and DuckDB fills in the defaults of the others.  In a batch it appends the values of all
columns.  The defaults are those that CREATE TABLE was given by `FieldConvertor` and, for an
AUTO_INCREMENT column, by `CreateTableConvertor`.

For a column that the statement does not mention the server puts a value in the record: that
of the default record, that of the default expression, or the next number.  The two ways store
the same row exactly if the write set is not empty and DuckDB comes to the same value for every
column outside of it.  It does so for a literal default, if CREATE TABLE was given it.
-/
import DuckdbEngine.Convertor.Alter

namespace DuckdbEngine

open Sql

/-! ### CREATE TABLE -/

namespace CreateTableConvertor

/-- The checks of CREATE TABLE; an ALTER TABLE that copies the table arrives here with another
SQL command. -/
def check (cfg : Settings) (sqlcomCreateTable hasPk : Bool) (fields : List Field) : Option DdlError :=
  match fields.findSome? (FieldConvertor.check .create) with
  | some e => some e
  | none =>
      if !sqlcomCreateTable && fields.any Field.autoIncrement then some .cantHandleAutoIncrement
      else if cfg.requirePrimaryKey && !hasPk then some .requiresPrimaryKey
      else none

/-- The call of `nextval` for the sequence of a table. -/
def autoincNextvalExpr (name : TableName) : Text :=
  let qualified := appendQuotedIdentifier
    (appendQuotedIdentifier [] name.dbName ++ ['.']) (autoincSequenceName name.tableName)
  "nextval(".toList ++ squote :: double squote qualified ++ squote :: ")".toList

/-- A column of the new table. -/
def columnDefinition (cfg : Settings) (defaultValues : Bool) (name : TableName) (field : Field) :
    Option ColumnDef :=
  (FieldConvertor.translate cfg defaultValues field).map fun c =>
    if field.autoIncrement then { c with default := some (autoincNextvalExpr name) } else c

end CreateTableConvertor

/-- A table that CREATE TABLE has accepted. -/
structure AcceptedTable (cfg : Settings) where
  name : TableName
  fields : List Field
  sqlcomCreateTable : Bool
  hasPk : Bool
  /-- The default record was set up when the table was created. -/
  defaultValues : Bool
  accepted : CreateTableConvertor.check cfg sqlcomCreateTable hasPk fields = none
  nodup : (fields.map Field.key).Nodup

variable {V W : Type}

/-- How DuckDB is given values: the conversion of a value of a field, which is the same on both
ways, and the value that the text of a default has for a type when a row is inserted. -/
structure InsertEnv (V W : Type) where
  encode : Field → V → Option W
  evalDefault : (type text : Text) → Option (Option W)

/-- What the defaults of a table stand for: the values of the default record, what DuckDB computes
for the text of an expression, and the next value of a sequence. -/
structure DefaultValues (V W : Type) where
  literal : Field → List UInt8 → V
  expr : (type expr : Text) → Option (Option W)
  next : TableName → Option (Option W)

namespace ColumnDef

/-- The value of a column that an INSERT does not list. -/
def defaultValue (env : InsertEnv V W) (c : ColumnDef) : Option (Option W) :=
  match c.default with
  | none => some none
  | some text => env.evalDefault c.type text

/-- The NOT NULL constraint. -/
def constrain (c : ColumnDef) (v : Option W) : Option (Option W) :=
  if c.notNull && v.isNone then none else some v

lemma constrain_eq_some {c : ColumnDef} {v w : Option W} (h : c.constrain v = some w) : v = w := by
  rw [constrain] at h
  split at h
  · cases h
  · exact Option.some.inj h

end ColumnDef

namespace AcceptedTable

variable {cfg : Settings} (t : AcceptedTable cfg) (env : InsertEnv V W) (ws : ℕ → Bool)
  (record0 : Record V)

lemma check_field {f : Field} (hf : f ∈ t.fields) : FieldConvertor.check .create f = none := by
  have h := t.accepted
  rw [CreateTableConvertor.check] at h
  split at h
  · cases h
  · exact List.findSome?_eq_none_iff.1 ‹_› f hf

/-- An accepted field is visible. -/
lemma visible {f : Field} (hf : f ∈ t.fields) : f.invisible = .visible := by
  by_contra hne
  have h := t.check_field hf
  simp [FieldConvertor.check, hne] at h

/-- The column of a field. -/
def column (f : Field) : ColumnDef where
  name := f.fieldName
  type := FieldConvertor.convertType cfg f
  notNull := f.notNull
  default :=
    if f.autoIncrement then some (CreateTableConvertor.autoincNextvalExpr t.name)
    else FieldConvertor.defaultClause t.defaultValues f

/-- The columns of the DuckDB table. -/
def columns : List ColumnDef :=
  t.fields.filterMap (CreateTableConvertor.columnDefinition cfg t.defaultValues t.name)

lemma columns_eq : t.columns = t.fields.map t.column := by
  rw [columns, ← List.filterMap_eq_map]
  refine List.filterMap_congr fun f hf => ?_
  simp only [CreateTableConvertor.columnDefinition, FieldConvertor.translate, t.visible hf, column,
    Function.comp_apply]
  cases f.autoIncrement <;> rfl

/-- What is read for a field; a NOT NULL field has no null flag. -/
def fieldValue (p : Field × ℕ) : Option V :=
  if !p.1.notNull && (record0 p.2).isNull then none else some (record0 p.2).raw

/-- The value that DuckDB is given for a field. -/
def encoded (p : Field × ℕ) : Option (Option W) :=
  match fieldValue record0 p with
  | none => some none
  | some v => (env.encode p.1 v).map some

/-- `append_row_insert`: all fields are appended. -/
def appendRowInsert : Option (Row W) :=
  t.fields.zipIdx.mapM fun p => (encoded env record0 p).bind (t.column p.1).constrain

def getWriteFields : List (Field × ℕ) := t.fields.zipIdx.filter fun p => ws p.2

/-- The columns and values of the INSERT; without columns its text does not parse. -/
def insertConvertor : Option (List (Name × Option (Option W))) :=
  if (t.getWriteFields ws).isEmpty then none
  else some ((t.getWriteFields ws).map fun p => (p.1.fieldName, encoded env record0 p))

/-- The value that an INSERT stores in a column. -/
def inserted (listed : List (Name × Option (Option W))) (c : ColumnDef) : Option (Option W) :=
  let value := match listed.find? fun x => sameName x.1 c.name with
    | some x => x.2
    | none => c.defaultValue env
  value.bind c.constrain

/-- The row that the INSERT stores. -/
def executeInsert : Option (Row W) :=
  (t.insertConvertor env ws record0).bind fun listed => t.columns.mapM (inserted env listed)

/-! ### The stored rows -/

lemma mapM_eq_some_iff {α β : Type} {f : α → Option β} {l : List α} {r : List β} :
    l.mapM f = some r ↔ l.map f = r.map some := by
  induction l generalizing r with
  | nil => cases r <;> simp
  | cons x l ih => cases r <;> simp [List.mapM_cons, Option.bind_eq_some_iff, ih]

lemma map_zipIdx {β : Type} (g : Field → β) :
    (t.fields.zipIdx.map fun p => g p.1) = t.fields.map g := by
  have h := congrArg (List.map g) (List.zipIdx_map_fst 0 t.fields)
  rwa [List.map_map] at h

lemma nodup_zipIdx : (t.fields.zipIdx.map fun p => p.1.key).Nodup := by
  rw [t.map_zipIdx Field.key]
  exact t.nodup

/-- The columns of the write set are listed with their values, the others are not listed. -/
lemma find_listed {p : Field × ℕ} (hp : p ∈ t.fields.zipIdx) :
    ((t.getWriteFields ws).map fun q => (q.1.fieldName, encoded env record0 q)).find?
        (fun x => sameName x.1 p.1.fieldName) =
      if ws p.2 then some (p.1.fieldName, encoded env record0 p) else none := by
  have hnd : (((t.getWriteFields ws).map fun q => (q.1.fieldName, encoded env record0 q)).map
      fun x => foldCase x.1).Nodup := by
    rw [List.map_map]
    exact t.nodup_zipIdx.sublist (List.filter_sublist.map _)
  split
  · refine (KeyedList.find_eq_some (l := ⟨_, hnd⟩) (k := p.1.key)).2 ⟨?_, rfl⟩
    exact List.mem_map.2 ⟨p, List.mem_filter.2 ⟨hp, ‹_›⟩, rfl⟩
  · refine (KeyedList.find_eq_none (l := ⟨_, hnd⟩) (k := p.1.key)).2 fun x hx hkey => ?_
    obtain ⟨q, hq, rfl⟩ := List.mem_map.1 hx
    obtain ⟨hq, hws⟩ := List.mem_filter.1 hq
    cases List.inj_on_of_nodup_map t.nodup_zipIdx hq hp hkey
    exact absurd hws ‹_›

/-- The INSERT, column by column. -/
lemma executeInsert_eq_some_iff {row : Row W} : t.executeInsert env ws record0 = some row ↔
    (∃ p ∈ t.fields.zipIdx, ws p.2) ∧
      (t.fields.zipIdx.map fun p =>
        (if ws p.2 then encoded env record0 p else (t.column p.1).defaultValue env).bind
          (t.column p.1).constrain) = row.map some := by
  have hempty : (t.getWriteFields ws).isEmpty = false ↔ ∃ p ∈ t.fields.zipIdx, ws p.2 := by
    simp [getWriteFields]
  rw [← hempty, executeInsert, insertConvertor]
  cases (t.getWriteFields ws).isEmpty with
  | true => simp
  | false =>
      have hcol : ∀ p ∈ t.fields.zipIdx, inserted env
          ((t.getWriteFields ws).map fun q => (q.1.fieldName, encoded env record0 q))
          (t.column p.1) =
          (if ws p.2 then encoded env record0 p else (t.column p.1).defaultValue env).bind
            (t.column p.1).constrain := by
        intro p hp
        have hfind := t.find_listed env ws record0 hp
        simp only [inserted, column] at hfind ⊢
        rw [hfind]
        cases ws p.2 <;> rfl
      simp only [Bool.false_eq_true, if_false, Option.bind_some, true_and, mapM_eq_some_iff,
        columns_eq, List.map_map]
      rw [← List.map_congr_left hcol, ← t.map_zipIdx]
      rfl

/-- The INSERT stores the row that the appender stores exactly if its write set is not empty and
every column outside of it is filled in with the value that the appender is given. -/
lemma executeInsert_eq_appended_iff {row : Row W} (happend : t.appendRowInsert env record0 = some row) :
    t.executeInsert env ws record0 = some row ↔
      (∃ p ∈ t.fields.zipIdx, ws p.2) ∧
      ∀ p ∈ t.fields.zipIdx, ws p.2 = false →
        (t.column p.1).defaultValue env = encoded env record0 p := by
  have hrow := mapM_eq_some_iff.1 happend
  rw [executeInsert_eq_some_iff, ← hrow, List.map_inj_left]
  refine and_congr_right fun _ => forall₂_congr fun p hp => ?_
  -- The appended value is admitted, so a default is stored in its place only if it is the same.
  obtain ⟨w, hw⟩ : ∃ w, (encoded env record0 p).bind (t.column p.1).constrain = some w := by
    have hmem := List.mem_map_of_mem
      (f := fun p => (encoded env record0 p).bind (t.column p.1).constrain) hp
    rw [hrow] at hmem
    obtain ⟨w, -, hw⟩ := List.mem_map.1 hmem
    exact ⟨w, hw.symm⟩
  cases hws : ws p.2 with
  | true => simp
  | false =>
      simp only [Bool.false_eq_true, if_false, true_implies]
      constructor
      · intro h
        rw [hw] at h
        obtain ⟨v, hv, hconstrain⟩ := Option.bind_eq_some_iff.1 h
        obtain ⟨v', hv', hconstrain'⟩ := Option.bind_eq_some_iff.1 hw
        rw [hv, hv', ColumnDef.constrain_eq_some hconstrain, ColumnDef.constrain_eq_some hconstrain']
      · intro h
        rw [h]

/-! ### The values of defaults -/

section

variable (dv : DefaultValues V W)

/-- DuckDB reads the texts of defaults as what they stand for; a literal, as the value that it is
given on both ways for the value in the default record. -/
structure Reads : Prop where
  literal : ∀ f ∈ t.fields, ∀ bytes ∈ f.defaultRecord,
    env.evalDefault (FieldConvertor.convertType cfg f) (getFieldDefaultForDuckdb f true) =
      (env.encode f (dv.literal f bytes)).map some
  expr : ∀ type e, env.evalDefault type ("(".toList ++ e ++ ")".toList) = dv.expr type e
  nextval : ∀ type name, env.evalDefault type (CreateTableConvertor.autoincNextvalExpr name) =
    dv.next name.autoincSequence

/-- The record holds what the server puts in it for the columns outside the write set: without a
default expression, and other than for AUTO_INCREMENT, the value of the default record. -/
def Materialised : Prop :=
  ∀ p ∈ t.fields.zipIdx, ws p.2 = false → p.1.autoIncrement = false → p.1.defaultExpr = none →
    fieldValue record0 p = p.1.defaultRecord.map (dv.literal p.1)

/-- DuckDB fills in the value of the record for a column that is not listed: the next value of the
sequence is the number in the record; the default expression has the same value in DuckDB, or the
value is NULL if the expression was not forwarded; the default record was forwarded, or it has
NULL. -/
def FillsIn (p : Field × ℕ) : Prop :=
  if p.1.autoIncrement then dv.next t.name.autoincSequence = encoded env record0 p
  else
    match p.1.defaultExpr with
    | some expr =>
        if p.1.noDefaultValue || hasMariadbSequenceFunc expr || expr.isEmpty then
          fieldValue record0 p = none
        else dv.expr (FieldConvertor.convertType cfg p.1) expr = encoded env record0 p
    | none => p.1.defaultRecord = none ∨ t.defaultValues = true ∧ p.1.noDefaultValue = false

lemma encoded_eq_null_iff (p : Field × ℕ) :
    encoded env record0 p = some none ↔ fieldValue record0 p = none := by
  rw [encoded]
  cases fieldValue record0 p <;> simp

/-- A literal is not the text that stands for NULL. -/
lemma getFieldDefaultForDuckdb_eq_null_iff (f : Field) :
    getFieldDefaultForDuckdb f true = "NULL".toList ↔ f.defaultRecord = none := by
  have hquote : squote ≠ 'N' := by decide
  rw [getFieldDefaultForDuckdb]
  cases f.defaultRecord with
  | none => simp
  | some bytes =>
      dsimp only
      split_ifs <;> simp [hquote]

variable {env ws record0 dv}

/-- A column with a default expression, or without one that is forwarded. -/
lemma defaultValue_expr_iff (hreads : t.Reads env dv) {p : Field × ℕ} {expr : Text}
    (hauto : p.1.autoIncrement = false) (hexpr : p.1.defaultExpr = some expr) :
    (t.column p.1).defaultValue env = encoded env record0 p ↔ t.FillsIn env record0 dv p := by
  rw [FillsIn, if_neg (by simp [hauto]), hexpr, ColumnDef.defaultValue, column, if_neg (by simp [hauto]),
    FieldConvertor.defaultClause, hexpr, hauto]
  dsimp only
  cases p.1.noDefaultValue <;> cases hasMariadbSequenceFunc expr <;> cases expr.isEmpty
  case false.false.false => simp [← hreads.expr]
  all_goals simp [← encoded_eq_null_iff env, eq_comm]

/-- A column whose default is in the default record. -/
lemma defaultValue_literal_iff (hreads : t.Reads env dv) (hmat : t.Materialised ws record0 dv)
    {p : Field × ℕ} (hp : p ∈ t.fields.zipIdx) (hws : ws p.2 = false)
    (hauto : p.1.autoIncrement = false) (hexpr : p.1.defaultExpr = none) :
    (t.column p.1).defaultValue env = encoded env record0 p ↔ t.FillsIn env record0 dv p := by
  have hvalue := hmat p hp hws hauto hexpr
  have hnull := getFieldDefaultForDuckdb_eq_null_iff p.1
  rw [FillsIn, if_neg (by simp [hauto]), hexpr, ColumnDef.defaultValue, column, if_neg (by simp [hauto]),
    FieldConvertor.defaultClause, hexpr, hauto, encoded, hvalue]
  dsimp only
  cases hrecord : p.1.defaultRecord with
  | none =>
      rw [hnull.2 hrecord]
      cases p.1.noDefaultValue <;> cases t.defaultValues <;> simp
  | some bytes =>
      have hliteral := hreads.literal p.1 (List.fst_mem_of_mem_zipIdx hp) bytes hrecord
      have hforward : getFieldDefaultForDuckdb p.1 true ≠ "NULL".toList := by
        rw [Ne, hnull, hrecord]
        simp
      rw [if_neg hforward]
      cases p.1.noDefaultValue <;> cases t.defaultValues <;>
        simp [hliteral, eq_comm (a := some none)]

/-- The default of a column that is not listed, in terms of the field and of its value. -/
lemma defaultValue_eq_encoded_iff (hreads : t.Reads env dv) (hmat : t.Materialised ws record0 dv)
    {p : Field × ℕ} (hp : p ∈ t.fields.zipIdx) (hws : ws p.2 = false) :
    (t.column p.1).defaultValue env = encoded env record0 p ↔ t.FillsIn env record0 dv p := by
  cases hauto : p.1.autoIncrement with
  | true =>
      rw [FillsIn, if_pos hauto, ColumnDef.defaultValue, column, if_pos hauto]
      dsimp only
      rw [hreads.nextval]
  | false =>
      cases hexpr : p.1.defaultExpr with
      | some expr => exact t.defaultValue_expr_iff hreads hauto hexpr
      | none => exact t.defaultValue_literal_iff hreads hmat hp hws hauto hexpr

end

/-- An INT column. -/
def intColumn (name : Name) (notNull priKey noDefaultValue : Bool) (default : Option (List UInt8)) :
    Field :=
  ⟨name, .long, false, false, 0, 0, none, .visible, notNull, priKey, noDefaultValue, false, none,
    default⟩

/-- `CREATE TABLE t (a INT PRIMARY KEY, b INT DEFAULT 5, c INT DEFAULT (1 + 1), d INT)`. -/
def sumTable : AcceptedTable ⟨true, true, fun v w => v != w⟩ where
  name := ⟨['d'], ['t']⟩
  fields := [intColumn ['a'] true true true (some [48]), intColumn ['b'] false false false (some [53]),
    { intColumn ['c'] false false false none with defaultExpr := some "1 + 1".toList },
    intColumn ['d'] false false false none]
  sqlcomCreateTable := true
  hasPk := true
  defaultValues := true
  accepted := rfl
  nodup := by decide

/-- The number in the default record. -/
def recordNumber (bytes : List UInt8) : ℕ := bytes.foldl (fun n b => 10 * n + (b.toNat - 48)) 0

/-- A DuckDB that computes `1 + 1` and reads digits between quotes as a number. -/
def sumEnv : InsertEnv ℕ ℕ where
  encode _ v := some v
  evalDefault _ text :=
    if text = "(1 + 1)".toList then some (some 2)
    else if text.head? = some squote then
      some (some (recordNumber (text.tail.dropLast.map fun c => c.toNat.toUInt8)))
    else none

def sumDefaults : DefaultValues ℕ ℕ where
  literal _ := recordNumber
  expr _ e := if "(".toList ++ e ++ ")".toList = "(1 + 1)".toList then some (some 2) else none
  next _ := none

lemma sumTable_reads : sumTable.Reads sumEnv sumDefaults where
  literal := by decide +kernel
  expr type e := by
    have hhead : ("(".toList ++ e ++ ")".toList).head? = some '(' := rfl
    have hquote : some '(' ≠ some squote := by decide
    simp only [sumEnv, sumDefaults, hhead, if_neg hquote]
  nextval type name := by
    have hhead : (CreateTableConvertor.autoincNextvalExpr name).head? = some 'n' := rfl
    have hexpr : CreateTableConvertor.autoincNextvalExpr name ≠ "(1 + 1)".toList := fun h =>
      absurd (hhead.symm.trans (congrArg List.head? h)) (by decide)
    have hquote : some 'n' ≠ some squote := by decide
    simp only [sumEnv, sumDefaults, if_neg hexpr, hhead, if_neg hquote]

/-- `CREATE TABLE t (a INT DEFAULT 5 PRIMARY KEY, b INT NOT NULL)`. -/
def fiveTable : AcceptedTable ⟨true, true, fun v w => v != w⟩ where
  name := ⟨['d'], ['t']⟩
  fields := [intColumn ['a'] true true false (some [53]), intColumn ['b'] true false true (some [48])]
  sqlcomCreateTable := true
  hasPk := true
  defaultValues := true
  accepted := rfl
  nodup := by decide

/-- The table definition that the handler works with describes the table: the fields are those of
the server, and the defaults are the values that DuckDB fills in. -/
structure Describes (t : AcceptedTable cfg) (env : InsertEnv V V) (d : TableDef V) : Prop where
  encode_eq : ∀ f v, env.encode f v = some v
  length_eq : t.fields.length = d.fields
  nullable_eq : ∀ p ∈ t.fields.zipIdx, d.nullable p.2 = !p.1.notNull
  default_eq : ∀ p ∈ t.fields.zipIdx,
    ((t.column p.1).defaultValue env).bind (t.column p.1).constrain = some (d.columnDefault p.2)

/-- A NOT NULL column admits what is read for its field. -/
lemma constrain_fieldValue (p : Field × ℕ) :
    (t.column p.1).constrain (fieldValue record0 p) = some (fieldValue record0 p) := by
  have hnn : (t.column p.1).notNull = p.1.notNull := rfl
  rw [ColumnDef.constrain, fieldValue, hnn]
  cases p.1.notNull <;> simp

/-- The row of the INSERT is the one that the handler's model of the INSERT stores. -/
theorem Describes.executeInsert_eq {env : InsertEnv V V} {d : TableDef V} (h : t.Describes env d) :
    t.executeInsert env ws record0 =
      if (d.writeFields ws).isEmpty then none else some (d.insertedRow ws record0) := by
  have hrange : t.fields.zipIdx.map Prod.snd = List.range d.fields := by
    rw [List.zipIdx_map_snd, h.length_eq, List.range_eq_range']
  have hempty : (∃ p ∈ t.fields.zipIdx, ws p.2) ↔ (d.writeFields ws).isEmpty = false := by
    rw [TableDef.writeFields, ← hrange, List.isEmpty_eq_false_iff_exists_mem]
    simp only [List.mem_filter, List.mem_map]
    constructor
    · rintro ⟨p, hp, hws⟩
      exact ⟨p.2, ⟨p, hp, rfl⟩, hws⟩
    · rintro ⟨_, ⟨p, hp, rfl⟩, hws⟩
      exact ⟨p, hp, hws⟩
  have hcell : ∀ p ∈ t.fields.zipIdx,
      (if ws p.2 then encoded env record0 p else (t.column p.1).defaultValue env).bind
        (t.column p.1).constrain =
      some (if ws p.2 then d.fieldVal record0 record0 p.2 else d.columnDefault p.2) := by
    intro p hp
    cases ws p.2 with
    | false => exact h.default_eq p hp
    | true =>
        have hval : fieldValue record0 p = d.fieldVal record0 record0 p.2 := by
          rw [fieldValue, TableDef.fieldVal, h.nullable_eq p hp]
        have hencoded : encoded env record0 p = some (fieldValue record0 p) := by
          rw [encoded]
          cases fieldValue record0 p with
          | none => rfl
          | some v => simp [h.encode_eq]
        rw [if_pos rfl, if_pos rfl, hencoded, Option.bind_some, t.constrain_fieldValue, hval]
  cases hw : (d.writeFields ws).isEmpty with
  | true =>
      refine Option.eq_none_iff_forall_ne_some.2 fun row hrow => ?_
      have := hempty.1 ((t.executeInsert_eq_some_iff env ws record0).1 hrow).1
      rw [hw] at this
      cases this
  | false =>
      refine (t.executeInsert_eq_some_iff env ws record0).2 ⟨hempty.2 hw, ?_⟩
      rw [List.map_congr_left hcell, TableDef.insertedRow, ← hrange, List.map_map, List.map_map]
      rfl

end AcceptedTable

end DuckdbEngine
