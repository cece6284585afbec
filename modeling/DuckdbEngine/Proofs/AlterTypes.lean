/-
Column types and nullability under in-place ALTER TABLE.

`is_type_changed` never finds a change, so no statement changes the type of a column.
NOT NULL constraints are changed by the convertor for CHANGE, MODIFY and RENAME COLUMN and by
the one for primary keys.  If the statements succeed, the columns of DuckDB agree with
the altered table exactly if the columns that stay have kept their types and one of
these two convertors sees each change of the nullability.
-/
import DuckdbEngine.Proofs.AlterNames

namespace DuckdbEngine

open KeyedEdits Sql

namespace AlterInplaceInfo

variable {V : Type} {cfg : Settings} {env : AlterEnv V} {rows : ℕ} {a : AlterInplaceInfo}
  {cols cols' : Columns V}

/-- Each column has the type and the nullability of the field with its name. -/
def Agrees (cfg : Settings) (table : List Field) (cols : Columns V) : Prop :=
  ∀ k c, cols.lookup k = some c → ∃ f ∈ table, f.key = k ∧
    c.type = FieldConvertor.convertType cfg f ∧ c.notNull = f.notNull

/-- A convertor that sets the nullability of the column sees the definition `e` with the new
field `f`. -/
def SeesNullability (a : AlterInplaceInfo) (e : CreateField) (f : Field) : Prop :=
  (a.changeColumn || a.columnName) ∧ e.change.isSome ∨ a.addIndex ∧ f.priKey ∧ f.notNull

/-- The columns that stay keep their types, changes of their nullability are seen, and
`drop_list`, unless it is empty, has an entry for every dropped column. -/
structure KeepsTypes (cfg : Settings) (a : AlterInplaceInfo) : Prop where
  type : ∀ e ∈ a.createList, ∀ f ∈ e.field, ∀ f' ∈ findField e a.newTable,
    FieldConvertor.convertType cfg f' = FieldConvertor.convertType cfg f
  nullability : ∀ e ∈ a.createList, ∀ f ∈ e.field, ∀ f' ∈ findField e a.newTable,
    f'.notNull ≠ f.notNull → a.SeesNullability e f'
  listed : a.dropList ≠ [] → ∀ f, a.Dropped f → a.Listed f.key

/-! ### The nullability that the changes bring about -/

lemma mem_changedColumns_iff {e : CreateField} (he : e ∈ a.createList) {f f' : Field}
    (hf : e.field = some f) (hf' : findField e a.newTable = some f') :
    (e, f, f') ∈ a.changedColumns ↔ e.change.isSome := by
  constructor
  · exact fun h => (mem_changedColumns h).2.1
  · intro h
    refine List.mem_filterMap.2 ⟨e, he, ?_⟩
    rw [if_neg (by simpa [Option.isSome_iff_ne_none] using h), hf, hf']

lemma nullability_changeDefault {e : CreateField} {old new : Field} {c : ColumnChange}
    (h : changeDefault e old new = some c) : c.nullability = none := by
  simp only [changeDefault] at h
  split_ifs at h <;> cases h <;> rfl

lemma nullability_defaultChange {old new : Field} {c : ColumnChange}
    (h : defaultChange cfg old new = some c) : c.nullability = none := by
  simp only [defaultChange] at h
  repeat' split at h
  all_goals cases h <;> rfl

section

variable {x : Name × ColumnChange} (hx : x.2.nullability ≠ none)

include hx

lemma notMem_changedDefaults : x ∉ a.changedDefaults cfg := by
  intro h
  obtain ⟨new, -, h⟩ := List.mem_filterMap.1 h
  obtain ⟨old, -, h⟩ := Option.bind_eq_some_iff.1 h
  obtain ⟨c, hc, rfl⟩ := Option.map_eq_some_iff.1 h
  exact hx (nullability_defaultChange hc)

lemma mem_addChanges_iff : x ∈ a.addChanges ↔
    ∃ p ∈ a.columnsToAdd, p.1.notNull ∧ x = (p.1.fieldName, .setNotNull) := by
  constructor
  · intro h
    obtain ⟨p, hp, hname, hnn, hch | hch⟩ := mem_addChanges h
    · exact ⟨p, hp, hnn, Prod.ext hname hch⟩
    · exact absurd (congrArg ColumnChange.nullability hch) hx
  · rintro ⟨p, hp, hnn, rfl⟩
    exact List.mem_append_left _ (List.mem_map.2 ⟨p, List.mem_filter.2 ⟨hp, hnn⟩, rfl⟩)

lemma mem_columnChanges_iff : x ∈ a.columnChanges ↔
    ∃ p ∈ a.changedColumns, isNullableChange p.1 p.2.1 ∧
      x = (p.1.fieldName, if p.1.notNull then .setNotNull else .dropNotNull) := by
  have hdefault : x ∉ a.changedColumns.filterMap (fun p =>
      (changeDefault p.1 p.2.1 p.2.2).map fun c => (p.1.fieldName, c)) := by
    intro h
    obtain ⟨p, -, h⟩ := List.mem_filterMap.1 h
    obtain ⟨c, hc, rfl⟩ := Option.map_eq_some_iff.1 h
    exact hx (nullability_changeDefault hc)
  simp only [columnChanges, List.mem_append, hdefault, false_or, List.mem_map, List.mem_filter]
  constructor
  · rintro (⟨p, ⟨⟨hp, hnull⟩, hnn⟩, rfl⟩ | ⟨p, ⟨⟨hp, hnull⟩, hnn⟩, rfl⟩)
    · exact ⟨p, hp, hnull, by rw [if_neg (by simpa using hnn)]⟩
    · exact ⟨p, hp, hnull, by rw [if_pos hnn]⟩
  · rintro ⟨p, hp, hnull, rfl⟩
    cases hnn : p.1.notNull with
    | false => exact Or.inl ⟨p, ⟨⟨hp, hnull⟩, by simpa using hnn⟩, rfl⟩
    | true => exact Or.inr ⟨p, ⟨⟨hp, hnull⟩, hnn⟩, rfl⟩

/-- The changes that concern the nullability: those of added NOT NULL columns, of changed columns
and of primary keys. -/
lemma mem_changes_iff : x ∈ a.addChanges ++ a.finalChanges cfg ↔
    (∃ p ∈ a.columnsToAdd, p.1.notNull ∧ x = (p.1.fieldName, .setNotNull)) ∨
    ((a.changeColumn || a.columnName) ∧ ∃ p ∈ a.changedColumns, isNullableChange p.1 p.2.1 ∧
      x = (p.1.fieldName, if p.1.notNull then .setNotNull else .dropNotNull)) ∨
    (a.addIndex ∧ ∃ f ∈ a.newTable, f.priKey ∧ f.notNull ∧ x = (f.fieldName, .setNotNull)) := by
  have hdefault : x ∉ a.changedDefaults cfg := notMem_changedDefaults hx
  have hcolumn := mem_columnChanges_iff (a := a) hx
  have hpk : x ∈ (a.newTable.filter fun f => f.priKey && f.notNull).map
      (fun f => (f.fieldName, ColumnChange.setNotNull)) ↔
      ∃ f ∈ a.newTable, f.priKey ∧ f.notNull ∧ x = (f.fieldName, .setNotNull) := by
    simp only [List.mem_map, List.mem_filter, Bool.and_eq_true, and_assoc, eq_comm (b := x)]
  rw [List.mem_append, mem_addChanges_iff hx, finalChanges, List.mem_append, List.mem_append]
  refine or_congr_right (or_congr (or_iff_left ?_ |>.trans ?_) ?_)
  · split
    · rw [List.mem_append, List.mem_filter, List.mem_filter]
      tauto
    · simp
  · split <;> simp_all
  · split <;> simp_all

end

/-- The field of the altered table has the nullability of its definition. -/
lemma notNull_of_findField {e : CreateField} (he : e ∈ a.createList) {f : Field}
    (hf : findField e a.newTable = some f) : f.notNull = e.notNull := by
  obtain ⟨f', hf', hnull⟩ := findField_spec he
  cases hf.symm.trans hf'
  exact hnull

/-- Every change of the nullability brings about that of the new definition. -/
lemma nullability_of_mem {e : CreateField} (he : e ∈ a.createList) {x : Name × ColumnChange}
    (hx : x ∈ a.addChanges ++ a.finalChanges cfg) (hkey : foldCase x.1 = e.key) {b : Bool}
    (hb : x.2.nullability = some b) : b = e.notNull := by
  rcases (mem_changes_iff (by simp [hb])).1 hx with
    ⟨p, hp, hnn, rfl⟩ | ⟨-, p, hp, -, rfl⟩ | ⟨-, f, hf, -, hnn, rfl⟩
  · cases eq_of_newKey (mem_columnsToAdd.1 hp).1 he hkey
    cases hb
    exact hnn.symm
  · cases eq_of_newKey (mem_changedColumns hp).1 he hkey
    cases hnn : p.1.notNull <;> rw [hnn] at hb <;> cases hb <;> rfl
  · cases hb
    exact hnn.symm.trans (notNull_of_findField he (findField_eq_some.2 ⟨hf, hkey⟩))

/-- The nullability of a column that was there before is set if it changes and the change is seen,
and for a primary key. -/
lemma setsNullability_iff {e : CreateField} (he : e ∈ a.createList) {f f' : Field}
    (hf : e.field = some f) (hf' : findField e a.newTable = some f') :
    setsNullability e.key (a.addChanges ++ a.finalChanges cfg) = true ↔
      ((a.changeColumn || a.columnName) ∧ e.change.isSome ∧ f'.notNull ≠ f.notNull) ∨
      (a.addIndex ∧ f'.priKey ∧ f'.notNull) := by
  have hnull := notNull_of_findField he hf'
  have hne : isNullableChange e f = true ↔ f'.notNull ≠ f.notNull := by
    rw [isNullableChange, bne_iff_ne, hnull, ne_comm]
  simp only [setsNullability, List.any_eq_true, Bool.and_eq_true, decide_eq_true_eq]
  constructor
  · rintro ⟨x, hx, hkey, hsome⟩
    rcases (mem_changes_iff (Option.isSome_iff_ne_none.1 hsome)).1 hx with
      ⟨p, hp, -, rfl⟩ | ⟨hon, p, hp, hchange, rfl⟩ | ⟨hon, f₁, hf₁, hpk, hnn, rfl⟩
    · obtain ⟨hpe, hnone, -⟩ := mem_columnsToAdd.1 hp
      cases eq_of_newKey hpe he hkey
      cases hnone.symm.trans hf
    · obtain ⟨hpe, hchanged, hpf, -⟩ := mem_changedColumns hp
      cases eq_of_newKey hpe he hkey
      cases hpf.symm.trans hf
      exact Or.inl ⟨hon, hchanged, hne.1 hchange⟩
    · cases hf'.symm.trans (findField_eq_some.2 ⟨hf₁, hkey⟩)
      exact Or.inr ⟨hon, hpk, hnn⟩
  · rintro (⟨hon, hchanged, hdiff⟩ | ⟨hon, hpk, hnn⟩)
    · refine ⟨(e.fieldName, if e.notNull then .setNotNull else .dropNotNull), ?_, rfl, ?_⟩
      · refine (mem_changes_iff ?_).2 (Or.inr (Or.inl ⟨hon, (e, f, f'),
          (mem_changedColumns_iff he hf hf').2 hchanged, hne.2 hdiff, rfl⟩))
        cases e.notNull <;> simp [ColumnChange.nullability]
      · cases e.notNull <;> rfl
    · obtain ⟨hmem, hkey⟩ := findField_eq_some.1 hf'
      exact ⟨(f'.fieldName, .setNotNull), (mem_changes_iff (by simp [ColumnChange.nullability])).2
        (Or.inr (Or.inr ⟨hon, f', hmem, hpk, hnn, rfl⟩)), hkey, rfl⟩

/-! ### Agreement -/

section

variable (hcols : ∀ k, k ∈ cols ↔ k ∈ a.oldTable.map Field.key)
  (hagrees : Agrees cfg a.oldTable cols)
  (h : execAll env rows cols (a.statements cfg) = some cols')

include hcols h

/-- An added column agrees with its field. -/
lemma agrees_added {e : CreateField} (he : e ∈ a.createList) (hf : e.field = none) {f' : Field}
    (hf' : findField e a.newTable = some f') {c : Column V} (hc : cols'.lookup e.key = some c) :
    c.type = FieldConvertor.convertType cfg f' ∧ c.notNull = f'.notNull := by
  obtain ⟨c₀, hc₀, hc'⟩ := exists_lookup_of_execAll hcols h he
  cases hc.symm.trans hc'
  rw [origin_of_none hf, addedColumn, hf'] at hc₀
  obtain ⟨htype, hnn₀⟩ := newColumn_eq_some hc₀
  have hnull := notNull_of_findField he hf'
  refine ⟨Column.type_alter.trans htype, ?_⟩
  rw [Column.notNull_alter fun x hx hkey b hb => nullability_of_mem he hx hkey hb, hnull, hnn₀]
  cases hnn : e.notNull with
  | false => simp
  | true =>
      refine if_pos (List.any_eq_true.2 ⟨(e.fieldName, .setNotNull), ?_, by simp [CreateField.key,
        ColumnChange.nullability]⟩)
      exact (mem_changes_iff (by simp [ColumnChange.nullability])).2
        (Or.inl ⟨(e, f'), mem_columnsToAdd.2 ⟨he, hf, hf'⟩, hnn, rfl⟩)

include hagrees

/-- A column that was there before keeps its type; it has the nullability of its new field if that
has not changed or the change is seen. -/
lemma agrees_kept_iff {e : CreateField} (he : e ∈ a.createList) {f f' : Field}
    (hf : e.field = some f) (hf' : findField e a.newTable = some f') {c : Column V}
    (hc : cols'.lookup e.key = some c) :
    (c.type = FieldConvertor.convertType cfg f' ∧ c.notNull = f'.notNull) ↔
      FieldConvertor.convertType cfg f' = FieldConvertor.convertType cfg f ∧
        (f'.notNull ≠ f.notNull → a.SeesNullability e f') := by
  obtain ⟨c₀, hc₀, hc'⟩ := exists_lookup_of_execAll hcols h he
  cases hc.symm.trans hc'
  rw [origin_of_field hf] at hc₀
  obtain ⟨f₀, hf₀, hkey, htype, hnotNull⟩ := hagrees _ _ hc₀
  cases eq_of_key hf₀ (a.field_mem e he f hf) hkey
  have hnull := notNull_of_findField he hf'
  rw [Column.type_alter, htype, eq_comm,
    Column.notNull_alter fun x hx hkey b hb => nullability_of_mem he hx hkey hb, hnotNull, ← hnull]
  refine and_congr_right fun _ => ?_
  rw [ite_eq_left_iff, setsNullability_iff he hf hf', SeesNullability, eq_comm (a := f.notNull)]
  tauto

/-- If the statements succeed, the columns agree with the altered table exactly if types are kept and
changes of the nullability are seen. -/
lemma agrees_iff_keepsTypes : Agrees cfg a.newTable cols' ↔ a.KeepsTypes cfg := by
  have hfind : ∀ {e : CreateField} {f' f : Field}, findField e a.newTable = some f' →
      f ∈ a.newTable → f.key = e.key → f = f' := fun hf' hf hkey =>
    Option.some.inj ((findField_eq_some.2 ⟨hf, hkey⟩).symm.trans hf')
  constructor
  · intro hall
    have hkept : ∀ e ∈ a.createList, ∀ f ∈ e.field, ∀ f' ∈ findField e a.newTable,
        FieldConvertor.convertType cfg f' = FieldConvertor.convertType cfg f ∧
          (f'.notNull ≠ f.notNull → a.SeesNullability e f') := by
      intro e he f hf f' hf'
      obtain ⟨c, -, hc⟩ := exists_lookup_of_execAll hcols h he
      obtain ⟨f₁, hf₁, hkey, hagree⟩ := hall _ _ hc
      cases hfind hf' hf₁ hkey
      exact (agrees_kept_iff hcols hagrees h he hf hf' hc).1 hagree
    refine ⟨fun e he f hf f' hf' => (hkept e he f hf f' hf').1,
      fun e he f hf f' hf' => (hkept e he f hf f' hf').2, (names_iff_listed hcols h).1 fun k => ?_⟩
    rw [key_newTable]
    constructor
    · intro hk
      obtain ⟨c, hc⟩ := Option.isSome_iff_exists.1 (AList.lookup_isSome.2 hk)
      obtain ⟨f, hf, rfl, -⟩ := hall k c hc
      exact mem_createKeys hf
    · intro hk
      obtain ⟨e, he, rfl⟩ := List.mem_map.1 hk
      obtain ⟨c, -, hc⟩ := exists_lookup_of_execAll hcols h he
      exact AList.lookup_isSome.1 (Option.isSome_of_eq_some hc)
  · intro hkeeps k c hc
    have hk := ((names_iff_listed hcols h).2 hkeeps.listed k).1
      (AList.lookup_isSome.1 (Option.isSome_of_eq_some hc))
    obtain ⟨f', hf', rfl⟩ := List.mem_map.1 hk
    obtain ⟨e, he, hfe⟩ := exists_createField hf'
    have hkey := (findField_eq_some.1 hfe).2
    rw [hkey] at hc
    refine ⟨f', hf', rfl, ?_⟩
    cases hf : e.field with
    | none => exact agrees_added hcols h he hf hfe hc
    | some f =>
        exact (agrees_kept_iff hcols hagrees h he hf hfe hc).2
          ⟨hkeeps.type e he f hf f' hfe, hkeeps.nullability e he f hf f' hfe⟩

end

/-- An ALTER TABLE that completes without an error has executed all its statements. -/
lemma execAll_of_commit
    (h : a.commitInplaceAlterTable cfg env rows true cols = (false, cols')) :
    execAll env rows cols (a.statements cfg) = some cols' := by
  rw [commitInplaceAlterTable, if_neg (by simp)] at h
  split at h
  · cases h
  split at h
  · cases h
  split at h
  · -- Without a statement nothing is executed and nothing changes.
    have hnil : a.statements cfg = [] := List.isEmpty_iff.1 ‹_›
    rw [hnil]
    exact congrArg some (Prod.mk.inj h).2
  split at h
  · cases h
  split at h
  · cases h
  · split at h <;> cases h
    assumption

/-- After an in-place ALTER TABLE that is supported and completes without an error, the columns
of DuckDB have the types and the nullability of the altered table exactly if every column that
stays has kept its type, and every change of nullability comes with CHANGE, MODIFY or RENAME COLUMN
or an added primary key. -/
theorem inplace_alter_agrees_iff (cfg : Settings) (env : AlterEnv V) (rows : ℕ)
    (a : AlterInplaceInfo) (cols cols' : Columns V)
    (hcols : ∀ k, k ∈ cols ↔ k ∈ a.oldTable.map Field.key)
    (hagrees : Agrees cfg a.oldTable cols)
    (_hsupported : a.checkIfSupportedInplaceAlter cfg = .noLock)
    (hcommit : a.commitInplaceAlterTable cfg env rows true cols = (false, cols')) :
    Agrees cfg a.newTable cols' ↔ a.KeepsTypes cfg :=
  agrees_iff_keepsTypes hcols hagrees (execAll_of_commit hcommit)

/-! ### MODIFY COLUMN -/

/-- The default settings of the server. -/
def defaultSettings : Settings := ⟨true, true, fun v w => v != w⟩

/-- An INT column that is the primary key. -/
def intKey (name : Name) : Field :=
  { intField name with notNull := true, priKey := true, noDefaultValue := true }

/-- A VARCHAR column with the default collation that is the primary key. -/
def varcharKey (name : Name) : Field :=
  { intKey name with
    realType := .varchar
    charset := some ⟨.utf8mb4, false, false, false, false⟩ }

/-- `ALTER TABLE ... MODIFY COLUMN` for the only column of a table, given its old and its new
field. -/
def modifyOne (old new : Field) (hname : new.fieldName = old.fieldName) : AlterInplaceInfo where
  oldTable := [old]
  newTable := [new]
  createList := [⟨new.fieldName, some old, some old.fieldName, new.notNull, new.noDefaultValue, false⟩]
  dropList := []
  changeColumn := true
  changeColumnDefault := false
  addIndex := false
  columnOrder := false
  errorIfNotEmpty := false
  databaseChanged := false
  hasPrimaryKey := old.priKey
  old_nodup := List.nodup_singleton _
  new_nodup := List.nodup_singleton _
  created := .cons ⟨rfl, rfl⟩ .nil
  createList_ne := List.cons_ne_nil _ _
  field_mem := by simp
  field_inj := by simp
  change_field := by simp [Field.key]
  renamed_change := by simp [CreateField.key, Field.key, hname]
  drop_mem := by simp
  drop_nodup := List.nodup_nil

/-- The columns of a table, entry by entry. -/
lemma agrees_of_entries {cfg : Settings} {table : List Field} {cols : Columns V}
    (h : ∀ x ∈ cols.entries, ∃ f ∈ table, f.key = x.1 ∧
      x.2.type = FieldConvertor.convertType cfg f ∧ x.2.notNull = f.notNull) :
    Agrees cfg table cols := fun k c hc => h ⟨k, c⟩ (AList.mem_lookup_iff.1 hc)

/-- A table with one INT column. -/
def oneInt (k : Name) (notNull : Bool) : Columns ℕ where
  entries := [⟨k, "INTEGER".toList, notNull, none, [some 1]⟩]
  nodupKeys := List.nodup_singleton k

/-- A table with one row and the INT columns `id`, `a` and `d`. -/
def threeInts : Columns ℕ where
  entries := [⟨['i', 'd'], "INTEGER".toList, true, none, [some 1]⟩,
    ⟨['a'], "INTEGER".toList, false, none, [some 2]⟩, ⟨['d'], "INTEGER".toList, false, none, [none]⟩]
  nodupKeys := (by decide : [['i', 'd'], ['a'], ['d']].Nodup)

/-- `ALTER TABLE ... MODIFY COLUMN a INT NOT NULL, DROP COLUMN d, ADD COLUMN c INT` for a table with
the INT columns `id`, which is its key, `a` and `d`. -/
def modifyDropAdd : AlterInplaceInfo where
  oldTable := [intKey ['i', 'd'], intField ['a'], intField ['d']]
  newTable := [intKey ['i', 'd'], { intField ['a'] with notNull := true }, intField ['c']]
  createList :=
    [⟨['i', 'd'], some (intKey ['i', 'd']), none, true, true, false⟩,
      ⟨['a'], some (intField ['a']), some ['a'], true, false, false⟩,
      ⟨['c'], none, none, false, false, false⟩]
  dropList := [⟨true, ['d']⟩]
  changeColumn := true
  changeColumnDefault := false
  addIndex := false
  columnOrder := false
  errorIfNotEmpty := false
  databaseChanged := false
  hasPrimaryKey := true
  old_nodup := by decide
  new_nodup := by decide
  created := .cons ⟨rfl, rfl⟩ (.cons ⟨rfl, rfl⟩ (.cons ⟨rfl, rfl⟩ .nil))
  createList_ne := List.cons_ne_nil _ _
  field_mem := by decide
  field_inj := by
    have hne : intField ['a'] ≠ intKey ['i', 'd'] := by decide
    simp [hne, hne.symm]
  change_field := by decide
  renamed_change := by decide
  drop_mem := by decide
  drop_nodup := by decide

/-- The column `a` of DuckDB becomes NOT NULL, and the dropped and the added one follow. -/
theorem inplace_alter_agrees_of_modify_drop_add :
    ∃ cols', modifyDropAdd.commitInplaceAlterTable defaultSettings lenientEnv 1 true threeInts =
        (false, cols') ∧
      Agrees defaultSettings modifyDropAdd.newTable cols' ∧
      (cols'.lookup ['a']).any Column.notNull ∧ (cols'.lookup ['c']).isSome ∧
      (cols'.lookup ['d']).isNone := by
  have hcommit : modifyDropAdd.commitInplaceAlterTable defaultSettings lenientEnv 1 true threeInts =
      (false, _) := Prod.ext (by decide +kernel) rfl
  have hagrees : Agrees defaultSettings modifyDropAdd.oldTable threeInts :=
    agrees_of_entries (by decide +kernel)
  have hkeeps : modifyDropAdd.KeepsTypes defaultSettings := by
    refine ⟨by decide +kernel, by unfold SeesNullability; decide +kernel, fun _ f hf => ?_⟩
    -- only `d` is dropped
    obtain ⟨hold, hnone⟩ := hf
    simp only [modifyDropAdd, List.mem_cons, List.not_mem_nil, or_false] at hold
    rcases hold with rfl | rfl | rfl
    · exact absurd rfl (hnone _ List.mem_cons_self)
    · exact absurd rfl (hnone _ (List.mem_cons_of_mem _ List.mem_cons_self))
    · exact ⟨⟨true, ['d']⟩, List.mem_cons_self, rfl, rfl⟩
  exact ⟨_, hcommit, (inplace_alter_agrees_iff _ _ _ _ _ _ (fun _ => Iff.rfl) hagrees (by decide)
    hcommit).2 hkeeps, by decide +kernel, by decide +kernel, by decide +kernel⟩

/-- `MODIFY COLUMN a VARCHAR(10)` for `a INT PRIMARY KEY` leaves the column of DuckDB an
INTEGER. -/
theorem modified_type_is_not_forwarded :
    Agrees defaultSettings (modifyOne (intKey ['a']) (varcharKey ['a']) rfl).oldTable
      (oneInt ['a'] true) ∧
    (modifyOne (intKey ['a']) (varcharKey ['a']) rfl).checkIfSupportedInplaceAlter defaultSettings =
      .noLock ∧
    ∃ cols', (modifyOne (intKey ['a']) (varcharKey ['a']) rfl).commitInplaceAlterTable
        defaultSettings lenientEnv 1 true (oneInt ['a'] true) = (false, cols') ∧
      ¬ Agrees defaultSettings (modifyOne (intKey ['a']) (varcharKey ['a']) rfl).newTable cols' := by
  have hagrees : Agrees defaultSettings [intKey ['a']] (oneInt ['a'] true) :=
    agrees_of_entries (by decide +kernel)
  have hcommit : (modifyOne (intKey ['a']) (varcharKey ['a']) rfl).commitInplaceAlterTable
      defaultSettings lenientEnv 1 true (oneInt ['a'] true) = (false, _) :=
    Prod.ext (by decide +kernel) rfl
  refine ⟨hagrees, by decide, _, hcommit, fun h => ?_⟩
  have hkeeps := (agrees_iff_keepsTypes (fun _ => Iff.rfl) hagrees (execAll_of_commit hcommit)).1 h
  have htype := hkeeps.type _ (List.mem_singleton_self _) (intKey ['a']) rfl (varcharKey ['a']) rfl
  revert htype
  decide +kernel

end AlterInplaceInfo

end DuckdbEngine
