/-
The run of the statements of an in-place ALTER TABLE.

The statements come in five blocks: columns are added, the added columns get their
constraints, columns are dropped, columns are renamed, and columns are changed where
they stand.  Each block succeeds or fails as a whole in a way that can be read off the
table it starts from.  Put together, the blocks say when the statements succeed, in
terms of the description of the ALTER TABLE alone (`Runs`), and which columns there are
afterwards.
-/
import DuckdbEngine.Convertor.Alter

namespace DuckdbEngine.AlterInplaceInfo

open KeyedEdits Sql

variable {V : Type} (cfg : Settings) (env : AlterEnv V) (rows : ℕ) (a : AlterInplaceInfo)

/-! ### The two tables -/

lemma key_newTable : a.newTable.map Field.key = a.createList.map CreateField.key := by
  have h : List.Forall₂ (fun e f => e.key = f.key) a.createList a.newTable :=
    a.created.imp fun e f h => by rw [Field.key, h.1, CreateField.key]
  symm
  rw [← List.forall₂_eq_eq_eq, List.forall₂_map_left_iff, List.forall₂_map_right_iff]
  exact h

variable {a}

lemma eq_of_key {f f' : Field} (hf : f ∈ a.oldTable) (hf' : f' ∈ a.oldTable)
    (h : f.key = f'.key) : f = f' :=
  List.inj_on_of_nodup_map a.old_nodup hf hf' h

lemma eq_of_newKey {e e' : CreateField} (he : e ∈ a.createList) (he' : e' ∈ a.createList)
    (h : e.key = e'.key) : e = e' :=
  List.inj_on_of_nodup_map a.new_nodup he he' h

lemma mem_createKeys {f : Field} (hf : f ∈ a.newTable) : f.key ∈ a.createList.map CreateField.key :=
  a.key_newTable ▸ List.mem_map_of_mem hf

lemma findField_eq_some {e : CreateField} {f : Field} :
    findField e a.newTable = some f ↔ f ∈ a.newTable ∧ f.key = e.key :=
  KeyedList.find_eq_some (l := ⟨a.newTable, a.key_newTable ▸ a.new_nodup⟩)

/-- Every definition has its field in the new table. -/
lemma findField_spec {e : CreateField} (he : e ∈ a.createList) :
    ∃ f, findField e a.newTable = some f ∧ f.notNull = e.notNull := by
  obtain ⟨i, hi, rfl⟩ := List.getElem_of_mem he
  obtain ⟨hlen, hget⟩ := List.forall₂_iff_get.1 a.created
  obtain ⟨hname, hnull⟩ := hget i hi (hlen ▸ hi)
  exact ⟨_, findField_eq_some.2 ⟨List.get_mem .., congrArg foldCase hname⟩, hnull⟩

lemma exists_createField {f : Field} (hf : f ∈ a.newTable) :
    ∃ e ∈ a.createList, findField e a.newTable = some f := by
  obtain ⟨e, he, hef⟩ := List.mem_map.1 (mem_createKeys hf)
  exact ⟨e, he, findField_eq_some.2 ⟨hf, hef.symm⟩⟩

/-! ### The blocks of statements -/

variable (a)

/-- The changes of added columns. -/
def addChanges : List (Name × ColumnChange) :=
  (a.columnsToAdd.filter fun p => p.1.notNull).map (fun p => (p.1.fieldName, .setNotNull)) ++
  ((a.columnsToAdd.filter fun p => p.1.notNull).filter fun p => p.2.noDefaultValue).map
    (fun p => (p.1.fieldName, .dropDefault))

/-- The names of the columns that the statements drop. -/
def dropNames : List Name := if a.dropColumn then a.columnsToDrop.map Field.fieldName else []

/-- The old and the new names of the renamed columns. -/
def renames : List (Name × Name) :=
  a.createList.filterMap fun e => e.field.bind fun f =>
    if e.key = f.key then none else some (f.fieldName, e.fieldName)

/-- The changes that CHANGE, MODIFY and RENAME COLUMN make apart from the name. -/
def columnChanges : List (Name × ColumnChange) :=
  let nullable := a.changedColumns.filter fun p => isNullableChange p.1 p.2.1
  a.changedColumns.filterMap (fun p =>
    (changeDefault p.1 p.2.1 p.2.2).map fun c => (p.1.fieldName, c)) ++
  (nullable.filter fun p => !p.1.notNull).map (fun p => (p.1.fieldName, .dropNotNull)) ++
  (nullable.filter fun p => p.1.notNull).map (fun p => (p.1.fieldName, .setNotNull))

/-- The changes of the columns under their new names. -/
def finalChanges : List (Name × ColumnChange) :=
  (if a.changeColumn || a.columnName then a.columnChanges else []) ++
  (if a.changeColumnDefault then
    ((a.changedDefaults cfg).filter fun x => x.2 = .dropDefault) ++
    ((a.changedDefaults cfg).filter fun x => x.2 ≠ .dropDefault) else []) ++
  (if a.addIndex then (a.newTable.filter fun f => f.priKey && f.notNull).map
    fun f => (f.fieldName, .setNotNull) else [])

lemma columnsToAdd_eq_nil (h : a.addColumn = false) : a.columnsToAdd = [] := by
  refine List.filterMap_eq_nil_iff.2 fun e he => if_pos ?_
  have := List.any_eq_false.1 h e he
  rwa [Bool.not_eq_true, Option.isNone_eq_false_iff] at this

/-- The renamings that the convertor derives from the spelling in the statement. -/
lemma renames_eq : (a.changedColumns.filter fun p => isNameChanged p.1).map
    (fun p => (p.2.1.fieldName, p.1.fieldName)) = a.renames := by
  rw [changedColumns, List.filter_filterMap, List.map_filterMap]
  refine List.filterMap_congr fun e he => ?_
  obtain ⟨new, hnew, -⟩ := findField_spec he
  cases hc : e.change with
  | none =>
      -- A column that is not changed keeps its name.
      cases hf : e.field with
      | none => rfl
      | some f =>
          have hkey : e.key = f.key := by
            by_contra hne
            have := a.renamed_change e he f hf hne
            rw [hc] at this
            cases this
          simp [hkey]
  | some c =>
      obtain ⟨f, hf, hcf⟩ := a.change_field e he c hc
      have hname : isNameChanged e = true ↔ e.key ≠ f.key := by
        simp [isNameChanged, hc, sameName, hcf, CreateField.key]
      rw [hf, hnew]
      by_cases hkey : e.key = f.key <;> simp [hname, hkey, Option.filter]

lemma renames_eq_nil (h : (a.changeColumn || a.columnName) = false) : a.renames = [] := by
  refine List.filterMap_eq_nil_iff.2 fun e he => ?_
  have hname := List.any_eq_false.1 (Bool.or_eq_false_iff.1 h).2 e he
  cases hf : e.field with
  | none => rfl
  | some f =>
      rw [hf] at hname
      have : f.key = e.key := by simpa [sameName, Field.key, CreateField.key] using hname
      exact if_pos this.symm

/-- The statements, block by block. -/
lemma statements_eq : a.statements cfg =
    a.columnsToAdd.map (fun p => .columnAdd p.1.fieldName (FieldConvertor.convertType cfg p.2)
      (addDefault p.1 p.2)) ++
    (a.addChanges.map (fun x => .columnAlter x.1 x.2) ++
    (a.dropNames.map .columnDrop ++
    (a.renames.map (fun p => .columnRename p.1 p.2) ++
    (a.finalChanges cfg).map (fun x => .columnAlter x.1 x.2)))) := by
  have hadd : (if a.addColumn then [a.addColumnConvertor cfg] else []).flatMap
      AlterTableConvertor.translate =
      a.columnsToAdd.map (fun p => .columnAdd p.1.fieldName (FieldConvertor.convertType cfg p.2)
        (addDefault p.1 p.2)) ++ a.addChanges.map (fun x => .columnAlter x.1 x.2) := by
    cases h : a.addColumn with
    | false => simp [addChanges, a.columnsToAdd_eq_nil h]
    | true => simp [addChanges, addColumnConvertor, Function.comp_def]
  have hdrop : (if a.dropColumn then [a.dropColumnConvertor cfg] else []).flatMap
      AlterTableConvertor.translate = a.dropNames.map .columnDrop := by
    cases h : a.dropColumn <;> simp [dropNames, h, dropColumnConvertor, Function.comp_def]
  have hchange : (if a.changeColumn || a.columnName then [a.changeColumnConvertor cfg] else []).flatMap
      AlterTableConvertor.translate = a.renames.map (fun p => .columnRename p.1 p.2) ++
        (if a.changeColumn || a.columnName then a.columnChanges else []).map
          (fun x => .columnAlter x.1 x.2) := by
    cases h : a.changeColumn || a.columnName with
    | false => simp [a.renames_eq_nil h]
    | true =>
        rw [← a.renames_eq]
        simp [changeColumnConvertor, columnChanges, isTypeChanged, Function.comp_def,
          List.map_filterMap, Option.map_map]
  rw [statements, convertors, List.flatMap_append, List.flatMap_append, List.flatMap_append,
    List.flatMap_append, hadd, hdrop, hchange, finalChanges]
  cases a.changeColumnDefault <;> cases a.addIndex <;>
    simp [changeColumnDefaultConvertor, changeColumnForPrimaryKeyConvertor, Function.comp_def]

/-! ### The columns in each block -/

variable {a}

lemma mem_columnsToAdd {p : CreateField × Field} :
    p ∈ a.columnsToAdd ↔
      p.1 ∈ a.createList ∧ p.1.field = none ∧ findField p.1 a.newTable = some p.2 := by
  rw [columnsToAdd, List.mem_filterMap]
  constructor
  · rintro ⟨e, he, h⟩
    split at h
    · cases h
    · obtain ⟨f, hf, rfl⟩ := Option.map_eq_some_iff.1 h
      exact ⟨he, Option.not_isSome_iff_eq_none.1 ‹_›, hf⟩
  · rintro ⟨he, hnone, hf⟩
    exact ⟨p.1, he, by rw [if_neg (by simp [hnone]), hf]; rfl⟩

lemma nodup_columnsToAdd : (a.columnsToAdd.map fun p => p.1.key).Nodup := by
  refine List.pairwise_map.2 (List.Pairwise.filterMap _ ?_ (List.pairwise_map.1 a.new_nodup))
  intro e e' hne p hp p' hp'
  have hfst : ∀ {d : CreateField} {q : CreateField × Field},
      (if d.field.isSome then none else (findField d a.newTable).map fun f => (d, f)) = some q →
      q.1 = d := by
    intro d q h
    split at h
    · cases h
    · obtain ⟨f, -, rfl⟩ := Option.map_eq_some_iff.1 h
      rfl
  rw [hfst hp, hfst hp']
  exact hne

/-- The changes of added columns are those of NOT NULL columns. -/
lemma mem_addChanges {x : Name × ColumnChange} (hx : x ∈ a.addChanges) :
    ∃ p ∈ a.columnsToAdd, x.1 = p.1.fieldName ∧ p.1.notNull ∧ (x.2 = .setNotNull ∨ x.2 = .dropDefault) := by
  rw [addChanges, List.mem_append, List.mem_map, List.mem_map] at hx
  rcases hx with ⟨p, hp, rfl⟩ | ⟨p, hp, rfl⟩
  · obtain ⟨hp, hnn⟩ := List.mem_filter.1 hp
    exact ⟨p, hp, rfl, hnn, Or.inl rfl⟩
  · obtain ⟨hp, hnn⟩ := List.mem_filter.1 (List.mem_filter.1 hp).1
    exact ⟨p, hp, rfl, hnn, Or.inr rfl⟩

variable (a) in
/-- `drop_list` has an entry for the column. -/
def Listed (k : Name) : Prop := ∃ d ∈ a.dropList, d.isColumn ∧ d.key = k

lemma mem_columnsToDrop {f : Field} : f ∈ a.columnsToDrop ↔ f ∈ a.oldTable ∧
    (a.dropList = [] → f.fieldName ∉ a.renamedOldNames ∧ f.key ∉ a.createList.map CreateField.key) ∧
    (a.dropList ≠ [] → a.Listed f.key) := by
  have hnew : (a.newTable.any fun f' => sameName f'.fieldName f.fieldName) = true ↔
      f.key ∈ a.createList.map CreateField.key := by
    rw [← a.key_newTable, List.mem_map, List.any_eq_true]
    simp only [sameName, decide_eq_true_eq, Field.key]
  rw [columnsToDrop]
  by_cases h : a.dropList = []
  · rw [if_pos (by simp [h]), List.mem_filter]
    simp [h, ← hnew]
  · rw [if_neg (by simpa using h), List.mem_filterMap]
    have hfind : ∀ {d : AlterDrop}, (a.oldTable.find? fun f => sameName f.fieldName d.name) = some f ↔
        f ∈ a.oldTable ∧ f.key = d.key := fun {d} =>
      KeyedList.find_eq_some (l := ⟨a.oldTable, a.old_nodup⟩) (k := d.key)
    simp only [hfind, List.mem_filter, h, Listed, ne_eq, not_false_eq_true, true_implies,
      false_implies, true_and]
    constructor
    · rintro ⟨d, ⟨hd, hcol⟩, hf, hkey⟩
      exact ⟨hf, d, hd, hcol, hkey.symm⟩
    · rintro ⟨hf, d, hd, hcol, hkey⟩
      exact ⟨d, ⟨hd, hcol⟩, hf, hkey.symm⟩

lemma nodup_columnsToDrop : (a.columnsToDrop.map Field.key).Nodup := by
  rw [columnsToDrop]
  split
  · exact a.old_nodup.sublist (List.filter_sublist.map _)
  · refine List.pairwise_map.2 (List.Pairwise.filterMap _ ?_ (List.pairwise_map.1 a.drop_nodup))
    intro d d' hne f hf f' hf'
    have hkey := (KeyedList.find_eq_some (l := ⟨a.oldTable, a.old_nodup⟩) (k := d.key)).1 hf
    have hkey' := (KeyedList.find_eq_some (l := ⟨a.oldTable, a.old_nodup⟩) (k := d'.key)).1 hf'
    rw [hkey.2, hkey'.2]
    exact hne

variable (a) in
/-- The case-folded names of the columns that the statements drop. -/
def dropKeys : List Name := a.dropNames.map foldCase

lemma mem_dropKeys {k : Name} :
    k ∈ a.dropKeys ↔ a.dropColumn ∧ ∃ f ∈ a.columnsToDrop, f.key = k := by
  rw [dropKeys, dropNames]
  split
  · simp_all [Field.key]
  · simp_all

lemma nodup_dropKeys : a.dropKeys.Nodup := by
  rw [dropKeys, dropNames]
  split
  · rw [List.map_map]
    exact nodup_columnsToDrop
  · exact List.nodup_nil

/-- The statements drop no column under an old name that a column keeps. -/
lemma key_notMem_dropKeys {e : CreateField} (he : e ∈ a.createList) {f : Field}
    (hf : e.field = some f) (h : a.dropList = [] → f.key ∈ a.createList.map CreateField.key ∨
      f.fieldName ∈ a.renamedOldNames) : f.key ∉ a.dropKeys := by
  intro hmem
  obtain ⟨-, f', hf', hkey⟩ := mem_dropKeys.1 hmem
  obtain ⟨hold, hdiff, hlist⟩ := mem_columnsToDrop.1 hf'
  have hmem := a.field_mem e he f hf
  cases eq_of_key hold hmem hkey
  by_cases hd : a.dropList = []
  · obtain ⟨hspelled, hnew⟩ := hdiff hd
    exact (h hd).elim hnew hspelled
  · -- An entry of `drop_list` names a field that no column comes from.
    obtain ⟨d, hd, hcol, hdk⟩ := hlist hd
    obtain ⟨f₀, hf₀, hdropped, hf₀k⟩ := a.drop_mem d hd hcol
    cases eq_of_key hf₀ hmem (hf₀k.trans hdk)
    exact hdropped e he hf

variable (a) in
/-- The renamings, under case-folded names. -/
def moves : List (Name × Name) := a.renames.map fun p => (foldCase p.1, foldCase p.2)

lemma mem_moves {p : Name × Name} : p ∈ a.moves ↔
    ∃ e ∈ a.createList, ∃ f, e.field = some f ∧ e.key ≠ f.key ∧ p = (f.key, e.key) := by
  simp only [moves, renames, List.mem_map, List.mem_filterMap, Option.bind_eq_some_iff]
  constructor
  · rintro ⟨q, ⟨e, he, f, hf, hq⟩, rfl⟩
    split at hq
    · cases hq
    · cases hq
      exact ⟨e, he, f, hf, ‹_›, rfl⟩
  · rintro ⟨e, he, f, hf, hne, rfl⟩
    exact ⟨(f.fieldName, e.fieldName), ⟨e, he, f, hf, if_neg hne⟩, rfl⟩

lemma mem_map_moves {g : Name × Name → Name} {k : Name} : k ∈ a.moves.map g ↔
    ∃ e ∈ a.createList, ∃ f, e.field = some f ∧ e.key ≠ f.key ∧ g (f.key, e.key) = k := by
  rw [List.mem_map]
  constructor
  · rintro ⟨p, hp, rfl⟩
    obtain ⟨e, he, f, hf, hne, rfl⟩ := mem_moves.1 hp
    exact ⟨e, he, f, hf, hne, rfl⟩
  · rintro ⟨e, he, f, hf, hne, rfl⟩
    exact ⟨_, mem_moves.2 ⟨e, he, f, hf, hne, rfl⟩, rfl⟩

lemma mem_sources {k : Name} : k ∈ a.moves.map Prod.fst ↔
    ∃ e ∈ a.createList, ∃ f, e.field = some f ∧ e.key ≠ f.key ∧ f.key = k := mem_map_moves

lemma mem_targets {k : Name} : k ∈ a.moves.map Prod.snd ↔
    ∃ e ∈ a.createList, ∃ f, e.field = some f ∧ e.key ≠ f.key ∧ e.key = k := mem_map_moves

/-- A column that is not renamed is no target, as the new names are distinct. -/
lemma notMem_targets {e : CreateField} (he : e ∈ a.createList)
    (hkeep : ∀ f, e.field = some f → e.key = f.key) : e.key ∉ a.moves.map Prod.snd := by
  intro hmem
  obtain ⟨e', he', f, hf, hne, hkey⟩ := mem_targets.1 hmem
  cases eq_of_newKey he' he hkey
  exact hne (hkeep f hf)

/-- A column that keeps its name is no source, as the old names are distinct. -/
lemma notMem_sources {e : CreateField} (he : e ∈ a.createList) {f : Field}
    (hf : e.field = some f) (hkeep : e.key = f.key) : f.key ∉ a.moves.map Prod.fst := by
  intro hmem
  obtain ⟨e', he', f', hf', hne, hkey⟩ := mem_sources.1 hmem
  cases eq_of_key (a.field_mem e' he' f' hf') (a.field_mem e he f hf) hkey
  cases a.field_inj e' he' e he f hf' hf
  exact hne hkeep

-- The sources are old fields of different columns and the targets are names of different
-- columns.
lemma nodup_moves : (a.moves.map Prod.fst).Nodup ∧ (a.moves.map Prod.snd).Nodup := by
  have hmoves : a.moves = a.createList.filterMap fun e => e.field.bind fun f =>
      if e.key = f.key then none else some (f.key, e.key) := by
    rw [moves, renames, List.map_filterMap]
    refine List.filterMap_congr fun e _ => ?_
    cases e.field with
    | none => rfl
    | some f =>
        by_cases h : e.key = f.key
        · simp only [Option.bind_some, if_pos h, Option.map_none]
        · simp only [Option.bind_some, if_neg h, Option.map_some]
          rfl
  have hpair : ∀ {e : CreateField} {p : Name × Name}, (e.field.bind fun f =>
      if e.key = f.key then none else some (f.key, e.key)) = some p →
      ∃ f, e.field = some f ∧ p = (f.key, e.key) := by
    intro e p h
    obtain ⟨f, hf, hp⟩ := Option.bind_eq_some_iff.1 h
    split at hp
    · cases hp
    · exact ⟨f, hf, (Option.some.inj hp).symm⟩
  have hnew := List.pairwise_map.1 a.new_nodup
  rw [hmoves]
  refine ⟨List.pairwise_map.2 (List.Pairwise.filterMap _ ?_ (hnew.imp_of_mem
    (S := fun e e' => e ∈ a.createList ∧ e' ∈ a.createList ∧ e.key ≠ e'.key)
    fun he he' hne => ⟨he, he', hne⟩)), List.pairwise_map.2 (List.Pairwise.filterMap _ ?_ hnew)⟩
  · rintro e e' ⟨he, he', hne⟩ p hp p' hp' heq
    obtain ⟨f, hf, rfl⟩ := hpair hp
    obtain ⟨f', hf', rfl⟩ := hpair hp'
    cases eq_of_key (a.field_mem e he f hf) (a.field_mem e' he' f' hf') heq
    exact hne (congrArg _ (a.field_inj e he e' he' f hf hf'))
  · intro e e' hne p hp p' hp'
    obtain ⟨f, -, rfl⟩ := hpair hp
    obtain ⟨f', -, rfl⟩ := hpair hp'
    exact hne

/-! ### Adding columns -/

variable (cols : Columns V)

/-- The column that ADD COLUMN makes for a definition. -/
def addedColumn (a : AlterInplaceInfo) (e : CreateField) : Option (Column V) :=
  (findField e a.newTable).bind fun f =>
    newColumn env rows (FieldConvertor.convertType cfg f) (addDefault e f)

variable {cols cfg env rows} {s s' s'' : Columns V}

/-- The columns after the additions and the constraints of added columns. -/
def AddStage (cfg : Settings) (env : AlterEnv V) (rows : ℕ) (a : AlterInplaceInfo)
    (cols s : Columns V) : Prop :=
  ∃ t, addAll (fun p : CreateField × Field => p.1.key)
      (fun p => newColumn env rows (FieldConvertor.convertType cfg p.2) (addDefault p.1 p.2))
      cols a.columnsToAdd = some t ∧
    alterAll env t a.addChanges = some s

lemma addStage_isSome_iff : (∃ s, AddStage cfg env rows a cols s) ↔
    ∀ e ∈ a.createList, e.field = none → e.key ∉ cols ∧
      ∃ c, a.addedColumn cfg env rows e = some c ∧ (e.notNull → c.data.all Option.isSome) := by
  constructor
  · rintro ⟨s, t, ht, hs⟩ e he hnone
    obtain ⟨f, hf, -⟩ := findField_spec he
    have hp : (e, f) ∈ a.columnsToAdd := mem_columnsToAdd.2 ⟨he, hnone, hf⟩
    obtain ⟨hfree, c, hc⟩ := (addAll_isSome_iff nodup_columnsToAdd).1 ⟨t, ht⟩ _ hp
    refine ⟨hfree, c, by rw [addedColumn, hf]; exact hc, fun hnn => ?_⟩
    have hx : (e.fieldName, ColumnChange.setNotNull) ∈ a.addChanges :=
      List.mem_append_left _ (List.mem_map.2 ⟨_, List.mem_filter.2 ⟨hp, hnn⟩, rfl⟩)
    obtain ⟨c', hc', hguard⟩ := alterAll_isSome_iff.1 ⟨s, hs⟩ _ hx
    have : t.lookup e.key = some c := (lookup_addAll_of_mem nodup_columnsToAdd ht hp).trans hc
    cases this.symm.trans hc'
    exact hguard
  · intro h
    have hadded : ∀ p ∈ a.columnsToAdd, p.1.key ∉ cols ∧ ∃ c,
        newColumn env rows (FieldConvertor.convertType cfg p.2) (addDefault p.1 p.2) = some c ∧
          (p.1.notNull → c.data.all Option.isSome) := by
      intro p hp
      obtain ⟨he, hnone, hf⟩ := mem_columnsToAdd.1 hp
      obtain ⟨hfree, c, hc, hdata⟩ := h p.1 he hnone
      rw [addedColumn, hf] at hc
      exact ⟨hfree, c, hc, hdata⟩
    obtain ⟨t, ht⟩ := (addAll_isSome_iff nodup_columnsToAdd).2 fun p hp =>
      ⟨(hadded p hp).1, (hadded p hp).2.imp fun c hc => hc.1⟩
    obtain ⟨s, hs⟩ := alterAll_isSome_iff.2 fun x hx => by
      obtain ⟨p, hp, hname, hnn, hch⟩ := mem_addChanges hx
      obtain ⟨-, c, hc, hdata⟩ := hadded p hp
      refine ⟨c, ?_, ?_⟩
      · rw [hname]
        exact (lookup_addAll_of_mem nodup_columnsToAdd ht hp).trans hc
      · rcases hch with hch | hch <;> rw [hch]
        · exact hdata hnn
        · rfl
    exact ⟨s, t, ht, hs⟩

lemma AddStage.lookup_added (h : AddStage cfg env rows a cols s) {e : CreateField}
    (he : e ∈ a.createList) (hnone : e.field = none) :
    s.lookup e.key = (a.addedColumn cfg env rows e).map (Column.alter a.addChanges e.key) := by
  obtain ⟨t, ht, hs⟩ := h
  obtain ⟨f, hf, -⟩ := findField_spec he
  have hp : (e, f) ∈ a.columnsToAdd := mem_columnsToAdd.2 ⟨he, hnone, hf⟩
  have : t.lookup e.key = _ := lookup_addAll_of_mem nodup_columnsToAdd ht hp
  rw [lookup_alterAll hs, this, addedColumn, hf, Option.bind_some]

/-- The other columns are untouched. -/
lemma AddStage.lookup_of_ne (h : AddStage cfg env rows a cols s) {k : Name}
    (hk : ∀ e ∈ a.createList, e.field = none → e.key ≠ k) : s.lookup k = cols.lookup k := by
  obtain ⟨t, ht, hs⟩ := h
  have hadds : ∀ p ∈ a.columnsToAdd, p.1.key ≠ k := fun p hp =>
    hk p.1 (mem_columnsToAdd.1 hp).1 (mem_columnsToAdd.1 hp).2.1
  have hchanges : ∀ x ∈ a.addChanges, foldCase x.1 ≠ k := by
    intro x hx
    obtain ⟨p, hp, hname, -⟩ := mem_addChanges hx
    rw [hname]
    exact hadds p hp
  rw [lookup_alterAll hs, lookup_addAll_of_notMem ht (by simpa using fun e f h => hadds (e, f) h)]
  cases cols.lookup k with
  | none => rfl
  | some c => rw [Option.map_some, Column.alter_of_forall_ne hchanges]

/-! ### Dropping and renaming columns -/

/-- The column that a definition starts from: the one of its old field or the added one. -/
def origin (cfg : Settings) (env : AlterEnv V) (rows : ℕ) (a : AlterInplaceInfo)
    (cols : Columns V) (e : CreateField) : Option (Column V) :=
  match e.field with
  | some f => cols.lookup f.key
  | none => a.addedColumn cfg env rows e

lemma origin_of_field {e : CreateField} {f : Field} (hf : e.field = some f) :
    a.origin cfg env rows cols e = cols.lookup f.key := by
  rw [origin, hf]

lemma origin_of_none {e : CreateField} (hf : e.field = none) :
    a.origin cfg env rows cols e = a.addedColumn cfg env rows e := by
  rw [origin, hf]

/-- The changes of added columns have no effect on a column that was there before. -/
lemma map_alter_addChanges {e : CreateField} (he : e ∈ a.createList) {f : Field}
    (hf : e.field = some f) (o : Option (Column V)) :
    o.map (Column.alter a.addChanges e.key) = o := by
  have hne : ∀ x ∈ a.addChanges, foldCase x.1 ≠ e.key := by
    intro x hx hkey
    obtain ⟨p, hp, hname, -⟩ := mem_addChanges hx
    obtain ⟨hpe, hnone, -⟩ := mem_columnsToAdd.1 hp
    rw [hname] at hkey
    cases eq_of_newKey hpe he hkey
    cases hnone.symm.trans hf
  cases o with
  | none => rfl
  | some c => rw [Option.map_some, Column.alter_of_forall_ne hne]

section Names

variable (hcols : ∀ k, k ∈ cols ↔ k ∈ a.oldTable.map Field.key)

include hcols

/-- An old column is there after the additions, and no added column has its name. -/
lemma AddStage.lookup_old (h : AddStage cfg env rows a cols s) {f : Field} (hf : f ∈ a.oldTable) :
    s.lookup f.key = cols.lookup f.key ∧ f.key ∈ s := by
  have hmem : f.key ∈ cols := (hcols _).2 (List.mem_map_of_mem hf)
  have heq : s.lookup f.key = cols.lookup f.key := h.lookup_of_ne fun e he hnone hk =>
    (addStage_isSome_iff.1 ⟨s, h⟩ e he hnone).1 (hk ▸ hmem)
  exact ⟨heq, AList.lookup_isSome.1 (heq ▸ AList.lookup_isSome.2 hmem)⟩

/-- The columns that are there before the renamings, apart from the added ones: the old ones
that are not dropped. -/
lemma mem_dropped_iff (h : AddStage cfg env rows a cols s) (h' : dropAll s a.dropKeys = some s')
    {k : Name} (hk : ∀ e ∈ a.createList, e.field = none → e.key ≠ k) :
    k ∈ s' ↔ k ∈ a.oldTable.map Field.key ∧ k ∉ a.dropKeys := by
  rw [← AList.lookup_isSome, lookup_dropAll h', ← hcols, ← AList.lookup_isSome]
  by_cases hd : k ∈ a.dropKeys
  · simp [hd]
  · simp [hd, h.lookup_of_ne hk]

omit hcols in
lemma notMem_dropKeys_of_mem (h' : dropAll s a.dropKeys = some s') {k : Name} (hk : k ∈ s') :
    k ∉ a.dropKeys := by
  intro hd
  have := AList.lookup_isSome.2 hk
  rw [lookup_dropAll h', if_pos hd] at this
  cases this

/-- The name of an added column is no old name, so the column stays as it was added. -/
lemma lookup_renamed_added (h : AddStage cfg env rows a cols s)
    (h' : dropAll s a.dropKeys = some s') (h'' : moveAll s' a.moves = some s'') {e : CreateField}
    (he : e ∈ a.createList) (hfield : e.field = none) :
    s''.lookup e.key = (a.addedColumn cfg env rows e).map (Column.alter a.addChanges e.key) := by
  have hfresh : e.key ∉ a.oldTable.map Field.key := fun hk =>
    (addStage_isSome_iff.1 ⟨s, h⟩ e he hfield).1 ((hcols _).2 hk)
  have hsource : e.key ∉ a.moves.map Prod.fst := by
    intro hmem
    obtain ⟨e', he', f, hf, -, hkey⟩ := mem_sources.1 hmem
    exact hfresh (List.mem_map.2 ⟨f, a.field_mem e' he' f hf, hkey⟩)
  have hdrop : e.key ∉ a.dropKeys := by
    intro hmem
    obtain ⟨-, f, hf, hkey⟩ := mem_dropKeys.1 hmem
    exact hfresh (List.mem_map.2 ⟨f, (mem_columnsToDrop.1 hf).1, hkey⟩)
  have htarget := notMem_targets he fun f hf => by cases hfield.symm.trans hf
  rw [lookup_moveAll_of_notMem h'' hsource htarget, lookup_dropAll h', if_neg hdrop,
    h.lookup_added he hfield]

/-- The column of an old field is found under its new name. -/
lemma lookup_renamed_old (h : AddStage cfg env rows a cols s)
    (h' : dropAll s a.dropKeys = some s') (hsrc : ∀ k ∈ a.moves.map Prod.fst, k ∈ s')
    (h'' : moveAll s' a.moves = some s'') {e : CreateField} (he : e ∈ a.createList) {f : Field}
    (hfield : e.field = some f) : s''.lookup e.key = cols.lookup f.key := by
  have hold : f.key ∉ a.dropKeys → s'.lookup f.key = cols.lookup f.key := fun hd => by
    rw [lookup_dropAll h', if_neg hd, (h.lookup_old hcols (a.field_mem e he f hfield)).1]
  by_cases hkey : e.key = f.key
  · have htarget := notMem_targets he fun f' hf' => by
      cases hfield.symm.trans hf'
      exact hkey
    rw [hkey] at htarget ⊢
    rw [lookup_moveAll_of_notMem h'' (notMem_sources he hfield hkey) htarget]
    exact hold (key_notMem_dropKeys he hfield fun _ => Or.inl (List.mem_map.2 ⟨e, he, hkey⟩))
  · have hp : (f.key, e.key) ∈ a.moves := mem_moves.2 ⟨e, he, f, hfield, hkey, rfl⟩
    rw [lookup_moveAll_of_target nodup_moves.1 nodup_moves.2 hsrc h'' hp]
    exact hold (notMem_dropKeys_of_mem h' (hsrc _ (List.mem_map.2 ⟨_, hp, rfl⟩)))

/-- After the renamings every definition has its column: the column of its old field, or the
added one. -/
lemma lookup_renamed (h : AddStage cfg env rows a cols s) (h' : dropAll s a.dropKeys = some s')
    (hsrc : ∀ k ∈ a.moves.map Prod.fst, k ∈ s') (h'' : moveAll s' a.moves = some s'')
    {e : CreateField} (he : e ∈ a.createList) :
    s''.lookup e.key = (a.origin cfg env rows cols e).map (Column.alter a.addChanges e.key) := by
  cases hfield : e.field with
  | none => rw [origin_of_none hfield, lookup_renamed_added hcols h h' h'' he hfield]
  | some f =>
      rw [origin_of_field hfield, map_alter_addChanges he hfield,
        lookup_renamed_old hcols h h' hsrc h'' he hfield]

end Names

/-! ### All statements -/

lemma execAll_statements_iff {cols' : Columns V} :
    execAll env rows cols (a.statements cfg) = some cols' ↔
      ∃ s s' s'', AddStage cfg env rows a cols s ∧ dropAll s a.dropKeys = some s' ∧
        moveAll s' a.moves = some s'' ∧ alterAll env s'' (a.finalChanges cfg) = some cols' := by
  have hadd : ∀ {t : Columns V}, execAll env rows cols (a.columnsToAdd.map fun p =>
      .columnAdd p.1.fieldName (FieldConvertor.convertType cfg p.2) (addDefault p.1 p.2)) = some t ↔
      addAll (fun p : CreateField × Field => p.1.key)
        (fun p => newColumn env rows (FieldConvertor.convertType cfg p.2) (addDefault p.1 p.2))
        cols a.columnsToAdd = some t := by
    intro t
    rw [execAll, List.foldlM_map]
    rfl
  simp only [statements_eq, execAll_append, execAll_alter, execAll_drop, execAll_rename, hadd]
  constructor
  · rintro ⟨t, ht, s, hs, s', hs', s'', hs'', h⟩
    exact ⟨s, s', s'', ⟨t, ht, hs⟩, hs', hs'', h⟩
  · rintro ⟨s, s', s'', ⟨t, ht, hs⟩, hs', hs'', h⟩
    exact ⟨t, ht, s, hs, s', hs', s'', hs'', h⟩

lemma mem_changedColumns {p : CreateField × Field × Field} (hp : p ∈ a.changedColumns) :
    p.1 ∈ a.createList ∧ p.1.change.isSome ∧ p.1.field = some p.2.1 ∧
      findField p.1 a.newTable = some p.2.2 := by
  obtain ⟨e, he, h⟩ := List.mem_filterMap.1 hp
  split at h
  · cases h
  · split at h
    · cases h
      exact ⟨he, Option.isSome_iff_ne_none.2 (Option.isNone_iff_eq_none.not.1 ‹_›), ‹_›, ‹_›⟩
    · cases h

/-- The changes are about columns of the altered table. -/
lemma exists_of_mem_finalChanges {x : Name × ColumnChange} (hx : x ∈ a.finalChanges cfg) :
    ∃ e ∈ a.createList, e.key = foldCase x.1 := by
  have hnew : ∀ {f : Field}, f ∈ a.newTable → ∃ e ∈ a.createList, e.key = f.key := fun hf =>
    List.mem_map.1 (mem_createKeys hf)
  have hdefault : x ∈ a.changedDefaults cfg → ∃ e ∈ a.createList, e.key = foldCase x.1 := by
    intro hx
    obtain ⟨f, hf, h⟩ := List.mem_filterMap.1 hx
    obtain ⟨old, -, h⟩ := Option.bind_eq_some_iff.1 h
    obtain ⟨c, -, rfl⟩ := Option.map_eq_some_iff.1 h
    exact hnew hf
  rw [finalChanges, List.mem_append, List.mem_append] at hx
  rcases hx with (hx | hx) | hx
  · split at hx
    · simp only [columnChanges, List.mem_append, List.mem_filterMap, List.mem_map, List.mem_filter] at hx
      rcases hx with (⟨p, hp, h⟩ | ⟨p, ⟨⟨hp, -⟩, -⟩, rfl⟩) | ⟨p, ⟨⟨hp, -⟩, -⟩, rfl⟩
      · obtain ⟨c, -, rfl⟩ := Option.map_eq_some_iff.1 h
        exact ⟨p.1, (mem_changedColumns hp).1, rfl⟩
      · exact ⟨p.1, (mem_changedColumns hp).1, rfl⟩
      · exact ⟨p.1, (mem_changedColumns hp).1, rfl⟩
    · cases hx
  · split at hx
    · rw [List.mem_append, List.mem_filter, List.mem_filter] at hx
      exact hdefault (hx.elim And.left And.left)
    · cases hx
  · split at hx
    · obtain ⟨f, hf, rfl⟩ := List.mem_map.1 hx
      exact hnew (List.mem_filter.1 hf).1
    · cases hx

/-- The ALTER TABLE can be carried out by statements that come one after another. -/
structure Runs (cfg : Settings) (env : AlterEnv V) (rows : ℕ) (a : AlterInplaceInfo)
    (cols : Columns V) : Prop where
  /-- No added column has the name of an old one. -/
  fresh : ∀ e ∈ a.createList, e.field = none → e.key ∉ a.oldTable.map Field.key
  /-- If dropped columns are found by comparing names, the old name of a renamed column is spelled
  as the old table has it, or is the name of a column of the altered table. -/
  spelled : a.dropList = [] → a.dropColumn → ∀ e ∈ a.createList, ∀ f ∈ e.field, e.key ≠ f.key →
    e.change = some f.fieldName ∨ f.key ∈ a.createList.map CreateField.key
  /-- The new name of a renamed column is no old name, unless that column has been renamed
  before, or it is dropped and `drop_list` says so. -/
  turn : ∀ pre p post, a.moves = pre ++ p :: post → p.2 ∈ a.oldTable.map Field.key →
    p.2 ∈ pre.map Prod.fst ∨ a.Listed p.2
  /-- DuckDB accepts the defaults of added columns, and they are not NULL for NOT NULL
  columns. -/
  added : ∀ e ∈ a.createList, e.field = none →
    ∃ c, a.addedColumn cfg env rows e = some c ∧ (e.notNull → c.data.all Option.isSome)
  /-- DuckDB accepts the new defaults, and no column that becomes NOT NULL holds a NULL. -/
  fits : ∀ x ∈ a.finalChanges cfg, ∀ e ∈ a.createList, e.key = foldCase x.1 →
    ∃ c, a.origin cfg env rows cols e = some c ∧ x.2.guard env c

lemma dropColumn_iff : a.dropColumn = true ↔ ∃ f, a.Dropped f := by
  simp [dropColumn, Dropped]

/-- Under a new name only a column is dropped that `drop_list` has an entry for. -/
lemma newKey_mem_dropKeys_iff {e : CreateField} (he : e ∈ a.createList) :
    e.key ∈ a.dropKeys ↔ a.Listed e.key := by
  rw [mem_dropKeys]
  constructor
  · rintro ⟨-, f, hf, hkey⟩
    obtain ⟨-, hdiff, hlist⟩ := mem_columnsToDrop.1 hf
    by_cases hd : a.dropList = []
    · exact absurd (List.mem_map.2 ⟨e, he, hkey.symm⟩) (hdiff hd).2
    · exact hkey ▸ hlist hd
  · rintro ⟨d, hd, hcol, hkey⟩
    obtain ⟨f, hf, hdropped, hfd⟩ := a.drop_mem d hd hcol
    refine ⟨dropColumn_iff.2 ⟨f, hf, hdropped⟩, f, mem_columnsToDrop.2 ⟨hf, ?_, ?_⟩, hfd.trans hkey⟩
    · intro hnil
      rw [hnil] at hd
      cases hd
    · exact fun _ => ⟨d, hd, hcol, hfd.symm⟩

/-- A statement spells the old name of at most one column as some old field is spelled. -/
lemma mem_renamedOldNames_iff {e : CreateField} (he : e ∈ a.createList) {f : Field}
    (hf : e.field = some f) : f.fieldName ∈ a.renamedOldNames ↔ e.change = some f.fieldName := by
  rw [renamedOldNames, List.mem_filterMap]
  constructor
  · rintro ⟨e', he', hchange⟩
    obtain ⟨f', hf', hkey⟩ := a.change_field e' he' _ hchange
    cases eq_of_key (a.field_mem e he f hf) (a.field_mem e' he' f' hf') hkey
    cases a.field_inj e he e' he' f hf hf'
    exact hchange
  · exact fun h => ⟨e, he, h⟩

section Runs

variable (hcols : ∀ k, k ∈ cols ↔ k ∈ a.oldTable.map Field.key)

include hcols

lemma freeAtTurn_iff (h : AddStage cfg env rows a cols s) (h' : dropAll s a.dropKeys = some s') :
    FreeAtTurn s' a.moves ↔ ∀ pre p post, a.moves = pre ++ p :: post →
      p.2 ∈ a.oldTable.map Field.key → p.2 ∈ pre.map Prod.fst ∨ a.Listed p.2 := by
  refine forall_congr' fun pre => forall_congr' fun p => forall_congr' fun post =>
    imp_congr_right fun hsplit => ?_
  have hp : p ∈ a.moves := by
    rw [hsplit]
    simp
  obtain ⟨e, he, f, hf, -, rfl⟩ := mem_moves.1 hp
  have hne : ∀ e' ∈ a.createList, e'.field = none → e'.key ≠ e.key := by
    rintro e' he' hnone hkey
    cases eq_of_newKey he' he hkey
    cases hnone.symm.trans hf
  rw [mem_dropped_iff hcols h h' hne, newKey_mem_dropKeys_iff he]
  tauto

/-- If the renamings succeed, the sources are there when they start. -/
lemma source_mem (h : AddStage cfg env rows a cols s) (h' : dropAll s a.dropKeys = some s')
    (h'' : moveAll s' a.moves = some s'') : ∀ k ∈ a.moves.map Prod.fst, k ∈ s' := by
  intro k hk
  obtain ⟨e, he, f, hf, hne, rfl⟩ := mem_sources.1 hk
  refine (source_of_moveAll h'' (mem_moves.2 ⟨e, he, f, hf, hne, rfl⟩)).elim id fun htarget => ?_
  -- The old name is a new name, so the column is not among the dropped ones.
  obtain ⟨e', he', f', hf', -, hqf⟩ := mem_targets.1 htarget
  have hmem := a.field_mem e he f hf
  rw [← AList.lookup_isSome, lookup_dropAll h', if_neg (key_notMem_dropKeys he hf fun _ =>
    Or.inl (List.mem_map.2 ⟨e', he', hqf⟩)), AList.lookup_isSome]
  exact (h.lookup_old hcols hmem).2

omit hcols in
/-- No column is dropped that the altered table has. -/
lemma Runs.notMem_dropKeys (h : a.Runs cfg env rows cols) {e : CreateField}
    (he : e ∈ a.createList) {f : Field} (hf : e.field = some f) : f.key ∉ a.dropKeys := by
  intro hmem
  have hdrop := (mem_dropKeys.1 hmem).1
  refine key_notMem_dropKeys he hf (fun hnil => ?_) hmem
  by_cases hkey : e.key = f.key
  · exact Or.inl (List.mem_map.2 ⟨e, he, hkey⟩)
  · rw [mem_renamedOldNames_iff he hf]
    exact (h.spelled hnil hdrop e he f hf hkey).symm

/-- The columns to drop are there, and one column stays. -/
lemma Runs.dropAll_isSome (h : a.Runs cfg env rows cols) (hs : AddStage cfg env rows a cols s) :
    ∃ s', dropAll s a.dropKeys = some s' := by
  have hold : ∀ k ∈ a.dropKeys, k ∈ a.oldTable.map Field.key := by
    intro k hk
    obtain ⟨-, f, hf, rfl⟩ := mem_dropKeys.1 hk
    exact List.mem_map_of_mem (mem_columnsToDrop.1 hf).1
  have hmem : ∀ k ∈ a.dropKeys, k ∈ s := by
    intro k hk
    obtain ⟨f, hf, rfl⟩ := List.mem_map.1 (hold k hk)
    exact (hs.lookup_old hcols hf).2
  obtain ⟨e, he⟩ := List.exists_mem_of_ne_nil _ a.createList_ne
  cases hf : e.field with
  | none =>
      obtain ⟨c, hc, -⟩ := h.added e he hf
      have hes : e.key ∈ s := by
        rw [← AList.lookup_isSome, hs.lookup_added he hf, hc]
        rfl
      exact KeyedEdits.dropAll_isSome nodup_dropKeys hmem hes fun hk => h.fresh e he hf (hold _ hk)
  | some f =>
      exact KeyedEdits.dropAll_isSome nodup_dropKeys hmem
        (hs.lookup_old hcols (a.field_mem e he f hf)).2 (h.notMem_dropKeys he hf)

/-- The statements succeed exactly if the ALTER TABLE can be carried out step by step. -/
theorem execAll_isSome_iff_runs :
    (∃ cols', execAll env rows cols (a.statements cfg) = some cols') ↔
      a.Runs cfg env rows cols := by
  constructor
  · rintro ⟨cols', h⟩
    obtain ⟨s, s', s'', hs, hs', hs'', h⟩ := execAll_statements_iff.1 h
    have hadd := addStage_isSome_iff.1 ⟨s, hs⟩
    have hsrc := source_mem hcols hs hs' hs''
    refine ⟨fun e he hnone hk => (hadd e he hnone).1 ((hcols _).2 hk), ?_,
      (freeAtTurn_iff hcols hs hs').1
        ((moveAll_isSome_iff nodup_moves.1 nodup_moves.2 hsrc).1 ⟨s'', hs''⟩),
      fun e he hnone => (hadd e he hnone).2, ?_⟩
    · intro hnil hdrop e he f hf hne
      have hd := notMem_dropKeys_of_mem hs' (hsrc _ (mem_sources.2 ⟨e, he, f, hf, hne, rfl⟩))
      by_contra hnot
      rw [not_or, ← mem_renamedOldNames_iff he hf] at hnot
      exact hd (mem_dropKeys.2 ⟨hdrop, f, mem_columnsToDrop.2
        ⟨a.field_mem e he f hf, fun _ => hnot, fun h => absurd hnil h⟩, rfl⟩)
    · intro x hx e he hkey
      obtain ⟨c, hc, hguard⟩ := alterAll_isSome_iff.1 ⟨cols', h⟩ x hx
      rw [← hkey, lookup_renamed hcols hs hs' hsrc hs'' he] at hc
      obtain ⟨c₀, hc₀, rfl⟩ := Option.map_eq_some_iff.1 hc
      exact ⟨c₀, hc₀, by rwa [ColumnChange.guard_alter] at hguard⟩
  · intro h
    have hadd : ∃ s, AddStage cfg env rows a cols s := addStage_isSome_iff.2 fun e he hnone =>
      ⟨fun hk => h.fresh e he hnone ((hcols _).1 hk), h.added e he hnone⟩
    obtain ⟨s, hs⟩ := hadd
    obtain ⟨s', hs'⟩ := h.dropAll_isSome hcols hs
    have hsrc : ∀ k ∈ a.moves.map Prod.fst, k ∈ s' := by
      intro k hk
      obtain ⟨e, he, f, hf, -, rfl⟩ := mem_sources.1 hk
      rw [← AList.lookup_isSome, lookup_dropAll hs', if_neg (h.notMem_dropKeys he hf),
        AList.lookup_isSome]
      exact (hs.lookup_old hcols (a.field_mem e he f hf)).2
    obtain ⟨s'', hs''⟩ := (moveAll_isSome_iff nodup_moves.1 nodup_moves.2 hsrc).2
      ((freeAtTurn_iff hcols hs hs').2 h.turn)
    obtain ⟨cols', hcols'⟩ := alterAll_isSome_iff.2 fun x hx => by
      obtain ⟨e, he, hkey⟩ := exists_of_mem_finalChanges hx
      obtain ⟨c, hc, hguard⟩ := h.fits x hx e he hkey
      refine ⟨Column.alter a.addChanges e.key c, ?_, (ColumnChange.guard_alter _).trans hguard⟩
      rw [← hkey, lookup_renamed hcols hs hs' hsrc hs'' he, hc, Option.map_some]
    exact ⟨cols', execAll_statements_iff.2 ⟨s, s', s'', hs, hs', hs'', hcols'⟩⟩

variable {cols' : Columns V} (h : execAll env rows cols (a.statements cfg) = some cols')

include h

/-- The column of a definition afterwards. -/
theorem lookup_of_execAll {e : CreateField} (he : e ∈ a.createList) :
    cols'.lookup e.key = (a.origin cfg env rows cols e).map
      (Column.alter (a.addChanges ++ a.finalChanges cfg) e.key) := by
  obtain ⟨s, s', s'', hs, hs', hs'', h⟩ := execAll_statements_iff.1 h
  rw [lookup_alterAll h, lookup_renamed hcols hs hs' (source_mem hcols hs hs' hs'') hs'' he,
    Option.map_map]
  exact congrArg (fun g => (a.origin cfg env rows cols e).map g)
    (funext fun c => Column.alter_append.symm)

/-- Every definition has a column afterwards. -/
lemma exists_lookup_of_execAll {e : CreateField} (he : e ∈ a.createList) :
    ∃ c, a.origin cfg env rows cols e = some c ∧
      cols'.lookup e.key = some (Column.alter (a.addChanges ++ a.finalChanges cfg) e.key c) := by
  have horigin : ∃ c, a.origin cfg env rows cols e = some c := by
    cases hf : e.field with
    | none =>
        obtain ⟨c, hc, -⟩ := ((execAll_isSome_iff_runs hcols).1 ⟨cols', h⟩).added e he hf
        exact ⟨c, (origin_of_none hf).trans hc⟩
    | some f =>
        rw [origin_of_field hf]
        exact Option.isSome_iff_exists.1 (AList.lookup_isSome.2
          ((hcols _).2 (List.mem_map_of_mem (a.field_mem e he f hf))))
  obtain ⟨c, hc⟩ := horigin
  exact ⟨c, hc, by rw [lookup_of_execAll hcols h he, hc, Option.map_some]⟩

/-- Any other column is a dropped one that `drop_list`, though it is not empty, has no entry
for. -/
theorem mem_of_execAll_iff {k : Name} (hk : k ∉ a.createList.map CreateField.key) :
    k ∈ cols' ↔ a.dropList ≠ [] ∧ ¬ a.Listed k ∧ ∃ f, a.Dropped f ∧ f.key = k := by
  obtain ⟨s, s', s'', hs, hs', hs'', h⟩ := execAll_statements_iff.1 h
  have hne : ∀ {e : CreateField}, e ∈ a.createList → e.key ≠ k := fun he hek =>
    hk (List.mem_map.2 ⟨_, he, hek⟩)
  have htarget : k ∉ a.moves.map Prod.snd := by
    intro hmem
    obtain ⟨e, he, f, -, -, hkey⟩ := mem_targets.1 hmem
    exact hne he hkey
  rw [← AList.lookup_isSome, lookup_alterAll h, Option.isSome_map]
  by_cases hsource : k ∈ a.moves.map Prod.fst
  · rw [lookup_moveAll_of_source hs'' hsource htarget]
    obtain ⟨e, he, f, hf, -, rfl⟩ := mem_sources.1 hsource
    refine iff_of_false (by simp) ?_
    rintro ⟨-, -, f', hf', hkey⟩
    cases eq_of_key hf'.1 (a.field_mem e he f hf) hkey
    exact hf'.2 e he hf
  · rw [lookup_moveAll_of_notMem hs'' hsource htarget, AList.lookup_isSome,
      mem_dropped_iff hcols hs hs' fun e he _ => hne he]
    -- An old field whose name is neither a new name nor renamed is a dropped one.
    have hdropped : ∀ {f : Field}, f ∈ a.oldTable → f.key = k → a.Dropped f := by
      rintro f hf rfl
      refine ⟨hf, fun e he hef => hsource ?_⟩
      exact mem_sources.2 ⟨e, he, f, hef, hne he, rfl⟩
    have hspelled : ∀ {f : Field}, a.Dropped f → f.fieldName ∉ a.renamedOldNames := by
      intro f hf hmem
      obtain ⟨e, he, hchange⟩ := List.mem_filterMap.1 hmem
      obtain ⟨f', hf', hkey⟩ := a.change_field e he _ hchange
      cases eq_of_key hf.1 (a.field_mem e he f' hf') hkey
      exact hf.2 e he hf'
    constructor
    · rintro ⟨hmem, hdrop⟩
      obtain ⟨f, hf, rfl⟩ := List.mem_map.1 hmem
      have hfd := hdropped hf rfl
      rw [mem_dropKeys, not_and] at hdrop
      have hnot : f ∉ a.columnsToDrop := fun hfc =>
        hdrop (dropColumn_iff.2 ⟨f, hfd⟩) ⟨f, hfc, rfl⟩
      rw [mem_columnsToDrop] at hnot
      have hlist : a.dropList ≠ [] := fun hnil =>
        hnot ⟨hf, fun _ => ⟨hspelled hfd, hk⟩, fun hnn => absurd hnil hnn⟩
      exact ⟨hlist, fun hl => hnot ⟨hf, fun hnil => absurd hnil hlist, fun _ => hl⟩, f, hfd, rfl⟩
    · rintro ⟨hlist, hnot, f, hfd, rfl⟩
      refine ⟨List.mem_map_of_mem hfd.1, fun hdrop => ?_⟩
      obtain ⟨-, f', hf', hkey⟩ := mem_dropKeys.1 hdrop
      exact hnot (hkey ▸ (mem_columnsToDrop.1 hf').2.2 hlist)

end Runs

end DuckdbEngine.AlterInplaceInfo
