/-
Column names under in-place ALTER TABLE.

The clauses of one ALTER TABLE act at once: columns may swap their names, and the name
of a dropped or renamed column is free for another one.  The statements for DuckDB are
executed one after another, all additions first, then the removals, then the renamings
in the order of the altered table.  They have the effect of the clauses if no name is
taken before it is free, and if the convertor for dropped columns finds the right ones.
-/
import DuckdbEngine.Proofs.AlterRun

namespace DuckdbEngine

open KeyedEdits Sql

namespace AlterInplaceInfo

variable {V : Type} {cfg : Settings} {env : AlterEnv V} {rows : ℕ} {a : AlterInplaceInfo}
  {cols : Columns V}

/-- The columns are those of the altered table, and every column that was there before has kept
its data. -/
def Simultaneous (a : AlterInplaceInfo) (cols cols' : Columns V) : Prop :=
  (∀ k, k ∈ cols' ↔ k ∈ a.newTable.map Field.key) ∧
  ∀ e ∈ a.createList, ∀ f ∈ e.field,
    (cols'.lookup e.key).map Column.data = (cols.lookup f.key).map Column.data

/-- The statements can be carried out one after another, and `drop_list`, unless it is empty,
has an entry for every dropped column. -/
structure Orderly (cfg : Settings) (env : AlterEnv V) (rows : ℕ) (a : AlterInplaceInfo)
    (cols : Columns V) : Prop where
  runs : a.Runs cfg env rows cols
  listed : a.dropList ≠ [] → ∀ f, a.Dropped f → a.Listed f.key

/-- An unlisted name of a dropped column is not used again if the statements succeed: it is
never free. -/
lemma Runs.key_notMem (h : a.Runs cfg env rows cols) {f : Field} (hf : a.Dropped f)
    (hl : ¬ a.Listed f.key) : f.key ∉ a.createList.map CreateField.key := by
  intro hmem
  obtain ⟨e, he, hkey⟩ := List.mem_map.1 hmem
  have hold : e.key ∈ a.oldTable.map Field.key := hkey ▸ List.mem_map_of_mem hf.1
  cases hef : e.field with
  | none => exact h.fresh e he hef hold
  | some f' =>
      have hne : e.key ≠ f'.key := by
        intro hk
        cases eq_of_key hf.1 (a.field_mem e he f' hef) (hkey.symm.trans hk)
        exact hf.2 e he hef
      obtain ⟨pre, post, hsplit⟩ :=
        List.append_of_mem (mem_moves.2 ⟨e, he, f', hef, hne, rfl⟩)
      rcases h.turn pre _ post hsplit hold with hsource | hlisted
      · obtain ⟨p, hp, hpe⟩ := List.mem_map.1 hsource
        have hpm : p ∈ a.moves := hsplit ▸ List.mem_append_left _ hp
        obtain ⟨e₁, he₁, f₁, hf₁, -, rfl⟩ := mem_moves.1 hpm
        cases eq_of_key hf.1 (a.field_mem e₁ he₁ f₁ hf₁) (hkey.symm.trans hpe.symm)
        exact hf.2 e₁ he₁ hf₁
      · exact hl (hkey ▸ hlisted)

section

variable (hcols : ∀ k, k ∈ cols ↔ k ∈ a.oldTable.map Field.key) {cols' : Columns V}
  (h : execAll env rows cols (a.statements cfg) = some cols')

include hcols h

/-- If the statements succeed, the names are those of the altered table exactly if no dropped
column is missing from a `drop_list` that is not empty. -/
lemma names_iff_listed : (∀ k, k ∈ cols' ↔ k ∈ a.newTable.map Field.key) ↔
    (a.dropList ≠ [] → ∀ f, a.Dropped f → a.Listed f.key) := by
  rw [key_newTable]
  constructor
  · intro hnames hlist f hf
    by_contra hl
    have hk := ((execAll_isSome_iff_runs hcols).1 ⟨cols', h⟩).key_notMem hf hl
    exact hk ((hnames _).1 ((mem_of_execAll_iff hcols h hk).2 ⟨hlist, hl, f, hf, rfl⟩))
  · intro hlisted k
    by_cases hk : k ∈ a.createList.map CreateField.key
    · refine iff_of_true ?_ hk
      obtain ⟨e, he, rfl⟩ := List.mem_map.1 hk
      obtain ⟨c, -, hc⟩ := exists_lookup_of_execAll hcols h he
      exact AList.lookup_isSome.1 (Option.isSome_of_eq_some hc)
    · refine iff_of_false (fun hmem => ?_) hk
      obtain ⟨hlist, hl, f, hf, rfl⟩ := (mem_of_execAll_iff hcols h hk).1 hmem
      exact hl (hlisted hlist f hf)

/-- If the statements succeed, the columns that were there before have kept their data. -/
lemma data_of_execAll {e : CreateField} (he : e ∈ a.createList) {f : Field}
    (hf : e.field = some f) :
    (cols'.lookup e.key).map Column.data = (cols.lookup f.key).map Column.data := by
  rw [lookup_of_execAll hcols h he, origin_of_field hf, Option.map_map]
  exact congrArg (fun g => (cols.lookup f.key).map g) (funext fun c => Column.data_alter)

end

/-- The statements of an ALTER TABLE succeed and leave the names and data that its clauses ask
for exactly if no added column has the name of an old one, the new name of a renamed column is
free at its turn, renamed columns are not mistaken for dropped ones, `drop_list` is empty or
complete, and DuckDB accepts the defaults and constraints. -/
theorem simultaneous_iff_orderly (cfg : Settings) (env : AlterEnv V) (rows : ℕ)
    (a : AlterInplaceInfo) (cols : Columns V)
    (hcols : ∀ k, k ∈ cols ↔ k ∈ a.oldTable.map Field.key) :
    (∃ cols', execAll env rows cols (a.statements cfg) = some cols' ∧ a.Simultaneous cols cols') ↔
      a.Orderly cfg env rows cols := by
  constructor
  · rintro ⟨cols', h, hnames, -⟩
    exact ⟨(execAll_isSome_iff_runs hcols).1 ⟨cols', h⟩, (names_iff_listed hcols h).1 hnames⟩
  · rintro ⟨hruns, hlisted⟩
    obtain ⟨cols', h⟩ := (execAll_isSome_iff_runs hcols).2 hruns
    exact ⟨cols', h, (names_iff_listed hcols h).2 hlisted, fun e he f hf =>
      data_of_execAll hcols h he hf⟩

/-! ### Two renamed columns -/

/-- A nullable INT column. -/
def intField (name : Name) : Field where
  fieldName := name
  realType := .long
  isUuid := false
  unsigned := false
  precision := 0
  dec := 0
  charset := none
  invisible := .visible
  notNull := false
  priKey := false
  noDefaultValue := false
  autoIncrement := false
  defaultExpr := none
  defaultRecord := none

/-- `RENAME COLUMN old TO new` for an INT column. -/
def renameInt (old new : Name) : CreateField := ⟨new, some (intField old), some old, false, false, false⟩

/-- `ALTER TABLE ... RENAME COLUMN o₁ TO n₁, RENAME COLUMN o₂ TO n₂` for a table of two INT
columns. -/
def renameTwo (o₁ n₁ o₂ n₂ : Name) (ho : foldCase o₁ ≠ foldCase o₂) (hn : foldCase n₁ ≠ foldCase n₂) :
    AlterInplaceInfo where
  oldTable := [intField o₁, intField o₂]
  newTable := [intField n₁, intField n₂]
  createList := [renameInt o₁ n₁, renameInt o₂ n₂]
  dropList := []
  changeColumn := false
  changeColumnDefault := false
  addIndex := false
  columnOrder := false
  errorIfNotEmpty := false
  databaseChanged := false
  hasPrimaryKey := false
  old_nodup := by simpa [Field.key, intField] using ho
  new_nodup := by simpa [CreateField.key, renameInt] using hn
  created := .cons ⟨rfl, rfl⟩ (.cons ⟨rfl, rfl⟩ .nil)
  createList_ne := by simp
  field_mem := by simp [renameInt]
  field_inj := by
    have : intField o₁ ≠ intField o₂ := fun h => ho (congrArg Field.key h)
    simp [renameInt, this, this.symm]
  change_field := by simp [renameInt, Field.key, intField]
  renamed_change := by simp [renameInt]
  drop_mem := by simp
  drop_nodup := List.nodup_nil

/-- Settings that allow tables without a primary key. -/
def laxSettings : Settings := ⟨true, false, fun v w => v != w⟩

/-- A DuckDB that accepts every default. -/
def lenientEnv : AlterEnv ℕ where
  evalDefault _ _ := some none
  bindsDefault _ _ := true
  castValue _ _ v := some v
  registerFails := false
  beginFails := false
  commitFails := false

/-- A table with one row and two INT columns. -/
def twoInts (k₁ k₂ : Name) (h : k₁ ≠ k₂) : Columns ℕ where
  entries := [⟨k₁, "INTEGER".toList, false, none, [some 1]⟩, ⟨k₂, "INTEGER".toList, false, none, [some 2]⟩]
  nodupKeys := by simpa [List.NodupKeys, List.keys] using h

/-- Names can be handed on if each one is given up before it is taken. -/
theorem simultaneous_of_chained_names :
    ∃ cols', execAll lenientEnv 1 (twoInts ['b'] ['a'] (by decide))
        ((renameTwo ['b'] ['c'] ['a'] ['b'] (by decide) (by decide)).statements laxSettings) =
          some cols' ∧
      (renameTwo ['b'] ['c'] ['a'] ['b'] (by decide) (by decide)).Simultaneous
        (twoInts ['b'] ['a'] (by decide)) cols' :=
  (simultaneous_iff_orderly laxSettings lenientEnv 1 _ _ fun _ => Iff.rfl).2
    ⟨(execAll_isSome_iff_runs fun _ => Iff.rfl).1
      (Option.isSome_iff_exists.1 (by decide +kernel)), fun h => absurd rfl h⟩

/-- Two columns cannot swap their names: the first renaming finds its new name taken. -/
theorem swapped_names_clash :
    (∀ k, k ∈ twoInts ['a'] ['b'] (by decide) ↔
      k ∈ (renameTwo ['a'] ['b'] ['b'] ['a'] (by decide) (by decide)).oldTable.map Field.key) ∧
    ¬ ∃ cols', execAll lenientEnv 1 (twoInts ['a'] ['b'] (by decide))
        ((renameTwo ['a'] ['b'] ['b'] ['a'] (by decide) (by decide)).statements laxSettings) =
          some cols' ∧
      (renameTwo ['a'] ['b'] ['b'] ['a'] (by decide) (by decide)).Simultaneous
        (twoInts ['a'] ['b'] (by decide)) cols' := by
  refine ⟨fun _ => Iff.rfl, ?_⟩
  rintro ⟨cols', h, -⟩
  have hfail : (execAll lenientEnv 1 (twoInts ['a'] ['b'] (by decide))
      ((renameTwo ['a'] ['b'] ['b'] ['a'] (by decide) (by decide)).statements
        laxSettings)).isNone := by decide +kernel
  rw [h] at hfail
  cases hfail

end AlterInplaceInfo

end DuckdbEngine
