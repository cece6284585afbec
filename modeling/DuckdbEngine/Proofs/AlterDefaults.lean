/-
Defaults under ALTER TABLE ... ALTER COLUMN ... SET DEFAULT.

`ChangeColumnDefaultConvertor` finds the columns whose default has changed by comparing the
fields of the two tables.  Two literals are compared by `sortcmp` under the character set of
the server's names, which is not sensitive to case: a change between literals that compare
as equal is not noticed.  Every other change is carried over.
-/
import DuckdbEngine.Convertor.DmlRoundTrip
import DuckdbEngine.Proofs.AlterTypes

namespace DuckdbEngine

open KeyedEdits Sql

/-! ### What a default denotes -/

/-- The default of DuckDB is the one that CREATE TABLE gives the field; a default of NULL is the
same as none. -/
def Denotes (f : Field) (default : Option Text) : Prop :=
  (default.filter fun text => text ≠ "NULL".toList) = FieldConvertor.defaultClause true f

/-- The new field differs from the old one in its default.  The text of an expression is available
and does not use a sequence. -/
structure SetsDefault (old new : Field) : Prop where
  same : new = { old with
    noDefaultValue := new.noDefaultValue
    defaultExpr := new.defaultExpr
    defaultRecord := new.defaultRecord }
  autoIncrement : new.autoIncrement = false
  oldExpr : old.defaultExpr ≠ some []
  newExpr : new.defaultExpr ≠ some []
  noSequence : isSequenceDefault new = false

/-- The old and the new default are different literals between which `sortcmp` finds no
difference. -/
def Unnoticed (cfg : Settings) (old new : Field) : Prop :=
  old.noDefaultValue = false ∧ new.noDefaultValue = false ∧
    old.defaultExpr = none ∧ new.defaultExpr = none ∧
    ∃ v w, old.defaultRecord = some v ∧ new.defaultRecord = some w ∧ v ≠ w ∧ cfg.sortcmp v w = false

/-- The text that SET DEFAULT is given. -/
def setDefaultText (new : Field) : Text :=
  if (getExprDefaultText new).isEmpty then getFieldDefaultForDuckdb new true
  else "(".toList ++ getExprDefaultText new ++ ")".toList

lemma charOfByte_injective : Function.Injective fun b : UInt8 => Char.ofNat b.toNat := by
  have htoNat (b : UInt8) : (Char.ofNat b.toNat).toNat = b.toNat := by
    have hlt := b.toNat_lt
    have hvalid : b.toNat.isValidChar := Or.inl (by omega)
    have hchar : Char.ofNat b.toNat = Char.ofNatAux b.toNat hvalid := dif_pos hvalid
    rw [hchar]
    rfl
  intro b b' h
  have heq := congrArg Char.toNat h
  simp only [htoNat] at heq
  exact UInt8.toNat_inj.1 heq

/-- Literals of different values are different. -/
lemma getFieldDefaultForDuckdb_inj {old new : Field} (htype : new.realType = old.realType)
    {v w : List UInt8} (hv : old.defaultRecord = some v) (hw : new.defaultRecord = some w)
    (h : getFieldDefaultForDuckdb old true = getFieldDefaultForDuckdb new true) : v = w := by
  simp only [getFieldDefaultForDuckdb, hv, hw, htype] at h
  split at h
  · have hbytes := List.append_cancel_right (List.cons.inj h).2
    rw [← blobBytes_hexBytes v, hbytes, blobBytes_hexBytes]
  · have hchars := congrArg (undouble squote) (List.append_cancel_right (List.cons.inj h).2)
    rw [undouble_double, undouble_double] at hchars
    exact charOfByte_injective.list_map hchars

lemma getFieldDefaultForDuckdb_ne_null {f : Field} {v : List UInt8}
    (hv : f.defaultRecord = some v) : getFieldDefaultForDuckdb f true ≠ "NULL".toList := by
  intro h
  rw [getFieldDefaultForDuckdb, hv] at h
  dsimp only at h
  split at h <;> exact absurd (List.cons.inj h).1 (by decide)

/-! ### One column -/

section

variable {cfg : Settings} {old new : Field}

lemma SetsDefault.autoIncrement_old (h : SetsDefault old new) : old.autoIncrement = false := by
  have hauto := h.autoIncrement
  rwa [h.same] at hauto

lemma SetsDefault.realType (h : SetsDefault old new) : new.realType = old.realType := by
  rw [h.same]

lemma defaultExpr_eq_none {f : Field} (hne : f.defaultExpr ≠ some [])
    (h : getExprDefaultText f = []) : f.defaultExpr = none := by
  rw [getExprDefaultText] at h
  cases hexpr : f.defaultExpr with
  | none => rfl
  | some expr =>
      rw [hexpr, Option.getD_some] at h
      exact absurd (h ▸ hexpr) hne

lemma defaultExpr_eq_some {f : Field} (h : getExprDefaultText f ≠ []) :
    f.defaultExpr = some (getExprDefaultText f) := by
  rw [getExprDefaultText] at h ⊢
  cases hexpr : f.defaultExpr with
  | none => exact absurd (by rw [hexpr]; rfl) h
  | some expr => rfl

/-- The clause of a field with a literal. -/
lemma defaultClause_literal {f : Field} (hauto : f.autoIncrement = false)
    (hdefault : f.noDefaultValue = false) (hexpr : f.defaultExpr = none) :
    FieldConvertor.defaultClause true f =
      (some (getFieldDefaultForDuckdb f true)).filter fun text => text ≠ "NULL".toList := by
  rw [FieldConvertor.defaultClause, hdefault, hauto, hexpr, Option.filter_some]
  simp

/-- The clause of a field with an expression. -/
lemma defaultClause_expr {f : Field} {expr : Text} (hauto : f.autoIncrement = false)
    (hdefault : f.noDefaultValue = false) (hexpr : f.defaultExpr = some expr) (hne : expr ≠ [])
    (hseq : isSequenceDefault f = false) :
    FieldConvertor.defaultClause true f = some ("(".toList ++ expr ++ ")".toList) := by
  rw [isSequenceDefault, getExprDefaultText, hexpr, Option.getD_some] at hseq
  rw [FieldConvertor.defaultClause, hdefault, hauto, hexpr]
  simp [hseq, hne]

lemma defaultClause_noDefault {f : Field} (h : f.noDefaultValue = true) :
    FieldConvertor.defaultClause true f = none := by
  rw [FieldConvertor.defaultClause, h]
  rfl

/-- After SET DEFAULT the default is the new one. -/
lemma denotes_set (h : SetsDefault old new) (hdefault : new.noDefaultValue = false) :
    Denotes new (some (setDefaultText new)) := by
  rw [Denotes, setDefaultText, getExprDefaultText]
  cases hexpr : new.defaultExpr with
  | none => exact (defaultClause_literal h.autoIncrement hdefault hexpr).symm
  | some expr =>
      have hne : expr ≠ [] := fun hnil => h.newExpr (hnil ▸ hexpr)
      have hnull : "(".toList ++ expr ++ ")".toList ≠ "NULL".toList := fun heq =>
        absurd (List.cons.inj heq).1 (by decide)
      rw [defaultClause_expr h.autoIncrement hdefault hexpr hne h.noSequence, Option.getD_some,
        if_neg (by simpa using hne), Option.filter_some, if_pos (decide_eq_true hnull)]

/-- After DROP DEFAULT the default is the new one, if there is none or if it is NULL. -/
lemma denotes_drop (h : SetsDefault old new)
    (hnone : new.noDefaultValue = true ∨
      new.noDefaultValue = false ∧ new.defaultExpr = none ∧ new.defaultRecord = none) :
    Denotes new none := by
  rw [Denotes, Option.filter_none]
  rcases hnone with hnone | ⟨hdefault, hexpr, hrecord⟩
  · exact (defaultClause_noDefault hnone).symm
  · rw [defaultClause_literal h.autoIncrement hdefault hexpr, getFieldDefaultForDuckdb, hrecord]
    rfl

/-- The default that the statement about a column leaves. -/
def defaultAfter (change : Option ColumnChange) (default : Option Text) : Option Text :=
  match change with
  | some (.setDefault text) => some text
  | some .dropDefault => none
  | _ => default

/-- Two defaults of which one is an expression are compared by their texts. -/
lemma defaultChange_expr (hseq : isSequenceDefault new = false) (hdo : old.noDefaultValue = false)
    (hdn : new.noDefaultValue = false)
    (hexpr : getExprDefaultText old ≠ [] ∨ getExprDefaultText new ≠ []) :
    AlterInplaceInfo.defaultChange cfg old new =
      if getExprDefaultText old ≠ getExprDefaultText new then
        some (.setDefault (setDefaultText new))
      else none := by
  rw [isSequenceDefault] at hseq
  have hsome : (!(getExprDefaultText old).isEmpty || !(getExprDefaultText new).isEmpty) = true := by
    simpa using hexpr
  simp only [AlterInplaceInfo.defaultChange, hdo, hdn, Bool.not_false, Bool.and_false,
    Bool.false_eq_true, if_false, Bool.and_self, if_true, hsome, hseq, setDefaultText]

/-- A literal that is not NULL is its own clause. -/
lemma defaultClause_some {f : Field} {v : List UInt8} (hauto : f.autoIncrement = false)
    (hdefault : f.noDefaultValue = false) (hexpr : f.defaultExpr = none)
    (hrecord : f.defaultRecord = some v) :
    FieldConvertor.defaultClause true f = some (getFieldDefaultForDuckdb f true) := by
  rw [defaultClause_literal hauto hdefault hexpr, Option.filter_some,
    if_pos (decide_eq_true (getFieldDefaultForDuckdb_ne_null hrecord))]

/-- The default that was left alone denotes the new literal only if it is the old one. -/
lemma denotes_unchanged_iff (h : SetsDefault old new) {default : Option Text}
    (hold : Denotes old default) (hdo : old.noDefaultValue = false)
    (hdn : new.noDefaultValue = false) (heo : old.defaultExpr = none) (hen : new.defaultExpr = none)
    {v w : List UInt8} (hv : old.defaultRecord = some v) (hw : new.defaultRecord = some w) :
    Denotes new default ↔ v = w := by
  rw [Denotes] at hold ⊢
  rw [hold, defaultClause_some h.autoIncrement_old hdo heo hv,
    defaultClause_some h.autoIncrement hdn hen hw, Option.some_inj]
  constructor
  · exact getFieldDefaultForDuckdb_inj h.realType hv hw
  · rintro rfl
    rw [getFieldDefaultForDuckdb, getFieldDefaultForDuckdb, hv, hw, h.realType]

/-- Two literals are compared by `sortcmp`; a literal in the place of NULL is set, and NULL in the
place of a literal drops the default. -/
lemma defaultChange_literal (hdo : old.noDefaultValue = false) (hdn : new.noDefaultValue = false)
    (heo : old.defaultExpr = none) (hen : new.defaultExpr = none) :
    AlterInplaceInfo.defaultChange cfg old new =
      new.defaultRecord.elim (old.defaultRecord.map fun _ => .dropDefault) fun w =>
        if old.defaultRecord.elim true fun v => cfg.sortcmp v w then
          some (.setDefault (setDefaultText new))
        else none := by
  simp only [AlterInplaceInfo.defaultChange, setDefaultText, getExprDefaultText, hdo, hdn, heo, hen]
  cases old.defaultRecord <;> cases new.defaultRecord <;> rfl

/-- What becomes of a literal, or of NULL. -/
lemma denotes_literal_iff (h : SetsDefault old new) {default : Option Text}
    (hold : Denotes old default) (hdo : old.noDefaultValue = false)
    (hdn : new.noDefaultValue = false) (heo : old.defaultExpr = none)
    (hen : new.defaultExpr = none) :
    Denotes new (defaultAfter (AlterInplaceInfo.defaultChange cfg old new) default) ↔
      ¬Unnoticed cfg old new := by
  have hset : Denotes new (defaultAfter (some (.setDefault (setDefaultText new))) default) :=
    denotes_set h hdn
  have hun : Unnoticed cfg old new ↔
      ∃ v w, old.defaultRecord = some v ∧ new.defaultRecord = some w ∧ v ≠ w ∧
        cfg.sortcmp v w = false := by
    simp only [Unnoticed, hdo, hdn, heo, hen, true_and]
  rw [defaultChange_literal hdo hdn heo hen, hun]
  cases hro : old.defaultRecord with
  | none =>
      refine iff_of_true ?_ (by simp)
      cases hrn : new.defaultRecord with
      | none =>
          show Denotes new default
          have hclause : FieldConvertor.defaultClause true new =
              FieldConvertor.defaultClause true old := by
            rw [defaultClause_literal h.autoIncrement hdn hen,
              defaultClause_literal h.autoIncrement_old hdo heo, getFieldDefaultForDuckdb,
              getFieldDefaultForDuckdb, hro, hrn]
          rw [Denotes, hclause]
          exact hold
      | some w => exact hset
  | some v =>
      cases hrn : new.defaultRecord with
      | none => exact iff_of_true (denotes_drop h (Or.inr ⟨hdn, hen, hrn⟩)) (by simp)
      | some w =>
          show Denotes new (defaultAfter (if cfg.sortcmp v w then
            some (.setDefault (setDefaultText new)) else none) default) ↔ _
          by_cases hcmp : cfg.sortcmp v w = true
          · rw [if_pos hcmp]
            exact iff_of_true hset (by simp [hcmp])
          · rw [if_neg hcmp]
            refine (denotes_unchanged_iff h hold hdo hdn heo hen hro hrn).trans ?_
            simp [hcmp]

/-- An expression is carried over, and so is a literal in the place of one. -/
lemma denotes_expr (h : SetsDefault old new) {default : Option Text} (hold : Denotes old default)
    (hdo : old.noDefaultValue = false) (hdn : new.noDefaultValue = false)
    (hexpr : getExprDefaultText old ≠ [] ∨ getExprDefaultText new ≠ []) :
    Denotes new (defaultAfter (AlterInplaceInfo.defaultChange cfg old new) default) := by
  rw [defaultChange_expr h.noSequence hdo hdn hexpr]
  split
  · exact denotes_set h hdn
  · next heq =>
      have heq : getExprDefaultText old = getExprDefaultText new := not_not.1 heq
      have hne : getExprDefaultText new ≠ [] := by
        rw [heq, or_self] at hexpr
        exact hexpr
      have hseq : isSequenceDefault old = false := by
        rw [isSequenceDefault, heq]
        exact h.noSequence
      show Denotes new default
      rw [Denotes,
        defaultClause_expr h.autoIncrement hdn (defaultExpr_eq_some hne) hne h.noSequence,
        ← heq, ← defaultClause_expr h.autoIncrement_old hdo (defaultExpr_eq_some (heq ▸ hne))
          (heq ▸ hne) hseq]
      exact hold

/-- The default denotes the new one exactly if the change is noticed. -/
theorem denotes_defaultAfter_iff (h : SetsDefault old new) {default : Option Text}
    (hold : Denotes old default) :
    Denotes new (defaultAfter (AlterInplaceInfo.defaultChange cfg old new) default) ↔
      ¬Unnoticed cfg old new := by
  cases hdo : old.noDefaultValue <;> cases hdn : new.noDefaultValue
  · by_cases hexpr : getExprDefaultText old ≠ [] ∨ getExprDefaultText new ≠ []
    · refine iff_of_true (denotes_expr h hold hdo hdn hexpr) ?_
      rintro ⟨-, -, heo, hen, -⟩
      rw [getExprDefaultText, getExprDefaultText, heo, hen] at hexpr
      exact absurd hexpr (by simp)
    · rw [not_or, not_not, not_not] at hexpr
      exact denotes_literal_iff h hold hdo hdn (defaultExpr_eq_none h.oldExpr hexpr.1)
        (defaultExpr_eq_none h.newExpr hexpr.2)
  · refine iff_of_true ?_ fun hun => absurd (hdn.symm.trans hun.2.1) (by decide)
    have hchange : AlterInplaceInfo.defaultChange cfg old new = some .dropDefault := by
      simp [AlterInplaceInfo.defaultChange, hdo, hdn]
    rw [hchange]
    exact denotes_drop h (Or.inl hdn)
  · refine iff_of_true ?_ fun hun => absurd (hdo.symm.trans hun.1) (by decide)
    have hchange : AlterInplaceInfo.defaultChange cfg old new =
        some (.setDefault (setDefaultText new)) := by
      simp [AlterInplaceInfo.defaultChange, hdo, hdn, h.noSequence, setDefaultText]
    rw [hchange]
    exact denotes_set h hdn
  · refine iff_of_true ?_ fun hun => absurd (hdo.symm.trans hun.1) (by decide)
    have hchange : AlterInplaceInfo.defaultChange cfg old new = none := by
      simp [AlterInplaceInfo.defaultChange, hdo, hdn]
    rw [hchange]
    show Denotes new default
    rw [Denotes, defaultClause_noDefault hdn, ← defaultClause_noDefault hdo]
    exact hold

/-- No change is found in a field that has not changed. -/
lemma defaultChange_self (hrefl : ∀ v, cfg.sortcmp v v = false) (f : Field) :
    AlterInplaceInfo.defaultChange cfg f f = none := by
  simp only [AlterInplaceInfo.defaultChange]
  cases f.noDefaultValue
  · cases f.defaultRecord <;> simp [hrefl]
  · simp

end

/-! ### All columns -/

namespace AlterInplaceInfo

variable {V : Type} {cfg : Settings} {a : AlterInplaceInfo}

/-- The changes of a column, of which there is one at most. -/
lemma filter_changedDefaults {old new : Field} (hold : old ∈ a.oldTable) (hnew : new ∈ a.newTable)
    (hkey : old.key = new.key) :
    (a.changedDefaults cfg).filter (fun x => foldCase x.1 = new.key) =
      ((defaultChange cfg old new).map fun c => (new.fieldName, c)).toList := by
  have hfind : (a.oldTable.find? fun f => sameName f.fieldName new.fieldName) = some old :=
    (KeyedList.find_eq_some (l := ⟨a.oldTable, a.old_nodup⟩)).2 ⟨hold, hkey⟩
  have hnodup : (a.newTable.map Field.key).Nodup := a.key_newTable ▸ a.new_nodup
  refine (KeyedList.filter_filterMap_key ⟨a.newTable, hnodup⟩ ?_ hnew).trans ?_
  · intro f _ x hx
    obtain ⟨old', -, hx⟩ := Option.bind_eq_some_iff.1 hx
    obtain ⟨change, -, rfl⟩ := Option.map_eq_some_iff.1 hx
    rfl
  · rw [hfind]
    rfl

/-- What the statements make of a column. -/
lemma alter_changedDefaults {old new : Field} (hold : old ∈ a.oldTable) (hnew : new ∈ a.newTable)
    (hkey : old.key = new.key) (c : Column V) :
    Column.alter ((a.changedDefaults cfg).filter (fun x => x.2 = .dropDefault) ++
        (a.changedDefaults cfg).filter (fun x => x.2 ≠ .dropDefault)) new.key c =
      (defaultChange cfg old new).elim c fun change => change.upd c := by
  have hcomm (p : Name × ColumnChange → Bool) :
      ((a.changedDefaults cfg).filter p).filter (fun x => foldCase x.1 = new.key) =
        ((defaultChange cfg old new).map fun c => (new.fieldName, c)).toList.filter p := by
    rw [List.filter_comm, filter_changedDefaults hold hnew hkey]
  rw [Column.alter, changed, List.filter_append, hcomm, hcomm]
  cases defaultChange cfg old new with
  | none => rfl
  | some change => cases change <;> rfl

lemma default_upd_defaultChange {old new : Field} (c : Column V) :
    ((defaultChange cfg old new).elim c fun change => change.upd c).default =
      defaultAfter (defaultChange cfg old new) c.default := by
  cases defaultChange cfg old new with
  | none => rfl
  | some change => cases change <;> rfl

/-- If the statements of `ChangeColumnDefaultConvertor` have run, then a column has the new default
exactly if the old and the new one are not different literals that compare as equal; columns whose
field has not changed are as before. -/
theorem changed_defaults_iff (cfg : Settings) (hrefl : ∀ v, cfg.sortcmp v v = false)
    (env : AlterEnv V) (rows : ℕ) (a : AlterInplaceInfo)
    (htables : List.Forall₂ (fun old new => new = old ∨ SetsDefault old new) a.oldTable a.newTable)
    (cols cols' : Columns V)
    (hrun : execAll env rows cols (a.changeColumnDefaultConvertor cfg).translate = some cols') :
    ∀ p ∈ a.oldTable.zip a.newTable, ∀ c, cols.lookup p.2.key = some c →
      ∃ c', cols'.lookup p.2.key = some c' ∧
        (p.2 = p.1 → c' = c) ∧
        (SetsDefault p.1 p.2 → Denotes p.1 c.default →
          (Denotes p.2 c'.default ↔ ¬Unnoticed cfg p.1 p.2)) := by
  rintro ⟨old, new⟩ hp c hc
  have hkey : old.key = new.key := by
    rcases (List.forall₂_iff_zip.1 htables).2 hp with heq | hsets
    · exact congrArg Field.key heq.symm
    · rw [Field.key, Field.key, hsets.same]
  -- DROP DEFAULT and SET DEFAULT are one run of changes.
  have halter := hrun
  rw [changeColumnDefaultConvertor, ← List.map_append, execAll_alter] at halter
  obtain ⟨hold, hnew⟩ := List.of_mem_zip hp
  have hlookup := lookup_alterAll halter new.key
  rw [hc, Option.map_some, alter_changedDefaults hold hnew hkey] at hlookup
  refine ⟨_, hlookup, ?_, fun hsets hden => ?_⟩
  · intro heq
    change new = old at heq
    rw [heq, defaultChange_self hrefl]
    rfl
  · rw [default_upd_defaultChange]
    exact denotes_defaultAfter_iff hsets hden

/-! ### ALTER COLUMN SET DEFAULT -/

/-- `sortcmp` finds no difference between a letter and its capital, as under
`utf8mb3_general_ci`. -/
def nocaseSettings : Settings :=
  let lower (b : UInt8) : UInt8 := if 65 ≤ b ∧ b ≤ 90 then b + 32 else b
  { defaultSettings with sortcmp := fun v w => v.map lower != w.map lower }

/-- A VARCHAR column `a` with a literal default. -/
def varcharField (literal : List UInt8) : Field :=
  { intField ['a'] with
    realType := .varchar
    charset := some ⟨.utf8mb4, false, false, false, false⟩
    defaultRecord := some literal }

/-- `ALTER TABLE ... ALTER COLUMN a SET DEFAULT '...'` -/
def setLiteral (old new : List UInt8) : AlterInplaceInfo :=
  { modifyOne (varcharField old) (varcharField new) rfl with
    changeColumn := false
    changeColumnDefault := true }

/-- A table with one VARCHAR column. -/
def oneVarchar (default : Option Text) : Columns ℕ where
  entries := [⟨['a'], "VARCHAR".toList, false, default, [some 1]⟩]
  nodupKeys := List.nodup_singleton ['a']

lemma setsDefault_varcharField (old new : List UInt8) :
    SetsDefault (varcharField old) (varcharField new) where
  same := rfl
  autoIncrement := rfl
  oldExpr := by simp [varcharField, intField]
  newExpr := by simp [varcharField, intField]
  noSequence := rfl

/-- An INT column `b` with the default 3, or without a default. -/
def intDefault (literal : Option (List UInt8)) : Field :=
  { intField ['b'] with noDefaultValue := literal.isNone, defaultRecord := literal }

/-- `ALTER TABLE ... ALTER COLUMN a SET DEFAULT 'x', ALTER COLUMN b DROP DEFAULT` for a table with the
columns `id`, `a` and `b`. -/
def setAndDrop : AlterInplaceInfo where
  oldTable := [intKey ['i', 'd'], varcharField [97], intDefault (some [51])]
  newTable := [intKey ['i', 'd'], varcharField [120], intDefault none]
  createList :=
    [⟨['i', 'd'], some (intKey ['i', 'd']), none, true, true, false⟩,
      ⟨['a'], some (varcharField [97]), none, false, false, false⟩,
      ⟨['b'], some (intDefault (some [51])), none, false, true, false⟩]
  dropList := []
  changeColumn := false
  changeColumnDefault := true
  addIndex := false
  columnOrder := false
  errorIfNotEmpty := false
  databaseChanged := false
  hasPrimaryKey := true
  old_nodup := by decide
  new_nodup := by decide
  created := .cons ⟨rfl, rfl⟩ (.cons ⟨rfl, rfl⟩ (.cons ⟨rfl, rfl⟩ .nil))
  createList_ne := List.cons_ne_nil _ _
  field_mem := by decide
  field_inj := by
    have hkeys : intKey ['i', 'd'] ≠ varcharField [97] ∧
        intKey ['i', 'd'] ≠ intDefault (some [51]) ∧
        varcharField [97] ≠ intDefault (some [51]) := by decide
    simp [hkeys, hkeys.1.symm, hkeys.2.1.symm, hkeys.2.2.symm]
  change_field := by decide
  renamed_change := by decide
  drop_mem := by decide
  drop_nodup := by decide

/-- The DuckDB table of `setAndDrop`. -/
def threeColumns : Columns ℕ where
  entries := [⟨['i', 'd'], "INTEGER".toList, true, none, [some 1]⟩,
    ⟨['a'], "VARCHAR".toList, false, some "'a'".toList, [some 2]⟩,
    ⟨['b'], "INTEGER".toList, false, some "'3'".toList, [some 3]⟩]
  nodupKeys := (by decide : [['i', 'd'], ['a'], ['b']].Nodup)

lemma setsDefault_intDefault : SetsDefault (intDefault (some [51])) (intDefault none) where
  same := rfl
  autoIncrement := rfl
  oldExpr := by simp [intDefault, intField]
  newExpr := by simp [intDefault, intField]
  noSequence := rfl

/-- The new default of `a` and the missing one of `b` are carried over, and `id` is as before. -/
theorem changed_defaults_of_set_and_drop :
    ∃ cols', execAll lenientEnv 1 threeColumns
        (setAndDrop.changeColumnDefaultConvertor nocaseSettings).translate = some cols' ∧
      (∃ c, cols'.lookup ['a'] = some c ∧ Denotes (varcharField [120]) c.default) ∧
      (∃ c, cols'.lookup ['b'] = some c ∧ Denotes (intDefault none) c.default) ∧
      cols'.lookup ['i', 'd'] = threeColumns.lookup ['i', 'd'] := by
  have hrun : execAll lenientEnv 1 threeColumns
      (setAndDrop.changeColumnDefaultConvertor nocaseSettings).translate = some _ := rfl
  have hsets := setsDefault_varcharField [97] [120]
  have hchanged := changed_defaults_iff nocaseSettings (fun v => by simp [nocaseSettings]) lenientEnv 1
    setAndDrop (.cons (.inl rfl) (.cons (.inr hsets) (.cons (.inr setsDefault_intDefault) .nil)))
    _ _ hrun
  obtain ⟨ca, hca, -, ha⟩ := hchanged (varcharField [97], varcharField [120])
    (List.mem_cons_of_mem _ List.mem_cons_self) _ rfl
  obtain ⟨cb, hcb, -, hb⟩ := hchanged (intDefault (some [51]), intDefault none)
    (List.mem_cons_of_mem _ (List.mem_cons_of_mem _ List.mem_cons_self)) _ rfl
  obtain ⟨ci, hci, hsame, -⟩ := hchanged (intKey ['i', 'd'], intKey ['i', 'd']) List.mem_cons_self _ rfl
  refine ⟨_, hrun, ⟨ca, hca, (ha hsets rfl).2 ?_⟩,
    ⟨cb, hcb, (hb setsDefault_intDefault rfl).2 ?_⟩,
    hci.trans (congrArg some (hsame rfl))⟩
  · rintro ⟨-, -, -, -, v, w, hv, hw, -, hcmp⟩
    cases hv
    cases hw
    exact absurd hcmp (by decide)
  · rintro ⟨-, hnew, -⟩
    cases hnew

/-- `SET DEFAULT 'A'` for a column with the default 'a' leaves the default of DuckDB 'a'. -/
theorem changed_literal_is_unnoticed :
    Denotes (varcharField [97]) (some "'a'".toList) ∧
    ((setLiteral [97] [65]).changeColumnDefaultConvertor nocaseSettings).translate = [] ∧
    execAll lenientEnv 1 (oneVarchar (some "'a'".toList))
        ((setLiteral [97] [65]).changeColumnDefaultConvertor nocaseSettings).translate =
      some (oneVarchar (some "'a'".toList)) ∧
    ¬Denotes (varcharField [65]) (some "'a'".toList) := by
  have hold : Denotes (varcharField [97]) (some "'a'".toList) := rfl
  refine ⟨hold, rfl, rfl, fun h => ?_⟩
  have heq := (denotes_unchanged_iff (setsDefault_varcharField [97] [65]) hold rfl rfl rfl rfl rfl
    rfl).1 h
  exact absurd heq (by decide)

end AlterInplaceInfo

end DuckdbEngine
