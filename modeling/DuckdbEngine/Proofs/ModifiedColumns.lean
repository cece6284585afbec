/-
Updating the modified columns only.

Outside a batch `update_row` narrows the write set to the columns in which the bytes of
the old and the new record differ, unless there is none.  The UPDATE that sets these
columns does what the one that sets all columns does: the columns it leaves alone hold
their new values already (`narrowed_update_eq_full`).
-/
import DuckdbEngine.Handler.RecordBytes
import DuckdbEngine.Proofs.RowSpec

namespace DuckdbEngine.RecordBytes.Layout

variable {V : Type} [DecidableEq V] (T : Layout V) (m : Memory)

omit [DecidableEq V] in
/-- Some column has been modified. -/
def calcRowDifference (oldRow newRow : ℕ) : Bool :=
  (List.range T.table.fields).any fun i => (T.field i).calcFieldDifference m oldRow newRow

omit [DecidableEq V] in
/-- The write set that the UPDATE is built with. -/
def narrow (oldRow newRow : ℕ) (ws : ℕ → Bool) : ℕ → Bool :=
  if T.calcRowDifference m oldRow newRow then
    fun i => (T.field i).calcFieldDifference m oldRow newRow
  else ws

variable {T m}

omit [DecidableEq V] in
/-- The UPDATE has a column to set if one has been modified or the statement sets one. -/
lemma exists_narrow {oldRow newRow : ℕ} {ws : ℕ → Bool}
    (h : T.calcRowDifference m oldRow newRow = true ∨ ∃ i < T.table.fields, ws i = true) :
    ∃ i < T.table.fields, T.narrow m oldRow newRow ws i = true := by
  unfold narrow
  split
  · next hdiff => simpa [calcRowDifference] using hdiff
  · next hdiff => exact h.resolve_left hdiff

omit [DecidableEq V] in
/-- A column outside of the narrowed write set has its old value. -/
lemma fieldVal_eq_of_narrow {i oldRow newRow : ℕ} {ws : ℕ → Bool} (hi : i < T.table.fields)
    (hold : T.BlobsFit m oldRow) (hnew : T.BlobsFit m newRow)
    (h : T.narrow m oldRow newRow ws i = false) :
    T.table.fieldVal (T.recordOf m oldRow) (T.recordOf m oldRow) i =
      T.table.fieldVal (T.recordOf m newRow) (T.recordOf m newRow) i := by
  refine fieldVal_eq_of_unmodified hi hold hnew ?_
  unfold narrow at h
  split at h
  · exact h
  · next hdiff =>
      -- nothing has been modified at all
      simp only [calcRowDifference, List.any_eq_true, List.mem_range, not_exists, not_and,
        Bool.not_eq_true] at hdiff
      exact hdiff i hi

/-- What an UPDATE does to a table in which the row with the old key is the old record: with any
write set that has the modified columns the row becomes the new record. -/
lemma eval_updateConvertor {t : TableDef V} {pk : List ℕ} (hpk : t.primaryKey = some pk)
    {name : TableName} {ws : ℕ → Bool} {old new : Record V}
    (hne : ∃ i < t.fields, ws i = true)
    (hws : ∀ i < t.fields, ws i = false → t.fieldVal old old i = t.fieldVal new new i)
    {st : Store V} (hst : ∀ r ∈ st.tables name, keyOf pk r = keyOf pk (t.rowOf old) →
      r = t.rowOf old) (schema : Name) :
    (t.updateConvertor name ws new old).eval schema st =
      some (st.setTable name
        ((st.tables name).filter (fun r => keyOf pk r ≠ keyOf pk (t.rowOf old)) +
          ((st.tables name).filter fun r => keyOf pk r = keyOf pk (t.rowOf old)).map
            fun _ => t.rowOf new)) := by
  have hfields : (t.writeFields ws).isEmpty = false := by
    obtain ⟨i, hi, hw⟩ := hne
    rw [List.isEmpty_eq_false_iff_exists_mem]
    exact ⟨i, List.mem_filter.2 ⟨List.mem_range.2 hi, hw⟩⟩
  have hset : t.setWritten ws new (t.rowOf old) = t.rowOf new := by
    refine TableDef.setWritten_eq fun i hi hw => ?_
    rw [TableDef.rowOf, t.getElem?_image hi, Option.join_some, hws i hi hw]
  rw [TableDef.updateConvertor, hfields]
  simp only [Bool.false_eq_true, if_false, Stmt.eval, ← Bool.not_eq_true,
    TableDef.whereClause_eq_true_iff hpk]
  congr 3
  refine Multiset.map_congr rfl fun r hr => ?_
  obtain ⟨hmem, hkey⟩ := Multiset.mem_filter.1 hr
  rw [hst r hmem hkey, hset]

/-- The UPDATE of the modified columns and the UPDATE of all columns turn the stored row into the
new record, also where the primary key is modified, and do nothing else. -/
theorem narrowed_update_eq_full (T : Layout V) (m : Memory) {pk : List ℕ}
    (hpk : T.table.primaryKey = some pk) (name : TableName) (oldRow newRow : ℕ)
    (hold : T.BlobsFit m oldRow) (hnew : T.BlobsFit m newRow) (ws : ℕ → Bool)
    (hws : T.calcRowDifference m oldRow newRow = true ∨ ∃ i < T.table.fields, ws i = true)
    (st : Store V)
    (hst : ∀ r ∈ st.tables name, keyOf pk r = keyOf pk (T.table.rowOf (T.recordOf m oldRow)) →
      r = T.table.rowOf (T.recordOf m oldRow)) (schema : Name) :
    ∃ st', (T.table.updateConvertor name (T.narrow m oldRow newRow ws) (T.recordOf m newRow)
        (T.recordOf m oldRow)).eval schema st = some st' ∧
      (T.table.updateConvertor name (fun _ => true) (T.recordOf m newRow)
        (T.recordOf m oldRow)).eval schema st = some st' ∧
      st' = st.setTable name
        ((st.tables name).filter
            (fun r => keyOf pk r ≠ keyOf pk (T.table.rowOf (T.recordOf m oldRow))) +
          ((st.tables name).filter
            fun r => keyOf pk r = keyOf pk (T.table.rowOf (T.recordOf m oldRow))).map
            fun _ => T.table.rowOf (T.recordOf m newRow)) := by
  refine ⟨_, ?_, ?_, rfl⟩
  · exact eval_updateConvertor hpk (exists_narrow hws)
      (fun i hi h => fieldVal_eq_of_narrow hi hold hnew h) hst schema
  · obtain ⟨i, hi, -⟩ := exists_narrow hws
    refine eval_updateConvertor hpk ⟨i, hi, ?_⟩ (fun j hj h => ?_) hst schema
    · rfl
    · cases h

/-- A table with a key of one byte and a nullable VARCHAR with a length of one byte. -/
def keyAndText : Layout (List UInt8) where
  table := .keyed 1
  field i :=
    if i = 0 then ⟨1, .fixed 1, none, by decide⟩ else ⟨2, .varchar 1, some (0, 1), by decide⟩
  value _ := id
  nullable_eq i hi := by
    obtain rfl | rfl : i = 0 ∨ i = 1 := by simp [TableDef.keyed] at hi; omega
    · rfl
    · rfl

/-- The record (7, NULL) at the address 0 and the record (8, 'B') at the address 8. -/
def twoRecords : Memory := fun p => [1, 7, 0, 0, 0, 0, 0, 0, 0, 8, 1, 66].getD p 0

theorem narrowed_update_of_keyChange :
    (keyAndText.table.updateConvertor ⟨[], []⟩ (keyAndText.narrow twoRecords 0 8 fun _ => true)
        (keyAndText.recordOf twoRecords 8) (keyAndText.recordOf twoRecords 0)).eval []
        (.ofTables fun _ => {[some [7], none]}) =
      (keyAndText.table.updateConvertor ⟨[], []⟩ (fun _ => true)
        (keyAndText.recordOf twoRecords 8) (keyAndText.recordOf twoRecords 0)).eval []
        (.ofTables fun _ => {[some [7], none]}) := by
  have hfits (row : ℕ) : keyAndText.BlobsFit twoRecords row := by
    intro i hi n hn
    simp only [keyAndText] at hn
    split at hn <;> cases hn
  obtain ⟨st', hnarrow, hfull, -⟩ := narrowed_update_eq_full keyAndText twoRecords rfl ⟨[], []⟩ 0 8
    (hfits 0) (hfits 8) (fun _ => true) (Or.inl rfl) (.ofTables fun _ => {[some [7], none]})
    (fun r hr _ => (Multiset.mem_singleton.1 hr).trans (by decide)) []
  rw [hnarrow, hfull]

end DuckdbEngine.RecordBytes.Layout
