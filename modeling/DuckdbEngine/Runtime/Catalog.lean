/-
The catalog of tables and sequences.

DuckDB looks names up without regard to case, so the catalog is kept under
case-folded names.  A table entry records the sequence that the default of its
AUTO_INCREMENT column draws from, if it has such a column.  That reference is a
dependency: the sequence must exist when the table is created and cannot be
dropped while the table refers to it.  Renaming a table changes the name of its
entry and nothing else.
-/
import DuckdbEngine.Lib.KeyedList
import DuckdbEngine.Runtime.Table

namespace DuckdbEngine

/-- Catalog lookups ignore the case of a name. -/
def foldCase (n : Name) : Name := n.map Char.toLower

/-- The catalog key of a qualified name. -/
def TableName.fold (t : TableName) : TableName := ⟨foldCase t.dbName, foldCase t.tableName⟩

/-- A name that the catalog knows: what is left of a name without its case. -/
structure CatalogName where
  name : Name
  spelled : ∃ n, foldCase n = name
deriving DecidableEq

/-- The name that is looked up for a name as it is written. -/
def CatalogName.of (n : Name) : CatalogName := ⟨foldCase n, n, rfl⟩

instance : Coe Name CatalogName := ⟨CatalogName.of⟩

lemma CatalogName.of_eq_of_iff {m n : Name} : of m = of n ↔ foldCase m = foldCase n :=
  CatalogName.mk.injEq .. ▸ Iff.rfl

/-- The text `mdb_autoinc_`. -/
def autoincPrefix : Name := ['m', 'd', 'b', '_', 'a', 'u', 't', 'o', 'i', 'n', 'c', '_']

/-- The name of the sequence behind the AUTO_INCREMENT column of a table. -/
def autoincSequenceName (table : Name) : Name := autoincPrefix ++ table

/-- The qualified name of that sequence. -/
def TableName.autoincSequence (t : TableName) : TableName :=
  ⟨t.dbName, autoincSequenceName t.tableName⟩

/-- The catalog entry of a table. -/
structure TableEntry where
  name : TableName
  /-- The sequence in the default of the AUTO_INCREMENT column. -/
  sequence : Option TableName

/-- The tables and sequences of a database, under case-folded names. -/
structure Catalog where
  tables : KeyedList TableEntry.name
  sequences : List TableName

namespace Catalog

/-- The catalog of a new database. -/
def empty : Catalog := ⟨KeyedList.empty, []⟩

/-- The entries are kept in no particular order. -/
def store (cat : Catalog) (e : TableEntry) : KeyedList TableEntry.name :=
  cat.tables.put (fun _ _ => True) e

/-- CREATE SEQUENCE IF NOT EXISTS. -/
def createSequence (cat : Catalog) (s : TableName) : Catalog :=
  if s.fold ∈ cat.sequences then cat else { cat with sequences := s.fold :: cat.sequences }

/-- CREATE TABLE IF NOT EXISTS; the sequence named in a column default is looked
up when the statement is bound. -/
def createTable (cat : Catalog) (t : TableName) (sequence : Option TableName) : Option Catalog :=
  if (cat.tables.find t.fold).isSome then some cat
  else if ∀ s ∈ sequence, s.fold ∈ cat.sequences then
    some { cat with tables := cat.store ⟨t.fold, sequence.map TableName.fold⟩ }
  else none

/-- ALTER TABLE ... RENAME TO. -/
def renameTable (cat : Catalog) (old new : TableName) : Option Catalog :=
  match cat.tables.find old.fold with
  | none => none
  | some e =>
      if (cat.tables.find new.fold).isSome then none
      else
        some { cat with
          tables := (cat.tables.erase old.fold).put (fun _ _ => True) { e with name := new.fold } }

/-- DROP TABLE IF EXISTS. -/
def dropTable (cat : Catalog) (t : TableName) : Catalog :=
  { cat with tables := cat.tables.erase t.fold }

/-- DROP SEQUENCE IF EXISTS, refused while a column default refers to it. -/
def dropSequence (cat : Catalog) (s : TableName) : Option Catalog :=
  if ∃ e ∈ cat.tables.items, e.sequence = some s.fold then none
  else some { cat with sequences := cat.sequences.filter (· ≠ s.fold) }

end Catalog

/-! ### Folded names -/

lemma foldCase_autoincPrefix : foldCase autoincPrefix = autoincPrefix := by decide

lemma TableName.fold_autoincSequence (t : TableName) :
    t.autoincSequence.fold = t.fold.autoincSequence := by
  have h : foldCase (autoincSequenceName t.tableName)
      = autoincSequenceName (foldCase t.tableName) := by
    rw [autoincSequenceName, foldCase, List.map_append, ← foldCase, ← foldCase,
      foldCase_autoincPrefix, autoincSequenceName]
  simp only [TableName.fold, TableName.autoincSequence, h]

lemma TableName.autoincSequence_injective : Function.Injective TableName.autoincSequence := by
  rintro ⟨d, t⟩ ⟨d', t'⟩ h
  obtain ⟨hd, ht⟩ := TableName.mk.inj h
  exact congrArg₂ TableName.mk hd (List.append_cancel_left ht)

end DuckdbEngine
