/-
The queries that are pushed down, as the cross-engine code sees them.

All table references of a statement are linked in one list, in the order in which the
parser met them; each belongs to one SELECT, and the walk over the tables of a SELECT
starts at its first reference and then follows the list to its end.  A WHERE is a
conjunction; its conjuncts know which table numbers of their SELECT they mention.

The factory functions `create_duckdb_select_handler` and `create_duckdb_unit_handler`
decide whether a query is pushed down and collect the names of its external tables.
-/
import Mathlib.Data.Finset.Basic
import DuckdbEngine.Lib.Joins
import DuckdbEngine.Runtime.Table

namespace DuckdbEngine.CrossEngine

open Joins

/-- An opened table of another engine: the address of its TABLE, for each field whether it
is visible, and the rows that a scan reads. -/
structure ExternalTable (V : Type) where
  ptr : ℕ
  visible : List Bool
  rows : List (Row V)
  rows_length : ∀ r ∈ rows, r.length = visible.length

/-- The number of fields. -/
def ExternalTable.fields {V : Type} (t : ExternalTable V) : ℕ := t.visible.length

/-- A conjunct of a WHERE: the table numbers it mentions, and its value for one row of each
table of the SELECT. -/
structure Conjunct (V : Type) where
  usedTables : Finset ℕ
  eval : (ℕ → Row V) → Truth
  eval_congr : ∀ f g, (∀ i ∈ usedTables, f i = g i) → eval f = eval g

variable {V : Type}

/-- The value of a condition: the conjunction of its conjuncts. -/
def evalCond (cs : List (Conjunct V)) (rows : ℕ → Row V) : Truth :=
  Truth.all (cs.map fun c => c.eval rows)

/-- The part of a condition that mentions the table with the number `map` and no other;
`none` if there is none. -/
def makeCondForTable (cond : List (Conjunct V)) (map : ℕ) : Option (List (Conjunct V)) :=
  let cs := cond.filter fun c => c.usedTables = {map}
  if cs.isEmpty then none else some cs

lemma makeCondForTable_getD (cond : List (Conjunct V)) (map : ℕ) :
    (makeCondForTable cond map).getD [] = cond.filter fun c => c.usedTables = {map} := by
  rw [makeCondForTable]
  split
  · simp_all
  · rfl

/-- A TABLE_LIST entry. -/
structure TableRef (V : Type) where
  tableName : Name
  derived : Bool
  table : Option (ExternalTable V)
  /-- The table is one of this engine. -/
  duckdb : Bool
  /-- The number of the table in its SELECT. -/
  map : ℕ
  /-- The SELECT whose FROM clause holds the reference. -/
  select : ℕ

/-- The TABLE of a reference to an external table. -/
def TableRef.external (r : TableRef V) : Option (ExternalTable V) :=
  if r.derived || r.duckdb then none else r.table

lemma TableRef.table_of_external {r : TableRef V} {t : ExternalTable V}
    (h : r.external = some t) : r.table = some t := by
  rw [TableRef.external] at h
  split at h
  · cases h
  · exact h

/-- The statement that is to be pushed down: its table references in `next_global` order and
the WHERE of each SELECT.  The server opens a TABLE of its own for each reference. -/
structure Query (V : Type) where
  queryTables : List (TableRef V)
  cond : ℕ → Option (List (Conjunct V))
  ptr_ne : queryTables.Pairwise fun r r' =>
    ∀ t t', r.table = some t → r'.table = some t' → t.ptr ≠ t'.ptr

/-- The references that a walk from `get_table_list()` along `next_global` meets. -/
def Query.tableList (q : Query V) (sl : ℕ) : List (TableRef V) :=
  q.queryTables.dropWhile fun r => r.select ≠ sl

lemma Query.mem_of_mem_tableList {q : Query V} {sl : ℕ} {r : TableRef V}
    (h : r ∈ q.tableList sl) : r ∈ q.queryTables :=
  (List.dropWhile_suffix _).subset h

/-! ### The factory functions -/

inductive SqlCommand where
  | select
  | insertSelect
  | other
deriving DecidableEq

/-- What the factory functions read of the statement and the session. -/
structure Lex (V : Type) where
  sqlCommand : SqlCommand
  /-- The first entry of `query_tables` for INSERT ... SELECT. -/
  insertTarget : Option (TableRef V)
  dupUpdate : Bool
  hasReturning : Bool
  explicitSystemTime : Bool
  referencesInvisibleFields : Bool
  /-- The text given by `extract_source_query`. -/
  sourceQuery : Option (List Char)
  stmtPrepare : Bool
  crossEngineRyow : Bool
  /-- The SELECT is uncacheable because of side effects. -/
  sideEffect : ℕ → Bool
  query : Query V

/-- The loop of `has_supported_field_layout`: no visible field after an invisible one, and no
invisible one at all unless trailing ones are allowed. -/
def supportedLayoutFrom (allowTrailingInvisible : Bool) : Bool → List Bool → Bool
  | _, [] => true
  | foundInvisible, true :: fs =>
      if foundInvisible then false else supportedLayoutFrom allowTrailingInvisible foundInvisible fs
  | _, false :: fs =>
      if allowTrailingInvisible then supportedLayoutFrom allowTrailingInvisible true fs else false

def hasSupportedFieldLayout (t : ExternalTable V) (allowTrailingInvisible : Bool) : Bool :=
  supportedLayoutFrom allowTrailingInvisible false t.visible

/-- The table loop of `can_pushdown_to_duckdb`: the names of the external tables so far and
whether a DuckDB table was met; `none` if a table has an unsupported layout. -/
def collectTables (allow : Bool) : List Name × Bool → List (TableRef V) → Option (List Name × Bool)
  | acc, [] => some acc
  | acc, r :: rs =>
      match r.derived, r.table with
      | true, _ => collectTables allow acc rs
      | _, none => collectTables allow acc rs
      | false, some t =>
          if r.duckdb then collectTables allow (acc.1, true) rs
          else if hasSupportedFieldLayout t allow then
            collectTables allow (acc.1 ++ [r.tableName], acc.2) rs
          else none

/-- The names of the external tables if the SELECTs can be pushed down. -/
def canPushdown (q : Query V) (allow : Bool) (sls : List ℕ) : Option (List Name) :=
  match collectTables allow ([], false) (sls.flatMap q.tableList) with
  | some (names, true) => some names
  | _ => none

namespace Lex

variable (lex : Lex V)

def hasDuckdbInsertTarget : Bool :=
  lex.sqlCommand = .insertSelect &&
    match lex.insertTarget with
    | none => true
    | some r => r.table.isNone || r.duckdb

def hasUnsupportedInsertSelectClauses : Bool :=
  lex.sqlCommand = .insertSelect && (lex.dupUpdate || lex.hasReturning)

/-- What both factory functions check before they look at the text. -/
def declined : Bool :=
  lex.sqlCommand = .other || lex.hasDuckdbInsertTarget || lex.hasUnsupportedInsertSelectClauses ||
    lex.explicitSystemTime || lex.referencesInvisibleFields

end Lex

/-- A select handler: the SELECTs it registers the tables of, one for a plain SELECT and all
of them for a UNION, the external tables it found and the text of the query. -/
structure SelectHandler where
  selects : List ℕ
  externalTables : List Name
  queryString : List Char
deriving DecidableEq

def SelectHandler.hasCrossEngine (h : SelectHandler) : Bool := !h.externalTables.isEmpty

def createDuckdbSelectHandler (lex : Lex V) (selLex : ℕ) : Option SelectHandler :=
  if lex.declined then none
  else
    match lex.sourceQuery with
    | none => none
    | some query =>
        match canPushdown lex.query (!lex.crossEngineRyow) [selLex] with
        | none => none
        | some names => if lex.sideEffect selLex then none else some ⟨[selLex], names, query⟩

def createDuckdbUnitHandler (lex : Lex V) (unit : List ℕ) : Option SelectHandler :=
  if lex.declined || lex.stmtPrepare then none
  else
    match lex.sourceQuery with
    | none => none
    | some query =>
        match canPushdown lex.query (!lex.crossEngineRyow) unit with
        | none => none
        | some names => some ⟨unit, names, query⟩

/-- The handler pushes the statement down. -/
def PushedDown (lex : Lex V) (h : SelectHandler) : Prop :=
  (∃ sl, createDuckdbSelectHandler lex sl = some h) ∨
    ∃ unit, createDuckdbUnitHandler lex unit = some h

lemma collectTables_names {allow : Bool} {rs : List (TableRef V)} {acc acc' : List Name × Bool}
    (h : collectTables allow acc rs = some acc') :
    acc'.1 = acc.1 ++ (rs.filter fun r => r.external.isSome).map TableRef.tableName := by
  induction rs generalizing acc with
  | nil =>
      cases h
      simp
  | cons r rs ih =>
      rw [collectTables] at h
      split at h
      case h_1 hd => simpa [TableRef.external, hd] using ih h
      case h_2 ht _ => simpa [TableRef.external, ht] using ih h
      case h_3 t hd ht =>
          by_cases hr : r.duckdb = true
          · rw [if_pos hr] at h
            simpa [TableRef.external, hr] using ih h
          rw [if_neg hr] at h
          split at h
          · simpa [TableRef.external, hr, hd, ht] using ih h
          · cases h

lemma externalTables_of_canPushdown {q : Query V} {allow : Bool} {sls : List ℕ} {names : List Name}
    (h : canPushdown q allow sls = some names) :
    names = ((sls.flatMap q.tableList).filter fun r => r.external.isSome).map TableRef.tableName := by
  rw [canPushdown] at h
  split at h
  case h_1 names' hc =>
      cases h
      simpa using collectTables_names hc
  case h_2 => cases h

/-- The handler's table names are those of the external references its walks meet. -/
lemma PushedDown.externalTables {lex : Lex V} {h : SelectHandler} (hp : PushedDown lex h) :
    h.externalTables =
      ((h.selects.flatMap lex.query.tableList).filter fun r => r.external.isSome).map
        TableRef.tableName := by
  rcases hp with ⟨sl, hc⟩ | ⟨unit, hc⟩
  · rw [createDuckdbSelectHandler] at hc
    split at hc <;> try cases hc
    split at hc <;> try cases hc
    split at hc <;> try cases hc
    case h_2 names hn =>
        split at hc <;> cases hc
        exact externalTables_of_canPushdown hn
  · rw [createDuckdbUnitHandler] at hc
    split at hc <;> try cases hc
    split at hc <;> try cases hc
    split at hc <;> cases hc
    case h_2 names hn => exact externalTables_of_canPushdown hn

end DuckdbEngine.CrossEngine
