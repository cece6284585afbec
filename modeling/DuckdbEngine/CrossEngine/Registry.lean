/-
The registry of external tables.

`init_scan` fills two thread-local maps, from table names to TABLEs and to WHERE
texts, by walking over the tables of the SELECTs of the handler; `mdb_scan_bind` looks
a reference up by the name under which it appears in the text.  The maps are emptied
at the end of a scan, but not on every error path, so a query can find them filled.

A reference finds what it should exactly if no other reference has its name, a walk
reaches it, and the last condition that was put under its name consists of conjuncts
of its own SELECT on this reference.
-/
import Mathlib.Data.List.Pairwise
import DuckdbEngine.Lib.LastWrite
import DuckdbEngine.CrossEngine.Scan

namespace DuckdbEngine.CrossEngine

open Joins

variable {V : Type}

/-- The thread-local registries. -/
structure Registry (V : Type) where
  externalTables : Name → Option (ExternalTable V)
  externalWhere : Name → Option (List (Conjunct V))
  crossEngineRyow : Bool

namespace Registry

/-- `clear_external_tables`, also the state of a new thread. -/
def empty : Registry V := ⟨fun _ => none, fun _ => none, false⟩

def registerExternalTable (reg : Registry V) (name : Name) (t : ExternalTable V) : Registry V :=
  { reg with externalTables := LastWrite.write reg.externalTables (name, t) }

def registerExternalWhere (reg : Registry V) (name : Name) (cs : List (Conjunct V)) : Registry V :=
  { reg with externalWhere := LastWrite.write reg.externalWhere (name, cs) }

/-- `none` is the exception for a name that is not registered. -/
def mdbScanBind (reg : Registry V) (key : Name) : Option (MdbScanBindData V) :=
  (reg.externalTables key).map fun t => ⟨t, reg.externalWhere key, reg.crossEngineRyow⟩

/-- The body of the loop of `register_tables_from_sel`, for a SELECT with the given WHERE. -/
def registerRef (cond : Option (List (Conjunct V))) (reg : Registry V) (r : TableRef V) :
    Registry V :=
  match r.external with
  | none => reg
  | some t =>
      let reg := reg.registerExternalTable r.tableName t
      match cond.bind fun cs => makeCondForTable cs r.map with
      | none => reg
      | some cs => reg.registerExternalWhere r.tableName cs

def registerTablesFromSel (q : Query V) (reg : Registry V) (sl : ℕ) : Registry V :=
  (q.tableList sl).foldl (registerRef (q.cond sl)) reg

/-- The registrations of `init_scan`. -/
def initScan (lex : Lex V) (h : SelectHandler) (reg : Registry V) : Registry V :=
  if h.hasCrossEngine then
    h.selects.foldl (registerTablesFromSel lex.query)
      { reg with crossEngineRyow := lex.crossEngineRyow }
  else reg

end Registry

/-! ### The entries that are written -/

/-- The entry of a reference for the map of tables. -/
def TableRef.tableEntry (r : TableRef V) : Option (Name × ExternalTable V) :=
  r.external.map fun t => (r.tableName, t)

/-- The part of the WHERE of the SELECT `sl` that mentions the table number of the reference
only. -/
def Query.tableCond (q : Query V) (sl : ℕ) (r : TableRef V) : Option (List (Conjunct V)) :=
  (q.cond sl).bind fun cs => makeCondForTable cs r.map

/-- The entry of a reference for the map of conditions, from the WHERE of the SELECT `sl`. -/
def Query.whereEntry (q : Query V) (sl : ℕ) (r : TableRef V) : Option (Name × List (Conjunct V)) :=
  if r.external.isSome then (q.tableCond sl r).map (r.tableName, ·) else none

/-- All entries of the map of tables, in order. -/
def Query.tableEntries (q : Query V) (sls : List ℕ) : List (Name × ExternalTable V) :=
  sls.flatMap fun sl => (q.tableList sl).filterMap TableRef.tableEntry

/-- All entries of the map of conditions, in order. -/
def Query.whereEntries (q : Query V) (sls : List ℕ) : List (Name × List (Conjunct V)) :=
  sls.flatMap fun sl => (q.tableList sl).filterMap (q.whereEntry sl)

namespace Registry

lemma externalTables_foldl_registerRef (cond : Option (List (Conjunct V))) (rs : List (TableRef V))
    (reg : Registry V) :
    (rs.foldl (registerRef cond) reg).externalTables =
      (rs.filterMap TableRef.tableEntry).foldl LastWrite.write reg.externalTables := by
  induction rs generalizing reg with
  | nil => rfl
  | cons r rs ih =>
      rw [List.foldl_cons, ih, registerRef]
      cases hr : r.external with
      | none => simp [TableRef.tableEntry, hr]
      | some t =>
          simp only [TableRef.tableEntry, hr, Option.map_some, List.filterMap_cons,
            List.foldl_cons]
          split <;> rfl

lemma externalWhere_foldl_registerRef (q : Query V) (sl : ℕ) (rs : List (TableRef V))
    (reg : Registry V) :
    (rs.foldl (registerRef (q.cond sl)) reg).externalWhere =
      (rs.filterMap (q.whereEntry sl)).foldl LastWrite.write reg.externalWhere := by
  induction rs generalizing reg with
  | nil => rfl
  | cons r rs ih =>
      rw [List.foldl_cons, ih, registerRef, ← Query.tableCond]
      cases hr : r.external with
      | none => simp [Query.whereEntry, hr]
      | some t =>
          cases hc : q.tableCond sl r with
          | none => simp [Query.whereEntry, hr, hc, registerExternalTable]
          | some cs =>
              simp [Query.whereEntry, hr, hc, registerExternalTable, registerExternalWhere]

lemma crossEngineRyow_foldl_registerRef (cond : Option (List (Conjunct V)))
    (rs : List (TableRef V)) (reg : Registry V) :
    (rs.foldl (registerRef cond) reg).crossEngineRyow = reg.crossEngineRyow := by
  induction rs generalizing reg with
  | nil => rfl
  | cons r rs ih =>
      rw [List.foldl_cons, ih, registerRef]
      split
      · rfl
      · split <;> rfl

lemma foldl_registerTablesFromSel (q : Query V) (sls : List ℕ) (reg : Registry V) :
    sls.foldl (registerTablesFromSel q) reg =
      ⟨(q.tableEntries sls).foldl LastWrite.write reg.externalTables,
        (q.whereEntries sls).foldl LastWrite.write reg.externalWhere, reg.crossEngineRyow⟩ := by
  induction sls generalizing reg with
  | nil => rfl
  | cons sl sls ih =>
      rw [List.foldl_cons, ih, registerTablesFromSel, externalTables_foldl_registerRef,
        externalWhere_foldl_registerRef, crossEngineRyow_foldl_registerRef]
      simp [Query.tableEntries, Query.whereEntries, List.foldl_append]

end Registry

lemma Query.mem_tableEntries {q : Query V} {sls : List ℕ} {n : Name} {t : ExternalTable V} :
    (n, t) ∈ q.tableEntries sls ↔
      ∃ sl ∈ sls, ∃ r ∈ q.tableList sl, r.external = some t ∧ r.tableName = n := by
  simp [Query.tableEntries, TableRef.tableEntry, Option.map_eq_some_iff]

/-- What the handler's walks leave under a name. -/
lemma initScan_lookup {lex : Lex V} {h : SelectHandler} (hp : PushedDown lex h)
    (reg : Registry V) (n : Name) :
    (reg.initScan lex h).externalTables n =
        (LastWrite.last (lex.query.tableEntries h.selects) n).or (reg.externalTables n) ∧
      (reg.initScan lex h).externalWhere n =
        (LastWrite.last (lex.query.whereEntries h.selects) n).or (reg.externalWhere n) := by
  rw [Registry.initScan]
  split
  · rw [Registry.foldl_registerTablesFromSel]
    exact ⟨LastWrite.foldl_write _ _ _, LastWrite.foldl_write _ _ _⟩
  case isFalse hno =>
      -- Without external tables on the walks there is nothing to register.
      have hnone : ∀ sl ∈ h.selects, ∀ r ∈ lex.query.tableList sl, r.external = none := by
        rw [SelectHandler.hasCrossEngine, hp.externalTables] at hno
        have hall : ∀ r, ∀ sl ∈ h.selects, r ∈ lex.query.tableList sl → r.external = none := by
          simpa [List.filter_eq_nil_iff] using hno
        exact fun sl hsl r hr => hall r sl hsl hr
      have ht : lex.query.tableEntries h.selects = [] := by
        simp only [Query.tableEntries, List.flatMap_eq_nil_iff, List.filterMap_eq_nil_iff]
        intro sl hsl r hr
        simp [TableRef.tableEntry, hnone sl hsl r hr]
      have hw : lex.query.whereEntries h.selects = [] := by
        simp only [Query.whereEntries, List.flatMap_eq_nil_iff, List.filterMap_eq_nil_iff]
        intro sl hsl r hr
        simp [Query.whereEntry, hnone sl hsl r hr]
      rw [ht, hw]
      exact ⟨rfl, rfl⟩

/-! ### References that do not interfere -/

namespace Query

variable (q : Query V)

/-- The conjuncts of the WHERE of its own SELECT that constrain the reference. -/
def ownConjuncts (r : TableRef V) : List (Conjunct V) :=
  ((q.cond r.select).getD []).filter fun c => c.usedTables = {r.map}

/-- Every external reference is bound to its own TABLE, with conjuncts of its own SELECT on this
reference only, and no two references share a handler cursor when they are read directly. -/
structure NonInterfering (reg : Registry V) : Prop where
  own : ∀ r ∈ q.queryTables, ∀ t, r.external = some t →
    ∃ d, reg.mdbScanBind r.tableName = some d ∧ d.table = t ∧
      ∀ c ∈ d.whereSql.getD [], c ∈ q.ownConjuncts r
  cursors : q.queryTables.Pairwise fun r r' => r.external.isSome → r'.external.isSome →
    ∀ d d', reg.mdbScanBind r.tableName = some d → reg.mdbScanBind r'.tableName = some d' →
      d.direct = true → d.table.ptr ≠ d'.table.ptr

/-- The walk of the SELECT meets the reference. -/
def reaches (sl : ℕ) (r : TableRef V) : Bool :=
  (q.tableList sl).any fun r' =>
    (r'.external.map ExternalTable.ptr).isSome &&
      r'.external.map ExternalTable.ptr = r.external.map ExternalTable.ptr

/-- What the last of the SELECTs that reach the reference and have conjuncts on its table number
puts under its name. -/
def lastCond (sls : List ℕ) (r : TableRef V) : Option (List (Conjunct V)) :=
  ((sls.filter fun sl => q.reaches sl r).filterMap fun sl => q.tableCond sl r).getLast?

/-- No two external references have one table name. -/
def DistinctNames : Prop :=
  q.queryTables.Pairwise fun r r' =>
    r.external.isSome → r'.external.isSome → r.tableName ≠ r'.tableName

/-- The condition on the query, the SELECTs of the handler and the registry found. -/
structure Separated (sls : List ℕ) (reg : Registry V) : Prop where
  names : q.DistinctNames
  reached : ∀ r ∈ q.queryTables, ∀ t, r.external = some t →
    (∃ sl ∈ sls, q.reaches sl r = true) ∨ reg.externalTables r.tableName = some t
  conds : ∀ r ∈ q.queryTables, r.external.isSome →
    ∀ c ∈ ((q.lastCond sls r).or (reg.externalWhere r.tableName)).getD [], c ∈ q.ownConjuncts r

variable {q}

/-- Two references with one TABLE are the same. -/
lemma eq_of_ptr {r r' : TableRef V} (hr : r ∈ q.queryTables) (hr' : r' ∈ q.queryTables)
    {t t' : ExternalTable V} (ht : r.external = some t) (ht' : r'.external = some t')
    (hptr : t.ptr = t'.ptr) : r = r' := by
  by_contra hne
  have hsymm : Std.Symm fun r r' : TableRef V =>
      ∀ t t', r.table = some t → r'.table = some t' → t.ptr ≠ t'.ptr :=
    ⟨fun _ _ h t t' ht ht' => (h t' t ht' ht).symm⟩
  exact q.ptr_ne.forall hr hr' hne t t' (TableRef.table_of_external ht)
    (TableRef.table_of_external ht') hptr

/-- Two references with different names everywhere are the same if they have one name. -/
lemma eq_of_tableName (hnames : q.DistinctNames) {r r' : TableRef V} (hr : r ∈ q.queryTables)
    (hr' : r' ∈ q.queryTables) (hs : r.external.isSome) (hs' : r'.external.isSome)
    (h : r.tableName = r'.tableName) : r = r' := by
  by_contra hne
  have hsymm : Std.Symm fun r r' : TableRef V =>
      r.external.isSome → r'.external.isSome → r.tableName ≠ r'.tableName :=
    ⟨fun _ _ h hs hs' => (h hs' hs).symm⟩
  exact List.Pairwise.forall hnames hr hr' hne hs hs' h

lemma reaches_iff {sl : ℕ} {r : TableRef V} {t : ExternalTable V} (hr : r ∈ q.queryTables)
    (ht : r.external = some t) : q.reaches sl r = true ↔ r ∈ q.tableList sl := by
  simp only [reaches, List.any_eq_true, Bool.and_eq_true, decide_eq_true_eq]
  constructor
  · rintro ⟨r', hr', hsome, hptr⟩
    obtain ⟨t', ht'⟩ : ∃ t', r'.external = some t' := by
      simpa [Option.isSome_iff_exists] using hsome
    rw [ht', ht, Option.map_some, Option.map_some, Option.some_inj] at hptr
    exact eq_of_ptr (q.mem_of_mem_tableList hr') hr ht' ht hptr ▸ hr'
  · intro h
    exact ⟨r, h, by simp [ht], rfl⟩

lemma filter_eq_singleton {α : Type*} {p : α → Bool} {l : List α}
    (hl : l.Pairwise fun a b => p a = true → p b = true → False) {a : α} (ha : a ∈ l)
    (hp : p a = true) : l.filter p = [a] := by
  induction l with
  | nil => cases ha
  | cons b l ih =>
      obtain ⟨hb, hl⟩ := List.pairwise_cons.1 hl
      rcases List.mem_cons.1 ha with rfl | ha
      · rw [List.filter_cons_of_pos hp, List.filter_eq_nil_iff.2 fun c hc => hb c hc hp]
      · rw [List.filter_cons_of_neg fun h => hb a ha h hp, ih hl ha]

/-- With different names, the entries under the name of a reference come from it alone. -/
lemma filter_named_eq (hnames : q.DistinctNames) {r : TableRef V} (hr : r ∈ q.queryTables)
    {t : ExternalTable V} (ht : r.external = some t) (sl : ℕ) :
    (q.tableList sl).filter (fun r' => r'.external.isSome && r'.tableName = r.tableName) =
      if q.reaches sl r then [r] else [] := by
  have hsome : r.external.isSome := by simp [ht]
  have hwalk := List.Pairwise.sublist (List.dropWhile_suffix fun r => r.select ≠ sl).sublist hnames
  change (q.tableList sl).Pairwise _ at hwalk
  split
  case isTrue hreach =>
      refine filter_eq_singleton (hwalk.imp ?_) ((reaches_iff hr ht).1 hreach) (by simp [hsome])
      intro r₁ r₂ hne h₁ h₂
      simp only [Bool.and_eq_true, decide_eq_true_eq] at h₁ h₂
      exact hne h₁.1 h₂.1 (h₁.2.trans h₂.2.symm)
  case isFalse hreach =>
      rw [List.filter_eq_nil_iff]
      intro r' hr' hname
      simp only [Bool.and_eq_true, decide_eq_true_eq] at hname
      refine hreach ((reaches_iff hr ht).2 ?_)
      exact eq_of_tableName hnames (q.mem_of_mem_tableList hr') hr hname.1 hsome hname.2 ▸ hr'

lemma filter_whereEntries (hnames : q.DistinctNames) {r : TableRef V} (hr : r ∈ q.queryTables)
    {t : ExternalTable V} (ht : r.external = some t) (sl : ℕ) :
    ((q.tableList sl).filterMap (q.whereEntry sl)).filter (fun x => x.1 = r.tableName) =
      if q.reaches sl r then ((q.tableCond sl r).map (r.tableName, ·)).toList else [] := by
  have hcomm : ((q.tableList sl).filterMap (q.whereEntry sl)).filter
        (fun x => x.1 = r.tableName) =
      ((q.tableList sl).filter fun r' =>
        r'.external.isSome && r'.tableName = r.tableName).filterMap (q.whereEntry sl) := by
    rw [List.filter_filterMap, List.filterMap_filter]
    refine List.filterMap_congr fun r' _ => ?_
    by_cases hs : r'.external.isSome <;> by_cases hn : r'.tableName = r.tableName <;>
      cases hc : q.tableCond sl r' <;> simp [whereEntry, hs, hn, hc, Option.filter]
  rw [hcomm, filter_named_eq hnames hr ht]
  split
  · cases hc : q.tableCond sl r <;> simp [whereEntry, ht, hc]
  · rfl

lemma last_whereEntries (hnames : q.DistinctNames) {r : TableRef V} (hr : r ∈ q.queryTables)
    {t : ExternalTable V} (ht : r.external = some t) (sls : List ℕ) :
    LastWrite.last (q.whereEntries sls) r.tableName = q.lastCond sls r := by
  have hlist : (q.whereEntries sls).filter (fun x => x.1 = r.tableName) =
      ((sls.filter fun sl => q.reaches sl r).filterMap fun sl => q.tableCond sl r).map
        (r.tableName, ·) := by
    induction sls with
    | nil => rfl
    | cons sl sls ih =>
        rw [whereEntries, List.flatMap_cons, List.filter_append, filter_whereEntries hnames hr ht,
          ← whereEntries, ih]
        by_cases hreach : q.reaches sl r = true
        · cases hc : q.tableCond sl r <;> simp [hreach, hc]
        · simp [hreach]
  rw [LastWrite.last, hlist, List.getLast?_map, Option.map_map, lastCond]
  exact Option.map_id'

end Query

lemma Query.NonInterfering.distinctNames {q : Query V} {reg : Registry V}
    (h : q.NonInterfering reg) : q.DistinctNames := by
  refine q.ptr_ne.imp_of_mem fun {r r'} hr hr' hne hs hs' heq => ?_
  obtain ⟨t, ht⟩ := Option.isSome_iff_exists.1 hs
  obtain ⟨t', ht'⟩ := Option.isSome_iff_exists.1 hs'
  obtain ⟨d, hd, rfl, -⟩ := h.own r hr t ht
  obtain ⟨d', hd', rfl, -⟩ := h.own r' hr' t' ht'
  rw [heq, hd', Option.some_inj] at hd
  exact hne _ _ (TableRef.table_of_external ht) (TableRef.table_of_external ht') (by rw [hd])

/-- Under separation a reference finds its own TABLE: whatever is written under its name is
that TABLE. -/
lemma Query.Separated.externalTables_initScan {lex : Lex V} {h : SelectHandler}
    (hp : PushedDown lex h) {reg : Registry V} (hsep : lex.query.Separated h.selects reg)
    {r : TableRef V} (hr : r ∈ lex.query.queryTables) {t : ExternalTable V}
    (ht : r.external = some t) :
    (reg.initScan lex h).externalTables r.tableName = some t := by
  rw [(initScan_lookup hp reg r.tableName).1]
  have hall : ∀ t', (r.tableName, t') ∈ lex.query.tableEntries h.selects → t' = t := by
    intro t' ht'
    obtain ⟨sl, -, r', hr', hext, hname⟩ := Query.mem_tableEntries.1 ht'
    have heq := Query.eq_of_tableName hsep.names (lex.query.mem_of_mem_tableList hr') hr
      (by simp [hext]) (by simp [ht]) hname
    rw [heq, ht] at hext
    exact (Option.some_inj.1 hext).symm
  cases hlast : LastWrite.last (lex.query.tableEntries h.selects) r.tableName with
  | some t' => rw [hall t' (LastWrite.mem_of_last_eq_some hlast), Option.some_or]
  | none =>
      rcases hsep.reached r hr t ht with ⟨sl, hsl, hreach⟩ | hreg
      · have hmem : (r.tableName, t) ∈ lex.query.tableEntries h.selects :=
          Query.mem_tableEntries.2 ⟨sl, hsl, r, (Query.reaches_iff hr ht).1 hreach, ht, rfl⟩
        rw [LastWrite.last_eq_some_of_forall hmem hall] at hlast
        cases hlast
      · rw [Option.none_or, hreg]

/-- After the registrations of a pushed-down query, its external references do not interfere
exactly if their names differ, each is reached by a walk of the handler (or is what the
registry already holds), and what the last SELECT reaching it registers, or else an earlier
query left behind, are conjuncts of its own SELECT on this reference. -/
theorem nonInterfering_iff_separated {lex : Lex V} {h : SelectHandler} (hp : PushedDown lex h)
    (reg : Registry V) :
    lex.query.NonInterfering (reg.initScan lex h) ↔ lex.query.Separated h.selects reg := by
  have hlook := initScan_lookup hp reg
  constructor
  · intro hni
    have hnames := hni.distinctNames
    refine ⟨hnames, fun r hr t ht => ?_, fun r hr hs c hc => ?_⟩
    · obtain ⟨d, hd, rfl, -⟩ := hni.own r hr t ht
      obtain ⟨t', ht', rfl⟩ := Option.map_eq_some_iff.1 hd
      rw [(hlook r.tableName).1, Option.or_eq_some_iff] at ht'
      rcases ht' with hlast | ⟨-, hreg⟩
      · obtain ⟨sl, hsl, r', hr', ht', -⟩ :=
          Query.mem_tableEntries.1 (LastWrite.mem_of_last_eq_some hlast)
        have heq := Query.eq_of_ptr (lex.query.mem_of_mem_tableList hr') hr ht' ht rfl
        exact Or.inl ⟨sl, hsl, (Query.reaches_iff hr ht).2 (heq ▸ hr')⟩
      · exact Or.inr hreg
    · obtain ⟨t, ht⟩ := Option.isSome_iff_exists.1 hs
      obtain ⟨d, hd, -, hown⟩ := hni.own r hr t ht
      obtain ⟨t', -, rfl⟩ := Option.map_eq_some_iff.1 hd
      rw [← Query.last_whereEntries hnames hr ht, ← (hlook r.tableName).2] at hc
      exact hown c hc
  · intro hsep
    have hbind : ∀ {r t}, r ∈ lex.query.queryTables → r.external = some t →
        (reg.initScan lex h).mdbScanBind r.tableName = some
          ⟨t, (reg.initScan lex h).externalWhere r.tableName,
            (reg.initScan lex h).crossEngineRyow⟩ := fun hr ht => by
      rw [Registry.mdbScanBind, hsep.externalTables_initScan hp hr ht, Option.map_some]
    refine ⟨fun r hr t ht => ⟨_, hbind hr ht, rfl, fun c hc => ?_⟩, ?_⟩
    · rw [(hlook r.tableName).2, Query.last_whereEntries hsep.names hr ht] at hc
      exact hsep.conds r hr (by simp [ht]) c hc
    · refine lex.query.ptr_ne.imp_of_mem fun {r r'} hr hr' hne hs hs' d d' hd hd' _ => ?_
      obtain ⟨t, ht⟩ := Option.isSome_iff_exists.1 hs
      obtain ⟨t', ht'⟩ := Option.isSome_iff_exists.1 hs'
      rw [hbind hr ht, Option.some_inj] at hd
      rw [hbind hr' ht', Option.some_inj] at hd'
      subst hd hd'
      exact hne t t' (TableRef.table_of_external ht) (TableRef.table_of_external ht')

/-! ### Two queries -/

/-- A reference to a table of this engine; its TABLE has address 0. -/
def duckRef : TableRef ℕ where
  tableName := "t_duck".toList
  derived := false
  table := some ⟨0, [true], [], by simp⟩
  duckdb := true
  map := 0
  select := 0

/-- A reference to the external table `t_inno` in the same SELECT. -/
def innoRef (n : ℕ) : TableRef ℕ where
  tableName := "t_inno".toList
  derived := false
  table := some ⟨n, [true], [], by simp⟩
  duckdb := false
  map := n
  select := 0

/-- A plain SELECT without a WHERE, in read-your-own-writes mode. -/
def plainSelect (q : Query ℕ) : Lex ℕ where
  sqlCommand := .select
  insertTarget := none
  dupUpdate := false
  hasReturning := false
  explicitSystemTime := false
  referencesInvisibleFields := false
  sourceQuery := some "SELECT".toList
  stmtPrepare := false
  crossEngineRyow := true
  sideEffect _ := false
  query := q

/-- A reference to the external table `t_aria`. -/
def ariaRef : TableRef ℕ := { innoRef 2 with tableName := "t_aria".toList }

/-- The only column of table `i` has the value `n`. -/
def hasNumber (i n : ℕ) : Conjunct ℕ where
  usedTables := {i}
  eval rows := some (rows i = [some n])
  eval_congr f g h := by rw [h i (Finset.mem_singleton_self i)]

/-- The rows of the two tables are equal. -/
def sameRow (i j : ℕ) : Conjunct ℕ where
  usedTables := {i, j}
  eval rows := some (rows i = rows j)
  eval_congr f g h := by rw [h i (by simp), h j (by simp)]

/-- `t_duck d JOIN t_inno a JOIN t_aria b WHERE a.id = 1 AND b.id = 1 AND a.id = b.id`. -/
def twoRefs : Query ℕ where
  queryTables := [duckRef, innoRef 1, ariaRef]
  cond _ := some [hasNumber 1 1, hasNumber 2 1, sameRow 1 2]
  ptr_ne := by
    refine List.Pairwise.cons ?_ (List.pairwise_pair.2 (by rintro _ _ ⟨⟩ ⟨⟩; decide))
    rintro r hr _ t ⟨⟩ ht
    rcases List.mem_pair.1 hr with rfl | rfl <;> cases ht <;> decide

/-- `t_duck d JOIN t_inno a ON d.id = a.id JOIN t_inno b ON a.id = b.id`. -/
def selfJoin : Query ℕ where
  queryTables := [duckRef, innoRef 1, innoRef 2]
  cond _ := none
  ptr_ne := by
    refine List.Pairwise.cons ?_ (List.pairwise_pair.2 (by rintro _ _ ⟨⟩ ⟨⟩; decide))
    rintro r hr _ t ⟨⟩ ht
    rcases List.mem_pair.1 hr with rfl | rfl <;> cases ht <;> decide

/-- What the only SELECT registers for a reference are its own conjuncts. -/
lemma twoRefs_lastCond {r : TableRef ℕ} (hr : r ∈ twoRefs.queryTables) :
    ∀ c ∈ (twoRefs.lastCond [0] r).getD [], c ∈ twoRefs.ownConjuncts r := by
  have hsl : r.select = 0 := by
    simp only [twoRefs, List.mem_cons, List.not_mem_nil, or_false] at hr
    rcases hr with rfl | rfl | rfl <;> rfl
  intro c hc
  rw [Query.lastCond] at hc
  cases hreach : twoRefs.reaches 0 r with
  | false => simp [hreach] at hc
  | true =>
      have hlast : ([0].filterMap fun sl => twoRefs.tableCond sl r).getLast? =
          twoRefs.tableCond 0 r := by
        cases htc : twoRefs.tableCond 0 r <;> simp [htc]
      have hwalk : [0].filter (fun sl => twoRefs.reaches sl r) = [0] := by simp [hreach]
      rw [hwalk, hlast] at hc
      rw [Query.ownConjuncts, hsl]
      exact makeCondForTable_getD _ _ ▸ hc

/-- Two external tables with different names, each with a conjunct of its own in the WHERE. -/
theorem nonInterfering_of_twoRefs :
    let h : SelectHandler := ⟨[0], ["t_inno".toList, "t_aria".toList], "SELECT".toList⟩
    createDuckdbSelectHandler (plainSelect twoRefs) 0 = some h ∧
      twoRefs.NonInterfering (Registry.empty.initScan (plainSelect twoRefs) h) := by
  intro h
  have hcreate : createDuckdbSelectHandler (plainSelect twoRefs) 0 = some h := by decide +kernel
  refine ⟨hcreate, (nonInterfering_iff_separated (Or.inl ⟨0, hcreate⟩) .empty).2 ⟨?_, ?_, ?_⟩⟩
  · refine List.Pairwise.cons (fun r _ hduck => absurd hduck (by decide)) ?_
    exact List.pairwise_pair.2 fun _ _ => by decide
  · intro r hr t ht
    refine Or.inl ⟨0, List.mem_cons_self, ?_⟩
    simp only [plainSelect, twoRefs, List.mem_cons, List.not_mem_nil, or_false] at hr
    rcases hr with rfl | rfl | rfl
    · cases ht
    · decide +kernel
    · decide +kernel
  · intro r hr _ c hc
    refine twoRefs_lastCond hr c ?_
    change c ∈ ((twoRefs.lastCond [0] r).or none).getD [] at hc
    rwa [Option.or_none] at hc

/-- The self-join is pushed down, and both references are bound to one TABLE, whose cursor they
share. -/
theorem self_join_shares_cursor :
    createDuckdbSelectHandler (plainSelect selfJoin) 0 =
        some ⟨[0], ["t_inno".toList, "t_inno".toList], "SELECT".toList⟩ ∧
      ¬ selfJoin.NonInterfering (Registry.empty.initScan (plainSelect selfJoin)
        ⟨[0], ["t_inno".toList, "t_inno".toList], "SELECT".toList⟩) := by
  refine ⟨by decide +kernel, fun h => ?_⟩
  -- Both references have the name `t_inno`.
  have hpairs := List.pairwise_cons.1 (List.pairwise_cons.1 h.distinctNames).2
  exact hpairs.1 (innoRef 2) List.mem_cons_self rfl rfl rfl

end DuckdbEngine.CrossEngine
