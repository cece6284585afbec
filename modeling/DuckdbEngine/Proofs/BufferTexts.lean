/-
The texts of a mixed batch do what the model of the flush says.

The texts name columns.  They are read back for all names, and the names are resolved to
the positions of the columns.  Over these the query with QUALIFY selects the newest row of
each key unless it is a delete marker, and the condition with IN picks the rows whose key
occurs in the buffer table.
-/
import Mathlib.Tactic.FinCases
import DuckdbEngine.Convertor.CreateRoundTrip
import DuckdbEngine.Runtime.BufferText

namespace DuckdbEngine

open Sql NamedTable

variable {V : Type}

/-! ### Lists of names -/

/-- The tokens of a list of names. -/
def nameTokens (ns : List Name) : List Token := joinWith [comma] (ns.map fun n => [.ident n])

lemma closed_nameList {ns : List Name} (hne : ns ≠ []) :
    Closed (DeltaAppender.nameList ns) (nameTokens ns) := by
  have hsep : Free ", ".toList ([comma] ++ []) :=
    (free_symbol (c := ',') (by decide) (by decide)).append free_space
  exact closed_joinWith hsep rfl hne fun n _ => closed_identifier n

/-- The list ends where there is no comma. -/
lemma readNames_nameTokens {ns : List Name} (hne : ns ≠ []) {t : Token} {rest : List Token}
    (hhead : rest.head? = some t) (ht : t ≠ comma) :
    readNames (nameTokens ns ++ rest) = (ns, rest) := by
  obtain ⟨us, rfl⟩ : ∃ us, rest = t :: us := ⟨_, List.eq_cons_of_mem_head? hhead⟩
  induction ns with
  | nil => exact absurd rfl hne
  | cons n ns ih =>
      cases ns with
      | nil =>
          cases t with
          | symbol c =>
              have hc : c ≠ [','] := fun hc => ht (by rw [hc]; rfl)
              show (if c = [','] then _ else _) = _
              rw [if_neg hc]
          | _ => rfl
      | cons m ns =>
          have hcons : nameTokens (n :: m :: ns) ++ t :: us =
              .ident n :: .symbol [','] :: (nameTokens (m :: ns) ++ t :: us) := rfl
          rw [hcons, readNames, if_pos rfl, ih (List.cons_ne_nil m ns)]

lemma semicolon_notMem_nameTokens (ns : List Name) : semicolon ∉ nameTokens ns := by
  intro hmem
  rcases mem_joinWith hmem with hcomma | ⟨x, hx, hmem⟩
  · exact absurd hcomma (by decide)
  · obtain ⟨n, -, rfl⟩ := List.mem_map.1 hx
    exact semicolon_ne_ident n (List.mem_singleton.1 hmem)

/-! ### The statements -/

/-- Keywords that end with a punctuation character. -/
lemma free_punct (as : List Atom) (c : Char) {t : Text} {ts : List Token} (h : Fits as (some ' '))
    (hc : c ∈ Atom.symbols) (hsep : c ∈ separators) (ht : textOf as ++ [c] = t)
    (hts : as.filterMap Atom.token ++ [.symbol [c]] = ts) : Free t ts := by
  subst ht hts
  exact (closed_textOf h).append_free (free_symbol hc (ne_of_mem_separators hsep).2.2.2.1) rfl hsep

/-- A name in the schema of the temporary tables, behind keywords. -/
lemma closed_main (as : List Atom) (x : Name) {t : Text} {ts : List Token}
    (h : Fits as (some ' ')) (ht : textOf as ++ ['.'] = t)
    (hts : as.filterMap Atom.token ++ [dot] = ts) :
    Closed (t ++ quoteDuckdbIdentifier x) (ts ++ [.ident x]) :=
  (free_punct as '.' h (by decide) (by decide) ht hts).append_closed (closed_identifier x)

lemma closed_fromMain (x : Name) : Closed (" FROM main.".toList ++ quoteDuckdbIdentifier x)
    ([kw "FROM", kw "MAIN", dot] ++ [.ident x]) :=
  closed_main [.space, .word "FROM".toList, .space, .word "main".toList] x (by decide) rfl rfl

@[simp] lemma afterTokens_append (ws ts : List Token) : afterTokens ws (ws ++ ts) = some ts := by
  induction ws with
  | nil => rfl
  | cons w ws ih => rw [List.cons_append, afterTokens, if_pos rfl, ih]

@[simp] lemma semicolon_ne_dot : semicolon ≠ dot := by decide

/-- The USE statement in front of the merge. -/
def Sent.bufferUse (schema : Name) : Sent readBuffer where
  text := "USE ".toList ++ quoteDuckdbIdentifier schema ++ ";".toList
  tokens := [kw "USE", .ident schema]
  meaning := .use schema
  free := (Sent.use schema).free
  reads := ⟨List.cons_ne_nil _ _, (Sent.use schema).reads.single, rfl⟩

@[simp] lemma Sent.text_bufferUse (schema : Name) : (Sent.bufferUse schema).text =
    "USE ".toList ++ quoteDuckdbIdentifier schema ++ ";".toList := rfl

section Merge

variable (t : TableName) (x : Name) {cols pk : List Name}

/-- The tokens of the QUALIFY clause up to the key. -/
def qualifyTokens : List Token :=
  [kw "QUALIFY", kw "ROW_NUMBER", openParen, closeParen, kw "OVER", openParen, kw "PARTITION",
    kw "BY"]

/-- The tokens between the order and the flag. -/
def firstTokens : List Token :=
  [kw "DESC", closeParen, .symbol ['='], .number 1, kw "AND", kw "NOT"]

lemma readLatest_eq (hcols : cols ≠ []) (hpk : pk ≠ []) (order flag : Name) :
    readLatest t (nameTokens cols ++ ([kw "FROM", kw "MAIN", dot] ++ (.ident x ::
      (qualifyTokens ++ (nameTokens pk ++ ([kw "ORDER", kw "BY"] ++ (.ident order ::
        (firstTokens ++ [.ident flag])))))))) = some (.insertLatest t cols x pk order flag) := by
  rw [readLatest, readNames_nameTokens hcols rfl (by decide), afterTokens_append]
  dsimp only
  rw [← qualifyTokens, afterTokens_append]
  dsimp only
  rw [readNames_nameTokens hpk rfl (by decide), afterTokens_append]
  dsimp only
  rw [← firstTokens, afterTokens_append]

lemma readIn_eq {key : List Name} (hkey : key ≠ []) (hcols : cols ≠ []) (hpk : pk ≠ []) :
    readIn t (nameTokens key ++ ([closeParen, kw "IN", openParen, kw "SELECT"] ++
      (nameTokens cols ++ ([kw "FROM", kw "MAIN", dot] ++ (.ident x :: ([kw "GROUP", kw "BY"] ++
        (nameTokens pk ++ [closeParen]))))))) = some (.deleteIn t key cols x pk) := by
  rw [readIn, readNames_nameTokens hkey rfl (by decide), afterTokens_append]
  dsimp only
  rw [readNames_nameTokens hcols rfl (by decide), afterTokens_append]
  dsimp only
  rw [afterTokens_append]
  dsimp only
  rw [readNames_nameTokens hpk rfl (by decide), if_pos rfl]

/-- The INSERT of the merge; a blank separates it from the USE. -/
def Sent.insertLatest (hcols : cols ≠ []) (hpk : pk ≠ []) : Sent readBuffer where
  text := " INSERT INTO ".toList ++ quoteDuckdbIdentifier t.dbName ++ ".".toList ++
    quoteDuckdbIdentifier t.tableName ++ " SELECT ".toList ++ DeltaAppender.nameList cols ++
    (" FROM main.".toList ++ quoteDuckdbIdentifier x) ++
    " QUALIFY ROW_NUMBER() OVER (PARTITION BY ".toList ++ DeltaAppender.nameList pk ++
    " ORDER BY ".toList ++ quoteDuckdbIdentifier DeltaAppender.rowNoName ++
    " DESC) = 1 AND NOT ".toList ++ quoteDuckdbIdentifier DeltaAppender.deleteFlagName ++ ";".toList
  tokens := [kw "INSERT", kw "INTO"] ++ [.ident t.dbName] ++ [dot] ++ [.ident t.tableName] ++
    [kw "SELECT"] ++ nameTokens cols ++ ([kw "FROM", kw "MAIN", dot] ++ [.ident x]) ++
    qualifyTokens ++ nameTokens pk ++ [kw "ORDER", kw "BY"] ++ [.ident DeltaAppender.rowNoName] ++
    firstTokens ++ [.ident DeltaAppender.deleteFlagName]
  meaning := .insertLatest t cols x pk DeltaAppender.rowNoName DeltaAppender.deleteFlagName
  free := by
    have htable : Closed (" INSERT INTO ".toList ++ quoteDuckdbIdentifier t.dbName ++ ".".toList ++
        quoteDuckdbIdentifier t.tableName)
        ([kw "INSERT", kw "INTO"] ++ [.ident t.dbName] ++ [dot] ++ [.ident t.tableName]) :=
      closed_qualified [.space, .word "INSERT".toList, .space, .word "INTO".toList] t.dbName
        t.tableName (by decide) rfl rfl
    have hselect : Free " SELECT ".toList [kw "SELECT"] :=
      free_keywords [.space, .word "SELECT".toList] (by decide) rfl rfl
    have hqualify : Free " QUALIFY ROW_NUMBER() OVER (PARTITION BY ".toList qualifyTokens :=
      free_keywords [.space, .word "QUALIFY".toList, .space, .word "ROW_NUMBER".toList,
        .symbol '(', .symbol ')', .space, .word "OVER".toList, .space, .symbol '(',
        .word "PARTITION".toList, .space, .word "BY".toList] (by decide) rfl rfl
    have horder : Free " ORDER BY ".toList [kw "ORDER", kw "BY"] :=
      free_keywords [.space, .word "ORDER".toList, .space, .word "BY".toList] (by decide) rfl rfl
    have hfirst : Free " DESC) = 1 AND NOT ".toList firstTokens :=
      free_keywords [.space, .word "DESC".toList, .symbol ')', .space, .symbol '=', .space,
        .digits ['1'], .space, .word "AND".toList, .space, .word "NOT".toList] (by decide) rfl rfl
    have hrows := ((htable.append_free hselect rfl (by decide)).append_closed
      (closed_nameList hcols)).append (closed_fromMain x) rfl (by decide)
    have hwindow := ((hrows.append_free hqualify rfl (by decide)).append_closed
      (closed_nameList hpk)).append_free horder rfl (by decide)
    exact (((hwindow.append_closed (closed_identifier _)).append_free hfirst rfl
      (by decide)).append_closed (closed_identifier _)).append_free free_semicolon rfl (by decide)
  reads := by
    refine ⟨List.cons_ne_nil _ _, ?_, ?_⟩
    · have hcols := semicolon_notMem_nameTokens cols
      have hpk := semicolon_notMem_nameTokens pk
      have hqualify : semicolon ∉ qualifyTokens := by decide
      have hfirst : semicolon ∉ firstTokens := by decide
      simp [hcols, hpk, hqualify, hfirst, semicolon_ne_dot]
    · have hothers (ts : List Token) : readBuffer (kw "INSERT" :: kw "INTO" :: .ident t.dbName ::
          .symbol ['.'] :: .ident t.tableName :: kw "SELECT" :: ts) = (readLatest t ts <|> none) :=
        rfl
      simp only [List.append_assoc]
      refine (hothers _).trans ?_
      exact congrArg (· <|> none) (readLatest_eq t x hcols hpk _ _)

/-- The DELETE of the merge. -/
def Sent.deleteIn (hpk : pk ≠ []) : Sent readBuffer where
  text := " DELETE FROM ".toList ++ quoteDuckdbIdentifier t.dbName ++ ".".toList ++
    quoteDuckdbIdentifier t.tableName ++ " WHERE (".toList ++ DeltaAppender.nameList pk ++
    ") IN (SELECT ".toList ++ DeltaAppender.nameList pk ++
    (" FROM main.".toList ++ quoteDuckdbIdentifier x) ++ " GROUP BY ".toList ++
    DeltaAppender.nameList pk ++ ");".toList
  tokens := [kw "DELETE", kw "FROM"] ++ [.ident t.dbName] ++ [dot] ++ [.ident t.tableName] ++
    [kw "WHERE", openParen] ++ nameTokens pk ++ [closeParen, kw "IN", openParen, kw "SELECT"] ++
    nameTokens pk ++ ([kw "FROM", kw "MAIN", dot] ++ [.ident x]) ++ [kw "GROUP", kw "BY"] ++
    nameTokens pk ++ [closeParen]
  meaning := .deleteIn t pk pk x pk
  free := by
    have htable : Closed (" DELETE FROM ".toList ++ quoteDuckdbIdentifier t.dbName ++ ".".toList ++
        quoteDuckdbIdentifier t.tableName)
        ([kw "DELETE", kw "FROM"] ++ [.ident t.dbName] ++ [dot] ++ [.ident t.tableName]) :=
      closed_qualified [.space, .word "DELETE".toList, .space, .word "FROM".toList] t.dbName
        t.tableName (by decide) rfl rfl
    have hwhere : Free " WHERE (".toList [kw "WHERE", openParen] :=
      free_punct [.space, .word "WHERE".toList, .space] '(' (by decide) (by decide) (by decide) rfl
        rfl
    have hin : Free ") IN (SELECT ".toList [closeParen, kw "IN", openParen, kw "SELECT"] :=
      free_keywords [.symbol ')', .space, .word "IN".toList, .space, .symbol '(',
        .word "SELECT".toList] (by decide) rfl rfl
    have hgroup : Free " GROUP BY ".toList [kw "GROUP", kw "BY"] :=
      free_keywords [.space, .word "GROUP".toList, .space, .word "BY".toList] (by decide) rfl rfl
    have hclose : Free ");".toList ([closeParen] ++ [semicolon]) :=
      (free_symbol (c := ')') (by decide) (by decide)).append free_semicolon
    have hpkList := closed_nameList hpk
    have hkey := ((htable.append_free hwhere rfl (by decide)).append_closed hpkList).append_free hin
      rfl (by decide)
    have hselect := (hkey.append_closed hpkList).append (closed_fromMain x) rfl (by decide)
    rw [List.append_assoc _ [closeParen]]
    exact ((hselect.append_free hgroup rfl (by decide)).append_closed hpkList).append_free hclose
      rfl (by decide)
  reads := by
    refine ⟨List.cons_ne_nil _ _, ?_, ?_⟩
    · have hpk := semicolon_notMem_nameTokens pk
      have hopen : semicolon ≠ openParen := by decide
      have hclose : semicolon ≠ closeParen := by decide
      simp [hpk, hopen, hclose]
    · have hothers (ts : List Token) : readBuffer (kw "DELETE" :: kw "FROM" :: .ident t.dbName ::
          .symbol ['.'] :: .ident t.tableName :: kw "WHERE" :: openParen :: ts) =
            (readIn t ts <|> none) := rfl
      simp only [List.append_assoc]
      refine (hothers _).trans ?_
      exact congrArg (· <|> none) (readIn_eq t x hpk hpk hpk)

@[simp] lemma Sent.text_insertLatest (hcols : cols ≠ []) (hpk : pk ≠ []) :
    (Sent.insertLatest t x hcols hpk).text =
      " INSERT INTO ".toList ++ quoteDuckdbIdentifier t.dbName ++ ".".toList ++
        quoteDuckdbIdentifier t.tableName ++ " SELECT ".toList ++ DeltaAppender.nameList cols ++
        (" FROM main.".toList ++ quoteDuckdbIdentifier x) ++
        " QUALIFY ROW_NUMBER() OVER (PARTITION BY ".toList ++ DeltaAppender.nameList pk ++
        " ORDER BY ".toList ++ quoteDuckdbIdentifier DeltaAppender.rowNoName ++
        " DESC) = 1 AND NOT ".toList ++ quoteDuckdbIdentifier DeltaAppender.deleteFlagName ++
        ";".toList := rfl

@[simp] lemma Sent.text_deleteIn (hpk : pk ≠ []) : (Sent.deleteIn t x hpk).text =
    " DELETE FROM ".toList ++ quoteDuckdbIdentifier t.dbName ++ ".".toList ++
      quoteDuckdbIdentifier t.tableName ++ " WHERE (".toList ++ DeltaAppender.nameList pk ++
      ") IN (SELECT ".toList ++ DeltaAppender.nameList pk ++
      (" FROM main.".toList ++ quoteDuckdbIdentifier x) ++ " GROUP BY ".toList ++
      DeltaAppender.nameList pk ++ ");".toList := rfl

lemma generateQueryText_true (colList : Text) (hpk : pk ≠ []) :
    DeltaAppender.generateQueryText t colList (DeltaAppender.nameList pk) x true =
      [Sent.bufferUse t.dbName, Sent.deleteIn t x hpk].flatMap Sent.text := by
  have hblank (rest : Text) : "; ".toList ++ ("DELETE FROM ".toList ++ rest) =
      ";".toList ++ (" DELETE FROM ".toList ++ rest) := rfl
  simp only [DeltaAppender.generateQueryText, Bool.not_true, if_neg Bool.false_ne_true,
    List.flatMap_cons, List.flatMap_nil, Sent.text_bufferUse, Sent.text_deleteIn,
    List.append_assoc, List.append_nil, hblank]

lemma generateQueryText_false (hcols : cols ≠ []) (hpk : pk ≠ []) :
    DeltaAppender.generateQueryText t (DeltaAppender.nameList cols) (DeltaAppender.nameList pk) x
        false =
      [Sent.bufferUse t.dbName, Sent.insertLatest t x hcols hpk].flatMap Sent.text := by
  have hblank (rest : Text) : "; ".toList ++ ("INSERT INTO ".toList ++ rest) =
      ";".toList ++ (" INSERT INTO ".toList ++ rest) := rfl
  have hselect (rest : Text) : " ".toList ++ ("SELECT ".toList ++ rest) =
      " SELECT ".toList ++ rest := rfl
  have horder :
      " ORDER BY \"#mdb_row_no\" DESC) = 1 AND NOT \"#mdb_delete_flag\"".toList =
        " ORDER BY ".toList ++ (quoteDuckdbIdentifier DeltaAppender.rowNoName ++
          (" DESC) = 1 AND NOT ".toList ++
            quoteDuckdbIdentifier DeltaAppender.deleteFlagName)) := by
    decide
  simp only [DeltaAppender.generateQueryText, DeltaAppender.appendLatestRowsQuery, Bool.not_false,
    if_pos, List.flatMap_cons, List.flatMap_nil, Sent.text_bufferUse, Sent.text_insertLatest,
    List.append_assoc, List.append_nil, hblank, hselect, horder]

/-- The text of the merge is read as USE and the statement with the names. -/
lemma readScript_generateQueryText (hcols : cols ≠ []) (hpk : pk ≠ []) (deleteFlag : Bool) :
    readScript readBuffer (DeltaAppender.generateQueryText t (DeltaAppender.nameList cols)
      (DeltaAppender.nameList pk) x deleteFlag) =
        some [.use t.dbName, if deleteFlag then .deleteIn t pk pk x pk
          else .insertLatest t cols x pk DeltaAppender.rowNoName DeltaAppender.deleteFlagName] := by
  cases deleteFlag with
  | true =>
      rw [generateQueryText_true t x _ hpk, readScript_sent]
      rfl
  | false =>
      rw [generateQueryText_false t x hcols hpk, readScript_sent]
      rfl

end Merge

/-! ### The names stand for the positions -/

/-- What is assumed about a table: the names of its columns differ, also from those of the
auxiliary columns, and the key consists of columns. -/
structure NamedKey (names : List Name) (pk : List ℕ) : Prop where
  nodup : ((names ++ DeltaAppender.auxNames).map foldCase).Nodup
  ne_nil : names ≠ []
  pk_ne_nil : pk ≠ []
  pk_lt : ∀ i ∈ pk, i < names.length

namespace NamedKey

variable {names : List Name} {pk : List ℕ}

lemma indexes_namesAt {cols : List Name} (h : (cols.map foldCase).Nodup) {is : List ℕ}
    (his : ∀ i ∈ is, i < cols.length) : indexes foldCase cols (namesAt cols is) = some is := by
  refine indexes_of_forall₂ h ?_
  rw [namesAt, project, List.forall₂_map_left_iff, List.forall₂_same]
  intro i hi
  rw [List.getD_eq_getElem _ _ (his i hi), List.getElem?_eq_getElem (his i hi)]

/-- In the table. -/
lemma indexes_key (h : NamedKey names pk) :
    indexes foldCase names (namesAt names pk) = some pk := by
  have hnodup := h.nodup
  rw [List.map_append] at hnodup
  exact indexes_namesAt hnodup.of_append_left h.pk_lt

/-- In the buffer table, where the columns of the table stand first. -/
lemma indexes_buffer (h : NamedKey names pk) {is : List ℕ} (his : ∀ i ∈ is, i < names.length) :
    indexes foldCase (names ++ DeltaAppender.auxNames) (namesAt names is) = some is := by
  rw [namesAt, ← project_append _ his DeltaAppender.auxNames]
  refine indexes_namesAt h.nodup fun i hi => ?_
  have hlt := his i hi
  rw [List.length_append]
  omega

lemma indexes_columns (h : NamedKey names pk) :
    indexes foldCase (names ++ DeltaAppender.auxNames) names =
      some (List.range names.length) := by
  have hnames : namesAt names (List.range names.length) = names := by
    have hproject := project_range_append ([] : Name) names []
    rwa [List.append_nil] at hproject
  have hlt : ∀ i ∈ List.range names.length, i < names.length := fun _ hi => List.mem_range.1 hi
  have hindexes := h.indexes_buffer hlt
  rwa [hnames] at hindexes

lemma index_rowNo (h : NamedKey names pk) :
    index foldCase (names ++ DeltaAppender.auxNames) DeltaAppender.rowNoName =
      some (names.length + 1) :=
  index_of_getElem? h.nodup (by simp [DeltaAppender.auxNames])

lemma index_deleteFlag (h : NamedKey names pk) :
    index foldCase (names ++ DeltaAppender.auxNames) DeltaAppender.deleteFlagName =
      some names.length :=
  index_of_getElem? h.nodup (by simp [DeltaAppender.auxNames])

end NamedKey

/-! ### The cells -/

section Cells

variable {names : List Name} {pk : List ℕ}

lemma project_cells (pk : List ℕ) (r : Row V) :
    project (.val none) pk (Row.cells r) = (keyOf pk r).map BufCell.val := by
  rw [project, keyOf, List.map_map]
  refine List.map_congr_left fun i _ => ?_
  rw [List.getD_eq_getElem?_getD, Row.cells, List.getElem?_map, Function.comp_apply]
  cases r[i]? <;> rfl

/-- The key of a row of the buffer table. -/
lemma project_bufCells {r : BufRow V} (hr : r.cols.length = names.length)
    (hpk : ∀ i ∈ pk, i < names.length) :
    project (.val none) pk r.cells = (keyOf pk r.cols).map BufCell.val := by
  rw [BufRow.cells, project_append _ (by simpa [hr] using hpk), ← project_cells]
  rfl

lemma getD_rowNo {r : BufRow V} (hr : r.cols.length = names.length) :
    r.cells.getD (names.length + 1) (.val none) = .int r.rowNo := by
  rw [BufRow.cells, List.getD_append_right _ _ _ _ (by simp [hr])]
  simp [hr]

lemma getD_deleteFlag {r : BufRow V} (hr : r.cols.length = names.length) :
    r.cells.getD names.length (.val none) = .bool r.isDelete := by
  rw [BufRow.cells, List.getD_append_right _ _ _ _ (by simp [hr])]
  simp [hr]

lemma rowOf_columns {r : BufRow V} (hr : r.cols.length = names.length) :
    BufCell.rowOf (project (.val none) (List.range names.length) r.cells) = some r.cols := by
  have hproject := project_range_append (BufCell.val none) (r.cols.map BufCell.val)
    [.bool r.isDelete, .int r.rowNo, .int (r.aux.elim 0 Aux.trxNo)]
  rw [List.length_map, hr] at hproject
  rw [BufRow.cells, hproject, BufCell.rowOf, AcceptedTable.mapM_eq_some_iff, List.map_map]
  rfl

lemma val_injective : Function.Injective (BufCell.val : Option V → BufCell V) := fun _ _ h => by
  cases h
  rfl

end Cells

/-! ### The merge -/

section Eval

variable [DecidableEq V] {names : List Name} {pk : List ℕ} {rows : List (BufRow V)}

/-- The number of a row in its partition. -/
lemma rowNumber_cells (hpk : ∀ i ∈ pk, i < names.length)
    (hrows : ∀ r ∈ rows, r.cols.length = names.length) {r : BufRow V} (hr : r ∈ rows) :
    NamedTable.rowNumber (.val none) BufCell.lt pk (names.length + 1) (rows.map BufRow.cells)
      r.cells = rowNumber pk rows r := by
  rw [NamedTable.rowNumber, rowNumber, List.countP_map]
  congr 1
  refine List.countP_congr fun q hq => ?_
  rw [Function.comp_apply, project_bufCells (hrows q hq) hpk, project_bufCells (hrows r hr) hpk,
    getD_rowNo (hrows q hq), getD_rowNo (hrows r hr)]
  simp [val_injective.list_map.eq_iff, BufCell.lt]

/-- The query selects the newest row of each key, unless it is a delete marker. -/
lemma selectLatest_eq (h : NamedKey names pk) (hrows : ∀ r ∈ rows, r.cols.length = names.length) :
    (selectLatest (names ++ DeltaAppender.auxNames) (rows.map BufRow.cells) names (namesAt names pk)
      DeltaAppender.rowNoName DeltaAppender.deleteFlagName).bind (·.mapM BufCell.rowOf) =
        some (latestRows pk rows) := by
  rw [selectLatest, h.indexes_columns, h.indexes_buffer h.pk_lt, h.index_rowNo, h.index_deleteFlag]
  simp only [Option.bind_some, Option.map_some]
  have hfilter : ((rows.map BufRow.cells).filter fun r =>
      NamedTable.rowNumber (.val none) BufCell.lt pk (names.length + 1) (rows.map BufRow.cells) r =
        1 ∧ r.getD names.length (.val none) = .bool false) =
      (rows.filter fun r => rowNumber pk rows r = 1 ∧ r.isDelete = false).map BufRow.cells := by
    rw [List.filter_map]
    refine congrArg _ (List.filter_congr fun r hr => ?_)
    rw [Function.comp_apply, rowNumber_cells h.pk_lt hrows hr, getD_deleteFlag (hrows r hr)]
    simp
  rw [hfilter, latestRows, AcceptedTable.mapM_eq_some_iff, List.map_map, List.map_map, List.map_map]
  exact List.map_congr_left fun r hr => rowOf_columns (hrows r (List.mem_of_mem_filter hr))

/-- The condition picks the rows whose key occurs in the buffer table. -/
lemma groupedKeys_eq (h : NamedKey names pk) (hrows : ∀ r ∈ rows, r.cols.length = names.length) :
    groupedKeys (names ++ DeltaAppender.auxNames) (rows.map BufRow.cells) (namesAt names pk)
      (namesAt names pk) =
        some ((rows.map fun r => (keyOf pk r.cols).map BufCell.val).dedup) := by
  rw [groupedKeys, if_pos rfl, h.indexes_buffer h.pk_lt, Option.map_some, List.map_map]
  refine congrArg _ (congrArg _ (List.map_congr_left fun r hr => ?_))
  exact project_bufCells (hrows r hr) h.pk_lt

lemma cellsEq_map (k k' : List (Option V)) :
    cellsEq (k.map BufCell.val) (k'.map BufCell.val) = sqlRowEq k k' := by
  rw [cellsEq, sqlRowEq]
  simp [val_injective.list_map.eq_iff]

lemma filter_keys (b : Multiset (Row V)) :
    (b.filter fun r => ∀ k ∈ (rows.map fun q : BufRow V => (keyOf pk q.cols).map BufCell.val).dedup,
        cellsEq (project (.val none) pk (Row.cells r)) k = false) = untouchedRows pk rows b := by
  refine Multiset.filter_congr fun r _ => ?_
  simp only [List.mem_dedup, List.forall_mem_map, project_cells, cellsEq_map]

/-- The text of the merge does with the rows of the table what its statement does. -/
lemma execBufferText_generateQueryText (t : TableName) (x : Name) (h : NamedKey names pk)
    {st : Store V} (hx : st.temps x = some (.ready rows))
    (hrows : ∀ r ∈ rows, r.cols.length = names.length) (deleteFlag : Bool) (schema : Name) :
    execBufferText names (DeltaAppender.generateQueryText t (DeltaAppender.nameList names)
        (DeltaAppender.nameList (namesAt names pk)) x deleteFlag) st =
      (if deleteFlag then Stmt.deleteTouched t pk x else .insertLatest t pk x).eval schema st := by
  have hpk : namesAt names pk ≠ [] := by simpa [namesAt, project] using h.pk_ne_nil
  have hfold (q : ReadBuffer) :
      [ReadBuffer.use t.dbName, q].foldlM (ReadBuffer.eval names) st = q.eval names st := by
    show [q].foldlM (ReadBuffer.eval names) st = _
    simp
  rw [execBufferText, readScript_generateQueryText t x h.ne_nil hpk, Option.bind_some, hfold]
  cases deleteFlag with
  | true =>
      rw [if_pos rfl, if_pos rfl, ReadBuffer.eval, Stmt.eval, hx, Option.bind_some, Option.map_some,
        h.indexes_key, Option.bind_some, TmpTable.rows, groupedKeys_eq h hrows, Option.map_some]
      exact congrArg some (congrArg (st.setTable t) (filter_keys (st.tables t)))
  | false =>
      have hselect := selectLatest_eq h hrows
      obtain ⟨selected, hselected, hrowsOf⟩ := Option.bind_eq_some_iff.1 hselect
      rw [if_neg Bool.false_ne_true, if_neg Bool.false_ne_true, ReadBuffer.eval, Stmt.eval, hx]
      dsimp only
      rw [hselected, Option.bind_some, hrowsOf, Option.map_some]

end Eval

/-! ### The buffer table -/

section BufferTable

variable (t : TableName) (x : Name)

/-- The creation of the buffer table. -/
def Sent.createTemp : Sent readBuffer where
  text := "CREATE TEMPORARY TABLE IF NOT EXISTS main.".toList ++ quoteDuckdbIdentifier x ++
    " AS FROM ".toList ++ quoteDuckdbIdentifier t.dbName ++ ".".toList ++
    quoteDuckdbIdentifier t.tableName ++ " LIMIT 0;".toList
  tokens := [kw "CREATE", kw "TEMPORARY", kw "TABLE", kw "IF", kw "NOT", kw "EXISTS", kw "MAIN",
    dot] ++ [.ident x] ++ [kw "AS", kw "FROM"] ++ [.ident t.dbName] ++ [dot] ++
    [.ident t.tableName] ++ [kw "LIMIT", .number 0]
  meaning := .createTemp x t
  free := by
    have hcreate : Closed ("CREATE TEMPORARY TABLE IF NOT EXISTS main.".toList ++
        quoteDuckdbIdentifier x) ([kw "CREATE", kw "TEMPORARY", kw "TABLE", kw "IF", kw "NOT",
          kw "EXISTS", kw "MAIN", dot] ++ [.ident x]) :=
      closed_main [.word "CREATE".toList, .space, .word "TEMPORARY".toList, .space,
        .word "TABLE".toList, .space, .word "IF".toList, .space, .word "NOT".toList, .space,
        .word "EXISTS".toList, .space, .word "main".toList] x (by decide) rfl rfl
    have hfrom : Free " AS FROM ".toList [kw "AS", kw "FROM"] :=
      free_keywords [.space, .word "AS".toList, .space, .word "FROM".toList] (by decide) rfl rfl
    have hdot : Free ['.'] [dot] := free_symbol (by decide) (by decide)
    have hlimit : Free " LIMIT 0;".toList ([kw "LIMIT", .number 0] ++ [semicolon]) :=
      (closed_keywords [.space, .word "LIMIT".toList, .space, .digits ['0']]
        (t := " LIMIT 0".toList) (by decide) rfl rfl).append_free free_semicolon rfl (by decide)
    have hsource := ((hcreate.append_free hfrom rfl (by decide)).append_closed
      (closed_identifier t.dbName)).append_free hdot rfl (by decide)
    rw [List.append_assoc _ [kw "LIMIT", .number 0]]
    exact (hsource.append_closed (closed_identifier t.tableName)).append_free hlimit rfl (by decide)
  reads := ⟨List.cons_ne_nil _ _, by simp [semicolon, kw, dot], rfl⟩

/-- The addition of an auxiliary column. -/
def Sent.addColumn (n : Name) (type : Text) (htype : Fits [.word type] (some ' ')) :
    Sent readBuffer where
  text := "ALTER TABLE main.".toList ++ quoteDuckdbIdentifier x ++ " ADD COLUMN ".toList ++
    quoteDuckdbIdentifier n ++ " ".toList ++ type ++ ";".toList
  tokens := [kw "ALTER", kw "TABLE", kw "MAIN", dot] ++ [.ident x] ++ [kw "ADD", kw "COLUMN"] ++
    [.ident n] ++ [] ++ [.word (type.map Char.toUpper)]
  meaning := .addColumn x n [.word (type.map Char.toUpper)]
  free := by
    have htable : Closed ("ALTER TABLE main.".toList ++ quoteDuckdbIdentifier x)
        ([kw "ALTER", kw "TABLE", kw "MAIN", dot] ++ [.ident x]) :=
      closed_main [.word "ALTER".toList, .space, .word "TABLE".toList, .space,
        .word "main".toList] x (by decide) rfl rfl
    have hadd : Free " ADD COLUMN ".toList [kw "ADD", kw "COLUMN"] :=
      free_keywords [.space, .word "ADD".toList, .space, .word "COLUMN".toList] (by decide) rfl rfl
    have hword : Closed type [.word (type.map Char.toUpper)] := by
      have hclosed := closed_textOf htype
      rwa [textOf_cons, textOf_nil, List.append_nil] at hclosed
    have hcolumn := ((htable.append_free hadd rfl (by decide)).append_closed
      (closed_identifier n)).append_free free_space rfl (by decide)
    exact (hcolumn.append_closed hword).append_free free_semicolon rfl (by decide)
  reads := ⟨List.cons_ne_nil _ _, by simp [semicolon, kw, dot], rfl⟩

@[simp] lemma Sent.text_createTemp : (Sent.createTemp t x).text =
    "CREATE TEMPORARY TABLE IF NOT EXISTS main.".toList ++ quoteDuckdbIdentifier x ++
      " AS FROM ".toList ++ quoteDuckdbIdentifier t.dbName ++ ".".toList ++
      quoteDuckdbIdentifier t.tableName ++ " LIMIT 0;".toList := rfl

@[simp] lemma Sent.text_addColumn (n : Name) (type : Text) (htype : Fits [.word type] (some ' ')) :
    (Sent.addColumn x n type htype).text =
      "ALTER TABLE main.".toList ++ quoteDuckdbIdentifier x ++ " ADD COLUMN ".toList ++
        quoteDuckdbIdentifier n ++ " ".toList ++ type ++ ";".toList := rfl

/-- The statements of the script of `Initialize`. -/
def initializeSent : List (Sent readBuffer) :=
  [Sent.createTemp t x, Sent.addColumn x DeltaAppender.deleteFlagName "BOOL".toList (by decide),
    Sent.addColumn x DeltaAppender.rowNoName "INT".toList (by decide),
    Sent.addColumn x DeltaAppender.trxNoName "INT".toList (by decide)]

lemma initializeText_eq :
    DeltaAppender.initializeText t x = (initializeSent t x).flatMap Sent.text := by
  have hflag : " ADD COLUMN \"#mdb_delete_flag\" BOOL;".toList = " ADD COLUMN ".toList ++
      (quoteDuckdbIdentifier DeltaAppender.deleteFlagName ++
        (" ".toList ++ ("BOOL".toList ++ ";".toList))) := rfl
  have hrowNo : " ADD COLUMN \"#mdb_row_no\" INT;".toList = " ADD COLUMN ".toList ++
      (quoteDuckdbIdentifier DeltaAppender.rowNoName ++
        (" ".toList ++ ("INT".toList ++ ";".toList))) := rfl
  have htrxNo : " ADD COLUMN \"#mdb_trx_no\" INT;".toList = " ADD COLUMN ".toList ++
      (quoteDuckdbIdentifier DeltaAppender.trxNoName ++
        (" ".toList ++ ("INT".toList ++ ";".toList))) := rfl
  unfold DeltaAppender.initializeText
  rewrite [hflag, hrowNo, htrxNo, initializeSent]
  simp only [List.flatMap_cons, List.flatMap_nil, Sent.text_createTemp, Sent.text_addColumn,
    List.append_assoc, List.append_nil]

lemma closed_dropText : Closed (DeltaAppender.dropText x)
    ([kw "DROP", kw "TABLE", kw "MAIN", dot] ++ [.ident x]) :=
  closed_main [.word "DROP".toList, .space, .word "TABLE".toList, .space, .word "main".toList] x
    (by decide) rfl rfl

lemma readScript_dropText :
    readScript readBuffer (DeltaAppender.dropText x) = some [.dropTemp x] :=
  readScript_sent_append [] (closed_dropText x)
    ⟨List.cons_ne_nil _ _, by simp [semicolon, kw, dot], rfl⟩

/-- The text of the destructor. -/
def Sent.dropTempIfExists : Sent readBuffer where
  text := DeltaAppender.cleanupText x
  tokens := [kw "DROP", kw "TABLE", kw "IF", kw "EXISTS", kw "MAIN", dot] ++ [.ident x]
  meaning := .dropTempIfExists x
  free := by
    have hdrop : Closed ("DROP TABLE IF EXISTS main.".toList ++ quoteDuckdbIdentifier x)
        ([kw "DROP", kw "TABLE", kw "IF", kw "EXISTS", kw "MAIN", dot] ++ [.ident x]) :=
      closed_main [.word "DROP".toList, .space, .word "TABLE".toList, .space, .word "IF".toList,
        .space, .word "EXISTS".toList, .space, .word "main".toList] x (by decide) rfl rfl
    exact hdrop.append_free free_semicolon rfl (by decide)
  reads := ⟨List.cons_ne_nil _ _, by simp [semicolon, kw, dot], rfl⟩

lemma readScript_cleanupText :
    readScript readBuffer (DeltaAppender.cleanupText x) = some [.dropTempIfExists x] := by
  have hread := readScript_sent [Sent.dropTempIfExists x]
  rw [List.flatMap_cons, List.flatMap_nil, List.append_nil] at hread
  exact hread

end BufferTable

/-! ### The life of a buffer table -/

section Life

variable [DecidableEq V] {names : List Name} {pk : List ℕ}

/-- A column of the table does not have the name of an auxiliary column. -/
lemma NamedKey.index_aux (h : NamedKey names pk) {n : Name} (hn : n ∈ DeltaAppender.auxNames) :
    index foldCase names n = none := by
  have hnodup := h.nodup
  rw [List.map_append, List.nodup_append] at hnodup
  rw [index, List.findIdx?_eq_none_iff]
  intro m hm
  exact decide_eq_false (hnodup.2.2 _ (List.mem_map_of_mem hm) _ (List.mem_map_of_mem hn))

lemma eval_addColumn (h : NamedKey names pk) {n : Name} {j : Fin 3}
    (hn : DeltaAppender.auxNames.idxOf? n = some j.val) (x : Name) (type : List Token)
    (schema : Name) (st : Store V) :
    ReadBuffer.eval names st (.addColumn x n type) = (Stmt.addColumn x j).eval schema st := by
  have hmem : n ∈ DeltaAppender.auxNames := by
    by_contra hmem
    rw [List.idxOf?_eq_none_iff.2 hmem] at hn
    cases hn
  rw [ReadBuffer.eval, Stmt.eval]
  cases hx : st.temps x with
  | none => rfl
  | some T =>
      rw [Option.bind_some, Option.bind_some, hn, h.index_aux hmem]
      cases T with
      | ready rows => fin_cases j <;> rfl
      | bare k => fin_cases k <;> fin_cases j <;> rfl

lemma foldlM_generateQuery (d : DeltaAppender V) (deleteFlag : Bool) (schema : Name)
    (st : Store V) :
    (d.generateQuery deleteFlag).foldlM (fun st q => q.eval schema st) st =
      (if deleteFlag then Stmt.deleteTouched d.name d.pkList d.tmpTableName
        else .insertLatest d.name d.pkList d.tmpTableName).eval schema st := by
  rw [DeltaAppender.generateQuery]
  show [_].foldlM (fun st q => Stmt.eval schema st q) st = _
  simp

/-- A text of the merge that is sent under a condition. -/
lemma foldlM_optional (d : DeltaAppender V) (h : NamedKey names d.pkList) {st : Store V}
    {rows : List (BufRow V)} (hx : st.temps d.tmpTableName = some (.ready rows))
    (hrows : ∀ r ∈ rows, r.cols.length = names.length) (send deleteFlag : Bool) (schema : Name) :
    (if send then [DeltaAppender.generateQueryText d.name (DeltaAppender.nameList names)
        (DeltaAppender.nameList (namesAt names d.pkList))
        (bufTableName d.name.dbName d.name.tableName) deleteFlag] else []).foldlM
        (fun st sql => execBufferText names sql st) st =
      (if send then d.generateQuery deleteFlag else []).foldlM
        (fun st q => q.eval schema st) st := by
  cases send with
  | false => rfl
  | true =>
      rw [if_pos rfl, if_pos rfl, foldlM_generateQuery,
        DeltaAppender.tmpTableName, ← execBufferText_generateQueryText d.name _ h hx hrows]
      simp

/-- The statements of the merge keep the buffer table. -/
lemma temps_generateQuery (d : DeltaAppender V) (send deleteFlag : Bool) {schema : Name}
    {st st' : Store V}
    (h : (if send then d.generateQuery deleteFlag else []).foldlM
      (fun st q => q.eval schema st) st = some st') : st'.temps = st.temps := by
  cases send with
  | false =>
      cases h
      rfl
  | true =>
      rw [if_pos rfl, foldlM_generateQuery] at h
      have hwithin : (if deleteFlag then Stmt.deleteTouched d.name d.pkList d.tmpTableName
          else .insertLatest d.name d.pkList d.tmpTableName : Stmt V).Within d.name none := by
        cases deleteFlag <;> rfl
      obtain ⟨-, -, htemps⟩ := Stmt.eval_within hwithin h
      exact funext fun y => htemps y (by simp)

lemma execBufferText_dropText (names : List Name) (x schema : Name) (st : Store V) :
    execBufferText names (DeltaAppender.dropText x) st = (Stmt.dropTemp x).eval schema st := by
  rw [execBufferText, readScript_dropText, Option.bind_some]
  simp [ReadBuffer.eval, Stmt.eval]

lemma execBufferText_initializeText (h : NamedKey names pk) (t : TableName) (x schema : Name)
    (st : Store V) :
    execBufferText names (DeltaAppender.initializeText t x) st =
      (Stmt.createTemp x :: Stmt.addColumns x).foldlM (fun st q => q.eval schema st) st := by
  have hmeaning : (initializeSent t x).map Sent.meaning =
      [.createTemp x t, .addColumn x DeltaAppender.deleteFlagName [kw "BOOL"],
        .addColumn x DeltaAppender.rowNoName [kw "INT"],
        .addColumn x DeltaAppender.trxNoName [kw "INT"]] := rfl
  have hcreate (st : Store V) :
      ReadBuffer.eval names st (.createTemp x t) = (Stmt.createTemp x).eval schema st := by
    rw [ReadBuffer.eval, Stmt.eval]
    cases st.temps x <;> rfl
  have hflag := eval_addColumn (V := V) h (j := 0) (n := DeltaAppender.deleteFlagName) (by decide) x
    [kw "BOOL"] schema
  have hrowNo := eval_addColumn (V := V) h (j := 1) (n := DeltaAppender.rowNoName) (by decide) x
    [kw "INT"] schema
  have htrxNo := eval_addColumn (V := V) h (j := 2) (n := DeltaAppender.trxNoName) (by decide) x
    [kw "INT"] schema
  rw [execBufferText, initializeText_eq, readScript_sent, Option.bind_some, hmeaning]
  simp only [List.foldlM_cons, List.foldlM_nil, hcreate, hflag, hrowNo, htrxNo]

/-- For every table, whatever its name and those of its columns, if no column has the name of an
auxiliary one, the three texts in the life of a buffer table do what the model of the appender says:
the script that creates it, the texts of the flush on any buffered rows, and the one that drops
it. -/
theorem bufferTexts_eval (d : DeltaAppender V) (names : List Name) (schema : Name) (st : Store V)
    (h : NamedKey names d.pkList) :
    execBufferText names
          (DeltaAppender.initializeText d.name (bufTableName d.name.dbName d.name.tableName)) st =
        (Stmt.createTemp d.tmpTableName :: Stmt.addColumns d.tmpTableName).foldlM
          (fun st q => q.eval schema st) st ∧
      (∀ rows idempotentFlag, st.temps d.tmpTableName = some (.ready rows) →
        (∀ r ∈ rows, r.cols.length = names.length) →
        (d.flushTexts names idempotentFlag).foldlM (fun st sql => execBufferText names sql st) st =
          (d.flushScript idempotentFlag).foldlM (fun st q => q.eval schema st) st) ∧
      execBufferText names
          (DeltaAppender.cleanupText (bufTableName d.name.dbName d.name.tableName)) st =
        (Stmt.dropTempIfExists d.tmpTableName).eval schema st := by
  refine ⟨execBufferText_initializeText h d.name _ schema st,
    fun rows idempotentFlag hx hrows => ?_, ?_⟩
  · rw [DeltaAppender.flushTexts, DeltaAppender.flushScript, List.foldlM_append, List.foldlM_append,
      List.foldlM_append, List.foldlM_append,
      foldlM_optional d h hx hrows (d.hasDelete || idempotentFlag) true schema]
    cases hdelete : (if d.hasDelete || idempotentFlag then d.generateQuery true else []).foldlM
        (fun st q => Stmt.eval schema st q) st with
    | none => simp only [Option.bind_eq_bind, Option.bind_none]
    | some st₁ =>
        -- the buffer table is still there for the INSERT
        have hx₁ : st₁.temps d.tmpTableName = some (.ready rows) := by
          rw [temps_generateQuery d _ true hdelete, hx]
        have hinsert := foldlM_optional d h hx₁ hrows d.hasInsert false schema
        simp only [Option.bind_eq_bind, Option.bind_some, hinsert]
        refine congrArg _ (funext fun st₂ => ?_)
        simp [execBufferText_dropText _ _ schema, DeltaAppender.tmpTableName]
  · rw [execBufferText, readScript_cleanupText, Option.bind_some]
    simp [ReadBuffer.eval, Stmt.eval, DeltaAppender.tmpTableName]

/-- Two versions of key 1 and a delete marker of key 2: the newer version is inserted, and the row of
key 2 is deleted. -/
theorem bufferTexts_eval_quoted :
    let names : List Name := [['i', 'd'], ['v', dquote]]
    let d : DeltaAppender ℕ := ⟨true, ⟨['d'], ['t', dquote]⟩, [0], 3, true, true, true, .cleared⟩
    let rows : List (BufRow ℕ) := [⟨[some 1, none], some ⟨false, 1, 0⟩⟩,
      ⟨[some 1, some 4], some ⟨false, 2, 0⟩⟩, ⟨[some 2, some 5], some ⟨true, 3, 0⟩⟩]
    let st : Store ℕ := (Store.ofTables fun t =>
      if t = d.name then {[some 2, some 5], [some 3, some 6]} else 0).setTemp d.tmpTableName
        (some (.ready rows))
    (d.flushTexts names false).foldlM (fun st sql => execBufferText names sql st) st =
        (d.flushScript false).foldlM (fun st q => q.eval [] st) st ∧
      ((d.flushScript false).foldlM (fun st q => Stmt.eval [] st q) st).map
        (fun st => st.tables d.name) = some {[some 3, some 6], [some 1, some 4]} := by
  intro names d rows st
  have hnamed : NamedKey names d.pkList := ⟨by decide, by decide, by decide, by decide⟩
  have hx : st.temps d.tmpTableName = some (.ready rows) := by
    rw [Store.temps_setTemp, Function.update_self]
  have hrows : ∀ r ∈ rows, r.cols.length = names.length := by decide
  exact ⟨(bufferTexts_eval d names [] st hnamed).2.1 rows false hx hrows, by decide +kernel⟩

end Life

end DuckdbEngine
