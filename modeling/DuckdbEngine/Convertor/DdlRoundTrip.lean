/-
Generated DDL is read as it is meant.

Names are quoted, and so are the literals of defaults; types are words, numbers and
punctuation.  Only the text of a default expression comes from elsewhere: the server
prints it, and it is assumed to be a complete expression (`Field.ExprSound`).  Then
DuckDB reads every script of the convertors as the list of statements that it was made
from, whatever the names and the literals are.
-/
import Mathlib.Data.List.TakeWhile
import DuckdbEngine.Convertor.DdlText

namespace DuckdbEngine

open Sql

/-! ### Token lists with parentheses -/

/-- From the given nesting on the parentheses match, and there is no comma outside of them. -/
def Level : ℕ → List Token → Prop
  | depth, [] => depth = 0
  | depth, t :: ts =>
      (t = comma → depth ≠ 0) ∧ (t = closeParen → depth ≠ 0) ∧ Level (depthAfter depth t) ts

instance decidableLevel : (depth : ℕ) → (ts : List Token) → Decidable (Level depth ts)
  | depth, [] => inferInstanceAs (Decidable (depth = 0))
  | depth, t :: ts =>
      have := decidableLevel (depthAfter depth t) ts
      inferInstanceAs (Decidable ((t = comma → depth ≠ 0) ∧ (t = closeParen → depth ≠ 0) ∧
        Level (depthAfter depth t) ts))

lemma Level.append {ts us : List Token} {depth : ℕ} (h : Level depth ts) (hus : Level 0 us) :
    Level depth (ts ++ us) := by
  induction ts generalizing depth with
  | nil =>
      cases h
      exact hus
  | cons t ts ih => exact ⟨h.1, h.2.1, ih h.2.2⟩

lemma splitTop_append {ts : List Token} {depth : ℕ} (h : Level depth ts) (us : List Token) :
    splitTop depth (ts ++ comma :: us) = ts :: splitTop 0 us := by
  induction ts generalizing depth with
  | nil =>
      cases h
      rw [List.nil_append, splitTop, if_pos ⟨rfl, rfl⟩]
  | cons t ts ih =>
      rw [List.cons_append, splitTop, if_neg fun hc => h.1 hc.1 hc.2, ih h.2.2]
      rfl

lemma splitTop_single {ts : List Token} {depth : ℕ} (h : Level depth ts) :
    splitTop depth ts = [ts] := by
  induction ts generalizing depth with
  | nil => rfl
  | cons t ts ih =>
      rw [splitTop, if_neg fun hc => h.1 hc.1 hc.2, ih h.2.2]
      rfl

/-- A list that was put together with commas is split into its parts. -/
lemma splitTop_joinWith {xs : List (List Token)} (hne : xs ≠ []) (h : ∀ x ∈ xs, Level 0 x) :
    splitTop 0 (joinWith [comma] xs) = xs := by
  induction xs with
  | nil => exact absurd rfl hne
  | cons x xs ih =>
      obtain ⟨hx, hxs⟩ := List.forall_mem_cons.1 h
      cases xs with
      | nil => exact splitTop_single hx
      | cons y xs =>
          rw [joinWith, List.append_assoc, List.singleton_append, splitTop_append hx,
            ih (List.cons_ne_nil y xs) hxs]

/-! ### Texts that come from elsewhere -/

/-- A text that stays within its place in a statement. -/
structure SoundText (t : Text) : Prop where
  closed : Closed t (lex t)
  single : semicolon ∉ lex t
  level : Level 0 (lex t)

/-- A type: it also has no keyword in it that ends a type. -/
structure SoundType (t : Text) : Prop extends SoundText t where
  notNot : kw "NOT" ∉ lex t
  notDefault : kw "DEFAULT" ∉ lex t

/-- The text of the default expression is a complete expression. -/
structure Field.ExprSound (f : Field) : Prop where
  closed : ∀ expr ∈ f.defaultExpr, Closed expr (lex expr)
  single : ∀ expr ∈ f.defaultExpr, semicolon ∉ lex expr
  level : ∀ expr ∈ f.defaultExpr, Level 1 (lex expr ++ [closeParen])

lemma soundText_of_closed {t : Text} {ts : List Token} (h : Closed t ts) (hsingle : semicolon ∉ ts)
    (hlevel : Level 0 ts) : SoundText t := by
  obtain rfl := h.lex_eq
  exact ⟨h, hsingle, hlevel⟩

lemma soundType_of_closed {t : Text} {ts : List Token} (h : Closed t ts) (hsingle : semicolon ∉ ts)
    (hlevel : Level 0 ts) (hnot : kw "NOT" ∉ ts) (hdefault : kw "DEFAULT" ∉ ts) : SoundType t := by
  obtain rfl := h.lex_eq
  exact ⟨⟨h, hsingle, hlevel⟩, hnot, hdefault⟩

/-- The parenthesized text of a default expression. -/
lemma Field.ExprSound.soundText {f : Field} (h : f.ExprSound) {expr : Text}
    (hexpr : f.defaultExpr = some expr) : SoundText ("(".toList ++ expr ++ ")".toList) := by
  have hopen : Free ['('] [openParen] := free_symbol (by decide) (by decide)
  have hclose : Free [')'] [closeParen] := free_symbol (by decide) (by decide)
  have hfree := ((hopen.append_closed (h.closed expr hexpr)).append_free hclose rfl (by decide))
  refine soundText_of_closed hfree.closed ?_ ?_
  · have hsingle := h.single expr hexpr
    simp only [List.mem_append, List.mem_singleton, not_or]
    exact ⟨⟨by decide, hsingle⟩, by decide⟩
  · exact ⟨by decide, by decide, h.level expr hexpr⟩

/-- A literal default is one token, or a blob literal with its cast. -/
lemma exists_closed_literal (f : Field) (castBit : Bool) :
    ∃ ts, Closed (getFieldDefaultForDuckdb f castBit) ts ∧ (ts = [.word nullWord] ∨
      ∃ content, ts = [.string content] ∨
        ts = .string content :: [Atom.cast, .word blobWord].filterMap Atom.token) := by
  rw [getFieldDefaultForDuckdb]
  split
  · have hfits : Fits [.word nullWord] (some ' ') := by decide
    exact ⟨_, closed_textOf hfits, Or.inl rfl⟩
  · next bytes _ =>
      split
      · have hliteral : (Atom.literal (hexBytes bytes)).Valid := squote_notMem_hexBytes bytes
        cases castBit with
        | true =>
            have hfits : Fits [.literal (hexBytes bytes), .cast, .word blobWord] (some ' ') :=
              ⟨hliteral, by simp [Atom.Follows, Atom.text, squote], by decide⟩
            have htext : squote :: hexBytes bytes ++ squote :: "::BLOB".toList =
                textOf [.literal (hexBytes bytes), .cast, .word blobWord] := by
              simp only [textOf_cons, textOf_nil, Atom.text, List.append_assoc, List.cons_append,
                List.append_nil, List.nil_append]
              rfl
            rw [if_pos rfl, htext]
            exact ⟨_, closed_textOf hfits, Or.inr ⟨_, Or.inr rfl⟩⟩
        | false =>
            have hfits : Fits [.literal (hexBytes bytes)] (some ' ') :=
              ⟨hliteral, by simp [Atom.Follows, squote], trivial⟩
            have hclosed := closed_textOf hfits
            simp only [textOf_cons, textOf_nil, Atom.text, List.append_nil] at hclosed
            exact ⟨_, hclosed, Or.inr ⟨_, Or.inl rfl⟩⟩
      · exact ⟨_, closed_quoted _, Or.inr ⟨_, Or.inl rfl⟩⟩

lemma soundText_literal (f : Field) (castBit : Bool) :
    SoundText (getFieldDefaultForDuckdb f castBit) := by
  obtain ⟨ts, hclosed, hts⟩ := exists_closed_literal f castBit
  rcases hts with rfl | ⟨content, rfl | rfl⟩
  · exact soundText_of_closed hclosed (by decide) (by decide)
  · exact soundText_of_closed hclosed (by simp [semicolon])
      ⟨by simp [comma], by simp [closeParen], rfl⟩
  · refine soundText_of_closed hclosed ?_ ⟨by simp [comma], by simp [closeParen],
      (by decide : Level 0 _)⟩
    simp [Atom.token, semicolon]

/-! ### Types -/

/-- The types of DuckDB that the convertor uses, decimals apart, with their collations. -/
def typeAtoms : List (List Atom) :=
  ([ "UUID", "TINYINT", "UTINYINT", "SMALLINT", "USMALLINT", "INTEGER", "UINTEGER", "BIGINT",
      "UBIGINT", "FLOAT", "DOUBLE", "TIMESTAMPTZ", "DATE", "TIME", "DATETIME", "BLOB", "VARCHAR",
      "__UNKNOWN_TYPE"].map fun w => [.word w.toList]) ++
    ([[.word "POSIX".toList], [.word "NOCASE".toList],
      [.word "NOCASE".toList, .symbol '.', .word "NOACCENT".toList]].map fun collation =>
        [.word "VARCHAR".toList, .space, .word "COLLATE".toList, .space] ++ collation)

def decimalAtoms (precision dec : ℕ) : List Atom :=
  [.word "DECIMAL".toList, .symbol '(', .digits (natText precision), .symbol ',',
    .digits (natText dec), .symbol ')']

lemma soundType_of_mem {as : List Atom} (h : as ∈ typeAtoms) : SoundType (textOf as) := by
  have hall : ∀ as ∈ typeAtoms, Fits as (some ' ') ∧ semicolon ∉ as.filterMap Atom.token ∧
      Level 0 (as.filterMap Atom.token) ∧ kw "NOT" ∉ as.filterMap Atom.token ∧
      kw "DEFAULT" ∉ as.filterMap Atom.token := by decide
  obtain ⟨hfits, hsingle, hlevel, hnot, hdefault⟩ := hall as h
  exact soundType_of_closed (closed_textOf hfits) hsingle hlevel hnot hdefault

lemma fits_decimalAtoms (precision dec : ℕ) : Fits (decimalAtoms precision dec) (some ' ') := by
  have hdigits (n : ℕ) : (Atom.digits (natText n)).Valid :=
    ⟨natText_ne_nil n, fun _ hc => isDigit_of_mem_natText hc⟩
  refine fits_word (by decide) rfl (by decide) (fits_symbol (by decide) (by decide) ?_)
  refine ⟨hdigits precision, ?_, fits_symbol (by decide) (by decide) ⟨hdigits dec, ?_, by decide⟩⟩
  · rintro _ ⟨⟩
    rfl
  · rintro _ ⟨⟩
    rfl

lemma soundType_decimal (precision dec : ℕ) : SoundType (textOf (decimalAtoms precision dec)) := by
  refine soundType_of_closed (closed_textOf (fits_decimalAtoms precision dec)) ?_ ?_ ?_ ?_
  · simp [decimalAtoms, Atom.token, semicolon]
  · simp [decimalAtoms, Atom.token, Level, depthAfter, comma, openParen, closeParen]
  · simp [decimalAtoms, Atom.token, kw]
  · simp [decimalAtoms, Atom.token, kw]

lemma toUpper_of_isDigit {c : Char} (h : c.isDigit = true) : c.toUpper = c := by
  have hbounds := Atom.isDigit_bounds h
  refine dif_neg fun hlower => ?_
  have hle : 97 ≤ c.toNat := hlower.1
  omega

lemma map_toUpper_natText (n : ℕ) : (natText n).map Char.toUpper = natText n := by
  conv_rhs => rw [← List.map_id (natText n)]
  exact List.map_congr_left fun c hc => toUpper_of_isDigit (isDigit_of_mem_natText hc)

lemma decimal_toUpper (precision dec : ℕ) :
    ("decimal(".toList ++ natText precision ++ ",".toList ++ natText dec ++ ")".toList).map
      Char.toUpper = textOf (decimalAtoms precision dec) := by
  simp only [List.map_append, map_toUpper_natText, decimalAtoms, textOf_cons, textOf_nil, Atom.text,
    List.append_assoc, List.append_nil]
  rfl

/-- The names of the types before they are turned into upper case. -/
def typeWords : List Text :=
  ["tinyint", "utinyint", "smallint", "usmallint", "integer", "uinteger", "bigint", "ubigint",
    "float", "double", "timestamptz", "date", "time", "datetime", "blob", "varchar",
    "__unknown_type"].map String.toList

/-- The text of a type is one of these names or that of a decimal type. -/
def IsBaseType (t : Text) : Prop :=
  t ∈ typeWords ∨ ∃ precision dec, t =
    "decimal(".toList ++ natText precision ++ ",".toList ++ natText dec ++ ")".toList

lemma IsBaseType.ite {c : Prop} [Decidable c] {t u : Text} (ht : IsBaseType t)
    (hu : IsBaseType u) : IsBaseType (if c then t else u) := by
  split
  · exact ht
  · exact hu

lemma isBaseType_baseType (cfg : Settings) {f : Field} (h : f.realType ≠ .null) :
    IsBaseType (FieldConvertor.baseType cfg f) := by
  have hclamped : IsBaseType ("decimal(38,".toList ++ natText (min 38 f.dec) ++ ")".toList) := by
    have hbegin : "decimal(38,".toList = "decimal(".toList ++ natText 38 ++ ",".toList := by decide
    exact Or.inr ⟨38, min 38 f.dec, by rw [hbegin]⟩
  have hword (w : Text) (hw : w ∈ typeWords) : IsBaseType w := Or.inl hw
  rw [FieldConvertor.baseType]
  split
  all_goals first
    | exact hword _ (by decide)
    | exact .ite (hword _ (by decide)) (hword _ (by decide))
    | exact .ite (Or.inr ⟨f.precision, f.dec, rfl⟩) (.ite (hword _ (by decide)) hclamped)
    | next hnull => exact absurd hnull h

lemma getDuckdbCollation_mem (cs : Charset) : getDuckdbCollation cs ∈
    [collationBinary, collationNocase, collationNocaseNoaccent] := by
  rw [getDuckdbCollation]
  split_ifs <;> simp

lemma soundType_convertType (cfg : Settings) {f : Field} (h : f.realType ≠ .null) :
    SoundType (FieldConvertor.convertType cfg f) := by
  have hword : ∀ w ∈ typeWords, ∃ as ∈ typeAtoms, w.map Char.toUpper = textOf as := by decide
  have hcollate : ∀ co ∈ [collationBinary, collationNocase, collationNocaseNoaccent],
      ∃ as ∈ typeAtoms,
        ("varchar".toList ++ " COLLATE ".toList ++ co).map Char.toUpper = textOf as := by decide
  have hbase : SoundType ((FieldConvertor.baseType cfg f).map Char.toUpper) := by
    rcases isBaseType_baseType cfg h with hmem | ⟨precision, dec, heq⟩
    · obtain ⟨as, has, hw⟩ := hword _ hmem
      rw [hw]
      exact soundType_of_mem has
    · rw [heq, decimal_toUpper]
      exact soundType_decimal precision dec
  rw [FieldConvertor.convertType]
  split
  · exact soundType_of_mem (List.mem_append_left _ (List.mem_map.2 ⟨"UUID", by decide, rfl⟩))
  · dsimp only
    split
    · next cs _ =>
        split
        · next hvarchar =>
            obtain ⟨as, has, hco⟩ := hcollate _ (getDuckdbCollation_mem cs)
            rw [hvarchar, hco]
            exact soundType_of_mem has
        · exact hbase
    · exact hbase

/-! ### Statements -/

lemma free_keywords (as : List Atom) {t : Text} {ts : List Token} (h : Fits as (some ' '))
    (ht : textOf as ++ [' '] = t) (hts : as.filterMap Atom.token = ts) : Free t ts := by
  subst ht hts
  exact free_words h

lemma closed_keywords (as : List Atom) {t : Text} {ts : List Token} (h : Fits as (some ' '))
    (ht : textOf as = t) (hts : as.filterMap Atom.token = ts) : Closed t ts := by
  subst ht hts
  exact closed_textOf h

/-- The USE statement. -/
def Sent.use (schema : Name) : Sent readDdl where
  text := "USE ".toList ++ quoteDuckdbIdentifier schema ++ ";".toList
  tokens := [kw "USE", .ident schema]
  meaning := .use schema
  free := ((free_keywords [.word "USE".toList] (by decide) (by decide) rfl).append_closed
    (closed_identifier schema)).append_free free_semicolon rfl (by decide)
  reads := ⟨List.cons_ne_nil _ _, by simp [kw, semicolon], rfl⟩

@[simp] lemma Sent.text_use (schema : Name) : (Sent.use schema).text =
    "USE ".toList ++ quoteDuckdbIdentifier schema ++ ";".toList := rfl

/-- What DuckDB makes of a change. -/
def AlterStmt.read : AlterStmt → ReadChange
  | .columnAdd n type default => .columnAdd n (lex type) (default.map lex)
  | .columnDrop n => .columnDrop n
  | .columnRename o n => .columnRename o n
  | .columnChangeType n type => .columnChangeType n (lex type)
  | .columnAlter n (.setDefault value) => .setDefault n (lex value)
  | .columnAlter n .dropDefault => .dropDefault n
  | .columnAlter n .setNotNull => .setNotNull n
  | .columnAlter n .dropNotNull => .dropNotNull n

/-- The types and the defaults of a change stay within their places. -/
def AlterStmt.Sound : AlterStmt → Prop
  | .columnAdd _ type default => SoundType type ∧ ∀ d ∈ default, SoundText d
  | .columnChangeType _ type => SoundType type
  | .columnAlter _ (.setDefault value) => SoundText value
  | _ => True

/-- The part of the text behind the column. -/
def ColumnChange.opText : ColumnChange → Text
  | .setDefault value => " SET DEFAULT ".toList ++ value
  | .dropDefault => " DROP DEFAULT".toList
  | .setNotNull => " SET NOT NULL".toList
  | .dropNotNull => " DROP NOT NULL".toList

def ColumnChange.opTokens : ColumnChange → List Token
  | .setDefault value => [kw "SET", kw "DEFAULT"] ++ lex value
  | .dropDefault => [kw "DROP", kw "DEFAULT"]
  | .setNotNull => [kw "SET", kw "NOT", kw "NULL"]
  | .dropNotNull => [kw "DROP", kw "NOT", kw "NULL"]

/-- The part of the text behind the table. -/
def AlterStmt.opText : AlterStmt → Text
  | .columnAdd n type default =>
      " ADD COLUMN ".toList ++ quoteDuckdbIdentifier n ++ " ".toList ++ type ++
        default.elim [] fun d => " DEFAULT ".toList ++ d
  | .columnDrop n => " DROP COLUMN ".toList ++ quoteDuckdbIdentifier n
  | .columnRename o n =>
      " RENAME COLUMN ".toList ++ quoteDuckdbIdentifier o ++ " TO ".toList ++
        quoteDuckdbIdentifier n
  | .columnChangeType n type =>
      " ALTER COLUMN ".toList ++ quoteDuckdbIdentifier n ++ " SET DATA TYPE ".toList ++ type
  | .columnAlter n change => " ALTER COLUMN ".toList ++ quoteDuckdbIdentifier n ++ change.opText

def AlterStmt.opTokens : AlterStmt → List Token
  | .columnAdd n type default =>
      [kw "ADD", kw "COLUMN"] ++ [.ident n] ++ [] ++ lex type ++
        default.elim [] fun d => [kw "DEFAULT"] ++ lex d
  | .columnDrop n => [kw "DROP", kw "COLUMN"] ++ [.ident n]
  | .columnRename o n => [kw "RENAME", kw "COLUMN"] ++ [.ident o] ++ [kw "TO"] ++ [.ident n]
  | .columnChangeType n type =>
      [kw "ALTER", kw "COLUMN"] ++ [.ident n] ++ [kw "SET", kw "DATA", kw "TYPE"] ++ lex type
  | .columnAlter n change => [kw "ALTER", kw "COLUMN"] ++ [.ident n] ++ change.opTokens

section OpText

variable (n o : Name) (type : Text) (default : Option Text) (change : ColumnChange)

-- stated one by one: unfolding the match would evaluate the keywords
@[simp] lemma AlterStmt.opText_columnAdd : (AlterStmt.columnAdd n type default).opText =
    " ADD COLUMN ".toList ++ quoteDuckdbIdentifier n ++ " ".toList ++ type ++
      default.elim [] fun d => " DEFAULT ".toList ++ d := rfl

@[simp] lemma AlterStmt.opText_columnDrop : (AlterStmt.columnDrop n).opText =
    " DROP COLUMN ".toList ++ quoteDuckdbIdentifier n := rfl

@[simp] lemma AlterStmt.opText_columnRename : (AlterStmt.columnRename o n).opText =
    " RENAME COLUMN ".toList ++ quoteDuckdbIdentifier o ++ " TO ".toList ++
      quoteDuckdbIdentifier n := rfl

@[simp] lemma AlterStmt.opText_columnChangeType : (AlterStmt.columnChangeType n type).opText =
    " ALTER COLUMN ".toList ++ quoteDuckdbIdentifier n ++ " SET DATA TYPE ".toList ++ type := rfl

@[simp] lemma AlterStmt.opText_columnAlter : (AlterStmt.columnAlter n change).opText =
    " ALTER COLUMN ".toList ++ quoteDuckdbIdentifier n ++ change.opText := rfl

@[simp] lemma ColumnChange.opText_setDefault (value : Text) :
    (ColumnChange.setDefault value).opText = " SET DEFAULT ".toList ++ value := rfl

@[simp] lemma ColumnChange.opText_dropDefault :
    ColumnChange.dropDefault.opText = " DROP DEFAULT".toList := rfl

@[simp] lemma ColumnChange.opText_setNotNull :
    ColumnChange.setNotNull.opText = " SET NOT NULL".toList := rfl

@[simp] lemma ColumnChange.opText_dropNotNull :
    ColumnChange.dropNotNull.opText = " DROP NOT NULL".toList := rfl

end OpText

/-- The USE statement and the change are two statements. -/
lemma append_eq (t : TableName) (output : Text) (q : AlterStmt) :
    q.append t output = output ++ ((Sent.use t.dbName).text ++
      ("ALTER TABLE ".toList ++ quoteDuckdbIdentifier t.tableName ++ q.opText ++ ";".toList)) := by
  cases q with
  | columnAlter n change =>
      cases change <;>
        simp only [AlterStmt.append, AlterStmt.opText_columnAlter, ColumnChange.opText_setDefault,
          ColumnChange.opText_dropDefault, ColumnChange.opText_setNotNull,
          ColumnChange.opText_dropNotNull, appendStmtColumnSetDefault, appendStmtColumnOp,
          appendStmtColumnDropDefault, appendStmtColumnSetNotNull, appendStmtColumnDropNotNull,
          appendStmtAlterTable, Sent.text_use, List.append_assoc]
  | _ =>
      simp only [AlterStmt.append, AlterStmt.opText_columnAdd, AlterStmt.opText_columnDrop,
        AlterStmt.opText_columnRename, AlterStmt.opText_columnChangeType, appendStmtColumnAdd,
        appendStmtColumnDrop, appendStmtColumnRename, appendStmtColumnChangeType,
        appendStmtAlterTable, Sent.text_use, List.append_assoc]

section Op

variable (n : Name)

lemma closed_column (as : List Atom) {t : Text} {ts : List Token} (h : Fits as (some ' '))
    (ht : textOf as ++ [' '] = t) (hts : as.filterMap Atom.token = ts) :
    Closed (t ++ quoteDuckdbIdentifier n) (ts ++ [.ident n]) :=
  (free_keywords as h ht hts).append_closed (closed_identifier n)

lemma closed_alterColumn :
    Closed (" ALTER COLUMN ".toList ++ quoteDuckdbIdentifier n)
      ([kw "ALTER", kw "COLUMN"] ++ [.ident n]) :=
  closed_column n [.space, .word "ALTER".toList, .space, .word "COLUMN".toList]
    (by decide) (by decide) rfl

end Op

lemma closed_changeText {change : ColumnChange}
    (h : ∀ value, change = .setDefault value → SoundText value) :
    Closed change.opText change.opTokens := by
  cases change with
  | setDefault value =>
      have hkw : Free " SET DEFAULT ".toList [kw "SET", kw "DEFAULT"] :=
        free_keywords [.space, .word "SET".toList, .space, .word "DEFAULT".toList]
          (by decide) (by decide) rfl
      exact hkw.append_closed (h value rfl).closed
  | dropDefault =>
      exact closed_keywords [.space, .word "DROP".toList, .space, .word "DEFAULT".toList]
        (by decide) (by decide) rfl
  | setNotNull =>
      exact closed_keywords [.space, .word "SET".toList, .space, .word "NOT".toList, .space,
        .word "NULL".toList] (by decide) (by decide) rfl
  | dropNotNull =>
      exact closed_keywords [.space, .word "DROP".toList, .space, .word "NOT".toList, .space,
        .word "NULL".toList] (by decide) (by decide) rfl

lemma closed_opText {q : AlterStmt} (h : q.Sound) : Closed q.opText q.opTokens := by
  cases q with
  | columnAdd n type default =>
      obtain ⟨htype, hdefault⟩ := h
      have hcolumn : Closed (" ADD COLUMN ".toList ++ quoteDuckdbIdentifier n)
          ([kw "ADD", kw "COLUMN"] ++ [.ident n]) :=
        closed_column n [.space, .word "ADD".toList, .space, .word "COLUMN".toList]
          (by decide) (by decide) rfl
      have hadd := (hcolumn.append_free free_space rfl (by decide)).append_closed htype.closed
      cases default with
      | none =>
          rw [AlterStmt.opText_columnAdd, AlterStmt.opTokens, Option.elim_none, Option.elim_none,
            List.append_nil, List.append_nil]
          exact hadd
      | some d =>
          have hkw : Free " DEFAULT ".toList [kw "DEFAULT"] :=
            free_keywords [.space, .word "DEFAULT".toList] (by decide) (by decide) rfl
          exact hadd.append (hkw.append_closed (hdefault d rfl).closed) rfl (by decide)
  | columnDrop n =>
      exact closed_column n [.space, .word "DROP".toList, .space, .word "COLUMN".toList]
        (by decide) (by decide) rfl
  | columnRename o n =>
      have hcolumn : Closed (" RENAME COLUMN ".toList ++ quoteDuckdbIdentifier o)
          ([kw "RENAME", kw "COLUMN"] ++ [.ident o]) :=
        closed_column o [.space, .word "RENAME".toList, .space, .word "COLUMN".toList]
          (by decide) (by decide) rfl
      have hkw : Free " TO ".toList [kw "TO"] :=
        free_keywords [.space, .word "TO".toList] (by decide) (by decide) rfl
      exact (hcolumn.append_free hkw rfl (by decide)).append_closed (closed_identifier n)
  | columnChangeType n type =>
      have hkw : Free " SET DATA TYPE ".toList [kw "SET", kw "DATA", kw "TYPE"] :=
        free_keywords [.space, .word "SET".toList, .space, .word "DATA".toList, .space,
          .word "TYPE".toList] (by decide) (by decide) rfl
      exact ((closed_alterColumn n).append_free hkw rfl (by decide)).append_closed h.closed
  | columnAlter n change =>
      have hchange : ∀ value, change = .setDefault value → SoundText value := by
        rintro value rfl
        exact h
      have hspace : change.opText.head? = some ' ' := by cases change <;> rfl
      exact (closed_alterColumn n).append (closed_changeText hchange) hspace (by decide)

/-! ### Reading the changes -/

lemma readTypeDefault_append {ts : List Token} (h : kw "DEFAULT" ∉ ts) (us : List Token) :
    readTypeDefault (ts ++ kw "DEFAULT" :: us) = (ts, some us) := by
  have hts : ∀ t ∈ ts, decide (t ≠ kw "DEFAULT") = true := fun t ht =>
    decide_eq_true fun heq => h (heq ▸ ht)
  rw [readTypeDefault, List.takeWhile_append_of_pos hts, List.dropWhile_append_of_pos hts,
    List.takeWhile_cons_of_neg (by simp), List.dropWhile_cons_of_neg (by simp), List.append_nil]

lemma readTypeDefault_self {ts : List Token} (h : kw "DEFAULT" ∉ ts) :
    readTypeDefault ts = (ts, none) := by
  have hts : ∀ t ∈ ts, decide (t ≠ kw "DEFAULT") = true := fun t ht =>
    decide_eq_true fun heq => h (heq ▸ ht)
  rw [readTypeDefault, List.takeWhile_eq_self_iff.2 hts, List.dropWhile_eq_nil_iff.2 hts]

lemma readChange_opTokens {q : AlterStmt} (h : q.Sound) : readChange q.opTokens = some q.read := by
  cases q with
  | columnAdd n type default =>
      have hread (us : List Token) : readChange (kw "ADD" :: kw "COLUMN" :: .ident n :: us) =
          some (.columnAdd n (readTypeDefault us).1 (readTypeDefault us).2) := rfl
      have htokens : (AlterStmt.columnAdd n type default).opTokens =
          kw "ADD" :: kw "COLUMN" :: .ident n ::
            (lex type ++ default.elim [] fun d => [kw "DEFAULT"] ++ lex d) := by
        simp [AlterStmt.opTokens]
      rw [htokens, hread]
      cases default with
      | none =>
          rw [Option.elim_none, List.append_nil, readTypeDefault_self h.1.notDefault]
          rfl
      | some d =>
          rw [Option.elim_some, List.singleton_append, readTypeDefault_append h.1.notDefault]
          rfl
  | columnDrop n => rfl
  | columnRename o n => rfl
  | columnChangeType n type => rfl
  | columnAlter n change => cases change <;> rfl

@[simp] lemma semicolon_ne_kw (w : String) : semicolon ≠ kw w := fun h => by cases h

@[simp] lemma semicolon_ne_ident (n : Name) : semicolon ≠ .ident n := fun h => by cases h

lemma semicolon_notMem_opTokens {q : AlterStmt} (h : q.Sound) : semicolon ∉ q.opTokens := by
  cases q with
  | columnAdd n type default =>
      have htype := h.1.single
      cases default with
      | none => simp [AlterStmt.opTokens, htype]
      | some d =>
          have hd := (h.2 d rfl).single
          simp [AlterStmt.opTokens, htype, hd]
  | columnDrop n => simp [AlterStmt.opTokens]
  | columnRename o n => simp [AlterStmt.opTokens]
  | columnChangeType n type =>
      have htype : semicolon ∉ lex type := h.single
      simp [AlterStmt.opTokens, htype]
  | columnAlter n change =>
      cases change with
      | setDefault value =>
          have hvalue : semicolon ∉ lex value := SoundText.single h
          simp [AlterStmt.opTokens, ColumnChange.opTokens, hvalue]
      | _ => simp [AlterStmt.opTokens, ColumnChange.opTokens]

lemma readDdl_alterTable (table : Name) {us : List Token} {c : ReadChange}
    (h : readChange us = some c) :
    readDdl (kw "ALTER" :: kw "TABLE" :: .ident table :: us) = some (.alterTable table c) := by
  have hread : readAlterTable (kw "ALTER" :: kw "TABLE" :: .ident table :: us) =
      (readChange us).map (.alterTable table) := rfl
  have hothers : readDdl (kw "ALTER" :: kw "TABLE" :: .ident table :: us) =
      (readAlterTable (kw "ALTER" :: kw "TABLE" :: .ident table :: us) <|> none) := rfl
  rw [hothers, hread, h]
  rfl

/-- A change of a table as a statement of its own. -/
def Sent.alter (table : Name) (q : AlterStmt) (h : q.Sound) : Sent readDdl where
  text := "ALTER TABLE ".toList ++ quoteDuckdbIdentifier table ++ q.opText ++ ";".toList
  tokens := [kw "ALTER", kw "TABLE"] ++ [.ident table] ++ q.opTokens
  meaning := .alterTable table q.read
  free := by
    have htable : Closed ("ALTER TABLE ".toList ++ quoteDuckdbIdentifier table)
        ([kw "ALTER", kw "TABLE"] ++ [.ident table]) :=
      closed_column table [.word "ALTER".toList, .space, .word "TABLE".toList]
        (by decide) (by decide) rfl
    have hspace : q.opText.head? = some ' ' := by cases q <;> rfl
    exact (htable.append (closed_opText h) hspace (by decide)).append_free free_semicolon rfl
      (by decide)
  reads := by
    refine ⟨List.cons_ne_nil _ _, ?_, readDdl_alterTable table (readChange_opTokens h)⟩
    have hop := semicolon_notMem_opTokens h
    simp [hop]

/-- The statements of a change of the table. -/
def sentOf (t : TableName) (q : { q : AlterStmt // q.Sound }) : List (Sent readDdl) :=
  [Sent.use t.dbName, Sent.alter t.tableName q.1 q.2]

lemma foldl_append_eq (t : TableName) (qs : List { q : AlterStmt // q.Sound }) (output : Text) :
    (qs.map Subtype.val).foldl (AlterStmt.append t) output =
      output ++ (qs.flatMap (sentOf t)).flatMap Sent.text := by
  induction qs generalizing output with
  | nil => exact (List.append_nil _).symm
  | cons q qs ih =>
      have hsent : (sentOf t q).flatMap Sent.text = (Sent.use t.dbName).text ++
          ("ALTER TABLE ".toList ++ quoteDuckdbIdentifier t.tableName ++ q.1.opText ++
            ";".toList) := by
        rw [sentOf, List.flatMap_cons, List.flatMap_cons, List.flatMap_nil, List.append_nil]
        rfl
      rw [List.map_cons, List.foldl_cons, ih, append_eq, List.flatMap_cons, List.flatMap_append,
        hsent, List.append_assoc]

/-- What DuckDB reads in the text of changes of a table. -/
def AlterStmt.script (t : TableName) (qs : List AlterStmt) : List ReadDdl :=
  qs.flatMap fun q => [.use t.dbName, .alterTable t.tableName q.read]

theorem readScript_changes (t : TableName) {qs : List AlterStmt} (h : ∀ q ∈ qs, q.Sound) :
    readScript readDdl (qs.foldl (AlterStmt.append t) []) = some (AlterStmt.script t qs) := by
  obtain ⟨qs, rfl⟩ : ∃ qs' : List { q : AlterStmt // q.Sound }, qs = qs'.map Subtype.val :=
    ⟨qs.attachWith _ h, by simp⟩
  rw [foldl_append_eq, List.nil_append, readScript_sent, AlterStmt.script, List.map_flatMap,
    List.flatMap_map]
  rfl

/-! ### ALTER TABLE -/

/-- What is assumed about the altered table: the texts of default expressions are complete, and
every field has a type. -/
structure AlterInplaceInfo.TextsSound (a : AlterInplaceInfo) : Prop where
  expr : ∀ f ∈ a.newTable, f.ExprSound
  typed : ∀ f ∈ a.newTable, f.realType ≠ .null

namespace AlterInplaceInfo

variable {a : AlterInplaceInfo} (cfg : Settings)

lemma mem_of_findField {e : CreateField} {f : Field} {fields : List Field}
    (h : findField e fields = some f) : f ∈ fields := List.mem_of_find?_eq_some h

/-- The text of an expression that is there comes from the field. -/
lemma soundText_expr {f : Field} (h : f.ExprSound) (hne : ¬(getExprDefaultText f).isEmpty) :
    SoundText ("(".toList ++ getExprDefaultText f ++ ")".toList) := by
  cases hexpr : f.defaultExpr with
  | none => simp [getExprDefaultText, hexpr] at hne
  | some expr =>
      rw [getExprDefaultText, hexpr, Option.getD_some]
      exact h.soundText hexpr

lemma soundText_addDefault (e : CreateField) (f : Field) : ∀ d ∈ addDefault e f, SoundText d := by
  have hnow : SoundText "CURRENT_TIMESTAMP".toList := by
    have hfits : Fits [.word "CURRENT_TIMESTAMP".toList] (some ' ') := by decide
    exact soundText_of_closed (closed_textOf hfits) (by decide) (by decide)
  intro d hd
  rw [addDefault] at hd
  split_ifs at hd <;> cases hd
  · exact hnow
  · exact soundText_literal f false
  · exact soundText_literal f false

lemma sound_addColumn (h : a.TextsSound) :
    ∀ q ∈ (a.addColumnConvertor cfg).translate, q.Sound := by
  intro q hq
  simp only [addColumnConvertor, List.mem_append, List.mem_map] at hq
  rcases hq with (⟨p, hp, rfl⟩ | ⟨p, -, rfl⟩) | ⟨p, -, rfl⟩
  · obtain ⟨e, -, he⟩ := List.mem_filterMap.1 hp
    split at he
    · cases he
    · obtain ⟨f, hf, rfl⟩ := Option.map_eq_some_iff.1 he
      exact ⟨soundType_convertType cfg (h.typed f (mem_of_findField hf)), soundText_addDefault e f⟩
  · trivial
  · trivial

lemma sound_changeDefault {e : CreateField} {old f : Field} (h : f.ExprSound) (n : Name) :
    ∀ c ∈ changeDefault e old f, (AlterStmt.columnAlter n c).Sound := by
  intro c hc
  simp only [changeDefault] at hc
  split_ifs at hc with _ _ _ _ hempty <;> cases hc
  · trivial
  · trivial
  · exact soundText_expr h (by simpa using hempty)
  · exact soundText_literal f true

lemma mem_of_mem_changedColumns {p : CreateField × Field × Field} (h : p ∈ a.changedColumns) :
    p.2.2 ∈ a.newTable := by
  obtain ⟨e, -, he⟩ := List.mem_filterMap.1 h
  split at he
  · cases he
  · split at he
    · next hnew =>
        cases he
        exact mem_of_findField hnew
    · cases he

lemma sound_changeColumn (h : a.TextsSound) :
    ∀ q ∈ (a.changeColumnConvertor cfg).translate, q.Sound := by
  intro q hq
  simp only [changeColumnConvertor, List.mem_append, List.mem_map, List.mem_filterMap] at hq
  rcases hq with (((⟨p, -, rfl⟩ | ⟨p, hp, rfl⟩) | ⟨p, hp, hq⟩) | ⟨p, -, rfl⟩) | ⟨p, -, rfl⟩
  · trivial
  · have hmem := mem_of_mem_changedColumns (List.mem_of_mem_filter hp)
    exact soundType_convertType cfg (h.typed _ hmem)
  · obtain ⟨c, hc, rfl⟩ := Option.map_eq_some_iff.1 hq
    exact sound_changeDefault (h.expr _ (mem_of_mem_changedColumns hp)) _ c hc
  · trivial
  · trivial

lemma sound_defaultChange {old new : Field} (h : new.ExprSound) (n : Name) :
    ∀ c ∈ defaultChange cfg old new, (AlterStmt.columnAlter n c).Sound := by
  have hset : (AlterStmt.columnAlter n (.setDefault
      (if (getExprDefaultText new).isEmpty then getFieldDefaultForDuckdb new true
       else "(".toList ++ getExprDefaultText new ++ ")".toList))).Sound := by
    show SoundText _
    split
    · exact soundText_literal new true
    · next hne => exact soundText_expr h hne
  intro c hc
  simp only [defaultChange] at hc
  generalize hs : some (ColumnChange.setDefault
      (if (getExprDefaultText new).isEmpty then getFieldDefaultForDuckdb new true
       else "(".toList ++ getExprDefaultText new ++ ")".toList)) = s at hc
  -- every branch has no change, drops the default or sets it
  obtain hc | hc | hc :
      c ∈ s ∨ c ∈ some ColumnChange.dropDefault ∨ c ∈ (none : Option ColumnChange) := by
    split_ifs at hc
    all_goals first | exact Or.inl hc | exact Or.inr (Or.inl hc) | exact Or.inr (Or.inr hc) | skip
    split at hc
    all_goals first | exact Or.inl hc | exact Or.inr (Or.inl hc) | exact Or.inr (Or.inr hc) | skip
    split_ifs at hc
    all_goals first | exact Or.inl hc | exact Or.inr (Or.inr hc)
  · subst hs
    cases hc
    exact hset
  · cases hc
    trivial
  · cases hc

lemma sound_changeColumnDefault (h : a.TextsSound) :
    ∀ q ∈ (a.changeColumnDefaultConvertor cfg).translate, q.Sound := by
  have hall : ∀ x ∈ a.changedDefaults cfg, (AlterStmt.columnAlter x.1 x.2).Sound := by
    intro x hx
    obtain ⟨new, hnew, hx⟩ := List.mem_filterMap.1 hx
    obtain ⟨old, -, hx⟩ := Option.bind_eq_some_iff.1 hx
    obtain ⟨c, hc, rfl⟩ := Option.map_eq_some_iff.1 hx
    exact sound_defaultChange cfg (h.expr new hnew) _ c hc
  intro q hq
  simp only [changeColumnDefaultConvertor, List.mem_append, List.mem_map] at hq
  rcases hq with ⟨x, hx, rfl⟩ | ⟨x, hx, rfl⟩
  · exact hall x (List.mem_of_mem_filter hx)
  · exact hall x (List.mem_of_mem_filter hx)

/-- All changes of the convertors stay within their places. -/
lemma sound_convertors (h : a.TextsSound) :
    ∀ c ∈ a.convertors cfg, ∀ q ∈ c.translate, q.Sound := by
  have hite {b : Prop} [Decidable b] {c c' : AlterTableConvertor}
      (hc : c' ∈ if b then [c] else []) : c' = c := by
    split at hc
    · exact List.mem_singleton.1 hc
    · cases hc
  intro c hc
  simp only [convertors, List.mem_append] at hc
  rcases hc with (((hc | hc) | hc) | hc) | hc
  · rw [hite hc]
    exact sound_addColumn cfg h
  · rw [hite hc]
    intro q hq
    obtain ⟨f, -, rfl⟩ := List.mem_map.1 hq
    trivial
  · rw [hite hc]
    exact sound_changeColumn cfg h
  · rw [hite hc]
    exact sound_changeColumnDefault cfg h
  · rw [hite hc]
    intro q hq
    obtain ⟨f, -, rfl⟩ := List.mem_map.1 hq
    trivial

end AlterInplaceInfo

lemma AlterStmt.script_append (t : TableName) (qs qs' : List AlterStmt) :
    AlterStmt.script t (qs ++ qs') = AlterStmt.script t qs ++ AlterStmt.script t qs' :=
  List.flatMap_append

/-- The scripts of the convertors, one after another, are those of their changes. -/
lemma mapM_readScript {t : TableName} {cs : List AlterTableConvertor}
    (h : ∀ c ∈ cs, ∀ q ∈ c.translate, q.Sound) :
    (((cs.map (AlterTableConvertor.text t)).filter fun sql => !sql.isEmpty).mapM
        (readScript readDdl)).map List.flatten =
      some (AlterStmt.script t (cs.flatMap AlterTableConvertor.translate)) := by
  induction cs with
  | nil => rfl
  | cons c cs ih =>
      obtain ⟨hc, hcs⟩ := List.forall_mem_cons.1 h
      have hread : readScript readDdl (c.text t) = some (AlterStmt.script t c.translate) :=
        readScript_changes t hc
      have hrest := ih hcs
      rw [List.map_cons, List.filter_cons, List.flatMap_cons, AlterStmt.script_append]
      cases htext : c.text t with
      | nil =>
          have hnil : readScript readDdl [] = some [] := rfl
          rw [htext, hnil, Option.some_inj] at hread
          rw [← hread]
          exact hrest
      | cons x sql =>
          obtain ⟨scripts, hscripts, hflat⟩ := Option.map_eq_some_iff.1 hrest
          rw [← htext, if_pos (by simp [htext]), List.mapM_cons, hread, hscripts]
          simp [hflat]

/-- For every ALTER TABLE, whatever the names and the literal defaults are, if its default expressions
are complete for DuckDB, the texts that `commit_inplace_alter_table` executes are read as the changes
of the convertors, each one behind the USE of the schema. -/
theorem alter_texts_read (cfg : Settings) (t : TableName) {a : AlterInplaceInfo}
    (h : a.TextsSound) :
    ((a.texts cfg t).mapM (readScript readDdl)).map List.flatten =
      some (AlterStmt.script t (a.statements cfg)) :=
  mapM_readScript (AlterInplaceInfo.sound_convertors cfg h)

/-- A VARCHAR column whose name has a quote in it, with the default `(uuid())`. -/
def quotedField : Field where
  fieldName := ['a', dquote]
  realType := .varchar
  isUuid := false
  unsigned := false
  precision := 0
  dec := 0
  charset := some ⟨.utf8mb4, false, false, false, false⟩
  invisible := .visible
  notNull := false
  priKey := false
  noDefaultValue := false
  autoIncrement := false
  defaultExpr := some "uuid()".toList
  defaultRecord := none

lemma quotedField_exprSound : quotedField.ExprSound := by
  have hfits : Fits [.word "uuid".toList, .symbol '(', .symbol ')'] (some ' ') := by decide
  have hclosed : Closed "uuid()".toList [kw "UUID", openParen, closeParen] := closed_textOf hfits
  refine ⟨?_, ?_, ?_⟩ <;> rintro _ ⟨⟩ <;> rw [hclosed.lex_eq]
  · exact hclosed
  · decide
  · decide

/-- A VARCHAR column without a default. -/
def plainVarchar (n : Name) : Field := { quotedField with fieldName := n, defaultExpr := none }

/-- `ALTER TABLE ... CHANGE COLUMN v" w" VARCHAR(9) NOT NULL DEFAULT ';', DROP COLUMN d;, ADD COLUMN a"`
with the default expression, where the names are in quotes. -/
def alterQuoted : AlterInplaceInfo where
  oldTable := [plainVarchar ['i', 'd'], plainVarchar ['v', dquote], plainVarchar ['d', ';']]
  newTable := [plainVarchar ['i', 'd'],
    { plainVarchar ['w', dquote] with notNull := true, defaultRecord := some [59] }, quotedField]
  createList :=
    [⟨['i', 'd'], some (plainVarchar ['i', 'd']), none, false, false, false⟩,
      ⟨['w', dquote], some (plainVarchar ['v', dquote]), some ['v', dquote], true, false, false⟩,
      ⟨['a', dquote], none, none, false, false, false⟩]
  dropList := [⟨true, ['d', ';']⟩]
  changeColumn := true
  changeColumnDefault := false
  addIndex := false
  columnOrder := false
  errorIfNotEmpty := false
  databaseChanged := false
  hasPrimaryKey := true
  old_nodup := by decide
  new_nodup := by decide
  created := .cons ⟨rfl, rfl⟩ (.cons ⟨rfl, rfl⟩ (.cons ⟨rfl, rfl⟩ .nil))
  createList_ne := List.cons_ne_nil _ _
  field_mem := by decide
  field_inj := by
    have hne : plainVarchar ['i', 'd'] ≠ plainVarchar ['v', dquote] := by decide
    simp [hne, hne.symm]
  change_field := by decide
  renamed_change := by decide
  drop_mem := by decide
  drop_nodup := by decide

lemma alterQuoted_textsSound : alterQuoted.TextsSound where
  expr := List.forall_mem_cons.2 ⟨⟨by simp [plainVarchar], by simp [plainVarchar],
    by simp [plainVarchar]⟩, List.forall_mem_cons.2 ⟨⟨by simp [plainVarchar], by simp [plainVarchar],
    by simp [plainVarchar]⟩, List.forall_mem_singleton.2 quotedField_exprSound⟩⟩
  typed := by decide

/-- The five changes of that ALTER TABLE. -/
theorem alter_texts_read_quoted :
    ((alterQuoted.texts ⟨true, true, fun v w => v != w⟩ ⟨['d'], ['t']⟩).mapM
        (readScript readDdl)).map List.flatten =
      some (AlterStmt.script ⟨['d'], ['t']⟩
        (alterQuoted.statements ⟨true, true, fun v w => v != w⟩)) ∧
    (alterQuoted.statements ⟨true, true, fun v w => v != w⟩).length = 5 :=
  ⟨alter_texts_read _ _ alterQuoted_textsSound, by decide +kernel⟩

end DuckdbEngine
