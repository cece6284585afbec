/-
The script of CREATE TABLE is read as it is meant.

The script creates the schema, selects it, creates the sequence of an AUTO_INCREMENT
column with its first value, and creates the table.  The column definitions are separated
by commas, but there are commas in types and default expressions too.
-/
import DuckdbEngine.Convertor.DdlRoundTrip

namespace DuckdbEngine

open Sql

/-! ### Column definitions -/

namespace ColumnDef

variable (c : ColumnDef)

def text : Text :=
  quoteDuckdbIdentifier c.name ++ " ".toList ++ c.type ++
    (if c.notNull then " NOT NULL".toList else []) ++
    (c.default.elim [] fun d => " DEFAULT ".toList ++ d)

/-- What DuckDB makes of the definition. -/
def read : ReadColumn := ⟨c.name, lex c.type, c.notNull, c.default.map lex⟩

/-- The constraint and the default. -/
def endTokens : List Token :=
  (if c.notNull then [kw "NOT", kw "NULL"] else []) ++
    (c.default.elim [] fun d => [kw "DEFAULT"] ++ lex d)

def tokens : List Token := .ident c.name :: (lex c.type ++ c.endTokens)

/-- The type and the default stay within their places. -/
structure Sound : Prop where
  type : SoundType c.type
  default : ∀ d ∈ c.default, SoundText d

variable {c}

lemma closed_text (h : c.Sound) : Closed c.text c.tokens := by
  have hname : Closed (quoteDuckdbIdentifier c.name ++ " ".toList ++ c.type)
      ([.ident c.name] ++ [] ++ lex c.type) :=
    ((closed_identifier c.name).append_free free_space rfl (by decide)).append_closed h.type.closed
  have hnotNull : Closed (quoteDuckdbIdentifier c.name ++ " ".toList ++ c.type ++
      (if c.notNull then " NOT NULL".toList else []))
      ([.ident c.name] ++ [] ++ lex c.type ++ if c.notNull then [kw "NOT", kw "NULL"] else []) := by
    cases c.notNull with
    | false =>
        rw [if_neg Bool.false_ne_true, if_neg Bool.false_ne_true, List.append_nil, List.append_nil]
        exact hname
    | true =>
        exact hname.append (closed_keywords [.space, .word "NOT".toList, .space,
          .word "NULL".toList] (by decide) (by decide) rfl) rfl (by decide)
  have htokens : c.tokens =
      ([.ident c.name] ++ [] ++ lex c.type ++ if c.notNull then [kw "NOT", kw "NULL"] else []) ++
        c.default.elim [] fun d => [kw "DEFAULT"] ++ lex d := by
    simp [tokens, endTokens]
  rw [text, htokens]
  cases hdefault : c.default with
  | none =>
      rw [Option.elim_none, Option.elim_none, List.append_nil, List.append_nil]
      exact hnotNull
  | some d =>
      have hkw : Free " DEFAULT ".toList [kw "DEFAULT"] :=
        free_keywords [.space, .word "DEFAULT".toList] (by decide) (by decide) rfl
      exact hnotNull.append (hkw.append_closed (h.default d hdefault).closed) rfl (by decide)

lemma level_tokens (h : c.Sound) : Level 0 c.tokens := by
  have hnotNull : Level 0 (if c.notNull then [kw "NOT", kw "NULL"] else []) := by
    cases c.notNull <;> decide
  have hdefault : Level 0 (c.default.elim [] fun d => [kw "DEFAULT"] ++ lex d) := by
    cases hd : c.default with
    | none => rfl
    | some d => exact Level.append (by decide : Level 0 [kw "DEFAULT"]) (h.default d hd).level
  exact ⟨by simp [comma], by simp [closeParen], h.type.level.append (hnotNull.append hdefault)⟩

lemma semicolon_notMem_tokens (h : c.Sound) : semicolon ∉ c.tokens := by
  have htype := h.type.single
  have hnotNull : semicolon ∉ if c.notNull then [kw "NOT", kw "NULL"] else [] := by
    cases c.notNull <;> simp
  have hdefault : semicolon ∉ c.default.elim [] fun d => [kw "DEFAULT"] ++ lex d := by
    cases hd : c.default with
    | none => simp
    | some d =>
        have hvalue := (h.default d hd).single
        simp [hvalue]
  simp only [tokens, endTokens, List.mem_cons, List.mem_append, not_or]
  exact ⟨semicolon_ne_ident _, htype, hnotNull, hdefault⟩

/-- The type ends at the constraint or at the default. -/
lemma takeWhile_type (h : c.Sound) :
    (lex c.type ++ c.endTokens).takeWhile (fun t => t ≠ kw "NOT" ∧ t ≠ kw "DEFAULT") =
      lex c.type := by
  have htype : ∀ t ∈ lex c.type, decide (t ≠ kw "NOT" ∧ t ≠ kw "DEFAULT") = true := by
    intro t ht
    refine decide_eq_true ⟨?_, ?_⟩ <;> rintro rfl
    · exact h.type.notNot ht
    · exact h.type.notDefault ht
  have hend : c.endTokens.takeWhile (fun t => t ≠ kw "NOT" ∧ t ≠ kw "DEFAULT") = [] := by
    rw [endTokens]
    cases c.notNull <;> cases c.default <;> rfl
  rw [List.takeWhile_append_of_pos htype, hend, List.append_nil]

lemma readColumn_tokens (h : c.Sound) : readColumn c.tokens = some c.read := by
  have htake := takeWhile_type h
  rw [tokens, readColumn, htake, List.drop_left, endTokens, read]
  cases c.notNull <;> cases c.default <;> rfl

end ColumnDef

/-! ### The list of columns -/

lemma joinWith_cons_eq {α : Type*} (sep x : List α) (xs : List (List α)) :
    joinWith sep (x :: xs) = x ++ xs.flatMap (sep ++ ·) := by
  induction xs generalizing x with
  | nil => simp [joinWith]
  | cons y xs ih => rw [joinWith, ih, List.flatMap_cons, List.append_assoc, List.append_assoc]

/-- Texts between separators that hold a comma. -/
lemma closed_joinWith {α : Type*} {text : α → Text} {tokens : α → List Token} {sep : Text}
    (hsep : Free sep [comma]) (hhead : sep.head? = some ',') {xs : List α} (hne : xs ≠ [])
    (h : ∀ x ∈ xs, Closed (text x) (tokens x)) :
    Closed (joinWith sep (xs.map text)) (joinWith [comma] (xs.map tokens)) := by
  induction xs with
  | nil => exact absurd rfl hne
  | cons x xs ih =>
      obtain ⟨hx, hxs⟩ := List.forall_mem_cons.1 h
      cases xs with
      | nil => exact hx
      | cons y xs =>
          exact (hx.append_free hsep hhead (by decide)).append_closed
            (ih (List.cons_ne_nil y xs) hxs)

lemma mem_joinWith {α : Type*} {sep : List α} {xs : List (List α)} {a : α}
    (h : a ∈ joinWith sep xs) : a ∈ sep ∨ ∃ x ∈ xs, a ∈ x := by
  cases xs with
  | nil => cases h
  | cons x xs =>
      rw [joinWith_cons_eq, List.mem_append] at h
      rcases h with h | h
      · exact Or.inr ⟨x, List.mem_cons_self, h⟩
      · obtain ⟨y, hy, ha⟩ := List.mem_flatMap.1 h
        exact (List.mem_append.1 ha).imp_right fun ha => ⟨y, List.mem_cons_of_mem x hy, ha⟩

lemma mapM_readColumn {cs : List ColumnDef} (h : ∀ c ∈ cs, c.Sound) :
    (cs.map ColumnDef.tokens).mapM readColumn = some (cs.map ColumnDef.read) := by
  induction cs with
  | nil => rfl
  | cons c cs ih =>
      obtain ⟨hc, hcs⟩ := List.forall_mem_cons.1 h
      simp [List.mapM_cons, ColumnDef.readColumn_tokens hc, ih hcs]

/-! ### The statements -/

/-- A qualified name behind keywords. -/
lemma closed_qualified (as : List Atom) {t : Text} {ts : List Token} (schema n : Name)
    (h : Fits as (some ' ')) (ht : textOf as ++ [' '] = t) (hts : as.filterMap Atom.token = ts) :
    Closed (t ++ quoteDuckdbIdentifier schema ++ ".".toList ++ quoteDuckdbIdentifier n)
      (ts ++ [.ident schema] ++ [.symbol ['.']] ++ [.ident n]) := by
  have hdot : Free ['.'] [.symbol ['.']] := free_symbol (by decide) (by decide)
  exact ((closed_column schema as h ht hts).append_free hdot rfl (by decide)).append_closed
    (closed_identifier n)

/-- CREATE SCHEMA with its semicolon. -/
def Sent.createSchema (schema : Name) : Sent readDdl where
  text := "CREATE SCHEMA IF NOT EXISTS ".toList ++ quoteDuckdbIdentifier schema ++ ";".toList
  tokens := [kw "CREATE", kw "SCHEMA", kw "IF", kw "NOT", kw "EXISTS"] ++ [.ident schema]
  meaning := .createSchema schema
  free := (closed_column schema
    [.word "CREATE".toList, .space, .word "SCHEMA".toList, .space, .word "IF".toList, .space,
      .word "NOT".toList, .space, .word "EXISTS".toList]
    (by decide) (by decide) rfl).append_free free_semicolon rfl (by decide)
  reads := ⟨List.cons_ne_nil _ _, by simp, rfl⟩

@[simp] lemma Sent.text_createSchema (schema : Name) : (Sent.createSchema schema).text =
    "CREATE SCHEMA IF NOT EXISTS ".toList ++ quoteDuckdbIdentifier schema ++ ";".toList := rfl

/-- CREATE SEQUENCE with the first value. -/
def Sent.createSequence (name : TableName) (start : ℕ) : Sent readDdl where
  text := "CREATE SEQUENCE IF NOT EXISTS ".toList ++ quoteDuckdbIdentifier name.dbName ++
    ".".toList ++ quoteDuckdbIdentifier name.tableName ++ " START WITH ".toList ++ natText start ++
    ";".toList
  tokens := [kw "CREATE", kw "SEQUENCE", kw "IF", kw "NOT", kw "EXISTS"] ++ [.ident name.dbName] ++
    [.symbol ['.']] ++ [.ident name.tableName] ++ [kw "START", kw "WITH"] ++ [.number start]
  meaning := .createSequence name start
  free := by
    have hname : Closed ("CREATE SEQUENCE IF NOT EXISTS ".toList ++
        quoteDuckdbIdentifier name.dbName ++ ".".toList ++ quoteDuckdbIdentifier name.tableName)
        ([kw "CREATE", kw "SEQUENCE", kw "IF", kw "NOT", kw "EXISTS"] ++ [.ident name.dbName] ++
          [.symbol ['.']] ++ [.ident name.tableName]) :=
      closed_qualified
        [.word "CREATE".toList, .space, .word "SEQUENCE".toList, .space, .word "IF".toList,
          .space, .word "NOT".toList, .space, .word "EXISTS".toList] name.dbName name.tableName
        (by decide) (by decide) rfl
    have hstart : Free " START WITH ".toList [kw "START", kw "WITH"] :=
      free_keywords [.space, .word "START".toList, .space, .word "WITH".toList]
        (by decide) (by decide) rfl
    have hnumber : Closed (natText start) [.number start] := by
      have hdigits : Fits [.digits (natText start)] (some ' ') :=
        ⟨⟨natText_ne_nil start, fun _ hc => isDigit_of_mem_natText hc⟩,
          by rintro _ ⟨⟩; rfl, trivial⟩
      have hclosed := closed_textOf hdigits
      have hvalue := numberOf_natText start
      simpa [Atom.text, Atom.token, hvalue] using hclosed
    exact ((hname.append_free hstart rfl (by decide)).append_closed hnumber).append_free
      free_semicolon rfl (by decide)
  reads := ⟨List.cons_ne_nil _ _, by simp [semicolon, kw], rfl⟩

@[simp] lemma Sent.text_createSequence (name : TableName) (start : ℕ) :
    (Sent.createSequence name start).text = "CREATE SEQUENCE IF NOT EXISTS ".toList ++
      quoteDuckdbIdentifier name.dbName ++ ".".toList ++ quoteDuckdbIdentifier name.tableName ++
      " START WITH ".toList ++ natText start ++ ";".toList := rfl

lemma readDdl_createTable (table : Name) (cs : List ReadColumn) {body : List Token}
    (h : (splitTop 0 body).mapM readColumn = some cs) :
    readDdl ([kw "CREATE", kw "TABLE"] ++ [kw "IF", kw "NOT", kw "EXISTS"] ++ [.ident table] ++
      [openParen] ++ body ++ [closeParen]) = some (.createTable table cs) := by
  have hothers (ts : List Token) :
      readDdl (kw "CREATE" :: kw "TABLE" :: kw "IF" :: kw "NOT" :: kw "EXISTS" :: ts) =
        (readCreateTable (kw "CREATE" :: kw "TABLE" :: kw "IF" :: kw "NOT" :: kw "EXISTS" :: ts)
          <|> none) := rfl
  have hread : readCreateTable (kw "CREATE" :: kw "TABLE" :: kw "IF" :: kw "NOT" :: kw "EXISTS" ::
      .ident table :: openParen :: (body ++ [closeParen])) = some (.createTable table cs) := by
    have hafter : afterKeywords ["CREATE", "TABLE", "IF", "NOT", "EXISTS"]
        (kw "CREATE" :: kw "TABLE" :: kw "IF" :: kw "NOT" :: kw "EXISTS" :: .ident table ::
          openParen :: (body ++ [closeParen])) =
        some (.ident table :: openParen :: (body ++ [closeParen])) := rfl
    rw [readCreateTable, hafter]
    dsimp only
    rw [if_pos ⟨rfl, List.getLast?_concat⟩, List.dropLast_concat, h]
    rfl
  rw [List.append_assoc]
  refine (hothers (.ident table :: openParen :: (body ++ [closeParen]))).trans ?_
  rw [hread]
  rfl

/-- CREATE TABLE with its columns. -/
def Sent.createTable (table : Name) (cs : List ColumnDef) (hne : cs ≠ [])
    (h : ∀ c ∈ cs, c.Sound) : Sent readDdl where
  text := "CREATE TABLE ".toList ++ "IF NOT EXISTS ".toList ++ quoteDuckdbIdentifier table ++
    " (".toList ++ joinWith [','] (cs.map ColumnDef.text) ++ ");".toList
  tokens := [kw "CREATE", kw "TABLE"] ++ [kw "IF", kw "NOT", kw "EXISTS"] ++ [.ident table] ++
    [openParen] ++ joinWith [comma] (cs.map ColumnDef.tokens) ++ [closeParen]
  meaning := .createTable table (cs.map ColumnDef.read)
  free := by
    have hcreate : Free "CREATE TABLE ".toList [kw "CREATE", kw "TABLE"] :=
      free_keywords [.word "CREATE".toList, .space, .word "TABLE".toList]
        (by decide) (by decide) rfl
    have hexists : Free "IF NOT EXISTS ".toList [kw "IF", kw "NOT", kw "EXISTS"] :=
      free_keywords [.word "IF".toList, .space, .word "NOT".toList, .space,
        .word "EXISTS".toList] (by decide) (by decide) rfl
    have hopen : Free " (".toList [openParen] :=
      free_space.append (free_symbol (c := '(') (by decide) (by decide))
    have hclose : Free ");".toList ([closeParen] ++ [semicolon]) :=
      (free_symbol (c := ')') (by decide) (by decide)).append free_semicolon
    have htable := (hcreate.append hexists).append_closed (closed_identifier table)
    rw [List.append_assoc _ [closeParen]]
    have hcolumns := closed_joinWith (free_symbol (c := ',') (by decide) (by decide)) rfl hne
      fun c hc => ColumnDef.closed_text (h c hc)
    exact ((htable.append_free hopen rfl (by decide)).append_closed hcolumns).append_free hclose rfl
      (by decide)
  reads := by
    have hlevel : ∀ x ∈ cs.map ColumnDef.tokens, Level 0 x := by
      intro x hx
      obtain ⟨c, hc, rfl⟩ := List.mem_map.1 hx
      exact ColumnDef.level_tokens (h c hc)
    refine ⟨List.cons_ne_nil _ _, ?_, ?_⟩
    · intro hmem
      simp only [List.mem_append, List.mem_cons, List.not_mem_nil, or_false, semicolon_ne_kw,
        semicolon_ne_ident, false_or] at hmem
      rcases hmem with (hopen | hjoin) | hclose
      · exact absurd hopen (by decide)
      · rcases mem_joinWith hjoin with hcomma | ⟨x, hx, hmem⟩
        · exact absurd hcomma (by decide)
        · obtain ⟨c, hc, rfl⟩ := List.mem_map.1 hx
          exact ColumnDef.semicolon_notMem_tokens (h c hc) hmem
      · exact absurd hclose (by decide)
    · refine readDdl_createTable table (cs.map ColumnDef.read) ?_
      rw [splitTop_joinWith (by simpa using hne) hlevel, mapM_readColumn h]

@[simp] lemma Sent.text_createTable (table : Name) (cs : List ColumnDef) (hne : cs ≠ [])
    (h : ∀ c ∈ cs, c.Sound) : (Sent.createTable table cs hne h).text = "CREATE TABLE ".toList ++
      "IF NOT EXISTS ".toList ++ quoteDuckdbIdentifier table ++ " (".toList ++
      joinWith [','] (cs.map ColumnDef.text) ++ ");".toList := rfl

/-! ### The script of the convertor -/

lemma free_autoincNextvalExpr (name : TableName) :
    Free (CreateTableConvertor.autoincNextvalExpr name)
      (callTokens (textOf (sequenceAtoms name))) := by
  have hcall : Free (textOf callAtoms) (callAtoms.filterMap Atom.token) := by
    refine free_textOf _ fun c => fits_word (c := '(') (by decide) rfl (by decide) ?_
    exact fits_symbol (by decide) (by decide) trivial
  have hclose : Free [')'] [closeParen] := free_symbol (by decide) (by decide)
  have hliteral : Closed (sequenceLiteral name) [.string (textOf (sequenceAtoms name))] :=
    closed_quoted _
  rw [autoincNextvalExpr_eq]
  exact hcall.append (hliteral.append_free hclose rfl (by decide))

lemma soundText_autoincNextvalExpr (name : TableName) :
    SoundText (CreateTableConvertor.autoincNextvalExpr name) :=
  soundText_of_closed (free_autoincNextvalExpr name).closed
    (by simp [callTokens, semicolon])
    (by simp [callTokens, Level, depthAfter, comma, openParen, closeParen])

lemma soundText_defaultClause {f : Field} (h : f.ExprSound) (defaultValues : Bool) :
    ∀ d ∈ FieldConvertor.defaultClause defaultValues f, SoundText d := by
  intro d hd
  rw [FieldConvertor.defaultClause] at hd
  split at hd
  · cases hd
  · cases hexpr : f.defaultExpr with
    | some expr =>
        rw [hexpr] at hd
        dsimp only at hd
        split_ifs at hd <;> cases hd
        exact h.soundText hexpr
    | none =>
        rw [hexpr] at hd
        dsimp only at hd
        split_ifs at hd <;> cases hd
        exact soundText_literal f true

namespace AcceptedTable

variable {cfg : Settings} (t : AcceptedTable cfg)

/-- What is assumed about the table: it has columns, and the texts of their default expressions are
complete. -/
structure TextsSound : Prop where
  ne_nil : t.fields ≠ []
  expr : ∀ f ∈ t.fields, f.ExprSound
  typed : ∀ f ∈ t.fields, f.realType ≠ .null

variable {t}

lemma sound_column (h : t.TextsSound) {f : Field} (hf : f ∈ t.fields) : (t.column f).Sound := by
  refine ⟨soundType_convertType cfg (h.typed f hf), fun d hd => ?_⟩
  rw [column] at hd
  dsimp only at hd
  split_ifs at hd
  · cases hd
    exact soundText_autoincNextvalExpr t.name
  · exact soundText_defaultClause (h.expr f hf) _ d hd

/-- The text of a field with its `nextval` is that of its column. -/
lemma translateText_eq {f : Field} (hf : f ∈ t.fields) :
    (FieldConvertor.translateText cfg t.defaultValues f ++
      if f.autoIncrement then " DEFAULT ".toList ++ CreateTableConvertor.autoincNextvalExpr t.name
      else []) = (t.column f).text := by
  have htranslate : FieldConvertor.translate cfg t.defaultValues f =
      some ⟨f.fieldName, FieldConvertor.convertType cfg f, f.notNull,
        FieldConvertor.defaultClause t.defaultValues f⟩ := by
    rw [FieldConvertor.translate, t.visible hf]
    rfl
  rw [FieldConvertor.translateText, htranslate]
  dsimp only
  cases hauto : f.autoIncrement with
  | false =>
      have hcolumn : t.column f = ⟨f.fieldName, FieldConvertor.convertType cfg f, f.notNull,
          FieldConvertor.defaultClause t.defaultValues f⟩ := by
        rw [column, hauto]
        rfl
      rw [hcolumn, if_neg Bool.false_ne_true, List.append_nil]
      rfl
  | true =>
      have hcolumn : t.column f = ⟨f.fieldName, FieldConvertor.convertType cfg f, f.notNull,
          some (CreateTableConvertor.autoincNextvalExpr t.name)⟩ := by
        rw [column, hauto]
        rfl
      have hnone : FieldConvertor.defaultClause t.defaultValues f = none := by
        rw [FieldConvertor.defaultClause, hauto, Bool.or_true, if_pos rfl]
      rw [hcolumn, hnone, if_pos rfl, Option.elim_none, List.append_nil]
      rfl

lemma appendColumnDefinition_false {fields : List Field} (h : ∀ f ∈ fields, f ∈ t.fields)
    (output : Text) :
    CreateTableConvertor.appendColumnDefinition cfg t.defaultValues t.name false output fields =
      output ++ (fields.map fun f => (t.column f).text).flatMap ([','] ++ ·) := by
  induction fields generalizing output with
  | nil => exact (List.append_nil _).symm
  | cons f fields ih =>
      obtain ⟨hf, hfields⟩ := List.forall_mem_cons.1 h
      rw [CreateTableConvertor.appendColumnDefinition, ih hfields, List.map_cons, List.flatMap_cons,
        ← translateText_eq hf]
      cases f.autoIncrement <;> simp [List.append_assoc]

/-- The column definitions are separated by commas. -/
lemma appendColumnDefinition_true (hne : t.fields ≠ []) (output : Text) :
    CreateTableConvertor.appendColumnDefinition cfg t.defaultValues t.name true output t.fields =
      output ++ joinWith [','] (t.columns.map ColumnDef.text) := by
  obtain ⟨f, fields, hfields⟩ := List.exists_cons_of_ne_nil hne
  have hmem : ∀ g ∈ f :: fields, g ∈ t.fields := fun g hg => hfields ▸ hg
  obtain ⟨hf, hrest⟩ := List.forall_mem_cons.1 hmem
  rw [columns_eq, hfields, List.map_map, List.map_cons, joinWith_cons_eq,
    CreateTableConvertor.appendColumnDefinition, appendColumnDefinition_false hrest,
    Function.comp_apply, ← translateText_eq hf]
  cases f.autoIncrement <;> simp [List.append_assoc, Function.comp_def]

/-- The statements of the script, as they are meant. -/
def script (t : AcceptedTable cfg) (autoIncrementValue : ℕ) : List ReadDdl :=
  [.createSchema t.name.dbName, .use t.name.dbName] ++
    (if t.fields.any Field.autoIncrement then
      [.createSequence t.name.autoincSequence
        (CreateTableConvertor.sequenceStart autoIncrementValue)]
    else []) ++
    [.createTable t.name.tableName (t.columns.map ColumnDef.read)]

/-- The statements of the script with their texts. -/
def sent (h : t.TextsSound) (autoIncrementValue : ℕ) : List (Sent readDdl) :=
  [Sent.createSchema t.name.dbName, Sent.use t.name.dbName] ++
    (if t.fields.any Field.autoIncrement then
      [Sent.createSequence t.name.autoincSequence
        (CreateTableConvertor.sequenceStart autoIncrementValue)]
    else []) ++
    [Sent.createTable t.name.tableName t.columns
      (by rw [columns_eq]; simpa using h.ne_nil)
      (by
        intro c hc
        rw [columns_eq] at hc
        obtain ⟨f, hf, rfl⟩ := List.mem_map.1 hc
        exact sound_column h hf)]

lemma meaning_sent (h : t.TextsSound) (autoIncrementValue : ℕ) :
    (t.sent h autoIncrementValue).map Sent.meaning = t.script autoIncrementValue := by
  rw [sent, script]
  cases t.fields.any Field.autoIncrement <;> rfl

lemma translate_eq (h : t.TextsSound) (autoIncrementValue : ℕ) :
    CreateTableConvertor.translate cfg t.defaultValues t.name autoIncrementValue t.fields =
      (t.sent h autoIncrementValue).flatMap Sent.text := by
  rw [CreateTableConvertor.translate, appendColumnDefinition_true h.ne_nil, sent]
  cases t.fields.any Field.autoIncrement with
  | false =>
      simp only [if_neg Bool.false_ne_true, List.append_nil, List.flatMap_append, List.flatMap_cons,
        List.flatMap_nil, Sent.text_createSchema, Sent.text_use, Sent.text_createTable,
        List.append_assoc]
  | true =>
      simp only [if_pos, List.append_nil, List.flatMap_append, List.flatMap_cons,
        List.flatMap_nil, Sent.text_createSchema, Sent.text_use, Sent.text_createTable,
        Sent.text_createSequence, TableName.autoincSequence, List.append_assoc]

/-- For every accepted table, whatever the names, the literal defaults and the first value are, if its
default expressions are complete for DuckDB, the text of the convertor is read as the four
statements, with the columns of the table. -/
theorem create_text_read (cfg : Settings) (t : AcceptedTable cfg) (autoIncrementValue : ℕ)
    (h : t.TextsSound) :
    readScript readDdl
        (CreateTableConvertor.translate cfg t.defaultValues t.name autoIncrementValue t.fields) =
      some (t.script autoIncrementValue) := by
  rw [translate_eq h, readScript_sent, meaning_sent]

end AcceptedTable

/-- An AUTO_INCREMENT key beside the column with the quote in its name. -/
def quotedTable : AcceptedTable ⟨true, true, fun v w => v != w⟩ where
  name := ⟨['d', ';'], ['t', squote]⟩
  fields := [{ quotedField with
    fieldName := ['i', 'd'], realType := .long, charset := none, notNull := true, priKey := true
    autoIncrement := true, defaultExpr := none }, quotedField]
  sqlcomCreateTable := true
  hasPk := true
  defaultValues := true
  accepted := by decide
  nodup := by decide

lemma quotedTable_textsSound : quotedTable.TextsSound where
  ne_nil := List.cons_ne_nil _ _
  expr := List.forall_mem_cons.2 ⟨⟨by simp, by simp, by simp⟩,
    List.forall_mem_singleton.2 quotedField_exprSound⟩
  typed := List.forall_mem_cons.2 ⟨by decide, List.forall_mem_singleton.2 (by decide)⟩

theorem create_text_read_quoted :
    readScript readDdl (CreateTableConvertor.translate ⟨true, true, fun v w => v != w⟩
        quotedTable.defaultValues quotedTable.name 7 quotedTable.fields) =
      some (quotedTable.script 7) :=
  AcceptedTable.create_text_read _ quotedTable 7 quotedTable_textsSound

end DuckdbEngine
