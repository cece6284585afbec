/-
The names of sequences in SQL texts.

`nextval` takes the name of the sequence as a string literal.  The name has two parts, both
quoted as identifiers, and its text is quoted once more as a literal.  It is built twice: by
`autoinc_nextval_expr` for the default of an AUTO_INCREMENT column, and by
`reserve_autoinc_block` for the query that draws a block of ids.
-/
import DuckdbEngine.Convertor.DmlRoundTrip
import DuckdbEngine.Convertor.InsertPaths

namespace DuckdbEngine

open Sql

/-! ### The query -/

/-- The query of `reserve_autoinc_block`. -/
def reserveAutoincBlockQuery (dbName tableName : Name) (want : ℕ) : Text :=
  let qualified := appendQuotedIdentifier
    (appendQuotedIdentifier [] dbName ++ ['.']) (autoincSequenceName tableName)
  "SELECT min(x), max(x) FROM (SELECT nextval(".toList ++ squote :: double squote qualified ++
    squote :: ") AS x FROM range(".toList ++ natText want ++ ")) t".toList

/-! ### The qualified name -/

/-- The atoms of the name of the sequence. -/
def sequenceAtoms (name : TableName) : List Atom :=
  [.ident name.dbName, .symbol '.', .ident (autoincSequenceName name.tableName)]

def sequenceLiteral (name : TableName) : Text :=
  squote :: double squote (textOf (sequenceAtoms name)) ++ [squote]

lemma fits_sequenceAtoms (name : TableName) : Fits (sequenceAtoms name) none := by
  refine fits_ident rfl (by decide) (fits_symbol (by decide) (by decide) ?_)
  exact ⟨trivial, by simp [Atom.Follows], trivial⟩

lemma unquote_sequenceLiteral (name : TableName) :
    unquote squote (sequenceLiteral name) = textOf (sequenceAtoms name) := by
  rw [sequenceLiteral, unquote, List.cons_append, List.tail_cons, List.dropLast_concat,
    undouble_double]

lemma qualified_eq (name : TableName) : appendQuotedIdentifier
    (appendQuotedIdentifier [] name.dbName ++ ['.']) (autoincSequenceName name.tableName) =
      textOf (sequenceAtoms name) := by
  simp [appendQuotedIdentifier, sequenceAtoms, Atom.text]

/-! ### The texts around the literal -/

def callAtoms : List Atom := [.word "nextval".toList, .symbol '(']

def selectAtoms : List Atom :=
  [.word "SELECT".toList, .space, .word "min".toList, .symbol '(', .word ['x'], .symbol ')',
    .symbol ',', .space, .word "max".toList, .symbol '(', .word ['x'], .symbol ')', .space,
    .word "FROM".toList, .space, .symbol '(', .word "SELECT".toList, .space] ++ callAtoms

def rangeAtoms (want : ℕ) : List Atom :=
  [.symbol ')', .space, .word "AS".toList, .space, .word ['x'], .space, .word "FROM".toList, .space,
    .word "range".toList] ++ [.symbol '(', .digits (natText want)] ++
      [.symbol ')', .symbol ')', .space, .word ['t']]

lemma fits_rangeAtoms (want : ℕ) : Fits (rangeAtoms want) none := by
  refine fits_append.2 ⟨fits_append.2 ⟨?_, ?_⟩, by decide⟩
  · show Fits _ (some '(')
    decide
  · refine fits_symbol (by decide) (by decide) ⟨⟨natText_ne_nil want, fun c => ?_⟩, ?_, trivial⟩
    · exact isDigit_of_mem_natText
    · rintro _ ⟨⟩
      rfl

section

variable (name : TableName) {as : List Atom} {rest : Text}

lemma head?_sequenceLiteral : (sequenceLiteral name ++ rest).head? = some squote := by
  rw [sequenceLiteral, List.cons_append, List.cons_append, List.head?_cons]

/-- The literal between atoms and another text is one token. -/
lemma tokenize_around (has : Fits as (some squote)) (hrest : rest.head? ≠ some squote) :
    tokenize (textOf as ++ (sequenceLiteral name ++ rest)) =
      as.filterMap Atom.token ++ .string (textOf (sequenceAtoms name)) :: tokenize rest := by
  rw [← head?_sequenceLiteral name] at has
  rw [tokenize_textOf_append has, sequenceLiteral, List.append_assoc, List.singleton_append,
    tokenize_quoted _ hrest]

lemma backticks_around (has : Fits as (some squote)) (hrest : rest.head? ≠ some squote) :
    backticksToDoubleQuotes (textOf as ++ (sequenceLiteral name ++ rest)) =
      textOf as ++ (sequenceLiteral name ++ backticksToDoubleQuotes rest) := by
  rw [← head?_sequenceLiteral name] at has
  rw [backticks_textOf_append has, sequenceLiteral, List.append_assoc, List.singleton_append,
    Atom.backticks_quoted (Or.inl rfl) _ rest hrest, List.append_assoc, List.singleton_append]

end

lemma textOf_callAtoms : textOf callAtoms = "nextval(".toList := by decide

lemma textOf_selectAtoms :
    textOf selectAtoms = "SELECT min(x), max(x) FROM (SELECT nextval(".toList := by
  decide

lemma textOf_rangeAtoms (want : ℕ) :
    textOf (rangeAtoms want) = ") AS x FROM range(".toList ++ natText want ++ ")) t".toList := by
  have hdigits : textOf [.symbol '(', .digits (natText want)] = ['('] ++ natText want := by
    simp [Atom.text]
  rw [rangeAtoms, textOf_append, textOf_append, hdigits, ← List.append_assoc]
  rfl

lemma autoincNextvalExpr_eq (name : TableName) :
    CreateTableConvertor.autoincNextvalExpr name =
      textOf callAtoms ++ (sequenceLiteral name ++ [')']) := by
  unfold CreateTableConvertor.autoincNextvalExpr
  rw [qualified_eq, sequenceLiteral, textOf_callAtoms]
  simp only [List.append_assoc, List.cons_append, List.nil_append]
  rfl

lemma reserveAutoincBlockQuery_eq (name : TableName) (want : ℕ) :
    reserveAutoincBlockQuery name.dbName name.tableName want =
      textOf selectAtoms ++ (sequenceLiteral name ++ textOf (rangeAtoms want)) := by
  unfold reserveAutoincBlockQuery
  rw [qualified_eq, sequenceLiteral, textOf_selectAtoms, textOf_rangeAtoms]
  simp only [List.append_assoc, List.cons_append, List.nil_append]

/-- The tokens of `nextval` and its argument. -/
def callTokens (argument : Text) : List Token :=
  [.word "NEXTVAL".toList, .symbol ['('], .string argument, .symbol [')']]

/-- The tokens of the query up to the call. -/
def selectTokens : List Token :=
  [.word "SELECT".toList, .word "MIN".toList, .symbol ['('], .word ['X'], .symbol [')'],
    .symbol [','], .word "MAX".toList, .symbol ['('], .word ['X'], .symbol [')'],
    .word "FROM".toList, .symbol ['('], .word "SELECT".toList]

/-- The tokens of the query behind the call. -/
def rangeTokens (want : ℕ) : List Token :=
  [.word "AS".toList, .word ['X'], .word "FROM".toList, .word "RANGE".toList, .symbol ['('],
    .number want, .symbol [')'], .symbol [')'], .word ['T']]

lemma filterMap_rangeAtoms (want : ℕ) :
    (rangeAtoms want).filterMap Atom.token = .symbol [')'] :: rangeTokens want := by
  conv_rhs => rw [rangeTokens, ← numberOf_natText want]
  rfl

/-- The closing parenthesis ends the call, whatever follows. -/
lemma paren_cons (rest : Text) :
    tokenize (')' :: rest) = .symbol [')'] :: tokenize rest ∧
    backticksToDoubleQuotes (')' :: rest) = ')' :: backticksToDoubleQuotes rest := by
  have hfits : Fits [.symbol ')'] rest.head? := fits_symbol (by decide) (by decide) trivial
  exact ⟨tokenize_textOf_append hfits, backticks_textOf_append hfits⟩

/-- For all names, both texts have the same literal in the call of `nextval`.  Its content is the
two quoted identifiers, which stand for the schema and for the sequence of the table.  DuckDB reads
the literal as one token, with and without the rewriting of backticks, which changes nothing. -/
theorem sequence_names_round_trip (name : TableName) (want : ℕ) :
    ∃ literal argument : Text,
      CreateTableConvertor.autoincNextvalExpr name = "nextval(".toList ++ literal ++ [')'] ∧
      reserveAutoincBlockQuery name.dbName name.tableName want =
        "SELECT min(x), max(x) FROM (SELECT nextval(".toList ++ literal ++
          ") AS x FROM range(".toList ++ natText want ++ ")) t".toList ∧
      argument = unquote squote literal ∧
      tokenize argument =
        [.ident name.dbName, .symbol ['.'], .ident ("mdb_autoinc_".toList ++ name.tableName)] ∧
      (∀ rest, tokenize (CreateTableConvertor.autoincNextvalExpr name ++ rest) =
          callTokens argument ++ tokenize rest ∧
        backticksToDoubleQuotes (CreateTableConvertor.autoincNextvalExpr name ++ rest) =
          CreateTableConvertor.autoincNextvalExpr name ++ backticksToDoubleQuotes rest) ∧
      tokenize (reserveAutoincBlockQuery name.dbName name.tableName want) =
        selectTokens ++ callTokens argument ++ rangeTokens want ∧
      backticksToDoubleQuotes (reserveAutoincBlockQuery name.dbName name.tableName want) =
        reserveAutoincBlockQuery name.dbName name.tableName want := by
  have hcall : Fits callAtoms (some squote) := by decide
  have hselect : Fits selectAtoms (some squote) := by decide
  have hrange := fits_rangeAtoms want
  -- behind the literal there is no quote that could continue it
  have hparen (s : Text) : (')' :: s).head? ≠ some squote := by
    rw [List.head?_cons]
    decide
  have hhead : (textOf (rangeAtoms want)).head? ≠ some squote := hparen []
  refine ⟨sequenceLiteral name, textOf (sequenceAtoms name), ?_, ?_,
    (unquote_sequenceLiteral name).symm, ?_, fun rest => ⟨?_, ?_⟩, ?_, ?_⟩
  · rw [autoincNextvalExpr_eq, textOf_callAtoms, List.append_assoc]
  · rw [reserveAutoincBlockQuery_eq, textOf_selectAtoms, textOf_rangeAtoms]
    simp only [List.append_assoc]
  · rw [tokenize_textOf (fits_sequenceAtoms name)]
    rfl
  · rw [autoincNextvalExpr_eq, List.append_assoc, List.append_assoc, List.singleton_append,
      tokenize_around name hcall (hparen rest), (paren_cons rest).1]
    rfl
  · rw [autoincNextvalExpr_eq, List.append_assoc, List.append_assoc, List.singleton_append,
      backticks_around name hcall (hparen rest), (paren_cons rest).2, List.append_assoc,
      List.append_assoc, List.singleton_append]
  · rw [reserveAutoincBlockQuery_eq, tokenize_around name hselect hhead, tokenize_textOf hrange,
      filterMap_rangeAtoms]
    rfl
  · rw [reserveAutoincBlockQuery_eq, backticks_around name hselect hhead, backticks_textOf hrange]

end DuckdbEngine
