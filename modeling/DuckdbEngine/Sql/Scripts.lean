/-
Scripts: generated texts of several statements.

`lex` is what DuckDB sees of a text that the engine sends: its backticks are rewritten
and it is cut into tokens.  A text that keeps its tokens in front of any other text is
`Free`; one that keeps them in front of a separator is `Closed`.  Generated statements
are put together from such texts: keywords with their blanks are free, names, types and
values are closed, and a statement with its semicolon is free again, so that a script is
read statement by statement (`readScript_of_forall`).
-/
import DuckdbEngine.Sql.Tokens

namespace DuckdbEngine.Sql

open Lexing

/-- The tokens of a text that is executed. -/
def lex (sql : Text) : List Token := tokenize (backticksToDoubleQuotes sql)

/-- A name as a quoted identifier. -/
def quoteDuckdbIdentifier (name : Name) : Text := dquote :: double dquote name ++ [dquote]

/-- The characters that end every token in front of them. -/
def separators : List Char := [' ', ';', ',', '.', '(', ')']

/-- What follows is a separator or the end of the text. -/
def Separated (h : Option Char) : Prop := ∀ c ∈ h, c ∈ separators

/-- The text keeps its tokens in front of a separator. -/
def Closed (t : Text) (ts : List Token) : Prop :=
  ∀ rest : Text, Separated rest.head? → lex (t ++ rest) = ts ++ lex rest

/-- The text keeps its tokens in front of any text. -/
def Free (t : Text) (ts : List Token) : Prop := ∀ rest : Text, lex (t ++ rest) = ts ++ lex rest

lemma lex_nil : lex [] = [] := rfl

section Compose

variable {t u : Text} {ts us : List Token}

lemma Free.closed (h : Free t ts) : Closed t ts := fun rest _ => h rest

lemma free_nil : Free [] [] := fun _ => rfl

lemma Closed.lex_eq (h : Closed t ts) : lex t = ts := by
  have ht := h [] (fun c hc => by cases hc)
  rwa [List.append_nil, lex_nil, List.append_nil] at ht

lemma Free.append (h : Free t ts) (hu : Free u us) : Free (t ++ u) (ts ++ us) := by
  intro rest
  rw [List.append_assoc, h, hu, List.append_assoc]

lemma Free.append_closed (h : Free t ts) (hu : Closed u us) : Closed (t ++ u) (ts ++ us) := by
  intro rest hrest
  rw [List.append_assoc, h, hu rest hrest, List.append_assoc]

/-- A closed text may be followed by a text that begins with a separator. -/
lemma Closed.append_free (h : Closed t ts) (hu : Free u us) {c : Char} (hhead : u.head? = some c)
    (hc : c ∈ separators) : Free (t ++ u) (ts ++ us) := by
  intro rest
  have hsep : Separated (u ++ rest).head? := by
    rw [List.head?_append, hhead]
    rintro _ ⟨⟩
    exact hc
  rw [List.append_assoc, h _ hsep, hu, List.append_assoc]

lemma Closed.append (h : Closed t ts) (hu : Closed u us) {c : Char} (hhead : u.head? = some c)
    (hc : c ∈ separators) : Closed (t ++ u) (ts ++ us) := by
  intro rest hrest
  have hsep : Separated (u ++ rest).head? := by
    rw [List.head?_append, hhead]
    rintro _ ⟨⟩
    exact hc
  rw [List.append_assoc, h _ hsep, hu rest hrest, List.append_assoc]

lemma free_flatMap {ι : Type*} {text : ι → Text} {tokens : ι → List Token} {xs : List ι}
    (h : ∀ x ∈ xs, Free (text x) (tokens x)) : Free (xs.flatMap text) (xs.flatMap tokens) := by
  induction xs with
  | nil => exact free_nil
  | cons x xs ih =>
      obtain ⟨hx, hxs⟩ := List.forall_mem_cons.1 h
      rw [List.flatMap_cons, List.flatMap_cons]
      exact hx.append (ih hxs)

end Compose

/-! ### Atoms -/

lemma head?_of_ne_backtick {s : Text} (h : s.head? ≠ some backtick) :
    (backticksToDoubleQuotes s).head? = s.head? := by
  cases s with
  | nil => rfl
  | cons c s =>
      have hc : c ≠ backtick := by simpa using h
      have hpos := Lexer.size_pos duckdbRegion (c :: s)
      obtain ⟨n, hn⟩ := Nat.exists_eq_add_of_lt hpos
      rw [Nat.zero_add] at hn
      rw [backticksToDoubleQuotes, pieces_cons, List.flatMap_cons, hn, List.take_succ_cons]
      cases (duckdbRegion (c :: s)).1 <;> simp [requote, hc]

lemma ne_of_mem_separators {c : Char} (h : c ∈ separators) :
    c ≠ backtick ∧ c ≠ dquote ∧ c ≠ squote ∧ c ≠ '-' ∧ c.isDigit = false ∧
      isWordChar c = false := by
  simp only [separators, List.mem_cons, List.not_mem_nil, or_false] at h
  rcases h with rfl | rfl | rfl | rfl | rfl | rfl <;> decide

lemma Separated.follows {h : Option Char} (hsep : Separated h) (a : Atom) : a.Follows h := by
  have hne := fun c hc => ne_of_mem_separators (hsep c hc)
  cases a with
  | space => trivial
  | cast => trivial
  | word w => exact fun c hc => (hne c hc).2.2.2.2.2
  | symbol c => exact fun _ hdash => (hne '-' hdash).2.2.2.1 rfl
  | ident name => exact fun hq => (hne dquote hq).2.1 rfl
  | literal content => exact fun hq => (hne squote hq).2.2.1 rfl
  | digits ds => exact fun c hc => (hne c hc).2.2.2.2.1

/-- Atoms that fit in front of a blank fit in front of every separator. -/
lemma fits_of_separated {as : List Atom} (has : Fits as (some ' ')) {h : Option Char}
    (hsep : Separated h) : Fits as h := by
  induction as with
  | nil => trivial
  | cons a as ih =>
      obtain ⟨hvalid, hfollows, hrest⟩ := has
      refine ⟨hvalid, ?_, ih hrest⟩
      cases hhead : (textOf as).head? with
      | none => exact hsep.follows a
      | some c =>
          rw [hhead] at hfollows
          exact hfollows

lemma lex_textOf_append {as : List Atom} {rest : Text} (h : Fits as rest.head?)
    (hrest : rest.head? ≠ some backtick) :
    lex (textOf as ++ rest) = as.filterMap Atom.token ++ lex rest := by
  rw [lex, backticks_textOf_append h, tokenize_textOf_append (by rwa [head?_of_ne_backtick hrest]), lex]

lemma closed_textOf {as : List Atom} (h : Fits as (some ' ')) :
    Closed (textOf as) (as.filterMap Atom.token) := by
  intro rest hrest
  refine lex_textOf_append (fits_of_separated h hrest) fun hback => ?_
  exact (ne_of_mem_separators (hrest backtick hback)).1 rfl

/-- Atoms that fit in front of every character. -/
lemma free_textOf (as : List Atom) (h : ∀ c, Fits as c) :
    Free (textOf as) (as.filterMap Atom.token) := by
  intro rest
  rw [lex, backticks_textOf_append (h _), tokenize_textOf_append (h _), lex]

lemma free_space : Free [' '] [] := free_textOf [.space] fun _ => fits_space trivial

lemma free_symbol {c : Char} (hc : c ∈ Atom.symbols) (hne : c ≠ '-') :
    Free [c] [.symbol [c]] :=
  free_textOf [.symbol c] fun _ => fits_symbol hc hne trivial

/-- Keywords with a blank behind them. -/
lemma free_words {as : List Atom} (h : Fits as (some ' ')) :
    Free (textOf as ++ [' ']) (as.filterMap Atom.token) := by
  have hfree := (closed_textOf h).append_free free_space rfl (by decide)
  rwa [List.append_nil] at hfree

lemma closed_identifier (name : Name) : Closed (quoteDuckdbIdentifier name) [.ident name] := by
  have hfits : Fits [.ident name] (some ' ') := ⟨trivial, by simp [Atom.Follows, dquote], trivial⟩
  have hclosed := closed_textOf hfits
  simpa [Atom.text, quoteDuckdbIdentifier, Atom.token] using hclosed

/-- A literal whose quotes are doubled. -/
lemma closed_quoted (content : Text) :
    Closed (squote :: double squote content ++ [squote]) [.string content] := by
  intro rest hrest
  have hquote : rest.head? ≠ some squote :=
    fun h => (ne_of_mem_separators (hrest squote h)).2.2.1 rfl
  have hback : rest.head? ≠ some backtick :=
    fun h => (ne_of_mem_separators (hrest backtick h)).1 rfl
  rw [List.append_assoc, List.singleton_append, lex,
    Atom.backticks_quoted (Or.inl rfl) _ rest hquote,
    tokenize_quoted _ (by rwa [head?_of_ne_backtick hback])]
  rfl

def semicolon : Token := .symbol [';']

lemma free_semicolon : Free [';'] [semicolon] := by
  intro rest
  have hregion : duckdbRegion (';' :: rest) = (.none, 0) := by
    simp [duckdbRegion, scanSqlRegion, squote, dquote, backtick]
  have htoken : duckdbToken ([';'] ++ backticksToDoubleQuotes rest) = (.symbol, 1) := by
    simp [duckdbToken, isSpace, dquote, squote, isWordChar]
  have hpieces := pieces_append (List.cons_ne_nil ';' []) htoken
  rw [List.singleton_append, List.singleton_append, lex, Atom.backticks_cons hregion, tokenize]
  rw [List.singleton_append] at hpieces
  rw [hpieces, List.filterMap_cons]
  rfl

/-! ### Statements -/

/-- The statements of a script; empty ones are ignored. -/
def splitStatements (ts : List Token) : List (List Token) :=
  (ts.splitOnP fun t => t = semicolon).filter fun x => !x.isEmpty

/-- What DuckDB reads in a script, `none` if there is a statement that it does not understand. -/
def readScript {α : Type*} (read : List Token → Option α) (sql : Text) : Option (List α) :=
  (splitStatements (lex sql)).mapM read

/-- The tokens of one statement, which is understood as `meaning`. -/
structure Reads {α : Type*} (read : List Token → Option α) (ts : List Token) (meaning : α) :
    Prop where
  ne_nil : ts ≠ []
  single : semicolon ∉ ts
  eq : read ts = some meaning

/-- A statement with its semicolon, and how it is understood. -/
structure Sent {α : Type*} (read : List Token → Option α) where
  text : Text
  tokens : List Token
  meaning : α
  free : Free text (tokens ++ [semicolon])
  reads : Reads read tokens meaning

section ReadScript

variable {α : Type*} {read : List Token → Option α}

lemma splitStatements_append {ts us : List Token} (hne : ts ≠ []) (h : semicolon ∉ ts) :
    splitStatements (ts ++ semicolon :: us) = ts :: splitStatements us := by
  have hts : ∀ t ∈ ts, decide (t = semicolon) = false := by
    intro t ht
    rw [decide_eq_false_iff_not]
    rintro rfl
    exact h ht
  rw [splitStatements, List.splitOnP_append_cons_of_forall_mem hts _ (decide_eq_true rfl),
    List.filter_cons_of_pos (by simpa using hne), splitStatements]

lemma splitStatements_sent (xs : List (Sent read)) (ts : List Token) :
    splitStatements ((xs.flatMap fun x => x.tokens ++ [semicolon]) ++ ts) =
      xs.map Sent.tokens ++ splitStatements ts := by
  induction xs with
  | nil => rfl
  | cons x xs ih =>
      rw [List.flatMap_cons, List.append_assoc, List.append_assoc, List.singleton_append,
        splitStatements_append x.reads.ne_nil x.reads.single, ih, List.map_cons, List.cons_append]

lemma mapM_sent (xs : List (Sent read)) :
    (xs.map Sent.tokens).mapM read = some (xs.map Sent.meaning) := by
  induction xs with
  | nil => rfl
  | cons x xs ih => simp [List.mapM_cons, x.reads.eq, ih]

/-- A script of complete statements is read as it is meant. -/
theorem readScript_sent (xs : List (Sent read)) :
    readScript read (xs.flatMap Sent.text) = some (xs.map Sent.meaning) := by
  have hfree : Free (xs.flatMap Sent.text) (xs.flatMap fun x => x.tokens ++ [semicolon]) :=
    free_flatMap fun x _ => x.free
  have hsplit := splitStatements_sent xs []
  have hnil : splitStatements [] = [] := rfl
  rw [List.append_nil, hnil, List.append_nil] at hsplit
  rw [readScript, hfree.closed.lex_eq, hsplit, mapM_sent]

/-- The same with a last statement that has no semicolon. -/
theorem readScript_sent_append (xs : List (Sent read)) {t : Text} {ts : List Token} {meaning : α}
    (ht : Closed t ts) (hts : Reads read ts meaning) :
    readScript read (xs.flatMap Sent.text ++ t) = some (xs.map Sent.meaning ++ [meaning]) := by
  have hfree : Free (xs.flatMap Sent.text) (xs.flatMap fun x => x.tokens ++ [semicolon]) :=
    free_flatMap fun x _ => x.free
  have hlast : splitStatements ts = [ts] := by
    have hsingle : ∀ t ∈ ts, decide (t = semicolon) = false := by
      intro t ht
      rw [decide_eq_false_iff_not]
      rintro rfl
      exact hts.single ht
    rw [splitStatements, List.splitOnP_eq_singleton hsingle]
    exact List.filter_cons_of_pos (by simpa using hts.ne_nil)
  rw [readScript, (hfree.append_closed ht).lex_eq, splitStatements_sent, hlast, List.mapM_append,
    mapM_sent]
  simp [hts.eq]

end ReadScript

end DuckdbEngine.Sql
