/-
DuckDB's tokens, and texts put together from them.

Identifiers stand in double quotes, string literals in single quotes, and a quote is
escaped by doubling it; there are no backslash escapes.  A generated statement is a
sequence of atoms.  If no atom runs into the next one, the text is tokenized into these
atoms, and `backticks_to_double_quotes`, which every generated statement goes through
before it is executed, leaves it as it is.
-/
import DuckdbEngine.Sql.Region
import DuckdbEngine.Runtime.Table

namespace DuckdbEngine.Sql

open Lexing

/-! ### The rewriting of backticks -/

/-- The inner loop of `backticks_to_double_quotes`, over the characters between the backticks. -/
def requoteBody : Text → Text
  | [] => []
  | [d] => if d = dquote then [dquote, d] else [d]
  | d :: e :: s =>
      if d = backtick && e = backtick then backtick :: requoteBody s
      else if d = dquote then dquote :: d :: requoteBody (e :: s)
      else d :: requoteBody (e :: s)

/-- What `backticks_to_double_quotes` makes of one region or one character of code. -/
def requote : SqlRegionType × Text → Text
  | (.quoted, c :: s) =>
      if c = backtick then dquote :: requoteBody s.dropLast ++ [dquote] else c :: s
  | (_, s) => s

def backticksToDoubleQuotes (sql : Text) : Text := (pieces duckdbRegion sql).flatMap requote

/-! ### Tokens -/

inductive TokenKind where
  | space
  | comment
  | ident
  | string
  | number
  | word
  | symbol
  | unterminated
deriving DecidableEq

/-- A character of an unquoted word. -/
def isWordChar (c : Char) : Bool := c.isAlphanum || c = '_' || c = '$' || 128 ≤ c.toNat

/-- A quoted token with the closing quote `q`. -/
def quotedToken (kind : TokenKind) (q : Char) (s : Text) : TokenKind × ℕ :=
  match quoteEnd q false s with
  | some n => (kind, n + 1)
  | none => (.unterminated, s.length + 1)

/-- The first token of a text. -/
def duckdbToken : Lexer Char TokenKind
  | [] => (.symbol, 0)
  | c :: s =>
      if isSpace c then (.space, 1)
      else if c = '-' && s.head? = some '-' then
        (.comment, ((find ['\n'] s).map (· + 2)).getD (s.length + 1))
      else if c = '/' && s.head? = some '*' then
        match find ['*', '/'] s.tail with
        | some n => (.comment, n + 4)
        | none => (.unterminated, s.length + 1)
      else if c = dquote then quotedToken .ident dquote s
      else if c = squote then quotedToken .string squote s
      else if c.isDigit then (.number, ((c :: s).takeWhile Char.isDigit).length)
      else if isWordChar c then (.word, ((c :: s).takeWhile isWordChar).length)
      else if c = ':' && s.head? = some ':' then (.symbol, 2)
      else (.symbol, 1)

/-- A doubled quote stands for one. -/
def undouble (q : Char) : Text → Text
  | [] => []
  | [c] => [c]
  | c :: d :: s => if c = q && d = q then q :: undouble q s else c :: undouble q (d :: s)

/-- What is between the quotes. -/
def unquote (q : Char) (s : Text) : Text := undouble q s.tail.dropLast

/-- The number that a sequence of digits denotes. -/
def numberOf (s : Text) : ℕ := s.foldl (fun n c => 10 * n + (c.toNat - '0'.toNat)) 0

inductive Token where
  | ident (name : Name)
  | string (content : Text)
  | number (n : ℕ)
  | word (w : Text)
  | symbol (s : Text)
  | unterminated
deriving DecidableEq

/-- The token of a piece; keywords are compared without regard to case. -/
def tokenOf : TokenKind × Text → Option Token
  | (.space, _) => none
  | (.comment, _) => none
  | (.ident, s) => some (.ident (unquote dquote s))
  | (.string, s) => some (.string (unquote squote s))
  | (.number, s) => some (.number (numberOf s))
  | (.word, s) => some (.word (s.map Char.toUpper))
  | (.symbol, s) => some (.symbol s)
  | (.unterminated, _) => some .unterminated

def tokenize (sql : Text) : List Token := (pieces duckdbToken sql).filterMap tokenOf

/-! ### Quoting -/

/-- The name with every quote doubled. -/
def double (q : Char) (s : Text) : Text := s.flatMap fun c => if c = q then [q, q] else [c]

/-- The text between the quotes ends at the quote that is not doubled. -/
lemma quoteEnd_double (q : Char) (s rest : Text) (h : rest.head? ≠ some q) :
    quoteEnd q false (double q s ++ q :: rest) = some ((double q s).length + 1) := by
  induction s with
  | nil =>
      cases rest with
      | nil => simp [double, quoteEnd]
      | cons d rest =>
          have hd : d ≠ q := by simpa using h
          simp [double, quoteEnd, hd]
  | cons c s ih =>
      rw [double, List.flatMap_cons, ← double]
      by_cases hc : c = q
      · subst hc
        simp [quoteEnd, ih]
      · have hne : double q s ++ q :: rest ≠ [] := by simp
        obtain ⟨d, t, hdt⟩ := List.exists_cons_of_ne_nil hne
        rw [hdt] at ih
        simp [hc, hdt, quoteEnd, ih]

lemma undouble_double (q : Char) (s : Text) : undouble q (double q s) = s := by
  induction s with
  | nil => rfl
  | cons c s ih =>
      rw [double, List.flatMap_cons, ← double]
      by_cases hc : c = q
      · subst hc
        simp [undouble, ih]
      · cases hd : double q s with
        | nil =>
            rw [hd] at ih
            simp [hc, undouble, ← ih]
        | cons d t =>
            rw [hd] at ih
            simp [hc, undouble, ih]

lemma double_eq_self {q : Char} {s : Text} (h : q ∉ s) : double q s = s := by
  induction s with
  | nil => rfl
  | cons c s ih =>
      rw [List.mem_cons, not_or] at h
      rw [double, List.flatMap_cons, ← double, ih h.2, if_neg (Ne.symm h.1), List.singleton_append]

/-! ### Atoms -/

/-- The parts of a generated text. -/
inductive Atom where
  | space
  | word (w : Text)
  | symbol (c : Char)
  /-- The operator of a type cast. -/
  | cast
  | ident (name : Name)
  | literal (content : Text)
  | digits (ds : Text)

namespace Atom

def text : Atom → Text
  | space => [' ']
  | word w => w
  | symbol c => [c]
  | cast => [':', ':']
  | ident name => dquote :: double dquote name ++ [dquote]
  | literal content => squote :: content ++ [squote]
  | digits ds => ds

def kind : Atom → TokenKind
  | space => .space
  | word _ => .word
  | symbol _ => .symbol
  | cast => .symbol
  | ident _ => .ident
  | literal _ => .string
  | digits _ => .number

def token : Atom → Option Token
  | space => none
  | word w => some (.word (w.map Char.toUpper))
  | symbol c => some (.symbol [c])
  | cast => some (.symbol [':', ':'])
  | ident name => some (.ident name)
  | literal content => some (.string content)
  | digits ds => some (.number (numberOf ds))

/-- The punctuation of the generated statements. -/
def symbols : List Char := ['(', ')', ',', '.', '=', '-']

/-- A word consists of letters and underscores, a literal has no quote in it. -/
def Valid : Atom → Prop
  | word w => w ≠ [] ∧ ∀ c ∈ w, c.isAlpha = true ∨ c = '_'
  | symbol c => c ∈ symbols
  | literal content => squote ∉ content
  | digits ds => ds ≠ [] ∧ ∀ c ∈ ds, c.isDigit = true
  | _ => True

/-- The next character is not taken for a part of the atom. -/
def Follows : Atom → Option Char → Prop
  | word _, h => ∀ c ∈ h, isWordChar c = false
  | symbol c, h => c = '-' → h ≠ some '-'
  | ident _, h => h ≠ some dquote
  | literal _, h => h ≠ some squote
  | digits _, h => ∀ c ∈ h, c.isDigit = false
  | _, _ => True

lemma text_ne_nil {a : Atom} (h : a.Valid) : a.text ≠ [] := by
  cases a with
  | word w => exact h.1
  | digits ds => exact h.1
  | _ => simp [text]

lemma tokenOf_atom {a : Atom} (h : a.Valid) : tokenOf (a.kind, a.text) = a.token := by
  cases a with
  | ident name => simp [tokenOf, kind, text, token, unquote, undouble_double]
  | literal content =>
      have hc := undouble_double squote content
      rw [double_eq_self h] at hc
      simp [tokenOf, kind, text, token, unquote, hc]
  | _ => rfl

/-- A character with which no space, comment or quoted region begins. -/
structure Ordinary (c : Char) : Prop where
  space : isSpace c = false
  dash : c ≠ '-'
  slash : c ≠ '/'
  hash : c ≠ '#'
  squote : c ≠ squote
  dquote : c ≠ dquote
  backtick : c ≠ backtick

lemma ordinary_of_toNat {c : Char} (h : 48 ≤ c.toNat) (hb : c.toNat ≠ 96) : Ordinary c := by
  refine ⟨?_, ?_, ?_, ?_, ?_, ?_, ?_⟩
  · have h₁ : ¬ c ≤ '\r' := fun hle => by
      have : c.toNat ≤ 13 := hle
      omega
    have h₂ : c ≠ ' ' := by
      rintro rfl
      simp at h
    simp [isSpace, h₁, h₂]
  all_goals
    rintro rfl
    revert h hb
    decide

lemma isAlpha_bounds {c : Char} (h : c.isAlpha = true ∨ c = '_') :
    65 ≤ c.toNat ∧ c.toNat ≠ 96 ∧ c.isDigit = false ∧ isWordChar c = true := by
  rcases h with h | rfl
  · have hw : isWordChar c = true := by simp [isWordChar, Char.isAlphanum, h]
    change (decide ('A'.val ≤ c.val ∧ c.val ≤ 'Z'.val) ||
      (decide ('a'.val ≤ c.val) && decide (c.val ≤ 'z'.val))) = true at h
    rw [Bool.or_eq_true, Bool.and_eq_true, decide_eq_true_eq, decide_eq_true_eq, decide_eq_true_eq]
      at h
    simp only [UInt32.le_iff_toNat_le] at h
    change (65 ≤ c.toNat ∧ c.toNat ≤ 90) ∨ (97 ≤ c.toNat ∧ c.toNat ≤ 122) at h
    refine ⟨by omega, by omega, ?_, hw⟩
    rw [← Bool.not_eq_true]
    intro hd
    simp only [Char.isDigit, Bool.and_eq_true, decide_eq_true_eq, UInt32.le_iff_toNat_le,
      ge_iff_le] at hd
    change 48 ≤ c.toNat ∧ c.toNat ≤ 57 at hd
    omega
  · decide

lemma isDigit_bounds {c : Char} (h : c.isDigit = true) : 48 ≤ c.toNat ∧ c.toNat ≤ 57 := by
  simp only [Char.isDigit, Bool.and_eq_true, decide_eq_true_eq, UInt32.le_iff_toNat_le,
    ge_iff_le] at h
  exact h

lemma takeWhile_append_of_head {p : Char → Bool} {u v : Text} (hu : ∀ c ∈ u, p c = true)
    (hv : ∀ c ∈ v.head?, p c = false) : (u ++ v).takeWhile p = u := by
  rw [List.takeWhile_append_of_pos hu]
  cases v with
  | nil => simp
  | cons c v => simp [hv c rfl]

lemma duckdbToken_dquote (s : Text) :
    duckdbToken (dquote :: s) = quotedToken .ident dquote s := by
  simp [duckdbToken, isSpace, dquote]

lemma duckdbToken_squote (s : Text) :
    duckdbToken (squote :: s) = quotedToken .string squote s := by
  simp [duckdbToken, isSpace, dquote, squote]

/-- A valid atom is the first token of a text that goes on without running into it. -/
lemma duckdbToken_text {a : Atom} (ha : a.Valid) {rest : Text} (hf : a.Follows rest.head?) :
    duckdbToken (a.text ++ rest) = (a.kind, a.text.length) := by
  cases a with
  | space => simp [text, kind, duckdbToken, isSpace]
  | cast => simp [text, kind, duckdbToken, isSpace, dquote, squote, isWordChar]
  | symbol c =>
      simp only [Valid, symbols, List.mem_cons, List.not_mem_nil, or_false] at ha
      rcases ha with rfl | rfl | rfl | rfl | rfl | rfl <;>
        simp [text, kind, duckdbToken, isSpace, dquote, squote, isWordChar]
      exact hf rfl
  | word w =>
      obtain ⟨c, w, rfl⟩ := List.exists_cons_of_ne_nil ha.1
      have hc := isAlpha_bounds (ha.2 c List.mem_cons_self)
      have ho := ordinary_of_toNat (by omega) hc.2.1
      have htake := takeWhile_append_of_head (u := c :: w) (v := rest)
        (fun d hd => (isAlpha_bounds (ha.2 d hd)).2.2.2) hf
      rw [List.cons_append] at htake
      simp [text, kind, duckdbToken, ho.space, ho.dash, ho.slash, ho.dquote, ho.squote, hc.2.2.1,
        hc.2.2.2, htake]
  | digits ds =>
      obtain ⟨c, ds, rfl⟩ := List.exists_cons_of_ne_nil ha.1
      have hc := ha.2 c List.mem_cons_self
      have hb := isDigit_bounds hc
      have ho := ordinary_of_toNat hb.1 (by omega)
      have htake := takeWhile_append_of_head (u := c :: ds) (v := rest) ha.2 hf
      rw [List.cons_append] at htake
      simp [text, kind, duckdbToken, ho.space, ho.dash, ho.slash, ho.dquote, ho.squote, hc, htake]
  | ident name =>
      have hq := quoteEnd_double dquote name rest hf
      simp [text, kind, duckdbToken_dquote, quotedToken, hq]
  | literal content =>
      have hq := quoteEnd_double squote content rest hf
      rw [double_eq_self ha] at hq
      simp [text, kind, duckdbToken_squote, quotedToken, hq]

/-! ### Backticks in atoms -/

lemma backticks_quoted {q : Char} (hq : q = squote ∨ q = dquote) (s rest : Text)
    (h : rest.head? ≠ some q) :
    backticksToDoubleQuotes (q :: double q s ++ q :: rest) =
      q :: double q s ++ q :: backticksToDoubleQuotes rest := by
  have hscan : duckdbRegion ((q :: double q s ++ [q]) ++ rest) =
      (.quoted, (q :: double q s ++ [q]).length) := by
    have hend := quoteEnd_double q s rest h
    rcases hq with rfl | rfl <;>
      simp [duckdbRegion, scanSqlRegion, squote, dquote, regionTo] at hend ⊢ <;> simp [hend]
  have hne : q ≠ backtick := by rcases hq with rfl | rfl <;> decide
  have hpieces := pieces_append (by simp) hscan
  simp only [List.append_assoc, List.singleton_append] at hpieces
  rw [backticksToDoubleQuotes, hpieces, List.flatMap_cons, ← backticksToDoubleQuotes]
  simp [requote, hne]

lemma backticks_cons {c : Char} {rest : Text} (h : duckdbRegion (c :: rest) = (.none, 0)) :
    backticksToDoubleQuotes (c :: rest) = c :: backticksToDoubleQuotes rest := by
  rw [backticksToDoubleQuotes, pieces_single h, List.flatMap_cons, ← backticksToDoubleQuotes]
  rfl

lemma duckdbRegion_ordinary {c : Char} (h : Ordinary c) (rest : Text) :
    duckdbRegion (c :: rest) = (.none, 0) := by
  simp [duckdbRegion, scanSqlRegion, h.slash, h.hash, h.dash, h.squote, h.dquote, h.backtick]

lemma backticks_append_ordinary {u rest : Text} (h : ∀ c ∈ u, Ordinary c) :
    backticksToDoubleQuotes (u ++ rest) = u ++ backticksToDoubleQuotes rest := by
  induction u with
  | nil => rfl
  | cons c u ih =>
      rw [List.cons_append, backticks_cons (duckdbRegion_ordinary (h c List.mem_cons_self) _),
        ih fun d hd => h d (List.mem_cons_of_mem c hd), List.cons_append]

/-- The rewriting of backticks passes over a valid atom. -/
lemma backticks_text {a : Atom} (ha : a.Valid) {rest : Text} (hf : a.Follows rest.head?) :
    backticksToDoubleQuotes (a.text ++ rest) = a.text ++ backticksToDoubleQuotes rest := by
  cases a with
  | space => exact backticks_cons (by simp [duckdbRegion, scanSqlRegion, squote, dquote, backtick])
  | cast =>
      rw [text, List.cons_append, List.cons_append, List.nil_append]
      rw [backticks_cons, backticks_cons]
      · rfl
      all_goals simp [duckdbRegion, scanSqlRegion, squote, dquote, backtick]
  | symbol c =>
      refine backticks_cons ?_
      simp only [Valid, symbols, List.mem_cons, List.not_mem_nil, or_false] at ha
      rcases ha with rfl | rfl | rfl | rfl | rfl | rfl <;>
        simp [duckdbRegion, scanSqlRegion, squote, dquote, backtick]
      exact fun h => absurd h (hf rfl)
  | word w =>
      refine backticks_append_ordinary fun c hc => ?_
      have hb := isAlpha_bounds (ha.2 c hc)
      exact ordinary_of_toNat (by omega) hb.2.1
  | digits ds =>
      refine backticks_append_ordinary fun c hc => ?_
      have hb := isDigit_bounds (ha.2 c hc)
      exact ordinary_of_toNat hb.1 (by omega)
  | ident name =>
      have h := backticks_quoted (Or.inr rfl) name rest hf
      simpa [text] using h
  | literal content =>
      have h := backticks_quoted (Or.inl rfl) content rest hf
      rw [double_eq_self ha] at h
      simpa [text] using h

end Atom

/-! ### Sequences of atoms -/

/-- The text of a sequence of atoms. -/
def textOf (as : List Atom) : Text := as.flatMap Atom.text

/-- All atoms are valid, and none runs into the next one or into what follows the sequence. -/
def Fits : List Atom → Option Char → Prop
  | [], _ => True
  | a :: as, h => a.Valid ∧ a.Follows ((textOf as).head?.or h) ∧ Fits as h

instance : (a : Atom) → Decidable a.Valid
  | .space => .isTrue trivial
  | .word w =>
      have := List.decidableBAll (fun c : Char => c.isAlpha = true ∨ c = '_') w
      instDecidableAnd
  | .symbol c => inferInstanceAs (Decidable (c ∈ Atom.symbols))
  | .cast => .isTrue trivial
  | .ident _ => .isTrue trivial
  | .literal content => inferInstanceAs (Decidable (squote ∉ content))
  | .digits ds =>
      have := List.decidableBAll (fun c : Char => c.isDigit = true) ds
      instDecidableAnd

instance : (a : Atom) → (h : Option Char) → Decidable (a.Follows h)
  | .space, _ => .isTrue trivial
  | .word _, h => Option.decidableForallMem h
  | .symbol c, h => inferInstanceAs (Decidable (c = '-' → h ≠ some '-'))
  | .cast, _ => .isTrue trivial
  | .ident _, h => inferInstanceAs (Decidable (h ≠ some dquote))
  | .literal _, h => inferInstanceAs (Decidable (h ≠ some squote))
  | .digits _, h => Option.decidableForallMem h

instance decidableFits : (as : List Atom) → (h : Option Char) → Decidable (Fits as h)
  | [], _ => .isTrue trivial
  | a :: as, h =>
      have := decidableFits as h
      inferInstanceAs (Decidable (a.Valid ∧ a.Follows ((textOf as).head?.or h) ∧ Fits as h))

@[simp] lemma textOf_nil : textOf [] = [] := rfl

@[simp] lemma textOf_cons (a : Atom) (as : List Atom) : textOf (a :: as) = a.text ++ textOf as :=
  List.flatMap_cons

@[simp] lemma textOf_append (as bs : List Atom) : textOf (as ++ bs) = textOf as ++ textOf bs :=
  List.flatMap_append

lemma fits_append {as bs : List Atom} {h : Option Char} :
    Fits (as ++ bs) h ↔ Fits as ((textOf bs).head?.or h) ∧ Fits bs h := by
  induction as with
  | nil => simp [Fits]
  | cons a as ih =>
      rw [List.cons_append, Fits, Fits, ih, textOf_append, List.head?_append, Option.or_assoc]
      tauto

section FitsCons

variable {as : List Atom} {h : Option Char} {c : Char}

lemma fits_space (has : Fits as h) : Fits (.space :: as) h := ⟨trivial, trivial, has⟩

lemma fits_cast (has : Fits as h) : Fits (.cast :: as) h := ⟨trivial, trivial, has⟩

lemma fits_symbol (hc : c ∈ Atom.symbols) (hne : c ≠ '-') (has : Fits as h) :
    Fits (.symbol c :: as) h :=
  ⟨hc, fun heq => absurd heq hne, has⟩

lemma fits_word {w : Text} (hw : (Atom.word w).Valid) (hhead : (textOf as).head? = some c)
    (hc : isWordChar c = false) (has : Fits as h) : Fits (.word w :: as) h :=
  ⟨hw, by rw [hhead]; rintro _ ⟨⟩; exact hc, has⟩

lemma fits_literal {t : Text} (ht : squote ∉ t) (hhead : (textOf as).head? = some c)
    (hc : c ≠ squote) (has : Fits as h) : Fits (.literal t :: as) h :=
  ⟨ht, by rw [hhead]; exact fun heq => hc (Option.some_inj.1 heq), has⟩

lemma fits_ident {name : Name} (hhead : (textOf as).head? = some c) (hc : c ≠ dquote)
    (has : Fits as h) : Fits (.ident name :: as) h :=
  ⟨trivial, by rw [hhead]; exact fun heq => hc (Option.some_inj.1 heq), has⟩

end FitsCons

/-- Atoms that fit are cut off in front of any text. -/
theorem tokenize_textOf_append {as : List Atom} {rest : Text} (h : Fits as rest.head?) :
    tokenize (textOf as ++ rest) = as.filterMap Atom.token ++ tokenize rest := by
  induction as with
  | nil => rfl
  | cons a as ih =>
      obtain ⟨hv, hf, has⟩ := h
      rw [← List.head?_append] at hf
      rw [textOf_cons, List.append_assoc, tokenize,
        pieces_append (Atom.text_ne_nil hv) (Atom.duckdbToken_text hv hf), List.filterMap_cons,
        Atom.tokenOf_atom hv, ← tokenize, ih has, List.filterMap_cons]
      cases a.token <;> rfl

/-- The tokens of a text of atoms that fit are those of the atoms. -/
theorem tokenize_textOf {as : List Atom} (h : Fits as none) :
    tokenize (textOf as) = as.filterMap Atom.token := by
  have happ := tokenize_textOf_append (show Fits as ([] : Text).head? from h)
  rwa [List.append_nil, show tokenize [] = [] from rfl, List.append_nil] at happ

/-- The rewriting of backticks passes over atoms that fit. -/
theorem backticks_textOf_append {as : List Atom} {rest : Text} (h : Fits as rest.head?) :
    backticksToDoubleQuotes (textOf as ++ rest) = textOf as ++ backticksToDoubleQuotes rest := by
  induction as with
  | nil => rfl
  | cons a as ih =>
      obtain ⟨hv, hf, has⟩ := h
      rw [← List.head?_append] at hf
      rw [textOf_cons, List.append_assoc, Atom.backticks_text hv hf, ih has, List.append_assoc]

/-- A text of atoms that fit is not changed by the rewriting of backticks. -/
theorem backticks_textOf {as : List Atom} (h : Fits as none) :
    backticksToDoubleQuotes (textOf as) = textOf as := by
  have happ := backticks_textOf_append (show Fits as ([] : Text).head? from h)
  rwa [List.append_nil, show backticksToDoubleQuotes [] = [] from rfl, List.append_nil] at happ

/-- A text in single quotes that are doubled inside of it is one token. -/
lemma tokenize_quoted (content : Text) {rest : Text} (h : rest.head? ≠ some squote) :
    tokenize (squote :: double squote content ++ squote :: rest) =
      .string content :: tokenize rest := by
  have hscan : duckdbToken ((squote :: double squote content ++ [squote]) ++ rest) =
      (.string, (squote :: double squote content ++ [squote]).length) := by
    have hend := quoteEnd_double squote content rest h
    simp [Atom.duckdbToken_squote, quotedToken, hend]
  have hpieces := pieces_append (by simp) hscan
  rw [List.append_assoc, List.singleton_append] at hpieces
  rw [tokenize, hpieces, List.filterMap_cons, ← tokenize]
  simp [tokenOf, unquote, undouble_double]

end DuckdbEngine.Sql
