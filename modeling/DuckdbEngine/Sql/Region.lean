/-
The lexical regions of an SQL text and the guard against diverging quotes.

`scan_sql_region` recognizes a comment or a quoted region at a position of a text.
MariaDB and DuckDB cut a text into code, comments and quoted regions with it, MariaDB
with backslash escapes in string literals, DuckDB without any.  A text is forwarded
only if `mariadb_query_has_unsafe_quote_escape` finds that the two agree.

A text is a list of characters that stand for the bytes; functions of a text and a
position are defined on the rest of the text from that position on.
-/
import DuckdbEngine.Lib.Lexing

namespace DuckdbEngine.Sql

open Lexing

/-- A query text. -/
abbrev Text := List Char

/-- The single quote. -/
def squote : Char := Char.ofNat 39

/-- The double quote. -/
def dquote : Char := Char.ofNat 34

def backtick : Char := Char.ofNat 96

def backslash : Char := Char.ofNat 92

/-- `isspace` in the C locale. -/
def isSpace (c : Char) : Bool := c = ' ' || '\t' ≤ c && c ≤ '\r'

/-- `std::string::find`: the first position where the text goes on with the pattern. -/
def find (pattern : Text) : Text → Option ℕ
  | [] => if pattern.isEmpty then some 0 else none
  | c :: s => if pattern.isPrefixOf (c :: s) then some 0 else (find pattern s).map (· + 1)

inductive SqlRegionType where
  | none
  | comment
  | quoted
  | unterminated
deriving DecidableEq, Repr

/-- The number of characters up to the closing quote `q`, after the opening one.  A quote that
is doubled, or escaped where backslashes escape, does not close. -/
def quoteEnd (q : Char) (backslashEscapes : Bool) : Text → Option ℕ
  | [] => .none
  | [c] => if c = q then some 1 else .none
  | c :: d :: s =>
      if c = backslash && backslashEscapes then (quoteEnd q backslashEscapes s).map (· + 2)
      else if c ≠ q then (quoteEnd q backslashEscapes (d :: s)).map (· + 1)
      else if d = q then (quoteEnd q backslashEscapes s).map (· + 2)
      else some 1

/-- The region of the given kind that ends after `n` characters, or at the end of the text. -/
def regionTo (kind : SqlRegionType) (s : Text) : Option ℕ → SqlRegionType × ℕ
  | some n => (kind, n)
  | .none => (.unterminated, s.length)

/-- The kind and the length of the region at the beginning of the text. -/
def scanSqlRegion (backslashEscapes : Bool) : Lexer Char SqlRegionType
  | [] => (.none, 0)
  | c :: s =>
      if c = '/' && s.head? = some '*' then
        regionTo .comment (c :: s) ((find ['*', '/'] s.tail).map (· + 4))
      else if c = '#' then
        (.comment, ((find ['\n'] s).map (· + 2)).getD (s.length + 1))
      else if c = '-' && s.head? = some '-' && s.tail.head?.all isSpace then
        (.comment, ((find ['\n'] s.tail).map (· + 3)).getD (s.length + 1))
      else if c = squote || c = dquote || c = backtick then
        regionTo .quoted (c :: s) ((quoteEnd c backslashEscapes s).map (· + 1))
      else (.none, 0)

/-- What the lexical rules depend on of `sql_mode`. -/
structure SqlMode where
  backslashEscapes : Bool
  ansiQuotes : Bool

/-- The character opens a string literal. -/
def SqlMode.opensLiteral (mode : SqlMode) (c : Char) : Bool :=
  c = squote || (c = dquote && !mode.ansiQuotes)

/-- The loop of `mariadb_query_has_unsafe_quote_escape`, at most `n` rounds. -/
def unsafeFrom (mode : SqlMode) : ℕ → Text → Bool
  | 0, _ => false
  | _ + 1, [] => false
  | n + 1, c :: s =>
      let (duckdbRegion, duckdbEnd) := scanSqlRegion false (c :: s)
      if duckdbRegion = .comment then unsafeFrom mode n ((c :: s).drop duckdbEnd)
      else if mode.opensLiteral c then
        let (mariadbRegion, mariadbEnd) := scanSqlRegion true (c :: s)
        if mariadbRegion ≠ duckdbRegion || mariadbEnd ≠ duckdbEnd then true
        else unsafeFrom mode n ((c :: s).drop mariadbEnd)
      else
        match duckdbRegion with
        | .quoted => unsafeFrom mode n ((c :: s).drop duckdbEnd)
        | .unterminated => true
        | _ => unsafeFrom mode n s

/-- Each round consumes a character. -/
def mariadbQueryHasUnsafeQuoteEscape (mode : SqlMode) (sql : Text) : Bool :=
  if !mode.backslashEscapes || sql.isEmpty then false else unsafeFrom mode sql.length sql

/-! ### Segmentations -/

/-- MariaDB: backslashes escape in string literals only, and only if the mode says so. -/
def mariadbRegion (mode : SqlMode) : Lexer Char SqlRegionType := fun s =>
  scanSqlRegion (mode.backslashEscapes && s.head?.any mode.opensLiteral) s

/-- DuckDB: no backslash escapes. -/
def duckdbRegion : Lexer Char SqlRegionType := scanSqlRegion false

/-- A region: its kind and the positions of its first character and behind its last one. -/
structure Region where
  kind : SqlRegionType
  start : ℕ
  stop : ℕ
deriving DecidableEq, Repr

/-- The regions of a sequence of pieces that begins at the given position. -/
def regionsFrom : ℕ → List (SqlRegionType × Text) → List Region
  | _, [] => []
  | pos, (.none, p) :: ps => regionsFrom (pos + p.length) ps
  | pos, (kind, p) :: ps => ⟨kind, pos, pos + p.length⟩ :: regionsFrom (pos + p.length) ps

/-- The comments and quoted regions that a lexer finds in a text, from left to right. -/
def segmentation (next : Lexer Char SqlRegionType) (sql : Text) : List Region :=
  regionsFrom 0 (pieces next sql)

/-! ### Lengths of regions -/

lemma find_le {pattern s : Text} {n : ℕ} (h : find pattern s = some n) :
    n + pattern.length ≤ s.length := by
  induction s generalizing n with
  | nil =>
      rw [find] at h
      split at h <;> cases h
      simp_all
  | cons c s ih =>
      rw [find] at h
      split at h
      case isTrue hp =>
          cases h
          simpa using (List.isPrefixOf_iff_prefix.1 hp).length_le
      case isFalse =>
          obtain ⟨m, hm, rfl⟩ := Option.map_eq_some_iff.1 h
          have := ih hm
          rw [List.length_cons]
          omega

lemma quoteEnd_bounds {q : Char} {b : Bool} {s : Text} {n : ℕ} (h : quoteEnd q b s = some n) :
    0 < n ∧ n ≤ s.length := by
  fun_induction quoteEnd q b s generalizing n with
  | case1 => cases h
  | case2 => cases h; simp
  | case3 => cases h
  | case4 c d s _ ih | case6 d s _ _ ih =>
      obtain ⟨m, hm, rfl⟩ := Option.map_eq_some_iff.1 h
      have := ih hm
      simp only [List.length_cons]
      omega
  | case5 c d s _ _ ih =>
      obtain ⟨m, hm, rfl⟩ := Option.map_eq_some_iff.1 h
      have := ih hm
      simp only [List.length_cons] at this ⊢
      omega
  | case7 => cases h; simp

lemma regionTo_bounds {kind : SqlRegionType} {s : Text} {o : Option ℕ} (hs : s ≠ [])
    (hkind : kind ≠ .none) (hk : kind ≠ .unterminated)
    (ho : ∀ n, o = some n → 0 < n ∧ n ≤ s.length) :
    (regionTo kind s o).1 ≠ .none ∧ 0 < (regionTo kind s o).2 ∧
      (regionTo kind s o).2 ≤ s.length ∧
      ((regionTo kind s o).1 = .unterminated → (regionTo kind s o).2 = s.length) := by
  cases o with
  | none => exact ⟨by simp [regionTo], List.length_pos_iff.2 hs, le_rfl, fun _ => rfl⟩
  | some n => exact ⟨hkind, (ho n rfl).1, (ho n rfl).2, fun h => absurd h hk⟩

/-- A region is not empty and lies within the text; an unterminated one extends to its end. -/
lemma scanSqlRegion_bounds (b : Bool) (s : Text) :
    (scanSqlRegion b s = (.none, 0)) ∨
      (scanSqlRegion b s).1 ≠ .none ∧ 0 < (scanSqlRegion b s).2 ∧
        (scanSqlRegion b s).2 ≤ s.length ∧
        ((scanSqlRegion b s).1 = .unterminated → (scanSqlRegion b s).2 = s.length) := by
  cases s with
  | nil => exact Or.inl rfl
  | cons c s =>
      rw [scanSqlRegion]
      split_ifs with h₁ h₂ h₃ h₄
      · refine Or.inr (regionTo_bounds (by simp) (by decide) (by decide) fun n hn => ?_)
        obtain ⟨m, hm, rfl⟩ := Option.map_eq_some_iff.1 hn
        have hle := find_le hm
        have hs : s ≠ [] := by rintro rfl; simp at h₁
        have := List.length_pos_iff.2 hs
        simp only [List.length_cons, List.length_tail, List.length_nil] at hle ⊢
        omega
      · refine Or.inr ⟨by simp, ?_⟩
        cases hf : find ['\n'] s with
        | none => simp
        | some m =>
            have hle := find_le hf
            simp only [List.length_cons, List.length_nil] at hle
            simp only [Option.map_some, Option.getD_some, List.length_cons]
            exact ⟨by omega, by omega, by simp⟩
      · refine Or.inr ⟨by simp, ?_⟩
        cases hf : find ['\n'] s.tail with
        | none => simp
        | some m =>
            have hle := find_le hf
            simp only [List.length_cons, List.length_tail, List.length_nil] at hle
            simp only [Option.map_some, Option.getD_some, List.length_cons]
            exact ⟨by omega, by omega, by simp⟩
      · refine Or.inr (regionTo_bounds (by simp) (by decide) (by decide) fun n hn => ?_)
        obtain ⟨m, hm, rfl⟩ := Option.map_eq_some_iff.1 hn
        have := quoteEnd_bounds hm
        simp only [List.length_cons]
        omega
      · exact Or.inl rfl

end DuckdbEngine.Sql
