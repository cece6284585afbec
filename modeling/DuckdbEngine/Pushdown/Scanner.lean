/-
The scanners of the select handler.

`extract_source_query` finds the query in a statement text: the whole text of a SELECT,
or the part of an INSERT ... SELECT from the query on.  The passes that rewrite it
search with `find_in_code`, which delimits strings, quoted identifiers and comments by
rules of its own: a backslash always escapes, `--` needs no blank, and `#` is code.
-/
import DuckdbEngine.Sql.Tokens

namespace DuckdbEngine.Pushdown

open Sql

/-! ### The source query -/

def isQueryToken (word : Text) : Bool :=
  word.map Char.toLower = "select".toList || word.map Char.toLower = "with".toList

/-- The loop of `extract_source_query` on the rest of the text, at most `n` rounds. -/
def sourceFrom (backslashEscapes stripPrefix : Bool) (sql : Text) : ℕ → ℕ → Text → Option Text
  | 0, _, _ => none
  | _ + 1, _, [] => none
  | n + 1, depth, c :: s =>
      if isSpace c then sourceFrom backslashEscapes stripPrefix sql n depth s
      else
        match scanSqlRegion backslashEscapes (c :: s) with
        | (.unterminated, _) => none
        | (.comment, stop) =>
            sourceFrom backslashEscapes stripPrefix sql n depth ((c :: s).drop stop)
        | (.quoted, stop) =>
            if !stripPrefix && depth = 0 then none
            else sourceFrom backslashEscapes stripPrefix sql n depth ((c :: s).drop stop)
        | (.none, _) =>
            if c = '(' then
              if !stripPrefix && depth = 0 then none
              else sourceFrom backslashEscapes stripPrefix sql n (depth + 1) s
            else if c = ')' then
              if depth = 0 then none
              else sourceFrom backslashEscapes stripPrefix sql n (depth - 1) s
            else if c.isAlpha || c = '_' || 128 ≤ c.toNat then
              let word := (c :: s).takeWhile isWordChar
              let queryToken := depth = 0 && isQueryToken word
              if !stripPrefix then if queryToken then some sql else none
              else if queryToken then some (c :: s)
              else sourceFrom backslashEscapes stripPrefix sql n depth ((c :: s).drop word.length)
            else if !stripPrefix && depth = 0 then none
            else sourceFrom backslashEscapes stripPrefix sql n depth s

/-- The prefix is stripped from an INSERT ... SELECT.  Each round consumes a character. -/
def extractSourceQuery (mode : SqlMode) (stripPrefix : Bool) (sql : Text) : Option Text :=
  if mariadbQueryHasUnsafeQuoteEscape mode sql then none
  else sourceFrom mode.backslashEscapes stripPrefix sql sql.length 0 sql

/-! ### The search in code -/

/-- The text begins with the prefix, up to case. -/
def ciStartsWith (pre : Text) (s : Text) : Bool :=
  (s.take pre.length).map Char.toUpper = pre.map Char.toUpper

/-- How much of the text `find_in_code` skips because a string, a quoted identifier or a comment
begins here; 0 stands for code. -/
def codeSkip : Text → ℕ
  | [] => 0
  | c :: s =>
      if c = squote || c = dquote then (quoteEnd c true s).getD s.length + 1
      else if c = backtick then (quoteEnd c false s).getD s.length + 1
      else if c = '-' && s.head? = some '-' then (s.tail.takeWhile (· ≠ '\n')).length + 2
      else if c = '/' && s.head? = some '*' then
        -- an unterminated comment leaves the scanner at the last character
        ((find ['*', '/'] s.tail).map (· + 4)).getD (max 2 s.length)
      else 0

/-- The loop of `find_in_code` on the rest of the text, at most `n` rounds. -/
def findFrom (pattern : Text) : ℕ → Text → Option ℕ
  | 0, _ => none
  | n + 1, s =>
      if s.length < pattern.length then none
      else if codeSkip s ≠ 0 then
        (findFrom pattern n (s.drop (codeSkip s))).map (· + codeSkip s)
      else if ciStartsWith pattern s then some 0
      else (findFrom pattern n s.tail).map (· + 1)

/-- The first match in code at or after `start`.  Each round consumes a character. -/
def findInCode (sql pattern : Text) (start : ℕ) : Option ℕ :=
  if pattern.isEmpty || sql.length < pattern.length then none
  else (findFrom pattern (sql.length + 1) (sql.drop start)).map (· + start)

/-- The loop of `rfind_in_code` with its position and the last match so far. -/
def rfindFrom (sql pattern : Text) (before : ℕ) : ℕ → ℕ → Option ℕ → Option ℕ
  | 0, _, last => last
  | n + 1, pos, last =>
      match findInCode sql pattern pos with
      | none => last
      | some found =>
          if found > before then last
          else rfindFrom sql pattern before n (found + 1) (some found)

/-- The last match in code at or before `before`.  Each round moves the position. -/
def rfindInCode (sql pattern : Text) (before : ℕ) : Option ℕ :=
  rfindFrom sql pattern before (sql.length + 1) 0 none

/-! ### What a match is -/

/-- The pattern stands at the position, up to case. -/
def MatchesAt (sql pattern : Text) (pos : ℕ) : Prop :=
  ciStartsWith pattern (sql.drop pos) = true

lemma MatchesAt.upper {sql pattern : Text} {pos : ℕ} (h : MatchesAt sql pattern pos) :
    ((sql.drop pos).take pattern.length).map Char.toUpper = pattern.map Char.toUpper :=
  of_decide_eq_true h

lemma MatchesAt.bound {sql pattern : Text} {pos : ℕ} (h : MatchesAt sql pattern pos)
    (hne : pattern ≠ []) : pos + pattern.length ≤ sql.length := by
  have hlen := congrArg List.length h.upper
  have hpos := List.length_pos_iff.2 hne
  simp only [List.length_map, List.length_take, List.length_drop] at hlen
  omega

lemma findFrom_matches {pattern : Text} {n : ℕ} {s : Text} {k : ℕ}
    (h : findFrom pattern n s = some k) : MatchesAt s pattern k := by
  induction n generalizing s k with
  | zero => cases h
  | succ n ih =>
      rw [findFrom] at h
      split_ifs at h with hlen hskip hstarts
      · obtain ⟨m, hm, rfl⟩ := Option.map_eq_some_iff.1 h
        have hrest := ih hm
        rwa [MatchesAt, List.drop_drop, Nat.add_comm] at hrest
      · cases h
        exact hstarts
      · obtain ⟨m, hm, rfl⟩ := Option.map_eq_some_iff.1 h
        have hrest := ih hm
        rwa [MatchesAt, ← List.drop_one, List.drop_drop, Nat.add_comm] at hrest

/-- What `find_in_code` finds is a match at or after the start. -/
theorem findInCode_matches {sql pattern : Text} {start pos : ℕ}
    (h : findInCode sql pattern start = some pos) :
    start ≤ pos ∧ MatchesAt sql pattern pos ∧ pos + pattern.length ≤ sql.length := by
  rw [findInCode] at h
  split_ifs at h with hempty
  obtain ⟨m, hm, rfl⟩ := Option.map_eq_some_iff.1 h
  have hmatch := findFrom_matches hm
  rw [MatchesAt, List.drop_drop, Nat.add_comm] at hmatch
  refine ⟨Nat.le_add_left _ _, hmatch, MatchesAt.bound hmatch fun hnil => ?_⟩
  simp [hnil] at hempty

lemma rfindFrom_matches {sql pattern : Text} {before n pos : ℕ} {last : Option ℕ} {g : ℕ}
    (hlast : ∀ g, last = some g → g ≤ before ∧ MatchesAt sql pattern g)
    (h : rfindFrom sql pattern before n pos last = some g) :
    g ≤ before ∧ MatchesAt sql pattern g := by
  induction n generalizing pos last with
  | zero => exact hlast g h
  | succ n ih =>
      rw [rfindFrom] at h
      split at h
      · exact hlast g h
      · rename_i found hfound
        split_ifs at h with hbefore
        · exact hlast g h
        · refine ih (fun k hk => ?_) h
          cases hk
          exact ⟨by omega, (findInCode_matches hfound).2.1⟩

theorem rfindInCode_matches {sql pattern : Text} {before g : ℕ}
    (h : rfindInCode sql pattern before = some g) : g ≤ before ∧ MatchesAt sql pattern g :=
  rfindFrom_matches (fun _ hnone => by cases hnone) h

end DuckdbEngine.Pushdown
