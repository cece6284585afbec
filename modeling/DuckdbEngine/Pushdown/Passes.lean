/-
The rewriting of a pushed down query.

`init_scan` rewrites the syntax that DuckDB does not understand in a sequence of passes
over the query text.  A pass is a loop: it searches for its pattern with `find_in_code`,
looks at the text around the match, replaces some of it or nothing, and searches on from
a new position.  A round says which ranges of the text are replaced, so that what stays
in the text stays where it is.
-/
import DuckdbEngine.Lib.TextEdits
import DuckdbEngine.Lib.WhileLoop
import DuckdbEngine.Pushdown.Scanner

namespace DuckdbEngine.Pushdown

open Sql TextEdits

/-- What the body of a loop does at a match: the ranges it replaces, and the position in the new
text from which the search goes on. -/
structure Round where
  ranges : List (Range Char)
  next : ℕ

/-- The pattern of a pass, and its body as a function of the text, the position from which the
search started and the position of the match. -/
structure Pass where
  pattern : Text
  body : Text → ℕ → ℕ → Round

/-- Nothing is replaced. -/
def skipTo (next : ℕ) : Round := { ranges := [], next := next }

/-! ### Looking around a match -/

/-- The number of blanks at the beginning of the text. -/
def spaces (s : Text) : ℕ := (s.takeWhile (· = ' ')).length

def digits (s : Text) : Text := s.takeWhile Char.isDigit

def isIdentChar (c : Char) : Bool := c.isAlphanum || c = '_'

/-- The word in front of the position, with blanks between them. -/
def wordBefore (isWord : Char → Bool) (sql : Text) (pos : ℕ) : Text :=
  (((sql.take pos).reverse.dropWhile (· = ' ')).takeWhile isWord).reverse

/-- The word is one of the keywords, up to case. -/
def isOneOf (keywords : List String) (word : Text) : Bool :=
  keywords.any fun keyword => word.map Char.toUpper = keyword.toList

/-! ### The passes -/

/-- `GROUP BY ... WITH ROLLUP` becomes `GROUP BY ROLLUP(...)`. -/
def rollup (sql : Text) (searchFrom rollupPos : ℕ) : Round :=
  match rfindInCode sql "GROUP BY ".toList rollupPos with
  | none => skipTo (rollupPos + 12)
  | some groupPos =>
      if searchFrom ≤ groupPos then
        if groupPos + 9 ≤ rollupPos then
          { ranges := [⟨groupPos, groupPos + 9, "GROUP BY ROLLUP(".toList⟩,
              ⟨rollupPos, rollupPos + 12, ")".toList⟩],
            next := groupPos + (16 + (rollupPos - (groupPos + 9)) + 1) }
        else
          -- the two keywords share a blank: the length of the columns wraps around, and
          -- `substr` takes everything up to the end of the text
          let replacement := "GROUP BY ROLLUP(".toList ++ sql.drop (groupPos + 9) ++ ")".toList
          { ranges := [⟨groupPos, rollupPos + 12, replacement⟩],
            next := groupPos + replacement.length }
      else skipTo (rollupPos + 12)

/-- The loop over the arguments of `CONVERT`: the position, the depth of parentheses and the first
comma at depth 1. -/
def convertScan : Text → ℕ → ℕ → Option ℕ → ℕ × ℕ × Option ℕ
  | [], i, depth, comma => (i, depth, comma)
  | c :: s, i, depth, comma =>
      if depth = 0 then (i, depth, comma)
      else if c = '(' then convertScan s (i + 1) (depth + 1) comma
      else if c = ')' then convertScan s (i + 1) (depth - 1) comma
      else if c = ',' && depth = 1 && comma = none then convertScan s (i + 1) depth (some i)
      else convertScan s (i + 1) depth comma

def isBlank (c : Char) : Bool := c = ' ' || c = '\t'

/-- How much is trimmed at the two ends of a type: its blanks, unless there is nothing else. -/
def trimLengths (type : Text) : ℕ × ℕ :=
  if type.all isBlank then (0, 0)
  else ((type.takeWhile isBlank).length, (type.reverse.takeWhile isBlank).length)

/-- `CONVERT(expr, type)` becomes `CAST(expr AS type)`. -/
def convert (sql : Text) (pos : ℕ) : Round :=
  if (sql.take pos).getLast?.any isIdentChar then skipTo (pos + 1)
  else
    match convertScan (sql.drop (pos + 8)) (pos + 8) 1 none with
    | (i, 0, some comma) =>
        let trim := trimLengths (slice sql (comma + 1) (i - 1))
        { ranges := [⟨pos, pos + 8, "CAST(".toList⟩,
            ⟨comma, comma + 1 + trim.1, " AS ".toList⟩,
            ⟨i - 1 - trim.2, i, ")".toList⟩],
          next := pos }
    | _ => skipTo (pos + 1)

/-- `CURRENT_TIME(...)` and the like become keywords. -/
def currentTime (keyword replacement sql : Text) (pos : ℕ) : Round :=
  match find [')'] (sql.drop (pos + keyword.length)) with
  | none => skipTo (pos + 1)
  | some k => { ranges := [⟨pos, pos + keyword.length + k + 1, replacement⟩], next := pos }

/-- As a hint `STRAIGHT_JOIN` is removed, as a join keyword it becomes `JOIN`. -/
def straightJoin (sql : Text) (pos : ℕ) : Round :=
  if isOneOf ["SELECT", "ALL", "DISTINCT", "DISTINCTROW"] (wordBefore isIdentChar sql pos) then
    { ranges := [⟨pos, pos + (if sql[pos + 13]? = some ' ' then 14 else 13), []⟩], next := pos }
  else { ranges := [⟨pos, pos + 13, "JOIN".toList⟩], next := pos }

/-- The scan for `ON` or `USING` behind a `JOIN`, up to the next clause. -/
def hasCondition : Text → Bool
  | [] => false
  | c :: s =>
      if ["ON ", "USING ", "USING("].any fun w => ciStartsWith w.toList (c :: s) then true
      else if (["JOIN ", "WHERE ", "GROUP ", "ORDER ", "LIMIT ", "HAVING "].any
          fun w => ciStartsWith w.toList (c :: s)) || c = ';' then false
      else hasCondition s

/-- A `JOIN` without a condition becomes `CROSS JOIN`. -/
def join (sql : Text) (pos : ℕ) : Round :=
  if isOneOf ["CROSS", "NATURAL", "LEFT", "RIGHT", "INNER", "FULL", "OUTER"]
      (wordBefore Char.isAlpha sql pos) then skipTo (pos + 6)
  else if hasCondition (sql.drop (pos + 6)) then skipTo (pos + 6)
  else { ranges := [⟨pos, pos + 6, " CROSS JOIN ".toList⟩], next := pos + 12 }

/-- `REGEXP`, `RLIKE` and their negations become operators. -/
def regexp (keyword operator : Text) (pos : ℕ) : Round :=
  { ranges := [⟨pos, pos + keyword.length, operator⟩], next := pos }

/-- A SELECT hint is removed, and the search starts again at the beginning. -/
def selectHint (hint : Text) (pos : ℕ) : Round :=
  { ranges := [⟨pos, pos + hint.length, []⟩], next := 0 }

/-- An index hint is removed up to its parenthesis and the blanks behind it. -/
def indexHint (hint sql : Text) (pos : ℕ) : Round :=
  match find [')'] (sql.drop (pos + hint.length)) with
  | none => skipTo (pos + 1)
  | some k =>
      let stop := pos + hint.length + k + 1
      { ranges := [⟨pos, stop + spaces (sql.drop stop), []⟩], next := pos }

/-- `LIMIT offset, count` becomes `LIMIT count OFFSET offset`. -/
def limit (sql : Text) (pos : ℕ) : Round :=
  let num1Start := pos + 6 + spaces (sql.drop (pos + 6))
  let offset := digits (sql.drop num1Start)
  let afterLimit := num1Start + offset.length
  if offset.isEmpty then skipTo afterLimit
  else
    let comma := afterLimit + spaces (sql.drop afterLimit)
    if sql[comma]? = some ',' then
      let num2Start := comma + 1 + spaces (sql.drop (comma + 1))
      let count := digits (sql.drop num2Start)
      let replacement := "LIMIT ".toList ++ count ++ " OFFSET ".toList ++ offset
      { ranges := [⟨pos, num2Start + count.length, replacement⟩],
        next := pos + replacement.length }
    else skipTo afterLimit

/-- `time_kws` and `time_repls`. -/
def timeKeywords : List (Text × Text) :=
  [("CURRENT_TIME(".toList, "current_time".toList), ("CURRENT_DATE(".toList, "current_date".toList),
    ("CURRENT_TIMESTAMP(".toList, "current_timestamp".toList)]

def regexpKeywords : List (Text × Text) :=
  [(" NOT REGEXP ".toList, " !~ ".toList), (" REGEXP ".toList, " ~ ".toList),
    (" NOT RLIKE ".toList, " !~ ".toList), (" RLIKE ".toList, " ~ ".toList)]

/-- `hints`. -/
def selectHints : List Text :=
  ["HIGH_PRIORITY ".toList, "SQL_NO_CACHE ".toList, "SQL_CACHE ".toList,
    "SQL_BUFFER_RESULT ".toList, "SQL_SMALL_RESULT ".toList, "SQL_BIG_RESULT ".toList,
    "SQL_CALC_FOUND_ROWS ".toList]

/-- `idx_hints`. -/
def indexHints : List Text := ["FORCE INDEX(".toList, "USE INDEX(".toList, "IGNORE INDEX(".toList]

def rollupPass : Pass := ⟨" WITH ROLLUP".toList, rollup⟩

def convertPass : Pass := ⟨"CONVERT(".toList, fun sql _ pos => convert sql pos⟩

def timePass (kw : Text × Text) : Pass := ⟨kw.1, fun sql _ pos => currentTime kw.1 kw.2 sql pos⟩

def straightJoinPass : Pass := ⟨"STRAIGHT_JOIN".toList, fun sql _ pos => straightJoin sql pos⟩

def joinPass : Pass := ⟨" JOIN ".toList, fun sql _ pos => join sql pos⟩

def regexpPass (kw : Text × Text) : Pass := ⟨kw.1, fun _ _ pos => regexp kw.1 kw.2 pos⟩

def selectHintPass (hint : Text) : Pass := ⟨hint, fun _ _ pos => selectHint hint pos⟩

def indexHintPass (hint : Text) : Pass := ⟨hint, fun sql _ pos => indexHint hint sql pos⟩

def limitPass : Pass := ⟨"LIMIT ".toList, fun sql _ pos => limit sql pos⟩

/-- The passes behind the first one. -/
def laterPasses : List Pass :=
  convertPass :: timeKeywords.map timePass ++ [straightJoinPass, joinPass] ++
    regexpKeywords.map regexpPass ++ selectHints.map selectHintPass ++
    indexHints.map indexHintPass ++ [limitPass]

/-- The passes in the order of `init_scan`. -/
def passes : List Pass := rollupPass :: laterPasses

/-- What holds of every kind of pass holds of all of them. -/
lemma forall_laterPasses {P : Pass → Prop} (hconvert : P convertPass)
    (htime : ∀ kw ∈ timeKeywords, P (timePass kw)) (hstraight : P straightJoinPass)
    (hjoin : P joinPass) (hregexp : ∀ kw ∈ regexpKeywords, P (regexpPass kw))
    (hhint : ∀ hint ∈ selectHints, P (selectHintPass hint))
    (hindex : ∀ hint ∈ indexHints, P (indexHintPass hint)) (hlimit : P limitPass) :
    ∀ p ∈ laterPasses, P p := by
  intro p hp
  simp only [laterPasses, List.mem_append, List.mem_map, List.mem_cons, List.not_mem_nil, or_false]
    at hp
  rcases hp with (((((rfl | ⟨kw, hkw, rfl⟩) | rfl | rfl) | ⟨kw, hkw, rfl⟩) | ⟨hint, hh, rfl⟩) |
    ⟨hint, hh, rfl⟩) | rfl
  · exact hconvert
  · exact htime kw hkw
  · exact hstraight
  · exact hjoin
  · exact hregexp kw hkw
  · exact hhint hint hh
  · exact hindex hint hh
  · exact hlimit

/-! ### Running the passes -/

/-- The text after a round. -/
def apply (sql : Text) (r : Round) : Text := edit r.ranges sql

/-- The text and the position from which a loop goes on. -/
abbrev Cursor := Text × ℕ

def move (c : Cursor) (r : Round) : Cursor := (apply c.1 r, r.next)

/-- The next round of the loop, unless the pattern is not found any more. -/
def Pass.next (p : Pass) (c : Cursor) : Option Round :=
  (findInCode c.1 p.pattern c.2).map (p.body c.1 c.2)

/-- The rounds of the loop.  There are never more than twice as many as characters. -/
def Pass.rounds (p : Pass) (sql : Text) : List Round :=
  WhileLoop.rounds p.next move (2 * sql.length + 1) (sql, 0)

def Pass.run (p : Pass) (sql : Text) : Text := (StepRun.run move (sql, 0) (p.rounds sql)).1

/-- The text that `init_scan` hands to `duckdb_stream_query`. -/
def initScanSql (sql : Text) : Text := passes.foldl (fun sql p => p.run sql) sql

example : initScanSql "SELECT a FROM t LIMIT 2,5".toList =
    "SELECT a FROM t LIMIT 5 OFFSET 2".toList := by decide +kernel

end DuckdbEngine.Pushdown
