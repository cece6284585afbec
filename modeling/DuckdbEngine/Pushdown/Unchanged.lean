/-
Queries that are forwarded unchanged.

A query is forwarded as it is if nothing in it is rewritable, and, apart from one corner of
the first pass, only then: no later replacement makes up for an earlier one.  To see this,
letters are counted.  Most replacements lose one of the letters G, K, Q, V, W, X, Y, which
no replacement adds; those of `CURRENT_TIME` lose a parenthesis; and those of `JOIN` and
`LIMIT` add an S.

Whether something is rewritable is a matter of substrings: the column `my_sql_cache` in
front of a blank contains the hint `SQL_CACHE`.  So a query without any of the constructs
that are to be rewritten, by the tokens of MariaDB, may be altered all the same.
-/
import Mathlib.Tactic.IntervalCases
import DuckdbEngine.Sql.MariadbTokens
import DuckdbEngine.Pushdown.Matches

namespace DuckdbEngine.Pushdown

open Sql TextEdits Lexing

/-! ### Nothing to rewrite -/

lemma apply_of_nil (sql : Text) (r : Round) (h : r.ranges = []) : apply sql r = sql := by
  rw [apply, h, edit_nil]

lemma run_of_nil {rs : List Round} (h : ∀ r ∈ rs, r.ranges = []) (sql : Text) :
    StepRun.run apply sql rs = sql :=
  StepRun.run_inv (I := fun s => s = sql) (fun s r hs hr => by rw [apply_of_nil s r hr, hs]) rfl
    (StepRun.along_of_forall apply h sql)

/-- As long as nothing is replaced, every pass sees the text as it was. -/
lemma forall_roundsOf_iff (ps : List Pass) (sql : Text) :
    (∀ r ∈ roundsOf ps sql, r.ranges = []) ↔ ∀ p ∈ ps, ∀ r ∈ p.rounds sql, r.ranges = [] := by
  induction ps with
  | nil => simp [roundsOf]
  | cons p ps ih =>
      rw [roundsOf, List.forall_mem_append, List.forall_mem_cons]
      refine and_congr_right fun hp => ?_
      rw [← run_rounds, run_of_nil hp, ih]

/-! ### Counting letters -/

/-- The number of characters of some kind, up to case. -/
def occ (f : Char → Bool) (s : Text) : ℕ := s.countP fun c => f c.toUpper

/-- A letter that no replacement adds. -/
def isRare (c : Char) : Bool := c ∈ ['G', 'K', 'Q', 'V', 'W', 'X', 'Y']

def isOpen (c : Char) : Bool := c = '('

def isS (c : Char) : Bool := c = 'S'

/-- The order in which the texts go down: fewer rare letters, else fewer parentheses, else more
S. -/
def Lighter (s' s : Text) : Prop :=
  occ isRare s' < occ isRare s ∨ occ isRare s' = occ isRare s ∧
    (occ isOpen s' < occ isOpen s ∨ occ isOpen s' = occ isOpen s ∧ occ isS s < occ isS s')

lemma Lighter.trans {s t u : Text} (h₁ : Lighter s t) (h₂ : Lighter t u) : Lighter s u := by
  rw [Lighter] at *
  omega

lemma Lighter.irrefl (s : Text) : ¬ Lighter s s := by
  rw [Lighter]
  omega

lemma occ_append (f : Char → Bool) (s t : Text) : occ f (s ++ t) = occ f s + occ f t :=
  List.countP_append

lemma occ_edit (f : Char → Bool) {rs : List (Range Char)} {s : Text} {lo : ℕ}
    (h : Fits s.length lo rs) :
    occ f (edit rs s) + occ f (removed rs s) = occ f s + occ f (inserted rs) :=
  countP_edit (fun c => f (Char.toUpper c)) h

/-- A match has the letters of the pattern. -/
lemma MatchesAt.occ_eq {sql pattern : Text} {i : ℕ} (h : MatchesAt sql pattern i)
    (f : Char → Bool) : occ f (slice sql i (i + pattern.length)) = occ f pattern := by
  have hmap : ∀ s : Text, occ f s = (s.map Char.toUpper).countP f := fun s => by
    rw [occ, List.countP_map]
    rfl
  rw [slice_add, hmap, h.upper, ← hmap]

/-- What replacing a match, and what follows it up to `stop`, does to the letters. -/
lemma occ_edit_match (f : Char → Bool) {sql pattern : Text} {i stop : ℕ} (t : Text)
    (hmatch : MatchesAt sql pattern i) (hne : pattern ≠ []) (hstop : i + pattern.length ≤ stop)
    (hlen : stop ≤ sql.length) :
    occ f (edit [⟨i, stop, t⟩] sql) +
        (occ f pattern + occ f (slice sql (i + pattern.length) stop)) =
      occ f sql + occ f t := by
  have hpos := List.length_pos_iff.2 hne
  have hcount := occ_edit f (fits_single (t := t) (show i < stop by omega) hlen)
  rwa [removed, inserted, List.flatMap_singleton, List.flatMap_singleton,
    ← slice_append (Nat.le_add_right i _) hstop, occ_append, hmatch.occ_eq] at hcount

/-- A round that replaces something makes the text lighter. -/
def GoesDown (sql : Text) (r : Round) : Prop := r.ranges = [] ∨ Lighter (apply sql r) sql

lemma OneRange.occ_le {sql pattern : Text} {put : Text → Prop} {i : ℕ} {r : Round}
    (h : OneRange sql pattern put i r) (hmatch : MatchesAt sql pattern i) (hne : pattern ≠ []) :
    r.ranges = [] ∨
      ∃ t, put t ∧ ∀ f, occ f (apply sql r) + occ f pattern ≤ occ f sql + occ f t := by
  cases h with
  | skip => exact Or.inl rfl
  | @stay stop t hstop hlen ht =>
      refine Or.inr ⟨t, ht, fun f => ?_⟩
      have := occ_edit_match f t hmatch hne hstop hlen
      show occ f (edit [⟨i, stop, t⟩] sql) + _ ≤ _
      omega
  | @pass stop t hstop hlen ht =>
      refine Or.inr ⟨t, ht, fun f => ?_⟩
      have := occ_edit_match f t hmatch hne hstop hlen
      show occ f (edit [⟨i, stop, t⟩] sql) + _ ≤ _
      omega

/-- The pattern has a rare letter more than what takes its place. -/
lemma OneRange.goesDown {sql pattern : Text} {put : Text → Prop} {i : ℕ} {r : Round}
    (h : OneRange sql pattern put i r) (hmatch : MatchesAt sql pattern i) (hne : pattern ≠ [])
    (hput : ∀ t, put t → occ isRare t < occ isRare pattern) : GoesDown sql r := by
  rcases h.occ_le hmatch hne with hnil | ⟨t, ht, hle⟩
  · exact Or.inl hnil
  · have hlt := hput t ht
    have hrare := hle isRare
    exact Or.inr (Or.inl (by omega))

lemma currentTime_goesDown {kw : Text × Text} (hkw : kw ∈ timeKeywords) {sql : Text} {i : ℕ}
    (hmatch : MatchesAt sql kw.1 i) : GoesDown sql (currentTime kw.1 kw.2 sql i) := by
  have hocc : ∀ kw ∈ timeKeywords,
      occ isRare kw.2 ≤ occ isRare kw.1 ∧ occ isOpen kw.2 < occ isOpen kw.1 := by decide
  have hround : OneRange sql kw.1 (· = kw.2) i _ := currentTime_round (timeKeywords_short kw hkw)
  rcases hround.occ_le hmatch (timeKeywords_ne_nil kw hkw) with hnil | ⟨t, rfl, hle⟩
  · exact Or.inl hnil
  · have := hocc kw hkw
    have hrare := hle isRare
    have hopen := hle isOpen
    refine Or.inr ?_
    rw [Lighter]
    omega

lemma selectHint_goesDown {hint : Text} (hhint : hint ∈ selectHints) {sql : Text} {i : ℕ}
    (hmatch : MatchesAt sql hint i) (hlen : i + hint.length ≤ sql.length) :
    GoesDown sql (selectHint hint i) := by
  have hocc : ∀ hint ∈ selectHints, 0 < occ isRare hint := by decide
  have hrare := hocc hint hhint
  have hcount := occ_edit_match isRare [] hmatch (selectHints_ne_nil hint hhint) le_rfl hlen
  have hnil : occ isRare [] = 0 := rfl
  refine Or.inr (Or.inl ?_)
  show occ isRare (edit [⟨i, i + hint.length, []⟩] sql) < _
  omega

/-- A `JOIN` without a condition gets an S more, and loses nothing. -/
lemma join_goesDown {sql : Text} {i : ℕ} (hmatch : MatchesAt sql " JOIN ".toList i)
    (hlen : i + 6 ≤ sql.length) : GoesDown sql (join sql i) := by
  rw [join]
  split_ifs with hqualified hcond
  · exact Or.inl rfl
  · exact Or.inl rfl
  · have hcount : ∀ f, occ f (edit [⟨i, i + 6, " CROSS JOIN ".toList⟩] sql) +
        (occ f " JOIN ".toList + occ f (slice sql (i + 6) (i + 6))) =
          occ f sql + occ f " CROSS JOIN ".toList :=
      fun f => occ_edit_match f _ hmatch (by decide) le_rfl hlen
    have hempty : slice sql (i + 6) (i + 6) = [] := by
      rw [← List.length_eq_zero_iff, length_slice hlen, Nat.sub_self]
    have hletters : occ isRare " JOIN ".toList = occ isRare " CROSS JOIN ".toList ∧
        occ isOpen " JOIN ".toList = occ isOpen " CROSS JOIN ".toList ∧
        occ isS " JOIN ".toList < occ isS " CROSS JOIN ".toList := by decide
    have hnil : ∀ f, occ f [] = 0 := fun _ => rfl
    simp only [hempty, hnil] at hcount
    have hrare := hcount isRare
    have hopen := hcount isOpen
    have hs := hcount isS
    refine Or.inr ?_
    show Lighter (edit [⟨i, i + 6, " CROSS JOIN ".toList⟩] sql) sql
    rw [Lighter]
    omega

/-- The characters around the numbers of a `LIMIT` are none of those that are counted. -/
lemma isLimitChar_plain {c : Char} (h : isLimitChar c = true) :
    isRare c.toUpper = false ∧ isOpen c.toUpper = false ∧ isS c.toUpper = false := by
  simp only [isLimitChar, Bool.or_eq_true, decide_eq_true_eq] at h
  rcases h with (rfl | rfl) | h
  · decide
  · decide
  · obtain ⟨hlo, hhi⟩ : 48 ≤ c.toNat ∧ c.toNat ≤ 57 := by
      simpa [Char.isDigit, UInt32.le_iff_toNat_le] using h
    rw [← Char.ofNat_toNat c]
    generalize c.toNat = n at hlo hhi
    interval_cases n <;> decide

lemma occ_limitChars {s : Text} (h : ∀ c ∈ s, isLimitChar c = true) :
    occ isRare s = 0 ∧ occ isOpen s = 0 ∧ occ isS s = 0 := by
  refine ⟨?_, ?_, ?_⟩ <;> refine List.countP_eq_zero.2 fun c hc => ?_ <;>
    simp [isLimitChar_plain (h c hc)]

/-- A `LIMIT` gets the S of `OFFSET`, and loses nothing. -/
lemma limit_goesDown {sql : Text} {i : ℕ} (hmatch : MatchesAt sql "LIMIT ".toList i) :
    GoesDown sql (limit sql i) := by
  rcases limit_cases sql i with ⟨n, -, h⟩ | ⟨stop, count, offset, hstop, hlen, hchars, hdigits, h⟩
  · rw [h]
    exact Or.inl rfl
  · have hrest := occ_limitChars hchars
    have hnumbers : occ isRare (count ++ offset) = 0 ∧ occ isOpen (count ++ offset) = 0 ∧
        occ isS (count ++ offset) = 0 :=
      occ_limitChars fun c hc => by simp [isLimitChar, hdigits c hc]
    have hletters : occ isRare " OFFSET ".toList = 0 ∧ occ isOpen " OFFSET ".toList = 0 ∧
        occ isS " OFFSET ".toList = 1 := by decide
    have hput : ∀ f, occ f ("LIMIT ".toList ++ count ++ " OFFSET ".toList ++ offset) =
        occ f "LIMIT ".toList + occ f " OFFSET ".toList + occ f (count ++ offset) := fun f => by
      simp only [occ_append]
      omega
    have hcount := fun f => occ_edit_match f
      ("LIMIT ".toList ++ count ++ " OFFSET ".toList ++ offset) hmatch (by decide) hstop hlen
    have hrare := hcount isRare
    have hopen := hcount isOpen
    have hs := hcount isS
    rw [hput] at hrare hopen hs
    rw [h]
    refine Or.inr ?_
    have hsix : "LIMIT ".toList.length = 6 := by decide
    rw [hsix] at hrare hopen hs
    simp only [Lighter, apply]
    omega

lemma convert_goesDown {sql : Text} {i : ℕ} (hmatch : MatchesAt sql "CONVERT(".toList i)
    (hlen : i + 8 ≤ sql.length) : GoesDown sql (convert sql i) := by
  rcases convert_cases hlen with h | ⟨comma, leading, trailing, stop, hcomma, hstop, hle, h⟩
  · rw [h]
    exact Or.inl rfl
  · have hcount := occ_edit isRare (convert_fits hcomma hstop hle)
    have hkeyword : occ isRare (slice sql i (i + 8)) = _ := hmatch.occ_eq isRare
    have hletters : occ isRare "CONVERT(".toList = 1 ∧
        occ isRare ("CAST(".toList ++ (" AS ".toList ++ ")".toList)) = 0 := by decide
    simp only [removed, inserted, List.flatMap_cons, List.flatMap_nil, List.append_nil] at hcount
    rw [occ_append _ (slice sql i (i + 8)), hkeyword, hletters.1, hletters.2] at hcount
    rw [h]
    refine Or.inr (Or.inl ?_)
    simp only [apply]
    omega

lemma rollup_goesDown {sql : Text} {pos i g : ℕ} (hmatch : MatchesAt sql " WITH ROLLUP".toList i)
    (hlen : i + 12 ≤ sql.length) (hgroup : MatchesAt sql "GROUP BY ".toList g) (hcols : g + 9 ≤ i)
    (h : rollup sql pos i =
      { ranges := [⟨g, g + 9, "GROUP BY ROLLUP(".toList⟩, ⟨i, i + 12, ")".toList⟩],
        next := g + (16 + (i - (g + 9)) + 1) }) : GoesDown sql (rollup sql pos i) := by
  have hcount := occ_edit isRare (rollup_fits hcols hlen)
  have hfirst : occ isRare (slice sql g (g + 9)) = _ := hgroup.occ_eq isRare
  have hsecond : occ isRare (slice sql i (i + 12)) = _ := hmatch.occ_eq isRare
  have hletters : occ isRare ("GROUP BY ROLLUP(".toList ++ ")".toList) <
      occ isRare "GROUP BY ".toList + occ isRare " WITH ROLLUP".toList := by decide
  simp only [removed, inserted, List.flatMap_cons, List.flatMap_nil, List.append_nil] at hcount
  rw [occ_append _ (slice sql g (g + 9)), hfirst, hsecond] at hcount
  rw [h]
  refine Or.inr (Or.inl ?_)
  simp only [apply]
  omega

theorem laterPasses_goDown : ∀ p ∈ laterPasses, ∀ sql pos i,
    findInCode sql p.pattern pos = some i → GoesDown sql (p.body sql pos i) := by
  have hregexp : ∀ kw ∈ regexpKeywords, occ isRare kw.2 < occ isRare kw.1 := by decide
  have hindex : ∀ hint ∈ indexHints, 0 < occ isRare hint := by decide
  have hstraight : ∀ t ∈ [[], "JOIN".toList], occ isRare t < occ isRare "STRAIGHT_JOIN".toList := by
    decide
  refine forall_laterPasses ?_ ?_ ?_ ?_ ?_ ?_ ?_ ?_
  · intro sql pos i hfind
    obtain ⟨-, hmatch, hlen⟩ := findInCode_matches hfind
    exact convert_goesDown hmatch hlen
  · intro kw hkw sql pos i hfind
    exact currentTime_goesDown hkw (findInCode_matches hfind).2.1
  · intro sql pos i hfind
    obtain ⟨-, hmatch, hlen⟩ := findInCode_matches hfind
    exact (straightJoin_round hlen).goesDown hmatch (by decide) fun t ht =>
      hstraight t (by simpa using ht)
  · intro sql pos i hfind
    obtain ⟨-, hmatch, hlen⟩ := findInCode_matches hfind
    exact join_goesDown hmatch hlen
  · intro kw hkw sql pos i hfind
    obtain ⟨-, hmatch, hlen⟩ := findInCode_matches hfind
    refine (regexp_round (regexpKeywords_short kw hkw) hlen).goesDown hmatch
      (regexpKeywords_ne_nil kw hkw) fun t ht => ?_
    rw [ht]
    exact hregexp kw hkw
  · intro hint hhint sql pos i hfind
    obtain ⟨-, hmatch, hlen⟩ := findInCode_matches hfind
    exact selectHint_goesDown hhint hmatch hlen
  · intro hint hhint sql pos i hfind
    have hne := indexHints_ne_nil hint hhint
    refine (indexHint_round hne).goesDown (findInCode_matches hfind).2.1 hne fun t ht => ?_
    rw [ht]
    exact hindex hint hhint
  · intro sql pos i hfind
    exact limit_goesDown (findInCode_matches hfind).2.1

/-! ### The first pass -/

/-- `GROUP BY` and `WITH ROLLUP` share a blank. -/
def KeywordsOverlap (sql : Text) : Prop :=
  ∃ g i, MatchesAt sql "GROUP BY ".toList g ∧ MatchesAt sql " WITH ROLLUP".toList i ∧
    g ≤ i ∧ i < g + 9

/-- What is left of the text behind the position is left of the text as it was. -/
def Behind (sql : Text) (c : Cursor) : Prop := ∃ k, c.1.drop c.2 = sql.drop k

lemma Behind.matchesAt {sql : Text} {c : Cursor} (h : Behind sql c) :
    ∃ k, ∀ {pattern : Text} {i : ℕ}, MatchesAt c.1 pattern (c.2 + i) →
      MatchesAt sql pattern (k + i) := by
  obtain ⟨k, hk⟩ := h
  refine ⟨k, fun {pattern i} hi => ?_⟩
  rwa [MatchesAt, ← List.drop_drop, hk, List.drop_drop] at hi

lemma Behind.not_overlap {sql : Text} {c : Cursor} (h : Behind sql c) (hsql : ¬ KeywordsOverlap sql)
    {g i : ℕ} (hpos : c.2 ≤ g) (hgi : g ≤ i) (hg : MatchesAt c.1 "GROUP BY ".toList g)
    (hi : MatchesAt c.1 " WITH ROLLUP".toList i) : g + 9 ≤ i := by
  obtain ⟨k, hk⟩ := h.matchesAt
  by_contra hlt
  obtain ⟨a, rfl⟩ := Nat.exists_eq_add_of_le hpos
  obtain ⟨b, rfl⟩ := Nat.exists_eq_add_of_le hgi
  rw [Nat.add_assoc] at hi
  exact hsql ⟨k + a, k + (a + b), hk hg, hk hi, by omega, by omega⟩

/-- The search goes on behind what was replaced. -/
lemma drop_rollup {sql : Text} {g i : ℕ} (hcols : g + 9 ≤ i) (hlen : i + 12 ≤ sql.length) :
    (edit [⟨g, g + 9, "GROUP BY ROLLUP(".toList⟩, ⟨i, i + 12, ")".toList⟩] sql).drop
      (g + (16 + (i - (g + 9)) + 1)) = sql.drop (i + 12) := by
  have htext : "GROUP BY ROLLUP(".toList.length = 16 ∧ ")".toList.length = 1 := by decide
  rw [rollup_text hcols hlen]
  refine List.drop_left' ?_
  simp only [List.length_append, List.length_take, length_slice (show i ≤ sql.length by omega),
    htext]
  omega

/-- As long as the keywords do not overlap in the text, the first pass makes it lighter. -/
lemma rollupPass_goesDown {sql : Text} (hsql : ¬ KeywordsOverlap sql) :
    StepRun.Along apply GoesDown sql (rollupPass.rounds sql) := by
  -- the rounds only look at what is left of the text as it was
  refine along_apply (c := (sql, 0)) (StepRun.along_of_inv (I := Behind sql) (fun c r hc hr => ?_)
    (fun c r hc hr => ?_) ⟨0, rfl⟩ (rollupPass.along_rounds sql))
  · obtain ⟨i, hi, rfl⟩ := Option.map_eq_some_iff.1 hr
    obtain ⟨hpos, hmatch, hlen⟩ := findInCode_matches hi
    show Behind sql (move c (rollup c.1 c.2 i))
    have hskip : Behind sql (c.1, i + 12) := by
      obtain ⟨k, hk⟩ := hc
      have hfar : c.1.drop (i + 12) = (c.1.drop c.2).drop (i + 12 - c.2) := by
        rw [List.drop_drop, Nat.add_sub_cancel' (by omega)]
      exact ⟨k + (i + 12 - c.2), by rw [hfar, hk, List.drop_drop]⟩
    rcases rollup_cases c.1 c.2 i with h | ⟨g, hpg, hgi, hg, ⟨hcols, h⟩ | ⟨hshare, t, h⟩⟩
    · rw [h]
      exact hskip
    · obtain ⟨k, hk⟩ := hskip
      rw [h]
      exact ⟨k, (drop_rollup hcols hlen).trans hk⟩
    · have := hc.not_overlap hsql hpg hgi hg hmatch
      omega
  · obtain ⟨i, hi, rfl⟩ := Option.map_eq_some_iff.1 hr
    obtain ⟨hpos, hmatch, hlen⟩ := findInCode_matches hi
    show GoesDown c.1 (rollup c.1 c.2 i)
    rcases rollup_cases c.1 c.2 i with h | ⟨g, hpg, hgi, hg, ⟨hcols, h⟩ | ⟨hshare, t, h⟩⟩
    · rw [h]
      exact Or.inl rfl
    · exact rollup_goesDown hmatch hlen hg hcols h
    · have := hc.not_overlap hsql hpg hgi hg hmatch
      omega

/-! ### The constructs of a query -/

/-- The words of a query in upper case and its symbols.  The parts of a qualified name, and what is
quoted, are no words. -/
def keywords : Bool → List (TokenKind × Text) → List Text
  | _, [] => []
  | dot, p :: ps =>
      let rest := keywords (isDot p) ps
      match p.1 with
      | .space | .comment => rest
      | .word =>
          (if dot || qualifies (ps.flatMap Prod.snd) then [] else p.2.map Char.toUpper) :: rest
      | .symbol => p.2 :: rest
      | _ => [] :: rest

/-- The word is one of the given ones. -/
def among (ws : List String) (w : Text) : Bool := ws.any fun s => w = s.toList

/-- A comma follows before the parenthesis that is open is closed. -/
def commaFollows : ℕ → List Text → Bool
  | _, [] => false
  | depth, w :: ts =>
      if w = ['('] then commaFollows (depth + 1) ts
      else if w = [')'] then depth ≠ 0 && commaFollows (depth - 1) ts
      else w = [','] && depth = 0 || commaFollows depth ts

/-- The condition of a `JOIN` follows.  A condition belongs to the last join before it that has none
yet and may have one; `pending` counts the joins in between that still wait for theirs. -/
def conditionFollows : ℕ → ℕ → Bool → List Text → Bool
  | _, _, _, [] => false
  | depth, pending, natural, w :: ts =>
      if w = ['('] then conditionFollows (depth + 1) pending natural ts
      else if w = [')'] then depth ≠ 0 && conditionFollows (depth - 1) pending natural ts
      else if depth ≠ 0 then conditionFollows depth pending natural ts
      else if among ["ON", "USING"] w then
        pending = 0 || conditionFollows 0 (pending - 1) natural ts
      else if among ["NATURAL"] w then conditionFollows 0 pending true ts
      else if among ["JOIN", "STRAIGHT_JOIN"] w then
        conditionFollows 0 (if natural then pending else pending + 1) false ts
      else
        !among ["WHERE", "GROUP", "HAVING", "ORDER", "LIMIT", "UNION", ",", ";"] w &&
          conditionFollows 0 pending natural ts

/-- One of the constructs that `init_scan` rewrites begins with the first word. -/
def beginsConstruct (before : Option Text) : List Text → Bool
  | [] => false
  | w :: ts =>
      among ["STRAIGHT_JOIN", "REGEXP", "RLIKE", "HIGH_PRIORITY", "SQL_NO_CACHE", "SQL_CACHE",
        "SQL_BUFFER_RESULT", "SQL_SMALL_RESULT", "SQL_BIG_RESULT", "SQL_CALC_FOUND_ROWS"] w ||
      among ["NOT"] w && ts.head?.any (among ["REGEXP", "RLIKE"]) ||
      among ["WITH"] w && ts.head?.any (among ["ROLLUP"]) ||
      among ["CONVERT"] w && ts.head? = some ['('] && commaFollows 0 ts.tail ||
      among ["CURRENT_TIME", "CURRENT_DATE", "CURRENT_TIMESTAMP"] w && ts.head? = some ['('] ||
      among ["JOIN"] w && !before.any (among qualifiers) && !conditionFollows 0 0 false ts ||
      among ["FORCE", "USE", "IGNORE"] w && ts.head?.any (among ["INDEX"]) &&
        ts.tail.head? = some ['('] ||
      among ["LIMIT"] w && ts.tail.head? = some [',']

/-- The token with the given number is the first word of a construct. -/
def constructAt (ts : List (TokenKind × Text)) (k : ℕ) : Bool :=
  (ts[k]?.any fun p => p.1 = .word) &&
    beginsConstruct (keywords false (ts.take k)).getLast?
      (keywords ((ts.take k).getLast?.any isDot) (ts.drop k))

section constructs

variable (mode : SqlMode) (runs : Text → Bool) (sql : Text)

/-- The query has none of the constructs that `init_scan` rewrites. -/
def WithoutConstructs : Prop :=
  ∀ k < (serverTokens mode runs sql.length false sql).length,
    constructAt (serverTokens mode runs sql.length false sql) k = false

/-- What is rewritable is a construct: it begins with a token, and the token with the construct. -/
def OnlyConstructs : Prop :=
  ∀ i, Rewritable sql i → ∃ k,
    (((serverTokens mode runs sql.length false sql).take k).flatMap Prod.snd).length = i ∧
      constructAt (serverTokens mode runs sql.length false sql) k = true

instance : Decidable (WithoutConstructs mode runs sql) :=
  inferInstanceAs (Decidable (∀ k < _, _ = false))

variable {mode runs sql}

lemma onlyConstructs_iff (h : WithoutConstructs mode runs sql) :
    OnlyConstructs mode runs sql ↔ ∀ i, ¬ Rewritable sql i := by
  constructor
  · intro honly i hi
    obtain ⟨k, -, hk⟩ := honly i hi
    have hlt : k < (serverTokens mode runs sql.length false sql).length := by
      by_contra hge
      rw [constructAt, List.getElem?_eq_none (Nat.not_lt.1 hge)] at hk
      cases hk
    rw [h k hlt] at hk
    cases hk
  · exact fun hnone i hi => absurd hi (hnone i)

end constructs

/-! ### Forwarded unchanged -/

/-- If no pass finds anything to replace, the text stays as it is. -/
lemma initScanSql_of_idle {sql : Text} (h : ∀ p ∈ passes, ∀ r ∈ p.rounds sql, r.Idle) :
    initScanSql sql = sql := by
  rw [← run_initScanRounds]
  exact run_of_nil ((forall_roundsOf_iff passes sql).2 h) sql

/-- A text that comes back as it was has not been touched, unless the keywords of the first pass
share a blank. -/
lemma idle_of_initScanSql {sql : Text} (hsql : ¬ KeywordsOverlap sql)
    (heq : initScanSql sql = sql) : ∀ p ∈ passes, ∀ r ∈ p.rounds sql, r.Idle := by
  rw [← run_initScanRounds] at heq
  refine (forall_roundsOf_iff passes sql).1 (StepRun.idle_of_run_eq (R := Lighter)
    (fun _ _ _ => Lighter.trans) Lighter.irrefl apply_of_nil ?_ heq)
  rw [passes, roundsOf, StepRun.along_append, run_rounds]
  exact ⟨rollupPass_goesDown hsql, along_roundsOf
    (fun p hp s => Pass.along_of_matches (laterPasses_goDown p hp) s) _⟩

/-- **A query without the constructs that `init_scan` rewrites is forwarded unchanged exactly if
nothing else in it looks like one of them to a pass.  The converse has one exception, texts in which
the keywords of the first pass share a blank.** -/
theorem forwarded_unchanged (mode : SqlMode) (runs : Text → Bool) (sql : Text)
    (h : WithoutConstructs mode runs sql) :
    (OnlyConstructs mode runs sql → initScanSql sql = sql) ∧
      (initScanSql sql = sql → OnlyConstructs mode runs sql ∨ KeywordsOverlap sql) := by
  rw [onlyConstructs_iff h, ← idle_passes_iff]
  refine ⟨initScanSql_of_idle, fun heq => ?_⟩
  by_cases hsql : KeywordsOverlap sql
  · exact Or.inr hsql
  · exact Or.inl (idle_of_initScanSql hsql heq)

def plainQuery : Text :=
  "SELECT t.limit_no FROM t JOIN u ON t.a = u.a WHERE b = 'CONVERT(1, 2)' LIMIT 5".toList

lemma plainQuery_idle : ∀ p ∈ passes, ∀ r ∈ p.rounds plainQuery, r.Idle := by
  have hall : (passes.all fun p => (p.rounds plainQuery).all fun r => r.ranges.isEmpty) = true := by
    decide +kernel
  intro p hp r hr
  exact List.isEmpty_iff.1 (List.all_eq_true.1 (List.all_eq_true.1 hall p hp) r hr)

theorem forwarded_of_plainQuery :
    WithoutConstructs ⟨true, false⟩ (fun _ => true) plainQuery ∧
      initScanSql plainQuery = plainQuery := by
  have h : WithoutConstructs ⟨true, false⟩ (fun _ => true) plainQuery := by decide +kernel
  exact ⟨h, (forwarded_unchanged ⟨true, false⟩ (fun _ => true) plainQuery h).1
    ((onlyConstructs_iff h).2 ((idle_passes_iff plainQuery).1 plainQuery_idle))⟩

/-- The keywords share a blank in a comment that `find_in_code` does not know. -/
def restoredQuery : Text :=
  ("SELECT 1 #USE INDEX(GROUP BY WITH ROLLUP')USE USE INDEX(x) INDEX(" ++
    "GROUP BY WITH ROLLUPIGNORE INDEX(").toList

-- The exception cannot be left out: the first pass duplicates the rest of this text, and the index
-- hint passes remove just as much.
example : initScanSql restoredQuery = restoredQuery ∧
    ¬ OnlyConstructs ⟨true, false⟩ (fun _ => true) restoredQuery := by
  have h : WithoutConstructs ⟨true, false⟩ (fun _ => true) restoredQuery := by decide +kernel
  have hbusy : ((rollupPass.rounds restoredQuery).all fun r => r.ranges.isEmpty) = false := by
    decide +kernel
  refine ⟨by decide +kernel, fun honly => ?_⟩
  have hidle := (idle_passes_iff restoredQuery).2 ((onlyConstructs_iff h).1 honly) rollupPass
    List.mem_cons_self
  rw [List.all_eq_true.2 fun r hr => List.isEmpty_iff.2 (hidle r hr)] at hbusy
  cases hbusy

/-- A column whose name ends in a hint loses it and runs into the next keyword. -/
theorem column_with_hint_is_altered :
    extractSourceQuery ⟨true, false⟩ false "SELECT my_sql_cache FROM t".toList =
        some "SELECT my_sql_cache FROM t".toList ∧
      WithoutConstructs ⟨true, false⟩ (fun _ => true) "SELECT my_sql_cache FROM t".toList ∧
      initScanSql "SELECT my_sql_cache FROM t".toList = "SELECT my_FROM t".toList ∧
      initScanSql "SELECT my_sql_cache FROM t".toList ≠ "SELECT my_sql_cache FROM t".toList := by
  decide +kernel

end DuckdbEngine.Pushdown
