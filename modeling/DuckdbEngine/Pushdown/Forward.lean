/-
Passes that go forward.

Some passes never look at a place twice: what their loop has put in, or has decided to
leave, lies before the cursor and stays as it is, and what lies behind is the query as it
was.  Such a pass is one walk over the pieces of the query: the strings, quoted identifiers
and comments that `find_in_code` skips, the places where the pattern is found, and single
characters in between.
-/
import DuckdbEngine.Lib.Lexing
import DuckdbEngine.Pushdown.Rounds

namespace DuckdbEngine.Pushdown

open Sql TextEdits Lexing

/-! ### Characters -/

lemma toUpper_of_not_lower {c : Char} (h : ¬ (97 ≤ c.toNat ∧ c.toNat ≤ 122)) : c.toUpper = c :=
  dif_neg (by simpa [UInt32.le_iff_toNat_le] using h)

lemma toUpper_of_lt {c : Char} (h : c.toNat < 97) : c.toUpper = c :=
  toUpper_of_not_lower (by omega)

lemma toNat_toUpper {c : Char} (h : 97 ≤ c.toNat ∧ c.toNat ≤ 122) :
    c.toUpper.toNat = c.toNat - 32 := by
  have hc : 'a'.val ≤ c.val ∧ c.val ≤ 'z'.val := by simpa [UInt32.le_iff_toNat_le] using h
  have hval : c.val.toNat = c.toNat := rfl
  have hupper := congrArg Char.toNat (show c.toUpper = _ from dif_pos hc)
  rw [hupper]
  show (c.val + ('A'.val - 'a'.val)).toNat = c.toNat - 32
  rw [UInt32.toNat_add, hval, show ('A'.val - 'a'.val).toNat = 2 ^ 32 - 32 by decide]
  omega

lemma isAlpha_iff {c : Char} :
    c.isAlpha = true ↔ 65 ≤ c.toNat ∧ c.toNat ≤ 90 ∨ 97 ≤ c.toNat ∧ c.toNat ≤ 122 := by
  have halpha : c.isAlpha = (decide ('A'.val ≤ c.val ∧ c.val ≤ 'Z'.val) ||
      (decide ('a'.val ≤ c.val) && decide (c.val ≤ 'z'.val))) := rfl
  simp [halpha, UInt32.le_iff_toNat_le]

lemma isAlpha_toUpper (c : Char) : c.toUpper.isAlpha = c.isAlpha := by
  rw [Bool.eq_iff_iff, isAlpha_iff, isAlpha_iff]
  by_cases h : 97 ≤ c.toNat ∧ c.toNat ≤ 122
  · rw [toNat_toUpper h]
    omega
  · rw [toUpper_of_not_lower h]

lemma toUpper_eq_blank {c : Char} : c.toUpper = ' ' ↔ c = ' ' := by
  refine ⟨fun h => ?_, by rintro rfl; rfl⟩
  by_cases hlower : 97 ≤ c.toNat ∧ c.toNat ≤ 122
  · have hnat := toNat_toUpper hlower
    rw [h] at hnat
    have : ' '.toNat = 32 := rfl
    omega
  · rwa [toUpper_of_not_lower hlower] at h

lemma toNat_of_isSpace {c : Char} (h : isSpace c = true) : c.toNat ≤ 32 := by
  simp only [isSpace, Bool.or_eq_true, decide_eq_true_eq, Bool.and_eq_true] at h
  rcases h with rfl | ⟨-, h⟩
  · decide
  · have hle : c.toNat ≤ '\r'.toNat := h
    exact hle.trans (by decide)

/-- What holds of every character of a text is found by looking at them one by one. -/
lemma forall_mem_of_all {s : Text} {P : Char → Prop} [DecidablePred P]
    (h : (s.all fun c => decide (P c)) = true) : ∀ c ∈ s, P c := by
  simpa using h

lemma drop_length_takeWhile (p : Char → Bool) (s : Text) :
    s.drop (s.takeWhile p).length = s.dropWhile p := by
  have h : (s.takeWhile p ++ s.dropWhile p).drop (s.takeWhile p).length = s.dropWhile p :=
    List.drop_left
  rwa [List.takeWhile_append_dropWhile] at h

lemma takeWhile_append_drop_length (p : Char → Bool) (s : Text) :
    s.takeWhile p ++ s.drop (s.takeWhile p).length = s := by
  rw [drop_length_takeWhile, List.takeWhile_append_dropWhile]

/-! ### The search from a cursor -/

lemma codeSkip_le (s : Text) : codeSkip s ≤ s.length := by
  cases s with
  | nil => rfl
  | cons c s =>
      have hquote : ∀ b, (quoteEnd c b s).getD s.length ≤ s.length := fun b => by
        cases h : quoteEnd c b s with
        | none => rfl
        | some k => exact (quoteEnd_bounds h).2
      rw [codeSkip, List.length_cons]
      split_ifs with hq hb hd hs
      · exact Nat.succ_le_succ (hquote true)
      · exact Nat.succ_le_succ (hquote false)
      · rw [Bool.and_eq_true, decide_eq_true_eq, decide_eq_true_eq] at hd
        obtain ⟨t, rfl⟩ := List.head?_eq_some_iff.1 hd.2
        have := (List.takeWhile_sublist (fun c => decide (c ≠ '\n')) (l := t)).length_le
        simpa using this
      · rw [Bool.and_eq_true, decide_eq_true_eq, decide_eq_true_eq] at hs
        obtain ⟨t, rfl⟩ := List.head?_eq_some_iff.1 hs.2
        cases h : find ['*', '/'] t with
        | none => simp [h]
        | some k =>
            have := find_le h
            simp at this
            simp [h]
            omega
      · exact Nat.zero_le _

lemma ciStartsWith_length {pattern s : Text} (h : ciStartsWith pattern s = true) :
    pattern.length ≤ s.length := by
  have hlen := congrArg List.length (of_decide_eq_true h)
  simp only [List.length_map, List.length_take] at hlen
  omega

/-- More fuel than the text is long changes nothing. -/
lemma findFrom_eq {pattern : Text} (hne : pattern ≠ []) {n m : ℕ} {s : Text} (hn : s.length < n)
    (hm : s.length < m) : findFrom pattern n s = findFrom pattern m s := by
  have hpos := List.length_pos_iff.2 hne
  induction n generalizing m s with
  | zero => omega
  | succ n ih =>
      obtain ⟨m, rfl⟩ := Nat.exists_eq_add_of_lt hm
      rw [show s.length + m + 1 = (s.length + m) + 1 from rfl, findFrom, findFrom]
      split_ifs with hlen hskip hstarts
      · rfl
      · rw [ih (m := s.length + m) (by rw [List.length_drop]; omega)
          (by rw [List.length_drop]; omega)]
      · rfl
      · rw [ih (m := s.length + m) (by rw [List.length_tail]; omega)
          (by rw [List.length_tail]; omega)]

/-- The first match in the rest of the text. -/
def search (pattern s : Text) : Option ℕ := findFrom pattern (s.length + 1) s

section search

variable {pattern : Text}

lemma search_short {s : Text} (h : s.length < pattern.length) : search pattern s = none := by
  rw [search, findFrom, if_pos h]

lemma search_hit {s : Text} (h : codeSkip s = 0) (hmatch : ciStartsWith pattern s = true) :
    search pattern s = some 0 := by
  have hlen := ciStartsWith_length hmatch
  rw [search, findFrom, if_neg (by omega), if_neg (by omega), if_pos hmatch]

variable (hne : pattern ≠ [])
include hne

lemma search_skip {s : Text} (h : codeSkip s ≠ 0) :
    search pattern s = (search pattern (s.drop (codeSkip s))).map (· + codeSkip s) := by
  have hle := codeSkip_le s
  by_cases hshort : s.length < pattern.length
  · rw [search_short hshort, search_short (by rw [List.length_drop]; omega)]
    rfl
  · rw [search, findFrom, if_neg hshort, if_pos h, search, findFrom_eq hne] <;>
      rw [List.length_drop] <;> omega

lemma search_step {c : Char} {s : Text} (h : codeSkip (c :: s) = 0)
    (hmatch : ciStartsWith pattern (c :: s) = false) :
    search pattern (c :: s) = (search pattern s).map (· + 1) := by
  by_cases hshort : (c :: s).length < pattern.length
  · rw [search_short hshort, search_short (by rw [List.length_cons] at hshort; omega)]
    rfl
  · rw [search, findFrom, if_neg hshort, if_neg (by omega), if_neg (by simp [hmatch]), search,
      List.tail_cons, findFrom_eq hne] <;> simp

/-- The search from a cursor between two parts of the text only depends on the second one. -/
lemma findInCode_append (before rest : Text) :
    findInCode (before ++ rest) pattern before.length =
      (search pattern rest).map (· + before.length) := by
  rw [findInCode, List.drop_left]
  split_ifs with hshort
  · rw [Bool.or_eq_true, List.isEmpty_iff, decide_eq_true_eq, List.length_append] at hshort
    have hlen := hshort.resolve_left hne
    rw [search_short (by omega)]
    rfl
  · rw [search, findFrom_eq hne (m := rest.length + 1) (by rw [List.length_append]; omega)
      (by omega)]

/-- A part in which nothing is found may as well lie before the cursor. -/
lemma findInCode_pass (before : Text) {u rest : Text}
    (h : search pattern (u ++ rest) = (search pattern rest).map (· + u.length)) :
    findInCode (before ++ (u ++ rest)) pattern before.length =
      findInCode (before ++ (u ++ rest)) pattern (before ++ u).length := by
  rw [findInCode_append hne, h, ← List.append_assoc, findInCode_append hne, Option.map_map]
  congr 1
  ext k
  simp only [Function.comp_apply, List.length_append]
  omega

end search

/-! ### The loop -/

/-- The text at the end of the loop. -/
def Pass.finish (p : Pass) (n : ℕ) (c : Cursor) : Text :=
  (StepRun.run move c (WhileLoop.rounds p.next move n c)).1

lemma Pass.finish_none {p : Pass} {c : Cursor} (h : p.next c = none) (n : ℕ) :
    p.finish n c = c.1 := by
  rw [Pass.finish, WhileLoop.rounds_of_none h, StepRun.run_nil]

lemma Pass.finish_some {p : Pass} {c : Cursor} {r : Round} (h : p.next c = some r) (n : ℕ) :
    p.finish (n + 1) c = p.finish n (move c r) := by
  rw [Pass.finish, WhileLoop.rounds_of_some h, StepRun.run_cons, Pass.finish]

/-- The loop only looks at the position through the next match. -/
lemma Pass.finish_congr {p : Pass} {sql : Text} {i j : ℕ} (h : p.next (sql, i) = p.next (sql, j))
    (n : ℕ) : p.finish n (sql, i) = p.finish n (sql, j) := by
  cases hj : p.next (sql, j) with
  | none => rw [Pass.finish_none (h.trans hj), Pass.finish_none hj]
  | some r =>
      cases n with
      | zero => rfl
      | succ n => rw [Pass.finish_some (h.trans hj), Pass.finish_some hj]; rfl

/-! ### The walk -/

/-- What is done where a pattern is found, given what has been put out before and the rest of the
query: how much of the rest is passed, and what is put out in its place, if anything. -/
structure Walk where
  pattern : Text
  size : Text → ℕ
  put : Text → Text → Option Text

/-- The pieces of a query, and whether the pattern was found there. -/
def Walk.lexer (w : Walk) : Lexer Char Bool := fun s =>
  if codeSkip s ≠ 0 then (false, codeSkip s)
  else if ciStartsWith w.pattern s then (true, w.size s)
  else (false, 1)

lemma Walk.lexer_of_match (w : Walk) {s : Text} (hskip : codeSkip s = 0)
    (hmatch : ciStartsWith w.pattern s = true) : w.lexer s = (true, w.size s) := by
  rw [Walk.lexer, if_neg (not_not.2 hskip), if_pos hmatch]

lemma Walk.lexer_true (w : Walk) {s : Text} (h : (w.lexer s).1 = true) :
    codeSkip s = 0 ∧ ciStartsWith w.pattern s = true := by
  rw [Walk.lexer] at h
  split_ifs at h with hskip hmatch
  exact ⟨not_not.1 hskip, hmatch⟩

lemma Walk.size_lexer (w : Walk)
    (hpos : ∀ s, ciStartsWith w.pattern s = true → 0 < w.size s) {s : Text}
    (hskip : codeSkip s = 0) (hmatch : ciStartsWith w.pattern s = true) :
    w.lexer.size s = w.size s := by
  rw [Lexer.size, w.lexer_of_match hskip hmatch]
  exact max_eq_right (hpos _ hmatch)

/-- The text that has been put out when the pieces have been passed. -/
def Walk.out (w : Walk) : Text → List (Bool × Text) → Text
  | before, [] => before
  | before, (false, t) :: ps => w.out (before ++ t) ps
  | before, (true, t) :: ps =>
      w.out (before ++ (w.put before (t ++ ps.flatMap Prod.snd)).getD t) ps

def Walk.run (w : Walk) (sql : Text) : Text := w.out [] (pieces w.lexer sql)

/-- The rounds of the pass do what the walk does at a match, and the search goes on as if from
behind what was put out. -/
structure Pass.Walks (p : Pass) (w : Walk) : Prop where
  pattern_eq : p.pattern = w.pattern
  pattern_ne : w.pattern ≠ []
  size_pos : ∀ rest, ciStartsWith w.pattern rest = true → 0 < w.size rest
  body_eq : ∀ sql i j pos, p.body sql i pos = p.body sql j pos
  text_eq : ∀ before rest, ciStartsWith w.pattern rest = true →
    apply (before ++ rest) (p.body (before ++ rest) 0 before.length) =
      before ++ (w.put before rest).getD (rest.take (w.size rest)) ++ rest.drop (w.size rest)
  next_eq : ∀ before rest, ciStartsWith w.pattern rest = true →
    findInCode (before ++ (w.put before rest).getD (rest.take (w.size rest)) ++
        rest.drop (w.size rest)) w.pattern (p.body (before ++ rest) 0 before.length).next =
      findInCode (before ++ (w.put before rest).getD (rest.take (w.size rest)) ++
        rest.drop (w.size rest)) w.pattern
        (before ++ (w.put before rest).getD (rest.take (w.size rest))).length

section Walks

variable {p : Pass} {w : Walk} (h : p.Walks w)
include h

lemma Pass.Walks.next_congr {sql : Text} {i j : ℕ}
    (hfind : findInCode sql w.pattern i = findInCode sql w.pattern j) :
    p.next (sql, i) = p.next (sql, j) := by
  show (findInCode sql p.pattern i).map (p.body sql i) =
    (findInCode sql p.pattern j).map (p.body sql j)
  rw [h.pattern_eq, hfind]
  congr 1
  ext1 pos
  exact h.body_eq sql i j pos

/-- The cursor may as well stand behind a part of the query in which nothing is found. -/
lemma Pass.Walks.finish_pass {rest : Text} {k : ℕ} (hle : k ≤ rest.length)
    (hsearch : search w.pattern rest = (search w.pattern (rest.drop k)).map (· + k))
    (before : Text) (n : ℕ) :
    p.finish n (before ++ rest, before.length) =
      p.finish n (before ++ rest.take k ++ rest.drop k, (before ++ rest.take k).length) := by
  have hsplit : rest.take k ++ rest.drop k = rest := List.take_append_drop k rest
  have hover : search w.pattern (rest.take k ++ rest.drop k) =
      (search w.pattern (rest.drop k)).map (· + (rest.take k).length) := by
    rw [hsplit, List.length_take_of_le hle, hsearch]
  have hfind := findInCode_pass h.pattern_ne before hover
  rw [hsplit] at hfind
  rw [Pass.finish_congr (h.next_congr hfind), List.append_assoc, hsplit]

/-- One round at a match puts out what takes its place, and goes on behind that. -/
lemma Pass.Walks.finish_match {rest : Text} (hskip : codeSkip rest = 0)
    (hmatch : ciStartsWith w.pattern rest = true) (before : Text) (n : ℕ) :
    p.finish (n + 1) (before ++ rest, before.length) =
      p.finish n (before ++ (w.put before rest).getD (rest.take (w.size rest)) ++
          rest.drop (w.size rest),
        (before ++ (w.put before rest).getD (rest.take (w.size rest))).length) := by
  have hnext : p.next (before ++ rest, before.length) =
      some (p.body (before ++ rest) before.length before.length) := by
    rw [Pass.next, h.pattern_eq, findInCode_append h.pattern_ne, search_hit hskip hmatch]
    simp
  rw [Pass.finish_some hnext, h.body_eq _ _ 0, move, h.text_eq _ _ hmatch,
    Pass.finish_congr (h.next_congr (h.next_eq _ _ hmatch))]

/-- The loop from a cursor between what has been put out and the rest of the query. -/
theorem Pass.Walks.finish_eq (rest : Text) : ∀ before n, rest.length < n →
    p.finish n (before ++ rest, before.length) = w.out before (pieces w.lexer rest) := by
  induction rest using cut_induction w.lexer with
  | nil =>
      intro before n _
      refine (Pass.finish_none ?_ n).trans (List.append_nil before)
      rw [Pass.next, h.pattern_eq, findInCode_append h.pattern_ne, search_short]
      · rfl
      · exact List.length_pos_iff.2 h.pattern_ne
  | cons c s ih =>
      intro before n hn
      have hlen : (c :: s).length = s.length + 1 := List.length_cons
      -- a piece in which nothing is found
      have hpass : ∀ k, 0 < k → k ≤ (c :: s).length → w.lexer (c :: s) = (false, k) →
          search w.pattern (c :: s) = (search w.pattern ((c :: s).drop k)).map (· + k) →
          p.finish n (before ++ c :: s, before.length) =
            w.out before (pieces w.lexer (c :: s)) := by
        intro k hk hle hlex hsearch
        have hsize : w.lexer.size (c :: s) = k := by
          rw [Lexer.size, hlex]
          exact max_eq_right hk
        rw [hsize] at ih
        rw [h.finish_pass hle hsearch, ih _ n (by rw [List.length_drop]; omega), pieces_cons,
          hsize, hlex, Walk.out]
      by_cases hskip : codeSkip (c :: s) = 0
      · cases hmatch : ciStartsWith w.pattern (c :: s) with
        | false =>
            exact hpass 1 Nat.one_pos (by omega) (by simp [Walk.lexer, hskip, hmatch])
              (search_step h.pattern_ne hskip hmatch)
        | true =>
            obtain ⟨m, rfl⟩ : ∃ m, n = m + 1 := ⟨n - 1, by omega⟩
            have hpos := h.size_pos _ hmatch
            have hsize := w.size_lexer h.size_pos hskip hmatch
            rw [hsize] at ih
            rw [h.finish_match hskip hmatch, ih _ m (by rw [List.length_drop]; omega),
              pieces_cons, hsize, w.lexer_of_match hskip hmatch, Walk.out, flatten_pieces,
              List.take_append_drop]
      · exact hpass _ (Nat.pos_of_ne_zero hskip) (codeSkip_le _) (by simp [Walk.lexer, hskip])
          (search_skip h.pattern_ne hskip)

/-- **A pass that goes forward is a walk over the pieces of the query.** -/
theorem Pass.Walks.run_eq (sql : Text) : p.run sql = w.run sql :=
  h.finish_eq sql [] (2 * sql.length + 1) (by omega)

end Walks

/-! ### Where a walk finds its pattern -/

/-- The text as `find_in_code` sees it: code, character by character, and what is skipped. -/
def codeLexer : Lexer Char Bool := fun s => (codeSkip s = 0, codeSkip s)

/-- `find_in_code` looks at the position. -/
def InCode (sql : Text) (i : ℕ) : Prop := Starts codeLexer sql i ∧ codeSkip (sql.drop i) = 0

/-- A character at which nothing begins that is skipped. -/
def isPlain (c : Char) : Bool := c ∉ [squote, dquote, backtick, '-', '/']

/-- Code is what begins neither a quoted text nor a comment. -/
lemma codeSkip_cons_eq_zero {c : Char} {s : Text} :
    codeSkip (c :: s) = 0 ↔ c ∉ [squote, dquote, backtick] ∧ ¬ (c = '-' ∧ s.head? = some '-') ∧
      ¬ (c = '/' ∧ s.head? = some '*') := by
  have hcomment : ((find ['*', '/'] s.tail).map (· + 4)).getD (max 2 s.length) ≠ 0 := by
    cases find ['*', '/'] s.tail with
    | none =>
        rw [Option.map_none, Option.getD_none]
        omega
    | some k => exact Nat.succ_ne_zero _
  rw [codeSkip]
  split_ifs with hquote hback hdash hslash
  · have hmem : c = squote ∨ c = dquote := by simpa using hquote
    rcases hmem with rfl | rfl <;> simp
  all_goals simp_all

lemma codeSkip_plain {c : Char} (h : isPlain c = true) (s : Text) : codeSkip (c :: s) = 0 := by
  simp only [isPlain, List.mem_cons, List.not_mem_nil, or_false, not_or, decide_eq_true_eq] at h
  obtain ⟨h₁, h₂, h₃, h₄, h₅⟩ := h
  simp [codeSkip, h₁, h₂, h₃, h₄, h₅]

lemma plain_of_ciStartsWith {pattern s : Text}
    (hpattern : ∀ c, isPlain c = false → c.toUpper ∉ pattern.map Char.toUpper)
    (h : ciStartsWith pattern s = true) : ∀ c ∈ s.take pattern.length, isPlain c = true := by
  intro c hc
  by_contra hplain
  refine hpattern c (Bool.eq_false_iff.2 hplain) ?_
  rw [← of_decide_eq_true h]
  exact List.mem_map_of_mem hc

lemma mem_of_not_isPlain {c : Char} (h : isPlain c = false) :
    c ∈ [squote, dquote, backtick, '-', '/'] :=
  not_not.1 (of_decide_eq_false h)

/-- In a text of plain characters every position is code. -/
lemma starts_plain_append {u v : Text} (hu : ∀ c ∈ u, isPlain c = true) {i : ℕ} :
    Starts codeLexer (u ++ v) i ↔ i < u.length ∨ ∃ j, i = u.length + j ∧ Starts codeLexer v j := by
  induction u generalizing i with
  | nil => simp
  | cons c u ih =>
      rw [List.forall_mem_cons] at hu
      have hsize : codeLexer.size (c :: (u ++ v)) = 1 := by
        rw [Lexer.size, codeLexer, codeSkip_plain hu.1]
        rfl
      rw [List.cons_append, starts_cons_iff, hsize, List.take_succ_cons, List.take_zero,
        List.drop_succ_cons, List.drop_zero, List.length_singleton, List.length_cons]
      constructor
      · rintro (rfl | ⟨j, rfl, hj⟩)
        · exact Or.inl (Nat.succ_pos _)
        · rcases (ih hu.2).1 hj with hlt | ⟨k, rfl, hk⟩
          · exact Or.inl (by omega)
          · exact Or.inr ⟨k, by omega, hk⟩
      · rintro (hlt | ⟨k, rfl, hk⟩)
        · rcases Nat.eq_zero_or_pos i with rfl | hpos
          · exact Or.inl rfl
          · exact Or.inr ⟨i - 1, by omega, (ih hu.2).2 (Or.inl (by omega))⟩
        · exact Or.inr ⟨u.length + k, by omega, (ih hu.2).2 (Or.inr ⟨k, rfl, hk⟩)⟩

/-- The position does not lie in what the walk passes at a match before it. -/
def Walk.Apart (w : Walk) (s : Text) (i : ℕ) : Prop :=
  ∀ j k, i = j + k → 0 < k → k < w.size (s.drop j) → ¬ MatchesAt s w.pattern j

section apart

variable {w : Walk} (hpos : ∀ s, ciStartsWith w.pattern s = true → 0 < w.size s)
  (hplain : ∀ s, ciStartsWith w.pattern s = true → ∀ c ∈ s.take (w.size s), isPlain c = true)
include hpos hplain

/-- `find_in_code` cuts a text where the walk does, but for the characters of a match. -/
lemma Walk.starts_code_cons {c : Char} {s : Text} {i : ℕ} (hapart : w.Apart (c :: s) i) :
    Starts codeLexer (c :: s) i ↔ i = 0 ∨
      ∃ j, i = ((c :: s).take (w.lexer.size (c :: s))).length + j ∧
        Starts codeLexer ((c :: s).drop (w.lexer.size (c :: s))) j := by
  by_cases hskip : codeSkip (c :: s) = 0
  · cases hmatch : ciStartsWith w.pattern (c :: s) with
    | false =>
        have hsize : codeLexer.size (c :: s) = w.lexer.size (c :: s) := by
          simp [Lexer.size, codeLexer, Walk.lexer, hskip, hmatch]
        rw [starts_cons_iff, hsize]
    | true =>
        rw [w.size_lexer hpos hskip hmatch]
        conv_lhs => rw [← List.take_append_drop (w.size (c :: s)) (c :: s)]
        rw [starts_plain_append (hplain _ hmatch)]
        refine or_congr_left' fun _ => ⟨fun hlt => ?_, ?_⟩
        · by_contra hne
          rw [List.length_take] at hlt
          exact hapart 0 i (Nat.zero_add i).symm (Nat.pos_of_ne_zero hne)
            (by rw [List.drop_zero]; omega) hmatch
        · rintro rfl
          have := hpos _ hmatch
          rw [List.length_take, List.length_cons]
          omega
  · have hsize : codeLexer.size (c :: s) = w.lexer.size (c :: s) := by
      simp [Lexer.size, codeLexer, Walk.lexer, hskip]
    rw [starts_cons_iff, hsize]

/-- A walk that passes plain characters finds a match in code, unless it lies in one before it. -/
theorem Walk.starts_iff {s : Text} {i : ℕ} (hapart : w.Apart s i) :
    Starts w.lexer s i ∧ codeSkip (s.drop i) = 0 ↔ InCode s i := by
  induction s using cut_induction w.lexer generalizing i with
  | nil => rw [InCode, starts_nil_iff, starts_nil_iff]
  | cons c s ih =>
      rw [InCode, Walk.starts_code_cons hpos hplain hapart, starts_cons_iff, or_and_right,
        or_and_right]
      refine or_congr_right ⟨?_, ?_⟩
      all_goals
        rintro ⟨⟨j, rfl, hj⟩, hzero⟩
        have hrest : w.Apart ((c :: s).drop (w.lexer.size (c :: s))) j := by
          rintro j' k rfl hk hlt hmatch
          rw [← drop_length_take_add] at hlt
          rw [MatchesAt, ← drop_length_take_add] at hmatch
          exact hapart _ k (Nat.add_assoc _ _ _).symm hk hlt hmatch
        have hrest := ih hrest
        rw [InCode, ← drop_length_take_add] at hrest
      · exact ⟨⟨j, rfl, (hrest.1 ⟨hj, hzero⟩).1⟩, hzero⟩
      · exact ⟨⟨j, rfl, (hrest.2 ⟨hj, hzero⟩).1⟩, hzero⟩

end apart

/-! ### What becomes of the query -/

/-- The pieces, and what is put in their place as far as the query itself decides it. -/
def Walk.edits (w : Walk) : Text → List (Bool × Text) → List (Option Text × Text)
  | _, [] => []
  | before, (hit, t) :: ps =>
      (if hit then w.put before (t ++ ps.flatMap Prod.snd) else none, t) ::
        w.edits (before ++ t) ps

/-- `old` stands at the position, and `new` is put in its place. -/
def Walk.Puts (w : Walk) (sql : Text) (i : ℕ) (old new : Text) : Prop :=
  ∃ ps qs, w.edits [] (pieces w.lexer sql) = ps ++ (some new, old) :: qs ∧
    (ps.flatMap Prod.snd).length = i

/-- What is put out does not depend on what has been put out before, but on the query. -/
structure Walk.Steady (w : Walk) (R : Text → Text → Prop) : Prop where
  start : R [] []
  keep : ∀ out before t, R out before → R (out ++ t) (before ++ t)
  put : ∀ out before rest new, R out before → ciStartsWith w.pattern rest = true →
    w.put before rest = some new → R (out ++ new) (before ++ rest.take (w.size rest))
  same : ∀ out before rest, R out before → ciStartsWith w.pattern rest = true →
    w.put out rest = w.put before rest

section edits

variable {w : Walk} (hpos : ∀ s, ciStartsWith w.pattern s = true → 0 < w.size s)
include hpos

lemma Walk.out_eq {R : Text → Text → Prop} (hR : w.Steady R) (s : Text) {out before : Text}
    (h : R out before) : w.out out (pieces w.lexer s) =
      out ++ (w.edits before (pieces w.lexer s)).flatMap fun p => p.1.getD p.2 := by
  induction s using cut_induction w.lexer generalizing out before with
  | nil => simp [Walk.out, Walk.edits]
  | cons c s ih =>
      rw [pieces_cons]
      cases hkind : (w.lexer (c :: s)).1 with
      | false =>
          rw [Walk.out, Walk.edits, List.flatMap_cons, ih (hR.keep _ _ _ h), List.append_assoc]
          rfl
      | true =>
          obtain ⟨hskip, hmatch⟩ := w.lexer_true hkind
          rw [Walk.out, Walk.edits, List.flatMap_cons, flatten_pieces, List.take_append_drop,
            if_pos rfl, hR.same _ _ _ h hmatch, ← List.append_assoc]
          refine ih ?_
          cases hput : w.put before (c :: s) with
          | none => exact hR.keep _ _ _ h
          | some new =>
              rw [w.size_lexer hpos hskip hmatch]
              exact hR.put _ _ _ _ h hmatch hput

omit hpos in
lemma Walk.edits_cons_iff {c : Char} {s before old new : Text} {i : ℕ} :
    (∃ ps qs, w.edits before (pieces w.lexer (c :: s)) = ps ++ (some new, old) :: qs ∧
        (ps.flatMap Prod.snd).length = i) ↔
      (i = 0 ∧ (w.lexer (c :: s)).1 = true ∧ w.put before (c :: s) = some new ∧
        old = (c :: s).take (w.lexer.size (c :: s))) ∨
      ∃ j, i = ((c :: s).take (w.lexer.size (c :: s))).length + j ∧
        ∃ ps qs, w.edits (before ++ (c :: s).take (w.lexer.size (c :: s)))
            (pieces w.lexer ((c :: s).drop (w.lexer.size (c :: s)))) =
          ps ++ (some new, old) :: qs ∧ (ps.flatMap Prod.snd).length = j := by
  rw [pieces_cons, Walk.edits, flatten_pieces, List.take_append_drop]
  constructor
  · rintro ⟨ps, qs, h, rfl⟩
    cases ps with
    | nil =>
        rw [List.nil_append, List.cons.injEq, Prod.mk.injEq] at h
        obtain ⟨⟨hnew, hold⟩, -⟩ := h
        split_ifs at hnew with hkind
        exact Or.inl ⟨rfl, hkind, hnew, hold.symm⟩
    | cons p ps =>
        rw [List.cons_append, List.cons.injEq] at h
        refine Or.inr ⟨_, ?_, ps, qs, h.2, rfl⟩
        rw [List.flatMap_cons, List.length_append, ← h.1]
  · rintro (⟨rfl, hkind, hnew, rfl⟩ | ⟨j, rfl, ps, qs, h, rfl⟩)
    · exact ⟨[], _, by rw [if_pos hkind, hnew]; rfl, rfl⟩
    · refine ⟨_ :: ps, qs, by rw [h, List.cons_append], ?_⟩
      rw [List.flatMap_cons, List.length_append]

lemma Walk.exists_edits_iff (s before : Text) {old new : Text} {i : ℕ} :
    (∃ ps qs, w.edits before (pieces w.lexer s) = ps ++ (some new, old) :: qs ∧
        (ps.flatMap Prod.snd).length = i) ↔
      Starts w.lexer s i ∧ codeSkip (s.drop i) = 0 ∧ MatchesAt s w.pattern i ∧ s.drop i ≠ [] ∧
        w.put (before ++ s.take i) (s.drop i) = some new ∧
        old = (s.drop i).take (w.size (s.drop i)) := by
  induction s using cut_induction w.lexer generalizing before i with
  | nil => simp [Walk.edits]
  | cons c s ih =>
      rw [Walk.edits_cons_iff, starts_cons_iff, or_and_right]
      refine or_congr ⟨?_, ?_⟩ ?_
      · rintro ⟨rfl, hkind, hnew, hold⟩
        obtain ⟨hskip, hmatch⟩ := w.lexer_true hkind
        rw [w.size_lexer hpos hskip hmatch] at hold
        exact ⟨rfl, hskip, hmatch, List.cons_ne_nil _ _, by simpa using hnew, hold⟩
      · rintro ⟨rfl, hskip, hmatch, -, hnew, hold⟩
        rw [MatchesAt, List.drop_zero] at hmatch
        rw [List.drop_zero] at hskip hold
        refine ⟨rfl, by rw [w.lexer_of_match hskip hmatch], by simpa using hnew, ?_⟩
        rwa [w.size_lexer hpos hskip hmatch]
      · simp only [ih]
        rw [← exists_and_right]
        refine exists_congr fun j => ?_
        rw [and_assoc, and_congr_right_iff]
        rintro rfl
        rw [MatchesAt, MatchesAt, drop_length_take_add, take_length_take_add, List.append_assoc]

/-- Where something is put in the place of a match. -/
theorem Walk.puts_iff {sql : Text} {i : ℕ} {old new : Text} :
    w.Puts sql i old new ↔ (Starts w.lexer sql i ∧ codeSkip (sql.drop i) = 0) ∧
      MatchesAt sql w.pattern i ∧ sql.drop i ≠ [] ∧
      w.put (sql.take i) (sql.drop i) = some new ∧
      old = (sql.drop i).take (w.size (sql.drop i)) := by
  rw [Walk.Puts, Walk.exists_edits_iff hpos, and_assoc]
  rfl

end edits

/-- The pass puts out the pieces of the query, each of them or what takes its place. -/
theorem Pass.Walks.run_edits {p : Pass} {w : Walk} (h : p.Walks w) {R : Text → Text → Prop}
    (hR : w.Steady R) (sql : Text) :
    p.run sql = (w.edits [] (pieces w.lexer sql)).flatMap fun p => p.1.getD p.2 :=
  (h.run_eq sql).trans (Walk.out_eq h.size_pos hR sql hR.start)

end DuckdbEngine.Pushdown
