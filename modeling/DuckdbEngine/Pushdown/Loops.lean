/-
The loops of `init_scan`.

The scanners and the passes walk over the text with an index.  Here their loops are written as
the source has them: a function of the index, or of what else the loop changes, that gives the
next state or ends the loop.  Each of them ends from every state, whatever the text is, and
what it ends with is what the definitions on the rest of the text compute.
-/
import DuckdbEngine.Lib.IndexLoop
import DuckdbEngine.Pushdown.Rounds

namespace DuckdbEngine.Pushdown

open Sql WhileLoop IndexLoop

/-! ### The loops -/

section

variable (sql : Text)

/-- Over a quoted text; it ends at the closing quote. -/
def quoteLoop (q : Char) (backslashEscapes : Bool) (i : ℕ) : Option ℕ :=
  if i < sql.length then
    -- the body and the head of the `for` move the index on by one each
    if sql[i]? = some backslash ∧ backslashEscapes then some (i + 2)
    else if sql[i]? = some q then if sql[i + 1]? = some q then some (i + 2) else none
    else some (i + 1)
  else none

/-- Over a comment; it ends at the two characters that close it. -/
def commentLoop (i : ℕ) : Option ℕ :=
  if i + 1 < sql.length then
    if sql[i]? = some '*' ∧ sql[i + 1]? = some '/' then none else some (i + 1)
  else none

/-- The index behind the string, the quoted identifier or the comment that begins at `i`. -/
def skipFrom (i : ℕ) : ℕ :=
  if sql[i]? = some squote then stopOf sql (quoteLoop sql squote true) (i + 1) + 1
  else if sql[i]? = some dquote then stopOf sql (quoteLoop sql dquote true) (i + 1) + 1
  else if sql[i]? = some backtick then stopOf sql (quoteLoop sql backtick false) (i + 1) + 1
  else if sql[i]? = some '-' ∧ sql[i + 1]? = some '-' then
    stopOf sql (forward sql (· ≠ '\n')) (i + 2)
  else if sql[i]? = some '/' ∧ sql[i + 1]? = some '*' then
    -- the index moves behind the end of the comment only if the loop has found it
    let stop := stopOf sql (commentLoop sql) (i + 2)
    if stop + 1 < sql.length then stop + 2 else stop
  else i

/-- The comparison with a pattern in `find_in_code` and `ci_starts_with`. -/
def matchLoop (pattern : Text) (pos j : ℕ) : Option ℕ :=
  if j < pattern.length ∧ sql[pos + j]?.map Char.toUpper = pattern[j]?.map Char.toUpper then
    some (j + 1)
  else none

/-- The loop of `find_in_code`. -/
def findLoop (pattern : Text) (i : ℕ) : Option ℕ :=
  if i + pattern.length ≤ sql.length then
    if skipFrom sql i ≠ i then some (skipFrom sql i)
    else if ciStartsWith pattern (sql.drop i) then none
    else some (i + 1)
  else none

/-- The loop of `rfind_in_code`: the position and the last match. -/
def rfindLoop (pattern : Text) (before : ℕ) (s : ℕ × Option ℕ) : Option (ℕ × Option ℕ) :=
  match findInCode sql pattern s.1 with
  | none => none
  | some pos => if pos > before then none else some (pos + 1, some pos)

/-- The loop over the arguments of `CONVERT`. -/
def convertLoop (s : ℕ × ℕ × Option ℕ) : Option (ℕ × ℕ × Option ℕ) :=
  if s.1 < sql.length ∧ 0 < s.2.1 then
    some (s.1 + 1,
      if sql[s.1]? = some '(' then (s.2.1 + 1, s.2.2)
      else if sql[s.1]? = some ')' then (s.2.1 - 1, s.2.2)
      else if sql[s.1]? = some ',' ∧ s.2.1 = 1 ∧ s.2.2 = none then (s.2.1, some s.1)
      else s.2)
  else none

/-- A condition of a join begins at the position. -/
def onAt (s : Text) : Bool := ["ON ", "USING ", "USING("].any fun w => ciStartsWith w.toList s

/-- The next clause begins at the position. -/
def clauseAt (s : Text) : Bool :=
  (["JOIN ", "WHERE ", "GROUP ", "ORDER ", "LIMIT ", "HAVING "].any
    fun w => ciStartsWith w.toList s) || s.head? = some ';'

/-- The loop that looks for a condition behind a `JOIN`. -/
def conditionLoop (scan : ℕ) : Option ℕ :=
  if scan < sql.length then
    if onAt (sql.drop scan) then none
    else if clauseAt (sql.drop scan) then none
    else some (scan + 1)
  else none

end

/-! ### Quoted texts and comments -/

section

variable {sql : Text} {i j : ℕ}

lemma advances_quoteLoop (q : Char) (b : Bool) : Advances sql (quoteLoop sql q b) := by
  intro i j h
  rw [quoteLoop] at h
  split_ifs at h with hlen hescape hquote hdouble
  all_goals
    cases h
    exact ⟨by omega, hlen⟩

/-- The characters at the index and behind it decide on the round. -/
lemma quoteLoop_eq (q : Char) (b : Bool) {c : Char} {s : Text} (hs : sql.drop i = c :: s) :
    quoteLoop sql q b i =
      if c = backslash ∧ b then some (i + 2)
      else if c = q then if s.head? = some q then some (i + 2) else none
      else some (i + 1) := by
  obtain ⟨hlen, hget, hdrop⟩ := inside hs
  have hhead : sql[i + 1]? = s.head? := by rw [← hdrop, List.head?_drop]
  rw [quoteLoop, if_pos hlen, hget, hhead]
  simp only [Option.some.injEq]

/-- The index `j` is that of the closing quote, which is counted from `i` on, or lies behind the
end of the text. -/
def QuoteStop (sql : Text) (i : ℕ) (stop : Option ℕ) (j : ℕ) : Prop :=
  stop.elim (sql.length ≤ j) fun n => j + 1 = i + n

lemma QuoteStop.shift {stop : Option ℕ} {k : ℕ} (h : QuoteStop sql (i + k) stop j) :
    QuoteStop sql i (stop.map (· + k)) j := by
  cases stop with
  | none => exact h
  | some n =>
      have hj : j + 1 = i + k + n := h
      show j + 1 = i + (n + k)
      omega

/-- The loop ends at the closing quote or behind the end of the text; a backslash at the end
moves the index on by two. -/
lemma endsIn_quoteLoop {q : Char} (hq : q ≠ backslash) {b : Bool} {s : Text}
    (hs : sql.drop i = s) :
    ∃ j, EndsIn (quoteLoop sql q b) goto i j ∧ QuoteStop sql i (quoteEnd q b s) j := by
  fun_induction quoteEnd q b s generalizing i with
  | case1 =>
      obtain ⟨hle, -⟩ := behind hs
      exact ⟨i, .stop (if_neg (by omega)), hle⟩
  | case2 =>
      -- the last character of the text is the closing quote
      refine ⟨i, .stop ?_, rfl⟩
      rw [quoteLoop_eq q b hs, if_neg (by simp [hq]), if_pos rfl]
      rfl
  | case3 c hc =>
      -- the last character of the text is not a quote
      have hend := (behind (inside hs).2.2).1
      have hstop (k : ℕ) : quoteLoop sql q b (i + 1 + k) = none := if_neg (by omega)
      have hnext := quoteLoop_eq q b hs
      by_cases hescape : c = backslash ∧ b
      · rw [if_pos hescape] at hnext
        exact ⟨i + 2, .round hnext (.stop (hstop 1)), Nat.le_succ_of_le hend⟩
      · rw [if_neg hescape, if_neg hc] at hnext
        exact ⟨i + 1, .round hnext (.stop (hstop 0)), hend⟩
  | case4 c d s hescape ih =>
      have hnext := quoteLoop_eq q b hs
      rw [if_pos (by simpa using hescape)] at hnext
      obtain ⟨j, hend, hj⟩ := ih (drop_add_length (w := [_, _]) hs)
      exact ⟨j, .round hnext hend, QuoteStop.shift (k := 2) hj⟩
  | case5 c d s hescape hc ih =>
      have hnext := quoteLoop_eq q b hs
      rw [if_neg (by simpa using hescape), if_neg hc] at hnext
      obtain ⟨j, hend, hj⟩ := ih (inside hs).2.2
      exact ⟨j, .round hnext hend, hj.shift⟩
  | case6 c s hescape hc ih =>
      -- a doubled quote
      have hnext := quoteLoop_eq q b hs
      rw [if_neg (by simpa using hescape), if_pos (not_not.1 hc), if_pos List.head?_cons]
        at hnext
      obtain ⟨j, hend, hj⟩ := ih (drop_add_length (w := [_, _]) hs)
      exact ⟨j, .round hnext hend, QuoteStop.shift (k := 2) hj⟩
  | case7 c d s hescape hc hd =>
      have hnext := quoteLoop_eq q b hs
      rw [if_neg (by simpa using hescape), if_pos (not_not.1 hc), if_neg (by simpa using hd)]
        at hnext
      exact ⟨i, .stop hnext, rfl⟩

lemma advances_commentLoop : Advances sql (commentLoop sql) := by
  intro i j h
  rw [commentLoop] at h
  split_ifs at h with hlen hclose
  cases h
  exact ⟨Nat.lt_succ_self i, by omega⟩

lemma commentLoop_eq {c d : Char} {s : Text} (hs : sql.drop i = c :: d :: s) :
    commentLoop sql i = if c = '*' ∧ d = '/' then none else some (i + 1) := by
  obtain ⟨-, hget, hdrop⟩ := inside hs
  obtain ⟨hlt, hget', -⟩ := inside hdrop
  rw [commentLoop, if_pos hlt, hget, hget']
  simp only [Option.some.injEq]

lemma find_close (c d : Char) (s : Text) :
    find ['*', '/'] (c :: d :: s) =
      if c = '*' ∧ d = '/' then some 0 else (find ['*', '/'] (d :: s)).map (· + 1) := by
  rw [find]
  refine if_congr ?_ rfl rfl
  simp only [List.isPrefixOf_iff_prefix, List.cons_prefix_cons, List.nil_prefix, and_true]
  exact and_congr eq_comm eq_comm

/-- The loop ends at the two characters that close the comment, or else at the last character of
the text, unless it has begun behind it. -/
lemma endsIn_commentLoop {s : Text} (hs : sql.drop i = s) :
    EndsIn (commentLoop sql) goto i
      ((find ['*', '/'] s).elim (max i (sql.length - 1)) fun n => i + n) := by
  induction s generalizing i with
  | nil =>
      have hle := (behind hs).1
      have hmax : max i (sql.length - 1) = i := by omega
      show EndsIn (commentLoop sql) goto i (max i (sql.length - 1))
      rw [hmax]
      exact .stop (if_neg (by omega))
  | cons c s ih =>
      obtain ⟨hlt, -, hdrop⟩ := inside hs
      cases s with
      | nil =>
          have hend := (behind hdrop).1
          have hfind : find ['*', '/'] [c] = none := by simp [find, List.isPrefixOf]
          have hmax : max i (sql.length - 1) = i := by omega
          rw [hfind, Option.elim_none, hmax]
          exact .stop (if_neg (by omega))
      | cons d s =>
          have hlt' := (inside hdrop).1
          rw [find_close]
          split
          · next hclose => exact .stop ((commentLoop_eq hs).trans (if_pos hclose))
          · next hopen =>
              have hrest := ih hdrop
              refine .round ((commentLoop_eq hs).trans (if_neg hopen)) ?_
              cases hn : find ['*', '/'] (d :: s) with
              | none =>
                  have hmax : max i (sql.length - 1) = max (i + 1) (sql.length - 1) := by omega
                  rw [hn] at hrest
                  rw [Option.map_none, Option.elim_none, hmax]
                  exact hrest
              | some n =>
                  rw [hn] at hrest
                  rw [Option.map_some, Option.elim_some, Nat.add_comm n, ← Nat.add_assoc]
                  exact hrest

/-! ### The scanners -/

/-- The index `k` is that behind the `n` characters that are skipped, or both lie behind the end
of the text. -/
def Skips (sql : Text) (i k n : ℕ) : Prop :=
  n ≠ 0 ∧ i < k ∧ (k = i + n ∨ sql.length ≤ k ∧ sql.length ≤ i + n)

lemma skips_quote {q : Char} (hq : q ≠ backslash) (b : Bool) {s : Text}
    (hs : sql.drop i = q :: s) :
    Skips sql i (stopOf sql (quoteLoop sql q b) (i + 1) + 1)
      ((quoteEnd q b s).getD s.length + 1) := by
  obtain ⟨hlt, -, hdrop⟩ := inside hs
  obtain ⟨j, hend, hstop⟩ := endsIn_quoteLoop hq (b := b) hdrop
  have hlen : s.length = sql.length - (i + 1) := by rw [← hdrop, List.length_drop]
  rw [(advances_quoteLoop q b).stopOf_eq hend]
  cases hquote : quoteEnd q b s with
  | some n =>
      rw [hquote] at hstop
      have hj : j + 1 = i + 1 + n := hstop
      rw [Option.getD_some]
      exact ⟨Nat.succ_ne_zero n, by omega, Or.inl (by omega)⟩
  | none =>
      rw [hquote] at hstop
      have hj : sql.length ≤ j := hstop
      rw [Option.getD_none]
      exact ⟨Nat.succ_ne_zero _, by omega, Or.inr ⟨by omega, by omega⟩⟩

lemma skips_lineComment {s : Text} (hs : sql.drop i = '-' :: '-' :: s) :
    Skips sql i (stopOf sql (forward sql (· ≠ '\n')) (i + 2))
      ((s.takeWhile (· ≠ '\n')).length + 2) := by
  have hdrop : sql.drop (i + 2) = s := drop_add_length (w := [_, _]) hs
  rw [(advances_forward _).stopOf_eq (endsIn_forward _ (i + 2)), hdrop]
  exact ⟨Nat.succ_ne_zero _, by omega, Or.inl (by omega)⟩

lemma skips_comment {s : Text} (hs : sql.drop i = '/' :: '*' :: s) :
    Skips sql i
      (if stopOf sql (commentLoop sql) (i + 2) + 1 < sql.length then
        stopOf sql (commentLoop sql) (i + 2) + 2
      else stopOf sql (commentLoop sql) (i + 2))
      (((find ['*', '/'] s).map (· + 4)).getD (max 2 ('*' :: s).length)) := by
  have hdrop : sql.drop (i + 2) = s := drop_add_length (w := [_, _]) hs
  have hlen := congrArg List.length hs
  rw [List.length_drop, List.length_cons, List.length_cons] at hlen
  rw [advances_commentLoop.stopOf_eq (endsIn_commentLoop hdrop)]
  cases hfind : find ['*', '/'] s with
  | some n =>
      have hle := find_le hfind
      rw [List.length_cons, List.length_singleton] at hle
      rw [Option.elim_some, if_pos (by omega), Option.map_some, Option.getD_some]
      exact ⟨Nat.succ_ne_zero _, by omega, Or.inl (by omega)⟩
  | none =>
      -- the loop has stopped at the last character, which is scanned as code
      rw [Option.elim_none, if_neg (by omega), Option.map_none, Option.getD_none, List.length_cons]
      exact ⟨by omega, by omega, Or.inl (by omega)⟩

/-- The two characters at the index, as the conditions of the scanner read them. -/
lemma cons_of_head? {c a b : Char} {s : Text} (h : c = a ∧ s.head? = some b) :
    ∃ t, c :: s = a :: b :: t := by
  obtain ⟨rfl, hb⟩ := h
  obtain ⟨t, rfl⟩ := List.head?_eq_some_iff.1 hb
  exact ⟨t, rfl⟩

/-- The scanner with an index skips as much as the one on the rest of the text. -/
lemma skipFrom_cases (sql : Text) (i : ℕ) :
    codeSkip (sql.drop i) = 0 ∧ skipFrom sql i = i ∨
      Skips sql i (skipFrom sql i) (codeSkip (sql.drop i)) := by
  cases hs : sql.drop i with
  | nil =>
      refine Or.inl ⟨rfl, ?_⟩
      simp [skipFrom, (behind hs).2]
  | cons c s =>
      obtain ⟨hlt, hget, hdrop⟩ := inside hs
      have hhead : sql[i + 1]? = s.head? := by rw [← hdrop, List.head?_drop]
      rw [skipFrom, codeSkip, hget, hhead]
      simp only [Option.some.injEq, Bool.or_eq_true, Bool.and_eq_true, decide_eq_true_eq]
      -- the branches in the order of the source
      by_cases hsquote : c = squote
      · subst hsquote
        rw [if_pos rfl, if_pos (Or.inl rfl)]
        exact Or.inr (skips_quote (by decide) true hs)
      by_cases hdquote : c = dquote
      · subst hdquote
        rw [if_neg hsquote, if_pos rfl, if_pos (Or.inr rfl)]
        exact Or.inr (skips_quote (by decide) true hs)
      rw [if_neg hsquote, if_neg hdquote, if_neg (not_or_intro hsquote hdquote)]
      by_cases hbacktick : c = backtick
      · subst hbacktick
        rw [if_pos rfl, if_pos rfl]
        exact Or.inr (skips_quote (by decide) false hs)
      rw [if_neg hbacktick, if_neg hbacktick]
      by_cases hline : c = '-' ∧ s.head? = some '-'
      · rw [if_pos hline, if_pos hline]
        obtain ⟨t, ht⟩ := cons_of_head? hline
        cases ht
        exact Or.inr (skips_lineComment hs)
      rw [if_neg hline, if_neg hline]
      by_cases hcomment : c = '/' ∧ s.head? = some '*'
      · rw [if_pos hcomment, if_pos hcomment]
        obtain ⟨t, ht⟩ := cons_of_head? hcomment
        cases ht
        exact Or.inr (skips_comment hs)
      rw [if_neg hcomment, if_neg hcomment]
      exact Or.inl ⟨rfl, rfl⟩

lemma ciStartsWith_cons (c d : Char) (p s : Text) :
    ciStartsWith (c :: p) (d :: s) = (decide (d.toUpper = c.toUpper) && ciStartsWith p s) := by
  simp [ciStartsWith]

lemma ciStartsWith_cons_nil (c : Char) (p : Text) : ciStartsWith (c :: p) [] = false := by
  simp [ciStartsWith]

/-- The comparison ends at the first difference, or behind the pattern. -/
lemma endsIn_matchLoop (pattern : Text) (pos j : ℕ) :
    ∃ k, EndsIn (matchLoop sql pattern pos) goto j k ∧
      ciStartsWith (pattern.drop j) (sql.drop (pos + j)) = decide (pattern.length ≤ k) := by
  induction hp : pattern.drop j generalizing j with
  | nil =>
      obtain ⟨hle, -⟩ := behind hp
      refine ⟨j, .stop (if_neg (by omega)), ?_⟩
      rw [decide_eq_true hle]
      rfl
  | cons c p ih =>
      obtain ⟨hlt, hget, hdrop⟩ := inside hp
      have hne : decide (pattern.length ≤ j) = false := decide_eq_false (by omega)
      cases hs : sql.drop (pos + j) with
      | nil =>
          refine ⟨j, .stop ?_, by rw [ciStartsWith_cons_nil, hne]⟩
          rw [matchLoop, (behind hs).2, hget]
          exact if_neg (by simp)
      | cons d s =>
          obtain ⟨-, hget', hdrop'⟩ := inside hs
          have hstep : matchLoop sql pattern pos j =
              if d.toUpper = c.toUpper then some (j + 1) else none := by
            rw [matchLoop, hget, hget']
            simp [hlt]
          rw [ciStartsWith_cons]
          by_cases hc : d.toUpper = c.toUpper
          · obtain ⟨k, hend, hk⟩ := ih (j + 1) hdrop
            rw [← Nat.add_assoc, hdrop'] at hk
            rw [decide_eq_true hc, Bool.true_and]
            exact ⟨k, .round (hstep.trans (if_pos hc)) hend, hk⟩
          · rw [decide_eq_false hc, Bool.false_and]
            exact ⟨j, .stop (hstep.trans (if_neg hc)), hne.symm⟩

/-- What `find_in_code` returns if its loop ends at the index. -/
def foundAt (sql pattern : Text) (i : ℕ) : Option ℕ :=
  if i + pattern.length ≤ sql.length then some i else none

lemma findFrom_nil {pattern : Text} (hne : pattern ≠ []) (n : ℕ) :
    findFrom pattern n [] = none := by
  cases n with
  | zero => rfl
  | succ n => exact if_pos (List.length_pos_iff.2 hne)

lemma map_add_map (o : Option ℕ) (m n : ℕ) :
    (o.map (· + m)).map (· + n) = o.map (· + (n + m)) := by
  cases o with
  | none => rfl
  | some k =>
      show some (k + m + n) = some (k + (n + m))
      rw [Nat.add_assoc, Nat.add_comm m]

/-- By induction on the bound on the rounds, which is large enough. -/
lemma endsIn_findLoop {pattern : Text} (hne : pattern ≠ []) {n : ℕ}
    (hn : (sql.drop i).length < n) :
    ∃ j, EndsIn (findLoop sql pattern) goto i j ∧
      (findFrom pattern n (sql.drop i)).map (· + i) = foundAt sql pattern j := by
  have hpos := List.length_pos_iff.2 hne
  induction n generalizing i with
  | zero => exact absurd hn (Nat.not_lt_zero _)
  | succ n ih =>
      rw [List.length_drop] at hn
      rw [findFrom, List.length_drop]
      by_cases hlen : sql.length - i < pattern.length
      · refine ⟨i, .stop (if_neg (by omega)), ?_⟩
        rw [if_pos hlen, foundAt, if_neg (by omega)]
        rfl
      rw [if_neg hlen]
      have hle : i + pattern.length ≤ sql.length := by omega
      obtain ⟨hcode, hskip⟩ | ⟨hskips, hlt, hskip⟩ := skipFrom_cases sql i
      · have hstep : findLoop sql pattern i =
            if ciStartsWith pattern (sql.drop i) then none else some (i + 1) := by
          rw [findLoop, if_pos hle, if_neg (not_not.2 hskip)]
        rw [if_neg (not_not.2 hcode)]
        split
        · next hmatch =>
            refine ⟨i, .stop (hstep.trans (if_pos hmatch)), ?_⟩
            rw [foundAt, if_pos hle, Option.map_some, Nat.zero_add]
        · next hother =>
            obtain ⟨j, hend, hj⟩ := ih (i := i + 1) (by rw [List.length_drop]; omega)
            refine ⟨j, .round (hstep.trans (if_neg hother)) hend, ?_⟩
            rw [List.tail_drop, map_add_map, hj]
      · have hstep : findLoop sql pattern i = some (skipFrom sql i) := by
          rw [findLoop, if_pos hle, if_pos (by omega)]
        obtain ⟨j, hend, hj⟩ := ih (i := skipFrom sql i) (by rw [List.length_drop]; omega)
        refine ⟨j, .round hstep hend, ?_⟩
        rw [if_pos hskips, List.drop_drop, map_add_map, ← hj]
        obtain hk | ⟨hbehind, hbehind'⟩ := hskip
        · rw [hk]
        · -- a string without an end: neither scanner finds anything behind the text
          rw [List.drop_of_length_le hbehind, List.drop_of_length_le hbehind', findFrom_nil hne]
          rfl

/-- An empty pattern does not reach the loop. -/
theorem findInCode_loop {pattern : Text} (hne : pattern ≠ []) (start : ℕ) :
    ∃ i, EndsIn (findLoop sql pattern) goto start i ∧
      findInCode sql pattern start = foundAt sql pattern i := by
  have hlen : (sql.drop start).length < sql.length + 1 := by
    rw [List.length_drop]
    omega
  obtain ⟨i, hend, hi⟩ := endsIn_findLoop hne hlen
  refine ⟨i, hend, ?_⟩
  rw [findInCode]
  split
  · next hempty =>
      have hshort : sql.length < pattern.length := by simpa [hne] using hempty
      rw [foundAt, if_neg (by omega)]
  · exact hi

/-- Every match moves the position on, and it lies in the text. -/
lemma endsIn_rfindLoop (pattern : Text) (before : ℕ) {n pos : ℕ} (last : Option ℕ)
    (hn : sql.length < n + pos) :
    ∃ pos', EndsIn (rfindLoop sql pattern before) goto (pos, last)
      (pos', rfindFrom sql pattern before n pos last) := by
  induction n generalizing pos last with
  | zero =>
      cases hfind : findInCode sql pattern pos with
      | none => exact ⟨pos, .stop (by rw [rfindLoop, hfind])⟩
      | some found =>
          obtain ⟨hle, -, hlen⟩ := findInCode_matches hfind
          omega
  | succ n ih =>
      rw [rfindFrom]
      cases hfind : findInCode sql pattern pos with
      | none => exact ⟨pos, .stop (by rw [rfindLoop, hfind])⟩
      | some found =>
          obtain ⟨hle, -, hlen⟩ := findInCode_matches hfind
          have hstep : rfindLoop sql pattern before (pos, last) =
              if found > before then none else some (found + 1, some found) := by
            rw [rfindLoop, hfind]
          by_cases hbefore : found > before
          · refine ⟨pos, ?_⟩
            show EndsIn _ goto _ (pos, if found > before then last else _)
            rw [if_pos hbefore]
            exact .stop (hstep.trans (if_pos hbefore))
          · obtain ⟨pos', hend⟩ := ih (some found) (show sql.length < n + (found + 1) by omega)
            refine ⟨pos', .round (hstep.trans (if_neg hbefore)) ?_⟩
            show EndsIn _ goto _ (pos', if found > before then last else _)
            rw [if_neg hbefore]
            exact hend

/-! ### The other loops of the passes -/

/-- By induction on the rest of the text. -/
lemma endsIn_convertLoop (i depth : ℕ) (comma : Option ℕ) :
    EndsIn (convertLoop sql) goto (i, depth, comma) (convertScan (sql.drop i) i depth comma) := by
  induction hs : sql.drop i generalizing i depth comma with
  | nil =>
      obtain ⟨hle, -⟩ := behind hs
      exact .stop (if_neg fun h => Nat.not_lt.2 hle h.1)
  | cons c s ih =>
      obtain ⟨hlt, hget, hdrop⟩ := inside hs
      rw [convertScan]
      by_cases hdepth : depth = 0
      · rw [if_pos hdepth]
        exact .stop (if_neg fun h => Nat.ne_of_gt h.2 hdepth)
      have hstep : convertLoop sql (i, depth, comma) = some (i + 1,
          if c = '(' then (depth + 1, comma)
          else if c = ')' then (depth - 1, comma)
          else if c = ',' ∧ depth = 1 ∧ comma = none then (depth, some i)
          else (depth, comma)) := by
        rw [convertLoop, if_pos ⟨hlt, Nat.pos_of_ne_zero hdepth⟩, hget]
        simp only [Option.some.injEq]
      rw [if_neg hdepth]
      refine .round hstep ?_
      simp only [Bool.and_eq_true, decide_eq_true_eq, and_assoc]
      split_ifs
      all_goals exact ih _ _ _ hdrop

/-- By induction on the rest of the text. -/
lemma endsIn_conditionLoop (scan : ℕ) :
    ∃ j, EndsIn (conditionLoop sql) goto scan j ∧
      hasCondition (sql.drop scan) = (decide (j < sql.length) && onAt (sql.drop j)) := by
  induction hs : sql.drop scan generalizing scan with
  | nil =>
      obtain ⟨hle, -⟩ := behind hs
      refine ⟨scan, .stop (if_neg (by omega)), ?_⟩
      rw [decide_eq_false (by omega), Bool.false_and]
      rfl
  | cons c s ih =>
      obtain ⟨hlt, -, hdrop⟩ := inside hs
      have hstep : conditionLoop sql scan =
          if onAt (c :: s) then none else if clauseAt (c :: s) then none else some (scan + 1) := by
        rw [conditionLoop, if_pos hlt, hs]
      have hcond : hasCondition (c :: s) =
          if onAt (c :: s) then true else if clauseAt (c :: s) then false else hasCondition s := by
        rw [hasCondition, onAt, clauseAt, List.head?_cons]
        simp only [Option.some.injEq]
      rw [hcond]
      by_cases hon : onAt (c :: s) = true
      · refine ⟨scan, .stop (hstep.trans (if_pos hon)), ?_⟩
        rw [if_pos hon, decide_eq_true hlt, hs, hon]
        rfl
      rw [if_neg hon]
      rw [if_neg hon] at hstep
      by_cases hclause : clauseAt (c :: s) = true
      · refine ⟨scan, .stop (hstep.trans (if_pos hclause)), ?_⟩
        rw [if_pos hclause, decide_eq_true hlt, hs, Bool.true_and, Bool.eq_false_of_not_eq_true hon]
      · obtain ⟨j, hend, hj⟩ := ih (scan + 1) hdrop
        rw [if_neg hclause]
        exact ⟨j, .round (hstep.trans (if_neg hclause)) hend, hj⟩

/-- The loops over the blanks in front of the position and over the word in front of them. -/
lemma endsIn_wordBefore (isWord : Char → Bool) {pos : ℕ} (hpos : pos ≤ sql.length) :
    ∃ wordEnd p, EndsIn (backward sql (· = ' ')) goto pos wordEnd ∧
      EndsIn (backward sql isWord) goto wordEnd p ∧
      wordBefore isWord sql pos = TextEdits.slice sql p wordEnd := by
  have hblanks := endsIn_backward (· = ' ') hpos
  have hsplit := (split_takeWhile_reverse (· = ' ') (sql.take pos)).1
  rw [List.length_take_of_le hpos, List.take_take, Nat.min_eq_left (Nat.sub_le _ _)] at hsplit
  set wordEnd := pos - ((sql.take pos).reverse.takeWhile (· = ' ')).length
  have hend : wordEnd ≤ sql.length := Nat.le_trans (Nat.sub_le _ _) hpos
  have hword := (split_takeWhile_reverse isWord (sql.take wordEnd)).2
  rw [List.length_take_of_le hend] at hword
  refine ⟨wordEnd, _, hblanks, endsIn_backward isWord hend, ?_⟩
  rw [TextEdits.slice, hword, hsplit, List.reverse_reverse, wordBefore]

end

/-! ### All loops -/

/-- The loops that `init_scan` runs through for the text `sql`.  Each of them ends, and what the
definitions of the passes compute is what it ends with. -/
structure LoopsEnd (sql : Text) : Prop where
  /-- The loop of each pass ends with the text that the next one begins with. -/
  passes : ∀ p ∈ passes, ∃ pos, EndsIn p.next move (sql, 0) (p.run sql, pos)
  /-- `find_in_code` from every position, for a pattern that is not empty. -/
  find : ∀ pattern start, pattern ≠ [] → ∃ i, EndsIn (findLoop sql pattern) goto start i ∧
    findInCode sql pattern start = foundAt sql pattern i
  /-- `rfind_in_code` from the beginning of the text. -/
  rfind : ∀ pattern before, ∃ pos, EndsIn (rfindLoop sql pattern before) goto (0, none)
    (pos, rfindInCode sql pattern before)
  /-- Strings and quoted identifiers, also those without an end. -/
  quotes : ∀ q b i, EndsIn (quoteLoop sql q b) goto i (stopOf sql (quoteLoop sql q b) i)
  /-- Comments, also those without an end. -/
  comments : ∀ i, EndsIn (commentLoop sql) goto i (stopOf sql (commentLoop sql) i)
  /-- The comparison with a pattern. -/
  compare : ∀ pattern pos, ∃ j, EndsIn (matchLoop sql pattern pos) goto 0 j ∧
    ciStartsWith pattern (sql.drop pos) = decide (pattern.length ≤ j)
  /-- Lines, blanks and digits. -/
  forward : ∀ kind i,
    EndsIn (forward sql kind) goto i (i + ((sql.drop i).takeWhile kind).length)
  /-- The blanks and the word in front of a match. -/
  words : ∀ isWord pos, pos ≤ sql.length → ∃ wordEnd p,
    EndsIn (backward sql (· = ' ')) goto pos wordEnd ∧
      EndsIn (backward sql isWord) goto wordEnd p ∧
      wordBefore isWord sql pos = TextEdits.slice sql p wordEnd
  /-- The arguments of `CONVERT`. -/
  arguments : ∀ i depth comma, EndsIn (convertLoop sql) goto (i, depth, comma)
    (convertScan (sql.drop i) i depth comma)
  /-- The condition of a `JOIN`. -/
  condition : ∀ scan, ∃ j, EndsIn (conditionLoop sql) goto scan j ∧
    hasCondition (sql.drop scan) = (decide (j < sql.length) && onAt (sql.drop j))

/-- Every loop of the rewriting ends, for every text: unterminated strings and comments, rounds
that go on at the same position and replacements that are longer than what they replace do not
keep one of them from it. -/
theorem initScan_loops_end (sql : Text) : LoopsEnd sql where
  passes _ hp := ⟨_, Pass.next_run hp sql, 2 * sql.length + 1, rfl⟩
  find _ start hne := findInCode_loop hne start
  rfind pattern before := endsIn_rfindLoop pattern before none (Nat.lt_succ_self _)
  quotes q b := (advances_quoteLoop q b).endsIn_stopOf
  comments := advances_commentLoop.endsIn_stopOf
  compare pattern pos := endsIn_matchLoop pattern pos 0
  forward := endsIn_forward
  words isWord _ hpos := endsIn_wordBefore isWord hpos
  arguments := endsIn_convertLoop
  condition := endsIn_conditionLoop

end DuckdbEngine.Pushdown
