/-
What the passes come across in a query.

A pass that replaces nothing leaves the text as it is and goes on behind the match, so the
matches that it looks at can be told from the query alone: it goes through the query from
left to right, over what `find_in_code` skips, over single characters and over matches of
its pattern.  From this it is read off what must stand in a query for a pass to replace
something (`Rewritable`): mostly a pattern in code, as letters anywhere in a word.
-/
import DuckdbEngine.Pushdown.JoinClause
import DuckdbEngine.Pushdown.LimitClause

namespace DuckdbEngine.Pushdown

open Sql TextEdits Lexing

/-! ### Matches one behind the other -/

/-- The walk comes across a match at the position. -/
def Walk.Found (w : Walk) (s : Text) (i : ℕ) : Prop :=
  (Starts w.lexer s i ∧ codeSkip (s.drop i) = 0) ∧ MatchesAt s w.pattern i

section found

variable {w : Walk}

lemma not_matchesAt_nil {pattern : Text} (hne : pattern ≠ []) (i : ℕ) :
    ¬ MatchesAt [] pattern i := by
  intro h
  have hpos := List.length_pos_iff.2 hne
  have hlen := h.bound hne
  rw [List.length_nil] at hlen
  omega

lemma Walk.found_cons_iff {c : Char} {s : Text} {i : ℕ} :
    w.Found (c :: s) i ↔ i = 0 ∧ (w.lexer (c :: s)).1 = true ∨
      ∃ j, i = ((c :: s).take (w.lexer.size (c :: s))).length + j ∧
        w.Found ((c :: s).drop (w.lexer.size (c :: s))) j := by
  rw [Walk.Found, starts_cons_iff, or_and_right, or_and_right]
  refine or_congr ⟨?_, ?_⟩ ⟨?_, ?_⟩
  · rintro ⟨⟨rfl, hskip⟩, hmatch⟩
    rw [List.drop_zero] at hskip
    exact ⟨rfl, by rw [w.lexer_of_match hskip hmatch]⟩
  · rintro ⟨rfl, hkind⟩
    obtain ⟨hskip, hmatch⟩ := w.lexer_true hkind
    exact ⟨⟨rfl, hskip⟩, hmatch⟩
  · rintro ⟨⟨⟨j, rfl, hj⟩, hskip⟩, hmatch⟩
    rw [drop_length_take_add] at hskip
    rw [MatchesAt, drop_length_take_add] at hmatch
    exact ⟨j, rfl, ⟨hj, hskip⟩, hmatch⟩
  · rintro ⟨j, rfl, ⟨hj, hskip⟩, hmatch⟩
    rw [MatchesAt, ← drop_length_take_add] at hmatch
    rw [← drop_length_take_add] at hskip
    exact ⟨⟨⟨j, rfl, hj⟩, hskip⟩, hmatch⟩

variable (hne : w.pattern ≠ []) (hpos : ∀ s, ciStartsWith w.pattern s = true → 0 < w.size s)
  (hle : ∀ s, ciStartsWith w.pattern s = true → w.size s ≤ s.length)
include hne

/-- Where the search finds nothing, there is no match. -/
lemma Walk.not_found_of_search {s : Text} (h : search w.pattern s = none) (i : ℕ) :
    ¬ w.Found s i := by
  induction s using cut_induction w.lexer generalizing i with
  | nil => exact fun hfound => not_matchesAt_nil hne i hfound.2
  | cons c s ih =>
      rw [Walk.found_cons_iff]
      by_cases hskip : codeSkip (c :: s) = 0
      · cases hmatch : ciStartsWith w.pattern (c :: s) with
        | true =>
            rw [search_hit hskip hmatch] at h
            cases h
        | false =>
            have hlex : w.lexer (c :: s) = (false, 1) := by simp [Walk.lexer, hskip, hmatch]
            rw [search_step hne hskip hmatch, Option.map_eq_none_iff] at h
            rintro (⟨-, hkind⟩ | ⟨j, -, hj⟩)
            · simp [hlex] at hkind
            · rw [Lexer.size, hlex] at ih hj
              exact ih h j hj
      · have hlex : w.lexer (c :: s) = (false, codeSkip (c :: s)) := by simp [Walk.lexer, hskip]
        have hsize : w.lexer.size (c :: s) = codeSkip (c :: s) := by
          rw [Lexer.size, hlex]
          exact max_eq_right (Nat.pos_of_ne_zero hskip)
        rw [search_skip hne hskip, Option.map_eq_none_iff] at h
        rintro (⟨-, hkind⟩ | ⟨j, -, hj⟩)
        · simp [hlex] at hkind
        · rw [hsize] at ih hj
          exact ih h j hj

include hpos hle

/-- The first match is the one that the search finds, and the others lie behind it. -/
lemma Walk.found_iff_of_search {s : Text} {k : ℕ} (h : search w.pattern s = some k) (i : ℕ) :
    w.Found s i ↔ i = k ∨ ∃ j, i = k + w.size (s.drop k) + j ∧
      w.Found (s.drop (k + w.size (s.drop k))) j := by
  induction s using cut_induction w.lexer generalizing i k with
  | nil =>
      have hshort : ([] : Text).length < w.pattern.length := List.length_pos_iff.2 hne
      rw [search_short hshort] at h
      cases h
  | cons c s ih =>
      -- a piece in which nothing is found
      have hpass : ∀ m, 0 < m → m ≤ (c :: s).length → w.lexer (c :: s) = (false, m) →
          search w.pattern (c :: s) = (search w.pattern ((c :: s).drop m)).map (· + m) →
          (w.Found (c :: s) i ↔ i = k ∨ ∃ j, i = k + w.size ((c :: s).drop k) + j ∧
            w.Found ((c :: s).drop (k + w.size ((c :: s).drop k))) j) := by
        intro m hm hlen hlex hsearch
        have hsize : w.lexer.size (c :: s) = m := by
          rw [Lexer.size, hlex]
          exact max_eq_right hm
        rw [hsearch] at h
        obtain ⟨k, hk, rfl⟩ := Option.map_eq_some_iff.1 h
        rw [hsize] at ih
        rw [Walk.found_cons_iff, hlex, hsize, List.length_take_of_le hlen, Nat.add_comm k m,
          ← List.drop_drop, Nat.add_assoc, ← List.drop_drop]
        have hrest := fun j => ih hk j
        constructor
        · rintro (⟨-, hkind⟩ | ⟨j, rfl, hj⟩)
          · cases hkind
          · rcases (hrest j).1 hj with rfl | ⟨l, rfl, hl⟩
            · exact Or.inl rfl
            · exact Or.inr ⟨l, by omega, hl⟩
        · rintro (rfl | ⟨l, rfl, hl⟩)
          · exact Or.inr ⟨k, rfl, (hrest k).2 (Or.inl rfl)⟩
          · exact Or.inr ⟨_, Nat.add_assoc _ _ _, (hrest _).2 (Or.inr ⟨l, rfl, hl⟩)⟩
      by_cases hskip : codeSkip (c :: s) = 0
      · cases hmatch : ciStartsWith w.pattern (c :: s) with
        | true =>
            rw [search_hit hskip hmatch] at h
            cases h
            have hsize := w.size_lexer hpos hskip hmatch
            rw [Walk.found_cons_iff, w.lexer_of_match hskip hmatch, hsize,
              List.length_take_of_le (hle _ hmatch)]
            simp
        | false =>
            exact hpass 1 Nat.one_pos (by simp) (by simp [Walk.lexer, hskip, hmatch])
              (search_step hne hskip hmatch)
      · exact hpass _ (Nat.pos_of_ne_zero hskip) (codeSkip_le _) (by simp [Walk.lexer, hskip])
          (search_skip hne hskip)

end found

/-! ### A pass that replaces nothing -/

/-- Nothing is replaced. -/
def Round.Idle (r : Round) : Prop := r.ranges = []

/-- Where the pass replaces nothing it goes on like the walk, and whether it does so later on does
not depend on where the search started. -/
structure Pass.Pauses (p : Pass) (w : Walk) : Prop where
  pattern_eq : p.pattern = w.pattern
  pattern_ne : w.pattern ≠ []
  size_pos : ∀ s, ciStartsWith w.pattern s = true → 0 < w.size s
  size_le : ∀ s, ciStartsWith w.pattern s = true → w.size s ≤ s.length
  next_eq : ∀ sql pos i, MatchesAt sql w.pattern i → (p.body sql pos i).Idle →
    (p.body sql pos i).next = i + w.size (sql.drop i)
  idle_iff : ∀ sql i k, MatchesAt sql w.pattern i → (p.body sql 0 i).Idle →
    i + w.size (sql.drop i) ≤ k → MatchesAt sql w.pattern k →
    ((p.body sql (i + w.size (sql.drop i)) k).Idle ↔ (p.body sql 0 k).Idle)

lemma findInCode_eq_search {pattern : Text} (hne : pattern ≠ []) {sql : Text} {pos : ℕ}
    (hpos : pos ≤ sql.length) :
    findInCode sql pattern pos = (search pattern (sql.drop pos)).map (· + pos) := by
  have hfind := findInCode_append hne (sql.take pos) (sql.drop pos)
  rwa [List.take_append_drop, List.length_take_of_le hpos] at hfind

lemma Pass.Pauses.idle_from {p : Pass} {w : Walk} (h : p.Pauses w) {sql : Text} {n pos : ℕ}
    (hn : sql.length - pos < n) (hpos : pos ≤ sql.length)
    (hstart : ∀ k, pos ≤ k → MatchesAt sql w.pattern k →
      ((p.body sql pos k).Idle ↔ (p.body sql 0 k).Idle)) :
    (∀ r ∈ WhileLoop.rounds p.next move n (sql, pos), r.Idle) ↔
      ∀ j, w.Found (sql.drop pos) j → (p.body sql 0 (pos + j)).Idle := by
  induction n generalizing pos with
  | zero => omega
  | succ n ih =>
      have hfind := findInCode_eq_search h.pattern_ne hpos
      cases hsearch : search w.pattern (sql.drop pos) with
      | none =>
          have hnext : p.next (sql, pos) = none := by
            rw [Pass.next, h.pattern_eq, hfind, hsearch]
            rfl
          rw [WhileLoop.rounds_of_none hnext]
          refine iff_of_true (by simp) fun j hj => ?_
          exact absurd hj (Walk.not_found_of_search h.pattern_ne hsearch j)
      | some m =>
          have hfound := Walk.found_iff_of_search h.pattern_ne h.size_pos h.size_le hsearch
          have hmatch : MatchesAt sql w.pattern (pos + m) := by
            have := ((hfound m).2 (Or.inl rfl)).2
            rwa [MatchesAt, List.drop_drop] at this
          have hnext : p.next (sql, pos) = some (p.body sql pos (pos + m)) := by
            rw [Pass.next, h.pattern_eq, hfind, hsearch, Option.map_some, Option.map_some,
              Nat.add_comm]
          have hsize := h.size_le _ hmatch
          have hpositive := h.size_pos _ hmatch
          have hbound := hmatch.bound h.pattern_ne
          rw [List.length_drop] at hsize
          rw [WhileLoop.rounds_of_some hnext, List.forall_mem_cons, hstart _ (by omega) hmatch]
          simp only [List.drop_drop] at hfound
          by_cases hidle : (p.body sql 0 (pos + m)).Idle
          · have hround := (hstart _ (by omega) hmatch).2 hidle
            have hmove : move (sql, pos) (p.body sql pos (pos + m)) =
                (sql, pos + m + w.size (sql.drop (pos + m))) := by
              rw [move, h.next_eq _ _ _ hmatch hround, apply, hround, edit_nil]
            rw [hmove, ih (by omega) (by omega) (h.idle_iff sql _ · hmatch hidle)]
            constructor
            · rintro ⟨-, hrest⟩ j hj
              rcases (hfound j).1 hj with rfl | ⟨l, rfl, hl⟩
              · exact hidle
              · rw [← Nat.add_assoc] at hl
                have := hrest l hl
                rwa [show pos + (m + w.size (sql.drop (pos + m)) + l) =
                  pos + m + w.size (sql.drop (pos + m)) + l by omega]
            · refine fun hall => ⟨hidle, fun l hl => ?_⟩
              rw [Nat.add_assoc pos] at hl
              have := hall _ ((hfound _).2 (Or.inr ⟨l, rfl, hl⟩))
              rwa [show pos + m + w.size (sql.drop (pos + m)) + l =
                pos + (m + w.size (sql.drop (pos + m)) + l) by omega]
          · exact iff_of_false (fun hall => hidle hall.1)
              fun hall => hidle (hall m ((hfound m).2 (Or.inl rfl)))

/-- The rounds of a pass replace nothing if no match in the query is one that it replaces. -/
theorem Pass.Pauses.idle_rounds_iff {p : Pass} {w : Walk} (h : p.Pauses w) (sql : Text) :
    (∀ r ∈ p.rounds sql, r.Idle) ↔ ∀ i, w.Found sql i → (p.body sql 0 i).Idle := by
  have hfuel : sql.length - 0 < 2 * sql.length + 1 := by omega
  have hfrom := h.idle_from hfuel (Nat.zero_le _) (fun _ _ _ => Iff.rfl)
  rw [List.drop_zero] at hfrom
  simp only [Nat.zero_add] at hfrom
  exact hfrom

/-! ### Matches in code -/

/-- `find_in_code` sees the pattern at the position. -/
def CodeMatch (sql pattern : Text) (i : ℕ) : Prop := InCode sql i ∧ MatchesAt sql pattern i

lemma MatchesAt.getElem? {sql pattern : Text} {i k : ℕ} (h : MatchesAt sql pattern i)
    (hk : k < pattern.length) :
    sql[i + k]?.map Char.toUpper = pattern[k]?.map Char.toUpper := by
  have hget := congrArg (fun t => t[k]?) h.upper
  simpa [List.getElem?_take_of_lt hk] using hget

/-- The walk that goes on behind the first character of a match. -/
def seek (pattern : Text) : Walk := ⟨pattern, fun _ => 1, fun _ _ => none⟩

/-- Nothing that is skipped begins within the pattern. -/
def isPlainPattern (pattern : Text) : Bool :=
  [squote, dquote, backtick, '-', '/'].all fun c => c.toUpper ∉ pattern.map Char.toUpper

lemma isPlain_of_match {pattern s : Text} (h : isPlainPattern pattern = true)
    (hmatch : ciStartsWith pattern s = true) : ∀ c ∈ s.take pattern.length, isPlain c = true := by
  refine plain_of_ciStartsWith (fun c hc => ?_) hmatch
  exact of_decide_eq_true (List.all_eq_true.1 h c (mem_of_not_isPlain hc))

lemma seek_found_iff {pattern : Text} (hne : pattern ≠ []) (hplain : isPlainPattern pattern = true)
    {sql : Text} {i : ℕ} : (seek pattern).Found sql i ↔ CodeMatch sql pattern i := by
  refine and_congr_left fun _ => Walk.starts_iff (fun _ _ => Nat.one_pos) ?_ ?_
  · intro s hmatch c hc
    exact isPlain_of_match hplain hmatch c
      (List.take_subset_take_left s (List.length_pos_iff.2 hne) hc)
  · rintro j k - hk hlt
    exact absurd hlt (Nat.not_lt.2 hk)

/-- A pass whose rounds go on behind the first character of the match, or never replace nothing. -/
lemma pauses_seek {p : Pass} (hne : p.pattern ≠ [])
    (hbody : ∀ sql i j pos, p.body sql i pos = p.body sql j pos)
    (hnext : ∀ sql i, (p.body sql 0 i).Idle → (p.body sql 0 i).next = i + 1) :
    p.Pauses (seek p.pattern) where
  pattern_eq := rfl
  pattern_ne := hne
  size_pos _ _ := Nat.one_pos
  size_le s hmatch := (List.length_pos_iff.2 hne).trans_le (ciStartsWith_length hmatch)
  next_eq sql pos i _ hidle := by
    rw [hbody sql pos 0] at hidle ⊢
    exact hnext sql i hidle
  idle_iff sql i k _ _ _ _ := by rw [hbody]

/-! ### The first pass -/

def rollupWalk : Walk := ⟨" WITH ROLLUP".toList, fun _ => 12, fun _ _ => none⟩

lemma rfindFrom_ge {sql pattern : Text} {before n pos g : ℕ} {last : Option ℕ}
    (h : rfindFrom sql pattern before n pos last = some g) : last = some g ∨ pos ≤ g := by
  induction n generalizing pos last with
  | zero => exact Or.inl h
  | succ n ih =>
      rw [rfindFrom] at h
      split at h
      · exact Or.inl h
      · rename_i found hfound
        have hpos := (findInCode_matches hfound).1
        split_ifs at h
        · exact Or.inl h
        · refine Or.inr ?_
          rcases ih h with hg | hg
          · cases hg
            exact hpos
          · omega

/-- Once a match has been found, there is a last one. -/
lemma rfindFrom_some (sql pattern : Text) (before n pos g : ℕ) :
    (rfindFrom sql pattern before n pos (some g)).isSome = true := by
  induction n generalizing pos g with
  | zero => rfl
  | succ n ih =>
      rw [rfindFrom]
      split
      · rfl
      · split_ifs
        · rfl
        · exact ih _ _

/-- Nothing is found backwards if the first match lies behind. -/
lemma rfindInCode_eq_none_iff {sql pattern : Text} {before : ℕ} :
    rfindInCode sql pattern before = none ↔
      ∀ g, findInCode sql pattern 0 = some g → before < g := by
  rw [rfindInCode, rfindFrom]
  cases hfind : findInCode sql pattern 0 with
  | none => simp
  | some g =>
      simp only [Option.some.injEq, forall_eq']
      split_ifs with hbefore
      · simpa using hbefore
      · have hsome := rfindFrom_some sql pattern before sql.length (g + 1) g
        refine iff_of_false (fun hnone => ?_) hbefore
        rw [hnone] at hsome
        cases hsome

/-- What is found backwards lies behind every place that the first match lies behind. -/
lemma lt_of_rfindInCode {sql pattern : Text} {lo before g : ℕ}
    (hfirst : ∀ f, findInCode sql pattern 0 = some f → lo < f)
    (h : rfindInCode sql pattern before = some g) : lo < g := by
  rw [rfindInCode, rfindFrom] at h
  cases hfind : findInCode sql pattern 0 with
  | none =>
      rw [hfind] at h
      cases h
  | some f =>
      have hf := hfirst f hfind
      simp only [hfind] at h
      split_ifs at h
      rcases rfindFrom_ge h with heq | hge
      · cases heq
        exact hf
      · omega

/-- The first match in code. -/
lemma findInCode_lt_iff {sql pattern : Text} (hne : pattern ≠ [])
    (hplain : isPlainPattern pattern = true) {before : ℕ} :
    (∀ g, findInCode sql pattern 0 = some g → before < g) ↔
      ∀ g, CodeMatch sql pattern g → before < g := by
  have hpos : ∀ s, ciStartsWith (seek pattern).pattern s = true → 0 < (seek pattern).size s :=
    fun _ _ => Nat.one_pos
  have hle : ∀ s, ciStartsWith (seek pattern).pattern s = true →
      (seek pattern).size s ≤ s.length := fun s hmatch =>
    (List.length_pos_iff.2 hne).trans_le (ciStartsWith_length hmatch)
  rw [findInCode_eq_search hne (Nat.zero_le _), List.drop_zero]
  simp only [← seek_found_iff hne hplain]
  cases hsearch : search pattern sql with
  | none =>
      refine iff_of_true (by simp) fun g hg => ?_
      exact absurd hg (Walk.not_found_of_search (w := seek pattern) hne hsearch g)
  | some k =>
      have hfound := Walk.found_iff_of_search (w := seek pattern) hne hpos hle hsearch
      simp only [Option.map_some, Option.some.injEq, forall_eq', Nat.add_zero]
      constructor
      · intro hk g hg
        rcases (hfound g).1 hg with rfl | ⟨j, rfl, -⟩
        · exact hk
        · omega
      · exact fun hall => hall k ((hfound k).2 (Or.inl rfl))

lemma rollup_idle_iff {sql : Text} {pos i : ℕ} :
    (rollup sql pos i).Idle ↔
      ∀ g, rfindInCode sql "GROUP BY ".toList i = some g → g < pos := by
  rw [Round.Idle, rollup]
  cases rfindInCode sql "GROUP BY ".toList i with
  | none => simp [skipTo]
  | some g =>
      simp only [Option.some.injEq, forall_eq']
      split_ifs with hfrom hcols
      · exact iff_of_false (by simp) (by omega)
      · exact iff_of_false (by simp) (by omega)
      · exact iff_of_true rfl (by omega)

/-- The characters of `WITH ROLLUP` begin no match within it. -/
lemma rollupWalk_apart {sql : Text} {i : ℕ} (hi : MatchesAt sql " WITH ROLLUP".toList i) :
    rollupWalk.Apart sql i := by
  rintro j k rfl hk hlt hmatch
  have hno : ∀ k < 12, 0 < k → ∃ m < 12 - k, (" WITH ROLLUP".toList[k + m]?).map Char.toUpper ≠
      (" WITH ROLLUP".toList[m]?).map Char.toUpper := by decide
  obtain ⟨m, hm, hne⟩ := hno k hlt hk
  have hlen : " WITH ROLLUP".toList.length = 12 := by decide
  replace hmatch : MatchesAt sql " WITH ROLLUP".toList j := hmatch
  have hfirst := hmatch.getElem? (k := k + m) (by omega)
  have hsecond := hi.getElem? (k := m) (by omega)
  rw [← Nat.add_assoc, hsecond] at hfirst
  exact hne hfirst.symm

lemma rollupPass_pauses : rollupPass.Pauses rollupWalk where
  pattern_eq := rfl
  pattern_ne := by decide
  size_pos _ _ := Nat.succ_pos 11
  size_le _ hmatch := ciStartsWith_length hmatch
  next_eq sql pos i _ hidle := by
    show (rollup sql pos i).next = i + 12
    replace hidle : (rollup sql pos i).ranges = [] := hidle
    rcases rollup_cases sql pos i with h | ⟨g, -, -, -, ⟨-, h⟩ | ⟨-, t, h⟩⟩
    · rw [h]
      rfl
    · rw [h] at hidle
      cases hidle
    · rw [h] at hidle
      cases hidle
  idle_iff sql i k hi hidle hik _ := by
    show (rollup sql (i + 12) k).Idle ↔ (rollup sql 0 k).Idle
    replace hidle : (rollup sql 0 i).Idle := hidle
    replace hik : i + 12 ≤ k := hik
    rw [rollup_idle_iff] at hidle
    rw [rollup_idle_iff, rollup_idle_iff]
    -- a GROUP BY behind the first match does not begin within it
    have hnone : rfindInCode sql "GROUP BY ".toList i = none := by
      rw [Option.eq_none_iff_forall_ne_some]
      exact fun g hg => Nat.not_lt_zero g (hidle g hg)
    have hfirst := rfindInCode_eq_none_iff.1 hnone
    refine forall₂_congr fun g hg => iff_of_false (fun hlt => ?_) (Nat.not_lt_zero g)
    have hgroup := (rfindInCode_matches hg).2
    have hig := lt_of_rfindInCode hfirst hg
    obtain ⟨m, rfl⟩ := Nat.exists_eq_add_of_lt hig
    have hno : ∀ m < 11, (" WITH ROLLUP".toList[m + 1]?).map Char.toUpper ≠
        ("GROUP BY ".toList[0]?).map Char.toUpper := by decide
    replace hi : MatchesAt sql " WITH ROLLUP".toList i := hi
    have hlen : " WITH ROLLUP".toList.length = 12 := by decide
    have hletter := hi.getElem? (k := m + 1) (by omega)
    have hgroup := hgroup.getElem? (k := 0) (by decide)
    rw [Nat.add_zero, Nat.add_assoc, hletter] at hgroup
    exact hno m (by omega) hgroup

/-! ### What is replaced -/

/-- A number and a comma follow, with blanks around the number. -/
def offsetFollows (s : Text) : Bool :=
  let rest := s.drop (spaces s)
  let behind := rest.drop (digits rest).length
  !(digits rest).isEmpty && behind[spaces behind]? = some ','

/-- In the query as it is, a pass replaces what begins at the position.  Of two JOINs that share a
blank the pass only looks at the first one. -/
inductive Rewritable (sql : Text) : ℕ → Prop
  | rollup {g i : ℕ} (hgroup : CodeMatch sql "GROUP BY ".toList g)
      (hrollup : CodeMatch sql " WITH ROLLUP".toList i) (hle : g ≤ i) : Rewritable sql (i + 1)
  | convert {i comma : ℕ} (h : CodeMatch sql "CONVERT(".toList i)
      (hword : (sql.take i).getLast?.any isIdentChar = false)
      (hcall : (convertScan (sql.drop (i + 8)) (i + 8) 1 none).2 = (0, some comma)) :
      Rewritable sql i
  | currentTime {kw : Text × Text} {i : ℕ} (hkw : kw ∈ timeKeywords) (h : CodeMatch sql kw.1 i)
      (hclose : ')' ∈ sql.drop (i + kw.1.length)) : Rewritable sql i
  | straightJoin {i : ℕ} (h : CodeMatch sql "STRAIGHT_JOIN".toList i) : Rewritable sql i
  | join {i : ℕ} (h : joinWalk.Found sql i)
      (hqualifier : isOneOf qualifiers (wordBefore Char.isAlpha sql i) = false)
      (hcond : hasCondition (sql.drop (i + 6)) = false) : Rewritable sql (i + 1)
  | regexp {kw : Text × Text} {i : ℕ} (hkw : kw ∈ regexpKeywords) (h : CodeMatch sql kw.1 i) :
      Rewritable sql (i + 1)
  | selectHint {hint : Text} {i : ℕ} (hhint : hint ∈ selectHints) (h : CodeMatch sql hint i) :
      Rewritable sql i
  | indexHint {hint : Text} {i : ℕ} (hhint : hint ∈ indexHints) (h : CodeMatch sql hint i)
      (hclose : ')' ∈ sql.drop (i + hint.length)) : Rewritable sql i
  | limit {i : ℕ} (h : CodeMatch sql "LIMIT ".toList i)
      (hoffset : offsetFollows (sql.drop (i + 6)) = true) : Rewritable sql i

lemma find_single_eq_none_iff {c : Char} {s : Text} : find [c] s = none ↔ c ∉ s := by
  induction s with
  | nil => simp [find]
  | cons d s ih =>
      by_cases hc : c = d
      · simp [find, List.isPrefixOf, hc]
      · simp [find, List.isPrefixOf, hc, ih]

section idle

variable {sql : Text} {i : ℕ}

lemma convert_idle_iff : (convert sql i).Idle ↔
    ((sql.take i).getLast?.any isIdentChar = false →
      ∀ comma, (convertScan (sql.drop (i + 8)) (i + 8) 1 none).2 ≠ (0, some comma)) := by
  rw [Round.Idle, convert]
  cases (sql.take i).getLast?.any isIdentChar with
  | true => simp [skipTo]
  | false =>
      rcases convertScan (sql.drop (i + 8)) (i + 8) 1 none with ⟨stop, depth, comma⟩
      cases depth <;> cases comma <;> simp [skipTo]

lemma convert_next (h : (convert sql i).Idle) : (convert sql i).next = i + 1 := by
  rw [Round.Idle, convert] at h
  rw [convert]
  split_ifs at h ⊢
  · rfl
  · split at h
    · cases h
    · rfl

lemma currentTime_idle_iff {keyword replacement : Text} :
    (currentTime keyword replacement sql i).Idle ↔ ')' ∉ sql.drop (i + keyword.length) := by
  rw [← find_single_eq_none_iff, Round.Idle, currentTime]
  cases find [')'] (sql.drop (i + keyword.length)) <;> simp [skipTo]

lemma currentTime_next {keyword replacement : Text}
    (h : (currentTime keyword replacement sql i).Idle) :
    (currentTime keyword replacement sql i).next = i + 1 := by
  rw [currentTime_idle_iff, ← find_single_eq_none_iff] at h
  rw [currentTime, h]
  rfl

lemma straightJoin_not_idle : ¬ (straightJoin sql i).Idle := by
  rw [Round.Idle, straightJoin]
  split_ifs <;> simp

lemma join_idle_iff : (join sql i).Idle ↔
    (isOneOf qualifiers (wordBefore Char.isAlpha sql i) = false →
      hasCondition (sql.drop (i + 6)) = true) := by
  rw [Round.Idle, join, ← qualifiers]
  cases isOneOf qualifiers (wordBefore Char.isAlpha sql i) <;>
    cases hasCondition (sql.drop (i + 6)) <;> simp [skipTo]

lemma join_next (h : (join sql i).Idle) : (join sql i).next = i + 6 := by
  rw [Round.Idle, join] at h
  rw [join]
  split_ifs at h ⊢
  · rfl
  · rfl

lemma indexHint_idle_iff {hint : Text} :
    (indexHint hint sql i).Idle ↔ ')' ∉ sql.drop (i + hint.length) := by
  rw [← find_single_eq_none_iff, Round.Idle, indexHint]
  cases find [')'] (sql.drop (i + hint.length)) <;> simp [skipTo]

lemma indexHint_next {hint : Text} (h : (indexHint hint sql i).Idle) :
    (indexHint hint sql i).next = i + 1 := by
  rw [indexHint_idle_iff, ← find_single_eq_none_iff] at h
  rw [indexHint, h]
  rfl

lemma limit_idle_iff : (limit sql i).Idle ↔ offsetFollows (sql.drop (i + 6)) = false := by
  rw [Round.Idle, limit, offsetFollows]
  simp only [List.drop_drop, List.getElem?_drop]
  cases (digits (sql.drop (i + 6 + spaces (sql.drop (i + 6))))).isEmpty with
  | true => simp [skipTo]
  | false =>
      simp only [Bool.not_false, Bool.true_and, Nat.add_assoc]
      split_ifs <;> simp_all [skipTo]

end idle

lemma joinPass_pauses : joinPass.Pauses joinWalk where
  pattern_eq := rfl
  pattern_ne := by decide
  size_pos _ _ := Nat.succ_pos 5
  size_le _ hmatch := ciStartsWith_length hmatch
  next_eq _ _ _ _ hidle := join_next hidle
  idle_iff _ _ _ _ _ _ _ := Iff.rfl

lemma limitPass_pauses : limitPass.Pauses limitWalk where
  pattern_eq := rfl
  pattern_ne := by decide
  size_pos := limitPass_walks.size_pos
  size_le _ hmatch := limitWalk_size_le hmatch
  next_eq sql _ i hi hidle := by
    show (limit sql i).next = i + limitWalk.size (sql.drop i)
    replace hidle : (limit sql i).ranges = [] := hidle
    have hle : i ≤ sql.length := (Nat.le_add_right _ _).trans (hi.bound (by decide))
    have happend := limit_append (sql.take i) (sql.drop i)
    rw [List.take_append_drop, List.length_take_of_le hle] at happend
    rw [happend, List.map_eq_nil_iff] at hidle
    rw [happend, size_limitWalk, hidle]
    rfl
  idle_iff _ _ _ _ _ _ _ := Iff.rfl

lemma limitWalk_found_iff {sql : Text} {i : ℕ} :
    limitWalk.Found sql i ↔ CodeMatch sql "LIMIT ".toList i :=
  and_congr_left fun hi =>
    Walk.starts_iff limitPass_walks.size_pos (fun _ => limitWalk_plain) (limitWalk_apart hi)

lemma rollupWalk_found_iff {sql : Text} {i : ℕ} :
    rollupWalk.Found sql i ↔ CodeMatch sql " WITH ROLLUP".toList i := by
  have hplain : isPlainPattern " WITH ROLLUP".toList = true := by decide
  exact and_congr_left fun hi => Walk.starts_iff (fun _ _ => Nat.succ_pos 11)
    (fun _ hmatch => isPlain_of_match hplain hmatch) (rollupWalk_apart hi)

lemma rollup_idle_zero_iff {sql : Text} {i : ℕ} :
    (rollup sql 0 i).Idle ↔ ∀ g, CodeMatch sql "GROUP BY ".toList g → i < g := by
  rw [← findInCode_lt_iff (by decide) (by decide), ← rfindInCode_eq_none_iff, rollup_idle_iff,
    Option.eq_none_iff_forall_ne_some]
  exact forall_congr' fun g => imp_congr_right fun _ => by simp

/-- The rounds of a pass of this kind, by the matches in code. -/
lemma idle_seek_iff {p : Pass} (hne : p.pattern ≠ []) (hplain : isPlainPattern p.pattern = true)
    (hbody : ∀ sql i j pos, p.body sql i pos = p.body sql j pos)
    (hnext : ∀ sql i, (p.body sql 0 i).Idle → (p.body sql 0 i).next = i + 1) (sql : Text) :
    (∀ r ∈ p.rounds sql, r.Idle) ↔ ∀ i, CodeMatch sql p.pattern i → (p.body sql 0 i).Idle := by
  rw [(pauses_seek hne hbody hnext).idle_rounds_iff]
  simp only [seek_found_iff hne hplain]

section passes

variable (sql : Text)

lemma idle_rollupPass_iff : (∀ r ∈ rollupPass.rounds sql, r.Idle) ↔
    ∀ i, CodeMatch sql " WITH ROLLUP".toList i →
      ∀ g, CodeMatch sql "GROUP BY ".toList g → i < g := by
  rw [rollupPass_pauses.idle_rounds_iff]
  simp only [rollupWalk_found_iff]
  exact forall₂_congr fun i _ => rollup_idle_zero_iff

lemma idle_convertPass_iff : (∀ r ∈ convertPass.rounds sql, r.Idle) ↔
    ∀ i, CodeMatch sql "CONVERT(".toList i → (convert sql i).Idle :=
  idle_seek_iff (p := convertPass) (by decide) (by decide) (fun _ _ _ _ => rfl)
    (fun _ _ => convert_next) sql

lemma idle_timePass_iff {kw : Text × Text} (hkw : kw ∈ timeKeywords) :
    (∀ r ∈ (timePass kw).rounds sql, r.Idle) ↔
      ∀ i, CodeMatch sql kw.1 i → (currentTime kw.1 kw.2 sql i).Idle := by
  have hplain : ∀ kw ∈ timeKeywords, isPlainPattern kw.1 = true := by decide
  exact idle_seek_iff (p := timePass kw) (timeKeywords_ne_nil kw hkw) (hplain kw hkw)
    (fun _ _ _ _ => rfl) (fun _ _ => currentTime_next) sql

lemma idle_straightJoinPass_iff : (∀ r ∈ straightJoinPass.rounds sql, r.Idle) ↔
    ∀ i, CodeMatch sql "STRAIGHT_JOIN".toList i → (straightJoin sql i).Idle :=
  idle_seek_iff (p := straightJoinPass) (by decide) (by decide) (fun _ _ _ _ => rfl)
    (fun _ _ h => absurd h straightJoin_not_idle) sql

lemma idle_regexpPass_iff {kw : Text × Text} (hkw : kw ∈ regexpKeywords) :
    (∀ r ∈ (regexpPass kw).rounds sql, r.Idle) ↔
      ∀ i, CodeMatch sql kw.1 i → (regexp kw.1 kw.2 i).Idle := by
  have hplain : ∀ kw ∈ regexpKeywords, isPlainPattern kw.1 = true := by decide
  exact idle_seek_iff (p := regexpPass kw) (regexpKeywords_ne_nil kw hkw) (hplain kw hkw)
    (fun _ _ _ _ => rfl) (fun _ _ h => absurd h (List.cons_ne_nil _ _)) sql

lemma idle_selectHintPass_iff {hint : Text} (hhint : hint ∈ selectHints) :
    (∀ r ∈ (selectHintPass hint).rounds sql, r.Idle) ↔
      ∀ i, CodeMatch sql hint i → (selectHint hint i).Idle := by
  have hplain : ∀ hint ∈ selectHints, isPlainPattern hint = true := by decide
  exact idle_seek_iff (p := selectHintPass hint) (selectHints_ne_nil hint hhint)
    (hplain hint hhint) (fun _ _ _ _ => rfl) (fun _ _ h => absurd h (List.cons_ne_nil _ _)) sql

lemma idle_indexHintPass_iff {hint : Text} (hhint : hint ∈ indexHints) :
    (∀ r ∈ (indexHintPass hint).rounds sql, r.Idle) ↔
      ∀ i, CodeMatch sql hint i → (indexHint hint sql i).Idle := by
  have hplain : ∀ hint ∈ indexHints, isPlainPattern hint = true := by decide
  exact idle_seek_iff (p := indexHintPass hint) (indexHints_ne_nil hint hhint)
    (hplain hint hhint) (fun _ _ _ _ => rfl) (fun _ _ => indexHint_next) sql

lemma idle_limitPass_iff : (∀ r ∈ limitPass.rounds sql, r.Idle) ↔
    ∀ i, CodeMatch sql "LIMIT ".toList i → (limit sql i).Idle := by
  rw [limitPass_pauses.idle_rounds_iff]
  simp only [limitWalk_found_iff]
  rfl

end passes

section membership

variable {kw : Text × Text} {hint : Text}

lemma mem_passes_timePass (h : kw ∈ timeKeywords) : timePass kw ∈ passes := by
  have hmem := List.mem_map_of_mem (f := timePass) h
  simp only [passes, laterPasses, List.mem_cons, List.mem_append, hmem, true_or, or_true]

lemma mem_passes_regexpPass (h : kw ∈ regexpKeywords) : regexpPass kw ∈ passes := by
  have hmem := List.mem_map_of_mem (f := regexpPass) h
  simp only [passes, laterPasses, List.mem_cons, List.mem_append, hmem, true_or, or_true]

lemma mem_passes_selectHintPass (h : hint ∈ selectHints) : selectHintPass hint ∈ passes := by
  have hmem := List.mem_map_of_mem (f := selectHintPass) h
  simp only [passes, laterPasses, List.mem_cons, List.mem_append, hmem, true_or, or_true]

lemma mem_passes_indexHintPass (h : hint ∈ indexHints) : indexHintPass hint ∈ passes := by
  have hmem := List.mem_map_of_mem (f := indexHintPass) h
  simp only [passes, laterPasses, List.mem_cons, List.mem_append, hmem, true_or, or_true]

end membership

/-- What is rewritable is replaced by one of the passes. -/
lemma Rewritable.not_idle {sql : Text} {i : ℕ} (h : Rewritable sql i) :
    ∃ p ∈ passes, ¬ ∀ r ∈ p.rounds sql, r.Idle := by
  cases h with
  | @rollup g i hgroup hrollup hle =>
      refine ⟨rollupPass, by simp [passes], fun hidle => ?_⟩
      exact absurd ((idle_rollupPass_iff sql).1 hidle i hrollup g hgroup) (Nat.not_lt.2 hle)
  | @convert _ comma h hword hcall =>
      refine ⟨convertPass, by simp [passes, laterPasses], fun hidle => ?_⟩
      exact convert_idle_iff.1 ((idle_convertPass_iff sql).1 hidle _ h) hword comma hcall
  | @currentTime kw _ hkw h hclose =>
      refine ⟨timePass kw, mem_passes_timePass hkw, fun hidle => ?_⟩
      exact currentTime_idle_iff.1 ((idle_timePass_iff sql hkw).1 hidle _ h) hclose
  | straightJoin h =>
      refine ⟨straightJoinPass, by simp [passes, laterPasses], fun hidle => ?_⟩
      exact straightJoin_not_idle ((idle_straightJoinPass_iff sql).1 hidle _ h)
  | @join i h hqualifier hcond =>
      refine ⟨joinPass, by simp [passes, laterPasses], fun hidle => ?_⟩
      have hjoin := join_idle_iff.1 ((joinPass_pauses.idle_rounds_iff sql).1 hidle i h) hqualifier
      rw [hcond] at hjoin
      cases hjoin
  | @regexp kw i hkw h =>
      refine ⟨regexpPass kw, mem_passes_regexpPass hkw, fun hidle => ?_⟩
      exact absurd ((idle_regexpPass_iff sql hkw).1 hidle i h) (List.cons_ne_nil _ _)
  | @selectHint hint _ hhint h =>
      refine ⟨selectHintPass hint, mem_passes_selectHintPass hhint, fun hidle => ?_⟩
      exact absurd ((idle_selectHintPass_iff sql hhint).1 hidle _ h) (List.cons_ne_nil _ _)
  | @indexHint hint _ hhint h hclose =>
      refine ⟨indexHintPass hint, mem_passes_indexHintPass hhint, fun hidle => ?_⟩
      exact indexHint_idle_iff.1 ((idle_indexHintPass_iff sql hhint).1 hidle _ h) hclose
  | limit h hoffset =>
      refine ⟨limitPass, by simp [passes, laterPasses], fun hidle => ?_⟩
      have hlimit := limit_idle_iff.1 ((idle_limitPass_iff sql).1 hidle _ h)
      rw [hoffset] at hlimit
      cases hlimit

/-- **The rounds of the passes replace nothing exactly if nothing in the query is rewritable.** -/
theorem idle_passes_iff (sql : Text) :
    (∀ p ∈ passes, ∀ r ∈ p.rounds sql, r.Idle) ↔ ∀ i, ¬ Rewritable sql i := by
  constructor
  · intro hidle i hi
    obtain ⟨p, hp, hnot⟩ := hi.not_idle
    exact hnot (hidle p hp)
  · intro hnone
    refine List.forall_mem_cons.2 ⟨?_, forall_laterPasses ?_ (fun kw hkw => ?_) ?_ ?_
      (fun kw hkw => ?_) (fun hint hhint => ?_) (fun hint hhint => ?_) ?_⟩
    · rw [idle_rollupPass_iff]
      intro i hi g hg
      by_contra hle
      exact hnone _ (.rollup hg hi (Nat.not_lt.1 hle))
    · rw [idle_convertPass_iff]
      intro i hi
      rw [convert_idle_iff]
      exact fun hword comma hcall => hnone i (.convert hi hword hcall)
    · rw [idle_timePass_iff sql hkw]
      intro i hi
      rw [currentTime_idle_iff]
      exact fun hclose => hnone i (.currentTime hkw hi hclose)
    · rw [idle_straightJoinPass_iff]
      exact fun i hi => absurd (.straightJoin hi) (hnone i)
    · rw [joinPass_pauses.idle_rounds_iff]
      intro i hi
      show (join sql i).Idle
      rw [join_idle_iff]
      intro hqualifier
      by_contra hcond
      exact hnone _ (.join hi hqualifier (Bool.eq_false_iff.2 hcond))
    · rw [idle_regexpPass_iff sql hkw]
      exact fun i hi => absurd (.regexp hkw hi) (hnone _)
    · rw [idle_selectHintPass_iff sql hhint]
      exact fun i hi => absurd (.selectHint hhint hi) (hnone i)
    · rw [idle_indexHintPass_iff sql hhint]
      intro i hi
      rw [indexHint_idle_iff]
      exact fun hclose => hnone i (.indexHint hhint hi hclose)
    · rw [idle_limitPass_iff]
      intro i hi
      rw [limit_idle_iff]
      by_contra hoffset
      exact hnone i (.limit hi (eq_true_of_ne_false hoffset))

end DuckdbEngine.Pushdown
