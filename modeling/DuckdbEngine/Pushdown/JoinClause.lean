/-
`JOIN` with and without a condition.

DuckDB wants `CROSS JOIN` where MariaDB allows `JOIN` without a condition.  The pass that
rewrites it does not parse the FROM clause: it looks for ` JOIN ` between blanks, at the
letters in front of it, and for the first of some words behind it, as letters anywhere in
the text.
-/
import DuckdbEngine.Pushdown.Forward

namespace DuckdbEngine.Pushdown

open Sql TextEdits Lexing

/-! ### The pass as a walk -/

/-- The words that make a `JOIN` another kind of join. -/
def qualifiers : List String := ["CROSS", "NATURAL", "LEFT", "RIGHT", "INNER", "FULL", "OUTER"]

/-- The letters at the end of a text, with blanks behind them. -/
def lastWord (s : Text) : Text := ((s.reverse.dropWhile (· = ' ')).takeWhile Char.isAlpha).reverse

def joinWalk : Walk where
  pattern := " JOIN ".toList
  size _ := 6
  put before rest :=
    if isOneOf qualifiers (lastWord before) || hasCondition (rest.drop 6) then none
    else some " CROSS JOIN ".toList

lemma put_joinWalk (before rest : Text) : joinWalk.put before rest =
    if isOneOf qualifiers (lastWord before) || hasCondition (rest.drop 6) then none
    else some " CROSS JOIN ".toList := rfl

lemma size_joinWalk (rest : Text) : joinWalk.size rest = 6 := rfl

lemma join_append (before rest : Text) :
    join (before ++ rest) before.length =
      match joinWalk.put before rest with
      | none => skipTo (before.length + 6)
      | some new => { ranges := [⟨before.length, before.length + 6, new⟩],
                      next := before.length + 12 } := by
  have hword : wordBefore Char.isAlpha (before ++ rest) before.length = lastWord before := by
    rw [wordBefore, List.take_left, lastWord]
  rw [join, hword, List.drop_length_add_append, put_joinWalk]
  rw [show (["CROSS", "NATURAL", "LEFT", "RIGHT", "INNER", "FULL", "OUTER"] : List String) =
    qualifiers from rfl]
  cases isOneOf qualifiers (lastWord before) <;> cases hasCondition (rest.drop 6) <;> rfl

lemma joinWalk_put_eq {before rest new : Text} (h : joinWalk.put before rest = some new) :
    new = " CROSS JOIN ".toList := by
  rw [put_joinWalk] at h
  split_ifs at h
  exact (Option.some.inj h).symm

lemma joinPass_walks : joinPass.Walks joinWalk where
  pattern_eq := rfl
  pattern_ne := by decide
  size_pos _ _ := Nat.succ_pos 5
  body_eq _ _ _ _ := rfl
  text_eq before rest _ := by
    show apply (before ++ rest) (join (before ++ rest) before.length) = _
    rw [join_append, apply, size_joinWalk]
    cases joinWalk.put before rest with
    | none => simp [skipTo]
    | some new => simp [Range.replace]
  next_eq before rest hmatch := by
    have hlen : 6 ≤ rest.length := ciStartsWith_length hmatch
    congr 1
    show (join (before ++ rest) before.length).next = _
    rw [join_append, size_joinWalk]
    cases h : joinWalk.put before rest with
    | none => simp [skipTo, hlen]
    | some new =>
        rw [joinWalk_put_eq h, Option.getD_some, List.length_append]
        rfl

/-! ### The word in front of the match -/

/-- The texts end in the same letters, up to case, because they agree from a blank on that is
followed by something else. -/
def SameEnd (out before : Text) : Prop :=
  out = before ∨ ∃ x y t t', out = x ++ ' ' :: t ∧ before = y ++ ' ' :: t' ∧
    t.map Char.toUpper = t'.map Char.toUpper ∧ ∃ c ∈ t, c ≠ ' '

lemma lastWord_map (t : Text) : lastWord (t.map Char.toUpper) = (lastWord t).map Char.toUpper := by
  have hblank :
      ((fun c : Char => decide (c = ' ')) ∘ Char.toUpper) = fun c => decide (c = ' ') := by
    ext c
    simp [toUpper_eq_blank]
  have halpha : Char.isAlpha ∘ Char.toUpper = Char.isAlpha := by
    ext1 c
    exact isAlpha_toUpper c
  rw [lastWord, lastWord, ← List.map_reverse, List.dropWhile_map, List.takeWhile_map, hblank,
    halpha, List.map_reverse]

/-- What stands before the blank does not matter. -/
lemma lastWord_append {t : Text} (x : Text) (h : ∃ c ∈ t, c ≠ ' ') :
    lastWord (x ++ ' ' :: t) = lastWord t := by
  have hdrop : t.reverse.dropWhile (· = ' ') ≠ [] := by
    obtain ⟨c, hc, hne⟩ := h
    intro hnil
    have hall := List.dropWhile_eq_nil_iff.1 hnil c (List.mem_reverse.2 hc)
    exact hne (by simpa using hall)
  have hstop : (' ' :: x.reverse).takeWhile Char.isAlpha = [] :=
    List.takeWhile_cons_of_neg (by decide)
  rw [lastWord, lastWord, List.reverse_append, List.reverse_cons, List.append_assoc,
    List.singleton_append, List.dropWhile_append, if_neg (by simpa using hdrop),
    List.takeWhile_append, hstop, List.append_nil]
  split_ifs with hlen
  · rw [List.IsPrefix.eq_of_length (List.takeWhile_prefix _) hlen]
  · rfl

lemma SameEnd.isOneOf_lastWord {out before : Text} (h : SameEnd out before) (ws : List String) :
    isOneOf ws (lastWord out) = isOneOf ws (lastWord before) := by
  rcases h with rfl | ⟨x, y, t, t', rfl, rfl, hupper, hne⟩
  · rfl
  · have hne' : ∃ c ∈ t', c ≠ ' ' := by
      obtain ⟨c, hc, hne⟩ := hne
      have hmem : c.toUpper ∈ t'.map Char.toUpper := hupper ▸ List.mem_map_of_mem hc
      obtain ⟨d, hd, hdc⟩ := List.mem_map.1 hmem
      refine ⟨d, hd, fun hblank => hne (toUpper_eq_blank.1 ?_)⟩
      rw [← hdc, toUpper_eq_blank.2 hblank]
    have hwords : (lastWord t).map Char.toUpper = (lastWord t').map Char.toUpper := by
      rw [← lastWord_map, ← lastWord_map, hupper]
    rw [lastWord_append x hne, lastWord_append y hne', isOneOf, isOneOf, hwords]

lemma ciStartsWith_join_iff {s : Text} :
    ciStartsWith " JOIN ".toList s = true ↔ (s.take 6).map Char.toUpper = " JOIN ".toList := by
  rw [ciStartsWith, decide_eq_true_eq]
  rfl

lemma joinWalk_plain {s : Text} (h : ciStartsWith " JOIN ".toList s = true) :
    ∀ c ∈ s.take 6, isPlain c = true := by
  refine plain_of_ciStartsWith (fun c hc => ?_) h
  have hno : ∀ c ∈ [squote, dquote, backtick, '-', '/'],
      c.toUpper ∉ " JOIN ".toList.map Char.toUpper := forall_mem_of_all (by decide)
  exact hno c (mem_of_not_isPlain hc)

/-- The walk may look at the query instead of what has been put out. -/
lemma joinWalk_steady : joinWalk.Steady SameEnd where
  start := Or.inl rfl
  keep := by
    rintro out before u (rfl | ⟨x, y, t, t', rfl, rfl, hupper, c, hc, hne⟩)
    · exact Or.inl rfl
    · refine Or.inr ⟨x, y, t ++ u, t' ++ u, by simp, by simp, ?_, c,
        List.mem_append_left u hc, hne⟩
      rw [List.map_append, List.map_append, hupper]
  put out before rest new _ hmatch hput := by
    have hupper := ciStartsWith_join_iff.1 hmatch
    rw [size_joinWalk, joinWalk_put_eq hput]
    cases h : rest.take 6 with
    | nil => rw [h] at hupper; exact absurd hupper (by decide)
    | cons b t =>
        rw [h, List.map_cons, show " JOIN ".toList = ' ' :: "JOIN ".toList from rfl,
          List.cons.injEq] at hupper
        refine Or.inr ⟨out ++ " CROSS".toList, before, "JOIN ".toList, t, by simp, ?_,
          hupper.2.symm ▸ by decide, 'J', by decide, by decide⟩
        rw [toUpper_eq_blank.1 hupper.1]
  same out before rest h _ := by
    rw [put_joinWalk, put_joinWalk, h.isOneOf_lastWord]

/-! ### The words behind the match -/

/-- `ON` or `USING` begins at the position. -/
def ConditionAt (t : Text) (k : ℕ) : Prop :=
  ∃ w ∈ ["ON ", "USING ", "USING("], MatchesAt t w.toList k

/-- The next `JOIN`, the next clause or the end of the statement begins at the position. -/
def ClauseAt (t : Text) (k : ℕ) : Prop :=
  (∃ w ∈ ["JOIN ", "WHERE ", "GROUP ", "ORDER ", "LIMIT ", "HAVING "], MatchesAt t w.toList k) ∨
    t[k]? = some ';'

/-- A condition begins somewhere, and no clause before it.  A word may be any letters. -/
def ConditionFirst (t : Text) : Prop := ∃ k, ConditionAt t k ∧ ∀ m < k, ¬ ClauseAt t m

theorem hasCondition_iff (t : Text) : hasCondition t = true ↔ ConditionFirst t := by
  induction t with
  | nil =>
      refine ⟨fun h => (by cases h), ?_⟩
      rintro ⟨k, ⟨w, hw, hmatch⟩, -⟩
      rw [MatchesAt, List.drop_nil] at hmatch
      exact absurd hmatch
        ((by decide : ∀ w ∈ ["ON ", "USING ", "USING("], ¬ ciStartsWith w.toList [] = true) w hw)
  | cons c s ih =>
      have hcond : ConditionAt (c :: s) 0 ↔
          (["ON ", "USING ", "USING("].any fun w => ciStartsWith w.toList (c :: s)) = true := by
        rw [List.any_eq_true]
        rfl
      have hclause : ClauseAt (c :: s) 0 ↔
          ((["JOIN ", "WHERE ", "GROUP ", "ORDER ", "LIMIT ", "HAVING "].any
            fun w => ciStartsWith w.toList (c :: s)) || c = ';') = true := by
        rw [Bool.or_eq_true, List.any_eq_true, decide_eq_true_eq, ClauseAt, List.getElem?_cons_zero,
          Option.some.injEq]
        rfl
      -- behind the first character the positions are those of the rest
      have hstep : (∃ k, ConditionAt (c :: s) (k + 1) ∧ ∀ m < k + 1, ¬ ClauseAt (c :: s) m) ↔
          ¬ ClauseAt (c :: s) 0 ∧ ConditionFirst s := by
        constructor
        · rintro ⟨k, hk, hm⟩
          exact ⟨hm 0 (Nat.succ_pos k), k, hk, fun m hlt => hm (m + 1) (Nat.succ_lt_succ hlt)⟩
        · rintro ⟨h0, k, hk, hm⟩
          refine ⟨k, hk, fun m hlt => ?_⟩
          cases m with
          | zero => exact h0
          | succ m => exact hm m (Nat.lt_of_succ_lt_succ hlt)
      have hfirst : ConditionFirst (c :: s) ↔
          ConditionAt (c :: s) 0 ∨ ¬ ClauseAt (c :: s) 0 ∧ ConditionFirst s := by
        rw [← hstep, ConditionFirst, ← Nat.or_exists_add_one]
        simp
      rw [hfirst, hcond, hclause, hasCondition, ← ih]
      split_ifs with h₁ h₂ <;> simp_all

/-! ### The joins of a FROM clause -/

/-- A `JOIN` in a query: what stands before it, the white space around the keyword, what follows,
and whether the join has a condition. -/
structure JoinUse where
  before : Text
  gap₁ : Text
  keyword : Text
  gap₂ : Text
  rest : Text
  conditional : Bool

/-- Table references and joins without a qualifier; a condition is the text from the white space
in front of its `ON` or `USING` on. -/
inductive FromClause
  | table (ref : Text)
  | join (left : FromClause) (gap₁ keyword gap₂ : Text) (right : FromClause)
      (condition : Option Text)

namespace FromClause

def text : FromClause → Text
  | table ref => ref
  | join left gap₁ keyword gap₂ right condition =>
      left.text ++ gap₁ ++ keyword ++ gap₂ ++ right.text ++ condition.getD []

/-- The joins of the clause, with what stands around it. -/
def joins : FromClause → Text → Text → List JoinUse
  | table _, _, _ => []
  | join left gap₁ keyword gap₂ right condition, before, after =>
      left.joins before (gap₁ ++ keyword ++ gap₂ ++ right.text ++ condition.getD [] ++ after) ++
        ⟨before ++ left.text, gap₁, keyword, gap₂, right.text ++ condition.getD [] ++ after,
          condition.isSome⟩ ::
        right.joins (before ++ left.text ++ gap₁ ++ keyword ++ gap₂) (condition.getD [] ++ after)

end FromClause

namespace JoinUse

def text (j : JoinUse) : Text := j.before ++ j.gap₁ ++ j.keyword ++ j.gap₂ ++ j.rest

/-- The position in front of the keyword. -/
def pos (j : JoinUse) : ℕ := j.before.length + j.gap₁.length - 1

/-- The keyword is `JOIN`, with white space around it and something else before it. -/
structure Valid (j : JoinUse) : Prop where
  keyword_eq : j.keyword.map Char.toUpper = "JOIN".toList
  gap₁_ne : j.gap₁ ≠ []
  gap₂_ne : j.gap₂ ≠ []
  gap_space : ∀ c ∈ j.gap₁ ++ j.gap₂, isSpace c = true
  not_after_join : ¬ " JOIN".toList <:+ j.before.map Char.toUpper

/-- The pass turns the join into a `CROSS JOIN`. -/
def Crossed (j : JoinUse) : Prop := ∃ old, joinWalk.Puts j.text j.pos old " CROSS JOIN ".toList

/-- The pass takes the keyword for an unqualified `JOIN`: it stands between blanks, in what
`find_in_code` sees as code, and the letters in front of it are no qualifier. -/
def Seen (j : JoinUse) : Prop :=
  j.gap₁.getLast? = some ' ' ∧ j.gap₂.head? = some ' ' ∧ InCode j.text j.pos ∧
    isOneOf qualifiers (lastWord (j.text.take j.pos)) = false

/-- The pass reads the join as it is meant. -/
def Read (j : JoinUse) : Prop :=
  if j.conditional then j.Seen → ConditionFirst (j.gap₂.tail ++ j.rest)
  else j.Seen ∧ ¬ ConditionFirst (j.gap₂.tail ++ j.rest)

end JoinUse

/-- All joins of a clause stand in the same query. -/
lemma FromClause.text_of_mem_joins {clause : FromClause} {before after : Text} :
    ∀ j ∈ clause.joins before after, j.text = before ++ clause.text ++ after := by
  induction clause generalizing before after with
  | table ref => simp [FromClause.joins]
  | join left gap₁ keyword gap₂ right condition ihl ihr =>
      intro j hj
      rw [FromClause.joins, List.mem_append, List.mem_cons] at hj
      rcases hj with hj | rfl | hj
      · rw [ihl j hj]
        simp [FromClause.text]
      · simp [JoinUse.text, FromClause.text]
      · rw [ihr j hj]
        simp [FromClause.text]

section use

variable {j : JoinUse} (h : j.Valid)
include h

/-- The query around the keyword and the two characters next to it. -/
lemma JoinUse.Valid.exists_text : ∃ g b d g', j.gap₁ = g ++ [b] ∧ j.gap₂ = d :: g' ∧
    j.text = (j.before ++ g) ++ (b :: (j.keyword ++ d :: (g' ++ j.rest))) ∧
    j.pos = (j.before ++ g).length := by
  obtain ⟨d, g', hgap₂⟩ := List.exists_cons_of_ne_nil h.gap₂_ne
  have hgap₁ := (List.dropLast_append_getLast h.gap₁_ne).symm
  refine ⟨_, _, d, g', hgap₁, hgap₂, ?_, ?_⟩
  · conv_lhs => rw [JoinUse.text, hgap₁, hgap₂]
    simp
  · have hpos := List.length_pos_iff.2 h.gap₁_ne
    rw [JoinUse.pos, List.length_append, List.length_dropLast]
    omega

lemma JoinUse.Valid.length_keyword (b d : Char) : (b :: (j.keyword ++ [d])).length = 6 := by
  have hlen := congrArg List.length h.keyword_eq
  rw [List.length_map] at hlen
  simp [hlen]

lemma JoinUse.Valid.match_iff (b d : Char) (v : Text) :
    ciStartsWith " JOIN ".toList (b :: (j.keyword ++ d :: v)) = true ↔ b = ' ' ∧ d = ' ' := by
  have hsplit : b :: (j.keyword ++ d :: v) = b :: (j.keyword ++ [d]) ++ v := by simp
  rw [ciStartsWith_join_iff, hsplit, ← h.length_keyword b d, List.take_left, List.map_cons,
    List.map_append, h.keyword_eq, ← toUpper_eq_blank, ← @toUpper_eq_blank d]
  simp

/-- No other match of the pattern reaches the keyword. -/
lemma JoinUse.Valid.apart (hlast : j.gap₁.getLast? = some ' ') : joinWalk.Apart j.text j.pos := by
  obtain ⟨g, b, d, g', hgap₁, hgap₂, htext, hpos⟩ := h.exists_text
  have hb : b = ' ' := by simpa [hgap₁] using hlast
  rintro i k hi hk hlt hmatch
  rw [size_joinWalk] at hlt
  have hupper := ciStartsWith_join_iff.1 hmatch
  -- the blank is the last character of the other match
  have hk5 : k = 5 := by
    have hget : (((j.text.drop i).take 6).map Char.toUpper)[k]? = " JOIN ".toList[k]? := by
      rw [hupper]
    rw [List.getElem?_map, List.getElem?_take_of_lt hlt, List.getElem?_drop, ← hi, htext, hpos,
      List.getElem?_append_right le_rfl, Nat.sub_self, List.getElem?_cons_zero, hb] at hget
    exact (by decide : ∀ k < 6, 0 < k →
      Option.map Char.toUpper (some ' ') = " JOIN ".toList[k]? → k = 5) k hlt hk hget
  subst hk5
  have hend : (j.before ++ g).map Char.toUpper =
      (j.text.take i).map Char.toUpper ++ " JOIN".toList := by
    have hfive : ((j.text.drop i).take 5).map Char.toUpper = " JOIN".toList := by
      have := congrArg (List.take 5) hupper
      rwa [← List.map_take, List.take_take] at this
    have htake : j.before ++ g = j.text.take (i + 5) := by
      rw [← hi, hpos, htext, List.take_left]
    rw [htake, List.take_add, List.map_append, hfive]
  cases hg : g.getLast? with
  | none =>
      rw [List.getLast?_eq_none_iff.1 hg, List.append_nil] at hend
      exact h.not_after_join ⟨_, hend.symm⟩
  | some a =>
      have hspace : isSpace a = true := by
        refine h.gap_space a ?_
        rw [hgap₁]
        simp [List.mem_of_getLast? hg]
      have hlastN := congrArg List.getLast? hend
      rw [List.map_append, List.getLast?_append, List.getLast?_map, hg] at hlastN
      have hN : a.toUpper = 'N' := by simpa using hlastN
      have hle := toNat_of_isSpace hspace
      rw [toUpper_of_lt (by omega)] at hN
      rw [hN] at hle
      exact absurd hle (by decide)

/-- When the join becomes a `CROSS JOIN`. -/
lemma JoinUse.Valid.crossed_iff :
    j.Crossed ↔ j.Seen ∧ ¬ ConditionFirst (j.gap₂.tail ++ j.rest) := by
  obtain ⟨g, b, d, g', hgap₁, hgap₂, htext, hpos⟩ := h.exists_text
  have hdrop : j.text.drop j.pos = b :: (j.keyword ++ d :: (g' ++ j.rest)) := by
    rw [htext, hpos, List.drop_left]
  have hmatch : MatchesAt j.text " JOIN ".toList j.pos ↔
      j.gap₁.getLast? = some ' ' ∧ j.gap₂.head? = some ' ' := by
    rw [MatchesAt, hdrop, h.match_iff, hgap₁, hgap₂]
    simp
  have hput : joinWalk.put (j.text.take j.pos) (j.text.drop j.pos) = some " CROSS JOIN ".toList ↔
      isOneOf qualifiers (lastWord (j.text.take j.pos)) = false ∧
        ¬ ConditionFirst (j.gap₂.tail ++ j.rest) := by
    have hbehind : (j.text.drop j.pos).drop 6 = j.gap₂.tail ++ j.rest := by
      rw [hdrop, hgap₂, ← h.length_keyword b d,
        show b :: (j.keyword ++ d :: (g' ++ j.rest)) = b :: (j.keyword ++ [d]) ++ (g' ++ j.rest) by
          simp, List.drop_left, List.tail_cons]
    rw [← hasCondition_iff, put_joinWalk, hbehind]
    cases isOneOf qualifiers (lastWord (j.text.take j.pos)) <;>
      cases hasCondition (j.gap₂.tail ++ j.rest) <;> simp
  have hcode (hlast : j.gap₁.getLast? = some ' ') :
      Starts joinWalk.lexer j.text j.pos ∧ codeSkip (j.text.drop j.pos) = 0 ↔
        InCode j.text j.pos :=
    Walk.starts_iff (fun _ _ => Nat.succ_pos 5) (fun s => joinWalk_plain) (h.apart hlast)
  have hne : j.text.drop j.pos ≠ [] := by
    rw [hdrop]
    exact List.cons_ne_nil _ _
  simp only [JoinUse.Crossed, JoinUse.Seen, Walk.puts_iff (w := joinWalk) fun _ _ => Nat.succ_pos 5]
  constructor
  · rintro ⟨old, hfound, hm, -, hnew, -⟩
    have hgaps := hmatch.1 hm
    have hnew := hput.1 hnew
    exact ⟨⟨hgaps.1, hgaps.2, (hcode hgaps.1).1 hfound, hnew.1⟩, hnew.2⟩
  · rintro ⟨⟨hlast, hhead, hin, hword⟩, hcond⟩
    exact ⟨_, (hcode hlast).2 hin, hmatch.2 ⟨hlast, hhead⟩, hne, hput.2 ⟨hword, hcond⟩, rfl⟩

end use

/-- **The joins of a FROM clause are rewritten as they should be exactly if the pass reads each of
them as it is meant.** -/
theorem joins_rewritten_iff (sql : Text) (clause : FromClause) (before after : Text)
    (hsql : straightJoinPass.run sql = before ++ clause.text ++ after)
    (hvalid : ∀ j ∈ clause.joins before after, j.Valid) :
    joinPass.run (straightJoinPass.run sql) =
        ((joinWalk.edits [] (pieces joinWalk.lexer (before ++ clause.text ++ after))).flatMap
          fun p => p.1.getD p.2) ∧
      (∀ j ∈ clause.joins before after, j.text = before ++ clause.text ++ after) ∧
      ((∀ j ∈ clause.joins before after, j.Crossed ↔ j.conditional = false) ↔
        ∀ j ∈ clause.joins before after, j.Read) := by
  refine ⟨?_, FromClause.text_of_mem_joins, ?_⟩
  · rw [hsql, joinPass_walks.run_edits joinWalk_steady]
  · refine forall₂_congr fun j hj => ?_
    rw [(hvalid j hj).crossed_iff, JoinUse.Read]
    cases j.conditional with
    | false => simp
    | true => simp

/-- A join without a condition becomes a `CROSS JOIN`. -/
theorem join_becomes_cross :
    (JoinUse.mk "SELECT * FROM a".toList " ".toList "JOIN".toList " ".toList "b WHERE 1".toList
      false).Crossed :=
  (List.forall_mem_singleton.1
    ((joins_rewritten_iff "SELECT * FROM a JOIN b WHERE 1".toList
      (.join (.table "a".toList) " ".toList "JOIN".toList " ".toList (.table "b".toList) none)
      "SELECT * FROM ".toList " WHERE 1".toList (by decide +kernel)
      (List.forall_mem_singleton.2
        ⟨by decide, by decide, by decide, forall_mem_of_all (by decide), by decide⟩)).2.2.2
      (List.forall_mem_singleton.2
        ⟨⟨rfl, rfl, ⟨⟨(pieces codeLexer "SELECT * FROM a JOIN b WHERE 1".toList).take 15,
          by decide +kernel, by decide +kernel⟩, by decide⟩, by decide⟩,
          fun h => absurd ((hasCondition_iff _).2 h) (by decide)⟩))).2 rfl

/-- An alias that ends in a clause word hides the condition, and one that ends in `on` or `left`
looks like a condition or a qualifier. -/
theorem join_misread :
    initScanSql "SELECT * FROM a JOIN my_order ON a.x = my_order.x".toList =
        "SELECT * FROM a CROSS JOIN my_order ON a.x = my_order.x".toList ∧
      initScanSql "SELECT * FROM a JOIN version v".toList =
        "SELECT * FROM a JOIN version v".toList ∧
      initScanSql "SELECT * FROM t_left JOIN b".toList =
        "SELECT * FROM t_left JOIN b".toList := by
  decide +kernel

end DuckdbEngine.Pushdown
