/-
Where `find_in_code` finds a pattern in a calm query.

The pieces that the search goes through begin where the lexemes begin, and nothing is
found in a region (`Calm.starts_region`): it is skipped as a whole, or it is a comment with
`#` that holds none of the patterns.  So a pattern is found in a word or at a single
character (`Calm.exists_lexeme`), and the words of the pattern are those of the query
(`Calm.exists_word`, `Calm.exists_blank`).
-/
import Mathlib.Data.List.Induction
import Mathlib.Data.List.Infix
import DuckdbEngine.Pushdown.Lexemes
import DuckdbEngine.Pushdown.Matches
import DuckdbEngine.Sql.Backticks

namespace DuckdbEngine.Pushdown

open Sql Lexing
open Lexeme (word mark region)

/-! ### The search in code -/

lemma InCode.next {s : Text} {i : ℕ} (h : InCode s i) (hi : i < s.length) :
    Starts codeLexer s (i + 1) := by
  rw [starts_add_iff h.1]
  obtain ⟨c, t, hct⟩ := List.exists_cons_of_ne_nil (List.ne_nil_of_length_pos
    (by rw [List.length_drop]; omega : 0 < (s.drop i).length))
  have hsize : codeLexer.size (c :: t) = 1 := by
    rw [← hct, Lexer.size, codeLexer, h.2]
    rfl
  rw [hct, starts_cons_iff, hsize]
  exact Or.inr ⟨0, rfl, starts_zero _ _⟩

/-- What is found from a place where a piece begins is code. -/
lemma inCode_of_search {pattern : Text} (hne : pattern ≠ []) {s : Text} {k : ℕ}
    (h : search pattern s = some k) : InCode s k := by
  induction s using cut_induction codeLexer generalizing k with
  | nil =>
      have hshort : ([] : Text).length < pattern.length := List.length_pos_iff.2 hne
      rw [search_short hshort] at h
      cases h
  | cons c s ih =>
      by_cases hskip : codeSkip (c :: s) = 0
      · cases hmatch : ciStartsWith pattern (c :: s) with
        | true =>
            rw [search_hit hskip hmatch] at h
            cases h
            exact ⟨starts_zero _ _, hskip⟩
        | false =>
            rw [search_step hne hskip hmatch] at h
            obtain ⟨k, hk, rfl⟩ := Option.map_eq_some_iff.1 h
            have hsize : codeLexer.size (c :: s) = 1 := by
              rw [Lexer.size, codeLexer, hskip]
              rfl
            rw [hsize] at ih
            obtain ⟨hstart, hcode⟩ := ih hk
            refine ⟨starts_cons_iff.2 (Or.inr ⟨k, ?_, ?_⟩), hcode⟩
            · rw [hsize]
              simp [Nat.add_comm]
            · rwa [hsize]
      · rw [search_skip hne hskip] at h
        obtain ⟨k, hk, rfl⟩ := Option.map_eq_some_iff.1 h
        have hsize : codeLexer.size (c :: s) = codeSkip (c :: s) := by
          rw [Lexer.size, codeLexer]
          exact max_eq_right (Nat.pos_of_ne_zero hskip)
        have hlen : ((c :: s).take (codeSkip (c :: s))).length = codeSkip (c :: s) :=
          List.length_take_of_le (codeSkip_le _)
        rw [hsize] at ih
        obtain ⟨hstart, hcode⟩ := ih hk
        rw [List.drop_drop, Nat.add_comm] at hcode
        refine ⟨starts_cons_iff.2 (Or.inr ⟨k, ?_, ?_⟩), hcode⟩
        · rw [hsize, hlen, Nat.add_comm]
        · rwa [hsize]

lemma codeMatch_of_findInCode {sql pattern : Text} (hne : pattern ≠ []) {pos i : ℕ}
    (hpos : Starts codeLexer sql pos) (h : findInCode sql pattern pos = some i) :
    CodeMatch sql pattern i := by
  have hmatch := (findInCode_matches h).2.1
  rw [findInCode_eq_search hne (starts_le hpos)] at h
  obtain ⟨k, hk, rfl⟩ := Option.map_eq_some_iff.1 h
  obtain ⟨hstart, hcode⟩ := inCode_of_search hne hk
  rw [List.drop_drop, Nat.add_comm] at hcode
  refine ⟨⟨?_, hcode⟩, hmatch⟩
  rw [Nat.add_comm]
  exact (starts_add_iff hpos k).2 hstart

lemma codeMatch_of_rfindFrom {sql pattern : Text} (hne : pattern ≠ []) {before n pos g : ℕ}
    {last : Option ℕ} (hpos : Starts codeLexer sql pos)
    (hlast : ∀ g, last = some g → CodeMatch sql pattern g)
    (h : rfindFrom sql pattern before n pos last = some g) : CodeMatch sql pattern g := by
  induction n generalizing pos last with
  | zero => exact hlast g h
  | succ n ih =>
      rw [rfindFrom] at h
      split at h
      · exact hlast g h
      · rename_i found hfound
        have hmatch := codeMatch_of_findInCode hne hpos hfound
        have hlen := hmatch.2.bound hne
        have := List.length_pos_iff.2 hne
        split_ifs at h
        · exact hlast g h
        · refine ih (hmatch.1.next (by omega)) (fun k hk => ?_) h
          cases hk
          exact hmatch

lemma codeMatch_of_rfindInCode {sql pattern : Text} (hne : pattern ≠ []) {before g : ℕ}
    (h : rfindInCode sql pattern before = some g) : CodeMatch sql pattern g :=
  codeMatch_of_rfindFrom hne (starts_zero _ _) (fun _ hnone => by cases hnone) h

/-! ### Regions -/

/-- A closing quote closes in front of anything but another one. -/
lemma quoteEnd_append {q : Char} {b : Bool} {s u v : Text}
    (h : quoteEnd q b (s ++ u) = some s.length) (hu : u ≠ []) (hv : v.head? ≠ some q) :
    quoteEnd q b (s ++ v) = some s.length := by
  have hadd : ∀ {o : Option ℕ} {n m : ℕ}, o.map (· + m) = some (n + m) → o = some n := by
    simp [Option.map_eq_some_iff]
  induction s using List.twoStepInduction with
  | nil => exact absurd (quoteEnd_bounds h).1 (Nat.lt_irrefl 0)
  | singleton c =>
      obtain ⟨d, u, rfl⟩ := List.exists_cons_of_ne_nil hu
      rw [List.singleton_append, quoteEnd] at h
      split_ifs at h with hesc hq hd
      · obtain ⟨n, -, hn⟩ := Option.map_eq_some_iff.1 h
        simp at hn
      · exact absurd (quoteEnd_bounds (hadd (n := 0) h)).1 (Nat.lt_irrefl 0)
      · obtain ⟨n, -, hn⟩ := Option.map_eq_some_iff.1 h
        simp at hn
      · cases v with
        | nil => rw [List.append_nil, quoteEnd, if_pos (not_not.1 hq)]; rfl
        | cons e v =>
            have he : e ≠ q := fun he => hv (by rw [he]; rfl)
            rw [List.singleton_append, quoteEnd, if_neg hesc, if_neg hq, if_neg he]
            rfl
  | cons_cons c d s ih₁ ih₂ =>
      rw [List.cons_append, List.cons_append, quoteEnd] at h ⊢
      split_ifs at h ⊢ with hesc hq hd
      · rw [ih₁ (hadd h)]
        rfl
      · rw [← List.cons_append, ih₂ d (hadd h)]
        rfl
      · rw [ih₁ (hadd h)]
        rfl
      · simp only [Option.some.injEq, List.length_cons] at h
        omega

/-- What is found within the first part is found there whatever follows. -/
lemma find_within {pattern s u v : Text} {k : ℕ} (h : find pattern (s ++ u) = some k)
    (hk : k + pattern.length ≤ s.length) : find pattern (s ++ v) = some k := by
  have hfind := find_append h (s.drop (k + pattern.length) ++ v)
  rwa [List.take_append_of_le_length hk, ← List.append_assoc, List.take_append_drop] at hfind

lemma quoteEnd_closed {q x : Char} {b : Bool} {s u v : Text}
    (h : (quoteEnd q b (s ++ x :: u)).getD (s ++ x :: u).length = s.length)
    (hv : v.head? ≠ some q) : quoteEnd q b (s ++ v) = some s.length := by
  cases hq : quoteEnd q b (s ++ x :: u) with
  | none =>
      rw [hq] at h
      simp at h
  | some n =>
      rw [hq, Option.getD_some] at h
      rw [h] at hq
      exact quoteEnd_append hq (by simp) hv

lemma lineEnd_closed {x : Char} {s u v : Text}
    (h : ((s ++ x :: u).takeWhile (· ≠ '\n')).length = s.length)
    (hv : x = '\n' → v.head? = some '\n') :
    ((s ++ v).takeWhile (· ≠ '\n')).length = s.length := by
  rw [List.takeWhile_append] at h ⊢
  split_ifs at h ⊢ with hall
  · -- the line ends right behind the region
    rw [List.length_append] at h
    have hx : x = '\n' := by
      by_contra hx
      rw [List.takeWhile_cons_of_pos (by simpa using hx), List.length_cons] at h
      omega
    obtain ⟨v, rfl⟩ := List.head?_eq_some_iff.1 (hv hx)
    simp
  · exact h

lemma blockEnd_closed {s u v : Text} {n : ℕ} (hn : s.length + 2 < n)
    (h : ((find ['*', '/'] (s ++ u)).map (· + 4)).getD n = s.length + 2) :
    ∃ k, find ['*', '/'] (s ++ v) = some k ∧ k + 4 = s.length + 2 := by
  cases hfind : find ['*', '/'] (s ++ u) with
  | none =>
      rw [hfind, Option.map_none, Option.getD_none] at h
      omega
  | some k =>
      rw [hfind, Option.map_some, Option.getD_some] at h
      exact ⟨k, find_within hfind (by simp only [List.length_cons, List.length_nil]; omega), h⟩

/-- `find_in_code` does not look further than one character behind what it skips. -/
lemma codeSkip_closed {r u v : Text} {x y : Char} (hr : r ≠ [])
    (h : codeSkip (r ++ x :: y :: u) = r.length)
    (hv : v.head? = some x ∧ isQuote x = false ∨
      x ≠ '\n' ∧ (r.head?.any isQuote = true → v.head? ≠ r.head?)) :
    codeSkip (r ++ v) = r.length := by
  obtain ⟨c, s, rfl⟩ := List.exists_cons_of_ne_nil hr
  have hquote : isQuote c = true → v.head? ≠ some c := by
    intro hc hhead
    rcases hv with ⟨hx, hxq⟩ | ⟨-, hne⟩
    · rw [hhead, Option.some.injEq] at hx
      rw [hx, hxq] at hc
      cases hc
    · exact hne hc hhead
  have hline : x = '\n' → v.head? = some '\n' := by
    intro hx
    rcases hv with ⟨hhead, -⟩ | ⟨hne, -⟩
    · rw [hhead, hx]
    · exact absurd hx hne
  rw [List.cons_append, codeSkip, List.length_cons] at h
  rw [List.cons_append, codeSkip, List.length_cons]
  split_ifs at h with h₁ h₂ h₃ h₄
  · rw [if_pos h₁, quoteEnd_closed (Nat.add_right_cancel h)
      (hquote (by rw [isQuote, h₁]; rfl))]
    rfl
  · rw [if_neg h₁, if_pos h₂, quoteEnd_closed (Nat.add_right_cancel h)
      (hquote (by simp [isQuote, h₂]))]
    rfl
  · rw [if_neg h₁, if_neg h₂]
    rw [Bool.and_eq_true, decide_eq_true_eq, decide_eq_true_eq] at h₃
    cases s with
    | nil =>
        rw [List.length_nil] at h
        omega
    | cons d s =>
        rw [List.cons_append, List.tail_cons, List.length_cons, Nat.add_right_cancel_iff] at h
        rw [List.cons_append, List.tail_cons, if_pos (by simpa using h₃), lineEnd_closed h hline]
        rfl
  · rw [Bool.and_eq_true, decide_eq_true_eq, decide_eq_true_eq] at h₄
    obtain ⟨rfl, hstar⟩ := h₄
    rw [if_neg h₁, if_neg h₂, if_neg (by simp)]
    cases s with
    | nil =>
        cases hfind : find ['*', '/'] (y :: u) with
        | none => simp [hfind] at h
        | some k => simp [hfind] at h
    | cons d s =>
        have hd : d = '*' := by simpa using hstar
        subst hd
        rw [List.cons_append, List.tail_cons] at h ⊢
        obtain ⟨k, hfind, hk⟩ := blockEnd_closed (v := v)
          (by simp only [List.length_cons, List.length_append]; omega) h
        rw [if_pos (by simp), hfind]
        exact hk

/-! ### The pieces of a calm query -/

lemma head?_of_ciStartsWith {c : Char} {pattern s : Text}
    (h : ciStartsWith (c :: pattern) s = true) :
    ∃ d t, s = d :: t ∧ d.toUpper = c.toUpper ∧ ciStartsWith pattern t = true := by
  cases s with
  | nil => simp [ciStartsWith] at h
  | cons d t =>
      simp only [ciStartsWith, List.length_cons, List.take_succ_cons, List.map_cons,
        List.cons.injEq, decide_eq_true_eq] at h
      exact ⟨d, t, rfl, h.1, decide_eq_true h.2⟩

lemma Lexeme.text_ne_nil {l : Lexeme} (h : l.WellFormed) : l.text ≠ [] := by
  cases l with
  | word w => exact h.1
  | mark c => exact List.cons_ne_nil _ _
  | region _ r =>
      rintro hnil
      replace hnil : r = [] := hnil
      subst hnil
      cases h

lemma isPlain_of_isWordChar {c : Char} (h : isWordChar c = true) : isPlain c = true := by
  by_contra hc
  have hmem := mem_of_not_isPlain (Bool.not_eq_true _ ▸ hc)
  simp only [List.mem_cons, List.not_mem_nil, or_false] at hmem
  rcases hmem with rfl | rfl | rfl | rfl | rfl <;> exact absurd h (by decide)

/-- A region begins with no character of a word and with none that a call has. -/
lemma not_opensRegion {c : Char} (h : isWordChar c = true ∨ c = ' ' ∨ c = '(') :
    opensRegion c = false := by
  rcases h with h | rfl | rfl
  · rw [opensRegion, isPlain_of_isWordChar h, Bool.not_true, Bool.false_or, decide_eq_false_iff_not]
    rintro rfl
    exact absurd h (by decide)
  · decide
  · decide

/-! ### Comments that are code for `find_in_code` -/

section mute

variable {r v : Text} {i : ℕ}

lemma searched_line : ∀ pattern ∈ searched, pattern ≠ [] ∧ '\n' ∉ pattern.map Char.toUpper := by
  decide

lemma isMute_drop (h : isMute r = true) (i : ℕ) :
    codeSkip (r.drop i) = 0 ∧ ∀ pattern ∈ searched, ciStartsWith pattern (r.drop i) = false := by
  have hall := List.all_eq_true.1 h (r.drop i) ((List.mem_tails _ _).2 (List.drop_suffix i r))
  rw [Bool.and_eq_true, decide_eq_true_eq, List.all_eq_true] at hall
  exact ⟨hall.1, fun pattern hp => by simpa using hall.2 pattern hp⟩

/-- No pattern goes on behind the end of a line. -/
lemma ciStartsWith_line {pattern t v : Text} (hpattern : '\n' ∉ pattern.map Char.toUpper)
    (ht : t.getLast? = some '\n') (h : ciStartsWith pattern (t ++ v) = true) :
    ciStartsWith pattern t = true := by
  rw [ciStartsWith, decide_eq_true_eq] at h ⊢
  rcases Nat.lt_or_ge t.length pattern.length with hlt | hle
  · refine absurd ?_ hpattern
    obtain ⟨t', rfl⟩ := List.getLast?_eq_some_iff.1 ht
    rw [← h, List.take_append, List.take_of_length_le hlt.le]
    simp only [List.map_append, List.mem_append]
    exact Or.inl (Or.inr (by decide))
  · rwa [List.take_append_of_le_length hle] at h

variable (hr : isMute r = true) (hend : r.getLast? = some '\n' ∨ v = []) (hi : i < r.length)
include hr hend hi

lemma isMute_code : codeSkip ((r ++ v).drop i) = 0 := by
  rcases hend with hlast | rfl
  · have hcode := (isMute_drop hr i).1
    rw [List.drop_append_of_le_length hi.le]
    obtain ⟨c, t, hct⟩ := List.exists_cons_of_ne_nil (List.ne_nil_of_length_pos
      (by rw [List.length_drop]; omega : 0 < (r.drop i).length))
    have hlast' : (c :: t).getLast? = some '\n' := by
      rw [← hct, List.getLast?_drop, if_neg (by omega), hlast]
    rw [hct] at hcode ⊢
    cases t with
    | nil =>
        cases hlast'
        exact codeSkip_plain (by decide) _
    | cons d t =>
        rw [List.cons_append, codeSkip_cons_eq_zero]
        rw [codeSkip_cons_eq_zero] at hcode
        exact hcode
  · rw [List.append_nil]
    exact (isMute_drop hr i).1

lemma isMute_not_match {pattern : Text} (hpattern : pattern ∈ searched) :
    ¬ MatchesAt (r ++ v) pattern i := by
  intro hmatch
  have hnone := (isMute_drop hr i).2 pattern hpattern
  rw [MatchesAt, List.drop_append_of_le_length hi.le] at hmatch
  rcases hend with hlast | rfl
  · have hlast' : (r.drop i).getLast? = some '\n' := by
      rw [List.getLast?_drop, if_neg (by omega), hlast]
    rw [ciStartsWith_line (searched_line pattern hpattern).2 hlast' hmatch] at hnone
    cases hnone
  · rw [List.append_nil, hnone] at hmatch
    cases hmatch

end mute

section calm

variable {prev : Option Lexeme} {l : Lexeme} {ls ks : List Lexeme}

lemma Calm.head?_spell (h : Calm prev (l :: ls)) : (spell (l :: ls)).head? = l.text.head? := by
  obtain ⟨c, t, hct⟩ := List.exists_cons_of_ne_nil (Lexeme.text_ne_nil h.1.formed)
  rw [spell_cons, hct]
  rfl

/-- A region is skipped as a whole, but for the end of its line, or it is mute. -/
lemma Calm.codeSkip_region {hinted : Bool} {r : Text} (h : Calm prev (region hinted r :: ls)) :
    codeSkip (r ++ spell ls) = r.length ∨
      (∃ r', r = r' ++ ['\n'] ∧ r' ≠ [] ∧ codeSkip (r ++ spell ls) = r'.length) ∨
      (isMute r = true ∧ (r.getLast? = some '\n' ∨ spell ls = [])) := by
  have hne : r ≠ [] := Lexeme.text_ne_nil h.1.formed
  rcases h.1.closed hinted r rfl with hskip | ⟨hlast, hskip | hmute⟩ | ⟨rfl, hskip | hmute⟩
  · refine Or.inl (codeSkip_closed hne hskip (Or.inr ⟨by decide, fun hquote => ?_⟩))
    cases ls with
    | nil =>
        obtain ⟨c, t, rfl⟩ := List.exists_cons_of_ne_nil hne
        simp
    | cons k ks =>
        rw [h.2.head?_spell]
        exact h.2.1.meets hquote
  · obtain ⟨r', rfl⟩ := List.getLast?_eq_some_iff.1 hlast
    rw [List.length_append, List.length_singleton, Nat.add_right_cancel_iff,
      List.append_assoc] at hskip
    have hne' : r' ≠ [] := by
      rintro rfl
      have hform : opensRegion '\n' = true := h.1.formed
      exact absurd hform (by decide)
    refine Or.inr (Or.inl ⟨r', rfl, hne', ?_⟩)
    rw [List.append_assoc]
    exact codeSkip_closed hne' hskip (Or.inl ⟨rfl, by decide⟩)
  · exact Or.inr (Or.inr ⟨hmute, Or.inl hlast⟩)
  · refine Or.inl ?_
    rwa [spell_nil, List.append_nil]
  · exact Or.inr (Or.inr ⟨hmute, Or.inr rfl⟩)

lemma size_codeLexer {s : Text} (h : codeSkip s ≠ 0) : codeLexer.size s = codeSkip s :=
  max_eq_right (Nat.pos_of_ne_zero h)

lemma size_codeLexer_of_code {s : Text} (h : codeSkip s = 0) : codeLexer.size s = 1 := by
  rw [Lexer.size, codeLexer, h]
  rfl

/-- The first piece of a text that begins with something that is skipped. -/
lemma starts_codeSkip {s : Text} (h : codeSkip s ≠ 0) {i : ℕ} :
    Starts codeLexer s i ↔
      i = 0 ∨ ∃ j, i = codeSkip s + j ∧ Starts codeLexer (s.drop (codeSkip s)) j := by
  cases s with
  | nil => exact absurd rfl h
  | cons c s =>
      rw [starts_cons_iff, size_codeLexer h, List.length_take_of_le (codeSkip_le _)]

/-- A single character is code between its neighbours. -/
lemma Calm.codeSkip_mark {c : Char} (h : Calm prev (mark c :: ls)) :
    codeSkip (c :: spell ls) = 0 := by
  by_cases hplain : isPlain c = true
  · exact codeSkip_plain hplain _
  · obtain ⟨-, hquote⟩ := h.1.formed
    have hmem := mem_of_not_isPlain (Bool.not_eq_true _ ▸ hplain)
    have hnext : (c = '-' → (spell ls).head? ≠ some '-') ∧
        (c = '/' → (spell ls).head? ≠ some '*') := by
      cases ls with
      | nil => simp
      | cons k ks =>
          rw [h.2.head?_spell]
          exact h.2.1.meets
    simp only [List.mem_cons, List.not_mem_nil, or_false] at hmem
    rcases hmem with rfl | rfl | rfl | rfl | rfl
    · exact absurd hquote (by decide)
    · exact absurd hquote (by decide)
    · exact absurd hquote (by decide)
    · have hminus := hnext.1 rfl
      simp [codeSkip, hminus, show '-' ≠ squote by decide, show '-' ≠ dquote by decide,
        show '-' ≠ backtick by decide]
    · have hstar := hnext.2 rfl
      simp [codeSkip, hstar, show '/' ≠ squote by decide, show '/' ≠ dquote by decide,
        show '/' ≠ backtick by decide]

/-- Code is passed character by character. -/
lemma starts_of_code {u v : Text} (h : ∀ i < u.length, codeSkip ((u ++ v).drop i) = 0) :
    Starts codeLexer (u ++ v) u.length := by
  induction u with
  | nil => exact starts_zero _ _
  | cons c u ih =>
      have hsize := size_codeLexer_of_code (h 0 (by simp))
      rw [List.drop_zero, List.cons_append] at hsize
      rw [List.cons_append, starts_cons_iff, hsize]
      refine Or.inr ⟨u.length, by simp [Nat.add_comm], ?_⟩
      exact ih fun i hi => h (i + 1) (by simpa using hi)

/-- A region is passed, and nothing is found in it. -/
lemma Calm.starts_region {hinted : Bool} {r : Text} (h : Calm prev (region hinted r :: ls)) :
    Starts codeLexer (r ++ spell ls) r.length ∧
      ∀ i < r.length, ∀ pattern ∈ searched, ¬ CodeMatch (r ++ spell ls) pattern i := by
  rcases h.codeSkip_region with hskip | ⟨r', rfl, hne, hskip⟩ | ⟨hmute, hend⟩
  · have hpos : 0 < r.length := List.length_pos_iff.2 (Lexeme.text_ne_nil h.1.formed)
    have hzero : codeSkip (r ++ spell ls) ≠ 0 := by omega
    refine ⟨(starts_codeSkip hzero).2 (Or.inr ⟨0, hskip.symm, starts_zero _ _⟩), ?_⟩
    rintro i hi pattern - ⟨hin, -⟩
    rcases (starts_codeSkip hzero).1 hin.1 with rfl | ⟨j, rfl, -⟩
    · exact hzero hin.2
    · omega
  · have hpos := List.length_pos_iff.2 hne
    have hzero : codeSkip ((r' ++ ['\n']) ++ spell ls) ≠ 0 := by omega
    have hlen : (r' ++ ['\n']).length = r'.length + 1 := by simp
    have hrest : ((r' ++ ['\n']) ++ spell ls).drop r'.length = '\n' :: spell ls := by
      rw [List.append_assoc, List.drop_left, List.singleton_append]
    refine ⟨(starts_codeSkip hzero).2 (Or.inr ⟨1, by omega, ?_⟩), ?_⟩
    · rw [hskip, hrest, starts_cons_iff, size_codeLexer_of_code (codeSkip_plain (by decide) _)]
      exact Or.inr ⟨0, rfl, starts_zero _ _⟩
    · -- only the end of the line is code
      rintro i hi pattern hpattern ⟨hin, hat⟩
      rcases (starts_codeSkip hzero).1 hin.1 with rfl | ⟨j, rfl, -⟩
      · exact hzero hin.2
      · rw [MatchesAt, show codeSkip ((r' ++ ['\n']) ++ spell ls) + j = r'.length by omega, hrest]
          at hat
        obtain ⟨hne', hline⟩ := searched_line pattern hpattern
        obtain ⟨c, t, rfl⟩ := List.exists_cons_of_ne_nil hne'
        obtain ⟨d, t', hdt, hd, -⟩ := head?_of_ciStartsWith hat
        cases hdt
        exact hline (by rw [List.map_cons, ← hd]; exact List.mem_cons_self)
  · exact ⟨starts_of_code fun i hi => isMute_code hmute hend hi,
      fun i hi pattern hpattern hmatch => isMute_not_match hmute hend hi hpattern hmatch.2⟩

/-- The pieces of the text begin where the lexemes begin. -/
lemma Calm.starts_text (h : Calm prev (l :: ls)) :
    Starts codeLexer (l.text ++ spell ls) l.text.length := by
  cases l with
  | word w =>
      refine (starts_plain_append fun c hc => ?_).2 (Or.inr ⟨0, rfl, starts_zero _ _⟩)
      exact isPlain_of_isWordChar (h.1.formed.2 c hc)
  | mark c =>
      have hsize := size_codeLexer_of_code h.codeSkip_mark
      show Starts codeLexer (c :: spell ls) 1
      rw [starts_cons_iff, hsize]
      exact Or.inr ⟨0, rfl, starts_zero _ _⟩
  | region hinted r => exact h.starts_region.1

lemma Calm.starts_append (h : Calm prev (ls ++ ks)) :
    Starts codeLexer (spell (ls ++ ks)) (spell ls).length := by
  induction ls generalizing prev with
  | nil => exact starts_zero _ _
  | cons l ls ih =>
      rw [List.cons_append] at h
      rw [List.cons_append, spell_cons, spell_cons, List.length_append,
        starts_add_iff h.starts_text, List.drop_left]
      exact ih h.2

/-- What is found in a calm query begins in a word or at a single character. -/
lemma Calm.exists_lexeme {pattern : Text} {p : Char} (h : Calm prev ls) {i : ℕ}
    (hsearched : p :: pattern ∈ searched) (hmatch : CodeMatch (spell ls) (p :: pattern) i) :
    ∃ us l vs k, ls = us ++ l :: vs ∧ i = (spell us).length + k ∧ k < l.text.length ∧
      (∀ hinted r, l ≠ region hinted r) ∧
      ciStartsWith (p :: pattern) (l.text.drop k ++ spell vs) = true := by
  induction ls generalizing prev i with
  | nil => exact absurd hmatch.2 (not_matchesAt_nil (by simp) i)
  | cons l ls ih =>
      obtain ⟨⟨hstart, hcode⟩, hat⟩ := hmatch
      rcases Nat.lt_or_ge i l.text.length with hlt | hge
      · refine ⟨[], l, ls, i, rfl, by simp, hlt, ?_, ?_⟩
        · rintro hinted r rfl
          exact h.starts_region.2 i hlt _ hsearched ⟨⟨hstart, hcode⟩, hat⟩
        · rwa [MatchesAt, spell_cons, List.drop_append_of_le_length hlt.le] at hat
      · obtain ⟨j, rfl⟩ := Nat.exists_eq_add_of_le hge
        have hdrop : (spell (l :: ls)).drop (l.text.length + j) = (spell ls).drop j := by
          rw [spell_cons, List.drop_append, Nat.add_sub_cancel_left,
            List.drop_of_length_le (Nat.le_add_right _ _), List.nil_append]
        rw [hdrop] at hcode
        rw [MatchesAt, hdrop] at hat
        rw [spell_cons, starts_add_iff h.starts_text, List.drop_left] at hstart
        obtain ⟨us, l', vs, k, rfl, rfl, hk, hl', hci⟩ := ih h.2 ⟨⟨hstart, hcode⟩, hat⟩
        refine ⟨l :: us, l', vs, k, rfl, ?_, hk, hl', hci⟩
        rw [spell_cons, List.length_append, Nat.add_assoc]

/-! ### Patterns and lexemes -/

lemma isWordChar_toUpper (c : Char) : isWordChar c.toUpper = isWordChar c := by
  by_cases h : 97 ≤ c.toNat ∧ c.toNat ≤ 122
  · have hc : c.isAlpha = true := isAlpha_iff.2 (Or.inr h)
    have hup : c.toUpper.isAlpha = true := (isAlpha_toUpper c).trans hc
    simp [isWordChar, Char.isAlphanum, hc, hup]
  · rw [toUpper_of_not_lower h]

lemma eq_of_toUpper_eq {c d : Char} (hc : c.isAlpha = false) (h : d.toUpper = c.toUpper) :
    d = c := by
  have hlower : ∀ {e : Char}, e.isAlpha = false → e.toUpper = e := fun he => by
    refine toUpper_of_not_lower fun hlow => ?_
    rw [isAlpha_iff.2 (Or.inr hlow)] at he
    cases he
  have hd : d.isAlpha = false := by rw [← isAlpha_toUpper, h, isAlpha_toUpper, hc]
  rwa [hlower hc, hlower hd] at h

/-- A pattern that begins with a word, up to its end, begins a text with this word. -/
lemma ciStartsWith_word {u w pattern s : Text} {c : Char} (hu : ∀ d ∈ u, isWordChar d = true)
    (hw : ∀ d ∈ w, isWordChar d = true) (hs : ∀ d ∈ s.head?, isWordChar d = false)
    (hc : isWordChar c = false) (h : ciStartsWith (u ++ c :: pattern) (w ++ s) = true) :
    w.map Char.toUpper = u.map Char.toUpper ∧ ciStartsWith (c :: pattern) s = true := by
  induction u generalizing w with
  | nil =>
      cases w with
      | nil => exact ⟨rfl, h⟩
      | cons d w =>
          obtain ⟨e, t, het, he, -⟩ := head?_of_ciStartsWith h
          cases het
          have hd := hw d List.mem_cons_self
          rw [← isWordChar_toUpper, he, isWordChar_toUpper, hc] at hd
          cases hd
  | cons a u ih =>
      obtain ⟨e, t, het, he, ht⟩ := head?_of_ciStartsWith h
      have ha := hu a List.mem_cons_self
      rw [← isWordChar_toUpper, ← he, isWordChar_toUpper] at ha
      cases w with
      | nil =>
          rw [List.nil_append] at het
          rw [het] at hs
          rw [hs e rfl] at ha
          cases ha
      | cons d w =>
          cases het
          obtain ⟨hmap, hrest⟩ := ih (fun d hd => hu d (List.mem_cons_of_mem a hd))
            (fun d hd => hw d (List.mem_cons_of_mem _ hd)) ht
          exact ⟨by rw [List.map_cons, List.map_cons, he, hmap], hrest⟩

/-- A word that begins a text begins its first word. -/
lemma ciStartsWith_part {u w s : Text} (hu : ∀ d ∈ u, isWordChar d = true)
    (hs : ∀ d ∈ s.head?, isWordChar d = false) (h : ciStartsWith u (w ++ s) = true) :
    u.map Char.toUpper <+: w.map Char.toUpper := by
  induction u generalizing w with
  | nil => exact List.nil_prefix
  | cons a u ih =>
      obtain ⟨e, t, het, he, ht⟩ := head?_of_ciStartsWith h
      have ha := hu a List.mem_cons_self
      rw [← isWordChar_toUpper, ← he, isWordChar_toUpper] at ha
      cases w with
      | nil =>
          rw [List.nil_append] at het
          rw [het] at hs
          rw [hs e rfl] at ha
          cases ha
      | cons d w =>
          cases het
          rw [List.map_cons, List.map_cons, he, List.prefix_cons_inj]
          exact ih (fun d hd => hu d (List.mem_cons_of_mem a hd)) ht

lemma Calm.head?_behind_word {w : Text} (h : Calm (some (word w)) ls) :
    ∀ d ∈ (spell ls).head?, isWordChar d = false := by
  cases ls with
  | nil => simp
  | cons k ks =>
      rw [h.head?_spell]
      intro d hd
      have hmeets : k.isWord = false := h.1.meets
      have hform := h.1.formed
      cases k with
      | word _ => cases hmeets
      | mark c =>
          cases hd
          exact hform.1
      | region hinted r =>
          by_contra hword
          replace hform : r.head?.any opensRegion = true := hform
          rw [show r.head? = some d from hd, Option.any_some,
            not_opensRegion (Or.inl (Bool.not_eq_false _ ▸ hword))] at hform
          cases hform

/-- The lexeme at a blank or a parenthesis. -/
lemma Calm.mark_of_match {c : Char} {pattern : Text} (h : Calm prev ls) (hc : c = ' ' ∨ c = '(')
    (hmatch : ciStartsWith (c :: pattern) (spell ls) = true) :
    ∃ vs, ls = mark c :: vs ∧ ciStartsWith pattern (spell vs) = true := by
  obtain ⟨d, t, hdt, hd, ht⟩ := head?_of_ciStartsWith hmatch
  have hfacts : c.isAlpha = false ∧ isWordChar c = false := by
    rcases hc with rfl | rfl <;> decide
  obtain rfl := eq_of_toUpper_eq hfacts.1 hd
  cases ls with
  | nil => cases hdt
  | cons k ks =>
      have hform := h.1.formed
      have hhead : k.text.head? = some d := by rw [← h.head?_spell, hdt]; rfl
      cases k with
      | mark e =>
          cases hhead
          refine ⟨ks, rfl, ?_⟩
          cases hdt
          exact ht
      | word w =>
          have := hform.2 d (List.mem_of_mem_head? hhead)
          rw [hfacts.2] at this
          cases this
      | region hinted r =>
          replace hform : r.head?.any opensRegion = true := hform
          rw [show r.head? = some d from hhead, Option.any_some,
            not_opensRegion (Or.inr hc)] at hform
          cases hform

/-- The lexeme at a character of a word. -/
lemma Calm.word_of_head {d : Char} (h : Calm prev ls) (hd : isWordChar d = true)
    (hhead : (spell ls).head? = some d) : ∃ w vs, ls = word w :: vs := by
  cases ls with
  | nil => cases hhead
  | cons k ks =>
      have hform := h.1.formed
      rw [h.head?_spell] at hhead
      cases k with
      | word w => exact ⟨w, ks, rfl⟩
      | mark e =>
          cases hhead
          exact absurd (hform.1.symm.trans hd) (by decide)
      | region hinted r =>
          replace hform : r.head?.any opensRegion = true := hform
          rw [show r.head? = some d from hhead, Option.any_some,
            not_opensRegion (Or.inl hd)] at hform
          cases hform

lemma head?_word_of_match {a : Char} {pattern s : Text} (ha : isWordChar a = true)
    (hmatch : ciStartsWith (a :: pattern) s = true) :
    ∃ d, s.head? = some d ∧ isWordChar d = true := by
  obtain ⟨d, t, rfl, hd, -⟩ := head?_of_ciStartsWith hmatch
  exact ⟨d, rfl, by rw [← isWordChar_toUpper, hd, isWordChar_toUpper, ha]⟩

/-- The lexeme at a word of a pattern. -/
lemma Calm.word_of_match {u pattern : Text} {c : Char} (h : Calm prev ls) (hne : u ≠ [])
    (hu : u.all isWordChar = true) (hc : isWordChar c = false)
    (hmatch : ciStartsWith (u ++ c :: pattern) (spell ls) = true) :
    ∃ w vs, ls = word w :: vs ∧ w.map Char.toUpper = u.map Char.toUpper ∧
      ciStartsWith (c :: pattern) (spell vs) = true := by
  rw [List.all_eq_true] at hu
  obtain ⟨a, t, rfl⟩ := List.exists_cons_of_ne_nil hne
  obtain ⟨d, hd, hword⟩ := head?_word_of_match (hu a List.mem_cons_self) hmatch
  obtain ⟨w, vs, rfl⟩ := h.word_of_head hword hd
  have hsplit := ciStartsWith_word hu h.1.formed.2 h.2.head?_behind_word hc hmatch
  exact ⟨w, vs, rfl, hsplit⟩

/-- A pattern that begins with a letter is found in a word. -/
lemma Calm.exists_in_word {pattern : Text} {a : Char} {i : ℕ} (h : Calm prev ls)
    (ha : isWordChar a = true) (hsearched : a :: pattern ∈ searched)
    (hmatch : CodeMatch (spell ls) (a :: pattern) i) :
    ∃ us w vs k, ls = us ++ word w :: vs ∧ i = (spell us).length + k ∧ k < w.length ∧
      ciStartsWith (a :: pattern) (w.drop k ++ spell vs) = true := by
  obtain ⟨us, l, vs, k, rfl, hi, hk, hregion, hci⟩ := h.exists_lexeme hsearched hmatch
  cases l with
  | region hinted r => exact absurd rfl (hregion hinted r)
  | mark e =>
      have hzero : k = 0 := Nat.lt_one_iff.1 hk
      subst hzero
      obtain ⟨d, hd, hword⟩ := head?_word_of_match ha hci
      cases hd
      exact absurd (h.append_right.1.formed.1.symm.trans hword) (by decide)
  | word w => exact ⟨us, w, vs, k, rfl, hi, hk, hci⟩

/-- A pattern that begins with a word is found at the end of a word. -/
lemma Calm.exists_word {u pattern : Text} {c : Char} {i : ℕ} (h : Calm prev ls) (hne : u ≠ [])
    (hu : u.all isWordChar = true) (hc : c = ' ' ∨ c = '(')
    (hsearched : u ++ c :: pattern ∈ searched)
    (hmatch : CodeMatch (spell ls) (u ++ c :: pattern) i) :
    ∃ us w vs k, ls = us ++ word w :: mark c :: vs ∧ i = (spell us).length + k ∧ k < w.length ∧
      (w.drop k).map Char.toUpper = u.map Char.toUpper ∧
      ciStartsWith pattern (spell vs) = true := by
  rw [List.all_eq_true] at hu
  obtain ⟨a, t, rfl⟩ := List.exists_cons_of_ne_nil hne
  obtain ⟨us, w, vs, k, rfl, hi, hk, hci⟩ :=
    h.exists_in_word (hu a List.mem_cons_self) hsearched hmatch
  have hcalm := h.append_right
  have hcw : isWordChar c = false := by rcases hc with rfl | rfl <;> decide
  obtain ⟨hmap, hrest⟩ := ciStartsWith_word hu
    (fun d hd => hcalm.1.formed.2 d (List.mem_of_mem_drop hd)) hcalm.2.head?_behind_word hcw hci
  obtain ⟨vs, rfl, hpattern⟩ := hcalm.2.mark_of_match hc hrest
  exact ⟨us, w, vs, k, rfl, hi, hk, hmap, hpattern⟩

/-- A pattern that is a word is found within a word. -/
lemma Calm.exists_part {u : Text} {i : ℕ} (h : Calm prev ls) (hne : u ≠ [])
    (hu : u.all isWordChar = true) (hsearched : u ∈ searched)
    (hmatch : CodeMatch (spell ls) u i) :
    ∃ us w vs k, ls = us ++ word w :: vs ∧ i = (spell us).length + k ∧ k < w.length ∧
      u.map Char.toUpper <+: (w.drop k).map Char.toUpper := by
  rw [List.all_eq_true] at hu
  obtain ⟨a, t, rfl⟩ := List.exists_cons_of_ne_nil hne
  obtain ⟨us, w, vs, k, rfl, hi, hk, hci⟩ :=
    h.exists_in_word (hu a List.mem_cons_self) hsearched hmatch
  exact ⟨us, w, vs, k, rfl, hi, hk,
    ciStartsWith_part hu h.append_right.2.head?_behind_word hci⟩

/-- A pattern that begins with a blank is found at a blank. -/
lemma Calm.exists_blank {pattern : Text} {i : ℕ} (h : Calm prev ls)
    (hsearched : ' ' :: pattern ∈ searched) (hmatch : CodeMatch (spell ls) (' ' :: pattern) i) :
    ∃ us vs, ls = us ++ mark ' ' :: vs ∧ i = (spell us).length ∧
      ciStartsWith pattern (spell vs) = true := by
  obtain ⟨us, l, vs, k, rfl, hi, hk, hregion, hci⟩ := h.exists_lexeme hsearched hmatch
  have hcalm := h.append_right
  obtain ⟨d, t, hdt, hd, ht⟩ := head?_of_ciStartsWith hci
  obtain rfl := toUpper_eq_blank.1 hd
  cases l with
  | region hinted r => exact absurd rfl (hregion hinted r)
  | mark e =>
      have hzero : k = 0 := Nat.lt_one_iff.1 hk
      subst hzero
      cases hdt
      exact ⟨us, vs, rfl, hi, ht⟩
  | word w =>
      have hmem : ' ' ∈ w.drop k := by
        have hpos : 0 < (w.drop k).length := by rw [List.length_drop]; exact Nat.sub_pos_of_lt hk
        obtain ⟨e, w', hw'⟩ := List.exists_cons_of_ne_nil (List.ne_nil_of_length_pos hpos)
        rw [show (word w).text = w from rfl, hw', List.cons_append, List.cons.injEq] at hdt
        rw [hw', hdt.1]
        exact List.mem_cons_self
      exact absurd (hcalm.1.formed.2 ' ' (List.mem_of_mem_drop hmem)) (by decide)

end calm

end DuckdbEngine.Pushdown
