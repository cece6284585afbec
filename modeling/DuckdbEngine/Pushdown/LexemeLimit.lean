/-
`LIMIT` and the regions of a calm query.

The pass is the last one, so its result need not be calm.  It walks once over the query, and
what it replaces are characters of code that lie next to each other.
-/
import DuckdbEngine.Pushdown.LexemeText

namespace DuckdbEngine.Pushdown

open Sql TextEdits Lexing
open Lexeme (word mark region)

/-- The parts occur in the text, one behind the other. -/
def InOrder : List Text → Text → Prop
  | [], _ => True
  | t :: ts, s => ∃ u v, s = u ++ t ++ v ∧ InOrder ts v

lemma InOrder.prepend {ts : List Text} {v : Text} (h : InOrder ts v) (u : Text) :
    InOrder ts (u ++ v) := by
  cases ts with
  | nil => trivial
  | cons t ts =>
      obtain ⟨u', v', rfl, hts⟩ := h
      exact ⟨u ++ u', v', by simp, hts⟩

lemma inOrder_spell (ls : List Lexeme) : InOrder (keptOf ls) (spell ls) := by
  induction ls with
  | nil => trivial
  | cons l ls ih =>
      rcases l with w | c | ⟨_ | _, r⟩
      · exact ih.prepend w
      · exact ih.prepend [c]
      · exact ⟨[], spell ls, rfl, ih⟩
      · exact ih.prepend r

/-! ### The result of a walk -/

namespace Walk

variable {w : Walk} {before u v : Text}

/-- What is put out behind the given part of the query. -/
def result (w : Walk) (before s : Text) : Text :=
  (w.edits before (pieces w.lexer s)).flatMap fun p => p.1.getD p.2

lemma result_skip (hu : u ≠ []) (hskip : codeSkip (u ++ v) = u.length) :
    w.result before (u ++ v) = u ++ w.result (before ++ u) v := by
  have hlexer : w.lexer (u ++ v) = (false, u.length) := by
    rw [lexer, hskip, if_pos (List.length_pos_iff.2 hu).ne']
  rw [result, pieces_append hu hlexer, edits, List.flatMap_cons]
  rfl

/-- Code in which the pattern is not found is put out as it is. -/
lemma result_code
    (hu : ∀ i < u.length, codeSkip ((u ++ v).drop i) = 0 ∧ ¬ MatchesAt (u ++ v) w.pattern i) :
    w.result before (u ++ v) = u ++ w.result (before ++ u) v := by
  induction u generalizing before with
  | nil => simp
  | cons c u ih =>
      obtain ⟨hcode, hmatch⟩ := hu 0 (by simp)
      replace hcode : codeSkip ([c] ++ (u ++ v)) = 0 := hcode
      replace hmatch : ¬ ciStartsWith w.pattern ([c] ++ (u ++ v)) = true := hmatch
      have hlexer : w.lexer ([c] ++ (u ++ v)) = (false, [c].length) := by
        rw [lexer, if_neg (not_not.2 hcode), if_neg hmatch]
        rfl
      have hrest := @ih (before ++ [c]) fun i hi => hu (i + 1) (by simpa using hi)
      rw [List.cons_append, ← List.singleton_append, result, pieces_append (by simp) hlexer, edits,
        List.flatMap_cons, ← result, hrest]
      simp

lemma result_match (before : Text) (hpos : ∀ s, ciStartsWith w.pattern s = true → 0 < w.size s)
    {s : Text} (hskip : codeSkip s = 0) (hmatch : ciStartsWith w.pattern s = true) (hne : s ≠ []) :
    ∃ t, w.result before s = t ++ w.result (before ++ s.take (w.size s)) (s.drop (w.size s)) := by
  obtain ⟨c, s, rfl⟩ := List.exists_cons_of_ne_nil hne
  rw [result, pieces_cons, edits, List.flatMap_cons, w.size_lexer hpos hskip hmatch]
  exact ⟨_, rfl⟩

end Walk

/-! ### Where the pass stands -/

/-- The rest of a word or a single character, in front of the lexemes. -/
structure Inside (t : Text) (ls : List Lexeme) : Prop where
  calm : ∃ prev, Calm prev ls
  rest : (∀ c ∈ t, isPlain c = true) ∨ ∃ c prev, t = [c] ∧ Calm prev (mark c :: ls)

lemma Calm.inside {prev : Option Lexeme} {l : Lexeme} {ls : List Lexeme} (h : Calm prev (l :: ls))
    (hl : ∀ hinted r, l ≠ region hinted r) : Inside l.text ls := by
  refine ⟨⟨_, h.2⟩, ?_⟩
  cases l with
  | word w => exact Or.inl fun c hc => isPlain_of_isWordChar (h.1.formed.2 c hc)
  | mark c => exact Or.inr ⟨c, prev, rfl, h⟩
  | region hinted r => exact absurd rfl (hl hinted r)

lemma Inside.tail {c : Char} {t : Text} {ls : List Lexeme} (h : Inside (c :: t) ls) :
    Inside t ls := by
  refine ⟨h.calm, ?_⟩
  rcases h.rest with hplain | ⟨d, prev, hd, -⟩
  · exact Or.inl fun d hd => hplain d (List.mem_cons_of_mem c hd)
  · cases hd
    exact Or.inl (by simp)

lemma Inside.code {c : Char} {t : Text} {ls : List Lexeme} (h : Inside (c :: t) ls) :
    codeSkip (c :: t ++ spell ls) = 0 := by
  rcases h.rest with hplain | ⟨d, prev, hd, hcalm⟩
  · exact codeSkip_plain (hplain c List.mem_cons_self) _
  · cases hd
    exact hcalm.codeSkip_mark

/-- A region is not passed without its first character. -/
lemma Inside.drop {t : Text} {ls : List Lexeme} (h : Inside t ls) {n : ℕ}
    (hn : ∀ c ∈ (t ++ spell ls).take n, opensRegion c = false) :
    ∃ t' ls', (t ++ spell ls).drop n = t' ++ spell ls' ∧ Inside t' ls' ∧
      keptOf ls' = keptOf ls := by
  induction n generalizing t ls with
  | zero => exact ⟨t, ls, rfl, h, rfl⟩
  | succ n ih =>
      cases t with
      | cons c t => exact ih h.tail fun d hd => hn d (List.mem_cons_of_mem c hd)
      | nil =>
          obtain ⟨prev, hcalm⟩ := h.calm
          cases ls with
          | nil => exact ⟨[], [], by simp, h, rfl⟩
          | cons l ls =>
              obtain ⟨c, t, hct⟩ := List.exists_cons_of_ne_nil (Lexeme.text_ne_nil hcalm.1.formed)
              rw [List.nil_append, spell_cons, hct] at hn ⊢
              have hregion : ∀ hinted r, l ≠ region hinted r := by
                rintro hinted r rfl
                have hopens : r.head?.any opensRegion = true := hcalm.1.formed
                rw [show r = c :: t from hct, List.head?_cons, Option.any_some,
                  hn c List.mem_cons_self] at hopens
                cases hopens
              have hinside := hcalm.inside hregion
              rw [hct] at hinside
              obtain ⟨t', ls', hdrop, h', hkept⟩ :=
                ih hinside.tail fun d hd => hn d (List.mem_cons_of_mem c hd)
              refine ⟨t', ls', hdrop, h', hkept.trans ?_⟩
              cases l with
              | word _ => rfl
              | mark _ => rfl
              | region hinted r => exact absurd rfl (hregion hinted r)

/-! ### The pass -/

lemma limitWalk_closed {s : Text} (h : ciStartsWith "LIMIT ".toList s = true) :
    ∀ c ∈ s.take (limitWalk.size s), opensRegion c = false := by
  intro c hc
  rw [opensRegion, limitWalk_plain h c hc, Bool.not_true, Bool.false_or, decide_eq_false_iff_not]
  rintro rfl
  obtain ⟨u, rest, hdrop, hsize, hu⟩ := limitWalk_size s
  rw [hsize, List.take_add, hdrop, List.take_left, List.mem_append] at hc
  rcases hc with hc | hc
  · have hmem := List.mem_map_of_mem (f := Char.toUpper) hc
    rw [ciStartsWith_limit_iff.1 h] at hmem
    exact absurd hmem (by decide)
  · exact absurd (hu _ hc) (by decide)

lemma Calm.limit_region {prev : Option Lexeme} {hinted : Bool} {r : Text} {ls : List Lexeme}
    (h : Calm prev (region hinted r :: ls)) (before : Text) :
    limitWalk.result before (r ++ spell ls) = r ++ limitWalk.result (before ++ r) (spell ls) := by
  have hsearched : limitWalk.pattern ∈ searched := by decide
  rcases h.codeSkip_region with hskip | ⟨r', rfl, hne, hskip⟩ | ⟨hmute, hend⟩
  · exact Walk.result_skip (Lexeme.text_ne_nil h.1.formed) hskip
  · rw [List.append_assoc] at hskip ⊢
    rw [Walk.result_skip hne hskip, Walk.result_code]
    · simp
    · intro i hi
      obtain rfl := Nat.lt_one_iff.1 hi
      refine ⟨codeSkip_plain (by decide) _, fun hmatch => ?_⟩
      obtain ⟨d, t, hdt, hd, -⟩ := head?_of_ciStartsWith hmatch
      cases hdt
      exact absurd hd (by decide)
  · exact Walk.result_code fun i hi =>
      ⟨isMute_code hmute hend hi, isMute_not_match hmute hend hi hsearched⟩

/-- The regions from here on come out in their order. -/
lemma Inside.limit {s t : Text} {ls : List Lexeme} (hs : s = t ++ spell ls) (h : Inside t ls)
    (before : Text) : InOrder (keptOf ls) (limitWalk.result before s) := by
  induction hn : s.length using Nat.strong_induction_on generalizing s t ls before with
  | _ n ih =>
      subst hn
      -- a character of code, at which something may be replaced
      have hstep : ∀ {c : Char} {t : Text} {ls : List Lexeme}, s = c :: t ++ spell ls →
          Inside (c :: t) ls → InOrder (keptOf ls) (limitWalk.result before s) := by
        intro c t ls hs h
        have hcode := h.code
        rw [← hs] at hcode
        by_cases hmatch : ciStartsWith "LIMIT ".toList s = true
        · have hpos := limitPass_walks.size_pos s hmatch
          obtain ⟨out, hout⟩ := Walk.result_match before limitPass_walks.size_pos hcode hmatch
            (by simp [hs])
          have hclosed := limitWalk_closed hmatch
          rw [hs] at hclosed
          obtain ⟨t', ls', hdrop, h', hkept⟩ := h.drop hclosed
          rw [← hs] at hdrop
          rw [hout, ← hkept]
          refine (ih _ ?_ hdrop h' _ rfl).prepend out
          have hlen : 0 < s.length := by simp [hs]
          rw [List.length_drop]
          exact Nat.sub_lt hlen hpos
        · have hout : limitWalk.result before s =
              [c] ++ limitWalk.result (before ++ [c]) (t ++ spell ls) := by
            rw [hs] at hcode hmatch ⊢
            refine Walk.result_code (u := [c]) fun i hi => ?_
            obtain rfl := Nat.lt_one_iff.1 hi
            exact ⟨hcode, hmatch⟩
          rw [hout]
          exact (ih _ (by simp [hs]) rfl h.tail _ rfl).prepend [c]
      cases t with
      | cons c t => exact hstep hs h
      | nil =>
          obtain ⟨prev, hcalm⟩ := h.calm
          cases ls with
          | nil => trivial
          | cons l ls =>
              rw [List.nil_append, spell_cons] at hs
              have hne := Lexeme.text_ne_nil hcalm.1.formed
              have hrest : ∀ before, InOrder (keptOf ls) (limitWalk.result before (spell ls)) :=
                fun before => ih _ (by simp [hs, List.length_pos_iff.2 hne])
                  (List.nil_append _).symm ⟨⟨_, hcalm.2⟩, Or.inl (by simp)⟩ before rfl
              obtain ⟨c, t, hct⟩ := List.exists_cons_of_ne_nil hne
              have hcode : (∀ hinted r, l ≠ region hinted r) →
                  InOrder (keptOf ls) (limitWalk.result before s) := fun hl =>
                hstep (by rw [hs, hct]) (hct ▸ hcalm.inside hl)
              cases l with
              | word w => exact hcode (by simp)
              | mark d => exact hcode (by simp)
              | region hinted r =>
                  rw [hs, show (region hinted r).text = r from rfl, hcalm.limit_region]
                  cases hinted with
                  | true => exact (hrest _).prepend r
                  | false => exact ⟨[], _, rfl, hrest _⟩

/-- **The regions of a calm query come out of the last pass in their order.** -/
theorem Calm.limit {ls : List Lexeme} (h : Calm none ls) :
    InOrder (keptOf ls) (limitPass.run (spell ls)) := by
  rw [limitPass_walks.run_edits limitWalk_steady]
  exact Inside.limit (List.nil_append _).symm ⟨⟨none, h⟩, Or.inl (by simp)⟩ []

end DuckdbEngine.Pushdown
