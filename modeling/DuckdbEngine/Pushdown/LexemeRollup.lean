/-
`WITH ROLLUP` on the lexemes of a calm query.

The pass puts in an opening parenthesis behind the last `GROUP BY` before the keywords, and
a closing one in their place, wherever the two stand.  In a query with `CONVERT` this may
change what its arguments are, so that regions with delimiters are not safe anywhere
(`Rollable`).
-/
import DuckdbEngine.Pushdown.LexemeConvert

namespace DuckdbEngine.Pushdown

open Sql TextEdits Lexing
open Lexeme (word mark region)

/-! ### Words one after the other -/

/-- The word behind a blank. -/
def nextWord : List Lexeme → Option Text
  | mark c :: word b :: _ => if c = ' ' then some b else none
  | _ => none

/-- Every two words with a blank between them satisfy the condition. -/
abbrev Pairs (Q : Text → Text → Bool) : List Lexeme → Prop :=
  EachWord fun w rest => (nextWord rest).all (Q w)

section pairs

variable {Q : Text → Text → Bool}

lemma Pairs.of_append (us : List Lexeme) {vs : List Lexeme} {a b : Text}
    (h : Pairs Q (us ++ word a :: mark ' ' :: word b :: vs)) : Q a b = true :=
  h.append_right.1 rfl

lemma nextWord_cons_eq_some {l : Lexeme} {ls : List Lexeme} {b : Text} :
    nextWord (l :: ls) = some b ↔ l = mark ' ' ∧ ls.head? = some (word b) := by
  rcases l with _ | c | _
  · simp [nextWord]
  · rcases ls with _ | ⟨_ | _ | _, _⟩
    · simp [nextWord]
    · by_cases hc : c = ' ' <;> simp [nextWord, hc]
    · simp [nextWord]
    · simp [nextWord]
  · simp [nextWord]

lemma nextWord_mark {c : Char} (hc : c ≠ ' ') (ls : List Lexeme) :
    nextWord (mark c :: ls) = none :=
  Option.eq_none_iff_forall_ne_some.2 fun _ hb =>
    hc (mark.inj (nextWord_cons_eq_some.1 hb).1)

/-- A replacement keeps what holds of two words, if it begins with the same word. -/
lemma Pairs.swap {ls xs ys : List Lexeme} (hnext : nextWord ys = none)
    (hhead : ∀ b, ys.head? = some (word b) → ∃ b', xs.head? = some (word b') ∧
      ∀ a, Q a b' = true → Q a b = true)
    (hys : Pairs Q xs → Pairs Q ys) (h : Pairs Q (ls ++ xs)) : Pairs Q (ls ++ ys) := by
  refine EachWord.swap (fun us a ks _ hold => ?_) hys h
  cases ks with
  | nil => rw [List.nil_append, hnext, Option.all_none]
  | cons k ks =>
      rw [Option.all_eq_true] at hold ⊢
      intro b hb
      rw [List.cons_append, nextWord_cons_eq_some] at hb
      obtain ⟨rfl, hb⟩ := hb
      cases ks with
      | nil =>
          obtain ⟨b', hb', hQ⟩ := hhead b hb
          exact hQ _ (hold b' (nextWord_cons_eq_some.2 ⟨rfl, hb'⟩))
      | cons j ks => exact hold b (nextWord_cons_eq_some.2 ⟨rfl, hb⟩)

end pairs

/-! ### Queries with and without `WITH ROLLUP` -/

def startsRollup (b : Text) : Bool := "ROLLUP".toList.isPrefixOf (b.map Char.toUpper)

/-- The words are not `WITH ROLLUP`. -/
def rollupFree (a b : Text) : Bool := !(isOneOf ["WITH"] a && startsRollup b)

/-- `ROLLUP` is a whole word behind `WITH`, and there is something between `GROUP BY` and them. -/
def rollupQuiet (a b : Text) : Bool :=
  (rollupFree a b || isOneOf ["ROLLUP"] b) && !(isOneOf ["BY"] a && isOneOf ["WITH"] b)

/-- As `quietCall`, with `CONVERT` allowed or not, whatever the arguments are. -/
def allowedCall (allowed : Bool) (w : Text) (_ : List Lexeme) : Bool :=
  !endsIn ["CONVERT"] w ||
    if isOneOf ["CONVERT"] w then allowed else (w.take (w.length - 7)).getLast?.any isIdentChar

/-- The parentheses that are put in do not disturb the arguments of `CONVERT`. -/
structure Rollable (ls : List Lexeme) : Prop where
  calm : Calm none ls
  pairs : Pairs rollupQuiet ls
  calls : ∃ allowed, Calls (allowedCall allowed) ls ∧
    (allowed = true → ∀ l ∈ ls, l.isTame = true)

lemma Rollable.convertible {ls : List Lexeme} (h : Rollable ls) : Convertible ls := by
  obtain ⟨allowed, hcalls, htame⟩ := h.calls
  refine ⟨h.calm, Calls.mono hcalls fun us w ks hls hw => ?_⟩
  rw [allowedCall] at hw
  rw [quietCall]
  split_ifs at hw ⊢ with hword
  · cases allowed with
    | true =>
        rw [tameCall_of_tame, Bool.or_true]
        intro l hl
        refine htame rfl l ?_
        rw [hls]
        exact List.mem_append_right _ (List.mem_cons_of_mem _ (List.mem_of_mem_tail hl))
    | false => rw [Bool.or_false] at hw; rw [hw, Bool.true_or]
  · exact hw

/-! ### Two places in a query -/

lemma eq_nil_of_spell {ls : List Lexeme} (hls : ∀ l ∈ ls, l.WellFormed)
    (h : (spell ls).length = 0) : ls = [] := by
  cases ls with
  | nil => rfl
  | cons l ls =>
      have hpos := List.length_pos_iff.2 (Lexeme.text_ne_nil (hls l List.mem_cons_self))
      rw [spell_cons, List.length_append] at h
      omega

/-- Of two places of a query the one with the shorter text before it comes first. -/
lemma exists_between {us vs ks js : List Lexeme} (hformed : ∀ l ∈ ks, l.WellFormed)
    (h : us ++ vs = ks ++ js) (hle : (spell ks).length ≤ (spell us).length) :
    ∃ xs, us = ks ++ xs ∧ js = xs ++ vs := by
  rcases List.append_eq_append_iff.1 h with ⟨xs, rfl, rfl⟩ | ⟨xs, rfl, rfl⟩
  · have hxs : xs = [] := by
      refine eq_nil_of_spell (fun l hl => hformed l (List.mem_append_right _ hl)) ?_
      rw [spell_append, List.length_append] at hle
      omega
    exact ⟨[], by simp [hxs], by simp [hxs]⟩
  · exact ⟨xs, rfl, rfl⟩

/-- If `GROUP BY` does not end before the blank of `WITH`, this is the blank behind `BY`. -/
lemma shared_blank {us vs ks js : List Lexeme} {g b w : Text} (hformed : ∀ l ∈ ks, l.WellFormed)
    (h : us ++ mark ' ' :: word w :: vs =
      ks ++ word g :: mark ' ' :: word b :: mark ' ' :: js)
    (hlt : (spell us).length < (spell (ks ++ [word g, mark ' ', word b, mark ' '])).length)
    (hle : (spell ks).length ≤ (spell us).length) : b = w ∨ ∃ us', us = us' ++ [word b] := by
  obtain ⟨xs, rfl, hxs⟩ := exists_between hformed h hle
  rcases xs with _ | ⟨x, _ | ⟨y, _ | ⟨z, _ | ⟨t, xs⟩⟩⟩⟩
  · simp at hxs
  · simp only [List.cons_append, List.nil_append, List.cons.injEq, word.injEq] at hxs
    exact Or.inl hxs.2.2.1
  · simp at hxs
  · simp only [List.cons_append, List.nil_append, List.cons.injEq] at hxs
    exact Or.inr ⟨ks ++ [x, y], by simp [hxs.2.2.1]⟩
  · -- all of `GROUP BY` stands before the blank
    simp only [List.cons_append, List.cons.injEq] at hxs
    obtain ⟨rfl, rfl, rfl, rfl, -⟩ := hxs
    simp only [spell_append, spell_cons, spell_nil, List.length_append, List.append_nil] at hlt
    omega

/-! ### The rounds -/

section rules

variable {m n rest : List Lexeme}

lemma Rollable.swap {ls : List Lexeme} (hls : Rollable (ls ++ (m ++ rest))) (h : Rule m n rest)
    (hnext : nextWord (n ++ rest) = none)
    (hhead : ∀ b, (n ++ rest).head? = some (word b) → ∃ b', (m ++ rest).head? = some (word b') ∧
      ∀ a, rollupQuiet a b' = true → rollupQuiet a b = true)
    (hpairs : Pairs rollupQuiet (m ++ rest) → Pairs rollupQuiet (n ++ rest))
    (hcalls : ∀ allowed, Calls (allowedCall allowed) (m ++ rest) →
      Calls (allowedCall allowed) (n ++ rest))
    (htame : ∀ l ∈ n, l.isTame = true) : Rollable (ls ++ (n ++ rest)) := by
  refine ⟨hls.calm.swap h, hls.pairs.swap hnext hhead hpairs, ?_⟩
  obtain ⟨allowed, hold, hall⟩ := hls.calls
  refine ⟨allowed, hold.swap h hls.calm (fun _ _ hw => hw) (hcalls allowed),
    fun hallowed l hl => ?_⟩
  have hold := hall hallowed
  simp only [List.mem_append] at hl hold
  rcases hl with hl | hl | hl
  · exact hold l (Or.inl hl)
  · exact htame l hl
  · exact hold l (Or.inr (Or.inr hl))

end rules

section rollup

variable {g g' b w r : Text} {vs : List Lexeme}

/-- `GROUP BY` becomes `GROUP BY ROLLUP(`. -/
lemma Rollable.group (us : List Lexeme)
    (h : Rollable (us ++ ([word g, mark ' ', word b, mark ' '] ++ vs)))
    (hform : (word g').WellFormed) (hg : g'.map Char.toUpper = g.map Char.toUpper)
    (hb : isOneOf ["BY"] b = true) :
    Rollable (us ++ ([word g', mark ' ', word "BY".toList, mark ' ', word "ROLLUP".toList,
      mark '('] ++ vs)) := by
  have hsame : ∀ a, rollupQuiet a g' = rollupQuiet a g := fun a => by
    rw [rollupQuiet, rollupQuiet, rollupFree, rollupFree, startsRollup, startsRollup, hg,
      isOneOf_congr hg, isOneOf_congr hg]
  refine h.swap (.group hform hg hb) rfl (fun c hc => ?_) (fun hpairs => ?_)
    (fun allowed hcalls => ?_) (by simp [Lexeme.isTame])
  · cases hc
    exact ⟨g, rfl, fun a ha => (hsame a).trans ha⟩
  · have hby : rollupQuiet g' "BY".toList = true := by
      rw [rollupQuiet, rollupFree, show startsRollup "BY".toList = false by decide,
        show isOneOf ["WITH"] "BY".toList = false by decide, Bool.and_false, Bool.and_false]
      rfl
    have hvs : Pairs rollupQuiet vs := hpairs.append_right
    have hrollup : Pairs rollupQuiet (word "ROLLUP".toList :: mark '(' :: vs) :=
      hvs.mark_cons.word_cons (by rw [nextWord_mark (by decide), Option.all_none])
    exact ((hrollup.mark_cons.word_cons rfl).mark_cons).word_cons hby
  · have hvs : Calls (allowedCall allowed) vs := hcalls.append_right
    exact ((((hvs.mark_cons.word_cons rfl).mark_cons).word_cons rfl).mark_cons).word_cons rfl

/-- `WITH ROLLUP` becomes a parenthesis. -/
lemma Rollable.rollup (us : List Lexeme)
    (h : Rollable (us ++ ([mark ' ', word w, mark ' ', word r] ++ vs)))
    (hw : isOneOf ["WITH"] w = true) (hr : isOneOf ["ROLLUP"] r = true) :
    Rollable (us ++ ([mark ')'] ++ vs)) := by
  refine h.swap (.rollup hw hr) ?_ (fun c hc => ?_) (fun hpairs => ?_) (fun allowed hcalls => ?_)
    (by simp [Lexeme.isTame])
  · exact nextWord_mark (by decide) vs
  · cases hc
  · exact (EachWord.append_right hpairs).mark_cons
  · exact (EachWord.append_right hcalls).mark_cons

/-- The ranges of `WITH ROLLUP`, on the lexemes between them. -/
lemma rollup_lexemes {us xs : List Lexeme} {k pos i : ℕ} (hg : g.length = k + 5)
    (hb : b.length = 2) (hw : w.length = 4) (hr : r.length = 6)
    (hpos : pos = (spell us).length + k) (hi : i = pos + 9 + (spell xs).length) :
    edit [⟨pos, pos + 9, "GROUP BY ROLLUP(".toList⟩, ⟨i, i + 12, ")".toList⟩]
      (spell (us ++ ([word g, mark ' ', word b, mark ' '] ++
        (xs ++ ([mark ' ', word w, mark ' ', word r] ++ vs))))) =
      spell (us ++ ([word (g.take k ++ "GROUP".toList), mark ' ', word "BY".toList, mark ' ',
        word "ROLLUP".toList, mark '('] ++ (xs ++ ([mark ')'] ++ vs)))) := by
  have hclose := edit_lexemes (us ++ [word g, mark ' ', word b, mark ' '] ++ xs)
    [mark ' ', word w, mark ' ', word r] [mark ')'] vs (i := i) (j := i + 12)
    (t := ")".toList) (by simp [Lexeme.text]; omega) (by simp [Lexeme.text]; omega) rfl
    (edit_nil _)
  -- the first range begins within the word
  have hsplit : ∀ zs, spell (us ++ ([word g, mark ' ', word b, mark ' '] ++ zs)) =
      (spell us ++ g.take k) ++ (g.drop k ++ ' ' :: (b ++ [' ']) ++ spell zs) := fun zs => by
    have hword := List.take_append_drop k g
    simp only [spell_append, spell_cons, Lexeme.text, List.append_assoc, List.cons_append,
      List.nil_append]
    rw [← List.append_assoc (g.take k), hword]
  rw [List.append_assoc, List.append_assoc, List.append_assoc, List.append_assoc, hsplit, hsplit]
    at hclose
  have hgroup := edit_range (t := "GROUP BY ROLLUP(".toList) hclose
  have hlo : (spell us ++ g.take k).length = pos := by
    simp [hg, hpos]
  have hhi : pos + (g.drop k ++ ' ' :: (b ++ [' '])).length = pos + 9 := by
    simp [hg, hb]
  rw [hlo, hhi, ← hsplit] at hgroup
  rw [hgroup]
  simp [Lexeme.text]

end rollup

/-- The words of a match of ` WITH ROLLUP`. -/
lemma Calm.exists_rollup {ls : List Lexeme} {i : ℕ} (h : Calm none ls)
    (hmatch : CodeMatch (spell ls) " WITH ROLLUP".toList i) :
    ∃ us w r vs, ls = us ++ mark ' ' :: word w :: mark ' ' :: word r :: vs ∧
      i = (spell us).length ∧ isOneOf ["WITH"] w = true ∧ startsRollup r = true := by
  obtain ⟨us, vs, rfl, hi, hwith⟩ := h.exists_blank (by decide) hmatch
  have hcalm := h.append_right.2
  obtain ⟨w, vs, rfl, hw, hrollup⟩ := hcalm.word_blank_of_match (u := "WITH".toList) (by decide)
    (by decide) hwith
  have hnext := hcalm.2.2
  obtain ⟨d, hd, hword⟩ := head?_word_of_match (by decide) hrollup
  obtain ⟨r, vs, rfl⟩ := hnext.word_of_head hword hd
  refine ⟨us, w, r, vs, rfl, hi, isOneOf_of_upper (by simp) (by decide) hw, ?_⟩
  exact List.isPrefixOf_iff_prefix.2
    (ciStartsWith_part (List.all_eq_true.1 (by decide)) hnext.2.head?_behind_word hrollup)

/-- The words of a match of `GROUP BY `. -/
lemma Calm.exists_groupBy {ls : List Lexeme} {i : ℕ} (h : Calm none ls)
    (hmatch : CodeMatch (spell ls) "GROUP BY ".toList i) :
    ∃ us g b vs k, ls = us ++ word g :: mark ' ' :: word b :: mark ' ' :: vs ∧
      i = (spell us).length + k ∧ k < g.length ∧ (g.drop k).map Char.toUpper = "GROUP".toList ∧
      isOneOf ["BY"] b = true := by
  obtain ⟨us, g, vs, k, rfl, hi, hk, hg, hby⟩ :=
    h.exists_word (u := "GROUP".toList) (by decide) (by decide) (Or.inl rfl) (by decide) hmatch
  obtain ⟨b, vs, rfl, hb, -⟩ :=
    h.append_right.2.2.word_blank_of_match (u := "BY".toList) (by decide) (by decide) hby
  exact ⟨us, g, b, vs, k, rfl, hi, hk, hg, isOneOf_of_upper (by simp) (by decide) hb⟩

lemma length_of_isOneOf {key : String} {w : Text} (h : isOneOf [key] w = true) :
    w.length = key.toList.length := by
  obtain ⟨k, hk, hw⟩ := isOneOf_iff.1 h
  rw [← List.mem_singleton.1 hk, ← hw, List.length_map]

lemma length_of_drop {key : String} {g : Text} {k : ℕ} (hk : k < g.length)
    (hg : (g.drop k).map Char.toUpper = key.toList) : g.length = k + key.toList.length := by
  rw [← hg, List.length_map, List.length_drop]
  omega

/-- A round that replaces both keywords. -/
lemma Rollable.rollup_follows {us xs vs : List Lexeme} {g b w r : Text} {k pos i : ℕ}
    (h : Rollable (us ++ ([word g, mark ' ', word b, mark ' '] ++
      (xs ++ ([mark ' ', word w, mark ' ', word r] ++ vs)))))
    (hk : k < g.length) (hg : (g.drop k).map Char.toUpper = "GROUP".toList)
    (hb : isOneOf ["BY"] b = true) (hw : isOneOf ["WITH"] w = true)
    (hr : isOneOf ["ROLLUP"] r = true) (hpos : pos = (spell us).length + k)
    (hi : i = pos + 9 + (spell xs).length) {ls : List Lexeme}
    (hls : ls = us ++ ([word g, mark ' ', word b, mark ' '] ++
      (xs ++ ([mark ' ', word w, mark ' ', word r] ++ vs)))) :
    ∃ ls', edit [⟨pos, pos + 9, "GROUP BY ROLLUP(".toList⟩, ⟨i, i + 12, ")".toList⟩] (spell ls) =
        spell ls' ∧ Rollable ls' ∧ keptOf ls' = keptOf ls ∧
      Starts codeLexer (spell ls') (pos + (16 + (i - (pos + 9)) + 1)) := by
  have hlen : g.length = k + 5 := length_of_drop hk hg
  have hform : (word (g.take k ++ "GROUP".toList)).WellFormed := by
    have hold := h.calm.append_right.1.formed
    refine ⟨by simp, fun c hc => ?_⟩
    rcases List.mem_append.1 hc with hc | hc
    · exact hold.2 c (List.mem_of_mem_take hc)
    · exact List.all_eq_true.1 (by decide : "GROUP".toList.all isWordChar = true) c hc
  have hupper : (g.take k ++ "GROUP".toList).map Char.toUpper = g.map Char.toUpper := by
    rw [List.map_append, show "GROUP".toList.map Char.toUpper = "GROUP".toList by decide, ← hg,
      ← List.map_append, List.take_append_drop]
  have hgroup := h.group us hform hupper hb
  have hnew := Rollable.rollup (us ++ ([word (g.take k ++ "GROUP".toList), mark ' ',
    word "BY".toList, mark ' ', word "ROLLUP".toList, mark '('] ++ xs))
    (by simpa using hgroup) hw hr
  refine ⟨_, ?_, hnew, ?_, ?_⟩
  · rw [hls, rollup_lexemes hlen (length_of_isOneOf hb) (length_of_isOneOf hw)
      (length_of_isOneOf hr) hpos hi]
    simp
  · simp [hls]
  · have hcalm := hnew.calm
    rw [← List.append_assoc] at hcalm ⊢
    have hstart := hcalm.starts_append
    have hwidth : pos + (16 + (i - (pos + 9)) + 1) = (spell (us ++ ([word (g.take k ++
        "GROUP".toList), mark ' ', word "BY".toList, mark ' ', word "ROLLUP".toList,
        mark '('] ++ xs) ++ [mark ')'])).length := by
      simp [Lexeme.text, hlen]
      omega
    rwa [hwidth]

lemma rollupPass_follows : rollupPass.Follows Rollable := by
  intro ls pos i hroll hmatch
  have hcalm := hroll.calm
  obtain ⟨us, w, r, vs, rfl, rfl, hw, hprefix⟩ := hcalm.exists_rollup hmatch
  have hpairs := hroll.pairs
  have hr : isOneOf ["ROLLUP"] r = true := by
    have hpair := Pairs.of_append [] (EachWord.append_right hpairs).2
    rw [rollupQuiet, rollupFree, hw, hprefix, Bool.and_self, Bool.not_true, Bool.false_or,
      Bool.and_eq_true] at hpair
    exact hpair.1
  have hskip : Starts codeLexer (spell (us ++ mark ' ' :: word w :: mark ' ' :: word r :: vs))
      ((spell us).length + 12) := by
    have hsplit : us ++ mark ' ' :: word w :: mark ' ' :: word r :: vs =
        (us ++ [mark ' ', word w, mark ' ', word r]) ++ vs := by simp
    have hwidth : (spell us).length + 12 =
        (spell (us ++ [mark ' ', word w, mark ' ', word r])).length := by
      simp [Lexeme.text, length_of_isOneOf hw, length_of_isOneOf hr]
    rw [hsplit] at hcalm ⊢
    rw [hwidth]
    exact hcalm.starts_append
  show ∃ ls', apply _ (rollup _ _ _) = spell ls' ∧ _ ∧ _ ∧ Starts codeLexer _ (rollup _ _ _).next
  rw [rollup]
  split
  · exact follows_idle hroll hskip
  · rename_i j hj
    obtain ⟨ks, g, b, js, k, hls, rfl, hk, hg, hb⟩ :=
      hcalm.exists_groupBy (codeMatch_of_rfindInCode (by decide) hj)
    have hsplit : us ++ mark ' ' :: word w :: mark ' ' :: word r :: vs =
        (ks ++ [word g, mark ' ', word b, mark ' ']) ++ js := by
      rw [hls]
      simp
    have hformed : ∀ l ∈ ks ++ [word g, mark ' ', word b, mark ' '], l.WellFormed :=
      fun l hl => hcalm.formed l (by rw [hsplit]; exact List.mem_append_left _ hl)
    have hwidth : (spell (ks ++ [word g, mark ' ', word b, mark ' '])).length =
        (spell ks).length + k + 9 := by
      simp [Lexeme.text, length_of_drop hk hg, length_of_isOneOf hb]
      omega
    split_ifs with hfrom hcols
    · obtain ⟨xs, rfl, rfl⟩ := exists_between hformed hsplit (hwidth.trans_le hcols)
      refine Rollable.rollup_follows (by simpa using hroll) hk hg hb hw hr rfl ?_ (by simp)
      rw [spell_append, List.length_append, hwidth]
    · exfalso
      have hle := (rfindInCode_matches hj).1
      rcases shared_blank (fun l hl => hformed l (List.mem_append_left _ hl)) hls (by omega)
        (by omega) with rfl | ⟨us', rfl⟩
      · exact absurd hw (by rw [isOneOf_eq_false hb (by decide)]; simp)
      · rw [List.append_assoc] at hpairs
        have hpair := Pairs.of_append us' hpairs
        rw [rollupQuiet, hb, hw, Bool.and_eq_true] at hpair
        exact absurd hpair.2 (by decide)
    · exact follows_idle hroll hskip

/-- Without `WITH ROLLUP` there is nothing to do. -/
lemma rollupPass_follows_of_free :
    rollupPass.Follows fun ls => Convertible ls ∧ Pairs rollupFree ls := by
  intro ls pos i hls hmatch
  obtain ⟨us, w, r, vs, rfl, -, hw, hr⟩ := hls.1.1.exists_rollup hmatch
  have hpair := Pairs.of_append [] (EachWord.append_right hls.2).2
  rw [rollupFree, hw, hr] at hpair
  exact absurd hpair (by decide)

end DuckdbEngine.Pushdown
