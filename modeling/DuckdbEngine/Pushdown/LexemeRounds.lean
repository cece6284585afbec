/-
The rounds of the passes on the lexemes of a calm query.

A pass follows the lexemes (`Pass.Follows`) if each of its rounds, at a match in a calm
query, does what a rule does to the lexemes, or nothing, and goes on where a piece of the
text begins.  Its run then leaves a calm query with the same regions (`Pass.Follows.run`).
-/
import DuckdbEngine.Pushdown.LexemeText

namespace DuckdbEngine.Pushdown

open Sql TextEdits Lexing
open Lexeme (word mark region)

/-! ### Runs -/

/-- Every round of the pass rewrites the lexemes of the text, keeps the invariant and the regions,
and goes on where a piece of the text begins. -/
def Pass.Follows (p : Pass) (I : List Lexeme → Prop) : Prop :=
  ∀ ls pos i, I ls → CodeMatch (spell ls) p.pattern i →
    ∃ ls', apply (spell ls) (p.body (spell ls) pos i) = spell ls' ∧ I ls' ∧
      keptOf ls' = keptOf ls ∧ Starts codeLexer (spell ls') (p.body (spell ls) pos i).next

lemma Pass.Follows.run {p : Pass} {I : List Lexeme → Prop} (h : p.Follows I) (hne : p.pattern ≠ [])
    {ls : List Lexeme} (hls : I ls) :
    ∃ ls', p.run (spell ls) = spell ls' ∧ I ls' ∧ keptOf ls' = keptOf ls := by
  have hrun := StepRun.run_inv (I := fun c : Cursor => ∃ ls', c.1 = spell ls' ∧ I ls' ∧
      keptOf ls' = keptOf ls ∧ Starts codeLexer c.1 c.2) (fun c r hc hr => ?_)
    ⟨ls, rfl, hls, rfl, starts_zero _ _⟩ (p.along_rounds (spell ls))
  · obtain ⟨ls', htext, hI, hkept, -⟩ := hrun
    exact ⟨ls', htext, hI, hkept⟩
  · obtain ⟨ks, htext, hks, hkept, hstart⟩ := hc
    obtain ⟨i, hfind, rfl⟩ := Option.map_eq_some_iff.1 hr
    have hmatch := codeMatch_of_findInCode hne hstart hfind
    rw [htext] at hmatch
    obtain ⟨ks', htext', hks', hkept', hstart'⟩ := h ks c.2 i hks hmatch
    rw [← htext] at htext' hstart'
    refine ⟨ks', htext', hks', hkept'.trans hkept, ?_⟩
    rw [show (move c _).1 = spell ks' from htext']
    exact hstart'

/-- A range is replaced, with those behind it. -/
lemma edit_range {u m v v' t : Text} {rs : List (Range Char)}
    (hrs : edit rs (u ++ (m ++ v)) = u ++ (m ++ v')) :
    edit (⟨u.length, u.length + m.length, t⟩ :: rs) (u ++ (m ++ v)) = u ++ (t ++ v') := by
  have hdrop : (u ++ (m ++ v')).drop (u.length + m.length) = v' := by
    rw [← List.append_assoc, ← List.length_append, List.drop_left]
  rw [edit_cons, hrs, Range.replace, List.take_left, hdrop, List.append_assoc]

section step

variable {ls m n rest : List Lexeme}

lemma edit_lexemes (us m n rest : List Lexeme) {rest' : List Lexeme} {rs : List (Range Char)}
    {i j : ℕ} {t : Text} (hi : i = (spell us).length) (hj : j = i + (spell m).length)
    (ht : t = spell n)
    (hrs : edit rs (spell (us ++ (m ++ rest))) = spell (us ++ (m ++ rest'))) :
    edit (⟨i, j, t⟩ :: rs) (spell (us ++ (m ++ rest))) = spell (us ++ (n ++ rest')) := by
  subst hi hj ht
  simp only [spell_append] at hrs ⊢
  exact edit_range hrs

lemma apply_lexemes (us m n rest : List Lexeme) {r : Round}
    (hr : r.ranges = [⟨(spell us).length, (spell us).length + (spell m).length, spell n⟩]) :
    apply (spell (us ++ (m ++ rest))) r = spell (us ++ (n ++ rest)) := by
  rw [apply, hr]
  exact edit_lexemes us m n rest rfl rfl rfl (edit_nil _)

/-- A round that does what a rule does. -/
lemma Rule.follows (h : Rule m n rest) (us : List Lexeme) {ls' : List Lexeme} (hcalm : Calm none ls)
    (hls : ls = us ++ (m ++ rest)) {r : Round} (htext : apply (spell ls) r = spell ls')
    (hls' : ls' = us ++ (n ++ rest))
    (hnext : ∃ ks ks', ls' = ks ++ ks' ∧ r.next = (spell ks).length) :
    ∃ ls', apply (spell ls) r = spell ls' ∧ Calm none ls' ∧ keptOf ls' = keptOf ls ∧
      Starts codeLexer (spell ls') r.next := by
  rw [hls] at hcalm
  have hnew := hcalm.swap h
  refine ⟨ls', htext, ?_, ?_, ?_⟩
  · rwa [hls']
  · rw [hls', hls, h.keptOf_swap us]
  · obtain ⟨ks, ks', heq, hlen⟩ := hnext
    rw [← hls', heq] at hnew
    rw [heq, hlen]
    exact hnew.starts_append

/-- A round that replaces nothing. -/
lemma follows_idle {I : List Lexeme → Prop} (hls : I ls) {k : ℕ}
    (hk : Starts codeLexer (spell ls) k) :
    ∃ ls', apply (spell ls) (skipTo k) = spell ls' ∧ I ls' ∧ keptOf ls' = keptOf ls ∧
      Starts codeLexer (spell ls') (skipTo k).next :=
  ⟨ls, rfl, hls, rfl, hk⟩

end step

lemma drop_spell (us vs : List Lexeme) : (spell (us ++ vs)).drop (spell us).length = spell vs := by
  rw [spell_append, List.drop_left]

/-! ### Whole words -/

/-- None of the keywords ends in another one. -/
def suffixFree (ks : List String) : Bool :=
  ks.all fun a => ks.all fun b => !(a.toList.isSuffixOf b.toList) || a.toList = b.toList

lemma endsIn_of_drop {ks : List String} {key : String} {w : Text} {k : ℕ} (hkey : key ∈ ks)
    (hdrop : (w.drop k).map Char.toUpper = key.toList) : endsIn ks w = true := by
  refine List.any_eq_true.2 ⟨key, hkey, ?_⟩
  rw [List.isSuffixOf_iff_suffix, ← hdrop, List.map_drop]
  exact List.drop_suffix _ _

lemma whole_word {ks : List String} {key : String} {w : Text} {k : ℕ} (hfree : suffixFree ks = true)
    (hkey : key ∈ ks) (hk : k < w.length) (hdrop : (w.drop k).map Char.toUpper = key.toList)
    (hw : isOneOf ks w = true) : k = 0 ∧ w.map Char.toUpper = key.toList := by
  obtain ⟨b, hb, hwb⟩ := isOneOf_iff.1 hw
  have hsuffix : key.toList.isSuffixOf b.toList = true := by
    rw [List.isSuffixOf_iff_suffix, ← hdrop, ← hwb, List.map_drop]
    exact List.drop_suffix _ _
  have hpair := List.all_eq_true.1 (List.all_eq_true.1 hfree key hkey) b hb
  rw [hsuffix, Bool.not_true, Bool.false_or, decide_eq_true_eq] at hpair
  have hlen := congrArg List.length (hdrop.trans (hpair.trans hwb.symm))
  simp only [List.length_map, List.length_drop] at hlen
  exact ⟨by omega, hwb.trans hpair.symm⟩

/-! ### SELECT hints -/

lemma selectHintPass_follows {hint : Text} (hhint : hint ∈ selectHints) :
    (selectHintPass hint).Follows (Calm none) := by
  have hsearched : ∀ hint ∈ selectHints, hint ∈ searched := by decide
  replace hsearched := hsearched hint hhint
  have hwords : ∀ hint ∈ selectHints, ∃ key ∈ hintWords, hint = key.toList ++ [' '] ∧
      key.toList ≠ [] ∧ key.toList.all isWordChar = true ∧
      key.toList.map Char.toUpper = key.toList := by decide
  obtain ⟨key, hkey, rfl, hne, hchars, hupper⟩ := hwords hint hhint
  intro ls pos i hcalm hmatch
  obtain ⟨us, w, vs, k, rfl, rfl, hk, hdrop, -⟩ :=
    hcalm.exists_word hne hchars (Or.inl rfl) hsearched hmatch
  rw [hupper] at hdrop
  have hquiet := hcalm.append_right.1.word w rfl
  have hwhole := (hquiet.hint (endsIn_of_drop hkey hdrop) (Or.inl rfl)).1
  obtain ⟨rfl, hw⟩ := whole_word (by decide) hkey hk hdrop hwhole
  have hlen : w.length = key.toList.length := by rw [← hw, List.length_map]
  have hrule : Rule [word w, mark ' '] [] vs := .selectHint hwhole
  refine hrule.follows us hcalm rfl (apply_lexemes us [word w, mark ' '] [] vs ?_) rfl
    ⟨[], _, rfl, rfl⟩
  show (selectHint (key.toList ++ [' ']) _).ranges = _
  simp [selectHint, Lexeme.text, hlen]

/-! ### Words between blanks -/

section between

variable {ls : List Lexeme} {u v : Text} {i : ℕ}

lemma Calm.word_blank_of_match {prev : Option Lexeme} {pattern : Text} (h : Calm prev ls)
    (hne : u ≠ []) (hu : u.all isWordChar = true)
    (hmatch : ciStartsWith (u ++ ' ' :: pattern) (spell ls) = true) :
    ∃ w vs, ls = word w :: mark ' ' :: vs ∧ w.map Char.toUpper = u.map Char.toUpper ∧
      ciStartsWith pattern (spell vs) = true := by
  obtain ⟨w, vs, rfl, hw, hrest⟩ := h.word_of_match hne hu (by decide) hmatch
  obtain ⟨vs, rfl, hpattern⟩ := h.2.mark_of_match (Or.inl rfl) hrest
  exact ⟨w, vs, rfl, hw, hpattern⟩

lemma Calm.exists_between (h : Calm none ls) (hne : u ≠ []) (hu : u.all isWordChar = true)
    (hsearched : ' ' :: (u ++ [' ']) ∈ searched)
    (hmatch : CodeMatch (spell ls) (' ' :: (u ++ [' '])) i) :
    ∃ us w vs, ls = us ++ mark ' ' :: word w :: mark ' ' :: vs ∧ i = (spell us).length ∧
      w.map Char.toUpper = u.map Char.toUpper := by
  obtain ⟨us, vs, rfl, hi, hrest⟩ := h.exists_blank hsearched hmatch
  obtain ⟨w, vs, rfl, hw, -⟩ := h.append_right.2.word_blank_of_match hne hu hrest
  exact ⟨us, w, vs, rfl, hi, hw⟩

end between

lemma isOneOf_of_upper {key : String} {ks : List String} {w : Text} (hkey : key ∈ ks)
    (hupper : key.toList.map Char.toUpper = key.toList)
    (hw : w.map Char.toUpper = key.toList.map Char.toUpper) : isOneOf ks w = true :=
  isOneOf_iff.2 ⟨key, hkey, hw.trans hupper⟩

lemma joinPass_follows : joinPass.Follows (Calm none) := by
  intro ls pos i hcalm hmatch
  obtain ⟨us, w, vs, rfl, rfl, hw⟩ :=
    hcalm.exists_between (u := "JOIN".toList) (by decide) (by decide) (by decide) hmatch
  have hlen : w.length = 4 := by simpa using congrArg List.length hw
  have hskip : Starts codeLexer (spell (us ++ mark ' ' :: word w :: mark ' ' :: vs))
      ((spell us).length + 6) := by
    have hls : us ++ mark ' ' :: word w :: mark ' ' :: vs =
        (us ++ [mark ' ', word w, mark ' ']) ++ vs := by simp
    rw [hls] at hcalm ⊢
    have hstart := hcalm.starts_append
    rwa [show (spell (us ++ [mark ' ', word w, mark ' '])).length = (spell us).length + 6 by
      simp [Lexeme.text, hlen]] at hstart
  show ∃ ls', apply _ (join _ _) = spell ls' ∧ _ ∧ _ ∧ Starts codeLexer _ (join _ _).next
  rw [join]
  split_ifs
  · exact follows_idle hcalm hskip
  · exact follows_idle hcalm hskip
  · have hrule : Rule [word w] [word "CROSS".toList, mark ' ', word "JOIN".toList]
        (mark ' ' :: vs) := .join (isOneOf_of_upper (by simp) (by decide) hw)
    refine hrule.follows (us ++ [mark ' ']) hcalm (by simp)
      (apply_lexemes us [mark ' ', word w, mark ' ']
        [mark ' ', word "CROSS".toList, mark ' ', word "JOIN".toList, mark ' '] vs ?_)
      (by simp) ⟨us ++ [mark ' ', word "CROSS".toList, mark ' ', word "JOIN".toList, mark ' '],
        vs, by simp, ?_⟩
    · simp [Lexeme.text, hlen]
    · simp [Lexeme.text]

lemma regexpPass_follows {kw : Text × Text} (hkw : kw ∈ regexpKeywords) :
    (regexpPass kw).Follows (Calm none) := by
  have hsearched : ∀ kw ∈ regexpKeywords, kw.1 ∈ searched := by decide
  replace hsearched := hsearched kw hkw
  have hwords : ∀ kw ∈ regexpKeywords, ∃ key ∈ ["REGEXP", "RLIKE"],
      key.toList ≠ [] ∧ key.toList.all isWordChar = true ∧
      key.toList.map Char.toUpper = key.toList ∧
      (kw = (' ' :: (key.toList ++ [' ']), " ~ ".toList) ∨
        kw = (' ' :: ("NOT".toList ++ ' ' :: (key.toList ++ [' '])), " !~ ".toList)) := by decide
  obtain ⟨key, hkey, hne, hchars, hupper, rfl | rfl⟩ := hwords kw hkw
  · intro ls pos i hcalm hmatch
    obtain ⟨us, w, vs, rfl, rfl, hw⟩ := hcalm.exists_between hne hchars hsearched hmatch
    have hlen : w.length = key.toList.length := by simpa using congrArg List.length hw
    have hrule : Rule [word w] [mark '~'] (mark ' ' :: vs) :=
      .regexp (isOneOf_of_upper hkey hupper hw)
    refine hrule.follows (us ++ [mark ' ']) hcalm (by simp)
      (apply_lexemes us [mark ' ', word w, mark ' '] [mark ' ', mark '~', mark ' '] vs ?_)
      (by simp) ⟨us, _, rfl, rfl⟩
    simp [regexpPass, regexp, Lexeme.text, hlen]
  · intro ls pos i hcalm hmatch
    obtain ⟨us, vs, rfl, rfl, hrest⟩ := hcalm.exists_blank hsearched hmatch
    have hright := hcalm.append_right.2
    obtain ⟨v, vs, rfl, hv, hrest⟩ := hright.word_blank_of_match (by decide) (by decide) hrest
    obtain ⟨w, vs, rfl, hw, -⟩ := hright.2.2.word_blank_of_match hne hchars hrest
    have hlenv : v.length = 3 := by simpa using congrArg List.length hv
    have hlen : w.length = key.toList.length := by simpa using congrArg List.length hw
    have hrule : Rule [word v, mark ' ', word w] [mark '!', mark '~'] (mark ' ' :: vs) :=
      .notRegexp (isOneOf_of_upper hkey hupper hw)
    refine hrule.follows (us ++ [mark ' ']) hcalm (by simp)
      (apply_lexemes us [mark ' ', word v, mark ' ', word w, mark ' ']
        [mark ' ', mark '!', mark '~', mark ' '] vs ?_) (by simp) ⟨us, _, rfl, rfl⟩
    simp [regexpPass, regexp, Lexeme.text, hlen, hlenv]
    omega

/-! ### STRAIGHT_JOIN -/

lemma isPartOf_of_drop {key : String} {w : Text} {k : ℕ}
    (h : key.toList <+: (w.drop k).map Char.toUpper) : isPartOf key w = true := by
  refine List.any_eq_true.2 ⟨(w.drop k).map Char.toUpper, ?_, List.isPrefixOf_iff_prefix.2 h⟩
  rw [List.mem_tails, List.map_drop]
  exact List.drop_suffix _ _

lemma straightJoinPass_follows : straightJoinPass.Follows (Calm none) := by
  intro ls pos i hcalm hmatch
  obtain ⟨us, w, vs, k, rfl, rfl, hk, hpart⟩ :=
    hcalm.exists_part (u := "STRAIGHT_JOIN".toList) (by decide) (by decide) (by decide) hmatch
  have hright := hcalm.append_right
  have hwhole := ((hright.1.word w rfl).straight (isPartOf_of_drop (k := k) hpart)).1
  obtain ⟨key, hkey, hw⟩ := isOneOf_iff.1 hwhole
  rw [List.mem_singleton.1 hkey] at hw
  have hlen : w.length = 13 := by simpa using congrArg List.length hw
  have hzero : k = 0 := by
    have hle := hpart.length_le
    simp only [List.length_map, List.length_drop, hlen] at hle
    have h13 : "STRAIGHT_JOIN".toList.length = 13 := by decide
    omega
  subst hzero
  have hnext : (spell (us ++ word w :: vs))[(spell us).length + 13]? = (spell vs).head? := by
    rw [spell_append, List.getElem?_append_right (by omega), Nat.add_sub_cancel_left, spell_cons,
      show (word w).text = w from rfl, List.getElem?_append_right (by omega), hlen,
      Nat.sub_self, List.head?_eq_getElem?]
  show ∃ ls', apply _ (straightJoin _ _) = spell ls' ∧ _ ∧ _ ∧
    Starts codeLexer _ (straightJoin _ _).next
  rw [Nat.add_zero, straightJoin, hnext]
  split_ifs with hhint hblank
  · obtain ⟨t, ht⟩ := List.head?_eq_some_iff.1 hblank
    have hci : ciStartsWith [' '] (spell vs) = true := by
      rw [ht]
      rfl
    obtain ⟨vs, rfl, -⟩ := hright.2.mark_of_match (Or.inl rfl) hci
    have hrule : Rule [word w, mark ' '] [] vs := .straightHint hwhole (Or.inr rfl)
    refine hrule.follows us hcalm rfl (apply_lexemes us [word w, mark ' '] [] vs ?_) rfl
      ⟨us, vs, rfl, rfl⟩
    simp [Lexeme.text, hlen]
  · have hrule : Rule [word w] [] vs := .straightHint hwhole (Or.inl rfl)
    refine hrule.follows us hcalm rfl (apply_lexemes us [word w] [] vs ?_) rfl ⟨us, vs, rfl, rfl⟩
    simp [Lexeme.text, hlen]
  · have hrule : Rule [word w] [word "JOIN".toList] vs := .straightJoin hwhole
    refine hrule.follows us hcalm rfl (apply_lexemes us [word w] [word "JOIN".toList] vs ?_) rfl
      ⟨us, _, rfl, rfl⟩
    simp [Lexeme.text, hlen]

/-! ### Calls -/

lemma behindCall_eq_some {ok : Lexeme → Bool} {ls vs : List Lexeme}
    (h : behindCall ok ls = some vs) :
    ∃ us, ls = us ++ mark ')' :: vs ∧ ∀ l ∈ us, ok l = true ∧ l ≠ mark ')' := by
  induction ls with
  | nil => cases h
  | cons l ls ih =>
      rw [behindCall] at h
      split_ifs at h with hclose hok
      · cases h
        exact ⟨[], by rw [hclose]; rfl, by simp⟩
      · obtain ⟨us, rfl, hus⟩ := ih h
        exact ⟨l :: us, rfl, List.forall_mem_cons.2 ⟨⟨hok, hclose⟩, hus⟩⟩

/-- The names between the parentheses hold no closing one. -/
lemma Calm.close_not_mem {prev : Option Lexeme} {us vs : List Lexeme} (h : Calm prev (us ++ vs))
    (hus : ∀ l ∈ us, isName l = true ∧ l ≠ mark ')') : ')' ∉ spell us := by
  induction us generalizing prev with
  | nil => simp
  | cons l us ih =>
      rw [List.forall_mem_cons] at hus
      rw [spell_cons, List.mem_append, not_or]
      refine ⟨fun hmem => ?_, ih h.2 hus.2⟩
      cases l with
      | word w => exact absurd (h.1.formed.2 _ hmem) (by decide)
      | mark c => exact hus.1.2 (by rw [List.mem_singleton.1 hmem])
      | region hinted r =>
          have hname := hus.1.1
          rw [isName, Bool.and_eq_true, decide_eq_true_eq] at hname
          exact hname.2 hmem

lemma find_char {c : Char} {u v : Text} (h : c ∉ u) : find [c] (u ++ c :: v) = some u.length := by
  induction u with
  | nil => simp [find, List.isPrefixOf]
  | cons d u ih =>
      rw [List.mem_cons, not_or] at h
      rw [List.cons_append, find, ih h.2, if_neg (by simp [List.isPrefixOf, h.1])]
      rfl

/-- The closing parenthesis that a pass takes is the one of the call. -/
lemma Calm.find_close {prev : Option Lexeme} {us vs : List Lexeme}
    (h : Calm prev (us ++ mark ')' :: vs)) (hus : ∀ l ∈ us, isName l = true ∧ l ≠ mark ')') :
    find [')'] (spell (us ++ mark ')' :: vs)) = some (spell us).length := by
  rw [spell_append]
  exact find_char (h.close_not_mem hus)

lemma timePass_follows {kw : Text × Text} (hkw : kw ∈ timeKeywords) :
    (timePass kw).Follows (Calm none) := by
  have hsearched : ∀ kw ∈ timeKeywords, kw.1 ∈ searched := by decide
  replace hsearched := hsearched kw hkw
  have hwords : ∀ kw ∈ timeKeywords, ∃ key ∈ timeWords, kw.1 = key.toList ++ ['('] ∧
      key.toList ≠ [] ∧ key.toList.all isWordChar = true ∧
      key.toList.map Char.toUpper = key.toList ∧ kw.2 ≠ [] ∧ kw.2.all isWordChar = true ∧
      isOneOf timeWords kw.2 = true := by decide
  obtain ⟨key, hkey, hkw1, hne, hchars, hupper, hne', hchars', hkw'⟩ := hwords kw hkw
  intro ls pos i hcalm hmatch
  rw [show (timePass kw).pattern = _ from hkw1] at hmatch
  rw [hkw1] at hsearched
  obtain ⟨us, w, vs, k, rfl, rfl, hk, hdrop, -⟩ :=
    hcalm.exists_word hne hchars (Or.inr rfl) hsearched hmatch
  rw [hupper] at hdrop
  have hright := hcalm.append_right
  obtain ⟨hwhole, hcall⟩ := (hright.1.word w rfl).time (endsIn_of_drop hkey hdrop) rfl
  obtain ⟨rest, hrest, hends⟩ := (Option.any_eq_true _ _).1 hcall
  obtain ⟨args, hvs, hargs⟩ := behindCall_eq_some hrest
  replace hvs : vs = args ++ mark ')' :: rest := hvs
  subst hvs
  obtain ⟨rfl, hw⟩ := whole_word (by decide) hkey hk hdrop hwhole
  have hlen : w.length = key.toList.length := by rw [← hw, List.length_map]
  have hfind := hright.2.2.find_close fun l hl =>
    ⟨isName_of_isArgument (hargs l hl).1, (hargs l hl).2⟩
  have hrule : Rule (word w :: mark '(' :: (args ++ [mark ')'])) [word kw.2] rest :=
    .time hwhole ⟨hne', List.all_eq_true.1 hchars'⟩ hkw' hargs hends
  have hdropText : (spell (us ++ word w :: mark '(' :: (args ++ mark ')' :: rest))).drop
      ((spell us).length + 0 + kw.1.length) = spell (args ++ mark ')' :: rest) := by
    have htext := drop_spell (us ++ [word w, mark '(']) (args ++ mark ')' :: rest)
    have hlength : (spell (us ++ [word w, mark '('])).length =
        (spell us).length + 0 + kw.1.length := by
      simp [Lexeme.text, hkw1, hlen]
    rwa [hlength, List.append_assoc] at htext
  show ∃ ls', apply _ (currentTime _ _ _ _) = spell ls' ∧ _ ∧ _ ∧
    Starts codeLexer _ (currentTime _ _ _ _).next
  rw [currentTime, hdropText, hfind]
  have hls : us ++ word w :: mark '(' :: (args ++ mark ')' :: rest) =
      us ++ ((word w :: mark '(' :: (args ++ [mark ')'])) ++ rest) := by simp
  rw [hls] at hcalm ⊢
  refine hrule.follows us hcalm rfl (apply_lexemes us _ _ rest ?_) rfl ⟨us, _, rfl, rfl⟩
  simp [Lexeme.text, hkw1, hlen]
  omega

/-- The blanks at the beginning are lexemes. -/
lemma Calm.spaces_spell {prev : Option Lexeme} {vs : List Lexeme} (h : Calm prev vs) :
    ∃ blanks rest, vs = blanks ++ rest ∧ (∀ l ∈ blanks, l = mark ' ') ∧
      spaces (spell vs) = (spell blanks).length := by
  induction vs generalizing prev with
  | nil => exact ⟨[], [], rfl, by simp, rfl⟩
  | cons l vs ih =>
      by_cases hl : l = mark ' '
      · obtain ⟨blanks, rest, rfl, hblanks, hspaces⟩ := ih h.2
        refine ⟨l :: blanks, rest, rfl, List.forall_mem_cons.2 ⟨hl, hblanks⟩, ?_⟩
        subst hl
        rw [spaces] at hspaces ⊢
        simpa [Lexeme.text] using hspaces
      · refine ⟨[], l :: vs, rfl, by simp, ?_⟩
        cases hhead : (spell (l :: vs)).head? with
        | none =>
            rw [List.head?_eq_none_iff] at hhead
            rw [hhead]
            rfl
        | some d =>
            obtain ⟨t, ht⟩ := List.head?_eq_some_iff.1 hhead
            have hd : d ≠ ' ' := by
              rintro rfl
              have hci : ciStartsWith [' '] (spell (l :: vs)) = true := by
                rw [ht]
                rfl
              obtain ⟨_, hmark, -⟩ := h.mark_of_match (Or.inl rfl) hci
              cases hmark
              exact hl rfl
            rw [ht, spaces, List.takeWhile_cons_of_neg (by simpa using hd)]
            rfl

/-- An index hint that is found stands there as a whole. -/
lemma Calm.exists_indexHint {hint : Text} (hhint : hint ∈ indexHints) {ls : List Lexeme} {i : ℕ}
    (hcalm : Calm none ls) (hmatch : CodeMatch (spell ls) hint i) :
    ∃ us w j names rest,
      ls = us ++ ([word w, mark ' ', word j, mark '('] ++ (names ++ mark ')' :: rest)) ∧
      i = (spell us).length ∧
      (spell [word w, mark ' ', word j, mark '(']).length = hint.length ∧
      isOneOf indexWords w = true ∧ isOneOf ["INDEX"] j = true ∧
      ∀ l ∈ names, isName l = true ∧ l ≠ mark ')' := by
  have hsearched : ∀ hint ∈ indexHints, hint ∈ searched := by decide
  replace hsearched := hsearched hint hhint
  have hwords : ∀ hint ∈ indexHints, ∃ key ∈ indexWords,
      hint = key.toList ++ ' ' :: ("INDEX".toList ++ ['(']) ∧ key.toList ≠ [] ∧
      key.toList.all isWordChar = true ∧ key.toList.map Char.toUpper = key.toList := by decide
  obtain ⟨key, hkey, rfl, hne, hchars, hupper⟩ := hwords hint hhint
  obtain ⟨us, w, vs, k, rfl, rfl, hk, hdrop, hrest⟩ :=
    hcalm.exists_word hne hchars (Or.inl rfl) hsearched hmatch
  rw [hupper] at hdrop
  have hright := hcalm.append_right
  obtain ⟨j, vs, rfl, hj, hrest⟩ := hright.2.2.word_of_match (by decide) (by decide)
    (by decide) hrest
  obtain ⟨vs, rfl, -⟩ := hright.2.2.2.mark_of_match (Or.inr rfl) hrest
  have hindex : isOneOf ["INDEX"] j = true := isOneOf_of_upper (by simp) (by decide) hj
  have hstart : startsIndex (word j :: mark '(' :: vs) = true := by
    rw [startsIndex, hindex]
    rfl
  obtain ⟨-, -, hwhole, -, hcall⟩ := hright.1.index hstart
  obtain ⟨rest, hbehind⟩ := Option.isSome_iff_exists.1 hcall
  obtain ⟨names, hvs, hnames⟩ := behindCall_eq_some hbehind
  replace hvs : vs = names ++ mark ')' :: rest := hvs
  obtain ⟨rfl, hw⟩ := whole_word (by decide) hkey hk hdrop hwhole
  have hlen : w.length = key.toList.length := by rw [← hw, List.length_map]
  have hlenj : j.length = 5 := by simpa using congrArg List.length hj
  refine ⟨us, w, j, names, rest, by rw [hvs]; rfl, rfl, ?_, hwhole, hindex, hnames⟩
  simp [Lexeme.text, hlen, hlenj]

lemma indexHintPass_follows {hint : Text} (hhint : hint ∈ indexHints) :
    (indexHintPass hint).Follows (Calm none) := by
  intro ls pos i hcalm hmatch
  obtain ⟨us, w, j, names, vs, rfl, rfl, hlen, hw, hj, hnames⟩ :=
    hcalm.exists_indexHint hhint hmatch
  have hright := hcalm.append_right.append_right
  have hfind := hright.find_close hnames
  obtain ⟨blanks, rest, rfl, hblanks, hspaces⟩ := hright.append_right.2.spaces_spell
  have hrule : Rule ([word w, mark ' ', word j, mark '('] ++ (names ++ mark ')' :: blanks))
      [] rest := .indexHint hw hj (fun l hl => (hnames l hl).1) hblanks
  -- the text behind the opening and behind the closing parenthesis
  have hopen : (spell (us ++ ([word w, mark ' ', word j, mark '('] ++
      (names ++ mark ')' :: (blanks ++ rest))))).drop ((spell us).length + hint.length) =
      spell (names ++ mark ')' :: (blanks ++ rest)) := by
    rw [← hlen, ← List.drop_drop, drop_spell, drop_spell]
  have hclose : (spell (us ++ ([word w, mark ' ', word j, mark '('] ++
      (names ++ mark ')' :: (blanks ++ rest))))).drop ((spell us).length + hint.length +
        (spell names).length + 1) = spell (blanks ++ rest) := by
    rw [← List.drop_drop, ← List.drop_drop, hopen, drop_spell]
    rfl
  show ∃ ls', apply _ (indexHint _ _ _) = spell ls' ∧ _ ∧ _ ∧
    Starts codeLexer _ (indexHint _ _ _).next
  rw [indexHint, hopen, hfind]
  simp only [hclose, hspaces]
  have hls : us ++ ([word w, mark ' ', word j, mark '('] ++
      (names ++ mark ')' :: (blanks ++ rest))) =
      us ++ (([word w, mark ' ', word j, mark '('] ++ (names ++ mark ')' :: blanks)) ++
        rest) := by simp
  rw [hls] at hcalm ⊢
  refine hrule.follows us hcalm rfl (apply_lexemes us _ _ rest ?_) rfl ⟨us, _, rfl, rfl⟩
  rw [spell_append, List.length_append, hlen]
  simp [Lexeme.text]
  omega

end DuckdbEngine.Pushdown
