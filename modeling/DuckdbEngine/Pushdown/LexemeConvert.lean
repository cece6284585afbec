/-
`CONVERT` on the lexemes of a calm query.

The scan over the arguments counts parentheses and takes the first comma, in code or not.
If no region up to the closing parenthesis holds one of these (`quietCall`), the parts that
are replaced are lexemes: the keyword, the comma with the blanks behind it, and the blanks
in front of the closing parenthesis.
-/
import DuckdbEngine.Pushdown.ConvertTree
import DuckdbEngine.Pushdown.LexemeRounds

namespace DuckdbEngine.Pushdown

open Sql TextEdits Lexing
open Lexeme (word mark region)

/-! ### Regions between the parentheses of `CONVERT` -/

/-- Nothing in the region can be mistaken for a part of the call around it. -/
def Lexeme.isTame : Lexeme → Bool
  | region _ r => r.all Fragment.isPart && !r.getLast?.any Pushdown.isBlank
  | _ => true

/-- The depth of parentheses behind the lexeme. -/
def Lexeme.nest (depth : ℕ) : Lexeme → ℕ
  | mark c => if c = '(' then depth + 1 else if c = ')' then depth - 1 else depth
  | _ => depth

/-- Up to the closing parenthesis there are tame lexemes only. -/
def tameCall : ℕ → List Lexeme → Bool
  | _, [] => true
  | depth, l :: ls => depth = 0 || (l.isTame && tameCall (l.nest depth) ls)

/-- `CONVERT` with a parenthesis is a whole word and its call is tame, or it ends a longer name. -/
def quietCall (w : Text) (rest : List Lexeme) : Bool :=
  !endsIn ["CONVERT"] w ||
    if isOneOf ["CONVERT"] w then tameCall 1 rest
    else (w.take (w.length - 7)).getLast?.any isIdentChar

/-- Every word satisfies the condition, with what follows it. -/
def EachWord (Q : Text → List Lexeme → Bool) : List Lexeme → Prop
  | [] => True
  | l :: ls => (l.isWord = true → Q l.text ls = true) ∧ EachWord Q ls

instance decidableEachWord (Q : Text → List Lexeme → Bool) : ∀ ls, Decidable (EachWord Q ls)
  | [] => inferInstanceAs (Decidable True)
  | l :: ls =>
      have := decidableEachWord Q ls
      inferInstanceAs (Decidable ((l.isWord = true → Q l.text ls = true) ∧ EachWord Q ls))

/-- Every word with a parenthesis behind it satisfies the condition. -/
abbrev Calls (Q : Text → List Lexeme → Bool) : List Lexeme → Prop :=
  EachWord fun w rest => !callFollows rest || Q w rest.tail

lemma tameCall_zero (ls : List Lexeme) : tameCall 0 ls = true := by
  cases ls with
  | nil => rfl
  | cons l ls => rfl

/-- A lexeme without parentheses. -/
def Lexeme.isFlat (l : Lexeme) : Bool := l.isTame && l ≠ mark '(' && l ≠ mark ')'

lemma tameCall_flat {l : Lexeme} (hl : l.isFlat = true) (depth : ℕ) (ls : List Lexeme) :
    tameCall depth (l :: ls) = tameCall depth ls := by
  simp only [Lexeme.isFlat, Bool.and_eq_true, decide_eq_true_eq] at hl
  obtain ⟨⟨htame, hopen⟩, hclose⟩ := hl
  have hnest : l.nest depth = depth := by
    cases l with
    | word _ => rfl
    | region _ _ => rfl
    | mark c =>
        rw [Lexeme.nest, if_neg fun hc => hopen (by rw [hc]), if_neg fun hc => hclose (by rw [hc])]
  rw [tameCall, htame, hnest, Bool.true_and]
  by_cases hd : depth = 0
  · subst hd
    rw [tameCall_zero]
    rfl
  · simp [hd]

lemma tameCall_flats {ks : List Lexeme} (hks : ∀ l ∈ ks, l.isFlat = true) (depth : ℕ)
    (ls : List Lexeme) : tameCall depth (ks ++ ls) = tameCall depth ls := by
  induction ks with
  | nil => rfl
  | cons k ks ih =>
      rw [List.forall_mem_cons] at hks
      rw [List.cons_append, tameCall_flat hks.1, ih hks.2]

lemma tameCall_of_tame {ls : List Lexeme} (h : ∀ l ∈ ls, l.isTame = true) (depth : ℕ) :
    tameCall depth ls = true := by
  induction ls generalizing depth with
  | nil => rfl
  | cons l ls ih =>
      rw [List.forall_mem_cons] at h
      rw [tameCall, h.1, ih h.2, Bool.and_self, Bool.or_true]

lemma tameCall_swap {X Y : List Lexeme}
    (h : ∀ depth, tameCall depth X = true → tameCall depth Y = true)
    (ls : List Lexeme) (depth : ℕ) (hX : tameCall depth (ls ++ X) = true) :
    tameCall depth (ls ++ Y) = true := by
  induction ls generalizing depth with
  | nil => exact h depth hX
  | cons l ls ih =>
      rw [List.cons_append, tameCall, Bool.or_eq_true, Bool.and_eq_true] at hX ⊢
      exact hX.imp_right fun hl => ⟨hl.1, ih _ hl.2⟩

section eachWord

variable {Q : Text → List Lexeme → Bool} {ls : List Lexeme}

lemma EachWord.append_right {ks : List Lexeme} (h : EachWord Q (ls ++ ks)) : EachWord Q ks := by
  induction ls with
  | nil => exact h
  | cons l ls ih => exact ih h.2

lemma EachWord.mark_cons {c : Char} (h : EachWord Q ls) : EachWord Q (mark c :: ls) :=
  ⟨fun hword => (Bool.false_ne_true hword).elim, h⟩

lemma EachWord.word_cons {w : Text} (h : EachWord Q ls) (hw : Q w ls = true) :
    EachWord Q (word w :: ls) :=
  ⟨fun _ => hw, h⟩

/-- What is put in behind words leaves them as they were. -/
lemma EachWord.swap {Q' : Text → List Lexeme → Bool} {X Y : List Lexeme}
    (hQ : ∀ us w ks, ls = us ++ word w :: ks → Q w (ks ++ X) = true → Q' w (ks ++ Y) = true)
    (hXY : EachWord Q X → EachWord Q' Y) (h : EachWord Q (ls ++ X)) : EachWord Q' (ls ++ Y) := by
  induction ls with
  | nil => exact hXY h
  | cons l ls ih =>
      refine ⟨fun hword => ?_, ih (fun us w ks hls => ?_) h.2⟩
      · cases l with
        | word w => exact hQ [] w ls rfl (h.1 rfl)
        | mark _ => cases hword
        | region _ _ => cases hword
      · exact hQ (l :: us) w ks (by rw [hls]; rfl)

lemma Calls.mono {Q' : Text → List Lexeme → Bool} (h : Calls Q ls)
    (hQ : ∀ us w ks, ls = us ++ word w :: ks → Q w ks.tail = true → Q' w ks.tail = true) :
    Calls Q' ls := by
  rw [← List.append_nil ls] at h ⊢
  refine EachWord.swap (fun us w ks hls hw => ?_) (fun _ => trivial) h
  rw [List.append_nil, Bool.or_eq_true] at hw ⊢
  exact hw.imp_right (hQ us w ks hls)

/-- A rule keeps what holds of the calls before it, if it keeps what they ask of their
arguments. -/
lemma Calls.swap {m n rest : List Lexeme} (h : Rule m n rest)
    (hcalm : Calm none (ls ++ (m ++ rest)))
    (hQ : ∀ w ks, Q w (ks ++ (m ++ rest)) = true → Q w (ks ++ (n ++ rest)) = true)
    (hn : Calls Q (m ++ rest) → Calls Q (n ++ rest)) (hcalls : Calls Q (ls ++ (m ++ rest))) :
    Calls Q (ls ++ (n ++ rest)) := by
  refine EachWord.swap (fun us w ks hls hw => ?_) hn hcalls
  rw [hls, List.append_assoc] at hcalm
  cases ks with
  | nil =>
      -- no call is put together
      rw [List.nil_append, (h.head_mark hcalm.append_right.2).1]
      rfl
  | cons k ks =>
      rw [Bool.or_eq_true] at hw ⊢
      exact hw.imp_right (hQ w ks)

end eachWord

/-! ### The scan over the arguments -/

lemma convertScan_zero (s : Text) (i : ℕ) (comma : Option ℕ) :
    convertScan s i 0 comma = (i, 0, comma) := by
  cases s with
  | nil => rfl
  | cons c s => rw [convertScan, if_pos rfl]

/-- The call ends at `stop`; its lexemes are tame, and `comma` is where its first comma stands,
unless one has been found before. -/
def CallTo (ls : List Lexeme) (i stop comma : ℕ) (comma₀ : Option ℕ) : Prop :=
  ∃ us vs, ls = us ++ mark ')' :: vs ∧ stop = i + (spell us).length + 1 ∧
    (∀ l ∈ us, l.isTame = true) ∧
    (comma₀ = some comma ∨ comma₀ = none ∧
      ∃ xs ys, us = xs ++ mark ',' :: ys ∧ comma = i + (spell xs).length)

lemma CallTo.cons {l : Lexeme} {ls : List Lexeme} {i stop comma : ℕ} {comma₀ : Option ℕ}
    (hl : l.isTame = true) (h : CallTo ls (i + l.text.length) stop comma comma₀) :
    CallTo (l :: ls) i stop comma comma₀ := by
  obtain ⟨us, vs, rfl, hstop, hus, hcomma⟩ := h
  refine ⟨l :: us, vs, rfl, ?_, List.forall_mem_cons.2 ⟨hl, hus⟩, hcomma.imp_right ?_⟩
  · rw [spell_cons, List.length_append]
    omega
  · rintro ⟨hnone, xs, ys, rfl, hxs⟩
    refine ⟨hnone, l :: xs, ys, rfl, ?_⟩
    rw [spell_cons, List.length_append]
    omega

/-- The comma is found here. -/
lemma CallTo.comma {ls : List Lexeme} {i stop comma : ℕ}
    (h : CallTo ls (i + 1) stop comma (some i)) : CallTo (mark ',' :: ls) i stop comma none := by
  obtain ⟨us, vs, rfl, hstop, hus, hcomma⟩ := h
  refine ⟨mark ',' :: us, vs, rfl, ?_, List.forall_mem_cons.2 ⟨rfl, hus⟩,
    Or.inr ⟨rfl, [], us, rfl, ?_⟩⟩
  · rw [spell_cons, List.length_append, hstop]
    simp only [Lexeme.text, List.length_singleton]
    omega
  · rcases hcomma with hcomma | ⟨hcomma, -⟩
    · exact (Option.some.inj hcomma).symm
    · cases hcomma

lemma isPart_of_isWordChar {c : Char} (h : isWordChar c = true) : Fragment.isPart c = true := by
  by_contra hpart
  simp only [Fragment.isPart, Bool.and_eq_true, decide_eq_true_eq, not_and_or, not_not] at hpart
  rcases hpart with (rfl | rfl) | rfl <;> exact absurd h (by decide)

/-- The scan of `CONVERT` stops at the closing parenthesis of the call, and takes the first comma of
the code. -/
lemma Calm.convertScan_spell {prev : Option Lexeme} {ls : List Lexeme} (h : Calm prev ls)
    {depth i stop comma : ℕ} {comma₀ : Option ℕ} (hdepth : 0 < depth)
    (htame : tameCall depth ls = true)
    (hscan : convertScan (spell ls) i depth comma₀ = (stop, 0, some comma)) :
    CallTo ls i stop comma comma₀ := by
  induction ls generalizing prev i depth comma₀ with
  | nil =>
      rw [spell_nil, convertScan, Prod.mk.injEq, Prod.mk.injEq] at hscan
      omega
  | cons l ls ih =>
      rw [tameCall, decide_eq_false hdepth.ne', Bool.false_or, Bool.and_eq_true] at htame
      obtain ⟨hl, htame⟩ := htame
      rw [spell_cons] at hscan
      cases l with
      | word w =>
          have hpart : w.all Fragment.isPart = true :=
            List.all_eq_true.2 fun c hc => isPart_of_isWordChar (h.1.formed.2 c hc)
          rw [show (word w).text = w from rfl, convertScan_part hpart _ hdepth.ne'] at hscan
          exact (ih h.2 hdepth htame hscan).cons hl
      | region hinted r =>
          have hpart := hl
          rw [Lexeme.isTame, Bool.and_eq_true] at hpart
          rw [show (region hinted r).text = r from rfl,
            convertScan_part hpart.1 _ hdepth.ne'] at hscan
          exact (ih h.2 hdepth htame hscan).cons hl
      | mark c =>
          rw [show (mark c).text = [c] from rfl, List.singleton_append, convertScan,
            if_neg hdepth.ne'] at hscan
          rw [Lexeme.nest] at htame
          split_ifs at hscan htame with hopen hclose hfirst
          · exact (ih h.2 (Nat.succ_pos _) htame hscan).cons hl
          · rcases Nat.eq_zero_or_pos (depth - 1) with hzero | hpos
            · rw [hzero, convertScan_zero, Prod.mk.injEq, Prod.mk.injEq] at hscan
              exact ⟨[], ls, by rw [hclose]; rfl, hscan.1.symm, by simp, Or.inl hscan.2.2⟩
            · exact (ih h.2 hpos htame hscan).cons hl
          · simp only [Bool.and_eq_true, decide_eq_true_eq] at hfirst
            obtain ⟨⟨rfl, hone⟩, rfl⟩ := hfirst
            exact (ih h.2 hdepth htame hscan).comma
          · exact (ih h.2 hdepth htame hscan).cons hl

/-! ### The blanks around the type -/

section trim

variable {α : Type*} (p : α → Bool)

lemma exists_trim_right (l : List α) :
    ∃ m v, l = m ++ v ∧ (∀ a ∈ v, p a = true) ∧ ∀ a ∈ m.getLast?, p a = false := by
  induction l using List.reverseRecOn with
  | nil => exact ⟨[], [], rfl, by simp, by simp⟩
  | append_singleton l b ih =>
      cases hb : p b with
      | true =>
          obtain ⟨m, v, rfl, hv, hm⟩ := ih
          refine ⟨m, v ++ [b], by simp, ?_, hm⟩
          simp only [List.mem_append, List.mem_singleton]
          rintro a (ha | rfl)
          · exact hv a ha
          · exact hb
      | false => exact ⟨l ++ [b], [], by simp, by simp, by simpa using hb⟩

/-- A list is trimmed at both ends, unless there is nothing else in it. -/
lemma exists_trim (l : List α) :
    (∀ a ∈ l, p a = true) ∨ ∃ u m v, l = u ++ (m ++ v) ∧ (∀ a ∈ u, p a = true) ∧
      (∀ a ∈ v, p a = true) ∧ m ≠ [] ∧ (∀ a ∈ m.head?, p a = false) ∧
      ∀ a ∈ m.getLast?, p a = false := by
  induction l with
  | nil => exact Or.inl (by simp)
  | cons a l ih =>
      cases ha : p a with
      | true =>
          refine ih.imp (fun hl => List.forall_mem_cons.2 ⟨ha, hl⟩) ?_
          rintro ⟨u, m, v, rfl, hu, hv⟩
          exact ⟨a :: u, m, v, rfl, List.forall_mem_cons.2 ⟨ha, hu⟩, hv⟩
      | false =>
          obtain ⟨m, v, rfl, hv, hm⟩ := exists_trim_right p l
          refine Or.inr ⟨[], a :: m, v, rfl, by simp, hv, by simp, by simpa using ha, ?_⟩
          cases m with
          | nil => simpa using ha
          | cons b m => simpa using hm

end trim

lemma trimLengths_append {u t v : Text} (hu : ∀ c ∈ u, isBlank c = true)
    (hv : ∀ c ∈ v, isBlank c = true) (ht : t ≠ []) (hhead : ∀ c ∈ t.head?, isBlank c = false)
    (hlast : ∀ c ∈ t.getLast?, isBlank c = false) :
    trimLengths (u ++ (t ++ v)) = (u.length, v.length) := by
  obtain ⟨c, t', rfl⟩ := List.exists_cons_of_ne_nil ht
  have hc := hhead c rfl
  have hall : (u ++ (c :: t' ++ v)).all isBlank = false := by simp [hc]
  have hleft : (u ++ (c :: t' ++ v)).takeWhile isBlank = u := by
    rw [List.takeWhile_append_of_pos hu, List.cons_append,
      List.takeWhile_cons_of_neg (by simp [hc]), List.append_nil]
  have hright : (u ++ (c :: t' ++ v)).reverse.takeWhile isBlank = v.reverse := by
    obtain ⟨t'', d, hd⟩ := (List.eq_nil_or_concat (c :: t')).resolve_left (by simp)
    have hdb : isBlank d = false := hlast d (by rw [hd]; simp)
    rw [hd]
    simp only [List.concat_eq_append, List.reverse_append, List.reverse_cons,
      List.nil_append, List.append_assoc, List.cons_append]
    rw [List.takeWhile_append_of_pos (by simpa using hv),
      List.takeWhile_cons_of_neg (by simp [hdb]), List.append_nil]
  rw [trimLengths, if_neg (ne_true_of_eq_false hall), hleft, hright, List.length_reverse]

lemma Lexeme.isBlank_text {l : Lexeme} (h : l.isBlank = true) :
    ∀ c ∈ l.text, Pushdown.isBlank c = true := by
  cases l with
  | mark c =>
      intro d hd
      rw [List.mem_singleton.1 hd]
      exact h
  | word _ => cases h
  | region _ _ => cases h

/-- A lexeme other than a blank begins and ends with other characters. -/
lemma Lexeme.not_isBlank {l : Lexeme} (hform : l.WellFormed) (htame : l.isTame = true)
    (h : l.isBlank = false) : (∀ c ∈ l.text.head?, Pushdown.isBlank c = false) ∧
      ∀ c ∈ l.text.getLast?, Pushdown.isBlank c = false := by
  have hword : ∀ c, isWordChar c = true → Pushdown.isBlank c = false := fun c hc => by
    by_contra hb
    simp only [Pushdown.isBlank, Bool.not_eq_false, Bool.or_eq_true, decide_eq_true_eq] at hb
    rcases hb with rfl | rfl <;> exact absurd hc (by decide)
  cases l with
  | mark c =>
      replace h : Pushdown.isBlank c = false := h
      exact ⟨by simpa [Lexeme.text] using h, by simpa [Lexeme.text] using h⟩
  | word w =>
      exact ⟨fun c hc => hword c (hform.2 c (List.mem_of_mem_head? hc)),
        fun c hc => hword c (hform.2 c (List.mem_of_mem_getLast? hc))⟩
  | region hinted r =>
      rw [Lexeme.isTame, Bool.and_eq_true, Bool.not_eq_true'] at htame
      refine ⟨fun c hc => ?_, fun c hc => ?_⟩
      · replace hform : r.head?.any opensRegion = true := hform
        rw [show r.head? = some c from hc] at hform
        by_contra hb
        simp only [Pushdown.isBlank, Bool.not_eq_false, Bool.or_eq_true, decide_eq_true_eq] at hb
        rcases hb with rfl | rfl <;> exact absurd hform (by decide)
      · have hlast := htame.2
        rw [show r.getLast? = some c from hc] at hlast
        exact hlast

lemma Calm.formed {prev : Option Lexeme} {ls : List Lexeme} (h : Calm prev ls) :
    ∀ l ∈ ls, l.WellFormed := by
  induction ls generalizing prev with
  | nil => simp
  | cons l ls ih => exact List.forall_mem_cons.2 ⟨h.1.formed, ih h.2⟩

lemma getLast?_spell {l : Lexeme} (hl : l.text ≠ []) (ls : List Lexeme) :
    (spell (ls ++ [l])).getLast? = l.text.getLast? := by
  rw [spell_append, spell_cons, spell_nil, List.append_nil, List.getLast?_append_of_ne_nil _ hl]

/-- What is trimmed from the type are blanks before and behind it. -/
lemma Calm.trimLengths_spell {prev : Option Lexeme} {ys rest : List Lexeme}
    (h : Calm prev (ys ++ rest)) (hys : ∀ l ∈ ys, l.isTame = true) :
    ∃ bs type bs', ys = bs ++ (type ++ bs') ∧ (∀ b ∈ bs, b.isBlank = true) ∧
      (∀ b ∈ bs', b.isBlank = true) ∧
      trimLengths (spell ys) = ((spell bs).length, (spell bs').length) := by
  have hblanks : ∀ {bs : List Lexeme}, (∀ b ∈ bs, b.isBlank = true) →
      ∀ c ∈ spell bs, Pushdown.isBlank c = true := by
    intro bs hbs c hc
    obtain ⟨b, hb, hcb⟩ := List.mem_flatMap.1 hc
    exact Lexeme.isBlank_text (hbs b hb) c hcb
  rcases exists_trim Lexeme.isBlank ys with
    hall | ⟨bs, type, bs', rfl, hbs, hbs', hne, hhead, hlast⟩
  · refine ⟨[], ys, [], by simp, by simp, by simp, ?_⟩
    rw [trimLengths, if_pos (List.all_eq_true.2 (hblanks hall))]
    rfl
  · have hformed : ∀ l ∈ type, l.WellFormed := fun l hl => h.formed l (by simp [hl])
    have htame : ∀ l ∈ type, l.isTame = true := fun l hl => hys l (by simp [hl])
    refine ⟨bs, type, bs', rfl, hbs, hbs', ?_⟩
    rw [spell_append, spell_append]
    refine trimLengths_append (hblanks hbs) (hblanks hbs') ?_ ?_ ?_
    · obtain ⟨l, type, rfl⟩ := List.exists_cons_of_ne_nil hne
      have hl := Lexeme.text_ne_nil (hformed l List.mem_cons_self)
      simp [hl]
    · obtain ⟨l, type, rfl⟩ := List.exists_cons_of_ne_nil hne
      have hl := hformed l List.mem_cons_self
      rw [spell_cons, List.head?_append_of_ne_nil _ (Lexeme.text_ne_nil hl)]
      exact (Lexeme.not_isBlank hl (htame l List.mem_cons_self) (hhead l rfl)).1
    · obtain ⟨type, l, rfl⟩ := (List.eq_nil_or_concat type).resolve_left hne
      rw [List.concat_eq_append] at *
      have hl := hformed l (by simp)
      rw [getLast?_spell (Lexeme.text_ne_nil hl)]
      exact (Lexeme.not_isBlank hl (htame l (by simp)) (hlast l (by simp))).2

/-! ### `CONVERT` -/

section convert

variable {m n rest : List Lexeme}

/-- A rule without parentheses keeps what is asked of the arguments of `CONVERT`. -/
lemma quietCall_swap (hm : ∀ l ∈ m, l.isFlat = true) (hn : ∀ l ∈ n, l.isFlat = true) (w : Text)
    (ks : List Lexeme) (h : quietCall w (ks ++ (m ++ rest)) = true) :
    quietCall w (ks ++ (n ++ rest)) = true := by
  rw [quietCall] at h ⊢
  split_ifs at h ⊢ with hw
  · rw [Bool.or_eq_true] at h ⊢
    refine h.imp_right (tameCall_swap (fun depth => ?_) ks 1)
    rw [tameCall_flats hm, tameCall_flats hn]
    exact id
  · exact h

/-- What holds of a query from the first pass up to `CONVERT`. -/
def Convertible (ls : List Lexeme) : Prop := Calm none ls ∧ Calls quietCall ls

lemma Convertible.swap {ls : List Lexeme} (hls : Convertible (ls ++ (m ++ rest)))
    (h : Rule m n rest) (hm : ∀ l ∈ m, l.isFlat = true) (hn : ∀ l ∈ n, l.isFlat = true)
    (hcalls : Calls quietCall (m ++ rest) → Calls quietCall (n ++ rest)) :
    Convertible (ls ++ (n ++ rest)) :=
  ⟨hls.1.swap h, hls.2.swap h hls.1 (quietCall_swap hm hn) hcalls⟩

lemma isFlat_of_isBlank {l : Lexeme} (h : l.isBlank = true) : l.isFlat = true := by
  cases l with
  | word _ => cases h
  | region _ _ => cases h
  | mark c =>
      replace h : Pushdown.isBlank c = true := h
      simp only [Pushdown.isBlank, Bool.or_eq_true, decide_eq_true_eq] at h
      rcases h with rfl | rfl <;> decide

section call

variable {xs bs ts bs' vs : List Lexeme} {w : Text}

lemma Convertible.cast (us : List Lexeme) (h : Convertible (us ++ ([word w] ++ mark '(' :: vs)))
    (hw : isOneOf ["CONVERT"] w = true) :
    Convertible (us ++ ([word "CAST".toList] ++ mark '(' :: vs)) := by
  refine h.swap (.cast hw) (by simp [Lexeme.isFlat, Lexeme.isTame]) (by decide) fun hcalls => ?_
  exact ⟨fun _ => rfl, hcalls.2⟩

lemma Convertible.type (us : List Lexeme) (h : Convertible (us ++ (mark ',' :: bs ++ vs)))
    (hbs : ∀ b ∈ bs, b.isBlank = true) :
    Convertible (us ++ ([mark ' ', word "AS".toList, mark ' '] ++ vs)) := by
  refine h.swap (.type hbs) ?_ (by decide) fun hcalls => ?_
  · exact List.forall_mem_cons.2 ⟨by decide, fun b hb => isFlat_of_isBlank (hbs b hb)⟩
  · exact (hcalls.append_right.mark_cons.word_cons rfl).mark_cons

lemma Convertible.trim (us : List Lexeme) (h : Convertible (us ++ (bs ++ mark ')' :: vs)))
    (hbs : ∀ b ∈ bs, b.isBlank = true) : Convertible (us ++ mark ')' :: vs) := by
  by_cases hne : bs = []
  · rwa [hne] at h
  · exact h.swap (.trim hne hbs) (fun b hb => isFlat_of_isBlank (hbs b hb)) (by simp)
      fun hcalls => hcalls.append_right

/-- The three parts of a call of `CONVERT` are replaced one after the other. -/
lemma Convertible.convert {us : List Lexeme} (hw : isOneOf ["CONVERT"] w = true)
    (hbs : ∀ b ∈ bs, b.isBlank = true) (hbs' : ∀ b ∈ bs', b.isBlank = true)
    (h : Convertible (us ++ ([word w, mark '('] ++ (xs ++ (mark ',' :: bs ++
      (ts ++ (bs' ++ [mark ')'] ++ vs))))))) :
    Convertible (us ++ ([word "CAST".toList, mark '('] ++ (xs ++
      ([mark ' ', word "AS".toList, mark ' '] ++ (ts ++ ([mark ')'] ++ vs)))))) := by
  have hcast := Convertible.cast us (by simpa using h) hw
  have htype := Convertible.type (us ++ word "CAST".toList :: mark '(' :: xs)
    (by simpa using hcast) hbs
  have htrim := Convertible.trim (us ++ word "CAST".toList :: mark '(' :: (xs ++
    mark ' ' :: word "AS".toList :: mark ' ' :: ts)) (by simpa using htype) hbs'
  simpa using htrim

end call

end convert

/-- A call of `CONVERT` that the pass takes is one of this word. -/
lemma quietCall_whole {u w : Text} {k : ℕ} {vs : List Lexeme} (hk : k < w.length)
    (hdrop : (w.drop k).map Char.toUpper = "CONVERT".toList) (hquiet : quietCall w vs = true)
    (hbefore : ¬ (u ++ w.take k).getLast?.any isIdentChar = true) :
    k = 0 ∧ isOneOf ["CONVERT"] w = true ∧ w.length = 7 ∧ tameCall 1 vs = true := by
  have hends : endsIn ["CONVERT"] w = true := endsIn_of_drop (by simp) hdrop
  have hlen : w.length - k = 7 := by simpa using congrArg List.length hdrop
  rw [quietCall, hends, Bool.not_true, Bool.false_or] at hquiet
  split_ifs at hquiet with hw
  · obtain ⟨rfl, -⟩ := whole_word (by decide) (by simp) hk hdrop hw
    exact ⟨rfl, hw, by omega, hquiet⟩
  · refine absurd ?_ hbefore
    rw [show w.length - 7 = k by omega, Option.any_eq_true] at hquiet
    obtain ⟨c, hc, hident⟩ := hquiet
    rw [List.getLast?_append, hc]
    exact hident

/-- The ranges of `CONVERT`, on the lexemes of the call. -/
lemma convert_lexemes {us xs bs ts bs' vs : List Lexeme} {w : Text} (hlen : w.length = 7)
    {pos comma stop : ℕ} (hpos : pos = (spell us).length)
    (hcomma : comma = pos + 8 + (spell xs).length)
    (hstop : stop = comma + 1 + (spell bs).length + (spell ts).length + (spell bs').length + 1) :
    edit [⟨pos, pos + 8, "CAST(".toList⟩, ⟨comma, comma + 1 + (spell bs).length, " AS ".toList⟩,
        ⟨stop - 1 - (spell bs').length, stop, ")".toList⟩]
      (spell (us ++ ([word w, mark '('] ++ (xs ++ (mark ',' :: bs ++
        (ts ++ (bs' ++ [mark ')'] ++ vs))))))) =
      spell (us ++ ([word "CAST".toList, mark '('] ++ (xs ++
        ([mark ' ', word "AS".toList, mark ' '] ++ (ts ++ ([mark ')'] ++ vs)))))) := by
  have hclose := edit_lexemes (us ++ [word w, mark '('] ++ xs ++ mark ',' :: bs ++ ts)
    (bs' ++ [mark ')']) [mark ')'] vs (i := stop - 1 - (spell bs').length) (j := stop)
    (t := ")".toList) (by simp [Lexeme.text]; omega) (by simp [Lexeme.text]; omega) rfl
    (edit_nil _)
  have htype := edit_lexemes (us ++ [word w, mark '('] ++ xs) (mark ',' :: bs)
    [mark ' ', word "AS".toList, mark ' '] _ (i := comma) (j := comma + 1 + (spell bs).length)
    (t := " AS ".toList) (by simp [Lexeme.text]; omega) (by simp [Lexeme.text]; omega) rfl
    (by simpa only [List.append_assoc] using hclose)
  simpa only [List.append_assoc] using edit_lexemes us [word w, mark '(']
    [word "CAST".toList, mark '('] _ (t := "CAST(".toList) hpos (by simp [Lexeme.text, hlen]) rfl
    (by simpa only [List.append_assoc] using htype)

lemma slice_spell (us ys vs : List Lexeme) {i j : ℕ} (hi : i = (spell us).length)
    (hj : j = i + (spell ys).length) : slice (spell (us ++ (ys ++ vs))) i j = spell ys := by
  rw [hj, slice_add, hi, drop_spell, spell_append, List.take_left]

/-- A round that replaces the parts of a call. -/
lemma Convertible.convert_follows {us xs ys vs : List Lexeme} {w : Text} {pos comma stop : ℕ}
    (h : Convertible (us ++ word w :: mark '(' :: (xs ++ mark ',' :: ys ++ mark ')' :: vs)))
    (hw : isOneOf ["CONVERT"] w = true) (hlen : w.length = 7) (hys : ∀ l ∈ ys, l.isTame = true)
    (hpos : pos = (spell us).length) (hcomma : comma = pos + 8 + (spell xs).length)
    (hstop : stop = comma + 1 + (spell ys).length + 1) {ls : List Lexeme}
    (hls : ls = us ++ word w :: mark '(' :: (xs ++ mark ',' :: ys ++ mark ')' :: vs)) :
    ∃ ls', edit [⟨pos, pos + 8, "CAST(".toList⟩,
        ⟨comma, comma + 1 + (trimLengths (slice (spell ls) (comma + 1) (stop - 1))).1,
          " AS ".toList⟩,
        ⟨stop - 1 - (trimLengths (slice (spell ls) (comma + 1) (stop - 1))).2, stop, ")".toList⟩]
        (spell ls) = spell ls' ∧
      Convertible ls' ∧ keptOf ls' = keptOf ls ∧ Starts codeLexer (spell ls') pos := by
  have hsplit : ls = (us ++ word w :: mark '(' :: (xs ++ [mark ','])) ++
      (ys ++ mark ')' :: vs) := by simp [hls]
  have hslice : slice (spell ls) (comma + 1) (stop - 1) = spell ys := by
    rw [hsplit]
    refine slice_spell _ ys _ ?_ (by omega)
    simp [Lexeme.text, hlen]
    omega
  rw [← hls] at h
  have hcalm := h.1
  rw [hsplit] at hcalm
  obtain ⟨bs, ts, bs', rfl, hbs, hbs', htrim⟩ := hcalm.append_right.trimLengths_spell hys
  have hparts : ls = us ++ ([word w, mark '('] ++ (xs ++ (mark ',' :: bs ++
      (ts ++ (bs' ++ [mark ')'] ++ vs))))) := by simp [hls]
  rw [hparts] at h
  have hnew := h.convert hw hbs hbs'
  refine ⟨_, ?_, hnew, ?_, ?_⟩
  · rw [hslice, htrim, hparts]
    refine convert_lexemes hlen hpos hcomma ?_
    simp only [spell_append, List.length_append] at hstop
    omega
  · have hblanks : ∀ {bs : List Lexeme}, (∀ b ∈ bs, b.isBlank = true) → keptOf bs = [] :=
      fun hbs => List.filterMap_eq_nil_iff.2 fun b hb => kept_of_isBlank (hbs b hb)
    simp [hparts, hblanks hbs, hblanks hbs']
  · rw [hpos]
    exact hnew.1.starts_append

lemma convertPass_follows : convertPass.Follows Convertible := by
  rintro ls pos i ⟨hcalm, hcalls⟩ hmatch
  have hbound := hmatch.2.bound (by decide)
  have hskip : Starts codeLexer (spell ls) (i + 1) :=
    hmatch.1.next (by have : convertPass.pattern.length = 8 := rfl; omega)
  obtain ⟨us, w, vs, k, rfl, rfl, hk, hdrop, -⟩ :=
    hcalm.exists_word (u := "CONVERT".toList) (by decide) (by decide) (Or.inr rfl) (by decide)
      hmatch
  show ∃ ls', apply _ (convert _ _) = spell ls' ∧ _ ∧ _ ∧ Starts codeLexer _ (convert _ _).next
  rw [convert]
  split_ifs with hbefore
  · exact follows_idle ⟨hcalm, hcalls⟩ hskip
  split
  · rename_i stop comma hscan
    have htake : (spell (us ++ word w :: mark '(' :: vs)).take ((spell us).length + k) =
        spell us ++ w.take k := by
      rw [spell_append, List.take_length_add_append, spell_cons, Lexeme.text,
        List.take_append_of_le_length hk.le]
    rw [htake] at hbefore
    obtain ⟨rfl, hw, hlen, htame⟩ :=
      quietCall_whole hk hdrop (hcalls.append_right.1 rfl) hbefore
    have hargs : (spell (us ++ word w :: mark '(' :: vs)).drop ((spell us).length + 0 + 8) =
        spell vs := by
      have hsplit : us ++ word w :: mark '(' :: vs = (us ++ [word w, mark '(']) ++ vs := by simp
      have hwidth : (spell us).length + 0 + 8 = (spell (us ++ [word w, mark '('])).length := by
        simp [Lexeme.text, hlen]
      rw [hsplit, hwidth, drop_spell]
    rw [hargs] at hscan
    obtain ⟨args, vs, rfl, hstop, hargstame, hcomma⟩ :=
      hcalm.append_right.2.2.convertScan_spell Nat.zero_lt_one htame hscan
    obtain ⟨-, xs, ys, rfl, hxs⟩ := hcomma.resolve_left (by simp)
    exact Convertible.convert_follows ⟨hcalm, hcalls⟩ hw hlen
      (fun l hl => hargstame l (by simp [hl])) (by simp) hxs
      (by simp [hstop, hxs, Lexeme.text]; omega) rfl
  · exact follows_idle ⟨hcalm, hcalls⟩ hskip

end DuckdbEngine.Pushdown
