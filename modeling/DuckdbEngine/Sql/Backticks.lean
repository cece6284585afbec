/-
The rewriting of backticks keeps the regions of a text.

`backticks_to_double_quotes` replaces each backtick identifier by a double-quoted one
with the same name and copies everything else.  DuckDB cuts the result at the same
places as before, unless a backtick identifier and a double-quoted region stand next to
each other without anything between them: then the closing quote of the first and the
opening quote of the second read as one escaped quote, and the two become one region.
-/
import Mathlib.Data.List.Chain
import DuckdbEngine.Sql.Tokens

namespace DuckdbEngine.Sql

open Lexing

/-! ### Regions in front of another text -/

lemma find_append {pattern s : Text} {m : ℕ} (h : find pattern s = some m) (w : Text) :
    find pattern (s.take (m + pattern.length) ++ w) = some m := by
  induction s generalizing m with
  | nil =>
      rw [find] at h
      split at h <;> cases h
      have hnil : pattern = [] := by simpa using ‹pattern.isEmpty = true›
      cases w <;> simp [hnil, find]
  | cons c s ih =>
      rw [find] at h
      split at h
      case isTrue hp =>
          cases h
          obtain ⟨t, ht⟩ := List.isPrefixOf_iff_prefix.1 hp
          rw [← ht, Nat.zero_add, List.take_left' rfl]
          cases hpw : pattern ++ w with
          | nil => simp_all [find]
          | cons d r =>
              rw [find, if_pos]
              rw [← hpw]
              exact List.isPrefixOf_iff_prefix.2 (List.prefix_append pattern w)
      case isFalse hp =>
          obtain ⟨k, hk, rfl⟩ := Option.map_eq_some_iff.1 h
          have hlen := find_le hk
          rw [Nat.add_right_comm, List.take_succ_cons, List.cons_append, find, ih hk, if_neg]
          · rfl
          · -- the pattern would lie within the part that is kept
            intro hpre
            refine hp (List.isPrefixOf_iff_prefix.2 ?_)
            have hpre := List.isPrefixOf_iff_prefix.1 hpre
            rw [← List.cons_append, ← List.take_succ_cons] at hpre
            refine (List.prefix_of_prefix_length_le hpre (List.prefix_append _ _) ?_).trans
              (List.take_prefix _ _)
            rw [List.length_take, List.length_cons]
            omega

lemma quoteEnd_cons_ne {q c : Char} (h : c ≠ q) (s : Text) :
    quoteEnd q false (c :: s) = (quoteEnd q false s).map (· + 1) := by
  cases s <;> simp [quoteEnd, h]

lemma quoteEnd_pair (q : Char) (s : Text) :
    quoteEnd q false (q :: q :: s) = (quoteEnd q false s).map (· + 2) := by
  simp [quoteEnd]

lemma quoteEnd_close {q : Char} {s : Text} (h : s.head? ≠ some q) :
    quoteEnd q false (q :: s) = some 1 := by
  cases s with
  | nil => simp [quoteEnd]
  | cons d s =>
      have hd : d ≠ q := by simpa using h
      simp [quoteEnd, hd]

lemma double_cons_self (q : Char) (s : Text) : double q (q :: s) = q :: q :: double q s := by
  simp [double]

lemma double_cons_ne {q c : Char} (h : c ≠ q) (s : Text) : double q (c :: s) = c :: double q s := by
  simp [double, h]

/-- Doubled quotes do not end a region. -/
lemma quoteEnd_double_append (q : Char) (name t : Text) :
    quoteEnd q false (double q name ++ t) =
      (quoteEnd q false t).map (· + (double q name).length) := by
  induction name with
  | nil => simp [double]
  | cons c name ih =>
      by_cases hc : c = q
      · subst hc
        rw [double_cons_self, List.cons_append, List.cons_append, quoteEnd_pair, ih,
          Option.map_map]
        rfl
      · rw [double_cons_ne hc, List.cons_append, quoteEnd_cons_ne hc, ih, Option.map_map]
        rfl

/-- What is between the quotes of a region is a name with its quotes doubled. -/
lemma exists_double_of_quoteEnd {q : Char} {s : Text} {m : ℕ} (h : quoteEnd q false s = some m) :
    ∃ name rest, s = double q name ++ q :: rest ∧ m = (double q name).length + 1 ∧
      rest.head? ≠ some q := by
  induction hn : s.length using Nat.strong_induction_on generalizing s m with
  | _ n ih =>
      subst hn
      cases s with
      | nil => cases h
      | cons c s =>
          by_cases hc : c = q
          · subst hc
            by_cases hs : s.head? = some c
            · obtain ⟨s, rfl⟩ := List.head?_eq_some_iff.1 hs
              rw [quoteEnd_pair] at h
              obtain ⟨k, hk, rfl⟩ := Option.map_eq_some_iff.1 h
              have hshort : s.length < (c :: c :: s).length := by
                simp only [List.length_cons]
                omega
              obtain ⟨name, rest, hs, rfl, hrest⟩ := ih _ hshort hk rfl
              exact ⟨c :: name, rest, by rw [double_cons_self, hs]; rfl,
                by rw [double_cons_self]; rfl, hrest⟩
            · rw [quoteEnd_close hs] at h
              cases h
              exact ⟨[], s, rfl, rfl, hs⟩
          · rw [quoteEnd_cons_ne hc] at h
            obtain ⟨k, hk, rfl⟩ := Option.map_eq_some_iff.1 h
            obtain ⟨name, rest, hs, rfl, hrest⟩ := ih _ (by simp) hk rfl
            exact ⟨c :: name, rest, by rw [double_cons_ne hc, hs]; rfl,
              by rw [double_cons_ne hc]; rfl, hrest⟩

/-- A quoted region ends in front of another text where it ended before, unless that text begins
with the quote. -/
lemma quoteEnd_double_iff (q : Char) (name w : Text) :
    quoteEnd q false (double q name ++ q :: w) = some ((double q name).length + 1) ↔
      w.head? ≠ some q := by
  refine ⟨fun h hw => ?_, quoteEnd_double q name w⟩
  obtain ⟨w, rfl⟩ := List.head?_eq_some_iff.1 hw
  rw [quoteEnd_double_append, quoteEnd_pair, Option.map_map] at h
  obtain ⟨k, -, hk⟩ := Option.map_eq_some_iff.1 h
  simp only [Function.comp_apply] at hk
  omega

/-- What the rewriting makes of a name between backticks. -/
lemma requoteBody_double (name : Text) :
    requoteBody (double backtick name) = double dquote name := by
  have hne : backtick ≠ dquote := by decide
  induction name with
  | nil => rfl
  | cons c name ih =>
      by_cases hc : c = backtick
      · subst hc
        rw [double_cons_self, double_cons_ne hne, ← ih]
        simp [requoteBody]
      · rw [double_cons_ne hc]
        by_cases hd : c = dquote
        · subst hd
          rw [double_cons_self, ← ih]
          cases double backtick name <;> simp [requoteBody, hc]
        · rw [double_cons_ne hd, ← ih]
          cases double backtick name <;> simp [requoteBody, hc, hd]

/-! ### The kinds of pieces -/

/-- The length of the rest of the line, with the newline. -/
def restOfLine (t : Text) : ℕ := ((find ['\n'] t).map (· + 1)).getD t.length

lemma restOfLine_append {t w : Text} (hw : t.drop (restOfLine t) = [] → w = []) :
    restOfLine (t.take (restOfLine t) ++ w) = restOfLine t := by
  cases hf : find ['\n'] t with
  | none =>
      have hline : restOfLine t = t.length := by simp [restOfLine, hf]
      rw [hline] at hw ⊢
      rw [hw List.drop_length, List.take_length, List.append_nil, hline]
  | some m =>
      have hline : restOfLine t = m + 1 := by simp [restOfLine, hf]
      have hfw : find ['\n'] (t.take (m + 1) ++ w) = some m := find_append hf w
      rw [hline, restOfLine, hfw, Option.map_some, Option.getD_some]

lemma getD_add_restOfLine (t : Text) (k : ℕ) :
    ((find ['\n'] t).map (· + (k + 1))).getD (t.length + k) = restOfLine t + k := by
  cases hf : find ['\n'] t with
  | none => simp [restOfLine, hf]
  | some m => simp [restOfLine, hf]; omega

lemma scanSqlRegion_block (b : Bool) (s : Text) :
    scanSqlRegion b ('/' :: '*' :: s) =
      regionTo .comment ('/' :: '*' :: s) ((find ['*', '/'] s).map (· + 4)) := by
  simp [scanSqlRegion]

lemma scanSqlRegion_hash (b : Bool) (s : Text) :
    scanSqlRegion b ('#' :: s) = (.comment, restOfLine s + 1) := by
  rw [← getD_add_restOfLine s 1]
  simp [scanSqlRegion]

lemma scanSqlRegion_dashes (b : Bool) {s : Text} (h : s.head?.all isSpace = true) :
    scanSqlRegion b ('-' :: '-' :: s) = (.comment, restOfLine s + 2) := by
  rw [← getD_add_restOfLine s 2]
  simp [scanSqlRegion, h]

lemma scanSqlRegion_quote (b : Bool) {q : Char} (hq : q = squote ∨ q = dquote ∨ q = backtick)
    (s : Text) :
    scanSqlRegion b (q :: s) = regionTo .quoted (q :: s) ((quoteEnd q b s).map (· + 1)) := by
  rcases hq with rfl | rfl | rfl <;> simp [scanSqlRegion, squote, dquote, backtick]

/-- The first character of a region tells its kind. -/
lemma scanSqlRegion_cases (s : Text) :
    (scanSqlRegion false s = (.none, 0)) ∨
      (∃ t, s = '/' :: '*' :: t) ∨ (∃ t, s = '#' :: t) ∨
      (∃ t, s = '-' :: '-' :: t ∧ t.head?.all isSpace = true) ∨
      ∃ q t, s = q :: t ∧ (q = squote ∨ q = dquote ∨ q = backtick) := by
  cases s with
  | nil => exact Or.inl rfl
  | cons c s =>
      rw [scanSqlRegion]
      split_ifs with h₁ h₂ h₃ h₄
      · refine Or.inr (Or.inl ?_)
        cases s <;> simp_all
      · exact Or.inr (Or.inr (Or.inl ⟨s, by rw [h₂]⟩))
      · refine Or.inr (Or.inr (Or.inr (Or.inl ?_)))
        cases s <;> simp_all
      · exact Or.inr (Or.inr (Or.inr (Or.inr ⟨c, s, rfl, by simpa [or_assoc] using h₄⟩)))
      · exact Or.inl rfl

/-- A comment ends where it ended before, except that a comment to the end of the text must stay
at the end. -/
lemma scanSqlRegion_comment_append {s w : Text} {n : ℕ}
    (h : scanSqlRegion false s = (.comment, n)) (hw : s.drop n = [] → w = []) :
    scanSqlRegion false (s.take n ++ w) = (.comment, n) := by
  rcases scanSqlRegion_cases s with hnone | ⟨t, rfl⟩ | ⟨t, rfl⟩ | ⟨t, rfl, hsp⟩ | ⟨q, t, rfl, hq⟩
  · cases hnone.symm.trans h
  · rw [scanSqlRegion_block] at h
    cases hf : find ['*', '/'] t with
    | none => simp [hf, regionTo] at h
    | some m =>
        have hfw : find ['*', '/'] (t.take (m + 2) ++ w) = some m := find_append hf w
        simp only [hf, Option.map_some, regionTo, Prod.mk.injEq, true_and] at h
        subst h
        rw [List.take_succ_cons, List.take_succ_cons, List.cons_append, List.cons_append,
          scanSqlRegion_block, hfw]
        rfl
  · rw [scanSqlRegion_hash] at h
    cases h
    rw [List.take_succ_cons, List.cons_append, scanSqlRegion_hash, restOfLine_append hw]
  · rw [scanSqlRegion_dashes false hsp] at h
    cases h
    have hline := restOfLine_append hw
    rw [List.take_succ_cons, List.take_succ_cons, List.cons_append, List.cons_append,
      scanSqlRegion_dashes, hline]
    cases t with
    | nil => simp [hw rfl]
    | cons d t =>
        have hpos : restOfLine (d :: t) ≠ 0 := by
          rw [restOfLine]
          cases find ['\n'] (d :: t) <;> simp
        obtain ⟨k, hk⟩ := Nat.exists_eq_succ_of_ne_zero hpos
        simpa [hk] using hsp
  · rw [scanSqlRegion_quote false hq] at h
    cases hf : (quoteEnd q false t).map (· + 1) <;> simp [hf, regionTo] at h

/-- A quoted region: its quote, the name in it, and what follows. -/
lemma exists_of_quoted {s : Text} {n : ℕ} (h : scanSqlRegion false s = (.quoted, n)) :
    ∃ q name rest, (q = squote ∨ q = dquote ∨ q = backtick) ∧
      s = (q :: double q name ++ [q]) ++ rest ∧ n = (q :: double q name ++ [q]).length ∧
      rest.head? ≠ some q := by
  rcases scanSqlRegion_cases s with hnone | ⟨t, rfl⟩ | ⟨t, rfl⟩ | ⟨t, rfl, hsp⟩ | ⟨q, t, rfl, hq⟩
  · cases hnone.symm.trans h
  · rw [scanSqlRegion_block] at h
    cases hf : (find ['*', '/'] t).map (· + 4) <;> simp [hf, regionTo] at h
  · rw [scanSqlRegion_hash] at h
    cases h
  · rw [scanSqlRegion_dashes false hsp] at h
    cases h
  · rw [scanSqlRegion_quote false hq] at h
    cases hf : quoteEnd q false t with
    | none => simp [hf, regionTo] at h
    | some m =>
        simp only [hf, Option.map_some, regionTo, Prod.mk.injEq, true_and] at h
        obtain ⟨name, rest, rfl, rfl, hrest⟩ := exists_double_of_quoteEnd hf
        exact ⟨q, name, rest, hq, by simp, by simp [← h], hrest⟩

/-- A quoted region is cut off in front of another text exactly if that does not begin with its
quote. -/
lemma scanSqlRegion_quoted_iff {q : Char} (hq : q = squote ∨ q = dquote ∨ q = backtick)
    (name w : Text) :
    (scanSqlRegion false ((q :: double q name ++ [q]) ++ w) =
        (.quoted, (q :: double q name ++ [q]).length)) ↔ w.head? ≠ some q := by
  rw [← quoteEnd_double_iff q name w]
  simp only [List.cons_append, List.append_assoc, List.nil_append]
  rw [scanSqlRegion_quote false hq]
  cases hf : quoteEnd q false (double q name ++ q :: w) with
  | none => simp [regionTo]
  | some m => simp [regionTo]

/-! ### First pieces -/

/-- The first piece of a text, by its kind, and what follows it. -/
inductive FirstPiece : SqlRegionType × Text → Text → Prop where
  | code {c : Char} {v : Text} (h : duckdbRegion (c :: v) = (.none, 0)) :
      FirstPiece (.none, [c]) v
  | comment {u v : Text} (hu : u ≠ []) (h : duckdbRegion (u ++ v) = (.comment, u.length)) :
      FirstPiece (.comment, u) v
  | quoted {q : Char} (hq : q = squote ∨ q = dquote ∨ q = backtick) (name : Text) {v : Text}
      (hv : v.head? ≠ some q) : FirstPiece (.quoted, q :: double q name ++ [q]) v
  | unterminated {u : Text} (hu : u ≠ []) : FirstPiece (.unterminated, u) []

lemma exists_firstPiece (c : Char) (s : Text) :
    ∃ p v, FirstPiece p v ∧ c :: s = p.2 ++ v ∧
      (c :: s).drop (duckdbRegion.size (c :: s)) = v ∧
      pieces duckdbRegion (c :: s) = p :: pieces duckdbRegion v := by
  rcases hregion : duckdbRegion (c :: s) with ⟨k, n⟩
  have hpieces : pieces duckdbRegion (c :: s) = _ := pieces_cons c s
  rw [hregion] at hpieces
  have hsize : duckdbRegion.size (c :: s) = max 1 n := by rw [Lexer.size, hregion]
  have hbounds := scanSqlRegion_bounds false (c :: s)
  rw [← duckdbRegion, hregion] at hbounds
  refine ⟨_, _, ?_, (List.take_append_drop _ _).symm, rfl, hpieces⟩
  rw [hsize]
  cases k with
  | none =>
      obtain rfl : n = 0 := by simpa using hbounds
      exact .code hregion
  | comment =>
      obtain ⟨-, hpos, hle, -⟩ := hbounds.resolve_left (by simp)
      rw [max_eq_right hpos]
      have hlen : ((c :: s).take n).length = n := by rw [List.length_take, min_eq_left hle]
      refine .comment (List.length_pos_iff.1 (by rw [hlen]; exact hpos)) ?_
      rw [List.take_append_drop, hlen, hregion]
  | quoted =>
      obtain ⟨q, name, rest, hq, htext, rfl, hne⟩ := exists_of_quoted hregion
      rw [htext, max_eq_right (by simp), List.take_left' rfl, List.drop_left' rfl]
      exact .quoted hq name hne
  | unterminated =>
      obtain ⟨-, hpos, hle, hend⟩ := hbounds.resolve_left (by simp)
      have hn : n = (c :: s).length := hend rfl
      rw [max_eq_right hpos, hn, List.drop_length, List.take_length]
      exact .unterminated (by simp)

namespace FirstPiece

variable {p : SqlRegionType × Text} {v : Text}

lemma ne_nil (hp : FirstPiece p v) : p.2 ≠ [] := by
  cases hp with
  | code h => simp
  | comment hu h => exact hu
  | quoted hq name hv => simp
  | unterminated hu => exact hu

lemma head?_eq (hp : FirstPiece p v) : (p.2 ++ v).head? = p.2.head? :=
  List.head?_append_of_ne_nil _ hp.ne_nil

/-- A quote opens a quoted region. -/
lemma quoted_of_head? (hp : FirstPiece p v) (hk : p.1 ≠ .unterminated) {q : Char}
    (hq : q = squote ∨ q = dquote ∨ q = backtick) (hhead : p.2.head? = some q) :
    p.1 = .quoted := by
  have hscan : ∀ t, (scanSqlRegion false (q :: t)).1 = .quoted ∨
      (scanSqlRegion false (q :: t)).1 = .unterminated := by
    intro t
    rw [scanSqlRegion_quote false hq]
    cases (quoteEnd q false t).map (· + 1) <;> simp [regionTo]
  cases hp with
  | @code c v h =>
      obtain rfl : c = q := by simpa using hhead
      have hcode := hscan v
      rw [← duckdbRegion, h] at hcode
      simp at hcode
  | @comment u v hu h =>
      obtain ⟨u, rfl⟩ := List.head?_eq_some_iff.1 hhead
      have hcomment := hscan (u ++ v)
      rw [← duckdbRegion, ← List.cons_append, h] at hcomment
      simp at hcomment
  | quoted hq name hv => rfl
  | unterminated hu => exact absurd rfl hk

end FirstPiece

/-! ### The rewritten text -/

/-- A backtick identifier and a double-quoted region, in either order. -/
def Meets (p q : SqlRegionType × Text) : Prop :=
  p.1 = .quoted ∧ q.1 = .quoted ∧
    (p.2.head? = some backtick ∧ q.2.head? = some dquote ∨
      p.2.head? = some dquote ∧ q.2.head? = some backtick)

/-- No region of the text is unterminated. -/
def Terminated (s : Text) : Prop := ∀ p ∈ pieces duckdbRegion s, p.1 ≠ .unterminated

/-- The quote that takes the place of a quote. -/
def openingOf (c : Char) : Char := if c = backtick then dquote else c

lemma openingOf_quote {q : Char} (hq : q = squote ∨ q = dquote ∨ q = backtick) :
    openingOf q = squote ∨ openingOf q = dquote ∨ openingOf q = backtick := by
  rcases hq with rfl | rfl | rfl <;> decide

lemma openingOf_eq_self {c : Char} (h : c ≠ backtick) : openingOf c = c := if_neg h

lemma isSpace_openingOf (c : Char) : isSpace (openingOf c) = isSpace c := by
  by_cases hc : c = backtick
  · subst hc
    decide
  · rw [openingOf_eq_self hc]

/-- A character other than the double quote does not come from another one. -/
lemma eq_of_openingOf {o : Option Char} {d : Char} (hd : d ≠ dquote)
    (h : o.map openingOf = some d) : o = some d := by
  obtain ⟨c, rfl, hc⟩ := Option.map_eq_some_iff.1 h
  by_cases hb : c = backtick
  · subst hb
    exact absurd hc.symm hd
  · rw [openingOf_eq_self hb] at hc
    rw [hc]

lemma requote_of_not_quoted {k : SqlRegionType} {u : Text} (h : k ≠ .quoted) :
    requote (k, u) = u := by
  cases k <;> first | rfl | exact absurd rfl h

/-- The rewriting of a quoted region: the same name in the quotes of the result. -/
lemma requote_quoted {q : Char} (hq : q = squote ∨ q = dquote ∨ q = backtick) (name : Text) :
    requote (.quoted, q :: double q name ++ [q]) =
      openingOf q :: double (openingOf q) name ++ [openingOf q] := by
  rcases hq with rfl | rfl | rfl
  · simp [requote, openingOf, squote, backtick]
  · simp [requote, openingOf, dquote, backtick]
  · simp [requote, openingOf, requoteBody_double]

lemma backticks_of_pieces {s v : Text} {p : SqlRegionType × Text}
    (h : pieces duckdbRegion s = p :: pieces duckdbRegion v) :
    backticksToDoubleQuotes s = requote p ++ backticksToDoubleQuotes v := by
  rw [backticksToDoubleQuotes, h, List.flatMap_cons, ← backticksToDoubleQuotes]

/-- The first character of the rewriting of a first piece. -/
lemma head?_requote {p : SqlRegionType × Text} {v : Text} (hp : FirstPiece p v)
    (hk : p.1 ≠ .unterminated) (w : Text) :
    (requote p ++ w).head? = p.2.head?.map openingOf := by
  obtain ⟨c, u, hcu⟩ := List.exists_cons_of_ne_nil hp.ne_nil
  by_cases hquoted : p.1 = .quoted
  · cases hp with
    | quoted hq name hv =>
        rw [requote_quoted hq name]
        simp
    | _ => cases hquoted
  · have hc : c ≠ backtick := by
      rintro rfl
      exact hquoted (hp.quoted_of_head? hk (Or.inr (Or.inr rfl)) (by rw [hcu]; rfl))
    obtain ⟨k, t⟩ := p
    obtain rfl : t = c :: u := hcu
    simp [requote_of_not_quoted hquoted, openingOf_eq_self hc]

lemma head?_backticks {s : Text} (h : Terminated s) :
    (backticksToDoubleQuotes s).head? = s.head?.map openingOf := by
  cases s with
  | nil => rfl
  | cons c s =>
      obtain ⟨p, v, hp, htext, -, hpieces⟩ := exists_firstPiece c s
      rw [backticks_of_pieces hpieces, head?_requote hp (h p (by simp [hpieces])),
        ← hp.head?_eq, ← htext]

/-- The character behind a dash. -/
lemma tail_backticks_dash {s : Text} (h : Terminated ('-' :: s)) :
    (backticksToDoubleQuotes ('-' :: s)).tail.head? = s.head?.map openingOf := by
  obtain ⟨p, v, hp, htext, -, hpieces⟩ := exists_firstPiece '-' s
  have hv : Terminated v := fun r hr => h r (by rw [hpieces]; exact List.mem_cons_of_mem p hr)
  rw [backticks_of_pieces hpieces]
  cases hp with
  | @code c v hc =>
      obtain ⟨rfl, rfl⟩ := List.cons.inj htext
      exact head?_backticks hv
  | @comment u v hu hc =>
      rw [requote_of_not_quoted (by simp)]
      obtain ⟨t, ht, hsp⟩ : ∃ t, '-' :: s = '-' :: '-' :: t ∧ t.head?.all isSpace = true := by
        rcases scanSqlRegion_cases ('-' :: s) with
          hnone | ⟨t, ht⟩ | ⟨t, ht⟩ | hdashes | ⟨q, t, ht, hq⟩
        · rw [← htext, duckdbRegion, hnone] at hc
          cases hc
        · cases ht
        · cases ht
        · exact hdashes
        · obtain ⟨rfl, -⟩ := List.cons.inj ht
          simp [squote, dquote, backtick] at hq
      have hlen : u.length = restOfLine t + 2 := by
        rw [← htext, ht, duckdbRegion, scanSqlRegion_dashes false hsp] at hc
        exact (Prod.mk.inj hc).2.symm
      obtain ⟨a, u, rfl⟩ := List.exists_cons_of_length_eq_add_one hlen
      obtain ⟨b, u, rfl⟩ := List.exists_cons_of_length_eq_add_one (Nat.succ.inj hlen)
      simp only [List.cons_append, List.cons.injEq] at htext ht
      rw [htext.2] at ht ⊢
      obtain ⟨-, rfl, -⟩ := ht
      simp [openingOf, backtick]
  | @quoted q hq name v hv =>
      obtain ⟨rfl, -⟩ := List.cons.inj htext
      simp [squote, dquote, backtick] at hq
  | unterminated hu => exact absurd rfl (h _ (by rw [hpieces]; exact List.mem_cons_self))

/-- A character of code stays one. -/
lemma duckdbRegion_code {c : Char} {s : Text} (h : duckdbRegion (c :: s) = (.none, 0))
    (hs : Terminated s) : duckdbRegion (c :: backticksToDoubleQuotes s) = (.none, 0) := by
  have hhead := head?_backticks hs
  rcases scanSqlRegion_cases (c :: backticksToDoubleQuotes s) with
    hnone | ⟨t, ht⟩ | ⟨t, ht⟩ | ⟨t, ht, hsp⟩ | ⟨q, t, ht, hq⟩
  · exact hnone
  all_goals exfalso
  · obtain ⟨rfl, hout⟩ := List.cons.inj ht
    rw [hout] at hhead
    obtain ⟨s, rfl⟩ := List.head?_eq_some_iff.1 (eq_of_openingOf (by decide) hhead.symm)
    rw [duckdbRegion, scanSqlRegion_block] at h
    cases hf : (find ['*', '/'] s).map (· + 4) <;> simp [hf, regionTo] at h
  · obtain ⟨rfl, -⟩ := List.cons.inj ht
    rw [duckdbRegion, scanSqlRegion_hash] at h
    cases h
  · obtain ⟨rfl, hout⟩ := List.cons.inj ht
    rw [hout] at hhead
    obtain ⟨s, rfl⟩ := List.head?_eq_some_iff.1 (eq_of_openingOf (by decide) hhead.symm)
    have hsecond := tail_backticks_dash hs
    rw [hout, List.tail_cons] at hsecond
    have hspace : s.head?.all isSpace = true := by
      rw [hsecond] at hsp
      cases s with
      | nil => rfl
      | cons d s => simpa [isSpace_openingOf] using hsp
    rw [duckdbRegion, scanSqlRegion_dashes false hspace] at h
    cases h
  · obtain ⟨rfl, -⟩ := List.cons.inj ht
    rw [duckdbRegion, scanSqlRegion_quote false hq] at h
    cases hf : (quoteEnd c false s).map (· + 1) <;> simp [hf, regionTo] at h

/-! ### The pieces of the rewritten text -/

/-- A quoted region is cut off from what follows, or else the piece is longer. -/
lemma pieces_quoted {q : Char} (hq : q = squote ∨ q = dquote ∨ q = backtick) (name w : Text) :
    (w.head? ≠ some q →
        pieces duckdbRegion ((q :: double q name ++ [q]) ++ w) =
          (.quoted, q :: double q name ++ [q]) :: pieces duckdbRegion w) ∧
      (w.head? = some q →
        (pieces duckdbRegion ((q :: double q name ++ [q]) ++ w)).head? ≠
          some (.quoted, q :: double q name ++ [q])) := by
  have hiff := scanSqlRegion_quoted_iff hq name w
  refine ⟨fun hw => pieces_append (by simp) (hiff.2 hw), fun hw hpiece => hiff.1 ?_ hw⟩
  generalize hu : q :: double q name ++ [q] = u at hpiece ⊢
  obtain ⟨c, u, rfl⟩ : ∃ c t, u = c :: t := ⟨q, _, hu.symm⟩
  rw [List.cons_append, pieces_cons, List.head?_cons, Option.some.injEq, Prod.mk.injEq,
    ← List.cons_append] at hpiece
  obtain ⟨hkind, htake⟩ := hpiece
  have hlen := congrArg List.length htake
  have hbounds := scanSqlRegion_bounds false (c :: u ++ w)
  rw [← duckdbRegion] at hbounds
  rcases hbounds with hnone | ⟨-, hpos, hle, -⟩
  · rw [hnone] at hkind
    cases hkind
  · rw [Lexer.size_eq hpos, List.length_take, min_eq_left hle] at hlen
    exact Prod.ext hkind hlen

/-- Whether a piece meets the next one can be read off the text behind it. -/
lemma meets_iff {s : Text} (hs : Terminated s) (p : SqlRegionType × Text) :
    (∃ q ∈ (pieces duckdbRegion s).head?, Meets p q) ↔
      p.1 = .quoted ∧ (p.2.head? = some backtick ∧ s.head? = some dquote ∨
        p.2.head? = some dquote ∧ s.head? = some backtick) := by
  cases s with
  | nil => simp
  | cons c s =>
      obtain ⟨r, v, hr, htext, -, hpieces⟩ := exists_firstPiece c s
      have hterm := hs r (by simp [hpieces])
      have hhead : r.2.head? = some c := by rw [← hr.head?_eq, ← htext, List.head?_cons]
      rw [hpieces]
      simp only [List.head?_cons, Option.mem_some_iff, exists_eq_left', Meets, hhead]
      refine and_congr_right fun _ => ⟨And.right, fun h => ⟨?_, h⟩⟩
      refine hr.quoted_of_head? hterm (Or.inr ?_) hhead
      exact h.imp (Option.some_inj.1 ·.2) (Option.some_inj.1 ·.2)

/-- The rewriting of a first piece is the first piece of the rewritten text, exactly if the piece
does not meet the next one. -/
lemma pieces_requote {p : SqlRegionType × Text} {v : Text} (hp : FirstPiece p v)
    (hk : p.1 ≠ .unterminated) (hv : Terminated v) :
    ((¬ ∃ q ∈ (pieces duckdbRegion v).head?, Meets p q) →
        pieces duckdbRegion (requote p ++ backticksToDoubleQuotes v) =
          (p.1, requote p) :: pieces duckdbRegion (backticksToDoubleQuotes v)) ∧
      ((∃ q ∈ (pieces duckdbRegion v).head?, Meets p q) →
        (pieces duckdbRegion (requote p ++ backticksToDoubleQuotes v)).head? ≠
          some (p.1, requote p)) := by
  have hhead := head?_backticks hv
  rw [meets_iff hv]
  cases hp with
  | code h =>
      exact ⟨fun _ => pieces_single (duckdbRegion_code h hv), fun hm => by simp at hm⟩
  | @comment u v hu h =>
      rw [requote_of_not_quoted (by simp)]
      refine ⟨fun _ => pieces_append hu ?_, fun hm => by simp at hm⟩
      have hscan := scanSqlRegion_comment_append (w := backticksToDoubleQuotes v) h
      rw [List.take_left' rfl, List.drop_left' rfl] at hscan
      exact hscan fun hnil => by rw [hnil]; rfl
  | @quoted q hq name v hne =>
      have hsplit := pieces_quoted (openingOf_quote hq) name (backticksToDoubleQuotes v)
      -- the closing quote runs into what follows
      have hmeet : (backticksToDoubleQuotes v).head? = some (openingOf q) ↔
          (q = backtick ∧ v.head? = some dquote ∨ q = dquote ∧ v.head? = some backtick) := by
        rw [hhead]
        cases hvhead : v.head? with
        | none => simp
        | some d =>
            rw [hvhead, Ne, Option.some_inj] at hne
            rcases hq with rfl | rfl | rfl <;> by_cases hd : d = backtick <;>
              simp_all [openingOf, squote, dquote, backtick]
      rw [requote_quoted hq name]
      simp only [List.cons_append, List.head?_cons, Option.some_inj, true_and]
        at hsplit hmeet ⊢
      rw [← hmeet]
      exact hsplit
  | unterminated hu => exact absurd rfl hk

/-- What the rewriting makes of a piece. -/
def requotePiece (p : SqlRegionType × Text) : SqlRegionType × Text := (p.1, requote p)

/-- A backtick identifier becomes a double-quoted one with the same name; nothing else changes. -/
lemma requote_spec {p : SqlRegionType × Text} {v : Text} (hp : FirstPiece p v) :
    if p.1 = .quoted ∧ p.2.head? = some backtick then
      requote p = dquote :: double dquote (unquote backtick p.2) ++ [dquote] ∧
        unquote dquote (requote p) = unquote backtick p.2
    else requote p = p.2 := by
  cases hp with
  | code h => simp [requote]
  | comment hu h => simp [requote]
  | @quoted q hq name v hv =>
      have hname : ∀ r : Char, unquote r (r :: double r name ++ [r]) = name := fun r => by
        simp [unquote, undouble_double]
      split
      case isTrue hback =>
          obtain rfl : q = backtick := by simpa using hback.2
          have hopen : openingOf backtick = dquote := by decide
          rw [hname, requote_quoted hq name, hopen, hname]
          exact ⟨rfl, rfl⟩
      case isFalse hback =>
          have hq' : q ≠ backtick := by simpa using hback
          rw [requote_quoted hq name, openingOf_eq_self hq']
  | unterminated hu => simp [requote]

/-- DuckDB cuts the rewritten text where it cut the text before, with the same kinds of regions,
exactly if no backtick identifier stands directly next to a double-quoted region; and in any case
a backtick identifier becomes a double-quoted one with the same name. -/
theorem pieces_backticks_iff (sql : Text) (h : Terminated sql) :
    (pieces duckdbRegion (backticksToDoubleQuotes sql) =
        (pieces duckdbRegion sql).map requotePiece ↔
      (pieces duckdbRegion sql).IsChain fun p q => ¬ Meets p q) ∧
    ∀ p ∈ pieces duckdbRegion sql,
      if p.1 = .quoted ∧ p.2.head? = some backtick then
        requote p = dquote :: double dquote (unquote backtick p.2) ++ [dquote] ∧
          unquote dquote (requote p) = unquote backtick p.2
      else requote p = p.2 := by
  induction sql using cut_induction duckdbRegion with
  | nil => simp [backticksToDoubleQuotes]
  | cons c s ih =>
      obtain ⟨p, v, hp, -, hdrop, hpieces⟩ := exists_firstPiece c s
      rw [hdrop] at ih
      have hk := h p (by simp [hpieces])
      have hv : Terminated v := fun r hr => h r (by rw [hpieces]; exact List.mem_cons_of_mem p hr)
      obtain ⟨hiff, hnames⟩ := ih hv
      obtain ⟨hapart, hmeets⟩ := pieces_requote hp hk hv
      rw [backticks_of_pieces hpieces, hpieces, List.map_cons, List.isChain_cons, ← hiff,
        List.forall_mem_cons]
      refine ⟨?_, requote_spec hp, hnames⟩
      by_cases hm : ∃ q ∈ (pieces duckdbRegion v).head?, Meets p q
      · refine iff_of_false (fun heq => hmeets hm ?_) fun hall => ?_
        · rw [heq]
          rfl
        · obtain ⟨q, hq, hpq⟩ := hm
          exact hall.1 q hq hpq
      · rw [hapart hm, List.cons.injEq]
        exact and_congr_left fun _ => iff_of_true rfl fun q hq hpq => hm ⟨q, hq, hpq⟩

/-- An identifier that holds both kinds of quotes. -/
def bothQuotes : Text := "SELECT `a``b\"c` FROM t".toList

theorem pieces_backticks_of_bothQuotes :
    (pieces duckdbRegion (backticksToDoubleQuotes bothQuotes) =
        (pieces duckdbRegion bothQuotes).map requotePiece ↔
      (pieces duckdbRegion bothQuotes).IsChain fun p q => ¬ Meets p q) ∧
    ∀ p ∈ pieces duckdbRegion bothQuotes,
      if p.1 = .quoted ∧ p.2.head? = some backtick then
        requote p = dquote :: double dquote (unquote backtick p.2) ++ [dquote] ∧
          unquote dquote (requote p) = unquote backtick p.2
      else requote p = p.2 := by
  refine pieces_backticks_iff bothQuotes ?_
  unfold Terminated
  decide +kernel

/-- A column and its alias without a blank between them. -/
def aliasInQuotes : Text := "SELECT `a`\"b\" FROM t".toList

/-- DuckDB reads the two as one identifier. -/
theorem aliasInQuotes_becomes_one_identifier :
    Terminated aliasInQuotes ∧
      backticksToDoubleQuotes aliasInQuotes = "SELECT \"a\"\"b\" FROM t".toList ∧
      pieces duckdbRegion (backticksToDoubleQuotes aliasInQuotes) ≠
        (pieces duckdbRegion aliasInQuotes).map requotePiece := by
  unfold Terminated
  decide +kernel

end DuckdbEngine.Sql
