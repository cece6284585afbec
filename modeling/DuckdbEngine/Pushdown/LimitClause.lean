/-
`LIMIT` with an offset.

MariaDB writes the offset before the count, `LIMIT 2, 5`, and DuckDB behind it.  The pass
that exchanges them reads blanks, but no other white space: a clause is rewritten exactly
if `find_in_code` sees its keyword and all its white space is blanks.  The pass goes
forward, so this holds of every clause of the query, and a clause with one number is never
touched.
-/
import DuckdbEngine.Pushdown.Forward

namespace DuckdbEngine.Pushdown

open Sql TextEdits Lexing

/-! ### The pass as a walk -/

/-- What the body does only depends on the text from the match on. -/
lemma limit_append (u s : Text) :
    limit (u ++ s) u.length =
      { ranges := (limit s 0).ranges.map fun r => ⟨u.length + r.start, u.length + r.stop, r.text⟩,
        next := u.length + (limit s 0).next } := by
  simp only [limit, Nat.add_assoc, Nat.zero_add, List.drop_length_add_append,
    List.getElem?_append_right (Nat.le_add_right _ _), Nat.add_sub_cancel_left]
  split_ifs <;> simp [skipTo, Nat.add_assoc]

/-- What follows `LIMIT`: blanks and digits, and, if the numbers change places, a comma and more
blanks and digits. -/
inductive LimitShape (a : Text) : Round → Prop
  | skip {gap offset rest : Text} (hgap : ∀ c ∈ gap, c = ' ')
      (hoffset : ∀ c ∈ offset, c.isDigit = true) (ha : a = gap ++ offset ++ rest) :
      LimitShape a (skipTo (6 + (gap ++ offset).length))
  | swap {gap₁ offset gap₂ gap₃ count rest : Text} (hgap : ∀ c ∈ gap₁ ++ gap₂ ++ gap₃, c = ' ')
      (hne : offset ≠ []) (hdigits : ∀ c ∈ offset ++ count, c.isDigit = true)
      (ha : a = gap₁ ++ offset ++ gap₂ ++ ',' :: (gap₃ ++ count) ++ rest) :
      LimitShape a
        { ranges := [⟨0, 6 + (gap₁ ++ offset ++ gap₂ ++ ',' :: (gap₃ ++ count)).length,
            "LIMIT ".toList ++ count ++ " OFFSET ".toList ++ offset⟩],
          next := ("LIMIT ".toList ++ count ++ " OFFSET ".toList ++ offset).length }

lemma limit_shape (s : Text) : LimitShape (s.drop 6) (limit s 0) := by
  have hblank : ∀ t : Text, ∀ c ∈ t.takeWhile (· = ' '), c = ' ' := fun t c hc => by
    simpa using List.mem_takeWhile_imp hc
  have hdigit : ∀ t : Text, ∀ c ∈ digits t, c.isDigit = true := fun t c hc =>
    List.mem_takeWhile_imp hc
  simp only [limit, Nat.zero_add, ← List.drop_drop, ← List.head?_drop]
  -- the rest of the text behind each of the loops
  generalize s.drop 6 = a
  have h₁ : a = a.takeWhile (· = ' ') ++ a.drop (spaces a) :=
    (takeWhile_append_drop_length _ _).symm
  generalize a.drop (spaces a) = b at h₁ ⊢
  have h₂ : b = digits b ++ b.drop (digits b).length :=
    (takeWhile_append_drop_length _ _).symm
  generalize b.drop (digits b).length = c at h₂ ⊢
  have h₃ : c = c.takeWhile (· = ' ') ++ c.drop (spaces c) :=
    (takeWhile_append_drop_length _ _).symm
  generalize c.drop (spaces c) = d at h₃ ⊢
  have hskip : LimitShape a (skipTo (6 + spaces a + (digits b).length)) := by
    have h := LimitShape.skip (a := a) (hblank a) (hdigit b)
      (by rw [List.append_assoc, ← h₂, ← h₁] : a = a.takeWhile (· = ' ') ++ digits b ++ c)
    rwa [List.length_append, ← Nat.add_assoc] at h
  split_ifs with hoffset hcomma
  · exact hskip
  · obtain ⟨e, rfl⟩ := List.head?_eq_some_iff.1 hcomma
    have h₄ : e = e.takeWhile (· = ' ') ++ e.drop (spaces e) :=
      (takeWhile_append_drop_length _ _).symm
    rw [List.drop_succ_cons, List.drop_zero]
    generalize e.drop (spaces e) = f at h₄ ⊢
    have h₅ : f = digits f ++ f.drop (digits f).length :=
      (takeWhile_append_drop_length _ _).symm
    have hgap : ∀ x ∈ a.takeWhile (· = ' ') ++ c.takeWhile (· = ' ') ++ e.takeWhile (· = ' '),
        x = ' ' := by
      simp only [List.forall_mem_append]
      exact ⟨⟨hblank a, hblank c⟩, hblank e⟩
    have hdigits : ∀ x ∈ digits b ++ digits f, x.isDigit = true := by
      simp only [List.forall_mem_append]
      exact ⟨hdigit b, hdigit f⟩
    have ha : a = a.takeWhile (· = ' ') ++ digits b ++ c.takeWhile (· = ' ') ++
        ',' :: (e.takeWhile (· = ' ') ++ digits f) ++ f.drop (digits f).length :=
      calc a = a.takeWhile (· = ' ') ++ (digits b ++ (c.takeWhile (· = ' ') ++
            ',' :: (e.takeWhile (· = ' ') ++ (digits f ++ f.drop (digits f).length)))) := by
            rw [← h₅, ← h₄, ← h₃, ← h₂, ← h₁]
        _ = _ := by simp
    have hswap := LimitShape.swap hgap (by simpa using hoffset) hdigits ha
    simpa [spaces, Nat.add_assoc, Nat.add_comm, Nat.add_left_comm] using hswap
  · exact hskip

def limitWalk : Walk where
  pattern := "LIMIT ".toList
  size s := ((limit s 0).ranges.head?.map Range.stop).getD (limit s 0).next
  put _ s := (limit s 0).ranges.head?.map Range.text

lemma put_limitWalk (before s : Text) :
    limitWalk.put before s = (limit s 0).ranges.head?.map Range.text := rfl

lemma size_limitWalk (s : Text) :
    limitWalk.size s = ((limit s 0).ranges.head?.map Range.stop).getD (limit s 0).next := rfl

/-- Behind the keyword the walk passes blanks, commas and digits. -/
lemma limitWalk_size (s : Text) : ∃ u rest, s.drop 6 = u ++ rest ∧
    limitWalk.size s = 6 + u.length ∧ ∀ c ∈ u, isLimitChar c = true := by
  have h := limit_shape s
  rw [size_limitWalk]
  generalize limit s 0 = r at h ⊢
  cases h with
  | @skip gap offset rest hgap hoffset ha =>
      refine ⟨gap ++ offset, rest, ha, rfl, ?_⟩
      rw [List.forall_mem_append]
      exact ⟨fun c hc => by simp [isLimitChar, hgap c hc],
        fun c hc => by simp [isLimitChar, hoffset c hc]⟩
  | @swap gap₁ offset gap₂ gap₃ count rest hgap hne hdigits ha =>
      refine ⟨_, rest, ha, rfl, ?_⟩
      simp only [List.forall_mem_append, List.forall_mem_cons] at hgap hdigits ⊢
      have hblank : ∀ c, c = ' ' → isLimitChar c = true := fun c hc => by simp [isLimitChar, hc]
      have hdigit : ∀ c : Char, c.isDigit = true → isLimitChar c = true := fun c hc => by
        simp [isLimitChar, hc]
      exact ⟨⟨⟨fun c hc => hblank c (hgap.1.1 c hc), fun c hc => hdigit c (hdigits.1 c hc)⟩,
        fun c hc => hblank c (hgap.1.2 c hc)⟩, by decide, fun c hc => hblank c (hgap.2 c hc),
        fun c hc => hdigit c (hdigits.2 c hc)⟩

lemma limitWalk_size_le {s : Text} (h : ciStartsWith "LIMIT ".toList s = true) :
    limitWalk.size s ≤ s.length := by
  obtain ⟨u, rest, hdrop, hsize, -⟩ := limitWalk_size s
  have hlen := congrArg List.length hdrop
  have hmatch := ciStartsWith_length h
  have h6 : "LIMIT ".toList.length = 6 := by decide
  rw [List.length_drop, List.length_append] at hlen
  omega

lemma limitPass_walks : limitPass.Walks limitWalk where
  pattern_eq := rfl
  pattern_ne := by decide
  size_pos s _ := by
    obtain ⟨u, rest, -, hsize, -⟩ := limitWalk_size s
    omega
  body_eq _ _ _ _ := rfl
  text_eq before rest _ := by
    show apply (before ++ rest) (limit (before ++ rest) before.length) = _
    rw [limit_append, apply, put_limitWalk, size_limitWalk]
    have h := limit_shape rest
    generalize limit rest 0 = r at h ⊢
    cases h with
    | skip => simp [skipTo]
    | swap => simp [Range.replace]
  next_eq before rest hmatch := by
    have hsize := limitWalk_size_le hmatch
    congr 1
    show (limit (before ++ rest) before.length).next = _
    rw [size_limitWalk] at hsize
    rw [limit_append, put_limitWalk, size_limitWalk]
    have h := limit_shape rest
    generalize limit rest 0 = r at h hsize ⊢
    cases h with
    | skip =>
        simp only [skipTo, List.head?_nil, Option.map_none, Option.getD_none] at hsize ⊢
        exact (List.length_append.trans (congrArg _ (List.length_take_of_le hsize))).symm
    | swap => simp

/-- What is put out does not depend on what stands before the match. -/
lemma limitWalk_steady : limitWalk.Steady fun _ _ => True where
  start := trivial
  keep _ _ _ _ := trivial
  put _ _ _ _ _ _ _ := trivial
  same _ _ _ _ _ := rfl

/-! ### Characters -/

lemma toNat_of_isLimitChar {c : Char} (h : isLimitChar c = true) : c.toNat ≤ 57 := by
  simp only [isLimitChar, Bool.or_eq_true, decide_eq_true_eq] at h
  rcases h with (rfl | rfl) | h
  · decide
  · decide
  · exact (Atom.isDigit_bounds h).2

lemma toUpper_ne_of_le {c : Char} (h : c.toNat ≤ 57) : c.toUpper ≠ 'L' := by
  rw [toUpper_of_lt (by omega)]
  rintro rfl
  revert h
  decide

/-- White space between the numbers is a blank, or ends what the pass reads. -/
lemma eq_blank_of_isLimitChar {c : Char} (hspace : isSpace c = true)
    (h : isLimitChar c = true) : c = ' ' := by
  have hle := toNat_of_isSpace hspace
  simp only [isLimitChar, Bool.or_eq_true, decide_eq_true_eq] at h
  rcases h with (rfl | rfl) | h
  · rfl
  · revert hle
    decide
  · have := Atom.isDigit_bounds h
    omega

/-! ### Matches lie apart -/

lemma ciStartsWith_limit_iff {s : Text} :
    ciStartsWith "LIMIT ".toList s = true ↔ (s.take 6).map Char.toUpper = "LIMIT ".toList := by
  rw [ciStartsWith, decide_eq_true_eq]
  rfl

/-- The characters behind the first one of what the walk passes are none of the first one of
another match. -/
lemma getElem?_of_limit {s : Text} (h : ciStartsWith "LIMIT ".toList s = true) {k : ℕ}
    (hk : 0 < k) (hlt : k < limitWalk.size s) : s[k]?.map Char.toUpper ≠ some 'L' := by
  by_cases h6 : k < 6
  · have hget : ((s.take 6).map Char.toUpper)[k]? = "LIMIT ".toList[k]? := by
      rw [ciStartsWith_limit_iff.1 h]
    rw [List.getElem?_map, List.getElem?_take_of_lt h6] at hget
    rw [hget]
    exact (by decide : ∀ k < 6, 0 < k → "LIMIT ".toList[k]? ≠ some 'L') k h6 hk
  · obtain ⟨u, rest, hdrop, hsize, hu⟩ := limitWalk_size s
    have hget : s[k]? = u[k - 6]? := by
      rw [show k = 6 + (k - 6) by omega, ← List.getElem?_drop, hdrop,
        List.getElem?_append_left (by omega), Nat.add_sub_cancel_left]
    intro hL
    obtain ⟨c, hc, hupper⟩ := Option.map_eq_some_iff.1 hL
    have hmem : c ∈ u := List.mem_of_getElem? (hget.symm.trans hc)
    exact toUpper_ne_of_le (toNat_of_isLimitChar (hu c hmem)) hupper

lemma head_of_limit {s : Text} {i : ℕ} (h : MatchesAt s "LIMIT ".toList i) :
    s[i]?.map Char.toUpper = some 'L' := by
  have hget : (((s.drop i).take 6).map Char.toUpper)[0]? = "LIMIT ".toList[0]? := by
    rw [ciStartsWith_limit_iff.1 h]
  rw [List.getElem?_map, List.getElem?_take_of_lt (by decide), List.getElem?_drop] at hget
  exact hget

lemma limitWalk_apart {s : Text} {i : ℕ} (hi : MatchesAt s "LIMIT ".toList i) :
    limitWalk.Apart s i := by
  rintro j k rfl hk hlt hmatch
  have hget := getElem?_of_limit hmatch hk hlt
  rw [List.getElem?_drop] at hget
  exact hget (head_of_limit hi)

lemma limitWalk_plain {s : Text} (h : ciStartsWith "LIMIT ".toList s = true) :
    ∀ c ∈ s.take (limitWalk.size s), isPlain c = true := by
  obtain ⟨u, rest, hdrop, hsize, hu⟩ := limitWalk_size s
  have htake : s.take (limitWalk.size s) = s.take 6 ++ u := by
    rw [hsize, List.take_add, hdrop, List.take_left]
  rw [htake, List.forall_mem_append]
  constructor
  · refine plain_of_ciStartsWith (fun c hc => ?_) h
    have hno : ∀ c ∈ [squote, dquote, backtick, '-', '/'],
        c.toUpper ∉ "LIMIT ".toList.map Char.toUpper := forall_mem_of_all (by decide)
    exact hno c (mem_of_not_isPlain hc)
  · intro c hc
    by_contra hplain
    have hmem := mem_of_not_isPlain (Bool.eq_false_iff.2 hplain)
    have hno : ∀ c ∈ [squote, dquote, backtick, '-', '/'], isLimitChar c = false :=
      forall_mem_of_all (by decide)
    exact absurd (hu c hc) (by simp [hno c hmem])

/-- The numbers change places where `find_in_code` finds the keyword in front of two numbers. -/
lemma limit_puts_iff {sql : Text} {i : ℕ} {old new : Text} :
    limitWalk.Puts sql i old new ↔ InCode sql i ∧ MatchesAt sql "LIMIT ".toList i ∧
      limitWalk.put [] (sql.drop i) = some new ∧
      old = (sql.drop i).take (limitWalk.size (sql.drop i)) := by
  have hpos : ∀ s, ciStartsWith limitWalk.pattern s = true → 0 < limitWalk.size s :=
    limitPass_walks.size_pos
  have hcode : ∀ hi : MatchesAt sql "LIMIT ".toList i,
      Starts limitWalk.lexer sql i ∧ codeSkip (sql.drop i) = 0 ↔ InCode sql i := fun hi =>
    Walk.starts_iff hpos (fun _ => limitWalk_plain) (limitWalk_apart hi)
  rw [Walk.puts_iff hpos]
  constructor
  · rintro ⟨hfound, hmatch, -, hnew, hold⟩
    exact ⟨(hcode hmatch).1 hfound, hmatch, hnew, hold⟩
  · rintro ⟨hin, hmatch, hnew, hold⟩
    refine ⟨(hcode hmatch).2 hin, hmatch, fun hnil => ?_, hnew, hold⟩
    rw [MatchesAt, hnil] at hmatch
    exact absurd hmatch (by decide)

/-! ### Clauses -/

/-- A clause `LIMIT offset, count` with any white space. -/
structure LimitClause where
  keyword : Text
  gap₁ : Text
  offset : Text
  gap₂ : Text
  gap₃ : Text
  count : Text
  keyword_eq : keyword.map Char.toUpper = "LIMIT".toList
  gap_ne : gap₁ ≠ []
  gap_space : ∀ c ∈ gap₁ ++ gap₂ ++ gap₃, isSpace c = true
  offset_ne : offset ≠ []
  count_ne : count ≠ []
  isDigit : ∀ c ∈ offset ++ count, c.isDigit = true

namespace LimitClause

def text (cl : LimitClause) : Text :=
  cl.keyword ++ cl.gap₁ ++ cl.offset ++ cl.gap₂ ++ ',' :: (cl.gap₃ ++ cl.count)

/-- The clause as DuckDB writes it. -/
def swapped (cl : LimitClause) : Text :=
  "LIMIT ".toList ++ cl.count ++ " OFFSET ".toList ++ cl.offset

/-- The white space of the clause is blanks. -/
def Blank (cl : LimitClause) : Prop := ∀ c ∈ cl.gap₁ ++ cl.gap₂ ++ cl.gap₃, c = ' '

end LimitClause

/-- A clause `LIMIT number`. -/
structure PlainLimit where
  keyword : Text
  gap : Text
  number : Text
  keyword_eq : keyword.map Char.toUpper = "LIMIT".toList
  gap_ne : gap ≠ []
  gap_space : ∀ c ∈ gap, isSpace c = true
  number_ne : number ≠ []
  isDigit : ∀ c ∈ number, c.isDigit = true

def PlainLimit.text (cl : PlainLimit) : Text := cl.keyword ++ cl.gap ++ cl.number

/-- The text does not go on with a digit. -/
def NoDigit (rest : Text) : Prop := ∀ c, rest.head? = some c → c.isDigit = false

/-- White space and a comma do not follow. -/
def NoComma (rest : Text) : Prop := (rest.dropWhile isSpace).head? ≠ some ','

lemma spaces_append {gap v : Text} (hgap : ∀ c ∈ gap, c = ' ') (hv : v.head? ≠ some ' ') :
    spaces (gap ++ v) = gap.length := by
  rw [spaces, Atom.takeWhile_append_of_head (by simpa using hgap)]
  intro c hc
  rw [decide_eq_false_iff_not]
  rintro rfl
  exact hv hc

lemma digits_append {number v : Text} (hnumber : ∀ c ∈ number, c.isDigit = true)
    (hv : NoDigit v) : digits (number ++ v) = number :=
  Atom.takeWhile_append_of_head hnumber hv

lemma head?_number {number v : Text} (hne : number ≠ [])
    (hnumber : ∀ c ∈ number, c.isDigit = true) : (number ++ v).head? ≠ some ' ' := by
  obtain ⟨c, t, rfl⟩ := List.exists_cons_of_ne_nil hne
  rintro ⟨⟩
  exact absurd (hnumber ' ' List.mem_cons_self) (by decide)

lemma noDigit_comma {gap v : Text} (hgap : ∀ c ∈ gap, c = ' ') : NoDigit (gap ++ ',' :: v) := by
  intro c hc
  cases gap with
  | nil =>
      cases hc
      decide
  | cons b gap =>
      cases hc
      rw [hgap c List.mem_cons_self]
      decide

lemma length_keyword {key : Text} (h : key.map Char.toUpper = "LIMIT".toList) :
    key.length = 5 := by
  have hlen := congrArg List.length h
  rwa [List.length_map] at hlen

lemma length_keyword_append {key : Text} (h : key.map Char.toUpper = "LIMIT".toList) (b : Char) :
    (key ++ [b]).length = 6 := by
  rw [List.length_append, length_keyword h, List.length_singleton]

/-- What the body does at a clause whose white space is blanks. -/
lemma limit_of_blanks {key gap₁ offset gap₂ gap₃ count rest : Text} (hkey : key.length = 6)
    (hgap : ∀ c ∈ gap₁ ++ gap₂ ++ gap₃, c = ' ') (hoffset : offset ≠ []) (hcount : count ≠ [])
    (hdigits : ∀ c ∈ offset ++ count, c.isDigit = true) (hrest : NoDigit rest) :
    limit (key ++ (gap₁ ++ (offset ++ (gap₂ ++ ',' :: (gap₃ ++ (count ++ rest)))))) 0 =
      { ranges := [⟨0, (key ++ gap₁ ++ offset ++ gap₂ ++ ',' :: (gap₃ ++ count)).length,
          "LIMIT ".toList ++ count ++ " OFFSET ".toList ++ offset⟩],
        next := ("LIMIT ".toList ++ count ++ " OFFSET ".toList ++ offset).length } := by
  simp only [List.forall_mem_append] at hgap hdigits
  have hdrop : ∀ v : Text, (key ++ v).drop 6 = v := fun v => by rw [← hkey, List.drop_left]
  simp only [limit, Nat.zero_add, ← List.drop_drop, ← List.head?_drop, hdrop,
    spaces_append hgap.1.1 (head?_number hoffset hdigits.1), List.drop_left,
    digits_append hdigits.1 (noDigit_comma hgap.1.2)]
  rw [if_neg (by simpa using hoffset), spaces_append hgap.1.2 (by simp), List.drop_left,
    List.head?_cons, if_pos rfl, List.drop_succ_cons, List.drop_zero,
    spaces_append hgap.2 (head?_number hcount hdigits.2), List.drop_left,
    digits_append hdigits.2 hrest]
  simp [hkey, Nat.add_assoc, Nat.add_comm, Nat.add_left_comm]

section clause

variable (cl : LimitClause) {rest : Text}

/-- The clause behind the keyword and one character of white space. -/
lemma LimitClause.exists_text : ∃ b gap, cl.gap₁ = b :: gap ∧
    cl.text = (cl.keyword ++ [b]) ++
      (gap ++ cl.offset ++ cl.gap₂ ++ ',' :: (cl.gap₃ ++ cl.count)) := by
  obtain ⟨b, gap, hgap⟩ := List.exists_cons_of_ne_nil cl.gap_ne
  exact ⟨b, gap, hgap, by simp [LimitClause.text, hgap]⟩

/-- The pattern with its blank is found if the white space begins with a blank. -/
lemma LimitClause.match_iff {b : Char} (v : Text) (hb : isSpace b = true) :
    ciStartsWith "LIMIT ".toList (cl.keyword ++ [b] ++ v) = true ↔ b = ' ' := by
  have hlen := length_keyword_append cl.keyword_eq b
  have hspace := toNat_of_isSpace hb
  rw [ciStartsWith_limit_iff, ← hlen, List.take_left, List.map_append, cl.keyword_eq,
    List.map_singleton, toUpper_of_lt (by omega)]
  simp

/-- If the walk passes the whole clause, its white space is blanks. -/
lemma LimitClause.blank_of_passed
    (hmatch : ciStartsWith "LIMIT ".toList (cl.text ++ rest) = true)
    (h : cl.text = (cl.text ++ rest).take (limitWalk.size (cl.text ++ rest))) : cl.Blank := by
  have hle := limitWalk_size_le hmatch
  obtain ⟨u, rest', hdrop, hsize, hu⟩ := limitWalk_size (cl.text ++ rest)
  have hpassed : cl.text.length = 6 + u.length := by
    rw [← hsize]
    conv_lhs => rw [h]
    exact List.length_take_of_le hle
  obtain ⟨b, gap, hgap, htext⟩ := cl.exists_text
  have hspace := cl.gap_space
  rw [LimitClause.Blank]
  simp only [hgap, List.forall_mem_append, List.forall_mem_cons] at hspace ⊢
  rw [htext, List.append_assoc] at hmatch hdrop
  -- what the walk has passed behind the keyword is the rest of the clause
  have hkey := length_keyword_append cl.keyword_eq b
  have hu' : gap ++ cl.offset ++ cl.gap₂ ++ ',' :: (cl.gap₃ ++ cl.count) = u := by
    rw [← hkey, List.drop_left] at hdrop
    refine (List.append_inj hdrop ?_).1
    rw [htext, List.length_append, hkey] at hpassed
    omega
  rw [← hu'] at hu
  simp only [List.forall_mem_append, List.forall_mem_cons] at hu
  have hblank : ∀ g : Text, (∀ c ∈ g, isSpace c = true) → (∀ c ∈ g, isLimitChar c = true) →
      ∀ c ∈ g, c = ' ' := fun g h₁ h₂ c hc => eq_blank_of_isLimitChar (h₁ c hc) (h₂ c hc)
  exact ⟨⟨⟨(cl.match_iff _ hspace.1.1.1).1 hmatch, hblank gap hspace.1.1.2 hu.1.1.1⟩,
    hblank _ hspace.1.2 hu.1.2⟩, hblank _ hspace.2 hu.2.2.1⟩

/-- A clause with blanks is found, and its numbers change places. -/
lemma LimitClause.passed_of_blank (h : cl.Blank) (hrest : NoDigit rest) :
    ciStartsWith "LIMIT ".toList (cl.text ++ rest) = true ∧
      limitWalk.put [] (cl.text ++ rest) = some cl.swapped ∧
      limitWalk.size (cl.text ++ rest) = cl.text.length := by
  obtain ⟨b, gap, hgap, htext⟩ := cl.exists_text
  have hkey := length_keyword_append cl.keyword_eq b
  rw [LimitClause.Blank, hgap] at h
  have hb : b = ' ' := h b (by simp)
  have hgaps : ∀ c ∈ gap ++ cl.gap₂ ++ cl.gap₃, c = ' ' := fun c hc => h c (by simp_all)
  have hlimit := limit_of_blanks hkey hgaps cl.offset_ne cl.count_ne cl.isDigit hrest
  have hsplit : cl.text ++ rest = (cl.keyword ++ [b]) ++ (gap ++ (cl.offset ++ (cl.gap₂ ++
      ',' :: (cl.gap₃ ++ (cl.count ++ rest))))) := by
    rw [htext]
    simp
  refine ⟨?_, ?_, ?_⟩
  · rw [htext, List.append_assoc, cl.match_iff _ (by rw [hb]; decide)]
    exact hb
  · rw [put_limitWalk, hsplit, hlimit]
    rfl
  · rw [size_limitWalk, hsplit, hlimit, htext]
    simp

end clause

section plain

variable (cl : PlainLimit)

/-- The two ways to read numbers and white space agree. -/
lemma PlainLimit.swap_has_comma {gap number rest gap₁ offset gap₂ v : Text}
    (hspace : ∀ c ∈ gap, isSpace c = true) (hne : number ≠ [])
    (hnumber : ∀ c ∈ number, c.isDigit = true) (hrest : NoDigit rest)
    (hgap : ∀ c ∈ gap₁ ++ gap₂, c = ' ') (hne' : offset ≠ [])
    (hoffset : ∀ c ∈ offset, c.isDigit = true)
    (h : gap ++ (number ++ rest) = gap₁ ++ (offset ++ (gap₂ ++ ',' :: v))) :
    rest = gap₂ ++ ',' :: v := by
  rw [List.forall_mem_append] at hgap
  have hhead : ∀ {n w : Text}, n ≠ [] → (∀ c ∈ n, c.isDigit = true) →
      ∀ c ∈ (n ++ w).head?, isSpace c = false := fun {n w} hn hd c hc => by
    obtain ⟨d, t, rfl⟩ := List.exists_cons_of_ne_nil hn
    cases hc
    have := Atom.isDigit_bounds (hd c List.mem_cons_self)
    by_contra hs
    have := toNat_of_isSpace (eq_true_of_ne_false hs)
    omega
  have hg : gap = gap₁ := by
    rw [← Atom.takeWhile_append_of_head hspace (hhead hne hnumber), h,
      Atom.takeWhile_append_of_head _ (hhead hne' hoffset)]
    exact fun c hc => by rw [hgap.1 c hc]; decide
  rw [hg, List.append_cancel_left_eq] at h
  have hn : number = offset := by
    rw [← digits_append hnumber hrest, h, digits_append hoffset (noDigit_comma hgap.2)]
  rwa [hn, List.append_cancel_left_eq] at h

/-- Nothing is put in the place of a `LIMIT` with one number. -/
lemma PlainLimit.put_eq_none {rest : Text} (hrest : NoDigit rest) (hcomma : NoComma rest) :
    limitWalk.put [] (cl.text ++ rest) = none := by
  have h := limit_shape (cl.text ++ rest)
  obtain ⟨b, gap, hgap⟩ := List.exists_cons_of_ne_nil cl.gap_ne
  have hkey := length_keyword_append cl.keyword_eq b
  have hdrop : (cl.text ++ rest).drop 6 = gap ++ (cl.number ++ rest) := by
    rw [PlainLimit.text, hgap, ← hkey,
      show cl.keyword ++ b :: gap ++ cl.number ++ rest =
        (cl.keyword ++ [b]) ++ (gap ++ (cl.number ++ rest)) by simp, List.drop_left]
  rw [hdrop] at h
  rw [put_limitWalk]
  generalize limit (cl.text ++ rest) 0 = r at h ⊢
  cases h with
  | skip => rfl
  | @swap gap₁ offset gap₂ gap₃ count rest' hblank hne hdigits ha =>
      have hspace := cl.gap_space
      rw [hgap, List.forall_mem_cons] at hspace
      rw [List.forall_mem_append] at hblank hdigits
      have hflat : gap ++ (cl.number ++ rest) =
          gap₁ ++ (offset ++ (gap₂ ++ ',' :: (gap₃ ++ count ++ rest'))) := by
        rw [ha]
        simp
      have hrest' := PlainLimit.swap_has_comma hspace.2 cl.number_ne cl.isDigit hrest hblank.1 hne
        hdigits.1 hflat
      rw [List.forall_mem_append] at hblank
      refine absurd ?_ hcomma
      rw [hrest', List.dropWhile_append_of_pos fun c hc => by rw [hblank.1.2 c hc]; decide]
      rfl

lemma PlainLimit.head?_text (rest : Text) :
    (cl.text ++ rest).head?.map Char.toUpper = some 'L' := by
  have hkey := cl.keyword_eq
  rw [PlainLimit.text]
  cases h : cl.keyword with
  | nil => rw [h] at hkey; exact absurd hkey (by decide)
  | cons c t =>
      rw [h, List.map_cons, show "LIMIT".toList = 'L' :: "IMIT".toList from rfl,
        List.cons.injEq] at hkey
      exact congrArg some hkey.1

/-- Behind its first character the clause has none that a match begins with. -/
lemma PlainLimit.getElem?_text {k : ℕ} (hk : 0 < k) :
    cl.text[k]?.map Char.toUpper ≠ some 'L' := by
  have hlen := length_keyword cl.keyword_eq
  rw [PlainLimit.text, List.append_assoc]
  rcases Nat.lt_or_ge k 5 with h5 | h5
  · rw [List.getElem?_append_left (by omega), ← List.getElem?_map, cl.keyword_eq]
    exact (by decide : ∀ k < 5, 0 < k → "LIMIT".toList[k]? ≠ some 'L') k h5 hk
  · rw [List.getElem?_append_right (by omega)]
    intro hL
    obtain ⟨c, hc, hupper⟩ := Option.map_eq_some_iff.1 hL
    refine toUpper_ne_of_le ?_ hupper
    rcases List.mem_append.1 (List.mem_of_getElem? hc) with hc | hc
    · exact (toNat_of_isSpace (cl.gap_space c hc)).trans (by decide)
    · exact (Atom.isDigit_bounds (cl.isDigit c hc)).2

end plain

/-- **The numbers of a `LIMIT` change places exactly where `find_in_code` sees the keyword and all
the white space of the clause is blanks; a `LIMIT` with one number stays as it is.** -/
theorem limit_rewritten_iff (sql : Text) :
    limitPass.run sql =
        ((limitWalk.edits [] (pieces limitWalk.lexer sql)).flatMap fun p => p.1.getD p.2) ∧
      (∀ (cl : LimitClause) (before rest : Text), sql = before ++ cl.text ++ rest →
        NoDigit rest →
          (limitWalk.Puts sql before.length cl.text cl.swapped ↔
            InCode sql before.length ∧ cl.Blank)) ∧
      (∀ (cl : PlainLimit) (before rest : Text), sql = before ++ cl.text ++ rest →
        NoDigit rest → NoComma rest →
          ∀ i old new, limitWalk.Puts sql i old new →
            i + old.length ≤ before.length ∨ (before ++ cl.text).length ≤ i) := by
  refine ⟨limitPass_walks.run_edits limitWalk_steady sql, ?_, ?_⟩
  · rintro cl before rest rfl hrest
    have hdrop : (before ++ cl.text ++ rest).drop before.length = cl.text ++ rest := by
      rw [List.append_assoc, List.drop_left]
    rw [limit_puts_iff, MatchesAt, hdrop]
    constructor
    · rintro ⟨hin, hmatch, -, hold⟩
      exact ⟨hin, cl.blank_of_passed hmatch hold⟩
    · rintro ⟨hin, hblank⟩
      obtain ⟨hmatch, hput, hsize⟩ := cl.passed_of_blank hblank hrest
      exact ⟨hin, hmatch, hput, by rw [hsize, List.take_left]⟩
  · rintro cl before rest rfl hrest hcomma i old new hputs
    obtain ⟨-, hmatch, hput, rfl⟩ := limit_puts_iff.1 hputs
    rw [List.length_take_of_le (limitWalk_size_le hmatch)]
    have hclause : ∀ k, (before ++ cl.text ++ rest)[before.length + k]? = (cl.text ++ rest)[k]? :=
      fun k => by
        rw [List.append_assoc, List.getElem?_append_right (Nat.le_add_right _ _),
          Nat.add_sub_cancel_left]
    by_contra hoverlap
    rw [not_or, Nat.not_le, Nat.not_le, List.length_append] at hoverlap
    rcases Nat.lt_trichotomy i before.length with hlt | rfl | hgt
    · -- the keyword of the clause lies in what is replaced
      have hget := getElem?_of_limit hmatch (Nat.sub_pos_of_lt hlt) (by omega)
      rw [List.getElem?_drop, Nat.add_sub_cancel' hlt.le] at hget
      refine hget ?_
      rw [← Nat.add_zero before.length, hclause, ← List.head?_eq_getElem?, cl.head?_text]
    · -- the clause itself
      rw [List.append_assoc, List.drop_left, cl.put_eq_none hrest hcomma] at hput
      cases hput
    · -- what is replaced begins within the clause
      obtain ⟨k, rfl⟩ := Nat.exists_eq_add_of_lt hgt
      have hL := head_of_limit hmatch
      rw [Nat.add_assoc, hclause, List.getElem?_append_left (by omega)] at hL
      exact cl.getElem?_text (Nat.succ_pos k) hL

/-- The numbers of `LIMIT 2 , 5` change places. -/
theorem limit_rewritten_of_blanks :
    limitWalk.Puts "SELECT a FROM t LIMIT 2 , 5".toList 16 "LIMIT 2 , 5".toList
      "LIMIT 5 OFFSET 2".toList :=
  ((limit_rewritten_iff "SELECT a FROM t LIMIT 2 , 5".toList).2.1
    ⟨"LIMIT".toList, " ".toList, "2".toList, " ".toList, " ".toList, "5".toList, by decide,
      by decide, forall_mem_of_all (by decide), by decide, by decide,
      forall_mem_of_all (by decide)⟩
    "SELECT a FROM t ".toList [] (by decide) (fun _ h => by cases h)).2
    ⟨⟨⟨(pieces codeLexer "SELECT a FROM t LIMIT 2 , 5".toList).take 16, by decide +kernel,
      by decide +kernel⟩, by decide⟩, forall_mem_of_all (by decide)⟩

/-- With a tab behind the comma the count is lost, and with one behind the keyword nothing is
rewritten. -/
theorem limit_with_tab_is_not_rewritten :
    initScanSql "SELECT a FROM t LIMIT 2,\t5".toList =
        "SELECT a FROM t LIMIT  OFFSET 2\t5".toList ∧
      initScanSql "SELECT a FROM t LIMIT\t2,5".toList =
        "SELECT a FROM t LIMIT\t2,5".toList := by
  decide +kernel

end DuckdbEngine.Pushdown
