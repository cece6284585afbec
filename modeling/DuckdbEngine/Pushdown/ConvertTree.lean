/-
`CONVERT` at every depth of a query.

The pass for `CONVERT(expr, type)` searches the text for the keyword, counts parentheses up
to the closing one and takes the first comma at depth 1 for the one between the expression
and the type.  It then searches on from the same position, so that a `CONVERT` inside the
expression or the type is met in a later round, when the ones around it are `CAST` already.

A query is taken apart into words, string literals, commas, parentheses and `CONVERT`s,
`Fragment`.  The loop is followed through the text of a fragment from the left to the right:
what lies behind the position has its final form, and what lies in front of it is original
but for the enclosing `CONVERT`s.  In the end every `CONVERT(expr, type)` is
`CAST(expr AS type)`, however deep it is, and nothing else has changed; `CONVERT(expr USING
charset)` has no comma and stays as it is, and so do functions of which the name only ends
in the keyword.
-/
import DuckdbEngine.Pushdown.Forward

namespace DuckdbEngine.Pushdown

open Sql TextEdits WhileLoop

/-! ### Fragments of a query -/

/-- A part of a query: what stands in front, and the rest of the part. -/
inductive Fragment where
  | nil
  /-- Text without parentheses, commas, quotes and comments. -/
  | word (s : Text) (next : Fragment)
  | literal (s : Text) (next : Fragment)
  | comma (next : Fragment)
  | group (inside next : Fragment)
  /-- `CONVERT(expr, type)`, with blanks around the type. -/
  | convert (keyword : Text) (expr : Fragment) (leading : Text) (type : Fragment)
      (trailing : Text) (next : Fragment)

namespace Fragment

def text : Fragment → Text
  | nil => []
  | word s next => s ++ next.text
  | literal s next => squote :: (s ++ squote :: next.text)
  | comma next => ',' :: next.text
  | group inside next => '(' :: (inside.text ++ ')' :: next.text)
  | convert keyword expr leading type trailing next =>
      keyword ++ '(' :: (expr.text ++ ',' :: (leading ++ (type.text ++ (trailing ++
        ')' :: next.text))))

/-- `CAST(` -/
def castOpen : Text := ['C', 'A', 'S', 'T', '(']

/-- ` AS `, with its blanks -/
def asWord : Text := [' ', 'A', 'S', ' ']

/-- The text with `CAST` in the place of `CONVERT`. -/
def casts : Fragment → Text
  | nil => []
  | word s next => s ++ next.casts
  | literal s next => squote :: (s ++ squote :: next.casts)
  | comma next => ',' :: next.casts
  | group inside next => '(' :: (inside.casts ++ ')' :: next.casts)
  | convert _ expr _ type _ next =>
      castOpen ++ (expr.casts ++ (asWord ++ (type.casts ++ ')' :: next.casts)))

/-- No comma outside of parentheses. -/
def flat : Fragment → Bool
  | nil => true
  | word _ next => next.flat
  | literal _ next => next.flat
  | comma _ => false
  | group _ next => next.flat
  | convert _ _ _ _ _ next => next.flat

/-- `CONVERT` stands in front. -/
def opens : Fragment → Bool
  | convert _ _ _ _ _ _ => true
  | _ => false

/-- The fragment may stand behind the word.  In front of a parenthesis the word is no `CONVERT`
with two arguments, and in front of `CONVERT` it has come to its end. -/
def Follows (s : Text) : Fragment → Prop
  | word _ _ => False
  | group inside _ => ∀ n < s.length, (s.drop n).map Char.toUpper = "CONVERT".toList →
      (s.take n).getLast?.any isIdentChar = true ∨ inside.flat = true
  | convert _ _ _ _ _ _ => s.getLast?.any isIdentChar = false
  | _ => True

def isLiteral : Fragment → Bool
  | literal _ _ => true
  | _ => false

/-- Neither a parenthesis nor a comma. -/
def isPart (c : Char) : Bool := c ≠ '(' && c ≠ ')' && c ≠ ','

def Valid : Fragment → Prop
  | nil => True
  | word s next => s ≠ [] ∧ s.all isPart = true ∧ (∀ n < s.length, codeSkip (s.drop n) = 0) ∧
      next.Follows s ∧ next.Valid
  | literal s next => (s.all fun c => isPart c && c ≠ squote && c ≠ backslash) = true ∧
      next.isLiteral = false ∧ next.Valid
  | comma next => next.Valid
  | group inside next => inside.Valid ∧ next.Valid
  | convert keyword expr leading type trailing next =>
      keyword.map Char.toUpper = "CONVERT".toList ∧ expr.flat = true ∧ expr.Valid ∧
        leading.all isBlank = true ∧ trailing.all isBlank = true ∧
        (type.text.head?.any fun c => !isBlank c) = true ∧
        (type.text.getLast?.any fun c => !isBlank c) = true ∧ type.Valid ∧ next.Valid

instance decidableFollows (s : Text) : (x : Fragment) → Decidable (x.Follows s)
  | nil => isTrue trivial
  | word _ _ => isFalse id
  | literal _ _ => isTrue trivial
  | comma _ => isTrue trivial
  | group inside _ => inferInstanceAs (Decidable (∀ n < s.length,
      (s.drop n).map Char.toUpper = "CONVERT".toList →
        (s.take n).getLast?.any isIdentChar = true ∨ inside.flat = true))
  | convert _ _ _ _ _ _ => inferInstanceAs (Decidable (s.getLast?.any isIdentChar = false))

instance decidableValid : (x : Fragment) → Decidable x.Valid
  | nil => isTrue trivial
  | word s next =>
      have := decidableValid next
      inferInstanceAs (Decidable (s ≠ [] ∧ s.all isPart = true ∧
        (∀ n < s.length, codeSkip (s.drop n) = 0) ∧ next.Follows s ∧ next.Valid))
  | literal s next =>
      have := decidableValid next
      inferInstanceAs (Decidable ((s.all fun c => isPart c && c ≠ squote && c ≠ backslash) = true ∧
        next.isLiteral = false ∧ next.Valid))
  | comma next => decidableValid next
  | group inside next =>
      have := decidableValid inside
      have := decidableValid next
      inferInstanceAs (Decidable (inside.Valid ∧ next.Valid))
  | convert keyword expr leading type trailing next =>
      have := decidableValid expr
      have := decidableValid type
      have := decidableValid next
      inferInstanceAs (Decidable (keyword.map Char.toUpper = "CONVERT".toList ∧
        expr.flat = true ∧ expr.Valid ∧ leading.all isBlank = true ∧ trailing.all isBlank = true ∧
        (type.text.head?.any fun c => !isBlank c) = true ∧
        (type.text.getLast?.any fun c => !isBlank c) = true ∧ type.Valid ∧ next.Valid))

end Fragment

/-! ### The arguments of `CONVERT` -/

lemma convertScan_part {s : Text} (hs : s.all Fragment.isPart = true) (rest : Text) {i depth : ℕ}
    {comma : Option ℕ} (hdepth : depth ≠ 0) :
    convertScan (s ++ rest) i depth comma = convertScan rest (i + s.length) depth comma := by
  induction s generalizing i with
  | nil => rfl
  | cons c s ih =>
      rw [List.all_cons, Bool.and_eq_true] at hs
      have hc := hs.1
      simp only [Fragment.isPart, Bool.and_eq_true, decide_eq_true_eq, ne_eq] at hc
      rw [List.cons_append, convertScan, if_neg hdepth, if_neg hc.1.1, if_neg hc.1.2,
        if_neg (by simp [hc.2]), ih hs.2, List.length_cons]
      congr 1
      omega

lemma isPart_of_isBlank {s : Text} (hs : s.all isBlank = true) : s.all Fragment.isPart = true := by
  rw [List.all_eq_true] at hs ⊢
  intro c hc
  have hblank := hs c hc
  simp only [isBlank, Bool.or_eq_true, decide_eq_true_eq] at hblank
  rcases hblank with rfl | rfl <;> rfl

lemma toUpper_eq_paren {c : Char} (h : c.toUpper = '(') : c = '(' := by
  by_cases hlower : 97 ≤ c.toNat ∧ c.toNat ≤ 122
  · have hnat := toNat_toUpper hlower
    rw [h] at hnat
    have hparen : '('.toNat = 40 := rfl
    omega
  · rwa [toUpper_of_not_lower hlower] at h

lemma length_of_keyword {keyword : Text} (h : keyword.map Char.toUpper = "CONVERT".toList) :
    keyword.length = 7 := by
  have hlen := congrArg List.length h
  rwa [List.length_map] at hlen

lemma exists_cons_of_keyword {keyword : Text}
    (h : keyword.map Char.toUpper = "CONVERT".toList) :
    ∃ c s, keyword = c :: s ∧ c.toUpper = 'C' := by
  cases keyword with
  | nil => cases h
  | cons c s => exact ⟨c, s, rfl, (List.cons.inj h).1⟩

lemma isPart_keyword {keyword : Text} (h : keyword.map Char.toUpper = "CONVERT".toList) :
    keyword.all Fragment.isPart = true := by
  rw [List.all_eq_true]
  intro c hc
  have hmem : c.toUpper ∈ "CONVERT".toList := h ▸ List.mem_map_of_mem hc
  have hne : ∀ d ∈ ['(', ')', ','], c ≠ d := by
    rintro d hd rfl
    simp only [List.mem_cons, List.not_mem_nil, or_false] at hd
    rcases hd with rfl | rfl | rfl <;> exact absurd hmem (by decide)
  simp [Fragment.isPart, hne '(' (by decide), hne ')' (by decide), hne ',' (by decide)]

/-- The scan passes a fragment whose commas do not count: because there are none, because they
are in parentheses or because the comma is known. -/
lemma convertScan_fragment {x : Fragment} (hx : x.Valid) (rest : Text) {i depth : ℕ}
    {comma : Option ℕ} (hdepth : depth ≠ 0)
    (hcomma : x.flat = true ∨ depth ≠ 1 ∨ comma.isSome = true) :
    convertScan (x.text ++ rest) i depth comma =
      convertScan rest (i + x.text.length) depth comma := by
  induction x generalizing rest i depth comma with
  | nil => rfl
  | word s next ih =>
      rw [Fragment.text, List.append_assoc, convertScan_part hx.2.1 _ hdepth,
        ih hx.2.2.2.2 _ hdepth hcomma, List.length_append]
      congr 1
      omega
  | literal s next ih =>
      have hs : (squote :: (s ++ [squote])).all Fragment.isPart = true := by
        have hall := List.all_eq_true.1 hx.1
        rw [List.all_eq_true]
        intro c hc
        simp only [List.mem_cons, List.mem_append, List.not_mem_nil, or_false] at hc
        rcases hc with rfl | hc | rfl
        · rfl
        · have hpart := hall c hc
          simp only [Bool.and_eq_true] at hpart
          exact hpart.1.1
        · rfl
      have htext : (Fragment.literal s next).text ++ rest =
          (squote :: (s ++ [squote])) ++ (next.text ++ rest) := by
        simp [Fragment.text]
      rw [htext, convertScan_part hs _ hdepth, ih hx.2.2 _ hdepth hcomma]
      congr 1
      simp only [Fragment.text, List.length_cons, List.length_append, List.length_nil]
      omega
  | comma next ih =>
      have hno : depth = 1 → comma ≠ none := by
        rintro rfl rfl
        rcases hcomma with hflat | hdeep | hsome
        · cases hflat
        · exact hdeep rfl
        · cases hsome
      rw [Fragment.text, List.cons_append, convertScan, if_neg hdepth, if_neg (by decide),
        if_neg (by decide), if_neg (by simpa using hno), ih hx _ hdepth, List.length_cons]
      · congr 1
        omega
      · rcases hcomma with hflat | hother
        · cases hflat
        · exact Or.inr hother
  | group inside next ihInside ihNext =>
      rw [Fragment.text, List.cons_append, List.append_assoc, convertScan, if_neg hdepth,
        if_pos rfl, ihInside hx.1 _ (Nat.succ_ne_zero _) (Or.inr (Or.inl (by omega))),
        List.cons_append, convertScan, if_neg (Nat.succ_ne_zero _), if_neg (by decide), if_pos rfl,
        Nat.succ_sub_one, ihNext hx.2 _ hdepth hcomma]
      congr 1
      simp only [List.length_cons, List.length_append]
      omega
  | convert keyword expr leading type trailing next ihExpr ihType ihNext =>
      obtain ⟨hkey, -, hexpr, hlead, htrail, -, -, htype, hnext⟩ := hx
      have hdeep : depth + 1 ≠ 1 := by omega
      simp only [Fragment.text, List.append_assoc, List.cons_append]
      rw [convertScan_part (isPart_keyword hkey) _ hdepth, convertScan, if_neg hdepth, if_pos rfl,
        ihExpr hexpr _ (Nat.succ_ne_zero _) (Or.inr (Or.inl hdeep)), convertScan,
        if_neg (Nat.succ_ne_zero _), if_neg (by decide), if_neg (by decide),
        if_neg (by simp [hdepth]),
        convertScan_part (isPart_of_isBlank hlead) _ (Nat.succ_ne_zero _),
        ihType htype _ (Nat.succ_ne_zero _) (Or.inr (Or.inl hdeep)),
        convertScan_part (isPart_of_isBlank htrail) _ (Nat.succ_ne_zero _), convertScan,
        if_neg (Nat.succ_ne_zero _), if_neg (by decide), if_pos rfl, Nat.succ_sub_one,
        ihNext hnext _ hdepth hcomma]
      congr 1
      simp only [List.length_cons, List.length_append]
      omega

/-- Behind the closing parenthesis the scan stops. -/
lemma convertScan_close (rest : Text) (i : ℕ) (comma : Option ℕ) :
    convertScan (')' :: rest) i 1 comma = (i + 1, 0, comma) := by
  rw [convertScan, if_neg Nat.one_ne_zero, if_neg (by decide), if_pos rfl]
  cases rest with
  | nil => rfl
  | cons c rest => rw [convertScan, if_pos rfl]

lemma takeWhile_blank {s t : Text} (hs : s.all isBlank = true)
    (ht : (t.head?.any fun c => !isBlank c) = true) : (s ++ t).takeWhile isBlank = s := by
  rw [List.takeWhile_append_of_pos (List.all_eq_true.1 hs)]
  cases t with
  | nil => cases ht
  | cons c t =>
      have hc : isBlank c = false := by simpa using ht
      rw [List.takeWhile_cons, hc]
      simp

lemma trimLengths_eq {leading type trailing : Text} (hlead : leading.all isBlank = true)
    (htrail : trailing.all isBlank = true) (hhead : (type.head?.any fun c => !isBlank c) = true)
    (hlast : (type.getLast?.any fun c => !isBlank c) = true) :
    trimLengths (leading ++ (type ++ trailing)) = (leading.length, trailing.length) := by
  have hne : ¬ (leading ++ (type ++ trailing)).all isBlank = true := by
    intro hall
    cases type with
    | nil => cases hhead
    | cons c type => simp_all
  have hback : (trailing.reverse.all isBlank) = true := by rwa [List.all_reverse]
  have hhead' : ((type ++ trailing).head?.any fun c => !isBlank c) = true := by
    cases type with
    | nil => cases hhead
    | cons c type => exact hhead
  have hlast' : ((type.reverse ++ leading.reverse).head?.any fun c => !isBlank c) = true := by
    rw [List.getLast?_eq_head?_reverse] at hlast
    cases hrev : type.reverse with
    | nil => rw [hrev] at hlast; cases hlast
    | cons c t => rw [hrev] at hlast; exact hlast
  rw [trimLengths, if_neg hne, takeWhile_blank hlead hhead', List.reverse_append,
    List.reverse_append, List.append_assoc, takeWhile_blank hback hlast', List.length_reverse]

/-! ### One round -/

/-- The pass turns the text into `out` from the position on. -/
def Leads (sql : Text) (pos : ℕ) (out : Text) : Prop :=
  ∃ stop, EndsIn convertPass.next move (sql, pos) (out, stop)

lemma pattern_ne_nil : convertPass.pattern ≠ [] := by decide

/-- The loop only looks at the position through the next match. -/
lemma Leads.congr {sql out : Text} {i j : ℕ}
    (h : convertPass.next (sql, i) = convertPass.next (sql, j)) (hj : Leads sql j out) :
    Leads sql i out := by
  obtain ⟨stop, hend⟩ := hj
  cases hnext : convertPass.next (sql, j) with
  | none =>
      have hout := (EndsIn.stop hnext).unique hend
      cases hout
      exact ⟨i, EndsIn.stop (h.trans hnext)⟩
  | some r =>
      have hrest : EndsIn convertPass.next move (move (sql, j) r) (out, stop) := hend.tail hnext
      exact ⟨stop, EndsIn.round (h.trans hnext) hrest⟩

/-- Passing a part in which nothing is found. -/
lemma Leads.pass {before u rest out : Text}
    (h : search convertPass.pattern (u ++ rest) =
      (search convertPass.pattern rest).map (· + u.length))
    (hend : Leads (before ++ (u ++ rest)) (before ++ u).length out) :
    Leads (before ++ (u ++ rest)) before.length out := by
  refine Leads.congr ?_ hend
  rw [Pass.next, Pass.next]
  show (findInCode (before ++ (u ++ rest)) convertPass.pattern before.length).map _ =
    (findInCode (before ++ (u ++ rest)) convertPass.pattern (before ++ u).length).map _
  rw [findInCode_pass pattern_ne_nil before h]
  rfl

lemma next_hit {before s : Text} (hskip : codeSkip s = 0)
    (hmatch : ciStartsWith convertPass.pattern s = true) :
    convertPass.next (before ++ s, before.length) = some (convert (before ++ s) before.length) := by
  rw [Pass.next]
  show (findInCode (before ++ s) convertPass.pattern before.length).map _ = _
  rw [findInCode_append pattern_ne_nil, search_hit hskip hmatch, Option.map_some, Option.map_some,
    Nat.zero_add]
  rfl

/-- One character of code.  If the pattern is found here, then the round leaves it. -/
lemma Leads.char {before rest out : Text} {c : Char} (hskip : codeSkip (c :: rest) = 0)
    (hmatch : ciStartsWith convertPass.pattern (c :: rest) = true →
      convert (before ++ c :: rest) before.length = skipTo (before.length + 1))
    (hend : Leads (before ++ c :: rest) (before.length + 1) out) :
    Leads (before ++ c :: rest) before.length out := by
  cases hstarts : ciStartsWith convertPass.pattern (c :: rest) with
  | false =>
      refine Leads.pass (u := [c]) (search_step pattern_ne_nil hskip hstarts) ?_
      rwa [List.length_append]
  | true =>
      obtain ⟨stop, hloop⟩ := hend
      refine ⟨stop, EndsIn.round (next_hit hskip hstarts) ?_⟩
      rw [hmatch hstarts]
      exact hloop

/-- A part of code in which every match is left. -/
lemma Leads.walk {before v rest out : Text}
    (hskip : ∀ n < v.length, codeSkip (v.drop n ++ rest) = 0)
    (hmatch : ∀ n < v.length, ciStartsWith convertPass.pattern (v.drop n ++ rest) = true →
      convert (before ++ (v ++ rest)) (before.length + n) = skipTo (before.length + n + 1))
    (hend : Leads (before ++ (v ++ rest)) (before ++ v).length out) :
    Leads (before ++ (v ++ rest)) before.length out := by
  induction v generalizing before with
  | nil => simpa using hend
  | cons c v ih =>
      refine Leads.char (hskip 0 (Nat.succ_pos _)) (hmatch 0 (Nat.succ_pos _)) ?_
      have hmove : before ++ c :: (v ++ rest) = (before ++ [c]) ++ (v ++ rest) := by simp
      have hlater := @ih (before ++ [c])
        (fun n hn => hskip (n + 1) (Nat.succ_lt_succ hn))
        (fun n hn hstarts => by
          have hround := hmatch (n + 1) (Nat.succ_lt_succ hn) hstarts
          rw [List.cons_append, hmove] at hround
          rw [List.length_append, List.length_singleton, Nat.add_assoc, Nat.add_comm 1 n]
          exact hround)
        (by rw [← hmove]; simpa using hend)
      rw [← hmove, List.length_append] at hlater
      exact hlater

/-- A character that is neither special nor the first one of the keyword. -/
lemma not_ciStartsWith_of_ne {c : Char} (h : c.toUpper ≠ 'C') (s : Text) :
    ciStartsWith convertPass.pattern (c :: s) = false := by
  rw [ciStartsWith, decide_eq_false_iff_not]
  intro heq
  exact h (List.cons.inj heq).1

/-- A character of code with which the keyword does not begin. -/
def isSymbol (c : Char) : Bool := isPlain c && c.toUpper ≠ 'C'

lemma isSymbol_iff {c : Char} : isSymbol c = true ↔ isPlain c = true ∧ c.toUpper ≠ 'C' := by
  rw [isSymbol, Bool.and_eq_true, decide_eq_true_eq]

lemma Leads.symbols {before v rest out : Text} (hv : v.all isSymbol = true)
    (hend : Leads (before ++ (v ++ rest)) (before ++ v).length out) :
    Leads (before ++ (v ++ rest)) before.length out := by
  have hsymbol : ∀ n (hn : n < v.length), isPlain v[n] = true ∧ v[n].toUpper ≠ 'C' :=
    fun n hn => isSymbol_iff.1 (List.all_eq_true.1 hv _ (List.getElem_mem hn))
  refine Leads.walk (fun n hn => ?_) (fun n hn hstarts => ?_) hend
  · rw [List.drop_eq_getElem_cons hn]
    exact codeSkip_plain (hsymbol n hn).1 _
  · rw [List.drop_eq_getElem_cons hn, List.cons_append,
      not_ciStartsWith_of_ne (hsymbol n hn).2] at hstarts
    cases hstarts

/-- `CAST(` begins like the keyword, but is not found again. -/
lemma Leads.castOpen {before rest out : Text}
    (hend : Leads (before ++ (Fragment.castOpen ++ rest)) (before ++ Fragment.castOpen).length
      out) :
    Leads (before ++ (Fragment.castOpen ++ rest)) before.length out := by
  have hno : ciStartsWith convertPass.pattern ('C' :: (Fragment.castOpen.tail ++ rest)) = false :=
    not_ciStartsWith_cast rest
  have hmove : before ++ (Fragment.castOpen ++ rest) =
      before ++ ['C'] ++ (Fragment.castOpen.tail ++ rest) := by
    rw [List.append_assoc]
    rfl
  refine Leads.char (codeSkip_plain rfl _) (fun hstarts => ?_) ?_
  · cases hstarts.symm.trans hno
  · have hlater : Leads (before ++ ['C'] ++ (Fragment.castOpen.tail ++ rest))
        (before ++ ['C']).length out := by
      refine Leads.symbols rfl ?_
      rw [← hmove, List.append_assoc]
      exact hend
    rw [← hmove, List.length_append] at hlater
    exact hlater

/-- The round of a `CONVERT` with two arguments. -/
lemma Leads.cast {before keyword leading trailing rest out : Text} {expr type : Fragment}
    (hkey : keyword.map Char.toUpper = "CONVERT".toList) (hflat : expr.flat = true)
    (hexpr : expr.Valid) (hlead : leading.all isBlank = true) (htrail : trailing.all isBlank = true)
    (hhead : (type.text.head?.any fun c => !isBlank c) = true)
    (hlast : (type.text.getLast?.any fun c => !isBlank c) = true) (htype : type.Valid)
    (hbefore : before.getLast?.any isIdentChar = false)
    (hend : Leads (before ++ (Fragment.castOpen ++ (expr.text ++ (Fragment.asWord ++
      (type.text ++ ')' :: rest))))) before.length out) :
    Leads (before ++ (keyword ++ '(' :: (expr.text ++ ',' :: (leading ++ (type.text ++ (trailing ++
      ')' :: rest)))))) before.length out := by
  set tail := expr.text ++ ',' :: (leading ++ (type.text ++ (trailing ++ ')' :: rest))) with htail
  set sql := before ++ (keyword ++ '(' :: tail) with hsql
  have hlen : keyword.length = 7 := length_of_keyword hkey
  have hopen : (before ++ keyword ++ ['(']).length = before.length + 8 := by
    simp only [List.length_append, List.length_singleton]
    omega
  have hdrop : sql.drop (before.length + 8) = tail := by
    rw [hsql, ← hopen]
    simp
  set comma := before.length + 8 + expr.text.length with hcomma
  set stop := comma + 1 + leading.length + type.text.length + trailing.length + 1 with hstop
  have hscan : convertScan (sql.drop (before.length + 8)) (before.length + 8) 1 none =
      (stop, 0, some comma) := by
    rw [hdrop, htail, convertScan_fragment hexpr _ Nat.one_ne_zero (Or.inl hflat), convertScan,
      if_neg Nat.one_ne_zero, if_neg (by decide), if_neg (by decide), if_pos (by simp),
      convertScan_part (isPart_of_isBlank hlead) _ Nat.one_ne_zero,
      convertScan_fragment htype _ Nat.one_ne_zero (Or.inr (Or.inr rfl)),
      convertScan_part (isPart_of_isBlank htrail) _ Nat.one_ne_zero, convertScan_close]
  have hcommaDrop : sql.drop (comma + 1) =
      leading ++ (type.text ++ (trailing ++ ')' :: rest)) := by
    rw [hcomma, Nat.add_assoc, ← List.drop_drop, hdrop, htail]
    simp
  have hslice : slice sql (comma + 1) (stop - 1) = leading ++ (type.text ++ trailing) := by
    have hwidth : stop - 1 = comma + 1 + (leading ++ (type.text ++ trailing)).length := by
      simp only [List.length_append]
      omega
    have hparts : leading ++ (type.text ++ (trailing ++ ')' :: rest)) =
        (leading ++ (type.text ++ trailing)) ++ ')' :: rest := by
      simp only [List.append_assoc]
    rw [hwidth, slice_add, hcommaDrop, hparts, List.take_left]
  have hround : convert sql before.length =
      { ranges := [⟨before.length, before.length + 8, "CAST(".toList⟩,
          ⟨comma, comma + 1 + leading.length, " AS ".toList⟩,
          ⟨stop - 1 - trailing.length, stop, ")".toList⟩],
        next := before.length } := by
    have htake : ¬ (sql.take before.length).getLast?.any isIdentChar = true := by
      rw [hsql, List.take_left, hbefore]
      exact Bool.false_ne_true
    rw [convert, if_neg htake, hscan]
    simp only [hslice, trimLengths_eq hlead htrail hhead hlast]
  have hlong : stop ≤ sql.length := by
    rw [hsql, htail]
    simp only [List.length_append, List.length_cons]
    omega
  have hexprSlice : slice sql (before.length + 8) comma = expr.text := by
    rw [hcomma, slice_add, hdrop, htail, List.take_left]
  have htypeSlice : slice sql (comma + 1 + leading.length) (stop - 1 - trailing.length) =
      type.text := by
    have hwidth : stop - 1 - trailing.length = comma + 1 + leading.length + type.text.length := by
      omega
    rw [hwidth, slice_add, ← List.drop_drop, hcommaDrop, List.drop_left, List.take_left]
  have hrest : sql.drop stop = rest := by
    have hwidth : stop = comma + 1 + (leading ++ (type.text ++ (trailing ++ [')']))).length := by
      simp only [List.length_append, List.length_singleton]
      omega
    have hparts : leading ++ (type.text ++ (trailing ++ ')' :: rest)) =
        (leading ++ (type.text ++ (trailing ++ [')']))) ++ rest := by
      simp only [List.append_assoc, List.singleton_append]
    rw [hwidth, ← List.drop_drop, hcommaDrop, hparts, List.drop_left]
  have htext : apply sql (convert sql before.length) = before ++ (Fragment.castOpen ++
      (expr.text ++ (Fragment.asWord ++ (type.text ++ ')' :: rest)))) := by
    have hedit := convert_text (show before.length + 8 ≤ comma by omega)
      (show comma + 1 + leading.length + trailing.length + 1 ≤ stop by omega) hlong
    rw [hexprSlice, htypeSlice, hrest, hsql, List.take_left, ← hsql] at hedit
    rw [hround]
    refine hedit.trans ?_
    simp only [List.append_assoc]
    rfl
  have hmatch : ciStartsWith convertPass.pattern (keyword ++ '(' :: tail) = true := by
    have hsplit : keyword ++ '(' :: tail = (keyword ++ ['(']) ++ tail := by simp
    have hwidth : convertPass.pattern.length = (keyword ++ ['(']).length := by
      rw [List.length_append, hlen]
      rfl
    rw [ciStartsWith, decide_eq_true_eq, hsplit, hwidth, List.take_left, List.map_append, hkey]
    rfl
  have hskip : codeSkip (keyword ++ '(' :: tail) = 0 := by
    obtain ⟨c, k, hcons, hc⟩ := exists_cons_of_keyword hkey
    rw [hcons]
    refine codeSkip_plain ?_ _
    rw [isPlain, decide_eq_true_eq]
    intro hmem
    simp only [List.mem_cons, List.not_mem_nil, or_false] at hmem
    rcases hmem with rfl | rfl | rfl | rfl | rfl <;> exact absurd hc (by decide)
  obtain ⟨last, hloop⟩ := hend
  refine ⟨last, EndsIn.round (next_hit hskip hmatch) ?_⟩
  have hcursor : move (sql, before.length) (convert sql before.length) =
      (before ++ (Fragment.castOpen ++ (expr.text ++ (Fragment.asWord ++
        (type.text ++ ')' :: rest)))), before.length) := by
    rw [move, htext, hround]
  rw [← hsql, hcursor]
  exact hloop

/-! ### Words and literals -/

/-- What stands behind a word does not go on with the keyword, a comment or its end. -/
def EndsWord (rest : Text) : Prop :=
  ∀ c ∈ rest.head?, c.toUpper ∉ "ONVERT".toList ∧ c ≠ '-' ∧ c ≠ '*'

/-- What stands behind a fragment inside of a query. -/
def Stops (rest : Text) : Prop := ∀ c ∈ rest.head?, c = ')' ∨ c = ' '

lemma Stops.endsWord {rest : Text} (h : Stops rest) : EndsWord rest := by
  intro c hc
  rcases h c hc with rfl | rfl <;> decide

lemma codeSkip_append {c : Char} {v rest : Text} (h : codeSkip (c :: v) = 0)
    (hrest : EndsWord rest) : codeSkip (c :: (v ++ rest)) = 0 := by
  cases v with
  | cons d v =>
      rw [codeSkip_cons_eq_zero] at h ⊢
      exact h
  | nil =>
      rw [codeSkip_cons_eq_zero] at h ⊢
      refine ⟨h.1, ?_, ?_⟩
      · rintro ⟨-, hhead⟩
        exact (hrest '-' hhead).2.1 rfl
      · rintro ⟨-, hhead⟩
        exact (hrest '*' hhead).2.2 rfl

/-- A match that begins in a word is the keyword at its end, in front of a parenthesis. -/
lemma keyword_of_match {v rest : Text} (hv : v ≠ []) (hparen : '(' ∉ v) (hrest : EndsWord rest)
    (h : ciStartsWith convertPass.pattern (v ++ rest) = true) :
    v.map Char.toUpper = "CONVERT".toList ∧ rest.head? = some '(' := by
  have hupper : ((v ++ rest).take 8).map Char.toUpper = "CONVERT".toList ++ ['('] :=
    of_decide_eq_true h
  rw [List.take_append, List.map_append] at hupper
  have hnot : '(' ∉ (v.take 8).map Char.toUpper := by
    rw [List.mem_map]
    rintro ⟨c, hc, hup⟩
    exact hparen (toUpper_eq_paren hup ▸ List.mem_of_mem_take hc)
  -- the word covers all of the keyword: what follows it cannot go on inside
  have hsplit : (v.take 8).map Char.toUpper = "CONVERT".toList ∧
      (rest.take (8 - v.length)).map Char.toUpper = ['('] := by
    rcases List.append_eq_append_iff.1 hupper with ⟨a, hkey, htail⟩ | ⟨a, hkey, htail⟩
    · cases a with
      | nil => exact ⟨by simpa using hkey.symm, htail⟩
      | cons d a =>
          exfalso
          cases rest with
          | nil => simp at htail
          | cons e rest =>
              cases hwidth : 8 - v.length with
              | zero => rw [hwidth] at htail; cases htail
              | succ n =>
                  rw [hwidth, List.take_succ_cons, List.map_cons, List.cons_append] at htail
                  have hd : e.toUpper = d := (List.cons.inj htail).1
                  cases v with
                  | nil => exact hv rfl
                  | cons b v =>
                      rw [List.take_succ_cons, List.map_cons, List.cons_append] at hkey
                      have hmem : d ∈ "ONVERT".toList := by
                        rw [show "ONVERT".toList = _ from (List.cons.inj hkey).2]
                        simp
                      exact (hrest e rfl).1 (hd ▸ hmem)
    · cases a with
      | nil => exact ⟨by simpa using hkey, htail.symm⟩
      | cons d a =>
          have hd : '(' = d := (List.cons.inj htail).1
          exact absurd (by rw [hkey, hd]; simp) hnot
  have hlen : v.length = 7 := by
    have hwidth := length_of_keyword hsplit.1
    rw [List.length_take] at hwidth
    omega
  refine ⟨?_, ?_⟩
  · rw [← hsplit.1, List.take_of_length_le (by omega)]
  · have hlast := hsplit.2
    rw [hlen] at hlast
    cases rest with
    | nil => cases hlast
    | cons e rest => rw [toUpper_eq_paren (List.cons.inj hlast).1]; rfl

lemma quoteEnd_literal {s rest : Text}
    (hs : (s.all fun c => Fragment.isPart c && c ≠ squote && c ≠ backslash) = true)
    (hrest : rest.head? ≠ some squote) :
    quoteEnd squote true (s ++ squote :: rest) = some (s.length + 1) := by
  induction s with
  | nil =>
      cases rest with
      | nil => rfl
      | cons d rest =>
          have hd : d ≠ squote := fun h => hrest (by rw [h]; rfl)
          simp [quoteEnd, hd, show squote ≠ backslash by decide]
  | cons c s ih =>
      rw [List.all_cons, Bool.and_eq_true] at hs
      have hc := hs.1
      simp only [Bool.and_eq_true, decide_eq_true_eq, ne_eq] at hc
      have hlater := ih hs.2
      cases htail : s ++ squote :: rest with
      | nil => simp at htail
      | cons d t =>
          rw [htail] at hlater
          rw [List.cons_append, htail, quoteEnd, if_neg (by simp [hc.2]), if_pos hc.1.2, hlater]
          rfl

lemma Leads.literal {before s rest out : Text}
    (hs : (s.all fun c => Fragment.isPart c && c ≠ squote && c ≠ backslash) = true)
    (hrest : rest.head? ≠ some squote)
    (hend : Leads (before ++ ((squote :: (s ++ [squote])) ++ rest))
      (before ++ squote :: (s ++ [squote])).length out) :
    Leads (before ++ ((squote :: (s ++ [squote])) ++ rest)) before.length out := by
  have htext : (squote :: (s ++ [squote])) ++ rest = squote :: (s ++ squote :: rest) := by simp
  have hskip : codeSkip ((squote :: (s ++ [squote])) ++ rest) =
      (squote :: (s ++ [squote])).length := by
    rw [htext, codeSkip, if_pos (by simp), quoteEnd_literal hs hrest]
    simp
  refine Leads.pass ?_ hend
  have hsearch := search_skip pattern_ne_nil
    (show codeSkip ((squote :: (s ++ [squote])) ++ rest) ≠ 0 by rw [hskip]; simp)
  rw [hskip, List.drop_left] at hsearch
  exact hsearch

/-! ### The whole query -/

namespace Fragment

lemma endsWord_text {s rest : Text} {next : Fragment} (hnext : next.Valid)
    (hfollows : next.Follows s) (hrest : Stops rest) : EndsWord (next.text ++ rest) := by
  cases next with
  | nil => exact hrest.endsWord
  | word t next => exact absurd hfollows id
  | literal t next =>
      rintro c ⟨⟩
      decide
  | comma next =>
      rintro c ⟨⟩
      decide
  | group inside next =>
      rintro c ⟨⟩
      decide
  | convert keyword expr leading type trailing next =>
      obtain ⟨d, k, rfl, hd⟩ := exists_cons_of_keyword hnext.1
      rintro c ⟨⟩
      refine ⟨by rw [hd]; decide, ?_, ?_⟩ <;> rintro rfl <;> exact absurd hd (by decide)

lemma head_text_ne_squote {rest : Text} {next : Fragment} (hnext : next.Valid)
    (hliteral : next.isLiteral = false) (hrest : Stops rest) :
    (next.text ++ rest).head? ≠ some squote := by
  intro hhead
  cases next with
  | nil => rcases hrest squote hhead with h | h <;> exact absurd h (by decide)
  | word s next =>
      cases s with
      | nil => exact hnext.1 rfl
      | cons c s =>
          cases hhead
          have hcode := hnext.2.2.1 0 (Nat.succ_pos _)
          exact (codeSkip_cons_eq_zero.1 hcode).1 (List.mem_cons_self ..)
  | literal s next => cases hliteral
  | comma next => cases hhead
  | group inside next => cases hhead
  | convert keyword expr leading type trailing next =>
      obtain ⟨d, k, rfl, hd⟩ := exists_cons_of_keyword hnext.1
      cases hhead
      exact absurd hd (by decide)

/-- A `CONVERT` in a word is left: it is the end of another name, or it has one argument. -/
lemma convert_word {before s rest : Text} {next : Fragment} (hword : (word s next).Valid)
    (hrest : Stops rest) {n : ℕ} (hn : n < s.length)
    (hmatch : ciStartsWith convertPass.pattern (s.drop n ++ (next.text ++ rest)) = true) :
    Pushdown.convert (before ++ (s ++ (next.text ++ rest))) (before.length + n) =
      skipTo (before.length + n + 1) := by
  obtain ⟨-, hpart, -, hfollows, hnext⟩ := hword
  have hparen : '(' ∉ s.drop n := by
    intro hmem
    exact absurd (List.all_eq_true.1 hpart _ (List.mem_of_mem_drop hmem)) (by decide)
  have hne : s.drop n ≠ [] := by
    rw [ne_eq, List.drop_eq_nil_iff]
    omega
  obtain ⟨hkey, hopen⟩ :=
    keyword_of_match hne hparen (endsWord_text hnext hfollows hrest) hmatch
  have hlen : s.length = n + 7 := by
    have hwidth := length_of_keyword hkey
    rw [List.length_drop] at hwidth
    omega
  have htake : (before ++ (s ++ (next.text ++ rest))).take (before.length + n) =
      before ++ s.take n := by
    rw [List.take_length_add_append, List.take_append_of_le_length hn.le]
  cases next with
  | group inside next =>
      rw [Pushdown.convert, htake]
      rcases hfollows n hn hkey with hident | hflat
      · have hlast : (before ++ s.take n).getLast?.any isIdentChar = true := by
          cases hget : (s.take n).getLast? with
          | none => rw [hget] at hident; cases hident
          | some c =>
              rw [List.getLast?_append, hget]
              rw [hget] at hident
              exact hident
        rw [if_pos hlast]
      · have hdrop : (before ++ (s ++ ((group inside next).text ++ rest))).drop
            (before.length + n + 8) = inside.text ++ ')' :: (next.text ++ rest) := by
          have hwidth : before.length + n + 8 = (before ++ (s ++ ['('])).length := by
            simp only [List.length_append, List.length_singleton]
            omega
          have htext : before ++ (s ++ ((group inside next).text ++ rest)) =
              (before ++ (s ++ ['('])) ++ (inside.text ++ ')' :: (next.text ++ rest)) := by
            simp [text]
          rw [hwidth, htext, List.drop_left]
        rw [hdrop, convertScan_fragment hnext.1 _ Nat.one_ne_zero (Or.inl hflat),
          convertScan_close]
        split_ifs <;> rfl
  | nil => rcases hrest '(' hopen with h | h <;> exact absurd h (by decide)
  | word t next => exact absurd hfollows id
  | literal t next => cases hopen
  | comma next => cases hopen
  | convert keyword expr leading type trailing next =>
      obtain ⟨d, k, rfl, hd⟩ := exists_cons_of_keyword hnext.1
      cases hopen
      exact absurd hd (by decide)

lemma leads_word {before s rest out : Text} {next : Fragment} (hword : (word s next).Valid)
    (hrest : Stops rest)
    (hend : Leads (before ++ (s ++ (next.text ++ rest))) (before ++ s).length out) :
    Leads (before ++ (s ++ (next.text ++ rest))) before.length out := by
  refine Leads.walk (fun n hn => ?_) (fun n hn => convert_word hword hrest hn) hend
  obtain ⟨-, -, hcode, hfollows, hnext⟩ := hword
  have hskip := hcode n hn
  cases hdrop : s.drop n with
  | nil =>
      rw [List.drop_eq_nil_iff] at hdrop
      omega
  | cons c v =>
      rw [hdrop] at hskip
      exact codeSkip_append hskip (endsWord_text hnext hfollows hrest)

lemma last_concat (u : Text) {c : Char} (h : isIdentChar c = false) :
    (u ++ [c]).getLast?.any isIdentChar = false := by
  rw [List.getLast?_concat]
  exact h

lemma last_word {before s : Text} {next : Fragment} (hs : s ≠ []) (hfollows : next.Follows s)
    (hopens : next.opens = true) : (before ++ s).getLast?.any isIdentChar = false := by
  cases next with
  | convert keyword expr leading type trailing next =>
      rw [List.getLast?_append, List.getLast?_eq_some_getLast hs]
      have hlast : s.getLast?.any isIdentChar = false := hfollows
      rw [List.getLast?_eq_some_getLast hs] at hlast
      exact hlast
  | _ => cases hopens

/-- The loop goes through the text of a fragment and leaves its `CAST`s behind. -/
theorem leads (x : Fragment) {before rest out : Text} (hx : x.Valid) (hrest : Stops rest)
    (hbefore : x.opens = true → before.getLast?.any isIdentChar = false)
    (hend : Leads (before ++ (x.casts ++ rest)) (before ++ x.casts).length out) :
    Leads (before ++ (x.text ++ rest)) before.length out := by
  induction x generalizing before rest with
  | nil => simpa [casts, text] using hend
  | word s next ih =>
      have hnext : Leads (before ++ s ++ (next.text ++ rest)) (before ++ s).length out :=
        ih hx.2.2.2.2 hrest (last_word hx.1 hx.2.2.2.1) (by simpa [casts] using hend)
      rw [text, List.append_assoc]
      exact leads_word hx hrest (by simpa using hnext)
  | literal s next ih =>
      have hlast : (before ++ squote :: (s ++ [squote])).getLast?.any isIdentChar = false := by
        rw [← List.cons_append, ← List.append_assoc]
        exact last_concat _ (by decide)
      have hnext : Leads (before ++ squote :: (s ++ [squote]) ++ (next.text ++ rest))
          (before ++ squote :: (s ++ [squote])).length out :=
        ih hx.2.2 hrest (fun _ => hlast) (by simpa [casts] using hend)
      have htext : (literal s next).text ++ rest =
          (squote :: (s ++ [squote])) ++ (next.text ++ rest) := by
        simp [text]
      rw [htext]
      refine Leads.literal hx.1 (head_text_ne_squote hx.2.2 hx.2.1 hrest) ?_
      rwa [List.append_assoc] at hnext
  | comma next ih =>
      have hnext : Leads (before ++ [','] ++ (next.text ++ rest)) (before ++ [',']).length out :=
        ih hx hrest (fun _ => last_concat _ (by decide)) (by simpa [casts] using hend)
      have hcomma : Leads (before ++ ([','] ++ (next.text ++ rest))) before.length out :=
        Leads.symbols rfl (by simpa using hnext)
      exact hcomma
  | group inside next ihInside ihNext =>
      -- from the right to the left: the rest, the closing parenthesis, the inside
      have hnext : Leads (before ++ '(' :: (inside.casts ++ [')']) ++ (next.text ++ rest))
          (before ++ '(' :: (inside.casts ++ [')'])).length out := by
        refine ihNext hx.2 hrest (fun _ => ?_) (by simpa [casts] using hend)
        rw [← List.cons_append, ← List.append_assoc]
        exact last_concat _ (by decide)
      have hclose : Leads (before ++ '(' :: inside.casts ++ ([')'] ++ (next.text ++ rest)))
          (before ++ '(' :: inside.casts).length out :=
        Leads.symbols rfl (by simpa using hnext)
      have hinside : Leads (before ++ ['('] ++ (inside.text ++ ')' :: (next.text ++ rest)))
          (before ++ ['(']).length out := by
        refine ihInside hx.1 ?_ (fun _ => last_concat _ (by decide)) (by simpa using hclose)
        rintro c ⟨⟩
        exact Or.inl rfl
      have hopen : Leads (before ++ (['('] ++ (inside.text ++ ')' :: (next.text ++ rest))))
          before.length out :=
        Leads.symbols rfl (by simpa using hinside)
      simpa [text] using hopen
  | convert keyword expr leading type trailing next ihExpr ihType ihNext =>
      obtain ⟨hkey, hflat, hexpr, hlead, htrail, hhead, hlast, htype, hvalid⟩ := hx
      have hnext : Leads (before ++ (castOpen ++ (expr.casts ++ (asWord ++
          (type.casts ++ [')'])))) ++ (next.text ++ rest))
          (before ++ (castOpen ++ (expr.casts ++ (asWord ++
            (type.casts ++ [')']))))).length out := by
        refine ihNext hvalid hrest (fun _ => ?_) (by
          simpa only [casts, List.append_assoc, List.cons_append, List.nil_append] using hend)
        simp only [← List.append_assoc]
        exact last_concat _ (by decide)
      have hclose : Leads (before ++ (castOpen ++ (expr.casts ++ (asWord ++
          type.casts))) ++ ([')'] ++ (next.text ++ rest)))
          (before ++ (castOpen ++ (expr.casts ++ (asWord ++
            type.casts)))).length out :=
        Leads.symbols rfl (by
          simpa only [List.append_assoc, List.cons_append, List.nil_append] using hnext)
      have hcastType : Leads (before ++ (castOpen ++ (expr.casts ++ asWord)) ++
          (type.text ++ ')' :: (next.text ++ rest)))
          (before ++ (castOpen ++ (expr.casts ++ asWord))).length out := by
        refine ihType htype ?_ (fun _ => ?_) (by
          simpa only [List.append_assoc, List.cons_append, List.nil_append] using hclose)
        · rintro c ⟨⟩
          exact Or.inl rfl
        · rw [show asWord = [' ', 'A', 'S'] ++ [' '] from rfl]
          simp only [← List.append_assoc]
          exact last_concat _ (by decide)
      have has : Leads (before ++ (castOpen ++ expr.casts) ++ (asWord ++
          (type.text ++ ')' :: (next.text ++ rest))))
          (before ++ (castOpen ++ expr.casts)).length out :=
        Leads.symbols rfl (by
          simpa only [List.append_assoc, List.cons_append, List.nil_append] using hcastType)
      have hcastExpr : Leads (before ++ castOpen ++ (expr.text ++ (asWord ++
          (type.text ++ ')' :: (next.text ++ rest))))) (before ++ castOpen).length out := by
        refine ihExpr hexpr ?_ (fun _ => ?_) (by
          simpa only [List.append_assoc, List.cons_append, List.nil_append] using has)
        · rintro c ⟨⟩
          exact Or.inr rfl
        · rw [show castOpen = ['C', 'A', 'S', 'T'] ++ ['('] from rfl, ← List.append_assoc]
          exact last_concat _ (by decide)
      have hopen := Leads.castOpen (by
          simpa only [List.append_assoc, List.cons_append, List.nil_append] using hcastExpr)
      have hround := Leads.cast hkey hflat hexpr hlead htrail hhead hlast htype (hbefore rfl) hopen
      simpa only [text, List.append_assoc, List.cons_append] using hround

end Fragment

/-- `CONVERT` at every depth.  Whatever a query is put together from, the pass turns every
`CONVERT(expr, type)` in it into `CAST(expr AS type)`, inside of the arguments of functions and of
other `CONVERT`s too, trims the blanks around the type and leaves everything else as it is. -/
theorem convertPass_run_fragment (x : Fragment) (hx : x.Valid) :
    convertPass.run x.text = x.casts := by
  have hlast : Leads x.casts x.casts.length x.casts := by
    refine ⟨x.casts.length, EndsIn.stop ?_⟩
    have hnone := findInCode_append pattern_ne_nil x.casts []
    rw [List.append_nil, search_short (by decide), Option.map_none] at hnone
    rw [Pass.next]
    show (findInCode x.casts convertPass.pattern x.casts.length).map _ = none
    rw [hnone, Option.map_none]
  have hloop : Leads x.text 0 x.casts := by
    have hall := @Fragment.leads x [] [] x.casts hx (fun c hc => by cases hc) (fun _ => rfl)
      (by simpa using hlast)
    simpa using hall
  obtain ⟨stop, hend⟩ := hloop
  have hrun : EndsIn convertPass.next move (x.text, 0)
      (StepRun.run move (x.text, 0) (convertPass.rounds x.text)) :=
    ⟨Pass.next_run (by simp [passes, laterPasses]) x.text, _, rfl⟩
  rw [Pass.run, hrun.unique hend]

/-- `CONVERT` in an argument of `CONVERT`, a longer name, and a `CONVERT` with `USING`. -/
def nestedConverts : Fragment :=
  .word "SELECT a-f".toList (.group
    (.convert "CONVERT".toList
      (.convert "convert".toList (.word "b".toList .nil) " ".toList (.word "CHAR".toList .nil)
        " ".toList .nil)
      " ".toList
      (.word "DECIMAL".toList (.group
        (.word "10".toList (.comma (.word "2".toList .nil))) .nil))
      [] .nil)
    (.comma (.word "MYCONVERT".toList (.group
      (.literal "x".toList (.comma (.word "y".toList .nil)))
      (.comma (.word "CONVERT".toList (.group (.word "c USING utf8".toList .nil) .nil)))))))

theorem convertPass_run_nestedConverts :
    nestedConverts.text = ("SELECT a-f(CONVERT(convert(b, CHAR ), DECIMAL(10,2)))," ++
        "MYCONVERT('x',y),CONVERT(c USING utf8)").toList ∧
      convertPass.run nestedConverts.text =
        ("SELECT a-f(CAST(CAST(b AS CHAR) AS DECIMAL(10,2)))," ++
          "MYCONVERT('x',y),CONVERT(c USING utf8)").toList := by
  refine ⟨by decide +kernel, ?_⟩
  rw [convertPass_run_fragment nestedConverts (by decide +kernel)]
  decide +kernel

end DuckdbEngine.Pushdown
