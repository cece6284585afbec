/-
The rounds of the passes.

Every round replaces ranges that lie in the text (`passes_fit`), and every loop ends
(`passes_end`): some rounds make the text shorter, some make it longer and go on behind
what they inserted, and a `CONVERT` that has been rewritten is not found again.
-/
import Mathlib.Data.List.TakeWhile
import DuckdbEngine.Pushdown.Passes

namespace DuckdbEngine.Pushdown

open Sql TextEdits

/-! ### Parts of the text -/

lemma spaces_le (s : Text) : spaces s ≤ s.length :=
  (List.takeWhile_sublist _).length_le

lemma digits_le (s : Text) : (digits s).length ≤ s.length :=
  (List.takeWhile_sublist _).length_le

lemma find_drop_le {sql : Text} {i k : ℕ} (h : find [')'] (sql.drop i) = some k) :
    i + k + 1 ≤ sql.length := by
  have hle := find_le h
  simp only [List.length_singleton, List.length_drop] at hle
  omega

lemma fits_single {n i j : ℕ} {t : Text} (hij : i < j) (hj : j ≤ n) :
    Fits n 0 [(⟨i, j, t⟩ : Range Char)] := ⟨Nat.zero_le _, hij, hj, trivial⟩

lemma length_edit_single {sql : Text} {i j : ℕ} (t : Text) (hij : i < j) (hj : j ≤ sql.length) :
    (edit [⟨i, j, t⟩] sql).length + (j - i) = sql.length + t.length := by
  simpa using length_edit (fits_single (t := t) hij hj)

/-! ### Bounds of `CONVERT` -/

/-- If the loop finds the closing parenthesis, a comma lies before it. -/
lemma convertScan_bounds {s : Text} {start depth lo : ℕ} {comma₀ : Option ℕ} {i comma : ℕ}
    (hdepth : 0 < depth) (hlo : lo ≤ start) (hcomma : ∀ c, comma₀ = some c → lo ≤ c ∧ c < start)
    (h : convertScan s start depth comma₀ = (i, 0, some comma)) :
    lo ≤ comma ∧ comma + 1 < i ∧ i ≤ start + s.length := by
  induction s generalizing start depth comma₀ with
  | nil =>
      rw [convertScan, Prod.mk.injEq, Prod.mk.injEq] at h
      omega
  | cons a s ih =>
      rw [convertScan, if_neg (by omega)] at h
      have hlater : ∀ c, comma₀ = some c → lo ≤ c ∧ c < start + 1 := fun c hc => by
        have := hcomma c hc
        omega
      rw [List.length_cons]
      split_ifs at h with hopen hclose hsep
      · have := ih (by omega) (by omega) hlater h
        omega
      · rcases Nat.lt_or_ge 1 depth with hdeep | hone
        · have := ih (by omega) (by omega) hlater h
          omega
        · -- the parenthesis closes `CONVERT`, so the loop stops behind it
          have hzero : depth - 1 = 0 := by omega
          have hstop : convertScan s (start + 1) 0 comma₀ = (start + 1, 0, comma₀) := by
            cases s <;> simp [convertScan]
          rw [hzero, hstop, Prod.mk.injEq, Prod.mk.injEq] at h
          have := hcomma comma h.2.2
          omega
      · have := ih hdepth (by omega) (fun c hc => by cases hc; omega) h
        omega
      · have := ih hdepth (by omega) hlater h
        omega

lemma length_takeWhile_le_of_not {p : Char → Bool} {u v : Text} {c : Char} (hc : p c = false) :
    ((u ++ c :: v).takeWhile p).length ≤ u.length := by
  rw [List.takeWhile_append]
  split_ifs
  · simp [hc]
  · exact (List.takeWhile_sublist _).length_le

lemma trimLengths_le (type : Text) : (trimLengths type).1 + (trimLengths type).2 ≤ type.length := by
  rw [trimLengths]
  split_ifs with hall
  · exact Nat.zero_le _
  · -- a character that is no blank stands behind the leading blanks
    have hne : type.dropWhile isBlank ≠ [] := by
      intro hnil
      exact hall (List.all_eq_true.2 (List.dropWhile_eq_nil_iff.1 hnil))
    obtain ⟨c, v, hcv⟩ := List.exists_cons_of_ne_nil hne
    have hc : isBlank c = false := by
      have := List.head_dropWhile_not isBlank hne
      simpa [hcv] using this
    have hsplit : type = type.takeWhile isBlank ++ c :: v := by
      rw [← hcv, List.takeWhile_append_dropWhile]
    have hrev : type.reverse = v.reverse ++ c :: (type.takeWhile isBlank).reverse := by
      conv_lhs => rw [hsplit]
      simp
    have htrail : (type.reverse.takeWhile isBlank).length ≤ v.length := by
      rw [hrev]
      exact (length_takeWhile_le_of_not hc).trans_eq v.length_reverse
    have hlen := congrArg List.length hsplit
    rw [List.length_append, List.length_cons] at hlen
    show (type.takeWhile isBlank).length + _ ≤ _
    omega

lemma convert_fits {n i comma leading trailing stop : ℕ} (hcomma : i + 8 ≤ comma)
    (hstop : comma + 1 + leading + trailing + 1 ≤ stop) (hlen : stop ≤ n) :
    Fits n 0
      [(⟨i, i + 8, "CAST(".toList⟩ : Range Char), ⟨comma, comma + 1 + leading, " AS ".toList⟩,
        ⟨stop - 1 - trailing, stop, ")".toList⟩] := by
  refine ⟨Nat.zero_le _, ?_, ?_, hcomma, ?_, ?_, ?_, ?_, hlen, trivial⟩ <;> simp only <;> omega

lemma rollup_fits {n g i : ℕ} (hcols : g + 9 ≤ i) (hlen : i + 12 ≤ n) :
    Fits n 0 [(⟨g, g + 9, "GROUP BY ROLLUP(".toList⟩ : Range Char), ⟨i, i + 12, ")".toList⟩] := by
  refine ⟨Nat.zero_le _, ?_, ?_, hcols, ?_, hlen, trivial⟩ <;> simp only <;> omega

/-! ### What a round does -/

/-- The ranges of `CONVERT` make the text that the source puts together. -/
theorem convert_text {sql : Text} {i comma leading trailing stop : ℕ} (hcomma : i + 8 ≤ comma)
    (hstop : comma + 1 + leading + trailing + 1 ≤ stop) (hlen : stop ≤ sql.length) :
    edit [⟨i, i + 8, "CAST(".toList⟩, ⟨comma, comma + 1 + leading, " AS ".toList⟩,
        ⟨stop - 1 - trailing, stop, ")".toList⟩] sql =
      sql.take i ++ ("CAST(".toList ++ slice sql (i + 8) comma ++ " AS ".toList ++
        slice sql (comma + 1 + leading) (stop - 1 - trailing) ++ ")".toList) ++ sql.drop stop := by
  rw [edit_eq_weave (Nat.zero_le _) (convert_fits hcomma hstop hlen)]
  simp only [weave, slice, List.drop_zero, List.take_zero, List.nil_append,
    List.append_assoc]

/-- The ranges of `WITH ROLLUP` make the text that the source puts together. -/
theorem rollup_text {sql : Text} {g i : ℕ} (hcols : g + 9 ≤ i) (hlen : i + 12 ≤ sql.length) :
    edit [⟨g, g + 9, "GROUP BY ROLLUP(".toList⟩, ⟨i, i + 12, ")".toList⟩] sql =
      sql.take g ++ ("GROUP BY ROLLUP(".toList ++ slice sql (g + 9) i ++ ")".toList) ++
        sql.drop (i + 12) := by
  rw [edit_eq_weave (Nat.zero_le _) (rollup_fits hcols hlen)]
  simp only [weave, slice, List.drop_zero, List.take_zero, List.nil_append,
    List.append_assoc]

section

variable {sql : Text} {i : ℕ}

/-- `CONVERT`: nothing, or the parts of the call around its two arguments are replaced. -/
lemma convert_cases (hmatch : i + 8 ≤ sql.length) :
    convert sql i = skipTo (i + 1) ∨
      ∃ comma leading trailing stop,
        i + 8 ≤ comma ∧ comma + 1 + leading + trailing + 1 ≤ stop ∧ stop ≤ sql.length ∧
        convert sql i =
          { ranges := [⟨i, i + 8, "CAST(".toList⟩,
              ⟨comma, comma + 1 + leading, " AS ".toList⟩,
              ⟨stop - 1 - trailing, stop, ")".toList⟩],
            next := i } := by
  rw [convert]
  split_ifs with hword
  · exact Or.inl rfl
  · split
    · rename_i stop comma hscan
      have hbounds := convertScan_bounds Nat.zero_lt_one le_rfl (fun _ hc => by cases hc) hscan
      rw [List.length_drop] at hbounds
      have htrim := trimLengths_le (slice sql (comma + 1) (stop - 1))
      rw [length_slice (by omega)] at htrim
      exact Or.inr ⟨comma, (trimLengths (slice sql (comma + 1) (stop - 1))).1,
        (trimLengths (slice sql (comma + 1) (stop - 1))).2, stop, hbounds.1, by omega, by omega,
        rfl⟩
    · exact Or.inl rfl

/-- `WITH ROLLUP`: nothing, or both keywords are replaced, or, if they share a blank, everything
from the first one to the end of the second one. -/
lemma rollup_cases (sql : Text) (pos i : ℕ) :
    rollup sql pos i = skipTo (i + 12) ∨
      ∃ g, pos ≤ g ∧ g ≤ i ∧ MatchesAt sql "GROUP BY ".toList g ∧
        (g + 9 ≤ i ∧ rollup sql pos i =
            { ranges := [⟨g, g + 9, "GROUP BY ROLLUP(".toList⟩, ⟨i, i + 12, ")".toList⟩],
              next := g + (16 + (i - (g + 9)) + 1) } ∨
          i < g + 9 ∧ ∃ t, rollup sql pos i =
            { ranges := [⟨g, i + 12, t⟩], next := g + t.length }) := by
  rw [rollup]
  split
  · exact Or.inl rfl
  · rename_i g hg
    have hspec := rfindInCode_matches hg
    split_ifs with hfrom hcols
    · exact Or.inr ⟨g, hfrom, hspec.1, hspec.2, Or.inl ⟨hcols, rfl⟩⟩
    · exact Or.inr ⟨g, hfrom, hspec.1, hspec.2, Or.inr ⟨by omega, _, rfl⟩⟩
    · exact Or.inl rfl

/-- A round that replaces nothing, or a range that begins with the match.  The search goes on
behind the match, at a text that is shorter than the pattern, or behind the inserted text. -/
inductive OneRange (sql pattern : Text) (put : Text → Prop) (i : ℕ) : Round → Prop
  | skip {n : ℕ} (hn : i < n) : OneRange sql pattern put i (skipTo n)
  | stay {stop : ℕ} {t : Text} (hstop : i + pattern.length ≤ stop)
      (hlen : stop ≤ sql.length) (ht : put t) (hshort : t.length < pattern.length) :
      OneRange sql pattern put i ⟨[⟨i, stop, t⟩], i⟩
  | pass {stop : ℕ} {t : Text} (hstop : i + pattern.length ≤ stop) (hlen : stop ≤ sql.length)
      (ht : put t) : OneRange sql pattern put i ⟨[⟨i, stop, t⟩], i + t.length⟩

lemma currentTime_round {keyword replacement : Text}
    (hshort : replacement.length < keyword.length) :
    OneRange sql keyword (· = replacement) i (currentTime keyword replacement sql i) := by
  rw [currentTime]
  split
  · exact .skip (Nat.lt_succ_self i)
  · rename_i k hk
    exact .stay (by omega) (find_drop_le hk) rfl hshort

lemma straightJoin_round (h : i + 13 ≤ sql.length) :
    OneRange sql "STRAIGHT_JOIN".toList (fun t => t = [] ∨ t = "JOIN".toList) i
      (straightJoin sql i) := by
  have hlen : "STRAIGHT_JOIN".toList.length = 13 := by decide
  rw [straightJoin]
  split_ifs with hhint hblank
  · have hlt := (List.getElem?_eq_some_iff.1 hblank).1
    exact .stay (by omega) (by omega) (Or.inl rfl) (by rw [hlen]; decide)
  · exact .stay (by omega) h (Or.inl rfl) (by rw [hlen]; decide)
  · exact .stay (by omega) h (Or.inr rfl) (by rw [hlen]; decide)

lemma join_round (h : i + 6 ≤ sql.length) :
    OneRange sql " JOIN ".toList (· = " CROSS JOIN ".toList) i (join sql i) := by
  have hlen : " JOIN ".toList.length = 6 := by decide
  rw [join]
  split_ifs with hqualified hcond
  · exact .skip (by omega)
  · exact .skip (by omega)
  · exact .pass (by omega) h rfl

lemma regexp_round {keyword operator : Text} (hshort : operator.length < keyword.length)
    (h : i + keyword.length ≤ sql.length) :
    OneRange sql keyword (· = operator) i (regexp keyword operator i) :=
  .stay le_rfl h rfl hshort

lemma indexHint_round {hint : Text} (hne : hint ≠ []) :
    OneRange sql hint (· = []) i (indexHint hint sql i) := by
  rw [indexHint]
  split
  · exact .skip (Nat.lt_succ_self i)
  · rename_i k hk
    have hclose := find_drop_le hk
    have hspaces := spaces_le (sql.drop (i + hint.length + k + 1))
    rw [List.length_drop] at hspaces
    exact .stay (by omega) (by omega) rfl (List.length_pos_iff.2 hne)

/-- A character that `LIMIT` may be followed by in what is replaced. -/
def isLimitChar (c : Char) : Bool := c = ' ' || c = ',' || c.isDigit

lemma isLimitChar_spaces (sql : Text) (k : ℕ) :
    ∀ c ∈ slice sql k (k + spaces (sql.drop k)), isLimitChar c = true := by
  intro c hc
  rw [spaces, slice_takeWhile] at hc
  have := List.mem_takeWhile_imp hc
  simp_all [isLimitChar]

lemma isLimitChar_digits (sql : Text) (k : ℕ) :
    ∀ c ∈ slice sql k (k + (digits (sql.drop k)).length), isLimitChar c = true := by
  intro c hc
  rw [digits, slice_takeWhile] at hc
  have := List.mem_takeWhile_imp hc
  simp_all [isLimitChar]

/-- `LIMIT`: nothing, or the two numbers change places. -/
lemma limit_cases (sql : Text) (i : ℕ) :
    (∃ n, i < n ∧ limit sql i = skipTo n) ∨
      ∃ stop count offset, i + 6 ≤ stop ∧ stop ≤ sql.length ∧
        (∀ c ∈ slice sql (i + 6) stop, isLimitChar c = true) ∧
        (∀ c ∈ count ++ offset, c.isDigit = true) ∧
        limit sql i =
          ⟨[⟨i, stop, "LIMIT ".toList ++ count ++ " OFFSET ".toList ++ offset⟩],
            i + ("LIMIT ".toList ++ count ++ " OFFSET ".toList ++ offset).length⟩ := by
  rw [limit]
  dsimp only
  split_ifs with hoffset hcomma
  · exact Or.inl ⟨_, by omega, rfl⟩
  · -- what is replaced, read from left to right
    set num1 := i + 6 + spaces (sql.drop (i + 6))
    set offset := digits (sql.drop num1)
    set comma := num1 + offset.length + spaces (sql.drop (num1 + offset.length))
    set num2 := comma + 1 + spaces (sql.drop (comma + 1))
    set count := digits (sql.drop num2)
    have hlt : comma < sql.length := (List.getElem?_eq_some_iff.1 hcomma).1
    have hspaces := spaces_le (sql.drop (comma + 1))
    have hcount : count.length ≤ _ := digits_le (sql.drop num2)
    rw [List.length_drop] at hspaces hcount
    have hnum1 : ∀ c ∈ slice sql num1 (num1 + offset.length), isLimitChar c = true :=
      isLimitChar_digits sql num1
    have hnum2 : ∀ c ∈ slice sql num2 (num2 + count.length), isLimitChar c = true :=
      isLimitChar_digits sql num2
    have hsep : ∀ c ∈ slice sql comma (comma + 1), isLimitChar c = true := by
      intro c hc
      rw [slice_add, List.take_one, List.head?_drop, hcomma] at hc
      cases List.mem_singleton.1 hc
      decide
    have hchars : ∀ c ∈ slice sql (i + 6) (num2 + count.length), isLimitChar c = true :=
      forall_mem_slice (by omega) (by omega) (isLimitChar_spaces sql (i + 6)) <|
      forall_mem_slice (by omega) (by omega) hnum1 <|
      forall_mem_slice (by omega) (by omega) (isLimitChar_spaces sql (num1 + offset.length)) <|
      forall_mem_slice (by omega) (by omega) hsep <|
      forall_mem_slice (by omega) (by omega) (isLimitChar_spaces sql (comma + 1)) hnum2
    refine Or.inr ⟨num2 + count.length, count, offset, by omega, by omega, hchars, ?_, rfl⟩
    intro c hc
    rcases List.mem_append.1 hc with hc | hc <;> exact List.mem_takeWhile_imp hc
  · exact Or.inl ⟨_, by omega, rfl⟩

/-- The text that `LIMIT` puts in. -/
def IsLimit (t : Text) : Prop :=
  ∃ count offset, (∀ c ∈ count ++ offset, c.isDigit = true) ∧
    t = "LIMIT ".toList ++ count ++ " OFFSET ".toList ++ offset

lemma limit_round (sql : Text) (i : ℕ) : OneRange sql "LIMIT ".toList IsLimit i (limit sql i) := by
  rcases limit_cases sql i with ⟨n, hn, h⟩ | ⟨stop, count, offset, hstop, hlen, -, hdigits, h⟩
  · rw [h]
    exact .skip hn
  · rw [h]
    exact .pass hstop hlen ⟨count, offset, hdigits, rfl⟩

end

/-! ### The ranges lie in the text -/

lemma timeKeywords_short : ∀ kw ∈ timeKeywords, kw.2.length < kw.1.length := by decide

lemma regexpKeywords_short : ∀ kw ∈ regexpKeywords, kw.2.length < kw.1.length := by decide

lemma timeKeywords_ne_nil : ∀ kw ∈ timeKeywords, kw.1 ≠ [] := by decide

lemma regexpKeywords_ne_nil : ∀ kw ∈ regexpKeywords, kw.1 ≠ [] := by decide

lemma selectHints_ne_nil : ∀ hint ∈ selectHints, hint ≠ [] := by decide

lemma indexHints_ne_nil : ∀ hint ∈ indexHints, hint ≠ [] := by decide

lemma OneRange.fits {sql pattern : Text} {put : Text → Prop} {i : ℕ} {r : Round}
    (hne : pattern ≠ []) (h : OneRange sql pattern put i r) : Fits sql.length 0 r.ranges := by
  have hpos := List.length_pos_iff.2 hne
  cases h with
  | skip => trivial
  | stay hstop hlen => exact fits_single (by omega) hlen
  | pass hstop hlen => exact fits_single (by omega) hlen

/-- The ranges of every round lie in the text, one behind the other. -/
theorem passes_fit : ∀ p ∈ passes, ∀ sql pos i, findInCode sql p.pattern pos = some i →
    Fits sql.length 0 (p.body sql pos i).ranges := by
  refine List.forall_mem_cons.2 ⟨?_, forall_laterPasses ?_ ?_ ?_ ?_ ?_ ?_ ?_ ?_⟩
  · intro sql pos i hfind
    have hlen : i + 12 ≤ sql.length := (findInCode_matches hfind).2.2
    show Fits _ 0 (rollup sql pos i).ranges
    rcases rollup_cases sql pos i with h | ⟨g, -, hgi, -, ⟨hcols, h⟩ | ⟨hshare, t, h⟩⟩
    · rw [h]
      trivial
    · rw [h]
      exact rollup_fits hcols hlen
    · rw [h]
      exact fits_single (by omega) hlen
  · intro sql pos i hfind
    have hlen : i + 8 ≤ sql.length := (findInCode_matches hfind).2.2
    show Fits _ 0 (convert sql i).ranges
    rcases convert_cases hlen with h | ⟨comma, leading, trailing, stop, hcomma, hstop, hle, h⟩
    · rw [h]
      trivial
    · rw [h]
      exact convert_fits hcomma hstop hle
  · intro kw hkw sql pos i hfind
    exact (currentTime_round (timeKeywords_short kw hkw)).fits (timeKeywords_ne_nil kw hkw)
  · intro sql pos i hfind
    exact (straightJoin_round (findInCode_matches hfind).2.2).fits (by decide)
  · intro sql pos i hfind
    exact (join_round (findInCode_matches hfind).2.2).fits (by decide)
  · intro kw hkw sql pos i hfind
    exact (regexp_round (regexpKeywords_short kw hkw) (findInCode_matches hfind).2.2).fits
      (regexpKeywords_ne_nil kw hkw)
  · intro hint hhint sql pos i hfind
    have hpos := List.length_pos_iff.2 (selectHints_ne_nil hint hhint)
    exact fits_single (by omega) (findInCode_matches hfind).2.2
  · intro hint hhint sql pos i hfind
    have hne := indexHints_ne_nil hint hhint
    exact (indexHint_round hne).fits hne
  · intro sql pos i hfind
    exact (limit_round sql i).fits (by decide)

/-! ### The loops end -/

/-- Every round decreases a measure that begins below twice the length of the text. -/
def Pass.Ends (p : Pass) : Prop :=
  ∃ μ : Cursor → ℕ, (∀ sql, μ (sql, 0) ≤ 2 * sql.length + 1) ∧
    ∀ sql pos i, findInCode sql p.pattern pos = some i →
      μ (move (sql, pos) (p.body sql pos i)) < μ (sql, pos)

/-- Less of the text is left behind the position. -/
lemma Pass.ends_of_advance {p : Pass}
    (h : ∀ sql pos i, findInCode sql p.pattern pos = some i →
      (apply sql (p.body sql pos i)).length - (p.body sql pos i).next < sql.length - pos) :
    p.Ends :=
  ⟨fun c => c.1.length - c.2, fun sql => by simp only; omega, h⟩

lemma skip_advance {sql : Text} {pos i n : ℕ} (hpos : pos ≤ i) (hi : i < sql.length) (hn : i < n) :
    (apply sql (skipTo n)).length - (skipTo n).next < sql.length - pos := by
  show sql.length - n < sql.length - pos
  omega

lemma OneRange.advance {sql pattern : Text} {put : Text → Prop} {pos i : ℕ} {r : Round}
    (h : OneRange sql pattern put i r) (hne : pattern ≠ []) (hpos : pos ≤ i)
    (hlen : i + pattern.length ≤ sql.length) :
    (apply sql r).length - r.next < sql.length - pos := by
  have hp := List.length_pos_iff.2 hne
  cases h with
  | skip hn => exact skip_advance hpos (by omega) hn
  | @stay stop t hstop hle _ hshort =>
      have hedit := length_edit_single t (show i < stop by omega) hle
      show (edit [⟨i, stop, t⟩] sql).length - i < _
      omega
  | @pass stop t hstop hle _ =>
      have hedit := length_edit_single t (show i < stop by omega) hle
      show (edit [⟨i, stop, t⟩] sql).length - (i + t.length) < _
      omega

lemma rollup_advance {sql : Text} {pos i : ℕ} (hpos : pos ≤ i) (hlen : i + 12 ≤ sql.length) :
    (apply sql (rollup sql pos i)).length - (rollup sql pos i).next < sql.length - pos := by
  rcases rollup_cases sql pos i with h | ⟨g, hpg, hgi, -, ⟨hcols, h⟩ | ⟨hshare, t, h⟩⟩
  · rw [h]
    exact skip_advance hpos (by omega) (by omega)
  · have hedit := length_edit (rollup_fits hcols hlen)
    have htext : "GROUP BY ROLLUP(".toList.length = 16 ∧ ")".toList.length = 1 := by decide
    simp only [List.foldr_cons, List.foldr_nil, htext] at hedit
    rw [h]
    simp only [apply]
    omega
  · have hedit := length_edit_single t (show g < i + 12 by omega) hlen
    rw [h]
    show (edit [⟨g, i + 12, t⟩] sql).length - (g + t.length) < _
    omega

/-- Twice the length behind the position, and one more if `CONVERT` is found right there. -/
def convertMeasure (c : Cursor) : ℕ :=
  2 * (c.1.length - c.2) + (ciStartsWith "CONVERT(".toList (c.1.drop c.2)).toNat

lemma convertMeasure_lt {c c' : Cursor} (h : c'.1.length - c'.2 < c.1.length - c.2) :
    convertMeasure c' < convertMeasure c := by
  have hbit := Bool.toNat_le (ciStartsWith "CONVERT(".toList (c'.1.drop c'.2))
  rw [convertMeasure, convertMeasure]
  omega

lemma not_ciStartsWith_cast (s : Text) :
    ciStartsWith "CONVERT(".toList ("CAST(".toList ++ s) = false := by
  rw [ciStartsWith, decide_eq_false_iff_not]
  intro h
  have hsecond := congrArg (fun t => t[1]?) h
  simp at hsecond

/-- What `CONVERT` becomes is not found again. -/
lemma convert_advance {sql : Text} {pos i : ℕ}
    (hfind : findInCode sql "CONVERT(".toList pos = some i) :
    convertMeasure (move (sql, pos) (convert sql i)) < convertMeasure (sql, pos) := by
  obtain ⟨hpos, hmatch, hlen⟩ := findInCode_matches hfind
  replace hlen : i + 8 ≤ sql.length := hlen
  rcases convert_cases hlen with h | ⟨comma, leading, trailing, stop, hcomma, hstop, hle, h⟩
  · rw [h]
    exact convertMeasure_lt (skip_advance hpos (show i < sql.length by omega) (Nat.lt_succ_self i))
  · have hfits := convert_fits hcomma hstop hle
    have hedit := length_edit hfits
    have htext : "CAST(".toList.length = 5 ∧ " AS ".toList.length = 4 ∧ ")".toList.length = 1 := by
      decide
    simp only [List.foldr_cons, List.foldr_nil, htext] at hedit
    rw [h]
    rcases Nat.lt_or_eq_of_le hpos with hlt | rfl
    · refine convertMeasure_lt ?_
      simp only [move, apply]
      omega
    · have hcast := congrArg (List.drop pos) (convert_text hcomma hstop hle)
      rw [List.append_assoc, List.drop_left' (by rw [List.length_take]; omega)] at hcast
      simp only [List.append_assoc] at hcast
      have hbefore : ciStartsWith "CONVERT(".toList (sql.drop pos) = true := hmatch
      simp only [convertMeasure, move, apply, hcast, not_ciStartsWith_cast, hbefore,
        Bool.toNat_false, Bool.toNat_true]
      omega

/-- No loop goes on forever. -/
theorem passes_end : ∀ p ∈ passes, p.Ends := by
  refine List.forall_mem_cons.2 ⟨?_, forall_laterPasses ?_ ?_ ?_ ?_ ?_ ?_ ?_ ?_⟩
  · refine Pass.ends_of_advance fun sql pos i hfind => ?_
    obtain ⟨hpos, -, hlen⟩ := findInCode_matches hfind
    exact rollup_advance hpos hlen
  · refine ⟨convertMeasure, fun sql => ?_, fun sql pos i => convert_advance⟩
    have hbit := Bool.toNat_le (ciStartsWith "CONVERT(".toList sql)
    simp only [convertMeasure, List.drop_zero]
    omega
  · intro kw hkw
    refine Pass.ends_of_advance fun sql pos i hfind => ?_
    obtain ⟨hpos, -, hlen⟩ := findInCode_matches hfind
    exact (currentTime_round (timeKeywords_short kw hkw)).advance (timeKeywords_ne_nil kw hkw) hpos
      hlen
  · refine Pass.ends_of_advance fun sql pos i hfind => ?_
    obtain ⟨hpos, -, hlen⟩ := findInCode_matches hfind
    exact (straightJoin_round hlen).advance (by decide) hpos hlen
  · refine Pass.ends_of_advance fun sql pos i hfind => ?_
    obtain ⟨hpos, -, hlen⟩ := findInCode_matches hfind
    exact (join_round hlen).advance (by decide) hpos hlen
  · intro kw hkw
    refine Pass.ends_of_advance fun sql pos i hfind => ?_
    obtain ⟨hpos, -, hlen⟩ := findInCode_matches hfind
    exact (regexp_round (regexpKeywords_short kw hkw) hlen).advance (regexpKeywords_ne_nil kw hkw)
      hpos hlen
  · -- the search starts again, but in a shorter text
    intro hint hhint
    refine ⟨fun c => c.1.length, fun sql => by simp only; omega, fun sql pos i hfind => ?_⟩
    have hpos := List.length_pos_iff.2 (selectHints_ne_nil hint hhint)
    have hlen := (findInCode_matches hfind).2.2
    have hedit := length_edit_single [] (Nat.lt_add_of_pos_right hpos) hlen
    show (edit [⟨i, i + hint.length, []⟩] sql).length < sql.length
    rw [List.length_nil] at hedit
    omega
  · intro hint hhint
    refine Pass.ends_of_advance fun sql pos i hfind => ?_
    obtain ⟨hpos, -, hlen⟩ := findInCode_matches hfind
    have hne := indexHints_ne_nil hint hhint
    exact (indexHint_round hne).advance hne hpos hlen
  · refine Pass.ends_of_advance fun sql pos i hfind => ?_
    obtain ⟨hpos, -, hlen⟩ := findInCode_matches hfind
    exact (limit_round sql i).advance (by decide) hpos hlen

/-- The loops have run to their end: the pattern is not found any more. -/
theorem Pass.next_run {p : Pass} (hp : p ∈ passes) (sql : Text) :
    p.next (StepRun.run move (sql, 0) (p.rounds sql)) = none := by
  obtain ⟨μ, hstart, hdecr⟩ := passes_end p hp
  refine WhileLoop.next_run_rounds (fun c r hr => ?_) (hstart sql)
  obtain ⟨i, hi, rfl⟩ := Option.map_eq_some_iff.1 hr
  exact hdecr c.1 c.2 i hi

/-! ### All rounds -/

/-- The rounds of the passes, one pass after the other. -/
def roundsOf : List Pass → Text → List Round
  | [], _ => []
  | p :: ps, sql => p.rounds sql ++ roundsOf ps (p.run sql)

/-- All rounds of `init_scan`. -/
def initScanRounds (sql : Text) : List Round := roundsOf passes sql

lemma run_move_fst (c : Cursor) (rs : List Round) :
    (StepRun.run move c rs).1 = StepRun.run apply c.1 rs := by
  induction rs generalizing c with
  | nil => rfl
  | cons r rs ih => exact ih (move c r)

lemma along_apply {Q : Text → Round → Prop} {c : Cursor} {rs : List Round}
    (h : StepRun.Along move (fun c r => Q c.1 r) c rs) : StepRun.Along apply Q c.1 rs := by
  induction rs generalizing c with
  | nil => trivial
  | cons r rs ih => exact ⟨h.1, ih h.2⟩

lemma run_rounds (p : Pass) (sql : Text) : StepRun.run apply sql (p.rounds sql) = p.run sql :=
  (run_move_fst (sql, 0) _).symm

lemma run_roundsOf (ps : List Pass) (sql : Text) :
    StepRun.run apply sql (roundsOf ps sql) = ps.foldl (fun sql p => p.run sql) sql := by
  induction ps generalizing sql with
  | nil => rfl
  | cons p ps ih => rw [roundsOf, StepRun.run_append, run_rounds, ih, List.foldl_cons]

/-- The rounds make the text that is handed on. -/
theorem run_initScanRounds (sql : Text) :
    StepRun.run apply sql (initScanRounds sql) = initScanSql sql := run_roundsOf passes sql

lemma Pass.along_rounds (p : Pass) (sql : Text) :
    StepRun.Along move (fun c r => p.next c = some r) (sql, 0) (p.rounds sql) :=
  WhileLoop.along_rounds _ _

/-- What holds at every match of a pass holds along its rounds. -/
lemma Pass.along_of_matches {p : Pass} {Q : Text → Round → Prop}
    (h : ∀ sql pos i, findInCode sql p.pattern pos = some i → Q sql (p.body sql pos i))
    (sql : Text) : StepRun.Along apply Q sql (p.rounds sql) := by
  refine along_apply (c := (sql, 0)) (StepRun.along_of_inv (I := fun _ => True)
    (fun _ _ _ _ => trivial) (fun c r _ hr => ?_) trivial (p.along_rounds sql))
  obtain ⟨i, hi, rfl⟩ := Option.map_eq_some_iff.1 hr
  exact h c.1 c.2 i hi

/-- What holds along the rounds of every pass holds along all rounds. -/
lemma along_roundsOf {Q : Text → Round → Prop} {ps : List Pass}
    (h : ∀ p ∈ ps, ∀ sql, StepRun.Along apply Q sql (p.rounds sql)) (sql : Text) :
    StepRun.Along apply Q sql (roundsOf ps sql) := by
  induction ps generalizing sql with
  | nil => trivial
  | cons p ps ih =>
      rw [roundsOf, StepRun.along_append, run_rounds]
      exact ⟨h p List.mem_cons_self sql, ih (fun q hq => h q (List.mem_cons_of_mem p hq)) _⟩

end DuckdbEngine.Pushdown
