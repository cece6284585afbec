/-
The query of an INSERT ... SELECT.

`extract_source_query` looks for the first SELECT or WITH outside parentheses.  It reads
quoted identifiers with the escapes of string literals, executable comments as comments,
words only from their first letter on, and a word next to a dot as a keyword; MariaDB does
none of this.  What it finds is the query of MariaDB exactly if it gets there: the query
begins one of the scanner's tokens, outside parentheses, and no earlier word looks like a
query.  If the scanner and MariaDB delimit the regions in front of the query alike, then
this depends on the words alone.
-/
import DuckdbEngine.Pushdown.Forward
import DuckdbEngine.Sql.MariadbTokens

namespace DuckdbEngine.Pushdown

open Sql Lexing

/-! ### The query for MariaDB -/

/-- The token is the word SELECT or WITH outside parentheses. -/
def isQuery (depth : ℕ) (p : TokenKind × Text) : Bool :=
  p.1 = .word && depth = 0 && isQueryToken p.2

/-- The token is a keyword that begins a query.  A qualifier and every word behind a dot are
identifiers. -/
def isKeyword (depth : ℕ) (dot : Bool) (p : TokenKind × Text) (rest : Text) : Bool :=
  isQuery depth p && !dot && !qualifies rest

def depthAfter (depth : ℕ) (p : TokenKind × Text) : ℕ :=
  if p = (.symbol, ['(']) then depth + 1 else if p = (.symbol, [')']) then depth - 1 else depth

/-- The text from the first keyword on. -/
def sourceOf : ℕ → Bool → List (TokenKind × Text) → Option Text
  | _, _, [] => none
  | depth, dot, p :: ps =>
      if isKeyword depth dot p (ps.flatMap Prod.snd) then some (p.2 ++ ps.flatMap Prod.snd)
      else sourceOf (depthAfter depth p) (isDot p) ps

/-- The query of an INSERT ... SELECT by MariaDB's lexical rules, for a server that runs the given
executable comments. -/
def mariadbSource (mode : SqlMode) (runs : Text → Bool) (sql : Text) : Option Text :=
  sourceOf 0 false (serverTokens mode runs sql.length false sql)

/-! ### The tokens of the scanner -/

def startsWord (c : Char) : Bool := c.isAlpha || c = '_' || 128 ≤ c.toNat

/-- What the scanner passes in one round. -/
def scanToken (backslashEscapes : Bool) : Lexer Char TokenKind
  | [] => (.symbol, 0)
  | c :: s =>
      if isSpace c then (.space, 1)
      else
        match scanSqlRegion backslashEscapes (c :: s) with
        | (.comment, n) => (.comment, n)
        | (.quoted, n) => (.string, n)
        | (.unterminated, n) => (.unterminated, n)
        | (.none, _) =>
            if startsWord c then (.word, ((c :: s).takeWhile isWordChar).length) else (.symbol, 1)

/-- None of the tokens looks like the beginning of a query. -/
def NoQuery : ℕ → List (TokenKind × Text) → Prop
  | _, [] => True
  | depth, p :: ps => isQuery depth p = false ∧ NoQuery (depthAfter depth p) ps

/-- The scanner gets to the query at the end of the text: by its own rules, the tokens in front of
it end there, outside parentheses, and none of them looks like a query. -/
def Reaches (backslashEscapes : Bool) (sql query : Text) : Prop :=
  ∃ ps, pieces (scanToken backslashEscapes) sql = ps ++ pieces (scanToken backslashEscapes) query ∧
    ps.foldl depthAfter 0 = 0 ∧ NoQuery 0 ps

/-! ### Regions that agree -/

/-- Up to the query, `scan_sql_region` delimits the same regions as MariaDB, and no comment is
executable. -/
def RegionsAgree (mode : SqlMode) : ℕ → Bool → List (TokenKind × Text) → Prop
  | _, _, [] => True
  | depth, dot, p :: ps =>
      scanSqlRegion mode.backslashEscapes (p.2 ++ ps.flatMap Prod.snd) =
          mariadbRegion mode (p.2 ++ ps.flatMap Prod.snd) ∧
        opening (p.2 ++ ps.flatMap Prod.snd) = none ∧
        (isKeyword depth dot p (ps.flatMap Prod.snd) = false →
          RegionsAgree mode (depthAfter depth p) (isDot p) ps)

/-- A word as the scanner reads it: digits and dollar signs in front are no part of it. -/
def scannedWord (w : Text) : Text := w.dropWhile fun c => c.isDigit || c = '$'

/-- Up to the query, no word outside parentheses is taken for it. -/
def WordsAgree : ℕ → Bool → List (TokenKind × Text) → Prop
  | _, _, [] => True
  | depth, dot, p :: ps =>
      isKeyword depth dot p (ps.flatMap Prod.snd) = true ∨
        isQuery depth (p.1, scannedWord p.2) = false ∧ WordsAgree (depthAfter depth p) (isDot p) ps

instance NoQuery.decidable : ∀ depth ps, Decidable (NoQuery depth ps)
  | _, [] => isTrue trivial
  | depth, p :: ps =>
      letI := NoQuery.decidable (depthAfter depth p) ps
      inferInstanceAs (Decidable (_ ∧ _))

instance RegionsAgree.decidable (mode : SqlMode) :
    ∀ depth dot ps, Decidable (RegionsAgree mode depth dot ps)
  | _, _, [] => isTrue trivial
  | depth, _, p :: ps =>
      letI := RegionsAgree.decidable mode (depthAfter depth p) (isDot p) ps
      inferInstanceAs (Decidable (_ ∧ _ ∧ (_ → _)))

instance WordsAgree.decidable : ∀ depth dot ps, Decidable (WordsAgree depth dot ps)
  | _, _, [] => isTrue trivial
  | depth, _, p :: ps =>
      letI := WordsAgree.decidable (depthAfter depth p) (isDot p) ps
      inferInstanceAs (Decidable (_ ∨ _ ∧ _))

/-! ### The loop of the scanner -/

section loop

variable {b : Bool} {sql : Text}

lemma isWordChar_ne {c d : Char} (h : isWordChar c = true) (hd : isWordChar d = false) : c ≠ d := by
  rintro rfl
  rw [h] at hd
  cases hd

lemma isSpace_wordChar {c : Char} (h : isWordChar c = true) : isSpace c = false := by
  by_contra hspace
  have hle := toNat_of_isSpace (eq_true_of_ne_false hspace)
  simp only [isWordChar, Char.isAlphanum, Bool.or_eq_true, decide_eq_true_eq] at h
  rcases h with (((h | h) | rfl) | rfl) | h
  · have := isAlpha_iff.1 h
    omega
  · have := Atom.isDigit_bounds h
    omega
  · exact absurd hle (by decide)
  · exact absurd hle (by decide)
  · omega

/-- At a digit or a dollar sign the scanner sees no word. -/
lemma startsWord_of_digit {c : Char} (h : (c.isDigit || c = '$') = true) :
    startsWord c = false := by
  rw [Bool.or_eq_true, decide_eq_true_eq] at h
  rcases h with h | rfl
  · have hbounds := Atom.isDigit_bounds h
    have halpha : c.isAlpha = false := by
      by_contra hne
      have := isAlpha_iff.1 (eq_true_of_ne_false hne)
      omega
    have hne : c ≠ '_' := by
      rintro rfl
      exact absurd hbounds (by decide)
    simp [startsWord, halpha, hne]
    omega
  · decide

lemma startsWord_of_not_digit {c : Char} (hword : isWordChar c = true)
    (h : (c.isDigit || c = '$') = false) : startsWord c = true := by
  simp_all [isWordChar, Char.isAlphanum, startsWord]

lemma isWordChar_of_startsWord {c : Char} (h : startsWord c = true) : isWordChar c = true := by
  simp only [startsWord, Bool.or_eq_true] at h
  simp only [isWordChar, Char.isAlphanum, Bool.or_eq_true]
  tauto

/-- No region begins with a character of a word. -/
lemma scanSqlRegion_wordChar {c : Char} (h : isWordChar c = true) (b : Bool) (s : Text) :
    scanSqlRegion b (c :: s) = (.none, 0) := by
  have hne : ∀ d, isWordChar d = false → c ≠ d := fun d => isWordChar_ne h
  simp [scanSqlRegion, hne '/' (by decide), hne '#' (by decide), hne '-' (by decide),
    hne squote (by decide), hne dquote (by decide), hne backtick (by decide)]

lemma scanSqlRegion_space {c : Char} (h : isSpace c = true) (b : Bool) (s : Text) :
    scanSqlRegion b (c :: s) = (.none, 0) := by
  have hne : ∀ d, isSpace d = false → c ≠ d := by
    rintro d hd rfl
    rw [h] at hd
    cases hd
  simp [scanSqlRegion, hne '/' (by decide), hne '#' (by decide), hne '-' (by decide),
    hne squote (by decide), hne dquote (by decide), hne backtick (by decide)]

/-- The first token of the scanner. -/
def scanPiece (b : Bool) (s : Text) : TokenKind × Text :=
  ((scanToken b s).1, s.take ((scanToken b).size s))

lemma scanSqlRegion_pos {s : Text} {k : SqlRegionType} {m : ℕ} (h : scanSqlRegion b s = (k, m))
    (hk : k ≠ .none) : 0 < m := by
  have hbounds := scanSqlRegion_bounds b s
  rw [h] at hbounds
  rcases hbounds with hb | hb
  · exact absurd (congrArg Prod.fst hb) hk
  · exact hb.2.1

/-- One round: the scanner gives up, finds the query, or passes the token. -/
lemma sourceFrom_cons (n depth : ℕ) (c : Char) (s : Text) :
    sourceFrom b true sql (n + 1) depth (c :: s) =
      if (scanPiece b (c :: s)).1 = .unterminated ∨
          scanPiece b (c :: s) = (.symbol, [')']) ∧ depth = 0 then none
      else if isQuery depth (scanPiece b (c :: s)) then some (c :: s)
      else sourceFrom b true sql n (depthAfter depth (scanPiece b (c :: s)))
        ((c :: s).drop ((scanToken b).size (c :: s))) := by
  rw [sourceFrom]
  cases hs : isSpace c with
  | true => simp [scanPiece, scanToken, Lexer.size, hs, isQuery, depthAfter]
  | false =>
      rcases hscan : scanSqlRegion b (c :: s) with ⟨k, m⟩
      have hpos := scanSqlRegion_pos hscan
      cases k with
      | unterminated => simp [scanPiece, scanToken, hs, hscan]
      | comment | quoted =>
          simp [scanPiece, scanToken, Lexer.size, hs, hscan, isQuery, depthAfter,
            max_eq_right (Nat.succ_le_of_lt (hpos (by decide)))]
      | none =>
          by_cases hword : startsWord c = true
          · have hchar := isWordChar_of_startsWord hword
            have hopen : c ≠ '(' := isWordChar_ne hchar (by decide)
            have hclose : c ≠ ')' := isWordChar_ne hchar (by decide)
            have hlen : 1 ≤ ((c :: s).takeWhile isWordChar).length := by
              rw [List.takeWhile_cons_of_pos hchar]
              exact Nat.succ_pos _
            have htake : (c :: s).take ((c :: s).takeWhile isWordChar).length =
                (c :: s).takeWhile isWordChar :=
              (List.prefix_iff_eq_take.1 (List.takeWhile_prefix _)).symm
            have hif : (c.isAlpha || c = '_' || 128 ≤ c.toNat) = true := hword
            have htoken : scanToken b (c :: s) =
                (.word, ((c :: s).takeWhile isWordChar).length) := by
              simp [scanToken, hs, hscan, hword]
            rw [scanPiece, Lexer.size, htoken, max_eq_right hlen, htake]
            simp [isQuery, depthAfter, hopen, hclose, hif]
          · have hif : (c.isAlpha || c = '_' || 128 ≤ c.toNat) = false :=
              Bool.eq_false_iff.2 hword
            simp only [scanPiece, scanToken, Lexer.size, hs, hscan, hword, hif]
            rcases eq_or_ne c '(' with rfl | hopen
            · simp [isQuery, depthAfter]
            · rcases eq_or_ne c ')' with rfl | hclose
              · simp [isQuery, depthAfter]
              · simp [isQuery, depthAfter, hopen, hclose]

/-- A round of a run that finds a query. -/
lemma sourceFrom_round {c : Char} {s src : Text} {depth n : ℕ}
    (h : sourceFrom b true sql (n + 1) depth (c :: s) = some src) :
    isQuery depth (scanPiece b (c :: s)) = true ∧ src = c :: s ∨
      isQuery depth (scanPiece b (c :: s)) = false ∧
        sourceFrom b true sql n (depthAfter depth (scanPiece b (c :: s)))
          ((c :: s).drop ((scanToken b).size (c :: s))) = some src := by
  rw [sourceFrom_cons] at h
  split_ifs at h with hstop hquery
  · cases h
    exact Or.inl ⟨hquery, rfl⟩
  · exact Or.inr ⟨Bool.eq_false_iff.2 hquery, h⟩

/-- What the scanner reads off a run of characters of words. -/
lemma scanToken_word {c : Char} {w v : Text} (hw : ∀ d ∈ c :: w, isWordChar d = true)
    (hv : ∀ d ∈ v.head?, isWordChar d = false) :
    scanToken b (c :: (w ++ v)) =
      if startsWord c then (.word, (c :: w).length) else (.symbol, 1) := by
  have hc := (List.forall_mem_cons.1 hw).1
  have hword : (c :: (w ++ v)).takeWhile isWordChar = c :: w :=
    Atom.takeWhile_append_of_head hw hv
  simp [scanToken, isSpace_wordChar hc, scanSqlRegion_wordChar hc, hword]

/-- The rounds over a word: it is taken for the query, or passed. -/
lemma sourceFrom_word {w v : Text} (hw : ∀ c ∈ w, isWordChar c = true)
    (hv : ∀ c ∈ v.head?, isWordChar c = false) (depth n : ℕ) (hn : (w ++ v).length ≤ n) :
    ∃ m, v.length ≤ m ∧ sourceFrom b true sql n depth (w ++ v) =
      if isQuery depth (.word, scannedWord w) then some (scannedWord w ++ v)
      else sourceFrom b true sql m depth v := by
  induction w generalizing n with
  | nil => exact ⟨n, hn, by simp [scannedWord, isQuery, isQueryToken]⟩
  | cons c w ih =>
      obtain ⟨n, rfl⟩ : ∃ k, n = k + 1 := Nat.exists_eq_succ_of_ne_zero (by rintro rfl; simp at hn)
      have hn' : (w ++ v).length ≤ n := by simpa using hn
      have hne : ∀ d, isWordChar d = false → c ≠ d := fun d => isWordChar_ne (hw c (by simp))
      rw [List.cons_append, sourceFrom_cons, scanPiece, Lexer.size, scanToken_word hw hv]
      cases hdigit : c.isDigit || c = '$' with
      | true =>
          -- the scanner passes the character and goes on within the word
          have hscan : scannedWord (c :: w) = scannedWord w := List.dropWhile_cons_of_pos hdigit
          rw [hscan, startsWord_of_digit hdigit]
          simpa [isQuery, depthAfter, hne '(' (by decide), hne ')' (by decide)] using
            ih (List.forall_mem_cons.1 hw).2 n hn'
      | false =>
          have hscan : scannedWord (c :: w) = c :: w :=
            List.dropWhile_cons_of_neg (by rw [hdigit]; decide)
          refine ⟨n, ?_, ?_⟩
          · rw [List.length_append] at hn'
            omega
          · rw [hscan, startsWord_of_not_digit (hw c (by simp)) hdigit]
            simp [depthAfter]

variable {mode : SqlMode}

/-- Where the regions agree, the scanner and MariaDB see the same token unless it is a word; the
scanner does not tell identifiers from strings. -/
lemma scanToken_of_agree {c : Char} {s : Text}
    (hagree : scanSqlRegion mode.backslashEscapes (c :: s) = mariadbRegion mode (c :: s))
    (hword : (mariadbToken mode (c :: s)).1 ≠ .word) :
    scanToken mode.backslashEscapes (c :: s) =
      (if (mariadbToken mode (c :: s)).1 = .ident then .string else (mariadbToken mode (c :: s)).1,
        (mariadbToken mode (c :: s)).2) := by
  rcases hM : mariadbRegion mode (c :: s) with ⟨k, m⟩
  rw [hM] at hagree
  cases hs : isSpace c with
  | true =>
      rw [scanSqlRegion_space hs] at hagree
      cases hagree
      simp [scanToken, mariadbToken, hM, hs]
  | false =>
      cases k with
      | comment | unterminated => simp [scanToken, mariadbToken, hM, hs, hagree]
      | quoted =>
          simp only [scanToken, mariadbToken, hM, hs, hagree]
          split_ifs <;> simp_all
      | none =>
          cases hw : isWordChar c with
          | true => simp [mariadbToken, hM, hs, hw] at hword
          | false =>
              have hstart : startsWord c = false := by
                by_contra hne
                rw [isWordChar_of_startsWord (eq_true_of_ne_false hne)] at hw
                cases hw
              simp [scanToken, mariadbToken, hM, hs, hw, hagree, hstart]

/-- A token in which the scanner and MariaDB see the same region, and which is no word, is passed
in one round. -/
lemma sourceFrom_piece {c : Char} {s src : Text} {depth n : ℕ}
    (hagree : scanSqlRegion mode.backslashEscapes (c :: s) = mariadbRegion mode (c :: s))
    (hword : (mariadbToken mode (c :: s)).1 ≠ .word)
    (h : sourceFrom mode.backslashEscapes true sql (n + 1) depth (c :: s) = some src) :
    sourceFrom mode.backslashEscapes true sql n
      (depthAfter depth ((mariadbToken mode (c :: s)).1,
        (c :: s).take ((mariadbToken mode).size (c :: s))))
      ((c :: s).drop ((mariadbToken mode).size (c :: s))) = some src := by
  have htoken := scanToken_of_agree hagree hword
  have hsize : (scanToken mode.backslashEscapes).size (c :: s) =
      (mariadbToken mode).size (c :: s) := by
    rw [Lexer.size, Lexer.size, htoken]
  have hround := sourceFrom_round h
  rw [scanPiece, hsize, htoken] at hround
  rcases hround with ⟨hquery, -⟩ | ⟨-, hnext⟩
  · simp only [isQuery, Bool.and_eq_true, decide_eq_true_eq] at hquery
    split_ifs at hquery
    · cases hquery.1.1
    · exact absurd hquery.1.1 hword
  · convert hnext using 2
    simp only [depthAfter, Prod.mk.injEq]
    split_ifs <;> simp_all

end loop

/-! ### The query that is found -/

lemma sourceOf_length {depth : ℕ} {dot : Bool} {ps : List (TokenKind × Text)} {src : Text}
    (h : sourceOf depth dot ps = some src) : src.length ≤ (ps.flatMap Prod.snd).length := by
  induction ps generalizing depth dot with
  | nil => cases h
  | cons p ps ih =>
      rw [List.flatMap_cons, List.length_append]
      rw [sourceOf] at h
      split_ifs at h
      · cases h
        rw [List.length_append]
      · exact (ih h).trans (Nat.le_add_left _ _)

lemma toLower_of_lt {c : Char} (h : c.toNat < 65) : c.toLower = c := by
  refine dif_neg ?_
  simp only [UInt32.le_iff_toNat_le, Char.toNat_val, not_and_or, Nat.not_le, ge_iff_le]
  exact Or.inl h

/-- A keyword has no digits in front. -/
lemma scannedWord_of_isQueryToken {w : Text} (h : isQueryToken w = true) : scannedWord w = w := by
  cases w with
  | nil => rfl
  | cons c w =>
      refine List.dropWhile_cons_of_neg fun hc => ?_
      have hlow : c.toNat < 65 := by
        rw [Bool.or_eq_true, decide_eq_true_eq] at hc
        rcases hc with hc | rfl
        · have := Atom.isDigit_bounds hc
          omega
        · decide
      rw [isQueryToken, List.map_cons, toLower_of_lt hlow] at h
      have hc : c = 's' ∨ c = 'w' := by
        rw [Bool.or_eq_true, decide_eq_true_eq, decide_eq_true_eq] at h
        exact h.imp (fun h => List.head_eq_of_cons_eq h) fun h => List.head_eq_of_cons_eq h
      rcases hc with rfl | rfl <;> exact absurd hlow (by decide)

/-- A word is a run of its characters. -/
lemma takeWhile_isWordChar (s : Text) :
    ∃ w v, s = w ++ v ∧ (∀ d ∈ w, isWordChar d = true) ∧ (∀ d ∈ v.head?, isWordChar d = false) ∧
      s.take (s.takeWhile isWordChar).length = w ∧ s.drop (s.takeWhile isWordChar).length = v := by
  refine ⟨s.takeWhile isWordChar, s.dropWhile isWordChar,
    List.takeWhile_append_dropWhile.symm, fun d hd => List.mem_takeWhile_imp hd, ?_,
    (List.prefix_iff_eq_take.1 (List.takeWhile_prefix _)).symm, drop_length_takeWhile _ _⟩
  intro d hd
  have hstop := List.head?_dropWhile_not isWordChar s
  rwa [Option.mem_def.1 hd] at hstop

/-- A query that MariaDB finds behind a word does not begin in the word. -/
lemma scannedWord_ne_source {mode : SqlMode} {w v src : Text} {depth : ℕ} {dot : Bool}
    (hquery : isQueryToken (scannedWord w) = true)
    (hsource : sourceOf depth dot (pieces (mariadbToken mode) v) = some src) :
    scannedWord w ++ v ≠ src := by
  rintro rfl
  have hlater := sourceOf_length hsource
  rw [flatten_pieces, List.length_append] at hlater
  have hnil : scannedWord w = [] := List.length_eq_zero_iff.1 (by omega)
  rw [hnil] at hquery
  exact absurd hquery (by decide)

/-- From any place on, what the scanner finds is the query if no word is taken for one. -/
lemma sourceOf_iff_wordsAgree {mode : SqlMode} {sql src : Text} (s : Text) {depth n : ℕ}
    {dot : Bool} (hn : s.length ≤ n)
    (h : sourceFrom mode.backslashEscapes true sql n depth s = some src)
    (hregions : RegionsAgree mode depth dot (pieces (mariadbToken mode) s)) :
    sourceOf depth dot (pieces (mariadbToken mode) s) = some src ↔
      WordsAgree depth dot (pieces (mariadbToken mode) s) := by
  induction s using cut_induction (mariadbToken mode) generalizing depth n dot with
  | nil => cases n <;> cases h
  | cons c s ih =>
      have hle := length_drop_lt (mariadbToken mode) c s
      rw [pieces_cons] at hregions ⊢
      rw [RegionsAgree, flatten_pieces, List.take_append_drop] at hregions
      rw [sourceOf, WordsAgree, flatten_pieces, List.take_append_drop]
      obtain ⟨hagree, -, hrest⟩ := hregions
      by_cases hword : (mariadbToken mode (c :: s)).1 = .word
      · obtain ⟨w, v, hsplit, hw, hv, htake, hdrop⟩ := takeWhile_isWordChar (c :: s)
        rw [mariadbToken_word hword, hdrop] at ih
        rw [hword, mariadbToken_word hword, htake, hdrop] at hrest ⊢
        obtain ⟨m, hm, hscan⟩ := sourceFrom_word hw hv depth n (hsplit ▸ hn)
        rw [hsplit, hscan] at h
        rw [hsplit]
        by_cases hkey : isKeyword depth dot (.word, w) v = true
        · have hquery : isQuery depth (.word, w) = true := by
            simp only [isKeyword, Bool.and_eq_true] at hkey
            exact hkey.1.1
          have htoken : isQueryToken w = true := by
            simp only [isQuery, Bool.and_eq_true] at hquery
            exact hquery.2
          rw [scannedWord_of_isQueryToken htoken, if_pos hquery] at h
          simpa [hkey] using h
        · rw [if_neg hkey]
          by_cases hquery : isQuery depth (.word, scannedWord w) = true
          · rw [if_pos hquery, Option.some.injEq] at h
            have htoken : isQueryToken (scannedWord w) = true := by
              simp only [isQuery, Bool.and_eq_true] at hquery
              exact hquery.2
            refine iff_of_false (fun hsource => scannedWord_ne_source htoken hsource h) ?_
            rintro (hwords | hwords)
            · exact hkey hwords
            · rw [hquery] at hwords
              cases hwords.1
          · rw [if_neg hquery] at h
            simpa [hkey, hquery, depthAfter] using
              ih hm (by simpa [depthAfter] using h) (hrest (Bool.eq_false_iff.2 hkey))
      · have hkey : ∀ w v, isKeyword depth dot ((mariadbToken mode (c :: s)).1, w) v = false :=
          fun w v => by simp [isKeyword, isQuery, hword]
        have hquery : ∀ w, isQuery depth ((mariadbToken mode (c :: s)).1, w) = false :=
          fun w => by simp [isQuery, hword]
        obtain ⟨n, rfl⟩ : ∃ k, n = k + 1 :=
          Nat.exists_eq_succ_of_ne_zero (by rintro rfl; simp at hn)
        have hnext := sourceFrom_piece hagree hword h
        rw [hkey] at hrest ⊢
        simpa [hquery] using ih (by rw [List.length_cons] at hn; omega) hnext (hrest rfl)

/-- Up to the query, a text without executable comments has the same tokens for every server. -/
lemma sourceOf_serverTokens {mode : SqlMode} {runs : Text → Bool} (s : Text) {depth n : ℕ}
    {dot : Bool} (hn : s.length ≤ n)
    (hregions : RegionsAgree mode depth dot (pieces (mariadbToken mode) s)) :
    sourceOf depth dot (serverTokens mode runs n false s) =
      sourceOf depth dot (pieces (mariadbToken mode) s) := by
  induction s using cut_induction (mariadbToken mode) generalizing depth n dot with
  | nil => cases n <;> rfl
  | cons c s ih =>
      have hle := length_drop_lt (mariadbToken mode) c s
      obtain ⟨n, rfl⟩ : ∃ k, n = k + 1 := Nat.exists_eq_succ_of_ne_zero (by rintro rfl; simp at hn)
      have hn' : s.length ≤ n := Nat.le_of_succ_le_succ hn
      rw [pieces_cons] at hregions ⊢
      rw [RegionsAgree, flatten_pieces, List.take_append_drop] at hregions
      obtain ⟨-, hopen, hrest⟩ := hregions
      have htoken : serverToken mode runs false (c :: s) = mariadbToken mode (c :: s) := by
        simp [serverToken, hopen]
      have hsize : (serverToken mode runs false).size (c :: s) =
          (mariadbToken mode).size (c :: s) := by
        rw [Lexer.size, Lexer.size, htoken]
      have hinside : insideAfter runs false (c :: s) = false := by simp [insideAfter, hopen]
      rw [serverTokens]
      simp only [htoken, hsize, hinside]
      rw [sourceOf, sourceOf, flatten_serverTokens (hle.trans hn'), flatten_pieces]
      split_ifs with hkey
      · rfl
      · exact ih (hle.trans hn') (hrest (Bool.eq_false_iff.2 hkey))

/-- The query of MariaDB begins with its keyword. -/
lemma sourceOf_word {mode : SqlMode} {runs : Text → Bool} {n depth : ℕ} {inside dot : Bool}
    {s query : Text} (hn : s.length ≤ n)
    (h : sourceOf depth dot (serverTokens mode runs n inside s) = some query) :
    ∃ w v, query = w ++ v ∧ (∀ d ∈ w, isWordChar d = true) ∧
      (∀ d ∈ v.head?, isWordChar d = false) ∧ isQueryToken w = true := by
  induction n generalizing depth inside dot s with
  | zero => cases h
  | succ n ih =>
      cases s with
      | nil => cases h
      | cons c s =>
          have hle := (length_drop_lt (serverToken mode runs inside) c s).trans
            (Nat.le_of_succ_le_succ hn)
          rw [serverTokens, sourceOf] at h
          split_ifs at h with hkey
          · rw [flatten_serverTokens hle, List.take_append_drop, Option.some.injEq] at h
            simp only [isKeyword, isQuery, Bool.and_eq_true, decide_eq_true_eq] at hkey
            obtain ⟨⟨⟨⟨hword, -⟩, htoken⟩, -⟩, -⟩ := hkey
            obtain ⟨hmariadb, hsize⟩ := serverToken_word hword
            obtain ⟨w, v, hsplit, hw, hv, htake, -⟩ := takeWhile_isWordChar (c :: s)
            rw [hsize, mariadbToken_word hmariadb, htake] at htoken
            exact ⟨w, v, h ▸ hsplit, hw, hv, htoken⟩
          · exact ih hle h

/-! ### The way to the query -/

section way

variable {b : Bool} {sql src : Text}

/-- The scanner passes the tokens in front of what it finds. -/
lemma exists_way (s : Text) {depth n : ℕ} (hn : s.length ≤ n)
    (h : sourceFrom b true sql n depth s = some src) :
    ∃ ps, pieces (scanToken b) s = ps ++ pieces (scanToken b) src ∧
      ps.foldl depthAfter depth = 0 ∧ NoQuery depth ps := by
  induction s using cut_induction (scanToken b) generalizing depth n with
  | nil => cases n <;> cases h
  | cons c s ih =>
      obtain ⟨n, rfl⟩ : ∃ k, n = k + 1 := Nat.exists_eq_succ_of_ne_zero (by rintro rfl; simp at hn)
      have hle := (length_drop_lt (scanToken b) c s).trans (Nat.le_of_succ_le_succ hn)
      rcases sourceFrom_round h with ⟨hquery, rfl⟩ | ⟨hquery, hnext⟩
      · simp only [isQuery, Bool.and_eq_true, decide_eq_true_eq] at hquery
        exact ⟨[], rfl, hquery.1.2, trivial⟩
      · obtain ⟨ps, hps, hdepth, hnone⟩ := ih hle hnext
        exact ⟨scanPiece b (c :: s) :: ps, by rw [pieces_cons, hps]; rfl, hdepth, hquery, hnone⟩

/-- A query that the scanner gets to is what it finds. -/
lemma eq_of_way {w v : Text} (hw : ∀ d ∈ w, isWordChar d = true)
    (hv : ∀ d ∈ v.head?, isWordChar d = false) (htoken : isQueryToken w = true)
    {ps : List (TokenKind × Text)} {s : Text} {depth n : ℕ} (hn : s.length ≤ n)
    (hps : pieces (scanToken b) s = ps ++ pieces (scanToken b) (w ++ v))
    (hdepth : ps.foldl depthAfter depth = 0) (hnone : NoQuery depth ps)
    (h : sourceFrom b true sql n depth s = some src) : src = w ++ v := by
  induction ps generalizing s depth n with
  | nil =>
      have hs : s = w ++ v := by
        rw [← flatten_pieces (scanToken b) s, hps, List.nil_append, flatten_pieces]
      subst hs
      obtain ⟨m, -, hscan⟩ : ∃ m, v.length ≤ m ∧ sourceFrom b true sql n depth (w ++ v) = _ :=
        sourceFrom_word hw hv depth n hn
      rw [scannedWord_of_isQueryToken htoken, if_pos (by simpa [isQuery, htoken] using hdepth)]
        at hscan
      rw [hscan] at h
      exact (Option.some.inj h).symm
  | cons p ps ih =>
      cases s with
      | nil => cases hps
      | cons c s =>
          obtain ⟨n, rfl⟩ : ∃ k, n = k + 1 :=
            Nat.exists_eq_succ_of_ne_zero (by rintro rfl; simp at hn)
          have hle := (length_drop_lt (scanToken b) c s).trans (Nat.le_of_succ_le_succ hn)
          rw [pieces_cons, List.cons_append, List.cons.injEq] at hps
          obtain ⟨hp, hrest⟩ := hps
          rcases sourceFrom_round h with ⟨hquery, -⟩ | ⟨-, hnext⟩
          · rw [scanPiece, hp, hnone.1] at hquery
            cases hquery
          · rw [scanPiece, hp] at hnext
            exact ih hle hrest hdepth hnone.2 hnext

end way

def insertExecuted : Text := "INSERT INTO t /*!50000 (a) */ SELECT a FROM u".toList

def insertWith : Text :=
  "INSERT INTO `d`.t (`select`) /* with */ WITH x AS (SELECT 1) SELECT * FROM x".toList

-- The scanner may get to the query although it delimits an identifier in front of it otherwise:
-- here it ends the identifier at the backtick in the comment.
example :
    extractSourceQuery ⟨true, false⟩ true "INSERT INTO `a\\` /* ` */ SELECT 1".toList =
        mariadbSource ⟨true, false⟩ (fun _ => true) "INSERT INTO `a\\` /* ` */ SELECT 1".toList ∧
      ¬ RegionsAgree ⟨true, false⟩ 0 false
        (pieces (mariadbToken ⟨true, false⟩) "INSERT INTO `a\\` /* ` */ SELECT 1".toList) := by
  decide +kernel

end DuckdbEngine.Pushdown
