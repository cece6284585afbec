/-
The quote guard is exact.

While the regions found so far are the same for MariaDB and DuckDB, the guard's
position is the start of the next region of both.  It stops with `true` at the first
region in which they differ, or at an unterminated comment or quoted identifier, which
is then the last region of both.
-/
import DuckdbEngine.Sql.Region

namespace DuckdbEngine.Sql

open Lexing

variable {mode : SqlMode}

/-- The last piece of the text is an unterminated comment or quoted identifier. -/
def EndsUnterminated (mode : SqlMode) (next : Lexer Char SqlRegionType) (sql : Text) : Prop :=
  ∃ p, (pieces next sql).getLast? = some p ∧ p.1 = .unterminated ∧
    p.2.head?.any mode.opensLiteral = false

/-- What the guard detects, for the rest of a text from the given position on. -/
def Diverges (mode : SqlMode) (pos : ℕ) (s : Text) : Prop :=
  regionsFrom pos (pieces (mariadbRegion mode) s) ≠ regionsFrom pos (pieces duckdbRegion s) ∨
    EndsUnterminated mode (mariadbRegion mode) s

lemma not_diverges_nil (pos : ℕ) : ¬ Diverges mode pos [] := by
  simp [Diverges, EndsUnterminated]

lemma opensLiteral_quote {c : Char} (h : mode.opensLiteral c = true) :
    c = squote ∨ c = dquote := by
  simp only [SqlMode.opensLiteral, Bool.or_eq_true, Bool.and_eq_true, decide_eq_true_eq] at h
  exact h.imp id And.left

/-- A literal opens a quoted region, whether or not it is closed. -/
lemma scanSqlRegion_literal {c : Char} (h : mode.opensLiteral c = true) (b : Bool) (s : Text) :
    (scanSqlRegion b (c :: s)).1 = .quoted ∨ (scanSqlRegion b (c :: s)).1 = .unterminated := by
  have hscan : scanSqlRegion b (c :: s) =
      regionTo .quoted (c :: s) ((quoteEnd c b s).map (· + 1)) := by
    rcases opensLiteral_quote h with rfl | rfl <;> simp [scanSqlRegion, squote, dquote]
  rw [hscan]
  cases (quoteEnd c b s).map (· + 1) with
  | none => exact Or.inr rfl
  | some n => exact Or.inl rfl

lemma mariadbRegion_of_literal (hb : mode.backslashEscapes = true) {c : Char}
    (h : mode.opensLiteral c = true) (s : Text) :
    mariadbRegion mode (c :: s) = scanSqlRegion true (c :: s) := by
  simp [mariadbRegion, hb, h]

lemma mariadbRegion_of_not_literal {c : Char} (h : mode.opensLiteral c = false) (s : Text) :
    mariadbRegion mode (c :: s) = duckdbRegion (c :: s) := by
  simp [mariadbRegion, duckdbRegion, h]

lemma regionsFrom_cons_inj {pos : ℕ} {p : SqlRegionType × Text}
    {ps qs : List (SqlRegionType × Text)} :
    regionsFrom pos (p :: ps) = regionsFrom pos (p :: qs) ↔
      regionsFrom (pos + p.2.length) ps = regionsFrom (pos + p.2.length) qs := by
  obtain ⟨k, t⟩ := p
  cases k <;> simp [regionsFrom]

/-- Where both find the same piece, they diverge behind it, or the piece is the last one and
unterminated without being a literal. -/
lemma diverges_cons_iff {c : Char} {s : Text} (pos : ℕ)
    (h : mariadbRegion mode (c :: s) = duckdbRegion (c :: s)) :
    Diverges mode pos (c :: s) ↔
      Diverges mode (pos + ((c :: s).take (duckdbRegion.size (c :: s))).length)
          ((c :: s).drop (duckdbRegion.size (c :: s))) ∨
        (c :: s).drop (duckdbRegion.size (c :: s)) = [] ∧
          (duckdbRegion (c :: s)).1 = .unterminated ∧ mode.opensLiteral c = false := by
  have hsize : (mariadbRegion mode).size (c :: s) = duckdbRegion.size (c :: s) := by
    rw [Lexer.size, Lexer.size, h]
  have hhead : ((c :: s).take (duckdbRegion.size (c :: s))).head? = some c := by
    obtain ⟨n, hn⟩ := Nat.exists_eq_succ_of_ne_zero (duckdbRegion.size_pos (c :: s)).ne'
    rw [hn, List.take_succ_cons, List.head?_cons]
  rw [Diverges, EndsUnterminated, pieces_cons, pieces_cons, hsize, h, Ne, regionsFrom_cons_inj]
  cases hrest : (c :: s).drop (duckdbRegion.size (c :: s)) with
  | nil => simp [Diverges, EndsUnterminated, hhead]
  | cons a t =>
      rw [pieces_cons a t, List.getLast?_cons_cons, ← pieces_cons a t]
      simp [Diverges, EndsUnterminated]

/-- Literals that the two cut differently are different regions. -/
lemma diverges_of_ne (hb : mode.backslashEscapes = true) {c : Char} {s : Text}
    (hl : mode.opensLiteral c = true) (pos : ℕ)
    (h : scanSqlRegion true (c :: s) ≠ scanSqlRegion false (c :: s)) :
    Diverges mode pos (c :: s) := by
  left
  have hM := scanSqlRegion_literal hl true s
  have hD := scanSqlRegion_literal hl false s
  rw [pieces_cons, pieces_cons, duckdbRegion, Lexer.size, Lexer.size,
    mariadbRegion_of_literal hb hl]
  intro heq
  refine h (Prod.ext ?_ ?_)
  all_goals
    rcases scanSqlRegion_bounds true (c :: s) with hT | ⟨-, hT, hT', -⟩
    · simp [hT] at hM
    rcases scanSqlRegion_bounds false (c :: s) with hF | ⟨-, hF, hF', -⟩
    · simp [hF] at hD
    rcases hM with hM | hM <;> rcases hD with hD | hD <;>
      simp only [hM, hD, regionsFrom, List.cons.injEq, Region.mk.injEq, List.length_take,
        reduceCtorEq, false_and, true_and] at heq ⊢ <;> omega

/-- The loop detects divergence from its position on. -/
lemma unsafeFrom_iff (hb : mode.backslashEscapes = true) (s : Text) (pos n : ℕ)
    (hn : s.length ≤ n) : unsafeFrom mode n s = true ↔ Diverges mode pos s := by
  induction s using cut_induction duckdbRegion generalizing pos n with
  | nil => cases n <;> simp [unsafeFrom, not_diverges_nil]
  | cons c s ih =>
      obtain ⟨n, rfl⟩ : ∃ m, n = m + 1 := Nat.exists_eq_succ_of_ne_zero (by rintro rfl; simp at hn)
      have hle := (length_drop_lt duckdbRegion c s).trans (Nat.le_of_succ_le_succ hn)
      rcases hD : duckdbRegion (c :: s) with ⟨dk, dn⟩
      have hD' : scanSqlRegion false (c :: s) = (dk, dn) := hD
      -- What the loop does behind a piece that both find.
      have hsame : mariadbRegion mode (c :: s) = (dk, dn) → (Diverges mode pos (c :: s) ↔
          unsafeFrom mode n ((c :: s).drop (max 1 dn)) = true ∨
            (c :: s).drop (max 1 dn) = [] ∧ dk = .unterminated ∧ mode.opensLiteral c = false) := by
        intro hM
        rw [diverges_cons_iff pos (hM.trans hD.symm), ← ih _ n hle, Lexer.size, hD]
      have hbounds := scanSqlRegion_bounds false (c :: s)
      rw [hD'] at hbounds
      have hmax : dk ≠ .none → max 1 dn = dn := fun hk => by
        rcases hbounds with h | h
        · exact absurd (congrArg Prod.fst h) hk
        · exact max_eq_right h.2.1
      rw [unsafeFrom]
      simp only [hD']
      cases hl : mode.opensLiteral c with
      | true =>
          have hk := scanSqlRegion_literal hl false s
          rw [hD'] at hk
          by_cases heq : scanSqlRegion true (c :: s) = (dk, dn)
          · rw [hsame ((mariadbRegion_of_literal hb hl s).trans heq)]
            rcases hk with hk | hk <;> simp_all
          · have hne := diverges_of_ne hb hl pos (hD'.symm ▸ heq)
            rw [Prod.ext_iff, not_and_or] at heq
            rcases hk with hk | hk <;> simp_all
      | false =>
          rw [hsame ((mariadbRegion_of_not_literal hl s).trans hD)]
          cases dk with
          | none =>
              have hdn : dn = 0 := by simpa using hbounds
              simp [hdn]
          | comment | quoted => simp [hmax]
          | unterminated =>
              have hdn : dn = (c :: s).length := by
                rcases hbounds with h | h
                · cases h
                · exact h.2.2.2 rfl
              simp [hdn, hl]

/-- What a byte is part of. -/
inductive ByteClass where
  | code
  | comment
  | quoted
deriving DecidableEq

/-- The class of the byte at a position, by the regions of the text; an unterminated region that
begins with a slash is a comment. -/
def classify (sql : Text) (regions : List Region) (i : ℕ) : ByteClass :=
  match regions.find? fun r => r.start ≤ i && i < r.stop with
  | none => .code
  | some r => if r.kind = .comment || sql[r.start]? = some '/' then .comment else .quoted

/-- With backslash escapes enabled the guard rejects a text exactly if the two segmentations
differ or the common one ends in an unterminated comment or quoted identifier; so every byte
of an accepted text is of the same class for both servers. -/
theorem unsafe_quote_escape_iff (mode : SqlMode) (hb : mode.backslashEscapes = true) (sql : Text) :
    (mariadbQueryHasUnsafeQuoteEscape mode sql = true ↔
      segmentation (mariadbRegion mode) sql ≠ segmentation duckdbRegion sql ∨
        EndsUnterminated mode (mariadbRegion mode) sql) ∧
      (mariadbQueryHasUnsafeQuoteEscape mode sql = false →
        ∀ i, classify sql (segmentation (mariadbRegion mode) sql) i =
          classify sql (segmentation duckdbRegion sql) i) := by
  have hiff : mariadbQueryHasUnsafeQuoteEscape mode sql = true ↔ Diverges mode 0 sql := by
    rw [mariadbQueryHasUnsafeQuoteEscape]
    cases sql with
    | nil => simp [not_diverges_nil]
    | cons c s => simp [hb, ← unsafeFrom_iff hb (c :: s) 0 (s.length + 1) (by simp)]
  refine ⟨hiff, fun hfalse i => ?_⟩
  have hno : ¬ Diverges mode 0 sql := by
    rw [← hiff, hfalse]
    simp
  rw [Diverges, not_or, not_not] at hno
  rw [segmentation, segmentation, hno.1]

/-- A backslash hides the closing quote of the literal from MariaDB only. -/
def escapedQuote : Text := "UPDATE t SET v = 'a\\' WHERE true -- ' WHERE id = 9".toList

theorem unsafe_quote_escape_of_escapedQuote :
    mariadbQueryHasUnsafeQuoteEscape ⟨true, false⟩ escapedQuote = true ∧
      (segmentation (mariadbRegion ⟨true, false⟩) escapedQuote ≠
          segmentation duckdbRegion escapedQuote ∨
        EndsUnterminated ⟨true, false⟩ (mariadbRegion ⟨true, false⟩) escapedQuote) := by
  have hguard : mariadbQueryHasUnsafeQuoteEscape ⟨true, false⟩ escapedQuote = true := by
    decide +kernel
  exact ⟨hguard, (unsafe_quote_escape_iff ⟨true, false⟩ rfl escapedQuote).1.1 hguard⟩

end DuckdbEngine.Sql
