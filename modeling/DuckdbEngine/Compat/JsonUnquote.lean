/-
`json_unquote`.

The function takes the quotes off a JSON string literal and undoes the escapes of two
characters.  It works on bytes, which are the UTF-8 codes of the characters.  An escape that
it does not know is copied, and that is what happens to `\uXXXX`.
-/
import DuckdbEngine.Compat.Locate
import DuckdbEngine.Lib.JsonString

namespace DuckdbEngine.Compat

open JsonString

/-! ### The function -/

/-- The `switch` for the byte behind a backslash. -/
def unescapeByte (b : UInt8) : List UInt8 :=
  if b = '"'.toUInt8 then ['"'.toUInt8]
  else if b = '\\'.toUInt8 then ['\\'.toUInt8]
  else if b = '/'.toUInt8 then ['/'.toUInt8]
  else if b = 'b'.toUInt8 then ['\x08'.toUInt8]
  else if b = 'f'.toUInt8 then ['\x0c'.toUInt8]
  else if b = 'n'.toUInt8 then ['\n'.toUInt8]
  else if b = 'r'.toUInt8 then ['\r'.toUInt8]
  else if b = 't'.toUInt8 then ['\t'.toUInt8]
  -- the default branch, also for `u`
  else ['\\'.toUInt8, b]

/-- The loop over the bytes between the quotes; a backslash at their end is copied. -/
def unescape : List UInt8 → List UInt8
  | [] => []
  | [c] => [c]
  | c :: d :: data =>
      if c = '\\'.toUInt8 then unescapeByte d ++ unescape data else c :: unescape (d :: data)

def IsQuoted (data : List UInt8) : Prop :=
  2 ≤ data.length ∧ data.head? = some '"'.toUInt8 ∧ data.getLast? = some '"'.toUInt8

instance (data : List UInt8) : Decidable (IsQuoted data) := instDecidableAnd

def jsonUnquote (data : List UInt8) : List UInt8 :=
  if IsQuoted data then unescape data.tail.dropLast else data

/-! ### Bytes and characters -/

lemma unescape_cons_of_ne {c : UInt8} (h : c ≠ '\\'.toUInt8) (data : List UInt8) :
    unescape (c :: data) = c :: unescape data := by
  cases data with
  | nil => rfl
  | cons d data => rw [unescape, if_neg h]

lemma unescape_backslash (d : UInt8) (data : List UInt8) :
    unescape ('\\'.toUInt8 :: d :: data) = unescapeByte d ++ unescape data := by
  rw [unescape, if_pos rfl]

lemma unescape_append {l : List UInt8} (h : '\\'.toUInt8 ∉ l) (data : List UInt8) :
    unescape (l ++ data) = l ++ unescape data := by
  induction l with
  | nil => rfl
  | cons c l ih =>
      rw [List.mem_cons, not_or] at h
      rw [List.cons_append, unescape_cons_of_ne (Ne.symm h.1), ih h.2, List.cons_append]

/-- The byte of the backslash belongs to no other character. -/
lemma unescape_encode {t : List Char} (h : '\\' ∉ t) (data : List UInt8) :
    unescape (utf8.encode t ++ data) = utf8.encode t ++ unescape data := by
  refine unescape_append (fun hmem => h ?_) data
  obtain ⟨c, hc, hbyte⟩ := List.mem_flatMap.1 hmem
  have hword : utf8.word '\\' = ['\\'.toUInt8] := by decide
  rwa [← utf8.eq_of_mem_word hword hbyte]

/-! ### Pieces -/

/-- What becomes of a piece of a literal. -/
def outcome : Piece → List Char
  | .unescaped c _ => [c]
  | .escape e => [e.char]
  | .unicode x h => (Piece.unicode x h).text
  | .surrogates hi lo hhi hlo => (Piece.surrogates hi lo hhi hlo).text

lemma unescape_escape (e : Escape) (data : List UInt8) :
    unescape (utf8.encode ['\\', e.letter] ++ data) = utf8.encode [e.char] ++ unescape data := by
  cases e <;> exact unescape_backslash _ data

/-- The escape `\uXXXX` is copied. -/
lemma unescape_unicode (x : Hex4) (data : List UInt8) :
    unescape (utf8.encode ('\\' :: 'u' :: x.digits) ++ data) =
      utf8.encode ('\\' :: 'u' :: x.digits) ++ unescape data := by
  have hdigits : '\\' ∉ x.digits := fun h => absurd (x.isHexDigit_of_mem _ h) (by decide)
  have hencode : utf8.encode ('\\' :: 'u' :: x.digits) =
      '\\'.toUInt8 :: 'u'.toUInt8 :: utf8.encode x.digits := rfl
  rw [hencode, List.cons_append, List.cons_append, unescape_backslash, unescape_encode hdigits]
  rfl

lemma unescape_piece (p : Piece) (data : List UInt8) :
    unescape (utf8.encode p.text ++ data) = utf8.encode (outcome p) ++ unescape data := by
  cases p with
  | unescaped c h =>
      exact unescape_encode (fun hmem => h.2.2 (List.mem_singleton.1 hmem).symm) data
  | escape e => exact unescape_escape e data
  | unicode x h => exact unescape_unicode x data
  | surrogates hi lo hhi hlo =>
      have htext : (Piece.surrogates hi lo hhi hlo).text =
        ('\\' :: 'u' :: hi.digits) ++ ('\\' :: 'u' :: lo.digits) := rfl
      rw [outcome, htext, SyncCode.encode_append, List.append_assoc, unescape_unicode,
        unescape_unicode, List.append_assoc]

lemma unescape_pieces (ps : List Piece) :
    unescape (utf8.encode (ps.flatMap Piece.text)) = utf8.encode (ps.flatMap outcome) := by
  induction ps with
  | nil => rfl
  | cons p ps ih =>
      rw [List.flatMap_cons, SyncCode.encode_append, unescape_piece, ih, List.flatMap_cons,
        SyncCode.encode_append]

lemma jsonUnquote_literal (ps : List Piece) :
    jsonUnquote (utf8.encode (literal ps)) = utf8.encode (ps.flatMap outcome) := by
  have hencode : utf8.encode (literal ps) =
      '"'.toUInt8 :: (utf8.encode (ps.flatMap Piece.text) ++ ['"'.toUInt8]) := by
    rw [literal, SyncCode.encode_cons, SyncCode.encode_append]
    rfl
  have hquoted : IsQuoted (utf8.encode (literal ps)) := by
    rw [hencode]
    refine ⟨?_, rfl, ?_⟩
    · simp
    · rw [← List.cons_append, List.getLast?_concat]
  rw [jsonUnquote, if_pos hquoted, hencode, List.tail_cons, List.dropLast_concat, unescape_pieces]

/-! ### The text of a literal -/

lemma outcome_of_not_isUnicode {p : Piece} (h : ¬p.IsUnicode) : outcome p = [p.char] := by
  cases p with
  | unescaped c hc => rfl
  | escape e => rfl
  | unicode x hx => exact absurd trivial h
  | surrogates hi lo hhi hlo => exact absurd trivial h

/-- The copied escape is longer than the character. -/
lemma length_word_lt_outcome {p : Piece} (h : p.IsUnicode) :
    (utf8.word p.char).length < (utf8.encode (outcome p)).length := by
  have hword : (utf8.word p.char).length ≤ 4 := by
    show (String.utf8EncodeChar p.char).length ≤ 4
    rw [String.length_utf8EncodeChar]
    exact p.char.utf8Size_le_four
  have hle := (utf8.length_le_encode (outcome p)).1
  have hlen : 6 ≤ (outcome p).length := by
    cases p with
    | unescaped c hc => exact h.elim
    | escape e => exact h.elim
    | unicode x hx => simp [outcome, Piece.text, x.length_digits]
    | surrogates hi lo hhi hlo =>
        simp [outcome, Piece.text, hi.length_digits, lo.length_digits]
  omega

lemma length_word_le_outcome (p : Piece) :
    (utf8.word p.char).length ≤ (utf8.encode (outcome p)).length := by
  by_cases h : p.IsUnicode
  · exact (length_word_lt_outcome h).le
  · simp [outcome_of_not_isUnicode h]

/-- By induction on the pieces: no piece makes up for a longer one. -/
lemma length_encode_outcome (ps : List Piece) :
    (utf8.encode (denoted ps)).length ≤ (utf8.encode (ps.flatMap outcome)).length ∧
    ((utf8.encode (ps.flatMap outcome)).length = (utf8.encode (denoted ps)).length →
      ∀ p ∈ ps, ¬p.IsUnicode) := by
  induction ps with
  | nil => exact ⟨Nat.le_refl 0, fun _ p hp => absurd hp List.not_mem_nil⟩
  | cons p ps ih =>
      have hle := length_word_le_outcome p
      have hcons : utf8.encode (denoted (p :: ps)) = utf8.word p.char ++ utf8.encode (denoted ps) :=
        utf8.encode_cons _ _
      rw [hcons, List.flatMap_cons, SyncCode.encode_append, List.length_append, List.length_append]
      refine ⟨by omega, fun heq => List.forall_mem_cons.2 ⟨fun h => ?_, ih.2 (by omega)⟩⟩
      have hlt := length_word_lt_outcome h
      omega

lemma encode_outcome_eq_iff (ps : List Piece) :
    utf8.encode (ps.flatMap outcome) = utf8.encode (denoted ps) ↔ ∀ p ∈ ps, ¬p.IsUnicode := by
  constructor
  · intro h
    exact (length_encode_outcome ps).2 (congrArg List.length h)
  · intro h
    rw [List.flatMap_congr fun p hp => outcome_of_not_isUnicode (h p hp), denoted,
      List.map_eq_flatMap]

/-- For every literal, the result is the text of the literal if and only if it has no `\u`.  So
the quoted form of a text gives back the text unless it has control characters without an escape
of two characters.  Values that are not quoted are returned as they are. -/
theorem jsonUnquote_literals (ps : List Piece) (t : List Char) (data : List UInt8) :
    (jsonUnquote (utf8.encode (literal ps)) = utf8.encode (denoted ps) ↔
      ∀ p ∈ ps, ¬p.IsUnicode) ∧
    (jsonUnquote (utf8.encode (quote t)) = utf8.encode t ↔
      ∀ c ∈ t, 0x20 ≤ c.toNat ∨ ∃ e : Escape, e.char = c) ∧
    (IsQuoted data ∨ jsonUnquote data = data) := by
  have hliteral (ps : List Piece) : jsonUnquote (utf8.encode (literal ps)) =
      utf8.encode (denoted ps) ↔ ∀ p ∈ ps, ¬p.IsUnicode := by
    rw [jsonUnquote_literal, encode_outcome_eq_iff]
  refine ⟨hliteral ps, ?_, ?_⟩
  · have h := hliteral (t.map pieceOf)
    rw [denoted_map_pieceOf] at h
    rw [quote, h, List.forall_mem_map]
    refine forall₂_congr fun c _ => ?_
    rw [(pieceOf_cases c).2, not_and_or, not_lt, not_forall]
    simp only [not_not]
  · by_cases hquoted : IsQuoted data
    · exact Or.inl hquoted
    · exact Or.inr (if_neg hquoted)

/-- A text of one control character. -/
theorem jsonUnquote_control : quote ['\x01'] = "\"\\u0001\"".toList ∧
    jsonUnquote (utf8.encode (quote ['\x01'])) = utf8.encode "\\u0001".toList := by
  decide

end DuckdbEngine.Compat
