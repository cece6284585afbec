/-
String literals of JSON.

A literal is a text in double quotes.  Its pieces are characters that stand for themselves,
the eight escapes of two characters, `\uXXXX` with four hexadecimal digits, and two of these
together for a character beyond the first 65536.  `quote` writes a text as a literal: it
escapes a character only where this is necessary, and in two characters if it can.
-/
import DuckdbEngine.Lib.Positional

namespace JsonString

open Positional

/-! ### Hexadecimal digits -/

def isHexDigit (c : Char) : Bool := c.isDigit || ('a' ≤ c && c ≤ 'f') || ('A' ≤ c && c ≤ 'F')

def hexVal (c : Char) : ℕ :=
  if c.isDigit then c.toNat - 48 else if 'a' ≤ c then c.toNat - 87 else c.toNat - 55

/-- Lower case is as good as upper case. -/
structure Hex4 where
  digits : List Char
  length_digits : digits.length = 4
  isHexDigit_of_mem : ∀ c ∈ digits, isHexDigit c = true

def Hex4.value (x : Hex4) : ℕ := horner 16 0 (x.digits.map hexVal)

/-! ### Literals -/

/-- The escapes of two characters. -/
inductive Escape where
  | quotationMark
  | reverseSolidus
  | solidus
  | backspace
  | formFeed
  | lineFeed
  | carriageReturn
  | tab

namespace Escape

def letter : Escape → Char
  | quotationMark => '"'
  | reverseSolidus => '\\'
  | solidus => '/'
  | backspace => 'b'
  | formFeed => 'f'
  | lineFeed => 'n'
  | carriageReturn => 'r'
  | tab => 't'

def char : Escape → Char
  | quotationMark => '"'
  | reverseSolidus => '\\'
  | solidus => '/'
  | backspace => '\x08'
  | formFeed => '\x0c'
  | lineFeed => '\n'
  | carriageReturn => '\r'
  | tab => '\t'

end Escape

/-- A character can stand for itself. -/
def Plain (c : Char) : Prop := 0x20 ≤ c.toNat ∧ c ≠ '"' ∧ c ≠ '\\'

instance (c : Char) : Decidable (Plain c) := instDecidableAnd

inductive Piece where
  | unescaped (c : Char) (h : Plain c)
  | escape (e : Escape)
  | unicode (x : Hex4) (h : x.value.isValidChar)
  | surrogates (hi lo : Hex4) (hhi : 0xD800 ≤ hi.value ∧ hi.value < 0xDC00)
      (hlo : 0xDC00 ≤ lo.value ∧ lo.value < 0xE000)

namespace Piece

def text : Piece → List Char
  | unescaped c _ => [c]
  | escape e => ['\\', e.letter]
  | unicode x _ => '\\' :: 'u' :: x.digits
  | surrogates hi lo _ _ => '\\' :: 'u' :: hi.digits ++ '\\' :: 'u' :: lo.digits

/-- The character that the piece stands for; the numbers are valid by the conditions. -/
def char : Piece → Char
  | unescaped c _ => c
  | escape e => e.char
  | unicode x _ => Char.ofNat x.value
  | surrogates hi lo _ _ =>
      Char.ofNat (0x10000 + (hi.value - 0xD800) * 0x400 + (lo.value - 0xDC00))

def IsUnicode : Piece → Prop
  | unescaped _ _ => False
  | escape _ => False
  | unicode _ _ => True
  | surrogates _ _ _ _ => True

end Piece

def literal (ps : List Piece) : List Char := '"' :: (ps.flatMap Piece.text ++ ['"'])

/-- The text that the literal stands for. -/
def denoted (ps : List Piece) : List Char := ps.map Piece.char

/-! ### Quoting -/

def hexLetter (d : ℕ) : Char := "0123456789abcdef".toList.getD d '0'

lemma hexVal_hexLetter : ∀ d < 16, hexVal (hexLetter d) = d := by decide

lemma isHexDigit_hexLetter : ∀ d < 16, isHexDigit (hexLetter d) = true := by decide

def lowByteDigits (n : ℕ) : List Char := ['0', '0', hexLetter (n / 16 % 16), hexLetter (n % 16)]

lemma isHexDigit_lowByteDigits (n : ℕ) : ∀ c ∈ lowByteDigits n, isHexDigit c = true := by
  have hhigh := isHexDigit_hexLetter (n / 16 % 16) (Nat.mod_lt _ (by decide))
  have hlow := isHexDigit_hexLetter (n % 16) (Nat.mod_lt _ (by decide))
  simp only [lowByteDigits, List.forall_mem_cons, hhigh, hlow]
  simp [isHexDigit]

def lowByte (n : ℕ) : Hex4 where
  digits := lowByteDigits n
  length_digits := rfl
  isHexDigit_of_mem := isHexDigit_lowByteDigits n

lemma value_lowByte (n : ℕ) : (lowByte n).value = n % 256 := by
  have hhigh := hexVal_hexLetter (n / 16 % 16) (Nat.mod_lt _ (by decide))
  have hlow := hexVal_hexLetter (n % 16) (Nat.mod_lt _ (by decide))
  have hzero : hexVal '0' = 0 := rfl
  simp only [Hex4.value, lowByte, lowByteDigits, List.map_cons, List.map_nil, horner_cons,
    horner_nil, hhigh, hlow, hzero]
  omega

lemma isValidChar_lowByte (n : ℕ) : (lowByte n).value.isValidChar := by
  rw [value_lowByte]
  exact Or.inl (by omega)

/-- The escapes that are necessary. -/
def necessary : List Escape :=
  [.quotationMark, .reverseSolidus, .backspace, .formFeed, .lineFeed, .carriageReturn, .tab]

def pieceOf (c : Char) : Piece :=
  if h : Plain c then .unescaped c h
  else
    match necessary.find? fun e => e.char = c with
    | some e => .escape e
    | none => .unicode (lowByte c.toNat) (isValidChar_lowByte c.toNat)

def quote (t : List Char) : List Char := literal (t.map pieceOf)

lemma find?_necessary_eq_none {c : Char} (h : necessary.find? (fun e => e.char = c) = none)
    (e : Escape) : e.char = c → e = .solidus := by
  intro hchar
  rw [List.find?_eq_none] at h
  cases e with
  | solidus => rfl
  | _ => exact absurd (decide_eq_true hchar) (h _ (by simp [necessary]))

/-- Only control characters need digits. -/
lemma pieceOf_cases (c : Char) :
    (pieceOf c).char = c ∧
    ((pieceOf c).IsUnicode ↔ c.toNat < 0x20 ∧ ∀ e : Escape, e.char ≠ c) := by
  rw [pieceOf]
  split
  · next hplain => exact ⟨rfl, iff_of_false id fun h => absurd hplain.1 (Nat.not_le.2 h.1)⟩
  · next hplain =>
      split
      · next e he =>
          have hchar : e.char = c := by
            simpa using List.find?_some he
          exact ⟨hchar, iff_of_false id fun h => h.2 e hchar⟩
      · next hnone =>
          have hother := find?_necessary_eq_none hnone
          have hcontrol : c.toNat < 0x20 := by
            by_contra hge
            refine hplain ⟨Nat.not_lt.1 hge, ?_, ?_⟩
            · rintro rfl
              exact Escape.noConfusion (hother .quotationMark rfl)
            · rintro rfl
              exact Escape.noConfusion (hother .reverseSolidus rfl)
          have hescape (e : Escape) : e.char ≠ c := by
            intro hchar
            obtain rfl := hother e hchar
            rw [← hchar] at hcontrol
            exact absurd hcontrol (by decide)
          refine ⟨?_, iff_of_true trivial ⟨hcontrol, hescape⟩⟩
          show Char.ofNat (lowByte c.toNat).value = c
          rw [value_lowByte, Nat.mod_eq_of_lt (by omega), Char.ofNat_toNat]

/-- The quoted form stands for the text. -/
lemma denoted_map_pieceOf (t : List Char) : denoted (t.map pieceOf) = t := by
  rw [denoted, List.map_map]
  exact List.map_id'' (fun c => (pieceOf_cases c).1) t

end JsonString
