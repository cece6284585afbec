/-
`ord`.

MariaDB's `ORD` is the number whose digits to the base 256 are the bytes of the first
character.  `ord_byte_func` takes the number of bytes from the first one and computes in
`int32_t`, which is also the result type; an overflow there is undefined and has no result
(`none`).
-/
import DuckdbEngine.Compat.Locate
import DuckdbEngine.Lib.MachineInt

namespace DuckdbEngine.Compat

open Positional MachineInt

/-! ### The function -/

def charLen (c : UInt8) : ℕ :=
  if c ≥ 0xF0 then 4
  else if c ≥ 0xE0 then 3
  else if c ≥ 0xC0 then 2
  else 1

def ordByteFunc : List UInt8 → Option ℤ
  | [] => some 0
  | c :: data =>
      if charLen c = 1 then some c.toNat
      -- a character that is cut off at the end of the text counts with the bytes it has
      else hornerSigned 32 256 0 (((c :: data).take (charLen c)).map UInt8.toNat)

/-- What `ORD` is meant to be. -/
def ordValue (c : Char) : ℕ := horner 256 0 ((utf8.word c).map UInt8.toNat)

/-! ### The first byte -/

lemma charLen_ofNat {n : ℕ} (hn : n < 256) : charLen (UInt8.ofNat n) =
    if 0xF0 ≤ n then 4 else if 0xE0 ≤ n then 3 else if 0xC0 ≤ n then 2 else 1 := by
  have hcmp (k : UInt8) : UInt8.ofNat n ≥ k ↔ k.toNat ≤ n := by
    rw [ge_iff_le, UInt8.le_iff_toNat_le, UInt8.toNat_ofNat_of_lt' hn]
  simp only [charLen, hcmp]
  rfl

/-- The first byte gives the number of bytes. -/
lemma word_cases (c : Char) : ∃ b tl, utf8.word c = b :: tl ∧ charLen b = c.utf8Size ∧
    (4 ≤ c.utf8Size → 0xF0 ≤ b.toNat) := by
  have hlen : (utf8.word c).length = c.utf8Size := String.length_utf8EncodeChar c
  rw [← hlen]
  show ∃ b tl, String.utf8EncodeChar c = b :: tl ∧ charLen b = (String.utf8EncodeChar c).length ∧
    (4 ≤ (String.utf8EncodeChar c).length → 0xF0 ≤ b.toNat)
  rw [String.utf8EncodeChar]
  split_ifs with hone htwo hthree
  · refine ⟨_, _, rfl, ?_, fun hfour => absurd hfour (by simp)⟩
    rw [charLen_ofNat (by omega), if_neg (by omega), if_neg (by omega), if_neg (by omega)]
    rfl
  · refine ⟨_, _, rfl, ?_, fun hfour => absurd hfour (by simp)⟩
    rw [charLen_ofNat (by omega), if_neg (by omega), if_neg (by omega), if_pos (by omega)]
    rfl
  · refine ⟨_, _, rfl, ?_, fun hfour => absurd hfour (by simp)⟩
    rw [charLen_ofNat (by omega), if_neg (by omega), if_pos (by omega)]
    rfl
  · refine ⟨_, _, rfl, ?_, fun _ => ?_⟩
    · rw [charLen_ofNat (by omega), if_pos (by omega)]
      rfl
    · rw [UInt8.toNat_ofNat_of_lt' (by show _ < 256; omega)]
      omega

/-! ### The value -/

/-- Three bytes fit `int32_t`, and four bytes never do. -/
lemma ordValue_lt_iff (c : Char) : ordValue c < 2 ^ 31 ↔ c.utf8Size ≤ 3 := by
  obtain ⟨b, tl, hword, -, hfour⟩ := word_cases c
  have hlen : ((utf8.word c).map UInt8.toNat).length = c.utf8Size := by
    rw [List.length_map]
    exact String.length_utf8EncodeChar c
  have hdigit : ∀ d ∈ (utf8.word c).map UInt8.toNat, d < 256 := by
    intro d hd
    obtain ⟨x, -, rfl⟩ := List.mem_map.1 hd
    exact x.toNat_lt
  constructor
  · intro hlt
    by_contra hsize
    have hvalue : ordValue c =
        b.toNat * 256 ^ (tl.map UInt8.toNat).length + horner 256 0 (tl.map UInt8.toNat) := by
      rw [ordValue, hword, List.map_cons, horner_cons, horner_eq, Nat.zero_mul, Nat.zero_add]
    have htl : 3 ≤ (tl.map UInt8.toNat).length := by
      rw [hword, List.map_cons, List.length_cons] at hlen
      omega
    have hpow : 256 ^ 3 ≤ 256 ^ (tl.map UInt8.toNat).length := Nat.pow_le_pow_right (by decide) htl
    have hle : 0xF0 * 256 ^ 3 ≤ b.toNat * 256 ^ (tl.map UInt8.toNat).length :=
      Nat.mul_le_mul (hfour (by omega)) hpow
    omega
  · intro hsize
    calc ordValue c < 256 ^ ((utf8.word c).map UInt8.toNat).length := horner_lt (by decide) hdigit
      _ ≤ 256 ^ 3 := Nat.pow_le_pow_right (by decide) (hlen ▸ hsize)
      _ < 2 ^ 31 := by decide

/-- The calculation in `int32_t`, for every text that begins with the character. -/
lemma ordByteFunc_eq (c : Char) (rest : List Char) :
    ordByteFunc (utf8.encode (c :: rest)) = signed 32 (ordValue c) := by
  obtain ⟨b, tl, hword, hchar, -⟩ := word_cases c
  have hlen : (b :: tl).length = c.utf8Size := by
    rw [← hword]
    exact String.length_utf8EncodeChar c
  rw [SyncCode.encode_cons, ordValue, hword, List.cons_append, ordByteFunc, hchar]
  split
  · next hone =>
      have htl : tl = [] := by
        rw [List.length_cons] at hlen
        exact List.eq_nil_of_length_eq_zero (by omega)
      rw [htl, List.map_singleton, horner_cons, horner_nil, Nat.zero_mul, Nat.zero_add,
        signed_natCast, if_pos (by have := b.toNat_lt; omega)]
  · rw [← List.cons_append, ← hlen, List.take_left]
    exact hornerSigned_eq 32 (by decide) (by decide) _

/-- For every text that is not empty, the result is the number of the bytes of the first
character if and only if these are at most three.  With four bytes the calculation overflows, and
the number is larger than any other one of the result type. -/
theorem ordByteFunc_first_char (c : Char) (rest : List Char) :
    (ordByteFunc (utf8.encode (c :: rest)) = some (ordValue c : ℤ) ↔ c.utf8Size ≤ 3) ∧
    (ordByteFunc (utf8.encode (c :: rest)) = none ↔ c.utf8Size = 4) ∧
    (2 ^ 31 ≤ ordValue c ↔ c.utf8Size = 4) := by
  have hfits := ordValue_lt_iff c
  have hmax := c.utf8Size_le_four
  rw [ordByteFunc_eq, signed_natCast]
  rcases Nat.lt_or_ge (ordValue c) (2 ^ 31) with hlt | hge
  · rw [if_pos hlt]
    have hsize := hfits.1 hlt
    exact ⟨iff_of_true rfl hsize, iff_of_false (Option.some_ne_none _) (by omega), by omega⟩
  · rw [if_neg (by omega)]
    have hsize : ¬c.utf8Size ≤ 3 := fun h => by have := hfits.2 h; omega
    exact ⟨iff_of_false (Option.some_ne_none _).symm hsize, iff_of_true rfl (by omega), by omega⟩

theorem ordByteFunc_emoji : ordByteFunc (utf8.encode ['😀']) = none ∧ ordValue '😀' = 0xF09F9880 := by
  decide

end DuckdbEngine.Compat
