/-
`hex`, `oct` and `bin` of integers.

An operator counts the leading zeros of its argument, derives the number of digits from
that, and has a writer print them, each found by a shift and a mask.  An argument of 64
bits is one unsigned word.  One of 128 bits is two words, of which the upper one is signed
for HUGEINT and unsigned for UHUGEINT, and every digit is taken from one of them; digits of
one or four bits do not cross the border between the words, octal digits do.

A shift by the width of the word or more is undefined, and a string of 2^32 characters or
more cannot be made; in both cases there is no result (`none`).  Sizes are unsigned numbers
of 64 bits.
-/
import Mathlib.Data.Int.ModEq
import DuckdbEngine.Lib.Positional
import DuckdbEngine.Lib.WhileLoop
import DuckdbEngine.Sql.Region

namespace DuckdbEngine.Compat

open Positional Sql

/-! ### Digits -/

/-- `Blob::HEX_TABLE` -/
def hexTable (byte : ℕ) : Char := "0123456789ABCDEF".toList.getD byte '0'

def bitChar (bit : ℕ) : Char := Char.ofNat (bit + '0'.toNat)

/-- `(x >> n) & mask` of a word, with a mask of `w` bits. -/
def bitField (w : ℕ) (x : ℤ) (n : ℕ) : Option ℕ :=
  if n < 64 then some (x / 2 ^ n % 2 ^ w).toNat else none

/-! ### The writers -/

def nextOffset (bound offset : ℕ) : Option ℕ := if bound ≤ offset then some offset else none

/-- The offsets of the rounds of `for (; offset >= bound; offset -= step)`. -/
def offsets (step bound offset : ℕ) : List ℕ :=
  WhileLoop.rounds (nextOffset bound) (fun o _ => o - step) offset offset

/-- The offset when the loop has ended. -/
def offsetAfter (step bound offset : ℕ) : ℕ :=
  StepRun.run (fun o _ => o - step) offset (offsets step bound offset)

/-- One character for every round. -/
def writeDigits (w : ℕ) (char : ℕ → Char) (x : ℤ) (base : ℕ) (os : List ℕ) : Option Text :=
  os.mapM fun offset => (bitField w x (offset - base)).map char

/-- The writers for one word. -/
def writeBytes (w : ℕ) (char : ℕ → Char) (x : ℤ) (bufferSize : ℕ) : Option Text :=
  writeDigits w char x w (offsets w w (bufferSize * w))

def writeHexBytes : ℤ → ℕ → Option Text := writeBytes 4 hexTable

def writeBinBytes : ℤ → ℕ → Option Text := writeBytes 1 bitChar

def writeOctBytes : ℤ → ℕ → Option Text := writeBytes 3 hexTable

/-- The two words of a number of 128 bits. -/
def upper (v : ℤ) : ℤ := v / 2 ^ 64
def lower (v : ℤ) : ℤ := v % 2 ^ 64

/-- The writers for two words whose digits do not cross the border. -/
def writeHugeIntBytes (w : ℕ) (char : ℕ → Char) (v : ℤ) (bufferSize : ℕ) : Option Text := do
  let offset := bufferSize * w
  let high ← writeDigits w char (upper v) (64 + w) (offsets w (64 + w) offset)
  let low ← writeDigits w char (lower v) w (offsets w w (offsetAfter w (64 + w) offset))
  return high ++ low

def writeHugeIntHexBytes : ℤ → ℕ → Option Text := writeHugeIntBytes 4 hexTable

def writeHugeIntBinBytes : ℤ → ℕ → Option Text := writeHugeIntBytes 1 bitChar

/-- A difference of sizes. -/
def idxSub (a b : ℕ) : ℕ := (a + (2 ^ 64 - b)) % 2 ^ 64

/-- Between the loops there is a digit with bits of both words. -/
def writeHugeIntOctBytes (v : ℤ) (bufferSize : ℕ) : Option Text := do
  let offset := bufferSize * 3
  let high ← writeDigits 3 hexTable (upper v) 66 (offsets 3 69 offset)
  let offset := offsetAfter 3 69 offset
  let bit ← bitField 1 (lower v) offset
  let mixed := hexTable ((upper v % 4).toNat * 2 + bit)
  let low ← writeDigits 3 hexTable (lower v) 3 (offsets 3 3 (idxSub offset 3))
  return high ++ mixed :: low

/-! ### The operators -/

/-- `CountZeros::Leading` for a type of `width` bits. -/
def countZeros (width : ℕ) (input : ℤ) : ℕ := width - bitLength (input % 2 ^ width).toNat

def maxStringSize : ℕ := 2 ^ 32 - 1

/-- Make a string of the given size and fill it. -/
def emit (bufferSize : ℕ) (write : ℕ → Option Text) : Option Text :=
  if bufferSize = 0 then some ['0']
  else if maxStringSize < bufferSize then none
  else write bufferSize

def numBitsToCheck (input : ℤ) : ℕ := idxSub 64 (countZeros 64 input)

def hexIntegralOperator (input : ℤ) : Option Text :=
  emit ((numBitsToCheck input + 3) / 4) (writeHexBytes (input % 2 ^ 64))

def octIntegralOperator (input : ℤ) : Option Text :=
  emit ((numBitsToCheck input + 2) / 3) (writeOctBytes (input % 2 ^ 64))

def binaryIntegralOperator (input : ℤ) : Option Text :=
  emit (numBitsToCheck input) (writeBinBytes (input % 2 ^ 64))

/-- The size of the argument in bytes. -/
def sizeofHugeint : ℕ := 16

def hexHugeIntOperator (input : ℤ) : Option Text :=
  emit (idxSub (sizeofHugeint * 2) (countZeros 128 input / 4)) (writeHugeIntHexBytes input)

def hexUhugeIntOperator (input : ℤ) : Option Text :=
  emit (idxSub (sizeofHugeint * 2) (countZeros 128 input / 4)) (writeHugeIntHexBytes input)

def binaryHugeIntOperator (input : ℤ) : Option Text :=
  emit (idxSub (sizeofHugeint * 8) (countZeros 128 input)) (writeHugeIntBinBytes input)

def binaryUhugeIntOperator (input : ℤ) : Option Text :=
  emit (idxSub (sizeofHugeint * 8) (countZeros 128 input)) (writeHugeIntBinBytes input)

/-- The size that the octal operators for 128 bits compute. -/
def octBufferSize (input : ℤ) : ℕ :=
  (idxSub (sizeofHugeint * 2) (countZeros 128 input) + 2) % 2 ^ 64 / 3

def octHugeIntOperator (input : ℤ) : Option Text :=
  emit (octBufferSize input) (writeHugeIntOctBytes input)

def octUhugeIntOperator (input : ℤ) : Option Text :=
  emit (octBufferSize input) (writeHugeIntOctBytes input)

/-! ### The loops -/

section loops

variable {w m : ℕ} (hw : 0 < w)
include hw

/-- The rounds of a loop that takes the digits at the positions from `m` on, and where it ends. -/
lemma rounds_nextOffset (k n : ℕ) (hn : k ≤ n + m) :
    WhileLoop.rounds (nextOffset (w * m + w)) (fun o _ => o - w) n (w * k) =
        ((List.range' m (k - m)).map fun i => w * i + w).reverse ∧
      StepRun.run (fun o (_ : ℕ) => o - w) (w * k)
          (WhileLoop.rounds (nextOffset (w * m + w)) (fun o _ => o - w) n (w * k)) =
        w * min k m := by
  induction k generalizing n with
  | zero =>
      have hnone : nextOffset (w * m + w) (w * 0) = none := if_neg (by omega)
      rw [WhileLoop.rounds_of_none hnone]
      simp
  | succ k ih =>
      rcases Nat.lt_or_ge k m with hlt | hge
      · have hle : w * (k + 1) ≤ w * m := Nat.mul_le_mul_left w hlt
        have hnone : nextOffset (w * m + w) (w * (k + 1)) = none := if_neg (by omega)
        rw [WhileLoop.rounds_of_none hnone, Nat.sub_eq_zero_of_le hlt, Nat.min_eq_left hlt]
        simp
      · obtain ⟨n, rfl⟩ : ∃ j, n = j + 1 := ⟨n - 1, by omega⟩
        have hle : w * m ≤ w * k := Nat.mul_le_mul_left w hge
        have hsome : nextOffset (w * m + w) (w * (k + 1)) = some (w * k + w) :=
          if_pos (by rw [Nat.mul_succ]; omega)
        have hmove : w * (k + 1) - w = w * k := by rw [Nat.mul_succ, Nat.add_sub_cancel]
        obtain ⟨hrounds, hrun⟩ := ih n (by omega)
        rw [WhileLoop.rounds_of_some hsome, StepRun.run_cons, hmove, hrun, hrounds,
          Nat.min_eq_right hge, Nat.min_eq_right (by omega), Nat.succ_sub hge, List.range'_concat]
        simp [Nat.add_sub_cancel' hge]

lemma offsets_eq (k : ℕ) :
    offsets w (w * m + w) (k * w) =
      ((List.range' m (k - m)).map fun i => w * i + w).reverse := by
  have hfuel := (Nat.le_mul_of_pos_left k hw).trans (Nat.le_add_right _ m)
  rw [Nat.mul_comm k w]
  exact (rounds_nextOffset hw k (w * k) hfuel).1

lemma offsetAfter_eq (k : ℕ) : offsetAfter w (w * m + w) (k * w) = min k m * w := by
  have hfuel := (Nat.le_mul_of_pos_left k hw).trans (Nat.le_add_right _ m)
  rw [Nat.mul_comm k w, Nat.mul_comm _ w]
  exact (rounds_nextOffset hw k (w * k) hfuel).2

end loops

/-! ### What the writers print -/

lemma mapM_of_forall {α β : Type} {f : α → Option β} {g : α → β} {l : List α}
    (h : ∀ a ∈ l, f a = some (g a)) : l.mapM f = some (l.map g) := by
  induction l with
  | nil => rfl
  | cons a l ih =>
      rw [List.mapM_cons, h a List.mem_cons_self, ih fun a ha => h a (List.mem_cons_of_mem _ ha)]
      rfl

/-- A field of bits does not depend on the bits above it. -/
lemma emod_ediv_emod (v : ℤ) {n w l : ℕ} (h : n + w ≤ l) :
    v % 2 ^ l / 2 ^ n % 2 ^ w = v / 2 ^ n % 2 ^ w := by
  have hpow : (2 : ℤ) ^ l = 2 ^ n * (2 ^ w * 2 ^ (l - n - w)) := by
    rw [← pow_add, ← pow_add]
    congr 1
    omega
  have hdiv : v % 2 ^ l / 2 ^ n = v / 2 ^ n - 2 ^ w * (2 ^ (l - n - w) * (v / 2 ^ l)) := by
    have hv : v % 2 ^ l = v + 2 ^ n * (-(2 ^ w * 2 ^ (l - n - w) * (v / 2 ^ l))) := by
      rw [Int.emod_def, hpow]
      ring
    rw [hv, Int.add_mul_ediv_left _ _ (by positivity)]
    ring
  rw [hdiv, Int.sub_mul_emod_self_left]

section digits

variable {w : ℕ} {char : ℕ → Char} {v : ℤ}

/-- The digit of `w` bits at the position `i`. -/
def digitAt (w : ℕ) (v : ℤ) (i : ℕ) : ℕ := (v / 2 ^ (w * i) % 2 ^ w).toNat

lemma digitAt_emod {l i : ℕ} (h : w * i + w ≤ l) : digitAt w (v % 2 ^ l) i = digitAt w v i := by
  rw [digitAt, emod_ediv_emod v h, digitAt]

lemma lowDigits_eq_digitAt (k n : ℕ) :
    lowDigits (2 ^ w) k n = (List.range k).reverse.map (digitAt w n) := by
  refine List.map_congr_left fun i _ => ?_
  rw [digitAt, ← pow_mul]
  norm_cast

/-- A loop prints the digits of a word at the positions from `m` on, if the shifts are
defined. -/
lemma writeDigits_offsets (hw : 0 < w) (char : ℕ → Char) (base : ℕ) {m k : ℕ} {x y : ℤ}
    (hdigit : ∀ i, m ≤ i → i < k →
      bitField w x (w * i + w - base) = some (digitAt w y i)) :
    writeDigits w char x base (offsets w (w * m + w) (k * w)) =
      some (((List.range' m (k - m)).reverse.map (digitAt w y)).map char) := by
  rw [offsets_eq hw, writeDigits, ← List.map_reverse, List.mapM_map]
  rw [List.map_map]
  refine mapM_of_forall fun i hi => ?_
  obtain ⟨hm, hk⟩ := List.mem_range'_1.1 (List.mem_reverse.1 hi)
  rw [Function.comp_apply, hdigit i hm (by omega)]
  rfl

theorem writeBytes_eq (hw : 0 < w) (char : ℕ → Char) {k n : ℕ} (hk : k * w < 64 + w) :
    writeBytes w char n k = some ((lowDigits (2 ^ w) k n).map char) := by
  have h := writeDigits_offsets hw char w (m := 0) (k := k) (x := n) (y := n) fun i _ hi => by
      have hle : w * (i + 1) ≤ w * k := Nat.mul_le_mul_left w hi
      rw [Nat.mul_succ, Nat.mul_comm w k] at hle
      rw [Nat.add_sub_cancel, bitField, if_pos (by omega)]
      rfl
  rw [writeBytes, lowDigits_eq_digitAt]
  simpa [List.range_eq_range'] using h

lemma range_eq_append (k m : ℕ) :
    List.range k = List.range' 0 (min k m) ++ List.range' m (k - m) := by
  rw [List.range_eq_range']
  rcases Nat.le_total k m with hkm | hkm
  · rw [Nat.min_eq_left hkm, Nat.sub_eq_zero_of_le hkm, List.range'_zero, List.append_nil]
  · have happ : List.range' 0 m ++ List.range' (0 + m) (k - m) = List.range' 0 (m + (k - m)) :=
      List.range'_append_1
    rw [Nat.zero_add, Nat.add_sub_cancel' hkm] at happ
    rw [Nat.min_eq_right hkm, happ]

/-- The first loop prints the digits of the upper word, the second one those of the lower word. -/
theorem writeHugeIntBytes_eq {m : ℕ} (hw : 0 < w) (hm : w * m = 64) {k : ℕ} (hk : k ≤ 2 * m) :
    writeHugeIntBytes w char v k =
      some ((lowDigits (2 ^ w) k (v % 2 ^ 128).toNat).map char) := by
  have hbound (i : ℕ) (hi : i < k) : w * i + w ≤ 128 := by
    have hle : w * (i + 1) ≤ w * (2 * m) := Nat.mul_le_mul_left w (by omega)
    rw [Nat.mul_succ, Nat.mul_left_comm, hm] at hle
    exact hle
  have hhigh := writeDigits_offsets hw char (64 + w) (m := m) (k := k) (x := upper v)
    (y := v) fun i hmi hik => by
      have hle : w * m ≤ w * i := Nat.mul_le_mul_left w hmi
      have hlt := hbound i hik
      have hshift : w * i + w - (64 + w) = w * i - 64 := by omega
      have hpow : (2 : ℤ) ^ (w * i) = 2 ^ 64 * 2 ^ (w * i - 64) := by
        rw [← pow_add]
        congr 1
        omega
      rw [hshift, bitField, if_pos (by omega), upper, Int.ediv_ediv_of_nonneg (by positivity),
        ← hpow, digitAt]
  have hlow := writeDigits_offsets hw char w (m := 0) (k := min k m) (x := lower v)
    (y := v) fun i _ hi => by
      have hle : w * (i + 1) ≤ w * m := Nat.mul_le_mul_left w (by omega)
      rw [Nat.mul_succ, hm] at hle
      rw [Nat.add_sub_cancel, bitField, if_pos (by omega), lower, emod_ediv_emod v hle, digitAt]
  have hafter := offsetAfter_eq hw (m := m) k
  have hdigits : lowDigits (2 ^ w) k (v % 2 ^ 128).toNat =
      (List.range k).reverse.map (digitAt w v) := by
    rw [lowDigits_eq_digitAt, Int.toNat_of_nonneg (Int.emod_nonneg v (by positivity))]
    refine List.map_congr_left fun i hi => digitAt_emod (hbound i ?_)
    exact List.mem_range.1 (List.mem_reverse.1 hi)
  rw [hm] at hhigh hafter
  rw [Nat.mul_zero, Nat.zero_add, Nat.sub_zero] at hlow
  rw [writeHugeIntBytes, hhigh, hafter, hlow, hdigits, range_eq_append k m]
  simp

end digits

/-! ### What the operators return -/

/-- The text of a number: its numeral, without leading zeros. -/
def numeralText (b n : ℕ) : Text := (numeral b n).map hexTable

def digitOf (c : Char) : Option ℕ := "0123456789ABCDEF".toList.idxOf? c

/-- A text read as a number. -/
def readText (b : ℕ) (t : Text) : Option ℕ := (t.mapM digitOf).map (horner b 0)

lemma digitOf_hexTable : ∀ d < 16, digitOf (hexTable d) = some d := by decide

lemma bitChar_eq : ∀ d < 2, bitChar d = hexTable d := by decide

/-- The text of a number is read as the number. -/
theorem readText_numeralText {b : ℕ} (hb : 1 < b) (hb' : b ≤ 16) (n : ℕ) :
    readText b (numeralText b n) = some n := by
  have hmap : (numeralText b n).mapM digitOf = some (numeral b n) := by
    rw [numeralText, List.mapM_map, mapM_of_forall (g := id), List.map_id]
    intro d hd
    exact digitOf_hexTable d ((numeral_lt hb d hd).trans_le hb')
  rw [readText, hmap, Option.map_some, horner_numeral]

lemma bitLength_toNat_le (v : ℤ) (l : ℕ) : bitLength (v % 2 ^ l).toNat ≤ l := by
  have hnonneg := Int.emod_nonneg v (b := 2 ^ l) (by positivity)
  have hlt := Int.emod_lt_of_pos v (b := 2 ^ l) (by positivity)
  rw [bitLength_le_iff]
  zify
  rwa [Int.toNat_of_nonneg hnonneg]

lemma idxSub_of_le {a b : ℕ} (hab : b ≤ a) (ha : a < 2 ^ 64) : idxSub a b = a - b := by
  rw [idxSub]
  omega

/-- An operator that has room for the digits of `n` and writes them returns the text of `n`. -/
lemma emit_eq {w k n : ℕ} {char : ℕ → Char} {write : ℕ → Option Text} (hw : 0 < w)
    (hk : k = (bitLength n + (w - 1)) / w) (hmax : k ≤ maxStringSize)
    (hchar : ∀ d < 2 ^ w, char d = hexTable d)
    (hwrite : write k = some ((lowDigits (2 ^ w) k n).map char)) :
    emit k write = some (numeralText (2 ^ w) n) := by
  have hb : 1 < 2 ^ w := Nat.one_lt_two_pow hw.ne'
  rw [emit]
  rcases eq_or_ne n 0 with rfl | hn
  · have hzero : k = 0 := by
      rw [hk, bitLength_eq_zero.2 rfl, Nat.zero_add]
      exact Nat.div_eq_of_lt (by omega)
    rw [if_pos hzero, numeralText, numeral, if_pos rfl]
    rfl
  · have hpos : 0 < k := by
      rw [hk, ← length_digits_two_pow hw]
      exact List.length_pos_iff.2 (Nat.digits_ne_nil_iff_ne_zero.2 hn)
    rw [if_neg hpos.ne', if_neg (by omega), hwrite, hk, ← length_digits_two_pow hw,
      lowDigits_eq_numeral hb hn, numeralText]
    exact congrArg some (List.map_congr_left fun d hd => hchar d (numeral_lt hb d hd))

lemma numBitsToCheck_eq (v : ℤ) : numBitsToCheck v = bitLength (v % 2 ^ 64).toNat := by
  have hle := bitLength_toNat_le v 64
  rw [numBitsToCheck, countZeros, idxSub_of_le (by omega) (by norm_num)]
  omega

/-- The operators for one word. -/
lemma integralOperator_eq {w k : ℕ} {char : ℕ → Char} {v : ℤ} (hw : 0 < w)
    (hk : k = (numBitsToCheck v + (w - 1)) / w) (hchar : ∀ d < 2 ^ w, char d = hexTable d) :
    emit k (writeBytes w char (v % 2 ^ 64)) = some (numeralText (2 ^ w) (v % 2 ^ 64).toNat) := by
  have hle := bitLength_toNat_le v 64
  have hnonneg : 0 ≤ v % 2 ^ 64 := Int.emod_nonneg v (by positivity)
  rw [numBitsToCheck_eq] at hk
  have hmul : k * w ≤ bitLength (v % 2 ^ 64).toNat + (w - 1) := by
    rw [hk]
    exact Nat.div_mul_le_self _ w
  have hsize : k ≤ 64 := by
    rw [hk, Nat.div_le_iff_le_mul_add_pred hw]
    nlinarith
  refine emit_eq hw hk (hsize.trans (by decide)) hchar ?_
  have hwrite := writeBytes_eq hw char (k := k) (n := (v % 2 ^ 64).toNat) (by omega)
  rwa [Int.toNat_of_nonneg hnonneg] at hwrite

/-- The operators for two words whose digits do not cross the border. -/
lemma hugeIntOperator_eq {w m k : ℕ} {char : ℕ → Char} {v : ℤ} (hw : 0 < w) (hm : w * m = 64)
    (hk : k = (bitLength (v % 2 ^ 128).toNat + (w - 1)) / w)
    (hchar : ∀ d < 2 ^ w, char d = hexTable d) :
    emit k (writeHugeIntBytes w char v) = some (numeralText (2 ^ w) (v % 2 ^ 128).toNat) := by
  have hle := bitLength_toNat_le v 128
  have hsize : k ≤ 2 * m := by
    rw [hk, ← Nat.lt_succ_iff, Nat.div_lt_iff_lt_mul hw, Nat.succ_mul, Nat.mul_assoc,
      Nat.mul_comm m w, hm]
    omega
  have hm' : m ≤ 64 := Nat.le_of_dvd (by norm_num) ⟨w, by rw [Nat.mul_comm, hm]⟩
  have hmax : k ≤ maxStringSize := (show k ≤ 128 by omega).trans (by decide)
  exact emit_eq hw hk hmax hchar (writeHugeIntBytes_eq hw hm hsize)

/-- The number of hexadecimal digits, as the operators for 128 bits compute it. -/
lemma hexBufferSize_eq (v : ℤ) :
    idxSub (sizeofHugeint * 2) (countZeros 128 v / 4) =
      (bitLength (v % 2 ^ 128).toNat + (4 - 1)) / 4 := by
  have hle := bitLength_toNat_le v 128
  rw [countZeros, sizeofHugeint, idxSub_of_le (by omega) (by norm_num)]
  omega

lemma binBufferSize_eq (v : ℤ) :
    idxSub (sizeofHugeint * 8) (countZeros 128 v) =
      (bitLength (v % 2 ^ 128).toNat + (1 - 1)) / 1 := by
  have hle := bitLength_toNat_le v 128
  rw [countZeros, sizeofHugeint, idxSub_of_le (by omega) (by norm_num)]
  omega

/-- Except for `oct` of 128 bits, the operators return the numeral of the argument as an unsigned
number, and all shifts are defined.  It has no leading zeros and is read as that number. -/
theorem hex_oct_bin_eq_numeralText (v : ℤ) :
    hexIntegralOperator v = some (numeralText 16 (v % 2 ^ 64).toNat) ∧
    octIntegralOperator v = some (numeralText 8 (v % 2 ^ 64).toNat) ∧
    binaryIntegralOperator v = some (numeralText 2 (v % 2 ^ 64).toNat) ∧
    hexHugeIntOperator v = some (numeralText 16 (v % 2 ^ 128).toNat) ∧
    hexUhugeIntOperator v = some (numeralText 16 (v % 2 ^ 128).toNat) ∧
    binaryHugeIntOperator v = some (numeralText 2 (v % 2 ^ 128).toNat) ∧
    binaryUhugeIntOperator v = some (numeralText 2 (v % 2 ^ 128).toNat) ∧
    ∀ b ∈ [16, 8, 2], numeralText b 0 = ['0'] ∧ ∀ n, readText b (numeralText b n) = some n ∧
      (n ≠ 0 → (numeralText b n).head? ≠ some '0') := by
  have hhex : hexHugeIntOperator v = some (numeralText 16 (v % 2 ^ 128).toNat) :=
    hugeIntOperator_eq (w := 4) (m := 16) (by norm_num) rfl (hexBufferSize_eq v) fun _ _ => rfl
  have hbin : binaryHugeIntOperator v = some (numeralText 2 (v % 2 ^ 128).toNat) :=
    hugeIntOperator_eq (w := 1) (m := 64) (by norm_num) rfl (binBufferSize_eq v) bitChar_eq
  refine ⟨?_, ?_, ?_, hhex, hhex, hbin, hbin, ?_⟩
  · exact integralOperator_eq (w := 4) (by norm_num) rfl fun _ _ => rfl
  · exact integralOperator_eq (w := 3) (by norm_num) rfl fun _ _ => rfl
  · exact integralOperator_eq (w := 1) (by norm_num) (by simp) bitChar_eq
  · intro b hb
    have hbounds : 1 < b ∧ b ≤ 16 := by
      simp only [List.mem_cons, List.not_mem_nil, or_false] at hb
      omega
    refine ⟨rfl, fun n => ⟨readText_numeralText hbounds.1 hbounds.2 n, fun hn hzero => ?_⟩⟩
    rw [numeralText, List.head?_map, Option.map_eq_some_iff] at hzero
    obtain ⟨d, hd, hchar⟩ := hzero
    have hlt := (numeral_lt hbounds.1 d (List.mem_of_head? hd)).trans_le hbounds.2
    obtain rfl : d = 0 := (by decide : ∀ d < 16, hexTable d = '0' → d = 0) d hlt hchar
    exact head?_numeral b hn hd

/-! ### `oct` of 128 bits -/

lemma length_of_mapM {α β : Type} {f : α → Option β} {l : List α} {r : List β}
    (h : l.mapM f = some r) : r.length = l.length := by
  induction l generalizing r with
  | nil => cases h; rfl
  | cons a l ih =>
      rw [List.mapM_cons] at h
      obtain ⟨b, -, h⟩ := Option.bind_eq_some_iff.1 h
      obtain ⟨t, ht, h⟩ := Option.bind_eq_some_iff.1 h
      cases h
      rw [List.length_cons, List.length_cons, ih ht]

lemma length_offsets_three (k m : ℕ) : (offsets 3 (3 * m + 3) (k * 3)).length = k - m := by
  rw [offsets_eq (by norm_num), List.length_reverse, List.length_map, List.length_range']

/-- The size has a term for the bits of all leading zeros, but counts only two for each byte of
the argument. -/
lemma octBufferSize_eq (v : ℤ) :
    octBufferSize v =
      if bitLength (v % 2 ^ 128).toNat < 94 then
        (2 ^ 64 + bitLength (v % 2 ^ 128).toNat - 94) / 3
      else (bitLength (v % 2 ^ 128).toNat - 94) / 3 := by
  have hle := bitLength_toNat_le v 128
  rw [octBufferSize, countZeros, sizeofHugeint, idxSub]
  split
  · congr 1
    omega
  · congr 1
    omega

/-- The writer prints as many digits as there is room for. -/
lemma length_writeHugeIntOctBytes {v : ℤ} {k : ℕ} {t : Text} (hk : 0 < k)
    (h : writeHugeIntOctBytes v k = some t) : t.length = k := by
  have hhigh := length_offsets_three k 22
  have hlow := length_offsets_three (min k 22 - 1) 0
  have hafter : offsetAfter 3 69 (k * 3) = min k 22 * 3 := offsetAfter_eq (by norm_num) (m := 22) k
  have hsub : idxSub (min k 22 * 3) 3 = (min k 22 - 1) * 3 := by
    rw [idxSub_of_le (by omega) (by omega), Nat.sub_mul]
  rw [writeHugeIntOctBytes] at h
  obtain ⟨high, hh, h⟩ := Option.bind_eq_some_iff.1 h
  obtain ⟨bit, -, h⟩ := Option.bind_eq_some_iff.1 h
  obtain ⟨low, hl, h⟩ := Option.bind_eq_some_iff.1 h
  cases h
  rw [hafter, hsub] at hl
  rw [List.length_append, List.length_cons, length_of_mapM hh, length_of_mapM hl, hhigh, hlow]
  omega

/-- With room for a digit that has bits of both words, the lower word is shifted by 66. -/
lemma writeHugeIntOctBytes_eq_none (v : ℤ) {k : ℕ} (hk : 22 ≤ k) :
    writeHugeIntOctBytes v k = none := by
  have hafter : offsetAfter 3 69 (k * 3) = min k 22 * 3 := offsetAfter_eq (by norm_num) (m := 22) k
  have hbit : bitField 1 (lower v) (offsetAfter 3 69 (k * 3)) = none := by
    rw [hafter, bitField, if_neg (by omega)]
  rw [writeHugeIntOctBytes]
  cases writeDigits 3 hexTable (upper v) 66 (offsets 3 69 (k * 3)) with
  | none => rfl
  | some high =>
      show (bitField 1 (lower v) (offsetAfter 3 69 (k * 3))).bind _ = none
      rw [hbit, Option.bind_none]

/-- The size underflows for an argument of less than 94 bits, and no string can be that long. -/
lemma octHugeIntOperator_eq_none {v : ℤ} (h : bitLength (v % 2 ^ 128).toNat < 94) :
    octHugeIntOperator v = none := by
  have hsize := octBufferSize_eq v
  rw [if_pos h] at hsize
  rw [octHugeIntOperator, emit, hsize, if_neg (by omega), if_pos (by rw [maxStringSize]; omega)]

lemma length_numeralText_eight {n : ℕ} (hn : n ≠ 0) :
    (numeralText 8 n).length = (bitLength n + 2) / 3 := by
  rw [numeralText, numeral, if_neg hn, List.length_map, List.length_reverse]
  exact length_digits_two_pow (w := 3) (by norm_num) _

lemma octHugeIntOperator_ne (v : ℤ) :
    octHugeIntOperator v ≠ some (numeralText 8 (v % 2 ^ 128).toNat) := by
  have hle := bitLength_toNat_le v 128
  have hsize := octBufferSize_eq v
  intro heq
  rcases Nat.lt_or_ge (bitLength (v % 2 ^ 128).toNat) 94 with hlt | hge
  · rw [octHugeIntOperator_eq_none hlt] at heq
    cases heq
  · -- The numeral has more digits than there is room for.
    have hn : (v % 2 ^ 128).toNat ≠ 0 := by
      intro hn
      rw [bitLength_eq_zero.2 hn] at hge
      omega
    have hlen := length_numeralText_eight hn
    rw [if_neg (by omega)] at hsize
    rw [octHugeIntOperator, emit] at heq
    split_ifs at heq with hzero
    · rw [← Option.some.inj heq, List.length_singleton] at hlen
      omega
    · rw [length_writeHugeIntOctBytes (Nat.pos_of_ne_zero hzero) heq] at hlen
      omega

/-- The octal operators for 128 bits are right for no argument.  Below 2^93 the size underflows
and no string can be made; from there on the text has not more than eleven digits instead of 32
or more.  With the right size the writer would make an undefined shift from 2^63 on; otherwise it
writes as many digits as there is room for. -/
theorem oct_of_huge_ne_numeralText (v : ℤ) :
    octHugeIntOperator v ≠ some (numeralText 8 (v % 2 ^ 128).toNat) ∧
    octUhugeIntOperator v ≠ some (numeralText 8 (v % 2 ^ 128).toNat) ∧
    ((v % 2 ^ 128).toNat < 2 ^ 93 → octHugeIntOperator v = none) ∧
    (2 ^ 63 ≤ (v % 2 ^ 128).toNat →
      writeHugeIntOctBytes v (numeralText 8 (v % 2 ^ 128).toNat).length = none) ∧
    ∀ k t, 0 < k → writeHugeIntOctBytes v k = some t → t.length = k := by
  have hne := octHugeIntOperator_ne v
  refine ⟨hne, hne, fun hlt => octHugeIntOperator_eq_none ?_,
    fun hge => writeHugeIntOctBytes_eq_none v ?_, fun _ _ => length_writeHugeIntOctBytes⟩
  · exact Nat.lt_succ_iff.2 (bitLength_le_iff.2 hlt)
  · have hbits : 63 < bitLength (v % 2 ^ 128).toNat := by
      rw [← Nat.not_le, bitLength_le_iff]
      omega
    rw [length_numeralText_eight (by omega)]
    omega

/-- `oct` of 0 and 8 fails, and that of the largest UHUGEINT has eleven digits instead of 43. -/
theorem oct_of_huge_is_wrong :
    octHugeIntOperator 0 = none ∧ octHugeIntOperator 8 = none ∧
      octUhugeIntOperator (2 ^ 128 - 1) = some "77777777777".toList := by
  decide +kernel

end DuckdbEngine.Compat
