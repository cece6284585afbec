/-
Positional notation.

A numeral is the list of the digits of a number, the most significant one first.  It has
no leading zero, except that the numeral of zero is `0`.  Numerals are read by Horner's
rule (`horner`, and `mixedRadix` where every digit has its own base) and written digit by
digit, each found by its position (`lowDigits`); with as many positions as there are
digits, what is written is the numeral (`lowDigits_eq_numeral`).
-/
import Mathlib.Data.List.GetD
import Mathlib.Data.Nat.Digits.Lemmas

namespace Positional

variable {b n : ℕ}

/-! ### Reading -/

/-- Horner's rule, from a number that has been read already. -/
def horner (b acc : ℕ) (ds : List ℕ) : ℕ := ds.foldl (fun a d => a * b + d) acc

@[simp] lemma horner_nil (b acc : ℕ) : horner b acc [] = acc := rfl

lemma horner_cons (b acc d : ℕ) (ds : List ℕ) :
    horner b acc (d :: ds) = horner b (acc * b + d) ds := rfl

lemma horner_append (b acc : ℕ) (ds es : List ℕ) :
    horner b acc (ds ++ es) = horner b (horner b acc ds) es :=
  List.foldl_append

/-- What has been read already stands in front of the digits. -/
lemma horner_eq (b acc : ℕ) (ds : List ℕ) :
    horner b acc ds = acc * b ^ ds.length + horner b 0 ds := by
  induction ds generalizing acc with
  | nil => simp
  | cons d ds ih =>
      rw [horner_cons, horner_cons, ih, ih (0 * b + d), List.length_cons, pow_succ]
      ring

lemma horner_reverse (b : ℕ) (ds : List ℕ) : horner b 0 ds.reverse = Nat.ofDigits b ds := by
  rw [horner, List.foldl_reverse, Nat.ofDigits_eq_foldr]
  simp only [Nat.cast_id, add_comm, mul_comm]

/-- Digits below the base stay below the power that their number gives. -/
lemma horner_lt (hb : 1 < b) {l : List ℕ} (hl : ∀ d ∈ l, d < b) :
    horner b 0 l < b ^ l.length := by
  have hlt := Nat.ofDigits_lt_base_pow_length hb (l := l.reverse) (by simpa using hl)
  rwa [← horner_reverse, List.reverse_reverse, List.length_reverse] at hlt

lemma horner_lt_mul {acc c : ℕ} (hb : 1 < b) {l : List ℕ} (hl : ∀ d ∈ l, d < b) (hacc : acc < c) :
    horner b acc l < c * b ^ l.length := by
  rw [horner_eq]
  calc acc * b ^ l.length + horner b 0 l
      < acc * b ^ l.length + b ^ l.length := Nat.add_lt_add_left (horner_lt hb hl) _
    _ = (acc + 1) * b ^ l.length := (Nat.succ_mul _ _).symm
    _ ≤ c * b ^ l.length := Nat.mul_le_mul_right _ hacc

/-! ### Mixed radix -/

/-- Horner's rule with a base of its own for every digit. -/
def mixedRadix (acc : ℕ) (ps : List (ℕ × ℕ)) : ℕ := ps.foldl (fun a p => a * p.1 + p.2) acc

@[simp] lemma mixedRadix_nil (acc : ℕ) : mixedRadix acc [] = acc := rfl

lemma mixedRadix_cons (acc : ℕ) (p : ℕ × ℕ) (ps : List (ℕ × ℕ)) :
    mixedRadix acc (p :: ps) = mixedRadix (acc * p.1 + p.2) ps := rfl

lemma mixedRadix_append (acc : ℕ) (ps qs : List (ℕ × ℕ)) :
    mixedRadix acc (ps ++ qs) = mixedRadix (mixedRadix acc ps) qs :=
  List.foldl_append

lemma mixedRadix_map (b acc : ℕ) (ds : List ℕ) :
    mixedRadix acc (ds.map fun d => (b, d)) = horner b acc ds :=
  List.foldl_map

/-- What has been read never decreases, so no number on the way is larger than the last one. -/
lemma le_mixedRadix {ps : List (ℕ × ℕ)} (h : ∀ p ∈ ps, 0 < p.1) (acc : ℕ) :
    acc ≤ mixedRadix acc ps := by
  induction ps generalizing acc with
  | nil => exact le_rfl
  | cons p ps ih =>
      rw [List.forall_mem_cons] at h
      calc acc ≤ acc * p.1 + p.2 := Nat.le_add_right_of_le (Nat.le_mul_of_pos_right acc h.1)
        _ ≤ mixedRadix acc (p :: ps) := ih h.2 _

/-! ### Numerals -/

def numeral (b n : ℕ) : List ℕ := if n = 0 then [0] else (Nat.digits b n).reverse

/-- A numeral is read as the number. -/
theorem horner_numeral (b n : ℕ) : horner b 0 (numeral b n) = n := by
  rw [numeral]
  split
  · next hn => rw [hn, horner_cons, horner_nil, zero_mul]
  · rw [horner_reverse, Nat.ofDigits_digits]

lemma numeral_lt (hb : 1 < b) : ∀ d ∈ numeral b n, d < b := by
  intro d hd
  rw [numeral] at hd
  split at hd
  · obtain rfl := List.mem_singleton.1 hd
    omega
  · exact Nat.digits_lt_base hb (List.mem_reverse.1 hd)

/-- There is no leading zero. -/
theorem head?_numeral (b : ℕ) (hn : n ≠ 0) : (numeral b n).head? ≠ some 0 := by
  rw [numeral, if_neg hn, List.head?_reverse,
    List.getLast?_eq_some_getLast (Nat.digits_ne_nil_iff_ne_zero.2 hn)]
  intro h
  exact Nat.getLast_digit_ne_zero b hn (Option.some.inj h)

/-- The digits behind a number that is not zero add to its digits. -/
lemma length_digits_mul_add {g h m : ℕ} (hb : 1 < b) (hg : g ≠ 0) (hh : h < b ^ m) :
    (Nat.digits b (g * b ^ m + h)).length = (Nat.digits b g).length + m := by
  have hpos : 0 < b ^ m := Nat.pow_pos (by omega)
  refine eq_of_forall_ge_iff fun k => ?_
  rw [Nat.digits_length_le_iff hb]
  rcases Nat.lt_or_ge k m with hlt | hge
  · refine iff_of_false (fun hsmall => ?_) (by omega)
    have hle : b ^ m ≤ g * b ^ m := Nat.le_mul_of_pos_left _ (Nat.pos_of_ne_zero hg)
    have hpow : b ^ k < b ^ m := Nat.pow_lt_pow_right hb hlt
    omega
  · obtain ⟨j, rfl⟩ := Nat.exists_eq_add_of_le' hge
    have hdiv : (g * b ^ m + h) / b ^ m = g := by
      rw [Nat.add_comm, Nat.add_mul_div_right _ _ hpos, Nat.div_eq_of_lt hh, Nat.zero_add]
    rw [pow_add, ← Nat.div_lt_iff_lt_mul hpos, hdiv, ← Nat.digits_length_le_iff hb]
    omega

/-! ### Writing -/

/-- The digits at the lowest `k` positions. -/
def lowDigits (b k n : ℕ) : List ℕ := (List.range k).reverse.map fun i => n / b ^ i % b

@[simp] lemma length_lowDigits (b k n : ℕ) : (lowDigits b k n).length = k := by
  rw [lowDigits, List.length_map, List.length_reverse, List.length_range]

theorem lowDigits_eq_numeral (hb : 1 < b) (hn : n ≠ 0) :
    lowDigits b (Nat.digits b n).length n = numeral b n := by
  rw [lowDigits, numeral, if_neg hn, List.map_reverse]
  congr 1
  refine List.ext_getElem (by simp) fun i hi hi' => ?_
  rw [List.getElem_map, List.getElem_range, ← Nat.getD_digits n i hb,
    List.getD_eq_getElem _ 0 hi']

/-! ### Bits -/

def bitLength (n : ℕ) : ℕ := if n = 0 then 0 else n.log2 + 1

lemma bitLength_le_iff {k : ℕ} : bitLength n ≤ k ↔ n < 2 ^ k := by
  rw [bitLength]
  split
  · next hn => simp [hn]
  · next hn => rw [← Nat.log2_lt hn, Nat.succ_le_iff]

lemma bitLength_eq_zero : bitLength n = 0 ↔ n = 0 := by
  rw [← Nat.le_zero, bitLength_le_iff, pow_zero, Nat.lt_one_iff]

/-- How many digits of `w` bits there are. -/
theorem length_digits_two_pow {w : ℕ} (hw : 0 < w) (n : ℕ) :
    (Nat.digits (2 ^ w) n).length = (bitLength n + (w - 1)) / w := by
  refine eq_of_forall_ge_iff fun k => ?_
  rw [Nat.digits_length_le_iff (Nat.one_lt_two_pow hw.ne'), ← pow_mul, ← bitLength_le_iff,
    ← Nat.lt_succ_iff (n := k), Nat.div_lt_iff_lt_mul hw, Nat.succ_mul, mul_comm w k]
  omega

end Positional
