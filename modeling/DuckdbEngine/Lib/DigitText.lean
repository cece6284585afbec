/-
Digits in a text.

A number is written with a fixed number of digits (`padded`) or as its numeral (`written`), and
a run of digits is read by Horner's rule (`value`).  A reader takes such a run, of a bounded
length, from the front of a text (`number`).  A fraction may be written without its last zeros,
since its reader counts the digits (`fraction`).
-/
import Mathlib.Data.List.TakeWhile
import DuckdbEngine.Lib.Positional

namespace DigitText

open Positional

/-! ### Digits -/

def digit (d : ℕ) : Char := Char.ofNat (48 + d)

/-- The number that a run of digits stands for. -/
def value (s : List Char) : ℕ := horner 10 0 (s.map fun c => c.toNat - 48)

lemma toNat_digit {d : ℕ} (hd : d < 10) : (digit d).toNat = 48 + d := by
  interval_cases d <;> rfl

lemma isDigit_digit {d : ℕ} (hd : d < 10) : (digit d).isDigit = true := by
  interval_cases d <;> rfl

lemma value_map_digit {ds : List ℕ} (h : ∀ d ∈ ds, d < 10) :
    value (ds.map digit) = horner 10 0 ds := by
  have hmap : (ds.map digit).map (fun c => c.toNat - 48) = ds := by
    rw [List.map_map]
    conv_rhs => rw [← List.map_id ds]
    refine List.map_congr_left fun d hd => ?_
    rw [Function.comp_apply, toNat_digit (h d hd), Nat.add_sub_cancel_left, id]
  rw [value, hmap]

lemma value_append_zeros (s : List Char) (k : ℕ) :
    value (s ++ List.replicate k '0') = value s * 10 ^ k := by
  induction k with
  | zero => simp
  | succ k ih =>
      have hsplit : s ++ List.replicate (k + 1) '0' = (s ++ List.replicate k '0') ++ ['0'] := by
        rw [List.replicate_succ', List.append_assoc]
      have hlast : value ((s ++ List.replicate k '0') ++ ['0']) =
          value (s ++ List.replicate k '0') * 10 := by
        rw [value, List.map_append, horner_append]
        rfl
      rw [hsplit, hlast, ih, pow_succ, Nat.mul_assoc]

/-! ### Writing -/

/-- The last `w` digits of a number. -/
def padded (w n : ℕ) : List Char := (lowDigits 10 w n).map digit

/-- The numeral of a number. -/
def written (n : ℕ) : List Char := (numeral 10 n).map digit

@[simp] lemma length_padded (w n : ℕ) : (padded w n).length = w := by
  rw [padded, List.length_map, length_lowDigits]

lemma lowDigits_lt {w n : ℕ} : ∀ d ∈ lowDigits 10 w n, d < 10 := by
  intro d hd
  obtain ⟨i, -, rfl⟩ := List.mem_map.1 hd
  exact Nat.mod_lt _ (by norm_num)

lemma isDigit_padded {w n : ℕ} : ∀ c ∈ padded w n, c.isDigit = true := by
  intro c hc
  obtain ⟨d, hd, rfl⟩ := List.mem_map.1 hc
  exact isDigit_digit (lowDigits_lt d hd)

lemma isDigit_written {n : ℕ} : ∀ c ∈ written n, c.isDigit = true := by
  intro c hc
  obtain ⟨d, hd, rfl⟩ := List.mem_map.1 hc
  exact isDigit_digit (numeral_lt (by norm_num) d hd)

/-- Fixed digits are read as the number modulo the power that they reach up to. -/
lemma value_padded (w n : ℕ) : value (padded w n) = n % 10 ^ w := by
  rw [padded, value_map_digit lowDigits_lt]
  induction w with
  | zero => rw [pow_zero, Nat.mod_one]; rfl
  | succ w ih =>
      have hcons : lowDigits 10 (w + 1) n = n / 10 ^ w % 10 :: lowDigits 10 w n := by
        rw [lowDigits, List.range_succ, List.reverse_append]
        rfl
      rw [hcons, horner_cons, horner_eq, ih, length_lowDigits, zero_mul, zero_add, pow_succ,
        Nat.mod_mul, Nat.add_comm, Nat.mul_comm]

lemma value_written (n : ℕ) : value (written n) = n := by
  rw [written, value_map_digit (numeral_lt (by norm_num)), horner_numeral]

/-! ### Reading -/

/-- A run of at most `m` digits at the front of the text, with the rest. -/
def number (m : ℕ) (s : List Char) : Option (ℕ × List Char) :=
  let ds := (s.take m).takeWhile Char.isDigit
  if ds.isEmpty then none else some (value ds, s.drop ds.length)

/-- A run of digits ends at the bound or at another character. -/
lemma takeWhile_take_append {m : ℕ} {ds rest : List Char} (hds : ∀ c ∈ ds, c.isDigit = true)
    (hm : ds.length ≤ m) (hend : ds.length = m ∨ ∀ c ∈ rest.head?, c.isDigit = false) :
    ((ds ++ rest).take m).takeWhile Char.isDigit = ds := by
  rw [List.take_append, List.take_of_length_le hm, List.takeWhile_append_of_pos hds]
  rcases hend with hlen | hstop
  · rw [hlen, Nat.sub_self, List.take_zero, List.takeWhile_nil, List.append_nil]
  · cases rest with
    | nil => rw [List.take_nil, List.takeWhile_nil, List.append_nil]
    | cons c rest =>
        have hc : ¬c.isDigit = true := by
          rw [hstop c rfl]
          exact Bool.false_ne_true
        cases m - ds.length with
        | zero => rw [List.take_zero, List.takeWhile_nil, List.append_nil]
        | succ k => rw [List.take_succ_cons, List.takeWhile_cons_of_neg hc, List.append_nil]

lemma number_append {m : ℕ} {ds rest : List Char} (hne : ds ≠ [])
    (hds : ∀ c ∈ ds, c.isDigit = true) (hm : ds.length ≤ m)
    (hend : ds.length = m ∨ ∀ c ∈ rest.head?, c.isDigit = false) :
    number m (ds ++ rest) = some (value ds, rest) := by
  rw [number, takeWhile_take_append hds hm hend, if_neg (by rwa [List.isEmpty_iff]), List.drop_left]

/-- Fixed digits in front of anything. -/
lemma number_padded {m n : ℕ} (hm : 0 < m) (hn : n < 10 ^ m) (rest : List Char) :
    number m (padded m n ++ rest) = some (n, rest) := by
  have hne : padded m n ≠ [] := by
    intro hnil
    have hlen := congrArg List.length hnil
    rw [length_padded, List.length_nil] at hlen
    omega
  rw [number_append hne isDigit_padded (length_padded m n).le (Or.inl (length_padded m n)),
    value_padded, Nat.mod_eq_of_lt hn]

/-! ### Fractions -/

/-- The text without the zeros at its end. -/
def trimZeros (s : List Char) : List Char := (s.reverse.dropWhile (· = '0')).reverse

/-- The number of units of which `10 ^ k` make one, from the digits of a fraction. -/
def fraction (k : ℕ) (ds : List Char) : ℕ := value ds * 10 ^ (k - ds.length)

lemma trimZeros_append (s : List Char) :
    s = trimZeros s ++ List.replicate (s.length - (trimZeros s).length) '0' := by
  have hsplit : s.reverse = s.reverse.takeWhile (· = '0') ++ s.reverse.dropWhile (· = '0') :=
    (List.takeWhile_append_dropWhile).symm
  have hzeros : s.reverse.takeWhile (· = '0') =
      List.replicate (s.reverse.takeWhile (· = '0')).length '0' := by
    rw [List.eq_replicate_iff]
    exact ⟨rfl, fun c hc => by simpa using List.mem_takeWhile_imp hc⟩
  have hs : s = trimZeros s ++ List.replicate (s.reverse.takeWhile (· = '0')).length '0' := by
    have hrev := congrArg List.reverse hsplit
    rwa [List.reverse_reverse, List.reverse_append, hzeros, List.reverse_replicate] at hrev
  have hlen := congrArg List.length hs
  rw [List.length_append, List.length_replicate] at hlen
  rw [show s.length - (trimZeros s).length = (s.reverse.takeWhile (· = '0')).length by omega]
  exact hs

lemma isDigit_trimZeros {s : List Char} (h : ∀ c ∈ s, c.isDigit = true) :
    ∀ c ∈ trimZeros s, c.isDigit = true := by
  intro c hc
  refine h c ?_
  rw [trimZeros_append s]
  exact List.mem_append_left _ hc

lemma length_trimZeros_le (s : List Char) : (trimZeros s).length ≤ s.length := by
  have hlen := congrArg List.length (trimZeros_append s)
  rw [List.length_append] at hlen
  omega

/-- The zeros at the end of a fraction say nothing. -/
lemma fraction_trimZeros (s : List Char) : fraction s.length (trimZeros s) = value s := by
  conv_rhs => rw [trimZeros_append s]
  rw [value_append_zeros, fraction]

end DigitText
