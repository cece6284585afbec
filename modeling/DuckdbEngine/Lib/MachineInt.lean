/-
Signed integers of the machine.

A calculation of C in a signed type is defined only if its result fits: `signed w` keeps a
number that a type of `w` bits can hold and has no result for any other one.  A number that
is read digit by digit fits on the way if it fits in the end (`hornerSigned_eq`), and `atoi`
reads a decimal number with any number of leading zeros (`atoi_digits`).
-/
import DuckdbEngine.Lib.Positional

namespace MachineInt

open Positional

/-! ### Results that fit -/

section

variable {w n : ℕ} {z : ℤ}

def signed (w : ℕ) (z : ℤ) : Option ℤ :=
  if -2 ^ (w - 1) ≤ z ∧ z < 2 ^ (w - 1) then some z else none

lemma signed_of_fits (h : -2 ^ (w - 1) ≤ z ∧ z < 2 ^ (w - 1)) : signed w z = some z := if_pos h

lemma signed_natCast (w n : ℕ) :
    signed w n = if n < 2 ^ (w - 1) then some (n : ℤ) else none := by
  have hlow : -2 ^ (w - 1) ≤ (n : ℤ) := by
    have hpow : (0 : ℤ) ≤ 2 ^ (w - 1) := pow_nonneg (by decide) _
    omega
  refine if_congr ?_ rfl rfl
  rw [and_iff_right hlow]
  exact_mod_cast Iff.rfl

end

/-! ### Horner's rule -/

section

variable (w b : ℕ)

/-- `a * b + d`, both operations checked. -/
def mulAdd (a : ℤ) (d : ℕ) : Option ℤ := do
  let p ← signed w (a * b)
  signed w (p + d)

def hornerSigned (acc : ℤ) (ds : List ℕ) : Option ℤ := ds.foldlM (mulAdd w b) acc

lemma mulAdd_natCast (a d : ℕ) : mulAdd w b a d = signed w (a * b + d : ℕ) := by
  have hprod : signed w ((a : ℤ) * b) = signed w (a * b : ℕ) := by rw [Nat.cast_mul]
  rw [mulAdd, hprod, signed_natCast, signed_natCast]
  split
  · next hfits =>
      rw [Option.bind_eq_bind, Option.bind_some, ← Nat.cast_add, signed_natCast]
  · next hover => rw [if_neg (by omega), Option.bind_eq_bind, Option.bind_none]

variable {b}

/-- By induction on the digits: what has been read is at most the number in the end. -/
theorem hornerSigned_eq (hb : 0 < b) {acc : ℕ} (hacc : acc < 2 ^ (w - 1)) (ds : List ℕ) :
    hornerSigned w b acc ds = signed w (horner b acc ds) := by
  induction ds generalizing acc with
  | nil =>
      rw [signed_natCast]
      exact (if_pos hacc).symm
  | cons d ds ih =>
      rw [hornerSigned, List.foldlM_cons, mulAdd_natCast, signed_natCast, horner_cons]
      split
      · next hfits => exact ih hfits
      · next hover =>
          have hle : acc * b + d ≤ horner b (acc * b + d) ds := by
            rw [horner_eq]
            exact Nat.le_add_right_of_le (Nat.le_mul_of_pos_right _ (Nat.pow_pos hb))
          rw [signed_natCast, if_neg (by omega)]
          rfl

end

/-! ### Decimal digits -/

section

variable {s : List Char}

def digitVal (c : Char) : ℕ := c.toNat - '0'.toNat

/-- The number that the digits denote. -/
def decimal (s : List Char) : ℕ := horner 10 0 (s.map digitVal)

lemma decimal_append (s t : List Char) :
    decimal (s ++ t) = decimal s * 10 ^ t.length + decimal t := by
  rw [decimal, List.map_append, horner_append, horner_eq, List.length_map]
  rfl

lemma decimal_replicate_zero (k : ℕ) : decimal (List.replicate k '0') = 0 := by
  induction k with
  | zero => rfl
  | succ k ih => exact ih

lemma toNat_of_isDigit {c : Char} (h : c.isDigit = true) : 48 ≤ c.toNat ∧ c.toNat ≤ 57 := by
  rw [Char.isDigit, Bool.and_eq_true] at h
  exact ⟨UInt32.le_iff_toNat_le.1 (of_decide_eq_true h.1),
    UInt32.le_iff_toNat_le.1 (of_decide_eq_true h.2)⟩

lemma digitVal_lt {c : Char} (h : c.isDigit = true) : digitVal c < 10 := by
  have hbounds := toNat_of_isDigit h
  show c.toNat - 48 < 10
  omega

lemma decimal_lt (hs : ∀ c ∈ s, c.isDigit = true) : decimal s < 10 ^ s.length := by
  have hlt : horner 10 0 (s.map digitVal) < 10 ^ (s.map digitVal).length := by
    refine horner_lt (by decide) fun d hd => ?_
    obtain ⟨c, hc, rfl⟩ := List.mem_map.1 hd
    exact digitVal_lt (hs c hc)
  rwa [List.length_map] at hlt

/-- `isspace` -/
def isSpace (c : Char) : Bool := c = ' ' || (9 ≤ c.toNat && c.toNat ≤ 13)

/-- The sign is optional. -/
def splitSign (s : List Char) : Bool × List Char :=
  if s.head? = some '-' then (true, s.tail)
  else if s.head? = some '+' then (false, s.tail)
  else (false, s)

/-- An `int` has 32 bits. -/
def atoi (s : List Char) : Option ℤ :=
  let (neg, s) := splitSign (s.dropWhile isSpace)
  let n : ℤ := decimal (s.takeWhile Char.isDigit)
  signed 32 (if neg then -n else n)

lemma splitSign_digits (hs : ∀ c ∈ s, c.isDigit = true) :
    splitSign (s.dropWhile isSpace) = (false, s) := by
  cases s with
  | nil => rfl
  | cons c s =>
      have hdigit := hs c List.mem_cons_self
      have hbounds := toNat_of_isDigit hdigit
      have hne (x : Char) (hx : x.isDigit = false) : ¬c = x := by
        rintro rfl
        exact Bool.false_ne_true (hx.symm.trans hdigit)
      have hspace : isSpace c = false := by
        rw [isSpace, Bool.or_eq_false_iff, Bool.and_eq_false_iff]
        exact ⟨decide_eq_false (hne ' ' rfl), Or.inr (decide_eq_false (by omega))⟩
      rw [List.dropWhile_cons_of_neg (by rw [hspace]; exact Bool.false_ne_true), splitSign,
        List.head?_cons, if_neg fun h => hne '-' rfl (Option.some.inj h),
        if_neg fun h => hne '+' rfl (Option.some.inj h)]

lemma atoi_digits (hs : ∀ c ∈ s, c.isDigit = true) (hfits : decimal s < 2 ^ 31) :
    atoi s = some (decimal s : ℤ) := by
  have htake : s.takeWhile Char.isDigit = s := by
    rw [← List.append_nil s, List.takeWhile_append_of_pos hs, List.takeWhile_nil]
  rw [atoi, splitSign_digits hs]
  dsimp only
  rw [htake, if_neg Bool.false_ne_true, signed_natCast, if_pos hfits]

end

end MachineInt
