/-
DECIMAL values of the appender.

MariaDB keeps the digits of a decimal number in groups of nine, those before the point and
those behind it apart: the first group has only the digits that are left over, and the last
one is filled up with zeros.  The appender turns it into an integer, the number without its
point, in the smallest type that DuckDB uses for the precision.  The groups are read by
Horner's rule; a negative number is built up from negative numbers.

The arithmetic is checked: a result that does not fit its type, or an access behind the end
of an array, gives no result (`none`).
-/
import Mathlib.Algebra.Order.Field.Rat
import Mathlib.Data.Nat.Cast.Field
import Mathlib.Tactic.FieldSimp
import DuckdbEngine.Lib.Positional
import DuckdbEngine.Lib.WhileLoop

namespace DuckdbEngine

open Positional

/-! ### Decimal numbers -/

def digPerDec1 : ℕ := 9
def digBase : ℕ := 1000000000
def roundUp (x : ℕ) : ℕ := (x + digPerDec1 - 1) / digPerDec1

/-- The table has the powers up to the ninth. -/
def powers10 (n : ℕ) : Option ℕ := if n ≤ digPerDec1 then some (10 ^ n) else none

/-- `my_decimal`.  The buffer has the groups before the point and then those behind it. -/
structure MyDecimal where
  sign : Bool
  intg : ℕ
  frac : ℕ
  intGroups : List ℕ
  fracGroups : List ℕ
  intGroups_length : intGroups.length = roundUp intg
  fracGroups_length : fracGroups.length = roundUp frac
  group_lt : ∀ g ∈ intGroups ++ fracGroups, g < digBase
  lead_lt : ∀ g ∈ intGroups.head?, g < 10 ^ ((intg - 1) % 9 + 1)
  fill_dvd : ∀ g ∈ fracGroups.getLast?, 10 ^ (9 * roundUp frac - frac) ∣ g

namespace MyDecimal

variable (d : MyDecimal)

def buf : List ℕ := d.intGroups ++ d.fracGroups

/-- The integer part without the sign. -/
def intPart : ℕ := horner digBase 0 d.intGroups

/-- The number. -/
def value : ℚ :=
  (if d.sign then -1 else 1) * (horner digBase 0 d.buf / 10 ^ (9 * d.fracGroups.length))

end MyDecimal

/-! ### The conversion -/

/-- The integer types of DuckDB's decimals. -/
inductive DecimalInt where
  | int16 | int32 | int64 | hugeint
deriving DecidableEq

namespace DecimalInt

def width : DecimalInt → ℕ
  | int16 => 16
  | int32 => 32
  | int64 => 64
  | hugeint => 128

/-- A number that the type has. -/
def check (T : DecimalInt) (x : ℤ) : Option ℤ :=
  if -2 ^ (T.width - 1) ≤ x ∧ x < 2 ^ (T.width - 1) then some x else none

/-- `res *= factor; update_res(digit)` -/
def accumulate (T : DecimalInt) (sign : Bool) (res : ℤ) (factor digit : ℕ) : Option ℤ := do
  let res ← T.check (res * factor)
  T.check (if sign then res - digit else res + digit)

end DecimalInt

section conversion

variable (T : DecimalInt) (sign : Bool)

/-- The loop over the groups before the point; returns the rest of the buffer, too. -/
def readIntg : ℕ → List ℕ → ℤ → Option (ℤ × List ℕ)
  | 0, buf, res => some (res, buf)
  | _ + 1, [], _ => none
  | intg + 1, g :: buf, res => do
      let res ← T.accumulate sign res digBase g
      readIntg (intg + 1 - digPerDec1) buf res

/-- The loop over the full groups behind the point; returns the number of digits that are left and
the rest of the buffer, too. -/
def readFrac (frac : ℕ) (buf : List ℕ) (res : ℤ) : Option (ℤ × ℕ × List ℕ) :=
  if frac < digPerDec1 then some (res, frac, buf)
  else
    match buf with
    | [] => none
    | g :: buf => do
        let res ← T.accumulate sign res digBase g
        readFrac (frac - digPerDec1) buf res

/-- The digits of the last group, if it is not full. -/
def readTail (frac : ℕ) (buf : List ℕ) (res : ℤ) : Option ℤ :=
  if frac = 0 then some res
  else do
    let factor ← powers10 frac
    let divisor ← powers10 (digPerDec1 - frac)
    let g ← buf.head?
    T.accumulate sign res factor (g / divisor)

def getDuckdbDecimal (d : MyDecimal) (fixedDecimal : ℕ) : Option ℤ := do
  let (res, buf) ← readIntg T d.sign d.intg d.buf 0
  let (res, frac, buf) ← readFrac T d.sign d.frac buf res
  let res ← readTail T d.sign frac buf res
  if fixedDecimal - d.frac = 0 then return res
  let factor ← powers10 (fixedDecimal - d.frac)
  T.check (res * factor)

end conversion

/-- The loop that counts the digits of a group. -/
def countDigits (temp : ℕ) : ℕ :=
  (WhileLoop.rounds (fun t => if 0 < t then some () else none) (fun t _ => t / 10) temp temp).length

/-- The groups that are zero are skipped, the digits of the next one are counted. -/
def significantDigits (groups : List ℕ) : ℕ :=
  match groups.dropWhile (· = 0) with
  | [] => 0
  | g :: rest => countDigits g + rest.length * digPerDec1

def myDecimalActualIntg (d : MyDecimal) : ℕ :=
  if d.intg = 0 then 0 else significantDigits (d.buf.take (roundUp d.intg))

/-! ### The appender -/

/-- What is appended for a DECIMAL field. -/
inductive AppendedDecimal where
  | decimal (T : DecimalInt) (value : ℤ) (width scale : ℕ)
  /-- The value as a double. -/
  | double
  /-- `HA_DUCKDB_APPEND_ERROR` -/
  | appendError
deriving DecidableEq

/-- The type for a precision up to 38. -/
def decimalIntOf (precision : ℕ) : DecimalInt :=
  if precision ≤ 4 then .int16
  else if precision ≤ 9 then .int32
  else if precision ≤ 18 then .int64
  else .hugeint

/-- The case NEWDECIMAL of `append_mysql_field`. -/
def appendDecimal (useDoubleForDecimal : Bool) (precision dec : ℕ) (d : MyDecimal) :
    Option AppendedDecimal :=
  if precision ≤ 38 then
    if precision < d.intg + d.frac ∨ dec < d.frac then some .appendError
    else
      (getDuckdbDecimal (decimalIntOf precision) d dec).map fun x =>
        .decimal (decimalIntOf precision) x precision dec
  else if useDoubleForDecimal then some .double
  else if 38 < myDecimalActualIntg d + dec then some .appendError
  else (getDuckdbDecimal .hugeint d dec).map fun x => .decimal .hugeint x 38 dec

/-! ### The loops -/

/-- The number with the sign. -/
def signed (sign : Bool) (n : ℕ) : ℤ := if sign then -n else n

section loops

variable {T : DecimalInt} {sign : Bool}

lemma DecimalInt.check_signed {n : ℕ} (h : n < 2 ^ (T.width - 1)) :
    T.check (signed sign n) = some (signed sign n) := by
  have hlt : (n : ℤ) < 2 ^ (T.width - 1) := by exact_mod_cast h
  refine if_pos ?_
  rw [signed]
  split <;> omega

lemma DecimalInt.accumulate_signed {acc factor digit : ℕ}
    (h : acc * factor + digit < 2 ^ (T.width - 1)) :
    T.accumulate sign (signed sign acc) factor digit =
      some (signed sign (acc * factor + digit)) := by
  have hmul : signed sign acc * factor = signed sign (acc * factor) := by
    cases sign <;> simp [signed]
  have hadd : (if sign then signed sign (acc * factor) - digit
      else signed sign (acc * factor) + digit) = signed sign (acc * factor + digit) := by
    cases sign
    · simp [signed]
    · simp [signed]
      ring
  rw [accumulate, hmul, check_signed (by omega), Option.bind_eq_bind, Option.bind_some, hadd,
    check_signed h]

/-- All factors and digits in turn. -/
def accumulateAll (T : DecimalInt) (sign : Bool) (res : ℤ) (ps : List (ℕ × ℕ)) : Option ℤ :=
  ps.foldlM (fun res p => T.accumulate sign res p.1 p.2) res

lemma accumulateAll_cons (res : ℤ) (p : ℕ × ℕ) (ps : List (ℕ × ℕ)) :
    accumulateAll T sign res (p :: ps) =
      (T.accumulate sign res p.1 p.2).bind fun res => accumulateAll T sign res ps :=
  List.foldlM_cons ..

lemma accumulateAll_append (res : ℤ) (ps qs : List (ℕ × ℕ)) :
    accumulateAll T sign res (ps ++ qs) =
      (accumulateAll T sign res ps).bind fun res => accumulateAll T sign res qs :=
  List.foldlM_append ..

/-- If the last number fits the type, then all numbers on the way do. -/
lemma accumulateAll_signed {ps : List (ℕ × ℕ)} (hps : ∀ p ∈ ps, 0 < p.1) {acc : ℕ}
    (h : mixedRadix acc ps < 2 ^ (T.width - 1)) :
    accumulateAll T sign (signed sign acc) ps = some (signed sign (mixedRadix acc ps)) := by
  induction ps generalizing acc with
  | nil => rfl
  | cons p ps ih =>
      rw [List.forall_mem_cons] at hps
      rw [mixedRadix_cons] at h ⊢
      have hle := le_mixedRadix hps.2 (acc * p.1 + p.2)
      rw [accumulateAll_cons, DecimalInt.accumulate_signed (by omega), Option.bind_some,
        ih hps.2 h]

/-- The groups with their factor. -/
def fullGroups (gs : List ℕ) : List (ℕ × ℕ) := gs.map fun g => (digBase, g)

lemma readIntg_eq {gs : List ℕ} {intg : ℕ} (hlen : gs.length = roundUp intg) (rest : List ℕ)
    (res : ℤ) :
    readIntg T sign intg (gs ++ rest) res =
      (accumulateAll T sign res (fullGroups gs)).map fun res => (res, rest) := by
  induction gs generalizing intg res with
  | nil =>
      obtain rfl : intg = 0 := by
        rw [List.length_nil, roundUp, digPerDec1] at hlen
        omega
      rw [readIntg]
      rfl
  | cons g gs ih =>
      obtain ⟨intg, rfl⟩ : ∃ k, intg = k + 1 := by
        refine Nat.exists_eq_succ_of_ne_zero ?_
        rintro rfl
        cases hlen
      have hlen' : gs.length = roundUp (intg + 1 - digPerDec1) := by
        rw [List.length_cons, roundUp, digPerDec1] at hlen
        rw [roundUp, digPerDec1]
        omega
      rw [List.cons_append, readIntg, fullGroups, List.map_cons, accumulateAll_cons]
      cases T.accumulate sign res digBase g with
      | none => rfl
      | some res => exact ih hlen' res

lemma readFrac_eq {gs : List ℕ} {frac : ℕ} (hlen : gs.length = frac / 9) (rest : List ℕ)
    (res : ℤ) :
    readFrac T sign frac (gs ++ rest) res =
      (accumulateAll T sign res (fullGroups gs)).map fun res => (res, frac % 9, rest) := by
  induction gs generalizing frac res with
  | nil =>
      rw [List.length_nil] at hlen
      rw [readFrac.eq_def, digPerDec1, if_pos (by omega), Nat.mod_eq_of_lt (by omega)]
      rfl
  | cons g gs ih =>
      rw [List.length_cons] at hlen
      have hlen' : gs.length = (frac - 9) / 9 := by omega
      have hmod : (frac - 9) % 9 = frac % 9 := by omega
      rw [List.cons_append, readFrac.eq_def, digPerDec1, if_neg (by omega), fullGroups,
        List.map_cons, accumulateAll_cons]
      dsimp only
      cases T.accumulate sign res digBase g with
      | none => rfl
      | some res =>
          rw [← hmod]
          exact ih hlen' res

/-- The digits of a group that is not full. -/
def tailGroups (frac : ℕ) (gs : List ℕ) : List (ℕ × ℕ) :=
  if frac = 0 then [] else gs.map fun g => (10 ^ frac, g / 10 ^ (9 - frac))

lemma readTail_eq {frac : ℕ} (hfrac : frac < 9) {gs : List ℕ}
    (hlen : frac ≠ 0 → gs.length = 1) (res : ℤ) :
    readTail T sign frac gs res = accumulateAll T sign res (tailGroups frac gs) := by
  rw [readTail, tailGroups]
  split
  · rfl
  · next hne =>
      obtain ⟨g, rfl⟩ := List.length_eq_one_iff.1 (hlen hne)
      have hfactor : powers10 frac = some (10 ^ frac) := if_pos hfrac.le
      have hdivisor : powers10 (digPerDec1 - frac) = some (10 ^ (9 - frac)) :=
        if_pos (Nat.sub_le 9 frac)
      rw [hfactor, hdivisor, List.map_singleton, accumulateAll_cons]
      show T.accumulate sign res (10 ^ frac) (g / 10 ^ (9 - frac)) = _
      cases T.accumulate sign res (10 ^ frac) (g / 10 ^ (9 - frac)) <;> rfl

end loops

/-! ### The number without its point -/

namespace MyDecimal

variable (d : MyDecimal)

/-- The number without its point and its sign. -/
def unscaled : ℕ := horner digBase 0 d.buf / 10 ^ (9 * roundUp d.frac - d.frac)

/-- The factors and digits of the conversion. -/
def steps : List (ℕ × ℕ) :=
  fullGroups d.intGroups ++ fullGroups (d.fracGroups.take (d.frac / 9)) ++
    tailGroups (d.frac % 9) (d.fracGroups.drop (d.frac / 9))

lemma steps_pos : ∀ p ∈ d.steps, 0 < p.1 := by
  intro p hp
  simp only [steps, fullGroups, tailGroups, List.mem_append] at hp
  rcases hp with (hp | hp) | hp
  · obtain ⟨g, -, rfl⟩ := List.mem_map.1 hp
    exact Nat.succ_pos _
  · obtain ⟨g, -, rfl⟩ := List.mem_map.1 hp
    exact Nat.succ_pos _
  · split at hp
    · cases hp
    · obtain ⟨g, -, rfl⟩ := List.mem_map.1 hp
      exact Nat.pow_pos (Nat.succ_pos 9)

lemma length_take_fracGroups : (d.fracGroups.take (d.frac / 9)).length = d.frac / 9 := by
  have hlen := d.fracGroups_length
  rw [roundUp, digPerDec1] at hlen
  exact List.length_take_of_le (by omega)

lemma length_drop_fracGroups (h : d.frac % 9 ≠ 0) :
    (d.fracGroups.drop (d.frac / 9)).length = 1 := by
  have hlen := d.fracGroups_length
  rw [roundUp, digPerDec1] at hlen
  rw [List.length_drop]
  omega

theorem getDuckdbDecimal_eq_accumulateAll (T : DecimalInt) :
    getDuckdbDecimal T d d.frac = accumulateAll T d.sign 0 d.steps := by
  have hmod : d.frac % 9 < 9 := Nat.mod_lt _ (by norm_num)
  have hsplit : d.fracGroups =
      d.fracGroups.take (d.frac / 9) ++ d.fracGroups.drop (d.frac / 9) :=
    (List.take_append_drop _ _).symm
  rw [getDuckdbDecimal, buf, readIntg_eq d.intGroups_length, steps, accumulateAll_append,
    accumulateAll_append]
  cases accumulateAll T d.sign 0 (fullGroups d.intGroups) with
  | none => rfl
  | some res =>
      show (readFrac T d.sign d.frac d.fracGroups res).bind _ = _
      conv_lhs => rw [hsplit]
      rw [readFrac_eq d.length_take_fracGroups, Option.bind_some]
      cases accumulateAll T d.sign res (fullGroups (d.fracGroups.take (d.frac / 9))) with
      | none => rfl
      | some res =>
          show (readTail T d.sign (d.frac % 9) (d.fracGroups.drop (d.frac / 9)) res).bind _ = _
          rw [readTail_eq hmod d.length_drop_fracGroups, Option.bind_some, Nat.sub_self]
          cases accumulateAll T d.sign res
            (tailGroups (d.frac % 9) (d.fracGroups.drop (d.frac / 9))) <;> rfl

/-- The conversion computes the number without its point. -/
theorem mixedRadix_steps : mixedRadix 0 d.steps = d.unscaled := by
  have hlen := d.fracGroups_length
  rw [roundUp, digPerDec1] at hlen
  rw [steps, mixedRadix_append, mixedRadix_append, fullGroups, fullGroups, mixedRadix_map,
    mixedRadix_map, ← horner_append, unscaled, buf, roundUp, digPerDec1, tailGroups]
  split
  · next hzero =>
      have hfill : 9 * ((d.frac + 9 - 1) / 9) - d.frac = 0 := by omega
      rw [hfill, pow_zero, Nat.div_one, mixedRadix_nil, List.take_of_length_le (by omega)]
  · next hne =>
      obtain ⟨g, hg⟩ := List.length_eq_one_iff.1 (d.length_drop_fracGroups hne)
      have hsplit : d.fracGroups = d.fracGroups.take (d.frac / 9) ++ [g] := by
        rw [← hg, List.take_append_drop]
      have hfill : 9 * ((d.frac + 9 - 1) / 9) - d.frac = 9 - d.frac % 9 := by omega
      have hdvd : 10 ^ (9 - d.frac % 9) ∣ g := by
        have := d.fill_dvd g (by rw [hsplit]; simp)
        rwa [roundUp, digPerDec1, hfill] at this
      have hbase : digBase = 10 ^ (d.frac % 9) * 10 ^ (9 - d.frac % 9) := by
        rw [← pow_add, Nat.add_sub_cancel' (by omega)]
        rfl
      conv_rhs => rw [hsplit, ← List.append_assoc, horner_append]
      rw [hg, hfill, List.map_singleton, mixedRadix_cons, mixedRadix_nil, horner_cons, horner_nil]
      generalize horner digBase 0 (d.intGroups ++ d.fracGroups.take (d.frac / 9)) = a
      obtain ⟨q, rfl⟩ := hdvd
      have hpos : 0 < 10 ^ (9 - d.frac % 9) := Nat.pow_pos (Nat.succ_pos 9)
      rw [Nat.mul_div_cancel_left q hpos, hbase, ← Nat.mul_assoc,
        Nat.mul_comm _ (10 ^ (9 - d.frac % 9)), ← Nat.mul_add, Nat.mul_div_cancel_left _ hpos]

/-- The zeros that fill the last group up are cut off without loss. -/
lemma dvd_horner_buf : 10 ^ (9 * roundUp d.frac - d.frac) ∣ horner digBase 0 d.buf := by
  have hlen := d.fracGroups_length
  rcases List.eq_nil_or_concat d.fracGroups with hnil | ⟨gs, g, hconcat⟩
  · rw [hnil, List.length_nil, roundUp, digPerDec1] at hlen
    rw [roundUp, digPerDec1, ← hlen, Nat.mul_zero, Nat.zero_sub, pow_zero]
    exact one_dvd _
  · have hg := d.fill_dvd g (by rw [hconcat]; simp)
    have hbase : 10 ^ (9 * roundUp d.frac - d.frac) ∣ digBase := by
      show 10 ^ _ ∣ 10 ^ 9
      refine Nat.pow_dvd_pow 10 ?_
      rw [roundUp, digPerDec1]
      omega
    rw [buf, hconcat, List.concat_eq_append, ← List.append_assoc, horner_append, horner_cons,
      horner_nil]
    exact Nat.dvd_add (Dvd.dvd.mul_left hbase _) hg

theorem signed_unscaled : (signed d.sign d.unscaled : ℚ) = d.value * 10 ^ d.frac := by
  have hle : d.frac ≤ 9 * roundUp d.frac := by
    rw [roundUp, digPerDec1]
    omega
  have hpow : (10 : ℚ) ^ (9 * d.fracGroups.length) =
      10 ^ (9 * roundUp d.frac - d.frac) * 10 ^ d.frac := by
    rw [← pow_add, Nat.sub_add_cancel hle, d.fracGroups_length]
  have hunscaled : (d.unscaled : ℚ) =
      horner digBase 0 d.buf / 10 ^ (9 * roundUp d.frac - d.frac) := by
    rw [unscaled, Nat.cast_div d.dvd_horner_buf (by positivity)]
    norm_cast
  have habs : (d.unscaled : ℚ) =
      horner digBase 0 d.buf / 10 ^ (9 * d.fracGroups.length) * 10 ^ d.frac := by
    rw [hunscaled, hpow]
    field_simp
  rw [value, mul_assoc, ← habs, signed]
  cases d.sign <;> simp

/-! ### Bounds -/

/-- The number has as many digits as its integer part and its fraction. -/
lemma unscaled_lt {j : ℕ} (h : d.intPart < 10 ^ j) : d.unscaled < 10 ^ (j + d.frac) := by
  have hle : d.frac ≤ 9 * roundUp d.frac := by
    rw [roundUp, digPerDec1]
    omega
  have hbuf := horner_lt_mul (b := digBase) (by decide) (l := d.fracGroups)
    (fun g hg => d.group_lt g (List.mem_append_right _ hg)) h
  have hpow : 10 ^ j * digBase ^ d.fracGroups.length =
      10 ^ (9 * roundUp d.frac - d.frac) * 10 ^ (j + d.frac) := by
    rw [d.fracGroups_length, show digBase = 10 ^ 9 from rfl, ← pow_mul, ← pow_add, ← pow_add]
    congr 1
    omega
  refine Nat.div_lt_of_lt_mul ?_
  rwa [← hpow, buf, horner_append]

/-- The integer part has at most `intg` digits. -/
lemma intPart_lt : d.intPart < 10 ^ d.intg := by
  have hlen := d.intGroups_length
  rw [roundUp, digPerDec1] at hlen
  rw [intPart]
  cases hgs : d.intGroups with
  | nil => exact Nat.pow_pos (Nat.succ_pos 9)
  | cons g gs =>
      rw [hgs, List.length_cons] at hlen
      have hlead := d.lead_lt g (by rw [hgs]; rfl)
      have hpow : 10 ^ d.intg = 10 ^ ((d.intg - 1) % 9 + 1) * digBase ^ gs.length := by
        rw [show digBase = 10 ^ 9 from rfl, ← pow_mul, ← pow_add]
        congr 1
        omega
      rw [horner_cons, Nat.zero_mul, Nat.zero_add, hpow]
      refine horner_lt_mul (by decide) (fun x hx => ?_) hlead
      exact d.group_lt x (List.mem_append_left _ (by rw [hgs]; exact List.mem_cons_of_mem g hx))

/-- A number that fits the type is converted exactly. -/
theorem getDuckdbDecimal_of_lt {T : DecimalInt} (h : d.unscaled < 2 ^ (T.width - 1)) :
    getDuckdbDecimal T d d.frac = some (signed d.sign d.unscaled) := by
  have hzero : (0 : ℤ) = signed d.sign 0 := by
    cases d.sign <;> rfl
  rw [d.getDuckdbDecimal_eq_accumulateAll, hzero,
    accumulateAll_signed d.steps_pos (by rwa [d.mixedRadix_steps]), d.mixedRadix_steps]

end MyDecimal

/-! ### The significant digits -/

lemma countDigits_eq (t : ℕ) : countDigits t = (Nat.digits 10 t).length := by
  have hrounds : ∀ n t, t ≤ n →
      (WhileLoop.rounds (fun t => if 0 < t then some () else none) (fun t _ => t / 10) n t).length =
        (Nat.digits 10 t).length := by
    intro n
    induction n with
    | zero =>
        intro t ht
        obtain rfl := Nat.le_zero.1 ht
        rfl
    | succ n ih =>
        intro t ht
        rcases Nat.eq_zero_or_pos t with rfl | hpos
        · rfl
        · rw [WhileLoop.rounds, if_pos hpos, Nat.digits_def' (by norm_num) hpos,
            List.length_cons, List.length_cons, ih (t / 10) (by omega)]
  exact hrounds t t le_rfl

/-- The groups behind the first one that is not zero count with all their digits. -/
lemma significantDigits_eq (gs : List ℕ) (hgs : ∀ g ∈ gs, g < digBase) :
    significantDigits gs = (Nat.digits 10 (horner digBase 0 gs)).length := by
  induction gs with
  | nil => rfl
  | cons g gs ih =>
      rw [List.forall_mem_cons] at hgs
      rcases eq_or_ne g 0 with rfl | hne
      · exact ih hgs.2
      · have hrest := horner_lt (b := digBase) (by decide) hgs.2
        have hcount : significantDigits (g :: gs) = countDigits g + gs.length * 9 := by
          rw [significantDigits, List.dropWhile_cons_of_neg (by simpa using hne)]
          rfl
        rw [hcount, horner_cons, horner_eq, Nat.zero_mul, Nat.zero_add, countDigits_eq]
        rw [show digBase = 10 ^ 9 from rfl, ← pow_mul] at hrest ⊢
        rw [length_digits_mul_add (by norm_num) hne hrest, Nat.mul_comm]

theorem myDecimalActualIntg_eq (d : MyDecimal) :
    myDecimalActualIntg d = (Nat.digits 10 d.intPart).length := by
  have hgroups := significantDigits_eq d.intGroups fun g hg =>
    d.group_lt g (List.mem_append_left _ hg)
  have htake : d.buf.take (roundUp d.intg) = d.intGroups := by
    rw [← d.intGroups_length, MyDecimal.buf, List.take_left]
  rw [myDecimalActualIntg, MyDecimal.intPart]
  split
  · next hzero =>
      have hnil : d.intGroups = [] := by
        refine List.length_eq_zero_iff.1 ?_
        rw [d.intGroups_length, hzero]
        rfl
      rw [hnil]
      rfl
  · rw [htake]
    exact hgroups

/-! ### What is appended -/

/-- The type for a precision has all numbers with that many digits. -/
lemma pow_le_decimalIntOf {p : ℕ} (hp : p ≤ 38) : 10 ^ p ≤ 2 ^ ((decimalIntOf p).width - 1) := by
  rw [decimalIntOf]
  split_ifs with h4 h9 h18
  · exact (Nat.pow_le_pow_right (by norm_num) h4).trans (by decide)
  · exact (Nat.pow_le_pow_right (by norm_num) h9).trans (by decide)
  · exact (Nat.pow_le_pow_right (by norm_num) h18).trans (by decide)
  · exact (Nat.pow_le_pow_right (by norm_num) hp).trans (by decide)

/-- Every DECIMAL value that the appender accepts is appended exactly, in the type for its
precision and without an overflow on the way; and the digits before the point are counted
without the leading zeros. -/
theorem appendDecimal_exact (d : MyDecimal) (useDoubleForDecimal : Bool) (precision : ℕ) :
    (precision ≤ 38 → d.intg + d.frac ≤ precision →
      ∃ x : ℤ, appendDecimal useDoubleForDecimal precision d.frac d =
          some (.decimal (decimalIntOf precision) x precision d.frac) ∧
        (x : ℚ) = d.value * 10 ^ d.frac) ∧
    (38 < precision → useDoubleForDecimal = false → myDecimalActualIntg d + d.frac ≤ 38 →
      ∃ x : ℤ, appendDecimal useDoubleForDecimal precision d.frac d =
          some (.decimal .hugeint x 38 d.frac) ∧
        (x : ℚ) = d.value * 10 ^ d.frac) ∧
    myDecimalActualIntg d = (Nat.digits 10 d.intPart).length := by
  refine ⟨fun hp hfits => ?_, fun hp hdouble hfits => ?_, myDecimalActualIntg_eq d⟩
  · refine ⟨signed d.sign d.unscaled, ?_, d.signed_unscaled⟩
    have hlt : d.unscaled < 2 ^ ((decimalIntOf precision).width - 1) :=
      calc d.unscaled < 10 ^ (d.intg + d.frac) := d.unscaled_lt d.intPart_lt
        _ ≤ 10 ^ precision := Nat.pow_le_pow_right (by norm_num) hfits
        _ ≤ _ := pow_le_decimalIntOf hp
    rw [appendDecimal, if_pos hp, if_neg (by omega), d.getDuckdbDecimal_of_lt hlt, Option.map_some]
  · refine ⟨signed d.sign d.unscaled, ?_, d.signed_unscaled⟩
    have hint : d.intPart < 10 ^ myDecimalActualIntg d := by
      rw [myDecimalActualIntg_eq]
      exact Nat.lt_base_pow_length_digits (by norm_num)
    have hlt : d.unscaled < 2 ^ (DecimalInt.hugeint.width - 1) :=
      calc d.unscaled < 10 ^ (myDecimalActualIntg d + d.frac) := d.unscaled_lt hint
        _ ≤ 10 ^ 38 := Nat.pow_le_pow_right (by norm_num) hfits
        _ ≤ _ := by decide
    rw [appendDecimal, if_neg (by omega), hdouble, if_neg (by simp), if_neg (by omega),
      d.getDuckdbDecimal_of_lt hlt, Option.map_some]

/-- The number -123456789012.345. -/
def minusTwelveDigits : MyDecimal where
  sign := true
  intg := 12
  frac := 3
  intGroups := [123, 456789012]
  fracGroups := [345000000]
  intGroups_length := by decide
  fracGroups_length := by decide
  group_lt := by decide
  lead_lt := by decide
  fill_dvd := by decide

theorem appendDecimal_minusTwelveDigits :
    (∃ x : ℤ, appendDecimal false 15 3 minusTwelveDigits = some (.decimal .int64 x 15 3) ∧
      (x : ℚ) = minusTwelveDigits.value * 10 ^ 3) ∧
    (∃ x : ℤ, appendDecimal false 65 3 minusTwelveDigits = some (.decimal .hugeint x 38 3) ∧
      (x : ℚ) = minusTwelveDigits.value * 10 ^ 3) ∧
    myDecimalActualIntg minusTwelveDigits = 12 :=
  ⟨(appendDecimal_exact minusTwelveDigits false 15).1 (by decide) (by decide),
    (appendDecimal_exact minusTwelveDigits false 65).2.1 (by decide) rfl (by decide), by decide⟩

end DuckdbEngine
