/-
Default expressions in the definition of a table.

`TABLE_SHARE::vcol_defs` is a blob of entries of different lengths, one behind the other: a
header of six bytes, a name and the text of an expression.
`get_default_expr_from_vcol_defs` walks over them with a pointer.  It does not check that
the entries end where the blob ends, so a read outside of the blob is a failure here.
-/
import Mathlib.Data.List.Basic

namespace DuckdbEngine

/-! ### The lookup -/

namespace VcolDefs

section

variable (blob : List UInt8) (pos : ℕ)

/-- `pos[0]`; `none` outside of the blob. -/
def byteAt : Option ℕ := blob[pos]?.map UInt8.toNat

/-- The two bytes from the position on, the lower one first. -/
def uint2korr : Option ℕ := do
  let low ← byteAt blob pos
  let high ← byteAt blob (pos + 1)
  return low + 256 * high

/-- `std::string(pos, length)`; `none` unless it lies in the blob. -/
def stringAt (length : ℕ) : Option (List UInt8) :=
  if pos + length ≤ blob.length then some ((blob.drop pos).take length) else none

end

/-- `VCOL_DEFAULT` -/
def vcolDefault : ℕ := 2

/-- The loop of `get_default_expr_from_vcol_defs`, at most `n` rounds. -/
def exprFrom (blob : List UInt8) (targetFieldNr : ℕ) : ℕ → ℕ → Option (List UInt8)
  | 0, _ => none
  | n + 1, pos =>
      if pos < blob.length then do
        let type ← byteAt blob pos
        let fieldNr ← uint2korr blob (pos + 1)
        let exprLen ← uint2korr blob (pos + 3)
        let nameLen ← byteAt blob (pos + 5)
        if type = vcolDefault ∧ fieldNr = targetFieldNr then
          stringAt blob (pos + 6 + nameLen) exprLen
        -- the pointer moves behind the entry, whatever its type is
        else exprFrom blob targetFieldNr n (pos + 6 + nameLen + exprLen)
      else some []

end VcolDefs

open VcolDefs

/-- Each round moves the pointer on by the length of a header. -/
def getDefaultExprFromVcolDefs (blob : List UInt8) (targetFieldNr : ℕ) : Option (List UInt8) :=
  if blob.length = 0 then some [] else exprFrom blob targetFieldNr blob.length 0

/-! ### Entries -/

structure VcolEntry where
  type : UInt8
  fieldNr : UInt16
  name : List UInt8
  expr : List UInt8
  name_le : name.length ≤ 255
  expr_le : expr.length ≤ 65535

namespace VcolEntry

/-- A number of 16 bits, the lower byte first. -/
def int2store (n : ℕ) : List UInt8 := [UInt8.ofNat (n % 256), UInt8.ofNat (n / 256)]

def serialize (e : VcolEntry) : List UInt8 :=
  e.type :: (int2store e.fieldNr.toNat ++ int2store e.expr.length ++
    UInt8.ofNat e.name.length :: (e.name ++ e.expr))

/-- The entry gives the default of the field. -/
def isDefaultOf (targetFieldNr : ℕ) (e : VcolEntry) : Bool :=
  e.type.toNat = vcolDefault && e.fieldNr.toNat = targetFieldNr

lemma length_serialize (e : VcolEntry) :
    e.serialize.length = 6 + e.name.length + e.expr.length := by
  simp only [serialize, int2store, List.length_cons, List.length_append, List.length_nil]
  omega

end VcolEntry

/-! ### Reading an entry -/

section

variable (e : VcolEntry) (pre rest : List UInt8)

lemma byteAt_append (l : List UInt8) (i : ℕ) :
    byteAt (pre ++ l) (pre.length + i) = l[i]?.map UInt8.toNat := by
  rw [byteAt, List.getElem?_append_right (Nat.le_add_right _ _), Nat.add_sub_cancel_left]

lemma toNat_ofNat_of_le {n : ℕ} (h : n ≤ 255) : (UInt8.ofNat n).toNat = n :=
  UInt8.toNat_ofNat_of_lt' (Nat.lt_succ_of_le h)

lemma uint2korr_append {l : List UInt8} {i n : ℕ} (hn : n ≤ 65535)
    (hl : l.drop i = VcolEntry.int2store n ++ rest) :
    uint2korr (pre ++ l) (pre.length + i) = some n := by
  have hlow : l[i]? = some (UInt8.ofNat (n % 256)) := by
    rw [← Nat.add_zero i, ← List.getElem?_drop, hl]
    rfl
  have hhigh : l[i + 1]? = some (UInt8.ofNat (n / 256)) := by
    rw [← List.getElem?_drop, hl]
    rfl
  have hsum : n % 256 + 256 * (n / 256) = n := Nat.mod_add_div n 256
  rw [uint2korr, byteAt_append, Nat.add_assoc, byteAt_append, hlow, hhigh]
  simp only [Option.map_some, Option.bind_eq_bind, Option.bind_some, Option.pure_def]
  rw [toNat_ofNat_of_le (by omega), toNat_ofNat_of_le (by omega), hsum]

/-- The header is read as it was written. -/
lemma header_serialize :
    byteAt (pre ++ (e.serialize ++ rest)) pre.length = some e.type.toNat ∧
    uint2korr (pre ++ (e.serialize ++ rest)) (pre.length + 1) = some e.fieldNr.toNat ∧
    uint2korr (pre ++ (e.serialize ++ rest)) (pre.length + 3) = some e.expr.length ∧
    byteAt (pre ++ (e.serialize ++ rest)) (pre.length + 5) = some e.name.length := by
  have hnr : e.fieldNr.toNat ≤ 65535 := Nat.le_of_lt_succ e.fieldNr.toNat_lt
  refine ⟨byteAt_append pre _ 0, uint2korr_append pre _ hnr rfl,
    uint2korr_append pre _ e.expr_le rfl, ?_⟩
  rw [byteAt_append]
  show some (UInt8.ofNat e.name.length).toNat = some e.name.length
  rw [toNat_ofNat_of_le e.name_le]

/-- The expression is read as it was written. -/
lemma stringAt_serialize :
    stringAt (pre ++ (e.serialize ++ rest)) (pre.length + 6 + e.name.length) e.expr.length =
      some e.expr := by
  have hlen := e.length_serialize
  have hdrop : (e.serialize ++ rest).drop (6 + e.name.length) = e.expr ++ rest := by
    rw [← List.drop_drop]
    show (((e.name ++ e.expr) ++ rest).drop e.name.length) = _
    rw [List.append_assoc, List.drop_left]
  rw [stringAt, if_pos (by simp only [List.length_append]; omega), Nat.add_assoc,
    ← List.drop_drop, List.drop_left, hdrop, List.take_left]

end

/-! ### Reading all entries -/

/-- The walk over the entries from a position on, by induction on the entries. -/
lemma exprFrom_serialize (targetFieldNr : ℕ) (es : List VcolEntry) (pre : List UInt8) {n : ℕ}
    (hn : es.length < n) :
    exprFrom (pre ++ es.flatMap VcolEntry.serialize) targetFieldNr n pre.length =
      some ((es.find? (VcolEntry.isDefaultOf targetFieldNr)).elim [] VcolEntry.expr) := by
  induction es generalizing pre n with
  | nil =>
      obtain ⟨n, rfl⟩ := Nat.exists_eq_add_of_lt hn
      rw [exprFrom, if_neg (by simp)]
      rfl
  | cons e es ih =>
      obtain ⟨n, rfl⟩ := Nat.exists_eq_succ_of_ne_zero (Nat.ne_zero_of_lt hn)
      obtain ⟨htype, hnr, hexpr, hname⟩ := header_serialize e pre (es.flatMap VcolEntry.serialize)
      have hlen := e.length_serialize
      rw [List.flatMap_cons, exprFrom,
        if_pos (by simp only [List.length_append]; omega), htype, hnr, hexpr, hname]
      simp only [Option.bind_eq_bind, Option.bind_some]
      split
      · next hfound =>
          have hdefault : e.isDefaultOf targetFieldNr = true := by
            simpa [VcolEntry.isDefaultOf] using hfound
          rw [stringAt_serialize, List.find?_cons_of_pos hdefault]
          rfl
      · next hother =>
          have hdefault : ¬e.isDefaultOf targetFieldNr = true := by
            simpa [VcolEntry.isDefaultOf] using hother
          have hnext := ih (pre ++ e.serialize) (n := n) (Nat.lt_of_succ_lt_succ hn)
          rw [List.length_append, hlen, List.append_assoc] at hnext
          rw [List.find?_cons_of_neg hdefault, ← hnext]
          congr 1
          omega

/-- Each entry has a header of six bytes. -/
lemma length_flatMap_serialize (es : List VcolEntry) :
    6 * es.length ≤ (es.flatMap VcolEntry.serialize).length := by
  induction es with
  | nil => exact Nat.le_refl 0
  | cons e es ih =>
      rw [List.flatMap_cons, List.length_append, e.length_serialize, List.length_cons]
      omega

/-- For every list of entries, the lookup returns the expression of the first one that gives the
default of the field, and the empty text if there is none.  It reads inside of the blob only. -/
theorem getDefaultExprFromVcolDefs_serialize (es : List VcolEntry) (targetFieldNr : ℕ) :
    getDefaultExprFromVcolDefs (es.flatMap VcolEntry.serialize) targetFieldNr =
      some ((es.find? (VcolEntry.isDefaultOf targetFieldNr)).elim [] VcolEntry.expr) := by
  have hlen := length_flatMap_serialize es
  rw [getDefaultExprFromVcolDefs]
  split
  · next hempty =>
      have hes : es = [] := List.eq_nil_of_length_eq_zero (by omega)
      rw [hes]
      rfl
  · next hblob => exact exprFrom_serialize targetFieldNr es [] (by omega)

end DuckdbEngine
