/-
Record buffers as bytes, and the modified columns.

A record buffer is a piece of memory in which every field has its offset: a number of
fixed width, a VARCHAR behind its length of one or two bytes, or a BLOB as its length,
followed by a pointer to the bytes.  Lengths and pointers are little-endian.  A field
that may be NULL has a bit among the null flags of the record.

`calc_field_difference` decides whether a field has been modified by reading the bytes
of the old and the new record; it puts an impossible length in place of that of a NULL.
What it finds is a difference of the contents (`calcFieldDifference_iff`), so on the
records that the rest of the development works with it is the comparison of values
(`calcFieldDifference_recordOf`).
-/
import Mathlib.Data.Nat.Digits.Lemmas
import DuckdbEngine.Handler.RowOps

namespace DuckdbEngine.RecordBytes

/-- The byte at every address. -/
abbrev Memory := ℕ → UInt8

def bytesAt (m : Memory) (p n : ℕ) : List UInt8 := (List.range n).map fun i => m (p + i)

/-- The number that little-endian bytes stand for. -/
def leNat (bytes : List UInt8) : ℕ := Nat.ofDigits 256 (bytes.map UInt8.toNat)

/-! ### The readers -/

def machReadFrom1 (m : Memory) (b : ℕ) : ℕ := (m b).toNat

def machReadFrom2LittleEndian (m : Memory) (buf : ℕ) : ℕ :=
  (m buf).toNat ||| (m (buf + 1)).toNat <<< 8

/-- The number of values of a `ulong`. -/
def ulongSize : ℕ := 2 ^ 64

/-- The loop from the last byte down to the first. -/
def readDown (m : Memory) (buf : ℕ) : ℕ → ℕ → ℕ
  | 0, n => n
  | k + 1, n => readDown m buf k ((n <<< 8 % ulongSize + (m (buf + k)).toNat) % ulongSize)

def machReadFromNLittleEndian (m : Memory) (buf bufSize : ℕ) : ℕ := readDown m buf bufSize 0

/-- The length and the address of the bytes of a VARCHAR. -/
def rowMysqlReadTrueVarchar (m : Memory) (field lenlen : ℕ) : ℕ × ℕ :=
  if lenlen = 2 then (machReadFrom2LittleEndian m field, field + 2)
  else (machReadFrom1 m field, field + 1)

/-- The length and the address of the bytes of a BLOB. -/
def rowMysqlReadBlobRef (m : Memory) (ref colLen : ℕ) : ℕ × ℕ :=
  (machReadFromNLittleEndian m ref (colLen - 8), leNat (bytesAt m (ref + colLen - 8) 8))

/-- `memcmp` finds a difference. -/
def memcmp (m : Memory) (p q n : ℕ) : Bool := bytesAt m p n ≠ bytesAt m q n

/-! ### Fields -/

/-- The kinds of fields that `calc_field_difference` tells apart. -/
inductive FieldKind where
  | fixed (packLength : ℕ)
  | varchar (lengthBytes : ℕ)
  | blob (lengthBytes : ℕ)
deriving DecidableEq

/-- What MariaDB guarantees: a record has at most 65535 bytes, and lengths take one or two bytes
in a VARCHAR and one to four in a BLOB. -/
def FieldKind.Wf : FieldKind → Prop
  | .fixed packLength => packLength ≤ 65535
  | .varchar lengthBytes => lengthBytes = 1 ∨ lengthBytes = 2
  | .blob lengthBytes => 1 ≤ lengthBytes ∧ lengthBytes ≤ 4

instance (kind : FieldKind) : Decidable kind.Wf := by
  cases kind <;> unfold FieldKind.Wf <;> infer_instance

/-- Where a field is in a record. -/
structure FieldLayout where
  offset : ℕ
  kind : FieldKind
  /-- The byte and the bit of the null flag of a field that may be NULL. -/
  null : Option (ℕ × UInt8)
  wf : kind.Wf

namespace FieldLayout

variable (f : FieldLayout) (m : Memory)

def isNullInRecord (row : ℕ) : Bool := f.null.any fun (byte, bit) => m (row + byte) &&& bit ≠ 0

/-- The length and the address that are read for the field. -/
def locate (row : ℕ) : ℕ × ℕ :=
  match f.kind with
  | .fixed packLength => (packLength, row + f.offset)
  | .varchar lengthBytes => rowMysqlReadTrueVarchar m (row + f.offset) lengthBytes
  | .blob lengthBytes => rowMysqlReadBlobRef m (row + f.offset) (lengthBytes + 8)

/-- `~0U` -/
def nullLen : ℕ := 2 ^ 32 - 1

/-- The length, or the impossible one for a NULL. -/
def lenOrNull (row : ℕ) : ℕ :=
  if f.null.isSome && f.isNullInRecord m row then nullLen else (f.locate m row).1

def calcFieldDifference (oldRow newRow : ℕ) : Bool :=
  f.lenOrNull m oldRow ≠ f.lenOrNull m newRow ||
    (f.lenOrNull m oldRow ≠ nullLen && f.lenOrNull m oldRow ≠ 0 &&
      memcmp m (f.locate m oldRow).2 (f.locate m newRow).2 (f.lenOrNull m oldRow))

/-! ### What a field holds -/

/-- The bytes of the value. -/
def stored (row : ℕ) : List UInt8 :=
  match f.kind with
  | .fixed packLength => bytesAt m (row + f.offset) packLength
  | .varchar lengthBytes =>
      bytesAt m (row + f.offset + lengthBytes) (leNat (bytesAt m (row + f.offset) lengthBytes))
  | .blob lengthBytes =>
      bytesAt m (leNat (bytesAt m (row + f.offset + lengthBytes) 8))
        (leNat (bytesAt m (row + f.offset) lengthBytes))

/-- The value, `none` for NULL. -/
def content (row : ℕ) : Option (List UInt8) :=
  if f.isNullInRecord m row then none else some (f.stored m row)

/-- A BLOB that is not NULL has at most 2^30 bytes. -/
def BlobFits (row : ℕ) : Prop :=
  ∀ lengthBytes, f.kind = .blob lengthBytes → f.isNullInRecord m row = false →
    (f.stored m row).length ≤ 2 ^ 30

end FieldLayout

/-! ### Reading -/

section

variable (m : Memory)

@[simp] lemma length_bytesAt (p n : ℕ) : (bytesAt m p n).length = n := by simp [bytesAt]

lemma bytesAt_succ (p n : ℕ) : bytesAt m p (n + 1) = bytesAt m p n ++ [m (p + n)] := by
  simp [bytesAt, List.range_succ]

lemma leNat_bytesAt_succ (p n : ℕ) :
    leNat (bytesAt m p (n + 1)) = leNat (bytesAt m p n) + 256 ^ n * (m (p + n)).toNat := by
  simp [leNat, bytesAt_succ, Nat.ofDigits_append]

lemma leNat_bytesAt_lt (p n : ℕ) : leNat (bytesAt m p n) < 256 ^ n := by
  have h : leNat (bytesAt m p n) < 256 ^ ((bytesAt m p n).map UInt8.toNat).length := by
    refine Nat.ofDigits_lt_base_pow_length (by decide) fun d hd => ?_
    obtain ⟨b, -, rfl⟩ := List.mem_map.1 hd
    exact b.toNat_lt
  rwa [List.length_map, length_bytesAt] at h

/-- The loop computes the little-endian number, as long as it fits into a `ulong`. -/
lemma readDown_eq (buf k n : ℕ) (h : (n + 1) * 256 ^ k ≤ ulongSize) :
    readDown m buf k n = n * 256 ^ k + leNat (bytesAt m buf k) := by
  induction k generalizing n with
  | zero => simp [readDown, leNat, bytesAt]
  | succ k ih =>
      have hbyte : (m (buf + k)).toNat < 256 := UInt8.toNat_lt _
      have hle : (n * 256 + (m (buf + k)).toNat + 1) * 256 ^ k ≤ ulongSize := by
        refine le_trans ?_ h
        rw [Nat.pow_succ', ← Nat.mul_assoc]
        exact Nat.mul_le_mul_right _ (by omega)
      have hlt : n * 256 + (m (buf + k)).toNat < ulongSize :=
        lt_of_lt_of_le (Nat.lt_succ_self _)
          (le_trans (Nat.le_mul_of_pos_right _ (Nat.pow_pos (by decide))) hle)
      have hmul : n * 256 < ulongSize := lt_of_le_of_lt (Nat.le_add_right _ _) hlt
      have hshift : n <<< 8 % ulongSize = n * 256 := by
        rw [Nat.shiftLeft_eq, Nat.mod_eq_of_lt hmul]
      have hread := ih (n * 256 + (m (buf + k)).toNat) hle
      rw [readDown, hshift, Nat.mod_eq_of_lt hlt, hread, leNat_bytesAt_succ, Nat.pow_succ]
      ring

lemma machReadFrom1_eq (b : ℕ) : machReadFrom1 m b = leNat (bytesAt m b 1) := by
  simp [machReadFrom1, leNat, bytesAt]

lemma machReadFrom2LittleEndian_eq (buf : ℕ) :
    machReadFrom2LittleEndian m buf = leNat (bytesAt m buf 2) := by
  have hor := Nat.shiftLeft_add_eq_or_of_lt (i := 8) (UInt8.toNat_lt (m buf)) (m (buf + 1)).toNat
  rw [machReadFrom2LittleEndian, Nat.or_comm, ← hor, Nat.shiftLeft_eq, leNat_bytesAt_succ,
    ← machReadFrom1_eq, machReadFrom1]
  ring

lemma machReadFromNLittleEndian_eq (buf : ℕ) {n : ℕ} (hn : n ≤ 8) :
    machReadFromNLittleEndian m buf n = leNat (bytesAt m buf n) := by
  have hpow : (256 : ℕ) ^ n ≤ 256 ^ 8 := Nat.pow_le_pow_right (by decide) hn
  rw [machReadFromNLittleEndian, readDown_eq m buf n 0 (by simpa [ulongSize] using hpow),
    Nat.zero_mul, Nat.zero_add]

end

namespace FieldLayout

variable (f : FieldLayout) (m : Memory) (row : ℕ)

/-- What is located are the bytes of the value. -/
lemma bytesAt_locate : bytesAt m (f.locate m row).2 (f.locate m row).1 = f.stored m row := by
  have hwf := f.wf
  unfold locate stored
  cases hk : f.kind with
  | fixed n => rfl
  | varchar n =>
      rw [hk] at hwf
      rcases hwf with rfl | rfl
      · simp [rowMysqlReadTrueVarchar, machReadFrom1_eq]
      · simp [rowMysqlReadTrueVarchar, machReadFrom2LittleEndian_eq]
  | blob n =>
      rw [hk] at hwf
      obtain ⟨-, hle⟩ := hwf
      simp only [rowMysqlReadBlobRef, Nat.add_sub_cancel]
      rw [machReadFromNLittleEndian_eq m _ (by omega), ← Nat.add_assoc, Nat.add_sub_cancel]

lemma length_stored : (f.stored m row).length = (f.locate m row).1 := by
  rw [← bytesAt_locate, length_bytesAt]

lemma null_isSome_of_isNull (h : f.isNullInRecord m row = true) : f.null.isSome = true := by
  cases hn : f.null with
  | none => simp [isNullInRecord, hn] at h
  | some b => rfl

/-- No value has the length that stands for NULL. -/
lemma length_stored_lt {f : FieldLayout} {m : Memory} {row : ℕ} (hfits : f.BlobFits m row)
    (hnull : f.isNullInRecord m row = false) : (f.stored m row).length < nullLen := by
  have hwf := f.wf
  cases hk : f.kind with
  | fixed n =>
      rw [hk] at hwf
      have hn : n ≤ 65535 := hwf
      simp only [stored, hk, length_bytesAt, nullLen]
      omega
  | varchar n =>
      rw [hk] at hwf
      simp only [stored, hk, length_bytesAt, nullLen]
      have hlt := leNat_bytesAt_lt m (row + f.offset) n
      have hpow : (256 : ℕ) ^ n ≤ 256 ^ 2 :=
        Nat.pow_le_pow_right (by decide) (by rcases hwf with rfl | rfl <;> decide)
      omega
  | blob n =>
      have := hfits n hk hnull
      unfold nullLen
      omega

lemma lenOrNull_of_null {f : FieldLayout} {m : Memory} {row : ℕ}
    (h : f.isNullInRecord m row = true) : f.lenOrNull m row = nullLen := by
  rw [lenOrNull, f.null_isSome_of_isNull m row h, h]
  rfl

lemma lenOrNull_of_value {f : FieldLayout} {m : Memory} {row : ℕ}
    (h : f.isNullInRecord m row = false) : f.lenOrNull m row = (f.stored m row).length := by
  rw [lenOrNull, h, Bool.and_false, length_stored]
  rfl

/-- Between two values the bytes are compared. -/
lemma calcFieldDifference_of_values {f : FieldLayout} {m : Memory} {oldRow newRow : ℕ}
    (hold : f.isNullInRecord m oldRow = false) (hnew : f.isNullInRecord m newRow = false)
    (hlt : (f.stored m oldRow).length < nullLen) :
    f.calcFieldDifference m oldRow newRow = true ↔ f.stored m oldRow ≠ f.stored m newRow := by
  simp only [calcFieldDifference, lenOrNull_of_value hold, lenOrNull_of_value hnew,
    Bool.or_eq_true, Bool.and_eq_true, decide_eq_true_eq]
  by_cases hlen : (f.stored m oldRow).length = (f.stored m newRow).length
  · have hcmp : memcmp m (f.locate m oldRow).2 (f.locate m newRow).2 (f.stored m oldRow).length =
        true ↔ f.stored m oldRow ≠ f.stored m newRow := by
      rw [memcmp, decide_eq_true_eq]
      nth_rewrite 2 [hlen]
      rw [length_stored, length_stored, bytesAt_locate, bytesAt_locate]
    rw [hcmp]
    constructor
    · rintro (hne | ⟨-, hne⟩)
      · exact absurd hlen hne
      · exact hne
    · intro hne
      refine Or.inr ⟨⟨hlt.ne, fun hzero => hne ?_⟩, hne⟩
      -- there is only one value without bytes
      have hnil := List.length_eq_zero_iff.1 (hlen.symm.trans hzero)
      rw [List.length_eq_zero_iff.1 hzero, hnil]
  · exact iff_of_true (Or.inl hlen) fun heq => hlen (congrArg List.length heq)

/-- A field has been modified exactly if its content has. -/
theorem calcFieldDifference_iff {f : FieldLayout} {m : Memory} {oldRow newRow : ℕ}
    (hold : f.BlobFits m oldRow) (hnew : f.BlobFits m newRow) :
    f.calcFieldDifference m oldRow newRow = true ↔
      f.content m oldRow ≠ f.content m newRow := by
  cases ho : f.isNullInRecord m oldRow <;> cases hn : f.isNullInRecord m newRow
  case true.true => simp [calcFieldDifference, content, lenOrNull_of_null, ho, hn]
  case true.false =>
    have := length_stored_lt hnew hn
    simp [calcFieldDifference, content, lenOrNull_of_null, lenOrNull_of_value, ho, hn, this.ne']
  case false.true =>
    have := length_stored_lt hold ho
    simp [calcFieldDifference, content, lenOrNull_of_null, lenOrNull_of_value, ho, hn, this.ne]
  case false.false =>
    rw [calcFieldDifference_of_values ho hn (length_stored_lt hold ho)]
    simp [content, ho, hn]

end FieldLayout

/-! ### Records -/

/-- A table with the layout of its records and what a field makes of its bytes. -/
structure Layout (V : Type) where
  table : TableDef V
  field : ℕ → FieldLayout
  value : ℕ → List UInt8 → V
  nullable_eq : ∀ i < table.fields, table.nullable i = (field i).null.isSome

namespace Layout

variable {V : Type} (T : Layout V) (m : Memory)

/-- The record at an address. -/
def recordOf (row : ℕ) : Record V :=
  fun i => ⟨(T.field i).isNullInRecord m row, T.value i ((T.field i).stored m row)⟩

/-- All BLOBs of the record have at most 2^30 bytes. -/
def BlobsFit (row : ℕ) : Prop := ∀ i < T.table.fields, (T.field i).BlobFits m row

variable {T m}

lemma fieldVal_recordOf {i row : ℕ} (hi : i < T.table.fields) :
    T.table.fieldVal (T.recordOf m row) (T.recordOf m row) i =
      ((T.field i).content m row).map (T.value i) := by
  rw [TableDef.fieldVal, T.nullable_eq i hi, FieldLayout.content, recordOf]
  cases hn : (T.field i).isNullInRecord m row with
  | true => simp [(T.field i).null_isSome_of_isNull m row hn]
  | false => simp

/-- A field that has not been modified has its old value. -/
lemma fieldVal_eq_of_unmodified {i oldRow newRow : ℕ} (hi : i < T.table.fields)
    (hold : T.BlobsFit m oldRow) (hnew : T.BlobsFit m newRow)
    (h : (T.field i).calcFieldDifference m oldRow newRow = false) :
    T.table.fieldVal (T.recordOf m oldRow) (T.recordOf m oldRow) i =
      T.table.fieldVal (T.recordOf m newRow) (T.recordOf m newRow) i := by
  have hsame : (T.field i).content m oldRow = (T.field i).content m newRow := by
    by_contra hne
    rw [(FieldLayout.calcFieldDifference_iff (hold i hi) (hnew i hi)).2 hne] at h
    cases h
  rw [fieldVal_recordOf hi, fieldVal_recordOf hi, hsame]

/-- The comparison of the bytes is that of the values, if the values are as different as their
bytes. -/
theorem calcFieldDifference_recordOf [DecidableEq V] {i oldRow newRow : ℕ}
    (hi : i < T.table.fields) (hold : T.BlobsFit m oldRow) (hnew : T.BlobsFit m newRow)
    (hvalue : Function.Injective (T.value i)) :
    (T.field i).calcFieldDifference m oldRow newRow =
      T.table.calcFieldDifference (T.recordOf m oldRow) (T.recordOf m newRow) i := by
  rw [Bool.eq_iff_iff, FieldLayout.calcFieldDifference_iff (hold i hi) (hnew i hi),
    TableDef.calcFieldDifference, decide_eq_true_eq, fieldVal_recordOf hi, fieldVal_recordOf hi]
  exact (Option.map_injective hvalue).ne_iff.symm

end Layout

end DuckdbEngine.RecordBytes
