/-
`locate` and `mid`.

`locate` searches the bytes of a string for the bytes of another one and returns the
position of the byte that it has found; the start position is one of bytes, too.  `mid`
counts characters.  A string is a list of characters, and its bytes are their UTF-8 codes.
-/
import DuckdbEngine.Lib.SyncCode

namespace DuckdbEngine.Compat

open Search

/-- UTF-8 -/
def utf8 : SyncCode Char UInt8 where
  word := String.utf8EncodeChar
  lead := UInt8.IsUTF8FirstByte
  word_ne_nil _ := String.utf8EncodeChar_ne_nil
  lead_getElem _ _ _ := UInt8.isUTF8FirstByte_getElem_utf8EncodeChar
  word_inj {a b x y} h := by
    have hdecode := congrArg (fun l => ByteArray.utf8DecodeChar? l.toByteArray 0) h
    simp only [List.toByteArray_append, ByteArray.utf8DecodeChar?_utf8EncodeChar_append] at hdecode
    exact Option.some.inj hdecode

/-! ### The functions -/

/-- A position is counted from 1, and 0 if nothing was found. -/
def position (found : Option ℕ) : ℤ := found.elim 0 fun i => i + 1

/-- The loop of both functions. -/
def searchFrom (needle haystack : List UInt8) (start : ℕ) : ℤ :=
  position <|
    (List.range' start (haystack.length - needle.length + 1 - start)).find? fun i =>
      (haystack.drop i).take needle.length = needle

def locate2arg (needle haystack : List UInt8) : ℤ :=
  if needle.length = 0 then 1
  else if needle.length > haystack.length then 0
  else searchFrom needle haystack 0

def locate3arg (needle haystack : List UInt8) (pos : ℤ) : ℤ :=
  if pos < 1 then 0
  else if needle.length = 0 then pos
  else
    let start := pos - 1
    if start ≥ haystack.length then 0
    else if (needle.length : ℤ) > haystack.length - start then 0
    else searchFrom needle haystack start.toNat

/-- The macro for a position from 1 on. -/
def mid (s : List Char) (p n : ℕ) : List Char := (s.drop (p - 1)).take n

/-- What `locate` is meant to be: the same search on characters. -/
def locateChars (needle haystack : List Char) (pos : ℤ) : ℤ :=
  if 1 ≤ pos ∧ pos ≤ haystack.length + 1 then position (firstFrom needle haystack (pos - 1).toNat)
  else 0

/-! ### Searches -/

lemma position_injective : Function.Injective position := by
  intro a b h
  cases a <;> cases b <;> simp only [position, Option.elim_none, Option.elim_some] at h
  · rfl
  · omega
  · omega
  · exact congrArg some (by omega)

lemma searchFrom_eq {needle : List UInt8} (hne : needle ≠ []) (haystack : List UInt8) {start : ℕ}
    (hfits : start + needle.length ≤ haystack.length) :
    searchFrom needle haystack start = position (firstFrom needle haystack start) := by
  have hcmp (i : ℕ) :
      (haystack.drop i).take needle.length = needle ↔ needle <+: haystack.drop i := by
    rw [List.prefix_iff_eq_take, eq_comm]
  refine congrArg position (Option.ext fun i => ?_)
  rw [firstFrom, List.find?_range'_eq_some, List.find?_range'_eq_some]
  simp only [hcmp, List.mem_range'_1, decide_eq_true_eq]
  refine and_congr_right fun hocc => and_congr_left fun _ => ?_
  have hlen := hocc.length_le
  have hpos := List.length_pos_of_ne_nil hne
  rw [List.length_drop] at hlen
  omega

lemma locate3arg_eq {needle : List UInt8} (hne : needle ≠ []) (haystack : List UInt8) {pos : ℤ}
    (hpos : 1 ≤ pos) :
    locate3arg needle haystack pos = position (firstFrom needle haystack (pos - 1).toNat) := by
  have hlen := List.length_pos_of_ne_nil hne
  have hnone (h : (haystack.length : ℤ) < pos - 1 + needle.length) :
      firstFrom needle haystack (pos - 1).toNat = none := by
    refine firstFrom_eq_none_iff.2 fun j hj hocc => ?_
    have hle := hocc.add_length_le
    omega
  rw [locate3arg, if_neg (by omega), if_neg (by omega)]
  dsimp only
  split_ifs with hstart hsize
  · rw [hnone (by omega)]
    rfl
  · rw [hnone (by omega)]
    rfl
  · exact searchFrom_eq hne haystack (by omega)

lemma locate2arg_eq_locate3arg (needle haystack : List UInt8) :
    locate2arg needle haystack = locate3arg needle haystack 1 := by
  have hone : ¬(1 : ℤ) < 1 := Int.lt_irrefl 1
  rw [locate2arg, locate3arg, if_neg hone]
  split_ifs with hempty hsize
  · rfl
  · dsimp only
    split_ifs <;> first | rfl | omega
  · dsimp only
    rw [if_neg (by omega), if_neg (by omega)]
    rfl

lemma locateChars_eq (needle haystack : List Char) {pos : ℤ} (hpos : 1 ≤ pos) :
    locateChars needle haystack pos = position (firstFrom needle haystack (pos - 1).toNat) := by
  rw [locateChars]
  split_ifs with hrange
  · rfl
  · have hnone : firstFrom needle haystack (pos - 1).toNat = none := by
      refine firstFrom_eq_none_iff.2 fun j hj hocc => ?_
      have hle := hocc.add_length_le
      omega
    rw [hnone]
    rfl

/-- The found position is that of an occurrence. -/
lemma mid_locateChars {needle haystack : List Char} {pos : ℤ}
    (h : 0 < locateChars needle haystack pos) :
    mid haystack (locateChars needle haystack pos).toNat needle.length = needle := by
  rw [locateChars] at h ⊢
  split_ifs at h ⊢ with hrange
  · cases hfound : firstFrom needle haystack (pos - 1).toNat with
    | none =>
        rw [hfound] at h
        exact absurd h (Int.lt_irrefl 0)
    | some i =>
        have hocc := (firstFrom_eq_some_iff.1 hfound).2.1.2
        have hi : (position (some i)).toNat - 1 = i := by
          rw [position, Option.elim_some]
          omega
        rw [mid, hi]
        exact (List.prefix_iff_eq_take.1 hocc).symm
  · exact absurd h (Int.lt_irrefl 0)

/-! ### When positions agree -/

/-- All characters before the place have one byte. -/
def OneByteBefore (s : List Char) (i : ℕ) : Prop := ∀ c ∈ s.take i, c.utf8Size = 1

section

variable {needle haystack : List Char}

lemma offset_eq_iff {i : ℕ} (hi : i ≤ haystack.length) :
    utf8.offset haystack i = i ↔ OneByteBefore haystack i := by
  rw [utf8.offset_eq_self_iff hi, OneByteBefore]
  refine forall_congr' fun c => imp_congr_right fun _ => ?_
  show (String.utf8EncodeChar c).length = 1 ↔ _
  rw [String.length_utf8EncodeChar]

lemma encode_ne_nil (hne : needle ≠ []) : utf8.encode needle ≠ [] := by
  intro h
  have hle := (utf8.length_le_encode needle).1
  rw [h, List.length_nil] at hle
  exact hne (List.length_eq_zero_iff.1 (Nat.le_zero.1 hle))

/-- The occurrence is where a search of characters from `start` on finds one, too: it does not
stand before character `start`, and characters of one byte only are before it; or it stands before
that character, and the place counted by its byte is that of the next occurrence. -/
def SamePlace (needle haystack : List Char) (start b : ℕ) : Prop :=
  start ≤ b ∧ OneByteBefore haystack b ∨
    b < start ∧ Occurs needle haystack (utf8.offset haystack b) ∧
      ∀ j, start ≤ j → j < utf8.offset haystack b → ¬ Occurs needle haystack j

/-- When the search from a start position finds bytes where it should find characters. -/
def PositionsAgree (needle haystack : List Char) (pos : ℤ) : Prop :=
  pos < 1 ∨ needle = [] ∧ pos ≤ haystack.length + 1 ∨
    needle ≠ [] ∧ ∀ b, utf8.FirstAt needle haystack (pos - 1).toNat b →
      SamePlace needle haystack (pos - 1).toNat b

/-- A search of characters finds what stands at the byte of the occurrence. -/
lemma firstFrom_eq_offset_iff {start b : ℕ} (hb : utf8.FirstAt needle haystack start b) :
    firstFrom needle haystack start = some (utf8.offset haystack b) ↔
      SamePlace needle haystack start b := by
  obtain ⟨hocc, hstart, hleast⟩ := hb
  rw [firstFrom_eq_some_iff]
  constructor
  · rintro ⟨-, hplace, hfirst⟩
    rcases Nat.lt_or_ge b start with hlt | hge
    · exact Or.inr ⟨hlt, hplace, hfirst⟩
    · refine Or.inl ⟨hge, (offset_eq_iff hocc.1).1 ?_⟩
      rcases Nat.eq_or_lt_of_le (utf8.le_offset hocc.1) with heq | hlt
      · exact heq.symm
      · exact absurd hocc (hfirst b hge hlt)
  · rintro (⟨hge, hbytes⟩ | ⟨-, hplace, hfirst⟩)
    · rw [(offset_eq_iff hocc.1).2 hbytes]
      refine ⟨hge, hocc, fun j hj hlt hj' => ?_⟩
      exact absurd (hleast j hlt hj') (not_lt.2 (hj.trans (utf8.le_offset hj'.1)))
    · exact ⟨hstart, hplace, hfirst⟩

lemma firstFrom_encode_eq_iff (hne : needle ≠ []) {start : ℕ} :
    firstFrom (utf8.encode needle) (utf8.encode haystack) start =
        firstFrom needle haystack start ↔
      ∀ b, utf8.FirstAt needle haystack start b → SamePlace needle haystack start b := by
  constructor
  · intro heq b hb
    rw [← firstFrom_eq_offset_iff hb, ← heq]
    exact (utf8.firstFrom_encode_eq_some_iff hne).2 ⟨b, hb, rfl⟩
  · intro hplace
    cases hbytes : firstFrom (utf8.encode needle) (utf8.encode haystack) start with
    | none => exact (utf8.firstFrom_eq_none_of_encode hne hbytes).symm
    | some k =>
        obtain ⟨b, hb, rfl⟩ := (utf8.firstFrom_encode_eq_some_iff hne).1 hbytes
        exact ((firstFrom_eq_offset_iff hb).2 (hplace b hb)).symm

/-- Nothing is before the first place, so the first occurrence is the first one in the bytes. -/
lemma samePlace_zero_iff :
    (∀ b, utf8.FirstAt needle haystack 0 b → SamePlace needle haystack 0 b) ↔
      ∀ i ∈ firstFrom needle haystack 0, OneByteBefore haystack i := by
  refine forall_congr' fun b => ?_
  simp [SyncCode.FirstAt, SamePlace, Option.mem_def, firstFrom_eq_some_iff, imp_not_comm]

/-- The empty string is found wherever the search starts, also behind the end. -/
lemma locate3arg_nil_eq_iff {pos : ℤ} (hpos : 1 ≤ pos) :
    locate3arg (utf8.encode []) (utf8.encode haystack) pos = locateChars [] haystack pos ↔
      pos ≤ haystack.length + 1 := by
  have hempty : (utf8.encode []).length = 0 := rfl
  rw [locate3arg, if_neg (by omega), if_pos hempty, locateChars]
  split_ifs with hrange
  · have hfound : firstFrom [] haystack (pos - 1).toNat = some (pos - 1).toNat :=
      firstFrom_eq_some_iff.2 ⟨le_rfl, ⟨by omega, List.nil_prefix⟩, fun j hj hlt =>
        absurd hlt (not_lt.2 hj)⟩
    rw [hfound, position, Option.elim_some]
    omega
  · omega

/-- The search from a start position. -/
lemma locate3arg_eq_iff (pos : ℤ) :
    locate3arg (utf8.encode needle) (utf8.encode haystack) pos = locateChars needle haystack pos ↔
      PositionsAgree needle haystack pos := by
  rcases Int.lt_or_le pos 1 with hpos | hpos
  · refine iff_of_true ?_ (Or.inl hpos)
    rw [locate3arg, if_pos hpos, locateChars, if_neg (by omega)]
  · rw [PositionsAgree, or_iff_right (by omega)]
    rcases eq_or_ne needle [] with rfl | hne
    · rw [locate3arg_nil_eq_iff hpos]
      simp
    · rw [locate3arg_eq (encode_ne_nil hne) _ hpos, locateChars_eq needle haystack hpos,
        position_injective.eq_iff, firstFrom_encode_eq_iff hne]
      simp [hne]

end

/-- The position that `locate` returns is that of a character exactly if no character of more than
one byte is before the first occurrence; with a start position it is the first occurrence from that
byte on that counts, and it must not stand before the character of that number, or the next one
must happen to stand where its byte is counted. -/
theorem locate_positions_iff (needle haystack : List Char) :
    locate2arg (utf8.encode needle) (utf8.encode haystack) =
      locate3arg (utf8.encode needle) (utf8.encode haystack) 1 ∧
    (locate2arg (utf8.encode needle) (utf8.encode haystack) = locateChars needle haystack 1 ↔
      needle = [] ∨ ∀ i ∈ firstFrom needle haystack 0, OneByteBefore haystack i) ∧
    (∀ pos, locate3arg (utf8.encode needle) (utf8.encode haystack) pos =
        locateChars needle haystack pos ↔ PositionsAgree needle haystack pos) ∧
    (∀ pos, locate3arg (utf8.encode needle) (utf8.encode haystack) pos =
        locateChars needle haystack pos →
      0 < locate3arg (utf8.encode needle) (utf8.encode haystack) pos →
      mid haystack (locate3arg (utf8.encode needle) (utf8.encode haystack) pos).toNat
        needle.length = needle) := by
  refine ⟨locate2arg_eq_locate3arg _ _, ?_, locate3arg_eq_iff, fun pos h hpos => ?_⟩
  · have hbound : (1 : ℤ) ≤ haystack.length + 1 := by omega
    rw [locate2arg_eq_locate3arg, locate3arg_eq_iff, PositionsAgree,
      or_iff_right (Int.lt_irrefl 1), ← samePlace_zero_iff]
    rcases eq_or_ne needle [] with rfl | hne
    · simp [hbound]
    · simp [hne]
  · rw [h] at hpos ⊢
    exact mid_locateChars hpos

/-- The byte position is returned for `b` in `éb`, where `mid` finds nothing, and the empty string
is found behind the end. -/
theorem locate_returns_bytes :
    locate2arg (utf8.encode ['b']) (utf8.encode ['é', 'b']) = 3 ∧
    locateChars ['b'] ['é', 'b'] 1 = 2 ∧
    mid ['é', 'b'] 3 1 ≠ ['b'] ∧
    locate3arg (utf8.encode []) (utf8.encode ['a']) 5 = 5 ∧
    locateChars [] ['a'] 5 = 0 := by
  decide

end DuckdbEngine.Compat
