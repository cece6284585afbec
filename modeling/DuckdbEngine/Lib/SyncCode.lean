/-
Searching in encoded texts.

A code replaces every letter by a word.  If the words can be told apart by reading from the
left, and the first letters of the words occur nowhere else in them, then the code is
synchronised: the code of a text occurs in the code of another one only where the text
itself occurs.
-/
import Mathlib.Data.List.Infix

/-! ### Occurrences -/

namespace Search

variable {α : Type*} {needle hay : List α} {start i : ℕ}

def Occurs (needle hay : List α) (i : ℕ) : Prop := i ≤ hay.length ∧ needle <+: hay.drop i

lemma Occurs.add_length_le (h : Occurs needle hay i) : i + needle.length ≤ hay.length := by
  have hle := h.2.length_le
  have hbound := h.1
  rw [List.length_drop] at hle
  omega

variable [DecidableEq α]

/-- The first occurrence at `start` or later. -/
def firstFrom (needle hay : List α) (start : ℕ) : Option ℕ :=
  (List.range' start (hay.length + 1 - start)).find? fun i => needle <+: hay.drop i

lemma firstFrom_eq_some_iff : firstFrom needle hay start = some i ↔
    start ≤ i ∧ Occurs needle hay i ∧ ∀ j, start ≤ j → j < i → ¬Occurs needle hay j := by
  rw [firstFrom, List.find?_range'_eq_some]
  simp only [decide_eq_true_eq, List.mem_range'_1, Bool.not_eq_true', decide_eq_false_iff_not]
  constructor
  · rintro ⟨hocc, hmem, hfirst⟩
    exact ⟨hmem.1, ⟨by omega, hocc⟩, fun j hj hji hj' => hfirst j hj hji hj'.2⟩
  · rintro ⟨hle, ⟨hbound, hocc⟩, hfirst⟩
    exact ⟨hocc, by omega, fun j hj hji hj' => hfirst j hj hji ⟨by omega, hj'⟩⟩

lemma firstFrom_eq_none_iff :
    firstFrom needle hay start = none ↔ ∀ j, start ≤ j → ¬Occurs needle hay j := by
  rw [firstFrom, List.find?_range'_eq_none]
  simp only [Bool.not_eq_true', decide_eq_false_iff_not]
  constructor
  · rintro h j hj ⟨hbound, hocc⟩
    exact h j hj (by omega) hocc
  · intro h j hj hlt hocc
    exact h j hj ⟨by omega, hocc⟩

end Search

/-! ### Codes -/

structure SyncCode (α β : Type*) where
  word : α → List β
  /-- The letters with which words begin. -/
  lead : β → Prop
  word_ne_nil : ∀ a, word a ≠ []
  lead_getElem : ∀ a i (h : i < (word a).length), lead (word a)[i] ↔ i = 0
  word_inj : ∀ {a b x y}, word a ++ x = word b ++ y → a = b

namespace SyncCode

open Search

variable {α β : Type*} (C : SyncCode α β)

def encode (l : List α) : List β := l.flatMap C.word

/-- Where the code of the letter at `i` begins. -/
def offset (l : List α) (i : ℕ) : ℕ := (C.encode (l.take i)).length

@[simp] lemma encode_nil : C.encode [] = [] := rfl

@[simp] lemma encode_cons (a : α) (l : List α) : C.encode (a :: l) = C.word a ++ C.encode l :=
  List.flatMap_cons

@[simp] lemma encode_append (l l' : List α) : C.encode (l ++ l') = C.encode l ++ C.encode l' :=
  List.flatMap_append

@[simp] lemma offset_zero (l : List α) : C.offset l 0 = 0 := rfl

lemma offset_cons_succ (a : α) (l : List α) (i : ℕ) :
    C.offset (a :: l) (i + 1) = (C.word a).length + C.offset l i := by
  rw [offset, List.take_succ_cons, encode_cons, List.length_append, offset]

lemma length_pos (a : α) : 0 < (C.word a).length := List.length_pos_of_ne_nil (C.word_ne_nil a)

/-- A letter that is a word occurs in no other word. -/
lemma eq_of_mem_word {a c : α} {b : β} (ha : C.word a = [b]) (hb : b ∈ C.word c) : c = a := by
  have hlead : C.lead b := by
    have h := (C.lead_getElem a 0 (C.length_pos a)).2 rfl
    simpa only [ha, List.getElem_cons_zero] using h
  obtain ⟨i, hi, hget⟩ := List.getElem_of_mem hb
  have hzero : i = 0 := (C.lead_getElem c i hi).1 (hget ▸ hlead)
  subst hzero
  obtain ⟨x, xs, hword⟩ := List.exists_cons_of_ne_nil (C.word_ne_nil c)
  simp only [hword, List.getElem_cons_zero] at hget
  refine (C.word_inj (x := xs) (y := []) ?_).symm
  rw [ha, hword, hget, List.append_nil, List.singleton_append]

/-- A text has at least as many letters in its code, and as many only if all words are letters. -/
lemma length_le_encode (l : List α) : l.length ≤ (C.encode l).length ∧
    ((C.encode l).length = l.length ↔ ∀ a ∈ l, (C.word a).length = 1) := by
  induction l with
  | nil => simp
  | cons a l ih =>
      have hpos := C.length_pos a
      rw [encode_cons, List.length_append, List.length_cons, List.forall_mem_cons, ← ih.2]
      omega

lemma le_offset {l : List α} {i : ℕ} (hi : i ≤ l.length) : i ≤ C.offset l i := by
  have hle := (C.length_le_encode (l.take i)).1
  rwa [List.length_take_of_le hi] at hle

lemma offset_eq_self_iff {l : List α} {i : ℕ} (hi : i ≤ l.length) :
    C.offset l i = i ↔ ∀ a ∈ l.take i, (C.word a).length = 1 := by
  have hiff := (C.length_le_encode (l.take i)).2
  rwa [List.length_take_of_le hi] at hiff

lemma encode_eq_append (l : List α) (i : ℕ) :
    C.encode l = C.encode (l.take i) ++ C.encode (l.drop i) := by
  rw [← encode_append, List.take_append_drop]

lemma encode_drop (l : List α) (i : ℕ) :
    (C.encode l).drop (C.offset l i) = C.encode (l.drop i) := by
  rw [C.encode_eq_append l i, offset, List.drop_left]

lemma offset_lt {l : List α} {i j : ℕ} (hij : i < j) (hj : j ≤ l.length) :
    C.offset l i < C.offset l j := by
  induction l generalizing i j with
  | nil => exact absurd (hij.trans_le hj) (Nat.not_lt_zero i)
  | cons a l ih =>
      obtain ⟨j, rfl⟩ := Nat.exists_eq_add_of_lt (Nat.zero_lt_of_lt hij)
      rw [Nat.zero_add, offset_cons_succ]
      cases i with
      | zero => exact Nat.lt_of_lt_of_le (C.length_pos a) (Nat.le_add_right _ _)
      | succ i =>
          rw [offset_cons_succ]
          exact Nat.add_lt_add_left (ih (by omega) (by simpa using hj)) _

/-- A letter with which words begin is the beginning of a word. -/
lemma exists_offset_of_lead {l : List α} {b : ℕ} (hb : b < (C.encode l).length)
    (hlead : C.lead (C.encode l)[b]) : ∃ i < l.length, b = C.offset l i := by
  induction l generalizing b with
  | nil => exact absurd hb (Nat.not_lt_zero b)
  | cons a l ih =>
      rcases Nat.lt_or_ge b (C.word a).length with hlt | hge
      · simp only [encode_cons, List.getElem_append_left hlt] at hlead
        rw [(C.lead_getElem a b hlt).1 hlead]
        exact ⟨0, Nat.succ_pos _, rfl⟩
      · simp only [encode_cons, List.getElem_append_right hge] at hlead
        rw [encode_cons, List.length_append] at hb
        obtain ⟨i, hi, heq⟩ := ih (by omega) hlead
        refine ⟨i + 1, Nat.succ_lt_succ hi, ?_⟩
        rw [offset_cons_succ]
        omega

/-- The code of a text begins with the code of another one only if the text begins with it. -/
lemma encode_isPrefix_iff {l l' : List α} : C.encode l <+: C.encode l' ↔ l <+: l' := by
  constructor
  · intro h
    induction l generalizing l' with
    | nil => exact List.nil_prefix
    | cons a l ih =>
        obtain ⟨x, hx⟩ := h
        rw [encode_cons, List.append_assoc] at hx
        cases l' with
        | nil => exact absurd (List.append_eq_nil_iff.1 hx).1 (C.word_ne_nil a)
        | cons b l' =>
            rw [encode_cons] at hx
            obtain rfl := C.word_inj hx
            have hrest := ih ⟨x, List.append_cancel_left hx⟩
            exact (List.prefix_cons_inj a).2 hrest
  · rintro ⟨x, rfl⟩
    rw [encode_append]
    exact List.prefix_append _ _

/-- The code of a text occurs exactly where the text occurs. -/
theorem occurs_encode_iff {needle hay : List α} (hne : needle ≠ []) {b : ℕ} :
    Occurs (C.encode needle) (C.encode hay) b ↔
      ∃ i, b = C.offset hay i ∧ Occurs needle hay i := by
  constructor
  · rintro ⟨hbound, hocc⟩
    obtain ⟨a, needle, rfl⟩ := List.exists_cons_of_ne_nil hne
    have hpos := C.length_pos a
    have hlen := hocc.length_le
    rw [encode_cons, List.length_append, List.length_drop] at hlen
    have hb : b < (C.encode hay).length := by omega
    have hfirst : (C.encode hay)[b] = (C.word a)[0] := by
      obtain ⟨x, hx⟩ := hocc
      have hget : ((C.encode hay).drop b)[0]? = (C.word a)[0]? := by
        rw [← hx, encode_cons, List.append_assoc, List.getElem?_append_left hpos]
      rwa [List.getElem?_drop, Nat.add_zero, List.getElem?_eq_getElem hb,
        List.getElem?_eq_getElem hpos, Option.some_inj] at hget
    have hlead : C.lead (C.encode hay)[b] := by
      rw [hfirst]
      exact (C.lead_getElem a 0 hpos).2 rfl
    obtain ⟨i, hi, rfl⟩ := C.exists_offset_of_lead hb hlead
    rw [encode_drop] at hocc
    exact ⟨i, rfl, hi.le, C.encode_isPrefix_iff.1 hocc⟩
  · rintro ⟨i, rfl, hi, hocc⟩
    refine ⟨?_, ?_⟩
    · rw [C.encode_eq_append hay i, List.length_append]
      exact Nat.le_add_right _ _
    · rw [encode_drop]
      exact C.encode_isPrefix_iff.2 hocc

/-- The first occurrence whose code does not begin before place `start` of the code. -/
def FirstAt (needle hay : List α) (start b : ℕ) : Prop :=
  Occurs needle hay b ∧ start ≤ C.offset hay b ∧
    ∀ j < b, Occurs needle hay j → C.offset hay j < start

/-- A search in the code finds the code of the first occurrence that does not begin before. -/
theorem firstFrom_encode_eq_some_iff [DecidableEq β] {needle hay : List α} (hne : needle ≠ [])
    {start k : ℕ} :
    firstFrom (C.encode needle) (C.encode hay) start = some k ↔
      ∃ b, C.FirstAt needle hay start b ∧ C.offset hay b = k := by
  rw [firstFrom_eq_some_iff]
  constructor
  · rintro ⟨hstart, hk, hleast⟩
    obtain ⟨b, rfl, hb⟩ := (C.occurs_encode_iff hne).1 hk
    refine ⟨b, ⟨hb, hstart, fun j hj hocc => ?_⟩, rfl⟩
    by_contra hle
    exact hleast _ (not_lt.1 hle) (C.offset_lt hj hb.1)
      ((C.occurs_encode_iff hne).2 ⟨j, rfl, hocc⟩)
  · rintro ⟨b, ⟨hb, hstart, hleast⟩, rfl⟩
    refine ⟨hstart, (C.occurs_encode_iff hne).2 ⟨b, rfl, hb⟩, fun k hk hlt hocc => ?_⟩
    obtain ⟨j, rfl, hj⟩ := (C.occurs_encode_iff hne).1 hocc
    have hjb : j < b := by
      by_contra hle
      rcases Nat.eq_or_lt_of_le (not_lt.1 hle) with rfl | hbj
      · exact lt_irrefl _ hlt
      · exact lt_asymm hlt (C.offset_lt hbj hj.1)
    exact absurd (hleast j hjb hj) (not_lt.2 hk)

/-- Nothing is found from a place on from which nothing is found in the code. -/
lemma firstFrom_eq_none_of_encode [DecidableEq α] [DecidableEq β] {needle hay : List α}
    (hne : needle ≠ []) {start : ℕ}
    (h : firstFrom (C.encode needle) (C.encode hay) start = none) :
    firstFrom needle hay start = none := by
  rw [firstFrom_eq_none_iff] at h ⊢
  exact fun j hj hocc =>
    h _ (hj.trans (C.le_offset hocc.1)) ((C.occurs_encode_iff hne).2 ⟨j, rfl, hocc⟩)

end SyncCode
