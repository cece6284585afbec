/-
Edits of a sequence and the parts that they leave alone.

An edit replaces disjoint ranges of a sequence.  `countP_edit` says what it does to the
number of symbols of some kind.
-/
import Mathlib.Algebra.Order.Group.Nat
import Mathlib.Data.List.Basic
import Mathlib.Tactic.Common

namespace TextEdits

variable {α : Type*}

/-- A range of a sequence and the symbols that take its place. -/
structure Range (α : Type*) where
  start : ℕ
  stop : ℕ
  text : List α

/-- The symbols from position `i` up to, not including, position `j`. -/
def slice (s : List α) (i j : ℕ) : List α := (s.take j).drop i

def Range.replace (r : Range α) (s : List α) : List α :=
  s.take r.start ++ r.text ++ s.drop r.stop

/-- The ranges are replaced from the last one to the first one, so that the positions of a range
are those in the sequence as it was. -/
def edit (rs : List (Range α)) (s : List α) : List α :=
  rs.foldr Range.replace s

/-- The ranges are not empty, follow each other from position `lo` on, and end before `n`. -/
def Fits (n : ℕ) : ℕ → List (Range α) → Prop
  | _, [] => True
  | lo, r :: rs => lo ≤ r.start ∧ r.start < r.stop ∧ r.stop ≤ n ∧ Fits n r.stop rs

/-- The symbols that an edit takes out. -/
def removed (rs : List (Range α)) (s : List α) : List α :=
  rs.flatMap fun r => slice s r.start r.stop

/-- The symbols that an edit puts in. -/
def inserted (rs : List (Range α)) : List α := rs.flatMap Range.text

/-! ### Slices -/

lemma length_slice {s : List α} {i j : ℕ} (hj : j ≤ s.length) : (slice s i j).length = j - i := by
  rw [slice, List.length_drop, List.length_take, min_eq_left hj]

lemma take_append_slice {s : List α} {i j : ℕ} (h : i ≤ j) :
    s.take i ++ slice s i j = s.take j := by
  have hpre : (s.take j).take i = s.take i := by rw [List.take_take, min_eq_left h]
  rw [slice, ← hpre, List.take_append_drop]

lemma slice_append {i j k : ℕ} (hij : i ≤ j) (hjk : j ≤ k) (s : List α) :
    slice s i j ++ slice s j k = slice s i k := by
  have h : s.take i ++ (slice s i j ++ slice s j k) = s.take i ++ slice s i k := by
    rw [← List.append_assoc, take_append_slice hij, take_append_slice hjk,
      take_append_slice (hij.trans hjk)]
  exact List.append_cancel_left h

lemma forall_mem_slice {P : α → Prop} {s : List α} {i j k : ℕ} (hij : i ≤ j) (hjk : j ≤ k)
    (h₁ : ∀ a ∈ slice s i j, P a) (h₂ : ∀ a ∈ slice s j k, P a) : ∀ a ∈ slice s i k, P a := by
  rw [← slice_append hij hjk]
  exact fun a ha => (List.mem_append.1 ha).elim (h₁ a) (h₂ a)

lemma slice_add (s : List α) (i n : ℕ) : slice s i (i + n) = (s.drop i).take n := by
  rw [slice, List.drop_take, Nat.add_sub_cancel_left]

lemma slice_takeWhile (p : α → Bool) (s : List α) (i : ℕ) :
    slice s i (i + ((s.drop i).takeWhile p).length) = (s.drop i).takeWhile p := by
  rw [slice_add, ← List.prefix_iff_eq_take.1 (List.takeWhile_prefix p)]

/-! ### What an edit does -/

@[simp] lemma edit_nil (s : List α) : edit [] s = s := rfl

@[simp] lemma edit_cons (r : Range α) (rs : List (Range α)) (s : List α) :
    edit (r :: rs) s = r.replace (edit rs s) := rfl

/-- An edit does nothing in front of its first range. -/
lemma take_edit {rs : List (Range α)} {s : List α} {lo : ℕ} (hlo : lo ≤ s.length)
    (h : Fits s.length lo rs) : (edit rs s).take lo = s.take lo := by
  induction rs generalizing lo with
  | nil => rfl
  | cons r rs ih =>
      obtain ⟨hstart, hlt, hstop, hrest⟩ := h
      have hpre : (edit rs s).take r.start = s.take r.start := by
        rw [← min_eq_left hlt.le, ← List.take_take, ih hstop hrest, List.take_take]
      have hlen : (s.take r.start).length = r.start := by
        rw [List.length_take]
        omega
      rw [edit_cons, Range.replace, hpre, List.append_assoc,
        List.take_append_of_le_length (by omega), List.take_take, min_eq_left hstart]

/-- The first range of an edit is still as it was when its turn comes. -/
lemma edit_around {r : Range α} {rs : List (Range α)} {s : List α} {lo : ℕ}
    (h : Fits s.length lo (r :: rs)) :
    edit rs s =
      s.take r.start ++ slice s r.start r.stop ++ (edit rs s).drop r.stop := by
  obtain ⟨-, hlt, hstop, hrest⟩ := h
  rw [take_append_slice hlt.le, ← take_edit hstop hrest, List.take_append_drop]

lemma replace_edit {r : Range α} {rs : List (Range α)} {s : List α} {lo : ℕ}
    (h : Fits s.length lo (r :: rs)) :
    edit (r :: rs) s =
      s.take r.start ++ r.text ++ (edit rs s).drop r.stop := by
  obtain ⟨-, hlt, hstop, hrest⟩ := h
  have hpre : (edit rs s).take r.start = s.take r.start := by
    rw [← min_eq_left hlt.le, ← List.take_take, take_edit hstop hrest, List.take_take]
  rw [edit_cons, Range.replace, hpre]

/-- What an edit makes of the sequence from position `lo` on, written from left to right. -/
def weave : ℕ → List (Range α) → List α → List α
  | lo, [], s => s.drop lo
  | lo, r :: rs, s => slice s lo r.start ++ r.text ++ weave r.stop rs s

theorem edit_eq_weave {rs : List (Range α)} {s : List α} {lo : ℕ}
    (hlo : lo ≤ s.length) (h : Fits s.length lo rs) :
    edit rs s = s.take lo ++ weave lo rs s := by
  induction rs generalizing lo with
  | nil => exact (List.take_append_drop lo s).symm
  | cons r rs ih =>
      obtain ⟨hstart, hlt, hstop, hrest⟩ := h
      have hback : (edit rs s).drop r.stop = weave r.stop rs s := by
        rw [ih hstop hrest]
        exact List.drop_left' (by rw [List.length_take, min_eq_left hstop])
      rw [replace_edit ⟨hstart, hlt, hstop, hrest⟩, hback, weave, ← take_append_slice hstart]
      simp only [List.append_assoc]

/-- The symbols of some kind in a sequence, before and after an edit. -/
theorem countP_edit (q : α → Bool) {rs : List (Range α)} {s : List α} {lo : ℕ}
    (h : Fits s.length lo rs) :
    (edit rs s).countP q + (removed rs s).countP q =
      s.countP q + (inserted rs).countP q := by
  induction rs generalizing lo with
  | nil => simp [removed, inserted]
  | cons r rs ih =>
      have hpast := congrArg (List.countP q) (edit_around h)
      have hnow := congrArg (List.countP q) (replace_edit h)
      have hrest := ih h.2.2.2
      simp only [removed, inserted, List.flatMap_cons, List.countP_append] at hpast hnow hrest ⊢
      omega

lemma length_removed {rs : List (Range α)} {s : List α} {lo : ℕ} (h : Fits s.length lo rs) :
    (removed rs s).length = rs.foldr (fun r n => r.stop - r.start + n) 0 := by
  induction rs generalizing lo with
  | nil => rfl
  | cons r rs ih =>
      have hrest := ih h.2.2.2
      rw [removed] at hrest ⊢
      rw [List.flatMap_cons, List.length_append, hrest, length_slice h.2.2.1, List.foldr_cons]

lemma length_inserted (rs : List (Range α)) :
    (inserted rs).length = rs.foldr (fun r n => r.text.length + n) 0 := by
  induction rs with
  | nil => rfl
  | cons r rs ih =>
      rw [inserted] at ih ⊢
      rw [List.flatMap_cons, List.length_append, ih, List.foldr_cons]

theorem length_edit {rs : List (Range α)} {s : List α} {lo : ℕ}
    (h : Fits s.length lo rs) :
    (edit rs s).length + rs.foldr (fun r n => r.stop - r.start + n) 0 =
      s.length + rs.foldr (fun r n => r.text.length + n) 0 := by
  have hcount := countP_edit (fun _ => true) h
  simp only [List.countP_true] at hcount
  rw [← length_removed h, ← length_inserted, hcount]

end TextEdits
