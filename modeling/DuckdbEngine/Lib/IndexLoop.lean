/-
Loops with an index.

A program that walks over a list with an index is followed by what is left of the list from
the index on, `data.drop i`; the first lemmas say what is read there and what is left behind
it.  A loop that moves the index on in every round, and does nothing behind the end of the
list, makes at most as many rounds as the list has elements (`Advances`), and `stopOf` is the
index at which it ends.  The loops `forward` and `backward` run over the elements of a kind.
-/
import DuckdbEngine.Lib.WhileLoop

namespace IndexLoop

open WhileLoop

variable {α : Type*} {data w rest : List α} {i j : ℕ} {c : α}

/-! ### Reading at an index -/

lemma getElem?_add_length (h : data.drop i = w ++ rest) : data[i + w.length]? = rest.head? := by
  rw [← List.getElem?_drop, h, List.getElem?_append_right (Nat.le_refl _), Nat.sub_self,
    List.head?_eq_getElem?]

lemma drop_add_length (h : data.drop i = w ++ rest) : data.drop (i + w.length) = rest := by
  rw [← List.drop_drop, h, List.drop_left]

lemma drop_next (h : data.drop i = w ++ c :: rest) : data.drop (i + w.length + 1) = rest := by
  rw [← List.drop_drop, drop_add_length h, List.drop_one, List.tail_cons]

lemma inside (h : data.drop i = c :: rest) :
    i < data.length ∧ data[i]? = some c ∧ data.drop (i + 1) = rest := by
  have hget : data[i]? = some c := getElem?_add_length (w := []) h
  exact ⟨(List.getElem?_eq_some_iff.1 hget).1, hget, drop_next (w := []) h⟩

lemma behind (h : data.drop i = []) : data.length ≤ i ∧ data[i]? = none := by
  have hle := List.drop_eq_nil_iff.1 h
  exact ⟨hle, List.getElem?_eq_none hle⟩

/-! ### Loops that advance -/

/-- Every round moves the index on, and there is none behind the end of the list. -/
def Advances (data : List α) (next : ℕ → Option ℕ) : Prop :=
  ∀ i j, next i = some j → i < j ∧ i < data.length

/-- The index at which a loop ends that makes at most as many rounds as the list has
elements. -/
def stopOf (data : List α) (next : ℕ → Option ℕ) (i : ℕ) : ℕ :=
  StepRun.run goto i (rounds next goto data.length i)

namespace Advances

variable {next : ℕ → Option ℕ} (h : Advances data next)
include h

lemma decreases (i j : ℕ) (hij : next i = some j) :
    data.length - goto i j < data.length - i := by
  obtain ⟨hlt, hend⟩ := h i j hij
  show data.length - j < data.length - i
  omega

theorem endsIn_stopOf (i : ℕ) : EndsIn next goto i (stopOf data next i) :=
  endsIn_run_rounds h.decreases (Nat.sub_le _ _)

lemma stopOf_eq (hend : EndsIn next goto i j) : stopOf data next i = j :=
  (h.endsIn_stopOf i).unique hend

end Advances

/-! ### The elements of a kind -/

/-- Over the elements of a kind, up to the end of the list. -/
def forward (data : List α) (kind : α → Bool) (i : ℕ) : Option ℕ :=
  if data[i]?.any kind then some (i + 1) else none

/-- Over the elements of a kind in front of the index. -/
def backward (data : List α) (kind : α → Bool) (i : ℕ) : Option ℕ :=
  if 0 < i ∧ data[i - 1]?.any kind then some (i - 1) else none

variable (kind : α → Bool)

lemma advances_forward : Advances data (forward data kind) := by
  intro i j h
  rw [forward] at h
  split at h
  · next hany =>
      cases h
      cases hget : data[i]? with
      | none => simp [hget] at hany
      | some c => exact ⟨Nat.lt_succ_self i, (List.getElem?_eq_some_iff.1 hget).1⟩
  · cases h

/-- By induction on what is left of the list. -/
theorem endsIn_forward (i : ℕ) :
    EndsIn (forward data kind) goto i (i + ((data.drop i).takeWhile kind).length) := by
  induction hs : data.drop i generalizing i with
  | nil => exact .stop (by rw [forward, (behind hs).2]; rfl)
  | cons c s ih =>
      obtain ⟨-, hget, hdrop⟩ := inside hs
      have hstep : forward data kind i = if kind c then some (i + 1) else none := by
        rw [forward, hget]
        rfl
      cases hc : kind c with
      | true =>
          rw [List.takeWhile_cons_of_pos hc, List.length_cons, Nat.add_comm _ 1, ← Nat.add_assoc]
          exact .round (hstep.trans (if_pos hc)) (ih (i + 1) hdrop)
      | false =>
          rw [List.takeWhile_cons_of_neg (by simp [hc])]
          exact .stop (hstep.trans (if_neg (by simp [hc])))

theorem endsIn_backward (hi : i ≤ data.length) :
    EndsIn (backward data kind) goto i (i - ((data.take i).reverse.takeWhile kind).length) := by
  induction i with
  | zero => exact .stop (if_neg fun h => Nat.lt_irrefl 0 h.1)
  | succ i ih =>
      obtain ⟨c, hget⟩ : ∃ c, data[i]? = some c := ⟨data[i], List.getElem?_eq_getElem hi⟩
      have hstep : backward data kind (i + 1) = if kind c then some i else none := by
        rw [backward, Nat.add_sub_cancel, hget]
        simp
      rw [List.take_add_one, hget, Option.toList_some, List.reverse_append, List.reverse_singleton,
        List.singleton_append]
      cases hc : kind c with
      | true =>
          rw [List.takeWhile_cons_of_pos hc, List.length_cons, Nat.add_sub_add_right]
          exact .round (hstep.trans (if_pos hc)) (ih (Nat.le_of_succ_le hi))
      | false =>
          rw [List.takeWhile_cons_of_neg (by simp [hc])]
          exact .stop (hstep.trans (if_neg (by simp [hc])))

/-- The elements of a kind at the end of a list, and what is in front of them. -/
lemma split_takeWhile_reverse (s : List α) :
    s.take (s.length - (s.reverse.takeWhile kind).length) = (s.reverse.dropWhile kind).reverse ∧
      s.drop (s.length - (s.reverse.takeWhile kind).length) =
        (s.reverse.takeWhile kind).reverse := by
  have hsplit : (s.reverse.dropWhile kind).reverse ++ (s.reverse.takeWhile kind).reverse = s := by
    rw [← List.reverse_append, List.takeWhile_append_dropWhile, List.reverse_reverse]
  have hlen := congrArg List.length hsplit
  rw [List.length_append, List.length_reverse, List.length_reverse] at hlen
  have hfront : s.length - (s.reverse.takeWhile kind).length =
      (s.reverse.dropWhile kind).reverse.length := by
    rw [List.length_reverse]
    omega
  exact ⟨(congrArg (List.take _) hsplit.symm).trans (List.take_left' hfront.symm),
    (congrArg (List.drop _) hsplit.symm).trans (List.drop_left' hfront.symm)⟩

end IndexLoop
