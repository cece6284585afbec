/-
Cutting a text into pieces from left to right.

A lexer looks at the rest of a text and says what its first piece is and how long it
is; a length of 0 stands for a single symbol.  `pieces` repeats this to the end of the
text.  The pieces make up the text (`flatten_pieces`); a statement about all pieces
is proved by following the cuts (`cut_induction`); and a text that was put together from
parts is cut into these parts if the lexer recognizes each of them in front of what
follows (`pieces_append`).  `Starts` says where the pieces begin.
-/
import Mathlib.Algebra.Order.Group.Nat
import Mathlib.Data.List.Basic
import Mathlib.Tactic.Common

namespace Lexing

variable {α τ : Type*}

/-- The kind and the length of the first piece. -/
abbrev Lexer (α τ : Type*) := List α → τ × ℕ

/-- The length of the first piece, at least one symbol. -/
def Lexer.size (next : Lexer α τ) (s : List α) : ℕ := max 1 (next s).2

/-- The first pieces, at most `n` of them. -/
def cut (next : Lexer α τ) : ℕ → List α → List (τ × List α)
  | 0, _ => []
  | _ + 1, [] => []
  | n + 1, a :: s =>
      ((next (a :: s)).1, (a :: s).take (next.size (a :: s))) ::
        cut next n ((a :: s).drop (next.size (a :: s)))

/-- The pieces of a text. -/
def pieces (next : Lexer α τ) (s : List α) : List (τ × List α) := cut next s.length s

variable {next : Lexer α τ}

lemma Lexer.size_pos (next : Lexer α τ) (s : List α) : 0 < next.size s :=
  lt_of_lt_of_le Nat.zero_lt_one (le_max_left _ _)

lemma Lexer.size_eq {s : List α} (h : 0 < (next s).2) : next.size s = (next s).2 :=
  max_eq_right h

lemma length_drop_lt (next : Lexer α τ) (a : α) (s : List α) :
    ((a :: s).drop (next.size (a :: s))).length ≤ s.length := by
  have := next.size_pos (a :: s)
  rw [List.length_drop, List.length_cons]
  omega

/-- More fuel than the text is long changes nothing. -/
lemma cut_eq_cut {n m : ℕ} {s : List α} (hn : s.length ≤ n) (hm : s.length ≤ m) :
    cut next n s = cut next m s := by
  induction n generalizing m s with
  | zero =>
      cases List.length_eq_zero_iff.1 (Nat.le_zero.1 hn)
      cases m <;> rfl
  | succ n ih =>
      cases s with
      | nil => cases m <;> rfl
      | cons a s =>
          cases m with
          | zero => simp at hm
          | succ m =>
              have hle := length_drop_lt next a s
              rw [List.length_cons] at hn hm
              rw [cut, cut, ih (m := m) (by omega) (by omega)]

@[simp] lemma pieces_nil : pieces next [] = [] := rfl

lemma pieces_cons (a : α) (s : List α) :
    pieces next (a :: s) =
      ((next (a :: s)).1, (a :: s).take (next.size (a :: s))) ::
        pieces next ((a :: s).drop (next.size (a :: s))) := by
  rw [pieces, List.length_cons, cut, cut_eq_cut (length_drop_lt next a s) le_rfl, ← pieces]

/-- The induction along the cuts of a text. -/
theorem cut_induction (next : Lexer α τ) {P : List α → Prop} (nil : P [])
    (cons : ∀ a s, P ((a :: s).drop (next.size (a :: s))) → P (a :: s)) (s : List α) : P s := by
  induction h : s.length using Nat.strong_induction_on generalizing s with
  | _ n ih =>
      cases s with
      | nil => exact nil
      | cons a s =>
          refine cons a s (ih _ ?_ _ rfl)
          rw [← h, List.length_cons]
          exact Nat.lt_succ_of_le (length_drop_lt next a s)

lemma flatten_pieces (next : Lexer α τ) (s : List α) : (pieces next s).flatMap Prod.snd = s := by
  induction s using cut_induction next with
  | nil => rfl
  | cons a s ih => rw [pieces_cons, List.flatMap_cons, ih, List.take_append_drop]

/-- A part that the lexer recognizes in front of the rest is a piece. -/
theorem pieces_append {t : τ} {u v : List α} (hu : u ≠ []) (h : next (u ++ v) = (t, u.length)) :
    pieces next (u ++ v) = (t, u) :: pieces next v := by
  obtain ⟨a, u, rfl⟩ := List.exists_cons_of_ne_nil hu
  rw [List.cons_append] at h ⊢
  have hsize : next.size (a :: (u ++ v)) = (a :: u).length := by
    rw [Lexer.size_eq] <;> simp [h]
  rw [pieces_cons, hsize, h]
  simp

/-- A single symbol. -/
lemma pieces_single {t : τ} {a : α} {v : List α} (h : next (a :: v) = (t, 0)) :
    pieces next (a :: v) = (t, [a]) :: pieces next v := by
  have hsize : next.size (a :: v) = 1 := by simp [Lexer.size, h]
  rw [pieces_cons, hsize, h]
  rfl

/-! ### Where the pieces are -/

/-- A piece begins at position `i`, or the text ends there. -/
def Starts (next : Lexer α τ) (s : List α) (i : ℕ) : Prop :=
  ∃ ps, pieces next s = ps ++ pieces next (s.drop i) ∧ (ps.flatMap Prod.snd).length = i

lemma starts_zero (next : Lexer α τ) (s : List α) : Starts next s 0 := ⟨[], rfl, rfl⟩

lemma starts_nil_iff {i : ℕ} : Starts next [] i ↔ i = 0 := by
  constructor
  · rintro ⟨ps, hps, rfl⟩
    rw [pieces_nil, List.drop_nil, pieces_nil, List.append_nil] at hps
    rw [← hps]
    rfl
  · rintro rfl
    exact starts_zero next []

lemma drop_length_take_add (s : List α) (n j : ℕ) :
    s.drop ((s.take n).length + j) = (s.drop n).drop j := by
  rw [← List.drop_drop]
  congr 1
  rw [List.length_take]
  rcases Nat.le_total n s.length with h | h
  · rw [min_eq_left h]
  · rw [min_eq_right h, List.drop_length, List.drop_of_length_le h]

lemma take_length_take_add (s : List α) (n j : ℕ) :
    s.take ((s.take n).length + j) = s.take n ++ (s.drop n).take j := by
  have hdrop := drop_length_take_add s n 0
  rw [Nat.add_zero, List.drop_zero] at hdrop
  rw [List.take_add, hdrop, List.length_take, ← List.take_eq_take_min]

/-- A piece other than the first one is a piece of what follows the first one. -/
lemma starts_cons_iff {a : α} {s : List α} {i : ℕ} :
    Starts next (a :: s) i ↔ i = 0 ∨ ∃ j, i = ((a :: s).take (next.size (a :: s))).length + j ∧
      Starts next ((a :: s).drop (next.size (a :: s))) j := by
  constructor
  · rintro ⟨ps, hps, hlen⟩
    cases ps with
    | nil => exact Or.inl hlen.symm
    | cons p ps =>
        rw [pieces_cons, List.cons_append, List.cons.injEq] at hps
        rw [List.flatMap_cons, List.length_append, ← hps.1] at hlen
        refine Or.inr ⟨_, hlen.symm, ps, ?_, rfl⟩
        rw [hps.2, ← drop_length_take_add, hlen]
  · rintro (rfl | ⟨j, rfl, ps, hps, rfl⟩)
    · exact starts_zero next _
    · refine ⟨((next (a :: s)).1, (a :: s).take (next.size (a :: s))) :: ps, ?_, ?_⟩
      · rw [pieces_cons, hps, drop_length_take_add, List.cons_append]
      · rw [List.flatMap_cons, List.length_append]

/-- From the beginning of a piece on, the text is cut as before. -/
lemma starts_add_iff {s : List α} {i : ℕ} (h : Starts next s i) (j : ℕ) :
    Starts next s (i + j) ↔ Starts next (s.drop i) j := by
  induction s using cut_induction next generalizing i with
  | nil =>
      cases starts_nil_iff.1 h
      rw [Nat.zero_add, List.drop_zero]
  | cons a s ih =>
      rcases starts_cons_iff.1 h with rfl | ⟨k, rfl, hk⟩
      · rw [Nat.zero_add, List.drop_zero]
      · rw [drop_length_take_add, ← ih hk, starts_cons_iff]
        constructor
        · rintro (hzero | ⟨l, hl, hstart⟩)
          · have hpos : 0 < ((a :: s).take (next.size (a :: s))).length := by
              rw [List.length_take, List.length_cons]
              have := next.size_pos (a :: s)
              omega
            omega
          · rwa [show k + j = l by omega]
        · exact fun hstart => Or.inr ⟨k + j, by omega, hstart⟩

lemma starts_le {s : List α} {i : ℕ} (h : Starts next s i) : i ≤ s.length := by
  obtain ⟨ps, hps, rfl⟩ := h
  have hlen := congrArg (fun qs => (qs.flatMap Prod.snd).length) hps
  simp only [List.flatMap_append, flatten_pieces, List.length_append, List.length_drop] at hlen
  omega

end Lexing
