/-
Joins of two relations under three-valued conditions.

A condition is true, false or unknown; a row is kept where it is true.  The join
of two lists of rows `A` and `B` pairs the rows that the ON condition accepts; an
outer join adds the rows of its preserved side without a partner, extended by a row
of NULLs.

Restricting `B` to rows with a property `p` that the filter above the join implies
changes nothing, with one exception: when `B` is the NULL-supplying side, a row of
`A` can lose all its partners, and its NULL-extended row may pass the filter
(`prefilter_perm_iff`).
-/
import Mathlib.Algebra.BigOperators.Group.List.Basic
import Mathlib.Data.List.Perm.Basic

namespace Joins

/-- The value of a condition: `none` is unknown. -/
abbrev Truth := Option Bool

/-- The three-valued conjunction. -/
def Truth.and : Truth → Truth → Truth
  | some false, _ => some false
  | _, some false => some false
  | some true, some true => some true
  | _, _ => none

/-- The conjunction of a list of conditions. -/
def Truth.all (ts : List Truth) : Truth := ts.foldr Truth.and (some true)

lemma Truth.and_eq_true {s t : Truth} : s.and t = some true ↔ s = some true ∧ t = some true := by
  rcases s with _ | _ | _ <;> rcases t with _ | _ | _ <;> simp [Truth.and]

lemma Truth.all_eq_true {ts : List Truth} :
    Truth.all ts = some true ↔ ∀ t ∈ ts, t = some true := by
  induction ts with
  | nil => simp [Truth.all]
  | cons t ts ih =>
      rw [Truth.all, List.foldr_cons, Truth.and_eq_true, List.forall_mem_cons]
      exact and_congr_right' ih

/-- A join of a left and a right operand; an outer join is named after the side it
preserves. -/
inductive JoinType where
  | inner
  | left
  | right
deriving DecidableEq

variable {α β : Type*} (nullA : α) (nullB : β) (on : α → β → Truth)

/-- The rows of `B` that the row `a` is joined with. -/
def partners (B : List β) (a : α) : List β := B.filter fun b => on a b = some true

/-- The rows of a LEFT JOIN that come from the row `a` of its left operand. -/
def leftRows (B : List β) (a : α) : List (α × β) :=
  if (partners on B a).isEmpty then [(a, nullB)] else (partners on B a).map fun b => (a, b)

/-- The join of `A` and `B`. -/
def join : JoinType → List α → List β → List (α × β)
  | .inner, A, B => A.flatMap fun a => (partners on B a).map fun b => (a, b)
  | .left, A, B => A.flatMap (leftRows nullB on B)
  | .right, A, B =>
      B.flatMap fun b => (leftRows nullA (fun b a => on a b) A b).map Prod.swap

/-- The rows of the join that the filter `w` keeps. -/
def query (w : α × β → Bool) (jt : JoinType) (A : List α) (B : List β) : List (α × β) :=
  (join nullA nullB on jt A B).filter w

variable {nullA nullB on} {w : α × β → Bool} {p : β → Bool}

lemma partners_eq_nil {B : List β} {a : α} :
    partners on B a = [] ↔ ∀ b ∈ B, on a b ≠ some true := by
  simp [partners, List.filter_eq_nil_iff]

/-- The partners that the filter above the join keeps are found among the rows with the
property. -/
lemma filter_map_partners_filter (on : α → β → Truth)
    (hw : ∀ a b, w (a, b) = true → p b = true) (B : List β) (a : α) :
    ((partners on (B.filter p) a).map fun b => (a, b)).filter w =
      ((partners on B a).map fun b => (a, b)).filter w := by
  rw [List.filter_map, List.filter_map, partners, partners, List.filter_filter, List.filter_filter,
    List.filter_filter]
  congr 1
  refine List.filter_congr fun b _ => ?_
  cases hwb : w (a, b) with
  | false => simp [hwb]
  | true => simp [hwb, hw a b hwb]

/-- The row `a` has partners in `B`, but none with the property, and its NULL-extended
row passes the filter. -/
def Orphaned (nullB : β) (on : α → β → Truth) (w : α × β → Bool) (p : β → Bool) (B : List β)
    (a : α) : Prop :=
  partners on B a ≠ [] ∧ partners on (B.filter p) a = [] ∧ w (a, nullB) = true

open Classical in
/-- Below a LEFT JOIN, restricting the right operand adds the NULL-extended rows of
the orphaned left rows and changes nothing else. -/
lemma filter_leftRows_filter (hw : ∀ a b, w (a, b) = true → p b = true) (B : List β) (a : α) :
    (leftRows nullB on (B.filter p) a).filter w =
      (leftRows nullB on B a).filter w ++
        if Orphaned nullB on w p B a then [(a, nullB)] else [] := by
  have hsub : partners on B a = [] → partners on (B.filter p) a = [] := fun h => by
    rw [partners_eq_nil] at h ⊢
    exact fun b hb => h b (List.mem_of_mem_filter hb)
  have hkept := filter_map_partners_filter on hw B a
  by_cases hfull : partners on B a = []
  · simp [leftRows, hfull, hsub hfull, Orphaned]
  by_cases hpart : partners on (B.filter p) a = []
  · -- All partners are lost: none of them passes the filter.
    rw [hpart, List.map_nil, List.filter_nil] at hkept
    by_cases hnull : w (a, nullB) = true <;>
      simp [leftRows, hfull, hpart, ← hkept, Orphaned, hnull]
  · simp [leftRows, hfull, hpart, hkept, Orphaned]

lemma flatMap_append_perm_iff {γ δ : Type*} {l : List γ} {f g : γ → List δ} :
    (l.flatMap fun c => f c ++ g c).Perm (l.flatMap f) ↔ ∀ c ∈ l, g c = [] := by
  constructor
  · intro h
    have hlen := h.length_eq
    simp only [List.length_flatMap, List.length_append, List.sum_map_add] at hlen
    have hzero : (l.map fun c => (g c).length).sum = 0 := by omega
    intro c hc
    exact List.length_eq_zero_iff.1 (List.sum_eq_zero_iff_forall_eq_nat.1 hzero _ (List.mem_map_of_mem hc))
  · intro h
    refine List.Perm.of_eq (List.flatMap_congr fun c hc => ?_)
    rw [h c hc, List.append_nil]

/-- Elements that contribute nothing can be left out. -/
lemma flatMap_filter_of_nil {γ : Type*} {f : β → List γ} (h : ∀ b, ¬ p b = true → f b = [])
    (B : List β) : (B.filter p).flatMap f = B.flatMap f := by
  induction B with
  | nil => rfl
  | cons b B ih =>
      by_cases hb : p b = true
      · rw [List.filter_cons_of_pos hb, List.flatMap_cons, List.flatMap_cons, ih]
      · rw [List.filter_cons_of_neg hb, List.flatMap_cons, h b hb, List.nil_append, ih]

/-- A row of the right operand without the property has no row above the filter. -/
lemma filter_rightRows_of_not (hw : ∀ a b, w (a, b) = true → p b = true) (A : List α) {b : β}
    (hb : ¬ p b = true) :
    ((leftRows nullA (fun b a => on a b) A b).map Prod.swap).filter w = [] := by
  rw [List.filter_eq_nil_iff]
  intro r hr hwr
  have hrb : r.2 = b := by
    rw [leftRows] at hr
    split at hr
    · simp_all
    · simp only [List.map_map, List.mem_map, Function.comp_apply] at hr
      obtain ⟨a, -, rfl⟩ := hr
      rfl
  exact hb (hrb ▸ hw r.1 r.2 hwr)

/-- Restricting `B` before the join to rows with a property that the filter above the
join implies gives the same rows, unless `B` is the NULL-supplying side and some
row of `A` is orphaned. -/
theorem prefilter_perm_iff (hw : ∀ a b, w (a, b) = true → p b = true) (jt : JoinType)
    (A : List α) (B : List β) :
    (query nullA nullB on w jt A (B.filter p)).Perm (query nullA nullB on w jt A B) ↔
      (jt = .left → ∀ a ∈ A, ¬ Orphaned nullB on w p B a) := by
  cases jt with
  | inner =>
      simp only [query, join, List.filter_flatMap, filter_map_partners_filter on hw, reduceCtorEq,
        false_imp_iff, iff_true]
      exact List.Perm.refl _
  | left =>
      simp only [query, join, List.filter_flatMap, filter_leftRows_filter hw]
      rw [flatMap_append_perm_iff]
      simp
  | right =>
      simp only [query, join, List.filter_flatMap,
        flatMap_filter_of_nil fun b hb => filter_rightRows_of_not hw A hb, reduceCtorEq,
        false_imp_iff, iff_true]
      exact List.Perm.refl _

end Joins
