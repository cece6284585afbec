/-
Tables whose columns are addressed by names.

A name stands for the first column with the same key, where the key of a name may for
example forget its case.  A query over names is compared with one over positions by
resolving the names: the names of the columns at given positions are resolved to these
positions if all keys are different.
-/
import Mathlib.Data.List.Basic
import Mathlib.Data.List.Nodup
import Mathlib.Data.List.GetD

namespace NamedTable

/-! ### Names -/

section Names

variable {N K : Type*} [DecidableEq K] (key : N → K)

/-- The position of the column with the name. -/
def index (cols : List N) (n : N) : Option ℕ := cols.findIdx? fun m => key m = key n

/-- The positions of several columns; an unknown name is an error. -/
def indexes (cols ns : List N) : Option (List ℕ) := ns.mapM (index key cols)

variable {key} {cols : List N}

lemma index_of_getElem? (h : (cols.map key).Nodup) {i : ℕ} {n : N} (hi : cols[i]? = some n) :
    index key cols n = some i := by
  rw [index, List.findIdx?_eq_some_iff_getElem]
  obtain ⟨hlt, rfl⟩ := List.getElem?_eq_some_iff.1 hi
  refine ⟨hlt, decide_eq_true rfl, fun j hj hkey => ?_⟩
  have hne := List.pairwise_iff_getElem.1 h j i (by simp; omega) (by simpa) hj
  exact hne (by simpa using of_decide_eq_true hkey)

lemma indexes_of_forall₂ (h : (cols.map key).Nodup) {ns : List N} {is : List ℕ}
    (hns : List.Forall₂ (fun n i => cols[i]? = some n) ns is) : indexes key cols ns = some is := by
  induction hns with
  | nil => rfl
  | cons hi _ ih =>
      rw [indexes] at ih ⊢
      rw [List.mapM_cons, index_of_getElem? h hi, ih]
      rfl

end Names

/-! ### Rows -/

section Rows

variable {α : Type*} (d : α)

/-- The cells at the positions; `d` stands for a cell that is not there. -/
def project (js : List ℕ) (row : List α) : List α := js.map fun j => row.getD j d

lemma project_range_append (row rest : List α) :
    project d (List.range row.length) (row ++ rest) = row := by
  refine List.ext_getElem (by simp [project]) fun i hi hi' => ?_
  simp only [project, List.getElem_map, List.getElem_range]
  rw [List.getD_append _ _ _ _ hi', List.getD_eq_getElem _ _ hi']

lemma project_append {js : List ℕ} {row : List α} (h : ∀ j ∈ js, j < row.length) (rest : List α) :
    project d js (row ++ rest) = project d js row :=
  List.map_congr_left fun j hj => List.getD_append _ _ _ _ (h j hj)

/-- The number of a row in its partition, the greatest cell of the column `order` first. -/
def rowNumber [DecidableEq α] (lt : α → α → Bool) (part : List ℕ) (order : ℕ)
    (rows : List (List α)) (r : List α) : ℕ :=
  1 + rows.countP fun q =>
    project d part q = project d part r ∧ lt (r.getD order d) (q.getD order d) = true

end Rows

end NamedTable
