/-
Pre-filtering an external table.

For a query over a DuckDB table A and an external table B, the conjuncts of the WHERE
that mention only B are registered and applied to B by the scan, below the join.  The
whole WHERE is still evaluated above it.  The result is the same unless B is the
NULL-supplying side of an outer join and a row of A loses its partners by the
pre-filtering while its NULL-extended row satisfies the WHERE.
-/
import DuckdbEngine.CrossEngine.Scan

namespace DuckdbEngine.CrossEngine

open Joins

variable {V : Type}

/-- A query `A JOIN B ON on WHERE cond`: the numbers of the two tables in the SELECT and the
number of columns of A. -/
structure JoinQuery (V : Type) where
  joinType : JoinType
  on : Row V → Row V → Truth
  cond : List (Conjunct V)
  mapA : ℕ
  mapB : ℕ
  map_ne : mapA ≠ mapB
  columnsA : ℕ

/-- The row of NULLs. -/
def nullRow (columns : ℕ) : Row V := List.replicate columns none

namespace JoinQuery

variable (q : JoinQuery V)

/-- The rows of the two tables, by table number. -/
def rowsOf (a b : Row V) (i : ℕ) : Row V := if i = q.mapB then b else a

/-- The WHERE is true of a joined row. -/
def keeps (x : Row V × Row V) : Bool := evalCond q.cond (q.rowsOf x.1 x.2) = some true

/-- The rows of the query over given contents of A and B. -/
def eval (columnsB : ℕ) (A B : List (Row V)) : List (Row V × Row V) :=
  query (nullRow q.columnsA) (nullRow columnsB) q.on q.keeps q.joinType A B

/-- The condition that `init_scan` registers for B. -/
def registeredWhere : Option (List (Conjunct V)) := makeCondForTable q.cond q.mapB

/-- The rows of B that the scan hands to DuckDB when all columns are read. -/
def scannedRows (B : ExternalTable V) : List (Row V) :=
  syntheticSelect B (List.range B.fields) q.registeredWhere

end JoinQuery

lemma project_range {r : Row V} {n : ℕ} (h : r.length = n) : project (List.range n) r = r := by
  subst h
  refine List.ext_getElem (by simp [project]) fun i hi hi' => ?_
  simp [project, List.getElem?_eq_getElem hi']

lemma whereTrue_iff {whereSql : Option (List (Conjunct V))} {r : Row V} :
    whereTrue whereSql r = true ↔ ∀ c ∈ whereSql.getD [], c.eval (fun _ => r) = some true := by
  simp [whereTrue, evalCond, Truth.all_eq_true]

namespace JoinQuery

variable {q : JoinQuery V}

lemma scannedRows_eq (B : ExternalTable V) :
    q.scannedRows B = B.rows.filter (whereTrue q.registeredWhere) := by
  rw [scannedRows, syntheticSelect]
  conv_rhs => rw [← List.map_id (B.rows.filter (whereTrue q.registeredWhere))]
  refine List.map_congr_left fun r hr => ?_
  exact project_range (B.rows_length r (List.mem_of_mem_filter hr))

/-- A joined row that the WHERE keeps has a B part that the registered condition keeps. -/
lemma whereTrue_of_keeps {a b : Row V} (h : q.keeps (a, b) = true) :
    whereTrue q.registeredWhere b = true := by
  rw [whereTrue_iff, registeredWhere, makeCondForTable_getD]
  intro c hc
  obtain ⟨hcond, hmap⟩ := List.mem_filter.1 hc
  rw [decide_eq_true_eq] at hmap
  have hkeeps : ∀ c ∈ q.cond, c.eval (q.rowsOf a b) = some true := by
    simpa [keeps, evalCond, Truth.all_eq_true] using h
  rw [← hkeeps c hcond]
  refine c.eval_congr _ _ fun i hi => ?_
  rw [hmap, Finset.mem_singleton] at hi
  rw [rowsOf, if_pos hi]

/-- Pre-filtering preserves the rows of the query exactly if B is not the NULL-supplying side,
or the WHERE is not true of the NULL-extended row of any row of A that has partners in B, but
none that satisfies the conjuncts on B alone. -/
theorem prefiltered_eval_perm_iff (q : JoinQuery V) (A : List (Row V)) (B : ExternalTable V) :
    (q.eval B.fields A (q.scannedRows B)).Perm (q.eval B.fields A B.rows) ↔
      (q.joinType = .left → ∀ a ∈ A, (∃ b ∈ B.rows, q.on a b = some true) →
        (∀ b ∈ B.rows, q.on a b = some true →
          ∃ c ∈ q.cond, c.usedTables = {q.mapB} ∧ c.eval (fun _ => b) ≠ some true) →
        evalCond q.cond (q.rowsOf a (nullRow B.fields)) ≠ some true) := by
  have hfilter : ∀ b, whereTrue q.registeredWhere b = true ↔
      ∀ c ∈ q.cond, c.usedTables = {q.mapB} → c.eval (fun _ => b) = some true := by
    intro b
    simp only [whereTrue_iff, registeredWhere, makeCondForTable_getD, List.mem_filter,
      decide_eq_true_eq, and_imp]
  rw [scannedRows_eq, eval, eval, prefilter_perm_iff fun a b => whereTrue_of_keeps]
  refine imp_congr_right fun _ => forall₂_congr fun a _ => ?_
  rw [Orphaned, Ne, partners_eq_nil, partners_eq_nil, keeps, decide_eq_true_eq, not_and, not_and]
  simp only [not_forall, not_not, exists_prop, List.mem_filter, hfilter, and_imp]
  refine imp_congr_right fun _ => imp_congr_left (forall₂_congr fun b _ => ?_)
  constructor
  · intro h hon
    by_contra hno
    push Not at hno
    exact h hno hon
  · rintro h hall hon
    obtain ⟨c, hc, hmap, hne⟩ := h hon
    exact hne (hall c hc hmap)

/-- `A (id) LEFT JOIN B (id, x) ON A.id = B.id WHERE B.x IS NULL`. -/
def antiJoin : JoinQuery ℕ where
  joinType := .left
  on a b := some (a[0]?.join = b[0]?.join)
  cond := [⟨{1}, fun rows => some (rows 1)[1]?.join.isNone, fun f g h => by
    rw [h 1 (Finset.mem_singleton_self 1)]⟩]
  mapA := 0
  mapB := 1
  map_ne := by decide
  columnsA := 1

/-- The table B with the row `(1, 5)`. -/
def matchedB : ExternalTable ℕ := ⟨0, [true, true], [[some 1, some 5]], by decide⟩

/-- The row 1 of A has a partner in B whose `x` is not NULL, so the query has no row; the scan
leaves the partner out, and the NULL-extended row of A appears. -/
theorem prefilter_adds_anti_join_row :
    ¬ (antiJoin.eval 2 [[some 1]] (antiJoin.scannedRows matchedB)).Perm
      (antiJoin.eval 2 [[some 1]] matchedB.rows) := by
  intro h
  have hlen := h.length_eq
  revert hlen
  decide +kernel

end JoinQuery

end DuckdbEngine.CrossEngine
