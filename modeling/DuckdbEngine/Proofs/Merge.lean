/-
The merge of a buffer table is the sequential application of its rows.

The rows of a buffer table are a log of changes: a delete marker deletes the rows of
its key, any other row is put in place of the rows of its key.  The flush works on
the table as a whole: one statement deletes the touched keys and another inserts
the newest row of every key.  When the row numbers ascend and no key contains NULL
the two statements together carry out the log (`mergeRows_eq_replay`), and the first of
them may be left out when no marker was buffered and no touched key is in the
table.
-/
import DuckdbEngine.Lib.KeyedLog
import DuckdbEngine.Runtime.DeltaAppender

namespace DuckdbEngine

variable {V : Type}

/-- The change that a row of a buffer table stands for. -/
def BufRow.change (pk : List ℕ) (r : BufRow V) : KeyedLog.Change (List (Option V)) (Row V) :=
  if r.isDelete then .del (keyOf pk r.cols) else .put r.cols

@[simp] lemma BufRow.target_change (pk : List ℕ) (r : BufRow V) :
    (r.change pk).target (keyOf pk) = keyOf pk r.cols := by
  unfold change
  split <;> rfl

lemma touches_map_change (pk : List ℕ) (rows : List (BufRow V)) (k : List (Option V)) :
    KeyedLog.Touches (keyOf pk) (rows.map (BufRow.change pk)) k ↔
      ∃ r ∈ rows, keyOf pk r.cols = k := by
  simp [KeyedLog.Touches]

variable [DecidableEq V]

/-! ### The newest row of each key -/

/-- A row with a smaller number does not count for the row numbers of the others. -/
lemma rowNumber_cons_of_lt {pk : List ℕ} {r q : BufRow V} {rows : List (BufRow V)}
    (h : r.rowNo < q.rowNo) : rowNumber pk (r :: rows) q = rowNumber pk rows q := by
  have hr : ¬ (keyOf pk r.cols = keyOf pk q.cols ∧ q.rowNo < r.rowNo) := by omega
  simp only [rowNumber, List.countP_cons, decide_eq_true_eq, if_neg hr, Nat.add_zero]

/-- The row with the smallest number is the newest of its key exactly when no other row
has that key. -/
lemma rowNumber_cons_self_eq_one {pk : List ℕ} {r : BufRow V} {rows : List (BufRow V)}
    (h : ∀ q ∈ rows, r.rowNo < q.rowNo) :
    rowNumber pk (r :: rows) r = 1 ↔ ∀ q ∈ rows, keyOf pk q.cols ≠ keyOf pk r.cols := by
  simp only [rowNumber, Nat.add_eq_left, List.countP_eq_zero, List.mem_cons, forall_eq_or_imp,
    decide_eq_true_eq, not_and, Nat.lt_irrefl, not_false_eq_true, implies_true, true_and]
  constructor
  · intro hq q hmem hk
    exact hq q hmem hk (h q hmem)
  · intro hq q hmem hk
    exact absurd hk (hq q hmem)

lemma latestRows_cons {pk : List ℕ} {r : BufRow V} {rows : List (BufRow V)}
    (h : ∀ q ∈ rows, r.rowNo < q.rowNo) :
    latestRows pk (r :: rows)
      = (if r.isDelete = false ∧ ∀ q ∈ rows, keyOf pk q.cols ≠ keyOf pk r.cols then [r.cols]
          else []) ++ latestRows pk rows := by
  have htail : (rows.filter fun q => rowNumber pk (r :: rows) q = 1 ∧ q.isDelete = false)
      = rows.filter fun q => rowNumber pk rows q = 1 ∧ q.isDelete = false := by
    refine List.filter_congr fun q hq => ?_
    rw [rowNumber_cons_of_lt (h q hq)]
  rw [latestRows, List.filter_cons, htail]
  simp only [rowNumber_cons_self_eq_one h, decide_eq_true_eq, and_comm]
  split <;> rfl

/-- With ascending row numbers, the window query selects the rows that no later row
overrides. -/
theorem latestRows_eq_survivors {pk : List ℕ} {rows : List (BufRow V)}
    (h : rows.Pairwise fun r q => r.rowNo < q.rowNo) :
    latestRows pk rows = KeyedLog.survivors (keyOf pk) (rows.map (BufRow.change pk)) := by
  induction rows with
  | nil => rfl
  | cons r rows ih =>
      obtain ⟨hr, hrows⟩ := List.pairwise_cons.1 h
      rw [latestRows_cons hr, ih hrows, List.map_cons]
      cases hdel : r.isDelete with
      | true => simp [BufRow.change, hdel, KeyedLog.survivors]
      | false =>
          have htouch := touches_map_change pk rows (keyOf pk r.cols)
          by_cases hk : ∃ q ∈ rows, keyOf pk q.cols = keyOf pk r.cols
          · have hk' : ¬ ∀ q ∈ rows, keyOf pk q.cols ≠ keyOf pk r.cols := by
              simpa using hk
            simp [BufRow.change, hdel, KeyedLog.survivors, htouch.2 hk, hk']
          · have hk' : ∀ q ∈ rows, keyOf pk q.cols ≠ keyOf pk r.cols := by
              simpa using hk
            rw [← htouch] at hk
            rw [if_pos ⟨rfl, hk'⟩]
            simp [BufRow.change, hdel, KeyedLog.survivors, hk]

/-! ### The two statements together -/

/-- With keys free of NULL, the DELETE removes the rows with a touched key. -/
lemma untouchedRows_eq_filter {pk : List ℕ} {rows : List (BufRow V)}
    (h : ∀ r ∈ rows, none ∉ keyOf pk r.cols) (b : Multiset (Row V)) :
    untouchedRows pk rows b
      = b.filter fun x => ¬ KeyedLog.Touches (keyOf pk) (rows.map (BufRow.change pk)) (keyOf pk x) := by
  refine Multiset.filter_congr fun x _ => ?_
  rw [touches_map_change]
  constructor
  · rintro hx ⟨q, hq, hk⟩
    have hne := hx q hq
    rw [← hk] at hne
    simp [sqlRowEq, h q hq] at hne
  · intro hx q hq
    have hk : keyOf pk x ≠ keyOf pk q.cols := fun hk => hx ⟨q, hq, hk.symm⟩
    simp [sqlRowEq, hk]

/-- The contents after the merge of a mixed batch. -/
def mergeRows (pk : List ℕ) (hasDelete hasInsert : Bool) (rows : List (BufRow V))
    (b : Multiset (Row V)) : Multiset (Row V) :=
  (if hasDelete then untouchedRows pk rows b else b)
    + (if hasInsert then (latestRows pk rows : Multiset (Row V)) else 0)

/-- Without a row to insert nothing survives. -/
lemma latestRows_eq_nil_of_isDelete {pk : List ℕ} {rows : List (BufRow V)}
    (h : ∀ r ∈ rows, r.isDelete = true) : latestRows pk rows = [] := by
  rw [latestRows, List.map_eq_nil_iff, List.filter_eq_nil_iff]
  intro r hr
  simp [h r hr]

/-- The merge of a mixed batch is the replay of its log.  The flags may only be unset
when there is nothing to do: no row to insert, and no row of the table with a touched
key. -/
theorem mergeRows_eq_replay {pk : List ℕ} {hasDelete hasInsert : Bool} {rows : List (BufRow V)}
    (hsorted : rows.Pairwise fun r q => r.rowNo < q.rowNo)
    (hkeys : ∀ r ∈ rows, none ∉ keyOf pk r.cols) {b : Multiset (Row V)}
    (hdel : hasDelete = false → ∀ x ∈ b, ∀ r ∈ rows, keyOf pk r.cols ≠ keyOf pk x)
    (hins : hasInsert = false → ∀ r ∈ rows, r.isDelete = true) :
    mergeRows pk hasDelete hasInsert rows b
      = KeyedLog.replay (keyOf pk) b (rows.map (BufRow.change pk)) := by
  have hfilter := untouchedRows_eq_filter hkeys b
  have hfirst : (if hasDelete then untouchedRows pk rows b else b)
      = b.filter fun x =>
          ¬ KeyedLog.Touches (keyOf pk) (rows.map (BufRow.change pk)) (keyOf pk x) := by
    cases hasDelete with
    | true => simpa using hfilter
    | false =>
        symm
        refine Multiset.filter_eq_self.2 fun x hx => ?_
        rw [touches_map_change]
        rintro ⟨r, hr, hk⟩
        exact hdel rfl x hx r hr hk
  have hsecond : (if hasInsert then (latestRows pk rows : Multiset (Row V)) else 0)
      = KeyedLog.survivors (keyOf pk) (rows.map (BufRow.change pk)) := by
    rw [← latestRows_eq_survivors hsorted]
    cases hasInsert with
    | true => rfl
    | false => simp [latestRows_eq_nil_of_isDelete (hins rfl)]
  rw [mergeRows, hfirst, hsecond, KeyedLog.replay_eq_merge, KeyedLog.merge]

end DuckdbEngine
