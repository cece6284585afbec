/-
The scan of an external table.

`_mdb_scan` runs a synthetic SELECT of the requested columns in a fiber, with the
registered WHERE as its condition, and hands its rows to DuckDB in chunks: the fiber
is suspended whenever a chunk is full.  `_mdb_scan_direct` reads the rows with the
parent's handler instead.  Both are the same function in two modes.

The filters that DuckDB passes to the scan are written to the log only.
-/
import Mathlib.Tactic.Common
import DuckdbEngine.CrossEngine.Query

namespace DuckdbEngine.CrossEngine

open Joins

variable {V : Type}

/-! ### The synthetic SELECT -/

/-- The columns of a row by number, NULL for a number that is not that of a column. -/
def project (columnIds : List ℕ) (r : Row V) : Row V := columnIds.map fun i => r[i]?.join

/-- The registered WHERE is true of the row; it is evaluated in the scope of the scanned table
alone, and no condition is registered as the empty text. -/
def whereTrue (whereSql : Option (List (Conjunct V))) (r : Row V) : Bool :=
  evalCond (whereSql.getD []) (fun _ => r) = some true

/-- The rows of the SELECT that `build_synthetic_select` puts together. -/
def syntheticSelect (t : ExternalTable V) (columnIds : List ℕ)
    (whereSql : Option (List (Conjunct V))) : List (Row V) :=
  (t.rows.filter (whereTrue whereSql)).map (project columnIds)

/-! ### The scan function -/

def standardVectorSize : ℕ := 2048

/-- What can go wrong below the scan: `FiberScanState::init`, the statement in the fiber when it
is resumed for the n-th time, `ha_rnd_init`, and `ha_rnd_next` at a row. -/
structure ScanEnv where
  fiberInitFails : Bool
  fiberFails : ℕ → Bool
  rndInitFails : Bool
  rndNextFails : ℕ → Bool

/-- Nothing goes wrong. -/
def ScanEnv.calm : ScanEnv := ⟨false, fun _ => false, false, fun _ => false⟩

/-- The data a scan is bound with. -/
structure MdbScanBindData (V : Type) where
  table : ExternalTable V
  whereSql : Option (List (Conjunct V))
  direct : Bool

/-- A single-table filter of DuckDB: the position among the projected columns and the
condition on the value. -/
structure TableFilter (V : Type) where
  projIdx : ℕ
  cond : Option V → Truth

/-- The filter accepts the row of projected columns. -/
def TableFilter.Accepts (f : TableFilter V) (r : Row V) : Prop :=
  f.cond r[f.projIdx]?.join = some true

/-- The fiber: the rows its statement has still to send, how often it was resumed, the rows in
the chunk buffer, and whether the statement has ended. -/
structure FiberScanState (V : Type) where
  pending : List (Row V)
  resumed : ℕ
  buffer : List (Row V)
  finished : Bool

structure MdbScanGlobalState (V : Type) where
  table : ExternalTable V
  columnIds : List ℕ
  whereSql : Option (List (Conjunct V))
  direct : Bool
  finished : Bool
  scanStarted : Bool
  fiber : Option (FiberScanState V)
  rndInited : Bool
  /-- The position of the handler's cursor. -/
  position : ℕ

/-- The filters are not used beyond the log. -/
def mdbScanInitGlobal (bind : MdbScanBindData V) (columnIds : List ℕ)
    (_filters : List (TableFilter V)) : MdbScanGlobalState V where
  table := bind.table
  columnIds := columnIds
  whereSql := bind.whereSql
  direct := bind.direct
  finished := false
  scanStarted := false
  fiber := none
  rndInited := false
  position := 0

/-- Spawning or continuing the fiber: `send_data` fills the buffer and yields when it is full,
`send_eof` leaves what is in it. -/
def FiberScanState.resume (f : FiberScanState V) : FiberScanState V :=
  { pending := f.pending.drop standardVectorSize
    resumed := f.resumed + 1
    buffer := f.pending.take standardVectorSize
    finished := f.pending.length < standardVectorSize }

/-- The loop over `ha_rnd_next`, with room for `n` more rows: the rows read, the new position
and whether the end was reached.  An error ends the scan like the end of the table. -/
def readRows (env : ScanEnv) (t : ExternalTable V) (columnIds : List ℕ) :
    ℕ → ℕ → List (Row V) × ℕ × Bool
  | 0, pos => ([], pos, false)
  | n + 1, pos =>
      if env.rndNextFails pos then ([], pos, true)
      else
        match t.rows[pos]? with
        | none => ([], pos, true)
        | some r =>
            let (rs, pos', done) := readRows env t columnIds n (pos + 1)
            (project columnIds r :: rs, pos', done)

inductive ScanError where
  | invalidInput
deriving DecidableEq

namespace MdbScanGlobalState

variable (env : ScanEnv) (s : MdbScanGlobalState V)

/-- The part of `mdb_scan_function` with a fiber. -/
def fiberStep (f : FiberScanState V) : Except ScanError (MdbScanGlobalState V × List (Row V)) :=
  let f' := f.resume
  if env.fiberFails f.resumed then .error .invalidInput
  else if f'.buffer.isEmpty then .ok ({ s with fiber := some f', finished := true }, [])
  else .ok ({ s with fiber := some f', finished := f'.finished }, f'.buffer)

/-- The part of `mdb_scan_function` that reads with the parent's handler. -/
def directStep : MdbScanGlobalState V × List (Row V) :=
  if !s.rndInited && env.rndInitFails then ({ s with finished := true }, [])
  else
    let (rs, pos, done) := readRows env s.table s.columnIds standardVectorSize s.position
    ({ s with rndInited := true, position := pos, finished := done }, rs)

/-- The lazy initialization on the first call; `none` if the fiber cannot be set up. -/
def start : Option (MdbScanGlobalState V) :=
  if s.scanStarted then some s
  else if s.direct then some { s with scanStarted := true }
  else if env.fiberInitFails then none
  else
    some { s with
      scanStarted := true
      fiber := some ⟨syntheticSelect s.table s.columnIds s.whereSql, 0, [], false⟩ }

/-- One call of the scan function: the new state and the chunk. -/
def mdbScanFunction : Except ScanError (MdbScanGlobalState V × List (Row V)) :=
  if s.finished then .ok (s, [])
  else
    match s.start env with
    | none => .ok ({ s with finished := true }, [])
    | some s' =>
        match s'.fiber with
        | some f => s'.fiberStep env f
        | none => .ok (s'.directStep env)

/-- The rows emitted by `n` calls; after an exception there are no more. -/
def emitted : ℕ → MdbScanGlobalState V → List (Row V)
  | 0, _ => []
  | n + 1, s =>
      match s.mdbScanFunction env with
      | .error _ => []
      | .ok (s', chunk) => chunk ++ emitted n s'

/-- The rows that are still to be emitted if nothing goes wrong. -/
def rest : List (Row V) :=
  if s.finished then []
  else
    match s.fiber with
    | some f => f.pending
    | none =>
        if s.scanStarted || s.direct then (s.table.rows.drop s.position).map (project s.columnIds)
        else syntheticSelect s.table s.columnIds s.whereSql

/-- The fiber exists only after the first call. -/
def Wf : Prop := s.scanStarted = false → s.fiber = none

variable {env s}

lemma rest_of_finished (h : s.finished = true) : s.rest = [] := by
  rw [rest, if_pos h]

lemma start_spec {s' : MdbScanGlobalState V} (hf : s.finished = false) (hs : s.Wf)
    (h : s.start env = some s') : s'.Wf ∧ s'.scanStarted = true ∧ s'.rest = s.rest := by
  rw [start] at h
  split at h
  case isTrue hst =>
      cases h
      exact ⟨hs, hst, rfl⟩
  case isFalse hst =>
      have hfib := hs (by simpa using hst)
      split at h
      case isTrue hd =>
          cases h
          exact ⟨fun h => (by simp at h), rfl, by simp [rest, hf, hfib, hd]⟩
      case isFalse hd =>
          split at h <;> cases h
          exact ⟨fun h => (by simp at h), rfl, by simp [rest, hf, hfib, hd, hst]⟩

/-- The rows read, together with those that are left, are the rows from the position on;
after an error the remaining ones are lost. -/
lemma readRows_spec (env : ScanEnv) (t : ExternalTable V) (cols : List ℕ) (n pos : ℕ) :
    ∃ lost, (readRows env t cols n pos).1 ++ ((if (readRows env t cols n pos).2.2 then []
        else (t.rows.drop (readRows env t cols n pos).2.1).map (project cols)) ++ lost) =
      (t.rows.drop pos).map (project cols) ∧ (env = .calm → lost = []) := by
  induction n generalizing pos with
  | zero => exact ⟨[], by simp [readRows], fun _ => rfl⟩
  | succ n ih =>
      rw [readRows]
      split
      case isTrue hfail =>
          exact ⟨_, rfl, fun h => by simp [h, ScanEnv.calm] at hfail⟩
      case isFalse =>
          split
          case h_1 hnone =>
              rw [List.getElem?_eq_none_iff] at hnone
              exact ⟨[], by simp [List.drop_eq_nil_of_le hnone], fun _ => rfl⟩
          case h_2 r hr =>
              obtain ⟨lost, hlost, hcalm⟩ := ih (pos + 1)
              refine ⟨lost, ?_, hcalm⟩
              obtain ⟨hlt, rfl⟩ := List.getElem?_eq_some_iff.1 hr
              rw [List.drop_eq_getElem_cons hlt, List.map_cons, ← hlost, List.cons_append]

lemma readRows_ne_nil (t : ExternalTable V) (cols : List ℕ) (n pos : ℕ)
    (h : t.rows.drop pos ≠ []) : (readRows .calm t cols (n + 1) pos).1 ≠ [] := by
  have hlt : pos < t.rows.length := by
    by_contra hge
    exact h (List.drop_eq_nil_of_le (Nat.le_of_not_lt hge))
  rw [readRows]
  simp [ScanEnv.calm, List.getElem?_eq_getElem hlt]

/-- A started scan hands out the next rows of what is left. -/
lemma fiberStep_spec {f : FiberScanState V} {s' : MdbScanGlobalState V} {chunk : List (Row V)}
    (hs : s.Wf) (hf : s.finished = false) (hfib : s.fiber = some f)
    (h : s.fiberStep env f = .ok (s', chunk)) :
    s'.Wf ∧ chunk ++ s'.rest = s.rest ∧ (s.rest ≠ [] → chunk ≠ []) := by
  have hrest : s.rest = f.pending := by simp [rest, hf, hfib]
  have hst : ∀ g b, ({ s with fiber := some g, finished := b } : MdbScanGlobalState V).Wf :=
    fun g b hst => absurd (hs hst) (by simp [hfib])
  simp only [fiberStep] at h
  split_ifs at h with hfail hempty <;> cases h
  · have hnil : f.pending = [] := by
      simpa [FiberScanState.resume, standardVectorSize] using hempty
    exact ⟨hst _ _, by simp [rest_of_finished, hrest, hnil], by simp [hrest, hnil]⟩
  · refine ⟨hst _ _, ?_, fun _ => by simpa using hempty⟩
    rw [hrest]
    simp only [rest, FiberScanState.resume]
    by_cases hlen : f.pending.length < standardVectorSize
    · simp [hlen, List.take_of_length_le hlen.le]
    · simp [hlen, List.take_append_drop]

lemma directStep_spec (env : ScanEnv) (hs : s.scanStarted = true) (hf : s.finished = false)
    (hfib : s.fiber = none) :
    (s.directStep env).1.Wf ∧
      ∃ lost, (s.directStep env).2 ++ ((s.directStep env).1.rest ++ lost) = s.rest ∧
        (env = .calm → lost = [] ∧ (s.rest ≠ [] → (s.directStep env).2 ≠ [])) := by
  have hrest : s.rest = (s.table.rows.drop s.position).map (project s.columnIds) := by
    simp [rest, hf, hfib, hs]
  rw [directStep]
  split
  case isTrue hfail =>
      refine ⟨fun _ => hfib, s.rest, by simp [rest_of_finished], fun h => ?_⟩
      simp [h, ScanEnv.calm] at hfail
  case isFalse =>
      obtain ⟨lost, hlost, hcalm⟩ :=
        readRows_spec env s.table s.columnIds standardVectorSize s.position
      refine ⟨fun _ => hfib, lost, ?_, fun h => ⟨hcalm h, fun hne => ?_⟩⟩
      · rw [hrest, ← hlost]
        simp [rest, hfib, hs]
      · subst h
        refine readRows_ne_nil s.table s.columnIds 2047 s.position fun hnil => hne ?_
        rw [hrest, hnil, List.map_nil]

/-- One call emits a first part of the rows that are left; none is lost unless something goes
wrong, and then there is a row in the chunk as long as one is left. -/
lemma mdbScanFunction_spec {s' : MdbScanGlobalState V} {chunk : List (Row V)} (hs : s.Wf)
    (h : s.mdbScanFunction env = .ok (s', chunk)) :
    s'.Wf ∧ ∃ lost, chunk ++ (s'.rest ++ lost) = s.rest ∧
      (env = .calm → lost = [] ∧ (s.rest ≠ [] → chunk ≠ [])) := by
  rw [mdbScanFunction] at h
  split at h
  case isTrue hf =>
      cases h
      exact ⟨hs, [], by simp, fun _ => ⟨rfl, fun hne => absurd (rest_of_finished hf) hne⟩⟩
  case isFalse hf =>
      rw [Bool.not_eq_true] at hf
      split at h
      case h_1 hnone =>
          cases h
          refine ⟨hs, s.rest, by simp [rest_of_finished], fun henv => ?_⟩
          simp only [start, henv, ScanEnv.calm, Bool.false_eq_true, if_false] at hnone
          split_ifs at hnone
      case h_2 s₁ hs₁ =>
          obtain ⟨hwf, hst, hrest⟩ := start_spec hf hs hs₁
          have hf₁ : s₁.finished = false := by
            rw [start] at hs₁
            split_ifs at hs₁ <;> cases hs₁ <;> exact hf
          rw [← hrest]
          split at h
          case h_1 f hfib =>
              obtain ⟨hwf', heq, hne⟩ := fiberStep_spec hwf hf₁ hfib h
              exact ⟨hwf', [], by simpa using heq, fun _ => ⟨rfl, hne⟩⟩
          case h_2 hfib =>
              have hstep := directStep_spec env hst hf₁ hfib
              rw [Except.ok.inj h] at hstep
              exact hstep

lemma mdbScanFunction_calm_ne_error (s : MdbScanGlobalState V) (e : ScanError) :
    s.mdbScanFunction .calm ≠ .error e := by
  intro h
  rw [mdbScanFunction] at h
  split at h
  · cases h
  split at h
  · cases h
  split at h
  · simp only [fiberStep, ScanEnv.calm, Bool.false_eq_true, if_false] at h
    split_ifs at h
  · cases h

/-- The calls of a scan emit a first part of the rows that are left, and all of them if nothing
goes wrong and there are enough calls. -/
theorem emitted_spec (env : ScanEnv) (hs : s.Wf) (n : ℕ) :
    ∃ lost, emitted env n s ++ lost = s.rest ∧ (env = .calm → s.rest.length ≤ n → lost = []) := by
  induction n generalizing s with
  | zero => exact ⟨s.rest, rfl, fun _ h => List.length_eq_zero_iff.1 (Nat.le_zero.1 h)⟩
  | succ n ih =>
      rw [emitted]
      split
      case h_1 e he =>
          exact ⟨s.rest, rfl, fun henv _ => absurd (henv ▸ he) (mdbScanFunction_calm_ne_error s e)⟩
      case h_2 s' chunk hok =>
          obtain ⟨hs', lost, heq, hcalm⟩ := mdbScanFunction_spec hs hok
          obtain ⟨lost', heq', hcalm'⟩ := ih hs'
          refine ⟨lost' ++ lost, ?_, fun henv hlen => ?_⟩
          · rw [← heq, ← heq']
            simp only [List.append_assoc]
          · obtain ⟨rfl, hne⟩ := hcalm henv
            rw [hcalm' henv ?_, List.nil_append]
            rw [← heq, List.append_nil, List.length_append] at hlen
            by_cases hnil : s.rest = []
            · rw [List.append_nil, hnil, List.append_eq_nil_iff] at heq
              simp [heq.2]
            · have := List.length_pos_iff.2 (hne hnil)
              omega

end MdbScanGlobalState

/-! ### The filters of DuckDB -/

open MdbScanGlobalState

lemma wf_initGlobal (bind : MdbScanBindData V) (cols : List ℕ) (filters : List (TableFilter V)) :
    (mdbScanInitGlobal bind cols filters).Wf := fun _ => rfl

lemma rest_initGlobal (bind : MdbScanBindData V) (cols : List ℕ) (filters : List (TableFilter V))
    (hd : bind.direct = false) :
    (mdbScanInitGlobal bind cols filters).rest = syntheticSelect bind.table cols bind.whereSql := by
  simp [rest, mdbScanInitGlobal, hd]

/-- The scan in a fiber emits rows of the synthetic SELECT only. -/
lemma mem_syntheticSelect_of_emitted {env : ScanEnv} {n : ℕ} {bind : MdbScanBindData V}
    {cols : List ℕ} {filters : List (TableFilter V)} (hd : bind.direct = false) {r : Row V}
    (hr : r ∈ emitted env n (mdbScanInitGlobal bind cols filters)) :
    r ∈ syntheticSelect bind.table cols bind.whereSql := by
  obtain ⟨lost, heq, -⟩ := emitted_spec env (wf_initGlobal bind cols filters) n
  rw [← rest_initGlobal bind cols filters hd, ← heq]
  exact List.mem_append_left lost hr

/-- Undisturbed, it emits all of them. -/
theorem emitted_eq_syntheticSelect (n : ℕ) (bind : MdbScanBindData V) (cols : List ℕ)
    (filters : List (TableFilter V)) (hd : bind.direct = false)
    (hn : (syntheticSelect bind.table cols bind.whereSql).length ≤ n) :
    emitted .calm n (mdbScanInitGlobal bind cols filters) =
      syntheticSelect bind.table cols bind.whereSql := by
  obtain ⟨lost, heq, hlost⟩ := emitted_spec .calm (wf_initGlobal bind cols filters) n
  rw [rest_initGlobal bind cols filters hd] at heq hlost
  rw [hlost rfl hn, List.append_nil] at heq
  exact heq

/-- Every row with the columns of the table that satisfies the registered WHERE satisfies the
filters on the projected columns. -/
def WhereEntails (fields : ℕ) (whereSql : Option (List (Conjunct V))) (columnIds : List ℕ)
    (filters : List (TableFilter V)) : Prop :=
  ∀ r : Row V, r.length = fields → whereTrue whereSql r = true →
    ∀ f ∈ filters, f.Accepts (project columnIds r)

/-- The rows emitted by `_mdb_scan` satisfy the filters passed to it, whatever the table holds
and however the scan ends, exactly if the registered WHERE entails them. -/
theorem emitted_rows_satisfy_filters_iff (visible : List Bool)
    (whereSql : Option (List (Conjunct V))) (columnIds : List ℕ) (filters : List (TableFilter V)) :
    (∀ (t : ExternalTable V), t.visible = visible → ∀ (env : ScanEnv) (n : ℕ),
        ∀ r ∈ emitted env n (mdbScanInitGlobal ⟨t, whereSql, false⟩ columnIds filters),
          ∀ f ∈ filters, f.Accepts r) ↔
      WhereEntails visible.length whereSql columnIds filters := by
  constructor
  · intro h r hr hwhere f hf
    -- A table that holds just this row.
    let t : ExternalTable V := ⟨0, visible, [r], by simp [hr]⟩
    have hsel : syntheticSelect t columnIds whereSql = [project columnIds r] := by
      simp [syntheticSelect, t, hwhere]
    have hemit := emitted_eq_syntheticSelect 1 ⟨t, whereSql, false⟩ columnIds filters rfl
      (by simp [hsel])
    refine h t rfl .calm 1 _ ?_ f hf
    rw [hemit, hsel]
    exact List.mem_singleton_self _
  · rintro h t rfl env n r hr f hf
    obtain ⟨x, hx, rfl⟩ := List.mem_map.1 (mem_syntheticSelect_of_emitted rfl hr)
    obtain ⟨hmem, hwhere⟩ := List.mem_filter.1 hx
    exact h x (t.rows_length x hmem) hwhere f hf

/-- The table `e (id, x)` with the row `(7, 2)`. -/
def oneRow : ExternalTable ℕ := ⟨0, [true, true], [[some 7, some 2]], by decide⟩

/-- The filter `x = 1` on the second projected column. -/
def secondIsOne : TableFilter ℕ := ⟨1, fun v => v.map fun n => n = 1⟩

/-- `d LEFT JOIN e ON d.id = e.id AND e.x = 1`: there is no WHERE, DuckDB passes the filter on
`x` to the scan, and the scan emits a row that does not satisfy it. -/
theorem emitted_row_misses_on_filter :
    ∃ r ∈ emitted .calm 1 (mdbScanInitGlobal ⟨oneRow, none, false⟩ [0, 1] [secondIsOne]),
      ¬ secondIsOne.Accepts r := by
  refine ⟨[some 7, some 2], by decide +kernel, ?_⟩
  simp [TableFilter.Accepts, secondIsOne]

end DuckdbEngine.CrossEngine
