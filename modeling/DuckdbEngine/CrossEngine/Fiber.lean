/-
The chunk buffer between the fiber and the scan function.

The statement in the fiber sends its rows to `select_to_duckdb`, which writes them into the
slots of a chunk and counts them; the chunk's own cardinality is set only when the chunk is
full, before the fiber is suspended, or at the end of the statement.  The scan function
resets the chunk, continues the fiber and returns the chunk.

The rows of a statement come out unchanged, chunk by chunk (`fiber_scan_chunks`).  What
`FiberScanState.resume` says of a fiber is what this protocol does (`resume_refines`).
-/
import Mathlib.Logic.Function.Basic
import DuckdbEngine.CrossEngine.Scan

namespace DuckdbEngine.CrossEngine

variable {R : Type}

/-! ### Chunks -/

/-- `DataChunk`: the slots of its vectors and its cardinality; the slots behind that may hold what
an earlier chunk had in them. -/
structure DataChunk (R : Type) where
  slot : ℕ → Option R
  size : ℕ

namespace DataChunk

/-- `Initialize` -/
def empty : DataChunk R := ⟨fun _ => none, 0⟩

def setValue (c : DataChunk R) (i : ℕ) (r : R) : DataChunk R :=
  { c with slot := Function.update c.slot i (some r) }

def setChildCardinality (c : DataChunk R) (n : ℕ) : DataChunk R := { c with size := n }

def reset (c : DataChunk R) : DataChunk R := { c with size := 0 }

def rows (c : DataChunk R) : List (Option R) := (List.range c.size).map c.slot

end DataChunk

/-! ### The fiber -/

/-- A row that the statement sends: what its items are converted to, if the conversion does not
raise an exception, and whether the thread turns out to be killed after it. -/
structure SentRow (R : Type) where
  value : Option R
  killed : Bool

/-- Where the fiber stands: not started, with the rows of its statement; in the `yield` of
`send_data`, with the rows that are still to be sent; or at its end. -/
inductive FiberPoint (R : Type) where
  | unstarted (rows : List (SentRow R))
  | suspended (killed : Bool) (pending : List (SentRow R))
  | returned

/-- `FiberScanState` and the row count of its `select_to_duckdb`. -/
structure Fiber (R : Type) where
  buffer : DataChunk R
  rowCount : ℕ
  finished : Bool
  error : Bool
  point : FiberPoint R

namespace Fiber

def init (rows : List (SentRow R)) : Fiber R := ⟨.empty, 0, false, false, .unstarted rows⟩

/-- The first half of `send_data`. -/
def writeRow (f : Fiber R) (r : R) : Fiber R :=
  { f with buffer := f.buffer.setValue f.rowCount r, rowCount := f.rowCount + 1 }

def publish (f : Fiber R) : Fiber R :=
  { f with buffer := f.buffer.setChildCardinality f.rowCount, rowCount := 0 }

def sendEof (f : Fiber R) : Fiber R := if 0 < f.rowCount then f.publish else f

/-- The end of `fiber_scan_func`, after a statement without an error or with one. -/
def funcEnd (f : Fiber R) (error : Bool) : Fiber R :=
  { f with finished := true, error := error, point := .returned }

/-- The statement from a row on: `send_data` for every row, and `send_eof`. -/
def runStatement (vectorSize : ℕ) : List (SentRow R) → Fiber R → Fiber R
  | [], f => f.sendEof.funcEnd false
  | s :: rest, f =>
      match s.value with
      | none => f.funcEnd true
      | some r =>
          if vectorSize ≤ (f.writeRow r).rowCount then
            { (f.writeRow r).publish with point := .suspended s.killed rest }
          else if s.killed then (f.writeRow r).funcEnd true
          else runStatement vectorSize rest (f.writeRow r)

/-- `fiber_context_spawn`, or `fiber_context_continue` after the buffer was reset. -/
def resume (vectorSize : ℕ) (f : Fiber R) : Fiber R :=
  match f.point with
  | .unstarted rows => runStatement vectorSize rows f
  | .suspended killed pending =>
      let f := { f with buffer := f.buffer.reset }
      if killed then f.funcEnd true else runStatement vectorSize pending f
  | .returned => { f with buffer := f.buffer.reset }

end Fiber

/-! ### The scan function -/

structure FiberScan (R : Type) where
  finished : Bool
  fiber : Fiber R

/-- One call of `mdb_scan_function` with a fiber: the new state and the rows of the chunk. -/
def FiberScan.call (vectorSize : ℕ) (s : FiberScan R) :
    Except ScanError (FiberScan R × List (Option R)) :=
  if s.finished then .ok (s, [])
  else
    let f := s.fiber.resume vectorSize
    if f.error then .error .invalidInput
    else if 0 < f.buffer.size then .ok (⟨f.finished, f⟩, f.buffer.rows)
    else .ok (⟨true, f⟩, [])

/-- The chunks of `n` calls. -/
def FiberScan.calls (vectorSize : ℕ) :
    ℕ → FiberScan R → Except ScanError (FiberScan R × List (List (Option R)))
  | 0, s => .ok (s, [])
  | n + 1, s =>
      match s.call vectorSize with
      | .error e => .error e
      | .ok (s, chunk) =>
          match FiberScan.calls vectorSize n s with
          | .error e => .error e
          | .ok (s, chunks) => .ok (s, chunk :: chunks)

/-! ### Filling the buffer -/

/-- A row that is sent without a failure. -/
def sent (r : R) : SentRow R := ⟨some r, false⟩

namespace Fiber

variable {vectorSize : ℕ} {f : Fiber R} {acc rows : List R}

/-- The rows were written since the last yield, and the cardinality is not set yet. -/
structure Filled (f : Fiber R) (acc : List R) : Prop where
  rowCount : f.rowCount = acc.length
  slots : (List.range acc.length).map f.buffer.slot = acc.map some
  size : f.buffer.size = 0

lemma Filled.writeRow (h : f.Filled acc) (r : R) : (f.writeRow r).Filled (acc ++ [r]) where
  rowCount := by
    rw [List.length_append, List.length_singleton, ← h.rowCount]
    rfl
  slots := by
    have hbelow : (List.range acc.length).map (f.writeRow r).buffer.slot =
        (List.range acc.length).map f.buffer.slot := by
      refine List.map_congr_left fun i hi => ?_
      have hne : i ≠ f.rowCount := by
        rw [h.rowCount]
        exact (List.mem_range.1 hi).ne
      exact Function.update_of_ne hne _ _
    have hlast : (f.writeRow r).buffer.slot acc.length = some r := by
      rw [← h.rowCount]
      exact Function.update_self _ _ _
    rw [List.length_append, List.length_singleton, List.range_succ, List.map_append, hbelow,
      h.slots, List.map_append, List.map_singleton, hlast, List.map_singleton]
  size := h.size

lemma Filled.rows_publish (h : f.Filled acc) : f.publish.buffer.rows = acc.map some := by
  rw [← h.slots, ← h.rowCount]
  rfl

lemma Filled.rows_sendEof (h : f.Filled acc) : f.sendEof.buffer.rows = acc.map some := by
  rw [sendEof]
  split
  · exact h.rows_publish
  · next hzero =>
      have hnil : acc = [] := by
        rw [h.rowCount] at hzero
        exact List.length_eq_zero_iff.1 (Nat.eq_zero_of_not_pos hzero)
      rw [hnil, DataChunk.rows, h.size]
      rfl

/-- A row that is sent without a failure. -/
lemma runStatement_sent (vectorSize : ℕ) (f : Fiber R) (r : R) (rest : List (SentRow R)) :
    runStatement vectorSize (sent r :: rest) f =
      if vectorSize ≤ (f.writeRow r).rowCount then
        { (f.writeRow r).publish with point := .suspended false rest }
      else runStatement vectorSize rest (f.writeRow r) := by
  rw [runStatement]
  rfl

/-- Up to the next yield the statement puts a vector's worth of rows into the chunk. -/
lemma runStatement_spec (rows : List R) (h : f.Filled acc) (hlt : acc.length < vectorSize) :
    let g := runStatement vectorSize (rows.map sent) f
    g.buffer.rows = ((acc ++ rows).take vectorSize).map some ∧
    (vectorSize ≤ (acc ++ rows).length →
      g.point = .suspended false (((acc ++ rows).drop vectorSize).map sent) ∧ g.rowCount = 0 ∧
        g.finished = f.finished ∧ g.error = f.error) ∧
    ((acc ++ rows).length < vectorSize → g.finished = true ∧ g.error = false) := by
  induction rows generalizing f acc with
  | nil =>
      rw [List.append_nil, List.take_of_length_le hlt.le]
      exact ⟨h.rows_sendEof, fun hge => absurd hge (not_le.2 hlt), fun _ => ⟨rfl, rfl⟩⟩
  | cons r rows ih =>
      have hwrite := h.writeRow r
      have hcount : (f.writeRow r).rowCount = acc.length + 1 := congrArg (· + 1) h.rowCount
      rw [List.map_cons, runStatement_sent]
      split
      · next hfull =>
          have hsize : vectorSize = (acc ++ [r]).length := by
            rw [List.length_append, List.length_singleton]
            omega
          have htotal : acc ++ r :: rows = (acc ++ [r]) ++ rows := by simp
          rw [htotal, hsize, List.take_left, List.drop_left]
          refine ⟨hwrite.rows_publish, fun _ => ⟨rfl, rfl, rfl, rfl⟩, fun hshort => ?_⟩
          rw [List.length_append] at hshort
          omega
      · next hroom =>
          have htotal : acc ++ r :: rows = (acc ++ [r]) ++ rows := by simp
          rw [htotal]
          exact ih hwrite (by rw [List.length_append, List.length_singleton]; omega)

/-- The fiber is about to send the rows. -/
structure Ready (f : Fiber R) (pending : List R) : Prop where
  rowCount : f.rowCount = 0
  finished : f.finished = false
  error : f.error = false
  point : f.point = .unstarted (pending.map sent) ∧ f.buffer.size = 0 ∨
    f.point = .suspended false (pending.map sent)

lemma ready_init (rows : List R) : (init (rows.map sent)).Ready rows :=
  ⟨rfl, rfl, rfl, Or.inl ⟨rfl, rfl⟩⟩

/-- The statement from the beginning of a chunk on. -/
lemma runStatement_ready {pending : List R} (hpos : 0 < vectorSize) (hf : f.Filled [])
    (hfin : f.finished = false) (herr : f.error = false) :
    let g := runStatement vectorSize (pending.map sent) f
    g.buffer.rows = (pending.take vectorSize).map some ∧ g.error = false ∧
    (vectorSize ≤ pending.length → g.Ready (pending.drop vectorSize)) ∧
    (pending.length < vectorSize → g.finished = true) := by
  obtain ⟨hrows, hfull, hshort⟩ := runStatement_spec pending hf hpos
  rw [List.nil_append] at hrows hfull hshort
  refine ⟨hrows, ?_, fun hge => ?_, fun hlt => (hshort hlt).1⟩
  · rcases Nat.lt_or_ge pending.length vectorSize with hlt | hge
    · exact (hshort hlt).2
    · exact (hfull hge).2.2.2.trans herr
  · obtain ⟨hpoint, hcount, hfin', herr'⟩ := hfull hge
    exact ⟨hcount, hfin'.trans hfin, herr'.trans herr, Or.inr hpoint⟩

lemma resume_spec {pending : List R} (hpos : 0 < vectorSize) (h : f.Ready pending) :
    let g := f.resume vectorSize
    g.buffer.rows = (pending.take vectorSize).map some ∧ g.error = false ∧
    (vectorSize ≤ pending.length → g.Ready (pending.drop vectorSize)) ∧
    (pending.length < vectorSize → g.finished = true) := by
  rcases h.point with ⟨hpoint, hsize⟩ | hpoint
  · simp only [resume, hpoint]
    exact runStatement_ready hpos ⟨h.rowCount, rfl, hsize⟩ h.finished h.error
  · simp only [resume, hpoint, Bool.false_eq_true, if_false]
    exact runStatement_ready hpos ⟨h.rowCount, rfl, rfl⟩ h.finished h.error

/-- The protocol does what `FiberScanState.resume` says. -/
theorem resume_refines {V : Type} {f : Fiber (Row V)} {c : FiberScanState V}
    (h : f.Ready c.pending) :
    (f.resume standardVectorSize).buffer.rows = c.resume.buffer.map some ∧
    (f.resume standardVectorSize).finished = c.resume.finished ∧
    (c.resume.finished = false → (f.resume standardVectorSize).Ready c.resume.pending) := by
  obtain ⟨hrows, -, hfull, hshort⟩ := resume_spec (show 0 < standardVectorSize by decide) h
  rcases Nat.lt_or_ge c.pending.length standardVectorSize with hlt | hge
  · have hfin : c.resume.finished = true := decide_eq_true hlt
    exact ⟨hrows, (hshort hlt).trans hfin.symm, fun hc => absurd (hc.symm.trans hfin) (by decide)⟩
  · have hfin : c.resume.finished = false := decide_eq_false (not_lt.2 hge)
    exact ⟨hrows, (hfull hge).finished.trans hfin.symm, fun _ => hfull hge⟩

end Fiber

/-! ### Calls -/

namespace FiberScan

variable {vectorSize : ℕ} {s : FiberScan R}

/-- A call returns the next rows; the scan goes on if they fill a vector. -/
lemma call_spec {pending : List R} (hpos : 0 < vectorSize) (hfin : s.finished = false)
    (h : s.fiber.Ready pending) :
    ∃ s', s.call vectorSize = .ok (s', (pending.take vectorSize).map some) ∧
      (vectorSize ≤ pending.length →
        s'.finished = false ∧ s'.fiber.Ready (pending.drop vectorSize)) ∧
      (pending.length < vectorSize → s'.finished = true) := by
  obtain ⟨hrows, herr, hfull, hshort⟩ := Fiber.resume_spec hpos h
  have hsize : (s.fiber.resume vectorSize).buffer.size = min vectorSize pending.length := by
    have hlen := congrArg List.length hrows
    rwa [DataChunk.rows, List.length_map, List.length_range, List.length_map, List.length_take]
      at hlen
  simp only [call, hfin, Bool.false_eq_true, if_false, herr]
  split
  · refine ⟨_, by rw [hrows], fun hge => ⟨(hfull hge).finished, hfull hge⟩, hshort⟩
  · next hempty =>
      have hnil : pending = [] := by
        rw [hsize] at hempty
        exact List.length_eq_zero_iff.1 (by omega)
      refine ⟨_, by rw [hnil, List.take_nil]; rfl, fun hge => ?_, fun _ => rfl⟩
      rw [hnil, List.length_nil] at hge
      omega

lemma calls_of_finished (hfin : s.finished = true) (n : ℕ) :
    calls vectorSize n s = .ok (s, List.replicate n []) := by
  have hcall : s.call vectorSize = .ok (s, []) := if_pos hfin
  induction n with
  | zero => rfl
  | succ n ih =>
      rw [calls, hcall]
      simp only [ih]
      rfl

/-- All calls one after the other, by induction on their number. -/
lemma calls_spec {pending : List R} (hpos : 0 < vectorSize) (hfin : s.finished = false)
    (h : s.fiber.Ready pending) (n : ℕ) :
    ∃ s', calls vectorSize n s = .ok (s', (List.range n).map fun k =>
        ((pending.drop (k * vectorSize)).take vectorSize).map some) ∧
      (s'.finished = true ↔ pending.length < n * vectorSize) := by
  induction n generalizing s pending with
  | zero =>
      refine ⟨s, rfl, ?_⟩
      rw [hfin]
      simp
  | succ n ih =>
      obtain ⟨s', hcall, hfull, hshort⟩ := call_spec hpos hfin h
      have hnext (k : ℕ) : (k + 1) * vectorSize = vectorSize + k * vectorSize := by
        rw [Nat.succ_mul, Nat.add_comm]
      rw [calls, hcall]
      simp only [List.range_succ_eq_map, List.map_cons, List.map_map, Function.comp_def, hnext]
      rcases Nat.lt_or_ge pending.length vectorSize with hlt | hge
      · rw [calls_of_finished (hshort hlt)]
        have hrest (k : ℕ) : pending.drop (vectorSize + k * vectorSize) = [] :=
          List.drop_eq_nil_of_le (by omega)
        refine ⟨s', ?_, ?_⟩
        · simp only [hrest, List.take_nil, List.map_nil, List.map_const', List.length_range,
            Nat.zero_mul, List.drop_zero]
        · rw [hshort hlt]
          simp only [true_iff]
          omega
      · obtain ⟨hfin', hready⟩ := hfull hge
        obtain ⟨s'', hcalls, hiff⟩ := ih hfin' hready
        rw [hcalls]
        refine ⟨s'', ?_, ?_⟩
        · simp only [List.drop_drop, Nat.zero_mul, List.drop_zero]
        · rw [hiff, List.length_drop]
          omega

/-- The rows of the first chunks are the first rows. -/
lemma flatten_chunks (vectorSize : ℕ) (rows : List R) (n : ℕ) :
    ((List.range n).map fun k => ((rows.drop (k * vectorSize)).take vectorSize).map some).flatten =
      (rows.take (n * vectorSize)).map some := by
  induction n with
  | zero => simp
  | succ n ih =>
      rw [List.range_succ, List.map_append, List.flatten_append, ih, List.map_singleton,
        List.flatten_singleton, ← List.map_append, Nat.succ_mul, List.take_add]

end FiberScan

/-- The chunks that successive calls return are the rows of the statement, a vector's worth each: a
chunk is empty only if no row is left, and the scan has ended once a call had room for more rows
than were left. -/
theorem fiber_scan_chunks (vectorSize : ℕ) (hpos : 0 < vectorSize) (rows : List R) (n : ℕ) :
    ∃ s chunks,
      FiberScan.calls vectorSize n ⟨false, Fiber.init (rows.map sent)⟩ = .ok (s, chunks) ∧
      chunks = ((List.range n).map fun k =>
        ((rows.drop (k * vectorSize)).take vectorSize).map some) ∧
      chunks.flatten = (rows.take (n * vectorSize)).map some ∧
      (∀ k < n, chunks[k]? ≠ some [] ↔ k * vectorSize < rows.length) ∧
      (s.finished = true ↔ rows.length < n * vectorSize) ∧
      (rows.length ≤ n * vectorSize → chunks.flatten = rows.map some) := by
  obtain ⟨s, hcalls, hfin⟩ := FiberScan.calls_spec (s := ⟨false, Fiber.init (rows.map sent)⟩) hpos
    rfl (Fiber.ready_init rows) n
  have hflatten := FiberScan.flatten_chunks vectorSize rows n
  refine ⟨s, _, hcalls, rfl, hflatten, fun k hk => ?_, hfin, fun hle => ?_⟩
  · rw [List.getElem?_map, List.getElem?_range hk, Option.map_some, Ne, Option.some_inj,
      List.map_eq_nil_iff, List.take_eq_nil_iff, List.drop_eq_nil_iff]
    omega
  · rw [hflatten, List.take_of_length_le hle]

/-- Five rows in vectors of two: three chunks, and the scan has ended. -/
theorem fiber_scan_chunks_five :
    ∃ s chunks, FiberScan.calls 2 3 ⟨false, Fiber.init ([1, 2, 3, 4, 5].map sent)⟩ =
        .ok (s, chunks) ∧
      chunks.flatten = [1, 2, 3, 4, 5].map some ∧ s.finished = true :=
  have ⟨s, chunks, hcalls, _, _, _, hfin, hall⟩ :=
    fiber_scan_chunks 2 (by decide) [1, 2, 3, 4, 5] 3
  ⟨s, chunks, hcalls, hall (by decide), hfin.2 (by decide)⟩

end DuckdbEngine.CrossEngine
