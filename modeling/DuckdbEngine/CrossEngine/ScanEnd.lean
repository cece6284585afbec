/-
How the scan of an external table ends for DuckDB.

DuckDB pulls chunks from `mdb_scan_function` until one is empty.  The values of a
row are stored into the vectors of the chunk one after the other, and a value that
DuckDB cannot convert throws: with the parent's handler the exception leaves the
function as it is, in the fiber `send_data` turns it into an error of the statement.
Either way the chunk is lost and the query fails.

What DuckDB receives does not depend on the chunks: it is read off the rows
(`outcome`).  A failure of the statement in the fiber and of a conversion is raised;
one of `FiberScanState::init`, of `ha_rnd_init` and of `ha_rnd_next` looks like the
end of the data (`failed_scan_raises_iff`).
-/
import DuckdbEngine.Lib.PullStream
import DuckdbEngine.CrossEngine.Scan

namespace DuckdbEngine.CrossEngine

open PullStream

variable {V W : Type}

/-- The exceptions that leave the scan function: its own, and that of a conversion. -/
inductive ScanException where
  | scan (e : ScanError)
  | conversion
deriving DecidableEq

namespace MdbScanGlobalState

/-- One call of the scan function with the conversion of the rows, which fails where it has no
value. -/
def scanChunk (env : ScanEnv) (convert : Row V → Option (Row W)) (s : MdbScanGlobalState V) :
    Except ScanException (MdbScanGlobalState V × List (Row W)) :=
  match s.mdbScanFunction env with
  | .error e => .error (.scan e)
  | .ok (s', chunk) =>
      if chunk.all fun r => (convert r).isSome then .ok (s', chunk.filterMap convert)
      else .error (if s.direct then .conversion else .scan .invalidInput)

end MdbScanGlobalState

/-! ### The outcome, read off the rows -/

section Outcome

variable (env : ScanEnv) (convert : Row V → Option (Row W))

/-- Reading with the parent's handler from a position on, where the rows `rs` are left. -/
def directOutcome : ℕ → List (Row V) → Outcome ScanException (Row W)
  | _, [] => .ended []
  | pos, r :: rs =>
      if env.rndNextFails pos then .ended []
      else
        match convert r with
        | none => .raised .conversion
        | some w => (directOutcome (pos + 1) rs).prepend [w]

/-- The statement in the fiber, resumed `k` times before and with the rows `rs` still to send,
fails in one of the resumptions to come or has a row that cannot be converted. -/
def FiberStops (k : ℕ) (rs : List (Row V)) : Prop :=
  (∃ j, j ≤ rs.length / standardVectorSize ∧ env.fiberFails (k + j) = true) ∨
    ∃ r ∈ rs, convert r = none

instance (k : ℕ) (rs : List (Row V)) : Decidable (FiberStops env convert k rs) :=
  inferInstanceAs (Decidable (_ ∨ _))

def fiberOutcome (k : ℕ) (rs : List (Row V)) : Outcome ScanException (Row W) :=
  if FiberStops env convert k rs then .raised (.scan .invalidInput)
  else .ended (rs.filterMap convert)

/-- What DuckDB receives from a state on. -/
def outcome (s : MdbScanGlobalState V) : Outcome ScanException (Row W) :=
  if s.finished then .ended []
  else if s.direct then
    if !s.rndInited && env.rndInitFails then .ended []
    else directOutcome env convert s.position s.rest
  else if !s.scanStarted && env.fiberInitFails then .ended []
  else fiberOutcome env convert ((s.fiber.map FiberScanState.resumed).getD 0) s.rest

end Outcome

variable {env : ScanEnv} {convert : Row V → Option (Row W)}

lemma all_isSome_iff {rs : List (Row V)} :
    (rs.all fun r => (convert r).isSome) = true ↔ ∀ r ∈ rs, convert r ≠ none := by
  simp [List.all_eq_true, Option.isSome_iff_ne_none]

lemma eq_nil_of_filterMap {rs : List (Row V)} (hall : ∀ r ∈ rs, convert r ≠ none)
    (h : rs.filterMap convert = []) : rs = [] := by
  refine List.eq_nil_iff_forall_not_mem.2 fun r hr => hall r hr ?_
  exact List.filterMap_eq_nil_iff.1 h r hr

/-- The loop over `ha_rnd_next` reads a first part of the outcome. -/
lemma directOutcome_readRows (env : ScanEnv) (convert : Row V → Option (Row W))
    (t : ExternalTable V) (cols : List ℕ) (n pos : ℕ) :
    directOutcome env convert pos ((t.rows.drop pos).map (project cols)) =
      if (readRows env t cols n pos).1.all fun r => (convert r).isSome then
        (if (readRows env t cols n pos).2.2 then .ended []
          else directOutcome env convert (readRows env t cols n pos).2.1
            ((t.rows.drop (readRows env t cols n pos).2.1).map (project cols))).prepend
          ((readRows env t cols n pos).1.filterMap convert)
      else .raised .conversion := by
  induction n generalizing pos with
  | zero => simp [readRows]
  | succ n ih =>
      rw [readRows]
      cases hrow : t.rows[pos]? with
      | none =>
          rw [List.drop_eq_nil_of_le (List.getElem?_eq_none_iff.1 hrow)]
          split <;> simp [directOutcome]
      | some r =>
          obtain ⟨hlt, rfl⟩ := List.getElem?_eq_some_iff.1 hrow
          rw [List.drop_eq_getElem_cons hlt, List.map_cons, directOutcome]
          split
          · simp
          · cases hw : convert (project cols t.rows[pos]) with
            | none => simp [hw]
            | some w =>
                simp only [ih (pos + 1), List.all_cons, hw, Option.isSome_some, Bool.true_and,
                  List.filterMap_cons]
                split <;> simp [Outcome.prepend_prepend]

lemma fiberOutcome_of_stops {k : ℕ} {rs : List (Row V)} (h : FiberStops env convert k rs) :
    fiberOutcome env convert k rs = .raised (.scan .invalidInput) := if_pos h

/-- One resumption of the fiber sends a first part of the outcome. -/
lemma fiberOutcome_chunk {k : ℕ} {rs : List (Row V)} (hk : env.fiberFails k = false)
    (hc : ∀ r ∈ rs.take standardVectorSize, convert r ≠ none) :
    fiberOutcome env convert k rs =
      (if rs.length < standardVectorSize then .ended []
        else fiberOutcome env convert (k + 1) (rs.drop standardVectorSize)).prepend
        ((rs.take standardVectorSize).filterMap convert) := by
  have hpos : 0 < standardVectorSize := by decide
  split
  · next hlt =>
      have hall := List.take_of_length_le hlt.le
      rw [hall] at hc ⊢
      have hgo : ¬ FiberStops env convert k rs := by
        rintro (⟨j, hj, hfail⟩ | ⟨r, hr, hnone⟩)
        · obtain rfl : j = 0 := by rw [Nat.div_eq_of_lt hlt] at hj; omega
          simp [hk] at hfail
        · exact hc r hr hnone
      simp [fiberOutcome, hgo]
  · next hge =>
      have hstops : FiberStops env convert k rs ↔
          FiberStops env convert (k + 1) (rs.drop standardVectorSize) := by
        have hdiv : rs.length / standardVectorSize =
            (rs.length - standardVectorSize) / standardVectorSize + 1 := by
          rw [← Nat.add_div_right _ hpos, Nat.sub_add_cancel (by omega)]
        unfold FiberStops
        rw [List.length_drop, hdiv]
        refine or_congr ⟨?_, ?_⟩ ⟨?_, ?_⟩
        · rintro ⟨_ | j, hj, hfail⟩
          · simp [hk] at hfail
          · exact ⟨j, by omega, by rwa [Nat.add_right_comm, Nat.add_assoc]⟩
        · rintro ⟨j, hj, hfail⟩
          exact ⟨j + 1, by omega, by rwa [Nat.add_right_comm, Nat.add_assoc] at hfail⟩
        · rintro ⟨r, hr, hnone⟩
          rw [← List.take_append_drop standardVectorSize rs, List.mem_append] at hr
          exact ⟨r, hr.resolve_left fun htake => hc r htake hnone, hnone⟩
        · rintro ⟨r, hr, hnone⟩
          exact ⟨r, List.mem_of_mem_drop hr, hnone⟩
      unfold fiberOutcome
      simp only [hstops]
      split
      · rfl
      · rw [Outcome.prepend_ended, ← List.filterMap_append, List.take_append_drop]

/-! ### One call -/

namespace MdbScanGlobalState

variable {s s' : MdbScanGlobalState V} {ws : List (Row W)}

/-- A call that hands out rows leaves less to read. -/
lemma scanChunk_rest_lt (hs : s.Wf) (h : s.scanChunk env convert = .ok (s', ws)) (hne : ws ≠ []) :
    s'.Wf ∧ s'.rest.length < s.rest.length := by
  unfold scanChunk at h
  split at h
  · cases h
  · next t chunk hok =>
      split at h <;> cases h
      obtain ⟨hwf, lost, heq, -⟩ := mdbScanFunction_spec hs hok
      refine ⟨hwf, ?_⟩
      have hchunk : 0 < chunk.length := by
        refine List.length_pos_iff.2 fun hnil => hne ?_
        rw [hnil, List.filterMap_nil]
      rw [← heq, List.length_append, List.length_append]
      omega

/-- What a call makes of the outcome from the next state on. -/
def after (env : ScanEnv) (convert : Row V → Option (Row W)) :
    Except ScanException (MdbScanGlobalState V × List (Row W)) → Outcome ScanException (Row W)
  | .error e => .raised e
  | .ok (s', ws) => (outcome env convert s').prepend ws

lemma outcome_of_finished (h : s.finished = true) : outcome env convert s = .ended [] := by
  rw [outcome, if_pos h]

/-- What holds of a scan between two calls. -/
structure Shape (s : MdbScanGlobalState V) : Prop where
  wf : s.Wf
  direct : s.direct = true → s.fiber = none
  fiber : s.direct = false → s.scanStarted = true → s.fiber.isSome = true

/-- What one call does to the outcome: `s'` is the state it leaves, and an empty chunk is the
end. -/
structure Pulls (env : ScanEnv) (convert : Row V → Option (Row W)) (s : MdbScanGlobalState V) :
    Prop where
  outcome_eq : outcome env convert s = after env convert (s.scanChunk env convert)
  shape : ∀ s' ws, s.scanChunk env convert = .ok (s', ws) → s'.Shape
  finished : ∀ s', s.scanChunk env convert = .ok (s', []) → s'.finished = true

lemma pulls_of_ok (hok : s.scanChunk env convert = .ok (s', ws)) (hs : s'.Shape)
    (hend : ws = [] → s'.finished = true)
    (hout : outcome env convert s = (outcome env convert s').prepend ws) : Pulls env convert s where
  outcome_eq := by rw [hok, hout, after]
  shape t us h := by
    cases hok.symm.trans h
    exact hs
  finished t h := by
    cases hok.symm.trans h
    exact hend rfl

lemma pulls_of_error {e : ScanException} (herr : s.scanChunk env convert = .error e)
    (hout : outcome env convert s = .raised e) : Pulls env convert s where
  outcome_eq := by rw [herr, hout, after]
  shape t us h := by cases herr.symm.trans h
  finished t h := by cases herr.symm.trans h

lemma pulls_of_finished (hs : s.Shape) (h : s.finished = true) : Pulls env convert s :=
  pulls_of_ok (by simp [scanChunk, mdbScanFunction, h]) hs (fun _ => h)
    (Outcome.prepend_nil _).symm

/-! #### With the parent's handler -/

lemma mdbScanFunction_direct (hd : s.direct = true) (hfib : s.fiber = none)
    (hf : s.finished = false) :
    s.mdbScanFunction env = .ok (({ s with scanStarted := true }).directStep env) := by
  have hstart : s.start env = some { s with scanStarted := true } := by
    rw [start]
    split
    · next hst => rw [← hst]
    · rfl
  simp [mdbScanFunction, hf, hstart, hfib]

/-- No rows are read only at the end. -/
lemma readRows_eq_nil (t : ExternalTable V) (cols : List ℕ) (n pos : ℕ)
    (h : (readRows env t cols (n + 1) pos).1 = []) :
    (readRows env t cols (n + 1) pos).2.2 = true := by
  rw [readRows] at h ⊢
  split at h
  · next hfail => rw [if_pos hfail]
  · next hfail =>
      rw [if_neg hfail]
      split at h
      · rfl
      · simp at h

/-- The state once the handler has read up to a position. -/
def readTo (s : MdbScanGlobalState V) (pos : ℕ) (done : Bool) : MdbScanGlobalState V :=
  { s with scanStarted := true, rndInited := true, position := pos, finished := done }

lemma outcome_readTo (hd : s.direct = true) (hfib : s.fiber = none) (pos : ℕ) (done : Bool) :
    outcome env convert (s.readTo pos done) =
      if done then .ended []
      else directOutcome env convert pos ((s.table.rows.drop pos).map (project s.columnIds)) := by
  cases done <;> simp [outcome, readTo, rest, hd, hfib]

lemma scanChunk_readTo (hd : s.direct = true) (hfib : s.fiber = none) (hf : s.finished = false)
    (hinit : ¬ (!s.rndInited && env.rndInitFails) = true) {r : List (Row V) × ℕ × Bool}
    (hr : readRows env s.table s.columnIds standardVectorSize s.position = r) :
    s.scanChunk env convert =
      if r.1.all fun r => (convert r).isSome then
        .ok (s.readTo r.2.1 r.2.2, r.1.filterMap convert)
      else .error .conversion := by
  simp only [scanChunk, mdbScanFunction_direct hd hfib hf, directStep, if_neg hinit, hr, hd,
    if_true, readTo]

lemma pulls_direct (hs : s.Shape) (hd : s.direct = true) (hf : s.finished = false) :
    Pulls env convert s := by
  have hfib := hs.direct hd
  by_cases hinit : (!s.rndInited && env.rndInitFails) = true
  · have hchunk : s.scanChunk env convert =
        .ok ({ s with scanStarted := true, finished := true }, []) := by
      simp [scanChunk, mdbScanFunction_direct hd hfib hf, directStep, hinit]
    refine pulls_of_ok hchunk ⟨fun _ => hfib, fun _ => hfib, by simp [hd]⟩ (fun _ => rfl) ?_
    rw [outcome, if_neg (by simp [hf]), if_pos hd, if_pos hinit, outcome_of_finished rfl,
      Outcome.prepend_nil]
  · have hrest : s.rest = (s.table.rows.drop s.position).map (project s.columnIds) := by
      simp [rest, hf, hfib, hd]
    have hout : outcome env convert s = directOutcome env convert s.position s.rest := by
      rw [outcome, if_neg (by simp [hf]), if_pos hd, if_neg hinit]
    rw [hrest, directOutcome_readRows env convert s.table s.columnIds standardVectorSize] at hout
    generalize hr : readRows env s.table s.columnIds standardVectorSize s.position = r at hout
    have hchunk : s.scanChunk env convert = _ := scanChunk_readTo hd hfib hf hinit hr
    by_cases hall : (r.1.all fun r => (convert r).isSome) = true
    · rw [if_pos hall, ← outcome_readTo hd hfib] at hout
      rw [if_pos hall] at hchunk
      refine pulls_of_ok hchunk ⟨fun _ => hfib, fun _ => hfib, by simp [readTo, hd]⟩ ?_ hout
      intro hnil
      subst hr
      exact readRows_eq_nil _ _ _ _ (eq_nil_of_filterMap (all_isSome_iff.1 hall) hnil)
    · rw [if_neg hall] at hout hchunk
      exact pulls_of_error hchunk hout

/-! #### In a fiber -/

/-- The fiber that the next call resumes. -/
def currentFiber (s : MdbScanGlobalState V) : FiberScanState V :=
  s.fiber.getD ⟨syntheticSelect s.table s.columnIds s.whereSql, 0, [], false⟩

/-- The state once that fiber has been resumed. -/
def resumed (s : MdbScanGlobalState V) : MdbScanGlobalState V :=
  { s with
    scanStarted := true
    fiber := some s.currentFiber.resume
    finished := s.currentFiber.resume.finished }

lemma rest_eq_pending (hs : s.Shape) (hd : s.direct = false) (hf : s.finished = false) :
    s.rest = s.currentFiber.pending := by
  rw [rest, if_neg (by simp [hf]), currentFiber]
  cases hfib : s.fiber with
  | some f => rfl
  | none =>
      have hst : s.scanStarted = false := by
        by_contra hst
        simpa [hfib] using hs.fiber hd (by simpa using hst)
      simp [hst, hd]

lemma mdbScanFunction_fiber (hs : s.Shape) (hd : s.direct = false) (hf : s.finished = false)
    (hinit : ¬ (!s.scanStarted && env.fiberInitFails) = true) :
    s.mdbScanFunction env =
      if env.fiberFails s.currentFiber.resumed then .error .invalidInput
      else .ok (s.resumed, s.currentFiber.resume.buffer) := by
  have hstart : s.start env =
      some { s with scanStarted := true, fiber := some s.currentFiber } := by
    rw [start]
    by_cases hst : s.scanStarted = true
    · obtain ⟨f, hfib⟩ := Option.isSome_iff_exists.1 (hs.fiber hd hst)
      rw [if_pos hst, currentFiber, hfib, Option.getD_some, ← hfib, ← hst]
    · have hno : env.fiberInitFails = false := by simpa [hst] using hinit
      have hfib := hs.wf (by simpa using hst)
      simp [hst, hd, hno, currentFiber, hfib]
  simp only [mdbScanFunction, hf, hstart, fiberStep, Bool.false_eq_true, if_false]
  split
  · rfl
  · split
    · next hempty =>
        -- an empty buffer means that there was nothing left to send
        have hnil : s.currentFiber.pending = [] := by
          simpa [FiberScanState.resume, standardVectorSize] using hempty
        simp [resumed, FiberScanState.resume, hnil, standardVectorSize]
    · rfl

lemma outcome_resumed (hd : s.direct = false) :
    outcome env convert s.resumed =
      if s.currentFiber.pending.length < standardVectorSize then .ended []
      else fiberOutcome env convert (s.currentFiber.resumed + 1)
        (s.currentFiber.pending.drop standardVectorSize) := by
  by_cases hlt : s.currentFiber.pending.length < standardVectorSize
  · simp [outcome, resumed, FiberScanState.resume, hlt]
  · simp [outcome, resumed, FiberScanState.resume, hlt, hd, rest]

lemma pulls_fiber (hs : s.Shape) (hd : s.direct = false) (hf : s.finished = false) :
    Pulls env convert s := by
  by_cases hinit : (!s.scanStarted && env.fiberInitFails) = true
  · have hst : s.scanStarted = false := by simpa using (Bool.and_eq_true_iff.1 hinit).1
    have hchunk : s.scanChunk env convert = .ok ({ s with finished := true }, []) := by
      have hfail := (Bool.and_eq_true_iff.1 hinit).2
      simp [scanChunk, mdbScanFunction, hf, start, hst, hd, hfail]
    refine pulls_of_ok hchunk ⟨hs.wf, hs.direct, hs.fiber⟩ (fun _ => rfl) ?_
    rw [outcome, if_neg (by simp [hf]), if_neg (by simp [hd]), if_pos hinit,
      outcome_of_finished rfl, Outcome.prepend_nil]
  · have hfun := mdbScanFunction_fiber hs hd hf hinit
    have hout : outcome env convert s =
        fiberOutcome env convert s.currentFiber.resumed s.currentFiber.pending := by
      rw [outcome, if_neg (by simp [hf]), if_neg (by simp [hd]), if_neg hinit,
        rest_eq_pending hs hd hf]
      cases hfib : s.fiber <;> simp [currentFiber, hfib]
    by_cases hfail : env.fiberFails s.currentFiber.resumed = true
    · rw [if_pos hfail] at hfun
      refine pulls_of_error (e := .scan .invalidInput) (by simp [scanChunk, hfun]) ?_
      rw [hout, fiberOutcome_of_stops (Or.inl ⟨0, Nat.zero_le _, hfail⟩)]
    · rw [if_neg hfail] at hfun
      by_cases hall : ∀ r ∈ s.currentFiber.pending.take standardVectorSize, convert r ≠ none
      · have hchunk : s.scanChunk env convert = .ok (s.resumed,
            (s.currentFiber.pending.take standardVectorSize).filterMap convert) := by
          rw [scanChunk, hfun]
          exact if_pos (all_isSome_iff.2 hall)
        refine pulls_of_ok hchunk ⟨by simp [resumed, Wf], by simp [resumed, hd],
          fun _ _ => rfl⟩ ?_ ?_
        · intro hnil
          have hpending : s.currentFiber.pending = [] := by
            simpa [standardVectorSize] using eq_nil_of_filterMap hall hnil
          simp [resumed, FiberScanState.resume, hpending, standardVectorSize]
        · rw [hout, fiberOutcome_chunk (by simpa using hfail) hall, outcome_resumed hd]
      · refine pulls_of_error (e := .scan .invalidInput) ?_ ?_
        · rw [scanChunk, hfun]
          simp only [hd]
          exact if_neg (mt all_isSome_iff.1 hall)
        · obtain ⟨r, hr, hnone⟩ : ∃ r ∈ s.currentFiber.pending.take standardVectorSize,
              convert r = none := by simpa using hall
          rw [hout, fiberOutcome_of_stops (Or.inr ⟨r, List.mem_of_mem_take hr, hnone⟩)]

lemma Shape.pulls (hs : s.Shape) : Pulls env convert s := by
  by_cases hf : s.finished = true
  · exact pulls_of_finished hs hf
  · rw [Bool.not_eq_true] at hf
    cases hd : s.direct with
    | true => exact pulls_direct hs hd hf
    | false => exact pulls_fiber hs hd hf

/-- Pulling until the end gives the outcome read off the rows. -/
theorem drain_eq_outcome (hs : s.Shape) {n : ℕ} (hn : s.rest.length < n) :
    drain (scanChunk env convert) n s = some (outcome env convert s) := by
  refine drain_spec (P := Shape) (m := fun s => s.rest.length) ?_ ?_ ?_ hs hn
  · intro s e hs herr
    rw [hs.pulls.outcome_eq, herr, after]
  · intro s s' hs hok
    rw [hs.pulls.outcome_eq, hok, after, outcome_of_finished (hs.pulls.finished s' hok),
      Outcome.prepend_nil]
  · intro s s' ws hs hok hne
    refine ⟨hs.pulls.shape s' ws hok, (scanChunk_rest_lt hs.wf hok hne).2, ?_⟩
    rw [hs.pulls.outcome_eq, hok, after]

end MdbScanGlobalState

/-! ### Which failures are raised -/

section Failures

variable (env : ScanEnv) (convert : Row V → Option (Row W)) (bind : MdbScanBindData V)
  (columnIds : List ℕ)

/-- `ha_rnd_next` fails at a position from which on the rows `rs` are left, or later with no
conversion failing before. -/
def NextFailsFirst (pos : ℕ) (rs : List (Row V)) : Prop :=
  ∃ p ≤ rs.length, env.rndNextFails (pos + p) = true ∧ ∀ r ∈ rs.take p, convert r ≠ none

/-- The rows of a scan that nothing stops. -/
def allRows : List (Row V) :=
  if bind.direct then bind.table.rows.map (project columnIds)
  else syntheticSelect bind.table columnIds bind.whereSql

/-- The scan stops for another reason than the end of the data: its initialization fails, or
reading a row or, behind the last one, finding the end, or the conversion of a row. -/
def ScanFails : Prop :=
  (if bind.direct then
    env.rndInitFails = true ∨ ∃ p ≤ (allRows bind columnIds).length, env.rndNextFails p = true
  else
    env.fiberInitFails = true ∨
      ∃ k ≤ (allRows bind columnIds).length / standardVectorSize, env.fiberFails k = true) ∨
    ∃ r ∈ allRows bind columnIds, convert r = none

/-- The failures that look like the end of the data: those of an initialization, and an error of
`ha_rnd_next` with no conversion failing before. -/
def LooksLikeEnd : Prop :=
  if bind.direct then
    env.rndInitFails = true ∨ NextFailsFirst env convert 0 (allRows bind columnIds)
  else env.fiberInitFails = true

end Failures

lemma nextFailsFirst_cons (pos : ℕ) (r : Row V) (rs : List (Row V)) :
    NextFailsFirst env convert pos (r :: rs) ↔
      env.rndNextFails pos = true ∨
        (convert r ≠ none ∧ NextFailsFirst env convert (pos + 1) rs) := by
  constructor
  · rintro ⟨_ | p, hp, hfail, hall⟩
    · exact Or.inl hfail
    · rw [List.take_succ_cons, List.forall_mem_cons] at hall
      refine Or.inr ⟨hall.1, p, by simpa using hp, ?_, hall.2⟩
      rwa [Nat.add_right_comm, Nat.add_assoc]
  · rintro (hfail | ⟨hr, p, hp, hfail, hall⟩)
    · exact ⟨0, Nat.zero_le _, hfail, by simp⟩
    · refine ⟨p + 1, by simpa using hp, ?_, ?_⟩
      · rwa [Nat.add_right_comm, Nat.add_assoc] at hfail
      · rw [List.take_succ_cons, List.forall_mem_cons]
        exact ⟨hr, hall⟩

/-- Reading with the parent's handler raises exactly if a conversion fails before `ha_rnd_next`
does. -/
lemma directOutcome_raised_iff (pos : ℕ) (rs : List (Row V)) :
    (∃ e, directOutcome env convert pos rs = .raised e) ↔
      (∃ r ∈ rs, convert r = none) ∧ ¬ NextFailsFirst env convert pos rs := by
  induction rs generalizing pos with
  | nil => simp [directOutcome]
  | cons r rs ih =>
      rw [directOutcome, nextFailsFirst_cons]
      split
      · next hfail => simp [hfail]
      · next hfail =>
          cases hw : convert r with
          | none => simp [hw, hfail]
          | some w =>
              have hprepend : (∃ e, (directOutcome env convert (pos + 1) rs).prepend [w] =
                  .raised e) ↔ ∃ e, directOutcome env convert (pos + 1) rs = .raised e := by
                cases directOutcome env convert (pos + 1) rs <;> simp
              simp [hprepend, ih, hw, hfail]

/-- Undisturbed, it reads all rows. -/
lemma directOutcome_of_calm {pos : ℕ} {rs : List (Row V)}
    (hnext : ¬ NextFailsFirst env convert pos rs) (hall : ∀ r ∈ rs, convert r ≠ none) :
    directOutcome env convert pos rs = .ended (rs.filterMap convert) := by
  induction rs generalizing pos with
  | nil => rfl
  | cons r rs ih =>
      rw [nextFailsFirst_cons, not_or] at hnext
      rw [List.forall_mem_cons] at hall
      obtain ⟨w, hw⟩ := Option.ne_none_iff_exists'.1 hall.1
      have hrest : ¬ NextFailsFirst env convert (pos + 1) rs := fun h => hnext.2 ⟨hall.1, h⟩
      rw [directOutcome, if_neg hnext.1, ih hrest hall.2]
      simp [hw]

variable (bind : MdbScanBindData V) (columnIds : List ℕ) (filters : List (TableFilter V))

lemma shape_initGlobal : (mdbScanInitGlobal bind columnIds filters).Shape :=
  ⟨wf_initGlobal bind columnIds filters, fun _ => rfl, fun _ => nofun⟩

lemma rest_initGlobal_eq_allRows :
    (mdbScanInitGlobal bind columnIds filters).rest = allRows bind columnIds := by
  cases hd : bind.direct <;> simp [MdbScanGlobalState.rest, mdbScanInitGlobal, allRows, hd]

/-- With the parent's handler. -/
lemma directOutcome_judged (hd : bind.direct = true) (hinit : ¬ env.rndInitFails = true) :
    ((ScanFails env convert bind columnIds →
        ∃ e, directOutcome env convert 0 (allRows bind columnIds) = .raised e) ↔
      ¬ LooksLikeEnd env convert bind columnIds) ∧
    (¬ ScanFails env convert bind columnIds →
      directOutcome env convert 0 (allRows bind columnIds) =
        .ended ((allRows bind columnIds).filterMap convert)) := by
  generalize hrs : allRows bind columnIds = rs
  simp only [ScanFails, LooksLikeEnd, hd, hrs, if_true, hinit, Bool.false_eq_true, false_or,
    directOutcome_raised_iff]
  have hnext : NextFailsFirst env convert 0 rs → ∃ p ≤ rs.length, env.rndNextFails p = true := by
    rintro ⟨p, hp, hfail, -⟩
    exact ⟨p, hp, by rwa [Nat.zero_add] at hfail⟩
  refine ⟨⟨fun h hfirst => (h (Or.inl (hnext hfirst))).2 hfirst, fun h hfails => ⟨?_, h⟩⟩, ?_⟩
  · rcases hfails with ⟨p, hp, hfail⟩ | hconv
    · -- the error of `ha_rnd_next` does not come first, so a conversion fails before it
      by_contra hall
      refine h ⟨p, hp, by rwa [Nat.zero_add], fun r hr hnone => hall ⟨r, ?_, hnone⟩⟩
      exact List.mem_of_mem_take hr
    · exact hconv
  · intro hgo
    rw [not_or] at hgo
    exact directOutcome_of_calm (fun hfirst => hgo.1 (hnext hfirst))
      fun r hr hnone => hgo.2 ⟨r, hr, hnone⟩

/-- In a fiber. -/
lemma fiberOutcome_judged (hd : bind.direct = false) (hinit : ¬ env.fiberInitFails = true) :
    ((ScanFails env convert bind columnIds →
        ∃ e, fiberOutcome env convert 0 (allRows bind columnIds) = .raised e) ↔
      ¬ LooksLikeEnd env convert bind columnIds) ∧
    (¬ ScanFails env convert bind columnIds →
      fiberOutcome env convert 0 (allRows bind columnIds) =
        .ended ((allRows bind columnIds).filterMap convert)) := by
  have hstops : ScanFails env convert bind columnIds ↔
      FiberStops env convert 0 (allRows bind columnIds) := by
    simp [ScanFails, FiberStops, hd, hinit]
  have hlooks : ¬ LooksLikeEnd env convert bind columnIds := by
    simpa [LooksLikeEnd, hd] using hinit
  refine ⟨iff_of_true (fun hfails => ⟨_, fiberOutcome_of_stops (hstops.1 hfails)⟩) hlooks, ?_⟩
  intro hgo
  rw [fiberOutcome, if_neg (mt hstops.2 hgo)]

/-- Pulling until the end comes to an end.  Every failure of a scan is raised exactly if it is
none of those that look like the end of the data, and a scan that does not fail ends with all
its rows. -/
theorem failed_scan_raises_iff (env : ScanEnv) (convert : Row V → Option (Row W))
    (bind : MdbScanBindData V) (columnIds : List ℕ) (filters : List (TableFilter V)) :
    ∃ o, (∀ n, (allRows bind columnIds).length < n →
        drain (MdbScanGlobalState.scanChunk env convert) n
          (mdbScanInitGlobal bind columnIds filters) = some o) ∧
      ((ScanFails env convert bind columnIds → ∃ e, o = .raised e) ↔
        ¬ LooksLikeEnd env convert bind columnIds) ∧
      (¬ ScanFails env convert bind columnIds →
        o = .ended ((allRows bind columnIds).filterMap convert)) := by
  refine ⟨outcome env convert (mdbScanInitGlobal bind columnIds filters), fun n hn => ?_, ?_⟩
  · refine MdbScanGlobalState.drain_eq_outcome (shape_initGlobal bind columnIds filters) ?_
    rwa [rest_initGlobal_eq_allRows]
  · cases hd : bind.direct with
    | true =>
        by_cases hinit : env.rndInitFails = true
        · simp [ScanFails, LooksLikeEnd, outcome, mdbScanInitGlobal, hd, hinit]
        · have hout : outcome env convert (mdbScanInitGlobal bind columnIds filters) =
              directOutcome env convert 0 (allRows bind columnIds) := by
            rw [← rest_initGlobal_eq_allRows bind columnIds filters]
            simp [outcome, mdbScanInitGlobal, hd, hinit]
          rw [hout]
          exact directOutcome_judged bind columnIds hd hinit
    | false =>
        by_cases hinit : env.fiberInitFails = true
        · simp [ScanFails, LooksLikeEnd, outcome, mdbScanInitGlobal, hd, hinit]
        · have hout : outcome env convert (mdbScanInitGlobal bind columnIds filters) =
              fiberOutcome env convert 0 (allRows bind columnIds) := by
            rw [← rest_initGlobal_eq_allRows bind columnIds filters]
            simp [outcome, mdbScanInitGlobal, hd, hinit]
          rw [hout]
          exact fiberOutcome_judged bind columnIds hd hinit

/-- The table `e (id)` with the rows 1 and 2. -/
def twoRows : ExternalTable ℕ := ⟨0, [true], [[some 1], [some 2]], by decide⟩

/-- `ha_rnd_next` fails at the second row. -/
def secondRowFails : ScanEnv := { ScanEnv.calm with rndNextFails := fun pos => pos == 1 }

/-- `FiberScanState::init` fails. -/
def noFiber : ScanEnv := { ScanEnv.calm with fiberInitFails := true }

/-- The scan with the parent's handler fails at the second row and the one in a fiber before the
first, and DuckDB receives the first row and no row at all as the complete table. -/
theorem failed_scan_ends_normally :
    (ScanFails secondRowFails some ⟨twoRows, none, true⟩ [0] ∧
      drain (MdbScanGlobalState.scanChunk secondRowFails some) 3
        (mdbScanInitGlobal ⟨twoRows, none, true⟩ [0] []) = some (.ended [[some 1]])) ∧
    (ScanFails noFiber some ⟨twoRows, none, false⟩ [0] ∧
      drain (MdbScanGlobalState.scanChunk noFiber some) 3
        (mdbScanInitGlobal ⟨twoRows, none, false⟩ [0] []) = some (.ended [])) := by
  refine ⟨⟨Or.inl (Or.inr ⟨1, by decide, rfl⟩), ?_⟩, Or.inl (Or.inl rfl), ?_⟩
  · decide +kernel
  · decide +kernel

end DuckdbEngine.CrossEngine
