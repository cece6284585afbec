/-
A session reads its own writes.

Three paths lead a read to DuckDB.  The scan and the forwarded UPDATE or DELETE flush the
appenders first and so see all earlier row operations of the transaction.  The pushed-down
SELECT does not: it sees them exactly when nothing is pending.
-/
import DuckdbEngine.Proofs.IssueOrder

namespace DuckdbEngine

variable {V : Type} [DecidableEq V] {env : Env V}

namespace Session

variable {s s' q : Session V} {spec : Tables V}

/-- The state in which the statement of a read is submitted to DuckDB. -/
def readIn (env : Env V) (s : Session V) : Op V → Option (Session V)
  | .rndInit _ => (s.planRndInit env).submittedIn
  | .direct unsafeQuote f => (s.planDirect env unsafeQuote f).submittedIn
  | .pushedSelect unsafeQuote => (s.planPushedSelect env unsafeQuote).submittedIn
  | _ => none

omit [DecidableEq V] in
/-- The read takes the path of a pushed-down SELECT. -/
def IsPushed : Op V → Prop
  | .pushedSelect _ => True
  | _ => False

/-- The read sees the contents `spec`: they are in the tables, and no row is held back. -/
structure Sees (spec : Tables V) (q : Session V) : Prop where
  nothingPending : q.NothingPending
  tables_eq : ∀ t, q.store.tables t = spec t

/-- Selecting a schema changes no contents. -/
lemma configDuckdbEnv_store (env : Env V) (s : Session V) (schema : Name) :
    (s.configDuckdbEnv env schema).store = s.store ∧
      (s.configDuckdbEnv env schema).appenders = s.appenders := by
  have hexec : ∀ (c : Conn V) (q : Stmt V), (∀ schema st, q.eval schema st = some st) →
      (c.exec env [q]).2.store = c.store := by
    intro c q hq
    refine Conn.exec_store_inv env (P := fun st => st = c.store) (fun q' hq' schema st st' hst h => ?_) rfl
    rw [List.mem_singleton.1 hq', hq, Option.some.injEq] at h
    rw [← h, hst]
  unfold configDuckdbEnv
  split
  · exact ⟨rfl, rfl⟩
  · refine ⟨?_, rfl⟩
    show (Conn.exec env (s.conn.exec env [.createSchema schema]).2 [.use schema]).2.store = s.store
    rw [hexec _ _ fun _ _ => rfl, hexec _ _ fun _ _ => rfl]
    rfl

omit [DecidableEq V] in
lemma Sees.congr (hst : s'.store = s.store) (happ : s'.appenders = s.appenders) :
    Sees spec s' ↔ Sees spec s := by
  constructor
  · rintro ⟨hnil, htab⟩
    rw [NothingPending, happ, hst] at hnil
    rw [hst] at htab
    exact ⟨hnil, htab⟩
  · rintro ⟨hnil, htab⟩
    refine ⟨?_, ?_⟩
    · rw [NothingPending, happ, hst]
      exact hnil
    · rw [hst]
      exact htab

/-- After a successful flush everything is in the tables. -/
lemma Refines.sees_flush (h : Refines env s spec) (hflush : s.flushAppenders env = (false, s')) :
    Sees spec s' := by
  have hnil : s'.NothingPending := by
    refine Refines.nothingPending_of_items_nil ?_
    rw [(flushAppenders_ok hflush).1]
    rfl
  exact ⟨hnil, (h.flush_ok hflush).tables_eq hnil⟩

lemma Refines.sees_rndInit (h : Refines env s spec)
    (hq : (s.planRndInit env).submittedIn = some q) : Sees spec q := by
  unfold planRndInit at hq
  split at hq
  · cases hq
  · rename_i s₁ hflush
    cases hq
    exact h.sees_flush hflush

lemma Refines.sees_direct (h : Refines env s spec) {u : Bool}
    {f : Name → Tables V → Option (Tables V)}
    (hq : (s.planDirect env u f).submittedIn = some q) : Sees spec q := by
  unfold planDirect at hq
  split at hq
  · cases hq
  split at hq
  · cases hq
  rename_i s₁ hreg
  split at hq
  · cases hq
  · rename_i s₂ hflush
    cases hq
    obtain ⟨hst, happ⟩ := configDuckdbEnv_store env s₂ s₂.db
    rw [Sees.congr hst happ]
    exact (h.registers (duckdbRegisterTrx_ok hreg).1).sees_flush hflush

lemma Refines.sees_pushedSelect_iff (h : Refines env s spec) {u : Bool}
    (hq : (s.planPushedSelect env u).submittedIn = some q) :
    Sees spec q ↔ s.NothingPending := by
  unfold planPushedSelect at hq
  split at hq
  · cases hq
  · cases hq
    obtain ⟨hst, happ⟩ := configDuckdbEnv_store env s s.db
    rw [Sees.congr hst happ]
    exact ⟨fun hsees => hsees.nothingPending, fun hnil => ⟨hnil, h.tables_eq hnil⟩⟩

end Session

open Session in
/-- After a run of valid and calm row operations a read sees all of them, with no row held
back, exactly when it does not take the path of the pushed-down SELECT or nothing was
pending before it. -/
theorem read_sees_writes_iff (env : Env V) {s : Session V} (hclean : s.Clean)
    (hkeys : ∀ t, RowOp.UniqueKeys env t (s.store.tables t)) {ops : List (Op V)}
    (hops : StepRun.Along (Traced.step env) (Traced.Admissible env) (Traced.start s) ops)
    {read : Op V} {q : Session V} (hread : (s.run env ops).readIn env read = some q) :
    Sees (StepRun.run (Traced.step env) (Traced.start s) ops).spec q ↔
      ¬ IsPushed read ∨ (s.run env ops).NothingPending := by
  have href := (Traced.inv_run hclean hkeys hops).refines
  have hsession : (StepRun.run (Traced.step env) (Traced.start s) ops).session = s.run env ops :=
    Traced.session_run env (Traced.start s) ops
  rw [hsession] at href
  cases read with
  | rndInit t => simpa [IsPushed] using href.sees_rndInit hread
  | direct u f => simpa [IsPushed] using href.sees_direct hread
  | pushedSelect u => simpa [IsPushed] using href.sees_pushedSelect_iff hread
  | _ => cases hread

/-- A scan after an insert. -/
theorem read_sees_writes_of_scan :
    let env : Env ℕ := .reliable fun _ => .keyed 1
    let t : TableName := ⟨['a'], ['t']⟩
    let row (k v : ℕ) : Record ℕ := fun i => ⟨false, if i = 0 then k else v⟩
    let s : Session ℕ := .start (.ofTables fun _ => 0) true
    let ops : List (Op ℕ) := [.row (.write t (row 1 10))]
    ∃ q, (s.run env ops).readIn env (.rndInit t) = some q ∧
      Session.Sees (StepRun.run (Traced.step env) (Traced.start s) ops).spec q := by
  intro env t row s ops
  have hclean : s.Clean := Session.clean_start (fun _ => rfl) true
  have hkeys : ∀ t', RowOp.UniqueKeys env t' (s.store.tables t') := fun _ _ _ => Multiset.nodup_zero
  have hops : StepRun.Along (Traced.step env) (Traced.Admissible env) (Traced.start s) ops := by
    simp only [ops, StepRun.along_cons, StepRun.along_nil, and_true]
    refine ⟨?_, Session.calm_of_isNone ?_⟩
    all_goals decide +kernel
  have hsome : ((s.run env ops).readIn env (.rndInit t)).isSome := by decide +kernel
  obtain ⟨q, hq⟩ := Option.isSome_iff_exists.1 hsome
  exact ⟨q, hq, (read_sees_writes_iff env hclean hkeys hops hq).2 (Or.inl fun h => h)⟩

/-- A SELECT pushed down after an insert in the same transaction: the table it reads is
empty, and the row is still held back. -/
theorem pushed_select_misses_insert :
    let env : Env ℕ := .reliable fun _ => .keyed 1
    let t : TableName := ⟨['a'], ['t']⟩
    let row (k v : ℕ) : Record ℕ := fun i => ⟨false, if i = 0 then k else v⟩
    let s : Session ℕ := .start (.ofTables fun _ => 0) true
    let ops : List (Op ℕ) := [.row (.write t (row 1 10))]
    (((s.run env ops).readIn env (.pushedSelect false)).map fun q =>
        (q.store.tables t, q.appenders.items.map fun d => (d.pending q.store).length))
      = some (0, [1]) ∧
    (StepRun.run (Traced.step env) (Traced.start s) ops).spec t = {[some 1, some 10]} := by
  decide +kernel

end DuckdbEngine
