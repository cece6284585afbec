/-
Running statements on a connection.

`Conn.exec` runs a script, a list of statements, and stops at the first error, as
DuckDB does with a text of several statements and as the engine does with a
sequence of queries it checks one by one.  The return values follow the source: a
boolean that says whether there was an error.

What a script can do to a connection is said once, statement by statement
(`step_ok`, `step_err`).  Inside a transaction no script touches the committed
contents (`InTrx.exec`).
-/
import DuckdbEngine.Runtime.Duckdb

namespace DuckdbEngine

variable {V : Type}

/-- How an append of a row can fail: before anything was appended, or with the row
left incomplete. -/
inductive AppendFault where
  | none
  | clean
  | torn
deriving DecidableEq

/-- The outside world of a session: the tables the server has opened, the answers
of DuckDB and the settings of the server.  What can change over time is given by
the number of calls made on the connection so far. -/
structure Env (V : Type) where
  /-- The definitions of the opened tables. -/
  table : TableName → TableDef V
  /-- The statement fails. -/
  fails : ℕ → Bool
  /-- The append of a row fails. -/
  appendFault : ℕ → AppendFault
  /-- The appender flushes its rows by itself after a row has been appended. -/
  autoFlush : ℕ → Bool
  /-- A COMMIT that fails ends the transaction. -/
  commitEnds : ℕ → Bool
  /-- `update_auto_increment` fails. -/
  autoincFails : ℕ → Bool
  /-- The setting `dml_in_batch`. -/
  dmlInBatch : ℕ → Bool
  /-- The setting `update_modified_column_only`. -/
  updateModifiedColumnOnly : ℕ → Bool

/-- The world in which nothing fails and all settings have their defaults. -/
def Env.reliable (table : TableName → TableDef V) : Env V where
  table := table
  fails _ := false
  appendFault _ := .none
  autoFlush _ := false
  commitEnds _ := false
  autoincFails _ := false
  dmlInBatch _ := true
  updateModifiedColumnOnly _ := true

/-- The connection of a session. -/
structure Conn (V : Type) where
  /-- The committed contents. -/
  committed : Store V
  /-- The contents that the active transaction sees. -/
  active : Option (Store V)
  /-- The current schema. -/
  schema : Name
  /-- The number of calls so far. -/
  clock : ℕ

namespace Conn

/-- The contents that a statement works on. -/
def store (c : Conn V) : Store V := c.active.getD c.committed

def tick (c : Conn V) : Conn V := { c with clock := c.clock + 1 }

/-- Without a transaction a statement commits at once. -/
def setStore (c : Conn V) (st : Store V) : Conn V :=
  match c.active with
  | some _ => { c with active := some st }
  | none => { c with committed := st }

/-- The connection after a successful statement. -/
def after (c : Conn V) (q : Stmt V) (st : Store V) : Conn V :=
  { c.tick.setStore st with schema := q.schemaAfter c.schema }

@[simp] lemma store_tick (c : Conn V) : c.tick.store = c.store := rfl

@[simp] lemma schema_tick (c : Conn V) : c.tick.schema = c.schema := rfl

@[simp] lemma store_after (c : Conn V) (q : Stmt V) (st : Store V) : (c.after q st).store = st := by
  cases h : c.active <;> simp [after, setStore, tick, store, h]

@[simp] lemma schema_after (c : Conn V) (q : Stmt V) (st : Store V) :
    (c.after q st).schema = q.schemaAfter c.schema := rfl

/-- A transaction is active that started from the committed contents `b`. -/
structure InTrx (b : Store V) (c : Conn V) : Prop where
  committed_eq : c.committed = b
  active_isSome : c.active.isSome

lemma InTrx.tick {b : Store V} {c : Conn V} (h : InTrx b c) : InTrx b c.tick :=
  ⟨h.committed_eq, h.active_isSome⟩

lemma InTrx.after {b : Store V} {c : Conn V} (h : InTrx b c) (q : Stmt V) (st : Store V) :
    InTrx b (c.after q st) := by
  obtain ⟨s, hs⟩ := Option.isSome_iff_exists.1 h.active_isSome
  refine ⟨?_, ?_⟩ <;> simp [Conn.after, setStore, Conn.tick, hs, h.committed_eq]

/-! ### Statements and scripts -/

section Exec

variable [DecidableEq V] (env : Env V)

/-- Run one statement; the result says whether there was an error. -/
def step (c : Conn V) (q : Stmt V) : Bool × Conn V :=
  if q.mayFail && env.fails c.clock then (true, c.tick)
  else
    match q.eval c.schema c.store with
    | none => (true, c.tick)
    | some st => (false, c.after q st)

/-- Run a script up to the first error. -/
def exec (c : Conn V) : List (Stmt V) → Bool × Conn V
  | [] => (false, c)
  | q :: qs =>
      match c.step env q with
      | (true, c') => (true, c')
      | (false, c') => exec c' qs

variable {env}

lemma step_ok {c c' : Conn V} {q : Stmt V} (h : c.step env q = (false, c')) :
    ∃ st, q.eval c.schema c.store = some st ∧ c' = c.after q st := by
  unfold step at h
  split at h
  · simp at h
  · split at h
    · simp at h
    · rename_i st hst
      exact ⟨st, hst, (Prod.mk.inj h).2.symm⟩

lemma step_err {c c' : Conn V} {q : Stmt V} (h : c.step env q = (true, c')) : c' = c.tick := by
  unfold step at h
  split at h
  · exact (Prod.mk.inj h).2.symm
  · split at h
    · exact (Prod.mk.inj h).2.symm
    · simp at h

/-- What a statement can do: nothing, or its effect. -/
lemma step_cases (env : Env V) (c : Conn V) (q : Stmt V) :
    c.step env q = (true, c.tick) ∨
      ∃ st, q.eval c.schema c.store = some st ∧ c.step env q = (false, c.after q st) := by
  rcases h : c.step env q with ⟨e, c'⟩
  cases e with
  | true => exact Or.inl (by rw [step_err h])
  | false =>
      obtain ⟨st, hst, rfl⟩ := step_ok h
      exact Or.inr ⟨st, hst, rfl⟩

@[simp] lemma exec_nil (c : Conn V) : c.exec env [] = (false, c) := rfl

lemma exec_cons_ok {c c' : Conn V} {q : Stmt V} {qs : List (Stmt V)} :
    c.exec env (q :: qs) = (false, c') ↔
      ∃ st, q.eval c.schema c.store = some st ∧ c.step env q = (false, c.after q st) ∧
        (c.after q st).exec env qs = (false, c') := by
  rcases step_cases env c q with h | ⟨st, hst, h⟩
  · simp [exec, h]
  · simp [exec, h, hst]

/-- What each statement of a script keeps, the script keeps. -/
lemma exec_inv (env : Env V) {P : Conn V → Prop} {qs : List (Stmt V)}
    (hstep : ∀ q ∈ qs, ∀ c, P c → P (c.step env q).2) {c : Conn V} (hc : P c) :
    P (c.exec env qs).2 := by
  induction qs generalizing c with
  | nil => exact hc
  | cons q qs ih =>
      have hq := hstep q (by simp) c hc
      rcases h : c.step env q with ⟨e, c'⟩
      rw [h] at hq
      cases e with
      | true => simpa [exec, h] using hq
      | false =>
          simp only [exec, h]
          exact ih (fun q' hq' => hstep q' (by simp [hq'])) hq

lemma InTrx.step {b : Store V} {c : Conn V} (h : InTrx b c) (env : Env V) (q : Stmt V) :
    InTrx b (c.step env q).2 := by
  rcases step_cases env c q with hq | ⟨st, -, hq⟩
  · rw [hq]
    exact h.tick
  · rw [hq]
    exact h.after q st

/-- Inside a transaction no script touches the committed contents. -/
lemma InTrx.exec {b : Store V} {c : Conn V} (h : InTrx b c) (env : Env V) (qs : List (Stmt V)) :
    InTrx b (c.exec env qs).2 :=
  exec_inv env (fun q _ _ hc => hc.step env q) h

/-- A property of the contents that the effects of a script's statements keep is
kept by the script, whether or not it gets to its end. -/
lemma exec_store_inv (env : Env V) {P : Store V → Prop} {qs : List (Stmt V)}
    (heval : ∀ q ∈ qs, ∀ schema st st', P st → q.eval schema st = some st' → P st')
    {c : Conn V} (hc : P c.store) : P (c.exec env qs).2.store := by
  refine exec_inv env (P := fun c => P c.store) (fun q hq c hc => ?_) hc
  rcases step_cases env c q with h | ⟨st, hst, h⟩
  · rw [h]
    exact hc
  · rw [h]
    simpa using heval q hq _ _ _ hc hst

/-- The current schema after a script was named by one of its USE statements. -/
lemma schema_exec (env : Env V) {P : Name → Prop} {qs : List (Stmt V)}
    (huse : ∀ s, Stmt.use s ∈ qs → P s) {c : Conn V} (hc : P c.schema) :
    P (c.exec env qs).2.schema := by
  refine exec_inv env (P := fun c => P c.schema) (fun q hq c hc => ?_) hc
  rcases step_cases env c q with h | ⟨st, -, h⟩
  · rw [h]
    exact hc
  · rw [h]
    cases q with
    | use s => exact huse s hq
    | _ => exact hc

end Exec

/-! ### What a script leaves alone -/

/-- From `c` to `c'` only the rows of the table `t` and the buffer table `x` have
changed, and no transaction has started or ended. -/
structure Frame (t : TableName) (x : Option CatalogName) (c c' : Conn V) : Prop where
  inTrx : ∀ b, InTrx b c → InTrx b c'
  catalog_eq : c'.store.catalog = c.store.catalog
  tables_eq : ∀ t', t' ≠ t → c'.store.tables t' = c.store.tables t'
  temps_eq : ∀ y, x ≠ some y → c'.store.temps y = c.store.temps y

namespace Frame

variable {t : TableName} {x : Option CatalogName} {c c' c'' : Conn V}

lemma refl (c : Conn V) : Frame t x c c :=
  ⟨fun _ h => h, rfl, fun _ _ => rfl, fun _ _ => rfl⟩

lemma trans (h : Frame t x c c') (h' : Frame t x c' c'') : Frame t x c c'' where
  inTrx b hb := h'.inTrx b (h.inTrx b hb)
  catalog_eq := h'.catalog_eq.trans h.catalog_eq
  tables_eq t' ht := (h'.tables_eq t' ht).trans (h.tables_eq t' ht)
  temps_eq y hy := (h'.temps_eq y hy).trans (h.temps_eq y hy)

lemma tick (c : Conn V) : Frame t x c c.tick :=
  ⟨fun _ h => h.tick, rfl, fun _ _ => rfl, fun _ _ => rfl⟩

lemma tmpRows_eq (h : Frame t x c c') {y : CatalogName} (hy : x ≠ some y) :
    c'.store.tmpRows y = c.store.tmpRows y := by
  simp only [Store.tmpRows, h.temps_eq y hy]

end Frame

section FrameExec

variable [DecidableEq V] (env : Env V) {t : TableName} {x : Option CatalogName}

lemma Frame.step {q : Stmt V} (hq : q.Within t x) (c : Conn V) : Frame t x c (c.step env q).2 := by
  rcases step_cases env c q with h | ⟨st, hst, h⟩
  · rw [h]
    exact Frame.tick c
  · rw [h]
    obtain ⟨hcat, htab, htmp⟩ := q.eval_within hq hst
    refine ⟨fun b hb => hb.after q st, ?_, ?_, ?_⟩
    · simpa using hcat
    · simpa using htab
    · simpa using htmp

lemma Frame.exec {qs : List (Stmt V)} (hqs : ∀ q ∈ qs, q.Within t x) (c : Conn V) :
    Frame t x c (c.exec env qs).2 :=
  exec_inv env (P := Frame t x c) (fun q hq _ hc => hc.trans (Frame.step env (hqs q hq) _)) (Frame.refl c)

end FrameExec

/-! ### Transactions -/

section Transactions

variable (env : Env V)

/-- BEGIN, unless a transaction is active. -/
def beginTrx (c : Conn V) : Bool × Conn V :=
  match c.active with
  | some _ => (false, c)
  | none =>
      if env.fails c.clock then (true, c.tick)
      else (false, { c.tick with active := some c.committed })

/-- COMMIT, if a transaction is active. -/
def commitTrx (c : Conn V) : Bool × Conn V :=
  match c.active with
  | none => (false, c)
  | some st =>
      if env.fails c.clock then
        (true, { c.tick with active := if env.commitEnds c.clock then none else some st })
      else (false, { c.tick with committed := st, active := none })

/-- ROLLBACK, if a transaction is active. -/
def rollbackTrx (c : Conn V) : Conn V :=
  match c.active with
  | none => c
  | some _ => { c.tick with active := none }

variable {env}

lemma beginTrx_cases (env : Env V) (c : Conn V) :
    c.beginTrx env = (true, c.tick) ∨
      ∃ c', c.beginTrx env = (false, c') ∧ c'.active.isSome ∧ c'.committed = c.committed ∧
        c'.store = c.store ∧ c'.schema = c.schema := by
  cases h : c.active with
  | some st => exact Or.inr ⟨c, by simp [beginTrx, h]⟩
  | none =>
      cases hf : env.fails c.clock with
      | true => exact Or.inl (by simp [beginTrx, h, hf])
      | false =>
          refine Or.inr ⟨{ c.tick with active := some c.committed }, ?_⟩
          simp [beginTrx, h, hf, tick, store]

@[simp] lemma committed_rollbackTrx (c : Conn V) : c.rollbackTrx.committed = c.committed := by
  cases h : c.active <;> simp [rollbackTrx, h, tick]

@[simp] lemma active_rollbackTrx (c : Conn V) : c.rollbackTrx.active = none := by
  cases h : c.active <;> simp [rollbackTrx, h]

@[simp] lemma schema_rollbackTrx (c : Conn V) : c.rollbackTrx.schema = c.schema := by
  cases h : c.active <;> simp [rollbackTrx, h, tick]

lemma commitTrx_ok {c c' : Conn V} (h : c.commitTrx env = (false, c')) :
    c'.committed = c.store ∧ c'.active = none := by
  cases hc : c.active with
  | none =>
      simp only [commitTrx, hc, Prod.mk.injEq, true_and] at h
      subst h
      simp [store, hc]
  | some st =>
      simp only [commitTrx, hc] at h
      split at h
      · simp at h
      · simp only [Prod.mk.injEq, true_and] at h
        subst h
        simp [store, hc]

lemma commitTrx_err {c c' : Conn V} (h : c.commitTrx env = (true, c')) :
    c'.committed = c.committed := by
  cases hc : c.active with
  | none => simp [commitTrx, hc] at h
  | some st =>
      simp only [commitTrx, hc] at h
      split at h
      · simp only [Prod.mk.injEq, true_and] at h
        subst h
        rfl
      · simp at h

@[simp] lemma schema_commitTrx (env : Env V) (c : Conn V) : (c.commitTrx env).2.schema = c.schema := by
  cases hc : c.active with
  | none => simp [commitTrx, hc]
  | some st =>
      simp only [commitTrx, hc]
      split <;> rfl

end Transactions

end Conn

end DuckdbEngine
