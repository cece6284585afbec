/-
What the connection and the appenders do to the current schema.

Only USE changes the current schema, and among the operations of the appenders only the
flush of a mixed batch sends one.  Everything else leaves the schema as it was; a flush
leaves it within the schemas that the flushed appenders select (`flushSchema`).
-/
import DuckdbEngine.Handler.Statements

namespace DuckdbEngine

variable {V : Type} [DecidableEq V] (env : Env V) {P : Name → Prop}

/-! ### Statements that leave the current schema alone -/

namespace Conn

lemma schema_step_of_ne_use {q : Stmt V} (hq : ∀ s, q ≠ .use s) (c : Conn V) :
    (c.step env q).2.schema = c.schema := by
  rcases step_cases env c q with h | ⟨st, -, h⟩
  · rw [h]
    rfl
  · rw [h]
    cases q with
    | use s => exact absurd rfl (hq s)
    | _ => rfl

lemma schema_exec_of_no_use (qs : List (Stmt V)) (hqs : ∀ s, Stmt.use s ∉ qs) (c : Conn V) :
    (c.exec env qs).2.schema = c.schema :=
  schema_exec env (P := fun n => n = c.schema) (fun s hs => absurd hs (hqs s)) rfl

omit [DecidableEq V] in
lemma schema_beginTrx (c : Conn V) : (c.beginTrx env).2.schema = c.schema := by
  rcases beginTrx_cases env c with h | ⟨c', h, -, -, -, hs⟩
  · rw [h]
    rfl
  · rw [h]
    exact hs

end Conn

namespace Appender

lemma schema_flush (a : Appender V) (target : Target) (c : Conn V) :
    (a.flush env target c).2.2.schema = c.schema := by
  have hstep := Conn.schema_step_of_ne_use env
    (q := .append target a.buffer) (fun s => by simp) c
  unfold flush
  split
  · rfl
  split
  · rfl
  split <;> rename_i h <;> rw [h] at hstep <;> exact hstep

lemma schema_appendRow (a : Appender V) (target : Target) (row : BufRow V) (c : Conn V) :
    (a.appendRow env target row c).2.2.schema = c.schema := by
  unfold appendRow
  split
  · rfl
  split
  · rfl
  · rfl
  split
  · exact schema_flush env _ _ _
  · rfl

end Appender

namespace DeltaAppender

lemma schema_append (d : DeltaAppender V) (row : BufRow V) (c : Conn V) :
    (d.append env row c).2.2.schema = c.schema :=
  Appender.schema_appendRow env d.appender d.target row c

lemma schema_appendRowInsert (d : DeltaAppender V) (r : Record V) (n : ℕ) (c : Conn V) :
    (d.appendRowInsert env r n c).2.2.schema = c.schema :=
  schema_append env _ _ _

lemma schema_appendRowDelete (d : DeltaAppender V) (r : Record V) (n : ℕ) (o : Option (Record V))
    (c : Conn V) : (d.appendRowDelete env r n o c).2.2.schema = c.schema := by
  unfold appendRowDelete
  split
  · exact schema_append env _ _ _
  · rfl

lemma schema_appendRowUpdate (d : DeltaAppender V) (r : Record V) (n : ℕ) (o : Record V)
    (c : Conn V) : (d.appendRowUpdate env r n o c).2.2.schema = c.schema := by
  have hdel := schema_appendRowDelete env { d with hasUpdate := true } r n (some o) c
  unfold appendRowUpdate
  split <;> rename_i h <;> rw [h] at hdel
  · exact hdel
  · exact (schema_appendRowInsert env _ _ _ _).trans hdel

lemma schema_initializeFor (name : TableName) (useTmp : Bool) (c : Conn V) :
    (initializeFor env name useTmp c).2.schema = c.schema := by
  unfold initializeFor
  split
  · have hexec := fun x => Conn.schema_exec_of_no_use env
      (.createTemp x :: Stmt.addColumns x) (by simp) c
    dsimp only
    split <;> rename_i h
    · rw [← hexec, h]
    · split
      · rw [← hexec, h]
        rfl
      · split <;> rw [← hexec, h] <;> rfl
  · split <;> rfl

lemma schema_cleanup (useTmp : Bool) (x : CatalogName) (c : Conn V) :
    (cleanup env useTmp x c).schema = c.schema := by
  unfold cleanup
  split
  · exact Conn.schema_exec_of_no_use env _ (by simp) c
  · rfl

lemma schema_destroy (d : DeltaAppender V) (c : Conn V) : (d.destroy env c).schema = c.schema := by
  rw [destroy, Appender.destroy, Appender.schema_flush, schema_cleanup]

/-- The schema that the flush of the appender selects, if it selects one. -/
def flushSchema (d : DeltaAppender V) : List Name :=
  if d.useTmpTable && (d.hasDelete || d.hasInsert) then [d.name.dbName] else []

omit [DecidableEq V] in
lemma mem_flushSchema_of_use_mem {d : DeltaAppender V} {s : Name} (htmp : d.useTmpTable = true)
    (h : Stmt.use s ∈ d.flushScript false) : s ∈ d.flushSchema := by
  simp only [flushScript, generateQuery, Bool.or_false, List.append_assoc, List.mem_append] at h
  rcases h with h | h | h
  · split at h
    · rename_i hdel
      simp_all [flushSchema]
    · simp at h
  · split at h
    · rename_i hins
      simp_all [flushSchema]
    · simp at h
  · simp at h

lemma schema_flush (d : DeltaAppender V) {c : Conn V} (hd : ∀ n ∈ d.flushSchema, P n)
    (hc : P c.schema) : P (d.flush env false c).2.2.schema := by
  have happ := Appender.schema_flush env d.appender d.target c
  rw [← happ] at hc
  unfold flush
  split <;> rename_i h <;> rw [h] at hc
  · exact hc
  split
  · rename_i htmp
    exact Conn.schema_exec env (fun s hs => hd s (mem_flushSchema_of_use_mem htmp hs)) hc
  · exact hc

end DeltaAppender

namespace DeltaAppenders

lemma schema_destroyItems (ds : List (DeltaAppender V)) (c : Conn V) :
    (destroyItems env ds c).schema = c.schema := by
  induction ds generalizing c with
  | nil => rfl
  | cons d ds ih =>
      rw [destroyItems, List.foldl_cons, ← destroyItems, ih, DeltaAppender.schema_destroy]

lemma schema_flushItems {ds : List (DeltaAppender V)} {c : Conn V}
    (hds : ∀ n ∈ ds.flatMap DeltaAppender.flushSchema, P n) (hc : P c.schema) :
    P (flushItems env false ds c).2.2.schema := by
  induction ds generalizing c with
  | nil => exact hc
  | cons d ds ih =>
      have hd := DeltaAppender.schema_flush env d
        (fun n hn => hds n (by simp [hn])) hc
      rcases h : d.flush env false c with ⟨e, d', c'⟩
      rw [h] at hd
      cases e with
      | true => simpa [flushItems, h] using hd
      | false =>
          simp only [flushItems, h]
          exact ih (fun n hn => hds n (by rw [List.flatMap_cons]; simp [hn])) hd

lemma schema_flushAll {ds : DeltaAppenders V} {c : Conn V}
    (hds : ∀ n ∈ ds.items.flatMap DeltaAppender.flushSchema, P n) (hc : P c.schema) :
    P (ds.flushAll env false c).2.2.schema := by
  have h := schema_flushItems env hds hc
  unfold flushAll
  dsimp only
  split
  · exact h
  · rw [schema_destroyItems]
    exact h

lemma schema_discardAll (ds : DeltaAppenders V) (c : Conn V) :
    (ds.discardAll env c).schema = c.schema :=
  schema_destroyItems env _ _

lemma schema_getAppender (ds : DeltaAppenders V) (name : TableName) (insertOnly : Bool)
    (c : Conn V) : (ds.getAppender env name insertOnly c).2.2.schema = c.schema := by
  have hinit := DeltaAppender.schema_initializeFor env name (!insertOnly) c
  unfold getAppender
  split
  · rfl
  · split <;> rename_i h <;> rw [h] at hinit
    · rw [DeltaAppender.schema_cleanup]
      exact hinit
    · exact hinit

end DeltaAppenders

end DuckdbEngine
