/-
The names of the buffer tables.

The buffer table of a table is called by the schema, the text `_rds_buf_` and the table.
Both names are arbitrary, so the text between them can be found at more than one place of
the name: two tables have the same buffer table if the schema of one goes on where the
other one ends (`Overlaps`), or if their names differ in case only, as DuckDB ignores it.
Creating an appender for the one table then drops the buffer table of the other one.
-/
import Mathlib.Tactic.IntervalCases
import DuckdbEngine.Lib.StepRun
import DuckdbEngine.Proofs.Appenders

namespace DuckdbEngine

/-! ### Collisions -/

/-- Without regard to case, the schema of `q` is longer than that of `p`: it reaches into the table
of `p`, behind the text between the names or behind all of it but the last letter. -/
inductive Overlaps (p q : TableName) : Prop where
  | beyond (x : Name) (hdb : q.fold.dbName = p.fold.dbName ++ bufInfix ++ x)
      (htb : p.fold.tableName = x ++ bufInfix ++ q.fold.tableName)
  | within (hdb : q.fold.dbName = p.fold.dbName ++ bufInfix.dropLast)
      (htb : p.fold.tableName = bufInfix.tail ++ q.fold.tableName)

namespace TableName

/-- The buffer table, as DuckDB looks it up. -/
def bufName (p : TableName) : CatalogName := .of (bufTableName p.dbName p.tableName)

lemma eq_of_names {p q : TableName} (hdb : p.dbName = q.dbName)
    (htb : p.tableName = q.tableName) : p = q := by
  cases p
  cases q
  exact congr (congrArg mk hdb) htb

/-- There are no capitals in the text between the names. -/
lemma foldCase_bufTableName (p : TableName) :
    foldCase (bufTableName p.dbName p.tableName) = bufTableName p.fold.dbName p.fold.tableName := by
  have hlower : foldCase bufInfix = bufInfix := by decide
  simp only [bufTableName, foldCase, fold, List.map_append] at hlower ⊢
  rw [hlower]

lemma bufName_eq_bufName {p q : TableName} :
    p.bufName = q.bufName ↔
      bufTableName p.fold.dbName p.fold.tableName = bufTableName q.fold.dbName q.fold.tableName := by
  rw [bufName, bufName, CatalogName.of_eq_of_iff, foldCase_bufTableName, foldCase_bufTableName]

end TableName

lemma Overlaps.bufName_eq {p q : TableName} (h : Overlaps p q) : p.bufName = q.bufName := by
  rw [TableName.bufName_eq_bufName]
  cases h with
  | beyond x hdb htb => simp [bufTableName, hdb, htb]
  | within hdb htb => simp [bufTableName, hdb, htb, bufInfix]

/-- The text between the names begins in itself at its last letter only. -/
lemma bufInfix_shift {u a b : Name} (hu : u ≠ []) (h : bufInfix ++ a = u ++ (bufInfix ++ b)) :
    (∃ x, u = bufInfix ++ x ∧ a = x ++ (bufInfix ++ b)) ∨
      u = bufInfix.dropLast ∧ a = bufInfix.tail ++ b := by
  rcases List.append_eq_append_iff.1 h with ⟨x, hux, hax⟩ | ⟨v, huv, hvb⟩
  · exact Or.inl ⟨x, hux, hax⟩
  · have hlen : u.length ≤ 9 := by
      have h := congrArg List.length huv
      rw [List.length_append] at h
      exact Nat.le_of_add_right_le h.ge
    have htake : u = bufInfix.take u.length := by rw [huv, List.take_left]
    have hdrop : v = bufInfix.drop u.length := by rw [huv, List.drop_left]
    -- what is in front is a part of the text: the letters agree for two of its lengths only
    generalize u.length = k at hlen htake hdrop
    subst htake hdrop
    interval_cases k
    · exact absurd rfl hu
    all_goals simp [bufInfix] at hvb
    · exact Or.inr ⟨rfl, hvb.symm⟩
    · exact Or.inl ⟨[], rfl, hvb.symm⟩

/-- The buffer tables are the same for names that differ in case only and for those that
overlap. -/
lemma bufName_eq_iff (p q : TableName) :
    p.bufName = q.bufName ↔ p.fold = q.fold ∨ Overlaps p q ∨ Overlaps q p := by
  have hlonger {p q : TableName} {u : Name} (hdb : q.fold.dbName = p.fold.dbName ++ u)
      (htb : bufInfix ++ p.fold.tableName = u ++ (bufInfix ++ q.fold.tableName)) :
      p.fold = q.fold ∨ Overlaps p q := by
    by_cases hu : u = []
    · subst hu
      rw [List.append_nil] at hdb
      exact Or.inl (TableName.eq_of_names hdb.symm (List.append_cancel_left htb))
    · rcases bufInfix_shift hu htb with ⟨x, rfl, hx⟩ | ⟨rfl, hx⟩
      · refine Or.inr (.beyond x ?_ ?_)
        · rw [hdb, List.append_assoc]
        · rw [hx, List.append_assoc]
      · exact Or.inr (.within hdb hx)
  constructor
  · intro h
    rw [TableName.bufName_eq_bufName, bufTableName, bufTableName, List.append_assoc,
      List.append_assoc] at h
    rcases List.append_eq_append_iff.1 h with ⟨u, hdb, htb⟩ | ⟨u, hdb, htb⟩
    · exact (hlonger hdb htb).imp_right Or.inl
    · exact (hlonger hdb htb).imp Eq.symm Or.inr
  · rintro (h | h | h)
    · rw [TableName.bufName_eq_bufName, h]
    · exact h.bufName_eq
    · exact h.bufName_eq.symm

/-- Without `_rds_buf` in the names of the schemas, tables whose names differ in more than case have
different buffer tables. -/
theorem fold_eq_of_bufName_eq {p q : TableName} (hp : ¬bufInfix.dropLast <:+: p.fold.dbName)
    (hq : ¬bufInfix.dropLast <:+: q.fold.dbName) (h : p.bufName = q.bufName) :
    p.fold = q.fold := by
  have hcontains {p q : TableName} (h : Overlaps p q) :
      bufInfix.dropLast <:+: q.fold.dbName := by
    cases h with
    | beyond x hdb htb => exact ⟨p.fold.dbName, '_' :: x, by rw [hdb]; simp [bufInfix]⟩
    | within hdb htb => exact ⟨p.fold.dbName, [], by rw [hdb, List.append_nil]⟩
  rcases (bufName_eq_iff p q).1 h with h | h | h
  · exact h
  · exact absurd (hcontains h) hq
  · exact absurd (hcontains h) hp

/-! ### What an appender touches -/

section

variable {V : Type} [DecidableEq V] (env : Env V)

namespace DeltaAppender

variable (d : DeltaAppender V) {c : Conn V} {y : CatalogName}

omit [DecidableEq V] in
lemma buf_ne (hy : y ≠ d.name.bufName) : d.buf ≠ some y := fun h =>
  hy (buf_eq_some.1 h).2.symm

lemma temps_append (row : BufRow V) (hy : y ≠ d.name.bufName) :
    (d.append env row c).2.2.store.temps y = c.store.temps y := by
  obtain ⟨e, a, c', h, hwrote⟩ := append_cases env d row c
  rw [h]
  rcases hwrote with ⟨-, hwrote⟩ | ⟨-, rows, hwrote, -⟩
  · exact hwrote.frame.temps_eq y (d.buf_ne hy)
  · exact hwrote.frame.temps_eq y (d.buf_ne hy)

lemma temps_appendRowDelete (record0 : Record V) (trxNo : ℕ) (oldRow : Option (Record V))
    (hy : y ≠ d.name.bufName) :
    (d.appendRowDelete env record0 trxNo oldRow c).2.2.store.temps y = c.store.temps y := by
  rw [appendRowDelete]
  split
  · exact temps_append env _ _ hy
  · rfl

lemma temps_appendRowUpdate {record0 oldRow : Record V} {trxNo : ℕ} (hy : y ≠ d.name.bufName) :
    (d.appendRowUpdate env record0 trxNo oldRow c).2.2.store.temps y = c.store.temps y := by
  have hdelete := temps_appendRowDelete env { d with hasUpdate := true } (c := c) record0 trxNo
    (some oldRow) hy
  rw [appendRowUpdate]
  split
  · next d₁ c₁ h =>
      rw [h] at hdelete
      exact hdelete
  · next d₁ c₁ h =>
      have hname : d₁.name = d.name := (appendRowDelete_ok h).2.1.name_eq
      rw [h] at hdelete
      exact (temps_append env _ _ (show y ≠ d₁.name.bufName by rw [hname]; exact hy)).trans hdelete

lemma temps_flush (idem : Bool) (hy : y ≠ d.name.bufName) :
    (d.flush env idem c).2.2.store.temps y = c.store.temps y := by
  have hwrote := (wrote_flush env d c).frame.temps_eq y (d.buf_ne hy)
  rw [flush]
  rcases hin : d.appender.flush env d.target c with ⟨e, a, c₁⟩
  rw [hin] at hwrote
  cases e with
  | true => exact hwrote
  | false =>
      dsimp only
      split
      · next htmp =>
          have hframe := Conn.Frame.exec env (flushScript_within htmp idem) c₁
          exact (hframe.temps_eq y (d.buf_ne hy)).trans hwrote
      · exact hwrote

lemma temps_cleanup (useTmpTable : Bool) {x : CatalogName} (hy : y ≠ x) :
    (cleanup env useTmpTable x c).store.temps y = c.store.temps y := by
  rw [cleanup]
  split
  · have hframe := Conn.Frame.exec env (t := ⟨[], []⟩) (x := some x)
      (show ∀ q ∈ [.dropTempIfExists x], Stmt.Within _ _ q by simp [Stmt.Within]) c
    exact hframe.temps_eq y fun h => hy (Option.some.inj h).symm
  · rfl

lemma temps_destroy (hy : y ≠ d.name.bufName) :
    (d.destroy env c).store.temps y = c.store.temps y := by
  -- the buffer table is dropped before the appender inside writes out what it holds
  have hclean := temps_cleanup env (c := c) d.useTmpTable hy
  have hflush := (wrote_flush env d (cleanup env d.useTmpTable d.tmpTableName c)).frame
  exact (hflush.temps_eq y (d.buf_ne hy)).trans hclean

lemma temps_initializeFor (name : TableName) (useTmpTable : Bool) (hy : y ≠ name.bufName) :
    (initializeFor env name useTmpTable c).2.store.temps y = c.store.temps y := by
  rw [initializeFor]
  cases useTmpTable with
  | false =>
      dsimp only
      rw [if_neg Bool.false_ne_true]
      split <;> rfl
  | true =>
      dsimp only
      rw [if_pos rfl]
      generalize hx : tmpTableName
        (⟨true, name, [], 0, false, false, false, .cleared⟩ : DeltaAppender V) = x
      have hframe := Conn.Frame.exec env (t := name) (x := some x)
        (show ∀ q ∈ .createTemp x :: Stmt.addColumns x, Stmt.Within _ _ q by simp [Stmt.Within]) c
      have htemps := hframe.temps_eq y fun h => hy (hx.trans (Option.some.inj h)).symm
      rcases hex : c.exec env (.createTemp x :: Stmt.addColumns x) with ⟨e, c₁⟩
      rw [hex] at htemps
      cases e with
      | true => exact htemps
      | false =>
          dsimp only
          split
          · exact htemps
          · split <;> exact htemps

end DeltaAppender

lemma DeltaAppenders.temps_getAppender (ds : DeltaAppenders V) (name : TableName)
    (insertOnly : Bool) {c : Conn V} {y : CatalogName} (hy : y ≠ name.bufName) :
    (ds.getAppender env name insertOnly c).2.2.store.temps y = c.store.temps y := by
  have hinit := DeltaAppender.temps_initializeFor env (c := c) name (!insertOnly) hy
  rw [getAppender]
  split
  · rfl
  · rcases h : DeltaAppender.initializeFor env name (!insertOnly) c with ⟨_ | d, c'⟩
    all_goals rw [h] at hinit
    · exact (DeltaAppender.temps_cleanup env (!insertOnly) hy).trans hinit
    · exact hinit

/-! ### Calls on several appenders -/

/-- The calls that reach DuckDB, on appenders and on the map of them. -/
inductive AppenderCall (V : Type) where
  | getAppender (ds : DeltaAppenders V) (name : TableName) (insertOnly : Bool)
  | deleteAppender (ds : DeltaAppenders V) (name : TableName)
  | appendRowInsert (d : DeltaAppender V) (record0 : Record V) (trxNo : ℕ)
  | appendRowDelete (d : DeltaAppender V) (record0 : Record V) (trxNo : ℕ)
      (oldRow : Option (Record V))
  | appendRowUpdate (d : DeltaAppender V) (record0 : Record V) (trxNo : ℕ) (oldRow : Record V)
  | flush (d : DeltaAppender V) (idempotentFlag : Bool)
  | destroy (d : DeltaAppender V)

namespace AppenderCall

def name : AppenderCall V → TableName
  | getAppender _ name _ => name
  | deleteAppender _ name => name
  | appendRowInsert d _ _ => d.name
  | appendRowDelete d _ _ _ => d.name
  | appendRowUpdate d _ _ _ => d.name
  | flush d _ => d.name
  | destroy d => d.name

def call (c : Conn V) : AppenderCall V → Conn V
  | getAppender ds name insertOnly => (ds.getAppender env name insertOnly c).2.2
  | deleteAppender ds name => (ds.deleteAppender env name c).2
  | appendRowInsert d record0 trxNo => (d.appendRowInsert env record0 trxNo c).2.2
  | appendRowDelete d record0 trxNo oldRow => (d.appendRowDelete env record0 trxNo oldRow c).2.2
  | appendRowUpdate d record0 trxNo oldRow => (d.appendRowUpdate env record0 trxNo oldRow c).2.2
  | flush d idempotentFlag => (d.flush env idempotentFlag c).2.2
  | destroy d => d.destroy env c

/-- A call for a table leaves all buffer tables of other names alone. -/
lemma temps_call (a : AppenderCall V) {c : Conn V} {y : CatalogName} (hy : y ≠ a.name.bufName) :
    (call env c a).store.temps y = c.store.temps y := by
  cases a with
  | getAppender ds name insertOnly => exact ds.temps_getAppender env name insertOnly hy
  | deleteAppender ds name =>
      rw [call, DeltaAppenders.deleteAppender]
      split
      · rfl
      · next d hfind =>
          have hname : d.name = name := (KeyedList.find_eq_some.1 hfind).2
          exact d.discard.temps_destroy env (show y ≠ d.name.bufName by rw [hname]; exact hy)
  | appendRowInsert d record0 trxNo => exact DeltaAppender.temps_append env _ _ hy
  | appendRowDelete d record0 trxNo oldRow =>
      exact d.temps_appendRowDelete env record0 trxNo oldRow hy
  | appendRowUpdate d record0 trxNo oldRow => exact d.temps_appendRowUpdate env hy
  | flush d idempotentFlag => exact d.temps_flush env idempotentFlag hy
  | destroy d => exact d.temps_destroy env hy

end AppenderCall

/-- Two tables have the same buffer table if and only if their names differ in case only or overlap.
As long as the tables of all calls have other names than `p` and do not overlap with it, the buffer
table of `p` is left alone. -/
theorem buffer_tables_apart :
    (∀ p q : TableName, p.bufName = q.bufName ↔ p.fold = q.fold ∨ Overlaps p q ∨ Overlaps q p) ∧
    ∀ (p : TableName) (calls : List (AppenderCall V)),
      (∀ a ∈ calls, a.name.fold ≠ p.fold ∧ ¬Overlaps a.name p ∧ ¬Overlaps p a.name) →
      ∀ c, (StepRun.run (AppenderCall.call env) c calls).store.temps p.bufName =
        c.store.temps p.bufName := by
  refine ⟨bufName_eq_iff, fun p calls hcalls c => ?_⟩
  refine StepRun.run_inv (I := fun c' => c'.store.temps p.bufName = c.store.temps p.bufName)
    (fun c' a hc' ha => ?_) rfl (StepRun.along_of_forall _ hcalls c)
  obtain ⟨hne, hleft, hright⟩ := ha
  refine (a.temps_call env fun h => ?_).trans hc'
  rcases (bufName_eq_iff p a.name).1 h with h | h | h
  · exact hne h.symm
  · exact hright h
  · exact hleft h

end

/-- The tables `t` of the schema `a` and `T_rds_buf_u` of the schema `A_RDS_b`: the appender of the
second one is requested, gets a row and is flushed, and the buffer table of the first one, which is
there, stays as it is. -/
theorem buffer_tables_apart_of_two_schemas :
    let env : Env ℕ := .reliable fun _ => .keyed 1
    let t : TableName := ⟨['a'], ['t']⟩
    let u : TableName := ⟨"A_RDS_b".toList, 'T' :: bufInfix ++ ['u']⟩
    let row : Record ℕ := fun i => ⟨false, if i = 0 then 1 else 10⟩
    let created := DeltaAppenders.getAppender env .empty t false ⟨.ofTables fun _ => 0, none, [], 0⟩
    let second := created.2.1.getAppender env u false created.2.2
    let calls := .getAppender created.2.1 u false ::
      second.1.elim [] fun d => [.appendRowInsert d row 1, .flush d true]
    calls.length = 3 ∧ (created.2.2.store.temps t.bufName).isSome ∧
      (StepRun.run (AppenderCall.call env) created.2.2 calls).store.temps t.bufName =
        created.2.2.store.temps t.bufName := by
  intro env t u row created second calls
  have happart : u.fold ≠ t.fold ∧ ¬Overlaps u t ∧ ¬Overlaps t u := by
    refine ⟨by decide, ?_, ?_⟩
    all_goals
      rintro (⟨x, hdb, htb⟩ | ⟨hdb, htb⟩)
      · have hlen := congrArg List.length hdb
        have hlen' := congrArg List.length htb
        simp [t, u, TableName.fold, foldCase, bufInfix] at hlen hlen'
      · exact absurd hdb (by decide)
  have hnames : ∀ a ∈ calls, a.name = u := by decide +kernel
  refine ⟨by decide +kernel, by decide +kernel, (buffer_tables_apart env).2 t _ ?_ created.2.2⟩
  intro a ha
  rw [hnames a ha]
  exact happart

/-- The tables `b_rds_buf_c` of the schema `a` and `c` of the schema `a_rds_buf_b`.  A row of the
first one is in its buffer table when the appender of the second one is requested: the request
fails, and the buffer table is gone. -/
theorem buffer_table_dropped_for_other_table :
    let env : Env ℕ := { Env.reliable fun _ => .keyed 1 with autoFlush := fun _ => true }
    let p : TableName := ⟨['a'], 'b' :: bufInfix ++ ['c']⟩
    let q : TableName := ⟨'a' :: bufInfix ++ ['b'], ['c']⟩
    let row : Record ℕ := fun i => ⟨false, if i = 0 then 1 else 10⟩
    let first := DeltaAppenders.getAppender env .empty p false ⟨.ofTables fun _ => 0, none, [], 0⟩
    let buffered := first.1.elim first.2.2 fun d => (d.appendRowInsert env row 1 first.2.2).2.2
    let second := first.2.1.getAppender env q false buffered
    p ≠ q ∧ p.bufName = q.bufName ∧
      (buffered.store.tmpRows p.bufName).map BufRow.cols = [[some 1, some 10]] ∧
      second.1.isNone ∧ (second.2.2.store.temps p.bufName).isNone := by
  decide +kernel

end DuckdbEngine
