/-
The sequences behind AUTO_INCREMENT columns.

The name of the sequence of a table is derived from the name of the table, in three
places: CREATE TABLE makes the sequence and the column default that draws from it, DROP
TABLE removes it, and the query of `reserve_autoinc_block` draws ids from it.  RENAME
TABLE changes the name of the table and leaves the sequence and the default as they are.
A run of DDL operations keeps names, defaults and sequences aligned exactly when it
renames no table that has an AUTO_INCREMENT column (`sequences_aligned_iff`).
-/
import DuckdbEngine.Proofs.Transaction
import DuckdbEngine.Handler.Statements

namespace DuckdbEngine

/-! ### The catalog -/

namespace Catalog

variable {cat cat' : Catalog} {t old new : TableName}

/-- The sequence that the query of `reserve_autoinc_block` for the table `t` finds. -/
def reserveSequence (cat : Catalog) (t : TableName) : Option TableName :=
  if t.autoincSequence.fold ∈ cat.sequences then some t.autoincSequence.fold else none

/-- Every table with an AUTO_INCREMENT column draws its ids from the sequence that is named
after it, which exists and which no other table draws from. -/
structure Aligned (cat : Catalog) : Prop where
  own : ∀ t e, cat.tables.find t.fold = some e → e.sequence.isSome →
    e.sequence = some t.autoincSequence.fold ∧ cat.reserveSequence t = e.sequence
  unshared : ∀ e ∈ cat.tables.items, ∀ e' ∈ cat.tables.items, e.sequence.isSome →
    e'.sequence = e.sequence → e' = e

/-- The entries name their own sequences.  Since the name of a sequence determines the
table, this is all there is to keep. -/
def OwnNamed (cat : Catalog) : Prop :=
  ∀ e ∈ cat.tables.items, ∀ q, e.sequence = some q →
    q = e.name.autoincSequence ∧ q ∈ cat.sequences

lemma OwnNamed.aligned (h : cat.OwnNamed) : cat.Aligned where
  own t e hfind hseq := by
    obtain ⟨hmem, hname⟩ := KeyedList.find_eq_some.1 hfind
    obtain ⟨q, hq⟩ := Option.isSome_iff_exists.1 hseq
    obtain ⟨rfl, hexists⟩ := h e hmem q hq
    rw [hname, ← TableName.fold_autoincSequence] at hq hexists
    exact ⟨hq, by rw [reserveSequence, if_pos hexists, hq]⟩
  unshared e he e' he' hseq heq := by
    obtain ⟨q, hq⟩ := Option.isSome_iff_exists.1 hseq
    have hname := (h e he q hq).1
    have hname' := (h e' he' q (heq.trans hq)).1
    exact cat.tables.eq_of_key_eq he' he
      (TableName.autoincSequence_injective (hname'.symm.trans hname))

lemma ownNamed_empty : OwnNamed empty := by simp [OwnNamed, empty]

lemma OwnNamed.createSequence (h : cat.OwnNamed) (s : TableName) :
    (cat.createSequence s).OwnNamed := by
  unfold Catalog.createSequence
  split
  · exact h
  · intro e he q hq
    obtain ⟨hname, hmem⟩ := h e he q hq
    exact ⟨hname, List.mem_cons_of_mem _ hmem⟩

/-- CREATE TABLE, with no sequence or with the table's own. -/
lemma OwnNamed.createTable (h : cat.OwnNamed) {sequence : Option TableName}
    (hseq : ∀ s ∈ sequence, s = t.autoincSequence)
    (hok : cat.createTable t sequence = some cat') : cat'.OwnNamed := by
  unfold Catalog.createTable at hok
  split at hok
  · cases hok
    exact h
  · split at hok
    · rename_i hexists
      cases hok
      intro e he q hq
      rcases (KeyedList.mem_put _).1 he with rfl | ⟨he, -⟩
      · obtain ⟨s, hs, rfl⟩ := Option.map_eq_some_iff.1 hq
        cases hseq s hs
        exact ⟨TableName.fold_autoincSequence t, hexists _ hs⟩
      · exact h e he q hq
    · cases hok

lemma OwnNamed.dropTable (h : cat.OwnNamed) (t : TableName) : (cat.dropTable t).OwnNamed :=
  fun e he => h e (List.mem_filter.1 he).1

/-- A sequence is dropped only when no table draws from it. -/
lemma OwnNamed.dropSequence (h : cat.OwnNamed) {s : TableName}
    (hok : cat.dropSequence s = some cat') : cat'.OwnNamed := by
  unfold Catalog.dropSequence at hok
  split at hok
  · cases hok
  · rename_i hunused
    cases hok
    intro e he q hq
    obtain ⟨hname, hmem⟩ := h e he q hq
    refine ⟨hname, List.mem_filter.2 ⟨hmem, ?_⟩⟩
    have hne : q ≠ s.fold := fun heq => hunused ⟨e, he, heq ▸ hq⟩
    simpa using hne

lemma not_mem_of_dropSequence {s : TableName} (hok : cat.dropSequence s = some cat') :
    s.fold ∉ cat'.sequences := by
  unfold Catalog.dropSequence at hok
  split at hok
  · cases hok
  · cases hok
    simp

/-- The catalog keeps the entry of the renamed table, under the new name. -/
lemma renameTable_ok (hok : cat.renameTable old new = some cat') :
    new.fold ≠ old.fold ∧ cat'.sequences = cat.sequences ∧
      ∃ e, cat.tables.find old.fold = some e ∧
        cat'.tables.find new.fold = some { e with name := new.fold } ∧
        ∀ e' ∈ cat'.tables.items, e' = { e with name := new.fold } ∨ e' ∈ cat.tables.items := by
  unfold Catalog.renameTable at hok
  split at hok
  · cases hok
  · rename_i e hfind
    split at hok
    · cases hok
    · rename_i hnew
      cases hok
      refine ⟨fun heq => hnew ?_, rfl, e, hfind, KeyedList.find_put_self _ _ _, fun e' he' => ?_⟩
      · rw [heq, hfind]
        rfl
      · rcases (KeyedList.mem_put _).1 he' with rfl | ⟨he', -⟩
        · exact .inl rfl
        · exact .inr (List.mem_filter.1 he').1

/-- The table has no AUTO_INCREMENT column. -/
def Plain (cat : Catalog) (t : TableName) : Prop :=
  (cat.tables.find t.fold).bind TableEntry.sequence = none

lemma OwnNamed.renameTable (h : cat.OwnNamed) (hplain : cat.Plain old)
    (hok : cat.renameTable old new = some cat') : cat'.OwnNamed := by
  obtain ⟨-, hseqs, e, hfind, -, hitems⟩ := renameTable_ok hok
  intro e' he' q hq
  rcases hitems e' he' with rfl | he'
  · rw [Plain, hfind, Option.bind_some, show e.sequence = some q from hq] at hplain
    cases hplain
  · rw [hseqs]
    exact h e' he' q hq

/-- After the rename of a table with an AUTO_INCREMENT column its sequence has the wrong
name. -/
lemma OwnNamed.plain_of_aligned (h : cat.OwnNamed) (hok : cat.renameTable old new = some cat')
    (h' : cat'.Aligned) : cat.Plain old := by
  obtain ⟨hne, -, e, hfind, hfind', -⟩ := renameTable_ok hok
  rw [Plain, hfind, Option.bind_some]
  by_contra hsome
  have hisSome : e.sequence.isSome := Option.isSome_iff_ne_none.2 hsome
  obtain ⟨hold, -⟩ := h.aligned.own old e hfind hisSome
  obtain ⟨hnew, -⟩ := h'.own new _ hfind' hisSome
  have hnames : new.autoincSequence.fold = old.autoincSequence.fold :=
    Option.some.inj (hnew.symm.trans hold)
  rw [TableName.fold_autoincSequence, TableName.fold_autoincSequence] at hnames
  exact hne (TableName.autoincSequence_injective hnames)

/-! ### The DDL operations -/

variable {V : Type}

/-- What a DDL operation does to the catalog. -/
def ddl (cat : Catalog) : Op V → Option Catalog
  | .create t autoIncrement _ =>
      (if autoIncrement then cat.createSequence t.autoincSequence else cat).createTable t
        (if autoIncrement then some t.autoincSequence else none)
  | .deleteTable t => (cat.dropTable t).dropSequence t.autoincSequence
  | .renameTable old new => cat.renameTable old new
  | _ => some cat

/-- A table that is renamed has no AUTO_INCREMENT column. -/
def RenamesPlain (cat : Catalog) : Op V → Prop
  | .renameTable old _ => cat.Plain old
  | _ => True

/-- After DROP TABLE neither the sequence named after the table remains nor the one that
its column default named. -/
def DropsSequence (cat cat' : Catalog) : Op V → Prop
  | .deleteTable t => t.autoincSequence.fold ∉ cat'.sequences ∧
      ∀ e, cat.tables.find t.fold = some e → ∀ q ∈ e.sequence, q ∉ cat'.sequences
  | _ => True

lemma OwnNamed.ddl (h : cat.OwnNamed) {op : Op V} (hop : cat.RenamesPlain op)
    (hok : cat.ddl op = some cat') : cat'.OwnNamed := by
  cases op with
  | create t autoIncrement rejected =>
      cases autoIncrement with
      | true => exact (h.createSequence _).createTable (by simp) hok
      | false => exact h.createTable (by simp) hok
  | deleteTable t => exact (h.dropTable t).dropSequence hok
  | renameTable old new => exact h.renameTable hop hok
  | _ =>
      cases hok
      exact h

lemma OwnNamed.dropsSequence (h : cat.OwnNamed) {op : Op V} (hok : cat.ddl op = some cat') :
    cat.DropsSequence cat' op := by
  cases op with
  | deleteTable t =>
      have hgone : t.autoincSequence.fold ∉ cat'.sequences := not_mem_of_dropSequence hok
      refine ⟨hgone, fun e hfind q hq => ?_⟩
      obtain ⟨hname, -⟩ := h.aligned.own t e hfind (Option.isSome_of_mem hq)
      obtain rfl : t.autoincSequence.fold = q := Option.some.inj (hname.symm.trans hq)
      exact hgone
  | _ => trivial

/-- A DDL operation keeps an aligned catalog aligned, and drops the sequence of a dropped
table, exactly when it renames no table with an AUTO_INCREMENT column. -/
lemma OwnNamed.ddl_aligned_iff (h : cat.OwnNamed) {op : Op V} (hok : cat.ddl op = some cat') :
    cat'.Aligned ∧ cat.DropsSequence cat' op ↔ cat.RenamesPlain op := by
  constructor
  · rintro ⟨haligned, -⟩
    cases op with
    | renameTable old new => exact h.plain_of_aligned hok haligned
    | _ => trivial
  · intro hop
    exact ⟨(h.ddl hop hok).aligned, h.dropsSequence hok⟩

end Catalog

/-- CREATE, DROP and RENAME TABLE, and the COMMIT that ends them. -/
def Op.IsDdl {V : Type} : Op V → Prop
  | .create _ _ _ | .deleteTable _ | .renameTable _ _ | .commit _ => True
  | _ => False

namespace Session

variable {V : Type} [DecidableEq V] {env : Env V} {s s' : Session V}

/-- A script that succeeds ran on the contents that the session had. -/
lemma runScript_ok {script : List (Stmt V)} {err : HaError}
    (h : s.runScript env script err = (none, s')) :
    ∃ c : Conn V, c.store = s.store ∧ c.exec env script = (false, s'.conn) := by
  unfold runScript at h
  rcases hreg : s.duckdbRegisterTrx env with ⟨_ | _, s₁⟩ <;> rw [hreg] at h
  · refine ⟨s₁.conn, (duckdbRegisterTrx_ok hreg).1.store_eq, ?_⟩
    dsimp only at h
    rcases hex : s₁.conn.exec env script with ⟨_ | _, c⟩ <;> rw [hex] at h <;> cases h
    rfl
  · cases h

lemma flushAppenders_catalog {s s' : Session V} (h : s.flushAppenders env = (false, s')) :
    s'.store.catalog = s.store.catalog := by
  obtain ⟨-, c, hall, hdrops⟩ := flushAppenders_ok h
  exact hdrops.catalog_eq.trans hall.catalog_eq

lemma exec_createTable {c c' : Conn V} {t : TableName} {sequence : Option TableName}
    (hschema : c.schema = t.dbName)
    (h : c.exec env [.createTable t.tableName sequence] = (false, c')) :
    c.store.catalog.createTable t sequence = some c'.store.catalog := by
  obtain ⟨st, hst, rfl⟩ := Conn.exec_singleton_ok h
  simp only [Stmt.eval, hschema, Option.map_eq_some_iff] at hst
  obtain ⟨cat, hcat, hst⟩ := hst
  rw [← hst]
  exact hcat

lemma create_catalog {t : TableName} {autoIncrement rejected : Bool}
    (h : s.create env t autoIncrement rejected = (none, s')) :
    s.store.catalog.ddl (.create t autoIncrement rejected : Op V) = some s'.store.catalog := by
  unfold create at h
  cases rejected with
  | true =>
      rw [if_pos rfl] at h
      rcases hreg : s.duckdbRegisterTrx env with ⟨_ | _, s₁⟩ <;> rw [hreg] at h <;> cases h
  | false =>
      obtain ⟨c, hstore, hex⟩ := runScript_ok h
      rw [← hstore]
      obtain ⟨c₁, huse, hex⟩ := Conn.exec_append_ok.1
        (show c.exec env ([.createSchema t.dbName, .use t.dbName]
          ++ ((if autoIncrement then [.createSequence t.autoincSequence] else [])
          ++ [.createTable t.tableName (if autoIncrement then some t.autoincSequence else none)]))
          = (false, s'.conn) by rw [← List.append_assoc]; exact hex)
      obtain ⟨st, hst, -, huse⟩ := Conn.exec_cons_ok.1 huse
      cases hst
      obtain ⟨st, hst, -, huse⟩ := Conn.exec_cons_ok.1 huse
      cases hst
      cases huse
      cases autoIncrement with
      | false =>
          have hcreate := exec_createTable rfl hex
          simpa [Catalog.ddl, store] using hcreate
      | true =>
          obtain ⟨st, hst, -, hex⟩ := Conn.exec_cons_ok.1 hex
          cases hst
          have hcreate := exec_createTable rfl hex
          simpa [Catalog.ddl, store] using hcreate

lemma deleteTable_catalog {t : TableName} (h : s.deleteTable env t = (none, s')) :
    s.store.catalog.ddl (.deleteTable t : Op V) = some s'.store.catalog := by
  obtain ⟨c, hstore, hex⟩ := runScript_ok h
  rw [← hstore]
  obtain ⟨st, hst, -, hex⟩ := Conn.exec_cons_ok.1 hex
  cases hst
  obtain ⟨st, hst, hs'⟩ := Conn.exec_singleton_ok hex
  rw [Conn.store_after] at hst
  simp only [Stmt.eval, Option.map_eq_some_iff] at hst
  obtain ⟨cat, hcat, hst⟩ := hst
  show (c.store.catalog.dropTable t).dropSequence t.autoincSequence
    = some s'.conn.store.catalog
  rw [hs', ← hst]
  exact hcat

lemma renameTable_catalog {old new : TableName} (h : s.renameTable env old new = (none, s')) :
    s.store.catalog.ddl (.renameTable old new : Op V) = some s'.store.catalog := by
  unfold renameTable at h
  rcases hreg : s.duckdbRegisterTrx env with ⟨_ | _, s₁⟩ <;> rw [hreg] at h
  · dsimp only at h
    split at h
    · cases h
    · rename_i hdb
      rcases hflush : s₁.flushAppenders env with ⟨_ | _, s₂⟩ <;> rw [hflush] at h
      · dsimp only at h
        have hcat : s₂.conn.store.catalog = s.store.catalog := by
          rw [← (duckdbRegisterTrx_ok hreg).1.store_eq]
          exact flushAppenders_catalog hflush
        rcases hex : s₂.conn.exec env [.use old.dbName, .renameTable old.tableName new.tableName]
          with ⟨_ | _, c⟩ <;> rw [hex] at h <;> cases h
        obtain ⟨st, hst, -, hex⟩ := Conn.exec_cons_ok.1 hex
        cases hst
        obtain ⟨st, hst, rfl⟩ := Conn.exec_singleton_ok hex
        rw [Conn.store_after] at hst
        simp only [Stmt.eval, Option.map_eq_some_iff] at hst
        obtain ⟨cat, hren, hst⟩ := hst
        have hnew : (⟨old.dbName, new.tableName⟩ : TableName) = new := by
          rw [← not_ne_iff.1 hdb]
        show s.store.catalog.renameTable old new = some c.store.catalog
        rw [← hcat, ← hst, ← hnew]
        exact hren
      · cases h
  · cases h

lemma commit_catalog {commitTrx : Bool} (h : s.duckdbCommit env commitTrx = (false, s')) :
    s'.store.catalog = s.store.catalog := by
  unfold duckdbCommit at h
  split at h
  · rcases hflush : s.flushAppenders env with ⟨_ | _, s₁⟩ <;> rw [hflush] at h
    · rw [← flushAppenders_catalog hflush]
      dsimp only [duckdbTransCommit] at h
      rcases hc : s₁.conn.commitTrx env with ⟨_ | _, c⟩ <;> rw [hc] at h <;> cases h
      obtain ⟨hcom, hact⟩ := Conn.commitTrx_ok hc
      show c.store.catalog = _
      rw [Conn.store, hact, Option.getD_none, hcom]
      rfl
    · cases h
  · cases h
    rfl

/-- A DDL operation that succeeds has had its effect on the catalog. -/
lemma call_catalog {op : Op V} (hop : op.IsDdl) (h : (s.call env op).1 = none) :
    s.store.catalog.ddl op = some (s.step env op).store.catalog := by
  have hcall : s.call env op = (none, s.step env op) := Prod.ext h rfl
  cases op with
  | create t autoIncrement rejected => exact create_catalog hcall
  | deleteTable t => exact deleteTable_catalog hcall
  | renameTable old new => exact renameTable_catalog hcall
  | commit commitTrx =>
      have hok : s.duckdbCommit env commitTrx = (false, s.step env (.commit commitTrx)) := by
        rcases hr : s.duckdbCommit env commitTrx with ⟨_ | _, s₁⟩
        · simp [step, call, callbackResult, hr]
        · simp [call, callbackResult, hr] at h
      show some _ = _
      rw [commit_catalog hok]
  | _ => exact hop.elim

/-! ### Runs -/

/-- The call is a DDL operation and succeeds. -/
def DdlSucceeds (env : Env V) (s : Session V) (op : Op V) : Prop :=
  op.IsDdl ∧ (s.call env op).1 = none

/-- After the call every table with an AUTO_INCREMENT column has its own sequence, and a
table that the call has dropped has left none. -/
def SequencesAligned (env : Env V) (s : Session V) (op : Op V) : Prop :=
  (s.step env op).store.catalog.Aligned ∧
    s.store.catalog.DropsSequence (s.step env op).store.catalog op

/-- Successful DDL operations on a new database keep tables and sequences aligned exactly
when none of them renames a table that has an AUTO_INCREMENT column. -/
theorem sequences_aligned_iff (env : Env V) {b : Store V} (hb : b.catalog = .empty)
    (explicitTrx : Bool) {ops : List (Op V)}
    (hops : StepRun.Along (step env) (DdlSucceeds env) (start b explicitTrx) ops) :
    StepRun.Along (step env) (SequencesAligned env) (start b explicitTrx) ops ↔
      StepRun.Along (step env) (fun s op => s.store.catalog.RenamesPlain op)
        (start b explicitTrx) ops := by
  refine StepRun.along_iff_of_inv (I := fun s => s.store.catalog.OwnNamed) ?_ ?_ ?_ hops
  · intro s op hs hop hplain
    exact hs.ddl hplain (call_catalog hop.1 hop.2)
  · intro s op hs hop
    exact hs.ddl_aligned_iff (call_catalog hop.1 hop.2)
  · show b.catalog.OwnNamed
    rw [hb]
    exact Catalog.ownNamed_empty

/-- A table with an AUTO_INCREMENT column and one without are created; the second is
renamed and the first is dropped. -/
theorem sequences_aligned_of_plain_rename :
    let env : Env ℕ := .reliable fun _ => .keyed 1
    let s : Session ℕ := .start (.ofTables fun _ => 0) false
    let ops : List (Op ℕ) :=
      [.create ⟨['a'], ['t']⟩ true false, .create ⟨['a'], ['u']⟩ false false, .commit true,
        .renameTable ⟨['a'], ['u']⟩ ⟨['a'], ['v']⟩, .deleteTable ⟨['a'], ['t']⟩]
    StepRun.Along (step env) (DdlSucceeds env) s ops ∧
      StepRun.Along (step env) (SequencesAligned env) s ops := by
  intro env s ops
  have hops : StepRun.Along (step env) (DdlSucceeds env) s ops := by
    simp only [ops, StepRun.along_cons, StepRun.along_nil, and_true]
    refine ⟨⟨trivial, ?_⟩, ⟨trivial, ?_⟩, ⟨trivial, ?_⟩, ⟨trivial, ?_⟩, trivial, ?_⟩
    all_goals decide +kernel
  have hplain : StepRun.Along (step env) (fun s op => s.store.catalog.RenamesPlain op) s ops := by
    refine ⟨trivial, trivial, trivial, ?_, trivial, trivial⟩
    show Option.bind _ _ = none
    decide +kernel
  exact ⟨hops, (sequences_aligned_iff env rfl false hops).2 hplain⟩

/-- A table with an AUTO_INCREMENT column is renamed: there is no sequence of its new name.
When it is dropped its sequence stays. -/
theorem rename_leaves_sequence :
    let env : Env ℕ := .reliable fun _ => .keyed 1
    let s : Session ℕ := .start (.ofTables fun _ => 0) false
    let ops : List (Op ℕ) :=
      [.create ⟨['a'], ['t']⟩ true false, .renameTable ⟨['a'], ['t']⟩ ⟨['a'], ['u']⟩,
        .deleteTable ⟨['a'], ['u']⟩]
    StepRun.Along (step env) (DdlSucceeds env) s ops ∧
      ¬ StepRun.Along (step env) (SequencesAligned env) s ops ∧
      (s.run env (ops.take 2)).store.catalog.reserveSequence ⟨['a'], ['u']⟩ = none ∧
      TableName.autoincSequence ⟨['a'], ['t']⟩ ∈ (s.run env ops).store.catalog.sequences := by
  intro env s ops
  refine ⟨?_, ?_, by decide +kernel, by decide +kernel⟩
  · simp only [ops, StepRun.along_cons, StepRun.along_nil, and_true]
    refine ⟨⟨trivial, ?_⟩, ⟨trivial, ?_⟩, trivial, ?_⟩
    all_goals decide +kernel
  · rintro ⟨-, ⟨haligned, -⟩, -⟩
    have hentry : ((s.run env (ops.take 2)).store.catalog.tables.find
        (TableName.fold ⟨['a'], ['u']⟩)).map TableEntry.sequence
        = some (some (TableName.autoincSequence ⟨['a'], ['t']⟩)) := by decide +kernel
    obtain ⟨e, hfind, hseq⟩ := Option.map_eq_some_iff.1 hentry
    obtain ⟨hown, -⟩ := haligned.own ⟨['a'], ['u']⟩ e hfind (by rw [hseq]; rfl)
    rw [hseq] at hown
    exact absurd hown (by decide)

end Session

end DuckdbEngine
