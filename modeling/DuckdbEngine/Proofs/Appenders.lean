/-
The appenders of a session: creation, destruction and the flush of all of them.

A flush that succeeds has found every buffer table it needed and has dropped it,
so that no two of the flushed appenders can have shared one.  That is why the
flush of all the appenders is described table by table without any assumption on
the names of the buffer tables: each table holds the merge of its own pending rows.
-/
import DuckdbEngine.Proofs.Flush

namespace DuckdbEngine

variable {V : Type} [DecidableEq V] {env : Env V}

/-! ### Creating and destroying appenders -/

/-- From `c` to `c'` nothing happened but that buffer tables were dropped. -/
structure Conn.OnlyDrops (c c' : Conn V) : Prop where
  inTrx : ∀ b, Conn.InTrx b c → Conn.InTrx b c'
  catalog_eq : c'.store.catalog = c.store.catalog
  tables_eq : c'.store.tables = c.store.tables
  temps_eq : ∀ y, c'.store.temps y = c.store.temps y ∨ c'.store.temps y = none

namespace Conn.OnlyDrops

variable {c c' c'' : Conn V}

omit [DecidableEq V] in
lemma refl (c : Conn V) : OnlyDrops c c := ⟨fun _ h => h, rfl, rfl, fun _ => Or.inl rfl⟩

omit [DecidableEq V] in
lemma trans (h : OnlyDrops c c') (h' : OnlyDrops c' c'') : OnlyDrops c c'' where
  inTrx b hb := h'.inTrx b (h.inTrx b hb)
  catalog_eq := h'.catalog_eq.trans h.catalog_eq
  tables_eq := h'.tables_eq.trans h.tables_eq
  temps_eq y := by
    rcases h'.temps_eq y with hy | hy
    · rw [hy]
      exact h.temps_eq y
    · exact Or.inr hy

omit [DecidableEq V] in
lemma tmpRows_eq (h : OnlyDrops c c') (y : CatalogName) :
    c'.store.tmpRows y = c.store.tmpRows y ∨ c'.store.tmpRows y = [] := by
  rcases h.temps_eq y with hy | hy
  · exact Or.inl (by rw [Store.tmpRows, hy, Store.tmpRows])
  · exact Or.inr (by rw [Store.tmpRows, hy, Option.elim_none])

end Conn.OnlyDrops

namespace DeltaAppender

lemma cleanup_onlyDrops (env : Env V) (useTmp : Bool) (x : CatalogName) (c : Conn V) :
    Conn.OnlyDrops c (cleanup env useTmp x c) := by
  unfold cleanup
  split
  · have hframe := Conn.Frame.exec env (t := ⟨[], []⟩) (x := some x)
      (show ∀ q ∈ [.dropTempIfExists x], Stmt.Within _ _ q by simp [Stmt.Within]) c
    rcases Conn.step_cases env c (.dropTempIfExists x) with h | ⟨st, hst, h⟩
    · simp only [Conn.exec, h] at hframe ⊢
      exact ⟨hframe.inTrx, rfl, rfl, fun _ => Or.inl rfl⟩
    · simp only [Conn.exec, h] at hframe ⊢
      cases hst
      refine ⟨hframe.inTrx, hframe.catalog_eq, by simp, fun y => ?_⟩
      by_cases hy : y = x
      · exact Or.inr (by simp [hy])
      · exact Or.inl (hframe.temps_eq y (by simpa using Ne.symm hy))
  · exact Conn.OnlyDrops.refl c

/-- The destructor of an appender without unwritten rows only drops the buffer table. -/
lemma destroy_discard (d : DeltaAppender V) (c : Conn V) :
    d.discard.destroy env c = cleanup env d.useTmpTable d.tmpTableName c := rfl

end DeltaAppender

namespace DeltaAppenders

lemma destroyItems_discard (env : Env V) (ds : List (DeltaAppender V)) (c : Conn V) :
    Conn.OnlyDrops c (destroyItems env (ds.map DeltaAppender.discard) c) := by
  induction ds generalizing c with
  | nil => exact Conn.OnlyDrops.refl c
  | cons d ds ih =>
      rw [List.map_cons, destroyItems, List.foldl_cons, ← destroyItems,
        DeltaAppender.destroy_discard]
      exact (DeltaAppender.cleanup_onlyDrops env _ _ _).trans (ih _)

/-- Discarding the appenders writes nothing. -/
lemma discardAll_onlyDrops (env : Env V) (ds : DeltaAppenders V) (c : Conn V) :
    Conn.OnlyDrops c (ds.discardAll env c) :=
  destroyItems_discard env _ _

end DeltaAppenders

/-- The statements that create a buffer table leave the rows of all tables alone. -/
lemma exec_createBuffer (env : Env V) (x : CatalogName) (c : Conn V) :
    let c' := (c.exec env (.createTemp x :: Stmt.addColumns x)).2
    c'.store.tables = c.store.tables ∧ c'.store.catalog = c.store.catalog ∧
      c'.store.tmpRows = c.store.tmpRows := by
  refine Conn.exec_store_inv env (P := fun st => st.tables = c.store.tables ∧
    st.catalog = c.store.catalog ∧ st.tmpRows = c.store.tmpRows) ?_ ⟨rfl, rfl, rfl⟩
  rintro q hq schema st st' ⟨htab, hcat, hrows⟩ hst
  -- a new table and a table that lacks columns have no rows
  have hset : ∀ T : TmpTable V, T.rows = st.tmpRows x →
      (st.setTemp x (some T)).tables = c.store.tables ∧
        (st.setTemp x (some T)).catalog = c.store.catalog ∧
        (st.setTemp x (some T)).tmpRows = c.store.tmpRows := by
    intro T hT
    refine ⟨htab, hcat, ?_⟩
    rw [← hrows]
    funext y
    by_cases hy : y = x
    · rw [hy, Store.tmpRows_setTemp_self, Option.elim_some, hT]
    · exact Store.tmpRows_setTemp_of_ne st hy _
  have hadd : ∀ j T T', st.temps x = some T → T.addColumn j = some T' →
      T'.rows = st.tmpRows x := by
    intro j T T' hT hT'
    unfold TmpTable.addColumn at hT'
    split at hT' <;> cases hT' <;> simp [Store.tmpRows, hT, TmpTable.rows]
  simp only [List.mem_cons, List.not_mem_nil, or_false] at hq
  rcases hq with rfl | rfl | rfl | rfl
  · simp only [Stmt.eval] at hst
    split at hst <;> cases hst
    · rename_i hx
      exact hset _ (by simp [Store.tmpRows, hx, TmpTable.rows])
    · exact ⟨htab, hcat, hrows⟩
  all_goals
    simp only [Stmt.eval, Option.map_eq_some_iff, Option.bind_eq_some_iff] at hst
    obtain ⟨T', ⟨T, hT, hT'⟩, rfl⟩ := hst
    exact hset T' (hadd _ T T' hT hT')

/-- When all of them succeed the buffer table is new, and has all its columns. -/
lemma exec_createBuffer_ok {x : CatalogName} {c c' : Conn V}
    (h : c.exec env (.createTemp x :: Stmt.addColumns x)
      = (false, c')) : c'.store.Ready x ∧ c'.store.tmpRows x = [] ∧ ¬ c.store.Ready x := by
  obtain ⟨st₀, h₀, -, h⟩ := Conn.exec_cons_ok.1 h
  obtain ⟨st₁, h₁, -, h⟩ := Conn.exec_cons_ok.1 h
  obtain ⟨st₂, h₂, -, h⟩ := Conn.exec_cons_ok.1 h
  obtain ⟨st₃, h₃, hc'⟩ := Conn.exec_singleton_ok h
  simp only [Stmt.eval, Conn.store_after, Option.map_eq_some_iff, Option.bind_eq_some_iff]
    at h₁ h₂ h₃
  obtain ⟨T₁, ⟨T₀, hT₀, hT₁⟩, rfl⟩ := h₁
  obtain ⟨T₂, ⟨T₁', hT₁', hT₂⟩, rfl⟩ := h₂
  obtain ⟨T₃, ⟨T₂', hT₂', hT₃⟩, rfl⟩ := h₃
  have hT₃ : T₃ = .ready [] := by
    unfold TmpTable.addColumn at hT₃
    split at hT₃ <;> simp_all
  subst hT₃
  have hbare : T₀ = .bare 0 := by
    unfold TmpTable.addColumn at hT₁
    split at hT₁ <;> simp_all
  subst hbare
  refine ⟨⟨[], by rw [hc']; simp⟩, by rw [hc', Store.tmpRows_setTemp_self]; rfl, ?_⟩
  rintro ⟨rs, hrs⟩
  simp only [Stmt.eval, hrs] at h₀
  cases h₀
  rw [hrs] at hT₀
  cases hT₀

/-- From `c` to `c'` no row of a base table changed, and buffer tables at most lost
their rows. -/
structure Conn.Quiet (c c' : Conn V) : Prop where
  inTrx : ∀ b, Conn.InTrx b c → Conn.InTrx b c'
  catalog_eq : c'.store.catalog = c.store.catalog
  tables_eq : c'.store.tables = c.store.tables
  tmpRows_eq : ∀ y, c'.store.tmpRows y = c.store.tmpRows y ∨ c'.store.tmpRows y = []

omit [DecidableEq V] in
lemma Conn.OnlyDrops.quiet {c c' : Conn V} (h : Conn.OnlyDrops c c') : Conn.Quiet c c' :=
  ⟨h.inTrx, h.catalog_eq, h.tables_eq, h.tmpRows_eq⟩

omit [DecidableEq V] in
lemma Conn.Quiet.trans {c c' c'' : Conn V} (h : Conn.Quiet c c') (h' : Conn.Quiet c' c'') :
    Conn.Quiet c c'' where
  inTrx b hb := h'.inTrx b (h.inTrx b hb)
  catalog_eq := h'.catalog_eq.trans h.catalog_eq
  tables_eq := h'.tables_eq.trans h.tables_eq
  tmpRows_eq y := by
    rcases h'.tmpRows_eq y with hy | hy
    · rw [hy]
      exact h.tmpRows_eq y
    · exact Or.inr hy

namespace DeltaAppender

/-- A new appender has nothing pending; one with a buffer table belongs to a table with
a primary key. -/
structure IsNew (env : Env V) (name : TableName) (useTmp : Bool) (d : DeltaAppender V) : Prop where
  useTmpTable_eq : d.useTmpTable = useTmp
  name_eq : d.name = name
  buffer_eq : d.appender.buffer = []
  hasDelete_eq : d.hasDelete = false
  hasInsert_eq : d.hasInsert = false
  pkList_eq : useTmp = true → (env.table name).primaryKey = some d.pkList

/-- Creating an appender changes no rows, whether or not it succeeds.  A buffer table
that was created was not there before. -/
lemma initializeFor_spec (env : Env V) (name : TableName) (useTmp : Bool) (c : Conn V) :
    let r := initializeFor env name useTmp c
    (∀ b, Conn.InTrx b c → Conn.InTrx b r.2) ∧ r.2.store.catalog = c.store.catalog ∧
      r.2.store.tables = c.store.tables ∧ r.2.store.tmpRows = c.store.tmpRows ∧
      ∀ d, r.1 = some d → IsNew env name useTmp d ∧
        (useTmp = true → r.2.store.Ready d.tmpTableName ∧ ¬ c.store.Ready d.tmpTableName ∧
          c.store.tmpRows d.tmpTableName = []) ∧
        ∀ y, d.buf ≠ some y → r.2.store.temps y = c.store.temps y := by
  dsimp only
  unfold initializeFor
  cases useTmp with
  | false =>
      simp only [Bool.false_eq_true, if_false]
      split
      · exact ⟨fun b hb => hb.tick, rfl, rfl, rfl, by simp⟩
      · refine ⟨fun b hb => hb.tick, rfl, rfl, rfl, ?_⟩
        rintro d ⟨⟩
        exact ⟨⟨rfl, rfl, rfl, rfl, rfl, by simp⟩, by simp, fun _ _ => rfl⟩
  | true =>
      simp only [if_true]
      generalize hx : tmpTableName
        (⟨true, name, [], 0, false, false, false, .cleared⟩ : DeltaAppender V) = x
      obtain ⟨htab, hcat, hrows⟩ := exec_createBuffer env x c
      have hframe := Conn.Frame.exec env (t := name) (x := some x)
        (show ∀ q ∈ (.createTemp x :: Stmt.addColumns x),
          Stmt.Within _ _ q by simp [Stmt.Within]) c
      rcases hex : c.exec env (.createTemp x :: Stmt.addColumns x) with
        ⟨e, c₁⟩
      rw [hex] at htab hcat hrows hframe
      cases e with
      | true => exact ⟨hframe.inTrx, hcat, htab, hrows, by simp⟩
      | false =>
          obtain ⟨hready, hnil, hnew⟩ := exec_createBuffer_ok hex
          have htick : ∀ b, Conn.InTrx b c → Conn.InTrx b c₁.tick := fun b hb =>
            (hframe.inTrx b hb).tick
          dsimp only
          split
          · exact ⟨htick, hcat, htab, hrows, by simp⟩
          split
          · exact ⟨htick, hcat, htab, hrows, by simp⟩
          · rename_i pk hpk
            refine ⟨htick, hcat, htab, hrows, ?_⟩
            rintro d ⟨⟩
            have hxd : tmpTableName
                (⟨true, name, pk, 0, false, false, false, .cleared⟩ : DeltaAppender V) = x := hx
            refine ⟨⟨rfl, rfl, rfl, rfl, rfl, fun _ => hpk⟩, fun _ => ?_, fun y hy => ?_⟩
            · rw [hxd]
              have hnil' : c₁.store.tmpRows x = [] := hnil
              exact ⟨hready, hnew, (congrFun hrows x).symm.trans hnil'⟩
            · refine hframe.temps_eq y fun h => hy ?_
              rw [← h]
              exact buf_eq_some.2 ⟨rfl, hxd⟩

end DeltaAppender

namespace DeltaAppenders

/-- What `getAppender` can do: find an appender, create one, or fail. -/
lemma getAppender_cases (env : Env V) (ds : DeltaAppenders V) (name : TableName) (insertOnly : Bool)
    (c : Conn V) :
    (∃ d, ds.find name = some d ∧ ds.getAppender env name insertOnly c = (some d, ds, c)) ∨
      (∃ d c', ds.find name = none ∧
        ds.getAppender env name insertOnly c = (some d, ds.set d, c') ∧
        DeltaAppender.IsNew env name (!insertOnly) d ∧ Conn.Quiet c c' ∧
        c'.store.tmpRows = c.store.tmpRows ∧
        (d.useTmpTable = true → c'.store.Ready d.tmpTableName ∧
          ¬ c.store.Ready d.tmpTableName ∧ c.store.tmpRows d.tmpTableName = []) ∧
        ∀ y, d.buf ≠ some y → c'.store.temps y = c.store.temps y) ∨
      ∃ c', ds.find name = none ∧ ds.getAppender env name insertOnly c = (none, ds, c') ∧
        Conn.Quiet c c' := by
  cases hfind : ds.find name with
  | some d => exact Or.inl ⟨d, rfl, by simp [getAppender, hfind]⟩
  | none =>
      obtain ⟨htrx, hcat, htab, hrows, hsome⟩ :=
        DeltaAppender.initializeFor_spec env name (!insertOnly) c
      rcases hinit : DeltaAppender.initializeFor env name (!insertOnly) c with ⟨_ | d, c'⟩
      all_goals
        rw [hinit] at htrx hcat htab hrows hsome
        have hquiet : Conn.Quiet c c' :=
          ⟨htrx, hcat, htab, fun y => Or.inl (congrFun hrows y)⟩
      · refine Or.inr (Or.inr ⟨_, rfl, by simp only [getAppender, hfind, hinit]; rfl, ?_⟩)
        exact hquiet.trans (DeltaAppender.cleanup_onlyDrops env _ _ _).quiet
      · obtain ⟨hnew, hready, hother⟩ := hsome d rfl
        refine Or.inr (Or.inl ⟨d, c', rfl, by simp only [getAppender, hfind, hinit], hnew, hquiet,
          hrows, fun htmp => hready ?_, hother⟩)
        rw [← hnew.useTmpTable_eq, htmp]

end DeltaAppenders

/-! ### The flush of all the appenders -/

/-- From `c` to `c'` every appender of `ds` was flushed. -/
structure FlushedAll (ds : List (DeltaAppender V)) (c c' : Conn V) : Prop where
  inTrx : ∀ b, Conn.InTrx b c → Conn.InTrx b c'
  catalog_eq : c'.store.catalog = c.store.catalog
  tables_own : ∀ d ∈ ds,
    c'.store.tables d.name = d.merged (d.pending c.store) (c.store.tables d.name)
  tables_other : ∀ t, (∀ d ∈ ds, d.name ≠ t) → c'.store.tables t = c.store.tables t
  temps_found : ∀ d ∈ ds, ∀ y, d.buf = some y → c.store.temps y ≠ none
  temps_own : ∀ d ∈ ds, ∀ y, d.buf = some y → c'.store.temps y = none
  temps_other : ∀ y, (∀ d ∈ ds, d.buf ≠ some y) → c'.store.temps y = c.store.temps y

omit [DecidableEq V] in
/-- The pending rows depend on the appender's own buffer table only. -/
lemma DeltaAppender.pending_congr {d : DeltaAppender V} {st st' : Store V}
    (h : ∀ y, d.buf = some y → st'.temps y = st.temps y) : d.pending st' = d.pending st := by
  unfold pending
  split
  · rename_i htmp
    rw [Store.tmpRows, h _ (buf_eq_some.2 ⟨htmp, rfl⟩), Store.tmpRows]
  · rfl

/-- Without appenders there is nothing to flush. -/
lemma FlushedAll.nil (c : Conn V) : FlushedAll [] c c :=
  ⟨fun _ hb => hb, rfl, by simp, fun _ _ => rfl, by simp, by simp, fun _ _ => rfl⟩

lemma FlushedAll.cons {d d' : DeltaAppender V} {ds : List (DeltaAppender V)} {c c₁ c' : Conn V}
    (hname : ∀ e ∈ ds, e.name ≠ d.name) (h : d.flush env false c = (false, d', c₁))
    (h' : FlushedAll ds c₁ c') : FlushedAll (d :: ds) c c' := by
  obtain ⟨-, hframe, htab, htmp⟩ := DeltaAppender.flush_ok h
  have hdrop : ∀ y, d.buf = some y → c.store.temps y ≠ none ∧ c₁.store.temps y = none := by
    intro y hy
    obtain ⟨huse, rfl⟩ := DeltaAppender.buf_eq_some.1 hy
    exact htmp huse
  -- the first flush dropped its buffer table, and the later ones found theirs
  have hbuf : ∀ e ∈ ds, ∀ y, e.buf = some y → d.buf ≠ some y := fun e he y hy hd =>
    h'.temps_found e he y hy (hdrop y hd).2
  refine ⟨fun b hb => h'.inTrx b (hframe.inTrx b hb), h'.catalog_eq.trans hframe.catalog_eq,
    ?_, ?_, ?_, ?_, ?_⟩
  · intro e he
    rcases List.mem_cons.1 he with rfl | he
    · rw [h'.tables_other e.name hname, htab]
    · rw [h'.tables_own e he, hframe.tables_eq _ (hname e he)]
      congr 1
      exact DeltaAppender.pending_congr fun y hy => hframe.temps_eq y (hbuf e he y hy)
  · intro t ht
    rw [h'.tables_other t fun e he => ht e (List.mem_cons_of_mem d he),
      hframe.tables_eq t (ht d List.mem_cons_self).symm]
  · intro e he y hy
    rcases List.mem_cons.1 he with rfl | he
    · exact (hdrop y hy).1
    · rw [← hframe.temps_eq y (hbuf e he y hy)]
      exact h'.temps_found e he y hy
  · intro e he y hy
    by_cases hds : ∃ e' ∈ ds, e'.buf = some y
    · obtain ⟨e', he', hy'⟩ := hds
      exact h'.temps_own e' he' y hy'
    · rw [h'.temps_other y fun e' he' hy' => hds ⟨e', he', hy'⟩]
      rcases List.mem_cons.1 he with rfl | he
      · exact (hdrop y hy).2
      · exact absurd ⟨e, he, hy⟩ hds
  · intro y hy
    rw [h'.temps_other y fun e he => hy e (List.mem_cons_of_mem d he),
      hframe.temps_eq y (hy d List.mem_cons_self)]

namespace DeltaAppenders

lemma flushItems_ok {ds ds' : List (DeltaAppender V)} {c c' : Conn V}
    (hn : (ds.map DeltaAppender.name).Nodup)
    (h : flushItems env false ds c = (false, ds', c')) :
    ds' = ds.map DeltaAppender.discard ∧ FlushedAll ds c c' := by
  induction ds generalizing ds' c with
  | nil =>
      cases h
      exact ⟨rfl, FlushedAll.nil _⟩
  | cons d ds ih =>
      rw [List.map_cons, List.nodup_cons] at hn
      have hname : ∀ e ∈ ds, e.name ≠ d.name := fun e he heq =>
        hn.1 (heq ▸ List.mem_map_of_mem he)
      rcases hd : d.flush env false c with ⟨e, d', c₁⟩
      cases e with
      | true =>
          simp only [flushItems, hd] at h
          cases h
      | false =>
          rcases hds : flushItems env false ds c₁ with ⟨e, ds₁, c₂⟩
          simp only [flushItems, hd, hds] at h
          cases h
          obtain ⟨rfl, hall⟩ := ih hn.2 hds
          obtain ⟨rfl, -⟩ := DeltaAppender.flush_ok hd
          exact ⟨rfl, hall.cons hname hd⟩

/-- A flush that stops in the middle: each appender of an insert-only batch has either
its rows pending or in the table. -/
structure FlushStopped (ds ds' : List (DeltaAppender V)) (c c' : Conn V) : Prop where
  inTrx : ∀ b, Conn.InTrx b c → Conn.InTrx b c'
  catalog_eq : c'.store.catalog = c.store.catalog
  tables_other : ∀ t, (∀ d ∈ ds, d.name ≠ t) → c'.store.tables t = c.store.tables t
  temps_other : ∀ y, (∀ d ∈ ds, d.buf ≠ some y) → c'.store.temps y = c.store.temps y
  items : List.Forall₂ (fun d d' => d' = d.withAppender d'.appender ∧
    (d.useTmpTable = false → c'.store.tables d.name + colsOf d'.appender.buffer
      = c.store.tables d.name + colsOf d.appender.buffer)) ds ds'

omit [DecidableEq V] in
/-- The appenders before and after such a flush correspond to each other. -/
lemma FlushStopped.items_iff {ds ds' : List (DeltaAppender V)} {c c' : Conn V}
    (h : FlushStopped ds ds' c c') :
    (∀ d ∈ ds, ∃ d' ∈ ds', d' = d.withAppender d'.appender ∧
      (d.useTmpTable = false → c'.store.tables d.name + colsOf d'.appender.buffer
        = c.store.tables d.name + colsOf d.appender.buffer)) ∧
    ∀ d' ∈ ds', ∃ d ∈ ds, d' = d.withAppender d'.appender := by
  have hitems := h.items
  clear h
  induction hitems with
  | nil => simp
  | cons hd _ ih =>
      obtain ⟨ih, ih'⟩ := ih
      refine ⟨fun d hd' => ?_, fun d' hd' => ?_⟩
      · rcases List.mem_cons.1 hd' with rfl | hmem
        · exact ⟨_, List.mem_cons_self, hd⟩
        · obtain ⟨d', hd', hrel⟩ := ih d hmem
          exact ⟨d', List.mem_cons_of_mem _ hd', hrel⟩
      · rcases List.mem_cons.1 hd' with rfl | hmem
        · exact ⟨_, List.mem_cons_self, hd.1⟩
        · obtain ⟨d, hd, hrel⟩ := ih' d' hmem
          exact ⟨d, List.mem_cons_of_mem _ hd, hrel⟩

lemma flushItems_err {ds ds' : List (DeltaAppender V)} {c c' : Conn V}
    (hn : (ds.map DeltaAppender.name).Nodup)
    (h : flushItems env false ds c = (true, ds', c')) : FlushStopped ds ds' c c' := by
  induction ds generalizing ds' c with
  | nil => cases h
  | cons d ds ih =>
      rw [List.map_cons, List.nodup_cons] at hn
      have hname : ∀ e ∈ ds, e.name ≠ d.name := fun e he heq =>
        hn.1 (heq ▸ List.mem_map_of_mem he)
      rcases hd : d.flush env false c with ⟨e, d', c₁⟩
      cases e with
      | true =>
          simp only [flushItems, hd] at h
          cases h
          obtain ⟨hd', hframe, hwrote⟩ := DeltaAppender.flush_err hd
          refine ⟨hframe.inTrx, hframe.catalog_eq,
            fun t ht => hframe.tables_eq t (ht d List.mem_cons_self).symm,
            fun y hy => hframe.temps_eq y (hy d List.mem_cons_self),
            List.Forall₂.cons ⟨hd', fun htmp => ?_⟩ (List.forall₂_same.2 fun e he => ?_)⟩
          · have hadd := (hwrote htmp).tables_add htmp
            have htmp' : d'.useTmpTable = false := (hwrote htmp).useTmpTable_eq.trans htmp
            rwa [DeltaAppender.pending_of_not_tmp htmp, DeltaAppender.pending_of_not_tmp htmp',
              colsOf_nil, add_zero] at hadd
          · exact ⟨rfl, fun _ => by rw [hframe.tables_eq _ (hname e he)]⟩
      | false =>
          rcases hds : flushItems env false ds c₁ with ⟨e, ds₁, c₂⟩
          simp only [flushItems, hd, hds] at h
          cases h
          obtain ⟨rfl, hframe, htab, -⟩ := DeltaAppender.flush_ok hd
          have hrest := ih hn.2 hds
          refine ⟨fun b hb => hrest.inTrx b (hframe.inTrx b hb),
            hrest.catalog_eq.trans hframe.catalog_eq, fun t ht => ?_, fun y hy => ?_,
            List.Forall₂.cons ⟨rfl, fun htmp => ?_⟩ ?_⟩
          · rw [hrest.tables_other t fun e he => ht e (List.mem_cons_of_mem d he),
              hframe.tables_eq t (ht d List.mem_cons_self).symm]
          · rw [hrest.temps_other y fun e he => hy e (List.mem_cons_of_mem d he),
              hframe.temps_eq y (hy d List.mem_cons_self)]
          · rw [hrest.tables_other d.name hname, htab, DeltaAppender.merged, if_neg (by simp [htmp]),
              DeltaAppender.pending_of_not_tmp htmp]
            exact add_zero _
          · refine ((List.forall₂_and_left _ _).2 ⟨hname, hrest.items⟩).imp ?_
            rintro e e' ⟨hne, he', hadd⟩
            rw [← hframe.tables_eq _ hne]
            exact ⟨he', hadd⟩

lemma flushAll_ok {ds ds' : DeltaAppenders V} {c c' : Conn V}
    (h : ds.flushAll env false c = (false, ds', c')) :
    ds' = KeyedList.empty ∧ ∃ c₁, FlushedAll ds.items c c₁ ∧ Conn.OnlyDrops c₁ c' := by
  rcases hr : flushItems env false ds.items c with ⟨e, ds₁, c₁⟩
  cases e with
  | true => simp [flushAll, hr] at h
  | false =>
      simp only [flushAll, hr, Bool.false_eq_true, if_false, Prod.mk.injEq, true_and] at h
      obtain ⟨rfl, rfl⟩ := h
      obtain ⟨rfl, hall⟩ := flushItems_ok ds.nodup hr
      exact ⟨rfl, c₁, hall, destroyItems_discard env _ _⟩

lemma flushAll_err {ds ds' : DeltaAppenders V} {c c' : Conn V}
    (h : ds.flushAll env false c = (true, ds', c')) : FlushStopped ds.items ds'.items c c' := by
  rcases hr : flushItems env false ds.items c with ⟨e, ds₁, c₁⟩
  cases e with
  | false => simp [flushAll, hr] at h
  | true =>
      simp only [flushAll, hr, if_true, Prod.mk.injEq, true_and] at h
      obtain ⟨rfl, rfl⟩ := h
      exact flushItems_err ds.nodup hr

end DeltaAppenders

end DuckdbEngine
