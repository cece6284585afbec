/-
The session refines the sequential application of its row operations.

`Session.contents` reads off what every table would hold if the pending rows of its
appender had been applied one after another.  `Refines` relates a session to the contents
that the operations issued so far stand for: the two agree, table by table, and the
batches of the session are consistent.  In an insert-only batch no appender has a buffer
table, in a mixed batch each has one of its own, and outside a batch nothing is pending.

Every step of a row operation keeps the relation, with one exception: when an append
fails and the operation is executed as SQL after all, rows that are still pending would be
applied later than they were issued.  `Calm` says of an operation that this does not
happen.
-/
import DuckdbEngine.Proofs.RowSpec
import DuckdbEngine.Proofs.Transaction

namespace DuckdbEngine

variable {V : Type} [DecidableEq V] {env : Env V}

/-! ### What an appender depends on -/

namespace DeltaAppender

variable {d : DeltaAppender V} {st st' : Store V}

omit [DecidableEq V] in
lemma pending_of_tmpRows_eq (h : st'.tmpRows = st.tmpRows) : d.pending st' = d.pending st := by
  simp only [pending, h]

lemma contents_congr (hp : d.pending st' = d.pending st)
    (ht : st'.tables d.name = st.tables d.name) : d.contents st' = d.contents st := by
  simp only [contents, hp, ht]

omit [DecidableEq V] in
lemma MixedWf.congr (h : MixedWf env d st) (hp : d.pending st' = d.pending st)
    (ht : st'.tables d.name = st.tables d.name) : MixedWf env d st' := by
  obtain ⟨hpk, hsorted, hbounded, hkeys, hdel, hins, huntouched⟩ := h
  refine ⟨hpk, ?_, ?_, ?_, ?_, ?_, ?_⟩ <;> rw [hp]
  · exact hsorted
  · exact hbounded
  · exact hkeys
  · exact hdel
  · exact hins
  · rw [ht]
    exact huntouched

end DeltaAppender

namespace Session

variable {s s' : Session V} {spec : Tables V}

/-- The contents of a table with the pending rows applied in order. -/
def contents (s : Session V) (t : TableName) : Multiset (Row V) :=
  (s.appenders.find t).elim (s.store.tables t) fun d => d.contents s.store

omit [DecidableEq V] in
/-- No appender of the session holds rows back. -/
def NothingPending (s : Session V) : Prop :=
  ∀ d ∈ s.appenders.items, d.pending s.store = []

lemma contents_of_mem {d : DeltaAppender V} (hd : d ∈ s.appenders.items) :
    s.contents d.name = d.contents s.store := by
  rw [contents, KeyedList.find_of_mem hd, Option.elim_some]

lemma contents_of_forall_ne {t : TableName} (h : ∀ d ∈ s.appenders.items, d.name ≠ t) :
    s.contents t = s.store.tables t := by
  rw [contents, KeyedList.find_eq_none.2 h, Option.elim_none]

lemma contents_of_nothingPending (h : s.NothingPending) (t : TableName) :
    s.contents t = s.store.tables t := by
  by_cases ht : ∃ d ∈ s.appenders.items, d.name = t
  · obtain ⟨d, hd, rfl⟩ := ht
    rw [contents_of_mem hd, DeltaAppender.contents_of_pending_nil (h d hd)]
  · exact contents_of_forall_ne fun d hd hname => ht ⟨d, hd, hname⟩

/-! ### The invariant -/

omit [DecidableEq V] in
/-- The batches of the session are consistent. -/
structure BatchInv (env : Env V) (s : Session V) : Prop where
  undefined : s.batchState = .undefined → s.appenders.items = []
  insertOnly : s.batchState = .inInsertOnlyBatch →
    ∀ d ∈ s.appenders.items, d.useTmpTable = false
  mixed : s.batchState = .inMixBatch →
    ∀ d ∈ s.appenders.items, d.useTmpTable = true ∧ s.store.Ready d.tmpTableName
  buffers : s.batchState = .inMixBatch → ∀ d ∈ s.appenders.items, ∀ e ∈ s.appenders.items,
    d.tmpTableName = e.tmpTableName → d = e
  notInBatch : s.batchState = .notInBatch → s.NothingPending
  wf : ∀ d ∈ s.appenders.items, d.useTmpTable = true → d.MixedWf env s.store

omit [DecidableEq V] in
lemma BatchInv.of_items_nil (h : s.appenders.items = []) : BatchInv env s := by
  refine ⟨fun _ => h, ?_, ?_, ?_, ?_, ?_⟩ <;> simp [h, NothingPending]

/-- The session stands for the contents `spec`. -/
structure Refines (env : Env V) (s : Session V) (spec : Tables V) : Prop
    extends BatchInv env s where
  contents_eq : ∀ t, s.contents t = spec t
  keys : ∀ t, RowOp.UniqueKeys env t (spec t)

namespace Refines

omit [DecidableEq V] in
lemma nothingPending_of_items_nil (h : s.appenders.items = []) : s.NothingPending := by
  simp [NothingPending, h]

/-- Without appenders the tables hold what the session stands for. -/
lemma of_items_nil (h : s.appenders.items = []) (htab : ∀ t, s.store.tables t = spec t)
    (hkeys : ∀ t, RowOp.UniqueKeys env t (spec t)) : Refines env s spec := by
  refine ⟨BatchInv.of_items_nil h, fun t => ?_, hkeys⟩
  rw [contents_of_nothingPending (nothingPending_of_items_nil h), htab]

/-- Outside a batch the tables hold what the session stands for. -/
lemma of_nothingPending (hb : s.batchState = .notInBatch) (hnil : s.NothingPending)
    (hpk : ∀ d ∈ s.appenders.items, d.useTmpTable = true →
      (env.table d.name).primaryKey = some d.pkList)
    (htab : ∀ t, s.store.tables t = spec t) (hkeys : ∀ t, RowOp.UniqueKeys env t (spec t)) :
    Refines env s spec := by
  refine ⟨⟨?_, ?_, ?_, ?_, fun _ => hnil, fun d hd htmp => ?_⟩, fun t => ?_, hkeys⟩
  · simp [hb]
  · simp [hb]
  · simp [hb]
  · simp [hb]
  · exact DeltaAppender.MixedWf.of_pending_nil (hpk d hd htmp) (hnil d hd)
  · rw [contents_of_nothingPending hnil, htab]

lemma tables_eq (h : Refines env s spec) (hnil : s.NothingPending) (t : TableName) :
    s.store.tables t = spec t := by
  rw [← contents_of_nothingPending hnil, h.contents_eq]

/-! ### Starting a transaction and flushing -/

lemma registers (h : Refines env s spec) (hr : Registers s s') : Refines env s' spec := by
  have hst : s'.store = s.store := hr.store_eq
  have happ : s'.appenders = s.appenders := by rw [hr.rest_eq]
  have hbatch : s'.batchState = s.batchState := by rw [hr.rest_eq]
  refine ⟨⟨?_, ?_, ?_, ?_, ?_, ?_⟩, fun t => ?_, h.keys⟩
  · rw [hbatch, happ]
    exact h.undefined
  · rw [hbatch, happ]
    exact h.insertOnly
  · rw [hbatch, happ, hst]
    exact h.mixed
  · rw [hbatch, happ]
    exact h.buffers
  · rw [hbatch, NothingPending, happ, hst]
    exact h.notInBatch
  · rw [happ, hst]
    exact h.wf
  · rw [contents, happ, hst]
    exact h.contents_eq t

/-- The flush makes of every table what sequential application makes of it. -/
lemma flushed_eq (h : Refines env s spec) (t : TableName) : s.flushed t = spec t := by
  rw [← h.contents_eq, flushed, contents]
  cases hfind : s.appenders.find t with
  | none => rfl
  | some d =>
      obtain ⟨hd, rfl⟩ := KeyedList.find_eq_some.1 hfind
      rw [Option.elim_some, Option.elim_some]
      cases htmp : d.useTmpTable with
      | true => exact (h.wf d hd htmp).merged_eq htmp
      | false => simp [DeltaAppender.merged, DeltaAppender.contents, htmp]

lemma flush_ok (h : Refines env s spec) (hflush : s.flushAppenders env = (false, s')) :
    Refines env s' spec := by
  obtain ⟨hs', -⟩ := flushAppenders_ok hflush
  refine of_items_nil (by rw [hs']; rfl) (fun t => ?_) h.keys
  rw [flushAppenders_flushed hflush, h.flushed_eq]

/-- In an insert-only batch a flush that fails loses nothing. -/
lemma flush_err (h : Refines env s spec) (hb : s.batchState = .inInsertOnlyBatch)
    (hflush : s.flushAppenders env = (true, s')) : Refines env s' spec := by
  obtain ⟨hs', hstop⟩ := flushAppenders_err hflush
  obtain ⟨hafter, hbefore⟩ := hstop.items_iff
  have hbatch : s'.batchState = .inInsertOnlyBatch := by rw [hs', ← hb]
  have huse : ∀ d' ∈ s'.appenders.items, d'.useTmpTable = false := by
    intro d' hd'
    obtain ⟨d, hd, hrel⟩ := hbefore d' hd'
    rw [hrel]
    exact h.insertOnly hb d hd
  refine ⟨⟨?_, fun _ => huse, ?_, ?_, ?_, ?_⟩, fun t => ?_, h.keys⟩
  · simp [hbatch]
  · simp [hbatch]
  · simp [hbatch]
  · simp [hbatch]
  · intro d hd htmp
    simp [huse d hd] at htmp
  · rw [← h.contents_eq]
    by_cases ht : ∃ d ∈ s.appenders.items, d.name = t
    · obtain ⟨d, hd, rfl⟩ := ht
      obtain ⟨d', hd', hrel, hadd⟩ := hafter d hd
      have hname : d'.name = d.name := by rw [hrel]; rfl
      have htmp := h.insertOnly hb d hd
      rw [← hname, contents_of_mem hd', hname, contents_of_mem hd, DeltaAppender.contents,
        DeltaAppender.contents, huse d' hd', htmp, DeltaAppender.pending_of_not_tmp htmp,
        DeltaAppender.pending_of_not_tmp (huse d' hd'), hname]
      exact hadd htmp
    · have hne : ∀ d ∈ s.appenders.items, d.name ≠ t := fun d hd hname => ht ⟨d, hd, hname⟩
      have hne' : ∀ d' ∈ s'.appenders.items, d'.name ≠ t := by
        intro d' hd'
        obtain ⟨d, hd, hrel⟩ := hbefore d' hd'
        rw [hrel]
        exact hne d hd
      rw [contents_of_forall_ne hne', contents_of_forall_ne hne]
      exact hstop.tables_other t hne

/-- Deciding the batch state. -/
lemma getBatchState_ok (h : Refines env s spec) {insertOnly : Bool}
    (hget : s.getBatchState env insertOnly = (false, s')) :
    Refines env s' spec ∧ s'.batchState ≠ .undefined := by
  obtain ⟨s₁, hs₁, hs'⟩ := Session.getBatchState_ok hget
  have h₁ : Refines env s₁ spec := by
    rcases hs₁ with ⟨rfl, -⟩ | hflush
    · exact h
    · exact h.flush_ok hflush
  rcases hs' with ⟨hundef, rfl⟩ | ⟨hne, rfl⟩
  · have hnil := h₁.undefined hundef
    refine ⟨of_items_nil hnil (h₁.tables_eq (nothingPending_of_items_nil hnil)) h.keys, ?_⟩
    simp only [chosenBatch]
    split_ifs <;> simp
  · exact ⟨h₁, hne⟩

/-! ### Handing over a row -/

/-- In a batch, an appender takes its place among the appenders of the session: it has a buffer
table of its own if it has one, and all that has changed belongs to it. -/
lemma set (h : Refines env s spec) (hne : s.batchState ≠ .undefined)
    (hne' : s.batchState ≠ .notInBatch) {spec' : Tables V} {d : DeltaAppender V} {c : Conn V}
    (hinsert : s.batchState = .inInsertOnlyBatch → d.useTmpTable = false)
    (hmixed : s.batchState = .inMixBatch → d.useTmpTable = true ∧ c.store.Ready d.tmpTableName)
    (hbuffers : s.batchState = .inMixBatch → ∀ e ∈ s.appenders.items, e.name ≠ d.name →
      e.tmpTableName ≠ d.tmpTableName)
    (htemps : ∀ y, d.buf ≠ some y → c.store.temps y = s.store.temps y)
    (htables : ∀ t, t ≠ d.name → c.store.tables t = s.store.tables t)
    (hwf : d.useTmpTable = true → d.MixedWf env c.store)
    (hown : d.contents c.store = spec' d.name) (hspec : ∀ t, t ≠ d.name → spec' t = spec t)
    (hkeys : ∀ t, RowOp.UniqueKeys env t (spec' t)) :
    Refines env { s with appenders := s.appenders.set d, conn := c } spec' := by
  have hmem : ∀ e, e ∈ (s.appenders.set d).items ↔
      e = d ∨ e ∈ s.appenders.items ∧ e.name ≠ d.name := fun e => KeyedList.mem_put _
  have hother : ∀ e ∈ s.appenders.items, e.name ≠ d.name → ∀ y, e.buf = some y →
      c.store.temps y = s.store.temps y := by
    intro e he hen y hy
    refine htemps y fun hdy => ?_
    obtain ⟨hetmp, hey⟩ := DeltaAppender.buf_eq_some.1 hy
    obtain ⟨-, hdy⟩ := DeltaAppender.buf_eq_some.1 hdy
    cases hb : s.batchState with
    | undefined => exact hne hb
    | notInBatch => exact hne' hb
    | inInsertOnlyBatch => simp [h.insertOnly hb e he] at hetmp
    | inMixBatch => exact hbuffers hb e he hen (hey.trans hdy.symm)
  have hpending : ∀ e ∈ s.appenders.items, e.name ≠ d.name →
      e.pending c.store = e.pending s.store := fun e he hen =>
    DeltaAppender.pending_congr (hother e he hen)
  refine ⟨⟨fun hb => absurd hb hne, ?_, ?_, ?_, fun hb => absurd hb hne', ?_⟩, fun t => ?_, hkeys⟩
  · intro hb e he
    rcases (hmem e).1 he with rfl | ⟨he, -⟩
    · exact hinsert hb
    · exact h.insertOnly hb e he
  · intro hb e he
    rcases (hmem e).1 he with rfl | ⟨he, hen⟩
    · exact hmixed hb
    · obtain ⟨htmp, rs, hrs⟩ := h.mixed hb e he
      exact ⟨htmp, rs, (hother e he hen _ (DeltaAppender.buf_eq_some.2 ⟨htmp, rfl⟩)).trans hrs⟩
  · intro hb e he e' he' hbuf
    rcases (hmem e).1 he with rfl | ⟨hmem₁, hen⟩ <;>
      rcases (hmem e').1 he' with rfl | ⟨hmem₂, hen'⟩
    · rfl
    · exact absurd hbuf.symm (hbuffers hb e' hmem₂ hen')
    · exact absurd hbuf (hbuffers hb e hmem₁ hen)
    · exact h.buffers hb e hmem₁ e' hmem₂ hbuf
  · intro e he htmp
    rcases (hmem e).1 he with rfl | ⟨he, hen⟩
    · exact hwf htmp
    · exact (h.wf e he htmp).congr (hpending e he hen) (htables _ hen)
  · by_cases ht : t = d.name
    · subst ht
      rw [← hown]
      exact contents_of_mem ((hmem d).2 (Or.inl rfl))
    · have hfind : (s.appenders.set d).find t = s.appenders.find t :=
        KeyedList.find_put_of_ne _ _ ht
      rw [hspec t ht, ← h.contents_eq]
      simp only [contents, hfind]
      cases hf : s.appenders.find t with
      | none => exact htables t ht
      | some e =>
          obtain ⟨he, rfl⟩ := KeyedList.find_eq_some.1 hf
          exact DeltaAppender.contents_congr (hpending e he ht) (htables _ ht)

/-- Opening an appender changes no contents. -/
lemma getAppender (h : Refines env s spec) (hne : s.batchState ≠ .undefined)
    (hne' : s.batchState ≠ .notInBatch) {name : TableName} {d : DeltaAppender V}
    {ds : DeltaAppenders V} {c : Conn V}
    (hget : s.appenders.getAppender env name (s.batchState = .inInsertOnlyBatch) s.conn
      = (some d, ds, c)) :
    Refines env { s with appenders := ds, conn := c } spec ∧ d ∈ ds.items ∧ d.name = name ∧
      c.store.tables = s.store.tables ∧ c.store.tmpRows = s.store.tmpRows ∧
      ∀ e ∈ ds.items, e ∈ s.appenders.items ∨ e.pending c.store = [] := by
  rcases DeltaAppenders.getAppender_cases env s.appenders name (s.batchState = .inInsertOnlyBatch)
      s.conn with ⟨d₁, hfind, heq⟩ | ⟨d₁, c₁, hfind, heq, hnew, hq, hrows, hready, hother⟩ |
      ⟨c₁, -, heq, -⟩
  · rw [heq] at hget
    cases hget
    obtain ⟨hd, hname⟩ := KeyedList.find_eq_some.1 hfind
    exact ⟨h, hd, hname, rfl, rfl, fun e he => Or.inl he⟩
  · rw [heq] at hget
    cases hget
    have hname : ∀ e ∈ s.appenders.items, e.name ≠ d.name := by
      rw [hnew.name_eq]
      exact KeyedList.find_eq_none.1 hfind
    have htab : c.store.tables = s.store.tables := hq.tables_eq
    have hmix (hb : s.batchState = .inMixBatch) : d.useTmpTable = true := by
      rw [hnew.useTmpTable_eq, hb]
      rfl
    have hpending : d.pending c.store = [] := by
      cases htmp : d.useTmpTable with
      | true =>
          rw [DeltaAppender.pending_of_tmp htmp, hnew.buffer_eq, hrows, (hready htmp).2.2]
          rfl
      | false => rw [DeltaAppender.pending_of_not_tmp htmp, hnew.buffer_eq]
    -- the buffer table of the new appender was not there, those of the others were
    have hfresh : s.batchState = .inMixBatch → ∀ e ∈ s.appenders.items, e.name ≠ d.name →
        e.tmpTableName ≠ d.tmpTableName := by
      intro hb e he _ hbuf
      refine (hready (hmix hb)).2.1 ?_
      rw [← hbuf]
      exact (h.mixed hb e he).2
    have hinsert : s.batchState = .inInsertOnlyBatch → d.useTmpTable = false := by
      intro hb
      rw [hnew.useTmpTable_eq, hb]
      rfl
    have hwf : d.useTmpTable = true → d.MixedWf env c.store := by
      intro htmp
      refine DeltaAppender.MixedWf.of_pending_nil ?_ hpending
      rw [hnew.name_eq]
      exact hnew.pkList_eq (by rw [← hnew.useTmpTable_eq, htmp])
    have hown : d.contents c.store = spec d.name := by
      rw [DeltaAppender.contents_of_pending_nil hpending, htab, ← h.contents_eq,
        contents_of_forall_ne hname]
    refine ⟨h.set hne hne' hinsert (fun hb => ⟨hmix hb, (hready (hmix hb)).1⟩) hfresh hother
      (fun t _ => congrFun htab t) hwf hown (fun t _ => rfl) h.keys,
      (KeyedList.mem_put _).2 (Or.inl rfl), hnew.name_eq, htab, hrows, fun e he => ?_⟩
    rcases (KeyedList.mem_put _).1 he with rfl | ⟨he, -⟩
    · exact Or.inr hpending
    · exact Or.inl he
  · rw [heq] at hget
    cases hget

/-- The appender that takes a row. -/
lemma append_own (h : Refines env s spec) {op : RowOp V} {d d' : DeltaAppender V} {c : Conn V}
    (hd : d ∈ s.appenders.items) (hname : d.name = op.table)
    {ws : ℕ → Bool} (hvalid : op.Valid env ws (spec op.table))
    (hok : op.append env d s.conn = (false, d', c)) :
    (d'.useTmpTable = true → d'.MixedWf env c.store) ∧
      d'.contents c.store = op.effect env (spec op.table) := by
  obtain ⟨rows, hw, -⟩ := RowOp.append_wrote hok
  have hcontents : d.contents s.conn.store = spec op.table := by
    rw [← hname, ← h.contents_eq, contents_of_mem hd]
    rfl
  cases htmp : d.useTmpTable with
  | true =>
      obtain ⟨hwf, heff⟩ := (h.wf d hd htmp).append_effect htmp hname
        (by rw [hcontents]; exact hvalid) (by rw [hcontents]; exact h.keys _) hok
      rw [hcontents] at heff
      exact ⟨fun _ => hwf, heff⟩
  | false =>
      have huse : d'.useTmpTable = false := hw.useTmpTable_eq.trans htmp
      refine ⟨fun htmp' => by simp [huse] at htmp', ?_⟩
      cases op with
      | write t r =>
          obtain ⟨hw', -⟩ := DeltaAppender.appendRowInsert_ok hok
          have hadd := hw'.tables_add htmp
          rw [← hcontents, DeltaAppender.contents, DeltaAppender.contents, huse, htmp,
            hw'.name_eq]
          obtain rfl : d.name = t := hname
          exact hadd
      | update t old r =>
          obtain ⟨d₁, c₁, hdel, -⟩ := DeltaAppender.appendRowUpdate_ok hok
          have htmp' : d.useTmpTable = true := (DeltaAppender.appendRowDelete_ok hdel).1
          simp [htmp] at htmp'
      | delete t r =>
          have htmp' := (DeltaAppender.appendRowDelete_ok hok).1
          simp [htmp] at htmp'

/-- A row is appended to an open appender. -/
lemma wrote (h : Refines env s spec) (hne : s.batchState ≠ .undefined)
    (hne' : s.batchState ≠ .notInBatch) {op : RowOp V} {d d' : DeltaAppender V} {c : Conn V}
    (hd : d ∈ s.appenders.items) (hname : d.name = op.table)
    {ws : ℕ → Bool} (hvalid : op.Valid env ws (spec op.table))
    (hok : op.append env d s.conn = (false, d', c)) :
    Refines env { s with appenders := s.appenders.set d', conn := c } (op.apply env spec) := by
  obtain ⟨rows, hw, -⟩ := RowOp.append_wrote hok
  obtain ⟨hwf, hown⟩ := h.append_own hd hname hvalid hok
  have hname' : d'.name = op.table := hw.name_eq.trans hname
  refine h.set hne hne' ?_ ?_ ?_ ?_ ?_ hwf ?_ ?_ (hvalid.uniqueKeys_apply h.keys)
  · intro hb
    exact hw.useTmpTable_eq.trans (h.insertOnly hb d hd)
  · intro hb
    obtain ⟨htmp, hready⟩ := h.mixed hb d hd
    refine ⟨hw.useTmpTable_eq.trans htmp, ?_⟩
    rw [hw.tmpTableName_eq]
    exact (hw.ready_iff htmp).2 hready
  · intro hb e he hen hbuf
    rw [hw.tmpTableName_eq] at hbuf
    rw [hw.name_eq] at hen
    exact hen (congrArg _ (h.buffers hb e he d hd hbuf))
  · rw [hw.buf_eq]
    exact hw.frame.temps_eq
  · rw [hw.name_eq]
    exact hw.frame.tables_eq
  · rw [hown, hname', RowOp.apply, Function.update_self]
  · intro t ht
    rw [hname'] at ht
    rw [RowOp.apply, Function.update_of_ne ht]

/-- A row that is buffered. -/
lemma appendOp_ok (h : Refines env s spec) (hne : s.batchState ≠ .undefined)
    (hne' : s.batchState ≠ .notInBatch) {op : RowOp V} {ws : ℕ → Bool}
    (hvalid : op.Valid env ws (spec op.table)) (hok : s.appendOp env op = (false, s')) :
    Refines env s' (op.apply env spec) := by
  rcases appendOp_cases hok with ⟨d, ds, c, d', c', hget, hop, rfl⟩ | ⟨hfalse, -⟩
  · obtain ⟨h₁, hd, hname, -⟩ := h.getAppender hne hne' hget
    exact h₁.wrote hne hne' hd hname hvalid hop
  · cases hfalse

/-- An append that fails while nothing is pending, and that leaves nothing pending, has
changed no contents. -/
lemma appendOp_err (h : Refines env s spec) (hne : s.batchState ≠ .undefined)
    (hne' : s.batchState ≠ .notInBatch) {op : RowOp V} (hnil : s.NothingPending)
    (hnil' : s'.NothingPending) (herr : s.appendOp env op = (true, s')) :
    Refines env { s' with batchState := .notInBatch } spec := by
  have hpk : ∀ d ∈ s.appenders.items, d.useTmpTable = true →
      (env.table d.name).primaryKey = some d.pkList := fun d hd htmp => (h.wf d hd htmp).pk_eq
  rcases appendOp_cases herr with ⟨d, ds, c, d', c', hget, hop, rfl⟩ | ⟨-, ds, c, hget, rfl⟩
  · obtain ⟨h₁, hd, hname, htab, hrows, hold⟩ := h.getAppender hne hne' hget
    obtain ⟨rows, hw, hrows'⟩ := RowOp.append_wrote hop
    have hmem : ∀ e, e ∈ (ds.set d').items ↔ e = d' ∨ e ∈ ds.items ∧ e.name ≠ d'.name :=
      fun e => KeyedList.mem_put _
    have hpend : d.pending c.store = [] := by
      rcases hold d hd with hmem | hnew
      · rw [DeltaAppender.pending_of_tmpRows_eq hrows]
        exact hnil d hmem
      · exact hnew
    have hpend' : d'.pending c'.store = [] := hnil' d' ((hmem d').2 (Or.inl rfl))
    refine of_nothingPending rfl hnil' (fun e he htmp => ?_) (fun t => ?_) h.keys
    · rcases (hmem e).1 he with rfl | ⟨he, -⟩
      · rw [hw.name_eq, hw.pkList_eq]
        exact (h₁.wf d hd (by rw [← hw.useTmpTable_eq]; exact htmp)).pk_eq
      · exact (h₁.wf e he htmp).pk_eq
    · have hbefore : c.store.tables t = spec t := by
        rw [htab]
        exact h.tables_eq hnil t
      rw [← hbefore]
      show c'.store.tables t = c.store.tables t
      by_cases ht : t = d.name
      · subst ht
        cases htmp : d.useTmpTable with
        | true => exact hw.tables_eq htmp
        | false =>
            -- nothing was left pending, so that no row can have been handed over
            obtain rfl : rows = [] := (hrows' rfl).resolve_right (fun hne => hne hpend')
            have hadd := hw.tables_add htmp
            simpa [hpend, hpend'] using hadd
      · exact hw.frame.tables_eq t ht
  · rcases DeltaAppenders.getAppender_cases env s.appenders op.table
        (s.batchState = .inInsertOnlyBatch) s.conn with
      ⟨d, -, heq⟩ | ⟨d, c', -, heq, -⟩ | ⟨c', -, heq, hq⟩ <;> rw [heq] at hget <;> cases hget
    refine of_nothingPending rfl hnil' hpk (fun t => ?_) h.keys
    rw [← h.tables_eq hnil t]
    exact congrFun hq.tables_eq t

/-! ### Executing a statement -/

/-- Outside a batch the statement of a valid operation has its effect, if it succeeds. -/
lemma runStmt (h : Refines env s spec) (hb : s.batchState = .notInBatch) {op : RowOp V}
    {ws : ℕ → Bool} (hvalid : op.Valid env ws (spec op.table)) (err : HaError) :
    let r := s.runStmt env (op.stmt env ws) err
    Refines env r.2 (if r.1 = none then op.apply env spec else spec) := by
  have hnil := h.notInBatch hb
  have hpk : ∀ d ∈ s.appenders.items, d.useTmpTable = true →
      (env.table d.name).primaryKey = some d.pkList := fun d hd htmp => (h.wf d hd htmp).pk_eq
  have htab := h.tables_eq hnil
  -- the buffer tables are out of reach of the statement
  have hpending : ∀ c, c.store.tmpRows = s.store.tmpRows →
      ({ s with conn := c } : Session V).NothingPending := by
    intro c hc d hd
    exact (DeltaAppender.pending_of_tmpRows_eq hc).trans (hnil d hd)
  dsimp only
  unfold Session.runStmt
  rcases Conn.step_cases env s.conn (op.stmt env ws) with hstep | ⟨st, hst, hstep⟩
  · simp only [Conn.exec, hstep]
    exact of_nothingPending hb (hpending _ rfl) hpk htab h.keys
  · simp only [Conn.exec, hstep]
    have hop : s.store.tables op.table = spec op.table := htab op.table
    have hst' : st = s.store.setTable op.table (op.effect env (s.store.tables op.table)) :=
      RowOp.Valid.eval_stmt (by rw [hop]; exact hvalid) (by rw [hop]; exact h.keys op.table) hst
    have hstore : (s.conn.after (op.stmt env ws) st).store = st := Conn.store_after _ _ _
    refine of_nothingPending hb (hpending _ (by rw [hstore, hst']; rfl)) hpk (fun t => ?_)
      (hvalid.uniqueKeys_apply h.keys)
    show (s.conn.after (op.stmt env ws) st).store.tables t = op.apply env spec t
    rw [hstore, hst', Store.tables_setTable, RowOp.apply, hop]
    by_cases ht : t = op.table
    · subst ht
      rw [Function.update_self, Function.update_self]
    · rw [Function.update_of_ne ht, Function.update_of_ne ht, htab]

end Refines

/-! ### One row operation -/

/-- The states before and after an append that fails. -/
def fallsBack (env : Env V) (s : Session V) (op : RowOp V) : Option (Session V × Session V) :=
  match s.duckdbRegisterTrx env with
  | (true, _) => none
  | (false, s) =>
      match s.getBatchState env op.insertOnly with
      | (true, _) => none
      | (false, s) =>
          if s.batchState = .notInBatch then none
          else
            match s.appendOp env op with
            | (false, _) => none
            | (true, s') => some (s, s')

/-- The operation does not fall back to SQL unless nothing is pending, neither before the
append that fails nor after it. -/
def Calm (env : Env V) (s : Session V) (op : RowOp V) : Prop :=
  ∀ p, s.fallsBack env op = some p → p.1.NothingPending ∧ p.2.NothingPending

lemma calm_of_isNone {op : RowOp V} (h : (s.fallsBack env op).isNone = true) : s.Calm env op := by
  intro p hp
  simp [hp] at h

/-- What is planned for a valid and calm operation: when it is to be executed as SQL,
nothing is pending. -/
lemma Refines.rowOp (h : Refines env s spec) {op : RowOp V}
    (hvalid : op.Valid env (s.writeSet op.table) (spec op.table)) (hcalm : s.Calm env op) :
    Refines env (s.rowOp env op).2
        (if (s.rowOp env op).1 = none then op.apply env spec else spec) ∧
      ∀ q s', s.planRow env op = .sql q s' → s'.NothingPending := by
  unfold Session.rowOp
  rcases planRow_cases env s op with ⟨e, s', hplan, hr⟩ | ⟨s₁, hreg, hplan⟩ <;> rw [hplan]
  · exact ⟨h.registers hr, by simp⟩
  obtain ⟨hr, -⟩ := duckdbRegisterTrx_ok hreg
  have h₁ := h.registers hr
  have hws₁ : s₁.writeSet = s.writeSet := by rw [hr.rest_eq]
  rcases batchPlan_cases env s₁ op with ⟨s₂, hget, hplan⟩ | ⟨s₂, hget, hrest⟩
  · rw [hplan]
    obtain ⟨hb, hflush⟩ := getBatchState_err hget
    exact ⟨h₁.flush_err hb hflush, by simp⟩
  obtain ⟨h₂, hne⟩ := h₁.getBatchState_ok hget
  have hws₂ : s₂.writeSet = s.writeSet := by
    obtain ⟨s₃, hs₃, hs₂⟩ := Session.getBatchState_ok hget
    have hws₃ : s₃.writeSet = s₁.writeSet := by
      rcases hs₃ with ⟨rfl, -⟩ | hflush
      · rfl
      · rw [(flushAppenders_ok hflush).1]
    rw [← hws₁, ← hws₃]
    rcases hs₂ with ⟨-, rfl⟩ | ⟨-, rfl⟩ <;> rfl
  rcases hrest with ⟨hb, hplan⟩ | ⟨hb, ⟨s₃, happ, hplan⟩ | ⟨s₃, happ, hplan⟩⟩ <;> rw [hplan]
  · -- outside a batch
    obtain ⟨ws, hws⟩ := op.direct_state env s₂
    have h₃ : Refines env (op.direct env s₂).2 spec := by
      rw [hws]
      exact ⟨⟨h₂.undefined, h₂.insertOnly, h₂.mixed, h₂.buffers, h₂.notInBatch, h₂.wf⟩,
        h₂.contents_eq, h₂.keys⟩
    have hb₃ : (op.direct env s₂).2.batchState = .notInBatch := by
      rw [hws]
      exact hb
    have hvalid₃ : op.Valid env ((op.direct env s₂).2.writeSet op.table) (spec op.table) := by
      refine RowOp.Valid.direct ?_
      rw [hws₂]
      exact hvalid
    refine ⟨?_, ?_⟩
    · rw [op.direct_eq_stmt]
      exact h₃.runStmt hb₃ hvalid₃ .dmlError
    · rintro q s' ⟨⟩
      exact h₃.notInBatch hb₃
  · -- buffered
    exact ⟨h₂.appendOp_ok hne hb hvalid happ, by simp⟩
  · -- the append failed
    have hfalls : s.fallsBack env op = some (s₂, s₃) := by
      simp only [fallsBack, hreg, hget, if_neg hb, happ]
    obtain ⟨hnil, hnil'⟩ := hcalm _ hfalls
    have h₃ := h₂.appendOp_err hne hb hnil hnil' happ
    have hws₃ : s₃.writeSet = s.writeSet := by
      rw [← hws₂]
      rcases appendOp_cases happ with ⟨d, ds, c, d', c', -, -, rfl⟩ | ⟨-, ds, c, -, rfl⟩ <;> rfl
    refine ⟨?_, ?_⟩
    · rw [op.fallback_eq_stmt]
      refine h₃.runStmt rfl ?_ .dmlError
      show op.Valid env (s₃.writeSet op.table) (spec op.table)
      rw [hws₃]
      exact hvalid
    · rintro q s' ⟨⟩
      exact hnil'

end Session

end DuckdbEngine
