/-
The transaction around the row operations.

While a transaction runs the committed contents stay what they were when it began, and
every row in a buffer table belongs to an appender of the session (`TrxInv`).  When
it ends, by COMMIT, by ROLLBACK or with the session, all rows are accounted for: either
each table holds its merged rows (`flushed`), or the committed contents are those of the
beginning, and in both cases nothing is left that could be written later (`Clean`).
-/
import DuckdbEngine.Proofs.RowPlan

namespace DuckdbEngine

variable {V : Type} [DecidableEq V]

namespace Session

variable {env : Env V} {b : Store V} {s s' s'' : Session V}

omit [DecidableEq V] in
/-- Every row in a buffer table belongs to an appender. -/
def Owned (s : Session V) : Prop :=
  ∀ x, s.store.tmpRows x ≠ [] → ∃ d ∈ s.appenders.items, d.buf = some x

omit [DecidableEq V] in
/-- The session is in the transaction that began with the committed contents `b`, or has
not started it yet. -/
structure TrxInv (b : Store V) (s : Session V) : Prop where
  committed_eq : s.conn.committed = b
  active : s.appenders.items ≠ [] → s.conn.active.isSome
  owned : s.Owned

omit [DecidableEq V] in
/-- No transaction is active and no row is buffered anywhere. -/
structure Clean (s : Session V) : Prop where
  appenders_eq : s.appenders = KeyedList.empty
  batchState_eq : s.batchState = .undefined
  active_eq : s.conn.active = none
  tmpRows_eq : ∀ x, s.conn.committed.tmpRows x = []

omit [DecidableEq V] in
lemma Clean.store_eq (h : s.Clean) : s.store = s.conn.committed := by
  simp [store, Conn.store, h.active_eq]

omit [DecidableEq V] in
lemma Clean.trxInv (h : s.Clean) : TrxInv s.conn.committed s := by
  refine ⟨rfl, fun hne => ?_, fun x hx => ?_⟩
  · simp [h.appenders_eq] at hne
  · rw [h.store_eq] at hx
    exact absurd (h.tmpRows_eq x) hx

omit [DecidableEq V] in
/-- A new session on contents without buffered rows. -/
lemma clean_start (hb : ∀ x, b.tmpRows x = []) (explicitTrx : Bool) : (start b explicitTrx).Clean :=
  ⟨rfl, rfl, rfl, hb⟩

/-! ### What the steps of a row operation keep -/

omit [DecidableEq V] in
/-- From `s` to `s'` the transaction went on and no buffered row lost its owner. -/
structure Keeps (s s' : Session V) : Prop where
  inTrx : ∀ b, s.conn.InTrx b → s'.conn.InTrx b
  owned : s.Owned → s'.Owned

namespace Keeps

omit [DecidableEq V] in
lemma refl (s : Session V) : Keeps s s := ⟨fun _ h => h, fun h => h⟩

omit [DecidableEq V] in
lemma trans (h : Keeps s s') (h' : Keeps s' s'') : Keeps s s'' :=
  ⟨fun b hb => h'.inTrx b (h.inTrx b hb), fun ho => h'.owned (h.owned ho)⟩

omit [DecidableEq V] in
/-- Only the connection and the appenders matter. -/
lemma of_eq (hc : s'.conn = s.conn) (hd : s'.appenders = s.appenders) : Keeps s s' := by
  refine ⟨fun b hb => by rwa [hc], fun ho x hx => ?_⟩
  rw [store, hc] at hx
  rw [hd]
  exact ho x hx

lemma flushAppenders_ok (h : s.flushAppenders env = (false, s')) :
    Keeps s s' ∧ (s.Owned → ∀ x, s'.store.tmpRows x = []) := by
  obtain ⟨hs', c, hall, hdrops⟩ := Session.flushAppenders_ok h
  have hrows : s.Owned → ∀ x, s'.store.tmpRows x = [] := by
    intro ho x
    have hc : c.store.tmpRows x = [] := by
      by_cases hx : ∃ d ∈ s.appenders.items, d.buf = some x
      · obtain ⟨d, hd, hbuf⟩ := hx
        rw [Store.tmpRows, hall.temps_own d hd x hbuf, Option.elim_none]
      · have hsame := hall.temps_other x fun d hd hbuf => hx ⟨d, hd, hbuf⟩
        by_contra hne
        refine hx (ho x ?_)
        rwa [Store.tmpRows, hsame] at hne
    rcases hdrops.tmpRows_eq x with hx | hx
    · exact hx.trans hc
    · exact hx
  refine ⟨⟨fun b hb => hdrops.inTrx b (hall.inTrx b hb), fun ho x hx => ?_⟩, hrows⟩
  exact absurd (hrows ho x) hx

lemma flushAppenders_err (h : s.flushAppenders env = (true, s')) : Keeps s s' := by
  obtain ⟨-, hstop⟩ := Session.flushAppenders_err h
  obtain ⟨hafter, -⟩ := hstop.items_iff
  refine ⟨hstop.inTrx, fun ho x hx => ?_⟩
  have hown : ∃ d ∈ s.appenders.items, d.buf = some x := by
    by_contra hnone
    have hsame := hstop.temps_other x fun d hd hbuf => hnone ⟨d, hd, hbuf⟩
    refine hnone (ho x ?_)
    rwa [Store.tmpRows, Session.store, hsame] at hx
  obtain ⟨d, hd, hbuf⟩ := hown
  obtain ⟨d', hd', hrel, -⟩ := hafter d hd
  exact ⟨d', hd', by rw [hrel]; exact hbuf⟩

lemma getBatchState {insertOnly e : Bool} (h : s.getBatchState env insertOnly = (e, s')) :
    Keeps s s' := by
  cases e with
  | true => exact flushAppenders_err (getBatchState_err h).2
  | false =>
      obtain ⟨s₁, hs₁, hs'⟩ := getBatchState_ok h
      have hkeep : Keeps s s₁ := by
        rcases hs₁ with ⟨rfl, -⟩ | hflush
        · exact refl s₁
        · exact (flushAppenders_ok hflush).1
      rcases hs' with ⟨-, rfl⟩ | ⟨-, rfl⟩
      · exact hkeep.trans (of_eq rfl rfl)
      · exact hkeep

/-- Opening an appender creates at most an empty buffer table. -/
lemma getAppender {name : TableName} {insertOnly : Bool} {o : Option (DeltaAppender V)}
    {ds : DeltaAppenders V} {c : Conn V}
    (h : s.appenders.getAppender env name insertOnly s.conn = (o, ds, c)) :
    Keeps s { s with appenders := ds, conn := c } ∧ ∀ d, o = some d → d ∈ ds.items := by
  have hquiet : ∀ ds' : DeltaAppenders V, Conn.Quiet s.conn c →
      (∀ d ∈ s.appenders.items, d.buf ≠ none → ∃ d' ∈ ds'.items, d'.buf = d.buf) →
      Keeps s { s with appenders := ds', conn := c } := by
    intro ds' hq hbuf
    refine ⟨hq.inTrx, fun ho x hx => ?_⟩
    have hx' : s.store.tmpRows x ≠ [] := by
      rcases hq.tmpRows_eq x with heq | heq
      · intro hnil
        exact hx (heq.trans hnil)
      · exact absurd heq hx
    obtain ⟨d, hd, hdx⟩ := ho x hx'
    obtain ⟨d', hd', hbuf'⟩ := hbuf d hd (by simp [hdx])
    exact ⟨d', hd', hbuf'.trans hdx⟩
  rcases DeltaAppenders.getAppender_cases env s.appenders name insertOnly s.conn with
    ⟨d, hfind, heq⟩ | ⟨d, c', hfind, heq, hnew, hq, -⟩ | ⟨c', hfind, heq, hq⟩
  · rw [heq] at h
    cases h
    refine ⟨of_eq rfl rfl, ?_⟩
    rintro d ⟨⟩
    exact (KeyedList.find_eq_some.1 hfind).1
  · rw [heq] at h
    cases h
    refine ⟨hquiet _ hq fun e he _ => ⟨e, ?_, rfl⟩, ?_⟩
    · refine (KeyedList.mem_put _).2 (Or.inr ⟨he, ?_⟩)
      rw [hnew.name_eq]
      exact KeyedList.find_eq_none.1 hfind e he
    · rintro d ⟨⟩
      exact (KeyedList.mem_put _).2 (Or.inl rfl)
  · rw [heq] at h
    cases h
    exact ⟨hquiet _ hq fun e he _ => ⟨e, he, rfl⟩, by simp⟩

omit [DecidableEq V] in
/-- An appender that is in the map is given rows. -/
lemma wrote {d d' : DeltaAppender V} {c : Conn V} {rows : List (BufRow V)}
    (hd : d ∈ s.appenders.items) (hw : DeltaAppender.Wrote rows d d' s.conn c) :
    Keeps s { s with appenders := s.appenders.set d', conn := c } := by
  refine ⟨hw.frame.inTrx, fun ho x hx => ?_⟩
  by_cases hx' : d.buf = some x
  · exact ⟨d', (KeyedList.mem_put _).2 (Or.inl rfl), hw.buf_eq.trans hx'⟩
  · have hne : s.store.tmpRows x ≠ [] := by
      rwa [store, Conn.Frame.tmpRows_eq hw.frame hx'] at hx
    obtain ⟨e, he, hbuf⟩ := ho x hne
    refine ⟨e, (KeyedList.mem_put _).2 (Or.inr ⟨he, fun hname => hx' ?_⟩), hbuf⟩
    rw [hw.name_eq] at hname
    rw [← s.appenders.eq_of_key_eq he hd hname]
    exact hbuf

lemma appendOp {op : RowOp V} {e : Bool} (h : s.appendOp env op = (e, s')) : Keeps s s' := by
  rcases appendOp_cases h with ⟨d, ds, c, d', c', hget, hop, rfl⟩ | ⟨-, ds, c, hget, rfl⟩
  · obtain ⟨hkeep, hmem⟩ := getAppender hget
    obtain ⟨rows, hw, -⟩ := RowOp.append_wrote hop
    exact hkeep.trans (wrote (s := { s with appenders := ds, conn := c }) (hmem d rfl) hw)
  · exact (getAppender hget).1

lemma runStmt {q : Stmt V} {t : TableName} (hq : q.OnRows t) (err : HaError) :
    Keeps s (s.runStmt env q err).2 := by
  have hframe := Conn.Frame.exec env (t := t) (x := none)
    (show ∀ q' ∈ [q], q'.Within t none by simpa using hq.within) s.conn
  have hkeep : ∀ c, Conn.Frame t none s.conn c → Keeps s { s with conn := c } := by
    intro c hc
    refine ⟨hc.inTrx, fun ho x hx => ho x ?_⟩
    rwa [store, Conn.Frame.tmpRows_eq hc (by simp)] at hx
  unfold Session.runStmt
  split <;> rename_i h <;> rw [h] at hframe <;> exact hkeep _ hframe

/-- A row operation, once its transaction has started. -/
lemma batchPlan (env : Env V) (s : Session V) (op : RowOp V) :
    Keeps s (carryOut env .dmlError (s.batchPlan env op)).2 := by
  rcases batchPlan_cases env s op with
    ⟨s₁, hget, hplan⟩ | ⟨s₁, hget, ⟨-, hplan⟩ | ⟨-, ⟨s₂, happ, hplan⟩ | ⟨s₂, happ, hplan⟩⟩⟩ <;>
    rw [hplan]
  · exact getBatchState hget
  · obtain ⟨ws, hws⟩ := op.direct_state env s₁
    have hdirect : Keeps s₁ (op.direct env s₁).2 := by
      rw [hws]
      exact of_eq rfl rfl
    exact ((getBatchState hget).trans hdirect).trans (runStmt (op.direct_onRows env s₁) _)
  · exact (getBatchState hget).trans (appendOp happ)
  · have hout : Keeps s₂ { s₂ with batchState := .notInBatch } := of_eq rfl rfl
    exact (((getBatchState hget).trans (appendOp happ)).trans hout).trans
      (runStmt (op.fallback_onRows env _) _)

end Keeps

namespace TrxInv

omit [DecidableEq V] in
lemma inTrx (h : TrxInv b s) (hact : s.conn.active.isSome) : s.conn.InTrx b :=
  ⟨h.committed_eq, hact⟩

omit [DecidableEq V] in
lemma of_keeps (h : TrxInv b s) (hact : s.conn.active.isSome) (hk : Keeps s s') : TrxInv b s' := by
  have hin := hk.inTrx b (h.inTrx hact)
  exact ⟨hin.committed_eq, fun _ => hin.active_isSome, hk.owned h.owned⟩

omit [DecidableEq V] in
lemma registers (h : TrxInv b s) (hr : Registers s s') : TrxInv b s' := by
  have happ : s'.appenders = s.appenders := by rw [hr.rest_eq]
  refine ⟨hr.committed_eq.trans h.committed_eq, fun hne => ?_, fun x hx => ?_⟩
  · rw [happ] at hne
    exact hr.active (h.active hne)
  · rw [hr.store_eq] at hx
    rw [happ]
    exact h.owned x hx

lemma rowOp (env : Env V) (h : TrxInv b s) (op : RowOp V) : TrxInv b (s.rowOp env op).2 := by
  unfold Session.rowOp
  rcases planRow_cases env s op with ⟨e, s', hplan, hr⟩ | ⟨s', hreg, hplan⟩ <;> rw [hplan]
  · exact h.registers hr
  · obtain ⟨hr, hact⟩ := duckdbRegisterTrx_ok hreg
    exact (h.registers hr).of_keeps hact (Keeps.batchPlan env s' op)

end TrxInv

/-! ### The end of a transaction -/

/-- The contents of a table when its pending rows have been merged. -/
def flushed (s : Session V) (t : TableName) : Multiset (Row V) :=
  (s.appenders.find t).elim (s.store.tables t) fun d =>
    d.merged (d.pending s.store) (s.store.tables t)

lemma flushAppenders_flushed (h : s.flushAppenders env = (false, s')) (t : TableName) :
    s'.store.tables t = s.flushed t := by
  obtain ⟨-, c, hall, hdrops⟩ := Session.flushAppenders_ok h
  rw [store, hdrops.tables_eq, flushed]
  cases hfind : s.appenders.find t with
  | none => exact hall.tables_other t (KeyedList.find_eq_none.1 hfind)
  | some d =>
      obtain ⟨hd, rfl⟩ := KeyedList.find_eq_some.1 hfind
      exact hall.tables_own d hd

/-- Without appenders there is nothing to flush, and nothing can fail. -/
lemma active_of_flushAppenders_err (h : TrxInv b s) (herr : s.flushAppenders env = (true, s')) :
    s.conn.active.isSome := by
  refine h.active fun hnil => ?_
  simp [flushAppenders, hnil] at herr

/-- A rollback restores the contents of the beginning and leaves nothing behind. -/
lemma duckdbTransRollback_clean (env : Env V) (hb : ∀ x, b.tmpRows x = [])
    (hcom : s.conn.committed = b) (hact : s.appenders.items ≠ [] → s.conn.active.isSome) :
    (s.duckdbTransRollback env).conn.committed = b ∧ (s.duckdbTransRollback env).Clean := by
  have hdiscard : (s.appenders.discardAll env s.conn).committed = b := by
    by_cases hnil : s.appenders.items = []
    · simp [DeltaAppenders.discardAll, DeltaAppenders.destroyItems, hnil, hcom]
    · exact ((DeltaAppenders.discardAll_onlyDrops env s.appenders s.conn).inTrx b
        ⟨hcom, hact hnil⟩).committed_eq
  have hend : (s.duckdbTransRollback env).conn.committed = b := by
    rw [duckdbTransRollback, Conn.committed_rollbackTrx, hdiscard]
  refine ⟨hend, rfl, rfl, Conn.active_rollbackTrx _, fun x => ?_⟩
  rw [hend]
  exact hb x

/-- COMMIT for the whole transaction: if it succeeds, every table holds its merged rows; if
it fails, the committed contents are those of the beginning. -/
lemma duckdbCommit_spec (env : Env V) (hb : ∀ x, b.tmpRows x = []) (h : TrxInv b s) :
    let r := s.duckdbCommit env true
    (r.1 = false → ∀ t, r.2.conn.committed.tables t = s.flushed t) ∧
      (r.1 = true → r.2.conn.committed = b) ∧ r.2.Clean := by
  intro r
  have hr : r = s.duckdbCommit env true := rfl
  rw [duckdbCommit, if_pos (show s.acts true = true from rfl)] at hr
  rcases hflush : s.flushAppenders env with ⟨_ | _, s₁⟩
  · obtain ⟨hkeep, hrows⟩ := Keeps.flushAppenders_ok hflush
    obtain ⟨hs₁, -⟩ := Session.flushAppenders_ok hflush
    have hcom₁ : s₁.conn.committed = b := by
      by_cases hnil : s.appenders.items = []
      · simp only [flushAppenders, hnil, List.isEmpty_nil, if_true, Prod.mk.injEq, true_and]
          at hflush
        rw [← hflush]
        exact h.committed_eq
      · exact (hkeep.inTrx b (h.inTrx (h.active hnil))).committed_eq
    rcases hc : s₁.conn.commitTrx env with ⟨_ | _, c⟩
    · obtain ⟨hcom, hact⟩ := Conn.commitTrx_ok hc
      simp only [hflush, duckdbTransCommit, hc] at hr
      rw [hr]
      refine ⟨fun _ t => ?_, by simp, ?_⟩
      · rw [hcom]
        exact flushAppenders_flushed hflush t
      · refine ⟨by rw [hs₁], rfl, hact, fun x => ?_⟩
        rw [hcom]
        exact hrows h.owned x
    · have hcom := Conn.commitTrx_err hc
      simp only [hflush, duckdbTransCommit, hc] at hr
      rw [hr]
      obtain ⟨hcom', hclean⟩ := duckdbTransRollback_clean env (s := { s₁ with conn := c })
        hb (hcom.trans hcom₁) (fun hne => by rw [hs₁] at hne; simp at hne)
      exact ⟨by simp, fun _ => hcom', hclean⟩
  · have hin := (Keeps.flushAppenders_err hflush).inTrx b
      (h.inTrx (active_of_flushAppenders_err h hflush))
    simp only [hflush] at hr
    rw [hr]
    obtain ⟨hcom, hclean⟩ := duckdbTransRollback_clean env hb hin.committed_eq
      fun _ => hin.active_isSome
    exact ⟨by simp, fun _ => hcom, hclean⟩

end Session

end DuckdbEngine
