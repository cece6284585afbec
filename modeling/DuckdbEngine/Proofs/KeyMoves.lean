/-
An UPDATE that moves rows to other keys.

When a statement updates the key of several rows, the server hands them over one by one and
the mixed batch records each as a marker of the old key and the new row.  A new key may be
the old key of a row that is updated later: its marker is then newer than the row that
was moved there, and the merge keeps neither.  `key_moves_iff` says that the flush
carries out the statement exactly when this does not happen.
-/
import DuckdbEngine.Proofs.RowSpec
import DuckdbEngine.Proofs.Refinement

namespace DuckdbEngine

variable {V : Type} [DecidableEq V] {env : Env V}

namespace Plan

omit [DecidableEq V] in
/-- The row has been buffered. -/
def isBuffered : Plan V → Bool
  | .buffered _ => true
  | _ => false

omit [DecidableEq V] in
lemma exists_of_isBuffered {p : Plan V} (h : p.isBuffered = true) : ∃ s, p = .buffered s := by
  cases p with
  | buffered s => exact ⟨s, rfl⟩
  | _ => cases h

end Plan

namespace Session

variable {s s' : Session V} {t : TableName} {pk : List ℕ} {b : Multiset (Row V)}

/-- The batch of the table `t`, if there is one, is a mixed batch, and the table stands for
the contents `b`. -/
structure MixedTable (env : Env V) (t : TableName) (b : Multiset (Row V)) (s : Session V) :
    Prop where
  mixed : ∀ d ∈ s.appenders.items, d.name = t → d.useTmpTable = true ∧ d.MixedWf env s.store
  contents_eq : s.contents t = b

namespace MixedTable

lemma of_find_none (h : s.appenders.find t = none) : MixedTable env t (s.store.tables t) s := by
  have hne := KeyedList.find_eq_none.1 h
  exact ⟨fun d hd hname => absurd hname (hne d hd), contents_of_forall_ne hne⟩

lemma registers (h : MixedTable env t b s) (hr : Registers s s') : MixedTable env t b s' := by
  have hst : s'.store = s.store := hr.store_eq
  have happ : s'.appenders = s.appenders := by rw [hr.rest_eq]
  refine ⟨?_, ?_⟩
  · rw [happ, hst]
    exact h.mixed
  · rw [contents, happ, hst]
    exact h.contents_eq

/-- The flush turns the contents that the table stands for into its contents. -/
lemma tables_of_flush (h : MixedTable env t b s) (hflush : s.flushAppenders env = (false, s')) :
    s'.store.tables t = b := by
  rw [flushAppenders_flushed hflush, ← h.contents_eq, flushed, contents]
  cases hfind : s.appenders.find t with
  | none => rfl
  | some d =>
      obtain ⟨hd, rfl⟩ := KeyedList.find_eq_some.1 hfind
      obtain ⟨htmp, hwf⟩ := h.mixed d hd rfl
      exact hwf.merged_eq htmp

lemma getBatchState (h : MixedTable env t b s) {insertOnly : Bool}
    (hget : s.getBatchState env insertOnly = (false, s')) : MixedTable env t b s' := by
  obtain ⟨s₁, hs₁, hs'⟩ := getBatchState_ok hget
  have h₁ : MixedTable env t b s₁ := by
    rcases hs₁ with ⟨rfl, -⟩ | hflush
    · exact h
    · have hnone : s₁.appenders.find t = none := by
        rw [(flushAppenders_ok hflush).1]
        rfl
      rw [← h.tables_of_flush hflush]
      exact of_find_none hnone
  rcases hs' with ⟨-, rfl⟩ | ⟨-, rfl⟩
  · exact ⟨h₁.mixed, h₁.contents_eq⟩
  · exact h₁

/-- Opening an appender of the table. -/
lemma getAppender (h : MixedTable env t b s) (hpk : (env.table t).primaryKey = some pk)
    {d : DeltaAppender V} {ds : DeltaAppenders V} {c : Conn V}
    (hget : s.appenders.getAppender env t false s.conn = (some d, ds, c)) :
    d.name = t ∧ d.pkList = pk ∧ d.useTmpTable = true ∧ d.MixedWf env c.store ∧
      d.contents c.store = b := by
  rcases DeltaAppenders.getAppender_cases env s.appenders t false s.conn with
    ⟨d₁, hfind, heq⟩ | ⟨d₁, c₁, hfind, heq, hnew, hq, hrows, hready, -⟩ | ⟨c₁, -, heq, -⟩ <;>
    rw [heq] at hget <;> cases hget
  · obtain ⟨hd, rfl⟩ := KeyedList.find_eq_some.1 hfind
    obtain ⟨htmp, hwf⟩ := h.mixed d hd rfl
    refine ⟨rfl, ?_, htmp, hwf, ?_⟩
    · exact Option.some.inj (hwf.pk_eq.symm.trans hpk)
    · rw [← h.contents_eq, contents_of_mem hd]
      rfl
  · have htmp : d.useTmpTable = true := hnew.useTmpTable_eq
    have hpending : d.pending c.store = [] := by
      rw [DeltaAppender.pending_of_tmp htmp, hnew.buffer_eq, hrows, (hready htmp).2.2]
      rfl
    have hpkd : (env.table t).primaryKey = some d.pkList := hnew.pkList_eq rfl
    refine ⟨hnew.name_eq, Option.some.inj (hpkd.symm.trans hpk), htmp, ?_, ?_⟩
    · refine DeltaAppender.MixedWf.of_pending_nil ?_ hpending
      rw [hnew.name_eq]
      exact hpkd
    · rw [DeltaAppender.contents_of_pending_nil hpending, hnew.name_eq, hq.tables_eq,
        ← h.contents_eq, contents_of_forall_ne (KeyedList.find_eq_none.1 hfind)]
      rfl

/-- An update that is buffered deletes the old key and puts the new row. -/
lemma update (h : MixedTable env t b s) (hpk : (env.table t).primaryKey = some pk)
    {old r : Record V} (hplan : s.planRow env (.update t old r) = .buffered s') :
    MixedTable env t
      (KeyedLog.apply (keyOf pk)
        (KeyedLog.apply (keyOf pk) b (.del (keyOf pk ((env.table t).rowOf old))))
        (.put ((env.table t).rowOf r))) s' := by
  rcases planRow_cases env s (.update t old r) with ⟨e, s₁, heq, -⟩ | ⟨s₁, hreg, heq⟩ <;>
    rw [hplan] at heq
  · cases heq
  have h₁ := h.registers (duckdbRegisterTrx_ok hreg).1
  rcases batchPlan_cases env s₁ (.update t old r) with
    ⟨s₂, -, hplan'⟩ | ⟨s₂, hget, ⟨-, hplan'⟩ | ⟨-, ⟨s₃, happ, hplan'⟩ | ⟨s₃, -, hplan'⟩⟩⟩ <;>
    rw [hplan'] at heq <;> cases heq
  have h₂ := h₁.getBatchState hget
  have hkind : decide (s₂.batchState = .inInsertOnlyBatch) = false := by
    simpa using batchState_ne_of_getBatchState hget
  rcases appendOp_cases happ with ⟨d, ds, c, d', c', hopen, hop, rfl⟩ | ⟨hfalse, -⟩
  · rw [hkind] at hopen
    obtain ⟨hname, rfl, htmp, hwf, hcontents⟩ := h₂.getAppender hpk hopen
    obtain ⟨rows, hw, -⟩ := RowOp.append_wrote hop
    obtain ⟨hwf', hcontents'⟩ := hwf.appendRowUpdate hop
    have hname' : d'.name = t := hw.name_eq.trans hname
    have hmem : d' ∈ (ds.set d').items := (KeyedList.mem_put _).2 (Or.inl rfl)
    refine ⟨fun e he hen => ?_, ?_⟩
    · obtain rfl : e = d' := (ds.set d').eq_of_key_eq he hmem (hen.trans hname'.symm)
      exact ⟨hw.useTmpTable_eq.trans htmp, hwf'⟩
    · rw [hcontents, hname] at hcontents'
      rw [← hcontents', ← hname']
      exact contents_of_mem hmem
  · cases hfalse

end MixedTable

/-! ### A statement that updates several rows -/

omit [DecidableEq V] in
/-- The calls that hand over the old and the new rows. -/
def updateCalls (t : TableName) (ups : List (Record V × Record V)) : List (Op V) :=
  ups.map fun u => .row (.update t u.1 u.2)

omit [DecidableEq V] in
/-- The old and the new rows of a list of updates. -/
def moves (env : Env V) (t : TableName) (ups : List (Record V × Record V)) :
    List (Row V × Row V) :=
  ups.map fun u => ((env.table t).rowOf u.1, (env.table t).rowOf u.2)

/-- The call hands a row to an appender, which takes it. -/
def Buffered (env : Env V) (s : Session V) : Op V → Prop
  | .row op => (s.planRow env op).isBuffered = true
  | _ => False

lemma MixedTable.run (h : MixedTable env t b s) (hpk : (env.table t).primaryKey = some pk)
    {ups : List (Record V × Record V)}
    (hbuf : StepRun.Along (step env) (Buffered env) s (updateCalls t ups)) :
    MixedTable env t (KeyedLog.replay (keyOf pk) b (KeyedLog.moveLog (keyOf pk) (moves env t ups)))
      (s.run env (updateCalls t ups)) := by
  induction ups generalizing s b with
  | nil => exact h
  | cons u ups ih =>
      obtain ⟨hu, hrest⟩ := hbuf
      obtain ⟨s', hplan⟩ := Plan.exists_of_isBuffered hu
      have hstep : s.step env (.row (.update t u.1 u.2)) = s' := by
        simp only [step, call, rowOp, hplan, carryOut]
      rw [hstep] at hrest
      have hrun : s.run env (updateCalls t (u :: ups)) = s'.run env (updateCalls t ups) := by
        rw [← hstep]
        rfl
      rw [hrun]
      exact ih (h.update hpk hplan) hrest

end Session

/-- With unique keys, removing rows from a bag is dropping the keys of those rows. -/
lemma sub_map_fst_eq_filter {pk : List ℕ} {b : Multiset (Row V)} {ms : List (Row V × Row V)}
    (hb : (b.map (keyOf pk)).Nodup) (hold : ∀ m ∈ ms, m.1 ∈ b) :
    b - (ms.map Prod.fst : List (Row V))
      = b.filter fun x => ∀ m ∈ ms, keyOf pk m.1 ≠ keyOf pk x := by
  have hnodup : b.Nodup := Multiset.Nodup.of_map (keyOf pk) hb
  refine ((Multiset.nodup_of_le (Multiset.sub_le_self _ _) hnodup).ext (hnodup.filter _)).2 fun x => ?_
  rw [Multiset.mem_sub_of_nodup hnodup, Multiset.mem_filter]
  refine and_congr_right fun hx => ⟨fun hnot m hm hk => hnot ?_, fun hne hmem => ?_⟩
  · have hmx : m.1 = x := Multiset.inj_on_of_nodup_map hb m.1 (hold m hm) x hx hk
    rw [← hmx]
    exact Multiset.mem_coe.2 (List.mem_map_of_mem hm)
  · obtain ⟨m, hm, hmx⟩ := List.mem_map.1 (Multiset.mem_coe.1 hmem)
    exact hne m hm (by rw [hmx])

open Session in
/-- Rows of a table with a primary key are updated in a batch, in any order; the new keys
are distinct and none of them belongs to a row that is not updated.  The flush leaves the
table without the old rows and with the new ones exactly when no row is moved to the old
key of a row that is updated later. -/
theorem key_moves_iff (env : Env V) {t : TableName} {pk : List ℕ}
    (hpk : (env.table t).primaryKey = some pk) {s s' : Session V}
    (hnone : s.appenders.find t = none) (hkeys : ((s.store.tables t).map (keyOf pk)).Nodup)
    {ups : List (Record V × Record V)} (hold : ∀ m ∈ moves env t ups, m.1 ∈ s.store.tables t)
    (hnew : ((moves env t ups).map fun m => keyOf pk m.2).Nodup)
    (hfree : ∀ m ∈ moves env t ups, ∀ x ∈ s.store.tables t, keyOf pk x = keyOf pk m.2 →
      ∃ m' ∈ moves env t ups, m'.1 = x)
    (hbuf : StepRun.Along (step env) (Buffered env) s (updateCalls t ups))
    (hflush : (s.run env (updateCalls t ups)).flushAppenders env = (false, s')) :
    s'.store.tables t = s.store.tables t - ((moves env t ups).map Prod.fst : List (Row V))
        + ((moves env t ups).map Prod.snd : List (Row V)) ↔
      (moves env t ups).Pairwise fun m m' => keyOf pk m.2 ≠ keyOf pk m'.1 := by
  have hend := ((MixedTable.of_find_none hnone).run hpk hbuf).tables_of_flush hflush
  rw [hend, sub_map_fst_eq_filter hkeys hold]
  refine KeyedLog.replay_moves_eq_iff (keyOf pk) hnew fun m hm x hx hk => ?_
  obtain ⟨m', hm', rfl⟩ := hfree m hm x hx hk
  exact ⟨m', hm', rfl⟩

/-- Two rows are moved up by one, the last one first. -/
theorem key_moves_of_descending_order :
    let env : Env ℕ := .reliable fun _ => .keyed 1
    let t : TableName := ⟨['a'], ['t']⟩
    let row (k v : ℕ) : Record ℕ := fun i => ⟨false, if i = 0 then k else v⟩
    let s : Session ℕ :=
      .start (.ofTables fun _ => {[some 1, some 10], [some 2, some 20]}) true
    let ups := [(row 2 20, row 3 20), (row 1 10, row 2 10)]
    ∃ s', (s.run env (Session.updateCalls t ups)).flushAppenders env = (false, s') ∧
      s'.store.tables t
        = s.store.tables t - ((Session.moves env t ups).map Prod.fst : List (Row ℕ))
          + ((Session.moves env t ups).map Prod.snd : List (Row ℕ)) := by
  intro env t row s ups
  have hok : ((s.run env (Session.updateCalls t ups)).flushAppenders env).1 = false := by
    decide +kernel
  have heta : ∀ r : Bool × Session ℕ, r.1 = false → r = (false, r.2) := fun r h => Prod.ext h rfl
  have hbuf : StepRun.Along (Session.step env) (Session.Buffered env) s
      (Session.updateCalls t ups) := by
    simp only [ups, Session.updateCalls, List.map_cons, List.map_nil, StepRun.along_cons,
      StepRun.along_nil, and_true, Session.Buffered]
    constructor <;> decide +kernel
  have hpk : (env.table t).primaryKey = some [0] := rfl
  refine ⟨_, heta _ hok, (key_moves_iff env hpk rfl ?_ ?_ ?_ ?_ hbuf (heta _ hok)).2 ?_⟩
  all_goals decide +kernel

/-- The same two rows, the first one first: the row that is moved to the key 2 is taken for
the one that leaves it, and is lost. -/
theorem key_move_loses_row :
    let env : Env ℕ := .reliable fun _ => .keyed 1
    let t : TableName := ⟨['a'], ['t']⟩
    let row (k v : ℕ) : Record ℕ := fun i => ⟨false, if i = 0 then k else v⟩
    let s : Session ℕ :=
      .start (.ofTables fun _ => {[some 1, some 10], [some 2, some 20]}) true
    let ups := [(row 1 10, row 2 10), (row 2 20, row 3 20)]
    let s₁ := s.run env (Session.updateCalls t ups)
    s₁.appenders.items.map (fun d => (d.name, (d.pending s₁.store).length)) = [(t, 4)] ∧
      (s₁.flushAppenders env).1 = false ∧
      (s₁.flushAppenders env).2.store.tables t = {[some 3, some 20]} ∧
      s.store.tables t - ((Session.moves env t ups).map Prod.fst : List (Row ℕ))
          + ((Session.moves env t ups).map Prod.snd : List (Row ℕ))
        = {[some 2, some 10], [some 3, some 20]} := by
  decide +kernel

end DuckdbEngine
