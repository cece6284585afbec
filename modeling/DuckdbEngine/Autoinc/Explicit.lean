/-
Rows with generated and with explicit ids in one table.

`ha_duckdb::write_row` lets the server fill in the AUTO_INCREMENT column of a row that
has no id, from a block that `get_auto_increment` has returned.  A row that comes with an
id is written as it is: neither the sequence nor the cached block learns of it.  So a
generated id is new to the table as long as the explicit ones are ids that cannot be
generated any more (`generated_ids_are_new`), and it is a duplicate when the sequence
reaches an explicit id (`explicit_id_is_generated_again`).
-/
import DuckdbEngine.Autoinc.Disjoint

namespace DuckdbEngine.Autoinc

open IdBlocks

/-! ### The table -/

/-- A table with an AUTO_INCREMENT column: the ids MariaDB has written to it and those of
them that were generated. -/
structure Table where
  auto : State
  written : List ℕ
  used : List ℕ

inductive Event where
  /-- A step of the id machinery, in a session or in DuckDB. -/
  | engine (a : Action)
  /-- `write_row` of a row without an id, for which the server takes `id`. -/
  | writeGenerated (id : ℕ)
  /-- `write_row` of a row to which the client has given an id. -/
  | writeExplicit (id : ℕ)

namespace Table

def init (start : ℕ) : Table := ⟨State.init start, [], []⟩

/-- The ids of the rows in the table.  A DuckDB-side writer draws an id for a row it
inserts. -/
def rowIds (x : Table) : List ℕ := x.written ++ x.auto.foreign

/-- The server can take `id` for a row: a call has returned it, and no row has had it.
Which of the ids of a block it takes is up to the server, by its offset and increment. -/
def Available (x : Table) (id : ℕ) : Prop :=
  (∃ b ∈ x.auto.returned, id ∈ b.ids) ∧ id ∉ x.used

instance (x : Table) (id : ℕ) : Decidable (x.Available id) :=
  inferInstanceAs (Decidable ((∃ b ∈ x.auto.returned, id ∈ b.ids) ∧ id ∉ x.used))

def step (x : Table) : Event → Table
  | .engine a => { x with auto := x.auto.step a }
  | .writeGenerated id =>
      if x.Available id then { x with written := id :: x.written, used := id :: x.used } else x
  -- no part of `get_auto_increment` hears of the explicit id
  | .writeExplicit id => { x with written := id :: x.written }

end Table

/-! ### The ids that can still be generated -/

/-- The ids that are still to be returned: those ahead of the sequence, in the cached
block, or with a session that refills it. -/
def State.pending (s : State) : Set ℕ :=
  {v | s.seq ≤ v ∨ (s.range.next ≤ v ∧ v < s.range.stop) ∨ ∃ t, v ∈ (s.pc t).held}

def State.returnedIds (s : State) : Set ℕ := {v | ∃ b ∈ s.returned, v ∈ b.ids}

/-- A row of the table may still be given this id. -/
def Table.Obtainable (x : Table) (id : ℕ) : Prop := id ∈ x.auto.pending ∨ x.Available id

lemma State.held_subset_pending (s : State) (t : ℕ) : (s.pc t).held ⊆ s.pending :=
  fun _ hv => .inr (.inr ⟨t, hv⟩)

/-- A session goes on to `p` with ids that were pending. -/
lemma held_setPc_subset {s : State} {t : ℕ} {p : Pc} (hp : p.held ⊆ s.pending) (u : ℕ) :
    ((s.setPc t p).pc u).held ⊆ s.pending := by
  by_cases hu : u = t
  · subst hu
    simpa [State.setPc] using hp
  · simpa [State.setPc, hu] using s.held_subset_pending u

/-- No step brings an id back that could not be returned any more. -/
lemma Step.pending_subset {owner : ℕ → Option Owner} {s s' : State} (h : Inv owner s)
    (hstep : Step s s') : s'.pending ⊆ s.pending := by
  cases hstep with
  | @move t p m hm =>
      obtain ⟨-, hheld⟩ := hm.ok h.range (h.pc t)
      rintro v (hseq | hcached | ⟨u, hu⟩)
      · exact .inl hseq
      · exact .inr (.inl hcached)
      · exact held_setPc_subset (hheld.trans (s.held_subset_pending t)) u hu
  | @claim t r hpc hleft =>
      obtain ⟨hnext, hstop⟩ := h.range
      rw [h.range.left_eq] at hleft
      rw [uadd_eq (by omega)]
      rintro v (hseq | ⟨hlo, hhi⟩ | ⟨u, hu⟩)
      · exact .inl hseq
      · exact .inr (.inl ⟨(Nat.le_add_right _ _).trans hlo, hhi⟩)
      · exact held_setPc_subset (Set.empty_subset _) u hu
  | @draw t w r want attempt drawn hpc hw =>
      -- the value drawn was ahead of the sequence, the others were drawn before
      have hsub : (Pc.reserving r want attempt (drawn ++ [w])).held ⊆ s.pending := by
        intro v hv
        rcases List.mem_append.1 hv with hv | hv
        · refine s.held_subset_pending t ?_
          rw [hpc]
          exact hv
        · rw [List.mem_singleton.1 hv]
          exact .inl hw.1
      rintro v (hseq | hcached | ⟨u, hu⟩)
      · exact .inl (hw.1.trans ((Nat.le_succ w).trans hseq))
      · exact .inr (.inl hcached)
      · exact held_setPc_subset hsub u hu
  | @store t r want first hpc =>
      obtain ⟨-, hneed, hlimit⟩ := h.ok_of_pc hpc
      -- both the new range and the session's share are parts of the block it has
      have hblock : Set.Ico first (first + want) ⊆ s.pending := by
        intro v hv
        refine s.held_subset_pending t ?_
        rw [hpc]
        exact hv
      have hshare : (Pc.published r first).held ⊆ s.pending :=
        (Set.Ico_subset_Ico_right (by omega)).trans hblock
      rw [uadd_eq (show first + r.need ≤ int64Limit by omega), uadd_eq hlimit]
      rintro v (hseq | ⟨hlo, hhi⟩ | ⟨u, hu⟩)
      · exact .inl hseq
      · exact hblock ⟨(Nat.le_add_right _ _).trans hlo, hhi⟩
      · exact held_setPc_subset hshare u hu
  | @publish t r first hpc =>
      rintro v (hseq | hcached | ⟨u, hu⟩)
      · exact .inl hseq
      · exact .inr (.inl hcached)
      · exact held_setPc_subset (Set.empty_subset _) u hu
  | @foreign w hw =>
      rintro v (hseq | hcached | hheld)
      · exact .inl (hw.1.trans ((Nat.le_succ w).trans hseq))
      · exact .inr (.inl hcached)
      · exact .inr (.inr hheld)

/-- The ids a step returns were pending. -/
lemma Step.returnedIds_subset {owner : ℕ → Option Owner} {s s' : State} (h : Inv owner s)
    (hstep : Step s s') : s'.returnedIds ⊆ s.returnedIds ∪ s.pending := by
  have concat : ∀ {b : Block}, b.ids ⊆ s.pending →
      {v | ∃ b' ∈ s.returned ++ [b], v ∈ b'.ids} ⊆ s.returnedIds ∪ s.pending := by
    rintro b hb v ⟨b', hmem, hv⟩
    rcases List.mem_append.1 hmem with hmem | hmem
    · exact .inl ⟨b', hmem, hv⟩
    · cases List.mem_singleton.1 hmem
      exact .inr (hb hv)
  cases hstep with
  | move | draw | store | foreign => exact Set.subset_union_left
  | @claim t r hpc hleft =>
      obtain ⟨hr, -⟩ := h.ok_of_pc hpc
      have hnext := h.range.1
      rw [h.range.left_eq] at hleft
      refine concat ?_
      rw [hr.ids_eq]
      rintro v ⟨hlo, hhi⟩
      exact .inr (.inl ⟨hlo, by omega⟩)
  | @publish t r first hpc =>
      have hr : r.Ok := h.ok_of_pc hpc
      refine concat ?_
      rw [hr.ids_eq]
      intro v hv
      refine s.held_subset_pending t ?_
      rw [hpc]
      exact hv

namespace Inv

variable {owner : ℕ → Option Owner} {s : State} {v : ℕ}

/-- An id with an owner other than the engine cannot be returned any more. -/
lemma not_pending (h : Inv owner s) {w : Owner} (hw : owner v = some w)
    (hcached : w ≠ .cached) (hsession : ∀ t, w ≠ .session t) : v ∉ s.pending := by
  rintro (hseq | hv | ⟨t, hv⟩)
  · rw [h.fresh v hseq] at hw
    cases hw
  · exact hcached (Option.some.inj (hw.symm.trans (h.cached v hv)))
  · exact hsession t (Option.some.inj (hw.symm.trans (h.held t v hv)))

lemma not_pending_of_returned (h : Inv owner s) (hv : v ∈ s.returnedIds) : v ∉ s.pending := by
  obtain ⟨b, hb, hvb⟩ := hv
  obtain ⟨i, hi⟩ := List.mem_iff_getElem?.1 hb
  exact h.not_pending (h.returned i b hi v hvb) nofun nofun

lemma not_returned_of_foreign (h : Inv owner s) (hv : v ∈ s.foreign) : v ∉ s.returnedIds := by
  rintro ⟨b, hb, hvb⟩
  obtain ⟨i, hi⟩ := List.mem_iff_getElem?.1 hb
  cases (h.foreign v hv).symm.trans (h.returned i b hi v hvb)

end Inv

/-! ### Generated ids are new to the table -/

namespace Table

/-- No written id can come out of the generator again. -/
structure Apart (x : Table) : Prop where
  owners : ∃ owner, Inv owner x.auto
  written : ∀ id ∈ x.written, ¬ x.Obtainable id

/-- The explicit ids are ones that cannot be generated any more. -/
def ExplicitSpent (x : Table) : Event → Prop
  | .writeExplicit id => ¬ x.Obtainable id
  | _ => True

/-- An id that is generated is the id of no row in the table. -/
def GeneratedNew (x : Table) : Event → Prop
  | .writeGenerated id => x.Available id → id ∉ x.rowIds
  | _ => True

lemma apart_init (start : ℕ) : (init start).Apart :=
  ⟨⟨_, inv_init start⟩, by simp [init]⟩

lemma obtainable_of_engine {x : Table} {owner : ℕ → Option Owner} (h : Inv owner x.auto)
    {a : Action} {id : ℕ} (hid : (x.step (.engine a)).Obtainable id) : x.Obtainable id := by
  rcases x.auto.step_cases a with heq | hstep
  · have hx : x.step (.engine a) = x := by
      show { x with auto := x.auto.step a } = x
      rw [heq]
    rwa [hx] at hid
  · rcases hid with hid | ⟨hid, hused⟩
    · exact .inl (hstep.pending_subset h hid)
    · rcases hstep.returnedIds_subset h hid with hid | hid
      · exact .inr ⟨hid, hused⟩
      · exact .inl hid

lemma Apart.step {x : Table} (h : x.Apart) {e : Event} (he : x.ExplicitSpent e) :
    (x.step e).Apart := by
  obtain ⟨⟨owner, hinv⟩, hwritten⟩ := h
  cases e with
  | engine a =>
      exact ⟨x.auto.inv_step a ⟨owner, hinv⟩,
        fun id hid hob => hwritten id hid (obtainable_of_engine hinv hob)⟩
  | writeGenerated id =>
      by_cases hav : x.Available id
      · simp only [Table.step, if_pos hav]
        refine ⟨⟨owner, hinv⟩, ?_⟩
        rintro id' hid' (hpending | ⟨hret, hused⟩)
        · rcases List.mem_cons.1 hid' with rfl | hid'
          · exact hinv.not_pending_of_returned hav.1 hpending
          · exact hwritten id' hid' (.inl hpending)
        · obtain ⟨hne, hused⟩ := not_or.1 (mt List.mem_cons.2 hused)
          rcases List.mem_cons.1 hid' with rfl | hid'
          · exact hne rfl
          · exact hwritten id' hid' (.inr ⟨hret, hused⟩)
      · simp only [Table.step, if_neg hav]
        exact ⟨⟨owner, hinv⟩, hwritten⟩
  | writeExplicit id =>
      refine ⟨⟨owner, hinv⟩, ?_⟩
      intro id' hid'
      rcases List.mem_cons.1 hid' with rfl | hid'
      · exact he
      · exact hwritten id' hid'

lemma Apart.generatedNew {x : Table} (h : x.Apart) (e : Event) : x.GeneratedNew e := by
  obtain ⟨⟨owner, hinv⟩, hwritten⟩ := h
  cases e with
  | engine | writeExplicit => trivial
  | writeGenerated id =>
      intro hav hmem
      rcases List.mem_append.1 hmem with hmem | hmem
      · exact hwritten id hmem (.inr hav)
      · exact hinv.not_returned_of_foreign hmem hav.1

/-- In a history whose explicit ids cannot be generated any more when they are written,
no generated id is the id of a row in the table. -/
theorem generated_ids_are_new (start : ℕ) (es : List Event)
    (h : StepRun.Along step ExplicitSpent (init start) es) :
    StepRun.Along step GeneratedNew (init start) es :=
  StepRun.along_of_inv (I := Apart) (fun _ _ hx he => hx.step he)
    (fun _ e hx _ => hx.generatedNew e) (apart_init start) h

/-- One session gets one id, with a cache of one. -/
def drawOne (v : ℕ) : List Event :=
  [.engine (.call 0 ⟨1, 1⟩), .engine (.load 0), .engine (.claim 0 false), .engine (.lock 0),
    .engine (.reload 0 1), .engine (.draw 0 v), .engine (.finish 0 false), .engine (.store 0),
    .engine (.unlock 0)]

/-- A client copies the id of a row that a DuckDB-side writer has inserted; the next
generated id is new. -/
theorem generated_ids_are_new_of_spent_id :
    StepRun.Along step ExplicitSpent (init 1)
        ([.engine (.foreign 1), .writeExplicit 1] ++ drawOne 2 ++ [.writeGenerated 2]) ∧
      (StepRun.run step (init 1) ([.engine (.foreign 1), .writeExplicit 1] ++ drawOne 2
        ++ [.writeGenerated 2])).written = [2, 1] ∧
      StepRun.Along step GeneratedNew (init 1)
        ([.engine (.foreign 1), .writeExplicit 1] ++ drawOne 2 ++ [.writeGenerated 2]) := by
  refine ⟨?hspent, by decide +kernel, generated_ids_are_new 1 _ ?hspent⟩
  refine ⟨trivial, ?_, ?_⟩
  · rintro ((hseq | hcached | ⟨t, ht⟩) | ⟨⟨b, hb, -⟩, -⟩)
    · exact absurd hseq (by decide)
    · exact absurd hcached (by decide)
    · exact ht
    · cases hb
  · simp [StepRun.Along, drawOne, ExplicitSpent]

/-- The client writes the id 1 to an empty table, and the first generated id is 1. -/
theorem explicit_id_is_generated_again :
    ¬ StepRun.Along step GeneratedNew (init 1)
        ([.writeExplicit 1] ++ drawOne 1 ++ [.writeGenerated 1]) ∧
      (StepRun.run step (init 1)
        ([.writeExplicit 1] ++ drawOne 1 ++ [.writeGenerated 1])).rowIds = [1, 1] := by
  refine ⟨fun h => ?_, by decide⟩
  have hnew := ((StepRun.along_append step GeneratedNew _ _ _).1 h).2.1
  exact hnew (by decide) (by decide)

end Table

end DuckdbEngine.Autoinc
