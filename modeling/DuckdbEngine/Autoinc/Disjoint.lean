/-
No id is handed out twice.

Every value that has left the sequence is with one owner at most: a DuckDB-side writer,
the cached block, a session that is refilling it, or a call that has returned it.  The
invariant `Inv` says so of every state, for some map of the owners, and each step of the
protocol only hands ids over from one owner to another.  The refill is the delicate one:
the query may have been interleaved with foreign draws, and it is the test of the span
that makes the whole block the session's own.
-/
import DuckdbEngine.Autoinc.Protocol
import DuckdbEngine.Lib.IdBlocks

namespace DuckdbEngine.Autoinc

open IdBlocks

/-! ### What a step can do -/

/-- The moves of a session that touch neither the range nor the sequence. -/
inductive Moves (s : State) : Pc → Pc → Prop
  | call {r : Request} (hfits : r.fits = true) : Moves s .idle (.loading r)
  | load {r : Request} : Moves s (.loading r) (.fast r s.range)
  | again {r : Request} {cur : Range} : Moves s (.fast r cur) (.fast r s.range)
  | wait {r : Request} {cur : Range} : Moves s (.fast r cur) (.waiting r)
  | lock {r : Request} : Moves s (.waiting r) (.locked r)
  | leave {r : Request} : Moves s (.locked r) (.leaving r s.range)
  | reserve {r : Request} {want : ℕ} (hwant : r.need ≤ want) :
      Moves s (.locked r) (.reserving r want 0 [])
  | error {r : Request} {want attempt : ℕ} {drawn : List ℕ} :
      Moves s (.reserving r want attempt drawn) .failing
  | finish {r : Request} {want attempt : ℕ} {drawn : List ℕ} (hlen : drawn.length = want) :
      Moves s (.reserving r want attempt drawn) (afterQuery r want attempt drawn)
  | resume {r : Request} {cur : Range} : Moves s (.leaving r cur) (.fast r cur)
  | fail : Moves s .failing .idle

/-- The steps of the protocol. -/
inductive Step (s : State) : State → Prop
  | move {t : ℕ} {p : Pc} (m : Option ℕ) (h : Moves s (s.pc t) p) :
      Step s { s.setPc t p with mutex := m }
  | claim {t : ℕ} {r : Request} (hpc : s.pc t = .fast r s.range)
      (hleft : r.need ≤ s.range.left) :
      Step s { s.setPc t .idle with
        range := ⟨uadd s.range.next r.need, s.range.stop⟩
        returned := s.returned ++ [⟨s.range.next, r⟩] }
  | draw {t v : ℕ} {r : Request} {want attempt : ℕ} {drawn : List ℕ}
      (hpc : s.pc t = .reserving r want attempt drawn) (hv : s.CanDraw v) :
      Step s { s.setPc t (.reserving r want attempt (drawn ++ [v])) with seq := v + 1 }
  | store {t : ℕ} {r : Request} {want first : ℕ} (hpc : s.pc t = .publishing r want first) :
      Step s { s.setPc t (.published r first) with
        range := ⟨uadd first r.need, uadd first want⟩ }
  | publish {t : ℕ} {r : Request} {first : ℕ} (hpc : s.pc t = .published r first) :
      Step s { s.setPc t .idle with mutex := none, returned := s.returned ++ [⟨first, r⟩] }
  | foreign {v : ℕ} (hv : s.CanDraw v) :
      Step s { s with foreign := v :: s.foreign, seq := v + 1 }

lemma Step.of_next {s s' : State} {a : Action} (h : s.next a = some s') :
    s' = s ∨ Step s s' := by
  have move : ∀ {t : ℕ} {p p' : Pc} (m : Option ℕ), s.pc t = p → Moves s p p' →
      Step s { s.setPc t p' with mutex := m } := by
    rintro t p p' m rfl hm
    exact .move m hm
  cases a with
  | call t r =>
      simp only [State.next] at h
      split at h
      · rename_i hidle
        split at h
        · cases h
          exact .inr (move s.mutex hidle.1 (.call ‹_›))
        · cases h
          exact .inl rfl
      · cases h
  | load t =>
      simp only [State.next] at h
      split at h
      · cases h
        exact .inr (move s.mutex ‹_› .load)
      · cases h
  | claim t spurious =>
      simp only [State.next] at h
      split at h
      · split at h
        · split at h
          · rename_i hpc hleft hcur
            obtain ⟨rfl, -⟩ := hcur
            cases h
            exact .inr (.claim hpc hleft)
          · cases h
            exact .inr (move s.mutex ‹_› .again)
        · cases h
          exact .inr (move s.mutex ‹_› .wait)
      · cases h
  | lock t =>
      simp only [State.next] at h
      split at h
      · cases h
        exact .inr (move (some t) ‹_› .lock)
      · cases h
  | reload t cacheSize =>
      simp only [State.next] at h
      split at h
      · split at h
        · cases h
          exact .inr (move s.mutex ‹_› .leave)
        · cases h
          exact .inr (move s.mutex ‹_› (.reserve (Nat.le_max_left _ _)))
      · cases h
  | draw t v =>
      simp only [State.next] at h
      split at h
      · split at h
        · rename_i hpc hv
          cases h
          exact .inr (.draw hpc hv.2)
        · cases h
      · cases h
  | finish t error =>
      simp only [State.next] at h
      split at h
      · split at h
        · cases h
          exact .inr (move s.mutex ‹_› .error)
        · split at h
          · cases h
            exact .inr (move s.mutex ‹_› (.finish ‹_›))
          · cases h
      · cases h
  | store t =>
      simp only [State.next] at h
      split at h
      · cases h
        exact .inr (.store ‹_›)
      · cases h
  | unlock t =>
      simp only [State.next] at h
      split at h
      · cases h
        exact .inr (move none ‹_› .resume)
      · cases h
        exact .inr (move none ‹_› .fail)
      · cases h
        exact .inr (.publish ‹_›)
      · cases h
  | foreign v =>
      simp only [State.next] at h
      split at h
      · cases h
        exact .inr (.foreign ‹_›)
      · cases h

lemma State.step_cases (s : State) (a : Action) : s.step a = s ∨ Step s (s.step a) := by
  unfold State.step
  cases h : s.next a with
  | none => exact .inl rfl
  | some s' => exact Step.of_next h

/-! ### The invariant -/

/-- The block has not been passed, and its ids are values of the sequence. -/
def Range.Ok (c : Range) : Prop := c.next ≤ c.stop ∧ c.stop ≤ int64Limit

/-- The product of the request is the one the code has computed. -/
def Request.Ok (r : Request) : Prop := r.need = r.nb * r.increment

lemma Request.ok_of_fits {r : Request} (h : r.fits = true) : r.Ok := by
  have hdiv : r.need / r.increment = r.nb := by simpa [Request.fits] using h
  have hle : r.nb * r.increment ≤ r.need := by
    rw [← hdiv]
    exact Nat.div_mul_le_self _ _
  exact le_antisymm (Nat.mod_le _ _) hle

/-- The ids of a block, by the width that the code has computed. -/
lemma Request.Ok.ids_eq {r : Request} (h : r.Ok) (first : ℕ) :
    Block.ids ⟨first, r⟩ = Set.Ico first (first + r.need) := by
  rw [Block.ids, show r.need = r.nb * r.increment from h]

lemma Range.Ok.left_eq {c : Range} (h : c.Ok) : c.left = c.stop - c.next := usub_eq h.1 h.2

namespace Pc

/-- The ids a session has drawn and has neither returned nor published. -/
def held : Pc → Set ℕ
  | .reserving _ _ _ drawn => {v | v ∈ drawn}
  | .publishing _ want first => Set.Ico first (first + want)
  | .published r first => Set.Ico first (first + r.need)
  | _ => ∅

/-- What the local variables of a session satisfy. -/
def Ok : Pc → Prop
  | .idle | .failing => True
  | .loading r | .waiting r | .locked r | .published r _ => r.Ok
  | .fast r cur | .leaving r cur => r.Ok ∧ cur.Ok
  | .reserving r want _ drawn =>
      r.Ok ∧ r.need ≤ want ∧ drawn.Nodup ∧ ∀ v ∈ drawn, v < int64Limit
  | .publishing r want first => r.Ok ∧ r.need ≤ want ∧ first + want ≤ int64Limit

/-- A query that has drawn `want` ids either leaves the session without a block, or the
block is made of ids it has drawn: nobody else's fit into the span. -/
lemma afterQuery_ok {r : Request} {want attempt : ℕ} {drawn : List ℕ}
    (h : (reserving r want attempt drawn).Ok) (hlen : drawn.length = want) :
    (afterQuery r want attempt drawn).Ok ∧
      (afterQuery r want attempt drawn).held ⊆ {v | v ∈ drawn} := by
  obtain ⟨hr, hneed, hnodup, hlimit⟩ := h
  unfold afterQuery
  split
  · rename_i lo hi hmin hmax
    obtain ⟨hlo, hlo_le⟩ := List.min?_eq_some_iff.1 hmin
    obtain ⟨hhi, hle_hi⟩ := List.max?_eq_some_iff.1 hmax
    have hlohi : lo ≤ hi := hlo_le hi hhi
    have hhi_lt : hi < int64Limit := hlimit hi hhi
    split
    · rename_i hspan
      rw [usub_eq hlohi hhi_lt.le, uadd_eq (by omega)] at hspan
      split
      · exact ⟨trivial, Set.empty_subset _⟩
      · refine ⟨⟨hr, hneed, by omega⟩, ?_⟩
        rintro v ⟨hv, hv'⟩
        exact mem_of_full_span hnodup hlo_le hle_hi (by omega) hv (by omega)
    · split
      · exact ⟨⟨hr, hneed, List.nodup_nil, by simp⟩, by simp [held]⟩
      · exact ⟨trivial, Set.empty_subset _⟩
  · exact ⟨trivial, Set.empty_subset _⟩

end Pc

/-- A move keeps the local variables in order and acquires no ids. -/
lemma Moves.ok {s : State} {p p' : Pc} (h : Moves s p p') (hrange : s.range.Ok) (hp : p.Ok) :
    p'.Ok ∧ p'.held ⊆ p.held := by
  cases h with
  | call hfits => exact ⟨Request.ok_of_fits hfits, subset_rfl⟩
  | load => exact ⟨⟨hp, hrange⟩, subset_rfl⟩
  | again => exact ⟨⟨hp.1, hrange⟩, subset_rfl⟩
  | wait => exact ⟨hp.1, subset_rfl⟩
  | lock => exact ⟨hp, subset_rfl⟩
  | leave => exact ⟨⟨hp, hrange⟩, subset_rfl⟩
  | reserve hwant => exact ⟨⟨hp, hwant, List.nodup_nil, by simp⟩, by simp [Pc.held]⟩
  | error => exact ⟨trivial, Set.empty_subset _⟩
  | finish hlen => exact Pc.afterQuery_ok hp hlen
  | resume => exact ⟨hp, subset_rfl⟩
  | fail => exact ⟨trivial, subset_rfl⟩

/-- Who can have an id that has left the sequence. -/
inductive Owner where
  | foreign
  | cached
  | session (t : ℕ)
  | returned (i : ℕ)

/-- The owners are as the state says, and the cached block is in order. -/
structure Inv (owner : ℕ → Option Owner) (s : State) : Prop where
  fresh : Free owner (Set.Ici s.seq)
  foreign : Owns owner .foreign {v | v ∈ s.foreign}
  cached : Owns owner .cached (Set.Ico s.range.next s.range.stop)
  held : ∀ t, Owns owner (.session t) (s.pc t).held
  returned : ∀ i b, s.returned[i]? = some b → Owns owner (.returned i) b.ids
  range : s.range.Ok
  pc : ∀ t, (s.pc t).Ok

lemma inv_init (start : ℕ) : Inv (fun _ => none) (State.init start) where
  fresh := fun _ _ => rfl
  foreign := by simp [State.init, Owns]
  cached := by simp [State.init]
  held := fun _ => owns_empty
  returned := by simp [State.init]
  range := ⟨le_rfl, Nat.zero_le _⟩
  pc := fun _ => trivial

namespace Inv

variable {owner : ℕ → Option Owner} {s : State} {t : ℕ}

lemma ok_of_pc (h : Inv owner s) {p : Pc} (hpc : s.pc t = p) : p.Ok := by
  rw [← hpc]
  exact h.pc t

lemma held_of_pc (h : Inv owner s) {p : Pc} (hpc : s.pc t = p) :
    Owns owner (.session t) p.held := by
  rw [← hpc]
  exact h.held t

/-- The blocks returned so far stay, and the new one is its call's. -/
lemma returned_concat {owner' : ℕ → Option Owner} {b : Block}
    (hold : ∀ i b', s.returned[i]? = some b' → Owns owner' (.returned i) b'.ids)
    (hnew : Owns owner' (.returned s.returned.length) b.ids) (i : ℕ) (b' : Block)
    (hb' : (s.returned ++ [b])[i]? = some b') : Owns owner' (.returned i) b'.ids := by
  rcases lt_trichotomy i s.returned.length with hi | rfl | hi
  · rw [List.getElem?_append_left hi] at hb'
    exact hold i b' hb'
  · rw [List.getElem?_concat_length] at hb'
    cases hb'
    exact hnew
  · rw [List.getElem?_eq_none (by simpa using hi)] at hb'
    cases hb'

lemma held_setPc {owner' : ℕ → Option Owner} {p : Pc}
    (hp : Owns owner' (.session t) p.held)
    (hothers : ∀ u, u ≠ t → Owns owner' (.session u) (s.pc u).held) (u : ℕ) :
    Owns owner' (.session u) ((s.setPc t p).pc u).held :=
  Function.forall_update_iff s.pc (fun u q => Owns owner' (.session u) q.held) |>.2
    ⟨hp, hothers⟩ u

lemma pc_setPc (h : Inv owner s) {p : Pc} (hp : p.Ok) (u : ℕ) : ((s.setPc t p).pc u).Ok :=
  Function.forall_update_iff s.pc (fun _ q => q.Ok) |>.2 ⟨hp, fun u _ => h.pc u⟩ u

lemma move (h : Inv owner s) {p : Pc} (m : Option ℕ) (hm : Moves s (s.pc t) p) :
    Inv owner { s.setPc t p with mutex := m } := by
  obtain ⟨hok, hheld⟩ := hm.ok h.range (h.pc t)
  exact {
    fresh := h.fresh
    foreign := h.foreign
    cached := h.cached
    held := held_setPc ((h.held t).mono hheld) fun u _ => h.held u
    returned := h.returned
    range := h.range
    pc := h.pc_setPc hok }

/-- A claim takes the front of the cached block. -/
lemma claim (h : Inv owner s) {r : Request} (hpc : s.pc t = .fast r s.range)
    (hleft : r.need ≤ s.range.left) :
    ∃ owner', Inv owner' { s.setPc t .idle with
      range := ⟨uadd s.range.next r.need, s.range.stop⟩
      returned := s.returned ++ [⟨s.range.next, r⟩] } := by
  obtain ⟨hr, -⟩ := h.ok_of_pc hpc
  obtain ⟨hnext, hstop⟩ := h.range
  rw [h.range.left_eq] at hleft
  have hadd : uadd s.range.next r.need = s.range.next + r.need := uadd_eq (by omega)
  have htaken : Owns owner .cached (Set.Ico s.range.next (s.range.next + r.need)) :=
    h.cached.mono (Set.Ico_subset_Ico_right (by omega))
  have hrest : Owns owner .cached (Set.Ico (s.range.next + r.need) s.range.stop) :=
    h.cached.mono (Set.Ico_subset_Ico_left (by omega))
  have hrange : Range.Ok ⟨s.range.next + r.need, s.range.stop⟩ :=
    ⟨(by omega : s.range.next + r.need ≤ s.range.stop), hstop⟩
  refine ⟨give owner (.returned s.returned.length)
    (Set.Ico s.range.next (s.range.next + r.need)), ?_⟩
  rw [hadd]
  exact {
    fresh := h.fresh.give_of_owns htaken
    foreign := h.foreign.give_of_owns htaken nofun
    cached := hrest.give Set.Ico_disjoint_Ico_same
    held := held_setPc owns_empty fun u _ => (h.held u).give_of_owns htaken nofun
    returned := returned_concat (fun i b hb => (h.returned i b hb).give_of_owns htaken nofun)
      (by
        rw [hr.ids_eq]
        exact owns_give)
    range := hrange
    pc := h.pc_setPc trivial }

/-- A value that is drawn was nobody's. -/
lemma free_singleton (h : Inv owner s) {v : ℕ} (hv : s.seq ≤ v) : Free owner {v} := by
  rintro w rfl
  exact h.fresh _ hv

lemma fresh_after_draw (h : Inv owner s) {v : ℕ} (hv : s.seq ≤ v) (w : Owner) :
    Free (give owner w {v}) (Set.Ici (v + 1)) :=
  (h.fresh.mono (Set.Ici_subset_Ici.2 (by omega))).give (by simp)

lemma draw (h : Inv owner s) {v : ℕ} {r : Request} {want attempt : ℕ} {drawn : List ℕ}
    (hpc : s.pc t = .reserving r want attempt drawn) (hv : s.CanDraw v) :
    ∃ owner', Inv owner'
      { s.setPc t (.reserving r want attempt (drawn ++ [v])) with seq := v + 1 } := by
  have hheld := h.held_of_pc hpc
  obtain ⟨hr, hneed, hnodup, hlimit⟩ := h.ok_of_pc hpc
  have hfree := h.free_singleton hv.1
  have hnew : v ∉ drawn := fun hmem =>
    Set.disjoint_left.1 (hheld.disjoint_of_free hfree) hmem rfl
  have hnodup' : (drawn ++ [v]).Nodup := by
    rw [← List.concat_eq_append]
    exact hnodup.concat hnew
  have hlimit' : ∀ w ∈ drawn ++ [v], w < int64Limit := by
    intro w hw
    rcases List.mem_append.1 hw with hw | hw
    · exact hlimit w hw
    · rw [List.mem_singleton.1 hw]
      exact hv.2
  refine ⟨give owner (.session t) {v}, ?_⟩
  exact {
    fresh := h.fresh_after_draw hv.1 _
    foreign := h.foreign.give_of_free hfree
    cached := h.cached.give_of_free hfree
    held := held_setPc (hheld.give_self.mono (by
        intro w hw
        simpa [Pc.held, or_comm] using hw))
      fun u _ => (h.held u).give_of_free hfree
    returned := fun i b hb => (h.returned i b hb).give_of_free hfree
    range := h.range
    pc := h.pc_setPc ⟨hr, hneed, hnodup', hlimit'⟩ }

/-- The store publishes the new block but for the session's own share; what was left of
the old one is dropped. -/
lemma store (h : Inv owner s) {r : Request} {want first : ℕ}
    (hpc : s.pc t = .publishing r want first) :
    ∃ owner', Inv owner' { s.setPc t (.published r first) with
      range := ⟨uadd first r.need, uadd first want⟩ } := by
  have hheld := h.held_of_pc hpc
  obtain ⟨hr, hneed, hlimit⟩ := h.ok_of_pc hpc
  have hrest : Owns owner (.session t) (Set.Ico (first + r.need) (first + want)) :=
    hheld.mono (Set.Ico_subset_Ico_left (by omega))
  have hshare : Owns owner (.session t) (Set.Ico first (first + r.need)) :=
    hheld.mono (Set.Ico_subset_Ico_right (by omega))
  have hrange : Range.Ok ⟨first + r.need, first + want⟩ :=
    ⟨(by omega : first + r.need ≤ first + want), hlimit⟩
  refine ⟨give owner .cached (Set.Ico (first + r.need) (first + want)), ?_⟩
  rw [uadd_eq (show first + r.need ≤ int64Limit by omega), uadd_eq hlimit]
  exact {
    fresh := h.fresh.give_of_owns hrest
    foreign := h.foreign.give_of_owns hrest nofun
    cached := owns_give
    held := held_setPc (hshare.give Set.Ico_disjoint_Ico_same.symm)
      fun u hu => (h.held u).give_of_owns hrest (by simpa using hu.symm)
    returned := fun i b hb => (h.returned i b hb).give_of_owns hrest nofun
    range := hrange
    pc := h.pc_setPc hr }

/-- The session returns its share. -/
lemma publish (h : Inv owner s) {r : Request} {first : ℕ}
    (hpc : s.pc t = .published r first) :
    ∃ owner', Inv owner'
      { s.setPc t .idle with mutex := none, returned := s.returned ++ [⟨first, r⟩] } := by
  have hshare := h.held_of_pc hpc
  have hr : r.Ok := h.ok_of_pc hpc
  refine ⟨give owner (.returned s.returned.length) (Set.Ico first (first + r.need)), ?_⟩
  exact {
    fresh := h.fresh.give_of_owns hshare
    foreign := h.foreign.give_of_owns hshare nofun
    cached := h.cached.give_of_owns hshare nofun
    held := held_setPc owns_empty
      fun u hu => (h.held u).give_of_owns hshare (by simpa using hu.symm)
    returned := returned_concat (fun i b hb => (h.returned i b hb).give_of_owns hshare nofun)
      (by
        rw [hr.ids_eq]
        exact owns_give)
    range := h.range
    pc := h.pc_setPc trivial }

lemma foreign_draw (h : Inv owner s) {v : ℕ} (hv : s.CanDraw v) :
    ∃ owner', Inv owner' { s with foreign := v :: s.foreign, seq := v + 1 } := by
  have hfree := h.free_singleton hv.1
  refine ⟨give owner .foreign {v}, ?_⟩
  exact {
    fresh := h.fresh_after_draw hv.1 _
    foreign := h.foreign.give_self.mono (by
      intro w hw
      simpa using hw)
    cached := h.cached.give_of_free hfree
    held := fun u => (h.held u).give_of_free hfree
    returned := fun i b hb => (h.returned i b hb).give_of_free hfree
    range := h.range
    pc := h.pc }

lemma step (h : Inv owner s) {s' : State} (hstep : Step s s') : ∃ owner', Inv owner' s' := by
  cases hstep with
  | move m hm => exact ⟨owner, h.move m hm⟩
  | claim hpc hleft => exact h.claim hpc hleft
  | draw hpc hv => exact h.draw hpc hv
  | store hpc => exact h.store hpc
  | publish hpc => exact h.publish hpc
  | foreign hv => exact h.foreign_draw hv

end Inv

lemma State.inv_step (s : State) (a : Action) (h : ∃ owner, Inv owner s) :
    ∃ owner, Inv owner (s.step a) := by
  obtain ⟨owner, h⟩ := h
  rcases s.step_cases a with heq | hstep
  · rw [heq]
    exact ⟨owner, h⟩
  · exact h.step hstep

lemma State.inv_run (start : ℕ) (as : List Action) : ∃ owner, Inv owner (State.run start as) :=
  StepRun.run_inv (P := fun _ _ => True) (fun s a h _ => s.inv_step a h) ⟨_, inv_init start⟩
    (StepRun.along_of_forall State.step (fun _ _ => trivial) _)

/-! ### The result -/

/-- The range is not passed, so that the unsigned `end - next` counts its ids. -/
def Range.NoWrap (c : Range) : Prop := c.next ≤ c.stop ∧ c.left = c.stop - c.next

lemma Range.Ok.noWrap {c : Range} (h : c.Ok) : c.NoWrap := ⟨h.1, h.left_eq⟩

/-- The ids of the blocks that calls have returned are disjoint, from each other and from
those drawn by DuckDB-side writers; neither the cached range nor a session's copy of it
ever wraps.  This holds for any number of sessions, any requests, any values of
`autoinc_cache_size` and any interleaving of the steps. -/
theorem returned_blocks_disjoint (start : ℕ) (as : List Action) :
    (State.run start as).returned.Pairwise (fun b b' => Disjoint b.ids b'.ids) ∧
      (∀ b ∈ (State.run start as).returned, ∀ v ∈ (State.run start as).foreign, v ∉ b.ids) ∧
      (State.run start as).range.NoWrap ∧
      ∀ t r cur, (State.run start as).pc t = .fast r cur → cur.NoWrap := by
  obtain ⟨owner, h⟩ := State.inv_run start as
  refine ⟨?_, ?_, h.range.noWrap, ?_⟩
  · rw [List.pairwise_iff_getElem]
    intro i j hi hj hij
    exact (h.returned i _ (List.getElem?_eq_getElem hi)).disjoint
      (h.returned j _ (List.getElem?_eq_getElem hj)) (by simpa using hij.ne)
  · intro b hb v hv hvb
    obtain ⟨i, hi⟩ := List.mem_iff_getElem?.1 hb
    exact Set.disjoint_left.1 (h.foreign.disjoint (h.returned i b hi) nofun) hv hvb
  · intro t r cur hpc
    exact (h.ok_of_pc hpc).2.noWrap

-- Session 0 refills the block after a foreign draw has broken its first attempt, and
-- session 1 claims from it.
example :
    (State.run 1 [.call 0 ⟨1, 1⟩, .load 0, .claim 0 false, .lock 0, .reload 0 2, .draw 0 1,
      .foreign 2, .draw 0 3, .finish 0 false, .draw 0 4, .draw 0 5, .finish 0 false, .store 0,
      .unlock 0, .call 1 ⟨1, 1⟩, .load 1, .claim 1 false]).returned
      = [⟨4, ⟨1, 1⟩⟩, ⟨5, ⟨1, 1⟩⟩] := by
  decide

end DuckdbEngine.Autoinc
