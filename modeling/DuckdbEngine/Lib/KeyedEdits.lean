/-
Edits of a finite map that are made one after another.

A store is an association list with unique keys.  Four kinds of edits may fail:
an item is added under a key that has to be free, an item is dropped that has to
be there and must not be the last one, an item is moved to another key that has
to be free, and an item is changed where it stands if it passes a guard.  For a
list of edits of one kind this file says when all of them succeed, in terms of
the store they start from, and what can be looked up afterwards.

The moves are the interesting ones.  Taken one at a time, a move fails while its
target is still occupied by an item that a later move takes away.  So they have
the effect of moving all items at once exactly when every target that is occupied
at the start is the source of an earlier move (`FreeAtTurn`).
-/
import Mathlib.Data.List.AList

namespace KeyedEdits

variable {κ β ι : Type*} [DecidableEq κ]

/-- Items under unique keys. -/
abbrev Store (κ β : Type*) := AList (fun _ : κ => β)

/-- Store an item under a key that is free. -/
def add (s : Store κ β) (k : κ) (b : β) : Option (Store κ β) :=
  if k ∈ s then none else some (s.insert k b)

/-- Remove an item that is not the only one. -/
def drop (s : Store κ β) (k : κ) : Option (Store κ β) :=
  if k ∈ s ∧ s.keys ≠ [k] then some (s.erase k) else none

/-- Move an item to a key that is free. -/
def move (s : Store κ β) (o n : κ) : Option (Store κ β) :=
  match s.lookup o with
  | none => none
  | some b => if n ∈ s then none else some ((s.erase o).insert n b)

/-- Change an item that passes the guard. -/
def modify (guard : β → Bool) (upd : β → β) (s : Store κ β) (k : κ) : Option (Store κ β) :=
  match s.lookup k with
  | none => none
  | some b => if guard b then some (s.insert k (upd b)) else none

/-! ### Additions -/

section Add

variable (key : ι → κ) (val : ι → Option β)

/-- Add the items `val x` under `key x`; an item without a value fails. -/
def addAll (s : Store κ β) (xs : List ι) : Option (Store κ β) :=
  xs.foldlM (fun s x => (val x).bind (add s (key x))) s

variable {key val}

lemma addAll_cons {s : Store κ β} {x : ι} {xs : List ι} {s' : Store κ β} :
    addAll key val s (x :: xs) = some s' ↔
      ∃ b, val x = some b ∧ key x ∉ s ∧ addAll key val (s.insert (key x) b) xs = some s' := by
  simp only [addAll, List.foldlM_cons, Option.bind_eq_bind, Option.bind_eq_some_iff, add]
  constructor
  · rintro ⟨t, ⟨b, hb, ht⟩, hs'⟩
    split at ht
    · cases ht
    · cases ht
      exact ⟨b, hb, ‹_›, hs'⟩
  · rintro ⟨b, hb, hx, hs'⟩
    exact ⟨_, ⟨b, hb, if_neg hx⟩, hs'⟩

/-- Additions under distinct keys succeed if every item has a value and every key
is free at the start. -/
theorem addAll_isSome_iff {s : Store κ β} {xs : List ι} (hxs : (xs.map key).Nodup) :
    (∃ s', addAll key val s xs = some s') ↔ ∀ x ∈ xs, key x ∉ s ∧ ∃ b, val x = some b := by
  induction xs generalizing s with
  | nil => exact iff_of_true ⟨s, rfl⟩ (by simp)
  | cons x xs ih =>
      obtain ⟨hx, hxs⟩ := List.nodup_cons.1 hxs
      have hne : ∀ y ∈ xs, key y ≠ key x := fun y hy h => hx (h ▸ List.mem_map_of_mem hy)
      simp only [addAll_cons, List.forall_mem_cons]
      constructor
      · rintro ⟨s', b, hb, hfree, hs'⟩
        refine ⟨⟨hfree, b, hb⟩, fun y hy => ?_⟩
        obtain ⟨hy', hval⟩ := (ih hxs).1 ⟨s', hs'⟩ y hy
        exact ⟨fun h => hy' ((AList.mem_insert s).2 (Or.inr h)), hval⟩
      · rintro ⟨⟨hfree, b, hb⟩, hall⟩
        obtain ⟨s', hs'⟩ := (ih (s := s.insert (key x) b) hxs).2 fun y hy =>
          ⟨fun h => ((AList.mem_insert s).1 h).elim (hne y hy) (hall y hy).1, (hall y hy).2⟩
        exact ⟨s', b, hb, hfree, hs'⟩

/-- Additions leave the other keys alone. -/
lemma lookup_addAll_of_notMem {s s' : Store κ β} {xs : List ι} (h : addAll key val s xs = some s')
    {k : κ} (hk : k ∉ xs.map key) : s'.lookup k = s.lookup k := by
  induction xs generalizing s with
  | nil => cases h; rfl
  | cons x xs ih =>
      obtain ⟨b, -, -, hs'⟩ := addAll_cons.1 h
      rw [List.map_cons, List.mem_cons, not_or] at hk
      rw [ih hs' hk.2, AList.lookup_insert_ne hk.1]

lemma lookup_addAll_of_mem {s s' : Store κ β} {xs : List ι} (hxs : (xs.map key).Nodup)
    (h : addAll key val s xs = some s') {x : ι} (hx : x ∈ xs) : s'.lookup (key x) = val x := by
  induction xs generalizing s with
  | nil => cases hx
  | cons y xs ih =>
      obtain ⟨b, hb, -, hs'⟩ := addAll_cons.1 h
      obtain ⟨hy, hxs⟩ := List.nodup_cons.1 hxs
      rcases List.mem_cons.1 hx with rfl | hx
      · rw [lookup_addAll_of_notMem hs' hy, AList.lookup_insert, hb]
      · exact ih hxs hs' hx

end Add

/-! ### Removals -/

/-- Remove the items under the keys `ks`. -/
def dropAll (s : Store κ β) (ks : List κ) : Option (Store κ β) := ks.foldlM drop s

lemma dropAll_cons {s : Store κ β} {k : κ} {ks : List κ} {s' : Store κ β} :
    dropAll s (k :: ks) = some s' ↔
      (k ∈ s ∧ s.keys ≠ [k]) ∧ dropAll (s.erase k) ks = some s' := by
  simp only [dropAll, List.foldlM_cons, Option.bind_eq_bind, Option.bind_eq_some_iff, drop]
  constructor
  · rintro ⟨t, ht, hs'⟩
    split at ht
    · cases ht
      exact ⟨‹_›, hs'⟩
    · cases ht
  · rintro ⟨hk, hs'⟩
    exact ⟨_, if_pos hk, hs'⟩

/-- Removals of items that are there succeed if they leave one. -/
lemma dropAll_isSome {s : Store κ β} {ks : List κ} (hnd : ks.Nodup) (hks : ∀ k ∈ ks, k ∈ s)
    {r : κ} (hr : r ∈ s) (hrk : r ∉ ks) : ∃ s', dropAll s ks = some s' := by
  induction ks generalizing s with
  | nil => exact ⟨s, rfl⟩
  | cons k ks ih =>
      obtain ⟨hk, hnd⟩ := List.nodup_cons.1 hnd
      rw [List.mem_cons, not_or] at hrk
      have hlast : s.keys ≠ [k] := by
        intro h
        have := AList.mem_keys.1 hr
        rw [h, List.mem_singleton] at this
        exact hrk.1 this
      obtain ⟨s', hs'⟩ := ih (s := s.erase k) hnd
        (fun j hj => AList.mem_erase.2
          ⟨fun h => hk (h ▸ hj), hks j (List.mem_cons_of_mem k hj)⟩)
        (AList.mem_erase.2 ⟨hrk.1, hr⟩) hrk.2
      exact ⟨s', dropAll_cons.2 ⟨⟨hks k List.mem_cons_self, hlast⟩, hs'⟩⟩

lemma lookup_dropAll {s s' : Store κ β} {ks : List κ} (h : dropAll s ks = some s') (k : κ) :
    s'.lookup k = if k ∈ ks then none else s.lookup k := by
  induction ks generalizing s with
  | nil => cases h; simp
  | cons j ks ih =>
      rw [ih (dropAll_cons.1 h).2]
      by_cases hkj : k = j
      · subst hkj
        simp
      · rw [AList.lookup_erase_ne hkj]
        simp [hkj]

/-! ### Moves -/

/-- Move the items from the first to the second key of each pair. -/
def moveAll (s : Store κ β) (ps : List (κ × κ)) : Option (Store κ β) :=
  ps.foldlM (fun s p => move s p.1 p.2) s

/-- A target that is occupied at the start is the source of an earlier move. -/
def FreeAtTurn (s : Store κ β) (ps : List (κ × κ)) : Prop :=
  ∀ pre p post, ps = pre ++ p :: post → p.2 ∈ s → p.2 ∈ pre.map Prod.fst

lemma moveAll_cons {s : Store κ β} {p : κ × κ} {ps : List (κ × κ)} {s' : Store κ β} :
    moveAll s (p :: ps) = some s' ↔
      ∃ b, s.lookup p.1 = some b ∧ p.2 ∉ s ∧
        moveAll ((s.erase p.1).insert p.2 b) ps = some s' := by
  simp only [moveAll, List.foldlM_cons, Option.bind_eq_bind, Option.bind_eq_some_iff, move]
  constructor
  · rintro ⟨t, ht, hs'⟩
    split at ht
    · cases ht
    · split at ht
      · cases ht
      · cases ht
        exact ⟨_, ‹_›, ‹_›, hs'⟩
  · rintro ⟨b, hb, hfree, hs'⟩
    refine ⟨_, ?_, hs'⟩
    rw [hb]
    exact if_neg hfree

lemma mem_moved {s : Store κ β} {o n k : κ} {b : β} :
    k ∈ (s.erase o).insert n b ↔ k = n ∨ k ≠ o ∧ k ∈ s := by
  rw [AList.mem_insert, AList.mem_erase]

lemma lookup_moved {s : Store κ β} {o n k : κ} {b : β} (hn : k ≠ n) (ho : k ≠ o) :
    ((s.erase o).insert n b).lookup k = s.lookup k := by
  rw [AList.lookup_insert_ne hn, AList.lookup_erase_ne ho]

/-- If all moves succeed, each source was there at the start or is the target of a
move. -/
lemma source_of_moveAll {s s' : Store κ β} {ps : List (κ × κ)} (h : moveAll s ps = some s')
    {p : κ × κ} (hp : p ∈ ps) : p.1 ∈ s ∨ p.1 ∈ ps.map Prod.snd := by
  induction ps generalizing s with
  | nil => cases hp
  | cons q ps ih =>
      obtain ⟨b, hb, -, hs'⟩ := moveAll_cons.1 h
      rcases List.mem_cons.1 hp with rfl | hp
      · exact Or.inl (AList.lookup_isSome.1 (Option.isSome_of_eq_some hb))
      · rcases ih hs' hp with hmem | htarget
        · rcases mem_moved.1 hmem with heq | ⟨-, hmem⟩
          · exact Or.inr (List.mem_map.2 ⟨q, List.mem_cons_self, heq.symm⟩)
          · exact Or.inl hmem
        · exact Or.inr (List.mem_cons_of_mem _ htarget)

section Moves

variable {s s' : Store κ β} {p : κ × κ} {ps : List (κ × κ)}

-- The sources that are still to come are not touched by a move that succeeds: they
-- differ from its source, and its target was free.
lemma source_mem_moved {b : β} (hsrc : ((p :: ps).map Prod.fst).Nodup)
    (hfree : p.2 ∉ s) {k : κ} (hk : k ∈ ps.map Prod.fst) (hks : k ∈ s) :
    k ∈ (s.erase p.1).insert p.2 b ∧ ((s.erase p.1).insert p.2 b).lookup k = s.lookup k := by
  have ho : k ≠ p.1 := fun h => (List.nodup_cons.1 hsrc).1 (h ▸ hk)
  have hn : k ≠ p.2 := fun h => hfree (h ▸ hks)
  exact ⟨mem_moved.2 (Or.inr ⟨ho, hks⟩), lookup_moved hn ho⟩

lemma freeAtTurn_cons {b : β} (htgt : ((p :: ps).map Prod.snd).Nodup) :
    FreeAtTurn s (p :: ps) ↔ p.2 ∉ s ∧ FreeAtTurn ((s.erase p.1).insert p.2 b) ps := by
  constructor
  · intro h
    refine ⟨fun hp => ?_, fun pre q post heq hq => ?_⟩
    · have := h [] p ps rfl hp
      cases this
    · have hqp : q.2 ≠ p.2 := by
        intro hqp
        refine (List.nodup_cons.1 htgt).1 (List.mem_map.2 ⟨q, ?_, hqp⟩)
        rw [heq]
        simp
      rcases mem_moved.1 hq with hq | ⟨hqo, hq⟩
      · exact absurd hq hqp
      · have := h (p :: pre) q post (by rw [heq, List.cons_append]) hq
        exact (List.mem_cons.1 this).resolve_left hqo
  · rintro ⟨hp, h⟩ pre q post heq hq
    cases pre with
    | nil =>
        cases heq
        exact absurd hq hp
    | cons a pre =>
        obtain ⟨rfl, hps⟩ := List.cons.inj heq
        by_cases hqo : q.2 = p.1
        · exact List.mem_cons.2 (Or.inl hqo)
        · exact List.mem_cons_of_mem _
            (h pre q post hps (mem_moved.2 (Or.inr ⟨hqo, hq⟩)))

/-- Moves with distinct sources, all of them there at the start, and distinct targets
succeed exactly when every target is free at its turn. -/
theorem moveAll_isSome_iff (hsrc : (ps.map Prod.fst).Nodup) (htgt : (ps.map Prod.snd).Nodup)
    (hmem : ∀ k ∈ ps.map Prod.fst, k ∈ s) :
    (∃ s', moveAll s ps = some s') ↔ FreeAtTurn s ps := by
  induction ps generalizing s with
  | nil =>
      refine iff_of_true ⟨s, rfl⟩ fun pre p post heq => ?_
      simp at heq
  | cons p ps ih =>
      obtain ⟨b, hb⟩ := Option.isSome_iff_exists.1
        (AList.lookup_isSome.2 (hmem p.1 List.mem_cons_self))
      have hrest : p.2 ∉ s → ((∃ s', moveAll ((s.erase p.1).insert p.2 b) ps = some s') ↔
          FreeAtTurn ((s.erase p.1).insert p.2 b) ps) := fun hfree =>
        ih (List.nodup_cons.1 hsrc).2 (List.nodup_cons.1 htgt).2 fun k hk =>
          (source_mem_moved hsrc hfree hk (hmem k (List.mem_cons_of_mem _ hk))).1
      rw [freeAtTurn_cons htgt (b := b)]
      constructor
      · rintro ⟨s', h⟩
        obtain ⟨b', hb', hfree, hs'⟩ := moveAll_cons.1 h
        cases hb.symm.trans hb'
        exact ⟨hfree, (hrest hfree).1 ⟨s', hs'⟩⟩
      · rintro ⟨hfree, h⟩
        obtain ⟨s', hs'⟩ := (hrest hfree).2 h
        exact ⟨s', moveAll_cons.2 ⟨b, hb, hfree, hs'⟩⟩

/-- Moves leave the keys alone that are neither a source nor a target. -/
lemma lookup_moveAll_of_notMem (h : moveAll s ps = some s') {k : κ}
    (ho : k ∉ ps.map Prod.fst) (hn : k ∉ ps.map Prod.snd) : s'.lookup k = s.lookup k := by
  induction ps generalizing s with
  | nil => cases h; rfl
  | cons p ps ih =>
      obtain ⟨b, -, -, hs'⟩ := moveAll_cons.1 h
      rw [List.map_cons, List.mem_cons, not_or] at ho hn
      rw [ih hs' ho.2 hn.2, lookup_moved hn.1 ho.1]

/-- A source that is no target is vacated. -/
lemma lookup_moveAll_of_source (h : moveAll s ps = some s') {k : κ}
    (ho : k ∈ ps.map Prod.fst) (hn : k ∉ ps.map Prod.snd) : s'.lookup k = none := by
  induction ps generalizing s with
  | nil => cases ho
  | cons p ps ih =>
      obtain ⟨b, -, -, hs'⟩ := moveAll_cons.1 h
      rw [List.map_cons, List.mem_cons, not_or] at hn
      by_cases hk : k ∈ ps.map Prod.fst
      · exact ih hs' hk hn.2
      · have hkp : k = p.1 := (List.mem_cons.1 ho).resolve_right hk
        rw [lookup_moveAll_of_notMem hs' hk hn.2, AList.lookup_insert_ne hn.1, hkp,
          AList.lookup_erase]

/-- If all moves succeed, they act as one simultaneous move: each target holds what its
source held at the start. -/
theorem lookup_moveAll_of_target (hsrc : (ps.map Prod.fst).Nodup)
    (htgt : (ps.map Prod.snd).Nodup) (hmem : ∀ k ∈ ps.map Prod.fst, k ∈ s)
    (h : moveAll s ps = some s') (hp : p ∈ ps) : s'.lookup p.2 = s.lookup p.1 := by
  induction ps generalizing s with
  | nil => cases hp
  | cons q ps ih =>
      obtain ⟨b, hb, hfree, hs'⟩ := moveAll_cons.1 h
      have hkept := fun k hk => source_mem_moved (b := b) hsrc hfree hk
        (hmem k (List.mem_cons_of_mem _ hk))
      rcases List.mem_cons.1 hp with rfl | hp
      · -- The new key is no later source, as those are occupied at the start.
        have ho : p.2 ∉ ps.map Prod.fst := fun ho =>
          hfree (hmem p.2 (List.mem_cons_of_mem _ ho))
        rw [lookup_moveAll_of_notMem hs' ho (List.nodup_cons.1 htgt).1, AList.lookup_insert, hb]
      · rw [ih (List.nodup_cons.1 hsrc).2 (List.nodup_cons.1 htgt).2 (fun k hk => (hkept k hk).1)
          hs' hp, (hkept p.1 (List.mem_map_of_mem hp)).2]

end Moves

/-! ### Changes in place -/

section Modify

variable (key : ι → κ) (guard : ι → β → Bool) (upd : ι → β → β)

/-- Change the items under `key x`. -/
def modifyAll (s : Store κ β) (xs : List ι) : Option (Store κ β) :=
  xs.foldlM (fun s x => modify (guard x) (upd x) s (key x)) s

/-- What the changes make of the item under the key `k`. -/
def changed (k : κ) (xs : List ι) (b : β) : β :=
  (xs.filter fun x => key x = k).foldl (fun b x => upd x b) b

variable {key guard upd}

lemma modifyAll_cons {s : Store κ β} {x : ι} {xs : List ι} {s' : Store κ β} :
    modifyAll key guard upd s (x :: xs) = some s' ↔
      ∃ b, s.lookup (key x) = some b ∧ guard x b ∧
        modifyAll key guard upd (s.insert (key x) (upd x b)) xs = some s' := by
  simp only [modifyAll, List.foldlM_cons, Option.bind_eq_bind, Option.bind_eq_some_iff, modify]
  constructor
  · rintro ⟨t, ht, hs'⟩
    split at ht
    · cases ht
    · split at ht
      · cases ht
        exact ⟨_, ‹_›, ‹_›, hs'⟩
      · cases ht
  · rintro ⟨b, hb, hg, hs'⟩
    refine ⟨_, ?_, hs'⟩
    rw [hb]
    exact if_pos hg

lemma lookup_modifyAll {s s' : Store κ β} {xs : List ι}
    (h : modifyAll key guard upd s xs = some s') (k : κ) :
    s'.lookup k = (s.lookup k).map (changed key upd k xs) := by
  induction xs generalizing s with
  | nil =>
      cases h
      cases s'.lookup k <;> rfl
  | cons x xs ih =>
      obtain ⟨b, hb, -, hs'⟩ := modifyAll_cons.1 h
      rw [ih hs']
      by_cases hk : key x = k
      · subst hk
        rw [AList.lookup_insert, hb, Option.map_some, Option.map_some, changed, changed,
          List.filter_cons_of_pos (by simp), List.foldl_cons]
      · rw [AList.lookup_insert_ne (Ne.symm hk)]
        refine congrArg (fun f => (s.lookup k).map f) (funext fun c => ?_)
        rw [changed, changed, List.filter_cons_of_neg (by simp [hk])]

/-- Changes that leave the guards as they are succeed if every guard passes at the
start. -/
theorem modifyAll_isSome_iff (hguard : ∀ x y b, guard x (upd y b) = guard x b)
    {s : Store κ β} {xs : List ι} :
    (∃ s', modifyAll key guard upd s xs = some s') ↔
      ∀ x ∈ xs, ∃ b, s.lookup (key x) = some b ∧ guard x b := by
  induction xs generalizing s with
  | nil => exact iff_of_true ⟨s, rfl⟩ (by simp)
  | cons x xs ih =>
      -- One change keeps, for every key, whether the item there passes a guard.
      have hkept : ∀ {b}, s.lookup (key x) = some b → ∀ y,
          ((∃ c, (s.insert (key x) (upd x b)).lookup (key y) = some c ∧ guard y c) ↔
            ∃ c, s.lookup (key y) = some c ∧ guard y c) := by
        intro b hb y
        by_cases hy : key y = key x
        · rw [hy, AList.lookup_insert, hb]
          simp [hguard]
        · rw [AList.lookup_insert_ne hy]
      simp only [modifyAll_cons, List.forall_mem_cons]
      constructor
      · rintro ⟨s', b, hb, hg, hs'⟩
        exact ⟨⟨b, hb, hg⟩, fun y hy => (hkept hb y).1 (ih.1 ⟨s', hs'⟩ y hy)⟩
      · rintro ⟨⟨b, hb, hg⟩, hall⟩
        obtain ⟨s', hs'⟩ := (ih (s := s.insert (key x) (upd x b))).2 fun y hy =>
          (hkept hb y).2 (hall y hy)
        exact ⟨s', b, hb, hg, hs'⟩

/-- A part of the items that no change touches. -/
lemma changed_view {γ : Type*} {view : β → γ} (hview : ∀ x b, view (upd x b) = view b)
    (k : κ) (xs : List ι) (b : β) : view (changed key upd k xs b) = view b := by
  rw [changed]
  induction xs.filter fun x => key x = k generalizing b with
  | nil => rfl
  | cons x xs ih => rw [List.foldl_cons, ih, hview]

end Modify

end KeyedEdits
