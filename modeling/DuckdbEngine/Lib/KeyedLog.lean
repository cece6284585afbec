/-
Bags of keyed rows and logs of changes to them.

A change either deletes the rows of a key or puts a row in place of the rows
that have its key.  `replay` applies a log of changes one after another.  A
store that buffers the log and merges it in one go keeps only the newest change
of each key: it drops every row whose key the log touches and adds the rows that
the newest changes put.  `replay_eq_merge` says that the two agree on every bag
and every log; nothing is assumed about the keys.

A bag in which every key occurs once is a finite map from keys to rows
(`IsMap`), and the changes act on it as updates of the map.

The last part is about moving rows to other keys: a log that lists, for each row
in turn, the deletion of its old key and the new row.  `replay_moves_eq_iff`
determines when the merge carries out all the moves at once.
-/
import Mathlib.Algebra.Order.Group.Multiset
import Mathlib.Data.List.Induction
import Mathlib.Data.Multiset.UnionInter

namespace KeyedLog

/-- A change to a bag of keyed rows. -/
inductive Change (κ ρ : Type*) where
  /-- Delete the rows of a key. -/
  | del (k : κ)
  /-- Put a row in place of the rows that have its key. -/
  | put (r : ρ)

variable {κ ρ : Type*} (key : ρ → κ)

/-- The key that a change touches. -/
def Change.target : Change κ ρ → κ
  | .del k => k
  | .put r => key r

@[simp] lemma Change.target_del (k : κ) : (Change.del k : Change κ ρ).target key = k := rfl

@[simp] lemma Change.target_put (r : ρ) : (Change.put r : Change κ ρ).target key = key r := rfl

/-- The log touches the key `k`. -/
def Touches (log : List (Change κ ρ)) (k : κ) : Prop := ∃ c ∈ log, c.target key = k

@[simp] lemma not_touches_nil (k : κ) : ¬ Touches key ([] : List (Change κ ρ)) k := by
  simp [Touches]

lemma touches_cons (c : Change κ ρ) (log : List (Change κ ρ)) (k : κ) :
    Touches key (c :: log) k ↔ c.target key = k ∨ Touches key log k := by
  simp [Touches]

lemma touches_append (log log' : List (Change κ ρ)) (k : κ) :
    Touches key (log ++ log') k ↔ Touches key log k ∨ Touches key log' k := by
  simp [Touches, or_and_right, exists_or]

variable [DecidableEq κ]

/-- The effect of one change. -/
def apply (b : Multiset ρ) : Change κ ρ → Multiset ρ
  | .del k => b.filter fun x => key x ≠ k
  | .put r => (b.filter fun x => key x ≠ key r) + {r}

/-- The changes of a log, applied one after another. -/
def replay (b : Multiset ρ) (log : List (Change κ ρ)) : Multiset ρ := log.foldl (apply key) b

@[simp] lemma replay_nil (b : Multiset ρ) : replay key b [] = b := rfl

@[simp] lemma replay_cons (b : Multiset ρ) (c : Change κ ρ) (log : List (Change κ ρ)) :
    replay key b (c :: log) = replay key (apply key b c) log := rfl

lemma replay_append (b : Multiset ρ) (log log' : List (Change κ ρ)) :
    replay key b (log ++ log') = replay key (replay key b log) log' := by
  simp [replay, List.foldl_append]

/-! ### The newest change of each key -/

instance (log : List (Change κ ρ)) (k : κ) : Decidable (Touches key log k) :=
  inferInstanceAs (Decidable (∃ c ∈ log, c.target key = k))

/-- The rows put by a change that no later change of the log overrides. -/
def survivors : List (Change κ ρ) → List ρ
  | [] => []
  | .del _ :: log => survivors log
  | .put r :: log => if Touches key log (key r) then survivors log else r :: survivors log

/-- The merge of a log in one go: the rows of the touched keys are dropped and
the surviving rows are added. -/
def merge (b : Multiset ρ) (log : List (Change κ ρ)) : Multiset ρ :=
  (b.filter fun x => ¬ Touches key log (key x)) + (survivors key log : Multiset ρ)

/-- A change at the end of the log overrides the rows of its key that survived
so far. -/
lemma survivors_append_filter (log : List (Change κ ρ)) (c : Change κ ρ) :
    survivors key (log ++ [c])
      = (survivors key log).filter (fun x => key x ≠ c.target key) ++ survivors key [c] := by
  induction log with
  | nil => simp [survivors]
  | cons d log ih =>
      cases d with
      | del k => simpa [survivors] using ih
      | put r =>
          simp only [List.cons_append, survivors, touches_append, touches_cons,
            not_touches_nil, or_false]
          by_cases hlog : Touches key log (key r)
          · simp [hlog, ih]
          · by_cases hc : c.target key = key r
            · simp [hlog, hc, ih]
            · have hc' : key r ≠ c.target key := fun h => hc h.symm
              simp [hlog, hc, hc', ih]

lemma merge_append_del (b : Multiset ρ) (log : List (Change κ ρ)) (k : κ) :
    merge key b (log ++ [.del k]) = (merge key b log).filter fun x => key x ≠ k := by
  simp only [merge, survivors_append_filter, survivors, List.append_nil, Multiset.filter_add,
    Multiset.filter_filter, Change.target_del, Multiset.filter_coe]
  congr 1
  apply Multiset.filter_congr
  intro x _
  rw [touches_append, touches_cons]
  simp only [Change.target_del, not_touches_nil, or_false, not_or]
  rw [and_comm, ne_comm]

lemma merge_append_put (b : Multiset ρ) (log : List (Change κ ρ)) (r : ρ) :
    merge key b (log ++ [.put r])
      = ((merge key b log).filter fun x => key x ≠ key r) + {r} := by
  simp only [merge, survivors_append_filter, survivors, Multiset.filter_add,
    Multiset.filter_filter, Change.target_put, Multiset.filter_coe, not_touches_nil, if_false]
  rw [← Multiset.coe_add, add_assoc, Multiset.coe_singleton]
  congr 1
  apply Multiset.filter_congr
  intro x _
  rw [touches_append, touches_cons]
  simp only [Change.target_put, not_touches_nil, or_false, not_or]
  rw [and_comm, ne_comm]

/-- Merging a log in one go is the same as applying its changes one after
another. -/
theorem replay_eq_merge (b : Multiset ρ) (log : List (Change κ ρ)) :
    replay key b log = merge key b log := by
  induction log using List.reverseRecOn with
  | nil => simp [merge, survivors]
  | append_singleton log c ih =>
      rw [replay_append, ih]
      cases c with
      | del k => rw [merge_append_del]; rfl
      | put r => rw [merge_append_put]; rfl

/-! ### Bags with unique keys -/

lemma filter_key_ne_of_absent {b : Multiset ρ} {k : κ} (h : ∀ x ∈ b, key x ≠ k) :
    b.filter (fun x => key x ≠ k) = b :=
  Multiset.filter_eq_self.2 h

/-- With unique keys, deleting the key of a row deletes exactly that row. -/
lemma filter_key_ne_eq_erase [DecidableEq ρ] {b : Multiset ρ} (hb : (b.map key).Nodup) {r : ρ}
    (hr : r ∈ b) : b.filter (fun x => key x ≠ key r) = b.erase r := by
  obtain ⟨b', rfl⟩ := Multiset.exists_cons_of_mem hr
  rw [Multiset.map_cons, Multiset.nodup_cons] at hb
  rw [Multiset.filter_cons_of_neg _ (by simp), Multiset.erase_cons_head]
  refine filter_key_ne_of_absent key fun x hx h => hb.1 ?_
  rw [← h]
  exact Multiset.mem_map_of_mem key hx

/-- With unique keys, the key of a row selects exactly that row. -/
lemma filter_key_eq_singleton {b : Multiset ρ} (hb : (b.map key).Nodup) {r : ρ} (hr : r ∈ b) :
    b.filter (fun x => key x = key r) = {r} := by
  obtain ⟨b', rfl⟩ := Multiset.exists_cons_of_mem hr
  rw [Multiset.map_cons, Multiset.nodup_cons] at hb
  have hrest : b'.filter (fun x => key x = key r) = 0 := by
    refine Multiset.filter_eq_nil.2 fun x hx h => hb.1 ?_
    rw [← h]
    exact Multiset.mem_map_of_mem key hx
  rw [Multiset.filter_cons_of_pos _ (by rfl), hrest, Multiset.cons_zero]

/-- The bag `b` is the finite map `m` from keys to rows. -/
structure IsMap (b : Multiset ρ) (m : κ → Option ρ) : Prop where
  nodup : (b.map key).Nodup
  mem_iff : ∀ r, r ∈ b ↔ m (key r) = some r
  key_eq : ∀ k r, m k = some r → key r = k

namespace IsMap

variable {key} {b : Multiset ρ} {m : κ → Option ρ}

omit [DecidableEq κ] in
/-- The empty bag is the empty map. -/
lemma zero : IsMap key 0 fun _ => none :=
  ⟨by simp, by simp, by simp⟩

omit [DecidableEq κ] in
lemma key_ne (h : IsMap key b m) {k : κ} (hk : m k = none) : ∀ x ∈ b, key x ≠ k := by
  rintro x hx rfl
  rw [(h.mem_iff x).1 hx] at hk
  exact absurd hk (by simp)

theorem apply_del (h : IsMap key b m) (k : κ) :
    IsMap key (apply key b (.del k)) (Function.update m k none) := by
  refine ⟨Multiset.nodup_of_le (Multiset.map_le_map (Multiset.filter_le _ _)) h.nodup, ?_, ?_⟩
  · intro r
    by_cases hk : key r = k
    · simp [apply, hk]
    · simp [apply, hk, h.mem_iff]
  · intro k' r hr
    by_cases hk : k' = k
    · simp [hk] at hr
    · rw [Function.update_of_ne hk] at hr
      exact h.key_eq k' r hr

theorem apply_put (h : IsMap key b m) (r : ρ) :
    IsMap key (apply key b (.put r)) (Function.update m (key r) (some r)) := by
  refine ⟨?_, ?_, ?_⟩
  · have hdel := (h.apply_del (key r)).nodup
    simp only [apply, Multiset.map_add, Multiset.map_singleton]
    rw [add_comm, Multiset.singleton_add, Multiset.nodup_cons]
    refine ⟨?_, hdel⟩
    rintro hmem
    obtain ⟨x, hx, hxr⟩ := Multiset.mem_map.1 hmem
    exact (Multiset.mem_filter.1 hx).2 hxr
  · intro x
    by_cases hx : key x = key r
    · simp [apply, hx, eq_comm]
    · have hxr : x ≠ r := fun h => hx (by rw [h])
      simp [apply, hx, hxr, h.mem_iff]
  · intro k x hx
    by_cases hk : k = key r
    · subst hk
      simp only [Function.update_self, Option.some.injEq] at hx
      rw [hx]
    · rw [Function.update_of_ne hk] at hx
      exact h.key_eq k x hx

end IsMap

/-! ### Moving rows to other keys -/

/-- The log that moves rows one after another: for each pair of an old and a new
row, the key of the old row is deleted and the new row is put. -/
def moveLog (ms : List (ρ × ρ)) : List (Change κ ρ) :=
  ms.flatMap fun m => [.del (key m.1), .put m.2]

omit [DecidableEq κ] in
lemma moveLog_cons (m : ρ × ρ) (ms : List (ρ × ρ)) :
    moveLog key (m :: ms) = .del (key m.1) :: .put m.2 :: moveLog key ms := rfl

omit [DecidableEq κ] in
lemma touches_moveLog (ms : List (ρ × ρ)) (k : κ) :
    Touches key (moveLog key ms) k ↔ ∃ m ∈ ms, key m.1 = k ∨ key m.2 = k := by
  induction ms with
  | nil => simp [moveLog]
  | cons m ms ih =>
      rw [moveLog_cons, touches_cons, touches_cons, ih, List.exists_mem_cons_iff, or_assoc]
      rfl

lemma length_survivors_moveLog_le (ms : List (ρ × ρ)) :
    (survivors key (moveLog key ms)).length ≤ ms.length := by
  induction ms with
  | nil => simp [moveLog, survivors]
  | cons m ms ih =>
      simp only [moveLog_cons, survivors, List.length_cons]
      split
      · omega
      · simpa using ih

/-- All the moved rows survive exactly when no row is moved to the old key of a
row that is moved later. -/
lemma survivors_moveLog_eq_iff {ms : List (ρ × ρ)} (hnew : (ms.map fun m => key m.2).Nodup) :
    (survivors key (moveLog key ms) : Multiset ρ) = (ms.map Prod.snd : List ρ) ↔
      ms.Pairwise fun m m' => key m.2 ≠ key m'.1 := by
  induction ms with
  | nil => simp [moveLog, survivors]
  | cons m ms ih =>
      rw [List.map_cons, List.nodup_cons] at hnew
      have hlater : ∀ m' ∈ ms, key m'.2 ≠ key m.2 := fun m' hm' h =>
        hnew.1 (h ▸ List.mem_map_of_mem hm')
      simp only [moveLog_cons, survivors, List.map_cons, List.pairwise_cons]
      by_cases ht : Touches key (moveLog key ms) (key m.2)
      · rw [if_pos ht]
        obtain ⟨m', hm', hk⟩ := (touches_moveLog key ms _).1 ht
        have hold : key m'.1 = key m.2 := hk.resolve_right (hlater m' hm')
        constructor
        · intro h
          have hcard := congrArg Multiset.card h
          have hle := length_survivors_moveLog_le key ms
          simp only [Multiset.coe_card, List.length_cons, List.length_map] at hcard
          omega
        · rintro ⟨h, -⟩
          exact absurd hold.symm (h m' hm')
      · rw [if_neg ht, ← Multiset.cons_coe, ← Multiset.cons_coe, Multiset.cons_inj_right,
          ih hnew.2]
        refine ⟨fun h => ⟨fun m' hm' hk => ht ?_, h⟩, fun h => h.2⟩
        exact (touches_moveLog key ms _).2 ⟨m', hm', Or.inl hk.symm⟩

/-- Moving rows one after another carries out all the moves at once exactly when
no row is moved to the old key of a row that is moved later.  The new keys are
distinct and none of them belongs to a row that is not moved. -/
theorem replay_moves_eq_iff {b : Multiset ρ} {ms : List (ρ × ρ)}
    (hnew : (ms.map fun m => key m.2).Nodup)
    (hfree : ∀ m ∈ ms, ∀ x ∈ b, key x = key m.2 → ∃ m' ∈ ms, key m'.1 = key x) :
    replay key b (moveLog key ms)
        = (b.filter fun x => ∀ m ∈ ms, key m.1 ≠ key x) + (ms.map Prod.snd : List ρ) ↔
      ms.Pairwise fun m m' => key m.2 ≠ key m'.1 := by
  have hkeep : (b.filter fun x => ¬ Touches key (moveLog key ms) (key x))
      = b.filter fun x => ∀ m ∈ ms, key m.1 ≠ key x := by
    apply Multiset.filter_congr
    intro x hx
    rw [touches_moveLog]
    constructor
    · intro h m hm hk
      exact h ⟨m, hm, Or.inl hk⟩
    · rintro h ⟨m, hm, hk | hk⟩
      · exact h m hm hk
      · obtain ⟨m', hm', hk'⟩ := hfree m hm x hx hk.symm
        exact h m' hm' hk'
  rw [replay_eq_merge, merge, hkeep, add_right_inj, survivors_moveLog_eq_iff key hnew]

end KeyedLog
