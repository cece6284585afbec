/-
Maps filled by a sequence of writes.

Writing a list of entries into a map, one after the other, leaves under each key the
value of the last entry with that key, or what was there before.
-/
import Mathlib.Data.List.Basic
import Mathlib.Data.List.Induction
import Mathlib.Logic.Function.Basic

namespace LastWrite

variable {κ ν : Type*} [DecidableEq κ]

/-- The map after one write. -/
def write (m : κ → Option ν) (x : κ × ν) : κ → Option ν := Function.update m x.1 (some x.2)

/-- The value of the last entry with the key. -/
def last (xs : List (κ × ν)) (k : κ) : Option ν :=
  ((xs.filter fun x => x.1 = k).getLast?).map Prod.snd

lemma last_append_singleton (xs : List (κ × ν)) (x : κ × ν) (k : κ) :
    last (xs ++ [x]) k = if x.1 = k then some x.2 else last xs k := by
  by_cases h : x.1 = k <;> simp [last, h]

/-- What a sequence of writes leaves in the map. -/
theorem foldl_write (xs : List (κ × ν)) (m : κ → Option ν) (k : κ) :
    xs.foldl write m k = (last xs k).or (m k) := by
  induction xs using List.reverseRecOn with
  | nil => rfl
  | append_singleton xs x ih =>
      rw [List.foldl_append, List.foldl_cons, List.foldl_nil, write, last_append_singleton]
      by_cases h : x.1 = k
      · subst h
        simp
      · rw [Function.update_of_ne (Ne.symm h), ih, if_neg h]

lemma mem_of_last_eq_some {xs : List (κ × ν)} {k : κ} {v : ν} (h : last xs k = some v) :
    (k, v) ∈ xs := by
  obtain ⟨⟨k', v'⟩, hx, rfl⟩ := Option.map_eq_some_iff.1 h
  obtain ⟨hmem, hk⟩ := List.mem_filter.1 (List.mem_of_getLast? hx)
  rw [decide_eq_true_eq] at hk
  exact hk ▸ hmem

lemma last_ne_none_of_mem {xs : List (κ × ν)} {k : κ} {v : ν} (h : (k, v) ∈ xs) :
    ∃ v', last xs k = some v' := by
  have hne : xs.filter (fun x => x.1 = k) ≠ [] :=
    List.ne_nil_of_mem (List.mem_filter.2 ⟨h, by simp⟩)
  rw [last, List.getLast?_eq_some_getLast hne]
  exact ⟨_, rfl⟩

/-- If all entries with the key have one value, that value is left. -/
lemma last_eq_some_of_forall {xs : List (κ × ν)} {k : κ} {v : ν} (h : (k, v) ∈ xs)
    (hall : ∀ v', (k, v') ∈ xs → v' = v) : last xs k = some v := by
  obtain ⟨v', hv'⟩ := last_ne_none_of_mem h
  rw [hv', hall v' (mem_of_last_eq_some hv')]

end LastWrite
